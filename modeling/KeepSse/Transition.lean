import Mathlib.Data.List.Induction
import Mathlib.Tactic.Common

/-!
# Runs of a partial step function

A system is a function `step : σ → α → Option σ`: from a state and an action to the next state,
and `none` where the action is not possible there. A run is a list of actions, `run` its outcome.

A property of runs relates the whole list of actions to the state it leads to, so the rule for
proving one (`run_induction`) adds the action at the **end** of the run: that is where a machine
that keeps a summary of its history updates the summary. A property that holds only while every
step meets a side condition has the same rule with the condition at hand (`AllSteps.invariant`).
-/

namespace Transition

variable {σ α : Type*} (step : σ → α → Option σ)

/-- The state that a list of actions leads to, if every one of them is possible in turn. -/
def run (s : σ) : List α → Option σ
  | [] => some s
  | a :: as => (step s a).bind fun s' ↦ run s' as

@[simp] theorem run_nil (s : σ) : run step s [] = some s := rfl

variable {step}

theorem run_append {s : σ} {as bs : List α} :
    run step s (as ++ bs) = (run step s as).bind fun s' ↦ run step s' bs := by
  induction as generalizing s with
  | nil => rfl
  | cons a as ih =>
    simp only [List.cons_append, run]
    cases step s a with
    | none => rfl
    | some s₁ => exact ih

theorem run_singleton {s s₁ : σ} {a : α} (h : step s a = some s₁) : run step s [a] = some s₁ := by
  simp [run, h]

theorem run_pair {s s₁ s₂ : σ} {a b : α} (h₁ : step s a = some s₁) (h₂ : step s₁ b = some s₂) :
    run step s [a, b] = some s₂ := by
  simp [run, h₁, h₂]

/-- A run ends with a step from where its other actions led. -/
theorem run_concat {s s' : σ} {as : List α} {a : α} :
    run step s (as ++ [a]) = some s' ↔ ∃ s₁, run step s as = some s₁ ∧ step s₁ a = some s' := by
  rw [run_append, Option.bind_eq_some_iff]
  simp [run]

/-- **Induction over runs**: a relation between the actions and the state they lead to holds of
every run if the empty run has it and one more step keeps it. -/
theorem run_induction {s₀ : σ} {P : List α → σ → Prop} (nil : P [] s₀)
    (snoc : ∀ as a s s', run step s₀ as = some s → P as s → step s a = some s' →
      P (as ++ [a]) s') {as : List α} {s : σ} (h : run step s₀ as = some s) : P as s := by
  induction as using List.reverseRecOn generalizing s with
  | nil => simpa [← Option.some.inj h] using nil
  | append_singleton as a ih =>
    obtain ⟨s₁, hrun, hstep⟩ := run_concat.1 h
    exact snoc as a s₁ s hrun (ih hrun) hstep

/-- Every action of a run is a step from where the actions before it led. -/
theorem step_of_run {s₀ s s₁ : σ} {as pre post : List α} {a : α} (has : as = pre ++ a :: post)
    (hpre : run step s₀ pre = some s₁) (hrun : run step s₀ as = some s) :
    ∃ s₂, step s₁ a = some s₂ := by
  rw [has, run_append, hpre, Option.bind_some, run, Option.bind_eq_some_iff] at hrun
  obtain ⟨s₂, hstep, -⟩ := hrun
  exact ⟨s₂, hstep⟩

/-! ### Runs whose steps meet a condition -/

variable (step)

/-- Every step that a run takes meets a condition on the state before it and its action. -/
def AllSteps (C : σ → α → Prop) (s : σ) (as : List α) : Prop :=
  ∀ pre a post s', as = pre ++ a :: post → run step s pre = some s' → C s' a

variable {step}

theorem AllSteps.of_prefix {C : σ → α → Prop} {s : σ} {as bs : List α}
    (h : AllSteps step C s (as ++ bs)) : AllSteps step C s as :=
  fun pre a post s' has hrun ↦ h pre a (post ++ bs) s' (by simp [has]) hrun

/-- What a run does after its beginning meets the condition too. -/
theorem AllSteps.of_append {C : σ → α → Prop} {s s₁ : σ} {as bs : List α}
    (h : AllSteps step C s (as ++ bs)) (hrun : run step s as = some s₁) :
    AllSteps step C s₁ bs := by
  intro pre a post s' hbs hpre
  refine h (as ++ pre) a post s' (by rw [hbs, List.append_assoc]) ?_
  rw [run_append, hrun]
  exact hpre

theorem allSteps_nil {C : σ → α → Prop} {s : σ} : AllSteps step C s [] :=
  fun pre a post s' has _ ↦ by simp at has

/-- A run that goes on meets the condition if both its parts do. -/
theorem AllSteps.append {C : σ → α → Prop} {s s₁ : σ} {as bs : List α}
    (h : AllSteps step C s as) (hrun : run step s as = some s₁) (h' : AllSteps step C s₁ bs) :
    AllSteps step C s (as ++ bs) := by
  intro pre a post s' has hpre
  rcases List.append_eq_append_iff.1 has with ⟨l, rfl, rfl⟩ | ⟨l, rfl, hl⟩
  · rw [run_append, hrun] at hpre
    exact h' l a post s' rfl hpre
  · cases l with
    | nil =>
      rw [List.append_nil] at hrun
      obtain rfl := Option.some.inj (hrun.symm.trans hpre)
      exact h' [] a post _ hl.symm rfl
    | cons b l =>
      obtain ⟨rfl, rfl⟩ := List.cons.inj hl
      exact h pre a l s' rfl hpre

theorem AllSteps.imp {C C' : σ → α → Prop} {s : σ} {as : List α} (h : AllSteps step C s as)
    (himp : ∀ s', ∀ a ∈ as, C s' a → C' s' a) : AllSteps step C' s as :=
  fun pre a post s' has hrun ↦ himp s' a (by simp [has]) (h pre a post s' has hrun)

theorem allSteps_cons {C : σ → α → Prop} {s : σ} {a : α} {as : List α} :
    AllSteps step C s (a :: as) ↔ C s a ∧ ∀ s' ∈ step s a, AllSteps step C s' as := by
  constructor
  · intro h
    have happend : AllSteps step C s ([a] ++ as) := h
    exact ⟨h [] a as s rfl rfl, fun s' hs' ↦
      happend.of_append (run_singleton (Option.mem_def.1 hs'))⟩
  · rintro ⟨ha, h⟩ pre b post s' has hrun
    cases pre with
    | nil =>
      obtain ⟨rfl, -⟩ := List.cons.inj has
      obtain rfl := Option.some.inj hrun
      exact ha
    | cons a' pre =>
      obtain ⟨rfl, htail⟩ := List.cons.inj has
      obtain ⟨s₁, hstep, hrest⟩ := Option.bind_eq_some_iff.1 hrun
      exact h s₁ hstep pre b post s' htail hrest

/-- Whether the steps of a run meet a condition can be found out by running it. -/
instance AllSteps.decidable {C : σ → α → Prop} [∀ s a, Decidable (C s a)] :
    ∀ (as : List α) (s : σ), Decidable (AllSteps step C s as)
  | [], _ => .isTrue allSteps_nil
  | _ :: as, _ =>
    have : ∀ s', Decidable (AllSteps step C s' as) := AllSteps.decidable as
    decidable_of_iff _ allSteps_cons.symm

/-- **An invariant of the steps that meet a condition holds after every run of such steps.** -/
theorem AllSteps.invariant {C : σ → α → Prop} {I : σ → Prop} {s₀ s : σ} {as : List α}
    (init : I s₀) (hstep : ∀ s a s', I s → C s a → step s a = some s' → I s')
    (h : AllSteps step C s₀ as) (hrun : run step s₀ as = some s) : I s := by
  induction as using List.reverseRecOn generalizing s with
  | nil => simpa [← Option.some.inj hrun] using init
  | append_singleton as a ih =>
    obtain ⟨s₁, hrun₁, hs⟩ := run_concat.1 hrun
    exact hstep s₁ a s (ih h.of_prefix hrun₁) (h as a [] s₁ rfl hrun₁) hs

end Transition
