import KeepSse.Transition
import Mathlib.Algebra.Ring.Nat
import Mathlib.Data.List.Forall2

/-!
# Pools of machines

Machines that run side by side and start one after the other: a pool. What happens in a pool is
something that one of its machines does, something that all of them notice (the clock goes on), or
the start of one more; a machine that has been started keeps its place.

The pool is a part of a larger system, and a step of the system is at most one step of the pool
(`Keeps`). What a run of the system means for one machine is its **share** of it. The two results
are that the share is a run of the machine (`Keeps.run_member`) and that every machine has such a
run behind it, from its start on (`Keeps.exists_new`); so what is true of every run of one machine
is true of every machine in the system, whatever the others do.
-/

namespace Transition

/-- What happens in a pool. -/
inductive PoolAction (σ α : Type*) where
  | one (i : ℕ) (a : α)
  | all (a : α)
  | new (s : σ)
  | rest

variable {σ α τ β : Type*}

/-- The part that one machine has in it. -/
def PoolAction.share (i : ℕ) : PoolAction σ α → Option α
  | .one j a => if j = i then some a else none
  | .all a => some a
  | .new _ => none
  | .rest => none

/-- A step of a pool. -/
def poolStep (step : σ → α → Option σ) (pool : List σ) : PoolAction σ α → Option (List σ)
  | .one i a => do
    let s ← pool[i]?
    let s' ← step s a
    some (pool.set i s')
  | .all a => pool.mapM fun s ↦ step s a
  | .new s => some (pool ++ [s])
  | .rest => some pool

/-- All the members of a list are mapped, or the list is not. -/
theorem mapM_eq_some_iff {f : σ → Option τ} {l : List σ} {l' : List τ} :
    l.mapM f = some l' ↔ List.Forall₂ (fun s t ↦ f s = some t) l l' := by
  induction l generalizing l' with
  | nil => simp [eq_comm]
  | cons s l ih =>
    simp only [List.mapM_cons, Option.bind_eq_bind, Option.bind_eq_some_iff, Option.pure_def,
      Option.some.injEq, ih, List.forall₂_cons_left_iff]
    constructor
    · rintro ⟨t, ht, l₁, hl₁, rfl⟩
      exact ⟨t, l₁, ht, hl₁, rfl⟩
    · rintro ⟨t, l₁, ht, hl₁, rfl⟩
      exact ⟨t, ht, l₁, hl₁, rfl⟩

theorem exists_mapM {f : σ → Option τ} {l : List σ} (h : ∀ s ∈ l, ∃ t, f s = some t) :
    ∃ l', l.mapM f = some l' := by
  induction l with
  | nil => exact ⟨[], rfl⟩
  | cons s l ih =>
    obtain ⟨t, ht⟩ := h s List.mem_cons_self
    obtain ⟨l', hl'⟩ := ih fun s' hs' ↦ h s' (List.mem_cons_of_mem _ hs')
    exact ⟨t :: l', by simp [ht, hl']⟩

theorem getElem?_of_forall₂ {R : σ → τ → Prop} {l : List σ} {l' : List τ}
    (h : List.Forall₂ R l l') {i : ℕ} {s : σ} (hs : l[i]? = some s) :
    ∃ t, l'[i]? = some t ∧ R s t := by
  induction h generalizing i with
  | nil => simp at hs
  | @cons s₁ t₁ l l' hst _ ih =>
    cases i with
    | zero =>
      obtain rfl : s₁ = s := by simpa using hs
      exact ⟨t₁, rfl, hst⟩
    | succ i => exact ih (by simpa using hs)

variable {step : σ → α → Option σ} {pool pool' : List σ} {x : PoolAction σ α}

/-- A machine of the pool takes its part in a step of the pool, and no other. -/
theorem poolStep_member (h : poolStep step pool x = some pool') {i : ℕ} {s : σ}
    (hs : pool[i]? = some s) :
    ∃ s', pool'[i]? = some s' ∧ run step s (x.share i).toList = some s' := by
  cases x with
  | one j a =>
    simp only [poolStep, Option.bind_eq_bind, Option.bind_eq_some_iff, Option.some.injEq] at h
    obtain ⟨s₁, hs₁, s₂, hstep, rfl⟩ := h
    by_cases hij : j = i
    · subst hij
      obtain rfl := Option.some.inj (hs₁.symm.trans hs)
      have hlt := (List.getElem?_eq_some_iff.1 hs).1
      refine ⟨s₂, List.getElem?_set_self hlt, ?_⟩
      simpa [PoolAction.share] using run_singleton hstep
    · refine ⟨s, by rw [List.getElem?_set_ne hij, hs], ?_⟩
      simp [PoolAction.share, hij]
  | all a =>
    obtain ⟨s', hs', hstep⟩ := getElem?_of_forall₂ (mapM_eq_some_iff.1 h) hs
    exact ⟨s', hs', run_singleton hstep⟩
  | new s₁ =>
    obtain rfl := Option.some.inj h
    refine ⟨s, ?_, rfl⟩
    rw [List.getElem?_append_left (List.getElem?_eq_some_iff.1 hs).1, hs]
  | rest =>
    obtain rfl := Option.some.inj h
    exact ⟨s, hs, rfl⟩

/-- No machine leaves a pool, and one enters it only as a new one, at the end. -/
theorem poolStep_length (h : poolStep step pool x = some pool') :
    pool'.length = pool.length ∨ ∃ s, x = .new s ∧ pool' = pool ++ [s] := by
  cases x with
  | one j a =>
    simp only [poolStep, Option.bind_eq_bind, Option.bind_eq_some_iff, Option.some.injEq] at h
    obtain ⟨s, -, s', -, rfl⟩ := h
    exact .inl List.length_set
  | all a => exact .inl (mapM_eq_some_iff.1 h).length_eq.symm
  | new s => exact .inr ⟨s, rfl, (Option.some.inj h).symm⟩
  | rest =>
    obtain rfl := Option.some.inj h
    exact .inl rfl

/-- Where a machine of the pool comes from. -/
theorem poolStep_cases (h : poolStep step pool x = some pool') {i : ℕ} {s' : σ}
    (hs' : pool'[i]? = some s') :
    (∃ s, pool[i]? = some s ∧ run step s (x.share i).toList = some s') ∨
      (x = .new s' ∧ i = pool.length) := by
  cases hs : pool[i]? with
  | some s =>
    obtain ⟨s₁, hs₁, hrun⟩ := poolStep_member h hs
    obtain rfl := Option.some.inj (hs₁.symm.trans hs')
    exact .inl ⟨s, rfl, hrun⟩
  | none =>
    have hle := List.getElem?_eq_none_iff.1 hs
    have hlt := (List.getElem?_eq_some_iff.1 hs').1
    rcases poolStep_length h with hsame | ⟨s, rfl, rfl⟩
    · omega
    · rw [List.getElem?_append_right hle] at hs'
      rw [List.length_append, List.length_singleton] at hlt
      have hi : i = pool.length := by omega
      subst hi
      rw [Nat.sub_self] at hs'
      exact .inr ⟨congrArg PoolAction.new (Option.some.inj hs'), rfl⟩

/-- What a pool holds is bounded by the number of places at which something may be held: if every
machine that holds anything has its number in a list of places, and none holds more than `B`. -/
theorem sum_le_of_places {w : σ → ℕ} {B : ℕ} {places : List ℕ} (hle : ∀ s ∈ pool, w s ≤ B)
    (hplace : ∀ (i : ℕ) (s : σ), pool[i]? = some s → w s ≠ 0 → i ∈ places) :
    (pool.map w).sum ≤ B * places.length := by
  induction pool using List.reverseRecOn generalizing places with
  | nil => simp
  | append_singleton pool s ih =>
    have hpool (i : ℕ) (s' : σ) (hs' : pool[i]? = some s') :
        i < pool.length ∧ (pool ++ [s])[i]? = some s' := by
      have hlt := (List.getElem?_eq_some_iff.1 hs').1
      exact ⟨hlt, by rw [List.getElem?_append_left hlt, hs']⟩
    have hle' : ∀ s' ∈ pool, w s' ≤ B := fun s' hs' ↦ hle s' (List.mem_append_left _ hs')
    rw [List.map_append, List.sum_append, List.map_singleton, List.sum_singleton]
    by_cases hw : w s = 0
    · rw [hw]
      exact ih hle' fun i s' hs' ↦ hplace i s' (hpool i s' hs').2
    · -- the last machine takes its own place
      have hlast : pool.length ∈ places := hplace pool.length s (by simp) hw
      have hrest := @ih (places.erase pool.length) hle' fun i s' hs' hw' ↦
        (List.mem_erase_of_ne (Nat.ne_of_lt (hpool i s' hs').1)).2
          (hplace i s' (hpool i s' hs').2 hw')
      have hs := hle s (by simp)
      have hpos := List.length_pos_of_mem hlast
      rw [List.length_erase_of_mem hlast] at hrest
      calc (pool.map w).sum + w s ≤ B * (places.length - 1) + B := Nat.add_le_add hrest hs
        _ = B * (places.length - 1 + 1) := (Nat.mul_succ _ _).symm
        _ = B * places.length := by rw [Nat.sub_add_cancel hpos]

/-! ### A system that keeps a pool -/

section

variable (step : σ → α → Option σ) (system : τ → β → Option τ) (members : τ → List σ)
  (effect : τ → β → PoolAction σ α)

/-- What a step of the system does to its pool is a step of the pool. -/
def Keeps : Prop :=
  ∀ t b t', system t b = some t' → poolStep step (members t) (effect t b) = some (members t')

/-- The share that a machine has in a run of the system. -/
def shares (i : ℕ) (t : τ) : List β → List α
  | [] => []
  | b :: bs => ((effect t b).share i).toList ++
    match system t b with
    | some t' => shares i t' bs
    | none => []

end

variable {system : τ → β → Option τ} {members : τ → List σ} {effect : τ → β → PoolAction σ α}
  {t t' : τ} {bs : List β}

/-- **A machine runs its share.** -/
theorem Keeps.run_member (h : Keeps step system members effect)
    (hrun : run system t bs = some t') {i : ℕ} {s : σ} (hs : (members t)[i]? = some s) :
    ∃ s', (members t')[i]? = some s' ∧ run step s (shares system effect i t bs) = some s' := by
  induction bs generalizing t s with
  | nil =>
    obtain rfl := Option.some.inj hrun
    exact ⟨s, hs, rfl⟩
  | cons b bs ih =>
    obtain ⟨t₁, hstep, hrest⟩ := Option.bind_eq_some_iff.1 hrun
    obtain ⟨s₁, hs₁, hrun₁⟩ := poolStep_member (h t b t₁ hstep) hs
    obtain ⟨s', hs', hrun'⟩ := ih hrest hs₁
    refine ⟨s', hs', ?_⟩
    rw [shares, hstep, run_append, hrun₁]
    exact hrun'

/-- **Every machine was started**, in a step that found as many machines as stand before it. -/
theorem Keeps.exists_new (h : Keeps step system members effect)
    (hrun : run system t bs = some t') (ht : members t = []) {i : ℕ}
    (hi : i < (members t').length) :
    ∃ pre b post t₁ t₂ s₀, bs = pre ++ b :: post ∧ run system t pre = some t₁ ∧
      system t₁ b = some t₂ ∧ effect t₁ b = .new s₀ ∧ (members t₁).length = i ∧
      run system t₂ post = some t' ∧ (members t₂)[i]? = some s₀ := by
  induction bs using List.reverseRecOn generalizing t' with
  | nil =>
    obtain rfl := Option.some.inj hrun
    simp [ht] at hi
  | append_singleton bs b ih =>
    obtain ⟨t₁, hrun₁, hstep⟩ := run_concat.1 hrun
    by_cases hold : i < (members t₁).length
    · obtain ⟨pre, b', post, t₂, t₃, s₀, rfl, hpre, hnew, heffect, hlength, hpost, hs₀⟩ :=
        ih hrun₁ hold
      exact ⟨pre, b', post ++ [b], t₂, t₃, s₀, by simp, hpre, hnew, heffect, hlength,
        run_concat.2 ⟨t₁, hpost, hstep⟩, hs₀⟩
    · rcases poolStep_length (h t₁ b t' hstep) with hsame | ⟨s₀, heffect, hmembers⟩
      · omega
      · have hlength : (members t₁).length = i := by
          rw [hmembers, List.length_append, List.length_singleton] at hi
          omega
        refine ⟨bs, b, [], t₁, t', s₀, rfl, hrun₁, hstep, heffect, hlength, rfl, ?_⟩
        simp [hmembers, ← hlength]

/-- A condition that every step of a run meets on behalf of each machine is one that the share of
each machine meets. -/
theorem Keeps.allSteps_shares (h : Keeps step system members effect)
    (hrun : run system t bs = some t') {C : σ → α → Prop} {i : ℕ} {s : σ}
    (hs : (members t)[i]? = some s)
    (hall : AllSteps system (fun t b ↦ ∀ s a, (members t)[i]? = some s →
      (effect t b).share i = some a → C s a) t bs) :
    AllSteps step C s (shares system effect i t bs) := by
  induction bs generalizing t s with
  | nil => exact fun pre a post _ has _ ↦ by simp [shares] at has
  | cons b bs ih =>
    obtain ⟨hb, hrest⟩ := allSteps_cons.1 hall
    obtain ⟨t₁, hstep, hrun'⟩ := Option.bind_eq_some_iff.1 hrun
    obtain ⟨s₁, hs₁, hrun₁⟩ := poolStep_member (h t b t₁ hstep) hs
    have ih := ih hrun' hs₁ (hrest t₁ hstep)
    rw [shares, hstep]
    cases hshare : (effect t b).share i with
    | none =>
      rw [hshare] at hrun₁
      obtain rfl := Option.some.inj hrun₁
      exact ih
    | some a =>
      rw [hshare] at hrun₁
      refine allSteps_cons.2 ⟨hb s a hs hshare, fun s₂ hs₂ ↦ ?_⟩
      obtain rfl : s₂ = s₁ := by
        simpa [run, Option.mem_def.1 hs₂] using hrun₁
      exact ih

end Transition
