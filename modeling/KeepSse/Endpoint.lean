import KeepSse.Detect

/-!
# What the matcher of endpoints decides

The matcher looks at raw suffixes of the path, and promises to compare whole segments. It promises
to find a pair in the query behind a leading `?`, too. The first promise is kept, and the second one
is not (`matchEndpoint_exact`, `toleratesMarks_iff`).

## What each result rests on

* `matchEndpoint_exact`: every suffix that is looked for begins with the separator, and for a path
  that begins with `/` such a suffix is a run of last segments (`Text.flatMap_cons_suffix_iff`,
  `isSuffixOf_path_iff`). So an interface is named by the last segments alone
  (`EndpointKind.Names`), and what stands before them does not count (`EndpointKind.Names.append`).
  The four conditions exclude one another since the last segment decides between them
  (`kindOfLast`), so the order of the tests does not matter.
* `toleratesMarks_iff`: the query is read part by part, and its parts are compared whole
  (`hasAltSse_eq_true_iff`), so a stray `&` does no harm (`hasAltSse_amps`). But a `?` in front of
  the query stays in front of its first part (`hasAltSse_question`), and a pair that is there only
  is not found.
-/

namespace KeepSse

open Text Http

/-! ### The query -/

/-- A query has the pair if one of its parts has the key and the value around its first `=`. -/
def HasPair (q : Str) : Prop :=
  ∃ part ∈ q.splitOn '&', splitOnce '=' part = some ("alt".toList, "sse".toList)

/-- The part that spells the pair. -/
def altSse : Str := "alt=sse".toList

theorem splitOnce_eq_pair_iff {part : Str} :
    splitOnce '=' part = some ("alt".toList, "sse".toList) ↔ part = altSse := by
  rw [splitOnce_eq_some_iff]
  exact and_iff_left (by decide)

theorem hasPair_iff {q : Str} : HasPair q ↔ altSse ∈ q.splitOn '&' := by
  simp only [HasPair, splitOnce_eq_pair_iff, exists_eq_right]

/-- **The scan looks for one part.** -/
theorem hasAltSse_eq_true_iff {q : Str} : hasAltSse q = true ↔ altSse ∈ q.splitOn '&' := by
  rw [hasAltSse, List.any_eq_true, ← hasPair_iff]
  refine exists_congr fun part ↦ and_congr_right fun _ ↦ ?_
  cases hsplit : splitOnce '=' part with
  | none => simp
  | some kv => simp [Prod.ext_iff]

/-- A `?` in front of a query is read as part of its first key. -/
theorem hasAltSse_question {q : Str} :
    hasAltSse ('?' :: q) = true ↔ altSse ∈ (q.splitOn '&').tail := by
  rw [hasAltSse_eq_true_iff, List.splitOn_cons_eq_if_modifyHead, if_neg (by decide)]
  cases q.splitOn '&' with
  | nil => simp
  | cons part parts =>
    have hfirst : altSse ≠ '?' :: part := by
      intro h
      have hhead : altSse.head? = some '?' := by rw [h, List.head?_cons]
      exact absurd hhead (by decide)
    simp [hfirst]

/-- Empty parts at either end are no pairs. -/
theorem hasAltSse_amps (q : Str) (m n : ℕ) :
    hasAltSse (List.replicate m '&' ++ q ++ List.replicate n '&') = hasAltSse q := by
  have hne : altSse ≠ [] := by decide
  have hleft (s : Str) : hasAltSse ('&' :: s) = hasAltSse s := by
    rw [Bool.eq_iff_iff, hasAltSse_eq_true_iff, hasAltSse_eq_true_iff, ← List.nil_append ('&' :: s),
      List.splitOn_append_cons_self]
    simp [hne]
  have hright (s : Str) : hasAltSse (s ++ ['&']) = hasAltSse s := by
    rw [Bool.eq_iff_iff, hasAltSse_eq_true_iff, hasAltSse_eq_true_iff,
      List.splitOn_append_cons_self]
    simp [hne]
  induction n with
  | zero =>
    rw [List.replicate_zero, List.append_nil]
    induction m with
    | zero => rfl
    | succ m ih => rw [List.replicate_succ, List.cons_append, hleft, ih]
  | succ n ih => rw [List.replicate_succ', ← List.append_assoc, hright, ih]

/-- A query without one leading `?`, if it has one. -/
def dropMark : Str → Str
  | '?' :: q => q
  | q => q

/-- What the scan promises of a query: it finds the pair behind one leading `?`; and where there is
none, neither putting one there nor adding `&`s at either end changes the answer. -/
def ToleratesMarks (q : Str) : Prop :=
  (hasAltSse q = true ↔ HasPair (dropMark q)) ∧
    (q.head? ≠ some '?' → hasAltSse ('?' :: q) = hasAltSse q ∧
      ∀ m n, hasAltSse (List.replicate m '&' ++ q ++ List.replicate n '&') = hasAltSse q)

/-- The pair is the first part of a query, behind an optional `?`, and no other. -/
def OnlyFirst (q : Str) : Prop :=
  ((dropMark q).splitOn '&').head? = some altSse ∧ altSse ∉ ((dropMark q).splitOn '&').tail

instance (q : Str) : Decidable (OnlyFirst q) :=
  inferInstanceAs (Decidable (_ ∧ _))

/-- A leading `?` hides the pair exactly where it is in the first part only. -/
theorem mem_tail_iff {parts : List Str} :
    (altSse ∈ parts.tail ↔ altSse ∈ parts) ↔
      ¬(parts.head? = some altSse ∧ altSse ∉ parts.tail) := by
  cases parts with
  | nil => simp
  | cons part parts =>
    rw [List.tail_cons, List.mem_cons, List.head?_cons, Option.some_inj, eq_comm (a := part)]
    tauto

theorem dropMark_of_ne {q : Str} (h : q.head? ≠ some '?') : dropMark q = q := by
  rw [dropMark]
  rintro r rfl
  exact h rfl

/-- **The scan keeps its promise exactly where the pair is not the first part alone.** -/
theorem toleratesMarks_iff (q : Str) : ToleratesMarks q ↔ ¬OnlyFirst q := by
  rw [ToleratesMarks, OnlyFirst, ← mem_tail_iff]
  by_cases hmark : q.head? = some '?'
  · obtain ⟨r, rfl⟩ : ∃ r, q = '?' :: r := List.head?_eq_some_iff.1 hmark
    rw [hasAltSse_question, hasPair_iff, show dropMark ('?' :: r) = r from rfl]
    simp
  · rw [dropMark_of_ne hmark, hasAltSse_eq_true_iff, hasPair_iff, Bool.eq_iff_iff,
      hasAltSse_question, hasAltSse_eq_true_iff]
    simp only [iff_self, true_and, hasAltSse_amps, implies_true, and_true]
    exact ⟨fun h ↦ h hmark, fun h _ ↦ h⟩

/-- The query of a client who sends the `?` along: the pair is there, and is not found. -/
theorem not_toleratesMarks_question : ¬ToleratesMarks "?alt=sse".toList := by
  intro h
  exact absurd (h.1.2 (hasPair_iff.2 (by decide))) (by decide)

/-! ### The path -/

/-- The segments of a path, with the query, name an interface. -/
def EndpointKind.Names (segments : List Str) (query : Option Str) : EndpointKind → Prop
  | .chatCompletions => ["chat".toList, "completions".toList] <:+ segments
  | .responses => segments.getLast? = some "responses".toList
  | .anthropicMessages => segments.getLast? = some "messages".toList
  | .geminiStream => (∃ l, segments.getLast? = some l ∧ ":streamGenerateContent".toList <:+ l) ∧
      hasAltSse (query.getD []) = true

/-- The interface that a last segment leaves possible. -/
def kindOfLast (last : Str) : Option EndpointKind :=
  if last = "completions".toList then some .chatCompletions
  else if last = "responses".toList then some .responses
  else if last = "messages".toList then some .anthropicMessages
  else if ":streamGenerateContent".toList <:+ last then some .geminiStream
  else none

section

variable {segments : List Str} {query : Option Str} {k k' : EndpointKind}

/-- The last segment of a path that names an interface decides which. -/
theorem EndpointKind.Names.exists_last (h : k.Names segments query) :
    ∃ last, segments.getLast? = some last ∧ kindOfLast last = some k := by
  cases k with
  | chatCompletions =>
    obtain ⟨xs, rfl⟩ := h
    exact ⟨"completions".toList, by simp, by decide⟩
  | responses => exact ⟨_, h, by decide⟩
  | anthropicMessages => exact ⟨_, h, by decide⟩
  | geminiStream =>
    obtain ⟨⟨last, hlast, hsuffix⟩, -⟩ := h
    have hne (s : Str) (hs : ¬":streamGenerateContent".toList <:+ s) : last ≠ s :=
      fun h ↦ hs (h ▸ hsuffix)
    refine ⟨last, hlast, ?_⟩
    rw [kindOfLast, if_neg (hne _ (by decide)), if_neg (hne _ (by decide)),
      if_neg (hne _ (by decide)), if_pos hsuffix]

/-- **The four conditions exclude each other.** -/
theorem EndpointKind.Names.unique (h : k.Names segments query) (h' : k'.Names segments query) :
    k = k' := by
  obtain ⟨last, hlast, hk⟩ := h.exists_last
  obtain ⟨last', hlast', hk'⟩ := h'.exists_last
  obtain rfl : last = last' := Option.some_inj.1 (hlast.symm.trans hlast')
  exact Option.some_inj.1 (hk.symm.trans hk')

/-- What stands before the last segments does not count. -/
theorem EndpointKind.Names.append (h : k.Names segments query) (xs : List Str) :
    k.Names (xs ++ segments) query := by
  have hlast {l : Str} (hl : segments.getLast? = some l) : (xs ++ segments).getLast? = some l := by
    rw [List.getLast?_append, hl, Option.some_or]
  cases k with
  | chatCompletions => exact h.trans (List.suffix_append xs segments)
  | responses => exact hlast h
  | anthropicMessages => exact hlast h
  | geminiStream =>
    obtain ⟨⟨l, hl, hsuffix⟩, hquery⟩ := h
    exact ⟨⟨l, hlast hl, hsuffix⟩, hquery⟩

/-- An empty first segment does not count either. -/
theorem EndpointKind.Names.of_cons_nil (h : k.Names ([] :: segments) query)
    (hne : segments ≠ []) : k.Names segments query := by
  have hlast : ([] :: segments).getLast? = segments.getLast? := by
    rw [List.getLast?_cons, List.getLast?_eq_some_getLast hne, Option.getD_some]
  cases k with
  | chatCompletions =>
    rcases List.suffix_cons_iff.1 h with heq | hsuffix
    · exact absurd (List.cons.inj heq).1 (by decide)
    · exact hsuffix
  | responses => exact hlast.symm.trans h
  | anthropicMessages => exact hlast.symm.trans h
  | geminiStream => exact ⟨hlast ▸ h.1, h.2⟩

end

/-- The segments of a path: nothing comes before its first `/`. -/
theorem splitOn_path (rest : Str) : ('/' :: rest).splitOn '/' = [] :: rest.splitOn '/' := by
  rw [← List.nil_append ('/' :: rest), List.splitOn_append_cons_self]
  rfl

/-- A suffix of whole segments. -/
theorem isSuffixOf_path_iff {rest : Str} (parts : List Str) (h : ∀ l ∈ parts, '/' ∉ l)
    (hhead : parts.head? ≠ some []) :
    (parts.flatMap ('/' :: ·)).isSuffixOf ('/' :: rest) = true ↔
      parts <:+ ('/' :: rest).splitOn '/' := by
  rw [List.isSuffixOf_iff_suffix, flatMap_cons_suffix_iff h, splitOn_path, List.suffix_cons_iff]
  refine (or_iff_right ?_).symm
  rintro rfl
  exact hhead rfl

theorem singleton_suffix_iff {l : Str} {segments : List Str} :
    [l] <:+ segments ↔ segments.getLast? = some l := by
  rw [List.getLast?_eq_some_iff]
  exact exists_congr fun xs ↦ eq_comm

/-- **The matcher's tests are the four conditions.** -/
theorem matchEndpoint_eq_some_iff {method : Method} {rest : Str} {query : Option Str}
    {kind : EndpointKind} :
    matchEndpoint method ('/' :: rest) query = some kind ↔
      method = Method.post ∧ kind.Names (('/' :: rest).splitOn '/') query := by
  have hchat : "/chat/completions".toList.isSuffixOf ('/' :: rest) = true ↔
      EndpointKind.chatCompletions.Names (('/' :: rest).splitOn '/') query :=
    isSuffixOf_path_iff ["chat".toList, "completions".toList] (by decide) (by decide)
  have hresp : "/responses".toList.isSuffixOf ('/' :: rest) = true ↔
      EndpointKind.responses.Names (('/' :: rest).splitOn '/') query :=
    (isSuffixOf_path_iff ["responses".toList] (by decide) (by decide)).trans
      singleton_suffix_iff
  have hmsg : "/messages".toList.isSuffixOf ('/' :: rest) = true ↔
      EndpointKind.anthropicMessages.Names (('/' :: rest).splitOn '/') query :=
    (isSuffixOf_path_iff ["messages".toList] (by decide) (by decide)).trans
      singleton_suffix_iff
  -- the branch that is taken names its interface, and no other is named
  have hfound {k : EndpointKind} (hk : k.Names (('/' :: rest).splitOn '/') query) :
      some k = some kind ↔ kind.Names (('/' :: rest).splitOn '/') query := by
    rw [Option.some_inj]
    exact ⟨fun h ↦ h ▸ hk, fun h ↦ hk.unique h⟩
  rw [matchEndpoint]
  by_cases hpost : method = Method.post
  · rw [if_neg (not_not_intro hpost), iff_true_intro hpost, true_and]
    split_ifs with h₁ h₂ h₃
    · exact hfound (hchat.1 h₁)
    · exact hfound (hresp.1 h₂)
    · exact hfound (hmsg.1 h₃)
    · constructor
      · intro h
        obtain ⟨last, hlast, hif⟩ := Option.bind_eq_some_iff.1 h
        split_ifs at hif with hgem
        rw [Bool.and_eq_true, List.isSuffixOf_iff_suffix] at hgem
        cases hif
        exact ⟨⟨last, hlast, hgem.1⟩, hgem.2⟩
      · intro h
        cases kind with
        | chatCompletions => exact absurd (hchat.2 h) h₁
        | responses => exact absurd (hresp.2 h) h₂
        | anthropicMessages => exact absurd (hmsg.2 h) h₃
        | geminiStream =>
          obtain ⟨⟨last, hlast, hsuffix⟩, hquery⟩ := h
          rw [hlast, Option.bind_eq_bind, Option.bind_some, List.isSuffixOf_iff_suffix.2 hsuffix,
            hquery]
          rfl
  · rw [if_pos hpost]
    simp [hpost]

/-- A path that is matched is matched behind any segments. -/
theorem matchEndpoint_append {method : Method} {rest : Str} {query : Option Str}
    {kind : EndpointKind} (h : matchEndpoint method ('/' :: rest) query = some kind)
    (pre : List Str) :
    matchEndpoint method (pre.flatMap ('/' :: ·) ++ '/' :: rest) query = some kind := by
  cases pre with
  | nil => exact h
  | cons s pre =>
    obtain ⟨hpost, hnames⟩ := matchEndpoint_eq_some_iff.1 h
    rw [splitOn_path] at hnames
    rw [List.flatMap_cons, List.cons_append, List.cons_append, matchEndpoint_eq_some_iff,
      splitOn_path, List.splitOn_append_cons_self]
    exact ⟨hpost, (hnames.of_cons_nil (List.splitOn_ne_nil _ _)).append ([] :: _)⟩

/-- Behind a path that is matched, a segment that names nothing by itself names nothing. -/
theorem matchEndpoint_append_segment {method : Method} {rest s : Str} {query : Option Str}
    {kind : EndpointKind} (h : matchEndpoint method ('/' :: rest) query = some kind)
    (hs : '/' ∉ s) (hresp : s ≠ "responses".toList) (hmsg : s ≠ "messages".toList)
    (hgem : ¬":streamGenerateContent".toList <:+ s) :
    matchEndpoint method ('/' :: rest ++ '/' :: s) query = none := by
  obtain ⟨-, hnames⟩ := matchEndpoint_eq_some_iff.1 h
  obtain ⟨last, hlast, hkind⟩ := hnames.exists_last
  have hsplit : ('/' :: rest ++ '/' :: s).splitOn '/' = ('/' :: rest).splitOn '/' ++ [s] := by
    rw [List.splitOn_append_cons_self, List.splitOn_eq_singleton hs]
  rw [Option.eq_none_iff_forall_ne_some]
  intro kind' h'
  rw [List.cons_append, matchEndpoint_eq_some_iff, ← List.cons_append, hsplit] at h'
  obtain ⟨-, hnames'⟩ := h'
  have hs_last : (('/' :: rest).splitOn '/' ++ [s]).getLast? = some s := List.getLast?_concat
  cases kind' with
  | chatCompletions =>
    -- the matched path would have to end with `chat`, which names nothing
    obtain ⟨xs, hxs⟩ := hnames'
    rw [show ["chat".toList, "completions".toList] = ["chat".toList] ++ ["completions".toList]
      from rfl, ← List.append_assoc] at hxs
    rw [← (List.append_inj' hxs rfl).1, List.getLast?_concat, Option.some_inj] at hlast
    rw [← hlast, show kindOfLast "chat".toList = none by decide] at hkind
    cases hkind
  | responses => exact hresp (Option.some_inj.1 (hs_last.symm.trans hnames'))
  | anthropicMessages => exact hmsg (Option.some_inj.1 (hs_last.symm.trans hnames'))
  | geminiStream =>
    obtain ⟨⟨l, hl, hsuffix⟩, -⟩ := hnames'
    rw [Option.some_inj.1 (hs_last.symm.trans hl)] at hgem
    exact hgem hsuffix

/-- **Endpoint matching is by whole segments and does not depend on the prefix.** For a path that
begins with `/`: an interface is found if and only if the request is a POST and the last segments,
with the query, name it; no two interfaces are named at once; a match stays the same behind any
segments; and one more segment, if it is not one that is looked for by itself, ends it. -/
theorem matchEndpoint_exact (method : Method) (rest : Str) (query : Option Str) :
    (∀ kind, matchEndpoint method ('/' :: rest) query = some kind ↔
      method = Method.post ∧ kind.Names (('/' :: rest).splitOn '/') query) ∧
    (∀ kind kind' : EndpointKind, kind.Names (('/' :: rest).splitOn '/') query →
      kind'.Names (('/' :: rest).splitOn '/') query → kind = kind') ∧
    ∀ kind, matchEndpoint method ('/' :: rest) query = some kind →
      (∀ pre : List Str,
        matchEndpoint method (pre.flatMap ('/' :: ·) ++ '/' :: rest) query = some kind) ∧
      ∀ s, '/' ∉ s → s ≠ "responses".toList → s ≠ "messages".toList →
        ¬":streamGenerateContent".toList <:+ s →
        matchEndpoint method ('/' :: rest ++ '/' :: s) query = none :=
  ⟨fun _ ↦ matchEndpoint_eq_some_iff, fun _ _ ↦ EndpointKind.Names.unique, fun _ h ↦
    ⟨matchEndpoint_append h, fun _ ↦ matchEndpoint_append_segment h⟩⟩

end KeepSse
