import KeepSse.Sse.Head

/-!
# What the filter keeps

Hop-by-hop filtering is exact (`stripHopByHop_exact`): a field goes if its name is one of the fixed
ones or an element of a `Connection` value, and every other field stays where it was.

## What it rests on

* As a map, the filtered one is a sublist (`stripHopByHop_eq_filter`), so the values of a name that
  stays keep their order. The code deletes name after name; that this is one pass over the fields
  holds because a deletion does not depend on the ones before it.
* The list of names to delete is read from the map before anything is deleted, and the filtered map
  has no `Connection` field left to list more (`connectionList_stripHopByHop`). So nothing is
  hop-by-hop in the filtered map that was not so before, and a second pass finds nothing
  (`stripHopByHop_stripHopByHop`).
* Whether a name is listed is said by lookups alone (`Listed`): some value of `Connection` that is
  visible ASCII has it between its commas, blanks trimmed, in any case.
-/

namespace KeepSse

open Text Http

/-- A `Connection` value of the map, all of it visible ASCII, has the name as an element: between
commas, blanks trimmed, in any case. -/
def Listed (h : HeaderMap) (n : HeaderName) : Prop :=
  ∃ v ∈ h.getAll HeaderName.connection, ∃ s, v.toStr = some s ∧
    ∃ t ∈ s.splitOn ',', trim t ≠ [] ∧ toAsciiLower (trim t) = n.text

theorem listed_iff {h : HeaderMap} {n : HeaderName} : Listed h n ↔ n ∈ connectionList h := by
  rw [mem_connectionList_iff]
  constructor
  · rintro ⟨v, hv, s, hs, t, ht, -, hn⟩
    exact ⟨v, hv, s, hs, t, ht, hn⟩
  · rintro ⟨v, hv, s, hs, t, ht, hn⟩
    refine ⟨v, hv, s, hs, t, ht, fun hnil ↦ n.ne_nil ?_, hn⟩
    rw [← hn, hnil]
    rfl

theorem isHopByHop_iff {h : HeaderMap} {n : HeaderName} :
    IsHopByHop h n ↔ n = HeaderName.connection ∨ Listed h n ∨ n ∈ hopByHop := by
  rw [IsHopByHop, listed_iff]

/-- Nothing is listed in a filtered map. -/
theorem connectionList_stripHopByHop (h : HeaderMap) : connectionList (stripHopByHop h) = [] := by
  have hself : IsHopByHop h HeaderName.connection := Or.inl rfl
  have hgone : (stripHopByHop h).getAll HeaderName.connection = [] := by
    rw [getAll_stripHopByHop, if_pos hself]
  rw [connectionList, hgone]
  rfl

/-- What is hop-by-hop in the filtered map was so before. -/
theorem isHopByHop_of_stripHopByHop {h : HeaderMap} {n : HeaderName}
    (hn : IsHopByHop (stripHopByHop h) n) : IsHopByHop h n := by
  rcases hn with hconn | hlisted | hfixed
  · exact Or.inl hconn
  · rw [connectionList_stripHopByHop] at hlisted
    exact absurd hlisted List.not_mem_nil
  · exact Or.inr (Or.inr hfixed)

theorem stripHopByHop_stripHopByHop (h : HeaderMap) :
    stripHopByHop (stripHopByHop h) = stripHopByHop h := by
  rw [stripHopByHop_eq_filter (stripHopByHop h), List.filter_eq_self]
  intro f hf
  rw [stripHopByHop_eq_filter] at hf
  have hkept := of_decide_eq_true (List.mem_filter.1 hf).2
  exact decide_eq_true fun hn ↦ hkept (isHopByHop_of_stripHopByHop hn)

/-- A name stays if it was there and is not hop-by-hop. -/
theorem contains_stripHopByHop_iff {h : HeaderMap} {n : HeaderName} :
    (stripHopByHop h).Contains n ↔ h.Contains n ∧ ¬IsHopByHop h n := by
  rw [HeaderMap.contains_iff_getAll_ne_nil, HeaderMap.contains_iff_getAll_ne_nil,
    getAll_stripHopByHop]
  split_ifs with hn <;> simp [hn]

/-- The head of a decoded event stream, name by name. -/
theorem getAll_passthroughSseResponse (resp : Response Incoming) (n : HeaderName) :
    (Sse.passthroughSseResponse resp).headers.getAll n =
      if n = Sse.xAccelBuffering then [Sse.noBuffering]
      else if n = HeaderName.contentLength ∨ n = HeaderName.contentEncoding then []
      else (stripHopByHop resp.headers).getAll n := by
  rw [Sse.passthroughSseResponse]
  split_ifs with hx hdrop
  · rw [hx, HeaderMap.getAll_insert_self]
  · rw [HeaderMap.getAll_insert_of_ne _ _ hx]
    rcases eq_or_ne n HeaderName.contentEncoding with rfl | hce
    · rw [HeaderMap.getAll_remove_self]
    · rw [HeaderMap.getAll_remove_of_ne _ hce, hdrop.resolve_right hce,
        HeaderMap.getAll_remove_self]
  · rw [not_or] at hdrop
    rw [HeaderMap.getAll_insert_of_ne _ _ hx, HeaderMap.getAll_remove_of_ne _ hdrop.2,
      HeaderMap.getAll_remove_of_ne _ hdrop.1]

/-- **Hop-by-hop filtering is exact.** A name stays if and only if it was there, is not
`Connection`, not one of the fixed names, and not listed by the `Connection` values; the values of a
name that stays are the same in the same order; and a second pass changes nothing. The head of a
decoded event stream is the filtered one but for `Content-Length` and `Content-Encoding`, which are
gone, and `X-Accel-Buffering`, which is `no`, whatever `Connection` lists. -/
theorem stripHopByHop_exact (h : HeaderMap) :
    (∀ n, (stripHopByHop h).Contains n ↔
      h.Contains n ∧ n ≠ HeaderName.connection ∧ n ∉ hopByHop ∧ ¬Listed h n) ∧
    (∀ n, (stripHopByHop h).Contains n → (stripHopByHop h).getAll n = h.getAll n) ∧
    stripHopByHop (stripHopByHop h) = stripHopByHop h ∧
    ∀ status body n, (Sse.passthroughSseResponse ⟨status, h, body⟩).headers.getAll n =
      if n = Sse.xAccelBuffering then [Sse.noBuffering]
      else if n = HeaderName.contentLength ∨ n = HeaderName.contentEncoding then []
      else (stripHopByHop h).getAll n := by
  refine ⟨fun n ↦ ?_, fun n hn ↦ ?_, stripHopByHop_stripHopByHop h,
    fun status body n ↦ getAll_passthroughSseResponse ⟨status, h, body⟩ n⟩
  · rw [contains_stripHopByHop_iff, isHopByHop_iff]
    tauto
  · rw [getAll_stripHopByHop, if_neg (contains_stripHopByHop_iff.1 hn).2]

end KeepSse
