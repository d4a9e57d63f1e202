import Mathlib.Data.List.Infix

/-!
# Pieces joined by a separator

Text that is made of pieces with a separator between them: labels with dots, path
components with slashes.  The pieces do not hold the separator themselves, and
none of the ones looked for is empty.

`suffix_intercalate_iff` is the rule for programs that look for trailing pieces on
the text: they compare the whole, or look for the separator followed by the
pieces.  Both together find exactly the trailing pieces; the separator in front is
what keeps a piece from being matched by the end of a longer one.
-/

namespace Ydn64.Lib

variable {α β : Type} {sep : α}

/-- The text of some pieces, taken from the front. -/
theorem intercalate_cons {p : List α} {ps : List (List α)} (h : ps ≠ []) :
    [sep].intercalate (p :: ps) = p ++ sep :: [sep].intercalate ps := by
  rw [List.intercalate_cons_of_ne_nil h, List.append_assoc, List.singleton_append]

/-- A change of the characters is one of the pieces. -/
theorem map_intercalate (f : α → β) (ps : List (List α)) :
    ([sep].intercalate ps).map f = [f sep].intercalate (ps.map (List.map f)) := by
  induction ps with
  | nil => rfl
  | cons p ps ih =>
    by_cases hps : ps = []
    · simp [hps]
    · rw [intercalate_cons hps, List.map_cons, intercalate_cons (by simpa using hps), ← ih]
      simp

theorem mem_intercalate {x : α} {ps : List (List α)} (h : x ∈ [sep].intercalate ps) :
    x = sep ∨ ∃ p ∈ ps, x ∈ p := by
  induction ps with
  | nil => simp at h
  | cons p ps ih =>
    by_cases hps : ps = []
    · rw [hps, List.intercalate_singleton] at h
      exact .inr ⟨p, List.mem_cons_self, h⟩
    · rw [intercalate_cons hps, List.mem_append, List.mem_cons] at h
      rcases h with h | h | h
      · exact .inr ⟨p, List.mem_cons_self, h⟩
      · exact .inl h
      · exact (ih h).imp_right fun ⟨q, hq, hx⟩ => ⟨q, List.mem_cons_of_mem _ hq, hx⟩

theorem intercalate_ne_nil {ps : List (List α)} (hne : ps ≠ []) (hps : ∀ p ∈ ps, p ≠ []) :
    [sep].intercalate ps ≠ [] := by
  cases ps with
  | nil => exact absurd rfl hne
  | cons p ps =>
    have hp := hps p List.mem_cons_self
    by_cases hrest : ps = []
    · simpa [hrest] using hp
    · rw [intercalate_cons hrest]
      simp

/-- The text determines the pieces. -/
theorem intercalate_inj [DecidableEq α] {ps qs : List (List α)} (hne : ps ≠ [])
    (hps : ∀ p ∈ ps, p ≠ [] ∧ sep ∉ p) (hqs : ∀ q ∈ qs, sep ∉ q)
    (h : [sep].intercalate ps = [sep].intercalate qs) : ps = qs := by
  by_cases hqne : qs = []
  · rw [hqne, List.intercalate_nil] at h
    exact absurd h (intercalate_ne_nil hne fun p hp => (hps p hp).1)
  · rw [← List.splitOn_intercalate sep (fun p hp => (hps p hp).2) hne, h,
      List.splitOn_intercalate sep hqs hqne]

/-- The separator does not start inside a piece. -/
theorem cons_suffix_append_iff {p xs ys : List α} (hp : sep ∉ p) :
    sep :: xs <:+ p ++ ys ↔ sep :: xs <:+ ys := by
  induction p with
  | nil => rw [List.nil_append]
  | cons x p ih =>
    rw [List.cons_append, List.suffix_cons_iff, ih fun h => hp (List.mem_cons_of_mem _ h)]
    refine or_iff_right fun heq => ?_
    rw [(List.cons.inj heq).1] at hp
    exact hp List.mem_cons_self

/-- The last pieces of a text are those that it equals or ends in after a separator. -/
theorem suffix_intercalate_iff [DecidableEq α] {ps qs : List (List α)} (hne : ps ≠ [])
    (hps : ∀ p ∈ ps, p ≠ [] ∧ sep ∉ p) (hqs : ∀ q ∈ qs, sep ∉ q) :
    ([sep].intercalate ps = [sep].intercalate qs ∨
      sep :: [sep].intercalate ps <:+ [sep].intercalate qs) ↔ ps <:+ qs := by
  have hinj : ∀ qs : List (List α), (∀ q ∈ qs, sep ∉ q) →
      ([sep].intercalate ps = [sep].intercalate qs ↔ ps = qs) :=
    fun qs hqs => ⟨intercalate_inj hne hps hqs, fun h => by rw [h]⟩
  induction qs with
  | nil =>
    rw [hinj [] hqs, List.intercalate_nil, List.suffix_nil, List.suffix_nil]
    exact or_iff_left (List.cons_ne_nil _ _)
  | cons q qs ih =>
    have hq := hqs q List.mem_cons_self
    have hqs' : ∀ q ∈ qs, sep ∉ q := fun q hq => hqs q (List.mem_cons_of_mem _ hq)
    rw [hinj (q :: qs) hqs, List.suffix_cons_iff]
    refine or_congr_right (Iff.trans ?_ (ih hqs'))
    by_cases hrest : qs = []
    · -- One piece: no separator.
      rw [hrest, List.intercalate_singleton, List.intercalate_nil, List.suffix_nil]
      refine iff_of_false (fun h => hq (h.subset List.mem_cons_self)) ?_
      simpa using intercalate_ne_nil hne fun p hp => (hps p hp).1
    · rw [intercalate_cons hrest, cons_suffix_append_iff hq, List.suffix_cons_iff,
        List.cons.injEq]
      simp

end Ydn64.Lib
