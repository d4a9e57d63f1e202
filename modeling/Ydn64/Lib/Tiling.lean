import Mathlib.Data.List.Pairwise
import Mathlib.Data.List.Perm.Basic

/-!
# Pieces of a list

A piece is a run of elements with the place where it starts.  Pieces tile
`[0, n)` when no two of them overlap, none reaches beyond `n` and no place below
`n` is left free.  A list of length `n` that holds every piece of a tiling is
determined by the pieces (`Tiles.eq_of_at`), in whatever order they come
(`Tiles.perm`), and a tiling without one of its pieces leaves a gap
(`Tiles.gap`).

`cutFrom` cuts a list at given lengths.  The pieces of a cut tile the list and
stand in it (`tiles_cutFrom`, `at_of_mem_cutFrom`).
-/

namespace Ydn64.Lib

variable {α : Type}

/-- A run of elements and the place where it starts. -/
structure Piece (α : Type) where
  start : Nat
  data : List α
  deriving DecidableEq

namespace Piece

/-- The place behind the last element. -/
def stop (p : Piece α) : Nat := p.start + p.data.length

/-- Two pieces do not overlap. -/
def Apart (p q : Piece α) : Prop := p.stop ≤ q.start ∨ q.stop ≤ p.start

/-- A list holds the piece at its place. -/
def At (p : Piece α) (l : List α) : Prop := (l.drop p.start).take p.data.length = p.data

instance (p q : Piece α) : Decidable (p.Apart q) := inferInstanceAs (Decidable (_ ∨ _))

instance [DecidableEq α] (p : Piece α) (l : List α) : Decidable (p.At l) :=
  inferInstanceAs (Decidable (_ = _))

theorem Apart.symm {p q : Piece α} (h : p.Apart q) : q.Apart p := Or.symm h

instance : Std.Symm (@Apart α) := ⟨fun _ _ => Apart.symm⟩

/-- A list that holds a piece has its elements. -/
theorem At.getElem? {p : Piece α} {l : List α} (h : p.At l) {i : Nat} (hi : p.start ≤ i)
    (hlt : i < p.stop) : l[i]? = p.data[i - p.start]? := by
  have hlt' : i - p.start < p.data.length := by
    unfold stop at hlt
    omega
  have hdata : p.data[i - p.start]? = ((l.drop p.start).take p.data.length)[i - p.start]? :=
    congrArg (·[i - p.start]?) h.symm
  rw [hdata, List.getElem?_take, if_pos hlt', List.getElem?_drop, Nat.add_sub_cancel' hi]

/-- A list whose elements are those of a piece holds it. -/
theorem at_of_getElem? {p : Piece α} {l : List α}
    (h : ∀ j, j < p.data.length → l[p.start + j]? = p.data[j]?) : p.At l := by
  refine List.ext_getElem? fun j => ?_
  rw [List.getElem?_take]
  split_ifs with hj
  · rw [List.getElem?_drop]
    exact h j hj
  · rw [List.getElem?_eq_none (by omega)]

end Piece

/-- Some piece lies over the place. -/
def Covers (ps : List (Piece α)) (i : Nat) : Prop := ∃ p ∈ ps, p.start ≤ i ∧ i < p.stop

/-- The pieces tile `[0, n)`. -/
structure Tiles (ps : List (Piece α)) (n : Nat) : Prop where
  apart : ps.Pairwise Piece.Apart
  le : ∀ p ∈ ps, p.stop ≤ n
  covered : ∀ i < n, Covers ps i

/-- Of two pieces in a list without overlaps, one place has only one. -/
theorem eq_of_pairwise_apart {ps : List (Piece α)} (h : ps.Pairwise Piece.Apart) {p q : Piece α}
    (hp : p ∈ ps) (hq : q ∈ ps) {i : Nat} (hpi : p.start ≤ i ∧ i < p.stop)
    (hqi : q.start ≤ i ∧ i < q.stop) : p = q := by
  by_contra hne
  have happ : p.Apart q := h.forall hp hq hne
  unfold Piece.Apart at happ
  omega

namespace Tiles

variable {ps qs : List (Piece α)} {n : Nat}

/-- The order of the pieces does not matter. -/
theorem perm (h : Tiles ps n) (hperm : ps.Perm qs) : Tiles qs n where
  apart := h.apart.perm hperm Piece.Apart.symm
  le := fun p hp => h.le p (hperm.mem_iff.mpr hp)
  covered := fun i hi => by
    obtain ⟨p, hp, hpi⟩ := h.covered i hi
    exact ⟨p, hperm.mem_iff.mp hp, hpi⟩

/-- A list of length `n` is determined by the pieces that tile it. -/
theorem eq_of_at (h : Tiles ps n) {l l' : List α} (hl : l.length = n) (hl' : l'.length = n)
    (hat : ∀ p ∈ ps, p.At l) (hat' : ∀ p ∈ ps, p.At l') : l = l' := by
  refine List.ext_getElem? fun i => ?_
  by_cases hi : i < n
  · obtain ⟨p, hp, hstart, hstop⟩ := h.covered i hi
    rw [(hat p hp).getElem? hstart hstop, (hat' p hp).getElem? hstart hstop]
  · rw [List.getElem?_eq_none (by omega), List.getElem?_eq_none (by omega)]

/-- Without one of its pieces a tiling has a gap. -/
theorem gap (h : Tiles ps n) {p : Piece α} (hp : p ∈ ps) (hne : p.data ≠ [])
    (hsub : ∀ q ∈ qs, q ∈ ps ∧ q ≠ p) : p.start < n ∧ ¬ Covers qs p.start := by
  have hpos : 0 < p.data.length := List.length_pos_of_ne_nil hne
  have hstop : p.start < p.stop := by
    unfold Piece.stop
    omega
  refine ⟨by have := h.le p hp; omega, ?_⟩
  rintro ⟨q, hq, hqi⟩
  obtain ⟨hqs, hqne⟩ := hsub q hq
  exact hqne (eq_of_pairwise_apart h.apart hqs hp hqi ⟨Nat.le_refl _, hstop⟩)

end Tiles

/-! ## Cutting a list -/

/-- The parts of a list, one behind the other from place `pos` on. -/
def cutFrom (pos : Nat) : List (List α) → List (Piece α)
  | [] => []
  | part :: parts => ⟨pos, part⟩ :: cutFrom (pos + part.length) parts

theorem le_start_of_mem_cutFrom {parts : List (List α)} {pos : Nat} {p : Piece α}
    (h : p ∈ cutFrom pos parts) : pos ≤ p.start := by
  induction parts generalizing pos with
  | nil => simp [cutFrom] at h
  | cons part parts ih =>
    rw [cutFrom, List.mem_cons] at h
    rcases h with rfl | h
    · exact Nat.le_refl _
    · have := ih h
      omega

theorem stop_le_of_mem_cutFrom {parts : List (List α)} {pos : Nat} {p : Piece α}
    (h : p ∈ cutFrom pos parts) : p.stop ≤ pos + parts.flatten.length := by
  induction parts generalizing pos with
  | nil => simp [cutFrom] at h
  | cons part parts ih =>
    rw [cutFrom, List.mem_cons] at h
    rw [List.flatten_cons, List.length_append]
    rcases h with rfl | h
    · simp only [Piece.stop]
      omega
    · have := ih h
      omega

/-- The parts of a list stand in order. -/
theorem sorted_cutFrom (parts : List (List α)) (pos : Nat) :
    (cutFrom pos parts).Pairwise fun p q => p.stop ≤ q.start := by
  induction parts generalizing pos with
  | nil => exact List.Pairwise.nil
  | cons part parts ih => exact List.Pairwise.cons (fun _ hq => le_start_of_mem_cutFrom hq) (ih _)

theorem pairwise_cutFrom (parts : List (List α)) (pos : Nat) :
    (cutFrom pos parts).Pairwise Piece.Apart :=
  (sorted_cutFrom parts pos).imp .inl

theorem covers_cutFrom {parts : List (List α)} {pos i : Nat} (hpos : pos ≤ i)
    (hi : i < pos + parts.flatten.length) : Covers (cutFrom pos parts) i := by
  induction parts generalizing pos with
  | nil =>
    simp at hi
    omega
  | cons part parts ih =>
    rw [List.flatten_cons, List.length_append] at hi
    by_cases hpart : i < pos + part.length
    · exact ⟨⟨pos, part⟩, List.mem_cons_self, hpos, hpart⟩
    · have hrest : Covers (cutFrom (pos + part.length) parts) i := ih (by omega) (by omega)
      obtain ⟨p, hp, hpi⟩ := hrest
      exact ⟨p, List.mem_cons_of_mem _ hp, hpi⟩

/-- The parts of a list tile it. -/
theorem tiles_cutFrom (parts : List (List α)) :
    Tiles (cutFrom 0 parts) parts.flatten.length where
  apart := pairwise_cutFrom parts 0
  le := fun p hp => by
    have := stop_le_of_mem_cutFrom hp
    omega
  covered := fun i hi => covers_cutFrom (Nat.zero_le i) (by omega)

theorem at_of_mem_cutFrom_append {parts : List (List α)} {p : Piece α} (before : List α)
    (h : p ∈ cutFrom before.length parts) : p.At (before ++ parts.flatten) := by
  induction parts generalizing before with
  | nil => simp [cutFrom] at h
  | cons part parts ih =>
    rw [cutFrom, List.mem_cons] at h
    rw [List.flatten_cons]
    rcases h with rfl | h
    · simp [Piece.At]
    · rw [← List.length_append] at h
      rw [← List.append_assoc]
      exact ih (before ++ part) h

/-- A list holds its parts. -/
theorem at_of_mem_cutFrom {parts : List (List α)} {p : Piece α} (h : p ∈ cutFrom 0 parts) :
    p.At parts.flatten :=
  at_of_mem_cutFrom_append [] h

end Ydn64.Lib
