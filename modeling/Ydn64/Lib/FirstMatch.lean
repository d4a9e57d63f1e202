import Mathlib.Data.List.Basic

/-!
# The first match, or else the last fallback

A loop over a table that returns the first entry that matches, remembers on the
way the entries that can serve as a fallback, and returns the last of those if
none matches.  `selectFrom` is the loop, with the index of the entry for the
entry itself.

* `select_of_findIdx?` and `select_of_forall`: what it returns.
* `select_replace_iff`: when an entry that starts or stops to match makes no
  difference.
-/

namespace Ydn64.Lib

variable {α : Type} {p q : α → Bool} {x y : α} {xs ys : List α} {i k : Nat} {d : Option Nat}

/-- The loop from the entry of index `i` on, with the fallback so far. -/
def selectFrom (p q : α → Bool) : Nat → Option Nat → List α → Option Nat
  | _, d, [] => d
  | i, d, x :: xs => if p x then some i else selectFrom p q (i + 1) (if q x then some i else d) xs

/-- The loop over the table. -/
def select (p q : α → Bool) (xs : List α) : Option Nat := selectFrom p q 0 none xs

theorem selectFrom_cons_of_pos (h : p x = true) :
    selectFrom p q i d (x :: xs) = some i := if_pos h

theorem selectFrom_cons_of_neg (h : p x = false) :
    selectFrom p q i d (x :: xs) = selectFrom p q (i + 1) (if q x then some i else d) xs :=
  if_neg (by rw [h]; exact Bool.false_ne_true)

/-- Entries that do not match are passed over. -/
theorem selectFrom_append_of_forall (h : ∀ x ∈ xs, p x = false) :
    selectFrom p q i d (xs ++ ys) =
      selectFrom p q (i + xs.length) (selectFrom p q i d xs) ys := by
  induction xs generalizing i d with
  | nil => rfl
  | cons x xs ih =>
    obtain ⟨hx, hxs⟩ := List.forall_mem_cons.1 h
    rw [List.cons_append, selectFrom_cons_of_neg hx, selectFrom_cons_of_neg hx, ih hxs,
      List.length_cons, Nat.add_right_comm, Nat.add_assoc]

/-- What follows a match does not count. -/
theorem selectFrom_append_of_exists (h : ∃ x ∈ xs, p x = true) :
    selectFrom p q i d (xs ++ ys) = selectFrom p q i d xs := by
  induction xs generalizing i d with
  | nil => exact absurd h (by simp)
  | cons x xs ih =>
    cases hx : p x with
    | true => rw [List.cons_append, selectFrom_cons_of_pos hx, selectFrom_cons_of_pos hx]
    | false =>
      rw [List.cons_append, selectFrom_cons_of_neg hx, selectFrom_cons_of_neg hx]
      exact ih (by simpa [hx] using h)

/-- A first match is returned. -/
theorem selectFrom_of_findIdx? (h : xs.findIdx? p = some k) :
    selectFrom p q i d xs = some (i + k) := by
  induction xs generalizing i d k with
  | nil => simp at h
  | cons x xs ih =>
    rw [List.findIdx?_cons] at h
    cases hx : p x with
    | true =>
      rw [hx, if_pos rfl] at h
      rw [selectFrom_cons_of_pos hx, ← Option.some.inj h, Nat.add_zero]
    | false =>
      rw [hx, if_neg Bool.false_ne_true] at h
      obtain ⟨j, hj, rfl⟩ := Option.map_eq_some_iff.1 h
      rw [selectFrom_cons_of_neg hx, ih hj, Nat.add_assoc, Nat.add_comm 1 j]

/-- What is returned without a match is the fallback so far or one of the entries. -/
theorem selectFrom_of_forall (h : ∀ x ∈ xs, p x = false) (hk : selectFrom p q i d xs = some k) :
    d = some k ∨ i ≤ k ∧ ∃ x, xs[k - i]? = some x ∧ q x = true := by
  induction xs generalizing i d with
  | nil => exact .inl hk
  | cons x xs ih =>
    obtain ⟨hx, hxs⟩ := List.forall_mem_cons.1 h
    rw [selectFrom_cons_of_neg hx] at hk
    rcases ih hxs hk with hd | ⟨hle, y, hy, hqy⟩
    · split_ifs at hd with hqx
      · rw [← Option.some.inj hd, Nat.sub_self]
        exact .inr ⟨Nat.le_refl _, x, rfl, hqx⟩
      · exact .inl hd
    · have hsub : k - i = k - (i + 1) + 1 := by omega
      refine .inr ⟨by omega, y, ?_, hqy⟩
      rw [hsub, List.getElem?_cons_succ]
      exact hy

/-- Nothing is returned only if there is nothing to fall back to. -/
theorem selectFrom_eq_none_iff (h : ∀ x ∈ xs, p x = false) :
    selectFrom p q i d xs = none ↔ d = none ∧ ∀ x ∈ xs, q x = false := by
  induction xs generalizing i d with
  | nil => simp [selectFrom]
  | cons x xs ih =>
    obtain ⟨hx, hxs⟩ := List.forall_mem_cons.1 h
    rw [selectFrom_cons_of_neg hx, ih hxs, List.forall_mem_cons]
    cases q x with
    | true => simp
    | false => simp

/-- An earlier entry is returned only as the fallback, when no later entry
matches or can serve. -/
theorem selectFrom_eq_earlier_iff (hki : k < i) :
    selectFrom p q i d xs = some k ↔
      d = some k ∧ ∀ x ∈ xs, p x = false ∧ q x = false := by
  induction xs generalizing i d with
  | nil => simp [selectFrom]
  | cons x xs ih =>
    rw [List.forall_mem_cons]
    cases hx : p x with
    | true =>
      rw [selectFrom_cons_of_pos hx]
      refine iff_of_false (fun h => ?_) fun h => absurd h.2.1.1 (by simp)
      have := Option.some.inj h
      omega
    | false =>
      rw [selectFrom_cons_of_neg hx, ih (by omega)]
      cases q x with
      | true =>
        refine iff_of_false (fun h => ?_) fun h => absurd h.2.1.2 (by simp)
        have := Option.some.inj h.1
        omega
      | false => simp

/-- Two tables whose entries answer alike. -/
theorem selectFrom_map {β : Type} {p' q' : β → Bool} {f : α → β}
    (h : ∀ x ∈ xs, p' (f x) = p x ∧ q' (f x) = q x) :
    selectFrom p' q' i d (xs.map f) = selectFrom p q i d xs := by
  induction xs generalizing i d with
  | nil => rfl
  | cons x xs ih =>
    obtain ⟨⟨hp, hq⟩, hxs⟩ := List.forall_mem_cons.1 h
    rw [List.map_cons, selectFrom, selectFrom, hp, hq, ih hxs]

theorem select_of_findIdx? (h : xs.findIdx? p = some k) : select p q xs = some k := by
  rw [select, selectFrom_of_findIdx? h, Nat.zero_add]

/-- Without a match a fallback is returned, if there is one. -/
theorem select_of_forall (h : ∀ x ∈ xs, p x = false) :
    (∀ k, select p q xs = some k → ∃ x, xs[k]? = some x ∧ q x = true) ∧
      (select p q xs = none ↔ ∀ x ∈ xs, q x = false) := by
  constructor
  · intro k hk
    rcases selectFrom_of_forall h hk with hd | ⟨-, x, hx, hqx⟩
    · cases hd
    · exact ⟨x, hx, hqx⟩
  · rw [select, selectFrom_eq_none_iff h]
    simp

/-- An entry in place of one that answers alike makes no difference. -/
theorem select_replace_of_eq (hp : p x = p y) (hq : q x = q y) :
    select p q (xs ++ x :: ys) = select p q (xs ++ y :: ys) := by
  by_cases hex : ∃ z ∈ xs, p z = true
  · rw [select, select, selectFrom_append_of_exists hex, selectFrom_append_of_exists hex]
  · have hall : ∀ z ∈ xs, p z = false := by simpa using hex
    rw [select, select, selectFrom_append_of_forall hall, selectFrom_append_of_forall hall,
      selectFrom, selectFrom, hp, hq]

/-- An entry that matches in place of one that does not makes no difference exactly
if an entry before it matches, or if no later one does and the one that does not
is the last fallback. -/
theorem select_replace_iff (hx : p x = true) (hy : p y = false) :
    select p q (xs ++ x :: ys) = select p q (xs ++ y :: ys) ↔
      (∃ z ∈ xs, p z = true) ∨ q y = true ∧ ∀ z ∈ ys, p z = false ∧ q z = false := by
  by_cases hex : ∃ z ∈ xs, p z = true
  · rw [select, select, selectFrom_append_of_exists hex, selectFrom_append_of_exists hex]
    exact iff_of_true rfl (.inl hex)
  · have hall : ∀ z ∈ xs, p z = false := by simpa using hex
    rw [select, select, selectFrom_append_of_forall hall, selectFrom_append_of_forall hall,
      selectFrom_cons_of_pos hx, selectFrom_cons_of_neg hy, eq_comm,
      selectFrom_eq_earlier_iff (Nat.lt_succ_self _), or_iff_right hex]
    refine and_congr_left fun _ => ?_
    -- The fallback so far is an entry before it.
    have hbefore : selectFrom p q 0 none xs ≠ some (0 + xs.length) := by
      intro hk
      rcases selectFrom_of_forall hall hk with hd | ⟨-, z, hz, -⟩
      · cases hd
      · rw [List.getElem?_eq_none (by omega)] at hz
        cases hz
    cases q y with
    | true => simp
    | false => simpa using hbefore

end Ydn64.Lib
