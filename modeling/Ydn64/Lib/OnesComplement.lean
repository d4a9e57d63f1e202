import Mathlib.Algebra.GroupWithZero.Nat
import Mathlib.Data.List.Basic

/-!
# One's-complement sums

Numbers up to `m`, where `m` is the word with all bits set.  A carry out of the
top goes around the end and is added at the bottom, so a sum is known modulo `m`
only, and zero has two forms, `0` and `m`.  A sum of words is `0` only if all of
them are; otherwise it is the representative from `1` to `m` of the plain sum
modulo `m` (`ocSum_eq_allOnes_iff`).

`words` reads bytes as big-endian words of sixteen bits and fills up the last one
with a zero.
-/

namespace Ydn64.Lib

/-- Addition with the carry around the end. -/
def ocAdd (m a b : Nat) : Nat := if a + b ≤ m then a + b else a + b - m

/-- The sum of some words. -/
def ocSum (m : Nat) (ws : List Nat) : Nat := ws.foldl (ocAdd m) 0

section Sum

variable {m : Nat}

theorem ocAdd_le {a b : Nat} (ha : a ≤ m) (hb : b ≤ m) : ocAdd m a b ≤ m := by
  unfold ocAdd
  split <;> omega

theorem ocAdd_mod (a b : Nat) : ocAdd m a b % m = (a + b) % m := by
  unfold ocAdd
  split
  · rfl
  · rw [← Nat.mod_eq_sub_mod (by omega)]

theorem ocAdd_eq_zero_iff (a b : Nat) : ocAdd m a b = 0 ↔ a + b = 0 := by
  unfold ocAdd
  split <;> omega

theorem foldl_ocAdd {ws : List Nat} (hws : ∀ w ∈ ws, w ≤ m) {a : Nat} (ha : a ≤ m) :
    ws.foldl (ocAdd m) a ≤ m ∧ ws.foldl (ocAdd m) a % m = (a + ws.sum) % m ∧
      (ws.foldl (ocAdd m) a = 0 ↔ a + ws.sum = 0) := by
  induction ws generalizing a with
  | nil => exact ⟨ha, rfl, Iff.rfl⟩
  | cons w ws ih =>
    have hw := hws w List.mem_cons_self
    obtain ⟨hle, hmod, hzero⟩ :=
      ih (fun v hv => hws v (List.mem_cons_of_mem _ hv)) (ocAdd_le ha hw)
    refine ⟨hle, ?_, ?_⟩
    · rw [List.foldl_cons, hmod, Nat.add_mod, ocAdd_mod, ← Nat.add_mod, List.sum_cons,
        Nat.add_assoc]
    · rw [List.foldl_cons, hzero, List.sum_cons, Nat.add_eq_zero_iff, ocAdd_eq_zero_iff]
      omega

/-- A sum of words is all ones exactly when the plain sum is a multiple of `m`
other than zero. -/
theorem ocSum_eq_allOnes_iff {ws : List Nat} (hws : ∀ w ∈ ws, w ≤ m) (hm : 0 < m) :
    ocSum m ws = m ↔ 0 < ws.sum ∧ ws.sum % m = 0 := by
  obtain ⟨hle, hmod, hzero⟩ := foldl_ocAdd hws (Nat.zero_le m)
  rw [Nat.zero_add] at hmod hzero
  change ocSum m ws ≤ m at hle
  change ocSum m ws % m = _ at hmod
  change ocSum m ws = 0 ↔ _ at hzero
  constructor
  · intro hall
    rw [hall, Nat.mod_self] at hmod
    exact ⟨by omega, hmod.symm⟩
  · rintro ⟨hpos, hsum⟩
    rw [hsum] at hmod
    have hdvd : m ∣ ocSum m ws := Nat.dvd_of_mod_eq_zero hmod
    exact Nat.le_antisymm hle (Nat.le_of_dvd (by omega) hdvd)

/-- Adding the high part of a sum to its low part keeps it modulo `m`. -/
theorem div_add_mod_mod (m n : Nat) : (n / (m + 1) + n % (m + 1)) % m = n % m := by
  have hn : n = m * (n / (m + 1)) + (n / (m + 1) + n % (m + 1)) := by
    have := Nat.div_add_mod n (m + 1)
    rw [Nat.add_mul, Nat.one_mul] at this
    omega
  conv_rhs => rw [hn, Nat.mul_add_mod]

end Sum

/-! ## Words of sixteen bits -/

/-- The words of some bytes. -/
def words : List UInt8 → List Nat
  | [] => []
  | [b] => [b.toNat * 256]
  | hi :: lo :: rest => (hi.toNat * 256 + lo.toNat) :: words rest

theorem words_append {a : List UInt8} (h : a.length % 2 = 0) (b : List UInt8) :
    words (a ++ b) = words a ++ words b := by
  induction a using words.induct with
  | case1 => rfl
  | case2 x => simp at h
  | case3 hi lo rest ih =>
    simp only [List.length_cons] at h
    rw [List.cons_append, List.cons_append, words, words, List.cons_append, ih (by omega)]

theorem le_of_mem_words {b : List UInt8} : ∀ w ∈ words b, w ≤ 65535 := by
  induction b using words.induct with
  | case1 => intro w hw; cases hw
  | case2 x =>
    intro w hw
    obtain rfl := List.mem_singleton.mp hw
    have := x.toNat_lt
    omega
  | case3 hi lo rest ih =>
    intro w hw
    rcases List.mem_cons.mp hw with rfl | hw
    · have := hi.toNat_lt
      have := lo.toNat_lt
      omega
    · exact ih w hw

/-- The sum of the words is bounded by the number of bytes. -/
theorem sum_words_le (b : List UInt8) : (words b).sum ≤ (b.length + 1) / 2 * 65535 := by
  induction b using words.induct with
  | case1 => exact Nat.zero_le _
  | case2 x =>
    have := x.toNat_lt
    simp only [words, List.sum_cons, List.sum_nil, List.length_singleton]
    omega
  | case3 hi lo rest ih =>
    have := hi.toNat_lt
    have := lo.toNat_lt
    simp only [words, List.sum_cons, List.length_cons]
    omega

end Ydn64.Lib
