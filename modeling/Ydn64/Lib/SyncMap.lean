import Mathlib.Data.Finmap
import Mathlib.Algebra.BigOperators.Group.Multiset.Basic
import Mathlib.Algebra.BigOperators.Ring.Multiset
import Mathlib.Algebra.Order.BigOperators.Group.Multiset
import Mathlib.Algebra.Order.Ring.Int

/-!
# Finite maps with the operations of a concurrent map

A map shared by several goroutines is read and written through a handful of
atomic operations: load, store, delete and compare-and-delete.
`SyncMap` is the sequential meaning of those operations.  The representation
is Mathlib's `Finmap`, so a map has no order of its own and two maps with the
same entries are equal; a proof that depends on an iteration order has to name
that order itself.

`total f m` is the sum of `f k v` over the entries of `m`.  It is the one
measure that every counter argument needs: `size` is the sum of ones, the
number of entries with a property is the sum of its indicator, and the work
that a set of goroutines still owes is the sum of what each of them owes.
`total_insert` and `total_erase` say how one atomic operation moves it.
-/

namespace Ydn64.Lib

variable {K V : Type} [DecidableEq K]

/-- A finite map, as the atomic operations below see it. -/
abbrev SyncMap (K V : Type) := Finmap (fun _ : K => V)

namespace SyncMap

/-! ## The atomic operations -/

/-- Delete the entry of `k` if its value is `v`.  The answer says whether it
was. -/
def compareAndDelete [DecidableEq V] (m : SyncMap K V) (k : K) (v : V) :
    SyncMap K V × Bool :=
  if m.lookup k = some v then (m.erase k, true) else (m, false)

/-- Store a value under `k`, or delete the entry. -/
def put (m : SyncMap K V) (k : K) : Option V → SyncMap K V
  | some v => m.insert k v
  | none => m.erase k

/-- A read after a write: the written key answers the written value. -/
theorem lookup_insert_eq_ite (m : SyncMap K V) (a k : K) (v : V) :
    (m.insert k v).lookup a = if a = k then some v else m.lookup a := by
  by_cases h : a = k
  · subst h
    rw [if_pos rfl, Finmap.lookup_insert]
  · rw [if_neg h, Finmap.lookup_insert_of_ne _ h]

/-- A read after a delete: the deleted key is gone. -/
theorem lookup_erase_eq_ite (m : SyncMap K V) (a k : K) :
    (m.erase k).lookup a = if a = k then none else m.lookup a := by
  by_cases h : a = k
  · subst h
    rw [if_pos rfl, Finmap.lookup_erase]
  · rw [if_neg h, Finmap.lookup_erase_ne h]

theorem lookup_put (m : SyncMap K V) (a k : K) (o : Option V) :
    (put m k o).lookup a = if a = k then o else m.lookup a := by
  cases o with
  | none => exact lookup_erase_eq_ite m a k
  | some v => exact lookup_insert_eq_ite m a k v

/-- What is there after a delete was there before. -/
theorem lookup_of_erase {m : SyncMap K V} {a k : K} {v : V}
    (h : (m.erase k).lookup a = some v) : m.lookup a = some v := by
  rw [lookup_erase_eq_ite] at h
  split_ifs at h
  exact h

/-- A delete adds no entry. -/
theorem lookup_erase_of_none {m : SyncMap K V} {a : K} (h : m.lookup a = none) (k : K) :
    (m.erase k).lookup a = none := by
  rw [lookup_erase_eq_ite, h, ite_self]

/-- A delete keeps an entry with another value. -/
theorem lookup_erase_of_ne {m : SyncMap K V} {a k : K} {v w : V} (h : m.lookup a = some v)
    (hk : m.lookup k = some w) (hne : v ≠ w) : (m.erase k).lookup a = some v := by
  have ha : a ≠ k := by
    rintro rfl
    exact hne (Option.some.inj (h.symm.trans hk))
  rw [lookup_erase_eq_ite, if_neg ha, h]

/-- A read after a compare-and-delete: the key is gone if it held the value. -/
theorem lookup_compareAndDelete [DecidableEq V] (m : SyncMap K V) (a k : K) (v : V) :
    (compareAndDelete m k v).1.lookup a =
      if a = k ∧ m.lookup k = some v then none else m.lookup a := by
  unfold compareAndDelete
  by_cases hv : m.lookup k = some v
  · rw [if_pos hv, lookup_erase_eq_ite]
    simp only [hv, and_true]
  · rw [if_neg hv, if_neg fun h => hv h.2]

/-- What is there after a compare-and-delete was there before. -/
theorem lookup_of_compareAndDelete [DecidableEq V] {m : SyncMap K V} {a k : K} {v w : V}
    (h : (compareAndDelete m k v).1.lookup a = some w) : m.lookup a = some w := by
  rw [lookup_compareAndDelete] at h
  split_ifs at h
  exact h

/-! ## Sums over the entries -/

/-- The sum of `f` over the entries. -/
def total (f : K → V → Int) (m : SyncMap K V) : Int :=
  (m.entries.map fun e => f e.1 e.2).sum

/-- The number of entries. -/
def size (m : SyncMap K V) : Nat := m.entries.card

omit [DecidableEq K] in
@[simp] theorem total_empty (f : K → V → Int) :
    total f (∅ : SyncMap K V) = 0 := rfl

/-- What the entry under `k` contributes to `total f m`. -/
def contrib (f : K → V → Int) (m : SyncMap K V) (k : K) : Int :=
  (m.lookup k).elim 0 (f k)

theorem contrib_of_some {f : K → V → Int} {m : SyncMap K V} {k : K} {v : V}
    (h : m.lookup k = some v) : contrib f m k = f k v := by
  rw [contrib, h]
  rfl

theorem contrib_of_none {f : K → V → Int} {m : SyncMap K V} {k : K}
    (h : m.lookup k = none) : contrib f m k = 0 := by
  rw [contrib, h]
  rfl

/-- An insert under a key that is not there adds one term. -/
theorem total_insert_fresh (f : K → V → Int) {m : SyncMap K V} {k : K} {v : V}
    (h : m.lookup k = none) : total f (m.insert k v) = total f m + f k v := by
  have hk : k ∉ m := Finmap.lookup_eq_none.1 h
  rw [total, Finmap.entries_insert_of_notMem hk, Multiset.map_cons,
    Multiset.sum_cons, add_comm]
  rfl

/-- A map with an entry under `k` is that entry inserted into the rest. -/
theorem eq_insert_erase {m : SyncMap K V} {k : K} {v : V}
    (h : m.lookup k = some v) : m = (m.erase k).insert k v := by
  refine Finmap.ext_lookup fun a => ?_
  rw [lookup_insert_eq_ite, lookup_erase_eq_ite]
  by_cases ha : a = k
  · rw [if_pos ha, ha, h]
  · rw [if_neg ha, if_neg ha]

/-- A delete takes away what the key contributed. -/
theorem total_erase (f : K → V → Int) (m : SyncMap K V) (k : K) :
    total f (m.erase k) = total f m - contrib f m k := by
  cases h : m.lookup k with
  | none =>
    have he : m.erase k = m := by
      refine Finmap.ext_lookup fun a => ?_
      rw [lookup_erase_eq_ite]
      split_ifs with ha
      · rw [ha, h]
      · rfl
    rw [he, contrib_of_none h, sub_zero]
  | some v =>
    have hm := total_insert_fresh f (v := v) (Finmap.lookup_erase k m)
    rw [← eq_insert_erase h] at hm
    rw [contrib_of_some h]
    omega

/-- A store replaces what the key contributed by the new term. -/
theorem total_insert (f : K → V → Int) (m : SyncMap K V) (k : K) (v : V) :
    total f (m.insert k v) = total f m - contrib f m k + f k v := by
  have he : m.insert k v = (m.erase k).insert k v := by
    refine Finmap.ext_lookup fun a => ?_
    rw [lookup_insert_eq_ite, lookup_insert_eq_ite, lookup_erase_eq_ite]
    split_ifs <;> rfl
  rw [he, total_insert_fresh f (Finmap.lookup_erase k m), total_erase]

/-- A sum all of whose terms vanish is zero. -/
theorem total_eq_zero {f : K → V → Int} {m : SyncMap K V}
    (h : ∀ k v, m.lookup k = some v → f k v = 0) : total f m = 0 := by
  refine Multiset.sum_eq_zero fun x hx => ?_
  obtain ⟨e, he, rfl⟩ := Multiset.mem_map.1 hx
  exact h e.1 e.2 (Finmap.lookup_eq_some_iff.2 he)

omit [DecidableEq K] in
/-- A common factor comes out of the sum. -/
theorem total_mul_left (a : Int) (f : K → V → Int) (m : SyncMap K V) :
    total (fun k v => a * f k v) m = a * total f m :=
  Multiset.sum_map_mul_left

/-- A sum of smaller terms is smaller. -/
theorem total_mono {f g : K → V → Int} {m : SyncMap K V}
    (h : ∀ k v, m.lookup k = some v → f k v ≤ g k v) : total f m ≤ total g m := by
  apply Multiset.sum_map_le_sum_map
  intro e he
  exact h e.1 e.2 (Finmap.lookup_eq_some_iff.2 he)

omit [DecidableEq K] in
/-- The size is the sum of ones. -/
theorem size_eq_total (m : SyncMap K V) : (size m : Int) = total (fun _ _ => 1) m := by
  rw [total, Multiset.map_const', Multiset.sum_replicate, size]
  simp

/-- A map that is not empty has a key. -/
theorem exists_lookup_of_size {m : SyncMap K V} (h : 0 < size m) : ∃ k, m.lookup k ≠ none := by
  by_contra hnone
  have hzero : total (fun _ _ => 1) m = 0 := by
    apply total_eq_zero
    intro k v hv
    exact absurd hv (by simp [not_not.1 (not_exists.1 hnone k)])
  have hsize := size_eq_total m
  omega

omit [DecidableEq K] in
theorem card_keys (m : SyncMap K V) : m.keys.card = size m := by
  show (m.entries.map Sigma.fst).card = m.entries.card
  rw [Multiset.card_map]

/-- A map whose keys are all in a set has no more entries than the set. -/
theorem size_le_card {m : SyncMap K V} {F : Finset K}
    (h : ∀ k v, m.lookup k = some v → k ∈ F) : size m ≤ F.card := by
  rw [← card_keys]
  refine Finset.card_le_card fun k hk => ?_
  obtain ⟨v, hv⟩ := Finmap.mem_iff.1 (Finmap.mem_keys.1 hk)
  exact h k v hv

/-- A map whose keys all come from keys of another has no more entries. -/
theorem size_le_size_of_image {J W : Type} [DecidableEq J] {m : SyncMap K V} {n : SyncMap J W}
    (f : J → K) (h : ∀ k v, m.lookup k = some v → ∃ j w, n.lookup j = some w ∧ f j = k) :
    size m ≤ size n := by
  have hmem : ∀ k v, m.lookup k = some v → k ∈ n.keys.image f := by
    intro k v hk
    obtain ⟨j, w, hj, rfl⟩ := h k v hk
    exact Finset.mem_image_of_mem f (Finmap.mem_keys.2 (Finmap.mem_iff.2 ⟨w, hj⟩))
  calc size m ≤ (n.keys.image f).card := size_le_card hmem
    _ ≤ n.keys.card := Finset.card_image_le
    _ = size n := card_keys n

/-- An insert under a key that is not there adds one entry. -/
theorem size_insert_fresh {m : SyncMap K V} {k : K} {v : V} (h : m.lookup k = none) :
    (size (m.insert k v) : Int) = size m + 1 := by
  rw [size_eq_total, size_eq_total, total_insert_fresh _ h]

/-- A delete of a key that is there takes away one entry. -/
theorem size_erase {m : SyncMap K V} {k : K} {v : V} (h : m.lookup k = some v) :
    (size (m.erase k) : Int) = size m - 1 := by
  rw [size_eq_total, size_eq_total, total_erase, contrib_of_some h]

/-- An insert under a key that is there keeps the number of entries. -/
theorem size_insert_of_some {m : SyncMap K V} {k : K} {v w : V} (h : m.lookup k = some w) :
    size (m.insert k v) = size m := by
  have hsize : (size (m.insert k v) : Int) = size m := by
    rw [size_eq_total, size_eq_total, total_insert, contrib_of_some h]
    omega
  exact_mod_cast hsize

/-! ## Filters -/

/-- The entries that satisfy `p`: what a `range` leaves that deletes the
others. -/
def filter (p : V → Bool) (m : SyncMap K V) : SyncMap K V where
  entries := m.entries.filter fun e => p e.2
  nodupKeys := by
    rw [← Multiset.nodup_keys]
    exact Multiset.nodup_of_le (Multiset.map_le_map (Multiset.filter_le _ _))
      (Multiset.nodup_keys.2 m.nodupKeys)

theorem lookup_filter_eq_some_iff {p : V → Bool} {m : SyncMap K V} {k : K} {v : V} :
    (m.filter p).lookup k = some v ↔ m.lookup k = some v ∧ p v = true := by
  rw [Finmap.lookup_eq_some_iff, Finmap.lookup_eq_some_iff]
  exact Multiset.mem_filter

omit [DecidableEq K] in
theorem size_filter_le (p : V → Bool) (m : SyncMap K V) : size (m.filter p) ≤ size m :=
  Multiset.card_le_card (Multiset.filter_le _ _)

omit [DecidableEq K] in
/-- The number of entries that satisfy `p` is the sum of its indicator. -/
theorem size_filter_eq_total (p : V → Bool) (m : SyncMap K V) :
    (size (m.filter p) : Int) = total (fun _ v => if p v then 1 else 0) m := by
  show ((m.entries.filter fun e => p e.2).card : Int) = _
  unfold total
  induction m.entries using Multiset.induction_on with
  | empty => rfl
  | cons e es ih =>
    rw [Multiset.map_cons, Multiset.sum_cons, ← ih]
    cases hp : p e.2 with
    | false => simp [hp]
    | true =>
      simp [hp]
      omega

/-- A new entry counts if it satisfies `p`. -/
theorem size_filter_insert_fresh (p : V → Bool) {m : SyncMap K V} {k : K} {v : V}
    (h : m.lookup k = none) :
    (size (filter p (m.insert k v)) : Int) = size (m.filter p) + if p v then 1 else 0 := by
  rw [size_filter_eq_total, size_filter_eq_total, total_insert_fresh _ h]

/-- A new value in the place of `v` counts instead of it. -/
theorem size_filter_put (p : V → Bool) {m : SyncMap K V} {k : K} {v : V}
    (h : m.lookup k = some v) (o : Option V) :
    (size ((m.put k o).filter p) : Int) =
      size (m.filter p) - (if p v then 1 else 0) + o.elim 0 fun w => if p w then 1 else 0 := by
  rw [size_filter_eq_total, size_filter_eq_total]
  cases o with
  | none => rw [put, total_erase, contrib_of_some h, Option.elim_none, add_zero]
  | some w => rw [put, total_insert, contrib_of_some h, Option.elim_some]

/-- An entry that satisfies `p` is counted. -/
theorem size_filter_pos {p : V → Bool} {m : SyncMap K V} {k : K} {v : V}
    (h : m.lookup k = some v) (hp : p v = true) : 0 < size (m.filter p) := by
  have herase := size_filter_put p h none
  rw [if_pos hp, Option.elim_none] at herase
  omega

/-- There are none if no entry satisfies `p`. -/
theorem size_filter_eq_zero {p : V → Bool} {m : SyncMap K V}
    (h : ∀ k v, m.lookup k = some v → p v = false) : size (m.filter p) = 0 := by
  have hzero := size_filter_eq_total p m
  rw [total_eq_zero fun k v hv => by rw [h k v hv]; rfl] at hzero
  exact_mod_cast hzero

/-- Conditions that agree on the entries count the same. -/
theorem size_filter_congr {p q : V → Bool} {m : SyncMap K V}
    (h : ∀ k v, m.lookup k = some v → p v = q v) : size (m.filter p) = size (m.filter q) := by
  have hentries : m.entries.filter (fun e => p e.2) = m.entries.filter fun e => q e.2 := by
    apply Multiset.filter_congr
    intro e he
    rw [h e.1 e.2 (Finmap.lookup_eq_some_iff.2 he)]
  exact congrArg Multiset.card hentries

omit [DecidableEq K] in
/-- A weaker condition counts more entries. -/
theorem size_filter_mono {p q : V → Bool} (h : ∀ v, p v = true → q v = true) (m : SyncMap K V) :
    size (m.filter p) ≤ size (m.filter q) :=
  Multiset.card_le_card (Multiset.monotone_filter_right _ fun e => h e.2)

omit [DecidableEq K] in
/-- What satisfies one of two properties is counted with the one or with the other. -/
theorem size_filter_le_add {p q r : V → Bool} (h : ∀ v, p v = true → q v = true ∨ r v = true)
    (m : SyncMap K V) : size (m.filter p) ≤ size (m.filter q) + size (m.filter r) := by
  have hle : m.entries.filter (fun e => p e.2) ≤
      m.entries.filter (fun e => q e.2 = true ∨ r e.2 = true) :=
    Multiset.monotone_filter_right _ fun e => h e.2
  have hadd := Multiset.filter_add_filter (fun e : Sigma fun _ : K => V => q e.2 = true)
    (fun e => r e.2 = true) m.entries
  show Multiset.card _ ≤ Multiset.card _ + Multiset.card _
  calc Multiset.card _ ≤ _ := Multiset.card_le_card hle
    _ ≤ Multiset.card (m.entries.filter (fun e => q e.2 = true) +
        m.entries.filter fun e => r e.2 = true) := by
      rw [hadd]
      exact Multiset.card_le_card (Multiset.le_add_right _ _)
    _ = _ := Multiset.card_add _ _

/-- An entry that a filter drops does not satisfy `p`. -/
theorem of_lookup_filter_eq_none {p : V → Bool} {m : SyncMap K V} {k : K} {v : V}
    (h : (m.filter p).lookup k = none) (hv : m.lookup k = some v) : p v = false := by
  by_contra hp
  have hsome : (m.filter p).lookup k = some v :=
    lookup_filter_eq_some_iff.2 ⟨hv, by simpa using hp⟩
  rw [h] at hsome
  cases hsome

/-- A filter that drops an entry leaves fewer. -/
theorem size_filter_lt {p : V → Bool} {m : SyncMap K V} {k : K} {v : V}
    (h : m.lookup k = some v) (hp : p v = false) : size (m.filter p) < size m := by
  apply Multiset.card_lt_card
  refine lt_of_le_of_ne (Multiset.filter_le _ _) fun heq => ?_
  have hkept : (m.filter p).lookup k = some v := by
    rw [Finmap.ext heq]
    exact h
  rw [(lookup_filter_eq_some_iff.1 hkept).2] at hp
  cases hp

/-- A filter that all entries pass drops none. -/
theorem filter_eq_self {p : V → Bool} {m : SyncMap K V}
    (h : ∀ k v, m.lookup k = some v → p v = true) : m.filter p = m := by
  refine Finmap.ext (Multiset.filter_eq_self.2 fun e he => ?_)
  exact h e.1 e.2 (Finmap.lookup_eq_some_iff.2 he)

/-! ## Values -/

/-- Every value replaced: what a `range` leaves that writes to the entries. -/
def mapValues (f : V → V) (m : SyncMap K V) : SyncMap K V where
  entries := m.entries.map fun e => ⟨e.1, f e.2⟩
  nodupKeys := by
    rw [← Multiset.nodup_keys, Multiset.keys, Multiset.map_map]
    exact Multiset.nodup_keys.2 m.nodupKeys

theorem lookup_mapValues (f : V → V) (m : SyncMap K V) (k : K) :
    (m.mapValues f).lookup k = (m.lookup k).map f := by
  apply Option.ext
  intro v
  rw [Option.map_eq_some_iff, Finmap.lookup_eq_some_iff]
  constructor
  · intro h
    obtain ⟨⟨k', w⟩, hmem, heq⟩ := Multiset.mem_map.1 h
    cases heq
    exact ⟨w, Finmap.lookup_eq_some_iff.2 hmem, rfl⟩
  · rintro ⟨w, hw, rfl⟩
    exact Multiset.mem_map.2 ⟨⟨k, w⟩, Finmap.lookup_eq_some_iff.1 hw, rfl⟩

omit [DecidableEq K] in
theorem size_mapValues (f : V → V) (m : SyncMap K V) : size (m.mapValues f) = size m :=
  Multiset.card_map _ _

/-! ## Iteration -/

/-- An iteration in progress: the map as it was at the start and the keys that
have been visited.  Entries may come and go while it runs. -/
structure Scan (K V : Type) where
  start : SyncMap K V
  visited : List K

namespace Scan

/-- The iteration over `m` starts. -/
def begin (m : SyncMap K V) : Scan K V := ⟨m, []⟩

/-- The iteration visits one more key. -/
def visit (scan : Scan K V) (k : K) : Scan K V := { scan with visited := k :: scan.visited }

/-- The iteration may end: an entry that was there from the start and still is
has been visited.  Nothing is promised about any other entry. -/
def Complete (scan : Scan K V) (m : SyncMap K V) : Prop :=
  ∀ k ∈ scan.start.keys, m.lookup k = scan.start.lookup k → k ∈ scan.visited

instance [DecidableEq V] (scan : Scan K V) (m : SyncMap K V) : Decidable (scan.Complete m) :=
  inferInstanceAs (Decidable (∀ k ∈ scan.start.keys, _))

/-- An entry that a complete iteration has not visited is not an entry of the
start. -/
theorem Complete.lookup_ne {scan : Scan K V} {m : SyncMap K V} (h : scan.Complete m)
    {k : K} {v : V} (hk : m.lookup k = some v) (hv : k ∉ scan.visited) :
    scan.start.lookup k ≠ some v := by
  intro hs
  refine hv (h k ?_ (hk.trans hs.symm))
  exact Finmap.mem_keys.2 (Finmap.mem_of_lookup_eq_some hs)

end Scan

end SyncMap

end Ydn64.Lib
