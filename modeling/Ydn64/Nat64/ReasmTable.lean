import Mathlib.Algebra.GroupWithZero.Nat
import Ydn64.Nat64.Reasm
import Ydn64.Lib.Run
import Ydn64.Lib.Tiling

/-!
# The accounting of the reassembly table

`add` has nine ways out.  `Accepts` is the condition under which it stores the
fragment; `add_of_accepts` and `add_of_not_accepts` say what each way leaves in
the table, and `add_rule` is the case rule that the invariants are derived with.
A fragment that is not stored leaves the table as it is or drops the datagram, and
a datagram that completes is dropped as well, so one lemma about `cancel` covers
seven of the nine.

`ReasmInv` is what holds in every state: the byte count is the sum over the
stored fragments and within its budget, and so are the numbers of datagrams and
of fragments.
-/

namespace Ydn64.Nat64

open Ydn64.GoStd Ydn64.Lib

theorem mem_of_lookup {α β : Type} [BEq α] [LawfulBEq α] {l : List (α × β)} {k : α} {v : β}
    (h : l.lookup k = some v) : (k, v) ∈ l := by
  obtain ⟨l₁, l₂, heq, -⟩ := List.lookup_eq_some_iff.mp h
  rw [heq]
  exact List.mem_append_right l₁ List.mem_cons_self

/-! ## What `add` does -/

/-- A stored fragment as a piece of its datagram. -/
def piece (f : UInt16 × Bytes) : Piece UInt8 := ⟨f.1.toNat * 8, f.2⟩

@[simp] theorem piece_start (f : UInt16 × Bytes) : (piece f).start = f.1.toNat * 8 := rfl

@[simp] theorem piece_data (f : UInt16 × Bytes) : (piece f).data = f.2 := rfl

@[simp] theorem piece_stop (f : UInt16 × Bytes) : (piece f).stop = fragEnd f := rfl

/-- The entry with one more fragment. -/
def ReasmEntry.store (e : ReasmEntry) (offsetUnits : UInt16) (more : Bool) (frag : Bytes) :
    ReasmEntry :=
  { e with
    frags := (offsetUnits, frag) :: e.frags.filter (·.1 ≠ offsetUnits)
    bytes := e.bytes + frag.length
    haveLast := e.haveLast || !more }

/-- The length of the datagram, if the entry is complete. -/
def ReasmEntry.total (e : ReasmEntry) : Option Nat :=
  if e.haveLast then contiguousLen e else none

/-- The datagram of a complete entry. -/
def ReasmEntry.assemble (e : ReasmEntry) (total : Nat) : Bytes :=
  assembleFrom e.frags total (65536 * (total + 1)) 0 []

namespace ReasmTable

/-- The entry that a fragment of `key` goes to. -/
def entryFor (t : ReasmTable) (key : ReasmKey) (now : Int) : ReasmEntry :=
  (t.find key).getD { createdAt := now }

/-- The table with a fragment of `n` bytes in the entry of `key`. -/
def storeEntry (t : ReasmTable) (key : ReasmKey) (e : ReasmEntry) (n : Nat) : ReasmTable :=
  { t.put key e with bufByte := t.bufByte + n }

/-- The fragments that are stored for a key. -/
def fragsOf (t : ReasmTable) (key : ReasmKey) : List (UInt16 × Bytes) :=
  ((t.find key).map ReasmEntry.frags).getD []

/-- `add` stores the fragment.  `t` is the table after the expiry. -/
def Accepts (t : ReasmTable) (key : ReasmKey) (offsetUnits : UInt16) (more : Bool)
    (frag : Bytes) : Prop :=
  frag ≠ [] ∧ (more = true → frag.length % 8 = 0) ∧
    t.bufByte + frag.length ≤ maxReasmBytes ∧
    (t.find key = none → t.entries.length < maxReassemblies) ∧
    offsetUnits.toNat * 8 < 65536 ∧
    (more = false → offsetUnits.toNat * 8 + frag.length ≤ 65536) ∧
    (t.fragsOf key).any
      (overlaps (offsetUnits.toNat * 8) (offsetUnits.toNat * 8 + frag.length)) = false ∧
    (t.fragsOf key).length < maxFragmentsPerDgram

instance (t : ReasmTable) (key : ReasmKey) (offsetUnits : UInt16) (more : Bool)
    (frag : Bytes) : Decidable (t.Accepts key offsetUnits more frag) :=
  inferInstanceAs (Decidable (_ ∧ _))

variable {t : ReasmTable} {key : ReasmKey}

theorem entryFor_frags (t : ReasmTable) (key : ReasmKey) (now : Int) :
    (t.entryFor key now).frags = t.fragsOf key := by
  unfold entryFor fragsOf
  cases t.find key <;> rfl

theorem fragsOf_of_find {e : ReasmEntry} (h : t.find key = some e) : t.fragsOf key = e.frags := by
  rw [fragsOf, h]
  rfl

theorem fragsOf_of_none (h : t.find key = none) : t.fragsOf key = [] := by
  rw [fragsOf, h]
  rfl

theorem filter_of_find_eq_none (h : t.find key = none) :
    t.entries.filter (·.1 ≠ key) = t.entries := by
  rw [List.filter_eq_self]
  intro ke hke
  have hne := List.lookup_eq_none_iff.mp h ke hke
  rw [bne_iff_ne] at hne
  exact decide_eq_true (Ne.symm hne)

theorem lookup_cons_eq_ite (k' k : ReasmKey) (e : ReasmEntry)
    (entries : List (ReasmKey × ReasmEntry)) :
    ((k', e) :: entries).lookup k = if k = k' then some e else entries.lookup k := by
  rw [List.lookup_cons]
  split_ifs with hk
  · rw [hk, beq_self_eq_true]
  · rw [beq_false_of_ne hk]

theorem lookup_filter_ne (entries : List (ReasmKey × ReasmEntry)) (key k : ReasmKey) :
    (entries.filter (·.1 ≠ key)).lookup k = if k = key then none else entries.lookup k := by
  induction entries with
  | nil => simp
  | cons ke entries ih =>
    obtain ⟨k', e⟩ := ke
    by_cases hk' : k' = key
    · subst hk'
      rw [List.filter_cons_of_neg (by simp), ih, lookup_cons_eq_ite]
      split_ifs <;> rfl
    · rw [List.filter_cons_of_pos (by simpa using hk'), lookup_cons_eq_ite, lookup_cons_eq_ite,
        ih]
      split_ifs with hk hkey <;> simp_all

theorem find_put (t : ReasmTable) (key k : ReasmKey) (e : ReasmEntry) :
    (t.put key e).find k = if k = key then some e else t.find k := by
  unfold put find
  rw [lookup_cons_eq_ite, lookup_filter_ne]
  split_ifs <;> rfl

/-- A release that frees what the entry of the key holds is a `cancel`. -/
theorem cancel_eq (t : ReasmTable) (key : ReasmKey) :
    (t.cancel key).1 =
      ⟨t.entries.filter (·.1 ≠ key), t.bufByte - ((t.find key).map ReasmEntry.bytes).getD 0⟩ := by
  unfold cancel
  cases h : t.find key with
  | none =>
    rw [filter_of_find_eq_none h]
    rfl
  | some e => rfl

theorem release_put (t : ReasmTable) (key : ReasmKey) (e : ReasmEntry) (n : Nat)
    (h : e.bytes = ((t.find key).map ReasmEntry.bytes).getD 0 + n) :
    (t.storeEntry key e n).releaseEntryLocked key e = (t.cancel key).1 := by
  rw [cancel_eq]
  unfold storeEntry put releaseEntryLocked
  simp only [ReasmTable.mk.injEq]
  constructor
  · rw [List.filter_cons_of_neg (by simp), List.filter_filter]
    simp
  · omega

/-- `addTo` in the words of `store`. -/
theorem addTo_eq (t : ReasmTable) (key : ReasmKey) (e : ReasmEntry) (offsetUnits : UInt16)
    (more : Bool) (frag : Bytes) :
    t.addTo key e offsetUnits more frag =
      if 65536 ≤ offsetUnits.toNat * 8 ∨
          (more = false ∧ 65536 < offsetUnits.toNat * 8 + frag.length) then
        ((t.cancel key).1, none)
      else if e.frags.any
          (overlaps (offsetUnits.toNat * 8) (offsetUnits.toNat * 8 + frag.length)) then
        (t.releaseEntryLocked key e, none)
      else if maxFragmentsPerDgram ≤ e.frags.length then (t.releaseEntryLocked key e, none)
      else if (e.store offsetUnits more frag).haveLast = false then
        (t.storeEntry key (e.store offsetUnits more frag) frag.length, none)
      else match contiguousLen (e.store offsetUnits more frag) with
        | none => (t.storeEntry key (e.store offsetUnits more frag) frag.length, none)
        | some total =>
          ((t.storeEntry key (e.store offsetUnits more frag) frag.length).releaseEntryLocked key
            (e.store offsetUnits more frag),
            some ((e.store offsetUnits more frag).assemble total)) := rfl

/-- A fragment for an entry that is not stored drops the datagram. -/
theorem addTo_of_not_accepts {t₁ : ReasmTable} {e : ReasmEntry} {offsetUnits : UInt16}
    {more : Bool} {frag : Bytes} (hfind : t₁.find key = some e)
    (hcancel : (t₁.cancel key).1 = (t.cancel key).1) (hfrags : e.frags = t.fragsOf key)
    (h : ¬ t.Accepts key offsetUnits more frag) (hne : frag ≠ [])
    (halign : more = true → frag.length % 8 = 0)
    (hbudget : t.bufByte + frag.length ≤ maxReasmBytes)
    (hroom : t.find key = none → t.entries.length < maxReassemblies) :
    t₁.addTo key e offsetUnits more frag = ((t.cancel key).1, none) := by
  have hrelease : t₁.releaseEntryLocked key e = (t.cancel key).1 := by
    rw [← hcancel, cancel, hfind]
  rw [addTo_eq, hrelease, hcancel]
  split_ifs with hrange hover hcount
  · rfl
  · rfl
  · rfl
  all_goals
    rw [hfrags] at hover hcount
    refine absurd ⟨hne, halign, hbudget, hroom, ?_, ?_, ?_, ?_⟩ h
    · omega
    · intro hmore
      by_contra hlt
      exact hrange (.inr ⟨hmore, by omega⟩)
    · simpa using hover
    · omega

/-- A fragment that is not stored leaves the table as it is after the expiry, or
drops the datagram. -/
theorem add_of_not_accepts {offsetUnits : UInt16} {more : Bool} {frag : Bytes} {now : Int}
    (h : ¬ (t.expireLocked now).Accepts key offsetUnits more frag) :
    t.add key offsetUnits more frag now = (t.expireLocked now, none) ∨
      t.add key offsetUnits more frag now = (((t.expireLocked now).cancel key).1, none) := by
  unfold add
  generalize t.expireLocked now = t₁ at h ⊢
  dsimp only
  by_cases hbad : frag = [] ∨ (more = true ∧ frag.length % 8 ≠ 0)
  · rw [if_pos hbad]
    exact .inr rfl
  by_cases hbudget : maxReasmBytes < t₁.bufByte + frag.length
  · rw [if_neg hbad, if_pos hbudget]
    exact .inl rfl
  rw [if_neg hbad, if_neg hbudget]
  have hne : frag ≠ [] := fun he => hbad (.inl he)
  have halign : more = true → frag.length % 8 = 0 := by
    intro hmore
    by_contra hmod
    exact hbad (.inr ⟨hmore, hmod⟩)
  cases hfind : t₁.find key with
  | some e =>
    refine .inr (addTo_of_not_accepts hfind rfl (fragsOf_of_find hfind).symm h hne halign
      (by omega) ?_)
    rw [hfind]
    exact fun hc => by cases hc
  | none =>
    dsimp only
    split_ifs with hroom
    · exact .inl rfl
    refine .inr (addTo_of_not_accepts ?_ ?_ (fragsOf_of_none hfind).symm h hne halign (by omega)
      (fun _ => by omega))
    · rw [find_put, if_pos rfl]
    · rw [cancel, find_put, if_pos rfl]
      exact release_put t₁ key { createdAt := now } 0 (by rw [hfind]; rfl)

/-- A fragment for an entry that is stored. -/
theorem addTo_of_accepts {t₁ : ReasmTable} {e : ReasmEntry} {offsetUnits : UInt16}
    {more : Bool} {frag : Bytes} (hput : ∀ e', t₁.put key e' = t.put key e')
    (hbuf : t₁.bufByte = t.bufByte) (hfrags : e.frags = t.fragsOf key)
    (hbytes : e.bytes = ((t.find key).map ReasmEntry.bytes).getD 0)
    (h : t.Accepts key offsetUnits more frag) :
    t₁.addTo key e offsetUnits more frag =
      match (e.store offsetUnits more frag).total with
      | none => (t.storeEntry key (e.store offsetUnits more frag) frag.length, none)
      | some total =>
        ((t.cancel key).1, some ((e.store offsetUnits more frag).assemble total)) := by
  obtain ⟨-, -, -, -, hstart, hstop, hover, hcount⟩ := h
  have hstore : t₁.storeEntry key (e.store offsetUnits more frag) frag.length
      = t.storeEntry key (e.store offsetUnits more frag) frag.length := by
    unfold storeEntry
    rw [hput, hbuf]
  have hrelease : (t.storeEntry key (e.store offsetUnits more frag) frag.length).releaseEntryLocked
      key (e.store offsetUnits more frag) = (t.cancel key).1 := by
    apply release_put
    show e.bytes + frag.length = _
    rw [hbytes]
  rw [← hfrags] at hover hcount
  have hrange : ¬ (65536 ≤ offsetUnits.toNat * 8 ∨
      (more = false ∧ 65536 < offsetUnits.toNat * 8 + frag.length)) := by
    rintro (hge | ⟨hmore, hlt⟩)
    · omega
    · have := hstop hmore
      omega
  rw [addTo_eq, if_neg hrange, if_neg (by rw [hover]; exact Bool.false_ne_true),
    if_neg (by omega), hstore, hrelease, ReasmEntry.total]
  cases (e.store offsetUnits more frag).haveLast with
  | false => rfl
  | true =>
    simp only [Bool.true_eq_false, if_false, if_true]

/-- A stored fragment completes its datagram or waits in the table. -/
theorem add_of_accepts {offsetUnits : UInt16} {more : Bool} {frag : Bytes} {now : Int}
    (h : (t.expireLocked now).Accepts key offsetUnits more frag) :
    t.add key offsetUnits more frag now =
      match (((t.expireLocked now).entryFor key now).store offsetUnits more frag).total with
      | none =>
        ((t.expireLocked now).storeEntry key
          (((t.expireLocked now).entryFor key now).store offsetUnits more frag) frag.length, none)
      | some total =>
        (((t.expireLocked now).cancel key).1,
          some ((((t.expireLocked now).entryFor key now).store offsetUnits more frag).assemble
            total)) := by
  unfold add
  generalize t.expireLocked now = t₁ at h ⊢
  obtain ⟨hne, halign, hbudget, hroom, -⟩ := id h
  have hbad : ¬ (frag = [] ∨ (more = true ∧ frag.length % 8 ≠ 0)) := by
    rintro (he | ⟨hmore, hmod⟩)
    · exact hne he
    · exact hmod (halign hmore)
  dsimp only
  rw [if_neg hbad, if_neg (by omega)]
  cases hfind : t₁.find key with
  | some e =>
    have hentry : t₁.entryFor key now = e := by rw [entryFor, hfind]; rfl
    rw [hentry]
    apply addTo_of_accepts (fun _ => rfl) rfl (fragsOf_of_find hfind).symm ?_ h
    rw [hfind]
    rfl
  | none =>
    have hentry : t₁.entryFor key now = { createdAt := now } := by rw [entryFor, hfind]; rfl
    have hlt := hroom hfind
    dsimp only
    rw [hentry, if_neg (by omega)]
    refine addTo_of_accepts ?_ ?_ (fragsOf_of_none hfind).symm ?_ h
    · intro e'
      simp [put, List.filter_cons_of_neg]
    · rfl
    · rw [hfind]
      rfl

/-- What `add` does, for a property of its result: a fragment that is not stored
leaves the table as it is after the expiry or drops the datagram, and one that is
stored waits in the table or completes the datagram. -/
theorem add_rule {offsetUnits : UInt16} {more : Bool} {frag : Bytes} {now : Int}
    {P : ReasmTable × Option Bytes → Prop}
    (hkept : ¬ (t.expireLocked now).Accepts key offsetUnits more frag →
      P (t.expireLocked now, none))
    (hdropped : ¬ (t.expireLocked now).Accepts key offsetUnits more frag →
      P (((t.expireLocked now).cancel key).1, none))
    (hwaits : (t.expireLocked now).Accepts key offsetUnits more frag →
      (((t.expireLocked now).entryFor key now).store offsetUnits more frag).total = none →
      P ((t.expireLocked now).storeEntry key
        (((t.expireLocked now).entryFor key now).store offsetUnits more frag) frag.length, none))
    (hdone : (t.expireLocked now).Accepts key offsetUnits more frag → ∀ total,
      (((t.expireLocked now).entryFor key now).store offsetUnits more frag).total = some total →
      P (((t.expireLocked now).cancel key).1,
        some ((((t.expireLocked now).entryFor key now).store offsetUnits more frag).assemble
          total))) :
    P (t.add key offsetUnits more frag now) := by
  by_cases hacc : (t.expireLocked now).Accepts key offsetUnits more frag
  · rw [add_of_accepts hacc]
    cases htotal :
        (((t.expireLocked now).entryFor key now).store offsetUnits more frag).total with
    | none => exact hwaits hacc htotal
    | some total => exact hdone hacc total htotal
  · rcases add_of_not_accepts hacc with hadd | hadd
    · rw [hadd]
      exact hkept hacc
    · rw [hadd]
      exact hdropped hacc

end ReasmTable

/-! ## The invariant -/

/-- The bytes of the stored fragments. -/
def ReasmEntry.stored (e : ReasmEntry) : Nat := (e.frags.map fun f => f.2.length).sum

/-- What holds of every partial datagram. -/
structure ReasmEntry.Ok (e : ReasmEntry) : Prop where
  bytes : e.bytes = e.stored
  nonempty : ∀ f ∈ e.frags, f.2 ≠ []
  apart : (e.frags.map piece).Pairwise Piece.Apart
  start_lt : ∀ f ∈ e.frags, f.1.toNat * 8 < 65536
  size_le : ∀ f ∈ e.frags, f.2.length ≤ maxReasmBytes
  length_le : e.frags.length ≤ maxFragmentsPerDgram

/-- What holds of the table. -/
structure ReasmInv (t : ReasmTable) : Prop where
  keys : (t.entries.map Prod.fst).Nodup
  entry : ∀ ke ∈ t.entries, ke.2.Ok
  nonempty : ∀ ke ∈ t.entries, ke.2.frags ≠ []
  bufByte : t.bufByte = (t.entries.map fun ke => ke.2.stored).sum
  bufByte_le : t.bufByte ≤ maxReasmBytes
  entries_le : t.entries.length ≤ maxReassemblies

theorem overlaps_eq_false {start stop : Nat} {f : UInt16 × Bytes}
    (h : overlaps start stop f = false) : fragEnd f ≤ start ∨ stop ≤ f.1.toNat * 8 := by
  unfold overlaps at h
  rw [Bool.and_eq_false_iff, decide_eq_false_iff_not, decide_eq_false_iff_not] at h
  omega

namespace ReasmEntry

theorem Ok.new (now : Int) : ({ createdAt := now } : ReasmEntry).Ok where
  bytes := rfl
  nonempty := fun f hf => by cases hf
  apart := List.Pairwise.nil
  start_lt := fun f hf => by cases hf
  size_le := fun f hf => by cases hf
  length_le := Nat.zero_le _

theorem store_frags {e : ReasmEntry} {offsetUnits : UInt16} {frag : Bytes}
    (hok : e.Ok) (hne : frag ≠ [])
    (hover : e.frags.any
      (overlaps (offsetUnits.toNat * 8) (offsetUnits.toNat * 8 + frag.length)) = false)
    (more : Bool) :
    (e.store offsetUnits more frag).frags = (offsetUnits, frag) :: e.frags := by
  show (offsetUnits, frag) :: e.frags.filter (·.1 ≠ offsetUnits) = _
  rw [List.filter_eq_self.mpr]
  intro f hf
  rw [List.any_eq_false] at hover
  have hapart := overlaps_eq_false (Bool.eq_false_iff.mpr (hover f hf))
  have hpos := List.length_pos_of_ne_nil hne
  have hposf := List.length_pos_of_ne_nil (hok.nonempty f hf)
  unfold fragEnd at hapart
  refine decide_eq_true ?_
  rintro rfl
  omega

theorem Ok.store {e : ReasmEntry} {offsetUnits : UInt16} {frag : Bytes} (hok : e.Ok)
    (hne : frag ≠ []) (hstart : offsetUnits.toNat * 8 < 65536)
    (hsize : frag.length ≤ maxReasmBytes)
    (hover : e.frags.any
      (overlaps (offsetUnits.toNat * 8) (offsetUnits.toNat * 8 + frag.length)) = false)
    (hcount : e.frags.length < maxFragmentsPerDgram) (more : Bool) :
    (e.store offsetUnits more frag).Ok := by
  have hfrags := store_frags hok hne hover more
  refine ⟨?_, ?_, ?_, ?_, ?_, ?_⟩
  · show e.bytes + frag.length = _
    rw [stored, hfrags, hok.bytes, List.map_cons, List.sum_cons, stored]
    exact Nat.add_comm _ _
  · rw [hfrags]
    exact List.forall_mem_cons.mpr ⟨hne, hok.nonempty⟩
  · rw [hfrags, List.map_cons, List.pairwise_cons]
    refine ⟨?_, hok.apart⟩
    intro q hq
    obtain ⟨f, hf, rfl⟩ := List.mem_map.mp hq
    rw [List.any_eq_false] at hover
    exact (overlaps_eq_false (Bool.eq_false_iff.mpr (hover f hf))).symm
  · rw [hfrags]
    exact List.forall_mem_cons.mpr ⟨hstart, hok.start_lt⟩
  · rw [hfrags]
    exact List.forall_mem_cons.mpr ⟨hsize, hok.size_le⟩
  · rw [hfrags, List.length_cons]
    omega

end ReasmEntry

namespace ReasmTable

variable {t : ReasmTable} {key : ReasmKey} {e : ReasmEntry}

theorem mem_of_find (h : t.find key = some e) : (key, e) ∈ t.entries := mem_of_lookup h

theorem find_cancel (t : ReasmTable) (key k : ReasmKey) :
    (t.cancel key).1.find k = if k = key then none else t.find k := by
  rw [cancel_eq]
  exact lookup_filter_ne t.entries key k

theorem sum_filter_ne (g : ReasmKey × ReasmEntry → Nat)
    {entries : List (ReasmKey × ReasmEntry)} (hkeys : (entries.map Prod.fst).Nodup)
    (h : (key, e) ∈ entries) :
    (entries.map g).sum = g (key, e) + ((entries.filter (·.1 ≠ key)).map g).sum := by
  induction entries with
  | nil => cases h
  | cons ke entries ih =>
    rw [List.map_cons, List.nodup_cons] at hkeys
    rw [List.map_cons, List.sum_cons]
    rcases List.mem_cons.mp h with rfl | h
    · have hrest : entries.filter (·.1 ≠ key) = entries := by
        rw [List.filter_eq_self]
        intro ke' hke'
        refine decide_eq_true fun hk => hkeys.1 ?_
        exact List.mem_map.mpr ⟨ke', hke', hk⟩
      rw [List.filter_cons_of_neg (by simp), hrest]
    · have hne : ke.1 ≠ key := fun hk => hkeys.1 (List.mem_map.mpr ⟨(key, e), h, hk.symm⟩)
      rw [List.filter_cons_of_pos (by simpa using hne), List.map_cons, List.sum_cons,
        ih hkeys.2 h]
      omega

end ReasmTable

namespace ReasmInv

variable {t : ReasmTable} {key : ReasmKey} {e : ReasmEntry}

theorem init : ReasmInv {} where
  keys := List.nodup_nil
  entry := fun ke hke => by cases hke
  nonempty := fun ke hke => by cases hke
  bufByte := rfl
  bufByte_le := Nat.zero_le _
  entries_le := Nat.zero_le _

/-- The byte count of an entry is part of the byte count of the table, so the
clamp of a release is not taken. -/
theorem bytes_le (h : ReasmInv t) (hmem : (key, e) ∈ t.entries) : e.bytes ≤ t.bufByte := by
  rw [h.bufByte, ReasmTable.sum_filter_ne _ h.keys hmem, (h.entry _ hmem).bytes]
  exact Nat.le_add_right _ _

theorem release (h : ReasmInv t) (hmem : (key, e) ∈ t.entries) :
    ReasmInv (t.releaseEntryLocked key e) := by
  have hsum := ReasmTable.sum_filter_ne (fun ke => ke.2.stored) h.keys hmem
  have hbytes := (h.entry _ hmem).bytes
  have hsub : ∀ ke ∈ (t.releaseEntryLocked key e).entries, ke ∈ t.entries :=
    fun ke hke => List.mem_of_mem_filter hke
  refine ⟨?_, fun ke hke => h.entry ke (hsub ke hke), fun ke hke => h.nonempty ke (hsub ke hke),
    ?_, ?_, ?_⟩
  · exact h.keys.sublist (List.filter_sublist.map Prod.fst)
  · show t.bufByte - e.bytes = _
    rw [h.bufByte, hsum, hbytes]
    exact Nat.add_sub_cancel_left _ _
  · have := h.bufByte_le
    show t.bufByte - e.bytes ≤ _
    omega
  · exact Nat.le_trans (List.length_filter_le _ _) h.entries_le

theorem cancel (h : ReasmInv t) (key : ReasmKey) : ReasmInv (t.cancel key).1 := by
  unfold ReasmTable.cancel
  cases hfind : t.find key with
  | none => exact h
  | some e => exact h.release (ReasmTable.mem_of_find hfind)

/-- A new or a longer entry under a key. -/
theorem storeEntry (h : ReasmInv t) {n : Nat} (hok : e.Ok) (hne : e.frags ≠ [])
    (hstored : e.stored = ((t.find key).map ReasmEntry.stored).getD 0 + n)
    (hbudget : t.bufByte + n ≤ maxReasmBytes)
    (hroom : t.find key = none → t.entries.length < maxReassemblies) :
    ReasmInv (t.storeEntry key e n) := by
  have hmem : ∀ ke ∈ (t.storeEntry key e n).entries, ke = (key, e) ∨ ke ∈ t.entries := by
    intro ke hke
    rcases List.mem_cons.mp hke with rfl | hke
    · exact .inl rfl
    · exact .inr (List.mem_of_mem_filter hke)
  have hrest : (t.entries.map fun ke => ke.2.stored).sum =
      ((t.find key).map ReasmEntry.stored).getD 0 +
        ((t.entries.filter (·.1 ≠ key)).map fun ke => ke.2.stored).sum ∧
      (t.entries.filter (·.1 ≠ key)).length < maxReassemblies := by
    cases hfind : t.find key with
    | none =>
      rw [ReasmTable.filter_of_find_eq_none hfind]
      exact ⟨(Nat.zero_add _).symm, hroom hfind⟩
    | some e' =>
      have hmem' := ReasmTable.mem_of_find hfind
      refine ⟨ReasmTable.sum_filter_ne _ h.keys hmem', ?_⟩
      have hlt : (t.entries.filter (·.1 ≠ key)).length < t.entries.length :=
        List.length_filter_lt_length_iff_exists.mpr ⟨_, hmem', by simp⟩
      exact Nat.lt_of_lt_of_le hlt h.entries_le
  refine ⟨?_, ?_, ?_, ?_, hbudget, ?_⟩
  · show ((key, e) :: t.entries.filter (·.1 ≠ key)).map Prod.fst |>.Nodup
    rw [List.map_cons, List.nodup_cons]
    refine ⟨?_, h.keys.sublist (List.filter_sublist.map Prod.fst)⟩
    rw [List.mem_map]
    rintro ⟨ke, hke, hk⟩
    exact absurd hk (by simpa using (List.mem_filter.mp hke).2)
  · intro ke hke
    rcases hmem ke hke with rfl | hke
    · exact hok
    · exact h.entry ke hke
  · intro ke hke
    rcases hmem ke hke with rfl | hke
    · exact hne
    · exact h.nonempty ke hke
  · show t.bufByte + n =
      (((key, e) :: t.entries.filter (·.1 ≠ key)).map fun ke => ke.2.stored).sum
    rw [List.map_cons, List.sum_cons, h.bufByte, hrest.1]
    show _ = e.stored + _
    rw [hstored]
    omega
  · show (t.entries.filter (·.1 ≠ key)).length + 1 ≤ _
    exact hrest.2

theorem mem_release {ke : ReasmKey × ReasmEntry} :
    ke ∈ (t.releaseEntryLocked key e).entries ↔ ke ∈ t.entries ∧ ke.1 ≠ key := by
  show ke ∈ t.entries.filter (·.1 ≠ key) ↔ _
  rw [List.mem_filter, decide_eq_true_iff]

/-- Releasing the first of several entries under different keys keeps the
others. -/
theorem mem_release_tail {ke : ReasmKey × ReasmEntry} {l : List (ReasmKey × ReasmEntry)}
    (hl : ∀ ke' ∈ ke :: l, ke' ∈ t.entries) (hkeys : ke.1 ∉ l.map Prod.fst) :
    ∀ ke' ∈ l, ke' ∈ (t.releaseEntryLocked ke.1 ke.2).entries := by
  intro ke' hke'
  refine mem_release.mpr ⟨hl ke' (List.mem_cons_of_mem _ hke'), fun hk => hkeys ?_⟩
  exact List.mem_map.mpr ⟨ke', hke', hk⟩

/-- A loop that releases entries under different keys keeps the invariant, and
leaves the entries under the other keys. -/
theorem foldl_release (h : ReasmInv t) {l : List (ReasmKey × ReasmEntry)}
    (hl : ∀ ke ∈ l, ke ∈ t.entries) (hkeys : (l.map Prod.fst).Nodup) :
    ReasmInv (l.foldl (fun t ke => t.releaseEntryLocked ke.1 ke.2) t) ∧
      ∀ ke, ke ∈ (l.foldl (fun t ke => t.releaseEntryLocked ke.1 ke.2) t).entries ↔
        ke ∈ t.entries ∧ ke.1 ∉ l.map Prod.fst := by
  induction l generalizing t with
  | nil => simpa using h
  | cons ke l ih =>
    rw [List.map_cons, List.nodup_cons] at hkeys
    obtain ⟨hinv, hentries⟩ := ih (h.release (hl ke List.mem_cons_self))
      (mem_release_tail hl hkeys.1) hkeys.2
    refine ⟨hinv, fun ke' => (hentries ke').trans ?_⟩
    rw [mem_release, List.map_cons, List.mem_cons]
    tauto

theorem expireLocked (h : ReasmInv t) (now : Int) :
    ReasmInv (t.expireLocked now) ∧
      ∀ ke, ke ∈ (t.expireLocked now).entries ↔
        ke ∈ t.entries ∧ now - maxReasmAge ≤ ke.2.createdAt := by
  have hsub : ((t.entries.filter fun ke => ke.2.createdAt < now - maxReasmAge).map
      Prod.fst).Nodup := h.keys.sublist (List.filter_sublist.map Prod.fst)
  obtain ⟨hinv, hmem⟩ := h.foldl_release (fun ke hke => List.mem_of_mem_filter hke) hsub
  refine ⟨hinv, fun ke => (hmem ke).trans (and_congr_right fun hke => ?_)⟩
  rw [List.mem_map]
  constructor
  · intro hnot
    by_contra hlt
    exact hnot ⟨ke, List.mem_filter.mpr ⟨hke, decide_eq_true (not_le.mp hlt)⟩, rfl⟩
  · rintro hle ⟨ke', hke', hk⟩
    obtain ⟨hke', hold⟩ := List.mem_filter.mp hke'
    obtain rfl : ke' = ke := List.inj_on_of_nodup_map h.keys hke' hke hk
    exact absurd (of_decide_eq_true hold) (not_lt.mpr hle)

theorem entryFor_ok (h : ReasmInv t) (key : ReasmKey) (now : Int) : (t.entryFor key now).Ok := by
  unfold ReasmTable.entryFor
  cases hfind : t.find key with
  | none => exact ReasmEntry.Ok.new now
  | some e => exact h.entry _ (ReasmTable.mem_of_find hfind)

variable {offsetUnits : UInt16} {more : Bool} {frag : Bytes}

theorem store_ok (h : ReasmInv t) (now : Int) (hacc : t.Accepts key offsetUnits more frag) :
    ((t.entryFor key now).store offsetUnits more frag).Ok ∧
      ((t.entryFor key now).store offsetUnits more frag).frags =
        (offsetUnits, frag) :: t.fragsOf key := by
  obtain ⟨hne, -, hbudget, -, hstart, -, hover, hcount⟩ := hacc
  have hok := h.entryFor_ok key now
  rw [← t.entryFor_frags key now] at hover hcount ⊢
  exact ⟨hok.store hne hstart (by omega) hover hcount more,
    ReasmEntry.store_frags hok hne hover more⟩

theorem storeEntry_of_accepts (h : ReasmInv t) (now : Int)
    (hacc : t.Accepts key offsetUnits more frag) :
    ReasmInv (t.storeEntry key ((t.entryFor key now).store offsetUnits more frag)
      frag.length) := by
  obtain ⟨hok, hfrags⟩ := h.store_ok now hacc
  obtain ⟨-, -, hbudget, hroom, -⟩ := hacc
  refine h.storeEntry hok ?_ ?_ hbudget hroom
  · rw [hfrags]
    exact List.cons_ne_nil _ _
  · have hold : ((t.fragsOf key).map fun f => f.2.length).sum =
        ((t.find key).map ReasmEntry.stored).getD 0 := by
      unfold ReasmTable.fragsOf
      cases t.find key <;> rfl
    rw [ReasmEntry.stored, hfrags, List.map_cons, List.sum_cons, hold]
    exact Nat.add_comm _ _

/-- `add` keeps the invariant. -/
theorem add (h : ReasmInv t) (key : ReasmKey) (offsetUnits : UInt16) (more : Bool)
    (frag : Bytes) (now : Int) : ReasmInv (t.add key offsetUnits more frag now).1 := by
  have hexp := (h.expireLocked now).1
  apply ReasmTable.add_rule (P := fun res => ReasmInv res.1)
  · exact fun _ => hexp
  · exact fun _ => hexp.cancel key
  · exact fun hacc _ => hexp.storeEntry_of_accepts now hacc
  · exact fun _ _ _ => hexp.cancel key

/-- `add` leaves no datagram that is older than `maxReasmAge`. -/
theorem add_age (h : ReasmInv t) (key : ReasmKey) (offsetUnits : UInt16) (more : Bool)
    (frag : Bytes) (now : Int) :
    ∀ ke ∈ (t.add key offsetUnits more frag now).1.entries,
      now - maxReasmAge ≤ ke.2.createdAt := by
  obtain ⟨hexp, hmem⟩ := h.expireLocked now
  have hage : ∀ ke ∈ (t.expireLocked now).entries, now - maxReasmAge ≤ ke.2.createdAt :=
    fun ke hke => ((hmem ke).mp hke).2
  have hcancel : ∀ ke ∈ ((t.expireLocked now).cancel key).1.entries,
      now - maxReasmAge ≤ ke.2.createdAt := by
    intro ke hke
    rw [ReasmTable.cancel_eq] at hke
    exact hage ke (List.mem_of_mem_filter hke)
  apply ReasmTable.add_rule
    (P := fun res => ∀ ke ∈ res.1.entries, now - maxReasmAge ≤ ke.2.createdAt)
  · exact fun _ => hage
  · exact fun _ => hcancel
  · intro _ _ ke hke
    rcases List.mem_cons.mp hke with rfl | hke
    · show now - maxReasmAge ≤ ((t.expireLocked now).entryFor key now).createdAt
      unfold ReasmTable.entryFor
      cases hfind : (t.expireLocked now).find key with
      | none =>
        show now - maxReasmAge ≤ now
        unfold maxReasmAge
        omega
      | some e => exact hage _ (ReasmTable.mem_of_find hfind)
    · exact hage ke (List.mem_of_mem_filter hke)
  · exact fun _ _ _ => hcancel

end ReasmInv

/-! ## The clamp

The same functions with a release that stops where the source would clamp the
byte count at zero. -/

namespace ReasmTable

/-- `releaseEntryLocked`, or `none` where the clamp is taken. -/
def releaseChecked (t : ReasmTable) (key : ReasmKey) (e : ReasmEntry) : Option ReasmTable :=
  if t.bufByte < e.bytes then none else some (t.releaseEntryLocked key e)

def cancelChecked (t : ReasmTable) (key : ReasmKey) : Option (ReasmTable × Bool) :=
  match t.find key with
  | none => some (t, false)
  | some e => (t.releaseChecked key e).map fun t => (t, true)

def expireChecked (t : ReasmTable) (now : Int) : Option ReasmTable :=
  (t.entries.filter fun ke => ke.2.createdAt < now - maxReasmAge).foldlM
    (fun t ke => t.releaseChecked ke.1 ke.2) t

def addToChecked (t : ReasmTable) (key : ReasmKey) (e : ReasmEntry)
    (offsetUnits : UInt16) (more : Bool) (frag : Bytes) : Option (ReasmTable × Option Bytes) :=
  let start := offsetUnits.toNat * 8
  let stop := start + frag.length
  if 65536 ≤ start ∨ (more = false ∧ 65536 < stop) then
    (t.cancelChecked key).map fun r => (r.1, none)
  else if e.frags.any (overlaps start stop) then
    (t.releaseChecked key e).map fun t => (t, none)
  else if maxFragmentsPerDgram ≤ e.frags.length then
    (t.releaseChecked key e).map fun t => (t, none)
  else
    let e := e.store offsetUnits more frag
    let t := t.storeEntry key e frag.length
    if e.haveLast = false then some (t, none)
    else match contiguousLen e with
      | none => some (t, none)
      | some total => (t.releaseChecked key e).map fun t => (t, some (e.assemble total))

def addChecked (t : ReasmTable) (key : ReasmKey) (offsetUnits : UInt16) (more : Bool)
    (frag : Bytes) (now : Int) : Option (ReasmTable × Option Bytes) :=
  (t.expireChecked now).bind fun t =>
    if frag = [] ∨ (more = true ∧ frag.length % 8 ≠ 0) then
      (t.cancelChecked key).map fun r => (r.1, none)
    else if maxReasmBytes < t.bufByte + frag.length then some (t, none)
    else match t.find key with
      | some e => t.addToChecked key e offsetUnits more frag
      | none =>
        if maxReassemblies ≤ t.entries.length then some (t, none)
        else
          let e : ReasmEntry := { createdAt := now }
          (t.put key e).addToChecked key e offsetUnits more frag

variable {t : ReasmTable} {key : ReasmKey} {e : ReasmEntry}

theorem releaseChecked_eq (h : e.bytes ≤ t.bufByte) :
    t.releaseChecked key e = some (t.releaseEntryLocked key e) := if_neg (by omega)

theorem cancelChecked_eq (h : ∀ e, t.find key = some e → e.bytes ≤ t.bufByte) :
    t.cancelChecked key = some (t.cancel key) := by
  unfold cancelChecked cancel
  cases hfind : t.find key with
  | none => rfl
  | some e =>
    dsimp only
    rw [releaseChecked_eq (h e hfind)]
    rfl

theorem addToChecked_eq (hfind : t.find key = some e) (h : e.bytes ≤ t.bufByte)
    (offsetUnits : UInt16) (more : Bool) (frag : Bytes) :
    t.addToChecked key e offsetUnits more frag =
      some (t.addTo key e offsetUnits more frag) := by
  have hcancel : t.cancelChecked key = some (t.cancel key) := by
    refine cancelChecked_eq fun e' he' => ?_
    rw [← Option.some.inj (hfind.symm.trans he')]
    exact h
  have hrelease : t.releaseChecked key e = some (t.releaseEntryLocked key e) :=
    releaseChecked_eq h
  have hstored : (t.storeEntry key (e.store offsetUnits more frag) frag.length).releaseChecked key
      (e.store offsetUnits more frag) = some _ :=
    releaseChecked_eq (Nat.add_le_add_right h frag.length)
  rw [addTo_eq]
  unfold addToChecked
  rw [hcancel, hrelease]
  dsimp only
  rw [hstored]
  split_ifs
  · rfl
  · rfl
  · rfl
  · rfl
  · cases contiguousLen (e.store offsetUnits more frag) <;> rfl

end ReasmTable

namespace ReasmInv

variable {t : ReasmTable} {key : ReasmKey}

theorem bytes_le_of_find (h : ReasmInv t) (key : ReasmKey) :
    ∀ e, t.find key = some e → e.bytes ≤ t.bufByte :=
  fun _ he => h.bytes_le (ReasmTable.mem_of_find he)

theorem foldlM_releaseChecked (h : ReasmInv t) {l : List (ReasmKey × ReasmEntry)}
    (hl : ∀ ke ∈ l, ke ∈ t.entries) (hkeys : (l.map Prod.fst).Nodup) :
    l.foldlM (fun t ke => ReasmTable.releaseChecked t ke.1 ke.2) t =
      some (l.foldl (fun t ke => t.releaseEntryLocked ke.1 ke.2) t) := by
  induction l generalizing t with
  | nil => rfl
  | cons ke l ih =>
    rw [List.map_cons, List.nodup_cons] at hkeys
    have hmem := hl ke List.mem_cons_self
    rw [List.foldlM_cons, ReasmTable.releaseChecked_eq (h.bytes_le hmem)]
    exact ih (h.release hmem) (mem_release_tail hl hkeys.1) hkeys.2

theorem expireChecked_eq (h : ReasmInv t) (now : Int) :
    t.expireChecked now = some (t.expireLocked now) :=
  h.foldlM_releaseChecked (fun _ hke => List.mem_of_mem_filter hke)
    (h.keys.sublist (List.filter_sublist.map Prod.fst))

/-- No release of `add` is clamped. -/
theorem addChecked_eq (h : ReasmInv t) (key : ReasmKey) (offsetUnits : UInt16) (more : Bool)
    (frag : Bytes) (now : Int) :
    t.addChecked key offsetUnits more frag now = some (t.add key offsetUnits more frag now) := by
  have hexp := (h.expireLocked now).1
  unfold ReasmTable.addChecked ReasmTable.add
  rw [h.expireChecked_eq now, Option.bind_some]
  generalize t.expireLocked now = t₁ at hexp ⊢
  dsimp only
  split_ifs
  · rw [ReasmTable.cancelChecked_eq (hexp.bytes_le_of_find key)]
    rfl
  · rfl
  all_goals cases hfind : t₁.find key with
    | some e =>
      exact ReasmTable.addToChecked_eq hfind (hexp.bytes_le_of_find key e hfind) _ _ _
    | none => ?_
  · rfl
  · refine ReasmTable.addToChecked_eq ?_ (Nat.zero_le _) _ _ _
    rw [ReasmTable.find_put, if_pos rfl]

end ReasmInv

/-! ## Runs -/

/-- One call on the table. -/
inductive ReasmOp where
  | add (key : ReasmKey) (offsetUnits : UInt16) (more : Bool) (frag : Bytes) (now : Int)
  | cancel (key : ReasmKey)

/-- The table after a call. -/
def reasmStep (t : ReasmTable) : ReasmOp → Option ReasmTable
  | .add key offsetUnits more frag now => some (t.add key offsetUnits more frag now).1
  | .cancel key => some (t.cancel key).1

theorem reasmStep_inv {t t' : ReasmTable} (h : ReasmInv t) (op : ReasmOp)
    (hop : reasmStep t op = some t') : ReasmInv t' := by
  cases op with
  | add key offsetUnits more frag now =>
    exact Option.some.inj hop ▸ h.add key offsetUnits more frag now
  | cancel key => exact Option.some.inj hop ▸ h.cancel key

/-- In every state that the table reaches, by any calls with any keys, offsets,
flags, bytes and times: the byte count is the sum over the stored fragments and
at most 65536, there are at most 64 datagrams of one to sixteen fragments, all
of them non-empty and none over another; neither call clamps the byte count; and
an `add` leaves no datagram that is older than thirty seconds. -/
theorem reasm_accounting {ops : List ReasmOp} {t : ReasmTable}
    (hrun : run reasmStep {} ops = some t) :
    ReasmInv t ∧
    (∀ key, t.cancelChecked key = some (t.cancel key)) ∧
    ∀ key offsetUnits more frag now,
      t.addChecked key offsetUnits more frag now = some (t.add key offsetUnits more frag now) ∧
      ∀ ke ∈ (t.add key offsetUnits more frag now).1.entries,
        now - maxReasmAge ≤ ke.2.createdAt := by
  have h : ReasmInv t :=
    run_invariant_of_step (fun _ op _ hi hop => reasmStep_inv hi op hop) ReasmInv.init hrun
  refine ⟨h, fun key => ReasmTable.cancelChecked_eq (h.bytes_le_of_find key), ?_⟩
  intro key offsetUnits more frag now
  exact ⟨h.addChecked_eq key offsetUnits more frag now, h.add_age key offsetUnits more frag now⟩

/-- The datagram of the runs below. -/
def reasmKey : ReasmKey := ⟨.replicate 16 2, .replicate 16 3, 7⟩

/-- Two fragments of it with a gap between them. -/
def gapOps : List ReasmOp :=
  [.add reasmKey 0 true [1, 2, 3, 4, 5, 6, 7, 8] 0, .add reasmKey 2 false [9, 10, 11] 5]

theorem reasm_accounting_gap :
    ∃ t ∈ run reasmStep {} gapOps, t.entries.length = 1 ∧ t.bufByte = 11 ∧ ReasmInv t := by
  have hrun : ∃ t ∈ run reasmStep {} gapOps, t.entries.length = 1 ∧ t.bufByte = 11 := by
    decide +kernel
  obtain ⟨t, ht, hlen, hbuf⟩ := hrun
  exact ⟨t, ht, hlen, hbuf, (reasm_accounting ht).1⟩

end Ydn64.Nat64
