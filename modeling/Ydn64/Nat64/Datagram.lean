import Ydn64.Nat64.Reassembly

/-!
# The fragments of a whole datagram

What a sender that follows the standard does: it cuts a body into parts, all but
the last a multiple of eight bytes long, and sends each with its offset and with
`more` set on all but the last.  Fed to `add` within thirty seconds, in any order,
the fragments wait until the last of them has come, and then `add` returns the
body (`addAll_cut`).
-/

namespace Ydn64.Nat64

open Ydn64.GoStd Ydn64.Lib

/-- A body of at most 65535 bytes, cut into parts that fragments can carry. -/
structure Cut where
  parts : List Bytes
  ne : parts ≠ []
  nonempty : ∀ part ∈ parts, part ≠ []
  aligned : ∀ part ∈ parts.dropLast, part.length % 8 = 0
  size_le : parts.flatten.length ≤ 65535

/-- The parts as fragments, the first one at byte `pos`. -/
def fragmentsFrom (pos : Nat) : List Bytes → List Fragment
  | [] => []
  | part :: parts =>
    ⟨UInt16.ofNat (pos / 8), !parts.isEmpty, part⟩ :: fragmentsFrom (pos + part.length) parts

namespace Cut

def body (c : Cut) : Bytes := c.parts.flatten

def fragments (c : Cut) : List Fragment := fragmentsFrom 0 c.parts

end Cut

theorem fragmentsFrom_length (parts : List Bytes) (pos : Nat) :
    (fragmentsFrom pos parts).length = parts.length := by
  induction parts generalizing pos with
  | nil => rfl
  | cons part parts ih =>
    rw [fragmentsFrom, List.length_cons, List.length_cons, ih]

theorem toNat_ofNat_div_eight {pos : Nat} (hpos : pos % 8 = 0) (hlt : pos ≤ 65535) :
    (UInt16.ofNat (pos / 8)).toNat * 8 = pos := by
  rw [UInt16.toNat_ofNat_of_lt' (by show pos / 8 < 65536; omega)]
  omega

theorem bytes_of_mem_fragmentsFrom {parts : List Bytes} {pos : Nat} {f : Fragment}
    (hf : f ∈ fragmentsFrom pos parts) : f.bytes ∈ parts := by
  induction parts generalizing pos with
  | nil => cases hf
  | cons part parts ih =>
    rcases List.mem_cons.mp hf with rfl | hf
    · exact List.mem_cons_self
    · exact List.mem_cons_of_mem _ (ih hf)

/-- The last fragment ends the body with `more` unset; any other one is a
multiple of eight long, ends before it and has `more` set. -/
theorem more_of_mem_fragmentsFrom {parts : List Bytes} {pos : Nat} {f : Fragment}
    (hne : ∀ part ∈ parts, part ≠ [])
    (haligned : ∀ part ∈ parts.dropLast, part.length % 8 = 0) (hpos : pos % 8 = 0)
    (hsize : pos + parts.flatten.length ≤ 65535) (hf : f ∈ fragmentsFrom pos parts) :
    (f.more = false ∧ f.stop = pos + parts.flatten.length) ∨
      (f.more = true ∧ f.bytes.length % 8 = 0 ∧ f.stop < pos + parts.flatten.length) := by
  induction parts generalizing pos with
  | nil => cases hf
  | cons part parts ih =>
    rw [List.flatten_cons, List.length_append] at hsize ⊢
    have hstart := toNat_ofNat_div_eight hpos (by omega)
    cases parts with
    | nil =>
      rcases List.mem_cons.mp hf with rfl | hf
      · left
        refine ⟨rfl, ?_⟩
        show (UInt16.ofNat (pos / 8)).toNat * 8 + part.length = _
        rw [hstart]
        simp
      · cases hf
    | cons next parts =>
      rw [List.dropLast_cons_cons] at haligned
      have hpart := haligned part List.mem_cons_self
      rcases List.mem_cons.mp hf with rfl | hf
      · right
        refine ⟨rfl, hpart, ?_⟩
        have hnext := List.length_pos_of_ne_nil
          (hne next (List.mem_cons_of_mem _ List.mem_cons_self))
        show (UInt16.ofNat (pos / 8)).toNat * 8 + part.length < _
        rw [hstart, List.flatten_cons, List.length_append]
        omega
      · have := ih (fun p hp => hne p (List.mem_cons_of_mem _ hp))
          (fun p hp => haligned p (List.mem_cons_of_mem _ hp)) (by omega) (by omega) hf
        rw [← Nat.add_assoc]
        exact this

theorem map_piece_fragmentsFrom {parts : List Bytes} {pos : Nat}
    (haligned : ∀ part ∈ parts.dropLast, part.length % 8 = 0) (hpos : pos % 8 = 0)
    (hsize : pos + parts.flatten.length ≤ 65535) :
    (fragmentsFrom pos parts).map (fun f => piece f.stored) = cutFrom pos parts := by
  induction parts generalizing pos with
  | nil => rfl
  | cons part parts ih =>
    rw [List.flatten_cons, List.length_append] at hsize
    have hstart := toNat_ofNat_div_eight hpos (by omega)
    rw [fragmentsFrom, cutFrom, List.map_cons]
    cases parts with
    | nil =>
      simp only [fragmentsFrom, cutFrom, List.map_nil]
      rw [piece, Fragment.stored, hstart]
    | cons next parts =>
      rw [List.dropLast_cons_cons] at haligned
      have hpart := haligned part List.mem_cons_self
      rw [ih (fun p hp => haligned p (List.mem_cons_of_mem _ hp)) (by omega) (by omega),
        piece, Fragment.stored, hstart]

namespace Cut

variable {c : Cut} {f : Fragment}

theorem fragments_length (c : Cut) : c.fragments.length = c.parts.length :=
  fragmentsFrom_length c.parts 0

theorem nonempty_of_mem (hf : f ∈ c.fragments) : f.bytes ≠ [] :=
  c.nonempty _ (bytes_of_mem_fragmentsFrom hf)

theorem more_of_mem (hf : f ∈ c.fragments) :
    (f.more = false ∧ f.stop = c.body.length) ∨
      (f.more = true ∧ f.bytes.length % 8 = 0 ∧ f.stop < c.body.length) := by
  have h := more_of_mem_fragmentsFrom c.nonempty c.aligned rfl
    (by rw [Nat.zero_add]; exact c.size_le) hf
  rw [Nat.zero_add] at h
  exact h

theorem stop_le (hf : f ∈ c.fragments) : f.stop ≤ c.body.length := by
  rcases more_of_mem hf with ⟨-, h⟩ | ⟨-, -, h⟩ <;> omega

theorem map_piece_fragments (c : Cut) :
    c.fragments.map (fun f => piece f.stored) = cutFrom 0 c.parts :=
  map_piece_fragmentsFrom c.aligned rfl (by rw [Nat.zero_add]; exact c.size_le)

theorem tiles (c : Cut) : Tiles (c.fragments.map fun f => piece f.stored) c.body.length := by
  rw [map_piece_fragments]
  exact tiles_cutFrom c.parts

theorem at_body (hf : f ∈ c.fragments) : (piece f.stored).At c.body := by
  refine at_of_mem_cutFrom ?_
  rw [← map_piece_fragments]
  exact List.mem_map_of_mem hf

theorem body_pos (c : Cut) : 0 < c.body.length := by
  obtain ⟨part, hpart⟩ := List.exists_mem_of_ne_nil _ c.ne
  have hpos := List.length_pos_of_ne_nil (c.nonempty part hpart)
  have hle := (List.sublist_flatten_of_mem hpart).length_le
  unfold body
  omega

theorem start_lt (hf : f ∈ c.fragments) : f.offsetUnits.toNat * 8 < c.body.length := by
  have hpos := List.length_pos_of_ne_nil (nonempty_of_mem hf)
  have hle := stop_le hf
  unfold Fragment.stop fragEnd Fragment.stored at hle
  dsimp only at hle
  omega

end Cut

/-! ## Feeding -/

/-- Call `add` for one fragment after the other. -/
def addAll (t : ReasmTable) (key : ReasmKey) :
    List (Fragment × Int) → ReasmTable × List (Option Bytes)
  | [] => (t, [])
  | (f, now) :: rest =>
    let (t', pdu) := t.add key f.offsetUnits f.more f.bytes now
    let (t'', pdus) := addAll t' key rest
    (t'', pdu :: pdus)

/-- The entry after some fragments of a datagram. -/
def partialEntry (created : Int) (fed : List Fragment) : ReasmEntry where
  createdAt := created
  frags := fed.map Fragment.stored
  bytes := (fed.map fun f => f.bytes.length).sum
  haveLast := fed.any fun f => !f.more

/-- The table after some fragments of a datagram, and nothing else. -/
def partialTable (key : ReasmKey) (created : Int) (fed : List Fragment) : ReasmTable where
  entries := [(key, partialEntry created fed)]
  bufByte := (fed.map fun f => f.bytes.length).sum

/-- Some fragments of a datagram, and those that are still missing. -/
structure Fed (c : Cut) (fed rest : List Fragment) : Prop where
  perm : (fed ++ rest).Perm c.fragments

namespace Fed

variable {c : Cut} {fed rest : List Fragment}

theorem mem (h : Fed c fed rest) {f : Fragment} (hf : f ∈ fed) : f ∈ c.fragments :=
  h.perm.mem_iff.mp (List.mem_append_left _ hf)

theorem pairwise (h : Fed c fed rest) :
    ((fed ++ rest).map fun f => piece f.stored).Pairwise Piece.Apart :=
  (c.tiles.perm (h.perm.symm.map _)).apart

theorem apart (h : Fed c fed rest) {f g : Fragment} (hf : f ∈ fed) (hg : g ∈ rest) :
    (piece f.stored).Apart (piece g.stored) := by
  have hpair := h.pairwise
  rw [List.map_append, List.pairwise_append] at hpair
  exact hpair.2.2 _ (List.mem_map_of_mem hf) _ (List.mem_map_of_mem hg)

/-- The fragments that have come so far are what the walk expects. -/
theorem aligned (h : Fed c fed rest) (created : Int) :
    Aligned (partialEntry created fed).frags := by
  have hle : furthest (fed.map Fragment.stored) ≤ c.body.length := by
    by_cases hnil : fed.map Fragment.stored = []
    · rw [hnil]
      exact Nat.zero_le _
    · obtain ⟨g, hg, heq⟩ := exists_fragEnd_eq_furthest hnil
      obtain ⟨f, hf, rfl⟩ := List.mem_map.mp hg
      rw [← heq]
      exact Cut.stop_le (h.mem hf)
  have hsize := c.size_le
  refine ⟨?_, ?_, ?_, ?_, ?_⟩
  · intro g hg
    obtain ⟨f, hf, rfl⟩ := List.mem_map.mp hg
    exact Cut.nonempty_of_mem (h.mem hf)
  · have := h.pairwise
    rw [List.map_append, List.pairwise_append] at this
    rw [partialEntry, List.map_map]
    exact this.1
  · intro g hg
    obtain ⟨f, hf, rfl⟩ := List.mem_map.mp hg
    have := Cut.start_lt (h.mem hf)
    show f.offsetUnits.toNat * 8 < 65536
    unfold Cut.body at this
    omega
  · intro g hg
    obtain ⟨f, hf, rfl⟩ := List.mem_map.mp hg
    have hstop := Cut.stop_le (h.mem hf)
    unfold Fragment.stop fragEnd Cut.body at hstop
    show f.stored.2.length ≤ 65536
    omega
  · intro g hg hlt
    obtain ⟨f, hf, rfl⟩ := List.mem_map.mp hg
    rcases Cut.more_of_mem (h.mem hf) with ⟨-, hstop⟩ | ⟨-, hmod, -⟩
    · change f.stop < furthest (fed.map Fragment.stored) at hlt
      omega
    · exact hmod

/-- The fragments that have come so far are among those of the datagram, and none
of them is one that is missing. -/
theorem mem_ne (h : Fed c fed rest) {g : Fragment} (hg : g ∈ rest) :
    ∀ q ∈ fed.map fun f => piece f.stored,
      q ∈ c.fragments.map (fun f => piece f.stored) ∧ q ≠ piece g.stored := by
  intro q hq
  obtain ⟨f, hf, rfl⟩ := List.mem_map.mp hq
  refine ⟨List.mem_map_of_mem (h.mem hf), fun heq => ?_⟩
  have hapart := h.apart hf hg
  have hpos := List.length_pos_of_ne_nil (Cut.nonempty_of_mem (h.mem hf))
  rw [← heq] at hapart
  unfold Piece.Apart Piece.stop at hapart
  simp only [piece_start, piece_data, Fragment.stored] at hapart
  omega

/-- With a fragment missing there is no datagram yet. -/
theorem total_eq_none (h : Fed c fed rest) (hrest : rest ≠ []) (created : Int) :
    (partialEntry created fed).total = none := by
  unfold ReasmEntry.total
  split_ifs with hlast
  swap
  · rfl
  obtain ⟨last, hlm, hmore⟩ := List.any_eq_true.mp hlast
  rw [Bool.not_eq_true'] at hmore
  have hstop : last.stop = c.body.length := by
    rcases Cut.more_of_mem (h.mem hlm) with ⟨-, hstop⟩ | ⟨htrue, -⟩
    · exact hstop
    · rw [hmore] at htrue
      cases htrue
  cases hn : contiguousLen (partialEntry created fed) with
  | none => rfl
  | some n =>
    -- The walk has gone up to the end of the body, over the missing fragment.
    have htiles := (contiguousLen_eq_some_iff (h.aligned created)).mp hn
    have hle : c.body.length ≤ n := by
      rw [← Aligned.furthest_eq_of_tiles htiles, ← hstop]
      exact fragEnd_le_furthest (List.mem_map_of_mem hlm)
    obtain ⟨g, hg⟩ := List.exists_mem_of_ne_nil rest hrest
    have hgm : g ∈ c.fragments := h.perm.mem_iff.mp (List.mem_append_right _ hg)
    obtain ⟨hlt, hgap⟩ := c.tiles.gap (List.mem_map_of_mem hgm) (Cut.nonempty_of_mem hgm)
      (h.mem_ne hg)
    have hcov := htiles.covered _ (Nat.lt_of_lt_of_le hlt hle)
    rw [partialEntry, List.map_map] at hcov
    exact absurd hcov hgap

/-- With all fragments there is the body. -/
theorem total_eq_some (h : Fed c fed []) (created : Int) :
    (partialEntry created fed).total = some c.body.length ∧
      (partialEntry created fed).assemble c.body.length = c.body := by
  have hperm : fed.Perm c.fragments := by
    have := h.perm
    rwa [List.append_nil] at this
  have htiles : Tiles ((partialEntry created fed).frags.map piece) c.body.length := by
    rw [partialEntry, List.map_map]
    exact c.tiles.perm (hperm.symm.map _)
  have haligned := h.aligned created
  obtain ⟨hlen, hat⟩ := haligned.assemble_spec htiles
  refine ⟨?_, htiles.eq_of_at hlen rfl ?_ ?_⟩
  · -- The fragment over the last byte is the last one.
    obtain ⟨p, hp, -, hend⟩ := c.tiles.covered (c.body.length - 1) (by have := c.body_pos; omega)
    obtain ⟨f, hf, rfl⟩ := List.mem_map.mp hp
    change _ < f.stop at hend
    have hmore : f.more = false := by
      rcases Cut.more_of_mem hf with ⟨hmore, -⟩ | ⟨-, -, hlt⟩
      · exact hmore
      · omega
    have hlast : (partialEntry created fed).haveLast = true :=
      List.any_eq_true.mpr ⟨f, hperm.mem_iff.mpr hf, by rw [hmore]; rfl⟩
    rw [ReasmEntry.total, if_pos hlast]
    exact (contiguousLen_eq_some_iff haligned).mpr htiles
  · intro p hp
    obtain ⟨g, hg, rfl⟩ := List.mem_map.mp hp
    exact hat g hg
  · intro p hp
    obtain ⟨g, hg, rfl⟩ := List.mem_map.mp hp
    obtain ⟨f, hf, rfl⟩ := List.mem_map.mp hg
    exact Cut.at_body (h.mem hf)

theorem overlaps_eq_false {f : Fragment} (h : Fed c fed (f :: rest)) :
    (fed.map Fragment.stored).any
      (overlaps (f.offsetUnits.toNat * 8) (f.offsetUnits.toNat * 8 + f.bytes.length)) = false := by
  rw [List.any_eq_false]
  intro g' hg'
  obtain ⟨g, hg, rfl⟩ := List.mem_map.mp hg'
  have hapart := h.apart hg List.mem_cons_self
  unfold Piece.Apart at hapart
  rw [piece_stop, piece_stop, piece_start, piece_start] at hapart
  have hend : fragEnd f.stored = f.offsetUnits.toNat * 8 + f.bytes.length := rfl
  have hoff : f.stored.1 = f.offsetUnits := rfl
  rw [hend, hoff] at hapart
  unfold overlaps
  rw [Bool.and_eq_true, decide_eq_true_iff, decide_eq_true_iff]
  omega

theorem sum_le {f : Fragment} (h : Fed c fed (f :: rest)) :
    (fed.map fun g => g.bytes.length).sum + f.bytes.length ≤ 65535 := by
  have hsum : ((fed ++ f :: rest).map fun g => g.bytes.length).sum = c.body.length := by
    rw [(h.perm.map _).sum_eq, Cut.fragments, Cut.body, List.length_flatten]
    generalize 0 = pos
    induction c.parts generalizing pos with
    | nil => rfl
    | cons part parts ih => simp only [fragmentsFrom, List.map_cons, List.sum_cons, ih]
  have hle := c.size_le
  rw [List.map_append, List.sum_append, List.map_cons, List.sum_cons] at hsum
  unfold Cut.body at hsum
  omega

end Fed

/-- What the table holds after some fragments of a datagram, as an `add` at `now`
finds it. -/
structure Holds (t : ReasmTable) (key : ReasmKey) (now created : Int) (fed : List Fragment) :
    Prop where
  inv : ReasmInv t
  expire : t.expireLocked now = t
  entry : t.entryFor key now = partialEntry created fed
  bufByte : t.bufByte = (fed.map fun f => f.bytes.length).sum
  entries : t.entries.filter (·.1 ≠ key) = []
  length_le : t.entries.length ≤ 1

namespace Holds

variable {t : ReasmTable} {key : ReasmKey} {now created : Int} {fed rest : List Fragment} {c : Cut}
  {f : Fragment}

theorem init (key : ReasmKey) (now : Int) : Holds {} key now now [] :=
  ⟨ReasmInv.init, rfl, rfl, rfl, rfl, Nat.zero_le _⟩

theorem partialTable (hinv : ReasmInv (partialTable key created fed))
    (hage : now - maxReasmAge ≤ created) : Holds (partialTable key created fed) key now created fed
    where
  inv := hinv
  expire := by
    unfold ReasmTable.expireLocked
    rw [List.filter_eq_nil_iff.mpr]
    · rfl
    · intro ke hke
      obtain rfl := List.mem_singleton.mp hke
      rw [decide_eq_true_iff]
      exact not_lt.mpr hage
  entry := by
    unfold ReasmTable.entryFor ReasmTable.find Nat64.partialTable
    simp
  bufByte := rfl
  entries := by simp [Nat64.partialTable]
  length_le := Nat.le_refl _

theorem fragsOf (h : Holds t key now created fed) : t.fragsOf key = fed.map Fragment.stored := by
  rw [← ReasmTable.entryFor_frags t key now, h.entry]
  rfl

theorem fits (h : Holds t key now created fed) (hfed : Fed c fed (f :: rest)) :
    f.bytes ≠ [] ∧ (f.more = true → f.bytes.length % 8 = 0) ∧
      t.bufByte + f.bytes.length ≤ maxReasmBytes := by
  have hmem : f ∈ c.fragments := hfed.perm.mem_iff.mp (by simp)
  have hsum := hfed.sum_le
  refine ⟨Cut.nonempty_of_mem hmem, ?_, ?_⟩
  · intro hmore
    rcases Cut.more_of_mem hmem with ⟨hfalse, -⟩ | ⟨-, hmod, -⟩
    · rw [hmore] at hfalse
      cases hfalse
    · exact hmod
  · rw [h.bufByte, maxReasmBytes]
    omega

theorem accepts (h : Holds t key now created fed) (hfed : Fed c fed (f :: rest))
    (hcount : fed.length < maxFragmentsPerDgram) :
    t.Accepts key f.offsetUnits f.more f.bytes := by
  have hmem : f ∈ c.fragments := hfed.perm.mem_iff.mp (by simp)
  have hstart := Cut.start_lt hmem
  have hstop := Cut.stop_le hmem
  have hsize := c.size_le
  unfold Cut.body at hstart hstop
  obtain ⟨hne, halign, hbudget⟩ := h.fits hfed
  refine ⟨hne, halign, hbudget, ?_, by omega, ?_, ?_, ?_⟩
  · intro _
    have := h.length_le
    unfold maxReassemblies
    omega
  · intro _
    unfold Fragment.stop fragEnd Fragment.stored at hstop
    dsimp only at hstop
    omega
  · rw [h.fragsOf]
    exact hfed.overlaps_eq_false
  · rw [h.fragsOf, List.length_map]
    exact hcount

theorem store (h : Holds t key now created fed)
    (hacc : t.Accepts key f.offsetUnits f.more f.bytes) :
    (t.entryFor key now).store f.offsetUnits f.more f.bytes = partialEntry created (f :: fed) := by
  obtain ⟨-, hfrags⟩ := h.inv.store_ok now hacc
  rw [h.fragsOf] at hfrags
  rw [h.entry] at hfrags ⊢
  unfold ReasmEntry.store at hfrags ⊢
  dsimp only at hfrags
  rw [hfrags]
  unfold partialEntry
  simp only [List.map_cons, List.sum_cons, List.any_cons, ReasmEntry.mk.injEq, true_and]
  exact ⟨rfl, Nat.add_comm _ _, Bool.or_comm _ _⟩

theorem storeEntry (h : Holds t key now created fed) :
    t.storeEntry key (partialEntry created (f :: fed)) f.bytes.length =
      Nat64.partialTable key created (f :: fed) := by
  unfold ReasmTable.storeEntry ReasmTable.put Nat64.partialTable
  rw [h.entries, h.bufByte, List.map_cons, List.sum_cons, Nat.add_comm]

theorem cancel (h : Holds t key now created fed) : (t.cancel key).1 = {} := by
  have hbytes : ((t.find key).map ReasmEntry.bytes).getD 0 = t.bufByte := by
    have hentry : (t.entryFor key now).bytes = ((t.find key).map ReasmEntry.bytes).getD 0 := by
      unfold ReasmTable.entryFor
      cases t.find key <;> rfl
    rw [← hentry, h.entry, h.bufByte]
    rfl
  rw [ReasmTable.cancel_eq, h.entries, hbytes, Nat.sub_self]

theorem add (h : Holds t key now created fed) (hfed : Fed c fed (f :: rest))
    (hcount : fed.length < maxFragmentsPerDgram) :
    t.add key f.offsetUnits f.more f.bytes now =
      if rest = [] then ({}, some c.body)
      else (Nat64.partialTable key created (f :: fed), none) := by
  have hacc := h.accepts hfed hcount
  have hnext : Fed c (f :: fed) rest := ⟨List.perm_middle.symm.trans hfed.perm⟩
  rw [ReasmTable.add_of_accepts (by rw [h.expire]; exact hacc), h.expire, h.store hacc,
    h.storeEntry, h.cancel]
  split_ifs with hrest
  · subst hrest
    obtain ⟨htotal, hbody⟩ := hnext.total_eq_some created
    rw [htotal]
    dsimp only
    rw [hbody]
  · rw [hnext.total_eq_none hrest created]

/-- The rest of the fragments, in any order, completes the datagram. -/
theorem addAll {x : Fragment × Int} {order : List (Fragment × Int)}
    (h : Holds t key x.2 created fed) (hfed : Fed c fed ((x :: order).map Prod.fst))
    (hcount : fed.length + (x :: order).length ≤ maxFragmentsPerDgram)
    (hage : ∀ y ∈ order, y.2 - maxReasmAge ≤ created) :
    Nat64.addAll t key (x :: order) =
      ({}, List.replicate order.length none ++ [some c.body]) := by
  induction order generalizing t x fed with
  | nil =>
    have hadd := h.add hfed (by simp only [List.length_singleton] at hcount; omega)
    rw [List.map_nil, if_pos rfl] at hadd
    simp only [Nat64.addAll, hadd]
    rfl
  | cons y order ih =>
    simp only [List.length_cons] at hcount
    have hadd := h.add hfed (by omega)
    rw [List.map_cons, if_neg (List.cons_ne_nil _ _)] at hadd
    have hinv : ReasmInv (Nat64.partialTable key created (x.1 :: fed)) := by
      have := h.inv.add key x.1.offsetUnits x.1.more x.1.bytes x.2
      rwa [hadd] at this
    have hnext := ih (x := y) (Holds.partialTable hinv (hage y List.mem_cons_self))
      ⟨List.perm_middle.symm.trans hfed.perm⟩ (by simp only [List.length_cons]; omega)
      (fun z hz => hage z (List.mem_cons_of_mem _ hz))
    rw [Nat64.addAll, hadd]
    dsimp only
    rw [hnext]
    rfl

end Holds

/-- The fragments of a datagram, fed to an empty table within thirty seconds of
the first and in any order, wait until the last of them has come.  Then `add`
returns the body, and the table is empty again. -/
theorem addAll_cut (c : Cut) (key : ReasmKey) (order : List (Fragment × Int))
    (hperm : (order.map Prod.fst).Perm c.fragments)
    (hcount : order.length ≤ maxFragmentsPerDgram)
    (hage : ∀ x ∈ order.head?, ∀ y ∈ order, y.2 - maxReasmAge ≤ x.2) :
    addAll {} key order = ({}, List.replicate (order.length - 1) none ++ [some c.body]) := by
  cases order with
  | nil =>
    have := hperm.length_eq
    rw [c.fragments_length] at this
    exact absurd (List.length_eq_zero_iff.mp this.symm) c.ne
  | cons x order =>
    refine (Holds.init key x.2).addAll ⟨hperm⟩ (by simpa using hcount) ?_
    exact fun y hy => hage x rfl y (List.mem_cons_of_mem _ hy)

end Ydn64.Nat64
