import Ydn64.Nat64.ReasmTable

/-!
# What a reassembled datagram is made of

Three loops of the source have a notion of where a datagram ends.
`contiguousLen` takes the end of the furthest fragment and then walks from
fragment to fragment by their lengths; the loop of `add` copies the fragments by
their offsets; and the flag `more` of a fragment marks the end without saying
where it is.

The two loops agree where every fragment that ends before the furthest one is a
multiple of eight long: then the walk succeeds exactly when the fragments tile
the datagram (`contiguousLen_eq_some_iff`), and the copy holds each of them at
its place (`assemble_spec`).  A fragment with `more` unset may have any length,
and nothing compares its end with that of the others.  `reassembly_sound_iff`
says what this means for a run: a datagram is what its fragments say exactly when
the furthest fragment came with `more` unset and no other one breaks the
alignment.
-/

namespace Ydn64.Nat64

open Ydn64.GoStd Ydn64.Lib

/-! ## The end of the furthest fragment -/

/-- The end of the furthest fragment, as the first loop of `contiguousLen`
finds it. -/
def furthest (frags : List (UInt16 × Bytes)) : Nat := (frags.map fragEnd).foldl max 0

theorem foldl_max_ge (l : List Nat) (init : Nat) :
    init ≤ l.foldl max init ∧ ∀ x ∈ l, x ≤ l.foldl max init := by
  induction l generalizing init with
  | nil => simp
  | cons y l ih =>
    obtain ⟨hinit, hl⟩ := ih (max init y)
    rw [List.foldl_cons]
    refine ⟨by omega, List.forall_mem_cons.mpr ⟨by omega, hl⟩⟩

theorem foldl_max_mem (l : List Nat) (init : Nat) :
    l.foldl max init = init ∨ l.foldl max init ∈ l := by
  induction l generalizing init with
  | nil => exact .inl rfl
  | cons y l ih =>
    rw [List.foldl_cons, List.mem_cons]
    rcases ih (max init y) with h | h
    · rw [h]
      omega
    · exact .inr (.inr h)

theorem fragEnd_le_furthest {frags : List (UInt16 × Bytes)} {f : UInt16 × Bytes}
    (hf : f ∈ frags) : fragEnd f ≤ furthest frags :=
  (foldl_max_ge _ 0).2 _ (List.mem_map_of_mem hf)

theorem exists_fragEnd_eq_furthest {frags : List (UInt16 × Bytes)} (h : frags ≠ []) :
    ∃ f ∈ frags, fragEnd f = furthest frags := by
  rcases foldl_max_mem (frags.map fragEnd) 0 with h0 | hmem
  · obtain ⟨f, hf⟩ := List.exists_mem_of_ne_nil frags h
    have hle := fragEnd_le_furthest hf
    refine ⟨f, hf, ?_⟩
    unfold furthest at hle ⊢
    omega
  · obtain ⟨f, hf, heq⟩ := List.mem_map.mp hmem
    exact ⟨f, hf, heq⟩

/-! ## The walk -/

/-- The fragments of an entry that the walk can follow: they do not overlap, and
each one that ends before the furthest is a multiple of eight long. -/
structure Aligned (frags : List (UInt16 × Bytes)) : Prop where
  nonempty : ∀ f ∈ frags, f.2 ≠ []
  apart : (frags.map piece).Pairwise Piece.Apart
  start_lt : ∀ f ∈ frags, f.1.toNat * 8 < 65536
  size_le : ∀ f ∈ frags, f.2.length ≤ maxReasmBytes
  mod_eight : ∀ f ∈ frags, fragEnd f < furthest frags → f.2.length % 8 = 0

namespace Aligned

variable {frags : List (UInt16 × Bytes)}

theorem of_ok {e : ReasmEntry} (h : e.Ok)
    (hmod : ∀ f ∈ e.frags, fragEnd f < furthest e.frags → f.2.length % 8 = 0) :
    Aligned e.frags :=
  ⟨h.nonempty, h.apart, h.start_lt, h.size_le, hmod⟩

theorem furthest_lt (h : Aligned frags) : furthest frags < 8 * 65536 := by
  by_cases hnil : frags = []
  · rw [hnil]
    decide
  · obtain ⟨f, hf, heq⟩ := exists_fragEnd_eq_furthest hnil
    have hstart := h.start_lt f hf
    have hsize := h.size_le f hf
    unfold fragEnd at heq
    unfold maxReasmBytes at hsize
    omega

theorem eq_of_covers (h : Aligned frags) {f g : UInt16 × Bytes} (hf : f ∈ frags) (hg : g ∈ frags)
    {i : Nat} (hfi : f.1.toNat * 8 ≤ i ∧ i < fragEnd f) (hgi : g.1.toNat * 8 ≤ i ∧ i < fragEnd g) :
    f = g := by
  have heq : piece f = piece g :=
    eq_of_pairwise_apart h.apart (List.mem_map_of_mem hf) (List.mem_map_of_mem hg) hfi hgi
  unfold piece at heq
  rw [Piece.mk.injEq] at heq
  exact Prod.ext (UInt16.toNat_inj.mp (by omega)) heq.2

theorem nonempty_range (h : Aligned frags) {f : UInt16 × Bytes} (hf : f ∈ frags) :
    f.1.toNat * 8 < fragEnd f := by
  have := List.length_pos_of_ne_nil (h.nonempty f hf)
  unfold fragEnd
  omega

theorem eq_of_start (h : Aligned frags) {f g : UInt16 × Bytes} (hf : f ∈ frags) (hg : g ∈ frags)
    (hle : f.1.toNat ≤ g.1.toNat) (hlt : g.1.toNat * 8 < fragEnd f) : g = f := by
  have hgr := h.nonempty_range hg
  exact h.eq_of_covers hg hf ⟨Nat.le_refl _, hgr⟩ ⟨Nat.mul_le_mul_right 8 hle, hlt⟩

theorem lookup (h : Aligned frags) {f : UInt16 × Bytes} (hf : f ∈ frags) :
    frags.lookup f.1 = some f.2 := by
  cases hl : frags.lookup f.1 with
  | none =>
    have hne := List.lookup_eq_none_iff.mp hl f hf
    simp at hne
  | some d =>
    have hmem := mem_of_lookup hl
    rw [← h.eq_of_start hf hmem (Nat.le_refl _) (h.nonempty_range hf)]

/-- A walk that reaches the end has met a fragment at every place. -/
theorem covers_of_contiguousFrom (h : Aligned frags) {fuel pos : Nat} (hpos : pos % 8 = 0)
    (hwalk : contiguousFrom frags (furthest frags) fuel pos = true) :
    ∀ i, pos ≤ i → i < furthest frags → Covers (frags.map piece) i := by
  have hlt := h.furthest_lt
  induction fuel generalizing pos with
  | zero => cases hwalk
  | succ fuel ih =>
    intro i hi hif
    rw [contiguousFrom, if_pos (by omega)] at hwalk
    cases hl : frags.lookup (UInt16.ofNat (pos / 8)) with
    | none =>
      rw [hl] at hwalk
      cases hwalk
    | some d =>
      rw [hl] at hwalk
      dsimp only at hwalk
      split_ifs at hwalk with hnil
      have hmem := mem_of_lookup hl
      have hstart : (UInt16.ofNat (pos / 8)).toNat * 8 = pos := by
        rw [UInt16.toNat_ofNat_of_lt' (by show pos / 8 < 65536; omega)]
        omega
      by_cases hid : i < pos + d.length
      · refine ⟨_, List.mem_map_of_mem hmem, ?_, ?_⟩
        · show (UInt16.ofNat (pos / 8)).toNat * 8 ≤ i
          omega
        · show i < (UInt16.ofNat (pos / 8)).toNat * 8 + d.length
          omega
      · have hmod : d.length % 8 = 0 := h.mod_eight _ hmem (by
          show (UInt16.ofNat (pos / 8)).toNat * 8 + d.length < _
          omega)
        exact ih (by omega) hwalk i (by omega) hif

/-- Where every place has a fragment the walk reaches the end.  It stands at a
boundary between fragments all the way. -/
theorem contiguousFrom_of_covers (h : Aligned frags)
    (hcov : ∀ i < furthest frags, Covers (frags.map piece) i) {fuel pos : Nat}
    (hpos : pos ≤ furthest frags) (hfuel : furthest frags < fuel + pos)
    (hbound : ∀ f ∈ frags, fragEnd f ≤ pos ∨ pos ≤ f.1.toNat * 8) :
    contiguousFrom frags (furthest frags) fuel pos = true := by
  induction fuel generalizing pos with
  | zero => omega
  | succ fuel ih =>
    rw [contiguousFrom]
    split_ifs with hlt
    swap
    · rfl
    obtain ⟨p, hp, hstart, hstop⟩ := hcov pos hlt
    obtain ⟨f, hf, rfl⟩ := List.mem_map.mp hp
    rw [piece_start] at hstart
    rw [piece_stop] at hstop
    -- The fragment over the boundary starts there.
    have heq : f.1.toNat * 8 = pos := by
      have := hbound f hf
      omega
    have hoff : UInt16.ofNat (pos / 8) = f.1 := by
      rw [← heq, Nat.mul_div_cancel _ (by decide), UInt16.ofNat_toNat]
    have hne := h.nonempty f hf
    have hlen := List.length_pos_of_ne_nil hne
    have hend : fragEnd f = pos + f.2.length := by
      unfold fragEnd
      omega
    rw [hoff, h.lookup hf]
    dsimp only
    rw [if_neg hne]
    refine ih (by rw [← hend]; exact fragEnd_le_furthest hf) (by omega) ?_
    intro g hg
    by_cases hgf : g = f
    · rw [hgf, hend]
      exact .inl (Nat.le_refl _)
    · have hgr := h.nonempty_range hg
      rcases hbound g hg with hle | hge
      · exact .inl (by omega)
      · -- A fragment behind the boundary does not reach into this one.
        right
        by_contra hlt'
        exact hgf (h.eq_of_start hf hg (by omega) (by omega))

theorem furthest_eq_of_tiles {n : Nat} (h : Tiles (frags.map piece) n) : furthest frags = n := by
  have hle : furthest frags ≤ n := by
    rcases foldl_max_mem (frags.map fragEnd) 0 with h0 | hmem
    · unfold furthest
      omega
    · obtain ⟨f, hf, heq⟩ := List.mem_map.mp hmem
      have := h.le _ (List.mem_map_of_mem hf)
      rw [piece_stop, heq] at this
      exact this
  by_contra hne
  obtain ⟨p, hp, -, hstop⟩ := h.covered (furthest frags) (by omega)
  obtain ⟨f, hf, rfl⟩ := List.mem_map.mp hp
  have := fragEnd_le_furthest hf
  rw [piece_stop] at hstop
  omega

end Aligned

theorem contiguousLen_eq_some_iff {e : ReasmEntry} (h : Aligned e.frags) {n : Nat} :
    contiguousLen e = some n ↔ Tiles (e.frags.map piece) n := by
  show (if contiguousFrom e.frags (furthest e.frags) (furthest e.frags + 1) 0 then
    some (furthest e.frags) else none) = some n ↔ _
  constructor
  · intro hlen
    split_ifs at hlen with hwalk
    obtain rfl := Option.some.inj hlen
    refine ⟨h.apart, ?_, fun i hi =>
      h.covers_of_contiguousFrom (by omega) hwalk i (Nat.zero_le i) hi⟩
    intro p hp
    obtain ⟨f, hf, rfl⟩ := List.mem_map.mp hp
    exact fragEnd_le_furthest hf
  · intro htiles
    obtain rfl := Aligned.furthest_eq_of_tiles htiles
    rw [if_pos]
    exact h.contiguousFrom_of_covers htiles.covered (Nat.zero_le _) (by omega)
      (fun f _ => .inr (Nat.zero_le _))

/-! ## The copy -/

/-- What has been copied comes from the stored fragments, each element from the
fragment over its place. -/
def CopiedFrom (frags : List (UInt16 × Bytes)) (full : Bytes) : Prop :=
  ∀ i < full.length, ∃ f ∈ frags, f.1.toNat * 8 ≤ i ∧ i < fragEnd f ∧
    full[i]? = f.2[i - f.1.toNat * 8]?

theorem CopiedFrom.append {frags : List (UInt16 × Bytes)} {full : Bytes}
    (h : CopiedFrom frags full) {f : UInt16 × Bytes} (hf : f ∈ frags)
    (hstart : f.1.toNat * 8 = full.length) : CopiedFrom frags (full ++ f.2) := by
  intro i hi
  rw [List.length_append] at hi
  by_cases hlt : i < full.length
  · obtain ⟨g, hg, hgs, hge, heq⟩ := h i hlt
    refine ⟨g, hg, hgs, hge, ?_⟩
    rw [List.getElem?_append_left hlt, heq]
  · refine ⟨f, hf, by omega, ?_, ?_⟩
    · unfold fragEnd
      omega
    · rw [List.getElem?_append_right (by omega), hstart]

/-- The copy loop at offset `off`: the fragments below it have been copied, and
those from it on start behind what has been copied. -/
structure CopyInv (frags : List (UInt16 × Bytes)) (total off : Nat) (full : Bytes) : Prop where
  le : full.length ≤ total
  below : ∀ f ∈ frags, f.1.toNat < off → fragEnd f ≤ full.length
  above : ∀ f ∈ frags, off ≤ f.1.toNat → full.length ≤ f.1.toNat * 8
  copied : CopiedFrom frags full

namespace CopyInv

variable {frags : List (UInt16 × Bytes)} {total off : Nat} {full : Bytes}

theorem init : CopyInv frags total 0 [] where
  le := Nat.zero_le _
  below := fun _ _ hf => absurd hf (Nat.not_lt_zero _)
  above := fun _ _ _ => Nat.zero_le _
  copied := fun _ hi => absurd hi (Nat.not_lt_zero _)

theorem exists_next (h : CopyInv frags total off full) (htiles : Tiles (frags.map piece) total)
    (hlt : full.length < total) : ∃ g ∈ frags, off ≤ g.1.toNat ∧ g.1.toNat * 8 = full.length := by
  obtain ⟨p, hp, hstart, hstop⟩ := htiles.covered full.length hlt
  obtain ⟨g, hg, rfl⟩ := List.mem_map.mp hp
  rw [piece_start] at hstart
  rw [piece_stop] at hstop
  have hoff : off ≤ g.1.toNat := by
    by_contra hlt'
    have := h.below g hg (by omega)
    omega
  have := h.above g hg hoff
  exact ⟨g, hg, hoff, by omega⟩

theorem skip (h : CopyInv frags total off full) (hnone : ∀ f ∈ frags, f.1.toNat ≠ off) :
    CopyInv frags total (off + 1) full where
  le := h.le
  below := fun f hf hlt => by
    have := hnone f hf
    exact h.below f hf (by omega)
  above := fun f hf hle => h.above f hf (by omega)
  copied := h.copied

theorem copy (ha : Aligned frags) (htiles : Tiles (frags.map piece) total)
    (h : CopyInv frags total off full) {f : UInt16 × Bytes} (hf : f ∈ frags)
    (hoff : f.1.toNat = off) (hstart : f.1.toNat * 8 = full.length) :
    CopyInv frags total (off + 1) (full ++ f.2) := by
  have hlen : (full ++ f.2).length = fragEnd f := by
    rw [List.length_append, ← hstart]
    rfl
  refine ⟨?_, ?_, ?_, h.copied.append hf hstart⟩
  · rw [hlen]
    exact htiles.le _ (List.mem_map_of_mem hf)
  · intro g hg hlt
    rw [hlen]
    by_cases hgo : g.1.toNat = off
    · have hgf : g = f := by
        apply ha.eq_of_start hf hg
        · omega
        · rw [hgo, ← hoff]
          exact ha.nonempty_range hf
      rw [hgf]
    · have := h.below g hg (by omega)
      have hend : fragEnd f = f.1.toNat * 8 + f.2.length := rfl
      omega
  · -- A fragment from here on does not start within the copied one.
    intro g hg hle
    rw [hlen]
    by_contra hlt
    have hgf := ha.eq_of_start hf hg (by omega) (by omega)
    rw [hgf] at hle
    omega

end CopyInv

namespace Aligned

variable {frags : List (UInt16 × Bytes)} {total : Nat}

/-- The copy loop fills the datagram with its fragments. -/
theorem assembleFrom_spec (h : Aligned frags) (htiles : Tiles (frags.map piece) total)
    {fuel off : Nat} {full : Bytes} (hfuel : 65536 ≤ off + fuel)
    (hinv : CopyInv frags total off full) :
    (assembleFrom frags total fuel off full).length = total ∧
      CopiedFrom frags (assembleFrom frags total fuel off full) := by
  induction fuel generalizing off full with
  | zero =>
    rw [assembleFrom]
    refine ⟨?_, hinv.copied⟩
    by_contra hne
    have hle := hinv.le
    obtain ⟨g, hg, hoff, -⟩ := hinv.exists_next htiles (by omega)
    have := g.1.toNat_lt
    omega
  | succ fuel ih =>
    rw [assembleFrom]
    split_ifs with hlt
    swap
    · exact ⟨Nat.le_antisymm hinv.le (Nat.not_lt.mp hlt), hinv.copied⟩
    obtain ⟨g, hg, hoff, hgstart⟩ := hinv.exists_next htiles hlt
    have hnat : (UInt16.ofNat off).toNat = off := by
      have := g.1.toNat_lt
      exact UInt16.toNat_ofNat_of_lt' (by show off < 65536; omega)
    cases hl : frags.lookup (UInt16.ofNat off) with
    | none =>
      have hnone : ∀ f ∈ frags, f.1.toNat ≠ off := by
        intro f hf hfo
        rw [← hfo, UInt16.ofNat_toNat, h.lookup hf] at hl
        cases hl
      simp only [Option.getD_none, List.take_nil, List.append_nil]
      exact ih (by omega) (hinv.skip hnone)
    | some d =>
      have hmem := mem_of_lookup hl
      have hstart : (UInt16.ofNat off).toNat * 8 = full.length := by
        have hle := hinv.above _ hmem (Nat.le_of_eq hnat.symm)
        dsimp only at hle
        omega
      have hnext : CopyInv frags total (off + 1) (full ++ d) :=
        hinv.copy h htiles hmem hnat hstart
      have hle := hnext.le
      rw [List.length_append] at hle
      simp only [Option.getD_some]
      rw [List.take_of_length_le (by omega)]
      exact ih (by omega) hnext

theorem assemble_spec {e : ReasmEntry} (h : Aligned e.frags)
    (htiles : Tiles (e.frags.map piece) total) :
    (e.assemble total).length = total ∧ ∀ f ∈ e.frags, (piece f).At (e.assemble total) := by
  have hspec : (e.assemble total).length = total ∧ CopiedFrom e.frags (e.assemble total) := by
    unfold ReasmEntry.assemble
    exact h.assembleFrom_spec htiles (by omega) CopyInv.init
  obtain ⟨hlen, hcopied⟩ := hspec
  refine ⟨hlen, fun f hf => Piece.at_of_getElem? fun j hj => ?_⟩
  change j < f.2.length at hj
  have hle : fragEnd f ≤ total := htiles.le _ (List.mem_map_of_mem hf)
  have hji : f.1.toNat * 8 + j < fragEnd f := by
    unfold fragEnd
    omega
  obtain ⟨g, hg, hgs, hge, heq⟩ := hcopied (f.1.toNat * 8 + j) (by omega)
  obtain rfl := h.eq_of_covers hg hf ⟨hgs, hge⟩ ⟨by omega, hji⟩
  show (e.assemble total)[g.1.toNat * 8 + j]? = g.2[j]?
  refine heq.trans ?_
  rw [Nat.add_sub_cancel_left]

end Aligned

/-! ## The fragments of a datagram -/

/-- One fragment as `add` is given it. -/
structure Fragment where
  offsetUnits : UInt16
  more : Bool
  bytes : Bytes
  deriving DecidableEq

namespace Fragment

/-- The fragment as it is stored. -/
def stored (f : Fragment) : UInt16 × Bytes := (f.offsetUnits, f.bytes)

/-- The place behind the last byte. -/
def stop (f : Fragment) : Nat := fragEnd f.stored

end Fragment

/-- The fragments tile a datagram of their own bytes, and the one that ends it
came with `more` unset. -/
structure Reassembles (accepted : List Fragment) (pdu : Bytes) : Prop where
  tiles : Tiles (accepted.map fun f => piece f.stored) pdu.length
  last : ∃ f ∈ accepted, f.more = false ∧ f.stop = pdu.length
  bytes : ∀ f ∈ accepted, (piece f.stored).At pdu

/-- The furthest fragment came with `more` unset, and each one that ends before
it is a multiple of eight long. -/
def EndsAtLast (accepted : List Fragment) : Prop :=
  ∃ last ∈ accepted, last.more = false ∧
    ∀ f ∈ accepted, f.stop ≤ last.stop ∧ (f.stop < last.stop → f.bytes.length % 8 = 0)

instance (accepted : List Fragment) : Decidable (EndsAtLast accepted) :=
  inferInstanceAs (Decidable (∃ last ∈ accepted, _))

/-- In a datagram that is tiled, a fragment ends where another one starts, or at
the end. -/
theorem Reassembles.endsAtLast {accepted : List Fragment} {pdu : Bytes}
    (h : Reassembles accepted pdu) : EndsAtLast accepted := by
  obtain ⟨last, hlast, hmore, hstop⟩ := h.last
  refine ⟨last, hlast, hmore, fun f hf => ?_⟩
  have hle := h.tiles.le _ (List.mem_map_of_mem hf)
  change f.stop ≤ pdu.length at hle
  refine ⟨by omega, fun hlt => ?_⟩
  obtain ⟨p, hp, hstart, hend⟩ := h.tiles.covered f.stop (by omega)
  obtain ⟨g, hg, rfl⟩ := List.mem_map.mp hp
  rw [piece_start] at hstart
  rw [piece_stop] at hend
  have hapart : (piece f.stored).Apart (piece g.stored) := by
    refine h.tiles.apart.forall (List.mem_map_of_mem hf) hp fun heq => ?_
    have : f.stop = fragEnd g.stored := congrArg Piece.stop heq
    omega
  unfold Piece.Apart at hapart
  rw [piece_stop, piece_start, piece_stop, piece_start] at hapart
  change f.stop ≤ _ ∨ _ ≤ f.offsetUnits.toNat * 8 at hapart
  have hfstop : f.stop = f.offsetUnits.toNat * 8 + f.bytes.length := rfl
  omega

/-! ## The history of a run -/

/-- The table, and for each key the fragments that were stored since its entry
was made, the last one first.  The log is no part of the source. -/
structure ReasmHistory where
  table : ReasmTable := {}
  log : ReasmKey → List Fragment := fun _ => []

namespace ReasmHistory

/-- The log of the entries that a table still has. -/
def restrict (log : ReasmKey → List Fragment) (t : ReasmTable) (key : ReasmKey) :
    List Fragment :=
  if (t.find key).isSome then log key else []

/-- The fragments that an `add` at `now` finds stored. -/
def kept (s : ReasmHistory) (now : Int) : ReasmKey → List Fragment :=
  restrict s.log (s.table.expireLocked now)

/-- The log after a fragment that may have been stored. -/
def extend (s : ReasmHistory) (key : ReasmKey) (f : Fragment) (now : Int) :
    ReasmKey → List Fragment :=
  if (s.table.expireLocked now).Accepts key f.offsetUnits f.more f.bytes then
    Function.update (s.kept now) key (f :: s.kept now key)
  else s.kept now

/-- The table and the log after a call. -/
def step (s : ReasmHistory) : ReasmOp → Option ReasmHistory
  | .add key offsetUnits more frag now =>
    let table := (s.table.add key offsetUnits more frag now).1
    some ⟨table, restrict (s.extend key ⟨offsetUnits, more, frag⟩ now) table⟩
  | .cancel key => some ⟨(s.table.cancel key).1, restrict s.log (s.table.cancel key).1⟩

end ReasmHistory

/-- An entry holds the fragments of its log. -/
structure Logged (e : ReasmEntry) (log : List Fragment) : Prop where
  frags : e.frags = log.map Fragment.stored
  haveLast : e.haveLast = log.any fun f => !f.more
  aligned : ∀ f ∈ log, f.more = true → f.bytes.length % 8 = 0

/-- The table keeps its invariant and the log is that of its entries. -/
structure HistoryOk (s : ReasmHistory) : Prop where
  inv : ReasmInv s.table
  logged : ∀ key e, s.table.find key = some e → Logged e (s.log key)

namespace HistoryOk

variable {s : ReasmHistory}

theorem find_of_expireLocked {t : ReasmTable} (h : ReasmInv t) {now : Int} {key : ReasmKey}
    {e : ReasmEntry} (hfind : (t.expireLocked now).find key = some e) : t.find key = some e := by
  have hmem := (((h.expireLocked now).2 (key, e)).mp (ReasmTable.mem_of_find hfind)).1
  cases hl : t.find key with
  | none =>
    have hne := List.lookup_eq_none_iff.mp hl _ hmem
    simp at hne
  | some e' =>
    have := List.inj_on_of_nodup_map h.keys (ReasmTable.mem_of_find hl) hmem rfl
    rw [(Prod.mk.inj this).2]

theorem restrict {log : ReasmKey → List Fragment} {t : ReasmTable} (hinv : ReasmInv t)
    (h : ∀ key e, t.find key = some e → Logged e (log key)) :
    HistoryOk ⟨t, ReasmHistory.restrict log t⟩ where
  inv := hinv
  logged := fun key e hfind => by
    change t.find key = some e at hfind
    show Logged e (ReasmHistory.restrict log t key)
    rw [ReasmHistory.restrict, hfind]
    exact h key e hfind

theorem init : HistoryOk {} := ⟨ReasmInv.init, fun _ _ h => by cases h⟩

theorem kept (h : HistoryOk s) (now : Int) :
    HistoryOk ⟨s.table.expireLocked now, s.kept now⟩ :=
  restrict (h.inv.expireLocked now).1 fun key e hfind =>
    h.logged key e (find_of_expireLocked h.inv hfind)

theorem cancel (h : HistoryOk s) (key : ReasmKey) :
    HistoryOk ⟨(s.table.cancel key).1, ReasmHistory.restrict s.log (s.table.cancel key).1⟩ := by
  refine restrict (h.inv.cancel key) fun k e hfind => ?_
  rw [ReasmTable.find_cancel] at hfind
  split_ifs at hfind
  exact h.logged k e hfind

theorem entryFor (h : HistoryOk s) (key : ReasmKey) (now : Int) :
    Logged ((s.table.expireLocked now).entryFor key now) (s.kept now key) := by
  unfold ReasmTable.entryFor
  cases hfind : (s.table.expireLocked now).find key with
  | none =>
    have hkept : s.kept now key = [] := by
      rw [ReasmHistory.kept, ReasmHistory.restrict, hfind]
      rfl
    rw [hkept]
    exact ⟨rfl, rfl, fun f hf => by cases hf⟩
  | some e => exact (h.kept now).logged key e hfind

theorem store (h : HistoryOk s) {key : ReasmKey} {f : Fragment} {now : Int}
    (hacc : (s.table.expireLocked now).Accepts key f.offsetUnits f.more f.bytes) :
    Logged (((s.table.expireLocked now).entryFor key now).store f.offsetUnits f.more f.bytes)
      (f :: s.kept now key) := by
  have hentry := h.entryFor key now
  obtain ⟨-, hfrags⟩ := (h.kept now).inv.store_ok now hacc
  refine ⟨?_, ?_, ?_⟩
  · rw [hfrags, List.map_cons, ← hentry.frags, ReasmTable.entryFor_frags]
    rfl
  · show (((s.table.expireLocked now).entryFor key now).haveLast || !f.more) = _
    rw [hentry.haveLast, List.any_cons, Bool.or_comm]
  · exact List.forall_mem_cons.mpr ⟨hacc.2.1, hentry.aligned⟩

theorem add (h : HistoryOk s) (key : ReasmKey) (offsetUnits : UInt16) (more : Bool)
    (frag : Bytes) (now : Int) :
    HistoryOk ⟨(s.table.add key offsetUnits more frag now).1,
      ReasmHistory.restrict (s.extend key ⟨offsetUnits, more, frag⟩ now)
        (s.table.add key offsetUnits more frag now).1⟩ := by
  have hkept := h.kept now
  refine restrict (h.inv.add key offsetUnits more frag now) fun k e => ?_
  apply ReasmTable.add_rule (P := fun res => res.1.find k = some e →
    Logged e (s.extend key ⟨offsetUnits, more, frag⟩ now k))
  · intro hacc hfind
    rw [ReasmHistory.extend, if_neg hacc]
    exact hkept.logged k e hfind
  · intro hacc hfind
    rw [ReasmTable.find_cancel] at hfind
    split_ifs at hfind
    rw [ReasmHistory.extend, if_neg hacc]
    exact hkept.logged k e hfind
  · intro hacc _ hfind
    rw [ReasmHistory.extend, if_pos hacc]
    change ReasmTable.find (ReasmTable.put _ key _) k = some e at hfind
    rw [ReasmTable.find_put] at hfind
    split_ifs at hfind with hk
    · obtain rfl := Option.some.inj hfind
      rw [hk, Function.update_self]
      exact h.store (f := ⟨offsetUnits, more, frag⟩) hacc
    · rw [Function.update_of_ne hk]
      exact hkept.logged k e hfind
  · intro hacc _ _ hfind
    rw [ReasmTable.find_cancel] at hfind
    split_ifs at hfind with hk
    rw [ReasmHistory.extend, if_pos hacc, Function.update_of_ne hk]
    exact hkept.logged k e hfind

theorem step (h : HistoryOk s) {s' : ReasmHistory} (op : ReasmOp) (hop : s.step op = some s') :
    HistoryOk s' := by
  cases op with
  | add key offsetUnits more frag now =>
    exact Option.some.inj hop ▸ h.add key offsetUnits more frag now
  | cancel key => exact Option.some.inj hop ▸ h.cancel key

end HistoryOk

/-- What an `add` that returns a datagram has found. -/
theorem add_eq_some {t : ReasmTable} {key : ReasmKey} {f : Fragment} {now : Int} {pdu : Bytes}
    (hadd : (t.add key f.offsetUnits f.more f.bytes now).2 = some pdu) :
    (t.expireLocked now).Accepts key f.offsetUnits f.more f.bytes ∧
      ∃ n, contiguousLen (((t.expireLocked now).entryFor key now).store f.offsetUnits f.more
        f.bytes) = some n ∧
        pdu = (((t.expireLocked now).entryFor key now).store f.offsetUnits f.more
          f.bytes).assemble n := by
  revert hadd
  apply ReasmTable.add_rule (P := fun res => res.2 = some pdu →
    (t.expireLocked now).Accepts key f.offsetUnits f.more f.bytes ∧
      ∃ n, contiguousLen (((t.expireLocked now).entryFor key now).store f.offsetUnits f.more
        f.bytes) = some n ∧
        pdu = (((t.expireLocked now).entryFor key now).store f.offsetUnits f.more
          f.bytes).assemble n)
  · intro _ hadd
    cases hadd
  · intro _ hadd
    cases hadd
  · intro _ _ hadd
    cases hadd
  · intro hacc n htotal hadd
    refine ⟨hacc, n, ?_, (Option.some.inj hadd).symm⟩
    unfold ReasmEntry.total at htotal
    split_ifs at htotal
    exact htotal

/-- Fragments whose furthest one is the last have their ends where the walk
looks for them. -/
theorem EndsAtLast.mod_eight {accepted : List Fragment} (h : EndsAtLast accepted) :
    (∃ last ∈ accepted, last.more = false ∧
        last.stop = furthest (accepted.map Fragment.stored)) ∧
      ∀ f ∈ accepted.map Fragment.stored,
        fragEnd f < furthest (accepted.map Fragment.stored) → f.2.length % 8 = 0 := by
  obtain ⟨last, hlast, hmore, hall⟩ := h
  have hne : accepted.map Fragment.stored ≠ [] :=
    List.ne_nil_of_mem (List.mem_map_of_mem hlast)
  obtain ⟨g, hg, hgf⟩ := exists_fragEnd_eq_furthest hne
  obtain ⟨f, hf, rfl⟩ := List.mem_map.mp hg
  have hle : f.stop ≤ last.stop := (hall f hf).1
  have hge : last.stop ≤ furthest (accepted.map Fragment.stored) :=
    fragEnd_le_furthest (List.mem_map_of_mem hlast)
  have heq : last.stop = furthest (accepted.map Fragment.stored) := by
    change f.stop = _ at hgf
    omega
  refine ⟨⟨last, hlast, hmore, heq⟩, ?_⟩
  intro f' hf' hlt
  obtain ⟨f, hf, rfl⟩ := List.mem_map.mp hf'
  exact (hall f hf).2 (by rw [heq]; exact hlt)

/-- Whenever a call in a run returns a datagram, the datagram is tiled by the
fragments accepted for its key, ends at one with `more` unset and holds each of
them at its place, exactly when the furthest of them came with `more` unset and
each one that ends before it is a multiple of eight long. -/
theorem reassembly_sound_iff {ops : List ReasmOp} {s : ReasmHistory}
    (hrun : run ReasmHistory.step {} ops = some s) {key : ReasmKey} {offsetUnits : UInt16}
    {more : Bool} {frag : Bytes} {now : Int} {pdu : Bytes}
    (hadd : (s.table.add key offsetUnits more frag now).2 = some pdu) :
    Reassembles (⟨offsetUnits, more, frag⟩ :: s.kept now key) pdu ↔
      EndsAtLast (⟨offsetUnits, more, frag⟩ :: s.kept now key) := by
  refine ⟨Reassembles.endsAtLast, fun hlast => ?_⟩
  have h : HistoryOk s :=
    run_invariant_of_step (fun _ op _ hi hop => hi.step op hop) HistoryOk.init hrun
  obtain ⟨hacc, n, hn, rfl⟩ := add_eq_some (f := ⟨offsetUnits, more, frag⟩) hadd
  have hlog := h.store (f := ⟨offsetUnits, more, frag⟩) hacc
  obtain ⟨hok, -⟩ := (h.kept now).inv.store_ok now hacc
  obtain ⟨⟨last, hlm, hmore, hstop⟩, hmod⟩ := hlast.mod_eight
  rw [← hlog.frags] at hmod hstop
  have haligned := Aligned.of_ok hok hmod
  have htiles := (contiguousLen_eq_some_iff haligned).mp hn
  obtain ⟨hlen, hat⟩ := haligned.assemble_spec htiles
  have hfar := Aligned.furthest_eq_of_tiles htiles
  refine ⟨?_, ⟨last, hlm, hmore, ?_⟩, fun f hf => hat _ ?_⟩
  · rw [hlog.frags, List.map_map] at htiles
    rw [hlen]
    exact htiles
  · rw [hlen, hstop, hfar]
  · rw [hlog.frags]
    exact List.mem_map_of_mem hf

/-- Two fragments in the wrong order. -/
theorem reassembly_sound_twoFrags :
    ∃ s ∈ run ReasmHistory.step {} [.add reasmKey 1 false [9, 10, 11] 0],
      Reassembles (⟨0, true, [1, 2, 3, 4, 5, 6, 7, 8]⟩ :: s.kept 5 reasmKey)
        [1, 2, 3, 4, 5, 6, 7, 8, 9, 10, 11] := by
  have hrun : ∃ s ∈ run ReasmHistory.step {} [.add reasmKey 1 false [9, 10, 11] 0],
      (s.table.add reasmKey 0 true [1, 2, 3, 4, 5, 6, 7, 8] 5).2 =
        some [1, 2, 3, 4, 5, 6, 7, 8, 9, 10, 11] ∧
      EndsAtLast (⟨0, true, [1, 2, 3, 4, 5, 6, 7, 8]⟩ :: s.kept 5 reasmKey) := by
    decide +kernel
  obtain ⟨s, hs, hadd, hlast⟩ := hrun
  exact ⟨s, hs, (reassembly_sound_iff hs hadd).mpr hlast⟩

theorem assembleFrom_skip {frags : List (UInt16 × Bytes)} {total : Nat} {full : Bytes}
    (hlt : full.length < total) {fuel k off : Nat}
    (hnone : ∀ i, off ≤ i → i < off + k → frags.lookup (UInt16.ofNat i) = none) :
    assembleFrom frags total (fuel + k) off full =
      assembleFrom frags total fuel (off + k) full := by
  induction k generalizing off with
  | zero => rfl
  | succ k ih =>
    rw [← Nat.add_assoc, assembleFrom, if_pos hlt, hnone off (Nat.le_refl _) (by omega)]
    simp only [Option.getD_none, List.take_nil, List.append_nil]
    rw [ih fun i hi hik => hnone i (by omega) (by omega)]
    congr 1
    omega

theorem assembleFrom_copy {frags : List (UInt16 × Bytes)} {total : Nat} {full d : Bytes}
    (hlt : full.length < total) {fuel off : Nat}
    (hl : frags.lookup (UInt16.ofNat off) = some d) :
    assembleFrom frags total (fuel + 1) off full =
      assembleFrom frags total fuel (off + 1) (full ++ d.take (total - full.length)) := by
  rw [assembleFrom, if_pos hlt, hl]
  rfl

/-- The entry of a fragment of five bytes with `more` unset at offset zero and a
fragment of eight bytes at offset one. -/
def shortEntry : ReasmEntry where
  createdAt := 0
  frags := [(0, [1, 2, 3, 4, 5]), (1, [11, 12, 13, 14, 15, 16, 17, 18])]
  bytes := 13
  haveLast := true

/-- The copy closes the gap behind the short fragment, finds no other fragment up
to the last offset, and starts again from the first. -/
theorem shortEntry_assemble :
    shortEntry.assemble 16 = [1, 2, 3, 4, 5, 11, 12, 13, 14, 15, 16, 17, 18, 1, 2, 3] := by
  have hnone : ∀ i, 2 ≤ i → i < 2 + 65534 →
      shortEntry.frags.lookup (UInt16.ofNat i) = none := by
    intro i hi hlt
    have hnat : (UInt16.ofNat i).toNat = i := UInt16.toNat_ofNat_of_lt' (by omega)
    have hne : ∀ off : UInt16, off.toNat < 2 → UInt16.ofNat i ≠ off := by
      rintro off hoff rfl
      omega
    rw [List.lookup_eq_none_iff]
    intro f hf
    rw [bne_iff_ne]
    simp only [shortEntry, List.mem_cons, List.not_mem_nil, or_false] at hf
    rcases hf with rfl | rfl
    · exact hne 0 (by decide)
    · exact hne 1 (by decide)
  have hfirst : shortEntry.frags.lookup (UInt16.ofNat 0) = some [1, 2, 3, 4, 5] := by decide
  have hsecond : shortEntry.frags.lookup (UInt16.ofNat (0 + 1))
      = some [11, 12, 13, 14, 15, 16, 17, 18] := by decide
  have hwrapped : shortEntry.frags.lookup (UInt16.ofNat (0 + 1 + 1 + 65534))
      = some [1, 2, 3, 4, 5] := by decide
  show assembleFrom shortEntry.frags 16 (1048574 + 1 + 1 + 65534 + 1 + 1) 0 [] = _
  rw [assembleFrom_copy (by decide) hfirst, assembleFrom_copy (by decide) hsecond,
    assembleFrom_skip (by decide) hnone, assembleFrom_copy (by decide) hwrapped, assembleFrom]
  rfl

/-- A fragment of five bytes with `more` unset at offset zero, after one at
offset one: the walk meets it twice, and the datagram is neither tiled by the two
nor ends where the last one does. -/
theorem short_last_garbles :
    ∃ s ∈ run ReasmHistory.step {} [.add reasmKey 1 true [11, 12, 13, 14, 15, 16, 17, 18] 0],
      (s.table.add reasmKey 0 false [1, 2, 3, 4, 5] 0).2 =
        some [1, 2, 3, 4, 5, 11, 12, 13, 14, 15, 16, 17, 18, 1, 2, 3] ∧
      ¬ Reassembles (⟨0, false, [1, 2, 3, 4, 5]⟩ :: s.kept 0 reasmKey)
        [1, 2, 3, 4, 5, 11, 12, 13, 14, 15, 16, 17, 18, 1, 2, 3] := by
  have hrun : ∃ s ∈ run ReasmHistory.step {}
        [.add reasmKey 1 true [11, 12, 13, 14, 15, 16, 17, 18] 0],
      (s.table.expireLocked 0).Accepts reasmKey 0 false [1, 2, 3, 4, 5] ∧
      ((s.table.expireLocked 0).entryFor reasmKey 0).store 0 false [1, 2, 3, 4, 5]
        = shortEntry ∧
      ¬ EndsAtLast (⟨0, false, [1, 2, 3, 4, 5]⟩ :: s.kept 0 reasmKey) := by
    decide +kernel
  obtain ⟨s, hs, hacc, hentry, hlast⟩ := hrun
  refine ⟨s, hs, ?_, fun hr => hlast hr.endsAtLast⟩
  have htotal : shortEntry.total = some 16 := by decide
  rw [ReasmTable.add_of_accepts hacc, hentry, htotal]
  exact congrArg some shortEntry_assemble

end Ydn64.Nat64
