import Ydn64.Nat64.Fragmentation
import Ydn64.Nat64.Admission

/-!
# The fragment path of the interceptor

`interceptICMPPacket` on the fragments of one datagram.  A sender puts extension
headers before the Fragment header and, in the part that it fragments, behind it.
The parser skips both, but a fragment offset counts from the end of the Fragment
header, so the two disagree by the length of the headers behind it.

`feedFragments_iff`: the fragments of an echo request give the message exactly
when no header stands behind the Fragment header or there is one fragment only.
In every other case the table waits for bytes that it has skipped (`Stuck`).
-/

namespace Ydn64.Nat64

open Ydn64.GoStd Ydn64.Lib

/-! ## What a fragment does -/

/-- The fragment path of `interceptICMPPacket`, up to the message that the table
returns. -/
def feedFragment (reasm : ReasmTable) (pkt : Bytes) (now : Int) : ReasmTable × Option Bytes :=
  match parseIPv6HeaderChain pkt with
  | (info, .icmpv6) =>
    let key : ReasmKey := ⟨addr16At pkt 8, addr16At pkt 24, info.fragIdent⟩
    let frag := pkt.drop info.l4Offset
    if frag = [] ∨ (info.fragOffset = 0 ∧ byteAt frag 0 ≠ 128) then ((reasm.cancel key).1, none)
    else reasm.add key info.fragOffset info.fragMore frag now
  | _ => (reasm, none)

/-- The path is the one of the interceptor: the table after it is the same, and it
goes on with a message that the table returns if that is an echo request with a
correct checksum. -/
theorem echoPayload_eq_feedFragment {reasm : ReasmTable} {pkt : Bytes} {info : ChainInfo}
    {now : Int} (hparse : parseIPv6HeaderChain pkt = (info, .icmpv6)) (hfrag : info.isFrag = true)
    (hplen : 8 ≤ (uint16At pkt 4).toNat ∧ pkt.length - 40 = (uint16At pkt 4).toNat) :
    (echoPayload reasm pkt info (addr16At pkt 8) (addr16At pkt 24) now).1 =
        (feedFragment reasm pkt now).1 ∧
      ∀ msg, (echoPayload reasm pkt info (addr16At pkt 8) (addr16At pkt 24) now).2 = .echo msg ↔
        (feedFragment reasm pkt now).2 = some msg ∧ byteAt msg 0 = 128 ∧
          ipv6UpperLayerChecksum (addr16At pkt 8).toList (addr16At pkt 24).toList 58 msg = 0 := by
  obtain ⟨hmin, hlen⟩ := hplen
  unfold echoPayload feedFragment
  rw [hparse]
  dsimp only
  rw [if_neg (by omega), if_neg (by rw [hfrag]; decide)]
  by_cases hempty : pkt.drop info.l4Offset = []
  · rw [if_pos hempty, if_pos (.inl hempty)]
    simp
  by_cases htype : info.fragOffset = 0 ∧ byteAt (pkt.drop info.l4Offset) 0 ≠ 128
  · rw [if_neg hempty, if_pos htype, if_pos (.inr htype)]
    generalize reasm.cancel _ = res
    obtain ⟨reasm', found⟩ := res
    cases found <;> simp
  · rw [if_neg hempty, if_neg htype, if_neg (by tauto)]
    generalize reasm.add _ _ _ _ _ = res
    obtain ⟨reasm', pdu⟩ := res
    cases pdu with
    | none => simp
    | some complete =>
      dsimp only
      by_cases hecho : byteAt complete 0 = 128 ∧ ipv6UpperLayerChecksum
          (addr16At pkt 8).toList (addr16At pkt 24).toList 58 complete = 0
      · rw [if_neg (not_not.mpr hecho.1), checkedEcho, if_neg (not_not.mpr hecho.2)]
        refine ⟨rfl, fun msg => ⟨?_, ?_⟩⟩
        · rintro ⟨⟩
          exact ⟨rfl, hecho⟩
        · rintro ⟨⟨⟩, -⟩
          rfl
      · have hdrop : (if byteAt complete 0 ≠ 128 then (reasm', .drop)
            else (reasm', checkedEcho (addr16At pkt 8) (addr16At pkt 24) complete)) =
              (reasm', Payload.drop) := by
          unfold checkedEcho
          split_ifs with htype' hsum
          · rfl
          · rfl
          · exact absurd ⟨not_not.mp htype', not_not.mp hsum⟩ hecho
        rw [hdrop]
        refine ⟨rfl, fun msg => ⟨?_, ?_⟩⟩
        · rintro ⟨⟩
        · rintro ⟨⟨⟩, hmsg⟩
          exact absurd hmsg hecho

/-- Feed the packets one after the other. -/
def feedFragments (reasm : ReasmTable) : List (Bytes × Int) → ReasmTable × List (Option Bytes)
  | [] => (reasm, [])
  | (pkt, now) :: rest =>
    let (reasm', pdu) := feedFragment reasm pkt now
    let (reasm'', pdus) := feedFragments reasm' rest
    (reasm'', pdu :: pdus)

/-- A packet that ends within an extension header. -/
theorem walkChain_truncated {pkt part rest tail : Bytes} {e : ExtHeader} {nh : UInt8} {off : Nat}
    (hdrop : pkt.drop off = part) (hlen : pkt.length = off + part.length)
    (hpart : part ++ rest = e.encode nh ++ tail) (hshort : part.length < (e.encode nh).length)
    (fuel : Nat) (info : ChainInfo) :
    (walkChain pkt (fuel + 1) e.kind.code off info).2 = .invalid := by
  have henc := e.encode_length nh
  have hcode : e.kind.code = 0 ∨ e.kind.code = 60 ∨ e.kind.code = 43 := by
    cases e.kind <;> decide
  -- The length byte counts only if the packet reaches it.
  have hend : pkt.length < off + 2 ∨
      pkt.length < off + ((byteAt pkt (off + 1)).toNat + 1) * 8 := by
    by_cases htwo : part.length < 2
    · omega
    · right
      have hext : byteAt pkt (off + 1) = e.len := by
        have hbyte := congrArg (byteAt · 1) hpart
        rw [byteAt_append_left (by omega)] at hbyte
        rw [byteAt_add, hdrop, hbyte]
        rfl
      rw [hext]
      omega
  rw [walkChain, if_pos hcode]
  dsimp only
  rw [if_pos hend]

/-- The walk over the beginning of a datagram whose extension headers end in
ICMPv6: it comes to the message, or the packet ends before. -/
theorem walkChain_prefix {pkt part rest m : Bytes} {es : List ExtHeader} {off : Nat}
    (hdrop : pkt.drop off = part) (hoff : off ≤ pkt.length)
    (hpart : part ++ rest = encodeChain es 58 ++ m) {fuel : Nat}
    (hfuel : part.length < fuel) (info : ChainInfo) :
    ((encodeChain es 58).length ≤ part.length ∧
        walkChain pkt fuel (nextOf es 58) off info =
          ({ info with l4Offset := off + (encodeChain es 58).length }, .icmpv6)) ∨
      (part.length < (encodeChain es 58).length ∧
        (walkChain pkt fuel (nextOf es 58) off info).2 = .invalid) := by
  have hlen : pkt.length = off + part.length := by
    rw [← hdrop, List.length_drop]
    omega
  obtain ⟨fuel, rfl⟩ : ∃ k, fuel = k + 1 := ⟨fuel - 1, by omega⟩
  induction es generalizing off part fuel with
  | nil =>
    left
    refine ⟨Nat.zero_le _, ?_⟩
    show walkChain pkt (fuel + 1) 58 off info = _
    rw [walkChain, if_neg (by decide), if_neg (by decide), if_pos rfl]
    rfl
  | cons e es ih =>
    rw [encodeChain, List.append_assoc] at hpart
    rw [encodeChain, List.length_append]
    by_cases hfull : (e.encode (nextOf es 58)).length ≤ part.length
    · -- The header is there as a whole.
      have henc := e.encode_length (nextOf es 58)
      obtain ⟨part', rfl⟩ :=
        List.prefix_of_prefix_length_le ⟨_, rfl⟩ ⟨rest, hpart⟩ hfull
      rw [List.append_assoc, List.append_right_inj] at hpart
      have hnext : pkt.drop (off + (e.encode (nextOf es 58)).length) = part' := by
        rw [← List.drop_drop, hdrop, List.drop_left]
      rw [List.length_append] at hlen hfuel ⊢
      obtain ⟨fuel, rfl⟩ : ∃ k, fuel = k + 1 := ⟨fuel - 1, by omega⟩
      rw [nextOf, walkChain_ext hdrop (fuel + 1) info]
      rcases ih hnext (by omega) hpart (by omega) fuel (by omega) with
        ⟨hle, hwalk⟩ | ⟨hlt, hwalk⟩
      · left
        refine ⟨by omega, ?_⟩
        rw [hwalk, Nat.add_assoc]
      · exact .inr ⟨by omega, hwalk⟩
    · right
      refine ⟨by omega, ?_⟩
      rw [nextOf]
      exact walkChain_truncated hdrop hlen hpart (by omega) fuel info

theorem walkChain_info {pkt : Bytes} {fuel : Nat} {nh : UInt8} {off : Nat} {info : ChainInfo}
    (hfrag : info.isFrag = true) (h : (walkChain pkt fuel nh off info).2 = .icmpv6) :
    ∃ l4Offset, (walkChain pkt fuel nh off info).1 = { info with l4Offset := l4Offset } := by
  induction fuel generalizing nh off with
  | zero => cases h
  | succ fuel ih =>
    rw [walkChain] at h ⊢
    by_cases hext : nh = 0 ∨ nh = 60 ∨ nh = 43
    · rw [if_pos hext] at h ⊢
      dsimp only at h ⊢
      split_ifs at h ⊢
      exact ih h
    · rw [if_neg hext] at h ⊢
      by_cases hnested : nh = 44
      · rw [if_pos hnested, if_pos (.inl hfrag)] at h
        cases h
      · rw [if_neg hnested] at h ⊢
        split_ifs at h ⊢
        exact ⟨off, rfl⟩

/-! ## Fragments that the table can use -/

theorem Cut.byteAt_of_offset_zero {c : Cut} {f : Fragment} (hf : f ∈ c.fragments)
    (hzero : f.offsetUnits = 0) : byteAt f.bytes 0 = byteAt c.body 0 := by
  have hat := Cut.at_body hf
  have hpos := List.length_pos_of_ne_nil (Cut.nonempty_of_mem hf)
  have hget := hat.getElem? (i := 0) (by rw [piece_start, Fragment.stored, hzero]; rfl)
    (by show 0 < f.offsetUnits.toNat * 8 + f.bytes.length; omega)
  unfold byteAt
  rw [List.getD_eq_getElem?_getD, List.getD_eq_getElem?_getD, hget]
  simp [Fragment.stored, hzero]

theorem feedFragment_eq_add (h : FixedHeader) (pre : List ExtHeader) (ident : UInt32) {c : Cut}
    {f : Fragment} (hf : f ∈ c.fragments) (htype : byteAt c.body 0 = 128) (reasm : ReasmTable)
    (now : Int) :
    feedFragment reasm (fragmentPacket h pre 58 ident f) now =
      reasm.add ⟨h.src, h.dst, ident⟩ f.offsetUnits f.more f.bytes now := by
  unfold feedFragment
  rw [parse_icmpv6Fragment h pre ident (Cut.offset_lt hf)]
  dsimp only
  rw [fragmentPacket_drop, if_neg]
  · rw [fragmentPacket, FixedHeader.packet_src, FixedHeader.packet_dst]
    rfl
  · rintro (hnil | ⟨hzero, hne⟩)
    · exact Cut.nonempty_of_mem hf hnil
    · rw [Cut.byteAt_of_offset_zero hf hzero] at hne
      exact hne htype

/-- The fragments of a message on the wire, with their times of arrival. -/
def onWire (h : FixedHeader) (pre : List ExtHeader) (nh : UInt8) (ident : UInt32)
    (order : List (Fragment × Int)) : List (Bytes × Int) :=
  order.map fun x => (fragmentPacket h pre nh ident x.1, x.2)

theorem feedFragments_onWire {h : FixedHeader} {pre : List ExtHeader} {ident : UInt32} {c : Cut}
    (htype : byteAt c.body 0 = 128) {order : List (Fragment × Int)}
    (hmem : ∀ x ∈ order, x.1 ∈ c.fragments) (reasm : ReasmTable) :
    feedFragments reasm (onWire h pre 58 ident order) =
      addAll reasm ⟨h.src, h.dst, ident⟩ order := by
  induction order generalizing reasm with
  | nil => rfl
  | cons x order ih =>
    have hstep := feedFragment_eq_add h pre ident (hmem x List.mem_cons_self) htype reasm x.2
    have hrest := ih (fun y hy => hmem y (List.mem_cons_of_mem _ hy))
    simp only [onWire, List.map_cons, feedFragments, addAll, hstep] at hrest ⊢
    rw [hrest]

theorem parse_firstFragment (h : FixedHeader) (pre : List ExtHeader) (ident : UInt32)
    {post : List ExtHeader} {m rest : Bytes} {f : Fragment} (hzero : f.offsetUnits = 0)
    (hbody : f.bytes ++ rest = encodeChain post 58 ++ m) :
    ((encodeChain post 58).length ≤ f.bytes.length ∧
        parseIPv6HeaderChain (fragmentPacket h pre (nextOf post 58) ident f) =
          ({ fragmentInfo ident f with
            l4Offset := fragmentStart pre + (encodeChain post 58).length }, .icmpv6)) ∨
      (f.bytes.length < (encodeChain post 58).length ∧
        (parseIPv6HeaderChain (fragmentPacket h pre (nextOf post 58) ident f)).2 = .invalid) := by
  obtain ⟨fuel, hfuel, hparse⟩ := parse_fragmentPacket h pre (nextOf post 58) ident (f := f)
    (by rw [hzero]; decide)
  rw [hparse]
  refine walkChain_prefix (fragmentPacket_drop h pre _ ident f) ?_ hbody hfuel _
  rw [fragmentPacket_length]
  omega

theorem add_single (key : ReasmKey) {m : Bytes} (hm : m ≠ []) (hsize : m.length ≤ 65535)
    (now : Int) : ({} : ReasmTable).add key 0 false m now = ({}, some m) := by
  have hfed : Fed ⟨[m], List.cons_ne_nil _ _, by simpa using hm, by simp, by simpa using hsize⟩ []
      [⟨0, false, m⟩] := ⟨.refl _⟩
  have hadd := (Holds.init key now).add hfed (by decide)
  rw [if_pos rfl, Cut.body, List.flatten_singleton] at hadd
  exact hadd

theorem feedFragment_single {h : FixedHeader} {pre post : List ExtHeader} {ident : UInt32}
    {m : Bytes} (htype : byteAt m 0 = 128) (reasm : ReasmTable) (now : Int) :
    feedFragment reasm
        (fragmentPacket h pre (nextOf post 58) ident ⟨0, false, encodeChain post 58 ++ m⟩) now =
      reasm.add ⟨h.src, h.dst, ident⟩ 0 false m now := by
  have hm : m ≠ [] := by
    rintro rfl
    exact absurd htype (by decide)
  have hwhole : (encodeChain post 58 ++ m) ++ [] = encodeChain post 58 ++ m := List.append_nil _
  rcases parse_firstFragment h pre ident (f := ⟨0, false, encodeChain post 58 ++ m⟩) rfl hwhole with
    ⟨-, hparse⟩ | ⟨hlt, -⟩
  · unfold feedFragment
    rw [hparse]
    dsimp only
    rw [← List.drop_drop, fragmentPacket_drop, List.drop_left, if_neg]
    · rw [fragmentPacket, FixedHeader.packet_src, FixedHeader.packet_dst]
      rfl
    · rintro (hnil | ⟨-, hne⟩)
      · exact hm hnil
      · exact hne htype
  · rw [List.length_append] at hlt
    omega

/-! ## Fragments that the table waits for in vain -/

/-- A stored fragment when headers behind the Fragment header are `8` bytes or
more of the first `L` bytes: the first fragment is short of `L`, every other one
starts there or later. -/
def StuckFrag (L : Nat) (g : UInt16 × Bytes) : Prop :=
  L ≤ g.1.toNat * 8 ∨ (g.1 = 0 ∧ g.2.length + 8 ≤ L ∧ g.2.length % 8 = 0)

/-- An entry that no further fragment completes. -/
structure StuckEntry (L : Nat) (e : ReasmEntry) : Prop where
  frags : ∀ g ∈ e.frags, StuckFrag L g
  last : e.haveLast = true → ∃ g ∈ e.frags, L ≤ g.1.toNat * 8

/-- A table of such entries. -/
def Stuck (L : Nat) (t : ReasmTable) : Prop := ∀ ke ∈ t.entries, StuckEntry L ke.2

theorem mem_of_mem_expireLocked {t : ReasmTable} {now : Int} {ke : ReasmKey × ReasmEntry}
    (h : ke ∈ (t.expireLocked now).entries) : ke ∈ t.entries := by
  unfold ReasmTable.expireLocked at h
  generalize t.entries.filter _ = old at h
  induction old generalizing t with
  | nil => exact h
  | cons ke' old ih => exact List.mem_of_mem_filter (ih h)

theorem mem_of_mem_cancel {t : ReasmTable} {key : ReasmKey} {ke : ReasmKey × ReasmEntry}
    (h : ke ∈ (t.cancel key).1.entries) : ke ∈ t.entries := by
  rw [ReasmTable.cancel_eq] at h
  exact List.mem_of_mem_filter h

/-- Nothing is stored between the first fragment and byte `L`. -/
theorem StuckEntry.lookup_eq_none {L : Nat} {e : ReasmEntry} (h : StuckEntry L e)
    (hle : L ≤ 65535) {units : Nat} (hpos : 0 < units) (hlt : units * 8 < L) :
    e.frags.lookup (UInt16.ofNat units) = none := by
  have hunits : (UInt16.ofNat units).toNat = units :=
    UInt16.toNat_ofNat_of_lt' (by show units < 65536; omega)
  cases hl : e.frags.lookup (UInt16.ofNat units) with
  | none => rfl
  | some f =>
    rcases h.frags _ (mem_of_lookup hl) with hge | ⟨hzero, -⟩
    · rw [hunits] at hge
      omega
    · have hzero' := congrArg UInt16.toNat hzero
      rw [hunits] at hzero'
      change units = 0 at hzero'
      omega

/-- The walk over the fragments ends at the hole before byte `L`. -/
theorem StuckEntry.total_eq_none {L : Nat} {e : ReasmEntry} (h : StuckEntry L e) (hpos : 0 < L)
    (hle : L ≤ 65535) : e.total = none := by
  unfold ReasmEntry.total
  split_ifs with hlast
  swap
  · rfl
  obtain ⟨g, hg, hgL⟩ := h.last hlast
  have hstop : L ≤ furthest e.frags := by
    have := fragEnd_le_furthest hg
    unfold fragEnd at this
    omega
  suffices hfail : contiguousFrom e.frags (furthest e.frags) (furthest e.frags + 1) 0 = false by
    show (if contiguousFrom e.frags (furthest e.frags) (furthest e.frags + 1) 0 then
      some (furthest e.frags) else none) = none
    rw [hfail]
    rfl
  obtain ⟨k, hk⟩ : ∃ k, furthest e.frags = k + 1 := ⟨furthest e.frags - 1, by omega⟩
  rw [contiguousFrom, if_pos (by omega)]
  cases hfirst : e.frags.lookup (UInt16.ofNat (0 / 8)) with
  | none => rfl
  | some f =>
    dsimp only
    split_ifs with hnil
    · rfl
    have hflen := List.length_pos_of_ne_nil hnil
    obtain ⟨hshort, hmod⟩ : f.length + 8 ≤ L ∧ f.length % 8 = 0 := by
      rcases h.frags _ (mem_of_lookup hfirst) with hge | ⟨-, hshort⟩
      · change L ≤ 0 at hge
        omega
      · exact hshort
    rw [hk, contiguousFrom, if_pos (by omega), h.lookup_eq_none hle (by omega) (by omega)]

theorem StuckEntry.store {L : Nat} {e : ReasmEntry} (h : StuckEntry L e) {off : UInt16}
    {more : Bool} {frag : Bytes} (hfrag : StuckFrag L (off, frag))
    (hlast : more = false → L ≤ off.toNat * 8) : StuckEntry L (e.store off more frag) := by
  refine ⟨?_, ?_⟩
  · intro g hg
    rcases List.mem_cons.mp hg with rfl | hg
    · exact hfrag
    · exact h.frags g (List.mem_of_mem_filter hg)
  · intro hl
    rcases Bool.or_eq_true_iff.mp hl with hold | hnew
    · obtain ⟨g, hg, hgL⟩ := h.last hold
      by_cases hoff : g.1 = off
      · exact ⟨(off, frag), List.mem_cons_self, hoff ▸ hgL⟩
      · exact ⟨g, List.mem_cons_of_mem _ (List.mem_filter.mpr ⟨hg, decide_eq_true hoff⟩), hgL⟩
    · rw [Bool.not_eq_true'] at hnew
      exact ⟨(off, frag), List.mem_cons_self, hlast hnew⟩

/-- A fragment that fits an entry of this kind gives no message, and the table
stays as it is. -/
theorem Stuck.add {L : Nat} {t : ReasmTable} (h : Stuck L t) (hpos : 0 < L) (hle : L ≤ 65535)
    (key : ReasmKey) {off : UInt16} {more : Bool} {frag : Bytes} (hfrag : StuckFrag L (off, frag))
    (hlast : more = false → L ≤ off.toNat * 8) (now : Int) :
    (t.add key off more frag now).2 = none ∧ Stuck L (t.add key off more frag now).1 := by
  have hexp : Stuck L (t.expireLocked now) := fun ke hke => h ke (mem_of_mem_expireLocked hke)
  have hcancel : Stuck L ((t.expireLocked now).cancel key).1 :=
    fun ke hke => hexp ke (mem_of_mem_cancel hke)
  have hentry : StuckEntry L ((t.expireLocked now).entryFor key now) := by
    unfold ReasmTable.entryFor
    cases hfind : (t.expireLocked now).find key with
    | none => exact ⟨fun g hg => (by cases hg), fun hl => (by cases hl)⟩
    | some e => exact hexp _ (ReasmTable.mem_of_find hfind)
  have hstore := hentry.store hfrag hlast
  apply ReasmTable.add_rule (P := fun res => res.2 = none ∧ Stuck L res.1)
  · exact fun _ => ⟨rfl, hexp⟩
  · exact fun _ => ⟨rfl, hcancel⟩
  · refine fun _ _ => ⟨rfl, fun ke hke => ?_⟩
    rcases List.mem_cons.mp hke with rfl | hke
    · exact hstore
    · exact hexp ke (List.mem_of_mem_filter hke)
  · intro _ total htotal
    rw [hstore.total_eq_none hpos hle] at htotal
    cases htotal

theorem Cut.exists_parts_eq {c : Cut} (h : 2 ≤ c.parts.length) :
    ∃ first next parts, c.parts = first :: next :: parts := by
  match hc : c.parts with
  | [] | [_] =>
    simp [hc] at h
  | first :: next :: parts => exact ⟨first, next, parts, rfl⟩

/-- The fragments of a cut with two parts or more: the first part, and others that
start behind it. -/
theorem Cut.fragments_eq {c : Cut} {first next : Bytes} {parts : List Bytes}
    (hparts : c.parts = first :: next :: parts) :
    ∃ rest, c.fragments = ⟨0, true, first⟩ :: rest ∧
      ∀ f ∈ rest, first.length ≤ f.offsetUnits.toNat * 8 := by
  have haligned := c.aligned
  have hsize := c.size_le
  rw [hparts] at haligned hsize
  rw [List.flatten_cons, List.length_append] at hsize
  rw [List.dropLast_cons_cons] at haligned
  refine ⟨fragmentsFrom first.length (next :: parts), ?_, ?_⟩
  · rw [fragments, hparts, fragmentsFrom, Nat.zero_add]
    rfl
  · intro f hf
    have hpieces : (fragmentsFrom first.length (next :: parts)).map (fun f => piece f.stored) =
        cutFrom first.length (next :: parts) :=
      map_piece_fragmentsFrom (fun p hp => haligned p (List.mem_cons_of_mem _ hp))
        (haligned first List.mem_cons_self) hsize
    have hmem : piece f.stored ∈ cutFrom first.length (next :: parts) := by
      rw [← hpieces]
      exact List.mem_map_of_mem hf
    exact le_start_of_mem_cutFrom hmem

theorem feedFragment_of_not_icmpv6 {pkt : Bytes} (h : (parseIPv6HeaderChain pkt).2 ≠ .icmpv6)
    (t : ReasmTable) (now : Int) : feedFragment t pkt now = (t, none) := by
  unfold feedFragment
  split
  · rename_i hparse
    rw [hparse] at h
    exact absurd rfl h
  · rfl

theorem Stuck.feed_of_parse {L : Nat} {t : ReasmTable} (h : Stuck L t) (hpos : 0 < L)
    (hle : L ≤ 65535) {pkt : Bytes} {info : ChainInfo}
    (hparse : parseIPv6HeaderChain pkt = (info, .icmpv6))
    (hfrag : StuckFrag L (info.fragOffset, pkt.drop info.l4Offset))
    (hlast : info.fragMore = false → L ≤ info.fragOffset.toNat * 8) (now : Int) :
    (feedFragment t pkt now).2 = none ∧ Stuck L (feedFragment t pkt now).1 := by
  unfold feedFragment
  rw [hparse]
  dsimp only
  split_ifs
  · exact ⟨rfl, fun ke hke => h ke (mem_of_mem_cancel hke)⟩
  · exact h.add hpos hle _ hfrag hlast now

/-- The first fragment: the parser skips the headers, at least eight bytes, and
the offset is zero all the same. -/
theorem Stuck.feed_first (h : FixedHeader) (pre : List ExtHeader) (ident : UInt32)
    {post : List ExtHeader} {m first rest : Bytes} (hpost : post ≠ [])
    (hbody : first ++ rest = encodeChain post 58 ++ m) (hpos : 0 < first.length)
    (hle : first.length ≤ 65535) (hmod : first.length % 8 = 0) {t : ReasmTable}
    (ht : Stuck first.length t) (now : Int) :
    (feedFragment t (fragmentPacket h pre (nextOf post 58) ident ⟨0, true, first⟩) now).2 = none ∧
      Stuck first.length (feedFragment t
        (fragmentPacket h pre (nextOf post 58) ident ⟨0, true, first⟩) now).1 := by
  have hskip := length_le_encodeChain_length post 58
  have hskipMod := encodeChain_length_mod post 58
  have hpostLen := List.length_pos_of_ne_nil hpost
  rcases parse_firstFragment h pre ident (f := ⟨0, true, first⟩) rfl hbody with
    ⟨hfull, hparse⟩ | ⟨-, hinvalid⟩
  · dsimp only at hfull
    refine ht.feed_of_parse hpos hle hparse (.inr ⟨rfl, ?_⟩) (fun hmore => ?_) now
    · dsimp only
      rw [← List.drop_drop, fragmentPacket_drop]
      dsimp only
      rw [List.length_drop]
      omega
    · cases hmore
  · rw [feedFragment_of_not_icmpv6 (by rw [hinvalid]; decide)]
    exact ⟨rfl, ht⟩

/-- A fragment that starts at byte `L` or later, whatever the parser makes of its
bytes. -/
theorem Stuck.feed_later (h : FixedHeader) (pre : List ExtHeader) (nh : UInt8) (ident : UInt32)
    {c : Cut} {f : Fragment} (hf : f ∈ c.fragments) {L : Nat} (hpos : 0 < L) (hle : L ≤ 65535)
    (hlater : L ≤ f.offsetUnits.toNat * 8) {t : ReasmTable} (ht : Stuck L t) (now : Int) :
    (feedFragment t (fragmentPacket h pre nh ident f) now).2 = none ∧
      Stuck L (feedFragment t (fragmentPacket h pre nh ident f) now).1 := by
  by_cases hchain : (parseIPv6HeaderChain (fragmentPacket h pre nh ident f)).2 = .icmpv6
  · obtain ⟨fuel, -, hwalk⟩ := parse_fragmentPacket h pre nh ident (Cut.offset_lt hf)
    rw [hwalk] at hchain
    obtain ⟨l4Offset, hinfo⟩ := walkChain_info rfl hchain
    have hparse : parseIPv6HeaderChain (fragmentPacket h pre nh ident f) =
        ({ fragmentInfo ident f with l4Offset := l4Offset }, .icmpv6) := by
      rw [hwalk, ← hinfo, ← hchain]
    exact ht.feed_of_parse hpos hle hparse (.inl hlater) (fun _ => hlater) now
  · rw [feedFragment_of_not_icmpv6 hchain]
    exact ⟨rfl, ht⟩

/-- A datagram with headers behind the Fragment header and at least two
fragments: no fragment gives a message. -/
theorem Stuck.feed (h : FixedHeader) (pre : List ExtHeader) (ident : UInt32)
    {post : List ExtHeader} {m : Bytes} {c : Cut} (hpost : post ≠ [])
    (hbody : c.body = encodeChain post 58 ++ m)
    {first next : Bytes} {parts : List Bytes} (hparts : c.parts = first :: next :: parts)
    {f : Fragment} (hf : f ∈ c.fragments) {t : ReasmTable} (ht : Stuck first.length t) (now : Int) :
    (feedFragment t (fragmentPacket h pre (nextOf post 58) ident f) now).2 = none ∧
      Stuck first.length
        (feedFragment t (fragmentPacket h pre (nextOf post 58) ident f) now).1 := by
  have hmem : first ∈ c.parts := by
    rw [hparts]
    exact List.mem_cons_self
  have hfirst := List.length_pos_of_ne_nil (c.nonempty first hmem)
  have hsize : first.length ≤ 65535 :=
    Nat.le_trans (List.sublist_flatten_of_mem hmem).length_le c.size_le
  obtain ⟨others, hfrags, hlater⟩ := Cut.fragments_eq hparts
  have hcases := hf
  rw [hfrags, List.mem_cons] at hcases
  rcases hcases with rfl | hother
  · have hrest : first ++ (next :: parts).flatten = encodeChain post 58 ++ m := by
      rw [← hbody, Cut.body, hparts]
      rfl
    have hmod : first.length % 8 = 0 := by
      apply c.aligned first
      rw [hparts, List.dropLast_cons_cons]
      exact List.mem_cons_self
    exact ht.feed_first h pre ident hpost hrest hfirst hsize hmod now
  · exact ht.feed_later h pre _ ident hf hfirst hsize (hlater f hother) now

theorem Stuck.feedFragments {h : FixedHeader} {pre post : List ExtHeader} {ident : UInt32}
    {m : Bytes} {c : Cut} (hpost : post ≠ []) (hbody : c.body = encodeChain post 58 ++ m)
    {first next : Bytes} {parts : List Bytes} (hparts : c.parts = first :: next :: parts)
    {order : List (Fragment × Int)} (hmem : ∀ x ∈ order, x.1 ∈ c.fragments) {t : ReasmTable}
    (ht : Stuck first.length t) :
    (Nat64.feedFragments t (onWire h pre (nextOf post 58) ident order)).2 =
      List.replicate order.length none := by
  induction order generalizing t with
  | nil => rfl
  | cons x order ih =>
    obtain ⟨hnone, hnext⟩ := ht.feed h pre ident hpost hbody hparts
      (hmem x List.mem_cons_self) x.2
    have hrest := ih (fun y hy => hmem y (List.mem_cons_of_mem _ hy)) hnext
    simp only [onWire, List.map_cons, Nat64.feedFragments] at hrest ⊢
    rw [hnone, hrest]
    rfl

/-- The fragments of an echo request `m` behind the headers `post`, in any order
within thirty seconds of the first, at most sixteen of them: all but the last wait
and the last gives `m` exactly when there is no header behind the Fragment header
or there is one fragment only. -/
theorem feedFragments_iff (h : FixedHeader) (pre post : List ExtHeader) (ident : UInt32)
    {m : Bytes} (htype : byteAt m 0 = 128) {c : Cut} (hbody : c.body = encodeChain post 58 ++ m)
    {order : List (Fragment × Int)} (hperm : (order.map Prod.fst).Perm c.fragments)
    (hcount : order.length ≤ maxFragmentsPerDgram)
    (hage : ∀ x ∈ order.head?, ∀ y ∈ order, y.2 - maxReasmAge ≤ x.2) :
    (feedFragments {} (onWire h pre (nextOf post 58) ident order)).2 =
        List.replicate (order.length - 1) none ++ [some m] ↔
      post = [] ∨ c.parts.length = 1 := by
  have hmem : ∀ x ∈ order, x.1 ∈ c.fragments :=
    fun x hx => hperm.mem_iff.mp (List.mem_map_of_mem hx)
  constructor
  · intro hres
    by_contra hnot
    rw [not_or] at hnot
    obtain ⟨hpost, hlen⟩ := hnot
    obtain ⟨first, next, parts, hparts⟩ := Cut.exists_parts_eq (c := c) (by
      have := List.length_pos_of_ne_nil c.ne
      omega)
    have hstuck : Stuck first.length {} := fun ke hke => by cases hke
    rw [hstuck.feedFragments hpost hbody hparts hmem] at hres
    have hlast : some m ∈ List.replicate order.length (none : Option Bytes) := by
      rw [hres]
      exact List.mem_append_right _ List.mem_cons_self
    cases List.eq_of_mem_replicate hlast
  · rintro (rfl | hone)
    · -- The message is the body.
      rw [encodeChain, List.nil_append] at hbody
      rw [← hbody] at htype ⊢
      rw [nextOf, feedFragments_onWire htype hmem, addAll_cut c _ _ hperm hcount hage]
    · -- One fragment, which is fed as if the message had been cut into one part.
      obtain ⟨part, hparts⟩ := List.length_eq_one_iff.mp hone
      have hpart : part = encodeChain post 58 ++ m := by
        rw [← hbody, Cut.body, hparts, List.flatten_singleton]
      have hfrags : c.fragments = [⟨0, false, part⟩] := by
        rw [Cut.fragments, hparts]
        rfl
      rw [hfrags, List.perm_singleton] at hperm
      obtain ⟨x, hx, hxf⟩ := List.map_eq_singleton_iff.mp hperm
      have hm : m ≠ [] := by
        rintro rfl
        exact absurd htype (by decide)
      have hsize := c.size_le
      rw [hparts, List.flatten_singleton, hpart, List.length_append] at hsize
      rw [hx, onWire, List.map_singleton, hxf, hpart, feedFragments, feedFragment_single htype,
        add_single _ hm (by omega)]
      rfl

/-- An echo request of sixteen bytes. -/
def echoMessage : Bytes := [128, 0, 0, 0, 0, 7, 0, 1, 5, 5, 5, 5, 5, 5, 5, 5]

/-- A Destination Options header with padding only. -/
def paddingHeader : ExtHeader := ⟨.destinationOptions, 0, [1, 4, 0, 0, 0, 0], rfl⟩

/-- The message in two parts. -/
def plainCut : Cut where
  parts := [echoMessage.take 8, echoMessage.drop 8]
  ne := by decide
  nonempty := by decide
  aligned := by decide
  size_le := by decide

/-- The message behind the padding header, in two parts. -/
def paddedCut : Cut where
  parts := [paddingHeader.encode 58 ++ echoMessage.take 8, echoMessage.drop 8]
  ne := by decide
  nonempty := by decide
  aligned := by decide
  size_le := by decide

theorem feedFragments_padding_before :
    (feedFragments {} (onWire (.built 64 (.replicate 16 1) (.replicate 16 2)) [paddingHeader] 58 9
      (plainCut.fragments.reverse.map fun f => (f, 0)))).2 = [none, some echoMessage] :=
  (@feedFragments_iff _ [paddingHeader] [] 9 echoMessage rfl plainCut rfl
    (plainCut.fragments.reverse.map fun f => (f, 0))
    (List.reverse_perm plainCut.fragments) (by decide) (by decide)).mpr (.inl rfl)

/-- With the padding header behind the Fragment header and two fragments in order
the message does not come. -/
theorem feedFragments_padding_behind :
    paddedCut.body = encodeChain [paddingHeader] 58 ++ echoMessage ∧
      (feedFragments {} (onWire (.built 64 (.replicate 16 1) (.replicate 16 2)) []
        (nextOf [paddingHeader] 58) 9 (paddedCut.fragments.map fun f => (f, 0)))).2 =
          [none, none] := by
  decide +kernel

end Ydn64.Nat64
