import Ydn64.Nat64.HeaderChain
import Mathlib.Data.List.Sort

/-!
# Fragmentation and its two readers

`fragmentIPv6Packet` cuts the body of a packet into chunks and writes each as a
fragment (`fragmentIPv6Packet_eq`).  Two readers put the fragments together
again.  The first is the code's own parser and reassembly table, the second is a
receiver that follows RFC 8200 section 4.5.

* `fragment_round_trip`: the code's own reader gets the body back from every
  order of the fragments.
* `rfc8200Reassemble_iff`: the other reader gets the packet back exactly when it
  is an Echo Reply, since every fragment says that it carries ICMPv6.
-/

namespace Ydn64.Nat64

open Ydn64.GoStd Ydn64.Lib

/-! ## Chunks -/

/-- The body in chunks of `n` bytes. -/
def chunks (n : Nat) : Nat → Bytes → List Bytes
  | 0, _ => []
  | fuel + 1, body =>
    if body = [] then [] else body.take n :: chunks n fuel (body.drop n)

section Chunks

variable {n : Nat}

theorem flatten_chunks (hn : 0 < n) {fuel : Nat} {body : Bytes} (hfuel : body.length ≤ fuel) :
    (chunks n fuel body).flatten = body := by
  induction fuel generalizing body with
  | zero =>
    rw [List.length_eq_zero_iff.mp (by omega : body.length = 0)]
    rfl
  | succ fuel ih =>
    rw [chunks]
    split_ifs with hbody
    · rw [hbody]
      rfl
    · have hpos := List.length_pos_of_ne_nil hbody
      rw [List.flatten_cons, ih (by rw [List.length_drop]; omega), List.take_append_drop]

theorem of_mem_chunks (hn : 0 < n) {fuel : Nat} {body part : Bytes}
    (h : part ∈ chunks n fuel body) : part ≠ [] ∧ part.length ≤ n := by
  induction fuel generalizing body with
  | zero => cases h
  | succ fuel ih =>
    rw [chunks] at h
    split_ifs at h with hbody
    · cases h
    · rcases List.mem_cons.mp h with rfl | h
      · have hpos := List.length_pos_of_ne_nil hbody
        refine ⟨List.ne_nil_of_length_pos ?_, ?_⟩ <;> rw [List.length_take] <;> omega
      · exact ih h

theorem chunks_eq_nil_iff {fuel : Nat} {body : Bytes} (hfuel : body.length ≤ fuel) :
    chunks n fuel body = [] ↔ body = [] := by
  cases fuel with
  | zero => simp [chunks, List.length_eq_zero_iff.mp (by omega : body.length = 0)]
  | succ fuel => simp [chunks]

theorem length_of_mem_dropLast_chunks (hn : 0 < n) {fuel : Nat} {body part : Bytes}
    (hfuel : body.length ≤ fuel) (h : part ∈ (chunks n fuel body).dropLast) :
    part.length = n := by
  induction fuel generalizing body with
  | zero => cases h
  | succ fuel ih =>
    rw [chunks] at h
    split_ifs at h with hbody
    · cases h
    have hpos := List.length_pos_of_ne_nil hbody
    have hdrop : (body.drop n).length ≤ fuel := by rw [List.length_drop]; omega
    by_cases hrest : chunks n fuel (body.drop n) = []
    · rw [hrest] at h
      cases h
    · rw [List.dropLast_cons_of_ne_nil hrest] at h
      rcases List.mem_cons.mp h with rfl | h
      · have := List.length_pos_of_ne_nil (mt (chunks_eq_nil_iff hdrop).mpr hrest)
        rw [List.length_drop] at this
        rw [List.length_take]
        omega
      · exact ih hdrop h

/-- The chunks of a body are a cut of it. -/
def chunkCut (n fuel : Nat) (body : Bytes) (hn : 0 < n) (hmod : n % 8 = 0) (hne : body ≠ [])
    (hfuel : body.length ≤ fuel) (hsize : body.length ≤ 65535) : Cut where
  parts := chunks n fuel body
  ne := mt (chunks_eq_nil_iff hfuel).mp hne
  nonempty := fun _ hpart => (of_mem_chunks hn hpart).1
  aligned := fun part hpart => by rw [length_of_mem_dropLast_chunks hn hfuel hpart, hmod]
  size_le := by
    rw [flatten_chunks hn hfuel]
    exact hsize

end Chunks

/-! ## What the fragmenter writes -/

section Fragmenter

variable {pkt : Bytes} {h : FixedHeader}

theorem fragmentAt_eq (hlead : pkt.take 4 = h.lead) (htail : (pkt.drop 7).take 33 = h.tail)
    (ident : UInt32) {sent stop : Nat} (hmod : sent % 8 = 0) (hsent : sent ≤ 65535)
    (hstop : stop ≤ (pkt.drop 40).length) :
    fragmentAt pkt ident sent stop =
      fragmentPacket h [] 58 ident
        ⟨UInt16.ofNat (sent / 8), decide (stop < (pkt.drop 40).length),
          ((pkt.drop 40).drop sent).take (stop - sent)⟩ := by
  have hlen : (((pkt.drop 40).drop sent).take (stop - sent)).length = stop - sent := by
    rw [List.length_take, List.length_drop]
    omega
  have hword : sent / 8 % 65536 * 8 % 65536 = (UInt16.ofNat (sent / 8)).toNat * 8 := by
    rw [toNat_ofNat_div_eight hmod hsent]
    omega
  unfold fragmentAt fragmentPacket FixedHeader.packet
  rw [hlead, htail, List.length_append, List.length_append, fragmentHeader_length, hword]
  dsimp only
  rw [hlen]
  simp only [encodeChain, nextOf, fragmentHeader, List.nil_append, List.length_nil, Nat.zero_add,
    List.append_assoc, decide_eq_true_eq]

theorem fragmentFrom_eq (hlead : pkt.take 4 = h.lead) (htail : (pkt.drop 7).take 33 = h.tail)
    (ident : UInt32) {n : Nat} (hn : 0 < n) (hnmod : n % 8 = 0)
    (hsize : (pkt.drop 40).length ≤ 65535) {fuel sent : Nat}
    (hmod : sent < (pkt.drop 40).length → sent % 8 = 0)
    (hfuel : ((pkt.drop 40).drop sent).length ≤ fuel) :
    fragmentFrom pkt ident n fuel sent =
      (fragmentsFrom sent (chunks n fuel ((pkt.drop 40).drop sent))).map
        (fragmentPacket h [] 58 ident) := by
  have hlen : pkt.length - 40 = (pkt.drop 40).length := List.length_drop.symm
  induction fuel generalizing sent with
  | zero => rfl
  | succ fuel ih =>
    rw [fragmentFrom, chunks, hlen]
    generalize hbody : pkt.drop 40 = body at hlen hsize hmod hfuel ih ⊢
    by_cases hlt : sent < body.length
    · -- One round: the chunk from `sent` up to `stop`.
      obtain ⟨stop, hstop⟩ : ∃ stop, stop = min (sent + n) body.length := ⟨_, rfl⟩
      have hchunk : ((body.drop sent).take n).length = stop - sent := by
        rw [List.length_take, List.length_drop]
        omega
      have htake : (body.drop sent).take (stop - sent) = (body.drop sent).take n := by
        rw [List.take_eq_take_iff, List.length_drop]
        omega
      have hrest : (body.drop sent).drop n = body.drop stop := by
        rw [List.drop_drop]
        by_cases hle : sent + n ≤ body.length
        · rw [hstop, Nat.min_eq_left hle]
        · rw [List.drop_of_length_le (by omega), List.drop_of_length_le (by omega)]
      have hfuel' : (body.drop stop).length ≤ fuel := by
        rw [List.length_drop] at hfuel ⊢
        omega
      have hmore : (!(chunks n fuel (body.drop stop)).isEmpty) = decide (stop < body.length) := by
        apply Bool.eq_iff_iff.mpr
        rw [Bool.not_eq_true', List.isEmpty_eq_false_iff, Ne, chunks_eq_nil_iff hfuel',
          List.drop_eq_nil_iff, decide_eq_true_iff, not_le]
      have hfrag := fragmentAt_eq hlead htail ident (hmod hlt) (by omega)
        (by rw [hbody]; omega : stop ≤ (pkt.drop 40).length)
      rw [hbody, htake] at hfrag
      have hpos : sent + ((body.drop sent).take n).length = stop := by rw [hchunk]; omega
      rw [if_pos hlt, if_neg (by rw [List.drop_eq_nil_iff]; omega), ← hstop, hrest, fragmentsFrom,
        List.map_cons, hmore, hpos, hfrag, ih (fun hs => by have := hmod hlt; omega) hfuel']
    · rw [if_neg hlt, if_pos (List.drop_eq_nil_iff.mpr (by omega))]
      rfl

/-- A packet over the MTU leaves as the fragments of a cut of its body. -/
theorem fragmentIPv6Packet_eq (hlead : pkt.take 4 = h.lead)
    (htail : (pkt.drop 7).take 33 = h.tail) (ident : UInt32) {mtu : Int} (hmtu : 56 ≤ mtu)
    (hlarge : mtu < pkt.length) (hsize : (pkt.drop 40).length ≤ 65535) :
    ∃ c : Cut, c.body = pkt.drop 40 ∧ (∀ part ∈ c.parts, (part.length : Int) + 48 ≤ mtu) ∧
      fragmentIPv6Packet pkt mtu ident = c.fragments.map (fragmentPacket h [] 58 ident) := by
  have hlen : (pkt.drop 40).length = pkt.length - 40 := List.length_drop
  -- The capacity of a fragment.
  obtain ⟨n, hn⟩ : ∃ n : Nat, (n : Int) = Int.tdiv (mtu - 48) 8 * 8 := by
    refine ⟨(Int.tdiv (mtu - 48) 8 * 8).toNat, Int.toNat_of_nonneg ?_⟩
    rw [Int.tdiv_eq_ediv_of_nonneg (by omega)]
    omega
  have hbound : 0 < n ∧ n % 8 = 0 ∧ (n : Int) + 48 ≤ mtu := by
    rw [Int.tdiv_eq_ediv_of_nonneg (by omega)] at hn
    omega
  obtain ⟨hpos, hmod, hle⟩ := hbound
  have hfuel : (pkt.drop 40).length ≤ pkt.length := by omega
  have hne : pkt.drop 40 ≠ [] := List.ne_nil_of_length_pos (by omega)
  refine ⟨chunkCut n pkt.length (pkt.drop 40) hpos hmod hne hfuel hsize,
    flatten_chunks hpos hfuel, ?_, ?_⟩
  · intro part hpart
    have := (of_mem_chunks hpos hpart).2
    omega
  · unfold fragmentIPv6Packet
    rw [if_neg (by omega), ← hn]
    dsimp only
    rw [if_neg (by omega), Int.toNat_natCast,
      fragmentFrom_eq hlead htail ident hpos hmod hsize (fun _ => rfl) hfuel]
    rfl

end Fragmenter

theorem fragmentIPv6Packet_eq_nil {pkt : Bytes} {mtu : Int} (ident : UInt32) (hmtu : mtu < 56)
    (hlen : 40 < pkt.length) (hlarge : mtu < pkt.length) :
    fragmentIPv6Packet pkt mtu ident = [] := by
  have hcap : Int.tdiv (mtu - 48) 8 * 8 ≤ 0 := by
    by_cases hneg : mtu < 48
    · rw [← Int.neg_neg (mtu - 48), Int.neg_tdiv, Int.tdiv_eq_ediv_of_nonneg (by omega)]
      omega
    · rw [Int.tdiv_eq_ediv_of_nonneg (by omega)]
      omega
  unfold fragmentIPv6Packet
  rw [if_neg (by omega)]
  dsimp only
  rw [if_pos hcap]

/-! ## The reader of the code -/

/-- What the parser hands to the reassembly table. -/
def received (pkt : Bytes) : Fragment :=
  let info := (parseIPv6HeaderChain pkt).1
  ⟨info.fragOffset, info.fragMore, pkt.drop info.l4Offset⟩

/-- A packet is a fragment of at most `mtu` bytes of an ICMPv6 message. -/
structure IsIcmpv6Fragment (mtu : Int) (ident : UInt32) (pkt : Bytes) : Prop where
  length_le : (pkt.length : Int) ≤ mtu
  plen : (uint16At pkt 4).toNat = pkt.length - 40
  chain : (parseIPv6HeaderChain pkt).2 = .icmpv6
  isFrag : (parseIPv6HeaderChain pkt).1.isFrag = true
  ident_eq : (parseIPv6HeaderChain pkt).1.fragIdent = ident

theorem Cut.offset_lt {c : Cut} {f : Fragment} (hf : f ∈ c.fragments) :
    f.offsetUnits.toNat < 8192 := by
  have := Cut.start_lt hf
  have := c.size_le
  unfold Cut.body at *
  omega

theorem received_fragmentPacket (h : FixedHeader) (pre : List ExtHeader) (ident : UInt32)
    {f : Fragment} (hoff : f.offsetUnits.toNat < 8192) :
    received (fragmentPacket h pre 58 ident f) = f := by
  unfold received
  rw [parse_icmpv6Fragment h pre ident hoff]
  dsimp only
  rw [fragmentPacket_drop]
  rfl

theorem received_perm {c : Cut} {h : FixedHeader} {pre : List ExtHeader} {ident : UInt32}
    {order : List Bytes} (hperm : order.Perm (c.fragments.map (fragmentPacket h pre 58 ident))) :
    (order.map received).Perm c.fragments := by
  have hmap := hperm.map received
  rw [List.map_map] at hmap
  have hid : c.fragments.map (received ∘ fragmentPacket h pre 58 ident) = c.fragments := by
    conv_rhs => rw [← List.map_id c.fragments]
    exact List.map_congr_left fun f hf => received_fragmentPacket h pre ident (Cut.offset_lt hf)
  rwa [hid] at hmap

theorem isIcmpv6Fragment_fragmentPacket (h : FixedHeader) (ident : UInt32) {f : Fragment}
    {mtu : Int} (hoff : f.offsetUnits.toNat < 8192) (hle : (f.bytes.length : Int) + 48 ≤ mtu)
    (hsize : f.bytes.length + 8 ≤ 65535) :
    IsIcmpv6Fragment mtu ident (fragmentPacket h [] 58 ident f) := by
  have hlen : (fragmentPacket h [] 58 ident f).length = 48 + f.bytes.length :=
    fragmentPacket_length ..
  have hparse := parse_icmpv6Fragment h [] ident hoff
  refine ⟨by omega, ?_, ?_, ?_, ?_⟩
  · have hpayload : (encodeChain [] 44 ++ (fragmentHeader 58 ident f ++ f.bytes)).length =
        8 + f.bytes.length := by
      rw [encodeChain, List.nil_append, List.length_append, fragmentHeader_length]
    rw [hlen, fragmentPacket, FixedHeader.packet_plen] <;> rw [hpayload] <;> omega
  · rw [hparse]
  · rw [hparse]
    rfl
  · rw [hparse]
    rfl

/-- Every packet with a fixed header and a body of at most 65535 bytes that is
over an MTU of at least 56 bytes: the fragmenter writes fragments that fit, the
parser takes each for an ICMPv6 fragment with the given identification, and if
there are at most sixteen the table returns the body of the packet with the last
fragment that is fed, whatever their order, and is empty again. -/
theorem fragment_round_trip {pkt : Bytes} {mtu : Int} (ident : UInt32) (key : ReasmKey)
    (hversion : byteAt pkt 0 >>> 4 = 6) (hbody : (pkt.drop 40).length ≤ 65535)
    (hmtu : 56 ≤ mtu) (hlarge : mtu < pkt.length)
    (hcount : (fragmentIPv6Packet pkt mtu ident).length ≤ 16) {order : List (Bytes × Int)}
    (hperm : (order.map Prod.fst).Perm (fragmentIPv6Packet pkt mtu ident))
    (hage : ∀ x ∈ order.head?, ∀ y ∈ order, y.2 - maxReasmAge ≤ x.2) :
    (∀ p ∈ fragmentIPv6Packet pkt mtu ident, IsIcmpv6Fragment mtu ident p) ∧
      addAll {} key (order.map fun x => (received x.1, x.2)) =
        ({}, List.replicate (order.length - 1) none ++ [some (pkt.drop 40)]) := by
  have hlen : (pkt.drop 40).length = pkt.length - 40 := List.length_drop
  obtain ⟨c, hcbody, hfit, hfrags⟩ := fragmentIPv6Packet_eq
    (h := FixedHeader.ofPacket pkt (by omega) hversion) rfl rfl ident hmtu hlarge hbody
  rw [hfrags] at hcount hperm ⊢
  constructor
  · intro p hp
    obtain ⟨f, hf, rfl⟩ := List.mem_map.mp hp
    have hle := hfit _ (bytes_of_mem_fragmentsFrom hf)
    have hsize := Cut.stop_le hf
    refine isIcmpv6Fragment_fragmentPacket _ ident (Cut.offset_lt hf) hle ?_
    omega
  · have hrec := received_perm hperm
    rw [← hcbody, addAll_cut c key (order.map fun x => (received x.1, x.2)),
      List.length_map]
    · rwa [List.map_map] at hrec ⊢
    · rw [List.length_map, ← List.length_map (f := Prod.fst), hperm.length_eq]
      exact hcount
    · intro x hx y hy
      rw [List.head?_map, Option.mem_map] at hx
      obtain ⟨x', hx', rfl⟩ := hx
      obtain ⟨y', hy', rfl⟩ := List.mem_map.mp hy
      exact hage x' hx' y' hy'

/-- An Echo Reply with sixteen bytes of data. -/
def shortReply : Bytes :=
  buildIPv6ICMPEchoReplyPacket (.replicate 16 1) (.replicate 16 2) 7 1 (List.replicate 16 5)

/-- Over an MTU of 56 bytes it leaves as three fragments, here fed from the last
to the first. -/
theorem fragment_round_trip_reversed :
    addAll {} ⟨.replicate 16 1, .replicate 16 2, 9⟩
        (((fragmentIPv6Packet shortReply 56 9).reverse.map fun p => (p, 0)).map
          fun x => (received x.1, x.2)) =
      ({}, [none, none, some (shortReply.drop 40)]) := by
  refine (@fragment_round_trip shortReply 56 9 _ (by decide +kernel)
    (by decide +kernel) (by decide) (by decide +kernel) (by decide +kernel) _ ?_ ?_).2
  · rw [List.map_map, show (Prod.fst ∘ fun p : Bytes => (p, (0 : Int))) = id from rfl, List.map_id]
    exact List.reverse_perm _
  · intro x hx y hy
    obtain ⟨p, -, rfl⟩ := List.mem_map.mp (List.mem_of_mem_head? hx)
    obtain ⟨q, -, rfl⟩ := List.mem_map.mp hy
    show (0 : Int) - maxReasmAge ≤ 0
    decide

/-! ## A reader that follows the standard

RFC 8200 section 4.5, for fragments whose Fragment header stands right after the
fixed header. -/

/-- The Fragment Offset in bytes. -/
def rfc8200Offset (p : Bytes) : Nat := (uint16At p 42 >>> 3).toNat * 8

/-- The M flag. -/
def rfc8200More (p : Bytes) : Bool := uint16At p 42 &&& 1 ≠ 0

/-- The fragmentable part, from fragments in the order of their offsets: each one
begins where the last one ends, and the M flag is set on all but the last. -/
def rfc8200Body (pos : Nat) : List Bytes → Option Bytes
  | [] => none
  | [p] => if rfc8200Offset p = pos ∧ rfc8200More p = false then some (p.drop 48) else none
  | p :: q :: ps =>
    if rfc8200Offset p = pos ∧ rfc8200More p = true ∧ (p.drop 48).length % 8 = 0 then
      (rfc8200Body (pos + (p.drop 48).length) (q :: ps)).map (p.drop 48 ++ ·)
    else none

/-- The reassembled packet: the fixed header of the first fragment with the
length computed anew, and the Next Header of its Fragment header. -/
def rfc8200Reassemble (ps : List Bytes) : Option Bytes :=
  let sorted := ps.insertionSort fun p q => rfc8200Offset p ≤ rfc8200Offset q
  sorted.head?.bind fun first => (rfc8200Body 0 sorted).map fun body =>
    first.take 4 ++ be16 body.length ++ [byteAt first 40] ++ (first.drop 7).take 33 ++ body

section Rfc8200

variable (h : FixedHeader) (nh : UInt8) (ident : UInt32)

theorem rfc8200_fields {f : Fragment} (hoff : f.offsetUnits.toNat < 8192) :
    rfc8200Offset (fragmentPacket h [] nh ident f) = f.offsetUnits.toNat * 8 ∧
      rfc8200More (fragmentPacket h [] nh ident f) = f.more := by
  have hword : uint16At (fragmentPacket h [] nh ident f) 42 =
      UInt16.ofNat (f.offsetUnits.toNat * 8 + if f.more then 1 else 0) := by
    have hdrop : (fragmentPacket h [] nh ident f).drop 42 =
        be16 (f.offsetUnits.toNat * 8 + if f.more then 1 else 0) ++
          (be32 ident.toNat ++ f.bytes) := by
      rw [show 42 = 40 + 2 from rfl, ← List.drop_drop, fragmentPacket, FixedHeader.packet_drop]
      rfl
    exact uint16At_of_drop hdrop
  obtain ⟨hshift, hflag⟩ := fragmentWord f.more hoff
  rw [rfc8200Offset, rfc8200More, hword, hshift]
  exact ⟨rfl, hflag⟩

theorem rfc8200_drop (f : Fragment) : (fragmentPacket h [] nh ident f).drop 48 = f.bytes :=
  fragmentPacket_drop h [] nh ident f

theorem rfc8200Body_fragmentsFrom {parts : List Bytes} {pos : Nat} (hne : parts ≠ [])
    (haligned : ∀ part ∈ parts.dropLast, part.length % 8 = 0) (hpos : pos % 8 = 0)
    (hsize : pos + parts.flatten.length ≤ 65535) :
    rfc8200Body pos ((fragmentsFrom pos parts).map (fragmentPacket h [] nh ident)) =
      some parts.flatten := by
  induction parts generalizing pos with
  | nil => exact absurd rfl hne
  | cons part parts ih =>
    rw [List.flatten_cons, List.length_append] at hsize
    have hstart := toNat_ofNat_div_eight hpos (by omega)
    have hoff : (UInt16.ofNat (pos / 8)).toNat < 8192 := by omega
    cases parts with
    | nil =>
      obtain ⟨hoffset, hmore⟩ := rfc8200_fields h nh ident
        (f := ⟨UInt16.ofNat (pos / 8), false, part⟩) hoff
      show rfc8200Body pos [fragmentPacket h [] nh ident ⟨_, false, part⟩] = _
      rw [rfc8200Body, hoffset, hmore, if_pos ⟨hstart, rfl⟩, rfc8200_drop]
      simp
    | cons next parts =>
      rw [List.dropLast_cons_cons] at haligned
      have hpart := haligned part List.mem_cons_self
      obtain ⟨hoffset, hmore⟩ := rfc8200_fields h nh ident
        (f := ⟨UInt16.ofNat (pos / 8), true, part⟩) hoff
      have hrest : rfc8200Body (pos + part.length)
          ((fragmentsFrom (pos + part.length) (next :: parts)).map (fragmentPacket h [] nh ident)) =
            some (next :: parts).flatten := ih (List.cons_ne_nil _ _)
        (fun p hp => haligned p (List.mem_cons_of_mem _ hp)) (by omega) (by omega)
      show rfc8200Body pos (fragmentPacket h [] nh ident ⟨_, true, part⟩ ::
        fragmentPacket h [] nh ident ⟨_, _, next⟩ :: _) = _
      rw [rfc8200Body, hoffset, hmore, rfc8200_drop, if_pos ⟨hstart, rfl, hpart⟩]
      show (rfc8200Body (pos + part.length)
        ((fragmentsFrom (pos + part.length) (next :: parts)).map _)).map _ = _
      rw [hrest, List.flatten_cons]
      rfl

theorem rfc8200_sorted (c : Cut) :
    (c.fragments.map (fragmentPacket h [] nh ident)).Pairwise
      fun p q => rfc8200Offset p < rfc8200Offset q := by
  have hsorted := sorted_cutFrom c.parts 0
  rw [← c.map_piece_fragments, List.pairwise_map] at hsorted
  rw [List.pairwise_map]
  refine hsorted.imp_of_mem fun {f g} hf hg hle => ?_
  rw [(rfc8200_fields h nh ident (Cut.offset_lt hf)).1,
    (rfc8200_fields h nh ident (Cut.offset_lt hg)).1]
  have hpos := List.length_pos_of_ne_nil (Cut.nonempty_of_mem hf)
  change f.offsetUnits.toNat * 8 + f.bytes.length ≤ g.offsetUnits.toNat * 8 at hle
  omega

/-- A list that stands in the order of distinct offsets is what sorting any order
of it gives. -/
theorem insertionSort_rfc8200Offset {order sorted : List Bytes} (hperm : order.Perm sorted)
    (hsorted : sorted.Pairwise fun p q => rfc8200Offset p < rfc8200Offset q) :
    (order.insertionSort fun p q => rfc8200Offset p ≤ rfc8200Offset q) = sorted := by
  have : Std.Total fun p q : Bytes => rfc8200Offset p ≤ rfc8200Offset q :=
    ⟨fun _ _ => Nat.le_total _ _⟩
  have : IsTrans Bytes fun p q => rfc8200Offset p ≤ rfc8200Offset q :=
    ⟨fun _ _ _ => Nat.le_trans⟩
  have hall := (List.perm_insertionSort (fun p q => rfc8200Offset p ≤ rfc8200Offset q) order).trans
    hperm
  have hnodup : (sorted.map rfc8200Offset).Nodup :=
    List.pairwise_map.mpr (hsorted.imp Nat.ne_of_lt)
  refine List.Perm.eq_of_pairwise ?_ (List.pairwise_insertionSort _ order)
    (hsorted.imp Nat.le_of_lt) hall
  intro p q hp hq hpq hqp
  exact List.inj_on_of_nodup_map hnodup (hall.mem_iff.mp hp) hq (Nat.le_antisymm hpq hqp)

/-- In whatever order the fragments of a cut arrive, the standard puts the packet
together that their Next Header names. -/
theorem rfc8200Reassemble_cut (c : Cut) {order : List Bytes}
    (hperm : order.Perm (c.fragments.map (fragmentPacket h [] nh ident))) :
    rfc8200Reassemble order = some (h.packet nh c.body) := by
  have hsize := c.size_le
  have hbody : rfc8200Body 0 (c.fragments.map (fragmentPacket h [] nh ident)) = some c.body :=
    rfc8200Body_fragmentsFrom h nh ident c.ne c.aligned (by decide) (by omega)
  unfold rfc8200Reassemble
  rw [insertionSort_rfc8200Offset hperm (rfc8200_sorted h nh ident c)]
  dsimp only
  rw [hbody]
  -- The first fragment has the fixed header and the Next Header of all of them.
  obtain ⟨first, rest, hfirst⟩ := List.exists_cons_of_ne_nil
    (List.ne_nil_of_length_pos (by rw [c.fragments_length]; exact List.length_pos_of_ne_nil c.ne) :
      c.fragments ≠ [])
  rw [hfirst, List.map_cons, List.head?_cons, Option.bind_some, Option.map_some, fragmentPacket,
    FixedHeader.packet_take_four, FixedHeader.packet_tail, show 40 = 40 + 0 from rfl, byteAt_add,
    FixedHeader.packet_drop]
  rfl

end Rfc8200

/-! ## The two builders -/

/-- The packets that the translator hands to the fragmenter. -/
inductive Outgoing where
  | echoReply (src dst : Addr16) (id seq : UInt16) (data : Bytes)
  | udpDatagram (src dst : Addr16) (srcPort dstPort : UInt16) (payload : Bytes)

namespace Outgoing

def packet : Outgoing → Bytes
  | echoReply src dst id seq data => buildIPv6ICMPEchoReplyPacket src dst id seq data
  | udpDatagram src dst srcPort dstPort payload =>
    buildIPv6UDPDatagram src dst srcPort dstPort payload

/-- The upper-layer protocol. -/
def protocol : Outgoing → UInt8
  | echoReply .. => 58
  | udpDatagram .. => 17

/-- The source of the packet, its destination and what stands behind its fixed
header. -/
def fields : Outgoing → Addr16 × Addr16 × Bytes
  | echoReply src dst id seq data => (src, dst, echoReplyMessage src dst id seq data)
  | udpDatagram src dst srcPort dstPort payload =>
    (src, dst, udpSegment src dst srcPort dstPort payload)

theorem packet_eq (o : Outgoing) :
    o.packet = (FixedHeader.built 64 o.fields.1 o.fields.2.1).packet o.protocol o.fields.2.2 := by
  cases o with
  | echoReply src dst id seq data => exact buildIPv6ICMPEchoReplyPacket_eq src dst id seq data
  | udpDatagram src dst srcPort dstPort payload =>
    exact buildIPv6UDPDatagram_eq src dst srcPort dstPort payload

theorem fields_length (o : Outgoing) : 8 ≤ o.fields.2.2.length := by
  cases o with
  | echoReply src dst id seq data =>
    rw [fields, echoReplyMessage_length]
    exact Nat.le_add_right 8 _
  | udpDatagram src dst srcPort dstPort payload =>
    rw [fields, udpSegment_length]
    exact Nat.le_add_right 8 _

end Outgoing

/-- A packet over the MTU comes back from its fragments under the rules of the
standard, whatever their order, exactly when it is an Echo Reply and the MTU has
room for a fragment at all.  The Fragment header says ICMPv6 for a UDP datagram
as well. -/
theorem rfc8200Reassemble_iff (o : Outgoing) {mtu : Int} (ident : UInt32)
    (hsize : o.packet.length ≤ 40 + 65535) (hlarge : mtu < o.packet.length)
    {order : List Bytes} (hperm : order.Perm (fragmentIPv6Packet o.packet mtu ident)) :
    rfc8200Reassemble order = some o.packet ↔ o.protocol = 58 ∧ 56 ≤ mtu := by
  obtain ⟨h, hh⟩ : ∃ h, h = FixedHeader.built 64 o.fields.1 o.fields.2.1 := ⟨_, rfl⟩
  have hpkt := o.packet_eq
  rw [← hh] at hpkt
  have hlen : o.packet.length = 40 + o.fields.2.2.length := by
    rw [hpkt, FixedHeader.packet_length]
  by_cases hmtu : 56 ≤ mtu
  · obtain ⟨c, hbody, -, hfrags⟩ := fragmentIPv6Packet_eq (h := h)
      (by rw [hpkt, FixedHeader.packet_take_four]) (by rw [hpkt, FixedHeader.packet_tail]) ident
      hmtu hlarge (by rw [List.length_drop]; omega)
    rw [hpkt, FixedHeader.packet_drop] at hbody
    rw [hfrags] at hperm
    rw [rfc8200Reassemble_cut _ _ _ c hperm, Option.some.injEq, hbody, hpkt]
    constructor
    · intro heq
      have hnext := congrArg (byteAt · 6) heq
      simp only [FixedHeader.packet_next] at hnext
      exact ⟨hnext.symm, hmtu⟩
    · rintro ⟨hproto, -⟩
      rw [hproto]
  · -- No fragment fits, and nothing is sent.
    have hmessage := o.fields_length
    rw [fragmentIPv6Packet_eq_nil ident (by omega) (by omega) hlarge] at hperm
    rw [hperm.eq_nil]
    constructor
    · intro hnone
      cases hnone
    · rintro ⟨-, hle⟩
      exact absurd hle hmtu

theorem rfc8200Reassemble_reversed :
    rfc8200Reassemble (fragmentIPv6Packet shortReply 56 9).reverse = some shortReply :=
  (rfc8200Reassemble_iff (.echoReply (.replicate 16 1) (.replicate 16 2) 7 1 (List.replicate 16 5))
    9 (by decide +kernel) (by decide +kernel) (List.reverse_perm _)).mpr ⟨rfl, by decide⟩

/-- A datagram with 1300 bytes for an unsolicited delivery. -/
def longDatagram : Bytes :=
  buildIPv6UDPDatagram (.replicate 16 1) (.replicate 16 2) 53 4000 (List.replicate 1300 5)

/-- Over an MTU of 1280 bytes it arrives as ICMPv6. -/
theorem longDatagram_becomes_icmpv6 :
    rfc8200Reassemble (fragmentIPv6Packet longDatagram 1280 9) ≠ some longDatagram ∧
      (rfc8200Reassemble (fragmentIPv6Packet longDatagram 1280 9)).map (byteAt · 6) = some 58 ∧
      byteAt longDatagram 6 = 17 := by
  decide +kernel

end Ydn64.Nat64
