import Ydn64.Lib.Run
import Ydn64.Nat64.HeaderChain
import Ydn64.Nat64.Udp.IcmpErrors

/-!
# The walk over any chain of headers

`parseIPv6HeaderChain` of `src/nat64/ipv6chain.go` on a packet of which nothing
is known.  Its loop has no bound: it follows the Next Header and length bytes
that the sender chose.  `chainRound` is one round of it with every read checked,
and `Parses pkt headers r` says that the function returns `r` after it has gone
over `headers`.

The rounds are the same on two packets as long as they agree in front of the
cursor (`SameHead`), because a round reads the header that it goes over and
nothing behind it.  `header_chain_walk` collects what follows for a whole packet.
-/

namespace Ydn64.Nat64

open Ydn64.GoStd Ydn64.Lib.Loop
open Ydn64.Nat64.Udp (byteAtChecked byteAtChecked_eq uint16AtChecked_eq)

/-- `binary.BigEndian.Uint32` of a slice that may be too short. -/
def uint32AtChecked (b : Bytes) (i : Nat) : Option UInt32 :=
  if i + 4 ≤ b.length then some (uint32At b i) else none

theorem uint32AtChecked_eq {b : Bytes} {i : Nat} (h : i + 4 ≤ b.length) :
    uint32AtChecked b i = some (uint32At b i) := if_pos h

/-! ## The loop -/

/-- The variables of the loop. -/
structure Cursor where
  nh : UInt8
  off : Nat
  info : ChainInfo

/-- An extension header that the loop has gone over. -/
structure WalkedHeader where
  code : UInt8
  length : Nat
  deriving DecidableEq, Repr

/-- One round of the loop; `none` is a read outside of the packet. -/
def chainRound (pkt : Bytes) (c : Cursor) :
    Option (Round Cursor WalkedHeader (ChainInfo × ChainStatus)) :=
  if c.nh = 0 ∨ c.nh = 60 ∨ c.nh = 43 then
    if pkt.length < c.off + 2 then some (.exit (c.info, .invalid))
    else do
      let extLen := ((← byteAtChecked pkt (c.off + 1)).toNat + 1) * 8
      if extLen < 8 ∨ pkt.length < c.off + extLen then some (.exit (c.info, .invalid))
      else do
        let nh ← byteAtChecked pkt c.off
        some (.next ⟨c.nh, extLen⟩ ⟨nh, c.off + extLen, c.info⟩)
  else if c.nh = 44 then
    if c.info.isFrag ∨ pkt.length < c.off + 8 then some (.exit (c.info, .invalid))
    else do
      let word ← uint16AtChecked pkt (c.off + 2)
      let fragIdent ← uint32AtChecked pkt (c.off + 4)
      let nh ← byteAtChecked pkt c.off
      some (.next ⟨c.nh, 8⟩ ⟨nh, c.off + 8,
        { c.info with
          isFrag := true
          fragOffset := word >>> 3
          fragMore := word &&& 1 ≠ 0
          fragIdent := fragIdent }⟩)
  else
    some (.exit ({ c.info with l4Offset := c.off }, if c.nh = 58 then .icmpv6 else .other))

/-- `parseIPv6HeaderChain` returns. -/
inductive Parses (pkt : Bytes) : List WalkedHeader → ChainInfo × ChainStatus → Prop
  | short (h : pkt.length < 40) : Parses pkt [] ({}, .invalid)
  | version {v : UInt8} (hlen : ¬ pkt.length < 40) (hv : byteAtChecked pkt 0 = some v)
      (hne : v >>> 4 ≠ 6) : Parses pkt [] ({}, .invalid)
  | walk {v nh : UInt8} {headers : List WalkedHeader} {r : ChainInfo × ChainStatus}
      (hlen : ¬ pkt.length < 40) (hv : byteAtChecked pkt 0 = some v) (hsix : v >>> 4 = 6)
      (hnh : byteAtChecked pkt 6 = some nh)
      (h : Returns (chainRound pkt) ⟨nh, 40, {}⟩ headers r) : Parses pkt headers r

/-! ## One round -/

theorem chainRound_eq (pkt : Bytes) (c : Cursor) :
    chainRound pkt c = some (
      if c.nh = 0 ∨ c.nh = 60 ∨ c.nh = 43 then
        let extLen := ((byteAt pkt (c.off + 1)).toNat + 1) * 8
        if pkt.length < c.off + 2 ∨ pkt.length < c.off + extLen then .exit (c.info, .invalid)
        else .next ⟨c.nh, extLen⟩ ⟨byteAt pkt c.off, c.off + extLen, c.info⟩
      else if c.nh = 44 then
        if c.info.isFrag ∨ pkt.length < c.off + 8 then .exit (c.info, .invalid)
        else .next ⟨c.nh, 8⟩ ⟨byteAt pkt c.off, c.off + 8,
          { c.info with
            isFrag := true
            fragOffset := uint16At pkt (c.off + 2) >>> 3
            fragMore := uint16At pkt (c.off + 2) &&& 1 ≠ 0
            fragIdent := uint32At pkt (c.off + 4) }⟩
      else .exit ({ c.info with l4Offset := c.off }, if c.nh = 58 then .icmpv6 else .other)) := by
  unfold chainRound
  split_ifs with hext hshort hfrag hnested
  · rw [if_pos (.inl hshort)]
  · simp only [byteAtChecked_eq (show c.off + 1 < pkt.length by omega),
      byteAtChecked_eq (show c.off < pkt.length by omega), Option.bind_eq_bind, Option.bind_some]
    split_ifs <;> first | rfl | omega
  · rfl
  · rw [uint16AtChecked_eq (by omega), uint32AtChecked_eq (by omega),
      byteAtChecked_eq (by omega)]
    rfl
  all_goals rfl

/-- A round that goes on has gone over a header within the packet; a Fragment
header is not gone over twice. -/
structure Advances (pkt : Bytes) (c : Cursor) (hdr : WalkedHeader) (c' : Cursor) : Prop where
  off : c'.off = c.off + hdr.length
  length : 8 ≤ hdr.length
  inside : c'.off ≤ pkt.length
  fragment : hdr.code = 44 → c.info.isFrag = false ∧ c'.info.isFrag = true
  others : hdr.code ≠ 44 → c'.info = c.info

theorem chainRound_next {pkt : Bytes} {c c' : Cursor} {hdr : WalkedHeader}
    (h : chainRound pkt c = some (.next hdr c')) : Advances pkt c hdr c' := by
  rw [chainRound_eq, Option.some.injEq] at h
  dsimp only at h
  split_ifs at h with hext hout hfrag hnested
  · rw [Round.next.injEq] at h
    obtain ⟨rfl, rfl⟩ := h
    refine ⟨rfl, ?_, ?_, ?_, fun _ => rfl⟩
    · show 8 ≤ ((byteAt pkt (c.off + 1)).toNat + 1) * 8
      omega
    · show c.off + ((byteAt pkt (c.off + 1)).toNat + 1) * 8 ≤ pkt.length
      omega
    · intro hcode
      rw [show c.nh = 44 from hcode] at hext
      exact absurd hext (by decide)
  · rw [Round.next.injEq] at h
    obtain ⟨rfl, rfl⟩ := h
    rw [not_or, Bool.not_eq_true] at hnested
    refine ⟨rfl, le_rfl, ?_, fun _ => ⟨hnested.1, rfl⟩, fun hne => absurd hfrag hne⟩
    show c.off + 8 ≤ pkt.length
    omega

theorem chainRound_exit {pkt : Bytes} {c : Cursor} {r : ChainInfo × ChainStatus}
    (h : chainRound pkt c = some (.exit r)) (hr : r.2 ≠ .invalid) :
    r.1 = { c.info with l4Offset := c.off } ∧
      ∀ pkt', chainRound pkt' c = some (.exit r) := by
  rw [chainRound_eq, Option.some.injEq] at h
  dsimp only at h
  split_ifs at h with hext hout hfrag hnested
  · rw [Round.exit.injEq] at h
    exact absurd (congrArg Prod.snd h).symm hr
  · rw [Round.exit.injEq] at h
    exact absurd (congrArg Prod.snd h).symm hr
  all_goals
    rw [Round.exit.injEq] at h
    subst h
    refine ⟨rfl, fun pkt' => ?_⟩
    rw [chainRound_eq, if_neg hext, if_neg hfrag]
    simp [*]

/-! ## Packets that agree in front -/

/-- The two packets have the same first `n` bytes. -/
structure SameHead (n : Nat) (a b : Bytes) : Prop where
  left : n ≤ a.length
  right : n ≤ b.length
  bytes : ∀ i < n, byteAt a i = byteAt b i

theorem SameHead.mono {n k : Nat} {a b : Bytes} (h : SameHead n a b) (hk : k ≤ n) :
    SameHead k a b :=
  ⟨hk.trans h.left, hk.trans h.right, fun i hi => h.bytes i (hi.trans_le hk)⟩

theorem SameHead.uint16At {n i : Nat} {a b : Bytes} (h : SameHead n a b) (hi : i + 2 ≤ n) :
    uint16At a i = uint16At b i := by
  unfold Nat64.uint16At
  rw [h.bytes i (by omega), h.bytes (i + 1) (by omega)]

theorem SameHead.uint32At {n i : Nat} {a b : Bytes} (h : SameHead n a b) (hi : i + 4 ≤ n) :
    uint32At a i = uint32At b i := by
  unfold Nat64.uint32At
  rw [h.uint16At (by omega), h.uint16At (show i + 2 + 2 ≤ n by omega)]

theorem SameHead.append {n : Nat} {a : Bytes} (h : n ≤ a.length) (tail : Bytes) :
    SameHead n a (a ++ tail) where
  left := h
  right := by
    rw [List.length_append]
    omega
  bytes i hi := (byteAt_append_left (by omega) tail).symm

/-- A round reads nothing behind the header that it goes over. -/
theorem chainRound_sameHead {pkt pkt' : Bytes} {c c' : Cursor} {hdr : WalkedHeader}
    (h : chainRound pkt c = some (.next hdr c')) (hsame : SameHead c'.off pkt pkt') :
    chainRound pkt' c = some (.next hdr c') := by
  have hleft := hsame.left
  have hright := hsame.right
  have hadv := chainRound_next h
  rw [chainRound_eq, Option.some.injEq] at h
  dsimp only at h
  split_ifs at h with hext hout hfrag hnested
  all_goals
    rw [Round.next.injEq] at h
    obtain ⟨rfl, rfl⟩ := h
    have hlength := hadv.length
    dsimp only at hsame hleft hright hlength
  · have hfirst := hsame.bytes c.off (by omega)
    have hsecond := hsame.bytes (c.off + 1) (by omega)
    rw [chainRound_eq, if_pos hext, ← hfirst, ← hsecond]
    dsimp only
    rw [if_neg (by omega)]
  · have hroom : ¬ (c.info.isFrag ∨ pkt'.length < c.off + 8) := by
      rw [not_or] at hnested ⊢
      exact ⟨hnested.1, by omega⟩
    rw [chainRound_eq, if_neg hext, if_pos hfrag, if_neg hroom,
      ← hsame.bytes c.off (by omega), ← hsame.uint16At (by omega), ← hsame.uint32At (by omega)]

/-! ## The whole walk -/

/-- The loop on a packet returns. -/
abbrev Walks (pkt : Bytes) :
    Cursor → List WalkedHeader → ChainInfo × ChainStatus → Prop :=
  Returns (chainRound pkt)

section
variable {pkt : Bytes} {c : Cursor} {headers : List WalkedHeader} {r : ChainInfo × ChainStatus}

theorem Walks.inside (h : Walks pkt c headers r) (hc : c.off ≤ pkt.length) :
    c.off + (headers.map WalkedHeader.length).sum ≤ pkt.length := by
  induction h with
  | exit _ => simpa using hc
  | next hround _ ih =>
    have hadv := chainRound_next hround
    have hrest := ih hadv.inside
    rw [hadv.off] at hrest
    rw [List.map_cons, List.sum_cons]
    omega

theorem Walks.eight_le (h : Walks pkt c headers r) :
    8 * headers.length ≤ (headers.map WalkedHeader.length).sum := by
  induction h with
  | exit _ => simp
  | next hround _ ih =>
    have := (chainRound_next hround).length
    rw [List.map_cons, List.sum_cons, List.length_cons]
    omega

theorem Walks.l4Offset (h : Walks pkt c headers r) (hr : r.2 ≠ .invalid) :
    r.1.l4Offset = c.off + (headers.map WalkedHeader.length).sum := by
  induction h with
  | exit hround => simp [(chainRound_exit hround hr).1]
  | next hround _ ih =>
    rw [ih hr, (chainRound_next hround).off, List.map_cons, List.sum_cons, Nat.add_assoc]

theorem Walks.fragments (h : Walks pkt c headers r) :
    headers.countP (fun hdr => hdr.code = 44) ≤ if c.info.isFrag then 0 else 1 := by
  induction h with
  | exit _ => simp
  | @next c c' hdr headers r hround _ ih =>
    have hadv := chainRound_next hround
    rw [List.countP_cons]
    by_cases hcode : hdr.code = 44
    · obtain ⟨hbefore, hafter⟩ := hadv.fragment hcode
      simp only [hafter, if_true] at ih
      simp only [hcode, hbefore, decide_true, if_true, Bool.false_eq_true, if_false]
      omega
    · rw [hadv.others hcode] at ih
      simpa [hcode] using ih

/-- The walk on another packet that agrees with this one up to the upper-layer
header. -/
theorem Walks.sameHead {pkt' : Bytes} (h : Walks pkt c headers r)
    (hr : r.2 ≠ .invalid) (hsame : SameHead r.1.l4Offset pkt pkt') :
    Walks pkt' c headers r := by
  induction h with
  | exit hround => exact .exit ((chainRound_exit hround hr).2 pkt')
  | next hround rest ih =>
    refine .next (chainRound_sameHead hround (hsame.mono ?_)) (ih hr hsame)
    rw [Walks.l4Offset rest hr]
    omega

/-- A round of `walkChain` that goes on. -/
theorem walkChain_next {c' : Cursor} {hdr : WalkedHeader}
    (h : chainRound pkt c = some (.next hdr c')) (fuel : Nat) :
    walkChain pkt (fuel + 1) c.nh c.off c.info = walkChain pkt fuel c'.nh c'.off c'.info := by
  rw [chainRound_eq, Option.some.injEq] at h
  rw [walkChain]
  dsimp only at h ⊢
  split_ifs at h ⊢
  all_goals
    rw [Round.next.injEq] at h
    obtain ⟨-, rfl⟩ := h
    rfl

/-- A round of `walkChain` that returns. -/
theorem walkChain_exit (h : chainRound pkt c = some (.exit r)) (fuel : Nat) :
    walkChain pkt (fuel + 1) c.nh c.off c.info = r := by
  rw [chainRound_eq, Option.some.injEq] at h
  rw [walkChain]
  dsimp only at h ⊢
  split_ifs at h ⊢
  all_goals
    rw [Round.exit.injEq] at h
    exact h

/-- `walkChain` returns what the loop returns, if its rounds are enough. -/
theorem Walks.walkChain_eq (h : Walks pkt c headers r) {fuel : Nat}
    (hfuel : headers.length < fuel) : walkChain pkt fuel c.nh c.off c.info = r := by
  induction h generalizing fuel with
  | exit hround =>
    obtain ⟨fuel, rfl⟩ : ∃ k, fuel = k + 1 := ⟨fuel - 1, by omega⟩
    exact walkChain_exit hround fuel
  | next hround _ ih =>
    obtain ⟨fuel, rfl⟩ : ∃ k, fuel = k + 1 := ⟨fuel - 1, by omega⟩
    rw [List.length_cons] at hfuel
    rw [walkChain_next hround, ih (by omega)]

/-- The loop returns from every cursor within the packet: each round goes over
eight bytes at least. -/
theorem exists_walks (pkt : Bytes) {c : Cursor} (hc : c.off ≤ pkt.length) :
    ∃ headers r, Walks pkt c headers r := by
  refine Returns.of_rank (fun c => pkt.length - c.off) (fun c => c.off ≤ pkt.length) ?_ ?_ hc
  · intro c _
    rw [chainRound_eq]
    exact Option.some_ne_none _
  · intro c hdr c' hc hround
    have hadv := chainRound_next hround
    have hlength := hadv.length
    have hinside := hadv.inside
    have hoff := hadv.off
    exact ⟨hinside, by omega⟩

end

/-! ## The parser -/

/-- The parser returns, and nothing that it returns is read outside of the
packet. -/
theorem exists_parses (pkt : Bytes) : ∃ headers, Parses pkt headers (parseIPv6HeaderChain pkt) := by
  unfold parseIPv6HeaderChain
  by_cases hlen : pkt.length < 40
  · rw [if_pos (.inl hlen)]
    exact ⟨[], .short hlen⟩
  have hversion := byteAtChecked_eq (show 0 < pkt.length by omega)
  by_cases hsix : byteAt pkt 0 >>> 4 = 6
  · have hnh := byteAtChecked_eq (show 6 < pkt.length by omega)
    rw [if_neg (by rw [not_or, not_not]; exact ⟨hlen, hsix⟩)]
    obtain ⟨headers, r, hwalk⟩ :=
      exists_walks pkt (c := ⟨byteAt pkt 6, 40, {}⟩) (by show 40 ≤ pkt.length; omega)
    have hinside := hwalk.inside (by show 40 ≤ pkt.length; omega)
    have height := hwalk.eight_le
    rw [hwalk.walkChain_eq (show headers.length < pkt.length by omega)]
    exact ⟨headers, .walk hlen hversion hsix hnh hwalk⟩
  · rw [if_pos (.inr hsix)]
    exact ⟨[], .version hlen hversion hsix⟩

section
variable {pkt : Bytes} {headers : List WalkedHeader} {r : ChainInfo × ChainStatus}

theorem Parses.walks (h : Parses pkt headers r) (hr : r.2 ≠ .invalid) :
    40 ≤ pkt.length ∧ byteAt pkt 0 >>> 4 = 6 ∧
      Walks pkt ⟨byteAt pkt 6, 40, {}⟩ headers r := by
  cases h with
  | short _ => exact absurd rfl hr
  | version _ _ _ => exact absurd rfl hr
  | walk hlen hv hsix hnh hwalk =>
    rw [byteAtChecked_eq (show 0 < pkt.length by omega), Option.some.injEq] at hv
    rw [byteAtChecked_eq (show 6 < pkt.length by omega), Option.some.injEq] at hnh
    exact ⟨by omega, hv ▸ hsix, hnh ▸ hwalk⟩

theorem parse_l4Offset_le (hr : (parseIPv6HeaderChain pkt).2 ≠ .invalid) :
    (parseIPv6HeaderChain pkt).1.l4Offset ≤ pkt.length := by
  obtain ⟨headers, hparses⟩ := exists_parses pkt
  obtain ⟨hlen, -, hwalk⟩ := hparses.walks hr
  rw [hwalk.l4Offset hr]
  exact hwalk.inside hlen

/-- The parser finds the same upper-layer header in a packet that agrees with
this one up to it. -/
theorem parse_sameHead {pkt' : Bytes} (hr : (parseIPv6HeaderChain pkt).2 ≠ .invalid)
    (hsame : SameHead (parseIPv6HeaderChain pkt).1.l4Offset pkt pkt') :
    parseIPv6HeaderChain pkt' = parseIPv6HeaderChain pkt := by
  obtain ⟨headers, hparses⟩ := exists_parses pkt
  obtain ⟨hlen, hversion, hwalk⟩ := hparses.walks hr
  have hoff := hwalk.l4Offset hr
  have hforty : 40 ≤ (parseIPv6HeaderChain pkt).1.l4Offset := by
    rw [hoff]
    exact Nat.le_add_right 40 _
  have hhead := hsame.mono hforty
  have hwalk' := hwalk.sameHead hr hsame
  have hright := hhead.right
  have hinside := hwalk'.inside hright
  have height := hwalk'.eight_le
  rw [show parseIPv6HeaderChain pkt' =
    walkChain pkt' pkt'.length (byteAt pkt' 6) 40 {} from if_neg ?_]
  · rw [← hhead.bytes 6 (by omega)]
    exact hwalk'.walkChain_eq (show headers.length < pkt'.length by dsimp only at hinside; omega)
  · rw [not_or, not_not, ← hhead.bytes 0 (by omega)]
    exact ⟨by omega, hversion⟩

end

/-- For every packet the parser returns without a read outside of it.  If it
reports an upper-layer header, that header starts within the packet or behind
its last byte, directly behind the headers that it has gone over; at most one of
these is a Fragment header; and neither bytes that are appended nor any other
bytes from that header on change what it returns. -/
theorem header_chain_walk (pkt : Bytes) :
    ∃ headers, Parses pkt headers (parseIPv6HeaderChain pkt) ∧
      ((parseIPv6HeaderChain pkt).2 ≠ .invalid →
        40 ≤ (parseIPv6HeaderChain pkt).1.l4Offset ∧
        (parseIPv6HeaderChain pkt).1.l4Offset ≤ pkt.length ∧
        (parseIPv6HeaderChain pkt).1.l4Offset - 40 =
          (headers.map WalkedHeader.length).sum ∧
        headers.countP (fun hdr => hdr.code = 44) ≤ 1 ∧
        (∀ tail, parseIPv6HeaderChain (pkt ++ tail) = parseIPv6HeaderChain pkt) ∧
        ∀ pkt', SameHead (parseIPv6HeaderChain pkt).1.l4Offset pkt pkt' →
          parseIPv6HeaderChain pkt' = parseIPv6HeaderChain pkt) := by
  obtain ⟨headers, hparses⟩ := exists_parses pkt
  refine ⟨headers, hparses, fun hr => ?_⟩
  obtain ⟨-, -, hwalk⟩ := hparses.walks hr
  have hoff : (parseIPv6HeaderChain pkt).1.l4Offset =
      40 + (headers.map WalkedHeader.length).sum := hwalk.l4Offset hr
  have hinside := parse_l4Offset_le hr
  refine ⟨by omega, hinside, by omega, hwalk.fragments, fun tail => ?_, fun pkt' hsame => ?_⟩
  · exact parse_sameHead hr (.append hinside tail)
  · exact parse_sameHead hr hsame

/-- The first fragment of an Echo Request behind a Hop-by-Hop header. -/
def optionsThenFragment : Bytes :=
  [0x60, 0, 0, 0, 0, 24, 0, 64] ++ List.replicate 32 0 ++ [44, 0, 0, 0, 0, 0, 0, 0] ++
    [58, 0, 0, 1, 0, 0, 0, 7] ++ [128, 0, 0, 0, 0, 1, 0, 1]

/-- Its upper-layer header is found behind the two headers, whatever follows. -/
theorem header_chain_walk_optionsThenFragment :
    parseIPv6HeaderChain optionsThenFragment = (⟨56, 0, 7, true, true⟩, .icmpv6) ∧
      ∀ tail, parseIPv6HeaderChain (optionsThenFragment ++ tail) =
        (⟨56, 0, 7, true, true⟩, .icmpv6) := by
  have hparse : parseIPv6HeaderChain optionsThenFragment =
      (⟨56, 0, 7, true, true⟩, .icmpv6) := by decide
  obtain ⟨_, -, hwalk⟩ := header_chain_walk optionsThenFragment
  refine ⟨hparse, fun tail => ?_⟩
  rw [(hwalk (by rw [hparse]; decide)).2.2.2.2.1 tail, hparse]

end Ydn64.Nat64
