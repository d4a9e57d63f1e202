import Ydn64.Nat64.ChainWalk
import Ydn64.Nat64.FragmentPath

/-!
# Any frame off the network

`interceptICMPPacket` gets every frame before anything else has looked at it.
`interceptICMPPacketChecked` is the interceptor with every index, slice and `make`
checked; it answers `none` where the source panics.  `runInterceptor` recovers and
goes on with the next frame, so such a call has its place in a run.

The parser and the reassembly table stay in range on every frame
(`parseIPv6HeaderChainChecked_eq`, `ReasmTable.addBounded_eq`).
`handleEchoRequest` reads the eight bytes of an echo header.  Of the two ways to
it only the one for a whole message looks at the length.  A table returns less
than eight bytes for one fragment only, a first one that is also the last and has
no company (`ReasmInv.short_iff`), and `inRange_iff` says that the interceptor
stays in range exactly if it does not get such a fragment of an echo request.
-/

namespace Ydn64.Nat64

open Ydn64.GoStd Ydn64.Config Ydn64.Lib
open Ydn64.Nat64.Udp (byteAtChecked sliceFromChecked addr4AtChecked byteAtChecked_eq
  uint16AtChecked_eq sliceFromChecked_eq addr4AtChecked_eq)

/-! ## The parser -/

/-- `b[i:i+16]`. -/
def addr16AtChecked (b : Bytes) (i : Nat) : Option Addr16 :=
  if i + 16 ≤ b.length then some (addr16At b i) else none

/-- The loop of `parseIPv6HeaderChain`. -/
def walkChainChecked (pkt : Bytes) :
    Nat → UInt8 → Nat → ChainInfo → Option (ChainInfo × ChainStatus)
  | 0, _, _, info => some (info, .invalid)
  | fuel + 1, nh, off, info =>
    if nh = 0 ∨ nh = 60 ∨ nh = 43 then
      if pkt.length < off + 2 then some (info, .invalid)
      else do
        let extLen := ((← byteAtChecked pkt (off + 1)).toNat + 1) * 8
        if extLen < 8 ∨ pkt.length < off + extLen then some (info, .invalid)
        else do
          let nh ← byteAtChecked pkt off
          walkChainChecked pkt fuel nh (off + extLen) info
    else if nh = 44 then
      if info.isFrag ∨ pkt.length < off + 8 then some (info, .invalid)
      else do
        let word ← uint16AtChecked pkt (off + 2)
        let fragIdent ← uint32AtChecked pkt (off + 4)
        let nh ← byteAtChecked pkt off
        walkChainChecked pkt fuel nh (off + 8)
          { info with
            isFrag := true
            fragOffset := word >>> 3
            fragMore := word &&& 1 ≠ 0
            fragIdent := fragIdent }
    else if nh = 58 then some ({ info with l4Offset := off }, .icmpv6)
    else some ({ info with l4Offset := off }, .other)

/-- `parseIPv6HeaderChain`. -/
def parseIPv6HeaderChainChecked (pkt : Bytes) : Option (ChainInfo × ChainStatus) :=
  if pkt.length < 40 then some ({}, .invalid)
  else do
    let version ← byteAtChecked pkt 0
    if version >>> 4 ≠ 6 then some ({}, .invalid)
    else do
      let nh ← byteAtChecked pkt 6
      walkChainChecked pkt pkt.length nh 40 {}

theorem addr16AtChecked_eq {b : Bytes} {i : Nat} (h : i + 16 ≤ b.length) :
    addr16AtChecked b i = some (addr16At b i) := if_pos h

theorem walkChainChecked_eq (pkt : Bytes) (fuel : Nat) (nh : UInt8) (off : Nat)
    (info : ChainInfo) :
    walkChainChecked pkt fuel nh off info = some (walkChain pkt fuel nh off info) := by
  induction fuel generalizing nh off info with
  | zero => rfl
  | succ fuel ih =>
    rw [walkChainChecked, walkChain]
    split_ifs with hext hshort hfrag hnested
    · rw [if_pos (.inl hshort)]
    · simp only [byteAtChecked_eq (show off + 1 < pkt.length by omega),
        byteAtChecked_eq (show off < pkt.length by omega), Option.bind_eq_bind, Option.bind_some,
        ih]
      split_ifs <;> first | rfl | omega
    · rfl
    · rw [uint16AtChecked_eq (by omega), uint32AtChecked_eq (by omega),
        byteAtChecked_eq (by omega)]
      exact ih _ _ _
    · rfl
    · rfl

theorem parseIPv6HeaderChainChecked_eq (pkt : Bytes) :
    parseIPv6HeaderChainChecked pkt = some (parseIPv6HeaderChain pkt) := by
  unfold parseIPv6HeaderChainChecked parseIPv6HeaderChain
  by_cases hlen : pkt.length < 40
  · rw [if_pos hlen, if_pos (.inl hlen)]
  · rw [if_neg hlen, byteAtChecked_eq (by omega), byteAtChecked_eq (by omega)]
    by_cases hversion : byteAt pkt 0 >>> 4 ≠ 6
    · rw [if_pos (.inr hversion)]
      exact if_pos hversion
    · rw [if_neg (not_or.mpr ⟨hlen, hversion⟩)]
      exact (if_neg hversion).trans (walkChainChecked_eq ..)

/-! ## The table -/

/-- How many bytes `full[pos:]` has, for a `full` of `total` bytes. -/
def roomChecked (total pos : Nat) : Option Nat :=
  if pos ≤ total then some (total - pos) else none

/-- The copy loop of `add`.  `full` is what it has filled in. -/
def assembleFromChecked (frags : List (UInt16 × Bytes)) (total : Nat) :
    Nat → Nat → Bytes → Option Bytes
  | 0, _, full => some full
  | fuel + 1, off, full =>
    if full.length < total then do
      let room ← roomChecked total full.length
      let f := (frags.lookup (UInt16.ofNat off)).getD []
      assembleFromChecked frags total fuel (off + 1) (full ++ f.take room)
    else some full

namespace ReasmTable

/-- The part of `add` after the entry is found or made. -/
def addToBounded (t : ReasmTable) (key : ReasmKey) (e : ReasmEntry) (offsetUnits : UInt16)
    (more : Bool) (frag : Bytes) : Option (ReasmTable × Option Bytes) :=
  let start := offsetUnits.toNat * 8
  let stop := start + frag.length
  if 65536 ≤ start ∨ (more = false ∧ 65536 < stop) then some ((t.cancel key).1, none)
  else if e.frags.any (overlaps start stop) then some (t.releaseEntryLocked key e, none)
  else if maxFragmentsPerDgram ≤ e.frags.length then some (t.releaseEntryLocked key e, none)
  else
    let e := e.store offsetUnits more frag
    let t := t.storeEntry key e frag.length
    if e.haveLast = false then some (t, none)
    else match contiguousLen e with
      | none => some (t, none)
      | some total => do
        let full ← assembleFromChecked e.frags total (65536 * (total + 1)) 0 []
        some (t.releaseEntryLocked key e, some full)

/-- `add`. -/
def addBounded (t : ReasmTable) (key : ReasmKey) (offsetUnits : UInt16) (more : Bool)
    (frag : Bytes) (now : Int) : Option (ReasmTable × Option Bytes) :=
  let t := t.expireLocked now
  if frag = [] ∨ (more = true ∧ frag.length % 8 ≠ 0) then some ((t.cancel key).1, none)
  else if maxReasmBytes < t.bufByte + frag.length then some (t, none)
  else match t.find key with
    | some e => t.addToBounded key e offsetUnits more frag
    | none =>
      if maxReassemblies ≤ t.entries.length then some (t, none)
      else
        let e : ReasmEntry := { createdAt := now }
        (t.put key e).addToBounded key e offsetUnits more frag

end ReasmTable

theorem assembleFromChecked_eq (frags : List (UInt16 × Bytes)) (total fuel off : Nat)
    (full : Bytes) :
    assembleFromChecked frags total fuel off full =
      some (assembleFrom frags total fuel off full) := by
  induction fuel generalizing off full with
  | zero => rfl
  | succ fuel ih =>
    rw [assembleFromChecked, assembleFrom]
    split_ifs with hlt
    · rw [roomChecked, if_pos (by omega)]
      exact ih _ _
    · rfl

theorem ReasmTable.addToBounded_eq (t : ReasmTable) (key : ReasmKey) (e : ReasmEntry)
    (offsetUnits : UInt16) (more : Bool) (frag : Bytes) :
    t.addToBounded key e offsetUnits more frag = some (t.addTo key e offsetUnits more frag) := by
  rw [addTo_eq]
  unfold addToBounded
  dsimp only
  split_ifs
  · rfl
  · rfl
  · rfl
  · rfl
  · cases contiguousLen (e.store offsetUnits more frag) with
    | none => rfl
    | some total =>
      dsimp only
      rw [assembleFromChecked_eq]
      rfl

theorem ReasmTable.addBounded_eq (t : ReasmTable) (key : ReasmKey) (offsetUnits : UInt16)
    (more : Bool) (frag : Bytes) (now : Int) :
    t.addBounded key offsetUnits more frag now = some (t.add key offsetUnits more frag now) := by
  unfold addBounded add
  generalize t.expireLocked now = t₁
  dsimp only
  split_ifs
  · rfl
  · rfl
  all_goals cases t₁.find key with
    | some e => exact addToBounded_eq ..
    | none => first | rfl | exact addToBounded_eq ..

/-! ## Short datagrams -/

/-- The rounds up to the next pass over the offsets. -/
def toNextPass (off : Nat) : Nat := (65536 - off % 65536) % 65536

/-- The copy loop fills the datagram: every pass copies at least the fragment at
offset zero. -/
theorem assembleFrom_length {frags : List (UInt16 × Bytes)} {f : Bytes}
    (hfirst : frags.lookup 0 = some f) (hne : f ≠ []) {total fuel off : Nat} {full : Bytes}
    (hle : full.length ≤ total)
    (hfuel : full.length < total →
      toNextPass off + 65536 * (total - full.length - 1) + 1 ≤ fuel) :
    (assembleFrom frags total fuel off full).length = total := by
  induction fuel generalizing off full with
  | zero =>
    rw [assembleFrom]
    omega
  | succ fuel ih =>
    rw [assembleFrom]
    split_ifs with hlt
    swap
    · omega
    have hfuel := hfuel hlt
    unfold toNextPass at ih hfuel
    have hpos := List.length_pos_of_ne_nil hne
    apply ih
    · rw [List.length_append, List.length_take]
      omega
    · rw [List.length_append, List.length_take]
      by_cases hzero : off % 65536 = 0
      · have hoff : UInt16.ofNat off = 0 := by
          apply UInt16.toNat_inj.mp
          rw [UInt16.toNat_ofNat']
          exact hzero
        rw [hoff, hfirst, Option.getD_some]
        omega
      · omega

theorem contiguousLen_eq_some {e : ReasmEntry} {n : Nat} (hlen : contiguousLen e = some n) :
    n = furthest e.frags ∧
      contiguousFrom e.frags (furthest e.frags) (furthest e.frags + 1) 0 = true := by
  change (if contiguousFrom e.frags (furthest e.frags) (furthest e.frags + 1) 0 then
    some (furthest e.frags) else none) = some n at hlen
  split_ifs at hlen with hwalk
  exact ⟨(Option.some.inj hlen).symm, hwalk⟩

theorem exists_first_of_contiguousFrom {frags : List (UInt16 × Bytes)} {stop fuel : Nat}
    (hpos : 0 < stop) (hwalk : contiguousFrom frags stop (fuel + 1) 0 = true) :
    ∃ f, frags.lookup 0 = some f ∧ f ≠ [] := by
  have hzero : UInt16.ofNat (0 / 8) = 0 := rfl
  rw [contiguousFrom, if_pos hpos, hzero] at hwalk
  cases hfirst : frags.lookup 0 with
  | none =>
    rw [hfirst] at hwalk
    cases hwalk
  | some f =>
    rw [hfirst] at hwalk
    dsimp only at hwalk
    split_ifs at hwalk with hnil
    exact ⟨f, rfl, hnil⟩

namespace ReasmInv

variable {t : ReasmTable} {key : ReasmKey} {f : Fragment} {now : Int} {pdu : Bytes}

/-- The datagram that `add` returns is as long as its furthest fragment reaches. -/
theorem length_of_add (hinv : ReasmInv t)
    (hadd : (t.add key f.offsetUnits f.more f.bytes now).2 = some pdu) :
    pdu.length = furthest (f.stored :: (t.expireLocked now).fragsOf key) ∧ pdu ≠ [] := by
  obtain ⟨hacc, n, hlen, rfl⟩ := add_eq_some hadd
  obtain ⟨-, hfrags⟩ := (hinv.expireLocked now).1.store_ok now hacc
  obtain ⟨hn, hwalk⟩ := contiguousLen_eq_some hlen
  have hpos : 0 < n := by
    have hreach : f.stop ≤ furthest (f.stored :: (t.expireLocked now).fragsOf key) :=
      fragEnd_le_furthest List.mem_cons_self
    have hstop : f.stop = f.offsetUnits.toNat * 8 + f.bytes.length := rfl
    have hbytes := List.length_pos_of_ne_nil hacc.1
    rw [hn, hfrags]
    show 0 < furthest (f.stored :: _)
    omega
  obtain ⟨g, hfirst, hne⟩ := exists_first_of_contiguousFrom (hn ▸ hpos) hwalk
  have hfull : ((((t.expireLocked now).entryFor key now).store f.offsetUnits f.more
      f.bytes).assemble n).length = n := by
    apply assembleFrom_length hfirst hne (Nat.zero_le _)
    intro _
    show 0 + 65536 * (n - 0 - 1) + 1 ≤ 65536 * (n + 1)
    omega
  refine ⟨?_, List.ne_nil_of_length_pos (by omega)⟩
  rw [hfull, hn, hfrags]
  rfl

/-- A key whose fragments all start in the first eight bytes has no entry but
for the fragment itself. -/
theorem find_eq_none_of_furthest_lt (hinv : ReasmInv t)
    (hacc : t.Accepts key f.offsetUnits f.more f.bytes)
    (hlt : furthest (f.stored :: t.fragsOf key) < 8) :
    f.offsetUnits = 0 ∧ f.bytes.length < 8 ∧ t.find key = none := by
  have hends : ∀ g ∈ f.stored :: t.fragsOf key, g.1.toNat = 0 ∧ g.2.length < 8 := by
    intro g hg
    have hle := fragEnd_le_furthest hg
    unfold fragEnd at hle
    omega
  obtain ⟨hoff, hlen⟩ := hends f.stored List.mem_cons_self
  refine ⟨UInt16.toNat_inj.mp hoff, hlen, ?_⟩
  by_contra hsome
  obtain ⟨e, hfind⟩ := Option.ne_none_iff_exists'.mp hsome
  have hmem := ReasmTable.mem_of_find hfind
  -- Another fragment would start at zero as well, over this one.
  obtain ⟨g, hg⟩ := List.exists_mem_of_ne_nil _ (hinv.nonempty _ hmem)
  have hgpos := List.length_pos_of_ne_nil ((hinv.entry _ hmem).nonempty g hg)
  have hpos := List.length_pos_of_ne_nil hacc.1
  rw [← ReasmTable.fragsOf_of_find hfind] at hg
  have hover := List.any_eq_false.mp hacc.2.2.2.2.2.2.1 g hg
  obtain ⟨hgoff, -⟩ := hends g (List.mem_cons_of_mem _ hg)
  have hapart := overlaps_eq_false (Bool.eq_false_iff.mpr hover)
  change f.offsetUnits.toNat = 0 at hoff
  unfold fragEnd at hapart
  omega

end ReasmInv

/-- A datagram of one fragment. -/
theorem ReasmTable.add_lone {t : ReasmTable} {key : ReasmKey} {frag : Bytes} {now : Int}
    (hfind : (t.expireLocked now).find key = none)
    (hacc : (t.expireLocked now).Accepts key 0 false frag) :
    (t.add key 0 false frag now).2 = some frag := by
  have hentry : (t.expireLocked now).entryFor key now = { createdAt := now } := by
    rw [entryFor, hfind]
    rfl
  have hne := hacc.1
  have hpos := List.length_pos_of_ne_nil hne
  have hstop : furthest [((0 : UInt16), frag)] = frag.length := by
    show max 0 (0 * 8 + frag.length) = _
    omega
  have hwalk : contiguousFrom [((0 : UInt16), frag)] frag.length (frag.length + 1) 0 = true := by
    rw [contiguousFrom, if_pos hpos]
    show (if frag = [] then false else contiguousFrom _ _ _ (0 + frag.length)) = true
    rw [if_neg hne]
    obtain ⟨k, hk⟩ := Nat.exists_eq_succ_of_ne_zero (Nat.ne_of_gt hpos)
    rw [hk, contiguousFrom, if_neg (by omega)]
  have htotal : (({ createdAt := now } : ReasmEntry).store 0 false frag).total =
      some frag.length := by
    show (if contiguousFrom [(0, frag)] (furthest [(0, frag)]) (furthest [(0, frag)] + 1) 0 then
      some (furthest [(0, frag)]) else none) = _
    rw [hstop, if_pos hwalk]
  have hcopy : (({ createdAt := now } : ReasmEntry).store 0 false frag).assemble frag.length =
      frag := by
    show assembleFrom [(0, frag)] frag.length (65536 * (frag.length + 1)) 0 [] = frag
    obtain ⟨k, hk⟩ := Nat.exists_eq_add_of_le' (show 2 ≤ 65536 * (frag.length + 1) by omega)
    rw [hk, assembleFrom, if_pos (show ([] : Bytes).length < frag.length from hpos)]
    show assembleFrom _ _ (k + 1) 1 ([] ++ frag.take (frag.length - 0)) = frag
    rw [Nat.sub_zero, List.take_length, List.nil_append, assembleFrom, if_neg (Nat.lt_irrefl _)]
  rw [add_of_accepts hacc, hentry, htotal]
  exact congrArg some hcopy

/-- A datagram of less than eight bytes is one fragment that is the first and the
last and finds no entry for its key. -/
theorem ReasmInv.short_iff {t : ReasmTable} (hinv : ReasmInv t) {key : ReasmKey} {f : Fragment}
    {now : Int} {pdu : Bytes} :
    (t.add key f.offsetUnits f.more f.bytes now).2 = some pdu ∧ pdu.length < 8 ↔
      pdu = f.bytes ∧ f.offsetUnits = 0 ∧ f.more = false ∧ f.bytes.length < 8 ∧
        (t.expireLocked now).find key = none ∧
          (t.expireLocked now).Accepts key 0 false f.bytes := by
  constructor
  · rintro ⟨hadd, hlt⟩
    obtain ⟨hacc, -⟩ := add_eq_some hadd
    rw [(hinv.length_of_add hadd).1] at hlt
    obtain ⟨hoff, hlen, hfind⟩ :=
      (hinv.expireLocked now).1.find_eq_none_of_furthest_lt hacc hlt
    have hmore : f.more = false := by
      cases hm : f.more with
      | false => rfl
      | true =>
        have halign := hacc.2.1 hm
        have hpos := List.length_pos_of_ne_nil hacc.1
        omega
    rw [hoff, hmore] at hacc hadd
    rw [ReasmTable.add_lone hfind hacc] at hadd
    exact ⟨(Option.some.inj hadd).symm, hoff, hmore, hlen, hfind, hacc⟩
  · rintro ⟨rfl, hoff, hmore, hlen, hfind, hacc⟩
    rw [hoff, hmore]
    exact ⟨ReasmTable.add_lone hfind hacc, hlen⟩

/-! ## The interceptor -/

/-- `make([]byte, n)`: the number of bytes. -/
def makeChecked (n : Int) : Option Nat := if 0 ≤ n then some n.toNat else none

/-- What `copy` leaves in a new slice of `n` bytes. -/
def copyInto (n : Nat) (src : Bytes) : Bytes := src.take n ++ .replicate (n - src.length) 0

/-- `handleEchoRequest`. -/
def handleEchoRequestChecked (pref64 : Pref64) (st : IcmpState) (msg : Bytes)
    (srcAddr pool6Src : Addr16) (now : Int) : Option (IcmpState × Option EchoForward) := do
  let id ← uint16AtChecked msg 4
  let seq ← uint16AtChecked msg 6
  let n ← makeChecked (msg.length - 8)
  let rest ← sliceFromChecked msg 8
  let data := copyInto n rest
  match pref64.extract pool6Src.toList with
  | none => some (st, none)
  | some dstIPv4 =>
    match registerICMPSession st srcAddr pool6Src dstIPv4 id now with
    | (st, none) => some (st, none)
    | (st, some r) => some (st, some ⟨r, dstIPv4, seq, data⟩)

/-- `info.fragOffset == 0 && frag[0] != 128`. -/
def startsOtherChecked (info : ChainInfo) (frag : Bytes) : Option Bool :=
  if info.fragOffset = 0 then (byteAtChecked frag 0).map fun type => type ≠ 128 else some false

/-- The part of `interceptICMPPacket` after the policy checks. -/
def echoPayloadChecked (reasm : ReasmTable) (pkt : Bytes) (info : ChainInfo) (src dst : Addr16)
    (now : Int) : Option (ReasmTable × Payload) := do
  let plen := (← uint16AtChecked pkt 4).toNat
  if plen < 8 ∨ pkt.length - 40 ≠ plen then some (reasm, .drop)
  else if info.isFrag = false then do
    let msg ← sliceFromChecked pkt info.l4Offset
    if msg.length < 8 then some (reasm, .drop)
    else do
      let type ← byteAtChecked msg 0
      if type ≠ 128 then some (reasm, .pass) else some (reasm, checkedEcho src dst msg)
  else do
    let key : ReasmKey := ⟨src, dst, info.fragIdent⟩
    let frag ← sliceFromChecked pkt info.l4Offset
    if frag = [] then some ((reasm.cancel key).1, .drop)
    else do
      if ← startsOtherChecked info frag then
        match reasm.cancel key with
        | (reasm, true) => some (reasm, .drop)
        | (reasm, false) => some (reasm, .pass)
      else match ← reasm.addBounded key info.fragOffset info.fragMore frag now with
        | (reasm, none) => some (reasm, .drop)
        | (reasm, some complete) => do
          let type ← byteAtChecked complete 0
          if type ≠ 128 then some (reasm, .drop) else some (reasm, checkedEcho src dst complete)

/-- `interceptICMPPacket`. -/
def interceptICMPPacketChecked (svc : Service) (icmpConn : Bool) (st : IcmpState)
    (reasm : ReasmTable) (pkt : Bytes) (now : Int) : Option Intercepted :=
  let pass : Intercepted := ⟨st, reasm, false, none⟩
  let drop : Intercepted := ⟨st, reasm, true, none⟩
  if pkt.length < 48 then some pass
  else do
    match ← parseIPv6HeaderChainChecked pkt with
    | (info, .icmpv6) =>
      let dst ← addr16AtChecked pkt 24
      if !svc.pool6Net.contains dst.toList then some pass
      else do
        let src ← addr16AtChecked pkt 8
        if svc.pool6Net.contains src.toList then some drop
        else if !svc.settings.isAllowed src.toList then some drop
        else if !icmpConn then some drop
        else do
          let dstIPv4 ← addr4AtChecked pkt 36
          if svc.settings.isIgnoredDst dstIPv4.toList then some drop
          else match ← echoPayloadChecked reasm pkt info src dst now with
            | (reasm, .pass) => some ⟨st, reasm, false, none⟩
            | (reasm, .drop) => some ⟨st, reasm, true, none⟩
            | (reasm, .echo msg) => do
              let (st, forward) ← handleEchoRequestChecked svc.pref64 st msg src dst now
              some ⟨st, reasm, true, forward⟩
    | _ => some pass

theorem handleEchoRequestChecked_eq (pref64 : Pref64) (st : IcmpState) {msg : Bytes}
    (src dst : Addr16) (now : Int) (h : 8 ≤ msg.length) :
    handleEchoRequestChecked pref64 st msg src dst now =
      some (handleEchoRequest pref64 st msg src dst now) := by
  have hmake : makeChecked ((msg.length : Int) - 8) = some (msg.length - 8) := by
    rw [makeChecked, if_pos (by omega)]
    congr 1
    omega
  have hcopy : copyInto (msg.length - 8) (msg.drop 8) = msg.drop 8 := by
    rw [copyInto, List.length_drop, Nat.sub_self, List.take_of_length_le (by simp)]
    exact List.append_nil _
  unfold handleEchoRequestChecked handleEchoRequest
  rw [uint16AtChecked_eq (by omega), uint16AtChecked_eq (by omega), hmake,
    sliceFromChecked_eq h]
  simp only [Option.bind_eq_bind, Option.bind_some, hcopy]
  cases pref64.extract dst.toList with
  | none => rfl
  | some dstIPv4 =>
    dsimp only
    cases registerICMPSession st src dst dstIPv4 (uint16At msg 4) now with
    | mk st r => cases r <;> rfl

theorem handleEchoRequestChecked_eq_none (pref64 : Pref64) (st : IcmpState) {msg : Bytes}
    (src dst : Addr16) (now : Int) (h : msg.length < 8) :
    handleEchoRequestChecked pref64 st msg src dst now = none := by
  have hseq : uint16AtChecked msg 6 = none := if_neg (by omega)
  unfold handleEchoRequestChecked
  rw [hseq]
  cases uint16AtChecked msg 4 <;> rfl

theorem startsOtherChecked_eq (info : ChainInfo) {frag : Bytes} (hne : frag ≠ []) :
    startsOtherChecked info frag = some (decide (info.fragOffset = 0 ∧ byteAt frag 0 ≠ 128)) := by
  unfold startsOtherChecked
  rw [byteAtChecked_eq (List.length_pos_of_ne_nil hne)]
  split_ifs with hzero <;> simp [hzero]

theorem echoPayloadChecked_eq {reasm : ReasmTable} (hinv : ReasmInv reasm) {pkt : Bytes}
    (hlen : 40 ≤ pkt.length) {info : ChainInfo} (hoff : info.l4Offset ≤ pkt.length)
    (src dst : Addr16) (now : Int) :
    echoPayloadChecked reasm pkt info src dst now =
      some (echoPayload reasm pkt info src dst now) := by
  unfold echoPayloadChecked echoPayload
  rw [uint16AtChecked_eq (by omega), sliceFromChecked_eq hoff]
  simp only [Option.bind_eq_bind, Option.bind_some]
  generalize pkt.drop info.l4Offset = msg
  by_cases hplen : (uint16At pkt 4).toNat < 8 ∨ pkt.length - 40 ≠ (uint16At pkt 4).toNat
  · rw [if_pos hplen, if_pos hplen]
  rw [if_neg hplen, if_neg hplen]
  by_cases hwhole : info.isFrag = false
  · rw [if_pos hwhole, if_pos hwhole]
    by_cases hshort : msg.length < 8
    · rw [if_pos hshort, if_pos hshort]
    · rw [if_neg hshort, if_neg hshort, byteAtChecked_eq (by omega), Option.bind_some]
      split_ifs <;> rfl
  rw [if_neg hwhole, if_neg hwhole]
  by_cases hempty : msg = []
  · rw [if_pos hempty, if_pos hempty]
  rw [if_neg hempty, if_neg hempty, startsOtherChecked_eq info hempty, Option.bind_some,
    ReasmTable.addBounded_eq]
  by_cases htype : info.fragOffset = 0 ∧ byteAt msg 0 ≠ 128
  · rw [if_pos htype, if_pos (decide_eq_true htype)]
    cases reasm.cancel ⟨src, dst, info.fragIdent⟩ with
    | mk reasm' found => cases found <;> rfl
  · rw [if_neg htype, if_neg (by simpa using htype), Option.bind_some]
    cases hadd : reasm.add ⟨src, dst, info.fragIdent⟩ info.fragOffset info.fragMore msg now with
    | mk reasm' pdu =>
      cases pdu with
      | none => rfl
      | some complete =>
        have hne := (hinv.length_of_add (f := ⟨info.fragOffset, info.fragMore, msg⟩)
          (congrArg Prod.snd hadd)).2
        dsimp only
        rw [byteAtChecked_eq (List.length_pos_of_ne_nil hne), Option.bind_some]
        split_ifs <;> rfl

/-! ## A call -/

/-- One call of `interceptICMPPacket`: the settings and the session tables that
it finds, the frame and the time. -/
structure InterceptCall where
  svc : Service
  icmpConn : Bool
  st : IcmpState
  pkt : Bytes
  now : Int

namespace InterceptCall

def src (c : InterceptCall) : Addr16 := addr16At c.pkt 8

def dst (c : InterceptCall) : Addr16 := addr16At c.pkt 24

def info (c : InterceptCall) : ChainInfo := (parseIPv6HeaderChain c.pkt).1

/-- What stands behind the last header of the chain. -/
def upper (c : InterceptCall) : Bytes := c.pkt.drop c.info.l4Offset

def key (c : InterceptCall) : ReasmKey := ⟨c.src, c.dst, c.info.fragIdent⟩

/-- What the call does. -/
def result (c : InterceptCall) (reasm : ReasmTable) : Intercepted :=
  interceptICMPPacket c.svc c.icmpConn c.st reasm c.pkt c.now

/-- What the call does, or `none` if it goes out of range. -/
def resultChecked (c : InterceptCall) (reasm : ReasmTable) : Option Intercepted :=
  interceptICMPPacketChecked c.svc c.icmpConn c.st reasm c.pkt c.now

/-- The call gets past the policy checks. -/
def Admitted (c : InterceptCall) : Prop :=
  48 ≤ c.pkt.length ∧ (parseIPv6HeaderChain c.pkt).2 = .icmpv6 ∧
    PairAdmitted c.svc c.src c.dst ∧ c.icmpConn = true ∧
    c.svc.settings.isIgnoredDst (addr4At c.pkt 36).toList = false

instance (c : InterceptCall) : Decidable c.Admitted :=
  inferInstanceAs (Decidable (_ ∧ _ ∧ _ ∧ _ ∧ _))

/-- What becomes of the payload. -/
def payload (c : InterceptCall) (reasm : ReasmTable) : ReasmTable × Payload :=
  echoPayload reasm c.pkt c.info c.src c.dst c.now

/-- The call enters `handleEchoRequest` with the message. -/
def Enters (c : InterceptCall) (reasm : ReasmTable) (msg : Bytes) : Prop :=
  c.Admitted ∧ (c.payload reasm).2 = .echo msg

/-- The call stays in range, and enters `handleEchoRequest` with a whole echo
header only. -/
structure InRange (c : InterceptCall) (reasm : ReasmTable) : Prop where
  result : c.resultChecked reasm = some (c.result reasm)
  echo : ∀ msg, c.Enters reasm msg → 8 ≤ msg.length

/-- The frame carries less than eight bytes of an echo request in one fragment
that is the first and the last, the checksum is right, and the table has room for
it and no entry for its key. -/
def LoneShortEcho (c : InterceptCall) (reasm : ReasmTable) : Prop :=
  c.Admitted ∧ 8 ≤ (uint16At c.pkt 4).toNat ∧ c.pkt.length - 40 = (uint16At c.pkt 4).toNat ∧
    c.info.isFrag = true ∧ c.info.fragOffset = 0 ∧ c.info.fragMore = false ∧
    c.upper.length < 8 ∧ byteAt c.upper 0 = 128 ∧
    ipv6UpperLayerChecksum c.src.toList c.dst.toList 58 c.upper = 0 ∧
    (reasm.expireLocked c.now).find c.key = none ∧
    (reasm.expireLocked c.now).Accepts c.key 0 false c.upper

instance (c : InterceptCall) (reasm : ReasmTable) : Decidable (c.LoneShortEcho reasm) :=
  inferInstanceAs (Decidable (_ ∧ _))

variable {c : InterceptCall} {reasm : ReasmTable}

theorem result_eq (c : InterceptCall) (reasm : ReasmTable) (hlen : 48 ≤ c.pkt.length)
    (hchain : (parseIPv6HeaderChain c.pkt).2 = .icmpv6) :
    c.result reasm =
      if !c.svc.pool6Net.contains c.dst.toList then ⟨c.st, reasm, false, none⟩
      else if c.svc.pool6Net.contains c.src.toList then ⟨c.st, reasm, true, none⟩
      else if !c.svc.settings.isAllowed c.src.toList then ⟨c.st, reasm, true, none⟩
      else if !c.icmpConn then ⟨c.st, reasm, true, none⟩
      else if c.svc.settings.isIgnoredDst (addr4At c.pkt 36).toList then ⟨c.st, reasm, true, none⟩
      else match c.payload reasm with
        | (reasm, .pass) => ⟨c.st, reasm, false, none⟩
        | (reasm, .drop) => ⟨c.st, reasm, true, none⟩
        | (reasm, .echo msg) =>
          match handleEchoRequest c.svc.pref64 c.st msg c.src c.dst c.now with
          | (st, forward) => ⟨st, reasm, true, forward⟩ := by
  have hparse : parseIPv6HeaderChain c.pkt = (c.info, .icmpv6) := Prod.ext rfl hchain
  unfold result interceptICMPPacket
  rw [if_neg (by omega), hparse]
  rfl

theorem resultChecked_eq (c : InterceptCall) (reasm : ReasmTable) (hlen : 48 ≤ c.pkt.length)
    (hchain : (parseIPv6HeaderChain c.pkt).2 = .icmpv6) :
    c.resultChecked reasm =
      if !c.svc.pool6Net.contains c.dst.toList then some ⟨c.st, reasm, false, none⟩
      else if c.svc.pool6Net.contains c.src.toList then some ⟨c.st, reasm, true, none⟩
      else if !c.svc.settings.isAllowed c.src.toList then some ⟨c.st, reasm, true, none⟩
      else if !c.icmpConn then some ⟨c.st, reasm, true, none⟩
      else if c.svc.settings.isIgnoredDst (addr4At c.pkt 36).toList then
        some ⟨c.st, reasm, true, none⟩
      else (echoPayloadChecked reasm c.pkt c.info c.src c.dst c.now).bind fun res =>
        match res with
        | (reasm, .pass) => some ⟨c.st, reasm, false, none⟩
        | (reasm, .drop) => some ⟨c.st, reasm, true, none⟩
        | (reasm, .echo msg) =>
          (handleEchoRequestChecked c.svc.pref64 c.st msg c.src c.dst c.now).bind fun r =>
            some ⟨r.1, reasm, true, r.2⟩ := by
  have hparse : parseIPv6HeaderChain c.pkt = (c.info, .icmpv6) := Prod.ext rfl hchain
  unfold resultChecked interceptICMPPacketChecked
  rw [if_neg (by omega), parseIPv6HeaderChainChecked_eq, hparse, addr16AtChecked_eq (by omega),
    addr16AtChecked_eq (by omega), addr4AtChecked_eq (by omega)]
  simp only [Option.bind_eq_bind, Option.bind_some]
  rfl

theorem results_of_other (h : c.pkt.length < 48 ∨ (parseIPv6HeaderChain c.pkt).2 ≠ .icmpv6)
    (reasm : ReasmTable) :
    c.result reasm = ⟨c.st, reasm, false, none⟩ ∧
      c.resultChecked reasm = some ⟨c.st, reasm, false, none⟩ := by
  unfold result resultChecked interceptICMPPacket interceptICMPPacketChecked
  by_cases hlen : c.pkt.length < 48
  · rw [if_pos hlen, if_pos hlen]
    exact ⟨rfl, rfl⟩
  rw [if_neg hlen, if_neg hlen, parseIPv6HeaderChainChecked_eq]
  have hchain := h.resolve_left hlen
  cases hparse : parseIPv6HeaderChain c.pkt with
  | mk info status =>
    rw [hparse] at hchain
    cases status with
    | icmpv6 => exact absurd rfl hchain
    | other => exact ⟨rfl, rfl⟩
    | invalid => exact ⟨rfl, rfl⟩

theorem resultChecked_of_not_admitted (h : ¬ c.Admitted) (reasm : ReasmTable) :
    c.resultChecked reasm = some (c.result reasm) := by
  by_cases hother : c.pkt.length < 48 ∨ (parseIPv6HeaderChain c.pkt).2 ≠ .icmpv6
  · obtain ⟨hresult, hchecked⟩ := results_of_other hother reasm
    rw [hresult, hchecked]
  rw [not_or, not_lt, not_not] at hother
  obtain ⟨hlen, hchain⟩ := hother
  rw [resultChecked_eq c reasm hlen hchain, result_eq c reasm hlen hchain]
  by_cases hdst : (!c.svc.pool6Net.contains c.dst.toList) = true
  · rw [if_pos hdst, if_pos hdst]
  rw [if_neg hdst, if_neg hdst]
  by_cases hsrc : c.svc.pool6Net.contains c.src.toList = true
  · rw [if_pos hsrc, if_pos hsrc]
  rw [if_neg hsrc, if_neg hsrc]
  by_cases hallowed : (!c.svc.settings.isAllowed c.src.toList) = true
  · rw [if_pos hallowed, if_pos hallowed]
  rw [if_neg hallowed, if_neg hallowed]
  by_cases hconn : (!c.icmpConn) = true
  · rw [if_pos hconn, if_pos hconn]
  rw [if_neg hconn, if_neg hconn]
  by_cases hignored : c.svc.settings.isIgnoredDst (addr4At c.pkt 36).toList = true
  · rw [if_pos hignored, if_pos hignored]
  rw [Bool.not_eq_true, Bool.not_eq_false'] at hdst hallowed hconn
  rw [Bool.not_eq_true] at hsrc hignored
  exact absurd ⟨hlen, hchain, ⟨hdst, hsrc, hallowed⟩, hconn, hignored⟩ h

theorem payloadChecked_eq (h : c.Admitted) (hinv : ReasmInv reasm) :
    echoPayloadChecked reasm c.pkt c.info c.src c.dst c.now = some (c.payload reasm) := by
  have hlen := h.1
  have hoff : c.info.l4Offset ≤ c.pkt.length := parse_l4Offset_le (by rw [h.2.1]; decide)
  exact echoPayloadChecked_eq hinv (by omega) hoff ..

/-- A call that gets past the policy checks leaves the table that the payload has
left. -/
theorem result_reasm (h : c.Admitted) (reasm : ReasmTable) :
    (c.result reasm).reasm = (c.payload reasm).1 := by
  obtain ⟨hlen, hchain, ⟨hdst, hsrc, hallowed⟩, hconn, hignored⟩ := h
  rw [result_eq c reasm hlen hchain, hdst, hsrc, hallowed, hconn, hignored]
  simp only [Bool.not_true, Bool.false_eq_true, if_false]
  cases c.payload reasm with
  | mk reasm' payload => cases payload <;> rfl

/-- A call that gets past the policy checks goes out of range if it enters
`handleEchoRequest` with a short message. -/
theorem resultChecked_of_admitted (h : c.Admitted) (hinv : ReasmInv reasm) :
    c.resultChecked reasm =
      match (c.payload reasm).2 with
      | .echo msg => if msg.length < 8 then none else some (c.result reasm)
      | _ => some (c.result reasm) := by
  have hpayload := payloadChecked_eq h hinv
  obtain ⟨hlen, hchain, ⟨hdst, hsrc, hallowed⟩, hconn, hignored⟩ := h
  rw [resultChecked_eq c reasm hlen hchain, result_eq c reasm hlen hchain, hdst, hsrc, hallowed,
    hconn, hignored, hpayload, Option.bind_some]
  simp only [Bool.not_true, Bool.false_eq_true, if_false]
  cases c.payload reasm with
  | mk reasm' payload =>
    cases payload with
    | pass => rfl
    | drop => rfl
    | echo msg =>
      dsimp only
      split_ifs with hshort
      · rw [handleEchoRequestChecked_eq_none _ _ _ _ _ hshort]
        rfl
      · rw [handleEchoRequestChecked_eq _ _ _ _ _ (by omega)]
        rfl

theorem eight_le_of_whole (hwhole : c.info.isFrag = false) {msg : Bytes}
    (h : (c.payload reasm).2 = .echo msg) : 8 ≤ msg.length := by
  unfold payload echoPayload checkedEcho at h
  dsimp only at h
  split_ifs at h with hplen hshort htype hsum
  obtain rfl := Payload.echo.inj h
  omega

/-- A fragment that ends in an echo request. -/
theorem payload_eq_echo_iff (hchain : (parseIPv6HeaderChain c.pkt).2 = .icmpv6)
    (hfrag : c.info.isFrag = true) {msg : Bytes} :
    (c.payload reasm).2 = .echo msg ↔
      8 ≤ (uint16At c.pkt 4).toNat ∧ c.pkt.length - 40 = (uint16At c.pkt 4).toNat ∧
        c.upper ≠ [] ∧ (c.info.fragOffset = 0 → byteAt c.upper 0 = 128) ∧
        (reasm.add c.key c.info.fragOffset c.info.fragMore c.upper c.now).2 = some msg ∧
        byteAt msg 0 = 128 ∧
        ipv6UpperLayerChecksum c.src.toList c.dst.toList 58 msg = 0 := by
  have hparse : parseIPv6HeaderChain c.pkt = (c.info, .icmpv6) := Prod.ext rfl hchain
  by_cases hplen : 8 ≤ (uint16At c.pkt 4).toNat ∧ c.pkt.length - 40 = (uint16At c.pkt 4).toNat
  · have hfeed : (c.payload reasm).2 = .echo msg ↔
        (feedFragment reasm c.pkt c.now).2 = some msg ∧ byteAt msg 0 = 128 ∧
          ipv6UpperLayerChecksum c.src.toList c.dst.toList 58 msg = 0 :=
      (echoPayload_eq_feedFragment hparse hfrag hplen).2 msg
    have hpath : (feedFragment reasm c.pkt c.now).2 = some msg ↔
        c.upper ≠ [] ∧ (c.info.fragOffset = 0 → byteAt c.upper 0 = 128) ∧
          (reasm.add c.key c.info.fragOffset c.info.fragMore c.upper c.now).2 = some msg := by
      unfold feedFragment
      rw [hparse]
      show (if c.upper = [] ∨ (c.info.fragOffset = 0 ∧ byteAt c.upper 0 ≠ 128) then
        ((reasm.cancel c.key).1, none)
        else reasm.add c.key c.info.fragOffset c.info.fragMore c.upper c.now).2 = some msg ↔ _
      split_ifs with hbad
      · constructor
        · rintro ⟨⟩
        · rintro ⟨hne, hzero, -⟩
          rcases hbad with hnil | ⟨hoff, htype⟩
          · exact absurd hnil hne
          · exact absurd (hzero hoff) htype
      · rw [not_or, not_and, not_not] at hbad
        exact ⟨fun hadd => ⟨hbad.1, hbad.2, hadd⟩, fun hadd => hadd.2.2⟩
    refine hfeed.trans ?_
    rw [hpath]
    exact ⟨fun ⟨⟨hne, hzero, hadd⟩, hmsg⟩ => ⟨hplen.1, hplen.2, hne, hzero, hadd, hmsg⟩,
      fun ⟨_, _, hne, hzero, hadd, hmsg⟩ => ⟨⟨hne, hzero, hadd⟩, hmsg⟩⟩
  · constructor
    · intro hecho
      unfold payload echoPayload at hecho
      dsimp only at hecho
      rw [if_pos (by omega)] at hecho
      cases hecho
    · rintro ⟨hmin, hlen, -⟩
      exact absurd ⟨hmin, hlen⟩ hplen

/-- The calls that enter `handleEchoRequest` with a short message. -/
theorem enters_short_iff (hinv : ReasmInv reasm) :
    (∃ msg, c.Enters reasm msg ∧ msg.length < 8) ↔ c.LoneShortEcho reasm := by
  constructor
  · rintro ⟨msg, ⟨hadm, hecho⟩, hshort⟩
    have hfrag : c.info.isFrag = true := by
      rw [← Bool.not_eq_false]
      intro hwhole
      have := eight_le_of_whole hwhole hecho
      omega
    obtain ⟨hmin, hlen, hne, -, hadd, htype, hsum⟩ :=
      (payload_eq_echo_iff hadm.2.1 hfrag).1 hecho
    obtain ⟨rfl, hzero, hmore, hlt, hfind, hacc⟩ :=
      (hinv.short_iff (f := ⟨c.info.fragOffset, c.info.fragMore, c.upper⟩)).1 ⟨hadd, hshort⟩
    exact ⟨hadm, hmin, hlen, hfrag, hzero, hmore, hlt, htype, hsum, hfind, hacc⟩
  · rintro ⟨hadm, hmin, hlen, hfrag, hzero, hmore, hlt, htype, hsum, hfind, hacc⟩
    have hadd := (hinv.short_iff (f := ⟨c.info.fragOffset, c.info.fragMore, c.upper⟩)).2
      ⟨rfl, hzero, hmore, hlt, hfind, hacc⟩
    refine ⟨c.upper, ⟨hadm, ?_⟩, hlt⟩
    exact (payload_eq_echo_iff hadm.2.1 hfrag).2
      ⟨hmin, hlen, hacc.1, fun _ => htype, hadd.1, htype, hsum⟩

theorem resultChecked_cases (hinv : ReasmInv reasm) :
    (c.LoneShortEcho reasm ∧ c.resultChecked reasm = none) ∨
      (¬ c.LoneShortEcho reasm ∧ c.resultChecked reasm = some (c.result reasm)) := by
  rw [← enters_short_iff hinv]
  by_cases hadm : c.Admitted
  · rw [resultChecked_of_admitted hadm hinv]
    unfold Enters
    cases (c.payload reasm).2 with
    | pass => simp
    | drop => simp
    | echo msg =>
      by_cases hshort : msg.length < 8
      · exact .inl ⟨⟨msg, ⟨hadm, rfl⟩, hshort⟩, if_pos hshort⟩
      · refine .inr ⟨?_, if_neg hshort⟩
        rintro ⟨msg', ⟨-, heq⟩, hshort'⟩
        obtain rfl := Payload.echo.inj heq
        exact hshort hshort'
  · exact .inr ⟨fun ⟨_, henters, _⟩ => hadm henters.1, resultChecked_of_not_admitted hadm reasm⟩

end InterceptCall

/-! ## Every frame, in every state -/

/-- The table after a call.  `runInterceptor` recovers from a panic and drops the
frame; the table stays as `add` has left it. -/
def runInterceptor (reasm : ReasmTable) (c : InterceptCall) : Option ReasmTable :=
  match c.resultChecked reasm with
  | some r => some r.reasm
  | none => (echoPayloadChecked reasm c.pkt c.info c.src c.dst c.now).map Prod.fst

/-- What follows the policy checks is at most one call on the table. -/
theorem ReasmInv.echoPayload {reasm : ReasmTable} (hinv : ReasmInv reasm) (pkt : Bytes)
    (info : ChainInfo) (src dst : Addr16) (now : Int) :
    ReasmInv (echoPayload reasm pkt info src dst now).1 := by
  have hcancel := hinv.cancel ⟨src, dst, info.fragIdent⟩
  have hadd := hinv.add ⟨src, dst, info.fragIdent⟩ info.fragOffset info.fragMore
    (pkt.drop info.l4Offset) now
  unfold Nat64.echoPayload
  dsimp only
  split_ifs with hplen hwhole hshort htype hempty hfirst
  · exact hinv
  · exact hinv
  · exact hinv
  · exact hinv
  · exact hcancel
  · generalize reasm.cancel _ = res at hcancel ⊢
    obtain ⟨reasm', found⟩ := res
    cases found <;> exact hcancel
  · generalize reasm.add _ _ _ _ _ = res at hadd ⊢
    obtain ⟨reasm', pdu⟩ := res
    cases pdu with
    | none => exact hadd
    | some complete =>
      dsimp only
      split_ifs <;> exact hadd

theorem ReasmInv.result {reasm : ReasmTable} (hinv : ReasmInv reasm) (c : InterceptCall) :
    ReasmInv (c.result reasm).reasm := by
  have hpayload := hinv.echoPayload c.pkt c.info c.src c.dst c.now
  by_cases hother : c.pkt.length < 48 ∨ (parseIPv6HeaderChain c.pkt).2 ≠ .icmpv6
  · rwa [(InterceptCall.results_of_other hother reasm).1]
  rw [not_or, not_lt, not_not] at hother
  rw [InterceptCall.result_eq c reasm hother.1 hother.2]
  change ReasmInv (c.payload reasm).1 at hpayload
  generalize c.payload reasm = res at hpayload ⊢
  obtain ⟨reasm', payload⟩ := res
  split_ifs
  all_goals first | exact hinv | cases payload <;> exact hpayload

theorem runInterceptor_eq {reasm : ReasmTable} (hinv : ReasmInv reasm) (c : InterceptCall) :
    runInterceptor reasm c = some (c.result reasm).reasm := by
  unfold runInterceptor
  rcases c.resultChecked_cases hinv with ⟨hshort, hnone⟩ | ⟨-, hsome⟩
  · have hadm : c.Admitted := hshort.1
    rw [hnone, InterceptCall.result_reasm hadm]
    show (echoPayloadChecked reasm c.pkt c.info c.src c.dst c.now).map Prod.fst = _
    rw [InterceptCall.payloadChecked_eq hadm hinv, Option.map_some]
  · rw [hsome]

/-- In every state that frames have left the table in, whatever the settings and
the session tables are, the interceptor stays in range on a frame and hands
`handleEchoRequest` a whole echo header, exactly if the frame is not a lone
fragment with less than eight bytes of an echo request. -/
theorem inRange_iff {calls : List InterceptCall} {reasm : ReasmTable}
    (hrun : run runInterceptor {} calls = some reasm) (c : InterceptCall) :
    c.InRange reasm ↔ ¬ c.LoneShortEcho reasm := by
  have hinv : ReasmInv reasm := by
    refine run_invariant_of_step (fun reasm c reasm' hinv hstep => ?_) ReasmInv.init hrun
    rw [runInterceptor_eq hinv] at hstep
    exact Option.some.inj hstep ▸ hinv.result c
  constructor
  · intro hrange hshort
    obtain ⟨msg, henters, hlt⟩ := (InterceptCall.enters_short_iff hinv).2 hshort
    have := hrange.echo msg henters
    omega
  · intro hnot
    refine ⟨?_, fun msg henters => ?_⟩
    · rcases c.resultChecked_cases hinv with ⟨hshort, -⟩ | ⟨-, hsome⟩
      · exact absurd hshort hnot
      · exact hsome
    · by_contra hlt
      exact hnot ((InterceptCall.enters_short_iff hinv).1 ⟨msg, henters, by omega⟩)

/-- A call with one fragment from `200::1` to `1.2.3.4` in the pool, on a service
with a raw socket and no session. -/
def fragmentCall (svc : Service) (f : Fragment) : InterceptCall where
  svc := svc
  icmpConn := true
  st := IcmpState.init 0
  pkt := fragmentPacket (.built 64 pingSrc pingDst96) [] 58 9 f
  now := 0

/-- An echo request of sixteen bytes in two fragments. -/
theorem inRange_iff_twoFragments :
    ∃ svc ∈ (newService asciiCase (poolConfig "300:1:2:3::/96") ["200::/7"] []).toOption,
      ∃ reasm ∈ run runInterceptor {}
          [fragmentCall svc ⟨0, true, [128, 0, 98, 140, 0, 7, 0, 1]⟩],
        (fragmentCall svc ⟨1, false, [5, 5, 5, 5, 5, 5, 5, 5]⟩).Enters reasm
          [128, 0, 98, 140, 0, 7, 0, 1, 5, 5, 5, 5, 5, 5, 5, 5] ∧
        (fragmentCall svc ⟨1, false, [5, 5, 5, 5, 5, 5, 5, 5]⟩).InRange reasm := by
  have hrun : ∃ svc ∈ (newService asciiCase (poolConfig "300:1:2:3::/96") ["200::/7"]
      []).toOption, ∃ reasm ∈ run runInterceptor {}
          [fragmentCall svc ⟨0, true, [128, 0, 98, 140, 0, 7, 0, 1]⟩],
        (fragmentCall svc ⟨1, false, [5, 5, 5, 5, 5, 5, 5, 5]⟩).Enters reasm
          [128, 0, 98, 140, 0, 7, 0, 1, 5, 5, 5, 5, 5, 5, 5, 5] ∧
        ¬ (fragmentCall svc ⟨1, false, [5, 5, 5, 5, 5, 5, 5, 5]⟩).LoneShortEcho reasm := by
    unfold InterceptCall.Enters
    decide +kernel
  obtain ⟨svc, hsvc, reasm, hreasm, henters, hnot⟩ := hrun
  exact ⟨svc, hsvc, reasm, hreasm, henters, (inRange_iff hreasm _).2 hnot⟩

/-- Four bytes of an echo request in one fragment, with a correct checksum, make a
new service panic. -/
theorem lone_short_echo_panics :
    ∃ svc ∈ (newService asciiCase (poolConfig "300:1:2:3::/96") ["200::/7"] []).toOption,
      (fragmentCall svc ⟨0, false, [128, 0, 118, 180]⟩).resultChecked {} = none ∧
        ¬ (fragmentCall svc ⟨0, false, [128, 0, 118, 180]⟩).InRange {} := by
  have hpanics : ∃ svc ∈ (newService asciiCase (poolConfig "300:1:2:3::/96") ["200::/7"]
      []).toOption,
      ((fragmentCall svc ⟨0, false, [128, 0, 118, 180]⟩).resultChecked {}).isNone = true := by
    decide +kernel
  obtain ⟨svc, hsvc, hnone⟩ := hpanics
  rw [Option.isNone_iff_eq_none] at hnone
  refine ⟨svc, hsvc, hnone, fun hrange => ?_⟩
  rw [hrange.result] at hnone
  cases hnone

end Ydn64.Nat64
