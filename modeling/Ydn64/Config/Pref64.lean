import Ydn64.GoStd.ParseIP

/-!
# The NAT64 prefix and its address layout

`src/config/pref64.go`.  A prefix of 32, 40, 48, 56, 64 or 96 bits embeds an
IPv4 address into an IPv6 address: the four octets follow the prefix, and for
every length below 96 they step over octet 8, which is zero.  `Pref64` is a
prefix that `parsePref64` accepted, so it carries what the parser has checked:
a supported length, the mask of that length and a network number under it.

`extract` answers an IPv4 address only for an address of the pool in canonical
form, that is for an address that `embed` builds from the answer
(`extract_eq_some_iff`).  The whole translator reads and writes pool addresses
through these two functions, with one exception in the echo path.
-/

namespace Ydn64.Config

open Ydn64.GoStd

/-! ## The layout -/

/-- `pref64UByte`: the octet that is zero for every length below 96. -/
def pref64UByte : Nat := 8

/-- `pref64V4Offsets`: where the four octets of the IPv4 address stand. -/
def pref64V4Offsets : Nat → Option (List.Vector Nat 4)
  | 32 => some ⟨[4, 5, 6, 7], rfl⟩
  | 40 => some ⟨[5, 6, 7, 9], rfl⟩
  | 48 => some ⟨[6, 7, 9, 10], rfl⟩
  | 56 => some ⟨[7, 9, 10, 11], rfl⟩
  | 64 => some ⟨[9, 10, 11, 12], rfl⟩
  | 96 => some ⟨[12, 13, 14, 15], rfl⟩
  | _ => none

/-- The lengths that have a layout. -/
def pref64Lengths : List Nat := [32, 40, 48, 56, 64, 96]

theorem mem_pref64Lengths_of_offsets {bits : Nat} {offs : List.Vector Nat 4}
    (h : pref64V4Offsets bits = some offs) : bits ∈ pref64Lengths := by
  unfold pref64V4Offsets at h
  split at h <;> first | decide | exact absurd h (by simp)

/-- `simpleMaskLength`: the number of leading ones of a mask of leading ones. -/
def simpleMaskLength : Bytes → Option Nat
  | [] => some 0
  | b :: rest =>
    if b = 0xff then (simpleMaskLength rest).map (8 + ·)
    else if rest.all (· == 0) then (List.range 8).find? fun n => maskByte n == b
    else none

theorem simpleMaskLength_cidrMask :
    ∀ n ≤ 128, simpleMaskLength (cidrMask n 128) = some n := by
  decide +kernel

/-- `IPMask.Size`, the first result; zero for a mask of another shape. -/
def maskOnes (mask : Bytes) : Nat := (simpleMaskLength mask).getD 0

/-! ## Accepted prefixes -/

/-- What `ParsePref64` has checked of a network and a length. -/
structure Pref64Ok (net : IPNet) (bits : Nat) : Prop where
  bits_mem : bits ∈ pref64Lengths
  mask_eq : net.mask = cidrMask bits 128
  ip_length : net.ip.length = 16
  /-- The network number has no bit outside the mask. -/
  masked : andBytes net.ip net.mask = net.ip
  /-- The network number is no IPv4 address in disguise. -/
  not_mapped : to4 net.ip = none

/-- `Pref64`. -/
structure Pref64 where
  net : IPNet
  bits : Nat
  ok : Pref64Ok net bits

instance : DecidableEq Pref64 := fun p q =>
  decidable_of_iff (p.net = q.net ∧ p.bits = q.bits) <| by
    constructor
    · rintro ⟨h1, h2⟩
      cases p
      cases q
      simp_all
    · rintro rfl
      exact ⟨rfl, rfl⟩

theorem cidrMask_of_mem {bits : Nat} (h : bits ∈ pref64Lengths) :
    cidrMask bits 128
      = List.replicate (bits / 8) 0xff ++ List.replicate (16 - bits / 8) 0 := by
  simp only [pref64Lengths, List.mem_cons, List.not_mem_nil, or_false] at h
  rcases h with rfl | rfl | rfl | rfl | rfl | rfl <;> decide

theorem andBytes_octetMask {ip : IP} (h : ip.length = 16) {k : Nat} (hk : k ≤ 16) :
    andBytes ip (List.replicate k 0xff ++ List.replicate (16 - k) 0)
      = ip.take k ++ List.replicate (16 - k) 0 := by
  refine List.ext_getElem (by simp [andBytes, h, hk]) fun i h1 h2 => ?_
  simp only [andBytes, List.getElem_zipWith, List.getElem_append,
    List.length_replicate, List.length_take, List.getElem_replicate,
    List.getElem_take]
  have hki : i < k ↔ i < min k ip.length := by rw [h]; omega
  by_cases hi : i < k
  · rw [dif_pos hi, dif_pos (hki.1 hi)]
    exact UInt8.and_neg_one
  · rw [dif_neg hi, dif_neg (fun hc => hi (hki.2 hc)), UInt8.and_zero]

/-- The network that `ParseCIDR` builds from an IPv6 text of a supported length
is as `Pref64Ok` says. -/
theorem pref64Ok_of_parseCIDR {s : String} {ip : IP} {net : IPNet}
    {offs : List.Vector Nat 4} (h : parseCIDR s = some (ip, net))
    (h6 : to4 ip = none) (ho : pref64V4Offsets (maskOnes net.mask) = some offs) :
    Pref64Ok net (maskOnes net.mask) := by
  obtain ⟨hlen, ones, hones, rfl⟩ := parseCIDR_ipv6 h h6
  have hm : maskOnes (cidrMask ones 128) = ones := by
    rw [maskOnes, simpleMaskLength_cidrMask ones hones, Option.getD_some]
  simp only [hm] at ho ⊢
  have hbits := mem_pref64Lengths_of_offsets ho
  have hmaskLen : (cidrMask ones 128).length = 16 := cidrMask_length _ _
  have hk : ones / 8 ≤ 16 := by omega
  have hnet : andBytes ip (cidrMask ones 128)
      = ip.take (ones / 8) ++ List.replicate (16 - ones / 8) 0 := by
    rw [cidrMask_of_mem hbits, andBytes_octetMask hlen hk]
  have hnetLen : (andBytes ip (cidrMask ones 128)).length = 16 := by
    simp [andBytes, hlen, hmaskLen]
  refine ⟨hbits, rfl, hnetLen, ?_, to4_eq_none_of_length hnetLen ?_⟩
  · refine List.ext_getElem (by simp [andBytes, hlen, hmaskLen]) fun i h1 h2 => ?_
    simp only [andBytes, List.getElem_zipWith, UInt8.and_assoc, UInt8.and_self]
  · intro hc
    rw [hnet] at hc
    rcases Nat.lt_or_ge (ones / 8) 12 with hlt | hge
    · -- Below 96 the mask clears octet 10, which the mapped prefix needs.
      have h8 : ones / 8 ≤ 8 := by
        simp only [pref64Lengths, List.mem_cons, List.not_mem_nil, or_false] at hbits
        omega
      have h10 := congrArg (fun l => l.getD 10 1) hc
      simp [List.getD_eq_getElem?_getD, List.getElem?_append, hlen, v4InV6Prefix,
        min_eq_left hk, show ¬ 10 < ones / 8 by omega,
        show 10 - ones / 8 < 16 - ones / 8 by omega] at h10
    · -- At 96 the mask keeps the first twelve octets.
      rw [List.take_append_of_le_length (by simp [hlen]; omega), List.take_take,
        min_eq_left hge] at hc
      rw [to4, if_neg (by omega), if_pos ⟨hlen, hc⟩] at h6
      exact absurd h6 (by simp)

/-! ## Reading a prefix -/

/-- The errors of `ParsePref64` and `ParsePref64Addr`, each with the text that
was refused. -/
inductive Pref64Error where
  /-- "is not a valid CIDR prefix" -/
  | notCIDR (s : String)
  /-- "must be an IPv6 prefix" -/
  | notIPv6Prefix (s : String)
  /-- "has unsupported prefix length" -/
  | unsupportedLength (s : String) (ones : Nat)
  /-- "has non-zero bits outside the prefix and embedded IPv4 region" -/
  | dirtyBits (s : String)
  /-- "is not a valid IPv6 address" -/
  | notAddress (s : String)
  /-- "must be an IPv6 address" -/
  | notIPv6Address (s : String)
  /-- "must be a /96 network" -/
  | notSlash96 (s : String)
  deriving DecidableEq, Repr

/-- The octets that `ParsePref64` requires to be zero: neither prefix nor part
of the embedded address. -/
def cleanOutside (bits : Nat) (offs : List.Vector Nat 4) (addr : Bytes) : Bool :=
  (List.range 16).all fun i =>
    i < bits / 8 || offs.toList.contains i || addr.getD i 0 == 0

/-- `ParsePref64`. -/
def parsePref64 (s : String) : Except Pref64Error Pref64 :=
  match h : parseCIDR s with
  | none => .error (.notCIDR s)
  | some (ip, ipnet) =>
    if h6 : to4 ip = none then
      match ho : pref64V4Offsets (maskOnes ipnet.mask) with
      | none => .error (.unsupportedLength s (maskOnes ipnet.mask))
      | some offs =>
        if cleanOutside (maskOnes ipnet.mask) offs ip then
          .ok ⟨ipnet, maskOnes ipnet.mask, pref64Ok_of_parseCIDR h h6 ho⟩
        else .error (.dirtyBits s)
    else .error (.notIPv6Prefix s)

/-- A bare address with "/96" behind it reads as its own /96 network. -/
theorem parseCIDR_slash96 {s : String} {ip ip' : IP} {net : IPNet}
    (hs : '/' ∉ s.toList) (hp : parseIP s = some ip) (h6 : to4 ip = none)
    (h : parseCIDR (s ++ "/96") = some (ip', net)) :
    ip' = ip ∧ net.mask = cidrMask 96 128 := by
  rw [parseIP, Option.map_eq_some_iff] at hp
  obtain ⟨a, ha, rfl⟩ := hp
  have ha16 : a.length = 16 := by
    rcases parseAddr_length ha with h4 | h16
    · rw [as16, if_pos h4, to4] at h6
      simp [h4, v4InV6Prefix] at h6
    · exact h16
  have hcs : (s ++ "/96").toList = s.toList ++ ['/', '9', '6'] := by
    rw [String.toList_append]
    rfl
  have hall : ∀ c ∈ s.toList, decide (c ≠ '/') = true := by
    intro c hc
    rw [decide_eq_true_iff]
    rintro rfl
    exact hs hc
  have htake : (s.toList ++ ['/', '9', '6']).takeWhile (· ≠ '/') = s.toList := by
    rw [List.takeWhile_append_of_pos hall]
    simp
  have hdrop : (s.toList ++ ['/', '9', '6']).dropWhile (· ≠ '/') = ['/', '9', '6'] := by
    rw [List.dropWhile_append_of_pos hall]
    simp
  have hdtoi : dtoi ['9', '6'] = some 96 := by decide
  rw [parseCIDR, hcs, htake, hdrop, ha] at h
  simp only [List.drop_one, List.tail_cons, hdtoi, Option.bind_some, ha16] at h
  split_ifs at h
  obtain ⟨m, _, h⟩ := Option.map_eq_some_iff.1 h
  simp only [Prod.mk.injEq] at h
  obtain ⟨h1, rfl⟩ := h
  exact ⟨h1.symm, rfl⟩

theorem pref64Ok_of_bare {s : String} {ip ip' : IP} {net : IPNet}
    (hs : '/' ∉ s.toList) (hp : parseIP s = some ip) (h6 : to4 ip = none)
    (h : parseCIDR (s ++ "/96") = some (ip', net)) : Pref64Ok net 96 := by
  obtain ⟨rfl, hm⟩ := parseCIDR_slash96 hs hp h6 h
  have hones : maskOnes net.mask = 96 := by
    rw [hm, maskOnes, simpleMaskLength_cidrMask 96 (by omega), Option.getD_some]
  have hoffs : pref64V4Offsets (maskOnes net.mask) = some ⟨[12, 13, 14, 15], rfl⟩ := by
    rw [hones]
    rfl
  have hok := pref64Ok_of_parseCIDR h h6 hoffs
  rwa [hones] at hok

/-- `ParsePref64Addr`.  A text with a slash is a CIDR prefix; a bare address
stands for its /96 network and must end in four zero octets. -/
def parsePref64Addr (s : String) : Except Pref64Error Pref64 :=
  if hs : '/' ∈ s.toList then parsePref64 s
  else match hp : parseIP s with
    | none => .error (.notAddress s)
    | some ip =>
      if h6 : to4 ip = none then
        if ip.drop 12 ≠ [0, 0, 0, 0] then .error (.notSlash96 s)
        else
          match h : parseCIDR (s ++ "/96") with
          | none => .error (.notCIDR (s ++ "/96"))
          | some (_, ipnet) => .ok ⟨ipnet, 96, pref64Ok_of_bare hs hp h6 h⟩
      else .error (.notIPv6Address s)

/-! ## Embedding and extracting -/

namespace Pref64

/-- `mustOffsets`: an accepted prefix has a layout, so there is no panic. -/
def offsets (p : Pref64) : List.Vector Nat 4 :=
  (pref64V4Offsets p.bits).getD ⟨[0, 0, 0, 0], rfl⟩

/-- `embedInto`: the prefix, a zero octet 8 below /96, and the four octets. -/
def embedInto (p : Pref64) (v4 : Addr4) : Bytes :=
  (p.offsets.toList.zip v4.toList).foldl (fun out ob => out.set ob.1 ob.2)
    (if p.bits < 96 then p.net.ip.set pref64UByte 0 else p.net.ip)

theorem embedInto_length (p : Pref64) (v4 : Addr4) :
    (p.embedInto v4).length = 16 := by
  have hfold : ∀ (obs : List (Nat × UInt8)) (out : Bytes),
      (obs.foldl (fun out ob => out.set ob.1 ob.2) out).length = out.length := by
    intro obs
    induction obs with
    | nil => exact fun _ => rfl
    | cons ob obs ih =>
      intro out
      rw [List.foldl_cons, ih, List.length_set]
  rw [embedInto, hfold]
  split
  · rw [List.length_set, p.ok.ip_length]
  · exact p.ok.ip_length

/-- `Embed`. -/
def embed (p : Pref64) (v4 : Addr4) : Addr16 := ⟨p.embedInto v4, p.embedInto_length v4⟩

/-- The four octets at the embedded positions. -/
def gather (p : Pref64) (a : Bytes) : Addr4 := p.offsets.map fun o => a.getD o 0

/-- `Extract`: the embedded address, for an address of the pool in canonical
form. -/
def extract (p : Pref64) (addr : IP) : Option Addr4 :=
  match to16 addr with
  | none => none
  | some a =>
    if p.net.contains a ∧ a = p.embedInto (p.gather a) then some (p.gather a)
    else none

/-- `Extract` answers `v4` exactly for the pool address that `Embed` builds
from it. -/
theorem extract_eq_some_iff (p : Pref64) (a : Addr16) (v4 : Addr4) :
    p.extract a.toList = some v4 ↔
      p.net.contains a.toList = true ∧ a = p.embed v4 ∧ p.gather a.toList = v4 := by
  have hlen : a.toList.length = 16 := a.2
  rw [extract, to16_of_length hlen]
  simp only
  constructor
  · intro h
    split_ifs at h with hc
    have hv := Option.some.inj h
    refine ⟨hc.1, ?_, hv⟩
    rw [hv] at hc
    exact List.Vector.toList_injective hc.2
  · rintro ⟨hc, ha, hv⟩
    have hb : a.toList = p.embedInto (p.gather a.toList) := by
      rw [hv, ha]
      rfl
    rw [if_pos ⟨hc, hb⟩, hv]

theorem extract_slash96 (p : Pref64) (hbits : p.bits = 96) {a : Addr16} {v4 : Addr4}
    (h : p.extract a.toList = some v4) : a.toList.drop 12 = v4.toList := by
  obtain ⟨-, -, hv⟩ := (p.extract_eq_some_iff a v4).1 h
  have hoff : p.offsets = ⟨[12, 13, 14, 15], rfl⟩ := by
    rw [offsets, hbits]
    rfl
  rw [← hv, gather, hoff]
  obtain ⟨l, hl⟩ := a
  refine List.ext_getElem (by simp [hl]) fun i h1 h2 => ?_
  have hi : i < 4 := by simpa [hl] using h1
  interval_cases i <;> simp [List.Vector.toList, List.Vector.map, List.getD_eq_getElem?_getD, hl]

theorem extract_injective (p : Pref64) {a b : Addr16} {v4 : Addr4}
    (ha : p.extract a.toList = some v4) (hb : p.extract b.toList = some v4) :
    a = b := by
  rw [((p.extract_eq_some_iff a v4).1 ha).2.1, ((p.extract_eq_some_iff b v4).1 hb).2.1]

end Pref64

end Ydn64.Config
