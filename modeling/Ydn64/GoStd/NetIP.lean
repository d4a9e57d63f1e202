import Mathlib.Data.Vector.Basic

/-!
# IP addresses and networks of the Go standard library

`net.IP` is a byte slice of four or sixteen bytes, and most of its methods
accept both forms.  A sixteen-byte address with the prefix `::ffff:0:0/96` is
the same address as its last four bytes, and `To4`, `Contains` and `String`
treat it so.  An array `[16]byte` or `[4]byte` of the source is a list of that
length, `Addr16` or `Addr4`.
-/

namespace Ydn64.GoStd

/-- A byte slice. -/
abbrev Bytes := List UInt8

/-- `[16]byte`. -/
abbrev Addr16 := List.Vector UInt8 16

/-- `[4]byte`. -/
abbrev Addr4 := List.Vector UInt8 4

/-- `net.IP`, a slice of four or sixteen bytes. -/
abbrev IP := List UInt8

/-- The first twelve bytes of an IPv4 address in its sixteen-byte form. -/
def v4InV6Prefix : Bytes := [0, 0, 0, 0, 0, 0, 0, 0, 0, 0, 0xff, 0xff]

/-- `IP.To4`; `none` is the `nil` of the source. -/
def to4 (ip : IP) : Option IP :=
  if ip.length = 4 then some ip
  else if ip.length = 16 ∧ ip.take 12 = v4InV6Prefix then some (ip.drop 12)
  else none

/-- `IP.To16`. -/
def to16 (ip : IP) : Option IP :=
  if ip.length = 4 then some (v4InV6Prefix ++ ip)
  else if ip.length = 16 then some ip
  else none

theorem to16_of_length {ip : IP} (h : ip.length = 16) : to16 ip = some ip := by
  rw [to16, if_neg (by omega), if_pos h]

/-- A sixteen-byte address has a four-byte form only under the mapped
prefix. -/
theorem to4_eq_none_of_length {ip : IP} (h : ip.length = 16)
    (hp : ip.take 12 ≠ v4InV6Prefix) : to4 ip = none := by
  rw [to4, if_neg (by omega), if_neg (fun hc => hp hc.2)]

theorem to4_length {ip x : IP} (h : to4 ip = some x) : x.length = 4 := by
  unfold to4 at h
  split_ifs at h with h4 h16
  · obtain rfl := Option.some.inj h
    exact h4
  · obtain rfl := Option.some.inj h
    rw [List.length_drop, h16.1]

/-! ## Masks -/

/-- A mask byte with `n` leading ones. -/
def maskByte (n : Nat) : UInt8 :=
  if 8 ≤ n then 0xff else ~~~((0xff : UInt8) >>> UInt8.ofNat n)

/-- `net.CIDRMask`. -/
def cidrMask (ones bits : Nat) : Bytes :=
  (List.range (bits / 8)).map fun i => maskByte (ones - 8 * i)

theorem cidrMask_length (ones bits : Nat) :
    (cidrMask ones bits).length = bits / 8 := by
  rw [cidrMask, List.length_map, List.length_range]

/-- Bytewise conjunction. -/
def andBytes (a b : Bytes) : Bytes := List.zipWith (· &&& ·) a b

/-- `IP.Mask`.  A four-byte mask applies to the four-byte form of a mapped
address. -/
def maskIP (ip : IP) (mask : Bytes) : Option IP :=
  let mask :=
    if mask.length = 16 ∧ ip.length = 4 ∧ mask.take 12 = List.replicate 12 0xff
    then mask.drop 12 else mask
  let ip :=
    if mask.length = 4 ∧ ip.length = 16 ∧ ip.take 12 = v4InV6Prefix
    then ip.drop 12 else ip
  if ip.length = mask.length then some (andBytes ip mask) else none

theorem maskIP_ipv6 {ip : IP} {mask : Bytes} (hi : ip.length = 16)
    (hm : mask.length = 16) : maskIP ip mask = some (andBytes ip mask) := by
  simp [maskIP, hi, hm]

/-- `net.IPNet`. -/
structure IPNet where
  ip : IP
  mask : Bytes
  deriving DecidableEq, Repr

/-- `networkNumberAndMask`: the shorter form of the network number with a mask
of the same length. -/
def networkNumberAndMask (n : IPNet) : Bytes × Bytes :=
  let ip := (to4 n.ip).getD n.ip
  if ip.length ≠ 4 ∧ ip.length ≠ 16 then ([], [])
  else if n.mask.length = 4 then
    if ip.length = 4 then (ip, n.mask) else ([], [])
  else if n.mask.length = 16 then
    (ip, if ip.length = 4 then n.mask.drop 12 else n.mask)
  else ([], [])

/-- `IPNet.Contains`. -/
def IPNet.contains (n : IPNet) (ip : IP) : Bool :=
  let (nn, m) := networkNumberAndMask n
  let ip := (to4 ip).getD ip
  ip.length == nn.length && andBytes nn m == andBytes ip m

/-- The number and the mask have the same length, that of an address. -/
structure IPNet.WellFormed (n : IPNet) : Prop where
  ip_length : n.ip.length = n.mask.length
  mask_length : n.mask.length = 4 ∨ n.mask.length = 16

theorem IPNet.contains_nil {n : IPNet} (h : n.WellFormed) : n.contains [] = false := by
  have hlen : (networkNumberAndMask n).1.length ≠ 0 := by
    have hip := h.ip_length
    unfold networkNumberAndMask
    cases hto4 : to4 n.ip with
    | some ip4 =>
      have h4 := to4_length hto4
      rcases h.mask_length with hm | hm <;> simp [h4, hm]
    | none => rcases h.mask_length with hm | hm <;> simp [hip, hm]
  have hto4 : (to4 []).getD [] = [] := rfl
  unfold IPNet.contains
  rw [hto4]
  simp [Ne.symm hlen]

/-- A list of networks holds an address that one of them contains. -/
def anyContains (nets : List IPNet) (ip : IP) : Bool := nets.any (·.contains ip)

end Ydn64.GoStd
