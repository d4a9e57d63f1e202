import Mathlib.Tactic.IntervalCases
import Ydn64.Lib.Joined
import Ydn64.Config.Embedding
import Ydn64.Dns64.World

/-!
# Reverse lookups

A PTR query for an address of a pool is asked as one for the IPv4 address in it.
`ptrToIPv6` (`src/dns64/proxy.go`) reads the address from the name: thirty-two
hexadecimal digits in the order from the last to the first, joined by dots, before
`.ip6.arpa.`.  `reversePTR` asks each zone's prefix in turn what it extracts.

* `arpaName` writes the name of an address.  `ptrToIPv6_eq_some_iff` says that
  `ptrToIPv6` is its inverse: it accepts the names, in any case, and nothing else.
* `reversedFor_arpaName`: through the zones, the name of an embedded address leads
  back to the address that was embedded, if no other network contains it.
-/

namespace Ydn64.Dns64

open Ydn64.GoStd Ydn64.Config Ydn64.Lib
open Ydn64.Nat64 (second)

/-! ## Nibbles -/

/-- The nibbles of some bytes, the low one of each first. -/
def nibbles (bytes : List UInt8) : List Nat :=
  bytes.flatMap fun b => [b.toNat % 16, b.toNat / 16]

/-- The bytes of some nibbles. -/
def pairUp : List Nat → List UInt8
  | lo :: hi :: vs => UInt8.ofNat (lo + 16 * hi) :: pairUp vs
  | _ => []

theorem nibbles_length (bytes : List UInt8) : (nibbles bytes).length = 2 * bytes.length := by
  induction bytes with
  | nil => rfl
  | cons b bytes ih =>
    show (nibbles bytes).length + 2 = _
    rw [ih, List.length_cons]
    omega

theorem nibbles_lt (bytes : List UInt8) : ∀ v ∈ nibbles bytes, v < 16 := by
  intro v hv
  obtain ⟨b, -, hb⟩ := List.mem_flatMap.1 hv
  have hlt := b.toNat_lt
  simp only [List.mem_cons, List.not_mem_nil, or_false] at hb
  omega

theorem pairUp_nibbles (bytes : List UInt8) : pairUp (nibbles bytes) = bytes := by
  induction bytes with
  | nil => rfl
  | cons b bytes ih =>
    show UInt8.ofNat (b.toNat % 16 + 16 * (b.toNat / 16)) :: pairUp (nibbles bytes) = b :: bytes
    rw [ih, Nat.mod_add_div, UInt8.ofNat_toNat]

theorem exists_pair {n : Nat} {vs : List Nat} (h : vs.length = 2 * (n + 1)) :
    ∃ lo hi vs', vs = lo :: hi :: vs' := by
  rcases vs with _ | ⟨lo, _ | ⟨hi, vs⟩⟩
  · simp at h
  · simp only [List.length_singleton] at h
    omega
  · exact ⟨lo, hi, vs, rfl⟩

theorem nibbles_pairUp {n : Nat} {vs : List Nat} (hlen : vs.length = 2 * n)
    (h : ∀ v ∈ vs, v < 16) : nibbles (pairUp vs) = vs := by
  induction n generalizing vs with
  | zero =>
    rw [List.length_eq_zero_iff.1 hlen]
    rfl
  | succ n ih =>
    obtain ⟨lo, hi, vs, rfl⟩ := exists_pair hlen
    have hlo := h lo (by simp)
    have hhi := h hi (by simp)
    have hbyte : (UInt8.ofNat (lo + 16 * hi)).toNat = lo + 16 * hi := by
      rw [UInt8.toNat_ofNat']
      omega
    show (UInt8.ofNat (lo + 16 * hi)).toNat % 16 ::
      (UInt8.ofNat (lo + 16 * hi)).toNat / 16 :: nibbles (pairUp vs) = _
    rw [hbyte, ih (by simpa [Nat.mul_succ] using hlen) fun v hv => h v (by simp [hv])]
    congr 2 <;> omega

theorem pairUp_length {n : Nat} {vs : List Nat} (hlen : vs.length = 2 * n)
    (h : ∀ v ∈ vs, v < 16) : (pairUp vs).length = n := by
  have hnibbles := nibbles_length (pairUp vs)
  rw [nibbles_pairUp hlen h] at hnibbles
  omega

theorem ofNibbles_eq {vs : List Nat} (hlen : vs.length = 32) :
    ofNibbles vs = (pairUp vs).reverse := by
  have hfront : ∀ (n : Nat) (vs : List Nat), vs.length = 2 * n →
      (List.range n).map (fun j =>
        UInt8.ofNat (vs.getD (2 * j) 0 + 16 * vs.getD (2 * j + 1) 0)) = pairUp vs := by
    intro n
    induction n with
    | zero =>
      intro vs hvs
      rw [List.length_eq_zero_iff.1 hvs]
      rfl
    | succ n ih =>
      intro vs hvs
      obtain ⟨lo, hi, vs, rfl⟩ := exists_pair hvs
      rw [List.range_succ_eq_map, List.map_cons, List.map_map, pairUp,
        ← ih vs (by simpa [Nat.mul_succ] using hvs)]
      rfl
  rw [← hfront 16 vs hlen]
  rfl

/-! ## Hexadecimal digits -/

/-- The digit of a nibble. -/
def hexChar (v : Nat) : Char := Nat.digitChar v

theorem nibbleVal_hexChar {v : Nat} (h : v < 16) : nibbleVal (hexChar v) = some v := by
  interval_cases v <;> decide

theorem hexChar_ne_dot {v : Nat} (h : v < 16) : hexChar v ≠ '.' := by
  interval_cases v <;> decide

theorem toLower_hexChar {v : Nat} (h : v < 16) : (hexChar v).toLower = hexChar v := by
  interval_cases v <;> decide

theorem hexDigit?_hexChar {v : Nat} (h : v < 16) : hexDigit? (hexChar v) = some v := by
  interval_cases v <;> decide

theorem toNat_bounds {lo hi c : Char} (h : lo ≤ c ∧ c ≤ hi) :
    lo.toNat ≤ c.toNat ∧ c.toNat ≤ hi.toNat :=
  ⟨UInt32.le_iff_toNat_le.1 h.1, UInt32.le_iff_toNat_le.1 h.2⟩

theorem nibbleVal_eq_some_iff {c : Char} {v : Nat} :
    nibbleVal c = some v ↔ v < 16 ∧ c = hexChar v := by
  constructor
  · intro h
    unfold nibbleVal at h
    have hc := Char.ofNat_toNat c
    split_ifs at h with hdigit hletter
    · have hbounds : 48 ≤ c.toNat ∧ c.toNat ≤ 57 := toNat_bounds hdigit
      generalize c.toNat = n at h hc hbounds
      obtain ⟨hlo, hhi⟩ := hbounds
      rw [← Option.some.inj h, ← hc]
      interval_cases n <;> decide
    · have hbounds : 97 ≤ c.toNat ∧ c.toNat ≤ 102 := toNat_bounds hletter
      generalize c.toNat = n at h hc hbounds
      obtain ⟨hlo, hhi⟩ := hbounds
      rw [← Option.some.inj h, ← hc]
      interval_cases n <;> decide
  · rintro ⟨hv, rfl⟩
    exact nibbleVal_hexChar hv

theorem toLower_of_hexDigit? {c : Char} {v : Nat} (h : hexDigit? c = some v) :
    v < 16 ∧ c.toLower = hexChar v := by
  by_cases hlower : nibbleVal c = some v
  · obtain ⟨hv, rfl⟩ := nibbleVal_eq_some_iff.1 hlower
    exact ⟨hv, toLower_hexChar hv⟩
  · unfold hexDigit? at h
    unfold nibbleVal at hlower
    split_ifs at h hlower with _ _ hupper
    · exact absurd h hlower
    · exact absurd h hlower
    · have hbounds : 65 ≤ c.toNat ∧ c.toNat ≤ 70 := toNat_bounds hupper
      have hc := Char.ofNat_toNat c
      generalize c.toNat = n at h hc hbounds
      obtain ⟨hlo, hhi⟩ := hbounds
      rw [← Option.some.inj h, ← hc]
      interval_cases n <;> decide

/-! ## The names -/

/-- The end of the names. -/
def arpaSuffix : List Char := ".ip6.arpa.".toList

/-- Digits joined by dots, before `.ip6.arpa.`. -/
def arpaText (digits : List Char) : List Char :=
  ['.'].intercalate (digits.map fun d => [d]) ++ arpaSuffix

/-- The name of an address. -/
def arpaName (a : Addr16) : String :=
  String.ofList (arpaText ((nibbles a.toList.reverse).map hexChar))

/-- What the code makes of one piece of the name. -/
def pieceVal : List Char → Option Nat
  | [c] => nibbleVal c
  | _ => none

theorem pieceVal_eq_some_iff {piece : List Char} {v : Nat} :
    pieceVal piece = some v ↔ v < 16 ∧ piece = [hexChar v] := by
  rcases piece with _ | ⟨c, _ | ⟨c', cs⟩⟩
  · simp [pieceVal]
  · rw [pieceVal, nibbleVal_eq_some_iff]
    simp
  · simp [pieceVal]

/-- The pieces are read if each of them is a digit. -/
theorem mapM_pieceVal_eq_some_iff {pieces : List (List Char)} {vs : List Nat} :
    pieces.mapM pieceVal = some vs ↔
      (∀ v ∈ vs, v < 16) ∧ pieces = (vs.map hexChar).map fun d => [d] := by
  induction pieces generalizing vs with
  | nil =>
    rw [List.mapM_nil]
    cases vs with
    | nil => simp
    | cons v vs => simp
  | cons piece pieces ih =>
    rw [List.mapM_cons, Option.bind_eq_bind, Option.bind_eq_some_iff]
    simp only [Option.bind_eq_bind, Option.bind_eq_some_iff, ih, pieceVal_eq_some_iff]
    constructor
    · rintro ⟨v, ⟨hv, rfl⟩, vs, ⟨hvs, rfl⟩, hcons⟩
      rw [← Option.some.inj hcons]
      exact ⟨List.forall_mem_cons.2 ⟨hv, hvs⟩, rfl⟩
    · rintro ⟨hvs, hpieces⟩
      cases vs with
      | nil => simp at hpieces
      | cons v vs =>
        obtain ⟨hv, hvs⟩ := List.forall_mem_cons.1 hvs
        obtain ⟨rfl, rfl⟩ := List.cons.inj hpieces
        exact ⟨v, ⟨hv, rfl⟩, vs, ⟨hvs, rfl⟩, rfl⟩

theorem splitOn_digits {vs : List Nat} (hne : vs ≠ []) (hvs : ∀ v ∈ vs, v < 16) :
    (['.'].intercalate ((vs.map hexChar).map fun d => [d])).splitOn '.' =
      (vs.map hexChar).map fun d => [d] := by
  refine List.splitOn_intercalate '.' ?_ (by simpa using hne)
  intro piece hpiece
  simp only [List.mem_map, exists_exists_and_eq_and] at hpiece
  obtain ⟨v, hv, rfl⟩ := hpiece
  simpa using (hexChar_ne_dot (hvs v hv)).symm

/-- `ptrToIPv6` behind the change to lower case. -/
def readArpa (cs : List Char) : Option IP :=
  if arpaSuffix.isSuffixOf cs then
    if ((cs.take (cs.length - arpaSuffix.length)).splitOn '.').length ≠ 32 then none
    else (((cs.take (cs.length - arpaSuffix.length)).splitOn '.').mapM pieceVal).map ofNibbles
  else none

theorem ptrToIPv6_eq (uc : UnicodeCase) (s : String) :
    ptrToIPv6 uc s = readArpa (s.toList.map uc.toLower) := by
  rw [← String.toList_ofList (l := s.toList.map uc.toLower)]
  unfold ptrToIPv6
  rfl

theorem readArpa_eq_some_iff {cs : List Char} {ip : IP} :
    readArpa cs = some ip ↔
      ∃ vs : List Nat, vs.length = 32 ∧ (∀ v ∈ vs, v < 16) ∧
        cs = arpaText (vs.map hexChar) ∧ (pairUp vs).reverse = ip := by
  unfold readArpa
  constructor
  · intro h
    split_ifs at h with hsuffix hlen
    obtain ⟨t, rfl⟩ := List.isSuffixOf_iff_suffix.1 hsuffix
    rw [List.length_append, Nat.add_sub_cancel, List.take_left' rfl] at h hlen
    obtain ⟨vs, hvs, rfl⟩ := Option.map_eq_some_iff.1 h
    obtain ⟨hlt, hpieces⟩ := mapM_pieceVal_eq_some_iff.1 hvs
    have hvlen : vs.length = 32 := by simpa [hpieces] using hlen
    refine ⟨vs, hvlen, hlt, ?_, (ofNibbles_eq hvlen).symm⟩
    rw [arpaText, ← hpieces, List.intercalate_splitOn]
  · rintro ⟨vs, hlen, hlt, rfl, rfl⟩
    have hne : vs ≠ [] := by
      rintro rfl
      simp at hlen
    rw [arpaText, if_pos (List.isSuffixOf_iff_suffix.2 (List.suffix_append _ _)),
      List.length_append, Nat.add_sub_cancel, List.take_left' rfl, splitOn_digits hne hlt,
      if_neg (by simpa using hlen), mapM_pieceVal_eq_some_iff.2 ⟨hlt, rfl⟩, Option.map_some,
      ofNibbles_eq hlen]

theorem readArpa_eq_some_iff_arpaName {cs : List Char} {ip : IP} :
    readArpa cs = some ip ↔ ∃ a : Addr16, a.toList = ip ∧ cs = (arpaName a).toList := by
  rw [readArpa_eq_some_iff]
  constructor
  · rintro ⟨vs, hlen, hlt, rfl, rfl⟩
    have hbytes : (pairUp vs).reverse.length = 16 := by
      rw [List.length_reverse]
      exact pairUp_length hlen hlt
    refine ⟨⟨(pairUp vs).reverse, hbytes⟩, rfl, ?_⟩
    unfold arpaName
    rw [String.toList_ofList, List.Vector.toList_mk, List.reverse_reverse,
      nibbles_pairUp (n := 16) hlen hlt]
  · rintro ⟨a, rfl, rfl⟩
    have hlen : (nibbles a.toList.reverse).length = 32 := by
      rw [nibbles_length, List.length_reverse, a.toList_length]
    refine ⟨nibbles a.toList.reverse, hlen, nibbles_lt _, String.toList_ofList, ?_⟩
    rw [pairUp_nibbles, List.reverse_reverse]

theorem readArpa_arpaName (a : Addr16) : readArpa (arpaName a).toList = some a.toList :=
  readArpa_eq_some_iff_arpaName.2 ⟨a, rfl, rfl⟩

theorem arpaName_injective {a a' : Addr16} (h : (arpaName a).toList = (arpaName a').toList) :
    a = a' := by
  have hread := readArpa_arpaName a
  rw [h, readArpa_arpaName] at hread
  exact List.Vector.toList_injective (Option.some.inj hread).symm

/-! ### Names in any case -/

/-- Up to case, the text is thirty-two hexadecimal digits joined by dots, before
`.ip6.arpa.`. -/
def IsArpaText (s : String) : Prop :=
  ∃ digits : List Char, digits.length = 32 ∧ (∀ d ∈ digits, (hexDigit? d).isSome = true) ∧
    s.toList.map Char.toLower = (arpaText digits).map Char.toLower

theorem map_toLower_arpaText (digits : List Char) :
    (arpaText digits).map Char.toLower = arpaText (digits.map Char.toLower) := by
  have hsuffix : arpaSuffix.map Char.toLower = arpaSuffix := by decide
  rw [arpaText, List.map_append, map_intercalate, hsuffix, List.map_map, arpaText, List.map_map]
  rfl

theorem exists_nibbles {digits : List Char} (h : ∀ d ∈ digits, (hexDigit? d).isSome = true) :
    ∃ vs : List Nat, (∀ v ∈ vs, v < 16) ∧ digits.map Char.toLower = vs.map hexChar := by
  induction digits with
  | nil => exact ⟨[], by simp, rfl⟩
  | cons d digits ih =>
    obtain ⟨hd, hdigits⟩ := List.forall_mem_cons.1 h
    obtain ⟨v, hv⟩ := Option.isSome_iff_exists.1 hd
    obtain ⟨hlt, hlower⟩ := toLower_of_hexDigit? hv
    obtain ⟨vs, hvs, hmap⟩ := ih hdigits
    refine ⟨v :: vs, List.forall_mem_cons.2 ⟨hlt, hvs⟩, ?_⟩
    rw [List.map_cons, List.map_cons, hlower, hmap]

theorem isArpaText_iff {s : String} :
    IsArpaText s ↔ (readArpa (s.toList.map Char.toLower)).isSome = true := by
  rw [Option.isSome_iff_exists]
  simp only [readArpa_eq_some_iff]
  constructor
  · rintro ⟨digits, hlen, hhex, hs⟩
    obtain ⟨vs, hvs, hmap⟩ := exists_nibbles hhex
    have hvlen : vs.length = 32 := by
      have := congrArg List.length hmap
      rw [List.length_map, List.length_map] at this
      omega
    exact ⟨_, vs, hvlen, hvs, by rw [hs, map_toLower_arpaText, hmap], rfl⟩
  · rintro ⟨ip, vs, hlen, hvs, hs, -⟩
    have hlower : (vs.map hexChar).map Char.toLower = vs.map hexChar := by
      rw [List.map_map]
      exact List.map_congr_left fun v hv => toLower_hexChar (hvs v hv)
    refine ⟨vs.map hexChar, by rw [List.length_map, hlen], ?_, ?_⟩
    · intro d hd
      obtain ⟨v, hv, rfl⟩ := List.mem_map.1 hd
      rw [hexDigit?_hexChar (hvs v hv)]
      rfl
    · rw [hs, map_toLower_arpaText, hlower]

/-- On ASCII text `ptrToIPv6` folds the usual letters. -/
theorem ptrToIPv6_of_ascii (uc : UnicodeCase) {s : String} (hs : ∀ c ∈ s.toList, c.val < 128) :
    ptrToIPv6 uc s = readArpa (s.toList.map Char.toLower) := by
  rw [ptrToIPv6_eq]
  exact congrArg readArpa (List.map_congr_left fun c hc => uc.toLower_ascii c (hs c hc))

theorem isLowerASCII_arpaName (a : Addr16) : isLowerASCII (arpaName a) = true := by
  have hascii : ∀ v : Nat, v < 16 → (hexChar v).val < 128 ∧ (hexChar v).toLower = hexChar v := by
    intro v hv
    interval_cases v <;> decide
  unfold isLowerASCII
  rw [arpaName, String.toList_ofList, arpaText, List.all_append, Bool.and_eq_true]
  refine ⟨List.all_eq_true.2 fun c hc => decide_eq_true ?_, by decide⟩
  rcases mem_intercalate hc with rfl | ⟨piece, hpiece, hmem⟩
  · decide
  · simp only [List.mem_map, exists_exists_and_eq_and] at hpiece
    obtain ⟨v, hv, rfl⟩ := hpiece
    rw [List.mem_singleton.1 hmem]
    exact hascii v (nibbles_lt _ v hv)

theorem ptrToIPv6_arpaName (uc : UnicodeCase) (a : Addr16) :
    ptrToIPv6 uc (arpaName a) = some a.toList := by
  rw [ptrToIPv6_eq, ← readArpa_arpaName]
  have hself := congrArg String.toList (toLower_eq_self uc (isLowerASCII_arpaName a))
  rw [toLower, String.toList_ofList] at hself
  rw [hself]

/-! ## Through the zones -/

theorem pref64_eq_of_net {p p' : Pref64} (h : p.net = p'.net) : p = p' := by
  have hbits : ∀ b ∈ pref64Lengths, ∀ b' ∈ pref64Lengths,
      cidrMask b 128 = cidrMask b' 128 → b = b' := by decide
  have hmask : cidrMask p.bits 128 = cidrMask p'.bits 128 := by
    rw [← p.ok.mask_eq, ← p'.ok.mask_eq, h]
  have hlen := hbits _ p.ok.bits_mem _ p'.ok.bits_mem hmask
  cases p
  cases p'
  simp only at h hlen
  subst h hlen
  rfl

/-- The networks of the prefixes are pairwise equal or disjoint. -/
def ApartOrEqual (zones : List Zone) : Prop :=
  ∀ z ∈ zones, ∀ z' ∈ zones, ∀ p ∈ z.pref, ∀ p' ∈ z'.pref,
    p.net = p'.net ∨ ∀ ip, ¬ (p.net.contains ip = true ∧ p'.net.contains ip = true)

section Zones

variable (uc : UnicodeCase) {cfg : ProxyConfig}

theorem reversedFor_arpaName_embed (hzones : ApartOrEqual cfg.zones) {z : Zone}
    (hz : z ∈ cfg.zones) {p : Pref64} (hp : z.pref = some p) {v4 : Addr4}
    (hinv : p.extract (p.embed v4).toList = some v4) :
    reversedFor uc cfg (arpaName (p.embed v4)) = some v4 := by
  unfold reversedFor
  rw [ptrToIPv6_arpaName, Option.bind_some]
  cases hfind : cfg.zones.findSome? fun z => z.pref.bind fun pref =>
      pref.extract (p.embed v4).toList with
  | none =>
    have hnone := List.findSome?_eq_none_iff.1 hfind z hz
    rw [hp, Option.bind_some, hinv] at hnone
    cases hnone
  | some w4 =>
    obtain ⟨z', hz', hw⟩ := List.exists_of_findSome?_eq_some hfind
    obtain ⟨p', hp', hw⟩ := Option.bind_eq_some_iff.1 hw
    rcases hzones z hz z' hz' p hp p' hp' with hnet | hapart
    · rw [← pref64_eq_of_net hnet, hinv] at hw
      exact hw.symm
    · have hin := ((p.extract_eq_some_iff _ _).1 hinv).1
      have hin' := ((p'.extract_eq_some_iff _ _).1 hw).1
      exact absurd ⟨hin, hin'⟩ (hapart _)

theorem reversedFor_arpaName_of_none {a : Addr16}
    (h : ∀ z ∈ cfg.zones, ∀ p ∈ z.pref, p.extract a.toList = none) :
    reversedFor uc cfg (arpaName a) = none := by
  unfold reversedFor
  rw [ptrToIPv6_arpaName, Option.bind_some, List.findSome?_eq_none_iff]
  intro z hz
  cases hp : z.pref with
  | none => rfl
  | some p => exact h z hz p hp

end Zones

theorem ends_handlePTR_of_none {net : Network} {uc : UnicodeCase} {lib : DnsLib} {req : Msg}
    {q : Question} {server : String} {via : Via} {s : ProxyState}
    {Q : Option Msg → ProxyState → Prop} (h : reversedFor uc s.cfg q.name = none) :
    Ends net Q (handlePTR uc lib req q server via) s ↔
      Ends net Q (passThrough req server via) s := by
  simp only [handlePTR, Request.load_value_bind, monadLift_self]
  rw [ends_bind, ends_reversePTR, h]

/-- `ptrToIPv6` accepts the names of addresses, in any case, and nothing else, and
answers the address whose name it is.  Through a table of zones whose networks are
apart or equal, the name of an embedded address leads back to the address in it,
and the name of an address that no prefix extracts is passed on. -/
theorem reverse_lookups (uc : UnicodeCase) :
    (∀ s : String, (∀ c ∈ s.toList, c.val < 128) →
      ((ptrToIPv6 uc s).isSome = true ↔ IsArpaText s) ∧
      ∀ ip, ptrToIPv6 uc s = some ip →
        ∃ a : Addr16, a.toList = ip ∧
          ∀ a' : Addr16, s.toList.map Char.toLower = (arpaName a').toList ↔ a' = a) ∧
    (∀ a : Addr16, ptrToIPv6 uc (arpaName a) = some a.toList) ∧
    ∀ (net : Network) (s : ProxyState),
      (ApartOrEqual s.cfg.zones → ∀ z ∈ s.cfg.zones, ∀ p ∈ z.pref,
        (∀ v4, p.extract (p.embed v4).toList = some v4) → ∀ (v4 : Addr4)
        (Q : Option Addr4 → ProxyState → Prop),
          Ends net Q (reversePTR uc (arpaName (p.embed v4))) s ↔ Q (some v4) s) ∧
      ∀ a : Addr16, (∀ z ∈ s.cfg.zones, ∀ p ∈ z.pref, p.extract a.toList = none) →
        (∀ Q : Option Addr4 → ProxyState → Prop,
          Ends net Q (reversePTR uc (arpaName a)) s ↔ Q none s) ∧
        ∀ (lib : DnsLib) (req : Msg) (q : Question) (server : String) (via : Via)
          (Q : Option Msg → ProxyState → Prop), q.name = arpaName a →
          (Ends net Q (handlePTR uc lib req q server via) s ↔
            Ends net Q (passThrough req server via) s) := by
  refine ⟨fun s hs => ⟨?_, fun ip hip => ?_⟩, ptrToIPv6_arpaName uc, fun net s => ⟨?_, ?_⟩⟩
  · rw [isArpaText_iff, ptrToIPv6_of_ascii uc hs]
  · rw [ptrToIPv6_of_ascii uc hs] at hip
    obtain ⟨a, ha, hname⟩ := readArpa_eq_some_iff_arpaName.1 hip
    refine ⟨a, ha, fun a' => ⟨fun h => ?_, fun h => by rw [h, hname]⟩⟩
    exact arpaName_injective (h.symm.trans hname)
  · intro hzones z hz p hp hinv v4 Q
    rw [ends_reversePTR, reversedFor_arpaName_embed uc hzones hz hp (hinv v4)]
  · intro a ha
    have hnone := reversedFor_arpaName_of_none uc ha
    refine ⟨fun Q => by rw [ends_reversePTR, hnone], ?_⟩
    intro lib req q server via Q hname
    apply ends_handlePTR_of_none
    rw [hname]
    exact hnone

theorem reverse_lookups_wellKnown :
    (ptrToIPv6 asciiCase (arpaName (List.Vector.replicate 16 1))).isSome = true ∧
      ∀ net : Network,
        (∃ p, filteringZone.pref = some p ∧ ∀ (v4 : Addr4) (Q : Option Addr4 → ProxyState → Prop),
          Ends net Q (reversePTR asciiCase (arpaName (p.embed v4)))
              (.new filteringConfig ⟨second, 0, none⟩) ↔
            Q (some v4) (.new filteringConfig ⟨second, 0, none⟩)) ∧
        ∀ Q : Option Addr4 → ProxyState → Prop,
          Ends net Q (reversePTR asciiCase (arpaName (List.Vector.replicate 16 1)))
              (.new filteringConfig ⟨second, 0, none⟩) ↔
            Q none (.new filteringConfig ⟨second, 0, none⟩) := by
  obtain ⟨htext, hname, hzones⟩ := reverse_lookups asciiCase
  have hbits : filteringZone.pref.map (fun p => p.bits) = some 96 := by decide +kernel
  obtain ⟨p, hp, hp96⟩ := Option.map_eq_some_iff.1 hbits
  have hinv : ∀ v4, p.extract (p.embed v4).toList = some v4 := fun v4 =>
    (p.extract_embed_iff v4).2 (p.to4_embedInto (fun h => by have := h.2; omega) v4)
  have hapart : ApartOrEqual filteringConfig.zones := by
    intro z hz z' hz' q hq q' hq'
    rw [List.mem_singleton.1 hz] at hq
    rw [List.mem_singleton.1 hz'] at hq'
    exact .inl (congrArg Pref64.net (Option.some.inj (hq.symm.trans hq')))
  have hascii : ∀ c ∈ (arpaName (List.Vector.replicate 16 1)).toList, c.val < 128 := fun c hc =>
    (of_decide_eq_true (List.all_eq_true.1 (isLowerASCII_arpaName _) c hc)).1
  have harpa : IsArpaText (arpaName (List.Vector.replicate 16 1)) := by
    rw [← (htext _ hascii).1, hname]
    rfl
  refine ⟨(htext _ hascii).1.2 harpa, fun net => ⟨⟨p, hp, fun v4 => ?_⟩, fun Q => ?_⟩⟩
  · exact (hzones net _).1 hapart filteringZone List.mem_cons_self p hp hinv v4
  · refine ((hzones net _).2 (List.Vector.replicate 16 1) fun z hz q hq => ?_).1 Q
    rw [List.mem_singleton.1 hz] at hq
    have hnone : filteringZone.pref.bind (fun p => p.extract (List.replicate 16 1)) = none := by
      decide +kernel
    rw [Option.mem_def.1 hq] at hnone
    exact hnone

end Ydn64.Dns64
