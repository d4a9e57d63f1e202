import Ydn64.GoStd.NetIP
import Ydn64.GoStd.Strings
import Mathlib.Tactic.IntervalCases

/-!
# Addresses as text

`net.ParseIP`, `net.ParseCIDR` and `IP.String`.  The parser is `netip`'s: an
IPv4 address is four decimal octets without leading zeros, an IPv6 address is
up to eight groups of one to four hexadecimal digits, with at most one `::`
and an IPv4 address allowed in place of the last two groups.  A zone is
refused by both callers.

The printer writes IPv6 addresses in the shortest form: no leading zeros, and
the first longest run of at least two zero groups as `::`.
`parseIP_ipString` is the round trip: what `String` prints, `ParseIP` reads
back as the same address.
-/

namespace Ydn64.GoStd

/-! ## Reading IPv4 -/

/-- One octet of an IPv4 address: decimal, at most 255, no leading zero. -/
def octet? (cs : List Char) : Option UInt8 :=
  if cs.head? = some '0' ∧ cs.length ≠ 1 then none
  else ((decimal? cs).filter (· ≤ 255)).map UInt8.ofNat

/-- `parseIPv4Fields`: four octets separated by dots. -/
def parseIPv4 (cs : List Char) : Option Bytes :=
  ((cs.splitOnP (· == '.')).mapM octet?).filter fun bs => bs.length == 4

/-! ## Reading IPv6 -/

/-- Whether `c` is a hexadecimal digit. -/
def isHexDigit (c : Char) : Bool := (hexDigit? c).isSome

/-- The value of a string of hexadecimal digits. -/
def hexValue (cs : List Char) : Nat :=
  cs.foldl (fun n c => 16 * n + (hexDigit? c).getD 0) 0

/-- A 16-bit number, high byte first. -/
def be16 (n : Nat) : Bytes := [UInt8.ofNat (n / 256), UInt8.ofNat (n % 256)]

/-- The group loop of `parseIPv6`.  The first argument counts the groups that
still fit, `ip` is what has been read and `ellipsis` where a `::` was seen. -/
def parseGroups : Nat → Bytes → Option Nat → List Char →
    Option (Bytes × Option Nat × List Char)
  | 0, ip, ellipsis, s => some (ip, ellipsis, s)
  | n + 1, ip, ellipsis, s =>
    let digits := s.takeWhile isHexDigit
    if digits.length = 0 ∨ 4 < digits.length then none
    else
      let ip' := ip ++ be16 (hexValue digits)
      match s.dropWhile isHexDigit with
      | [] => some (ip', ellipsis, [])
      | '.' :: _ =>
        -- A trailing IPv4 address replaces the last two groups.
        if ellipsis = none ∧ ip.length ≠ 12 ∨ 16 < ip.length + 4 then none
        else (parseIPv4 s).map fun v4 => (ip ++ v4, ellipsis, [])
      | [':'] => none
      | ':' :: ':' :: rest =>
        if ellipsis.isSome then none
        else if rest = [] then some (ip', some ip'.length, [])
        else parseGroups n ip' (some ip'.length) rest
      | ':' :: rest => parseGroups n ip' ellipsis rest
      | _ => none

/-- What `parseIPv6` does after the loop: the whole text must be used, and a
`::` stands for at least one group of zeros. -/
def expandEllipsis : Bytes × Option Nat × List Char → Option Bytes
  | (ip, ellipsis, s) =>
    if s ≠ [] then none
    else match ellipsis with
      | none => if ip.length = 16 then some ip else none
      | some e =>
        if ip.length < 16 then
          some (ip.take e ++ List.replicate (16 - ip.length) 0 ++ ip.drop e)
        else none

/-- `parseIPv6`, for a text without a zone. -/
def parseIPv6 (cs : List Char) : Option Bytes :=
  match cs with
  | [':', ':'] => some (List.replicate 16 0)
  | ':' :: ':' :: rest => (parseGroups 8 [] (some 0) rest).bind expandEllipsis
  | _ => (parseGroups 8 [] none cs).bind expandEllipsis

/-- `netip.ParseAddr` for a caller that refuses zones: four bytes for an IPv4
address, sixteen for an IPv6 address. -/
def parseAddr (cs : List Char) : Option IP :=
  if '%' ∈ cs then none
  else match cs.find? (fun c => c == '.' || c == ':') with
    | some c => if c = '.' then parseIPv4 cs else parseIPv6 cs
    | none => none

/-- `Addr.As16`. -/
def as16 (ip : IP) : IP := if ip.length = 4 then v4InV6Prefix ++ ip else ip

/-- `net.ParseIP`: the address in its sixteen-byte form. -/
def parseIP (s : String) : Option IP := (parseAddr s.toList).map as16

/-- `net.ParseCIDR`: the address in its sixteen-byte form, and its network. -/
def parseCIDR (s : String) : Option (IP × IPNet) :=
  let cs := s.toList
  if '/' ∉ cs then none
  else
    (parseAddr (cs.takeWhile (· ≠ '/'))).bind fun ip =>
      (dtoi ((cs.dropWhile (· ≠ '/')).drop 1)).bind fun n =>
        if n ≤ 8 * ip.length then
          let m := cidrMask n (8 * ip.length)
          (maskIP (as16 ip) m).map fun net => (as16 ip, ⟨net, m⟩)
        else none

/-! ## Writing -/

/-- A digit of base at most sixteen. -/
def digitChar (d : Nat) : Char :=
  if d < 10 then Char.ofNat (48 + d) else Char.ofNat (87 + d)

/-- `appendDecimal` of an octet. -/
def decimalText (n : Nat) : List Char :=
  (if 100 ≤ n then [digitChar (n / 100)] else []) ++
  (if 10 ≤ n then [digitChar (n / 10 % 10)] else []) ++ [digitChar (n % 10)]

/-- `appendHex` of a 16-bit group. -/
def hexText (n : Nat) : List Char :=
  (if 0x1000 ≤ n then [digitChar (n / 0x1000)] else []) ++
  (if 0x100 ≤ n then [digitChar (n / 0x100 % 16)] else []) ++
  (if 0x10 ≤ n then [digitChar (n / 0x10 % 16)] else []) ++ [digitChar (n % 16)]

/-- The 16-bit groups of an address. -/
def groupsOf : Bytes → List Nat
  | hi :: lo :: rest => (hi.toNat * 256 + lo.toNat) :: groupsOf rest
  | _ => []

/-- Groups separated by colons. -/
def joinGroups (gs : List Nat) : List Char :=
  (List.intersperse [':'] (gs.map hexText)).flatten

/-- The number of zero groups that start at `i`. -/
def zeroRun (gs : List Nat) (i : Nat) : Nat :=
  ((gs.drop i).takeWhile (· == 0)).length

/-- One step of the search for the longest run of zero groups. -/
def zeroStep (gs : List Nat) (best : Option (Nat × Nat)) (i : Nat) :
    Option (Nat × Nat) :=
  if 2 ≤ zeroRun gs i ∧ (best.elim 0 fun b => b.2 - b.1) < zeroRun gs i then
    some (i, i + zeroRun gs i)
  else best

/-- The run of zero groups that `String` prints as `::`, as start and end. -/
def zeroSpan (gs : List Nat) : Option (Nat × Nat) :=
  (List.range 8).foldl (zeroStep gs) none

/-- The groups as text, with the run of zeros left out. -/
def groupsText (gs : List Nat) : List Char :=
  match zeroSpan gs with
  | none => joinGroups gs
  | some (zs, ze) => joinGroups (gs.take zs) ++ ':' :: ':' :: joinGroups (gs.drop ze)

/-- `appendTo6`. -/
def ipv6Text (ip : Bytes) : List Char := groupsText (groupsOf ip)

/-- `appendTo4`. -/
def ipv4Text (ip : Bytes) : List Char :=
  (List.intersperse ['.'] (ip.map fun b => decimalText b.toNat)).flatten

/-- `IP.String`.  An address of any other length prints as a question mark and
its bytes in hexadecimal. -/
def ipString (ip : IP) : String :=
  match to4 ip with
  | some v4 => String.ofList (ipv4Text v4)
  | none =>
    if ip = [] then "<nil>"
    else if ip.length = 16 then String.ofList (ipv6Text ip)
    else String.ofList ('?' :: ip.flatMap fun b =>
      [digitChar (b.toNat / 16), digitChar (b.toNat % 16)])

/-! ## Reading back what was written -/

theorem hexDigit?_digitChar {d : Nat} (h : d < 16) :
    hexDigit? (digitChar d) = some d := by
  interval_cases d <;> decide

theorem isHexDigit_digitChar {d : Nat} (h : d < 16) :
    isHexDigit (digitChar d) = true := by
  rw [isHexDigit, hexDigit?_digitChar h]
  rfl

theorem hexText_ne_nil (n : Nat) : hexText n ≠ [] := by
  simp [hexText]

theorem hexText_length_le (n : Nat) : (hexText n).length ≤ 4 := by
  rw [hexText]
  split_ifs <;> simp

theorem isHexDigit_of_mem_hexText {n : Nat} (hn : n < 0x10000) {c : Char}
    (h : c ∈ hexText n) : isHexDigit c = true := by
  rw [hexText] at h
  simp only [List.mem_append, List.mem_singleton, List.mem_ite_nil_right] at h
  rcases h with ((⟨_, rfl⟩ | ⟨_, rfl⟩) | ⟨_, rfl⟩) | rfl
  all_goals exact isHexDigit_digitChar (by omega)

theorem hexValue_hexText {n : Nat} (hn : n < 0x10000) :
    hexValue (hexText n) = n := by
  have h0 := hexDigit?_digitChar (show n % 16 < 16 by omega)
  have h1 := hexDigit?_digitChar (show n / 0x10 % 16 < 16 by omega)
  have h2 := hexDigit?_digitChar (show n / 0x100 % 16 < 16 by omega)
  have h3 := hexDigit?_digitChar (show n / 0x1000 < 16 by omega)
  rw [hexText, hexValue]
  split_ifs <;>
    simp only [List.nil_append, List.cons_append, List.foldl_cons,
      List.foldl_nil, h0, h1, h2, h3, Option.getD_some] <;> omega

theorem takeWhile_hexText {n : Nat} (hn : n < 0x10000) (rest : List Char)
    (hr : ∀ c, rest.head? = some c → isHexDigit c = false) :
    (hexText n ++ rest).takeWhile isHexDigit = hexText n ∧
      (hexText n ++ rest).dropWhile isHexDigit = rest := by
  have hpos : ∀ c ∈ hexText n, isHexDigit c = true :=
    fun c hc => isHexDigit_of_mem_hexText hn hc
  rw [List.takeWhile_append_of_pos hpos, List.dropWhile_append_of_pos hpos]
  cases rest with
  | nil => simp
  | cons c cs =>
    have hc := hr c rfl
    rw [List.takeWhile_cons_of_neg (by simp [hc]),
      List.dropWhile_cons_of_neg (by simp [hc]), List.append_nil]
    exact ⟨rfl, rfl⟩

theorem parseGroups_last {n g : Nat} {ip : Bytes} {e : Option Nat}
    (hg : g < 0x10000) :
    parseGroups (n + 1) ip e (hexText g) = some (ip ++ be16 g, e, []) := by
  have h := takeWhile_hexText hg [] (by simp)
  rw [List.append_nil] at h
  have hlen := hexText_length_le g
  have hne : (hexText g).length ≠ 0 := by simp [hexText_ne_nil]
  rw [parseGroups, h.1, h.2, hexValue_hexText hg, if_neg (by omega)]

theorem parseGroups_colon {n g : Nat} {ip : Bytes} {e : Option Nat} {c : Char}
    {cs : List Char} (hg : g < 0x10000) (hc : isHexDigit c = true) :
    parseGroups (n + 1) ip e (hexText g ++ ':' :: c :: cs)
      = parseGroups n (ip ++ be16 g) e (c :: cs) := by
  have h := takeWhile_hexText hg (':' :: c :: cs) (by simp [isHexDigit, hexDigit?])
  have hlen := hexText_length_le g
  have hne : (hexText g).length ≠ 0 := by simp [hexText_ne_nil]
  have hcc : c ≠ ':' := by
    rintro rfl
    exact absurd hc (by decide)
  rw [parseGroups, h.1, h.2, hexValue_hexText hg, if_neg (by omega)]
  split <;> simp_all

/-- One group followed by the `::`. -/
theorem parseGroups_ellipsis {n g : Nat} {ip : Bytes} {cs : List Char}
    (hg : g < 0x10000) :
    parseGroups (n + 1) ip none (hexText g ++ ':' :: ':' :: cs)
      = if cs = [] then some (ip ++ be16 g, some (ip ++ be16 g).length, [])
        else parseGroups n (ip ++ be16 g) (some (ip ++ be16 g).length) cs := by
  have h := takeWhile_hexText hg (':' :: ':' :: cs) (by simp [isHexDigit, hexDigit?])
  have hlen := hexText_length_le g
  have hne : (hexText g).length ≠ 0 := by simp [hexText_ne_nil]
  rw [parseGroups, h.1, h.2, hexValue_hexText hg, if_neg (by omega)]
  simp

theorem joinGroups_singleton (g : Nat) : joinGroups [g] = hexText g := by
  simp [joinGroups]

theorem joinGroups_cons (g g' : Nat) (gs : List Nat) :
    joinGroups (g :: g' :: gs) = hexText g ++ ':' :: joinGroups (g' :: gs) := by
  simp [joinGroups]

theorem joinGroups_head {g : Nat} (hg : g < 0x10000) (gs : List Nat) :
    ∃ c cs, joinGroups (g :: gs) = c :: cs ∧ isHexDigit c = true := by
  obtain ⟨c, cs, hc⟩ := List.exists_cons_of_ne_nil (hexText_ne_nil g)
  have hd : isHexDigit c = true :=
    isHexDigit_of_mem_hexText hg (by rw [hc]; exact List.mem_cons_self)
  cases gs with
  | nil => exact ⟨c, cs, by rw [joinGroups_singleton, hc], hd⟩
  | cons g' gs =>
    exact ⟨c, cs ++ ':' :: joinGroups (g' :: gs),
      by rw [joinGroups_cons, hc, List.cons_append], hd⟩

theorem parseGroups_joinGroups {e : Option Nat} :
    ∀ (gs : List Nat) (n : Nat) (ip : Bytes), gs ≠ [] → gs.length ≤ n →
      (∀ g ∈ gs, g < 0x10000) →
      parseGroups n ip e (joinGroups gs) = some (ip ++ gs.flatMap be16, e, []) := by
  intro gs
  induction gs with
  | nil => exact fun _ _ h => absurd rfl h
  | cons g gs ih =>
    intro n ip _ hn hlt
    obtain ⟨n, rfl⟩ : ∃ k, n = k + 1 := ⟨n - 1, by simp at hn; omega⟩
    have hg : g < 0x10000 := hlt g List.mem_cons_self
    cases gs with
    | nil =>
      rw [joinGroups_singleton, parseGroups_last hg, List.flatMap_singleton]
    | cons g' gs =>
      have hg' : g' < 0x10000 := hlt g' (by simp)
      obtain ⟨c, cs, hcs, hc⟩ := joinGroups_head hg' gs
      rw [joinGroups_cons, hcs, parseGroups_colon hg hc, ← hcs,
        ih n (ip ++ be16 g) (List.cons_ne_nil _ _) (by simp at hn ⊢; omega)
          (fun x hx => hlt x (List.mem_cons_of_mem _ hx)),
        List.append_assoc, ← List.flatMap_cons]

/-- The group loop reads a list of groups, a `::` and another list back. -/
theorem parseGroups_joinGroups_ellipsis {bs : List Nat}
    (hb : ∀ g ∈ bs, g < 0x10000) :
    ∀ (as : List Nat) (n : Nat) (ip : Bytes), as ≠ [] →
      as.length + bs.length ≤ n → (∀ g ∈ as, g < 0x10000) →
      parseGroups n ip none (joinGroups as ++ ':' :: ':' :: joinGroups bs)
        = some (ip ++ as.flatMap be16 ++ bs.flatMap be16,
            some (ip ++ as.flatMap be16).length, []) := by
  intro as
  induction as with
  | nil => exact fun _ _ h => absurd rfl h
  | cons g gs ih =>
    intro n ip _ hn hlt
    obtain ⟨n, rfl⟩ : ∃ k, n = k + 1 := ⟨n - 1, by simp at hn; omega⟩
    have hg : g < 0x10000 := hlt g List.mem_cons_self
    cases gs with
    | nil =>
      rw [joinGroups_singleton, parseGroups_ellipsis hg, List.flatMap_singleton]
      cases bs with
      | nil => simp [joinGroups]
      | cons b bs =>
        obtain ⟨c, cs, hcs, _⟩ := joinGroups_head (hb b List.mem_cons_self) bs
        rw [if_neg (by rw [hcs]; exact List.cons_ne_nil _ _),
          parseGroups_joinGroups (b :: bs) n _ (List.cons_ne_nil _ _)
            (by simp at hn ⊢; omega) hb]
    | cons g' gs =>
      have hg' : g' < 0x10000 := hlt g' (by simp)
      obtain ⟨c, cs, hcs, hc⟩ := joinGroups_head hg' gs
      have ih' := ih n (ip ++ be16 g) (List.cons_ne_nil _ _)
        (by simp at hn ⊢; omega) (fun x hx => hlt x (List.mem_cons_of_mem _ hx))
      rw [hcs, List.cons_append] at ih'
      rw [joinGroups_cons, hcs, List.append_assoc, List.cons_append,
        List.cons_append, parseGroups_colon hg hc, ih']
      simp only [List.flatMap_cons, List.append_assoc]

theorem parseIPv6_of_digit {c : Char} {cs : List Char} (hc : isHexDigit c = true) :
    parseIPv6 (c :: cs) = (parseGroups 8 [] none (c :: cs)).bind expandEllipsis := by
  have hcc : c ≠ ':' := by
    rintro rfl
    exact absurd hc (by decide)
  unfold parseIPv6
  split <;> simp_all

theorem flatMap_be16_length (gs : List Nat) :
    (gs.flatMap be16).length = 2 * gs.length := by
  induction gs with
  | nil => rfl
  | cons g gs ih =>
    rw [List.flatMap_cons, List.length_append, ih, List.length_cons]
    simp only [be16, List.length_cons, List.length_nil]
    omega

/-- Eight groups without a `::` read back. -/
theorem parseIPv6_joinGroups {gs : List Nat} (hl : gs.length = 8)
    (hlt : ∀ g ∈ gs, g < 0x10000) :
    parseIPv6 (joinGroups gs) = some (gs.flatMap be16) := by
  obtain ⟨g, gs, rfl⟩ := List.exists_cons_of_length_eq_add_one hl
  obtain ⟨c, cs, hcs, hc⟩ := joinGroups_head (hlt g List.mem_cons_self) gs
  rw [hcs, parseIPv6_of_digit hc, ← hcs,
    parseGroups_joinGroups _ 8 [] (List.cons_ne_nil _ _) (by omega) hlt,
    List.nil_append, Option.bind_some, expandEllipsis, if_neg (by simp),
    if_pos (by rw [flatMap_be16_length, hl])]

/-- Two lists of groups around a `::` read back with the zeros between. -/
theorem parseIPv6_ellipsis {as bs : List Nat} (hl : as.length + bs.length < 8)
    (ha : ∀ g ∈ as, g < 0x10000) (hb : ∀ g ∈ bs, g < 0x10000) :
    parseIPv6 (joinGroups as ++ ':' :: ':' :: joinGroups bs)
      = some (as.flatMap be16 ++
          List.replicate (16 - 2 * (as.length + bs.length)) 0 ++
          bs.flatMap be16) := by
  cases as with
  | nil =>
    cases bs with
    | nil => simp [joinGroups, parseIPv6]
    | cons b bs =>
      obtain ⟨c, cs, hcs, _⟩ := joinGroups_head (hb b List.mem_cons_self) bs
      have hp : parseIPv6 (joinGroups [] ++ ':' :: ':' :: joinGroups (b :: bs))
          = (parseGroups 8 [] (some 0) (joinGroups (b :: bs))).bind
            expandEllipsis := by
        rw [hcs]
        rfl
      have hlen : ((b :: bs).flatMap be16).length < 16 := by
        rw [flatMap_be16_length]
        simp at hl ⊢
        omega
      rw [hp, parseGroups_joinGroups _ 8 [] (List.cons_ne_nil _ _)
          (by simp at hl ⊢; omega) hb, List.nil_append, Option.bind_some,
        expandEllipsis, if_neg (by simp), if_pos hlen, flatMap_be16_length]
      simp
  | cons a as =>
    obtain ⟨c, cs, hcs, hc⟩ := joinGroups_head (ha a List.mem_cons_self) as
    have hlen : ((a :: as).flatMap be16 ++ bs.flatMap be16).length
        = 2 * ((a :: as).length + bs.length) := by
      rw [List.length_append, flatMap_be16_length, flatMap_be16_length]
      omega
    rw [hcs, List.cons_append, parseIPv6_of_digit hc, ← List.cons_append, ← hcs,
      parseGroups_joinGroups_ellipsis hb _ 8 [] (List.cons_ne_nil _ _) (by omega)
        ha, List.nil_append, Option.bind_some, expandEllipsis, if_neg (by simp),
      if_pos (by omega), List.take_left' rfl, List.drop_left' rfl, hlen]

/-- What the search for zero groups has found so far: nothing, or a run of at
least two groups that are all zero. -/
def ZeroSpanOk (gs : List Nat) : Option (Nat × Nat) → Prop
  | none => True
  | some (zs, ze) => zs + 2 ≤ ze ∧ ze ≤ gs.length ∧
      gs = gs.take zs ++ List.replicate (ze - zs) 0 ++ gs.drop ze

theorem zeroRun_split (gs : List Nat) (i : Nat) :
    gs.drop i = List.replicate (zeroRun gs i) 0 ++ gs.drop (i + zeroRun gs i) := by
  have htake : (gs.drop i).takeWhile (· == 0) = List.replicate (zeroRun gs i) 0 := by
    refine List.eq_replicate_of_mem fun x hx => ?_
    simpa using List.mem_takeWhile_imp hx
  have hsplit := List.takeWhile_append_dropWhile (p := (· == 0)) (l := gs.drop i)
  have hdrop : (gs.drop i).drop (zeroRun gs i) = (gs.drop i).dropWhile (· == 0) := by
    conv_lhs => rw [← hsplit]
    exact List.drop_left' rfl
  rw [← htake, ← List.drop_drop, hdrop, hsplit]

theorem zeroStep_ok {gs : List Nat} {best : Option (Nat × Nat)} {i : Nat}
    (h : ZeroSpanOk gs best) : ZeroSpanOk gs (zeroStep gs best i) := by
  rw [zeroStep]
  split_ifs with hl
  · have hrun : i + zeroRun gs i ≤ gs.length := by
      have hle : zeroRun gs i ≤ (gs.drop i).length :=
        (List.takeWhile_sublist _).length_le
      rw [List.length_drop] at hle
      omega
    refine ⟨by omega, hrun, ?_⟩
    rw [List.append_assoc, show i + zeroRun gs i - i = zeroRun gs i by omega,
      ← zeroRun_split, List.take_append_drop]
  · exact h

theorem zeroSpan_ok (gs : List Nat) : ZeroSpanOk gs (zeroSpan gs) := by
  rw [zeroSpan]
  generalize List.range 8 = is
  have hgen : ∀ best, ZeroSpanOk gs best →
      ZeroSpanOk gs (is.foldl (zeroStep gs) best) := by
    induction is with
    | nil => exact fun _ h => h
    | cons i is ih => exact fun best h => ih _ (zeroStep_ok h)
  exact hgen none trivial

theorem groupsOf_lt (ip : Bytes) : ∀ g ∈ groupsOf ip, g < 0x10000 := by
  fun_induction groupsOf ip with
  | case1 hi lo rest ih =>
    intro g hg
    rcases List.mem_cons.1 hg with rfl | hg
    · have h1 := hi.toNat_lt
      have h2 := lo.toNat_lt
      omega
    · exact ih g hg
  | case2 => simp

theorem flatMap_be16_groupsOf (ip : Bytes) (h : ip.length % 2 = 0) :
    (groupsOf ip).flatMap be16 = ip := by
  fun_induction groupsOf ip with
  | case1 hi lo rest ih =>
    have h1 : (hi.toNat * 256 + lo.toNat) / 256 = hi.toNat := by
      have := lo.toNat_lt
      omega
    have h2 : (hi.toNat * 256 + lo.toNat) % 256 = lo.toNat := by
      have := lo.toNat_lt
      omega
    rw [List.flatMap_cons, ih (by simp at h; omega), be16, h1, h2]
    simp
  | case2 l hl =>
    match l, hl with
    | [], _ => rfl
    | [b], _ => simp at h
    | hi :: lo :: rest, hl => exact absurd rfl (hl hi lo rest)

theorem groupsOf_length (ip : Bytes) (h : ip.length % 2 = 0) :
    2 * (groupsOf ip).length = ip.length := by
  rw [← flatMap_be16_length, flatMap_be16_groupsOf ip h]

/-- An IPv6 address reads back from its text. -/
theorem parseIPv6_ipv6Text {ip : Bytes} (h : ip.length = 16) :
    parseIPv6 (ipv6Text ip) = some ip := by
  have hlen := groupsOf_length ip (by omega)
  have hlt := groupsOf_lt ip
  have hbytes := flatMap_be16_groupsOf ip (by omega)
  have hok := zeroSpan_ok (groupsOf ip)
  rw [ipv6Text, groupsText]
  cases hz : zeroSpan (groupsOf ip) with
  | none => rw [parseIPv6_joinGroups (by omega) hlt, hbytes]
  | some span =>
    obtain ⟨zs, ze⟩ := span
    rw [hz] at hok
    obtain ⟨hle, hze, hsplit⟩ := hok
    have htake : ((groupsOf ip).take zs).length = zs := by
      rw [List.length_take]
      omega
    have hdrop : ((groupsOf ip).drop ze).length = 8 - ze := by
      rw [List.length_drop]
      omega
    have hzeros : ∀ k, (List.replicate k 0).flatMap be16
        = List.replicate (2 * k) (0 : UInt8) := by
      intro k
      induction k with
      | zero => rfl
      | succ k ih =>
        rw [List.replicate_succ, List.flatMap_cons, ih,
          show 2 * (k + 1) = 2 * k + 1 + 1 by omega, List.replicate_succ,
          List.replicate_succ]
        rfl
    rw [parseIPv6_ellipsis (by omega)
      (fun g hg => hlt g (List.mem_of_mem_take hg))
      (fun g hg => hlt g (List.mem_of_mem_drop hg)), htake, hdrop,
      show 16 - 2 * (zs + (8 - ze)) = 2 * (ze - zs) by omega, ← hzeros,
      ← List.flatMap_append, ← List.flatMap_append, ← hsplit, hbytes]

/-! ## The characters of a printed address -/

theorem isHexDigit_val_lt {c : Char} (h : isHexDigit c = true) : c.toNat < 128 := by
  rw [isHexDigit, hexDigit?] at h
  have hle : ∀ {a b : Char}, a ≤ b → a.toNat ≤ b.toNat := fun hab => hab
  split_ifs at h with h1 h2 h3
  · exact lt_of_le_of_lt (hle h1.2) (by decide)
  · exact lt_of_le_of_lt (hle h2.2) (by decide)
  · exact lt_of_le_of_lt (hle h3.2) (by decide)
  · exact absurd h (by simp)

theorem isHexDigit_plain {c : Char} (h : isHexDigit c = true) :
    isSpace c = false ∧ c ≠ '%' ∧ c ≠ '.' ∧ c ≠ ':' := by
  have hall : ∀ n < 128, isHexDigit (Char.ofNat n) = true →
      isSpace (Char.ofNat n) = false ∧ Char.ofNat n ≠ '%' ∧
        Char.ofNat n ≠ '.' ∧ Char.ofNat n ≠ ':' := by decide
  have hc := hall c.toNat (isHexDigit_val_lt h)
  rw [Char.ofNat_toNat] at hc
  exact hc h

theorem joinGroups_chars {gs : List Nat} (hlt : ∀ g ∈ gs, g < 0x10000) :
    ∀ c ∈ joinGroups gs, isHexDigit c = true ∨ c = ':' := by
  induction gs with
  | nil => simp [joinGroups]
  | cons g gs ih =>
    intro c hc
    cases gs with
    | nil =>
      rw [joinGroups_singleton] at hc
      exact Or.inl (isHexDigit_of_mem_hexText (hlt g List.mem_cons_self) hc)
    | cons g' gs =>
      rw [joinGroups_cons, List.mem_append, List.mem_cons] at hc
      rcases hc with hc | rfl | hc
      · exact Or.inl (isHexDigit_of_mem_hexText (hlt g List.mem_cons_self) hc)
      · exact Or.inr rfl
      · exact ih (fun x hx => hlt x (List.mem_cons_of_mem _ hx)) c hc

theorem ipv6Text_chars (ip : Bytes) :
    ∀ c ∈ ipv6Text ip, isHexDigit c = true ∨ c = ':' := by
  intro c hc
  rw [ipv6Text, groupsText] at hc
  split at hc
  · exact joinGroups_chars (groupsOf_lt ip) c hc
  · rw [List.mem_append, List.mem_cons, List.mem_cons] at hc
    rcases hc with hc | rfl | rfl | hc
    · exact joinGroups_chars
        (fun g hg => groupsOf_lt ip g (List.mem_of_mem_take hg)) c hc
    · exact Or.inr rfl
    · exact Or.inr rfl
    · exact joinGroups_chars
        (fun g hg => groupsOf_lt ip g (List.mem_of_mem_drop hg)) c hc

theorem octet?_decimalText :
    ∀ n < 256, octet? (decimalText n) = some (UInt8.ofNat n) ∧
      (decimalText n).all isHexDigit = true := by
  decide +kernel

theorem ipv4Text_chars (ip : Bytes) :
    ∀ c ∈ ipv4Text ip, isHexDigit c = true ∨ c = '.' := by
  induction ip with
  | nil => simp [ipv4Text]
  | cons b bs ih =>
    intro c hc
    have hb := List.all_eq_true.1 (octet?_decimalText b.toNat b.toNat_lt).2
    cases bs with
    | nil =>
      rw [ipv4Text, List.map_singleton, List.intersperse_singleton,
        List.flatten_singleton] at hc
      exact Or.inl (hb c hc)
    | cons b' bs =>
      have htext : ipv4Text (b :: b' :: bs)
          = decimalText b.toNat ++ '.' :: ipv4Text (b' :: bs) := by
        simp [ipv4Text]
      rw [htext, List.mem_append, List.mem_cons] at hc
      rcases hc with hc | rfl | hc
      · exact Or.inl (hb c hc)
      · exact Or.inr rfl
      · exact ih c hc

theorem parseIPv4_ipv4Text {ip : Bytes} (h : ip.length = 4) :
    parseIPv4 (ipv4Text ip) = some ip := by
  have hne : (ip.map fun b => decimalText b.toNat) ≠ [] := by
    intro hnil
    rw [List.map_eq_nil_iff] at hnil
    simp [hnil] at h
  have hdot : ∀ l ∈ ip.map (fun b => decimalText b.toNat), '.' ∉ l := by
    intro l hl hmem
    obtain ⟨b, _, rfl⟩ := List.mem_map.1 hl
    have hd := List.all_eq_true.1 (octet?_decimalText b.toNat b.toNat_lt).2 '.' hmem
    exact absurd hd (by decide)
  have hsplit := List.splitOn_intercalate '.' hdot hne
  rw [List.splitOn_eq_splitOnP, List.intercalate] at hsplit
  have hmap : (ip.map fun b => decimalText b.toNat).mapM octet? = some ip := by
    clear hsplit hdot hne h
    induction ip with
    | nil => rfl
    | cons b bs ih =>
      rw [List.map_cons, List.mapM_cons,
        (octet?_decimalText b.toNat b.toNat_lt).1, ih]
      simp
  rw [parseIPv4, ipv4Text, hsplit, hmap, Option.filter_some, if_pos (by simp [h])]

/-- The first separator of a text decides how `netip` reads it. -/
theorem find?_separator {cs : List Char} {sep : Char}
    (hsep : sep = '.' ∨ sep = ':') (hmem : sep ∈ cs)
    (hcs : ∀ c ∈ cs, isHexDigit c = true ∨ c = sep) :
    cs.find? (fun c => c == '.' || c == ':') = some sep := by
  induction cs with
  | nil => exact absurd hmem (by simp)
  | cons c cs ih =>
    rcases hcs c List.mem_cons_self with hd | rfl
    · have hp := isHexDigit_plain hd
      rw [List.find?_cons_of_neg (by simp [hp.2.2.1, hp.2.2.2])]
      refine ih ?_ (fun x hx => hcs x (List.mem_cons_of_mem _ hx))
      rcases List.mem_cons.1 hmem with rfl | h
      · rcases hsep with rfl | rfl
        · exact absurd rfl hp.2.2.1
        · exact absurd rfl hp.2.2.2
      · exact h
    · rw [List.find?_cons_of_pos (by simpa using hsep)]

theorem colon_mem_ipv6Text {ip : Bytes} (h : ip.length = 16) : ':' ∈ ipv6Text ip := by
  have hlen := groupsOf_length ip (by omega)
  rw [ipv6Text, groupsText]
  split
  · obtain ⟨g, gs, hg⟩ := List.exists_cons_of_length_eq_add_one
      (show (groupsOf ip).length = 7 + 1 by omega)
    obtain ⟨g', gs, rfl⟩ := List.exists_cons_of_length_eq_add_one
      (show gs.length = 6 + 1 by rw [hg] at hlen; simp at hlen; omega)
    rw [hg, joinGroups_cons]
    simp
  · simp

/-- The round trip: an address in its sixteen-byte form reads back from what
`String` prints. -/
theorem parseIP_ipString {ip : IP} (h : ip.length = 16) :
    parseIP (ipString ip) = some ip := by
  rw [ipString, parseIP, parseAddr]
  by_cases hp : ip.take 12 = v4InV6Prefix
  · have h4 : to4 ip = some (ip.drop 12) := by
      rw [to4, if_neg (by omega), if_pos ⟨h, hp⟩]
    have hlen : (ip.drop 12).length = 4 := by
      rw [List.length_drop, h]
    have hchars := ipv4Text_chars (ip.drop 12)
    have hdot : '.' ∈ ipv4Text (ip.drop 12) := by
      obtain ⟨a, as, ha⟩ := List.exists_cons_of_length_eq_add_one hlen
      obtain ⟨b, bs, rfl⟩ := List.exists_cons_of_length_eq_add_one
        (show as.length = 2 + 1 by rw [ha] at hlen; simpa using hlen)
      rw [ha]
      simp [ipv4Text]
    have hzone : '%' ∉ ipv4Text (ip.drop 12) := by
      intro hmem
      rcases hchars '%' hmem with hd | hd
      · exact absurd hd (by decide)
      · exact absurd hd (by decide)
    rw [h4]
    simp only [String.toList_ofList]
    rw [if_neg hzone, find?_separator (Or.inl rfl) hdot hchars]
    simp only [if_true]
    rw [parseIPv4_ipv4Text hlen, Option.map_some, as16, if_pos hlen, ← hp,
      List.take_append_drop]
  · have hne : ip ≠ [] := by
      rintro rfl
      simp at h
    have hchars := ipv6Text_chars ip
    have hzone : '%' ∉ ipv6Text ip := by
      intro hmem
      rcases hchars '%' hmem with hd | hd
      · exact absurd hd (by decide)
      · exact absurd hd (by decide)
    rw [to4_eq_none_of_length h hp]
    simp only [if_neg hne, if_pos h, String.toList_ofList]
    rw [if_neg hzone, find?_separator (Or.inr rfl) (colon_mem_ipv6Text h) hchars]
    simp only [if_neg (show ':' ≠ '.' by decide)]
    rw [parseIPv6_ipv6Text h, Option.map_some, as16, if_neg (by omega)]

theorem ipString_not_isSpace {ip : IP} (h : ip.length = 16) :
    ∀ c ∈ (ipString ip).toList, isSpace c = false := by
  intro c hc
  rw [ipString] at hc
  split at hc
  · rename_i v4 _
    rw [String.toList_ofList] at hc
    rcases ipv4Text_chars v4 c hc with hd | rfl
    · exact (isHexDigit_plain hd).1
    · decide
  · have hne : ip ≠ [] := by
      rintro rfl
      simp at h
    rw [if_neg hne, if_pos h, String.toList_ofList] at hc
    rcases ipv6Text_chars ip c hc with hd | rfl
    · exact (isHexDigit_plain hd).1
    · decide

/-! ## The shape of what is read -/

theorem parseIPv4_length {cs : List Char} {ip : Bytes}
    (h : parseIPv4 cs = some ip) : ip.length = 4 := by
  rw [parseIPv4, Option.filter_eq_some_iff] at h
  simpa using h.2

theorem expandEllipsis_length {r : Bytes × Option Nat × List Char} {ip : Bytes}
    (h : expandEllipsis r = some ip) : ip.length = 16 := by
  obtain ⟨bs, e, s⟩ := r
  cases e with
  | none =>
    rw [expandEllipsis] at h
    split_ifs at h with hs hl
    rw [← Option.some.inj h, hl]
  | some e =>
    rw [expandEllipsis] at h
    split_ifs at h with hs hl
    rw [← Option.some.inj h, List.length_append, List.length_append,
      List.length_take, List.length_replicate, List.length_drop]
    omega

theorem parseIPv6_length {cs : List Char} {ip : Bytes}
    (h : parseIPv6 cs = some ip) : ip.length = 16 := by
  unfold parseIPv6 at h
  split at h
  · rw [← Option.some.inj h, List.length_replicate]
  all_goals
    obtain ⟨r, _, hr⟩ := Option.bind_eq_some_iff.1 h
    exact expandEllipsis_length hr

theorem parseAddr_length {cs : List Char} {ip : IP} (h : parseAddr cs = some ip) :
    ip.length = 4 ∨ ip.length = 16 := by
  rw [parseAddr] at h
  split_ifs at h with hz
  split at h
  · split_ifs at h with hd
    · exact Or.inl (parseIPv4_length h)
    · exact Or.inr (parseIPv6_length h)
  · exact absurd h (by simp)

theorem as16_length {ip : IP} (h : ip.length = 4 ∨ ip.length = 16) :
    (as16 ip).length = 16 := by
  rw [as16]
  rcases h with h | h
  · rw [if_pos h, List.length_append, h]
    rfl
  · rw [if_neg (by omega), h]

/-- `ParseIP` answers the sixteen-byte form. -/
theorem parseIP_length {s : String} {ip : IP} (h : parseIP s = some ip) :
    ip.length = 16 := by
  rw [parseIP, Option.map_eq_some_iff] at h
  obtain ⟨a, ha, rfl⟩ := h
  exact as16_length (parseAddr_length ha)

/-- What `ParseCIDR` has read when it answers: an address of either family, and
a number of leading ones that fits it. -/
theorem parseCIDR_eq_some {s : String} {ip : IP} {n : IPNet}
    (h : parseCIDR s = some (ip, n)) :
    ∃ (a : IP) (ones : Nat) (m : IP), (a.length = 4 ∨ a.length = 16) ∧ ones ≤ 8 * a.length ∧
      ip = as16 a ∧ maskIP (as16 a) (cidrMask ones (8 * a.length)) = some m ∧
      n = ⟨m, cidrMask ones (8 * a.length)⟩ := by
  rw [parseCIDR] at h
  simp only at h
  split_ifs at h with hs
  obtain ⟨a, ha, h⟩ := Option.bind_eq_some_iff.1 h
  obtain ⟨ones, _, h⟩ := Option.bind_eq_some_iff.1 h
  split_ifs at h with hle
  obtain ⟨m, hm, h⟩ := Option.map_eq_some_iff.1 h
  simp only [Prod.mk.injEq] at h
  exact ⟨a, ones, m, parseAddr_length ha, hle, h.1.symm, hm, h.2.symm⟩

/-- A network that `ParseCIDR` reads from an IPv6 text: the address under a
mask of leading ones. -/
theorem parseCIDR_ipv6 {s : String} {ip : IP} {n : IPNet}
    (h : parseCIDR s = some (ip, n)) (h6 : to4 ip = none) :
    ip.length = 16 ∧ ∃ ones ≤ 128,
      n = ⟨andBytes ip (cidrMask ones 128), cidrMask ones 128⟩ := by
  obtain ⟨a, ones, m, hlen, hle, rfl, hm, rfl⟩ := parseCIDR_eq_some h
  have ha16 : a.length = 16 := by
    rcases hlen with h4 | h16
    · rw [as16, if_pos h4, to4] at h6
      simp [h4, v4InV6Prefix] at h6
    · exact h16
  have has : as16 a = a := by rw [as16, if_neg (by omega)]
  rw [has, ha16, maskIP_ipv6 ha16 (cidrMask_length _ _), Option.some.injEq] at hm
  refine ⟨by rw [has, ha16], ones, by omega, ?_⟩
  rw [has, ha16, ← hm]

/-- A network that `ParseCIDR` reads has a number and a mask of one length. -/
theorem parseCIDR_wellFormed {s : String} {ip : IP} {n : IPNet}
    (h : parseCIDR s = some (ip, n)) : n.WellFormed := by
  obtain ⟨a, ones, m, hlen, hle, -, hm, rfl⟩ := parseCIDR_eq_some h
  have hmask : (cidrMask ones (8 * a.length)).length = a.length := by
    rw [cidrMask_length]
    omega
  refine ⟨?_, by rwa [hmask]⟩
  have h16 := as16_length hlen
  simp only [maskIP, h16] at hm
  split_ifs at hm with h1 h2 h3 h4 <;> first | omega | skip
  all_goals
    obtain rfl := Option.some.inj hm
    simp only [andBytes, List.length_zipWith]
    omega

example : parseIP "2001:db8::1.2.3.4" =
    some [0x20, 1, 0xd, 0xb8, 0, 0, 0, 0, 0, 0, 0, 0, 1, 2, 3, 4] := by decide

example : (parseIP "300:0:0:1::").map ipString = some "300:0:0:1::" := by decide

end Ydn64.GoStd
