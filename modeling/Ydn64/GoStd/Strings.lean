import Mathlib.Data.List.DropRight

/-!
# The string functions of the Go standard library

The configuration code reads its text through `strings`, `unicode`, `strconv`
and `net.SplitHostPort`.  This file gives the functions it calls, as functions
on Lean strings: a Go string is taken to be well-formed UTF-8, so it is a list
of characters.  The scanners work on that list.

`unicode.ToLower` is a table of the Unicode standard.  `UnicodeCase` is that
table with the two facts about it that the code relies on: it is the usual
mapping on ASCII, and a lower-case letter is its own lower case.  Every
function that folds case takes the table as an argument.  `asciiCase` is a
table that agrees with the real one on ASCII text.
-/

namespace Ydn64.GoStd

/-! ## Characters -/

/-- `unicode.ToLower` on every rune, with the laws of the table. -/
structure UnicodeCase where
  toLower : Char → Char
  /-- On ASCII the table is the usual mapping. -/
  toLower_ascii : ∀ c : Char, c.val < 128 → toLower c = c.toLower
  /-- A lower-case letter is its own lower case. -/
  toLower_idem : ∀ c : Char, toLower (toLower c) = toLower c

theorem char_toLower_toLower (c : Char) : c.toLower.toLower = c.toLower := by
  unfold Char.toLower
  grind

theorem eq_dot_of_toLower {c : Char} (h : c.toLower = '.') : c = '.' := by
  unfold Char.toLower at h
  split_ifs at h with hupper
  · have hval : c.val + 32 = 46 := congrArg Char.val h
    have hge : 65 ≤ c.val.toNat := UInt32.le_iff_toNat_le.1 hupper.1
    have hle : c.val.toNat ≤ 90 := UInt32.le_iff_toNat_le.1 hupper.2
    have hsum := congrArg UInt32.toNat hval
    rw [UInt32.toNat_add] at hsum
    change (c.val.toNat + 32) % 2 ^ 32 = 46 at hsum
    omega
  · exact h

/-- The table that folds ASCII letters and nothing else. -/
def asciiCase : UnicodeCase where
  toLower := Char.toLower
  toLower_ascii := fun _ _ => rfl
  toLower_idem := char_toLower_toLower

/-- `unicode.IsSpace`: the characters with the property White Space. -/
def isSpace (c : Char) : Bool :=
  let n := c.toNat
  (0x09 ≤ n && n ≤ 0x0d) || n == 0x20 || n == 0x85 || n == 0xa0 ||
    n == 0x1680 || (0x2000 ≤ n && n ≤ 0x200a) || n == 0x2028 || n == 0x2029 ||
    n == 0x202f || n == 0x205f || n == 0x3000

/-! ## Strings -/

/-- `strings.ToLower`. -/
def toLower (uc : UnicodeCase) (s : String) : String :=
  String.ofList (s.toList.map uc.toLower)

/-- `strings.TrimSpace`. -/
def trimSpace (s : String) : String :=
  String.ofList ((s.toList.dropWhile isSpace).rdropWhile isSpace)

/-- `strings.TrimSuffix(s, ".")`. -/
def trimSuffixDot (s : String) : String :=
  if s.toList.getLast? = some '.' then String.ofList s.toList.dropLast else s

/-- `strings.TrimPrefix(s, ".")`. -/
def trimPrefixDot (s : String) : String :=
  if s.toList.head? = some '.' then String.ofList s.toList.tail else s

/-- One rune of `strings.EqualFold` against an ASCII rune.  The folding orbit
of an ASCII letter is its two cases, and for `k` and `s` also the Kelvin sign
and the long s. -/
def equalFoldRune (c d : Char) : Bool :=
  c == d || (c.val < 128 && c.toLower == d.toLower) ||
    (c.toNat == 0x212a && d.toLower == 'k') ||
    (c.toNat == 0x017f && d.toLower == 's')

/-- `strings.EqualFold(s, t)` for an ASCII string `t`. -/
def equalFold (s t : String) : Bool :=
  s.toList.length == t.toList.length &&
    (s.toList.zip t.toList).all fun p => equalFoldRune p.1 p.2

/-- `strings.FieldsFunc`: the non-empty pieces between the separators. -/
def fieldsFunc (sep : Char → Bool) (s : String) : List String :=
  ((s.toList.splitOnP sep).filter fun f => !f.isEmpty).map String.ofList

/-- A string of lower-case ASCII. -/
def isLowerASCII (s : String) : Bool :=
  s.toList.all fun c => c.val < 128 ∧ c.toLower = c

theorem toLower_eq_self (uc : UnicodeCase) {s : String} (hlow : isLowerASCII s = true) :
    toLower uc s = s := by
  have h : ∀ c ∈ s.toList, c.val < 128 ∧ c.toLower = c := fun c hc =>
    of_decide_eq_true (List.all_eq_true.1 hlow c hc)
  have hmap : s.toList.map uc.toLower = s.toList := by
    conv_rhs => rw [← List.map_id s.toList]
    refine List.map_congr_left fun c hc => ?_
    rw [uc.toLower_ascii c (h c hc).1, (h c hc).2]
    rfl
  rw [toLower, hmap, String.ofList_toList]

theorem toLower_toLower (uc : UnicodeCase) (s : String) :
    toLower uc (toLower uc s) = toLower uc s := by
  have hfun : uc.toLower ∘ uc.toLower = uc.toLower := funext uc.toLower_idem
  rw [toLower, toLower, String.toList_ofList, List.map_map, hfun]

theorem toLower_ne_empty (uc : UnicodeCase) {s : String} (h : s ≠ "") :
    toLower uc s ≠ "" := by
  intro he
  have hl := congrArg (fun t => t.toList.length) he
  simp only [toLower, String.toList_ofList, List.length_map] at hl
  refine h (String.toList_injective ?_)
  exact List.length_eq_zero_iff.1 hl

theorem equalFold_iff_eq {s t : String} (hs : isLowerASCII s = true) (ht : isLowerASCII t = true) :
    equalFold s t = true ↔ s = t := by
  have hrune : ∀ c d : Char, c.val < 128 → c.toLower = c → d.toLower = d →
      (equalFoldRune c d = true ↔ c = d) := by
    intro c d hc hclow hdlow
    have hascii : c.toNat < 128 := UInt32.lt_iff_toNat_lt.1 hc
    have hkelvin : (c.toNat == 0x212a) = false := beq_eq_false_iff_ne.2 (by omega)
    have hlong : (c.toNat == 0x017f) = false := beq_eq_false_iff_ne.2 (by omega)
    simp [equalFoldRune, hclow, hdlow, hkelvin, hlong]
  rw [← String.toList_inj]
  unfold isLowerASCII at hs ht
  unfold equalFold
  generalize s.toList = cs at hs ⊢
  generalize t.toList = ds at ht ⊢
  induction cs generalizing ds with
  | nil => cases ds <;> simp
  | cons c cs ih =>
    cases ds with
    | nil => simp
    | cons d ds =>
      simp only [List.all_cons, Bool.and_eq_true, decide_eq_true_iff] at hs ht
      have hcd := hrune c d hs.1.1 hs.1.2 ht.1.2
      have hrec := ih hs.2 ds ht.2
      simp only [List.length_cons, List.zip_cons_cons, List.all_cons, List.cons.injEq,
        Bool.and_eq_true, hcd, ← hrec, beq_iff_eq, Nat.add_right_cancel_iff]
      exact and_left_comm

theorem trimSpace_eq_self {s : String} (h : ∀ c ∈ s.toList, isSpace c = false) :
    trimSpace s = s := by
  have hfront : s.toList.dropWhile isSpace = s.toList := by
    cases hs : s.toList with
    | nil => rfl
    | cons c cs =>
      have hc := h c (by rw [hs]; exact List.mem_cons_self)
      rw [List.dropWhile_cons_of_neg (by rw [hc]; exact Bool.false_ne_true)]
  have hback : s.toList.rdropWhile isSpace = s.toList := by
    rw [List.rdropWhile_eq_self_iff]
    intro hne
    rw [h _ (List.getLast_mem hne)]
    exact Bool.false_ne_true
  rw [trimSpace, hfront, hback, String.ofList_toList]

/-! ## Numbers -/

/-- The value of a decimal digit. -/
def decDigit? (c : Char) : Option Nat :=
  if '0' ≤ c ∧ c ≤ '9' then some (c.toNat - '0'.toNat) else none

/-- The value of a hexadecimal digit of either case. -/
def hexDigit? (c : Char) : Option Nat :=
  if '0' ≤ c ∧ c ≤ '9' then some (c.toNat - '0'.toNat)
  else if 'a' ≤ c ∧ c ≤ 'f' then some (c.toNat - 'a'.toNat + 10)
  else if 'A' ≤ c ∧ c ≤ 'F' then some (c.toNat - 'A'.toNat + 10)
  else none

/-- A non-empty string of decimal digits, most significant first. -/
def decimal? (cs : List Char) : Option Nat :=
  if cs = [] then none
  else cs.foldlM (fun n c => (decDigit? c).map fun d => 10 * n + d) 0

/-- `strconv.Atoi`: an optional sign and decimal digits.  `none` stands for
its error, which a value outside `int64` is as well. -/
def atoi (s : String) : Option Int :=
  let n := match s.toList with
    | '-' :: cs => (decimal? cs).map fun n => -(n : Int)
    | '+' :: cs => (decimal? cs).map fun n => (n : Int)
    | cs => (decimal? cs).map fun n => (n : Int)
  n.filter fun n => -9223372036854775808 ≤ n && n ≤ 9223372036854775807

/-- `dtoi` of the `net` package, on a whole string: decimal digits below its
cap `0xFFFFFF`. -/
def dtoi (cs : List Char) : Option Nat :=
  (decimal? cs).filter fun n => n < 0xFFFFFF

/-- `hex.DecodeString`: an even number of hexadecimal digits. -/
def hexDecode : List Char → Option (List UInt8)
  | [] => some []
  | [_] => none
  | hi :: lo :: rest => do
    let h ← hexDigit? hi
    let l ← hexDigit? lo
    let bytes ← hexDecode rest
    pure (UInt8.ofNat (16 * h + l) :: bytes)

/-! ## Host and port -/

/-- The text after the last colon. -/
def afterLastColon (cs : List Char) : List Char :=
  cs.rtakeWhile (· ≠ ':')

/-- `net.SplitHostPort`.  The port is what follows the last colon.  A host in
brackets must end right before that colon, and a host without them holds no
colon of its own.  No other bracket may occur. -/
def splitHostPort (s : String) : Option (String × String) :=
  let cs := s.toList
  if ':' ∉ cs then none
  else
    let port := afterLastColon cs
    let host := cs.take (cs.length - port.length - 1)
    match host with
    | '[' :: rest =>
      if ']' ∉ rest then none
      else
        let inner := rest.takeWhile (· ≠ ']')
        -- `end+1 == i`: the bracket closes right before the last colon.
        if inner.length + 1 = rest.length ∧ '[' ∉ inner ∧ '[' ∉ port ∧
            ']' ∉ port then
          some (String.ofList inner, String.ofList port)
        else none
    | _ =>
      if ':' ∈ host ∨ '[' ∈ cs ∨ ']' ∈ cs then none
      else some (String.ofList host, String.ofList port)

example : splitHostPort "[2001:db8::1]:53" = some ("2001:db8::1", "53") := by
  decide

example : splitHostPort "2001:db8::1:53" = none := by decide

end Ydn64.GoStd
