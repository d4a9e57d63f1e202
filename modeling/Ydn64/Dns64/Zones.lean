import Ydn64.Lib.Joined
import Ydn64.Lib.FirstMatch
import Ydn64.Dns64.Proxy

/-!
# Which zone a name belongs to

`src/dns64/zones.go` works on text: `buildZones` writes the configured domains in
lower case and without a leading dot, and `matchZone` compares the end of the name
with a dot and the domain.  What is meant are labels: a zone takes the names whose
last labels are those of one of its domains.

* `selectZone` is `matchZone` with the index of the zone for the pointer to it
  (`matchZone_eq`).  The loop is the one of `Lib.FirstMatch`.
* `zone_routing`: for domains and names made of labels the zone is the first one
  with a domain whose labels end the name, or else one that lists the catch-all.
* `respelling_iff`: the ways to write one domain.  Letter case and a leading dot
  make no difference.  A trailing dot does: `buildZones` leaves it on the domain,
  `matchZone` takes it off the name, and the two no longer meet.  The theorem is the
  exact condition under which the name is routed as before.
-/

namespace Ydn64.Dns64

open Ydn64.GoStd Ydn64.Config Ydn64.Lib

/-! ## The index of the zone -/

/-- The name as `matchZone` compares it. -/
def queryName (uc : UnicodeCase) (fqdn : String) : String := trimSuffixDot (toLower uc fqdn)

namespace Zone

/-- A domain of the zone matches. -/
def takes (uc : UnicodeCase) (name : String) (z : Zone) : Bool :=
  z.domains.any fun d => d ≠ "." && domainMatches uc name d

/-- The zone lists the catch-all. -/
def isDefault (z : Zone) : Bool := decide ("." ∈ z.domains)

end Zone

/-- `matchZone`, with the index of the zone. -/
def selectZone (uc : UnicodeCase) (zones : List Zone) (fqdn : String) : Option Nat :=
  select (Zone.takes uc (queryName uc fqdn)) Zone.isDefault zones

theorem matchZoneFrom_eq (uc : UnicodeCase) (name : String) (pre zones : List Zone)
    (d : Option Nat) :
    matchZoneFrom uc name (d.bind fun i => (pre ++ zones)[i]?) zones =
      (selectFrom (Zone.takes uc name) Zone.isDefault pre.length d zones).bind fun i =>
        (pre ++ zones)[i]? := by
  induction zones generalizing pre d with
  | nil => rfl
  | cons z zones ih =>
    have hz : (pre ++ z :: zones)[pre.length]? = some z := by simp
    have hrest := ih (pre ++ [z]) (if z.isDefault then some pre.length else d)
    rw [List.append_assoc, List.singleton_append, List.length_append, List.length_singleton]
      at hrest
    unfold matchZoneFrom
    cases htakes : z.takes uc name with
    | true =>
      rw [selectFrom_cons_of_pos htakes, Option.bind_some, hz]
      exact if_pos htakes
    | false =>
      rw [selectFrom_cons_of_neg htakes, ← hrest]
      refine (if_neg (by rw [← Zone.takes, htakes]; exact Bool.false_ne_true)).trans ?_
      congr 1
      unfold Zone.isDefault
      by_cases hdot : "." ∈ z.domains
      · simp [hdot]
      · simp [hdot]

/-- `matchZone` returns the zone that is selected. -/
theorem matchZone_eq (uc : UnicodeCase) (zones : List Zone) (fqdn : String) :
    matchZone uc zones fqdn = (selectZone uc zones fqdn).bind fun i => zones[i]? :=
  matchZoneFrom_eq uc (queryName uc fqdn) [] zones none

/-! ## Labels -/

/-- Letters, digits and hyphens. -/
def hostChar (c : Char) : Bool := c.isAlphanum || c == '-'

/-- Labels that are not empty and made of such characters. -/
def HostLabels (labels : List (List Char)) : Prop :=
  ∀ label ∈ labels, label ≠ [] ∧ label.all hostChar = true

instance (labels : List (List Char)) : Decidable (HostLabels labels) :=
  inferInstanceAs (Decidable (∀ label ∈ labels, _))

/-- The labels of a configured domain. -/
def domainLabels (d : String) : List (List Char) := (trimPrefixDot d).toList.splitOn '.'

/-- The labels of a name.  The root has none. -/
def nameLabels (fqdn : String) : List (List Char) :=
  if trimSuffixDot fqdn = "" then [] else (trimSuffixDot fqdn).toList.splitOn '.'

/-- Labels up to the case of their letters. -/
def foldCase (labels : List (List Char)) : List (List Char) := labels.map (List.map Char.toLower)

/-- The last labels of the name are those of the domain. -/
def Routes (fqdn d : String) : Prop :=
  d ≠ "." ∧ foldCase (domainLabels d) <:+ foldCase (nameLabels fqdn)

instance (fqdn d : String) : Decidable (Routes fqdn d) :=
  inferInstanceAs (Decidable (d ≠ "." ∧ _))

/-! ### Their text -/

theorem val_lt_of_hostChar {c : Char} (h : hostChar c = true) : c.val < 128 := by
  have hcases : (((c.isUpper || c.isLower) || c.isDigit) || c == '-') = true := h
  simp only [Bool.or_eq_true, beq_iff_eq] at hcases
  rw [UInt32.lt_iff_toNat_lt]
  rcases hcases with ((hupper | hlower) | hdigit) | rfl
  · have hle : c.val.toNat ≤ 90 := UInt32.le_iff_toNat_le.1 (of_decide_eq_true hupper).2
    show c.val.toNat < 128
    omega
  · have hle : c.val.toNat ≤ 122 :=
      UInt32.le_iff_toNat_le.1 (of_decide_eq_true (Bool.and_eq_true_iff.1 hlower).2)
    show c.val.toNat < 128
    omega
  · have hle : c.val.toNat ≤ 57 :=
      UInt32.le_iff_toNat_le.1 (of_decide_eq_true (Bool.and_eq_true_iff.1 hdigit).2)
    show c.val.toNat < 128
    omega
  · decide

theorem ne_dot_of_hostChar {c : Char} (h : hostChar c = true) : c ≠ '.' := by
  rintro rfl
  revert h
  decide

theorem toLower_val_lt {c : Char} (h : c.val < 128) : c.toLower.val < 128 := by
  unfold Char.toLower
  split_ifs with hupper
  · have hle : c.val.toNat ≤ 90 := UInt32.le_iff_toNat_le.1 hupper.2
    rw [UInt32.lt_iff_toNat_lt]
    show (c.val + 32).toNat < 128
    rw [UInt32.toNat_add]
    change (c.val.toNat + 32) % 2 ^ 32 < 128
    omega
  · exact h

theorem val_lt_of_mem {labels : List (List Char)} (h : HostLabels labels) {c : Char}
    (hc : c ∈ ['.'].intercalate labels) : c.val < 128 := by
  rcases mem_intercalate hc with rfl | ⟨label, hlabel, hmem⟩
  · decide
  · exact val_lt_of_hostChar (List.all_eq_true.1 (h label hlabel).2 c hmem)

theorem foldCase_pieces {labels : List (List Char)} (h : HostLabels labels) :
    ∀ p ∈ foldCase labels, p ≠ [] ∧ '.' ∉ p := by
  intro p hp
  obtain ⟨label, hlabel, rfl⟩ := List.mem_map.1 hp
  obtain ⟨hne, hall⟩ := h label hlabel
  refine ⟨by simpa using hne, fun hdot => ?_⟩
  obtain ⟨c, hc, heq⟩ := List.mem_map.1 hdot
  exact ne_dot_of_hostChar (List.all_eq_true.1 hall c hc) (eq_dot_of_toLower heq)

theorem toLower_joined (uc : UnicodeCase) {labels : List (List Char)} (h : HostLabels labels) :
    (['.'].intercalate labels).map uc.toLower = ['.'].intercalate (foldCase labels) := by
  rw [foldCase, show ['.'] = [Char.toLower '.'] from rfl, ← map_intercalate]
  exact List.map_congr_left fun c hc => uc.toLower_ascii c (val_lt_of_mem h hc)

theorem isLowerASCII_joined {labels : List (List Char)} (h : HostLabels labels) :
    isLowerASCII (String.ofList (['.'].intercalate (foldCase labels))) = true := by
  rw [foldCase, show ['.'] = [Char.toLower '.'] from rfl, ← map_intercalate]
  unfold isLowerASCII
  rw [String.toList_ofList, List.all_eq_true]
  intro c hc
  obtain ⟨c', hc', rfl⟩ := List.mem_map.1 hc
  exact decide_eq_true ⟨toLower_val_lt (val_lt_of_mem h hc'), char_toLower_toLower c'⟩

/-! ### The text that the code works on -/

theorem toLower_eq_dot_iff (uc : UnicodeCase) {c : Char} (hc : c.val < 128) :
    uc.toLower c = '.' ↔ c = '.' := by
  rw [uc.toLower_ascii c hc]
  exact ⟨eq_dot_of_toLower, fun h => by rw [h]; rfl⟩

section Dots

variable {uc : UnicodeCase} {s : String}

theorem trimPrefixDot_toLower (hs : ∀ c ∈ s.toList, c.val < 128) :
    trimPrefixDot (toLower uc s) = toLower uc (trimPrefixDot s) := by
  have hhead : (s.toList.map uc.toLower).head? = some '.' ↔ s.toList.head? = some '.' := by
    rw [List.head?_map]
    cases hc : s.toList.head? with
    | none => simp
    | some c => simp [toLower_eq_dot_iff uc (hs c (List.mem_of_mem_head? hc))]
  unfold trimPrefixDot toLower
  rw [String.toList_ofList]
  by_cases hdot : s.toList.head? = some '.'
  · rw [if_pos hdot, if_pos (hhead.2 hdot), String.toList_ofList, List.map_tail]
  · rw [if_neg hdot, if_neg (mt hhead.1 hdot)]

theorem trimSuffixDot_toLower (hs : ∀ c ∈ s.toList, c.val < 128) :
    trimSuffixDot (toLower uc s) = toLower uc (trimSuffixDot s) := by
  have hlast : (s.toList.map uc.toLower).getLast? = some '.' ↔ s.toList.getLast? = some '.' := by
    rw [List.getLast?_map]
    cases hc : s.toList.getLast? with
    | none => simp
    | some c => simp [toLower_eq_dot_iff uc (hs c (List.mem_of_getLast? hc))]
  unfold trimSuffixDot toLower
  rw [String.toList_ofList]
  by_cases hdot : s.toList.getLast? = some '.'
  · rw [if_pos hdot, if_pos (hlast.2 hdot), String.toList_ofList, List.map_dropLast]
  · rw [if_neg hdot, if_neg (mt hlast.1 hdot)]

theorem toLower_eq_dot (hs : ∀ c ∈ s.toList, c.val < 128) (h : toLower uc s = ".") : s = "." := by
  have hlist : s.toList.map uc.toLower = ['.'] := by
    rw [← String.toList_ofList (l := s.toList.map uc.toLower)]
    exact congrArg String.toList h
  obtain ⟨c, hc, hdot⟩ := List.map_eq_singleton_iff.1 hlist
  rw [toLower_eq_dot_iff uc (hs c (by rw [hc]; exact List.mem_singleton_self c))] at hdot
  exact String.toList_injective (by rw [hc, hdot]; rfl)

end Dots

theorem val_lt_of_domainLabels {d : String} (hd : HostLabels (domainLabels d)) :
    ∀ c ∈ d.toList, c.val < 128 := by
  have htrim : (trimPrefixDot d).toList = ['.'].intercalate (domainLabels d) :=
    (List.intercalate_splitOn '.').symm
  intro c hc
  unfold trimPrefixDot at htrim
  split_ifs at htrim with hdot
  · rw [String.toList_ofList] at htrim
    rw [← List.cons_head?_tail (Option.mem_def.2 hdot), htrim] at hc
    rcases List.mem_cons.1 hc with rfl | hc
    · decide
    · exact val_lt_of_mem hd hc
  · rw [htrim] at hc
    exact val_lt_of_mem hd hc

theorem joined_nameLabels (fqdn : String) :
    ['.'].intercalate (nameLabels fqdn) = (trimSuffixDot fqdn).toList := by
  unfold nameLabels
  split_ifs with hroot
  · rw [hroot]
    rfl
  · exact List.intercalate_splitOn '.'

theorem val_lt_of_nameLabels {fqdn : String} (hn : HostLabels (nameLabels fqdn)) :
    ∀ c ∈ fqdn.toList, c.val < 128 := by
  have htrim := joined_nameLabels fqdn
  intro c hc
  unfold trimSuffixDot at htrim
  split_ifs at htrim with hdot
  · rw [String.toList_ofList] at htrim
    rw [← List.dropLast_append_getLast? '.' hdot, ← htrim] at hc
    rcases List.mem_append.1 hc with hc | hc
    · exact val_lt_of_mem hn hc
    · rw [List.mem_singleton.1 hc]
      decide
  · rw [← htrim] at hc
    exact val_lt_of_mem hn hc

theorem ne_dot_of_domainLabels {d : String} (hd : HostLabels (domainLabels d)) : d ≠ "." := by
  rintro rfl
  revert hd
  decide

/-- `buildZones` writes a domain as its labels in lower case. -/
theorem zoneDomain_eq (uc : UnicodeCase) {d : String} (hd : HostLabels (domainLabels d)) :
    zoneDomain uc d = String.ofList (['.'].intercalate (foldCase (domainLabels d))) := by
  have hascii := val_lt_of_domainLabels hd
  unfold zoneDomain
  rw [if_neg fun h => ne_dot_of_domainLabels hd (toLower_eq_dot hascii h),
    trimPrefixDot_toLower hascii, toLower, ← toLower_joined uc hd, domainLabels,
    List.intercalate_splitOn]

/-- `matchZone` compares the labels of the name in lower case. -/
theorem queryName_eq (uc : UnicodeCase) {fqdn : String} (hn : HostLabels (nameLabels fqdn)) :
    queryName uc fqdn = String.ofList (['.'].intercalate (foldCase (nameLabels fqdn))) := by
  unfold queryName
  rw [trimSuffixDot_toLower (val_lt_of_nameLabels hn), toLower, ← toLower_joined uc hn,
    joined_nameLabels]

theorem foldCase_ne_nil (d : String) : foldCase (domainLabels d) ≠ [] := by
  simp [foldCase, domainLabels]

theorem domainMatches_iff (uc : UnicodeCase) {d fqdn : String} (hd : HostLabels (domainLabels d))
    (hn : HostLabels (nameLabels fqdn)) :
    domainMatches uc (queryName uc fqdn) (zoneDomain uc d) = true ↔
      foldCase (domainLabels d) <:+ foldCase (nameLabels fqdn) := by
  have htext : ("." ++ String.ofList (['.'].intercalate (foldCase (domainLabels d)))).toList =
      '.' :: ['.'].intercalate (foldCase (domainLabels d)) := by
    rw [String.toList_append, String.toList_ofList, String.toList_ofList, List.singleton_append]
  unfold domainMatches
  rw [queryName_eq uc hn, zoneDomain_eq uc hd, toLower_eq_self uc (isLowerASCII_joined hd),
    Bool.or_eq_true, equalFold_iff_eq (isLowerASCII_joined hd) (isLowerASCII_joined hn),
    List.isSuffixOf_iff_suffix, String.ofList_inj, htext, String.toList_ofList]
  exact suffix_intercalate_iff (foldCase_ne_nil d) (foldCase_pieces hd)
    fun p hp => (foldCase_pieces hn p hp).2

/-! ## Routing -/

/-- A configured entry: the catch-all, or labels. -/
def HostEntry (d : String) : Prop := d = "." ∨ HostLabels (domainLabels d)

instance (d : String) : Decidable (HostEntry d) := inferInstanceAs (Decidable (_ ∨ _))

/-- How `buildZones` resolves one zone. -/
def builtZone (uc : UnicodeCase) (z : ZoneConfig) : Zone where
  domains := z.domains.map (zoneDomain uc)
  forwarder := z.forwarder
  pref := if z.pref ≠ "" then (parsePref64Addr z.pref).toOption else none
  returnIPv4Addresses := z.returnIPv4Addresses
  returnIPv6Addresses := z.returnIPv6Addresses

theorem buildZones_eq (uc : UnicodeCase) (cfg : List ZoneConfig) :
    buildZones uc cfg = cfg.map (builtZone uc) := rfl

theorem zoneDomain_dot (uc : UnicodeCase) : zoneDomain uc "." = "." := by
  have hlower : toLower uc "." = "." := toLower_eq_self uc (by decide)
  rw [zoneDomain, if_pos hlower]

theorem zoneDomain_eq_dot_iff (uc : UnicodeCase) {d : String} (hd : HostEntry d) :
    zoneDomain uc d = "." ↔ d = "." := by
  constructor
  · intro h
    refine hd.resolve_right fun hlabels => ?_
    rw [zoneDomain_eq uc hlabels] at h
    have htext : ['.'].intercalate (foldCase (domainLabels d)) = ['.'].intercalate [[], []] := by
      rw [← String.toList_ofList (l := ['.'].intercalate (foldCase (domainLabels d))), h]
      decide
    have hpieces := intercalate_inj (foldCase_ne_nil d) (foldCase_pieces hlabels) (by simp) htext
    have hempty : ([] : List Char) ∈ foldCase (domainLabels d) := by
      rw [hpieces]
      exact List.mem_cons_self
    exact (foldCase_pieces hlabels [] hempty).1 rfl
  · rintro rfl
    exact zoneDomain_dot uc

section Routing

variable {uc : UnicodeCase} {z : ZoneConfig} {fqdn : String}

theorem isDefault_builtZone (hz : ∀ d ∈ z.domains, HostEntry d) :
    (builtZone uc z).isDefault = decide ("." ∈ z.domains) := by
  refine decide_eq_decide.2 ?_
  rw [builtZone, List.mem_map]
  constructor
  · rintro ⟨d, hd, hdot⟩
    rwa [(zoneDomain_eq_dot_iff uc (hz d hd)).1 hdot] at hd
  · exact fun h => ⟨".", h, zoneDomain_dot uc⟩

theorem takes_builtZone (hz : ∀ d ∈ z.domains, HostEntry d) (hn : HostLabels (nameLabels fqdn)) :
    (builtZone uc z).takes uc (queryName uc fqdn) = decide (∃ d ∈ z.domains, Routes fqdn d) := by
  rw [Bool.eq_iff_iff, Zone.takes, builtZone, List.any_map, List.any_eq_true, decide_eq_true_iff]
  refine exists_congr fun d => and_congr_right fun hd => ?_
  rw [Function.comp_apply, Bool.and_eq_true, decide_eq_true_iff, ne_eq,
    zoneDomain_eq_dot_iff uc (hz d hd)]
  refine and_congr_right fun hdot => ?_
  exact domainMatches_iff uc ((hz d hd).resolve_left hdot) hn

end Routing

/-- Where domains and name are made of labels, the zone of a name is the first one
with a domain whose labels are the last of the name, whatever the case of their
letters.  If there is none, it is a zone that lists the catch-all, if one does. -/
theorem zone_routing (uc : UnicodeCase) {cfg : List ZoneConfig} {fqdn : String}
    (hcfg : ∀ z ∈ cfg, ∀ d ∈ z.domains, HostEntry d) (hn : HostLabels (nameLabels fqdn)) :
    matchZone uc (buildZones uc cfg) fqdn =
        (selectZone uc (buildZones uc cfg) fqdn).bind (fun i => (buildZones uc cfg)[i]?) ∧
      (∀ i, cfg.findIdx? (fun z => decide (∃ d ∈ z.domains, Routes fqdn d)) = some i →
        selectZone uc (buildZones uc cfg) fqdn = some i) ∧
      ((∀ z ∈ cfg, ¬ ∃ d ∈ z.domains, Routes fqdn d) →
        (∀ i, selectZone uc (buildZones uc cfg) fqdn = some i →
          ∃ z, cfg[i]? = some z ∧ "." ∈ z.domains) ∧
        (selectZone uc (buildZones uc cfg) fqdn = none ↔ ∀ z ∈ cfg, "." ∉ z.domains)) := by
  have hselect : selectZone uc (buildZones uc cfg) fqdn =
      select (fun z => decide (∃ d ∈ z.domains, Routes fqdn d))
        (fun z => decide ("." ∈ z.domains)) cfg :=
    selectFrom_map fun z hz => ⟨takes_builtZone (hcfg z hz) hn, isDefault_builtZone (hcfg z hz)⟩
  refine ⟨matchZone_eq uc _ fqdn, fun i hi => ?_, fun hnone => ?_⟩
  · rw [hselect]
    exact select_of_findIdx? hi
  · rw [hselect]
    obtain ⟨hsome, hnone'⟩ := select_of_forall fun z hz => decide_eq_false (hnone z hz)
    constructor
    · intro i hi
      obtain ⟨z, hz, hdot⟩ := hsome i hi
      exact ⟨z, hz, of_decide_eq_true hdot⟩
    · rw [hnone']
      simp

/-- A zone for two domains before the catch-all. -/
def routedZones : List ZoneConfig :=
  [{ domains := ["example.com", ".Test"], returnIPv4Addresses := true },
    { domains := ["."], returnIPv6Addresses := true }]

theorem zone_routing_example :
    (∀ z ∈ routedZones, ∀ d ∈ z.domains, HostEntry d) ∧
      HostLabels (nameLabels "www.Example.COM.") ∧ HostLabels (nameLabels "notexample.com.") ∧
      selectZone asciiCase (buildZones asciiCase routedZones) "www.Example.COM." = some 0 ∧
      selectZone asciiCase (buildZones asciiCase routedZones) "notexample.com." ≠ none := by
  have hcfg : ∀ z ∈ routedZones, ∀ d ∈ z.domains, HostEntry d := by decide
  have hwww : HostLabels (nameLabels "www.Example.COM.") := by decide
  have hnot : HostLabels (nameLabels "notexample.com.") := by decide
  have hlast := (zone_routing asciiCase hcfg hnot).2.2 (by decide)
  refine ⟨hcfg, hwww, hnot, ?_, ?_⟩
  · exact (zone_routing asciiCase hcfg hwww).2.1 0 (by decide)
  · rw [ne_eq, hlast.2]
    decide

/-! ## Spellings -/

/-- A way to write a domain: its text, in any case, with or without a dot in front
and the dot of its fully qualified form. -/
structure Spelling (uc : UnicodeCase) where
  leadingDot : Bool
  core : List Char
  trailingDot : Bool
  /-- The dots in front and behind are not part of the text. -/
  first : ∃ c ∈ (core.map uc.toLower).head?, c ≠ '.'
  last : ∃ c ∈ (core.map uc.toLower).getLast?, c ≠ '.'

namespace Spelling

variable {uc : UnicodeCase}

/-- What stands in the configuration. -/
def text (sp : Spelling uc) : String :=
  String.ofList ((if sp.leadingDot then ['.'] else []) ++ sp.core ++
    if sp.trailingDot then ['.'] else [])

/-- Two spellings of one domain. -/
def Same (sp sp' : Spelling uc) : Prop := sp.core.map uc.toLower = sp'.core.map uc.toLower

theorem map_dot (b : Bool) :
    (if b then ['.'] else []).map uc.toLower = if b then ['.'] else [] := by
  have hdot : uc.toLower '.' = '.' := (toLower_eq_dot_iff uc (by decide)).2 rfl
  cases b with
  | true => simp [hdot]
  | false => rfl

/-- The domain in lower case, with the dot behind if it has one. -/
def lowered (sp : Spelling uc) : List Char :=
  sp.core.map uc.toLower ++ if sp.trailingDot then ['.'] else []

theorem head?_lowered (sp : Spelling uc) : ∃ c, sp.lowered.head? = some c ∧ c ≠ '.' := by
  obtain ⟨c, hc, hdot⟩ := sp.first
  refine ⟨c, ?_, hdot⟩
  rw [lowered, List.head?_append, Option.mem_def.1 hc, Option.some_or]

/-- `buildZones` takes off the dot in front and leaves the one behind. -/
theorem zoneDomain_text (sp : Spelling uc) : zoneDomain uc sp.text = String.ofList sp.lowered := by
  obtain ⟨c, hc, hdot⟩ := sp.head?_lowered
  have hlower : toLower uc sp.text =
      String.ofList ((if sp.leadingDot then ['.'] else []) ++ sp.lowered) := by
    rw [toLower, text, String.toList_ofList, List.map_append, List.map_append, map_dot, map_dot,
      List.append_assoc, lowered]
  have hne : toLower uc sp.text ≠ "." := by
    intro h
    have hlist : (if sp.leadingDot then ['.'] else []) ++ sp.lowered = ['.'] := by
      rw [← String.toList_ofList (l := _ ++ sp.lowered), ← hlower, h]
      decide
    cases hlead : sp.leadingDot with
    | true =>
      rw [hlead, if_pos rfl, List.singleton_append, List.cons.injEq] at hlist
      rw [hlist.2] at hc
      cases hc
    | false =>
      rw [hlead, if_neg Bool.false_ne_true, List.nil_append] at hlist
      rw [hlist] at hc
      exact hdot (Option.some.inj hc).symm
  unfold zoneDomain trimPrefixDot
  rw [if_neg hne, hlower, String.toList_ofList]
  cases sp.leadingDot with
  | true => rfl
  | false =>
    rw [if_neg Bool.false_ne_true, List.nil_append, if_neg]
    rw [hc]
    exact fun h => hdot (Option.some.inj h)

theorem zoneDomain_text_ne_dot (sp : Spelling uc) : zoneDomain uc sp.text ≠ "." := by
  obtain ⟨c, hc, hdot⟩ := sp.head?_lowered
  rw [zoneDomain_text]
  intro h
  have hlist : sp.lowered = ['.'] := by
    rw [← String.toList_ofList (l := sp.lowered), h]
    decide
  rw [hlist] at hc
  exact hdot (Option.some.inj hc).symm

theorem toLower_zoneDomain_text (sp : Spelling uc) :
    toLower uc (zoneDomain uc sp.text) = String.ofList sp.lowered := by
  have hidem : uc.toLower ∘ uc.toLower = uc.toLower := funext uc.toLower_idem
  rw [zoneDomain_text, toLower, String.toList_ofList, lowered, List.map_append, map_dot,
    List.map_map, hidem]

/-- The name is under the domain as it is written. -/
def takes (sp : Spelling uc) (fqdn : String) : Bool :=
  domainMatches uc (queryName uc fqdn) (zoneDomain uc sp.text)

theorem Same.zoneDomain_eq {sp sp' : Spelling uc} (h : sp.Same sp')
    (htrail : sp.trailingDot = sp'.trailingDot) :
    zoneDomain uc sp.text = zoneDomain uc sp'.text := by
  rw [zoneDomain_text, zoneDomain_text, lowered, lowered, h, htrail]

end Spelling

theorem last_of_domainMatches {uc : UnicodeCase} {name d : String} {ds : List Char} {c : Char}
    (hd : toLower uc d = String.ofList (ds ++ [c])) (h : domainMatches uc name d = true) :
    ∃ e, name.toList.getLast? = some e ∧ equalFoldRune c e = true := by
  unfold domainMatches at h
  rw [hd, Bool.or_eq_true, List.isSuffixOf_iff_suffix, String.toList_append,
    String.toList_ofList] at h
  rcases h with hfold | ⟨t, ht⟩
  · unfold equalFold at hfold
    rw [String.toList_ofList, Bool.and_eq_true, beq_iff_eq] at hfold
    obtain ⟨hlen, hall⟩ := hfold
    rcases List.eq_nil_or_concat name.toList with hnil | ⟨es, e, hname⟩
    · rw [hnil, List.length_append] at hlen
      exact absurd hlen (Nat.succ_ne_zero _)
    · rw [List.concat_eq_append] at hname
      rw [hname] at hlen hall ⊢
      have hes : ds.length = es.length := by simpa using hlen
      rw [List.zip_append hes, List.all_append, Bool.and_eq_true] at hall
      exact ⟨e, List.getLast?_concat, by simpa using hall.2⟩
  · refine ⟨c, ?_, by simp [equalFoldRune]⟩
    rw [← ht, String.toList_ofList, ← List.append_assoc, ← List.append_assoc, List.getLast?_concat]

theorem eq_dot_of_equalFoldRune_left {e : Char} (h : equalFoldRune '.' e = true) : e = '.' := by
  simp only [equalFoldRune, Bool.or_eq_true, Bool.and_eq_true, beq_iff_eq] at h
  rcases h with ((h | ⟨-, h⟩) | ⟨h, -⟩) | ⟨h, -⟩
  · exact h.symm
  · exact eq_dot_of_toLower h.symm
  · exact absurd h (by decide)
  · exact absurd h (by decide)

theorem eq_dot_of_equalFoldRune_right {c : Char} (h : equalFoldRune c '.' = true) : c = '.' := by
  simp only [equalFoldRune, Bool.or_eq_true, Bool.and_eq_true, beq_iff_eq] at h
  rcases h with ((h | ⟨-, h⟩) | ⟨-, h⟩) | ⟨-, h⟩
  · exact h
  · exact eq_dot_of_toLower h
  · exact absurd h (by decide)
  · exact absurd h (by decide)

namespace Spelling

variable {uc : UnicodeCase}

theorem getLast?_of_trailing {sp : Spelling uc} (htrail : sp.trailingDot = true) {fqdn : String}
    (h : sp.takes fqdn = true) : (queryName uc fqdn).toList.getLast? = some '.' := by
  have hlow := sp.toLower_zoneDomain_text
  rw [lowered, htrail, if_pos rfl] at hlow
  obtain ⟨e, he, hfold⟩ := last_of_domainMatches hlow h
  rw [he, eq_dot_of_equalFoldRune_left hfold]

theorem getLast?_of_not_trailing {sp : Spelling uc} (htrail : sp.trailingDot = false)
    {fqdn : String} (h : sp.takes fqdn = true) :
    (queryName uc fqdn).toList.getLast? ≠ some '.' := by
  obtain ⟨c, hc, hne⟩ := sp.last
  obtain ⟨cs, hcs⟩ := List.getLast?_eq_some_iff.1 (Option.mem_def.1 hc)
  have hlow := sp.toLower_zoneDomain_text
  rw [lowered, htrail, if_neg Bool.false_ne_true, List.append_nil, hcs] at hlow
  obtain ⟨e, he, hfold⟩ := last_of_domainMatches hlow h
  intro hdot
  rw [hdot] at he
  rw [← Option.some.inj he] at hfold
  exact hne (eq_dot_of_equalFoldRune_right hfold)

theorem not_both {sp sp' : Spelling uc} (htrail : sp'.trailingDot ≠ sp.trailingDot)
    {fqdn : String} (h : sp.takes fqdn = true) : sp'.takes fqdn = false := by
  rw [← Bool.not_eq_true]
  intro h'
  cases hdot : sp.trailingDot with
  | true =>
    rw [hdot, ne_eq, Bool.not_eq_true] at htrail
    exact getLast?_of_not_trailing htrail h' (getLast?_of_trailing hdot h)
  | false =>
    rw [hdot, ne_eq, Bool.not_eq_false] at htrail
    exact getLast?_of_not_trailing hdot h (getLast?_of_trailing htrail h')

end Spelling

/-- The entry of a zone takes the name. -/
def entryTakes (uc : UnicodeCase) (fqdn d : String) : Bool :=
  zoneDomain uc d ≠ "." && domainMatches uc (queryName uc fqdn) (zoneDomain uc d)

/-- Whatever an entry of a zone says, the name is routed otherwise: by a zone before
it, or by another entry of the zone, or to the same zone as the last one with the
catch-all. -/
def Overruled (uc : UnicodeCase) (fqdn : String) (pre : List ZoneConfig) (others : List String)
    (post : List ZoneConfig) : Prop :=
  (∃ z ∈ pre, (builtZone uc z).takes uc (queryName uc fqdn) = true) ∨
    (∃ d ∈ others, entryTakes uc fqdn d = true) ∨
    (∃ d ∈ others, zoneDomain uc d = ".") ∧
      ∀ z ∈ post, (builtZone uc z).takes uc (queryName uc fqdn) = false ∧
        (builtZone uc z).isDefault = false

section Respelling

variable {uc : UnicodeCase} (z : ZoneConfig) (ds ds' : List String) (sp : Spelling uc)
  (fqdn : String)

/-- A zone with a domain written in some way. -/
def ZoneConfig.withDomain (z : ZoneConfig) (ds ds' : List String) (d : String) : ZoneConfig :=
  { z with domains := ds ++ d :: ds' }

theorem takes_withDomain :
    (builtZone uc (ZoneConfig.withDomain z ds ds' sp.text)).takes uc (queryName uc fqdn) =
      (sp.takes fqdn || (ds ++ ds').any (entryTakes uc fqdn)) := by
  have hne := sp.zoneDomain_text_ne_dot
  have hcomm : ∀ a b c : Bool, (a || (b || c)) = (b || (a || c)) := by decide
  have hsp : entryTakes uc fqdn sp.text = sp.takes fqdn := by
    unfold entryTakes Spelling.takes
    rw [decide_eq_true hne, Bool.true_and]
  have hentries : (builtZone uc (ZoneConfig.withDomain z ds ds' sp.text)).takes uc
      (queryName uc fqdn) = (ds ++ sp.text :: ds').any (entryTakes uc fqdn) := List.any_map
  rw [hentries, List.any_append, List.any_append, List.any_cons, hsp, hcomm]

theorem isDefault_withDomain :
    (builtZone uc (ZoneConfig.withDomain z ds ds' sp.text)).isDefault =
      (ds ++ ds').any fun d => decide (zoneDomain uc d = ".") := by
  have hne := sp.zoneDomain_text_ne_dot
  have hentries : (builtZone uc (ZoneConfig.withDomain z ds ds' sp.text)).isDefault =
      (ds ++ sp.text :: ds').any fun d => decide (zoneDomain uc d = ".") := by
    rw [Bool.eq_iff_iff, Zone.isDefault, decide_eq_true_iff, List.any_eq_true]
    simp only [builtZone, ZoneConfig.withDomain, List.mem_map, decide_eq_true_iff]
  rw [hentries, List.any_append, List.any_append, List.any_cons, decide_eq_false hne,
    Bool.false_or]

theorem selectZone_append (pre post : List ZoneConfig) :
    selectZone uc (buildZones uc (pre ++ z :: post)) fqdn =
      select (Zone.takes uc (queryName uc fqdn)) Zone.isDefault
        (pre.map (builtZone uc) ++ builtZone uc z :: post.map (builtZone uc)) := by
  rw [selectZone, buildZones_eq, List.map_append, List.map_cons]

variable {sp} {fqdn}

/-- An entry that stops to take the name makes no difference exactly if it is
overruled. -/
theorem select_withDomain_iff {sp' : Spelling uc} (pre post : List ZoneConfig)
    (htakes : sp.takes fqdn = true) (htakes' : sp'.takes fqdn = false) :
    selectZone uc (buildZones uc (pre ++ ZoneConfig.withDomain z ds ds' sp.text :: post)) fqdn =
        selectZone uc (buildZones uc (pre ++ ZoneConfig.withDomain z ds ds' sp'.text :: post))
          fqdn ↔
      Overruled uc fqdn pre (ds ++ ds') post := by
  have hzone := takes_withDomain z ds ds' sp fqdn
  have hzone' := takes_withDomain z ds ds' sp' fqdn
  rw [htakes, Bool.true_or] at hzone
  rw [htakes', Bool.false_or] at hzone'
  rw [selectZone_append, selectZone_append]
  unfold Overruled
  cases hothers : (ds ++ ds').any (entryTakes uc fqdn) with
  | true =>
    rw [hothers] at hzone'
    refine iff_of_true (select_replace_of_eq (hzone.trans hzone'.symm) ?_) ?_
    · rw [isDefault_withDomain, isDefault_withDomain]
    · exact .inr (.inl (List.any_eq_true.1 hothers))
  | false =>
    rw [hothers] at hzone'
    have hnone : ¬ ∃ d ∈ ds ++ ds', entryTakes uc fqdn d = true := by
      rw [← List.any_eq_true, hothers]
      exact Bool.false_ne_true
    rw [select_replace_iff hzone hzone', isDefault_withDomain, List.any_eq_true,
      or_iff_right hnone, List.forall_mem_map]
    simp only [List.mem_map, exists_exists_and_eq_and, decide_eq_true_iff]

/-- A domain of a zone is written in another way.  The name goes to the zone that it
went to before exactly if the dot behind is as before, or the name is under the
domain in neither form, or the entry is overruled. -/
theorem respelling_iff (pre post : List ZoneConfig) (sp sp' : Spelling uc) (hsame : sp.Same sp')
    (fqdn : String) :
    selectZone uc (buildZones uc (pre ++ ZoneConfig.withDomain z ds ds' sp'.text :: post)) fqdn =
        selectZone uc (buildZones uc (pre ++ ZoneConfig.withDomain z ds ds' sp.text :: post))
          fqdn ↔
      sp'.trailingDot = sp.trailingDot ∨
        (sp.takes fqdn = false ∧ sp'.takes fqdn = false) ∨
        Overruled uc fqdn pre (ds ++ ds') post := by
  by_cases htrail : sp'.trailingDot = sp.trailingDot
  · have hdomains : (ds ++ sp'.text :: ds').map (zoneDomain uc) =
        (ds ++ sp.text :: ds').map (zoneDomain uc) := by
      rw [List.map_append, List.map_append, List.map_cons, List.map_cons,
        hsame.zoneDomain_eq htrail.symm]
    have hbuilt : builtZone uc (ZoneConfig.withDomain z ds ds' sp'.text) =
        builtZone uc (ZoneConfig.withDomain z ds ds' sp.text) :=
      congrArg (fun domains => { builtZone uc z with domains }) hdomains
    rw [selectZone_append, selectZone_append, hbuilt]
    exact iff_of_true rfl (.inl htrail)
  rw [or_iff_right htrail]
  cases htakes : sp.takes fqdn with
  | true =>
    have htakes' : sp'.takes fqdn = false := Spelling.not_both htrail htakes
    rw [eq_comm, select_withDomain_iff z ds ds' pre post htakes htakes', or_iff_right]
    exact fun h => Bool.false_ne_true h.1.symm
  | false =>
    cases htakes' : sp'.takes fqdn with
    | true =>
      rw [select_withDomain_iff z ds ds' pre post htakes' htakes, or_iff_right]
      exact fun h => Bool.false_ne_true h.2.symm
    | false =>
      refine iff_of_true ?_ (.inl ⟨rfl, rfl⟩)
      rw [selectZone_append, selectZone_append]
      apply select_replace_of_eq
      · rw [takes_withDomain, takes_withDomain, htakes, htakes']
      · rw [isDefault_withDomain, isDefault_withDomain]

end Respelling

/-- `Blocked.example` as an entry. -/
def blockedDomain (leadingDot trailingDot : Bool) : Spelling asciiCase where
  leadingDot := leadingDot
  core := "Blocked.example".toList
  trailingDot := trailingDot
  first := ⟨'b', by decide, by decide⟩
  last := ⟨'e', by decide, by decide⟩

/-- A zone that blocks a domain, before the catch-all. -/
def blockingZones (sp : Spelling asciiCase) : List ZoneConfig :=
  ZoneConfig.withDomain { domains := [] } [] [] sp.text ::
    [{ domains := ["."], returnIPv6Addresses := true }]

theorem respelling_iff_leading_dot :
    (blockedDomain false false).Same (blockedDomain true false) ∧
      selectZone asciiCase (buildZones asciiCase (blockingZones (blockedDomain true false)))
          "www.blocked.example." =
        selectZone asciiCase (buildZones asciiCase (blockingZones (blockedDomain false false)))
          "www.blocked.example." :=
  ⟨rfl, (respelling_iff { domains := [] } [] [] [] _ (blockedDomain false false)
    (blockedDomain true false) rfl _).2 (.inl rfl)⟩

/-- The fully qualified form of the domain is valid and blocks nothing. -/
theorem trailing_dot_unblocks :
    validateZones 0 (blockingZones (blockedDomain false false)) = .ok () ∧
      validateZones 0 (blockingZones (blockedDomain false true)) = .ok () ∧
      (blockedDomain false false).Same (blockedDomain false true) ∧
      selectZone asciiCase (buildZones asciiCase (blockingZones (blockedDomain false false)))
        "www.blocked.example." = some 0 ∧
      selectZone asciiCase (buildZones asciiCase (blockingZones (blockedDomain false true)))
        "www.blocked.example." = some 1 := by
  refine ⟨rfl, rfl, rfl, ?_, ?_⟩
  · decide
  · decide

end Ydn64.Dns64
