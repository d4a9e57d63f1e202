import Ydn64.Dns64.Settings

/-!
# Static names under repeated normalisation

The names of `Dns64Static` are normalised by every pass of `Validate` and once
more by `parseStaticEntries`.  One pass trims white space, strips one trailing
dot and folds case, so it can leave a name that the next pass changes again: a
dot after a dot, or white space before one.  Then a second pass writes another
table, and two names that the first pass told apart can meet.

A second pass and the table that is served keep every entry (`Settled`) exactly
if no configured name changes a second time (`settled_iff`).  What the served
table loses, `Validate` would refuse: `lossless_iff`.
-/

namespace Ydn64.Dns64

open Ydn64.GoStd Ydn64.Config Ydn64.Lib

/-! ## The served table -/

/-- Whatever the order of the range, the served table has one entry for every
entry of the list, with its address. -/
def Lossless (uc : UnicodeCase) (static : List (String × String)) : Prop :=
  ∀ o : MapOrder, SyncMap.size (parseStaticEntries uc o static) = static.length ∧
    ∀ e ∈ static, ∃ ip, parseIP (trimSpace e.2) = some ip ∧
      (parseStaticEntries uc o static).lookup (staticKey uc e.1) = some ip

theorem storeAll_concat (m : SyncMap String IP) (l : List (String × IP)) (e : String × IP) :
    storeAll m (l ++ [e]) = (storeAll m l).insert e.1 e.2 := by
  rw [storeAll_append]
  rfl

theorem lookup_storeAll_eq_none_iff {l : List (String × IP)} {k : String} :
    (storeAll ∅ l).lookup k = none ↔ k ∉ l.map Prod.fst := by
  constructor
  · intro hnone hk
    obtain ⟨⟨k', ip⟩, hmem, rfl⟩ := List.mem_map.1 hk
    exact lookup_storeAll_ne_none hmem hnone
  · intro hk
    cases hfound : (storeAll ∅ l).lookup k with
    | none => rfl
    | some ip => exact absurd (List.mem_map_of_mem (mem_of_lookup_storeAll hfound)) hk

theorem size_storeAll_le (l : List (String × IP)) :
    SyncMap.size (storeAll ∅ l) ≤ l.length := by
  induction l using List.reverseRecOn with
  | nil => exact le_refl 0
  | append_singleton l e ih =>
    rw [storeAll_concat, List.length_append, List.length_singleton]
    cases hfound : (storeAll ∅ l).lookup e.1 with
    | none =>
      have hsize := SyncMap.size_insert_fresh (v := e.2) hfound
      omega
    | some ip =>
      rw [SyncMap.size_insert_of_some hfound]
      omega

theorem size_storeAll_eq_iff (l : List (String × IP)) :
    SyncMap.size (storeAll ∅ l) = l.length ↔ (l.map Prod.fst).Nodup := by
  induction l using List.reverseRecOn with
  | nil => exact iff_of_true rfl List.nodup_nil
  | append_singleton l e ih =>
    have hle := size_storeAll_le l
    rw [storeAll_concat, List.length_append, List.length_singleton, List.map_append,
      List.map_singleton, List.nodup_append_comm, List.singleton_append, List.nodup_cons, ← ih,
      ← lookup_storeAll_eq_none_iff]
    cases hfound : (storeAll ∅ l).lookup e.1 with
    | none =>
      have hsize := SyncMap.size_insert_fresh (v := e.2) hfound
      simp only [true_and]
      omega
    | some ip =>
      rw [SyncMap.size_insert_of_some hfound]
      simp only [reduceCtorEq, false_and, iff_false]
      omega

theorem filterMap_staticEntry_keys {uc : UnicodeCase} {l : List (String × String)}
    (h : ∀ e ∈ l, staticKey uc e.1 ≠ "" ∧ parseIP (trimSpace e.2) ≠ none) :
    (l.filterMap (staticEntry uc)).map Prod.fst = l.map fun e => staticKey uc e.1 := by
  induction l with
  | nil => rfl
  | cons e l ih =>
    obtain ⟨hkey, hparse⟩ := h e List.mem_cons_self
    obtain ⟨ip, hip⟩ := Option.ne_none_iff_exists'.1 hparse
    have hentry : staticEntry uc e = some (staticKey uc e.1, ip) :=
      staticEntry_eq_some_iff.2 ⟨rfl, hkey, hip⟩
    rw [List.filterMap_cons_some hentry, List.map_cons, List.map_cons,
      ih fun e' he' => h e' (List.mem_cons_of_mem e he')]

/-- The served table keeps every entry exactly if the list passes the checks of
`Validate`. -/
theorem lossless_iff {uc : UnicodeCase} {static : List (String × String)} :
    Lossless uc static ↔ StaticOk uc static := by
  constructor
  · intro h
    obtain ⟨hsize, hall⟩ := h default
    have hentries : ∀ e ∈ static, staticKey uc e.1 ≠ "" ∧ parseIP (trimSpace e.2) ≠ none := by
      intro e he
      obtain ⟨ip, hip, hfound⟩ := hall e he
      obtain ⟨e', -, hentry⟩ := List.mem_filterMap.1 (mem_of_lookup_storeAll hfound)
      exact ⟨(staticEntry_eq_some_iff.1 hentry).2.1, by simp [hip]⟩
    have hkeys := filterMap_staticEntry_keys hentries
    refine ⟨hentries, ?_⟩
    rw [← hkeys]
    refine (size_storeAll_eq_iff _).1 (hsize.trans ?_)
    have hlength := congrArg List.length hkeys
    rw [List.length_map, List.length_map] at hlength
    exact hlength.symm
  · intro h o
    have hok := h.perm (o.perm static).symm
    have hkeys := filterMap_staticEntry_keys hok.entries
    have hnodup : (((o.order static).filterMap (staticEntry uc)).map Prod.fst).Nodup := by
      rw [hkeys]
      exact hok.nodup
    refine ⟨?_, fun e he => ?_⟩
    · have hlength := congrArg List.length hkeys
      rw [List.length_map, List.length_map, (o.perm static).length_eq] at hlength
      rw [parseStaticEntries, (size_storeAll_eq_iff _).2 hnodup, hlength]
    · obtain ⟨hkey, hparse⟩ := h.entries e he
      obtain ⟨ip, hip⟩ := Option.ne_none_iff_exists'.1 hparse
      have hmem : (staticKey uc e.1, ip) ∈ (o.order static).filterMap (staticEntry uc) :=
        (mem_filterMap_order o).2
          (List.mem_filterMap.2 ⟨e, he, staticEntry_eq_some_iff.2 ⟨rfl, hkey, hip⟩⟩)
      obtain ⟨ip', hip'⟩ := Option.ne_none_iff_exists'.1 (lookup_storeAll_ne_none hmem)
      -- The names are distinct, so what is found is the entry itself.
      have heq := List.inj_on_of_nodup_map hnodup (mem_of_lookup_storeAll hip') hmem rfl
      obtain rfl : ip' = ip := congrArg Prod.snd heq
      exact ⟨ip', hip, hip'⟩

/-! ## A second pass -/

/-- The same keys, with the static table in some order. -/
structure SameKeys (c c' : AppConfig) : Prop where
  static : c.dns64Static.Perm c'.dns64Static
  others : { c with dns64Static := c'.dns64Static } = c'

/-- A second pass over validated keys succeeds and changes nothing, and the
served table keeps every static entry. -/
structure Settled (uc : UnicodeCase) (c : AppConfig) : Prop where
  idempotent : ∀ o, ∃ c', validate uc o c = .ok c' ∧ SameKeys c' c
  lossless : Lossless uc c.dns64Static

section SecondPass

variable {uc : UnicodeCase} {static : List (String × String)}

theorem trimmed_sublist (s : String) :
    (trimSuffixDot (trimSpace s)).toList.Sublist s.toList := by
  have hspace : (trimSpace s).toList.Sublist s.toList := by
    rw [trimSpace, String.toList_ofList]
    exact (List.rdropWhile_prefix isSpace _).sublist.trans (List.dropWhile_sublist isSpace)
  have hdot : (trimSuffixDot (trimSpace s)).toList.Sublist (trimSpace s).toList := by
    unfold trimSuffixDot
    split_ifs
    · rw [String.toList_ofList]
      exact List.dropLast_sublist _
    · exact .refl _
  exact hdot.trans hspace

theorem length_staticKey (uc : UnicodeCase) (s : String) :
    (staticKey uc s).toList.length = (trimSuffixDot (trimSpace s)).toList.length := by
  rw [staticKey, toLower, String.toList_ofList, List.length_map]

theorem staticKey_of_length {s : String} (hlow : toLower uc s = s)
    (h : s.toList.length ≤ (staticKey uc s).toList.length) : staticKey uc s = s := by
  rw [length_staticKey] at h
  have htrimmed := String.toList_injective ((trimmed_sublist s).eq_of_length_le h)
  rw [staticKey, htrimmed, hlow]

theorem toLower_staticKey (uc : UnicodeCase) (s : String) :
    toLower uc (staticKey uc s) = staticKey uc s := toLower_toLower uc _

theorem length_of_perm (h : (static.map (normEntry uc)).Perm static) {e : String × String}
    (he : e ∈ static) : e.1.toList.length ≤ (staticKey uc e.1).toList.length := by
  have hle : ∀ e' ∈ static, (staticKey uc e'.1).toList.length ≤ e'.1.toList.length := by
    intro e' _
    rw [length_staticKey]
    exact (trimmed_sublist e'.1).length_le
  have hsum : (static.map fun e => (staticKey uc e.1).toList.length).sum =
      (static.map fun e => e.1.toList.length).sum := by
    rw [← (h.map fun e => e.1.toList.length).sum_eq, List.map_map]
    simp only [normEntry, Function.comp_def]
  by_contra hlt
  exact absurd hsum (List.sum_lt_sum _ _ hle ⟨e, he, not_le.1 hlt⟩).ne

theorem parseIP_trimSpace_ipString {ip : IP} (h : ip.length = 16) :
    parseIP (trimSpace (ipString ip)) = some ip := by
  rw [trimSpace_eq_self (ipString_not_isSpace h), parseIP_ipString h]

theorem normEntry_of_parse {e : String × String} {ip : IP}
    (hip : parseIP (trimSpace e.2) = some ip) :
    normEntry uc e = (staticKey uc e.1, ipString ip) := by
  rw [normEntry, hip]
  rfl

theorem normEntry_normEntry {e : String × String} {ip : IP}
    (hip : parseIP (trimSpace e.2) = some ip)
    (hkey : staticKey uc (staticKey uc e.1) = staticKey uc e.1) :
    normEntry uc (normEntry uc e) = normEntry uc e := by
  have hip' := parseIP_trimSpace_ipString (parseIP_length hip)
  rw [normEntry_of_parse hip, normEntry_of_parse (e := (staticKey uc e.1, ipString ip)) hip', hkey]

/-- The table after one pass passes the checks again. -/
theorem staticOk_normalised (h : StaticOk uc static)
    (hkeys : ∀ e ∈ static, staticKey uc (staticKey uc e.1) = staticKey uc e.1) :
    StaticOk uc (static.map (normEntry uc)) where
  entries := by
    intro e' he'
    obtain ⟨e, he, rfl⟩ := List.mem_map.1 he'
    obtain ⟨hne, hparse⟩ := h.entries e he
    obtain ⟨ip, hip⟩ := Option.ne_none_iff_exists'.1 hparse
    rw [normEntry_of_parse hip]
    constructor
    · rw [hkeys e he]
      exact hne
    · rw [parseIP_trimSpace_ipString (parseIP_length hip)]
      exact Option.some_ne_none ip
  nodup := by
    have hmap : (static.map (normEntry uc)).map (fun e => staticKey uc e.1) =
        static.map fun e => staticKey uc e.1 := by
      rw [List.map_map]
      exact List.map_congr_left hkeys
    rw [hmap]
    exact h.nodup

end SecondPass

/-- Validated keys are settled exactly if a second normalisation leaves every
configured name, or if the resolver is off and its table would pass the
checks. -/
theorem settled_iff (uc : UnicodeCase) (o : MapOrder) (c c' : AppConfig)
    (h : validate uc o c = .ok c') :
    Settled uc c' ↔
      (c.dns64Enable = true → ∀ e ∈ c.dns64Static,
        staticKey uc (staticKey uc e.1) = staticKey uc e.1) ∧
      (c.dns64Enable = false → StaticOk uc c.dns64Static) := by
  obtain ⟨hv, rfl⟩ := validate_eq_ok_iff.1 h
  have hstatic := complete_dns64Static uc o c
  have henable := (complete_enables uc o c).2
  have hcompleted := completed_complete uc o c
  cases hd : c.dns64Enable with
  | false =>
    rw [hd, if_neg Bool.false_ne_true] at hstatic
    have hsecond : ∀ o', complete uc o' (complete uc o c) = complete uc o c := by
      intro o'
      rw [complete_of_completed hcompleted, henable, hd, if_neg Bool.false_ne_true]
    have hvalid : Valid uc (complete uc o c) := hv.complete fun hd' => by
      rw [hd] at hd'
      cases hd'
    constructor
    · intro hsettled
      refine ⟨nofun, fun _ => ?_⟩
      rw [← hstatic]
      exact lossless_iff.1 hsettled.lossless
    · rintro ⟨-, hok⟩
      refine ⟨fun o' => ⟨_, validate_eq_ok_iff.2 ⟨hvalid, (hsecond o').symm⟩, .refl _, rfl⟩, ?_⟩
      rw [hstatic]
      exact lossless_iff.2 (hok rfl)
  | true =>
    rw [hd, if_pos rfl] at hstatic
    have hsecond : ∀ o', complete uc o' (complete uc o c) = { complete uc o c with
        dns64Static := (o'.order (complete uc o c).dns64Static).map (normEntry uc) } := by
      intro o'
      rw [complete_of_completed hcompleted, if_pos (henable.trans hd)]
    have hok := (hv.dns64 hd).static
    constructor
    · intro hsettled
      refine ⟨fun _ e he => ?_, nofun⟩
      obtain ⟨c'', hvalidate, hsame⟩ := hsettled.idempotent default
      obtain ⟨-, rfl⟩ := validate_eq_ok_iff.1 hvalidate
      have hperm := hsame.static
      rw [hsecond default] at hperm
      have hmem : normEntry uc e ∈ (complete uc o c).dns64Static := by
        rw [hstatic]
        exact List.mem_map_of_mem ((o.perm _).mem_iff.2 he)
      have hlength := length_of_perm (((MapOrder.perm default _).map _).symm.trans hperm) hmem
      exact staticKey_of_length (toLower_staticKey uc e.1) hlength
    · rintro ⟨hkeys, -⟩
      have hnormal : StaticOk uc (c.dns64Static.map (normEntry uc)) :=
        staticOk_normalised hok (hkeys rfl)
      have hfix : ∀ e ∈ (complete uc o c).dns64Static, normEntry uc e = e := by
        intro e' he'
        rw [hstatic] at he'
        obtain ⟨e, he, rfl⟩ := List.mem_map.1 he'
        have he := (o.perm _).mem_iff.1 he
        obtain ⟨ip, hip⟩ := Option.ne_none_iff_exists'.1 (hok.entries e he).2
        exact normEntry_normEntry hip (hkeys rfl e he)
      refine ⟨fun o' => ⟨_, validate_eq_ok_iff.2 ⟨hv.complete fun _ => hnormal,
        (hsecond o').symm⟩, ?_, rfl⟩, ?_⟩
      · have hmap : (o'.order (complete uc o c).dns64Static).map (normEntry uc) =
            o'.order (complete uc o c).dns64Static := by
          conv_rhs => rw [← List.map_id (o'.order (complete uc o c).dns64Static)]
          exact List.map_congr_left fun e he => hfix e ((o'.perm _).mem_iff.1 he)
        simp only [hmap]
        exact o'.perm _
      · rw [lossless_iff, hstatic]
        exact hnormal.perm ((o.perm _).map _).symm

/-! ## Two names that meet -/

/-- A resolver with static names. -/
def staticConfig (static : List (String × String)) : AppConfig where
  dns64Enable := true
  dns64Default := "192.0.2.53:53"
  dns64Static := static

theorem settled_iff_router :
    ∃ c', validate asciiCase default (staticConfig [("Router.Home.", "192.168.1.1")]) = .ok c' ∧
      Settled asciiCase c' := by
  have hok : ∃ c', c' ∈ (validate asciiCase default
      (staticConfig [("Router.Home.", "192.168.1.1")])).toOption :=
    Option.isSome_iff_exists.1 (by decide +kernel)
  obtain ⟨c', hc'⟩ := hok
  refine ⟨c', toOption_eq_some hc', ?_⟩
  refine (settled_iff asciiCase default _ c' (toOption_eq_some hc')).2 ⟨fun _ => ?_, nofun⟩
  decide +kernel

/-- The first pass tells the two names apart and the second refuses them. -/
theorem dotted_name_refused :
    ∃ c', validate asciiCase default
        (staticConfig [("a..", "192.0.2.1"), ("a", "192.0.2.2")]) = .ok c' ∧
      ¬ Settled asciiCase c' := by
  have hrefused : ∃ c' ∈ (validate asciiCase default
      (staticConfig [("a..", "192.0.2.1"), ("a", "192.0.2.2")])).toOption,
      (validate asciiCase default c').toOption = none := by
    decide +kernel
  obtain ⟨c', hc', hnone⟩ := hrefused
  refine ⟨c', toOption_eq_some hc', fun hsettled => ?_⟩
  obtain ⟨c'', hvalidate, -⟩ := hsettled.idempotent default
  rw [hvalidate] at hnone
  cases hnone

end Ydn64.Dns64
