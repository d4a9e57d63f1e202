import Ydn64.Dns64.Returns
import Ydn64.Dns64.StaticTable

/-!
# Static names and the forwarders

A static name is answered by the node itself, and nothing about it is asked of a
forwarder (`AnswersLocally`).  `staticAnswer` looks only at queries for A, AAAA
and ANY; with any other type the name goes on to the zones and to a forwarder.
Also a name whose normal form is not stable (`Ydn64.Dns64.StaticTable`) is
missing from the served table, unless another entry stands there under it.

`avoids_handleVia_iff` says for any query when no run of it comes to an
exchange.  `static_local_iff` is the result for static names.
-/

namespace Ydn64.Dns64

open Ydn64.GoStd Ydn64.Config Ydn64.Lib
open Ydn64.Nat64 (second)

/-- The handler returns, and no run of it comes to an exchange with a
forwarder. -/
structure AnswersLocally {α : Type} (net : Network) (p : Handler α) (s : ProxyState) : Prop where
  returns : Returns net p s
  unasked : Prog.Avoids (proxyStep net) (fun op => op.isExchange = true) p s

/-- A query that `dispatch` answers without a forwarder. -/
def LocalDispatch (uc : UnicodeCase) (s : ProxyState) (req : Msg) (q : Question) : Prop :=
  q.qtype = typeA ∧ isIPv4Only uc q.name = true ∨
  (q.qtype = typeAAAA ∨ q.qtype = typeANY) ∧ req.validates = false ∧
    (isIPv4Only uc q.name = true ∨ ¬ CacheMisses s { q with qtype := typeAAAA })

/-! ## Handlers that come to an exchange -/

section Avoids

variable {bad : ProxyOp → Prop} {net : Network} {uc : UnicodeCase} {lib : DnsLib}
  {s : ProxyState} {req : Msg} {q : Question} {z : Zone} {server : String} {via : Via} {α β : Type}

/-- The bad operations are all exchanges and perhaps the panic. -/
structure Exchanges (bad : ProxyOp → Prop) : Prop where
  exchange : ∀ server req via, bad (.exchange server req via)
  refusable : ∀ op, bad op → op.Refusable

theorem Exchanges.not_bad (h : Exchanges bad) {op : ProxyOp} (hop : ¬ op.Refusable) : ¬ bad op :=
  fun hbad => hop (h.refusable op hbad)

theorem avoids_map_iff {p : Handler α} {g : α → β} :
    Prog.Avoids (proxyStep net) bad (p >>= fun a => pure (g a)) s ↔
      Prog.Avoids (proxyStep net) bad p s := by
  rw [Prog.avoids_bind_iff, and_iff_left]
  exact Prog.wp_of_forall (fun _ _ => Prog.avoids_ret _ _) _ _

theorem avoids_bind_of_never {p : Handler α} {f : α → Handler β} (hp : p.Never bad) :
    Prog.Avoids (proxyStep net) bad (p >>= f) s ↔
      Ends net (fun a s' => Prog.Avoids (proxyStep net) bad (f a) s') p s :=
  Prog.avoids_bind_iff.trans (and_iff_right (hp.avoids s))

theorem lookup_not_avoids (h : Exchanges bad) :
    ¬ Prog.Avoids (proxyStep net) bad (lookup server req via) s := by
  intro havoids
  have hruns : ∀ {γ : Type} {p : Handler γ} {s : ProxyState}, p.Never ProxyOp.Refusable →
      Returns net p s :=
    fun hp => Prog.runs_of_avoids (proxyStep_enabled_of_local net) (hp.avoids _)
  unfold lookup at havoids
  have hid : (drawId : Handler _).Never ProxyOp.Refusable := Prog.never_perform id
  obtain ⟨-, msgId, s₁, -, hrest⟩ := (hruns hid).exists_of_wp (Prog.avoids_bind_iff.1 havoids).2
  have hname : (sentName server req).Never ProxyOp.Refusable :=
    never_sentName (fun _ => id) (fun _ => id) server req
  obtain ⟨-, ⟨name, check⟩, s₂, -, hsent⟩ :=
    (hruns hname).exists_of_wp (Prog.avoids_bind_iff.1 hrest).2
  have hexchange := (Prog.avoids_bind_iff.1 hsent).1
  exact (Prog.avoids_call_iff.1 hexchange).1 (h.exchange _ _ _)

theorem lookup_bind_not_avoids (h : Exchanges bad) {k : Option Msg → Handler α} :
    ¬ Prog.Avoids (proxyStep net) bad (lookup server req via >>= k) s :=
  fun havoids => lookup_not_avoids h (Prog.avoids_bind_iff.1 havoids).1

theorem avoids_handleA_iff (h : Exchanges bad) :
    Prog.Avoids (proxyStep net) bad (handleA uc lib req q z server via) s ↔
      isIPv4Only uc q.name = true := by
  unfold handleA
  cases isIPv4Only uc q.name with
  | true => exact iff_of_true (Prog.avoids_ret _ _) rfl
  | false => exact iff_of_false (lookup_bind_not_avoids h) Bool.false_ne_true

theorem handlePTR_not_avoids (h : Exchanges bad) :
    ¬ Prog.Avoids (proxyStep net) bad (handlePTR uc lib req q server via) s := by
  have hreverse : (reversePTR uc q.name).Never bad := by
    unfold reversePTR
    cases ptrToIPv6 uc q.name with
    | none => exact never_pure _
    | some ip6 =>
      exact (Prog.never_perform (h.not_bad id)).bind fun _ => trivial
  simp only [handlePTR, Request.load_value_bind, monadLift_self]
  rw [avoids_bind_of_never hreverse, ends_reversePTR]
  cases reversedFor uc s.cfg q.name with
  | none => exact lookup_not_avoids h
  | some ipv4 => exact lookup_bind_not_avoids h

theorem avoids_handleAAAA_iff (h : Exchanges bad) :
    Prog.Avoids (proxyStep net) bad (handleAAAA uc lib req q z server via) s ↔
      isIPv4Only uc q.name = true ∨ ¬ CacheMisses s q := by
  simp only [handleAAAA, Request.load_value_bind, monadLift_self]
  cases isIPv4Only uc q.name with
  | true => exact iff_of_true (Prog.avoids_ret _ _) (.inl rfl)
  | false =>
    have hcached : (cachedAAAA q).Never bad :=
      never_cachedAAAA (h.not_bad id)
        (fun _ => h.not_bad id) q
    rw [if_neg Bool.false_ne_true, avoids_bind_of_never hcached, ends_cachedAAAA,
      or_iff_right Bool.false_ne_true]
    constructor
    · rintro ⟨hmiss, -⟩ hmisses
      exact lookup_bind_not_avoids h (hmiss hmisses)
    · intro hhit
      exact ⟨fun hmisses => absurd hmisses hhit, fun _ _ _ _ => Prog.avoids_ret _ _⟩

theorem avoids_dispatch_iff (h : Exchanges bad) (hclass : q.qclass = classINET) :
    Prog.Avoids (proxyStep net) bad (dispatch uc lib req q z server via) s ↔
      LocalDispatch uc s req q := by
  simp only [dispatch, LocalDispatch, Request.load_value_bind, dnssecValidatingClient_eq]
  rw [if_neg (not_not.2 hclass)]
  have hthrough : ¬ Prog.Avoids (proxyStep net) bad (passThrough req server via) s :=
    lookup_not_avoids h
  cases req.validates with
  | true =>
    simp only [if_true]
    split_ifs with h6 hany hA hptr
    · rw [avoids_map_iff]
      exact iff_of_false hthrough (by simp [h6, typeA, typeAAAA])
    · rw [avoids_map_iff]
      exact iff_of_false hthrough (by simp [hany, typeA, typeANY])
    · rw [avoids_map_iff, avoids_handleA_iff h]
      simp [hA]
    · rw [avoids_map_iff]
      exact iff_of_false (handlePTR_not_avoids h) (by simp [hA])
    · rw [avoids_map_iff]
      exact iff_of_false hthrough (by simp [hA])
  | false =>
    simp only [Bool.false_eq_true, if_false, true_and]
    split_ifs with h6 hany hA hptr
    · have hq : { q with qtype := typeAAAA } = q := by rw [← h6]
      rw [avoids_map_iff, avoids_handleAAAA_iff h, hq]
      simp [h6, typeA, typeAAAA]
    · rw [avoids_map_iff, avoids_handleAAAA_iff h]
      simp [hany, typeA, typeANY]
    · rw [avoids_map_iff, avoids_handleA_iff h]
      simp [hA, typeA, typeAAAA, typeANY]
    · rw [avoids_map_iff]
      exact iff_of_false (handlePTR_not_avoids h) (by simp [h6, hany, hA])
    · rw [avoids_map_iff]
      exact iff_of_false hthrough (by simp [h6, hany, hA])

/-- No run of a query comes to an exchange exactly if the query is answered
statically, or not at all, or by the dispatch alone. -/
theorem avoids_handleVia_iff (h : Exchanges bad) {qs : List Question}
    (hq : req.question = q :: qs) (hclass : q.qclass = classINET) :
    Prog.Avoids (proxyStep net) bad (handleVia uc lib req via) s ↔
      (staticFor uc lib s.static req q = none → zoneFor uc s.cfg q.name ≠ none →
        LocalDispatch uc s req q) := by
  have hload : (loadConfig : Handler _).Never bad :=
    Prog.never_perform (h.not_bad id)
  simp only [handleVia, Request.load_value_bind, monadLift_self]
  rw [hq]
  dsimp only
  rw [avoids_bind_of_never (never_staticAnswer (h.not_bad id) uc lib req q),
    ends_staticAnswer]
  cases staticFor uc lib s.static req q with
  | some resp => exact iff_of_true (Prog.avoids_ret _ _) (fun hnone => by cases hnone)
  | none =>
    dsimp only
    rw [avoids_bind_of_never hload, ends_loadConfig, zoneFor]
    cases matchZone uc s.cfg.zones (toLower uc q.name) with
    | none => exact iff_of_true (Prog.avoids_ret _ _) (by simp)
    | some z =>
      dsimp only
      rw [Option.filter_some]
      cases z.blocked with
      | true => exact iff_of_true (Prog.avoids_ret _ _) (by simp)
      | false =>
        rw [if_neg Bool.false_ne_true,
          avoids_bind_of_never (never_getForwarder (h.not_bad id) z),
          ends_getForwarder, avoids_map_iff, avoids_dispatch_iff h hclass]
        simp

theorem answersLocally_iff {qs : List Question} (hq : req.question = q :: qs)
    (hclass : q.qclass = classINET) :
    AnswersLocally net (handleVia uc lib req via) s ↔
      (staticFor uc lib s.static req q = none → zoneFor uc s.cfg q.name ≠ none →
        LocalDispatch uc s req q) := by
  have hexchange : Exchanges fun op => op.isExchange = true :=
    ⟨fun _ _ _ => rfl, fun op hop => by cases op <;> trivial⟩
  have hrefusable : Exchanges ProxyOp.Refusable := ⟨fun _ _ _ => trivial, fun _ hop => hop⟩
  constructor
  · intro hanswers
    exact (avoids_handleVia_iff hexchange hq hclass).1 hanswers.unasked
  · intro hlocal
    have havoids : Prog.Avoids (proxyStep net) ProxyOp.Refusable (handleVia uc lib req via) s :=
      (avoids_handleVia_iff hrefusable hq hclass).2 hlocal
    exact ⟨Prog.runs_of_avoids (proxyStep_enabled_of_local net) havoids,
      (avoids_handleVia_iff hexchange hq hclass).2 hlocal⟩

end Avoids

/-! ## Static names -/

/-- A name in the text form of the library: ASCII, and without white space at
its ends. -/
structure TextName (name : String) : Prop where
  ascii : ∀ c ∈ name.toList, c.val < 128
  trimmed : trimSpace name = name

/-- The two names are equal up to the case of letters and a trailing dot. -/
def SameName (uc : UnicodeCase) (name name' : String) : Prop :=
  toLower uc (trimSuffixDot name) = toLower uc (trimSuffixDot name')

instance (uc : UnicodeCase) (name name' : String) : Decidable (SameName uc name name') :=
  inferInstanceAs (Decidable (_ = _))

/-- The served table of the static entries has the name. -/
def ServedKey (uc : UnicodeCase) (static : List (String × String)) (name : String) : Prop :=
  staticKey uc name ≠ "" ∧ ∃ e ∈ static, staticKey uc e.1 = staticKey uc name

section Names

variable {uc : UnicodeCase} {static : List (String × String)}

theorem SameName.staticKey_eq {name name' : String} (h : SameName uc name name')
    (htrim : trimSpace name = name) (htrim' : trimSpace name' = name') :
    staticKey uc name = staticKey uc name' := by
  rw [staticKey, staticKey, htrim, htrim']
  exact h

theorem lookup_static_ne_none_iff {o : MapOrder} {name : String}
    (hparse : ∀ e ∈ static, parseIP (trimSpace e.2) ≠ none) :
    (parseStaticEntries uc o static).lookup (staticKey uc name) ≠ none ↔
      ServedKey uc static name := by
  constructor
  · intro hfound
    obtain ⟨ip, hip⟩ := Option.ne_none_iff_exists'.1 hfound
    obtain ⟨e, he, hentry⟩ := List.mem_filterMap.1
      ((mem_filterMap_order o).1 (mem_of_lookup_storeAll hip))
    obtain ⟨hkey, hne, -⟩ := staticEntry_eq_some_iff.1 hentry
    exact ⟨hne, e, he, hkey⟩
  · rintro ⟨hne, e, he, hkey⟩
    obtain ⟨ip, hip⟩ := Option.ne_none_iff_exists'.1 (hparse e he)
    have hentry := staticEntry_eq_some_iff.2 ⟨hkey, hne, hip⟩
    exact lookup_storeAll_ne_none
      ((mem_filterMap_order o).2 (List.mem_filterMap.2 ⟨e, he, hentry⟩))

theorem toLower_trimSuffixDot_of_ipv4Only {name : String} (htext : TextName name)
    (h : isIPv4Only uc name = true) : toLower uc (trimSuffixDot name) = "ipv4only.arpa" := by
  have hlower : toLower uc name = "ipv4only.arpa." := by
    unfold isIPv4Only at h
    exact of_decide_eq_true h
  have hmap : name.toList.map uc.toLower = "ipv4only.arpa".toList ++ ['.'] := by
    rw [← String.toList_ofList (l := name.toList.map uc.toLower)]
    exact congrArg String.toList hlower
  obtain ⟨front, last, hname, hfront, hlast⟩ := List.map_eq_append_iff.1 hmap
  obtain ⟨c, rfl, hc⟩ := List.map_eq_singleton_iff.1 hlast
  -- Only the dot has the dot as its lower case.
  have hdot : c = '.' := by
    have hascii := htext.ascii c (by rw [hname]; simp)
    rw [uc.toLower_ascii c hascii] at hc
    exact eq_dot_of_toLower hc
  rw [trimSuffixDot, hname, hdot, if_pos (by simp), List.dropLast_concat, toLower,
    String.toList_ofList, hfront, String.ofList_toList]

theorem toLower_trimSuffixDot {name : String} (h : toLower uc name = name) :
    toLower uc (trimSuffixDot name) = trimSuffixDot name := by
  have hmap : name.toList.map uc.toLower = name.toList := by
    rw [← String.toList_ofList (l := name.toList.map uc.toLower)]
    exact congrArg String.toList h
  unfold trimSuffixDot
  split_ifs
  · rw [toLower, String.toList_ofList, List.map_dropLast, hmap]
  · exact h

/-- A static name that equals that of RFC 7050 is served. -/
theorem servedKey_of_ipv4Only {name : String} (htext : TextName name)
    (h : isIPv4Only uc name = true) {e : String × String} (he : e ∈ static)
    (hlow : toLower uc e.1 = e.1) (hsame : SameName uc name e.1) : ServedKey uc static name := by
  have hkey := toLower_trimSuffixDot_of_ipv4Only htext h
  have htrimmed : trimSuffixDot e.1 = "ipv4only.arpa" := by
    rw [← toLower_trimSuffixDot hlow, ← hsame, hkey]
  have hspace : trimSpace e.1 = e.1 := by
    apply trimSpace_eq_self
    intro c hc
    have hall : ("ipv4only.arpa.".toList.all fun c => !isSpace c) = true := by decide
    have hplain : ∀ c ∈ "ipv4only.arpa.".toList, isSpace c = false := by
      simpa only [List.all_eq_true, Bool.not_eq_true'] using hall
    apply hplain
    rw [trimSuffixDot] at htrimmed
    split_ifs at htrimmed with hlast
    · have hdrop : e.1.toList.dropLast = "ipv4only.arpa".toList := by
        rw [← htrimmed, String.toList_ofList]
      rw [← List.dropLast_append_getLast? '.' hlast, hdrop] at hc
      exact hc
    · rw [htrimmed] at hc
      exact List.mem_append_left ['.'] hc
  refine ⟨?_, e, he, (hsame.staticKey_eq htext.trimmed hspace).symm⟩
  rw [staticKey, htext.trimmed, hkey]
  decide

theorem validated_static {o : MapOrder} {c c' : AppConfig} (henable : c.dns64Enable = true)
    (hvalid : validate uc o c = .ok c') {e : String × String} (he : e ∈ c'.dns64Static) :
    ∃ name ip, ip.length = 16 ∧ e = (staticKey uc name, ipString ip) := by
  obtain ⟨hv, rfl⟩ := validate_eq_ok_iff.1 hvalid
  rw [complete_dns64Static, if_pos henable] at he
  obtain ⟨e₀, he₀, rfl⟩ := List.mem_map.1 he
  have hparse := ((hv.dns64 henable).static.entries e₀ ((o.perm _).mem_iff.1 he₀)).2
  obtain ⟨ip, hip⟩ := Option.ne_none_iff_exists'.1 hparse
  exact ⟨e₀.1, ip, parseIP_length hip, normEntry_of_parse hip⟩

theorem staticType_ne_iff {q : Question} : (staticType q ≠ typeA ∧ staticType q ≠ typeAAAA) ↔
    ¬ (q.qtype = typeA ∨ q.qtype = typeAAAA ∨ q.qtype = typeANY) := by
  unfold staticType
  split_ifs with hany
  · simp [hany]
  · simp [hany]

end Names

/-- A query for a static name is answered without a forwarder exactly if no zone
serves it, or if it asks for an address and the served table has the name or the
cache has an answer. -/
theorem static_local_iff (uc : UnicodeCase) (lib : DnsLib) (net : Network) (o o' : MapOrder)
    (c c' : AppConfig) (henable : c.dns64Enable = true) (hvalid : validate uc o c = .ok c')
    (s : ProxyState) (hstatic : s.static = parseStaticEntries uc o' c'.dns64Static) (req : Msg)
    (q : Question) (via : Via) (hq : req.question.head? = some q) (hclass : q.qclass = classINET)
    (htext : TextName q.name)
    (hname : ∃ e ∈ c'.dns64Static, SameName uc q.name e.1) :
    AnswersLocally net (handleVia uc lib req via) s ↔
      zoneFor uc s.cfg q.name = none ∨
      (q.qtype = typeA ∨ q.qtype = typeAAAA ∨ q.qtype = typeANY) ∧
        (ServedKey uc c'.dns64Static q.name ∨
          q.qtype ≠ typeA ∧ req.validates = false ∧
            ¬ CacheMisses s { q with qtype := typeAAAA }) := by
  obtain ⟨qs, hqs⟩ := List.head?_eq_some_iff.1 hq
  obtain ⟨e, he, hsame⟩ := hname
  have hparse : ∀ e ∈ c'.dns64Static, parseIP (trimSpace e.2) ≠ none := by
    intro e he
    obtain ⟨name, ip, hip, rfl⟩ := validated_static henable hvalid he
    rw [parseIP_trimSpace_ipString hip]
    exact Option.some_ne_none ip
  have hlow : toLower uc e.1 = e.1 := by
    obtain ⟨name, ip, -, rfl⟩ := validated_static henable hvalid he
    exact toLower_staticKey uc name
  have hserved : staticFor uc lib s.static req q = none ↔
      (staticType q ≠ typeA ∧ staticType q ≠ typeAAAA) ∨
        ¬ ServedKey uc c'.dns64Static q.name := by
    rw [staticFor_eq_none_iff hclass, hstatic,
      ← lookup_static_ne_none_iff hparse, not_not]
  -- The name of RFC 7050 needs no dispatch if it is a static name.
  have honly : ¬ ServedKey uc c'.dns64Static q.name → isIPv4Only uc q.name = false := by
    intro hnot
    by_contra honly
    exact hnot (servedKey_of_ipv4Only htext (by simpa using honly) he
      hlow hsame)
  have h6 : q.qtype = typeAAAA → q.qtype ≠ typeA := by
    intro h6
    rw [h6]
    decide
  have hany : q.qtype = typeANY → q.qtype ≠ typeA := by
    intro hany
    rw [hany]
    decide
  rw [answersLocally_iff hqs hclass, hserved, staticType_ne_iff, LocalDispatch]
  constructor
  · intro h
    by_cases hzone : zoneFor uc s.cfg q.name = none
    · exact .inl hzone
    refine .inr ?_
    by_cases hkey : ServedKey uc c'.dns64Static q.name
    · refine ⟨?_, .inl hkey⟩
      by_contra hother
      rcases h (.inl hother) hzone with ⟨hA, -⟩ | ⟨h6any, -⟩
      · exact hother (.inl hA)
      · exact hother (.inr h6any)
    · rcases h (.inr hkey) hzone with ⟨-, hlocal⟩ | ⟨h6any, hplain, hlocal | hcached⟩
      · exact absurd hlocal (by simp [honly hkey])
      · exact absurd hlocal (by simp [honly hkey])
      · exact ⟨.inr h6any, .inr ⟨h6any.elim h6 hany, hplain, hcached⟩⟩
  · rintro (hnone | ⟨hasks, hkey | ⟨hA, hplain, hcached⟩⟩) hserved hzone
    · exact absurd hnone hzone
    · rcases hserved with hother | hmissing
      · exact absurd hasks hother
      · exact absurd hkey hmissing
    · exact .inr ⟨hasks.resolve_left hA, hplain, .inr hcached⟩

/-! ## A static name asked for its mail exchangers -/

/-- A configuration with one static name. -/
def routerConfig : AppConfig := staticConfig [("Router.Home.", "192.168.1.1")]

/-- A proxy with the catch-all zone and a static table. -/
def routerProxy (static : List (String × String)) : ProxyState :=
  { ProxyState.new filteringConfig ⟨second, 0, none⟩ with
    static := parseStaticEntries asciiCase default static }

def routerQuery (qtype : UInt16) : Msg := { question := [⟨"router.home.", qtype, classINET⟩] }

theorem static_local_iff_router :
    ∃ c', validate asciiCase default routerConfig = .ok c' ∧
      AnswersLocally anyReply (handleVia asciiCase anyName (routerQuery typeA) .udp)
        (routerProxy c'.dns64Static) := by
  have hok : ∃ c' ∈ (validate asciiCase default routerConfig).toOption,
      (∃ e ∈ c'.dns64Static, SameName asciiCase "router.home." e.1) ∧
      ∃ e ∈ c'.dns64Static, staticKey asciiCase e.1 = staticKey asciiCase "router.home." := by
    decide +kernel
  have hascii : ("router.home.".toList.all fun c => c.val < 128) = true := by decide
  have htext : TextName "router.home." :=
    ⟨by simpa only [List.all_eq_true, decide_eq_true_eq] using hascii, by decide⟩
  obtain ⟨c', hc', hname, hkey⟩ := hok
  refine ⟨c', toOption_eq_some hc', ?_⟩
  refine (static_local_iff asciiCase anyName anyReply default default routerConfig c' rfl
    (toOption_eq_some hc') (routerProxy c'.dns64Static) rfl (routerQuery typeA)
    ⟨"router.home.", typeA, classINET⟩ .udp rfl rfl htext hname).2 ?_
  exact .inr ⟨.inl rfl, .inl ⟨by decide, hkey⟩⟩

def typeMX : UInt16 := 15

/-- A query for the mail exchangers of a static name comes to an exchange. -/
theorem static_mx_asked :
    ∃ c', validate asciiCase default routerConfig = .ok c' ∧
      (∃ e ∈ c'.dns64Static, SameName asciiCase "router.home." e.1) ∧
      ¬ AnswersLocally anyReply (handleVia asciiCase anyName (routerQuery typeMX) .udp)
        (routerProxy c'.dns64Static) := by
  have hasked : ∃ c' ∈ (validate asciiCase default routerConfig).toOption,
      (∃ e ∈ c'.dns64Static, SameName asciiCase "router.home." e.1) ∧
      ∃ op ∈ Prog.nextOp (proxyStep anyReply)
        (handleVia asciiCase anyName (routerQuery typeMX) .udp) (routerProxy c'.dns64Static)
        (idle 4), op.isExchange = true := by
    decide +kernel
  obtain ⟨c', hc', hname, op, hop, hexchange⟩ := hasked
  refine ⟨c', toOption_eq_some hc', hname, fun hlocal => ?_⟩
  exact hlocal.unasked (idle 4) op hop hexchange

end Ydn64.Dns64
