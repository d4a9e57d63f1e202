import Ydn64.Dns64.Resolve

/-!
# The TTL of an answer

Where the records of an answer come from.  `Derives u r` relates a record of a
forwarder to the record that the proxy makes of it, whatever their TTLs are, and
`Sourced es rrs` says that the records come from one of the replies in `es`,
each from a record of its own whose TTL is not smaller.

An entry of the cache comes from the exchanges of the query that stored it
(`OriginsSourced`), and this is kept over every run (`originsSourced_run`).  So
an answer is local, or comes from the exchanges of the query, or from those of
the query that made the cached answer (`Traced`).  The one exception is the
answer to a PTR query for an address of a pool: its records are written without
a TTL, and the parser fills in one hour.  `answer_traced` is the result for all
queries but those with a smaller TTL in such a reply.
-/

namespace Ydn64.Dns64

open Ydn64.GoStd Ydn64.Config Ydn64.Lib
open Ydn64.Nat64 (second)

/-! ## Where a record comes from -/

/-- The record `r` is made of the record `u`.  The TTLs do not count. -/
inductive Derives (u r : RR) : Prop
  | relayed (h : r.untimed = u.untimed)
  | synthesised (addr ip : IP) (hu : u.a? = some addr) (hr : r.data = .aaaa ip)
      (hip : ip = List.replicate 16 0 ∨ ∃ (pref : Pref64) (v : Addr4), to4 addr = some v.toList ∧
        ip = (pref.embed v).toList)
  | rewritten (target : String) (hu : u.ptr? = some target) (hr : r.data = .ptr target)

/-- A record that is made of another has no larger TTL. -/
def NotInflated (u r : RR) : Prop := Derives u r ∧ r.ttl ≤ u.ttl

/-- The records come from records of one of the replies. -/
def Sourced (es : List Exchanged) (rrs : List RR) : Prop :=
  ∃ e ∈ es, ∃ m, e.reply.msg? = some m ∧
    ∃ srcs, srcs.Subperm m.answer ∧ List.Forall₂ NotInflated srcs rrs

theorem NotInflated.refl (u : RR) : NotInflated u u := ⟨.relayed rfl, UInt32.le_refl u.ttl⟩

theorem decrement_ttl_le (rr : RR) (dec : UInt32) : (rr.decrement dec).ttl ≤ rr.ttl := by
  simp only [RR.decrement]
  split_ifs with h
  · exact UInt32.zero_le
  · rw [UInt32.le_iff_toNat_le] at h ⊢
    rw [UInt32.toNat_sub_of_le _ _ (UInt32.le_iff_toNat_le.2 (by omega))]
    omega

theorem NotInflated.decrement {u r : RR} (h : NotInflated u r) (dec : UInt32) :
    NotInflated u (r.decrement dec) := by
  obtain ⟨hderives, hle⟩ := h
  refine ⟨?_, UInt32.le_trans (decrement_ttl_le r dec) hle⟩
  cases hderives with
  | relayed hr => exact .relayed hr
  | synthesised addr ip hu hr hip => exact .synthesised addr ip hu hr hip
  | rewritten target hu hr => exact .rewritten target hu hr

theorem forall₂_filter {α β : Type} {R : α → β → Prop} {us : List α} {rs : List β} (p : β → Bool)
    (h : List.Forall₂ R us rs) : ∃ us', us'.Sublist us ∧ List.Forall₂ R us' (rs.filter p) := by
  induction h with
  | nil => exact ⟨[], .slnil, .nil⟩
  | @cons u r us rs hur _ ih =>
    obtain ⟨us', hsub, hall⟩ := ih
    cases hp : p r with
    | true => exact ⟨u :: us', hsub.cons_cons u, by simpa [hp] using ⟨hur, hall⟩⟩
    | false => exact ⟨us', hsub.cons u, by simpa [hp] using hall⟩

theorem forall₂_filterMap {α β : Type} {R : α → β → Prop} {f : α → Option β} (us : List α)
    (h : ∀ u ∈ us, ∀ r, f u = some r → R u r) :
    List.Forall₂ R (us.filter fun u => (f u).isSome) (us.filterMap f) := by
  induction us with
  | nil => exact .nil
  | cons u us ih =>
    have ih := ih fun u' hu' => h u' (List.mem_cons_of_mem u hu')
    cases hf : f u with
    | none => simpa [hf] using ih
    | some r => simpa [hf] using ⟨h u List.mem_cons_self r hf, ih⟩

namespace Sourced

variable {es es' : List Exchanged} {rrs : List RR}

theorem mono (h : Sourced es rrs) (hes : es ⊆ es') : Sourced es' rrs := by
  obtain ⟨e, he, hrest⟩ := h
  exact ⟨e, hes he, hrest⟩

theorem filter (h : Sourced es rrs) (p : RR → Bool) : Sourced es (rrs.filter p) := by
  obtain ⟨e, he, m, hm, srcs, hsub, hall⟩ := h
  obtain ⟨srcs', hsub', hall'⟩ := forall₂_filter p hall
  exact ⟨e, he, m, hm, srcs', hsub'.subperm.trans hsub, hall'⟩

theorem decrement (h : Sourced es rrs) (dec : UInt32) :
    Sourced es (rrs.map fun rr => rr.decrement dec) := by
  obtain ⟨e, he, m, hm, srcs, hsub, hall⟩ := h
  refine ⟨e, he, m, hm, srcs, hsub, ?_⟩
  rw [List.forall₂_map_right_iff]
  exact hall.imp fun u r hur => hur.decrement dec

theorem of_lookedUp {net : Network} {server : String} {req m : Msg} {srcs : List RR}
    (h : LookedUp net server req es (some m)) (hsub : srcs.Subperm m.answer)
    (hall : List.Forall₂ NotInflated srcs rrs) : Sourced es rrs := by
  obtain ⟨m', hused, hm⟩ := h.used m rfl
  obtain ⟨e, he, hreply⟩ := usedReply_mem h.ne_nil
  rw [hm] at hsub
  exact ⟨e, he, m', hreply.symm.trans hused, srcs, hsub, hall⟩

theorem relayed {net : Network} {server : String} {req m : Msg}
    (h : LookedUp net server req es (some m)) : Sourced es m.answer :=
  of_lookedUp h (List.Subperm.refl _) (List.forall₂_same.2 fun u _ => .refl u)

end Sourced

/-! ## AAAA queries -/

theorem synthesised_notInflated {lib : DnsLib} {cfg : ProxyConfig} {fallbackName : String}
    {pref : Pref64} {maxTTL : UInt32} {u r : RR}
    (h : synthesised lib cfg fallbackName pref maxTTL u = some r) : NotInflated u r := by
  obtain ⟨addr, ip, hu, hr, httl, hip⟩ := synthesised_eq_some h
  refine ⟨.synthesised addr ip hu hr ?_, ?_⟩
  · rcases hip with ⟨-, hip⟩ | ⟨-, v, hv, hip⟩
    · exact .inl hip
    · exact .inr ⟨pref, v, hv, hip⟩
  · rw [httl]
    split_ifs with hlt
    · exact UInt32.le_of_lt hlt
    · exact UInt32.le_refl _

section Aaaa

variable {net : Network} {lib : DnsLib} {cfg : ProxyConfig} {req : Msg} {q : Question}
  {server : String} {es : List Exchanged}

theorem sourced_nonA_append {aResp upResp : Msg} {pref : Pref64}
    (h : LookedUp net server req es (some aResp)) :
    Sourced es (nonA aResp ++ synthesisedFrom lib cfg q pref upResp aResp) := by
  let f := synthesised lib cfg q.name pref (synthesisTTL upResp.ns)
  have hsynth : List.Forall₂ NotInflated (aResp.answer.filter fun u => (f u).isSome)
      (aResp.answer.filterMap f) :=
    forall₂_filterMap aResp.answer fun u _ r hr => synthesised_notInflated hr
  have hnonA : List.Forall₂ NotInflated (nonA aResp) (nonA aResp) :=
    List.forall₂_same.2 fun u _ => .refl u
  -- The records that are passed through and those that are used are disjoint.
  have hdisjoint : (aResp.answer.filter fun u => (f u).isSome).Sublist
      (aResp.answer.filter fun u => !u.a?.isNone) := by
    apply List.monotone_filter_right
    intro u hu
    obtain ⟨r, hr⟩ := Option.isSome_iff_exists.1 hu
    obtain ⟨addr, -, ha, -⟩ := synthesised_eq_some hr
    rw [ha]
    rfl
  refine .of_lookedUp h ?_ (List.rel_append hnonA hsynth)
  exact ((List.Sublist.refl _).append hdisjoint).subperm.trans
    (List.filter_append_perm _ aResp.answer).subperm

theorem Sourced.nonA {aResp : Msg} (h : LookedUp net server req es (some aResp)) :
    Sourced es (nonA aResp) :=
  (Sourced.relayed h).filter _

/-- The answer that `resolution` gives and the records that it stores. -/
def Resolution.Sourced (res : Resolution) (req : Msg) (es : List Exchanged) : Prop :=
  (answerOf res.resp = [] ∨ answerOf res.resp = req.answer ∨
      Dns64.Sourced es (answerOf res.resp)) ∧
    ∀ rrs, res.stored = some rrs → Dns64.Sourced es rrs

theorem resolutionFromA_sourced {req' upResp : Msg} {pref : Pref64} {up4 : Option Msg}
    (h : ∀ m, up4 = some m → LookedUp net server req' es (some m)) :
    (resolutionFromA lib cfg req q pref upResp up4).Sourced req es := by
  cases up4 with
  | none => exact ⟨.inl rfl, fun rrs hrrs => by cases hrrs⟩
  | some aResp =>
    have hlooked := h aResp rfl
    rw [resolutionFromA]
    dsimp only
    split_ifs
    · exact ⟨.inr (.inr (.nonA hlooked)), fun rrs hrrs => by cases hrrs⟩
    · have hall : Sourced es (nonA aResp ++ synthesisedFrom lib cfg q pref upResp aResp) :=
        sourced_nonA_append hlooked
      refine ⟨.inr (.inr hall), fun rrs hrrs => ?_⟩
      obtain rfl := Option.some.inj hrrs
      exact hall

theorem resolution_sourced {req6 req4 : Msg} {z : Zone} {up6 up4 : Option Msg}
    {es6 es4 : List Exchanged} (h6 : LookedUp net server req6 es6 up6)
    (h4 : ∀ m, up4 = some m → LookedUp net server req4 es4 (some m)) :
    (resolution lib cfg req q z up6 up4).Sourced req (es6 ++ es4) := by
  cases up6 with
  | none => exact ⟨.inl rfl, fun rrs hrrs => by cases hrrs⟩
  | some upResp =>
    rw [resolution]
    split_ifs
    · refine ⟨.inr (.inl ?_), fun rrs hrrs => by cases hrrs⟩
      exact Msg.setQtype_answer req typeAAAA
    · cases husable : usableFrom cfg z upResp with
      | some answer =>
        have hall : Sourced (es6 ++ es4) answer := by
          rw [usableFrom_eq_some husable]
          exact ((Sourced.relayed h6).filter _).mono (List.subset_append_left es6 es4)
        refine ⟨.inr (.inr hall), fun rrs hrrs => ?_⟩
        obtain rfl := Option.some.inj hrrs
        exact hall
      | none =>
        cases hpref : z.pref with
        | none => exact ⟨.inl rfl, fun rrs hrrs => by cases hrrs⟩
        | some pref =>
          have hfrom : (resolutionFromA lib cfg req q pref upResp up4).Sourced req es4 :=
            resolutionFromA_sourced h4
          obtain ⟨hanswer, hstored⟩ := hfrom
          have hsub := List.subset_append_right es6 es4
          refine ⟨?_, fun rrs hrrs => (hstored rrs hrrs).mono hsub⟩
          rcases hanswer with hnil | hown | hsourced
          · exact .inl hnil
          · exact .inr (.inl hown)
          · exact .inr (.inr (hsourced.mono hsub))

theorem Resolved.sourced {s s' : ProxyState} {z : Zone} {r up6 up4 : Option Msg}
    {es6 es4 : List Exchanged} (h : Resolved net lib s req q z server r s' up6 up4 es6 es4) :
    (resolution lib s.cfg req q z up6 up4).Sourced req (es6 ++ es4) := by
  rcases h.second with hlooked | ⟨-, hind⟩
  · exact resolution_sourced h.first fun m hm => hm ▸ hlooked
  · have hnone : ∀ m, none = some m → LookedUp net server req es4 (some m) :=
      fun m hm => by cases hm
    rw [← hind none]
    exact resolution_sourced h.first hnone

end Aaaa

/-! ## The cache -/

/-- Every entry of the cache comes from the exchanges of the query that stored
it. -/
def OriginsSourced (s : ProxyState) : Prop :=
  ∀ k it, s.cache.items.lookup k = some it →
    ∃ es, s.origins.lookup k = some es ∧ Sourced es it.value

theorem OriginsSourced.moves {s s' : ProxyState} {es : List Exchanged} {k : CacheKey}
    {stored : Option (List RR)} (hs : OriginsSourced s) (h : Moves s s' es k stored)
    (hstored : ∀ rrs, stored = some rrs → Sourced s'.log rrs) : OriginsSourced s' := by
  have hstores := h.stores
  cases stored with
  | none =>
    obtain ⟨hcache, horigins⟩ := hstores
    unfold OriginsSourced
    rw [hcache, horigins]
    exact hs
  | some rrs =>
    obtain ⟨⟨now, now', victim, hset⟩, horigins⟩ := hstores
    intro k' it hit
    rw [horigins, SyncMap.lookup_insert_eq_ite]
    rcases Cache.lookup_of_set hset hit with ⟨rfl, hvalue⟩ | ⟨hk, hold⟩
    · rw [if_pos rfl, hvalue]
      exact ⟨s'.log, rfl, hstored rrs rfl⟩
    · rw [if_neg hk]
      exact hs k' it hold

theorem OriginsSourced.get {s : ProxyState} {k : CacheKey} {now : Int} {rrs : List RR}
    (hs : OriginsSourced s) (h : s.cache.get k now = some rrs) :
    ∃ es, s.origins.lookup k = some es ∧ Sourced es rrs := by
  obtain ⟨it, dec, hit, rfl⟩ := Cache.get_eq_some h
  obtain ⟨es, hes, hsourced⟩ := hs k it hit
  exact ⟨es, hes, hsourced.decrement dec⟩

/-! ## Every query -/

/-- Where the answer to a query with the exchanges `es` comes from: it has no
records, the records of the request or local ones, or they come from the
exchanges, or from those that the cached answer came from. -/
inductive Traced (uc : UnicodeCase) (lib : DnsLib) (static : SyncMap String IP)
    (origins : SyncMap CacheKey (List Exchanged)) (req : Msg) (es : List Exchanged)
    (answer : List RR) : Prop
  | empty (h : answer = [])
  | own (h : answer = req.answer)
  | static (q : Question) (resp : Msg) (hq : req.question.head? = some q)
      (hst : staticFor uc lib static req q = some resp) (h : answer = resp.answer)
  | ipv4only (q : Question) (hq : req.question.head? = some q)
      (hname : isIPv4Only uc q.name = true) (hes : es = [])
  | upstream (h : Sourced es answer)
  | cached (q : Question) (origin : List Exchanged) (hq : req.question.head? = some q)
      (hes : es = []) (horigin : origins.lookup ⟨q.name, typeAAAA⟩ = some origin)
      (h : Sourced origin answer)

/-- The query is answered with rewritten PTR records. -/
def RewritesPTR (uc : UnicodeCase) (cfg : ProxyConfig) (q : Question) : Prop :=
  q.qclass = classINET ∧ q.qtype = typePTR ∧ reversedFor uc cfg q.name ≠ none

/-- No PTR record of the replies has a TTL below the parser's. -/
def LongPTRs (es : List Exchanged) : Prop :=
  ∀ e ∈ es, ∀ m, e.reply.msg? = some m → ∀ u ∈ m.answer, u.ptr? ≠ none → defaultTTL ≤ u.ttl

theorem rewritePTR_notInflated {lib : DnsLib} {name : String} {u r : RR}
    (h : rewritePTR lib name u = some r) (hu : u.ptr? ≠ none → defaultTTL ≤ u.ttl) :
    NotInflated u r := by
  unfold rewritePTR at h
  cases hptr : u.ptr? with
  | none =>
    rw [hptr] at h
    cases h
  | some target =>
    rw [hptr] at h
    obtain rfl := lib.newPTR_eq_some h
    exact ⟨.rewritten target hptr rfl, hu (by simp [hptr])⟩

theorem LongPTRs.of_lookedUp {net : Network} {server : String} {req m : Msg}
    {es : List Exchanged} (h : LongPTRs es) (hlooked : LookedUp net server req es (some m)) :
    ∀ u ∈ m.answer, u.ptr? ≠ none → defaultTTL ≤ u.ttl := by
  obtain ⟨m', hused, hm⟩ := hlooked.used m rfl
  obtain ⟨e, he, hreply⟩ := usedReply_mem hlooked.ne_nil
  intro u hu
  rw [hm] at hu
  exact h e he m' (hreply.symm.trans hused) u hu

section Queries

variable {net : Network} {uc : UnicodeCase} {lib : DnsLib} {s s' : ProxyState} {req : Msg}
  {q : Question} {z : Zone} {server : String} {via : Via} {r : Option Msg}

/-- What a handler comes to, given the answer `r`. -/
structure Served (uc : UnicodeCase) (lib : DnsLib) (s : ProxyState) (req : Msg)
    (r : Option Msg) (s' : ProxyState) : Prop where
  origins : OriginsSourced s'
  traced : (∀ q, req.question.head? = some q → RewritesPTR uc s.cfg q → LongPTRs s'.log) →
    Traced uc lib s.static s.origins req s'.log (answerOf r)

theorem ends_lookup_served (hs : OriginsSourced s) (hlog : s.log = []) (req' : Msg) :
    Ends net (Served uc lib s req) (lookup server req' via) s := by
  refine Prog.wp_mono (ends_lookup _ _ _) fun r s' hlook => ?_
  obtain ⟨es, hmoves, hlooked⟩ := hlook.moves (k := ⟨"", 0⟩)
  refine ⟨hs.moves hmoves (fun rrs hrrs => by cases hrrs), fun _ => ?_⟩
  cases r with
  | none => exact .empty rfl
  | some m =>
    refine .upstream ?_
    rw [hmoves.log, hlog]
    exact .relayed hlooked

theorem ends_handleAAAA_served (hq : req.question.head? = some q) (hs : OriginsSourced s)
    (hlog : s.log = []) :
    Ends net (Served uc lib s req)
      (handleAAAA uc lib req { q with qtype := typeAAAA } z server via) s := by
  refine Prog.wp_mono ends_handleAAAA fun r s' hhandled => ?_
  cases hhandled with
  | ipv4only hname => exact ⟨hs, fun _ => .ipv4only q hq hname hlog⟩
  | cached hname now rrs hget haaaa =>
    obtain ⟨es, hes, hsourced⟩ := hs.get hget
    exact ⟨hs, fun _ => .cached q es hq hlog hes (hsourced.filter _)⟩
  | resolved hname r s' up6 up4 es6 es4 hres =>
    obtain ⟨hanswer, hstored⟩ := hres.sourced
    have hlog' : s'.log = es6 ++ es4 := by
      rw [hres.moves.log, hlog, List.nil_append]
    rw [← hlog', ← hres.resp] at hanswer
    rw [← hlog'] at hstored
    refine ⟨hs.moves hres.moves hstored, fun _ => ?_⟩
    rcases hanswer with hnil | hown | hsourced
    · exact .empty hnil
    · exact .own hown
    · exact .upstream hsourced

theorem ends_handleA_served (hq : req.question.head? = some q) (hs : OriginsSourced s)
    (hlog : s.log = []) :
    Ends net (Served uc lib s req) (handleA uc lib req q z server via) s := by
  unfold handleA
  cases hname : isIPv4Only uc q.name with
  | true => exact ⟨hs, fun _ => .ipv4only q hq hname hlog⟩
  | false =>
    have hlookup : Ends net (Served uc lib s req)
        (lookup server { req with question := [q] } via) s := ends_lookup_served hs hlog _
    refine ends_bind.2 (Prog.wp_mono hlookup fun r s' hserved => ?_)
    cases r with
    | none => exact hserved
    | some resp =>
      refine ⟨hserved.origins, fun hptr => ?_⟩
      cases z.returnIPv4Addresses with
      | true => exact hserved.traced hptr
      | false => exact .empty rfl

theorem ends_handlePTR_served (hq : req.question.head? = some q) (hclass : q.qclass = classINET)
    (htype : q.qtype = typePTR) (hs : OriginsSourced s) (hlog : s.log = []) :
    Ends net (Served uc lib s req) (handlePTR uc lib req q server via) s := by
  simp only [handlePTR, Request.load_value_bind]
  refine ends_bind.2 (ends_reversePTR.2 ?_)
  cases hrev : reversedFor uc s.cfg q.name with
  | none => exact ends_lookup_served hs hlog req
  | some ipv4 =>
    refine ends_bind.2 (Prog.wp_mono (ends_lookup _ _ _) fun r s' hlook => ?_)
    obtain ⟨es, hmoves, hlooked⟩ := hlook.moves (k := ⟨"", 0⟩)
    have horigins : OriginsSourced s' := hs.moves hmoves fun rrs hrrs => by cases hrrs
    cases r with
    | none => exact ⟨horigins, fun _ => .empty rfl⟩
    | some resp =>
      refine ⟨horigins, fun hptr => .upstream ?_⟩
      have hlong := hptr q hq ⟨hclass, htype, by simp [hrev]⟩
      have hall : List.Forall₂ NotInflated
          (resp.answer.filter fun u => (rewritePTR lib req.qname u).isSome)
          (resp.answer.filterMap (rewritePTR lib req.qname)) := by
        refine forall₂_filterMap resp.answer fun u hu r hr => rewritePTR_notInflated hr fun hp => ?_
        rw [hmoves.log, hlog] at hlong
        exact hlong.of_lookedUp hlooked u hu hp
      rw [hmoves.log, hlog]
      simpa [answerOf] using .of_lookedUp hlooked (List.filter_sublist.subperm) hall

theorem ends_dispatch_served (hq : req.question.head? = some q) (hs : OriginsSourced s)
    (hlog : s.log = []) :
    Ends net (fun r => Served uc lib s req r.1) (dispatch uc lib req q z server via) s := by
  have hmark : ∀ {p : Handler (Option Msg)} {proxied : Bool}, Ends net (Served uc lib s req) p s →
      Ends net (fun r => Served uc lib s req r.1) (p >>= fun r => pure (r, proxied)) s := by
    intro p proxied hp
    exact ends_bind.2 (Prog.wp_mono hp fun r s' hserved => hserved)
  have hpass : Ends net (Served uc lib s req) (passThrough req server via) s :=
    ends_lookup_served hs hlog req
  have haaaa : Ends net (Served uc lib s req)
      (handleAAAA uc lib req { q with qtype := typeAAAA } z server via) s :=
    ends_handleAAAA_served hq hs hlog
  simp only [dispatch, Request.load_value_bind]
  by_cases hclass : q.qclass ≠ classINET
  · rw [if_pos hclass]
    exact hmark hpass
  rw [if_neg hclass]
  by_cases htype : q.qtype = typeAAAA
  · rw [if_pos htype]
    split_ifs
    · exact hmark hpass
    · have hq' : { q with qtype := typeAAAA } = q := by rw [← htype]
      rw [hq'] at haaaa
      exact hmark haaaa
  rw [if_neg htype]
  by_cases hany : q.qtype = typeANY
  · rw [if_pos hany]
    split_ifs
    · exact hmark hpass
    · refine ends_bind.2 (Prog.wp_mono haaaa fun r s' hserved => ?_)
      cases r with
      | none => exact hserved
      | some m =>
        refine ⟨hserved.origins, fun hptr => ?_⟩
        have htraced := hserved.traced hptr
        simpa [answerOf] using htraced
  rw [if_neg hany]
  split_ifs with ha hptr
  · exact hmark (ends_handleA_served hq hs hlog)
  · exact hmark (ends_handlePTR_served hq (not_not.1 hclass) hptr hs hlog)
  · exact hmark hpass

/-- Every query keeps the cache sourced, and its answer is traced unless it has
rewritten PTR records with a larger TTL. -/
theorem ends_handleVia_served (hs : OriginsSourced s) (hlog : s.log = []) :
    Ends net (fun resp s' => OriginsSourced s' ∧
        ((∀ q, req.question.head? = some q → RewritesPTR uc s.cfg q → LongPTRs s'.log) →
          Traced uc lib s.static s.origins req s'.log resp.answer))
      (handleVia uc lib req via) s := by
  cases hqs : req.question with
  | nil =>
    rw [handleVia_of_nil uc lib hqs]
    exact ⟨hs, fun _ => .empty rfl⟩
  | cons q qs =>
    have hq : req.question.head? = some q := by
      rw [hqs]
      rfl
    refine ends_handleVia hqs ?_ ?_ ?_
    · exact fun resp hst => ⟨hs, fun _ => .static q resp hq hst rfl⟩
    · exact fun _ _ => ⟨hs, fun _ => .empty rfl⟩
    · intro _ z _
      refine Prog.wp_mono (ends_dispatch_served hq hs hlog) fun r s' hserved => ?_
      rw [finish_answer, ← hqs]
      exact ⟨hserved.origins, hserved.traced⟩

end Queries

/-! ## Runs -/

section Runs

variable {net : Network} {uc : UnicodeCase} {lib : DnsLib} {cfg : ProxyConfig}
  {settings : CacheSettings} {evs : List ProxyEvent} {s s' : ProxyState} {req resp : Msg}
  {via : Via} {chances : List Chance}

theorem serve_served (hs : OriginsSourced s)
    (h : serve net uc lib s req via chances = some (resp, s')) :
    OriginsSourced s' ∧
      ((∀ q, req.question.head? = some q → RewritesPTR uc s.cfg q → LongPTRs s'.log) →
        Traced uc lib s.static s.origins req s'.log resp.answer) :=
  Prog.wp_iff.1 (ends_handleVia_served (s := { s with log := [] }) hs rfl) chances resp s' h

theorem originsSourced_step {ev : ProxyEvent} (hs : OriginsSourced s)
    (h : proxyEventStep net uc lib s ev = some s') : OriginsSourced s' := by
  cases ev with
  | query req via chances =>
    obtain ⟨⟨resp, s₁⟩, hserve, rfl⟩ := Option.map_eq_some_iff.1 h
    exact (serve_served hs hserve).1
  | janitor now =>
    obtain rfl := Option.some.inj h
    intro k it hit
    exact hs k it (Cache.lookup_of_live hit)
  | install cfg static =>
    obtain rfl := Option.some.inj h
    exact hs
  | flush defaultExp purgeInterval maxEntries =>
    obtain rfl := Option.some.inj h
    intro k it hit
    cases hit

/-- After any events, every entry of the cache comes from the exchanges of the
query that stored it. -/
theorem originsSourced_run (h : run (proxyEventStep net uc lib) (.new cfg settings) evs = some s) :
    OriginsSourced s := by
  refine run_invariant_of_step (fun s ev s' hs hstep => originsSourced_step hs hstep) ?_ h
  intro k it hit
  cases hit

/-- After any events, no record of an answer has a larger TTL than the record of
the forwarder that it comes from, if the PTR records that are rewritten live for
an hour or longer. -/
theorem answer_traced (hrun : run (proxyEventStep net uc lib) (.new cfg settings) evs = some s)
    (hserve : serve net uc lib s req via chances = some (resp, s'))
    (hptr : ∀ q, req.question.head? = some q → RewritesPTR uc s.cfg q → LongPTRs s'.log) :
    Traced uc lib s.static s.origins req s'.log resp.answer :=
  (serve_served (originsSourced_run hrun) hserve).2 hptr

end Runs

/-! ## A rewritten PTR record -/

/-- The name of `64:ff9b::192.0.2.1`. -/
def poolName : String :=
  "1.0.2.0.0.0.0.c.0.0.0.0.0.0.0.0.0.0.0.0.0.0.0.0.b.9.f.f.4.6.0.0.ip6.arpa."

def poolQuery : Msg := { question := [⟨poolName, typePTR, classINET⟩] }

/-- The reply to the rewritten query. -/
def ptrReply (ttl : UInt32) : Msg :=
  { response := true
    question := [⟨"1.2.0.192.in-addr.arpa.", typePTR, classINET⟩]
    answer := [⟨"1.2.0.192.in-addr.arpa.", classINET, ttl, .ptr "host.example."⟩] }

/-- The exchange of `poolQuery`. -/
def ptrExchange (ttl : UInt32) : Exchanged where
  server := "192.0.2.53:53"
  req := poolQuery.asking ⟨"1.2.0.192.in-addr.arpa.", typePTR, classINET⟩
  via := .udp
  reply := .ok (ptrReply ttl)

/-- The name of a pool address is given for an hour, if its forwarder gives it
for a minute. -/
theorem ptrReply_inflated :
    ∃ r ∈ serve anyReply asciiCase anyName (.new filteringConfig ⟨second, 0, none⟩) poolQuery .udp
        (idle 2 ++ lookupChances (ptrReply 60)),
      r.1.answer = [⟨poolName, classINET, 3600, .ptr "host.example."⟩] ∧
      ¬ Traced asciiCase anyName ∅ ∅ poolQuery r.2.log r.1.answer := by
  have hserve : ∃ r ∈ serve anyReply asciiCase anyName (.new filteringConfig ⟨second, 0, none⟩)
      poolQuery .udp (idle 2 ++ lookupChances (ptrReply 60)),
      r.1.answer = [⟨poolName, classINET, 3600, .ptr "host.example."⟩] ∧
      r.2.log = [ptrExchange 60] := by
    decide +kernel
  obtain ⟨r, hr, hanswer, hlog⟩ := hserve
  refine ⟨r, hr, hanswer, ?_⟩
  rw [hanswer, hlog]
  intro htraced
  cases htraced with
  | empty h => cases h
  | own h => cases h
  | static q resp hq hst h =>
    have hnone : staticFor asciiCase anyName ∅ poolQuery q = none := by
      simp [staticFor, staticReply]
    rw [hnone] at hst
    cases hst
  | ipv4only q hq hname hes => cases hes
  | upstream h =>
    obtain ⟨e, he, m, hm, srcs, hsub, hall⟩ := h
    obtain rfl := List.mem_singleton.1 he
    obtain rfl := Option.some.inj hm
    obtain ⟨u, us, hu, -, rfl⟩ := List.forall₂_cons_right_iff.1 hall
    obtain rfl := List.mem_singleton.1 (hsub.subset List.mem_cons_self)
    exact absurd hu.2 (by decide)
  | cached q origin hq hes => cases hes

/-- With two hours from the forwarder, the hour is no more than its TTL. -/
theorem answer_traced_ptrReply :
    ∃ r ∈ serve anyReply asciiCase anyName (.new filteringConfig ⟨second, 0, none⟩) poolQuery .udp
        (idle 2 ++ lookupChances (ptrReply 7200)),
      r.1.answer = [⟨poolName, classINET, 3600, .ptr "host.example."⟩] ∧
      Traced asciiCase anyName ∅ ∅ poolQuery r.2.log r.1.answer := by
  have hserve : ∃ r ∈ serve anyReply asciiCase anyName (.new filteringConfig ⟨second, 0, none⟩)
      poolQuery .udp (idle 2 ++ lookupChances (ptrReply 7200)),
      r.1.answer = [⟨poolName, classINET, 3600, .ptr "host.example."⟩] ∧
      r.2.log = [ptrExchange 7200] := by
    decide +kernel
  obtain ⟨r, hr, hanswer, hlog⟩ := hserve
  have hstart : run (proxyEventStep anyReply asciiCase anyName)
      (.new filteringConfig ⟨second, 0, none⟩) [] =
        some (.new filteringConfig ⟨second, 0, none⟩) := rfl
  refine ⟨r, hr, hanswer, answer_traced hstart hr fun q _ _ => ?_⟩
  rw [hlog]
  intro e he m hm u hu _
  obtain rfl := List.mem_singleton.1 he
  obtain rfl := Option.some.inj hm
  obtain rfl := List.mem_singleton.1 hu
  decide

end Ydn64.Dns64
