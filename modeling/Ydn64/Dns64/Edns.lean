import Ydn64.Dns64.Resolve

/-!
# The OPT record of a response

`finalizeResponseEdns` of `src/dns64/server.go`, which rebuilds the OPT record of
every response before it goes out, and what it makes of each way that `handleVia`
takes to an answer (`AnswerPath`).  The ways fill the additional section in three
manners: with nothing, with a copy of the request's, and with that of the
forwarder's reply.

The way of a run can be told from the request, the state that it starts in, the
exchanges it makes and whether it ends with the error response (`answerPath`).

An answer of the node's own is to carry the COOKIE options of the client and no
other (`EdnsContract`).  Where it is a copy of the request, though, the first OPT
record found in it is the client's, and its options go back as if a forwarder
had sent them.  `ends_path` says what the additional section is on each way and
`contract_iff` that copies are all that stands against the contract.
-/

namespace Ydn64.Dns64

open Ydn64.GoStd Ydn64.Config Ydn64.Lib
open Ydn64.Nat64 (second)

/-! ## The model -/

def legacyMaxMsgSize : Nat := 512

def maxUDPSize : Nat := 4096

/-- The options of an OPT record. -/
def RR.options? (rr : RR) : Option (List EdnsOption) :=
  match rr.data with
  | .opt options => some options
  | _ => none

/-- `OPT.UDPSize`: the class field. -/
def RR.udpSize (rr : RR) : Nat := rr.rclass.toNat

/-- `negotiateUDPSize`. -/
def negotiateUDPSize : Option RR → Nat
  | none => legacyMaxMsgSize
  | some clientOPT =>
    let size := if legacyMaxMsgSize < clientOPT.udpSize then clientOPT.udpSize else legacyMaxMsgSize
    if maxUDPSize < size then maxUDPSize else size

/-- `dns.EDNS0COOKIE`, the code of the option that decodes to `*dns.EDNS0_COOKIE`. -/
def ednsCookie : UInt16 := 10

/-- `echoedClientCookie`. -/
def echoedClientCookie (clientOPT : RR) : List EdnsOption :=
  (clientOPT.options?.getD []).filter fun o => o.code = ednsCookie

/-- The options of the first OPT record of an additional section. -/
def firstOptions (extra : List RR) : List EdnsOption := (extra.findSome? RR.options?).getD []

/-- `finalizeResponseEdns`: the response that goes out, and the size that it may
have over UDP. -/
def finalizeResponseEdns (lib : DnsLib) (resp req : Msg) : Msg × Nat :=
  let clientOPT := lib.isEdns0 req
  let udpSize := negotiateUDPSize clientOPT
  let upstreamOpts := firstOptions resp.extra
  let filteredExtra := resp.extra.filter fun rr => !rr.isOPT
  match clientOPT with
  | none => ({ resp with extra := filteredExtra }, udpSize)
  | some clientOPT =>
    let opts := if upstreamOpts = [] then echoedClientCookie clientOPT else upstreamOpts
    -- The record that `SetEdns0` appends is the one that `IsEdns0` finds.
    ({ resp with extra := filteredExtra ++ [lib.newOPT maxUDPSize clientOPT.isDo opts] }, udpSize)

/-! ## Ways to an answer -/

/-- The ways of `handleVia`. -/
inductive AnswerPath where
  | formatError
  | nameError
  | serverFailure
  | static
  | ipv4only
  | cached
  | withoutPrefix
  | upstream (up : Msg)
  deriving DecidableEq

namespace AnswerPath

/-- The node answers by itself. -/
def isLocal : AnswerPath → Bool
  | upstream _ => false
  | _ => true

/-- The answer starts as a copy of the request, additional section included. -/
def copiesRequest : AnswerPath → Bool
  | static | ipv4only | cached | withoutPrefix => true
  | _ => false

/-- The additional section of the response. -/
def extra (req : Msg) : AnswerPath → List RR
  | formatError | nameError | serverFailure => []
  | static | ipv4only | cached | withoutPrefix => req.extra
  | upstream up => up.extra

end AnswerPath

/-- The query is one for the AAAA records of a name. -/
def looksForAAAA (req : Msg) (q : Question) : Bool :=
  q.qclass = classINET && (q.qtype = typeAAAA || q.qtype = typeANY) && !req.validates

/-- The query is for `ipv4only.arpa.` and of a type that the node answers itself. -/
def ownName (uc : UnicodeCase) (req : Msg) (q : Question) : Bool :=
  isIPv4Only uc q.name &&
    (looksForAAAA req q || (q.qclass = classINET && q.qtype = typeA))

/-- The exchanges of the last lookup: those that ask for the type that was asked for
last. -/
def lastLookup (es : List Exchanged) : List Exchanged :=
  es.filter fun e => es.getLast?.map (·.req.firstType) = some e.req.firstType

/-- The way to an answer in a zone, by the exchanges that were made for it. -/
def answeredPath (uc : UnicodeCase) (cfg : ProxyConfig) (req : Msg) (q : Question) (z : Zone)
    (es : List Exchanged) : AnswerPath :=
  if ownName uc req q then .ipv4only
  else match usedReply (lastLookup es) with
    | none => .cached
    | some up =>
      if looksForAAAA req q ∧ z.pref = none ∧ up.rcode ≠ rcodeNameError ∧
          usableFrom cfg z up = none then
        .withoutPrefix
      else .upstream up

/-- The way of a run from `s` to `s'` that ends with `resp`. -/
def answerPath (uc : UnicodeCase) (lib : DnsLib) (s s' : ProxyState) (req resp : Msg) :
    AnswerPath :=
  match req.question.head? with
  | none => .formatError
  | some q =>
    if (staticFor uc lib s.static req q).isSome then .static
    else match zoneFor uc s.cfg q.name with
      | none => .nameError
      | some z =>
        if resp = req.emptyReply rcodeServerFailure then .serverFailure
        else answeredPath uc s.cfg req q z (s'.log.drop s.log.length)

/-- What the response `out` to a request is to carry, if `resp` is what the query
was answered with. -/
structure EdnsContract (req : Msg) (path : AnswerPath) (resp out : Msg) : Prop where
  count : (out.extra.filter RR.isOPT).length = if req.opt?.isSome then 1 else 0
  kept : (out.extra.filter fun rr => !rr.isOPT) = resp.extra.filter fun rr => !rr.isOPT
  dnssecOK : ∀ clientOPT, req.opt? = some clientOPT →
    ∀ rr ∈ out.extra, rr.isOPT = true → rr.isDo = clientOPT.isDo
  relayed : ∀ up, path = .upstream up → firstOptions up.extra ≠ [] → req.opt?.isSome →
    firstOptions out.extra = firstOptions up.extra
  echoed : path.isLocal = true → ∀ clientOPT, req.opt? = some clientOPT →
    firstOptions out.extra = echoedClientCookie clientOPT

/-- The client's OPT record has no option, or COOKIE options only.  A request
has one OPT record; of several, the first is reflected and the last is read. -/
def CookiesOnly (req : Msg) : Prop :=
  ∀ clientOPT, req.opt? = some clientOPT →
    firstOptions req.extra = [] ∨ firstOptions req.extra = echoedClientCookie clientOPT

/-! ## The rewrite -/

section Rewrite

theorem options?_eq_none_iff {rr : RR} : rr.options? = none ↔ rr.isOPT = false := by
  unfold RR.options? RR.isOPT
  cases rr.data <;> simp

theorem firstOptions_filtered (extra : List RR) (rr : RR) :
    firstOptions (extra.filter (fun rr => !rr.isOPT) ++ [rr]) = rr.options?.getD [] := by
  have hnone : (extra.filter fun rr => !rr.isOPT).findSome? RR.options? = none := by
    rw [List.findSome?_eq_none_iff]
    intro rr' hrr'
    rw [options?_eq_none_iff]
    simpa using (List.mem_filter.1 hrr').2
  rw [firstOptions, List.findSome?_append, hnone, Option.none_or, List.findSome?_singleton]

variable {lib : DnsLib} {req resp : Msg} {path : AnswerPath}

@[simp] theorem isOPT_newOPT (size : Nat) (b : Bool) (options : List EdnsOption) :
    (lib.newOPT size b options).isOPT = true := by
  rw [RR.isOPT, lib.newOPT_data]

theorem firstOptions_finalize {clientOPT : RR} (hclient : req.opt? = some clientOPT) :
    firstOptions (finalizeResponseEdns lib resp req).1.extra =
      if firstOptions resp.extra = [] then echoedClientCookie clientOPT
      else firstOptions resp.extra := by
  rw [finalizeResponseEdns, lib.isEdns0_eq, hclient]
  dsimp only
  rw [firstOptions_filtered, RR.options?, lib.newOPT_data]
  rfl

/-- The rewrite keeps the contract, but for the options of the client in a copy
of its request. -/
theorem contract_iff (hextra : resp.extra = path.extra req) :
    EdnsContract req path resp (finalizeResponseEdns lib resp req).1 ↔
      (path.copiesRequest = true → CookiesOnly req) := by
  constructor
  · intro hcontract hcopies clientOPT hclient
    have hlocal : path.isLocal = true := by
      cases path <;> first | rfl | cases hcopies
    have hreq : resp.extra = req.extra := by
      rw [hextra]
      cases path <;> first | rfl | cases hcopies
    have hechoed := hcontract.echoed hlocal clientOPT hclient
    rw [firstOptions_finalize hclient, hreq] at hechoed
    split_ifs at hechoed with hnil
    · exact .inl hnil
    · exact .inr hechoed
  · intro hcookies
    refine ⟨?_, ?_, ?_, ?_, ?_⟩
    · rw [finalizeResponseEdns, lib.isEdns0_eq]
      cases req.opt? with
      | none => simp
      | some clientOPT => simp
    · rw [finalizeResponseEdns, lib.isEdns0_eq]
      cases req.opt? with
      | none => simp
      | some clientOPT => simp
    · intro clientOPT hclient rr hrr hopt
      rw [finalizeResponseEdns, lib.isEdns0_eq, hclient] at hrr
      rcases List.mem_append.1 hrr with hrr | hrr
      · exact absurd hopt (by simpa using (List.mem_filter.1 hrr).2)
      · rw [List.mem_singleton.1 hrr, lib.newOPT_isDo]
    · rintro up rfl hup hclient
      obtain ⟨clientOPT, hclient⟩ := Option.isSome_iff_exists.1 hclient
      have hrelayed : firstOptions resp.extra = firstOptions up.extra := by
        rw [hextra]
        rfl
      rw [firstOptions_finalize hclient, hrelayed, if_neg hup]
    · intro hlocal clientOPT hclient
      rw [firstOptions_finalize hclient]
      split_ifs with hsome
      · rfl
      · -- Only a copy of the request has an OPT record here.
        have hcopies : path.copiesRequest = true ∧ resp.extra = req.extra := by
          rw [hextra] at hsome ⊢
          cases path <;> first | exact ⟨rfl, rfl⟩ | exact absurd rfl hsome | cases hlocal
        rw [hcopies.2] at hsome ⊢
        exact (hcookies hcopies.1 clientOPT hclient).resolve_left hsome

end Rewrite

/-! ## The ways of a run -/

/-- The additional section of a result is that of its way. -/
def TakesPath (uc : UnicodeCase) (s : ProxyState) (req : Msg) (q : Question) (z : Zone)
    (r : Option Msg) (s' : ProxyState) : Prop :=
  ∀ m, r = some m →
    m.extra = (answeredPath uc s.cfg req q z (s'.log.drop s.log.length)).extra req

section Paths

variable {net : Network} {uc : UnicodeCase} {lib : DnsLib} {s s' : ProxyState} {req : Msg}
  {q : Question} {z : Zone} {server : String} {via : Via} {r : Option Msg}

theorem finish_eq_setRcode_iff (proxied : Bool) :
    finish lib req proxied r = req.emptyReply rcodeServerFailure ↔ r = none := by
  cases r with
  | none => simp [finish_none]
  | some m =>
    simp only [reduceCtorEq, iff_false]
    intro h
    cases congrArg Msg.recursionAvailable h

theorem drop_log {es : List Exchanged} (h : s'.log = s.log ++ es) :
    s'.log.drop s.log.length = es := by
  rw [h, List.drop_left]

theorem lastLookup_append {req₁ req₂ : Msg} {es₁ es₂ : List Exchanged}
    (h₁ : ∀ e ∈ es₁, e.req.firstType = req₁.firstType)
    (h₂ : ∀ e ∈ es₂, e.req.firstType = req₂.firstType) (hne : req₁.firstType ≠ req₂.firstType)
    (hes₂ : es₂ ≠ []) : lastLookup (es₁ ++ es₂) = es₂ := by
  have hlast : (es₁ ++ es₂).getLast?.map (·.req.firstType) = some req₂.firstType := by
    rw [List.getLast?_append_of_ne_nil _ hes₂, List.getLast?_eq_some_getLast hes₂,
      Option.map_some, h₂ _ (List.getLast_mem hes₂)]
  rw [lastLookup, hlast, List.filter_append, List.filter_eq_nil_iff.2, List.filter_eq_self.2,
    List.nil_append]
  · intro e he
    simp [h₂ e he]
  · intro e he
    simpa [h₁ e he] using hne.symm

theorem LookedUp.lastLookup_eq {req' : Msg} {es : List Exchanged}
    (h : LookedUp net server req' es r) : lastLookup es = es := by
  have hlast : es.getLast?.map (·.req.firstType) = some req'.firstType := by
    rw [List.getLast?_eq_some_getLast h.ne_nil, Option.map_some,
      h.firstType (List.getLast_mem h.ne_nil)]
  rw [lastLookup, hlast, List.filter_eq_self]
  intro e he
  simp [h.firstType he]

/-- What the last lookup brought has the additional section of the reply that it
goes by, and the rest of it but for its ID and its question. -/
theorem LookedUp.usedReply_eq {req' m : Msg} {es : List Exchanged}
    (h : LookedUp net server req' es (some m)) :
    ∃ up, usedReply es = some up ∧ m.extra = up.extra ∧ m.rcode = up.rcode ∧
      usableFrom s.cfg z m = usableFrom s.cfg z up := by
  obtain ⟨up, hused, hm⟩ := h.used m rfl
  rw [hm]
  exact ⟨up, hused, rfl, rfl, rfl⟩

theorem LookedUp.takesPath {req' : Msg} {es : List Exchanged}
    (h : LookedUp net server req' es r) (hlog : s'.log = s.log ++ es)
    (hown : ownName uc req q = false) (hlooks : looksForAAAA req q = false) :
    TakesPath uc s req q z r s' := by
  rintro m rfl
  obtain ⟨up, hused, hextra, -⟩ := h.usedReply_eq (s := s) (z := z)
  rw [drop_log hlog, answeredPath, hown, h.lastLookup_eq, hused, hlooks]
  simpa [AnswerPath.extra] using hextra

theorem TakesPath.congr {r' : Option Msg} (h : TakesPath uc s req q z r s')
    (hextra : ∀ m', r' = some m' → ∃ m, r = some m ∧ m'.extra = m.extra) :
    TakesPath uc s req q z r' s' := by
  intro m' hm'
  obtain ⟨m, hm, heq⟩ := hextra m' hm'
  rw [heq, h m hm]

theorem ends_lookup_path {req' : Msg} (hown : ownName uc req q = false)
    (hlooks : looksForAAAA req q = false) :
    Ends net (TakesPath uc s req q z) (lookup server req' via) s := by
  refine Prog.wp_mono (ends_lookup server req' via) fun r s' hlook => ?_
  obtain ⟨es, hlog, hes⟩ := hlook.log
  exact hes.takesPath hlog hown hlooks

theorem ends_handleA_path (hclass : q.qclass = classINET) (htype : q.qtype = typeA) :
    Ends net (TakesPath uc s req q z) (handleA uc lib req q z server via) s := by
  have hlooks : looksForAAAA req q = false := by
    simp [looksForAAAA, htype, typeA, typeAAAA, typeANY]
  have hown : ownName uc req q = isIPv4Only uc q.name := by
    simp [ownName, hclass, htype]
  unfold handleA
  cases hname : isIPv4Only uc q.name with
  | true =>
    rw [hname] at hown
    intro m hm
    obtain rfl := Option.some.inj hm
    rw [answeredPath, hown]
    simp [AnswerPath.extra]
  | false =>
    rw [hname] at hown
    refine ends_bind.2 (Prog.wp_mono (ends_lookup_path (z := z) hown hlooks) fun r s' hpath => ?_)
    cases r with
    | none => exact hpath
    | some resp =>
      refine hpath.congr fun m' hm' => ⟨resp, rfl, ?_⟩
      obtain rfl := Option.some.inj hm'
      split_ifs <;> rfl

theorem ends_handlePTR_path (hown : ownName uc req q = false)
    (hlooks : looksForAAAA req q = false) :
    Ends net (TakesPath uc s req q z) (handlePTR uc lib req q server via) s := by
  simp only [handlePTR, Request.load_value_bind]
  refine ends_bind.2 (ends_reversePTR.2 ?_)
  cases reversedFor uc s.cfg q.name with
  | none => exact ends_lookup_path hown hlooks
  | some ipv4 =>
    refine ends_bind.2 (Prog.wp_mono (ends_lookup_path (z := z) hown hlooks) fun r s' hpath => ?_)
    cases r with
    | none => exact hpath
    | some resp =>
      refine hpath.congr fun m' hm' => ⟨resp, rfl, ?_⟩
      obtain rfl := Option.some.inj hm'
      simp

/-- The ways of a query that is resolved: with the first reply, without a prefix,
or with the second reply. -/
theorem Resolved.takesPath {q' : Question} {up6 up4 : Option Msg} {es6 es4 : List Exchanged}
    (hlooks : looksForAAAA req q = true) (hown : ownName uc req q = false)
    (htype : q'.qtype = typeAAAA)
    (h : Resolved net lib s req q' z server r s' up6 up4 es6 es4)
    (hes4 : es4 ≠ [] ↔ z.pref.isSome ∧ AsksForA s.cfg z up6) : TakesPath uc s req q z r s' := by
  intro m hm
  rw [drop_log h.moves.log, answeredPath, hown, if_neg Bool.false_ne_true, hlooks]
  have hresp := h.resp
  cases hup6 : up6 with
  | none =>
    rw [hm, hup6] at hresp
    cases hresp
  | some upResp =>
    rw [hup6] at hresp hes4
    have hfirst := h.first
    rw [hup6] at hfirst
    obtain ⟨up, hused, hextra, hrcode, husable⟩ := hfirst.usedReply_eq (s := s) (z := z)
    by_cases hsecond : z.pref.isSome ∧ AsksForA s.cfg z (some upResp)
    · -- The answer is made of the second reply.
      obtain ⟨pref, hpref⟩ := Option.isSome_iff_exists.1 hsecond.1
      obtain ⟨upResp', ⟨⟩, hname, hnone⟩ := hsecond.2
      have hne := hes4.2 hsecond
      have hlook4 := h.second.resolve_right fun hnil => hne hnil.1
      have hlast : lastLookup (es6 ++ es4) = es4 :=
        lastLookup_append (fun e he => hfirst.firstType he) (fun e he => hlook4.firstType he)
          (by simp [Msg.firstType, Msg.asking, aQuestion, htype, typeA, typeAAAA]) hne
      rw [resolution, if_neg hname, hnone, hpref, hm] at hresp
      cases hup4 : up4 with
      | none =>
        rw [hup4] at hresp
        cases hresp
      | some aResp =>
        rw [hup4] at hresp hlook4
        obtain ⟨up', hused', hextra', -⟩ := hlook4.usedReply_eq (s := s) (z := z)
        rw [hlast, hused']
        simp only [hpref, reduceCtorEq, false_and, and_false, if_false, AnswerPath.extra]
        rw [← hextra']
        dsimp only [resolutionFromA] at hresp
        split_ifs at hresp <;> rw [Option.some.inj hresp]
    · -- There is no second lookup.
      have hnil : es4 = [] := by
        by_contra hne
        exact hsecond (hes4.1 hne)
      rw [hnil, List.append_nil, hfirst.lastLookup_eq, hused]
      rw [resolution, hm] at hresp
      split_ifs at hresp with hname
      · rw [hrcode] at hname
        simp only [hname, ne_eq, not_true_eq_false, false_and, and_false, if_false,
          AnswerPath.extra]
        rw [Option.some.inj hresp, ← hextra]
      · dsimp only
        rw [← husable, ← hrcode]
        cases hanswer : usableFrom s.cfg z upResp with
        | some answer =>
          rw [hanswer] at hresp
          simp only [reduceCtorEq, and_false, if_false, AnswerPath.extra]
          rw [Option.some.inj hresp, ← hextra]
        | none =>
          have hpref : z.pref = none := by
            by_contra hpref
            exact hsecond ⟨Option.isSome_iff_ne_none.2 hpref, upResp, rfl, hname, hanswer⟩
          rw [hanswer, hpref] at hresp
          rw [if_pos ⟨rfl, hpref, hname, rfl⟩, Option.some.inj hresp]
          simp [AnswerPath.extra]

theorem ends_handleAAAA_path {q' : Question} (hlooks : looksForAAAA req q = true)
    (hname : q'.name = q.name) (htype : q'.qtype = typeAAAA) :
    Ends net (TakesPath uc s req q z) (handleAAAA uc lib req q' z server via) s := by
  have hown : ownName uc req q = isIPv4Only uc q'.name := by
    simp [ownName, hlooks, hname]
  unfold handleAAAA
  cases hipv4 : isIPv4Only uc q'.name with
  | true =>
    rw [hipv4] at hown
    intro m hm
    obtain rfl := Option.some.inj hm
    rw [answeredPath, hown]
    simp [AnswerPath.extra, ipv4OnlyAAAA]
  | false =>
    rw [hipv4] at hown
    refine ends_bind.2 (ends_cachedAAAA.2 ⟨fun _ => ?_, fun now rrs hget haaaa m hm => ?_⟩)
    · refine Prog.wp_mono ends_resolveAAAA fun r s' hr => ?_
      obtain ⟨up6, up4, es6, es4, hres, hes4⟩ := hr
      exact hres.takesPath hlooks hown htype hes4
    · obtain rfl := Option.some.inj hm
      rw [List.drop_length, answeredPath, hown]
      simp [AnswerPath.extra, lastLookup, usedReply]

theorem ends_dispatch_path :
    Ends net (fun r s' => TakesPath uc s req q z r.1 s')
      (dispatch uc lib req q z server via) s := by
  -- Every branch goes on with the result of its handler.
  have hpair : ∀ {p : Handler (Option Msg)} (b : Bool), Ends net (TakesPath uc s req q z) p s →
      Ends net (fun r s' => TakesPath uc s req q z r.1 s') (p >>= fun r => pure (r, b)) s :=
    fun _ h => ends_bind.2 h
  have hrelay : looksForAAAA req q = false → (q.qclass = classINET → q.qtype ≠ typeA) →
      ∀ req', Ends net (TakesPath uc s req q z) (lookup server req' via) s := by
    intro hlooks hA req'
    refine ends_lookup_path ?_ hlooks
    simp only [ownName, hlooks, Bool.false_or, Bool.and_eq_false_iff, decide_eq_false_iff_not]
    by_cases hclass : q.qclass = classINET
    · exact .inr (.inr (hA hclass))
    · exact .inr (.inl hclass)
  simp only [dispatch, Request.load_value_bind, dnssecValidatingClient_eq]
  split_ifs with hclass h6 hvalid hany hvalid hA hptr
  · exact hpair false (hrelay (by simp [looksForAAAA, hclass]) (absurd · hclass) req)
  · refine hpair true (hrelay (by simp [looksForAAAA, hvalid]) (fun _ => ?_) req)
    simp [h6, typeA, typeAAAA]
  · have hlooks : looksForAAAA req q = true := by
      simp [looksForAAAA, not_not.1 hclass, h6, hvalid]
    exact hpair false (ends_handleAAAA_path hlooks rfl h6)
  · refine hpair true (hrelay (by simp [looksForAAAA, hvalid]) (fun _ => ?_) req)
    simp [hany, typeA, typeANY]
  · have hlooks : looksForAAAA req q = true := by
      simp [looksForAAAA, not_not.1 hclass, hany, hvalid]
    refine ends_bind.2 (Prog.wp_mono (ends_handleAAAA_path hlooks rfl rfl) fun r s' hpath => ?_)
    refine hpath.congr fun m' hm' => ?_
    obtain ⟨m, hm, rfl⟩ := Option.map_eq_some_iff.1 hm'
    exact ⟨m, hm, by simp⟩
  · exact hpair false (ends_handleA_path (not_not.1 hclass) hA)
  · have hlooks : looksForAAAA req q = false := by simp [looksForAAAA, h6, hany]
    refine hpair false (ends_handlePTR_path ?_ hlooks)
    simp [ownName, hlooks, hA]
  · exact hpair false (hrelay (by simp [looksForAAAA, h6, hany]) (fun _ => hA) req)

theorem staticFor_extra {static : SyncMap String IP} {resp : Msg}
    (h : staticFor uc lib static req q = some resp) : resp.extra = req.extra := by
  unfold staticFor at h
  split_ifs at h
  unfold staticReply at h
  cases hip : static.lookup (staticKey uc q.name) with
  | none =>
    rw [hip] at h
    cases h
  | some ip =>
    rw [hip] at h
    dsimp only at h
    split at h <;> rw [← Option.some.inj h]

/-- The additional section of a response is that of the way of its run. -/
theorem ends_path :
    Ends net (fun resp s' => resp.extra = (answerPath uc lib s s' req resp).extra req)
      (handleVia uc lib req via) s := by
  cases hqs : req.question with
  | nil =>
    rw [handleVia_of_nil uc lib hqs]
    refine ends_pure.2 ?_
    rw [answerPath, hqs]
    rfl
  | cons q qs =>
    have hq : req.question.head? = some q := by rw [hqs, List.head?_cons]
    unfold answerPath
    rw [hq]
    dsimp only
    refine ends_handleVia hqs ?_ ?_ ?_
    · intro resp hst
      have hextra := staticFor_extra hst
      rw [hst, Option.isSome_some, if_pos rfl]
      exact hextra
    · intro hst hz
      rw [hst, hz]
      rfl
    · intro hst z hz
      rw [hst, hz]
      refine Prog.wp_mono ends_dispatch_path fun r s' hpath => ?_
      dsimp only [Option.isSome_none]
      rw [if_neg Bool.false_ne_true]
      split_ifs with hfailed
      · rw [hfailed]
        rfl
      · rw [finish_eq_setRcode_iff] at hfailed
        obtain ⟨m, hm⟩ := Option.ne_none_iff_exists'.1 hfailed
        rw [hm]
        exact hpath m hm

end Paths

/-- The response to a query, finished, keeps the contract on the way of its run
exactly if that way copies no request or the client sent COOKIE options only. -/
theorem edns_contract_iff (net : Network) (uc : UnicodeCase) (lib : DnsLib)
    (s s' : ProxyState) (req : Msg) (via : Via) (chances : List Chance) (resp : Msg)
    (hrun : Prog.exec (proxyStep net) (handleVia uc lib req via) s chances = some (resp, s')) :
    EdnsContract req (answerPath uc lib s s' req resp) resp (finalizeResponseEdns lib resp req).1 ↔
      ((answerPath uc lib s s' req resp).copiesRequest = true → CookiesOnly req) :=
  contract_iff (Prog.wp_iff.1 ends_path chances resp s' hrun)

/-! ## A client subnet -/

/-- A query for `ipv4only.arpa.` with one option. -/
def optionQuery (option : EdnsOption) : Msg where
  question := [⟨"ipv4only.arpa.", typeAAAA, classINET⟩]
  extra := [anyName.newOPT 1232 false [option]]

def sampleCookie : EdnsOption := ⟨ednsCookie, [1, 2, 3, 4, 5, 6, 7, 8]⟩

/-- The option CLIENT-SUBNET for 192.0.2.0/24. -/
def sampleSubnet : EdnsOption := ⟨8, [0, 1, 24, 0, 192, 0, 2]⟩

theorem edns_contract_iff_cookie :
    ∃ r ∈ Prog.exec (proxyStep anyReply)
      (handleVia asciiCase anyName (optionQuery sampleCookie) .udp)
      (.new filteringConfig ⟨second, 0, none⟩) (idle 2),
      EdnsContract (optionQuery sampleCookie)
        (answerPath asciiCase anyName (.new filteringConfig ⟨second, 0, none⟩) r.2
          (optionQuery sampleCookie) r.1) r.1
        (finalizeResponseEdns anyName r.1 (optionQuery sampleCookie)).1 := by
  have hrun : (Prog.exec (proxyStep anyReply)
      (handleVia asciiCase anyName (optionQuery sampleCookie) .udp)
      (.new filteringConfig ⟨second, 0, none⟩) (idle 2)).isSome = true := by
    decide +kernel
  obtain ⟨⟨resp, s'⟩, hrun⟩ := Option.isSome_iff_exists.1 hrun
  refine ⟨(resp, s'), hrun, (edns_contract_iff anyReply asciiCase anyName _ s' _ .udp _ resp
    hrun).2 fun _ clientOPT hclient => .inr ?_⟩
  obtain rfl := Option.some.inj hclient
  decide

/-- The subnet of the client comes back to it. -/
theorem subnet_reflected :
    ∃ r ∈ Prog.exec (proxyStep anyReply)
      (handleVia asciiCase anyName (optionQuery sampleSubnet) .udp)
      (.new filteringConfig ⟨second, 0, none⟩) (idle 2),
      ¬ EdnsContract (optionQuery sampleSubnet)
        (answerPath asciiCase anyName (.new filteringConfig ⟨second, 0, none⟩) r.2
          (optionQuery sampleSubnet) r.1) r.1
        (finalizeResponseEdns anyName r.1 (optionQuery sampleSubnet)).1 := by
  have hrun : ∃ r ∈ Prog.exec (proxyStep anyReply)
      (handleVia asciiCase anyName (optionQuery sampleSubnet) .udp)
      (.new filteringConfig ⟨second, 0, none⟩) (idle 2),
      answerPath asciiCase anyName (.new filteringConfig ⟨second, 0, none⟩) r.2
        (optionQuery sampleSubnet) r.1 = .ipv4only ∧
      firstOptions (finalizeResponseEdns anyName r.1 (optionQuery sampleSubnet)).1.extra =
        [sampleSubnet] := by
    decide +kernel
  obtain ⟨r, hr, hpath, hreflected⟩ := hrun
  refine ⟨r, hr, fun hcontract => ?_⟩
  rw [hpath] at hcontract
  have hechoed := hcontract.echoed rfl (anyName.newOPT 1232 false [sampleSubnet]) rfl
  rw [hreflected] at hechoed
  exact absurd hechoed (by decide)

end Ydn64.Dns64
