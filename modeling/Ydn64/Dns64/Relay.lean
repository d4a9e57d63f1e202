import Ydn64.Dns64.Returns

/-!
# Validating clients

A client that sets CD and DO validates for itself and is promised the answer of
the forwarder as it is (`RelaysVerbatim`).  The exemption is tested in the
branches for AAAA and ANY.  A query for A records still goes through `handleA`,
which answers `ipv4only.arpa.` itself and empties the answer in a zone that
returns no IPv4 addresses, and a PTR query for an address of a pool is rewritten
by `handlePTR`.  `answerToValidating` is what comes of a query on each way, and
`relays_iff` says that nothing else stands against the promise.
-/

namespace Ydn64.Dns64

open Ydn64.GoStd Ydn64.Config Ydn64.Lib
open Ydn64.Nat64 (second)

/-- A query of class IN from a validating client. -/
structure Msg.Validating (req : Msg) (q : Question) : Prop where
  head : req.question.head? = some q
  qclass : q.qclass = classINET
  validating : req.validates = true

/-- The query is answered with the records of the forwarder's reply to the same
question, whatever they are.  A request may hold questions behind the first, and
`handleA` sends only the first. -/
def RelaysVerbatim (uc : UnicodeCase) (lib : DnsLib) (s : ProxyState) (req : Msg)
    (q : Question) (server : String) (via : Via) : Prop :=
  ∀ (f : Forwarder) (up : Msg), CaseBlind f → f server req = some up →
    f server (req.asking q) = some up →
    Returns (echoing f) (handleVia uc lib req via) s ∧
    ∀ chances resp s',
      Prog.exec (proxyStep (echoing f)) (handleVia uc lib req via) s chances = some (resp, s') →
      resp.answer = up.answer

/-! ## Runs of the handlers -/

section Runs

variable {net : Network} {f : Forwarder} {uc : UnicodeCase} {lib : DnsLib} {s : ProxyState}
  {req : Msg} {q : Question} {z : Zone} {server : String} {via : Via}

/-- The records of the local answer to an A query for `ipv4only.arpa.`. -/
def ipv4OnlyA (lib : DnsLib) (req : Msg) (q : Question) : List RR :=
  req.answer ++ ipv4OnlyARPAIPs.filterMap fun ip4 => lib.newA q.name 60 ip4.toList

/-- The answer to a query of a validating client. -/
def answerToValidating (uc : UnicodeCase) (lib : DnsLib) (cfg : ProxyConfig) (f : Forwarder)
    (req : Msg) (q : Question) (z : Zone) (server : String) : List RR :=
  if q.qtype = typeA then
    if isIPv4Only uc q.name then ipv4OnlyA lib req q
    else if z.returnIPv4Addresses then answerOf (f server (req.asking q))
    else []
  else if q.qtype = typePTR then
    match reversedFor uc cfg q.name with
    | none => answerOf (f server req)
    | some ipv4 =>
      (answerOf (f server (req.asking ⟨lib.reverseAddr ipv4, typePTR, q.qclass⟩))).filterMap
        (rewritePTR lib req.qname)
  else answerOf (f server req)

theorem ends_handleA (hf : CaseBlind f) (ht : q.qtype = typeA) :
    Ends (echoing f) (fun r _ => answerOf r = answerToValidating uc lib s.cfg f req q z server)
      (handleA uc lib req q z server via) s := by
  simp only [handleA, answerToValidating, Request.load_value_bind]
  rw [if_pos ht]
  split_ifs with hname hreturn
  · simp [answerOf, ipv4OnlyA]
  · refine ends_bind.2 (ends_lookup_echoing hf fun s' _ _ _ => ?_)
    rw [Msg.asking]
    cases f server { req with question := [q] } <;> rfl
  · refine ends_bind.2 (ends_lookup_echoing hf fun s' _ _ _ => ?_)
    cases f server { req with question := [q] } <;> rfl

theorem ends_handlePTR (hf : CaseBlind f) (ht : q.qtype = typePTR) :
    Ends (echoing f) (fun r _ => answerOf r = answerToValidating uc lib s.cfg f req q z server)
      (handlePTR uc lib req q server via) s := by
  simp only [handlePTR, answerToValidating, Request.load_value_bind]
  rw [if_neg (by rw [ht]; decide), if_pos ht]
  refine ends_bind.2 (ends_reversePTR.2 ?_)
  cases reversedFor uc s.cfg q.name with
  | none => exact Prog.wp_mono (ends_passThrough hf) fun _ _ h => h.1
  | some ipv4 =>
    refine ends_bind.2 (ends_lookup_echoing hf fun s' _ _ _ => ?_)
    dsimp only [Msg.asking]
    cases f server { req with question := [⟨lib.reverseAddr ipv4, typePTR, q.qclass⟩] } with
    | none => rfl
    | some m => simp [answerOf, Msg.replyTo]

theorem ends_dispatch_validating (hf : CaseBlind f) (hq : req.Validating q) :
    Ends (echoing f)
      (fun r _ => answerOf r.1 = answerToValidating uc lib s.cfg f req q z server)
      (dispatch uc lib req q z server via) s := by
  -- Every branch goes on with the result of its handler.
  have hpair : ∀ {p : Handler (Option Msg)} (b : Bool) {rrs : List RR},
      Ends (echoing f) (fun r _ => answerOf r = rrs) p s →
      Ends (echoing f) (fun r _ => answerOf r.1 = rrs) (p >>= fun r => pure (r, b)) s :=
    fun _ _ h => ends_bind.2 h
  have hthrough : q.qtype ≠ typeA → q.qtype ≠ typePTR →
      Ends (echoing f) (fun r _ => answerOf r = answerToValidating uc lib s.cfg f req q z server)
        (passThrough req server via) s := by
    intro ha hptr
    rw [answerToValidating, if_neg ha, if_neg hptr]
    exact Prog.wp_mono (ends_passThrough hf) fun _ _ h => h.1
  simp only [dispatch, Request.load_value_bind, hq.qclass, dnssecValidatingClient_eq,
    hq.validating, ne_eq, not_true_eq_false, ↓reduceIte]
  split_ifs with h6 hany ha hptr
  · exact hpair true (hthrough (by rw [h6]; decide) (by rw [h6]; decide))
  · exact hpair true (hthrough (by rw [hany]; decide) (by rw [hany]; decide))
  · exact hpair false (ends_handleA hf ha)
  · exact hpair false (ends_handlePTR hf hptr)
  · exact hpair false (hthrough ha hptr)

theorem never_handleA :
    (handleA uc lib req q z server via : Handler _).Never ProxyOp.Panics := by
  unfold handleA
  cases isIPv4Only uc q.name with
  | true => exact never_pure _
  | false =>
    refine (never_lookup _ _ _).bind fun r => ?_
    cases r <;> exact never_pure _

theorem never_handlePTR : (handlePTR uc lib req q server via : Handler _).Never ProxyOp.Panics := by
  simp only [handlePTR, reversePTR, Request.load_value_bind]
  refine Prog.Never.bind ?_ fun ipv4 => ?_
  · cases ptrToIPv6 uc q.name with
    | none => exact never_pure _
    | some ip6 => exact (Prog.never_perform nofun).bind fun _ => trivial
  · cases ipv4 with
    | none => exact never_lookup _ _ _
    | some ipv4 =>
      refine (never_lookup _ _ _).bind fun r => ?_
      cases r <;> exact never_pure _

theorem never_dispatch_validating (hq : req.Validating q) :
    (dispatch uc lib req q z server via : Handler _).Never ProxyOp.Panics := by
  simp only [dispatch, Request.load_value_bind, hq.qclass, dnssecValidatingClient_eq,
    hq.validating, ne_eq, not_true_eq_false, ↓reduceIte]
  split_ifs
  · exact (never_lookup _ _ _).bind fun _ => trivial
  · exact (never_lookup _ _ _).bind fun _ => trivial
  · exact never_handleA.bind fun _ => trivial
  · exact never_handlePTR.bind fun _ => trivial
  · exact (never_lookup _ _ _).bind fun _ => trivial

end Runs

section Query

variable {f : Forwarder} {uc : UnicodeCase} {lib : DnsLib} {s : ProxyState} {req : Msg}
  {q : Question} {z : Zone} {via : Via}

/-- A query of a validating client is answered, and with `answerToValidating`. -/
theorem handleVia_validating (hf : CaseBlind f) (hq : req.Validating q)
    (hstatic : s.static.lookup (staticKey uc q.name) = none)
    (hz : zoneFor uc s.cfg q.name = some z) :
    Returns (echoing f) (handleVia uc lib req via) s ∧
      Ends (echoing f) (fun resp _ =>
          resp.answer = answerToValidating uc lib s.cfg f req q z (serverFor s.cfg z))
        (handleVia uc lib req via) s := by
  obtain ⟨qs, hqs⟩ := List.head?_eq_some_iff.1 hq.head
  have hst : staticFor uc lib s.static req q = none := by
    simp [staticFor, staticReply, hstatic]
  constructor
  · exact returns_handleVia (echoing_replies f) hqs fun _ z' _ =>
      total_of_never (echoing_replies f) (never_dispatch_validating hq) s
  · refine ends_handleVia hqs (fun resp h => ?_) (fun _ h => ?_) fun _ z' hz' => ?_
    · rw [hst] at h
      cases h
    · rw [hz] at h
      cases h
    · obtain rfl := Option.some.inj (hz.symm.trans hz')
      simp only [finish_answer]
      exact ends_dispatch_validating hf hq

end Query

/-- A validating client gets the answer of the forwarder exactly if it does not
ask for the A records of `ipv4only.arpa.` or in a zone that returns no IPv4
addresses, and not for the name of a pool address. -/
theorem relays_iff (uc : UnicodeCase) (lib : DnsLib) (s : ProxyState) (req : Msg)
    (q : Question) (z : Zone) (via : Via) (hq : req.Validating q)
    (hstatic : s.static.lookup (staticKey uc q.name) = none)
    (hz : zoneFor uc s.cfg q.name = some z) :
    RelaysVerbatim uc lib s req q (serverFor s.cfg z) via ↔
      (q.qtype = typeA → isIPv4Only uc q.name = false ∧ z.returnIPv4Addresses = true) ∧
      (q.qtype = typePTR → reversedFor uc s.cfg q.name = none) := by
  constructor
  · intro hrelays
    -- Against a forwarder that answers `rrs` to anything.
    have hconst : ∀ rrs : List RR, answerToValidating uc lib s.cfg
        (fun _ _ => some { answer := rrs }) req q z (serverFor s.cfg z) = rrs := by
      intro rrs
      have hf : CaseBlind fun _ _ => some { answer := rrs } := fun _ _ _ _ => rfl
      obtain ⟨hreturns, hall⟩ := hrelays _ { answer := rrs } hf rfl rfl
      obtain ⟨chances, resp, s', hrun, hanswer⟩ :=
        hreturns.exists_of_wp (handleVia_validating hf hq hstatic hz).2
      rw [← hanswer, hall chances resp s' hrun]
    refine ⟨fun ha => ⟨?_, ?_⟩, fun hptr => ?_⟩
    · by_contra hname
      have hlonger := hconst (⟨"", 0, 0, .other 0 []⟩ :: ipv4OnlyA lib req q)
      rw [answerToValidating, if_pos ha, if_pos (by simpa using hname)] at hlonger
      exact absurd (congrArg List.length hlonger) (by simp)
    · by_contra hreturn
      have hone := hconst (⟨"", 0, 0, .other 0 []⟩ :: ipv4OnlyA lib req q)
      rw [answerToValidating, if_pos ha, if_neg hreturn] at hone
      split_ifs at hone
      exact absurd (congrArg List.length hone) (by simp)
    · cases hpool : reversedFor uc s.cfg q.name with
      | none => rfl
      | some ipv4 =>
        have hone := hconst [⟨"", 0, 0, .other 0 []⟩]
        rw [answerToValidating, if_neg (by rw [hptr]; decide), if_pos hptr, hpool] at hone
        cases hone
  · rintro ⟨ha, hptr⟩ f up hf hup hup'
    obtain ⟨hreturns, hends⟩ := handleVia_validating hf hq hstatic hz
    refine ⟨hreturns, fun chances resp s' hrun => ?_⟩
    rw [Prog.wp_iff.1 hends chances resp s' hrun, answerToValidating]
    split_ifs with hA hname hreturn hPTR
    · rw [(ha hA).1] at hname
      cases hname
    · rw [hup']
      rfl
    · exact absurd (ha hA).2 hreturn
    · rw [hptr hPTR, hup]
      rfl
    · rw [hup]
      rfl

/-! ## A validating client that asks for A records -/

/-- A query with CD and DO. -/
def validatingQuery (qtype : UInt16) : Msg where
  checkingDisabled := true
  question := [⟨"a.example.", qtype, classINET⟩]
  extra := [⟨".", 4096, 0x8000, .opt []⟩]

/-- A zone that synthesises and returns no addresses of the forwarder. -/
def synthesisZone : Zone := { filteringZone with returnIPv4Addresses := false }

def synthesisConfig : ProxyConfig := { filteringConfig with zones := [synthesisZone] }

theorem relays_iff_aaaa :
    RelaysVerbatim asciiCase anyName (.new synthesisConfig ⟨second, 0, none⟩)
      (validatingQuery typeAAAA) ⟨"a.example.", typeAAAA, classINET⟩ "192.0.2.53:53" .udp :=
  (relays_iff asciiCase anyName (.new synthesisConfig ⟨second, 0, none⟩)
    (validatingQuery typeAAAA) ⟨"a.example.", typeAAAA, classINET⟩ synthesisZone .udp
    ⟨rfl, rfl, by decide⟩ rfl (by decide +kernel)).2 ⟨nofun, nofun⟩

def signedA : Msg :=
  { response := true, answer := [⟨"a.example.", classINET, 60, .a [192, 0, 2, 1]⟩] }

/-- The A records of the forwarder do not reach the client. -/
theorem validating_a_emptied :
    (validatingQuery typeA).Validating ⟨"a.example.", typeA, classINET⟩ ∧
    zoneFor asciiCase synthesisConfig "a.example." = some synthesisZone ∧
    ¬ RelaysVerbatim asciiCase anyName (.new synthesisConfig ⟨second, 0, none⟩)
      (validatingQuery typeA) ⟨"a.example.", typeA, classINET⟩ "192.0.2.53:53" .udp := by
  refine ⟨⟨rfl, rfl, by decide⟩, by decide +kernel, fun hrelays => ?_⟩
  have hrun : ∃ r ∈ Prog.exec (proxyStep (echoing fun _ _ => some signedA))
      (handleVia asciiCase anyName (validatingQuery typeA) .udp)
      (.new synthesisConfig ⟨second, 0, none⟩)
      (idle 2 ++ lookupChances (signedA.replyTo (validatingQuery typeA))), r.1.answer = [] := by
    decide +kernel
  obtain ⟨⟨resp, s'⟩, hrun, hempty⟩ := hrun
  obtain ⟨-, hall⟩ := hrelays (fun _ _ => some signedA) signedA (fun _ _ _ _ => rfl) rfl rfl
  have hanswer := hall _ resp s' hrun
  rw [hempty] at hanswer
  cases hanswer

end Ydn64.Dns64
