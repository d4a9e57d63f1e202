import Ydn64.Dns64.Objects

/-!
# The identity of a reply

`lookup` asks a forwarder under an ID of its own and `handleVia` answers with a
message that it builds from the request or from the reply.  On every way the
answer has the ID of the client, and the AD bit of a forwarder reaches only a
validating client whose query is relayed (`Answered`).  `reply_identity` is the
result for the request as an object: behind the pointer there is the request as
it came.
-/

namespace Ydn64.Dns64

open Ydn64.GoStd Ydn64.Config Ydn64.Lib
open Ydn64.Nat64 (second)

/-- A query for AAAA or any records of the Internet class with CD and DO, which
is relayed as it is. -/
def Msg.AsksUnchanged (req : Msg) : Prop :=
  req.validates = true ∧ ∃ q, req.question.head? = some q ∧
    q.qclass = classINET ∧ (q.qtype = typeAAAA ∨ q.qtype = typeANY)

/-- The answer is what the forwarder replied, but for the ID and the question. -/
def Relays (req resp : Msg) (es : List Exchanged) : Prop :=
  ∃ up, usedReply es = some up ∧
    resp = { up with id := req.id, question := resp.question, recursionAvailable := true }

/-- The answer to a query, after its exchanges. -/
structure Answered (req resp : Msg) (es : List Exchanged) : Prop where
  id : resp.id = req.id
  ad : resp.authenticatedData = true → req.AsksUnchanged ∧ Relays req resp es
  relayed : req.AsksUnchanged → es ≠ [] →
    resp = req.emptyReply rcodeServerFailure ∨ Relays req resp es

section Handlers

variable {net : Network} {uc : UnicodeCase} {lib : DnsLib} {s : ProxyState} {req : Msg}
  {q : Question} {z : Zone} {server : String} {via : Via}

/-! ## The ID -/

@[simp] theorem Msg.setQtype_id (m : Msg) (qtype : UInt16) : (m.setQtype qtype).id = m.id := by
  unfold Msg.setQtype
  split <;> rfl

/-- The message, if there is one, has the ID. -/
def HasId (id : UInt16) (r : Option Msg) : Prop := ∀ m ∈ r, m.id = id

theorem hasId_none {id : UInt16} : HasId id none := by
  simp [HasId]

theorem hasId_some {m : Msg} {id : UInt16} : HasId id (some m) ↔ m.id = id := by
  simp [HasId]

theorem ends_lookup_hasId (server : String) (req : Msg) (via : Via) :
    Ends net (fun r _ => HasId req.id r) (lookup server req via) s := by
  refine Prog.wp_mono (ends_lookup server req via) fun r s' h m hm => ?_
  obtain ⟨es, -, hes⟩ := h.log
  obtain ⟨up, -, hup⟩ := hes.used m hm
  rw [hup]

theorem ends_answerFromA_hasId {pref : Pref64} {upResp : Msg} :
    Ends net (fun r _ => HasId req.id r) (answerFromA lib req q pref server via upResp) s := by
  simp only [answerFromA, Request.load_value_bind]
  refine ends_bind.2 (Prog.wp_of_forall (fun aResp s₁ => ?_) _ s)
  cases aResp with
  | none => exact hasId_none
  | some aResp =>
    refine ends_bind.2 (Prog.wp_of_forall (fun synth s₂ => ?_) _ s₁)
    split_ifs
    · exact hasId_some.2 (Msg.setQtype_id req typeAAAA)
    · refine ends_bind.2 (Prog.wp_of_forall (fun _ s₃ => ?_) _ s₂)
      exact hasId_some.2 (Msg.setQtype_id req typeAAAA)

theorem ends_handleAAAA_hasId :
    Ends net (fun r _ => HasId req.id r) (handleAAAA uc lib req q z server via) s := by
  have hreply : ∀ m : Msg, m.id = (req.setQtype typeAAAA).id → HasId req.id (some m) :=
    fun m hm => hasId_some.2 (hm.trans (Msg.setQtype_id req typeAAAA))
  unfold handleAAAA
  split_ifs
  · exact hreply _ rfl
  · refine ends_bind.2 (Prog.wp_of_forall (fun cached s₁ => ?_) _ s)
    cases cached with
    | some answer => exact hreply _ rfl
    | none =>
      dsimp only
      unfold resolveAAAA
      refine ends_bind.2 (Prog.wp_of_forall (fun upResp s₂ => ?_) _ s₁)
      cases upResp with
      | none => exact hasId_none
      | some upResp =>
        dsimp only
        split_ifs
        · exact hreply _ rfl
        · refine ends_bind.2 (Prog.wp_of_forall (fun usable s₃ => ?_) _ s₂)
          cases usable with
          | some answer =>
            refine ends_bind.2 (Prog.wp_of_forall (fun _ s₄ => ?_) _ s₃)
            exact hreply _ rfl
          | none =>
            cases z.pref with
            | none => exact hreply _ rfl
            | some pref => exact ends_answerFromA_hasId

theorem ends_handleA_hasId :
    Ends net (fun r _ => HasId req.id r) (handleA uc lib req q z server via) s := by
  unfold handleA
  cases isIPv4Only uc q.name with
  | true => exact hasId_some.2 (Msg.setQtype_id req typeA)
  | false =>
    refine ends_bind.2 (Prog.wp_mono (ends_lookup_hasId server _ via) fun resp s₁ hresp => ?_)
    cases resp with
    | none => exact hasId_none
    | some resp =>
      have hid : resp.id = req.id := hasId_some.1 hresp
      refine hasId_some.2 ?_
      split_ifs
      · exact hid
      · exact hid

theorem ends_handlePTR_hasId :
    Ends net (fun r _ => HasId req.id r) (handlePTR uc lib req q server via) s := by
  simp only [handlePTR, Request.load_value_bind]
  refine ends_bind.2 (Prog.wp_of_forall (fun reversed s₁ => ?_) _ s)
  cases reversed with
  | none => exact ends_lookup_hasId server req via
  | some ipv4 =>
    refine ends_bind.2 (Prog.wp_mono (ends_lookup_hasId server _ via) fun resp s₂ hresp => ?_)
    cases resp with
    | none => exact hasId_none
    | some resp =>
      have hid : resp.id = req.id := hasId_some.1 hresp
      exact hasId_some.2 ((Msg.setQtype_id _ _).trans hid)

/-- A query that does not ask to be relayed unchanged is not marked as such. -/
theorem ends_dispatch_unmarked (hq : req.question.head? = some q) (hreq : ¬ req.AsksUnchanged) :
    Ends net (fun r _ => HasId req.id r.1 ∧ r.2 = false)
      (dispatch uc lib req q z server via) s := by
  have hval : q.qclass = classINET → q.qtype = typeAAAA ∨ q.qtype = typeANY →
      ¬ req.validates = true :=
    fun hclass htype hval => hreq ⟨hval, q, hq, hclass, htype⟩
  have hunmarked : ∀ {p : Handler (Option Msg)}, Ends net (fun r _ => HasId req.id r) p s →
      Ends net (fun r _ => HasId req.id r.1 ∧ r.2 = false) (p >>= fun r => pure (r, false)) s :=
    fun hp => ends_bind.2 (Prog.wp_mono hp fun r s' hr => ⟨hr, rfl⟩)
  simp only [dispatch, Request.load_value_bind, dnssecValidatingClient_eq]
  split_ifs with hclass haaaa hv hany hv ha hptr
  · exact hunmarked (ends_lookup_hasId server req via)
  · exact absurd hv (hval (not_not.1 hclass) (.inl haaaa))
  · exact hunmarked ends_handleAAAA_hasId
  · exact absurd hv (hval (not_not.1 hclass) (.inr hany))
  · refine ends_bind.2 (Prog.wp_mono ends_handleAAAA_hasId fun r s' hr => ⟨?_, rfl⟩)
    cases r with
    | none => exact hasId_none
    | some m => exact hasId_some.2 ((Msg.setQtype_id m typeANY).trans (hasId_some.1 hr))
  · exact hunmarked ends_handleA_hasId
  · exact hunmarked ends_handlePTR_hasId
  · exact hunmarked (ends_lookup_hasId server req via)

/-! ## The answer -/

theorem proxyStep_log {op : ProxyOp} {c : Chance} {r : op.Ans × ProxyState}
    (h : proxyStep net s op c = some r) : s.log <+: r.2.log := by
  cases op with
  | exchange server req via =>
    simp only [proxyStep] at h
    split_ifs at h
    obtain rfl := Option.some.inj h
    exact List.prefix_append s.log _
  | cacheSet k rrs =>
    obtain ⟨cache, -, rfl⟩ := Option.map_eq_some_iff.1 h
    exact List.prefix_rfl
  | panic => cases h
  | _ =>
    obtain rfl := Option.some.inj h
    exact List.prefix_rfl

theorem ends_log {α : Type} (p : Handler α) : Ends net (fun _ s' => s.log <+: s'.log) p s :=
  Prog.wp_invariant (fun _ _ _ _ hs h => hs.trans (proxyStep_log h)) p List.prefix_rfl

theorem staticFor_id {static : SyncMap String IP} {resp : Msg}
    (h : staticFor uc lib static req q = some resp) : resp.id = req.id := by
  unfold staticFor at h
  split_ifs at h
  unfold staticReply at h
  cases hip : static.lookup (staticKey uc q.name) with
  | none =>
    rw [hip] at h
    cases h
  | some ip =>
    rw [hip] at h
    dsimp only at h
    split at h
    · exact (congrArg Msg.id (Option.some.inj h)).symm
    · exact (congrArg Msg.id (Option.some.inj h)).symm

/-- An answer without AD that no exchange stands behind, if the query asks to be
relayed. -/
theorem answered_of_ad_false {resp : Msg} {es : List Exchanged} (hid : resp.id = req.id)
    (had : resp.authenticatedData = false) (hes : req.AsksUnchanged → es = []) :
    Answered req resp es where
  id := hid
  ad := fun h => absurd h (by rw [had]; exact Bool.false_ne_true)
  relayed := fun hreq hne => absurd (hes hreq) hne

/-- What `finish` makes of a lookup for a query that is relayed. -/
theorem answered_finish_relayed {es : List Exchanged} {r : Option Msg}
    (hreq : req.AsksUnchanged) (h : LookedUp net server req es r) :
    Answered req (finish lib req true r) es := by
  cases r with
  | none =>
    rw [finish_none]
    exact ⟨rfl, fun had => absurd had Bool.false_ne_true, fun _ _ => .inl rfl⟩
  | some m =>
    obtain ⟨up, hup, hm⟩ := h.used m rfl
    have hrelays : Relays req (finish lib req true (some m)) es := by
      refine ⟨up, hup, ?_⟩
      show { m with recursionAvailable := true, authenticatedData := true && m.authenticatedData } =
        { up with id := req.id, question := m.question, recursionAvailable := true }
      rw [hm, Bool.true_and]
    have hid : m.id = req.id := by rw [hm]
    exact ⟨hid, fun _ => ⟨hreq, hrelays⟩, fun _ _ => .inr hrelays⟩

theorem finish_id {r : Option Msg} {marked : Bool} (h : HasId req.id r) :
    (finish lib req marked r).id = req.id := by
  cases r with
  | none => rw [finish_none]; rfl
  | some m =>
    have hid : m.id = req.id := hasId_some.1 h
    exact hid

theorem ends_handleVia_answered :
    Ends net (fun resp s' => ∃ es, s'.log = s.log ++ es ∧ Answered req resp es)
      (handleVia uc lib req via) s := by
  have hlocal : ∀ resp : Msg, resp.id = req.id → resp.authenticatedData = false →
      ∃ es, s.log = s.log ++ es ∧ Answered req resp es :=
    fun resp hid had => ⟨[], by simp, answered_of_ad_false hid had fun _ => rfl⟩
  cases hq : req.question with
  | nil =>
    rw [handleVia_of_nil uc lib hq]
    exact hlocal _ rfl rfl
  | cons q qs =>
    have hhead : req.question.head? = some q := by rw [hq]; rfl
    refine ends_handleVia hq ?_ (fun _ _ => hlocal _ rfl rfl) fun _ z _ => ?_
    · intro resp hresp
      have hid : resp.id = req.id := staticFor_id hresp
      exact hlocal _ hid rfl
    by_cases hreq : req.AsksUnchanged
    · obtain ⟨hval, q', hq', hclass, htype⟩ := id hreq
      obtain rfl : q = q' := Option.some.inj (hhead.symm.trans hq')
      rw [dispatch_relayed htype (by simp [hval]), decide_eq_true hclass]
      refine ends_bind.2 (Prog.wp_mono (ends_lookup _ req via) fun r s' hr => ?_)
      obtain ⟨es, hes, hlooked⟩ := hr.log
      exact ⟨es, hes, answered_finish_relayed hreq hlooked⟩
    · refine Prog.wp_mono (Prog.wp_and (ends_log _) (ends_dispatch_unmarked hhead hreq)) ?_
      rintro ⟨r, marked⟩ s' ⟨⟨es, hes⟩, hid, hmark⟩
      obtain rfl : marked = false := hmark
      refine ⟨es, hes.symm, answered_of_ad_false (finish_id hid) ?_ fun h => absurd h hreq⟩
      cases r with
      | none => rw [finish_none]; rfl
      | some m => rfl

/-- The answer has the ID of the client, and AD only as a relay of the forwarder's.
The request object is as it was. -/
theorem reply_identity {p : Ptr} {h h' : Heap} {chances : List Chance} {resp : Msg}
    {s' : ProxyState} (hp : h[p]? = some req)
    (hrun : Prog.exec (proxyStep net) (handleVia uc lib (.object p) via h) s chances =
      some ((resp, h'), s')) :
    h'[p]? = some req ∧ ∃ es, s'.log = s.log ++ es ∧ Answered req resp es := by
  obtain ⟨b, hvalue, rfl, hheap⟩ := (actsAs_handleVia h hp).exec hrun
  exact ⟨getElem?_mono hheap hp, Prog.wp_iff.1 ends_handleVia_answered chances resp s' hvalue⟩

end Handlers

/-- A query with CD and DO. -/
def relayedQuery : Msg :=
  { sampleQuery with
    id := 7
    checkingDisabled := true
    extra := [⟨".", 4096, 0x8000, .opt []⟩] }

/-- The choices of a query that is relayed under the ID 9, in another spelling,
and answered with AD. -/
def relayedChances : List Chance :=
  idle 2 ++ [{ id := 9 }] ++ idle 1 ++ [{ flips := [true] },
    { reply := .ok { id := 9, authenticatedData := true,
                     question := [⟨"A.example.", typeAAAA, classINET⟩] } }] ++ idle 1

theorem reply_identity_relayed :
    ∃ resp h' s', Prog.exec (proxyStep anyReply) (handleVia asciiCase anyName (.object 0) .udp
        [relayedQuery]) (.new filteringConfig ⟨second, 0, none⟩) relayedChances =
          some ((resp, h'), s') ∧
      resp.authenticatedData = true ∧ h'[0]? = some relayedQuery ∧
      ∃ es, s'.log = [] ++ es ∧ Answered relayedQuery resp es := by
  have hrun : ∃ r ∈ Prog.exec (proxyStep anyReply) (handleVia asciiCase anyName (.object 0) .udp
      [relayedQuery]) (.new filteringConfig ⟨second, 0, none⟩) relayedChances,
      r.1.1.authenticatedData = true := by
    decide +kernel
  obtain ⟨⟨⟨resp, h'⟩, s'⟩, hrun, had⟩ := hrun
  exact ⟨resp, h', s', hrun, had, reply_identity rfl hrun⟩

end Ydn64.Dns64
