import Ydn64.Nat64.Admission
import Ydn64.Lib.Prog

/-!
# One admission and the reloads beside it

`isAllowed` and `isIgnoredDst` load the settings each for itself, and
`Service.Reload` may store others between the two loads.  A `Decision` is an
admission path with its loads in it, and `reloadStep` is the world in which any
number of settings is stored before each load.  With one settings value held
fixed the three decisions are `handleTCPTarget`, `parseUDPFlow` and the checks of
`interceptICMPPacket` (`decision_under`, `interceptICMPPacket_eq`).

A refusal is always the verdict of the settings that the refusing check read.  An
admission takes two checks, and the settings that pass the one need not be those
that pass the other.  The outcome is that of one settings value if no reload falls
between the two loads, or the settings before it and after it agree on the source or
on the destination (`policy_switch_of_agree`).
-/

namespace Ydn64.Nat64

open Ydn64.GoStd Ydn64.Config Ydn64.Lib

/-! ## Decisions -/

/-- A computation that may load the settings, each time anew. -/
abbrev Decision (α : Type) := Prog (fun _ : Unit => Settings) α

namespace Decision

variable {α β : Type}

/-- `isAllowed`. -/
def isAllowed (ip : IP) : Decision Bool := .call () fun c => .ret (c.isAllowed ip)

/-- `isIgnoredDst`. -/
def isIgnoredDst (ip : IP) : Decision Bool := .call () fun c => .ret (c.isIgnoredDst ip)

/-- The value of a decision all of whose loads answer `c`. -/
def under (c : Settings) : Decision α → α
  | .ret a => a
  | .call _ k => under c (k c)

@[simp] theorem under_ret (c : Settings) (a : α) : under c (.ret a) = a := rfl

@[simp] theorem under_isAllowed (c : Settings) (ip : IP) (f : Bool → Decision β) :
    under c (isAllowed ip >>= f) = under c (f (c.isAllowed ip)) := rfl

@[simp] theorem under_isIgnoredDst (c : Settings) (ip : IP) (f : Bool → Decision β) :
    under c (isIgnoredDst ip >>= f) = under c (f (c.isIgnoredDst ip)) := rfl

@[simp] theorem under_ite (c : Settings) (p : Prop) [Decidable p] (d e : Decision α) :
    under c (if p then d else e) = if p then under c d else under c e :=
  apply_ite (under c) p d e

theorem under_bind (c : Settings) (d : Decision α) (f : α → Decision β) :
    under c (d >>= f) = under c (f (under c d)) := by
  induction d with
  | ret a => rfl
  | call op k ih => exact ih c

end Decision

open Decision (isAllowed isIgnoredDst)

/-- The checks that `handleTCP` and `parseUDPFlow` have in common; `found` is what
they go on with. -/
def endpointChecks {α : Type} (svc : Service) (id : EndpointID) (found : Addr4 → α) :
    Decision (Option α) :=
  if !svc.pool6Net.contains id.localAddress then .ret none
  else if svc.pool6Net.contains id.remoteAddress then .ret none
  else isAllowed id.remoteAddress >>= fun allowed =>
    if !allowed then .ret none
    else match svc.pref64.extract id.localAddress with
      | none => .ret none
      | some ipv4 => isIgnoredDst ipv4.toList >>= fun ignored =>
        if ignored then .ret none else .ret (some (found ipv4))

/-- The policy checks of `handleTCP`: the IPv4 address that it dials, or `none`
where it resets the connection. -/
def handleTCPChecks (svc : Service) (id : EndpointID) : Decision (Option Addr4) :=
  endpointChecks svc id fun ipv4 => ipv4

/-- `parseUDPFlow`. -/
def parseUDPFlowChecks (svc : Service) (id : EndpointID) : Decision (Option UdpFlow) :=
  if hdst : id.localAddress.length = 16 then
    if hsrc : id.remoteAddress.length = 16 then
      endpointChecks svc id fun dstV4 =>
        { key := ⟨⟨id.remoteAddress, hsrc⟩, id.remotePort, dstV4, id.localPort⟩
          pool6Src := ⟨id.localAddress, hdst⟩ }
    else .ret none
  else .ret none

/-- What the checks of `interceptICMPPacket` say about a packet. -/
inductive IcmpVerdict where
  /-- The packet is left to the stack. -/
  | pass
  /-- The packet is consumed. -/
  | drop
  | admitted (info : ChainInfo)
  deriving DecidableEq

def IcmpVerdict.isAdmitted : IcmpVerdict → Bool
  | .admitted _ => true
  | _ => false

/-- The checks of `interceptICMPPacket`. -/
def interceptICMPChecks (svc : Service) (icmpConn : Bool) (pkt : Bytes) : Decision IcmpVerdict :=
  if pkt.length < 48 then .ret .pass
  else match parseIPv6HeaderChain pkt with
    | (info, .icmpv6) =>
      if !svc.pool6Net.contains (addr16At pkt 24).toList then .ret .pass
      else if svc.pool6Net.contains (addr16At pkt 8).toList then .ret .drop
      else isAllowed (addr16At pkt 8).toList >>= fun allowed =>
        if !allowed then .ret .drop
        else if !icmpConn then .ret .drop
        else isIgnoredDst (addr4At pkt 36).toList >>= fun ignored =>
          if ignored then .ret .drop else .ret (.admitted info)
    | _ => .ret .pass

/-- What `interceptICMPPacket` does after its checks.  It loads no settings. -/
def IcmpVerdict.outcome (pref64 : Pref64) (st : IcmpState) (reasm : ReasmTable) (pkt : Bytes)
    (now : Int) : IcmpVerdict → Intercepted
  | .pass => ⟨st, reasm, false, none⟩
  | .drop => ⟨st, reasm, true, none⟩
  | .admitted info =>
    match echoPayload reasm pkt info (addr16At pkt 8) (addr16At pkt 24) now with
    | (reasm, .pass) => ⟨st, reasm, false, none⟩
    | (reasm, .drop) => ⟨st, reasm, true, none⟩
    | (reasm, .echo msg) =>
      match handleEchoRequest pref64 st msg (addr16At pkt 8) (addr16At pkt 24) now with
      | (st, forward) => ⟨st, reasm, true, forward⟩

/-- `interceptICMPPacket` is its checks under the settings of the service, and
then the rest. -/
theorem interceptICMPPacket_eq (svc : Service) (icmpConn : Bool) (st : IcmpState)
    (reasm : ReasmTable) (pkt : Bytes) (now : Int) :
    interceptICMPPacket svc icmpConn st reasm pkt now =
      ((interceptICMPChecks svc icmpConn pkt).under svc.settings).outcome svc.pref64 st reasm pkt
        now := by
  unfold interceptICMPPacket interceptICMPChecks
  obtain ⟨info, kind⟩ := parseIPv6HeaderChain pkt
  cases kind with
  | icmpv6 =>
    simp only [Decision.under_ite, Decision.under_ret, Decision.under_isAllowed,
      Decision.under_isIgnoredDst, apply_ite (IcmpVerdict.outcome svc.pref64 st reasm pkt now)]
    rfl
  | _ =>
    simp only [Decision.under_ret, ite_self]
    rfl

/-! ## Arrivals -/

/-- A segment, a datagram or a packet that one of the three paths decides on. -/
inductive Arrival where
  | tcp (id : EndpointID)
  | udp (id : EndpointID)
  | icmp (icmpConn : Bool) (pkt : Bytes)

namespace Arrival

/-- Whether the checks let the arrival through, with their loads. -/
def decision (svc : Service) : Arrival → Decision Bool
  | tcp id => handleTCPChecks svc id >>= fun target => .ret target.isSome
  | udp id => parseUDPFlowChecks svc id >>= fun flow => .ret flow.isSome
  | icmp icmpConn pkt => interceptICMPChecks svc icmpConn pkt >>= fun v => .ret v.isAdmitted

/-- Whether the checks let the arrival through under the settings of the
service. -/
def accepted (svc : Service) : Arrival → Bool
  | tcp id => (handleTCPTarget svc id).isSome
  | udp id => (parseUDPFlow svc id).isSome
  | icmp icmpConn pkt => ((interceptICMPChecks svc icmpConn pkt).under svc.settings).isAdmitted

/-- The source and the IPv4 destination of an endpoint that the checks which ask
no settings let through. -/
def endpointPair (svc : Service) (id : EndpointID) : Option (IP × IP) :=
  if svc.pool6Net.contains id.localAddress = true ∧
      svc.pool6Net.contains id.remoteAddress = false then
    (svc.pref64.extract id.localAddress).map fun v4 => (id.remoteAddress, v4.toList)
  else none

/-- The source and the IPv4 destination that the settings are asked about. -/
def pair (svc : Service) : Arrival → Option (IP × IP)
  | tcp id => endpointPair svc id
  | udp id =>
    if id.localAddress.length = 16 ∧ id.remoteAddress.length = 16 then endpointPair svc id else none
  | icmp icmpConn pkt =>
    if 48 ≤ pkt.length ∧ (parseIPv6HeaderChain pkt).2 = .icmpv6 ∧ icmpConn = true ∧
        svc.pool6Net.contains (addr16At pkt 24).toList = true ∧
        svc.pool6Net.contains (addr16At pkt 8).toList = false then
      some ((addr16At pkt 8).toList, (addr4At pkt 36).toList)
    else none

/-- With the settings held fixed a decision is the path without its loads. -/
theorem decision_under (svc : Service) (c : Settings) (a : Arrival) :
    (a.decision svc).under c = a.accepted { svc with settings := c } := by
  cases a with
  | tcp id =>
    show _ = (handleTCPTarget { svc with settings := c } id).isSome
    unfold decision handleTCPChecks endpointChecks handleTCPTarget
    rw [Decision.under_bind, Decision.under_ret]
    cases svc.pref64.extract id.localAddress <;>
      simp only [Decision.under_ite, Decision.under_ret, Decision.under_isAllowed,
        Decision.under_isIgnoredDst] <;> rfl
  | udp id =>
    show _ = (parseUDPFlow { svc with settings := c } id).isSome
    unfold decision parseUDPFlowChecks parseUDPFlow
    rw [Decision.under_bind, Decision.under_ret]
    by_cases hlen : id.localAddress.length = 16 ∧ id.remoteAddress.length = 16
    · rw [dif_pos hlen, dif_pos hlen.1, dif_pos hlen.2, endpointChecks]
      cases svc.pref64.extract id.localAddress <;>
        simp only [Decision.under_ite, Decision.under_ret, Decision.under_isAllowed,
          Decision.under_isIgnoredDst] <;> rfl
    · rw [dif_neg hlen]
      split_ifs with hdst hsrc
      · exact absurd ⟨hdst, hsrc⟩ hlen
      · rfl
      · rfl
  | icmp icmpConn pkt =>
    show _ = ((interceptICMPChecks svc icmpConn pkt).under c).isAdmitted
    unfold decision
    rw [Decision.under_bind, Decision.under_ret]

end Arrival

/-- The two checks that ask the settings. -/
def checkPair (src dst : IP) : Decision Bool :=
  isAllowed src >>= fun allowed =>
    if !allowed then .ret false else isIgnoredDst dst >>= fun ignored => .ret (!ignored)

/-- A decision asks the settings about the pair, or it refuses whatever they
say. -/
inductive DecisionShape (pair : Option (IP × IP)) (d : Decision Bool) : Prop where
  | refuse (hpair : pair = none) (hd : d = .ret false)
  | refuseAfter (hpair : pair = none) (hd : d = .call () fun _ => .ret false)
  | ask (src dst : IP) (hpair : pair = some (src, dst)) (hd : d = checkPair src dst)

section Shape

variable {α : Type} {f : α → Bool} {no yes : α}

theorem bind_refuse (src : IP) (hno : f no = false) :
    ((isAllowed src >>= fun allowed => if !allowed then .ret no else .ret no) >>=
      fun x => .ret (f x)) = (.call () fun _ => .ret false : Decision Bool) := by
  simp [isAllowed, hno]

theorem bind_ask (src dst : IP) (hno : f no = false) (hyes : f yes = true) :
    ((isAllowed src >>= fun allowed => if !allowed then .ret no
        else isIgnoredDst dst >>= fun ignored => if ignored then .ret no else .ret yes) >>=
      fun x => .ret (f x)) = checkPair src dst := by
  unfold checkPair isAllowed isIgnoredDst
  simp only [Prog.call_bind, Prog.ret_bind]
  congr 1
  funext c
  cases c.isAllowed src with
  | false => simp [hno]
  | true =>
    simp only [Bool.not_true, Bool.false_eq_true, if_false, Prog.call_bind]
    congr 1
    funext c'
    cases c'.isIgnoredDst dst with
    | false => simp [hyes]
    | true => simp [hno]

end Shape

namespace Arrival

theorem shape_endpoint {α : Type} (svc : Service) (id : EndpointID) (found : Addr4 → α) :
    DecisionShape (endpointPair svc id)
      (endpointChecks svc id found >>= fun x => .ret x.isSome) := by
  unfold endpointPair endpointChecks
  by_cases hdst : svc.pool6Net.contains id.localAddress = true
  swap
  · apply DecisionShape.refuse <;> simp [hdst]
  by_cases hsrc : svc.pool6Net.contains id.remoteAddress = true
  · apply DecisionShape.refuse <;> simp [hdst, hsrc]
  simp only [hdst, hsrc, Bool.not_true, Bool.false_eq_true, if_false, and_self, if_true]
  cases svc.pref64.extract id.localAddress with
  | none => exact .refuseAfter rfl (bind_refuse _ rfl)
  | some v4 => exact .ask _ _ rfl (bind_ask _ _ rfl rfl)

theorem shape_icmp (svc : Service) (icmpConn : Bool) (pkt : Bytes) :
    DecisionShape ((icmp icmpConn pkt).pair svc) ((icmp icmpConn pkt).decision svc) := by
  simp only [pair, decision, interceptICMPChecks]
  by_cases hlen : pkt.length < 48
  · apply DecisionShape.refuse <;> simp [hlen, IcmpVerdict.isAdmitted]
  simp only [hlen, not_lt.1 hlen, if_false, true_and]
  obtain ⟨info, kind⟩ := parseIPv6HeaderChain pkt
  by_cases hkind : kind = .icmpv6
  swap
  · apply DecisionShape.refuse
    · simp [hkind]
    · cases kind <;> simp_all [IcmpVerdict.isAdmitted]
  subst hkind
  by_cases hdst : svc.pool6Net.contains (addr16At pkt 24).toList = true
  swap
  · apply DecisionShape.refuse <;> simp [hdst, IcmpVerdict.isAdmitted]
  by_cases hsrc : svc.pool6Net.contains (addr16At pkt 8).toList = true
  · apply DecisionShape.refuse <;> simp [hdst, hsrc, IcmpVerdict.isAdmitted]
  simp only [hdst, hsrc, Bool.not_true, Bool.false_eq_true, if_false, and_self, true_and, and_true]
  cases icmpConn with
  | false => exact .refuseAfter rfl (bind_refuse _ rfl)
  | true => exact .ask _ _ rfl (bind_ask _ _ rfl rfl)

theorem shape (svc : Service) (a : Arrival) : DecisionShape (a.pair svc) (a.decision svc) := by
  cases a with
  | tcp id => exact shape_endpoint svc id fun ipv4 => ipv4
  | udp id =>
    simp only [pair, decision, parseUDPFlowChecks]
    by_cases hlen : id.localAddress.length = 16 ∧ id.remoteAddress.length = 16
    · rw [if_pos hlen, dif_pos hlen.1, dif_pos hlen.2]
      exact shape_endpoint svc id _
    · rw [if_neg hlen]
      split_ifs with hdst hsrc
      · exact absurd ⟨hdst, hsrc⟩ hlen
      · exact .refuse rfl rfl
      · exact .refuse rfl rfl
  | icmp icmpConn pkt => exact shape_icmp svc icmpConn pkt

end Arrival

/-! ## The reloads -/

/-- The settings in force while a decision runs, and all that were installed. -/
structure Window where
  current : Settings
  installed : List Settings

/-- The decision before its first load. -/
def Window.start (c : Settings) : Window where
  current := c
  installed := [c]

/-- The reloads before a load, and the load. -/
def reloadStep (w : Window) (_ : Unit) (reloads : List Settings) : Option (Settings × Window) :=
  let current := reloads.getLastD w.current
  some (current, { current, installed := w.installed ++ reloads })

/-- The outcome is the one under some settings of the window, and what all of them
refuse is refused. -/
structure AtomicSwitch (svc : Service) (a : Arrival) (installed : List Settings)
    (accepted : Bool) : Prop where
  single : ∃ c ∈ installed, a.accepted { svc with settings := c } = accepted
  refused : (∀ c ∈ installed, a.accepted { svc with settings := c } = false) → accepted = false

section Switch

variable {svc : Service} {a : Arrival} {src dst : IP} {c₀ : Settings}

theorem accepted_iff (svc : Service) (a : Arrival) (c : Settings) :
    a.accepted { svc with settings := c } = true ↔
      ∃ src dst, a.pair svc = some (src, dst) ∧ c.isAllowed src = true ∧
        c.isIgnoredDst dst = false := by
  rw [← a.decision_under svc c]
  rcases a.shape svc with ⟨hpair, hd⟩ | ⟨hpair, hd⟩ | ⟨src, dst, hpair, hd⟩
  · simp [hpair, hd]
  · simp [hpair, hd, Decision.under]
  · rw [hpair, hd, checkPair]
    simp

theorem not_accepted {c : Settings} (hpair : a.pair svc = some (src, dst))
    (h : c.isAllowed src = false ∨ c.isIgnoredDst dst = true) :
    a.accepted { svc with settings := c } = false := by
  apply Bool.eq_false_iff.2
  rw [Ne, accepted_iff, hpair]
  rintro ⟨src', dst', hpair', hallowed, hignored⟩
  obtain ⟨rfl, rfl⟩ := Prod.mk.inj (Option.some.inj hpair')
  rcases h with h | h
  · rw [h] at hallowed
    cases hallowed
  · rw [h] at hignored
    cases hignored

theorem not_accepted_of_none (hpair : a.pair svc = none) (c : Settings) :
    a.accepted { svc with settings := c } = false := by
  apply Bool.eq_false_iff.2
  rw [Ne, accepted_iff, hpair]
  simp

theorem AtomicSwitch.of_mem {installed : List Settings} {accepted : Bool} {c : Settings}
    (hc : c ∈ installed) (h : a.accepted { svc with settings := c } = accepted) :
    AtomicSwitch svc a installed accepted :=
  ⟨⟨c, hc, h⟩, fun hall => h.symm.trans (hall c hc)⟩

/-- The settings that are in force before some reloads and after them agree on the
source or on the destination. -/
def Agree (c : Settings) (reloads : List Settings) (src dst : IP) : Prop :=
  c.isAllowed src = (reloads.getLastD c).isAllowed src ∨
    c.isIgnoredDst dst = (reloads.getLastD c).isIgnoredDst dst

instance (c : Settings) (reloads : List Settings) (src dst : IP) :
    Decidable (Agree c reloads src dst) :=
  inferInstanceAs (Decidable (_ ∨ _))

/-- A decision with any reloads `before` its first load and `between` its two loads
has the outcome of some settings of the window, if there are none between the loads,
or the settings of the two loads agree on the source or on the destination. -/
theorem policy_switch_of_agree {ls : List (List Settings)} {accepted : Bool} {w : Window}
    (hrun : Prog.exec reloadStep (a.decision svc) (.start c₀) ls = some (accepted, w))
    (hagree : ∀ before between, ls = [before, between] → between = [] ∨
      ∀ src dst, a.pair svc = some (src, dst) → Agree (before.getLastD c₀) between src dst) :
    AtomicSwitch svc a w.installed accepted := by
  have hstart : c₀ ∈ (Window.start c₀).installed := List.mem_singleton_self c₀
  rcases a.shape svc with ⟨hpair, hd⟩ | ⟨hpair, hd⟩ | ⟨src, dst, hpair, hd⟩
  · rw [hd] at hrun
    obtain ⟨-, rfl, rfl⟩ := Prog.exec_ret hrun
    exact .of_mem hstart (not_accepted_of_none hpair c₀)
  · rw [hd] at hrun
    obtain ⟨before, ls, r, rfl, hr, hrun⟩ := Prog.exec_call hrun
    obtain rfl := Option.some.inj hr
    obtain ⟨-, rfl, rfl⟩ := Prog.exec_ret hrun
    exact .of_mem (List.mem_append_left before hstart) (not_accepted_of_none hpair c₀)
  · unfold checkPair isAllowed isIgnoredDst at hd
    simp only [Prog.call_bind, Prog.ret_bind] at hd
    rw [hd] at hrun
    obtain ⟨before, ls, r, rfl, hr, hrun⟩ := Prog.exec_call hrun
    obtain rfl := Option.some.inj hr
    have hfirst := getLastD_mem_append hstart before
    dsimp only at hrun
    cases hallowed : (before.getLastD (Window.start c₀).current).isAllowed src with
    | false =>
      rw [hallowed] at hrun
      obtain ⟨-, rfl, rfl⟩ := Prog.exec_ret hrun
      exact .of_mem hfirst (not_accepted hpair (.inl hallowed))
    | true =>
      rw [hallowed] at hrun
      obtain ⟨between, ls, r, rfl, hr, hrun⟩ := Prog.exec_call hrun
      obtain rfl := Option.some.inj hr
      obtain ⟨rfl, rfl, rfl⟩ := Prog.exec_ret hrun
      have hsecond := getLastD_mem_append hfirst between
      dsimp only
      cases hignored :
          (between.getLastD (before.getLastD (Window.start c₀).current)).isIgnoredDst dst with
      | true => exact .of_mem hsecond (not_accepted hpair (.inr hignored))
      | false =>
        have hsame : Agree (before.getLastD c₀) between src dst := by
          rcases hagree before between rfl with rfl | h
          · exact .inl rfl
          · exact h src dst hpair
        rcases hsame with hsrc | hdst
        · exact .of_mem hsecond
            ((accepted_iff svc a _).2 ⟨src, dst, hpair, hsrc.symm.trans hallowed, hignored⟩)
        · exact .of_mem (List.mem_append_left between hfirst)
            ((accepted_iff svc a _).2 ⟨src, dst, hpair, hallowed, hdst.trans hignored⟩)

end Switch

/-! ## A reload between the two checks -/

/-- The client connects to `1.2.3.4`, sends a datagram to it and pings it. -/
def sampleArrivals : List Arrival :=
  [.tcp (endpoint pingSrc pingDst96 1000 53), .udp (endpoint pingSrc pingDst96 1000 53),
    .icmp true (pingPacket pingDst96 0x76 0xa8)]

/-- The reload comes after `isAllowed` and before `isIgnoredDst`. -/
def reloadBetween (c : Settings) : List (List Settings) := [[], [c]]

/-- The settings of a reload that allows other sources only. -/
def otherSources (svc : Service) (ignored : List String) : Settings :=
  (svc.reload asciiCase (poolConfig "300:1:2:3::/96") ["fc00::/7"] ignored).settings

/-- The reload takes the client off the allowed sources, and both settings serve the
destination. -/
theorem policy_switch_of_agree_sampleArrivals :
    ∃ svc ∈ (newService asciiCase (poolConfig "300:1:2:3::/96") ["200::/7"] []).toOption,
      ∀ a ∈ sampleArrivals,
        ∃ r ∈ Prog.exec reloadStep (a.decision svc) (.start svc.settings)
          (reloadBetween (otherSources svc ["10.0.0.0/8"])),
          AtomicSwitch svc a r.2.installed r.1 := by
  have hrun : ∃ svc ∈ (newService asciiCase (poolConfig "300:1:2:3::/96") ["200::/7"] []).toOption,
      ∀ a ∈ sampleArrivals,
        (∃ r ∈ Prog.exec reloadStep (a.decision svc) (.start svc.settings)
          (reloadBetween (otherSources svc ["10.0.0.0/8"])), True) ∧
          ∀ p ∈ a.pair svc, Agree svc.settings [otherSources svc ["10.0.0.0/8"]] p.1 p.2 := by
    decide +kernel
  obtain ⟨svc, hsvc, hrun⟩ := hrun
  refine ⟨svc, hsvc, fun a ha => ?_⟩
  obtain ⟨⟨r, hr, -⟩, hagree⟩ := hrun a ha
  refine ⟨r, hr, policy_switch_of_agree hr fun before between hls => .inr fun src dst hpair => ?_⟩
  simp only [reloadBetween, List.cons.injEq, and_true] at hls
  obtain ⟨rfl, rfl⟩ := hls
  exact hagree (src, dst) hpair

/-- The old settings ignore the destination and the new ones do not allow the
client, and each of the three paths lets the flow through. -/
theorem refused_by_both_admitted :
    ∃ svc ∈ (newService asciiCase (poolConfig "300:1:2:3::/96") ["200::/7"]
        ["1.2.3.0/24"]).toOption,
      ∀ a ∈ sampleArrivals,
        ∃ r ∈ Prog.exec reloadStep (a.decision svc) (.start svc.settings)
          (reloadBetween (otherSources svc [])),
          r.1 = true ∧ ¬ AtomicSwitch svc a r.2.installed r.1 := by
  have hrun : ∃ svc ∈ (newService asciiCase (poolConfig "300:1:2:3::/96") ["200::/7"]
        ["1.2.3.0/24"]).toOption,
      ∀ a ∈ sampleArrivals,
        ∃ r ∈ Prog.exec reloadStep (a.decision svc) (.start svc.settings)
          (reloadBetween (otherSources svc [])),
          r.1 = true ∧ ∀ c ∈ r.2.installed, a.accepted { svc with settings := c } = false := by
    decide +kernel
  obtain ⟨svc, hsvc, hrun⟩ := hrun
  refine ⟨svc, hsvc, fun a ha => ?_⟩
  obtain ⟨r, hr, hadmitted, hall⟩ := hrun a ha
  refine ⟨r, hr, hadmitted, fun h => ?_⟩
  rw [h.refused hall] at hadmitted
  cases hadmitted

end Ydn64.Nat64
