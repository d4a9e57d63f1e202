import Mathlib.Data.Int.ConditionallyCompleteOrder
import Mathlib.Data.List.MinMax
import Ydn64.Nat64.Udp.Objects

/-!
# The filter for inbound datagrams

`demuxUDPReply` of `src/nat64/udp.go` on any flow table, any stamps and any
order of its `Range`, and what `udpReplyLoop` does with the answer.

`Selects` says what the filter is for: the session of the exact tuple; otherwise,
in address-dependent mode, a session toward the address of the sender with the
latest stamp; otherwise nothing.  The `Range` keeps the first of the latest
sessions it has seen, so it computes `List.argmax` over the sessions toward the
address, in the order of the visits (`foldl_candidate`).
-/

namespace Ydn64.Nat64.Udp

open Ydn64.GoStd Ydn64.Config Ydn64.Lib

variable {m : Memory} {b : BibRef} {raddr : V4Tuple} {order : List V4Tuple}

/-! ## The flows of an entry -/

/-- The session of each flow has the server address of the flow. -/
def FlowsAddressed (m : Memory) (b : BibRef) : Prop :=
  ∀ t r, (m.flows b).lookup t = some r →
    (m.sessHeap r).map UdpSession.dstAddr = some t.addr

theorem Memory.Tables.flowsAddressed (h : m.Tables) (b : BibRef) : FlowsAddressed m b := by
  intro t r hr
  obtain ⟨bk, sess, -, hs, -, -⟩ := h.flows b t r hr
  rw [hs.heap, Option.map_some, hs.dstAddr]
  rfl

/-! ## The range over the flows -/

/-- The session of a flow, if it is one toward the address. -/
def sessionToward (m : Memory) (b : BibRef) (addr : Addr4) (t : V4Tuple) : Option SessRef :=
  ((m.flows b).lookup t).filter fun r =>
    (m.sessHeap r).map UdpSession.dstAddr = some addr

theorem sessionToward_eq_some (haddr : FlowsAddressed m b) {addr : Addr4} {t : V4Tuple}
    {r : SessRef} :
    sessionToward m b addr t = some r ↔ (m.flows b).lookup t = some r ∧ t.addr = addr := by
  rw [sessionToward, Option.filter_eq_some_iff, decide_eq_true_iff]
  refine and_congr_right fun ht => ?_
  rw [haddr t r ht, Option.some.injEq]

theorem candidate_eq (m : Memory) (b : BibRef) (addr : Addr4) (acc : Option (SessRef × Int))
    (t : V4Tuple) :
    candidate m b addr acc t =
      (sessionToward m b addr t).elim acc fun r =>
        acc.elim (some (r, m.sessSeen r)) fun best =>
          if best.2 < m.sessSeen r then some (r, m.sessSeen r) else acc := by
  unfold candidate sessionToward
  cases (m.flows b).lookup t with
  | none => rfl
  | some r =>
    dsimp only
    by_cases haddr : (m.sessHeap r).map UdpSession.dstAddr = some addr
    · rw [if_pos haddr, Option.filter_some, if_pos (decide_eq_true haddr)]
      cases acc <;> rfl
    · rw [if_neg haddr, Option.filter_some, if_neg (by simpa using haddr)]
      rfl

/-- The candidate after any number of visits is the first session with the latest
stamp among the ones toward the address. -/
theorem foldl_candidate (m : Memory) (b : BibRef) (addr : Addr4) (order : List V4Tuple) :
    order.foldl (candidate m b addr) none =
      ((order.filterMap (sessionToward m b addr)).argmax m.sessSeen).map
        fun r => (r, m.sessSeen r) := by
  induction order using List.reverseRecOn with
  | nil => rfl
  | append_singleton order t ih =>
    rw [List.foldl_append, List.foldl_cons, List.foldl_nil, ih, candidate_eq,
      List.filterMap_append]
    cases hr : sessionToward m b addr t with
    | none => simp [hr]
    | some r =>
      rw [show [t].filterMap (sessionToward m b addr) = [r] by simp [hr], List.argmax_concat]
      cases (order.filterMap (sessionToward m b addr)).argmax m.sessSeen with
      | none => rfl
      | some best =>
        show (if m.sessSeen best < m.sessSeen r then _ else _) = _
        dsimp only
        split_ifs <;> rfl

/-! ## The selection -/

/-- What the filter selects for a sender. -/
inductive Selects (m : Memory) (b : BibRef) (raddr : V4Tuple) : Option SessRef → Prop
  | tuple {r : SessRef} (hr : (m.flows b).lookup raddr = some r) : Selects m b raddr (some r)
  | address {t : V4Tuple} {r : SessRef} (hnone : (m.flows b).lookup raddr = none)
      (hmode : m.service.settings.udpFiltering = .addressDependent)
      (hr : (m.flows b).lookup t = some r) (ht : t.addr = raddr.addr)
      (hlatest : ∀ t' r', (m.flows b).lookup t' = some r' → t'.addr = raddr.addr →
        m.sessSeen r' ≤ m.sessSeen r) : Selects m b raddr (some r)
  | nothing (hnone : (m.flows b).lookup raddr = none)
      (hmode : m.service.settings.udpFiltering = .addressDependent →
        ∀ t r, (m.flows b).lookup t = some r → t.addr ≠ raddr.addr) : Selects m b raddr none

/-- `demuxUDPReply` selects so, in whatever order it visits the flows. -/
theorem demuxUDPReply_selects (haddr : FlowsAddressed m b)
    (horder : ∀ t ∈ (m.flows b).keys, t ∈ order) :
    Selects m b raddr (demuxUDPReply m b raddr order) := by
  unfold demuxUDPReply
  cases hexact : (m.flows b).lookup raddr with
  | some r => exact .tuple hexact
  | none =>
    dsimp only
    by_cases hmode : m.service.settings.udpFiltering = .addressDependent
    · rw [if_pos hmode, foldl_candidate, Option.map_map]
      have hvisited : ∀ t r, (m.flows b).lookup t = some r → t.addr = raddr.addr →
          r ∈ order.filterMap (sessionToward m b raddr.addr) := by
        intro t r hr ht
        have hmem : t ∈ order :=
          horder t (Finmap.mem_keys.mpr (Finmap.mem_of_lookup_eq_some hr))
        exact List.mem_filterMap.mpr ⟨t, hmem, (sessionToward_eq_some haddr).mpr ⟨hr, ht⟩⟩
      cases hbest : (order.filterMap (sessionToward m b raddr.addr)).argmax m.sessSeen with
      | none =>
        refine .nothing hexact fun _ t r hr ht => ?_
        have hmem := hvisited t r hr ht
        rw [List.argmax_eq_none.mp hbest] at hmem
        exact absurd hmem List.not_mem_nil
      | some r =>
        obtain ⟨t, -, htoward⟩ := List.mem_filterMap.mp (List.argmax_mem hbest)
        obtain ⟨hr, ht⟩ := (sessionToward_eq_some haddr).mp htoward
        refine .address hexact hmode hr ht fun t' r' hr' ht' => ?_
        exact List.le_of_mem_argmax (hvisited t' r' hr' ht') hbest
    · rw [if_neg hmode]
      exact .nothing hexact fun h => absurd h hmode

/-- Whatever it visits, the session is that of a flow with the address of the
sender. -/
theorem demuxUDPReply_flow (haddr : FlowsAddressed m b) {r : SessRef}
    (h : demuxUDPReply m b raddr order = some r) :
    ∃ t, (m.flows b).lookup t = some r ∧ t.addr = raddr.addr := by
  unfold demuxUDPReply at h
  cases hexact : (m.flows b).lookup raddr with
  | some r' =>
    rw [hexact] at h
    exact ⟨raddr, hexact.trans h, rfl⟩
  | none =>
    rw [hexact] at h
    dsimp only at h
    split_ifs at h
    rw [foldl_candidate, Option.map_map, Option.map_eq_some_iff] at h
    obtain ⟨best, hbest, rfl⟩ := h
    obtain ⟨t, -, htoward⟩ := List.mem_filterMap.mp (List.argmax_mem hbest)
    exact ⟨t, (sessionToward_eq_some haddr).mp htoward⟩

theorem demuxUDPReply_dstAddr (haddr : FlowsAddressed m b) {r : SessRef}
    (h : demuxUDPReply m b raddr order = some r) :
    (m.sessHeap r).map UdpSession.dstAddr = some raddr.addr := by
  obtain ⟨t, ht, hsame⟩ := demuxUDPReply_flow haddr h
  rw [haddr t r ht, hsame]

/-! ## One datagram in the reply loop -/

theorem injectUnsolicitedUDP_relayed (m : Memory) (bk : BibKey) (raddr : V4Tuple)
    (payload : Bytes) (accepted : Nat) :
    (injectUnsolicitedUDP m bk raddr payload accepted).relayed = m.relayed := by
  unfold injectUnsolicitedUDP
  rcases m.eifLim.allowBudget m.clock eifRatePerSec eifBurst with ⟨ok, eifLim⟩
  cases ok <;> rfl

theorem replyDatagram_relayed (haddr : FlowsAddressed m b) (bk : BibKey) (payload : Bytes)
    (accepted : Nat) :
    (replyDatagram m b bk raddr payload order accepted).relayed = m.relayed ∨
      ∃ r sess, demuxUDPReply m b raddr order = some r ∧ m.sessHeap r = some sess ∧
        sess.dstAddr = raddr.addr ∧
        (replyDatagram m b bk raddr payload order accepted).relayed =
          m.relayed ++ [(sess.conn6, payload)] := by
  unfold replyDatagram
  cases hdemux : demuxUDPReply m b raddr order with
  | none =>
    left
    dsimp only
    split_ifs
    · exact injectUnsolicitedUDP_relayed m bk raddr payload accepted
    · rfl
  | some r =>
    have hcontacted := demuxUDPReply_dstAddr haddr hdemux
    dsimp only
    unfold relay
    cases hsess : m.sessHeap r with
    | none => exact .inl rfl
    | some sess =>
      dsimp only
      rw [hsess, Option.map_some, Option.some.injEq] at hcontacted
      split_ifs
      · exact .inr ⟨r, sess, rfl, hsess, hcontacted, rfl⟩
      · exact .inl rfl

/-- For every flow table whose sessions have the addresses of their flows, every
mode, every sender and every order of the range: the filter selects as `Selects`
says; a session is handed a datagram only from an address that it has contacted;
and a datagram for which nothing is selected changes nothing, unless the mode is
the endpoint-independent one. -/
theorem inbound_filtering (m : Memory) (b : BibRef) (raddr : V4Tuple) (order : List V4Tuple)
    (haddr : FlowsAddressed m b) (horder : ∀ t ∈ (m.flows b).keys, t ∈ order) :
    Selects m b raddr (demuxUDPReply m b raddr order) ∧
    (∀ r, demuxUDPReply m b raddr order = some r →
      (m.sessHeap r).map UdpSession.dstAddr = some raddr.addr) ∧
    ∀ bk payload accepted,
      ((replyDatagram m b bk raddr payload order accepted).relayed = m.relayed ∨
        ∃ r sess, demuxUDPReply m b raddr order = some r ∧ m.sessHeap r = some sess ∧
          sess.dstAddr = raddr.addr ∧
          (replyDatagram m b bk raddr payload order accepted).relayed =
            m.relayed ++ [(sess.conn6, payload)]) ∧
      (demuxUDPReply m b raddr order = none →
        replyDatagram m b bk raddr payload order accepted ≠ m →
        m.service.settings.udpFiltering = .endpointIndependent) := by
  refine ⟨demuxUDPReply_selects haddr horder, fun r hr => demuxUDPReply_dstAddr haddr hr,
    fun bk payload accepted => ⟨?_, fun hnone hne => ?_⟩⟩
  · exact replyDatagram_relayed haddr bk payload accepted
  · by_contra hmode
    apply hne
    unfold replyDatagram
    rw [hnone]
    exact if_neg hmode

/-- Two flows of an entry to `1.2.3.4`; the one to port 54 is the later one. -/
def twoFlows (service : Service) : Memory :=
  let server := (flowKey 1).dstAddr
  { service, mtu := 1280, clock := 0
    flows := fun _ => (Finmap.singleton ⟨server, 53⟩ 1).insert ⟨server, 54⟩ 2
    sessHeap := fun r =>
      some ⟨0, r, ⟨server, if r = 1 then 53 else 54⟩, server, routeIP, 40000⟩
    sessSeen := fun r => r
    epOpen := fun _ => true }

/-- A datagram from a third port of the server goes to the later flow, whichever
is visited first. -/
theorem inbound_filtering_twoFlows :
    ∃ svc ∈ flowService 4096,
      (∀ order ∈ [[53, 54], [54, 53]],
        demuxUDPReply (twoFlows svc) 0 ⟨(flowKey 1).dstAddr, 99⟩
          (order.map (V4Tuple.mk (flowKey 1).dstAddr)) = some 2) ∧
      Selects (twoFlows svc) 0 ⟨(flowKey 1).dstAddr, 99⟩ (some 2) := by
  have hruns : ∃ svc ∈ flowService 4096, ∀ order ∈ [[53, 54], [54, 53]],
      (∀ t ∈ ((twoFlows svc).flows 0).keys, t ∈ order.map (V4Tuple.mk (flowKey 1).dstAddr)) ∧
      demuxUDPReply (twoFlows svc) 0 ⟨(flowKey 1).dstAddr, 99⟩
          (order.map (V4Tuple.mk (flowKey 1).dstAddr)) = some 2 := by
    decide +kernel
  obtain ⟨svc, hsvc, hruns⟩ := hruns
  refine ⟨svc, hsvc, fun order hmem => (hruns order hmem).2, ?_⟩
  have haddr : FlowsAddressed (twoFlows svc) 0 := by
    intro t r hr
    have hmem := Finmap.mem_of_lookup_eq_some hr
    simp only [twoFlows, Finmap.mem_insert, Finmap.mem_singleton] at hmem
    rcases hmem with rfl | rfl <;> rfl
  obtain ⟨hvisits, hsome⟩ := hruns [53, 54] (by decide)
  rw [← hsome]
  exact (inbound_filtering (twoFlows svc) 0 _ _ haddr hvisits).1

end Ydn64.Nat64.Udp
