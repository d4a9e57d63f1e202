import Ydn64.Dns64.Message
import Ydn64.Dns64.RateLimit
import Ydn64.Lib.Gate
import Ydn64.Lib.Run

/-!
# The datagrams that the resolver turns away

The loop of `serveUDP` (`src/dns64/server.go`) up to the goroutine of a query, with
`isAllowed`, `maybeRefuseDenied` and `refusedResponse`.  A datagram is admitted if its
source is in the allowed networks and has a token left.  The others get a REFUSED
answer, but only one in half a second for all of them together, so that a flood of
denied datagrams with forged sources is not turned into a flood of answers.

One goroutine runs the loop.  Between its operations `Reload` may store other networks
and another rate, and the connections of the TCP listener draw on the same rate
limiter.  The lists `read`, `admitted` and `refused` record the run.

* `DoorInv` is what holds between the operations.
* `refusals_bounded` is about what the loop answers and what it lets through.
-/

namespace Ydn64.Dns64

open Ydn64.GoStd Ydn64.Lib

/-! ## The loop -/

/-- `denyReplyInterval`, in nanoseconds. -/
def denyReplyInterval : Nat := 500000000

def rcodeRefused : Nat := 5

/-- `refusedResponse`. -/
def refusedResponse (req : Msg) : Msg where
  id := req.id
  question := req.question
  response := true
  rcode := rcodeRefused

/-- A datagram: the address of its sender, whose IP is `none` if it has none, and what
`Unpack` makes of it. -/
structure Datagram where
  srcIP : Option IP
  port : UInt16
  query : Option Msg

/-- The key of a source: its sixteen bytes, or zeros. -/
def srcKey (ip : IP) : Addr16 := List.Vector.ofFn fun i => ((to16 ip).getD []).getD i 0

/-- The next operation of the loop, with the number of the datagram. -/
inductive DoorPc where
  | readFrom
  | isAllowed (n : Nat) (d : Datagram)
  | allow (n : Nat) (d : Datagram) (nets : List IPNet)
  -- `maybeRefuseDenied`.
  | clock (n : Nat) (d : Datagram)
  | load (n : Nat) (d : Datagram) (now : Int)
  | swap (n : Nat) (d : Datagram) (ticket : Ticket denyReplyInterval)
  | unpack (n : Nat) (d : Datagram) (stamp : Int)
  | returned

/-- A datagram that has been let through, and the networks it was found in. -/
structure Admitted where
  number : Nat
  nets : List IPNet

/-- A REFUSED answer that was passed to `WriteTo`, and the clock of its call. -/
structure Refused where
  number : Nat
  stamp : Int
  ip : Option IP
  port : UInt16
  msg : Msg

/-- The loop and the fields of the service that it uses. -/
structure Door where
  allowedNets : List IPNet
  rateLimit : SrcRateLimiter
  lastDenyReply : Gate denyReplyInterval := .new
  pc : DoorPc := .readFrom
  /-- The networks that were ever in force. -/
  stored : List (List IPNet) := [allowedNets]
  read : List Datagram := []
  admitted : List Admitted := []
  /-- The last answer first. -/
  refused : List Refused := []

/-- What the loop gets from outside with its next operation. -/
inductive DoorEvent where
  /-- `ReadFrom` returns a datagram, or an error. -/
  | readFrom (d : Option Datagram)
  | go
  /-- `time.Now()`. -/
  | clock (now : Int)
  /-- `Pack` returns no error. -/
  | pack (ok : Bool)

/-- The loop takes its next operation. -/
def doorStep (s : Door) (ev : DoorEvent) : Option Door :=
  match s.pc, ev with
  | .readFrom, .readFrom none => some { s with pc := .returned }
  | .readFrom, .readFrom (some d) =>
    some { s with pc := .isAllowed s.read.length d, read := s.read ++ [d] }
  | .isAllowed n d, .go =>
    match d.srcIP with
    | none => some { s with pc := .clock n d }
    | some ip =>
      if anyContains s.allowedNets ip then some { s with pc := .allow n d s.allowedNets }
      else some { s with pc := .clock n d }
  | .allow n d nets, .clock now =>
    match d.srcIP with
    | none => none
    | some ip =>
      let p := s.rateLimit.allow (srcKey ip) now
      if p.1 then
        some { s with
          rateLimit := p.2, pc := .readFrom, admitted := ⟨n, nets⟩ :: s.admitted }
      else some { s with rateLimit := p.2, pc := .clock n d }
  | .clock n d, .clock now => if 0 < now then some { s with pc := .load n d now } else none
  | .load n d now, .go =>
    match Ticket.check denyReplyInterval s.lastDenyReply.last now with
    | some ticket => some { s with pc := .swap n d ticket }
    | none => some { s with pc := .readFrom }
  | .swap n d ticket, .go =>
    match s.lastDenyReply.compareAndSwap ticket with
    | some gate => some { s with lastDenyReply := gate, pc := .unpack n d ticket.now }
    | none => some { s with pc := .readFrom }
  | .unpack n d stamp, .pack ok =>
    match d.query with
    | none => some { s with pc := .readFrom }
    | some req =>
      if ok then
        some { s with
          pc := .readFrom
          refused := ⟨n, stamp, d.srcIP, d.port, refusedResponse req⟩ :: s.refused }
      else some { s with pc := .readFrom }
  | _, _ => none

/-- Who moves. -/
inductive DoorLabel where
  | serveUDP (ev : DoorEvent)
  /-- `Reload` stores the networks. -/
  | storeNets (nets : List IPNet)
  /-- `Reload` sets the rate. -/
  | updateRate (ratePerSec : Int)
  /-- A connection asks the rate limiter. -/
  | tcpAllow (src : Addr16) (now : Int)

def doorSystem (s : Door) : DoorLabel → Option Door
  | .serveUDP ev => doorStep s ev
  | .storeNets nets => some { s with allowedNets := nets, stored := nets :: s.stored }
  | .updateRate ratePerSec => some { s with rateLimit := s.rateLimit.update ratePerSec }
  | .tcpAllow src now => some { s with rateLimit := (s.rateLimit.allow src now).2 }

/-! ## What holds between the operations -/

/-- The datagram that the loop has in hand. -/
def DoorPc.inHand : DoorPc → Option (Nat × Datagram)
  | .isAllowed n d => some (n, d)
  | .allow n d _ => some (n, d)
  | .clock n d => some (n, d)
  | .load n d _ => some (n, d)
  | .swap n d _ => some (n, d)
  | .unpack n d _ => some (n, d)
  | _ => none

/-- The pass that is not answered yet. -/
def DoorPc.stamp : DoorPc → List Int
  | .unpack _ _ stamp => [stamp]
  | _ => []

/-- The networks in which the source was found. -/
def DoorPc.foundIn : DoorPc → Option (Datagram × List IPNet)
  | .allow _ d nets => some (d, nets)
  | _ => none

/-- The source of a datagram is in the networks. -/
def Datagram.From (d : Datagram) (nets : List IPNet) : Prop :=
  ∃ ip, d.srcIP = some ip ∧ anyContains nets ip = true

/-- A number is one of a datagram that was read. -/
def Door.Is (s : Door) (n : Nat) (d : Datagram) : Prop := s.read[n]? = some d

/-- The numbers of the datagrams that have been dealt with. -/
def Door.handled (s : Door) : List Nat :=
  s.admitted.map Admitted.number ++ s.refused.map Refused.number

/-- What holds between the operations. -/
structure DoorInv (s : Door) : Prop where
  inHand : ∀ n d, s.pc.inHand = some (n, d) → s.Is n d ∧ n ∉ s.handled
  handled : s.handled.Nodup
  bounded : ∀ n ∈ s.handled, n < s.read.length
  stamps : (s.pc.stamp ++ s.refused.map Refused.stamp).Sublist s.lastDenyReply.passes
  current : s.allowedNets ∈ s.stored
  foundIn : ∀ d nets, s.pc.foundIn = some (d, nets) → d.From nets ∧ nets ∈ s.stored
  admitted : ∀ a ∈ s.admitted, ∃ d, s.Is a.number d ∧ d.From a.nets ∧ a.nets ∈ s.stored
  refused : ∀ r ∈ s.refused, ∃ d req, s.Is r.number d ∧ d.query = some req ∧
    r.ip = d.srcIP ∧ r.port = d.port ∧ r.msg = refusedResponse req

variable {s s' : Door}

theorem doorInv_start (nets : List IPNet) (rateLimit : SrcRateLimiter) :
    DoorInv { allowedNets := nets, rateLimit } where
  inHand := fun _ _ h => by cases h
  handled := List.nodup_nil
  bounded := fun _ h => absurd h List.not_mem_nil
  stamps := List.Sublist.refl _
  current := List.mem_singleton.2 rfl
  foundIn := fun _ _ h => by cases h
  admitted := fun _ h => absurd h List.not_mem_nil
  refused := fun _ h => absurd h List.not_mem_nil

theorem DoorInv.leave (h : DoorInv s) {pc : DoorPc} (hpc : pc.inHand = none)
    (hstamp : pc.stamp = []) (hfound : pc.foundIn = none) : DoorInv { s with pc } :=
  { h with
    inHand := fun n d hhand => by cases hpc.symm.trans hhand
    stamps := by
      rw [hstamp]
      exact (List.sublist_append_right ..).trans h.stamps
    foundIn := fun d nets hin => by cases hfound.symm.trans hin }

theorem DoorInv.keep (h : DoorInv s) {pc₀ pc : DoorPc} (hpc₀ : s.pc = pc₀)
    (hhand : pc₀.inHand = pc.inHand) (hstamp : pc.stamp = []) (hfound : pc.foundIn = none)
    (rateLimit : SrcRateLimiter) : DoorInv { s with pc, rateLimit } :=
  { h with
    inHand := fun k e hke => h.inHand k e (by rw [hpc₀, hhand, hke])
    stamps := by
      rw [hstamp]
      exact (List.sublist_append_right ..).trans h.stamps
    foundIn := fun d nets hin => by cases hfound.symm.trans hin }

theorem DoorInv.found (h : DoorInv s) {n : Nat} {d : Datagram} (hpc : s.pc = .isAllowed n d)
    (hfrom : d.From s.allowedNets) : DoorInv { s with pc := .allow n d s.allowedNets } :=
  { h with
    inHand := fun k e hke => h.inHand k e (by rw [hpc]; exact hke)
    stamps := (List.sublist_append_right ..).trans h.stamps
    foundIn := fun e nets hin => by
      obtain ⟨rfl, rfl⟩ := Prod.mk.inj (Option.some.inj hin)
      exact ⟨hfrom, h.current⟩ }

/-- A call of `maybeRefuseDenied` passes the gate. -/
theorem DoorInv.pass (h : DoorInv s) {n : Nat} {d : Datagram}
    {ticket : Ticket denyReplyInterval} {gate : Gate denyReplyInterval}
    (hpc : s.pc = .swap n d ticket)
    (hswap : s.lastDenyReply.compareAndSwap ticket = some gate) :
    DoorInv { s with lastDenyReply := gate, pc := .unpack n d ticket.now } :=
  { h with
    inHand := fun k e hke => h.inHand k e (by rw [hpc]; exact hke)
    stamps := by
      rw [Gate.compareAndSwap_eq_some hswap]
      exact ((List.sublist_append_right ..).trans h.stamps).cons_cons ticket.now
    foundIn := fun _ _ hfound => by cases hfound }

theorem Door.Is.read {n : Nat} {d : Datagram} (h : s.Is n d) (e : Datagram) (pc : DoorPc) :
    Door.Is { s with pc, read := s.read ++ [e] } n d :=
  (List.getElem?_append_left (List.getElem?_eq_some_iff.1 h).1).trans h

theorem DoorInv.readFrom (h : DoorInv s) (d : Datagram) :
    DoorInv { s with pc := .isAllowed s.read.length d, read := s.read ++ [d] } where
  inHand := fun n e hpc => by
    cases hpc
    refine ⟨List.getElem?_concat_length, fun hmem => ?_⟩
    exact Nat.lt_irrefl _ (h.bounded _ hmem)
  handled := h.handled
  bounded := fun n hn => by
    have hlt := h.bounded n hn
    simp only [List.length_append, List.length_singleton]
    omega
  stamps := (List.sublist_append_right ..).trans h.stamps
  current := h.current
  foundIn := fun _ _ hfound => by cases hfound
  admitted := fun a ha => by
    obtain ⟨e, hread, hfrom⟩ := h.admitted a ha
    exact ⟨e, hread.read d _, hfrom⟩
  refused := fun r hr => by
    obtain ⟨e, req, hread, hrest⟩ := h.refused r hr
    exact ⟨e, req, hread.read d _, hrest⟩

theorem DoorInv.letThrough (h : DoorInv s) {n : Nat} {d : Datagram} {nets : List IPNet}
    (hpc : s.pc = .allow n d nets) (rateLimit : SrcRateLimiter) :
    DoorInv { s with rateLimit, pc := .readFrom, admitted := ⟨n, nets⟩ :: s.admitted } := by
  obtain ⟨hread, hfresh⟩ := h.inHand n d (by rw [hpc]; rfl)
  refine { h with
    inHand := fun _ _ hhand => by cases hhand
    handled := List.nodup_cons.2 ⟨hfresh, h.handled⟩
    bounded := List.forall_mem_cons.2 ⟨(List.getElem?_eq_some_iff.1 hread).1, h.bounded⟩
    stamps := (List.sublist_append_right ..).trans h.stamps
    foundIn := fun _ _ hfound => by cases hfound
    admitted := List.forall_mem_cons.2 ⟨⟨d, hread, ?_⟩, h.admitted⟩ }
  exact h.foundIn d nets (by rw [hpc]; rfl)

theorem DoorInv.refuse (h : DoorInv s) {n : Nat} {d : Datagram} {stamp : Int} {req : Msg}
    (hpc : s.pc = .unpack n d stamp) (hquery : d.query = some req) :
    DoorInv { s with
      pc := .readFrom
      refused := ⟨n, stamp, d.srcIP, d.port, refusedResponse req⟩ :: s.refused } := by
  obtain ⟨hread, hfresh⟩ := h.inHand n d (by rw [hpc]; rfl)
  have hstamps := h.stamps
  rw [hpc] at hstamps
  have hperm : (s.admitted.map Admitted.number ++ n :: s.refused.map Refused.number).Perm
      (n :: s.handled) := List.perm_middle
  exact { h with
    inHand := fun _ _ hhand => by cases hhand
    handled := hperm.nodup_iff.2 (List.nodup_cons.2 ⟨hfresh, h.handled⟩)
    bounded := fun k hk => by
      rcases List.mem_cons.1 (hperm.mem_iff.1 hk) with rfl | hold
      · exact (List.getElem?_eq_some_iff.1 hread).1
      · exact h.bounded k hold
    stamps := hstamps
    foundIn := fun _ _ hfound => by cases hfound
    refused := List.forall_mem_cons.2
      ⟨⟨d, req, hread, hquery, rfl, rfl, rfl⟩, h.refused⟩ }

theorem DoorInv.step (h : DoorInv s) (ev : DoorEvent) (hs : doorStep s ev = some s') :
    DoorInv s' := by
  unfold doorStep at hs
  split at hs
  next =>
    obtain rfl := Option.some.inj hs
    exact h.leave rfl rfl rfl
  next d _ =>
    obtain rfl := Option.some.inj hs
    exact h.readFrom d
  next n d hpc =>
    split at hs
    next =>
      obtain rfl := Option.some.inj hs
      refine h.keep hpc ?_ ?_ ?_ _ <;> rfl
    next ip hip =>
      split_ifs at hs with hin
      · obtain rfl := Option.some.inj hs
        exact h.found hpc ⟨ip, hip, hin⟩
      · obtain rfl := Option.some.inj hs
        refine h.keep hpc ?_ ?_ ?_ _ <;> rfl
  next n d nets now hpc =>
    split at hs
    next => cases hs
    next ip _ =>
      dsimp only at hs
      split_ifs at hs
      · obtain rfl := Option.some.inj hs
        exact h.letThrough hpc _
      · obtain rfl := Option.some.inj hs
        refine h.keep hpc ?_ ?_ ?_ _ <;> rfl
  next n d now hpc =>
    split_ifs at hs
    obtain rfl := Option.some.inj hs
    refine h.keep hpc ?_ ?_ ?_ _ <;> rfl
  next n d now hpc =>
    split at hs
    next =>
      obtain rfl := Option.some.inj hs
      refine h.keep hpc ?_ ?_ ?_ _ <;> rfl
    next =>
      obtain rfl := Option.some.inj hs
      exact h.leave rfl rfl rfl
  next n d ticket hpc =>
    split at hs
    next gate hswap =>
      obtain rfl := Option.some.inj hs
      exact h.pass hpc hswap
    next =>
      obtain rfl := Option.some.inj hs
      exact h.leave rfl rfl rfl
  next n d stamp ok hpc =>
    split at hs
    next =>
      obtain rfl := Option.some.inj hs
      exact h.leave rfl rfl rfl
    next req hquery =>
      split_ifs at hs
      · obtain rfl := Option.some.inj hs
        exact h.refuse hpc hquery
      · obtain rfl := Option.some.inj hs
        exact h.leave rfl rfl rfl
  next => cases hs

theorem DoorInv.system (h : DoorInv s) (l : DoorLabel) (hs : doorSystem s l = some s') :
    DoorInv s' := by
  cases l with
  | serveUDP ev => exact h.step ev hs
  | storeNets nets =>
    cases hs
    refine { h with current := List.mem_cons_self, foundIn := ?_, admitted := ?_ }
    · intro d found hpc
      exact (h.foundIn d found hpc).imp_right (List.mem_cons_of_mem _)
    · intro a ha
      obtain ⟨d, hread, hfrom, hstored⟩ := h.admitted a ha
      exact ⟨d, hread, hfrom, List.mem_cons_of_mem _ hstored⟩
  | updateRate ratePerSec =>
    cases hs
    exact { h with }
  | tcpAllow src now =>
    cases hs
    exact { h with }

/-- Whatever is sent to the listener and however often the service is reloaded: in a
window of `T` nanoseconds no more than `T / 500 ms + 1` REFUSED answers are sent, to all
sources together.  An answer goes to the sender of a datagram that holds a query, with
the identifier and the question of the query and no records.  A datagram that is let
through comes from networks that were in force.  And no datagram is both answered and let
through, or one of them twice. -/
theorem refusals_bounded (nets : List IPNet) (rateLimit : SrcRateLimiter) (ls : List DoorLabel)
    (s : Door) (hrun : run doorSystem { allowedNets := nets, rateLimit } ls = some s) :
    (∀ a T : Int, 0 ≤ T →
      ((s.refused.filter fun r => a ≤ r.stamp ∧ r.stamp ≤ a + T).length : Int) *
        denyReplyInterval ≤ T + denyReplyInterval) ∧
    (∀ r ∈ s.refused, ∃ d req, s.Is r.number d ∧ d.query = some req ∧
      r.ip = d.srcIP ∧ r.port = d.port ∧ r.msg = refusedResponse req) ∧
    (∀ a ∈ s.admitted, ∃ d, s.Is a.number d ∧ d.From a.nets ∧ a.nets ∈ s.stored) ∧
    (s.admitted.map Admitted.number ++ s.refused.map Refused.number).Nodup := by
  have h : DoorInv s :=
    run_invariant_of_step (fun _ l _ h hl => DoorInv.system h l hl) (doorInv_start nets rateLimit)
      hrun
  refine ⟨fun a T hT => ?_, h.refused, h.admitted, h.handled⟩
  have hstamps : (s.refused.map Refused.stamp).Sublist s.lastDenyReply.passes :=
    (List.sublist_append_right ..).trans h.stamps
  have hlen := (hstamps.filter fun t => decide (a ≤ t ∧ t ≤ a + T)).length_le
  rw [List.filter_map, List.length_map] at hlen
  have hbound := s.lastDenyReply.passes_le a T hT
  calc ((s.refused.filter fun r => a ≤ r.stamp ∧ r.stamp ≤ a + T).length : Int) *
        denyReplyInterval
      ≤ ((s.lastDenyReply.passes.filter fun t => a ≤ t ∧ t ≤ a + T).length : Int) *
        denyReplyInterval :=
        Int.mul_le_mul_of_nonneg_right (Int.ofNat_le.2 hlen) (Int.natCast_nonneg _)
    _ ≤ T + denyReplyInterval := hbound

/-- The network 200::/7. -/
def yggNets : List IPNet := [⟨2 :: List.replicate 15 0, 0xfe :: List.replicate 15 0⟩]

/-- A query from an address that ends in `i`. -/
def queryFrom (net : List UInt8) (i : UInt8) : DoorLabel :=
  .serveUDP (.readFrom (some ⟨some (net ++ List.replicate 13 0 ++ [i]), 1024, some { id := 7 }⟩))

/-- Two queries from outside the network in half a second, the second of which gets no
answer, and one from inside. -/
def twoDenied : List DoorLabel :=
  [queryFrom [0x20, 1] 1, .serveUDP .go, .serveUDP (.clock 5), .serveUDP .go, .serveUDP .go,
    .serveUDP (.pack true), queryFrom [0x20, 1] 2, .serveUDP .go, .serveUDP (.clock 6),
    .serveUDP .go, queryFrom [2, 0] 1, .serveUDP .go, .serveUDP (.clock 7)]

theorem refusals_bounded_twoDenied :
    ∃ s ∈ run doorSystem { allowedNets := yggNets, rateLimit := {} } twoDenied,
      s.refused.map Refused.number = [0] ∧ s.admitted.map Admitted.number = [2] ∧
      ((s.refused.filter fun r => 0 ≤ r.stamp ∧ r.stamp ≤ 0 + 10).length : Int) *
        denyReplyInterval ≤ 10 + denyReplyInterval := by
  have hrun : ∃ s ∈ run doorSystem { allowedNets := yggNets, rateLimit := {} } twoDenied,
      s.refused.map Refused.number = [0] ∧ s.admitted.map Admitted.number = [2] := by
    decide +kernel
  obtain ⟨s, hs, hrefused, hadmitted⟩ := hrun
  exact ⟨s, hs, hrefused, hadmitted,
    (refusals_bounded yggNets {} twoDenied s hs).1 0 10 (by decide)⟩

end Ydn64.Dns64
