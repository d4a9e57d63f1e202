import Ydn64.Nat64.PolicySwitch
import Ydn64.Nat64.SrcTracker
import Ydn64.Lib.Run

/-!
# Proxied TCP connections

`src/nat64/tcp.go` and the semaphore of `src/nat64/service.go`.  Every SYN is an
invocation of `handleTCP`: the checks, the two limits and the handshake, and then
a goroutine that dials, copies and takes everything back in its deferred calls.
`TcpPc` is where an invocation stands, at the granularity of single operations on
what is shared, and `tcpStep` lets any invocation, the reaper, a reload or the UDP
side move next.  Whether an endpoint is created and whether a dial succeeds is
open.

`TcpPc.standing` says what an invocation has at each point: a slot, a place in the
count of its client, an entry in `tcpConns`.  `TcpMove` says how one operation
changes what is shared along with it.
-/

namespace Ydn64.Nat64

open Ydn64.GoStd Ydn64.Config Ydn64.Lib

/-! ## What is shared -/

/-- `tcpPair`, without its label.  `closed` says that the reaper has closed the
two legs. -/
structure TcpPair where
  lastSeen : Int
  closed : Bool := false
  deriving DecidableEq

/-- A pointer to a pair.  An invocation has one pair at most, so the number of the
invocation names it. -/
abbrev TcpRef := Nat

/-- The fields of `Service` that the TCP side uses.  `tokens` is the length of
`tcpSem`; `released` is the history of its releases. -/
structure TcpMemory where
  svc : Service
  tokens : Nat := 0
  srcCounts : SrcTracker := ∅
  tcpConns : SyncMap TcpRef TcpRef := ∅
  pairs : SyncMap TcpRef TcpPair := ∅
  drainWG : Int := 0
  released : List TcpRef := []

namespace TcpMemory

/-- `perSrcTCPLimit`. -/
def perSrcTCPLimit (m : TcpMemory) : Int := m.svc.settings.maxTCPClientsPerSrc

/-- `tryAcquireTCP`; `none` is false. -/
def tryAcquireTCP (m : TcpMemory) : Option TcpMemory :=
  match m.svc.tcpSem with
  | none => some m
  | some cap => if m.tokens < cap then some { m with tokens := m.tokens + 1 } else none

/-- `releaseTCP`; `none` where the receive blocks. -/
def releaseTCP (m : TcpMemory) : Option TcpMemory :=
  match m.svc.tcpSem with
  | none => some m
  | some _ => if m.tokens = 0 then none else some { m with tokens := m.tokens - 1 }

/-- `releaseTCP` of the invocation `n`. -/
def releaseBy (m : TcpMemory) (n : TcpRef) : Option TcpMemory :=
  m.releaseTCP.map fun m => { m with released := n :: m.released }

/-- `trackTCP`: a pair that is stamped and then stored. -/
def trackTCP (m : TcpMemory) (n : TcpRef) (now : Int) : TcpMemory :=
  { m with
    pairs := m.pairs.insert n { lastSeen := now }
    tcpConns := m.tcpConns.insert n n }

/-- `untrackTCP`. -/
def untrackTCP (m : TcpMemory) (n : TcpRef) : TcpMemory :=
  { m with tcpConns := m.tcpConns.erase n }

/-- `tcpPair.touch`. -/
def touch (m : TcpMemory) (n : TcpRef) (now : Int) : TcpMemory :=
  match m.pairs.lookup n with
  | none => m
  | some pair => { m with pairs := m.pairs.insert n { pair with lastSeen := now } }

/-- The reaper closes the legs of a pair. -/
def closePair (m : TcpMemory) (n : TcpRef) : TcpMemory :=
  match m.pairs.lookup n with
  | none => m
  | some pair => { m with pairs := m.pairs.insert n { pair with closed := true } }

end TcpMemory

/-! ## One invocation -/

/-- The next operation of `handleTCP`. -/
inductive TcpPc where
  | checks (d : Decision (Option Addr4))
  | perSrcTCPLimit
  | count (l : Int)
  | tryAcquireTCP
  | add
  | createEndpoint
  -- `CreateEndpoint` has failed.
  | abortRelease
  | abortRemove
  | drainAdd
  -- From here on in the goroutine.
  | dial
  | trackTCP
  | proxyTCP
  | untrackTCP
  | releaseTCP
  | remove
  | drainDone

/-- An invocation of `handleTCP`.  `ipv4` is the address that it dials, once the
checks have passed. -/
structure TcpHandler where
  id : EndpointID
  ipv4 : Addr4 := .replicate 4 0
  pc : TcpPc

/-- `srcKey`. -/
def TcpHandler.srcKey (h : TcpHandler) : Addr16 :=
  addr16At ((to16 h.id.remoteAddress).getD []) 0

/-- What comes after a load of the checks. -/
def afterChecks (h : TcpHandler) : Decision (Option Addr4) → Option TcpHandler
  | .ret none => none
  | .ret (some ipv4) => some { h with ipv4, pc := .perSrcTCPLimit }
  | d => some { h with pc := .checks d }

/-- The invocation `n` takes its next operation.  `ok` is the result of
`CreateEndpoint` or of the dial.  Closing the two legs between `untrackTCP` and
`releaseTCP` touches nothing that is shared.  An invocation that is over is
`none`. -/
def handlerStep (m : TcpMemory) (now : Int) (n : TcpRef) (ok : Bool) (h : TcpHandler) :
    Option (TcpMemory × Option TcpHandler) :=
  let goto (pc : TcpPc) : Option TcpHandler := some { h with pc }
  match h.pc with
  | .checks (.ret target) => some (m, afterChecks h (.ret target))
  | .checks (.call _ k) => some (m, afterChecks h (k m.svc.settings))
  | .perSrcTCPLimit =>
    some (m, goto (if 0 < m.perSrcTCPLimit then .count m.perSrcTCPLimit else .tryAcquireTCP))
  | .count l =>
    some (m, if l ≤ m.srcCounts.count h.srcKey .srcTCP then none else goto .tryAcquireTCP)
  | .tryAcquireTCP =>
    match m.tryAcquireTCP with
    | none => some (m, none)
    | some m => some (m, goto .add)
  | .add => some ({ m with srcCounts := m.srcCounts.add h.srcKey .srcTCP }, goto .createEndpoint)
  | .createEndpoint => some (m, goto (if ok then .drainAdd else .abortRelease))
  | .abortRelease => (m.releaseBy n).map fun m => (m, goto .abortRemove)
  | .abortRemove => some ({ m with srcCounts := m.srcCounts.remove h.srcKey .srcTCP }, none)
  | .drainAdd => some ({ m with drainWG := m.drainWG + 1 }, goto .dial)
  | .dial => some (m, goto (if ok then .trackTCP else .releaseTCP))
  | .trackTCP => some (m.trackTCP n now, goto .proxyTCP)
  | .proxyTCP => some (m, goto .untrackTCP)
  | .untrackTCP => some (m.untrackTCP n, goto .releaseTCP)
  | .releaseTCP => (m.releaseBy n).map fun m => (m, goto .remove)
  | .remove => some ({ m with srcCounts := m.srcCounts.remove h.srcKey .srcTCP }, goto .drainDone)
  | .drainDone => some ({ m with drainWG := m.drainWG - 1 }, none)

/-! ## The system -/

/-- The next operation of `reapIdleTCP`. -/
inductive ReaperPc where
  | idle
  | scan (cutoff : Int) (scan : SyncMap.Scan TcpRef TcpRef)
  -- The stamp of the pair was too old.
  | close (cutoff : Int) (scan : SyncMap.Scan TcpRef TcpRef) (r : TcpRef)

structure TcpState where
  mem : TcpMemory
  handlers : SyncMap TcpRef TcpHandler := ∅
  nextRef : TcpRef := 0
  reaper : ReaperPc := .idle
  clock : Int

/-- A new service. -/
def TcpState.start (svc : Service) (clock : Int) : TcpState where
  mem := { svc }
  clock := clock

/-- Who moves. -/
inductive TcpLabel where
  | syn (id : EndpointID)
  | handler (n : TcpRef) (ok : Bool)
  -- A copy loop has moved payload.
  | transfer (n : TcpRef)
  | tick
  | visit (r : TcpRef)
  | reap
  | reload (c : Settings)
  | udpAdd (src : Addr16)
  | udpRemove (src : Addr16)
  | advance (d : Nat)

/-- The reaper takes its next operation, other than the visit of an entry. -/
def reapStep (m : TcpMemory) : ReaperPc → Option (TcpMemory × ReaperPc)
  | .idle => none
  | .scan _ scan => if scan.Complete m.tcpConns then some (m, .idle) else none
  | .close cutoff scan r => some (m.closePair r, .scan cutoff scan)

/-- The callback of the reaper has loaded the stamp of a pair. -/
def visitStep (m : TcpMemory) (r : TcpRef) : ReaperPc → Option ReaperPc
  | .scan cutoff scan =>
    if r ∈ scan.visited then none
    else (m.tcpConns.lookup r).bind fun r' => (m.pairs.lookup r').map fun pair =>
      if pair.lastSeen < cutoff then .close cutoff (scan.visit r) r'
      else .scan cutoff (scan.visit r)
  | _ => none

/-- One operation of one of the parties. -/
def tcpStep (s : TcpState) : TcpLabel → Option TcpState
  | .syn id =>
    some { s with
      handlers := s.handlers.insert s.nextRef { id, pc := .checks (handleTCPChecks s.mem.svc id) }
      nextRef := s.nextRef + 1 }
  | .handler n ok =>
    (s.handlers.lookup n).bind fun h => (handlerStep s.mem s.clock n ok h).map fun r =>
      { s with mem := r.1, handlers := s.handlers.put n r.2 }
  | .transfer n =>
    match (s.handlers.lookup n).map TcpHandler.pc with
    | some .proxyTCP => some { s with mem := s.mem.touch n s.clock }
    | _ => none
  | .tick =>
    match s.reaper with
    | .idle =>
      let t := s.mem.svc.settings.tcpTimeout
      some { s with
        reaper := if t ≤ 0 then .idle else .scan (s.clock - t) (SyncMap.Scan.begin s.mem.tcpConns) }
    | _ => none
  | .visit r => (visitStep s.mem r s.reaper).map fun pc => { s with reaper := pc }
  | .reap => (reapStep s.mem s.reaper).map fun r => { s with mem := r.1, reaper := r.2 }
  | .reload c => some { s with mem := { s.mem with svc := { s.mem.svc with settings := c } } }
  | .udpAdd src =>
    some { s with mem := { s.mem with srcCounts := s.mem.srcCounts.add src .srcUDP } }
  | .udpRemove src =>
    some { s with mem := { s.mem with srcCounts := s.mem.srcCounts.remove src .srcUDP } }
  | .advance d => some { s with clock := s.clock + d }

/-! ## What an invocation has -/

/-- What stands for an invocation in what is shared: a slot of the semaphore, one
of the count of its client, an entry of `tcpConns`, one of `drainWG`.  `pending`
says that it has passed the limit of its client and is not counted yet, and
`released` that it has given its slot back. -/
structure Standing where
  pending : Bool := false
  holdsSlot : Bool := false
  counted : Bool := false
  tracked : Bool := false
  drains : Bool := false
  released : Bool := false
  deriving DecidableEq

def TcpPc.standing : TcpPc → Standing
  | .checks _ | .perSrcTCPLimit | .count _ => {}
  | .tryAcquireTCP => { pending := true }
  | .add => { pending := true, holdsSlot := true }
  | .createEndpoint | .abortRelease | .drainAdd => { holdsSlot := true, counted := true }
  | .abortRemove => { counted := true, released := true }
  | .dial | .trackTCP | .releaseTCP => { holdsSlot := true, counted := true, drains := true }
  | .proxyTCP | .untrackTCP =>
    { holdsSlot := true, counted := true, tracked := true, drains := true }
  | .remove => { counted := true, drains := true, released := true }
  | .drainDone => { drains := true, released := true }

/-- The invocation passes the limit of its client with its next operation. -/
def TcpPc.passesLimit (m : TcpMemory) (src : Addr16) : TcpPc → Bool
  | .perSrcTCPLimit => m.perSrcTCPLimit ≤ 0
  | .count l => m.srcCounts.count src .srcTCP < l
  | _ => false

namespace TcpMemory

/-- The tokens after a send on the semaphore, if there is one. -/
def Takes (m : TcpMemory) (tokens : Nat) : Prop :=
  (m.svc.tcpSem = none → tokens = m.tokens) ∧
    ∀ cap, m.svc.tcpSem = some cap → m.tokens < cap ∧ tokens = m.tokens + 1

/-- The tokens after a receive from the semaphore, if there is one. -/
def Gives (m : TcpMemory) (tokens : Nat) : Prop :=
  (m.svc.tcpSem = none → tokens = m.tokens) ∧
    ∀ cap, m.svc.tcpSem = some cap → m.tokens = tokens + 1

variable {m m' : TcpMemory} {n : TcpRef}

theorem tryAcquireTCP_eq_some (h : m.tryAcquireTCP = some m') :
    ∃ tokens, m.Takes tokens ∧ m' = { m with tokens } := by
  unfold tryAcquireTCP at h
  unfold Takes
  cases hsem : m.svc.tcpSem with
  | none =>
    rw [hsem] at h
    exact ⟨m.tokens, by simp, (Option.some.inj h).symm⟩
  | some cap =>
    simp only [hsem] at h
    split_ifs at h with hfree
    exact ⟨m.tokens + 1, by simp [hfree], (Option.some.inj h).symm⟩

theorem releaseBy_eq_some (h : m.releaseBy n = some m') :
    ∃ tokens, m.Gives tokens ∧ m' = { m with tokens, released := n :: m.released } := by
  unfold releaseBy releaseTCP at h
  unfold Gives
  cases hsem : m.svc.tcpSem with
  | none =>
    rw [hsem] at h
    exact ⟨m.tokens, by simp, (Option.some.inj h).symm⟩
  | some cap =>
    simp only [hsem] at h
    split_ifs at h with hempty
    · cases h
    · have hpos : m.tokens = m.tokens - 1 + 1 := by omega
      exact ⟨m.tokens - 1, by simpa using hpos, (Option.some.inj h).symm⟩

end TcpMemory

/-- What one operation of the invocation `n` does to what is shared.  The quiet
operations differ in where the invocation goes only. -/
inductive TcpMove (now : Int) (n : TcpRef) (src : Addr16) (m : TcpMemory) :
    TcpPc → TcpMemory → Option TcpPc → Prop where
  | quiet {pc pc' : TcpPc} (h : pc'.standing = pc.standing)
      (hcount : ∀ l, pc' = .count l → l = m.perSrcTCPLimit) : TcpMove now n src m pc m (some pc')
  | refuse {pc : TcpPc} (h : pc.standing = {}) : TcpMove now n src m pc m none
  | pass {pc : TcpPc} (h : pc.standing = {}) (hpass : pc.passesLimit m src = true) :
      TcpMove now n src m pc m (some .tryAcquireTCP)
  | full (h : m.tryAcquireTCP = none) : TcpMove now n src m .tryAcquireTCP m none
  | acquire {tokens : Nat} (h : m.Takes tokens) :
      TcpMove now n src m .tryAcquireTCP { m with tokens } (some .add)
  | add : TcpMove now n src m .add { m with srcCounts := m.srcCounts.add src .srcTCP }
      (some .createEndpoint)
  | abortRelease {tokens : Nat} (h : m.Gives tokens) :
      TcpMove now n src m .abortRelease { m with tokens, released := n :: m.released }
        (some .abortRemove)
  | abortRemove : TcpMove now n src m .abortRemove
      { m with srcCounts := m.srcCounts.remove src .srcTCP } none
  | drainAdd : TcpMove now n src m .drainAdd { m with drainWG := m.drainWG + 1 } (some .dial)
  | track : TcpMove now n src m .trackTCP (m.trackTCP n now) (some .proxyTCP)
  | untrack : TcpMove now n src m .untrackTCP (m.untrackTCP n) (some .releaseTCP)
  | release {tokens : Nat} (h : m.Gives tokens) :
      TcpMove now n src m .releaseTCP { m with tokens, released := n :: m.released } (some .remove)
  | remove : TcpMove now n src m .remove
      { m with srcCounts := m.srcCounts.remove src .srcTCP } (some .drainDone)
  | drainDone : TcpMove now n src m .drainDone { m with drainWG := m.drainWG - 1 } none

section Move

variable {m m' : TcpMemory} {now : Int} {n : TcpRef} {ok : Bool} {h : TcpHandler}
  {o : Option TcpHandler}

/-- The checks touch nothing that is shared, and an invocation has nothing until
they have passed. -/
theorem afterChecks_move (hpc : h.pc.standing = {}) (d : Decision (Option Addr4)) :
    TcpMove now n h.srcKey m h.pc m ((afterChecks h d).map TcpHandler.pc) ∧
      ∀ h' ∈ afterChecks h d, h'.id = h.id := by
  cases d with
  | ret target =>
    cases target with
    | none => exact ⟨.refuse hpc, by simp [afterChecks]⟩
    | some ipv4 => exact ⟨.quiet hpc.symm nofun, by simp [afterChecks]⟩
  | call op k => exact ⟨.quiet hpc.symm nofun, by simp [afterChecks]⟩

/-- Every operation is one of the moves, for the same endpoint. -/
theorem handlerStep_move (hstep : handlerStep m now n ok h = some (m', o)) :
    TcpMove now n h.srcKey m h.pc m' (o.map TcpHandler.pc) ∧ ∀ h' ∈ o, h'.id = h.id := by
  have hsame : ∀ pc, ∀ h' ∈ (some { h with pc } : Option TcpHandler), h'.id = h.id := by simp
  unfold handlerStep at hstep
  cases hpc : h.pc <;>
    simp only [hpc, Option.some.injEq, Prod.mk.injEq, Option.map_eq_some_iff] at hstep
  case checks d =>
    have hnone : h.pc.standing = {} := by rw [hpc]; rfl
    rw [← hpc]
    cases d <;> obtain ⟨rfl, rfl⟩ := hstep <;> exact afterChecks_move hnone _
  case tryAcquireTCP =>
    cases hsem : m.tryAcquireTCP <;> rw [hsem] at hstep <;>
      obtain ⟨rfl, rfl⟩ := Prod.mk.inj (Option.some.inj hstep)
    · exact ⟨.full hsem, by simp⟩
    · obtain ⟨tokens, htakes, rfl⟩ := TcpMemory.tryAcquireTCP_eq_some hsem
      exact ⟨.acquire htakes, hsame _⟩
  case abortRelease | releaseTCP =>
    obtain ⟨m₁, hrelease, rfl, rfl⟩ := hstep
    obtain ⟨tokens, hgives, rfl⟩ := TcpMemory.releaseBy_eq_some hrelease
    exact ⟨by constructor; exact hgives, hsame _⟩
  all_goals obtain ⟨rfl, rfl⟩ := hstep
  case perSrcTCPLimit =>
    refine ⟨?_, hsame _⟩
    by_cases hlimit : 0 < m.perSrcTCPLimit
    · rw [if_pos hlimit]
      exact .quiet rfl fun l hl => (TcpPc.count.inj hl).symm
    · rw [if_neg hlimit]
      exact .pass rfl (decide_eq_true (not_lt.1 hlimit))
  case count l =>
    by_cases hfull : l ≤ m.srcCounts.count h.srcKey .srcTCP
    · rw [if_pos hfull]
      exact ⟨.refuse rfl, by simp⟩
    · rw [if_neg hfull]
      exact ⟨.pass rfl (decide_eq_true (not_le.1 hfull)), hsame _⟩
  case createEndpoint | dial => cases ok <;> exact ⟨.quiet rfl nofun, hsame _⟩
  case abortRemove | drainDone => exact ⟨by constructor, by simp⟩
  case proxyTCP => exact ⟨.quiet rfl nofun, hsame _⟩
  all_goals exact ⟨by constructor, hsame _⟩

end Move

theorem reapStep_frame {m m' : TcpMemory} {pc pc' : ReaperPc} (h : reapStep m pc = some (m', pc')) :
    ∃ pairs, m' = { m with pairs } := by
  cases pc with
  | idle => cases h
  | scan cutoff scan =>
    simp only [reapStep] at h
    split_ifs at h
    obtain ⟨rfl, -⟩ := Prod.mk.inj (Option.some.inj h)
    exact ⟨m.pairs, rfl⟩
  | close cutoff scan r =>
    obtain ⟨rfl, -⟩ := Prod.mk.inj (Option.some.inj h)
    unfold TcpMemory.closePair
    split
    · exact ⟨m.pairs, rfl⟩
    · exact ⟨_, rfl⟩

/-- What one step does to the system.  The settings, the pairs, the reaper and the
clock are no part of the accounts. -/
inductive TcpChange (s : TcpState) (l : TcpLabel) : TcpState → Prop where
  | syn {hd : TcpHandler} (hpc : hd.pc.standing = {}) : TcpChange s l
      { s with handlers := s.handlers.insert s.nextRef hd, nextRef := s.nextRef + 1 }
  | handler {n : TcpRef} {ok : Bool} {hd : TcpHandler} {m : TcpMemory} {o : Option TcpHandler}
      (hlabel : l = .handler n ok) (hl : s.handlers.lookup n = some hd)
      (hmove : TcpMove s.clock n hd.srcKey s.mem hd.pc m (o.map TcpHandler.pc))
      (hid : ∀ h' ∈ o, h'.id = hd.id) :
      TcpChange s l { s with mem := m, handlers := s.handlers.put n o }
  | udp {t : SrcTracker} (src : Addr16)
      (ht : t = s.mem.srcCounts.add src .srcUDP ∨ t = s.mem.srcCounts.remove src .srcUDP) :
      TcpChange s l { s with mem := { s.mem with srcCounts := t } }
  | frame (c : Settings) (pairs : SyncMap TcpRef TcpPair) (reaper : ReaperPc) (clock : Int) :
      TcpChange s l { s with
        mem := { s.mem with svc := { s.mem.svc with settings := c }, pairs }, reaper, clock }

theorem tcpStep_change {s s' : TcpState} {l : TcpLabel} (hstep : tcpStep s l = some s') :
    TcpChange s l s' := by
  cases l with
  | syn id =>
    obtain rfl := Option.some.inj hstep
    exact .syn rfl
  | handler n ok =>
    obtain ⟨hd, hl, hstep⟩ := Option.bind_eq_some_iff.1 hstep
    obtain ⟨⟨m', o⟩, hhandler, rfl⟩ := Option.map_eq_some_iff.1 hstep
    obtain ⟨hmove, hid⟩ := handlerStep_move hhandler
    exact .handler rfl hl hmove hid
  | transfer n =>
    simp only [tcpStep] at hstep
    split at hstep
    · obtain rfl := Option.some.inj hstep
      rw [TcpMemory.touch]
      split <;> exact .frame _ _ _ _
    · cases hstep
  | tick =>
    simp only [tcpStep] at hstep
    split at hstep
    · obtain rfl := Option.some.inj hstep
      exact .frame _ _ _ _
    · cases hstep
  | visit r =>
    obtain ⟨pc, -, rfl⟩ := Option.map_eq_some_iff.1 hstep
    exact .frame _ _ _ _
  | reap =>
    obtain ⟨⟨m', pc⟩, hreap, rfl⟩ := Option.map_eq_some_iff.1 hstep
    obtain ⟨pairs, rfl⟩ := reapStep_frame hreap
    exact .frame _ _ _ _
  | reload c =>
    obtain rfl := Option.some.inj hstep
    exact .frame _ _ _ _
  | udpAdd src =>
    obtain rfl := Option.some.inj hstep
    exact .udp src (.inl rfl)
  | udpRemove src =>
    obtain rfl := Option.some.inj hstep
    exact .udp src (.inr rfl)
  | advance d =>
    obtain rfl := Option.some.inj hstep
    exact .frame _ _ _ _

end Ydn64.Nat64
