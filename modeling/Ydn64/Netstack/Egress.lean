import Ydn64.GoStd.NetIP
import Ydn64.Lib.Gate
import Ydn64.Lib.Run
import Ydn64.Lib.SyncMap

/-!
# Frames on their way out

`WritePackets`, `writePacket` and `noteCtrlDrop` of `src/netstack/yggdrasil.go`, and the
goroutine that `NewYggdrasilNIC` starts.  gVisor calls `WritePackets` from many
goroutines.  A call writes the frames of its list to the transport, except for TCP
frames without a payload: those go to the channel `ctrlPackets`, which the flusher
goroutine empties, and are dropped if it is full.  A drop is counted, and a warning is
logged unless there was one in the last thirty seconds.

The calls and the flusher move in any order, one operation on what they share at a
time.  What the transport and the clock answer stands in the event.  The lists
`accepted`, `flushed` and `fates` are no fields of the source, they record the run.

* `CallMove` says what one operation of a call can do.
* `Balanced` is the form of the sums over all calls: an operation changes what is shared
  and the share of its call by the same amount.
* `egress_accounts` is about where every frame is.
* `ctrl_drops_warned` is about the warnings.
-/

namespace Ydn64.Netstack

open Ydn64.GoStd Ydn64.Lib

/-! ## The interface -/

/-- A packet buffer: which one it is, `Data().Size()`, `Network().TransportProtocol()` and
the bytes of `ToView()`. -/
structure Frame where
  id : Nat
  dataSize : Nat
  transport : Nat
  view : Bytes
  deriving DecidableEq

/-- `tcp.ProtocolNumber`. -/
def tcpProtocolNumber : Nat := 6

/-- A TCP frame without a payload. -/
def Frame.control (f : Frame) : Bool := f.dataSize = 0 && f.transport = tcpProtocolNumber

/-- `ctrlDropWarnIntervalSecs`, in nanoseconds. -/
def ctrlDropWarnInterval : Nat := 30000000000

/-- The capacity of `ctrlPackets`. -/
def ctrlPacketsLen : Nat := 100

inductive EgressLog where
  /-- `yggdrasil NIC ctrl queue full: %d control packets dropped in total`. -/
  | ctrlQueueFull (total : Nat)
  /-- `yggdrasil NIC write error`. -/
  | writeError
  /-- `yggdrasil NIC egress frame truncated (%d bytes pending beyond %d-byte buffer)`. -/
  | truncated (pending buffer : Nat)
  /-- `yggdrasil NIC writePacket panic recovered`. -/
  | panicRecovered
  deriving DecidableEq

/-- How the body of `writePacket` goes: the packet parser panics, `vv.Read` fails,
`rwc.Write` fails, or neither. -/
inductive WriteOutcome where
  | panics
  | readErr
  | writeErr
  | ok
  deriving DecidableEq

/-- What the calls and the flusher share. -/
structure Nic where
  mtu : Nat
  ctrlPackets : Chan Frame ctrlPacketsLen := .empty
  /-- The references to a frame beside those of gVisor. -/
  refs : Frame → Int := fun _ => 0
  ctrlDrops : Nat := 0
  ctrlLastWarn : Gate ctrlDropWarnInterval := .new
  log : List EgressLog := []
  /-- What the transport took. -/
  wire : List Bytes := []
  /-- The frames that `ctrlPackets` took. -/
  accepted : List Frame := []
  /-- The frames that the flusher has passed to `writePacket`. -/
  flushed : List Frame := []

namespace Nic

def incRef (nic : Nic) (f : Frame) : Nic :=
  { nic with refs := fun g => if g = f then nic.refs g + 1 else nic.refs g }

def decRef (nic : Nic) (f : Frame) : Nic :=
  { nic with refs := fun g => if g = f then nic.refs g - 1 else nic.refs g }

/-- The line about a frame that does not fit into the buffer. -/
def truncation (nic : Nic) (f : Frame) : List EgressLog :=
  if nic.mtu < f.view.length then [.truncated f.view.length nic.mtu] else []

/-- `writePacket`; it returns an error unless the outcome is `ok`.  The buffer of the pool
has the length `mtu` and is private. -/
def writePacket (nic : Nic) (f : Frame) : WriteOutcome → Nic
  | .panics => { nic with log := nic.log ++ [.panicRecovered] }
  | .readErr => nic
  | .writeErr => { nic with log := nic.log ++ nic.truncation f }
  | .ok =>
    { nic with log := nic.log ++ nic.truncation f, wire := nic.wire ++ [f.view.take nic.mtu] }

end Nic

/-! ## A call of `WritePackets` -/

/-- The next operation of a call. -/
inductive CallPc where
  /-- The head of the loop. -/
  | next
  | select (f : Frame)
  /-- The `default` of the `select`. -/
  | decRef (f : Frame)
  -- `noteCtrlDrop`.
  | add
  | clock (total : Nat)
  | load (total : Nat) (now : Int)
  | swap (total : Nat) (ticket : Ticket ctrlDropWarnInterval)
  | warn (total : Nat)
  | returned (err : Bool)
  deriving DecidableEq

/-- What has become of a frame. -/
inductive Fate where
  | queued
  | dropped
  | sent
  deriving DecidableEq

/-- A call with its argument, the rest of the loop and its result so far. -/
structure Call where
  list : List Frame
  rest : List Frame
  written : Nat := 0
  pc : CallPc := .next
  fates : List (Frame × Fate) := []

/-- What a goroutine gets from outside with its next operation. -/
inductive EgressEvent where
  | go
  | write (outcome : WriteOutcome)
  /-- `time.Now().UnixNano()`. -/
  | clock (now : Int)

/-- A call takes its next operation. -/
def callStep (nic : Nic) (c : Call) (ev : EgressEvent) : Option (Nic × Call) :=
  match c.pc, ev with
  | .next, .go =>
    match c.rest with
    | [] => some (nic, { c with pc := .returned false })
    | f :: rest =>
      if f.control then some (nic.incRef f, { c with rest, pc := .select f }) else none
  | .next, .write outcome =>
    match c.rest with
    | [] => none
    | f :: rest =>
      if f.control then none
      else if outcome = .ok then
        some (nic.writePacket f outcome,
          { c with rest, written := c.written + 1, fates := c.fates ++ [(f, .sent)] })
      else
        let nic := nic.writePacket f outcome
        some ({ nic with log := nic.log ++ [.writeError] }, { c with pc := .returned true })
  | .select f, .go =>
    match nic.ctrlPackets.trySend f with
    | some ch =>
      some ({ nic with ctrlPackets := ch, accepted := nic.accepted ++ [f] },
        { c with written := c.written + 1, pc := .next, fates := c.fates ++ [(f, .queued)] })
    | none => some (nic, { c with pc := .decRef f, fates := c.fates ++ [(f, .dropped)] })
  | .decRef f, .go => some (nic.decRef f, { c with pc := .add })
  | .add, .go =>
    some ({ nic with ctrlDrops := nic.ctrlDrops + 1 }, { c with pc := .clock (nic.ctrlDrops + 1) })
  | .clock total, .clock now =>
    if 0 < now then some (nic, { c with pc := .load total now }) else none
  | .load total now, .go =>
    match Ticket.check ctrlDropWarnInterval nic.ctrlLastWarn.last now with
    | some ticket => some (nic, { c with pc := .swap total ticket })
    | none => some (nic, { c with pc := .next })
  | .swap total ticket, .go =>
    match nic.ctrlLastWarn.compareAndSwap ticket with
    | some gate => some ({ nic with ctrlLastWarn := gate }, { c with pc := .warn total })
    | none => some (nic, { c with pc := .next })
  | .warn total, .go =>
    some ({ nic with log := nic.log ++ [.ctrlQueueFull total] }, { c with pc := .next })
  | _, _ => none

/-! ## The flusher -/

inductive FlusherPc where
  | recv
  | write (f : Frame)
  | decRef (f : Frame)

/-- The flusher takes its next operation. -/
def flushStep (nic : Nic) (pc : FlusherPc) (ev : EgressEvent) : Option (Nic × FlusherPc) :=
  match pc, ev with
  | .recv, .go => nic.ctrlPackets.recv.map fun p => ({ nic with ctrlPackets := p.2 }, .write p.1)
  | .write f, .write outcome =>
    let nic := nic.writePacket f outcome
    some ({ nic with flushed := nic.flushed ++ [f] }, .decRef f)
  | .decRef f, .go => some (nic.decRef f, .recv)
  | _, _ => none

/-- The interface with its goroutines. -/
structure Egress where
  nic : Nic
  calls : SyncMap Nat Call := ∅
  flusher : FlusherPc := .recv

/-- What `NewYggdrasilNIC` leaves. -/
def Egress.start (mtu : Nat) : Egress where
  nic := { mtu }

inductive EgressStep where
  /-- gVisor calls `WritePackets`. -/
  | writePackets (id : Nat) (list : List Frame)
  | call (id : Nat) (ev : EgressEvent)
  | flush (ev : EgressEvent)

/-- One operation of one goroutine. -/
def egressStep (s : Egress) : EgressStep → Option Egress
  | .writePackets id list =>
    if s.calls.lookup id = none then
      some { s with calls := s.calls.insert id { list, rest := list } }
    else none
  | .call id ev =>
    (s.calls.lookup id).bind fun c => (callStep s.nic c ev).map fun p =>
      { s with nic := p.1, calls := s.calls.insert id p.2 }
  | .flush ev => (flushStep s.nic s.flusher ev).map fun p =>
      { s with nic := p.1, flusher := p.2 }

/-! ## What an operation can do -/

/-- The operations of a call. -/
inductive CallMove (nic : Nic) (c : Call) : Nic → Call → Prop
  | finish (hpc : c.pc = .next) (hrest : c.rest = []) :
    CallMove nic c nic { c with pc := .returned false }
  | incRef {f : Frame} {rest : List Frame} (hpc : c.pc = .next) (hrest : c.rest = f :: rest)
    (hcontrol : f.control = true) :
    CallMove nic c (nic.incRef f) { c with rest, pc := .select f }
  | send {f : Frame} {rest : List Frame} (hpc : c.pc = .next) (hrest : c.rest = f :: rest)
    (hcontrol : f.control = false) :
    CallMove nic c (nic.writePacket f .ok)
      { c with rest, written := c.written + 1, fates := c.fates ++ [(f, .sent)] }
  | fail {f : Frame} {rest : List Frame} {outcome : WriteOutcome} (hpc : c.pc = .next)
    (hrest : c.rest = f :: rest) (hcontrol : f.control = false) (houtcome : outcome ≠ .ok) :
    CallMove nic c
      { nic.writePacket f outcome with
        log := (nic.writePacket f outcome).log ++ [.writeError] }
      { c with pc := .returned true }
  | enqueue {f : Frame} {ch : Chan Frame ctrlPacketsLen} (hpc : c.pc = .select f)
    (hsend : nic.ctrlPackets.trySend f = some ch) :
    CallMove nic c { nic with ctrlPackets := ch, accepted := nic.accepted ++ [f] }
      { c with written := c.written + 1, pc := .next, fates := c.fates ++ [(f, .queued)] }
  | drop {f : Frame} (hpc : c.pc = .select f) (hsend : nic.ctrlPackets.trySend f = none) :
    CallMove nic c nic { c with pc := .decRef f, fates := c.fates ++ [(f, .dropped)] }
  | decRef {f : Frame} (hpc : c.pc = .decRef f) :
    CallMove nic c (nic.decRef f) { c with pc := .add }
  | add (hpc : c.pc = .add) :
    CallMove nic c { nic with ctrlDrops := nic.ctrlDrops + 1 }
      { c with pc := .clock (nic.ctrlDrops + 1) }
  | clock {total : Nat} {now : Int} (hpc : c.pc = .clock total) (hnow : 0 < now) :
    CallMove nic c nic { c with pc := .load total now }
  | due {total : Nat} {now : Int} {ticket : Ticket ctrlDropWarnInterval}
    (hpc : c.pc = .load total now)
    (hcheck : Ticket.check ctrlDropWarnInterval nic.ctrlLastWarn.last now = some ticket) :
    CallMove nic c nic { c with pc := .swap total ticket }
  | early {total : Nat} {now : Int} (hpc : c.pc = .load total now)
    (hcheck : Ticket.check ctrlDropWarnInterval nic.ctrlLastWarn.last now = none) :
    CallMove nic c nic { c with pc := .next }
  | pass {total : Nat} {ticket : Ticket ctrlDropWarnInterval}
    {gate : Gate ctrlDropWarnInterval} (hpc : c.pc = .swap total ticket)
    (hswap : nic.ctrlLastWarn.compareAndSwap ticket = some gate) :
    CallMove nic c { nic with ctrlLastWarn := gate } { c with pc := .warn total }
  | lose {total : Nat} {ticket : Ticket ctrlDropWarnInterval} (hpc : c.pc = .swap total ticket)
    (hswap : nic.ctrlLastWarn.compareAndSwap ticket = none) :
    CallMove nic c nic { c with pc := .next }
  | warn {total : Nat} (hpc : c.pc = .warn total) :
    CallMove nic c { nic with log := nic.log ++ [.ctrlQueueFull total] } { c with pc := .next }

variable {nic nic' : Nic} {c c' : Call}

theorem callMove_of_step {ev : EgressEvent} (h : callStep nic c ev = some (nic', c')) :
    CallMove nic c nic' c' := by
  unfold callStep at h
  split at h
  next hpc =>
    split at h
    next hrest =>
      cases h
      exact .finish hpc hrest
    next hrest =>
      split_ifs at h with hcontrol
      cases h
      exact .incRef hpc hrest hcontrol
  next outcome hpc =>
    split at h
    next => cases h
    next hrest =>
      split_ifs at h with hcontrol hok
      · subst hok
        cases h
        exact .send hpc hrest (Bool.not_eq_true _ ▸ hcontrol)
      · cases h
        exact .fail hpc hrest (Bool.not_eq_true _ ▸ hcontrol) hok
  next hpc =>
    split at h
    next hsend =>
      cases h
      exact .enqueue hpc hsend
    next hsend =>
      cases h
      exact .drop hpc hsend
  next hpc =>
    cases h
    exact .decRef hpc
  next hpc =>
    cases h
    exact .add hpc
  next hpc =>
    split_ifs at h with hnow
    cases h
    exact .clock hpc hnow
  next hpc =>
    split at h
    next hcheck =>
      cases h
      exact .due hpc hcheck
    next hcheck =>
      cases h
      exact .early hpc hcheck
  next hpc =>
    split at h
    next hswap =>
      cases h
      exact .pass hpc hswap
    next hswap =>
      cases h
      exact .lose hpc hswap
  next hpc =>
    cases h
    exact .warn hpc
  next => cases h

/-! ## Sums over the calls -/

/-- The line is a warning about dropped frames. -/
def EgressLog.isWarning : EgressLog → Bool
  | .ctrlQueueFull _ => true
  | _ => false

/-- The reference that a call holds between `IncRef` and the end of its `select`. -/
def Call.holds (f : Frame) (c : Call) : Int :=
  match c.pc with
  | .select g => if f = g then 1 else 0
  | .decRef g => if f = g then 1 else 0
  | _ => 0

/-- How often the call has put a frame into the channel. -/
def Call.queued (f : Frame) (c : Call) : Int := c.fates.count (f, .queued)

/-- How many frames the call has dropped. -/
def Call.dropped (c : Call) : Int := c.fates.countP fun x => x.2 = .dropped

/-- The call has dropped a frame that is not counted yet. -/
def Call.uncounted (c : Call) : Int :=
  match c.pc with
  | .decRef _ => 1
  | .add => 1
  | _ => 0

/-- The call has counted a drop and not decided about the warning. -/
def Call.undecided (c : Call) : Int :=
  match c.pc with
  | .clock _ => 1
  | .load _ _ => 1
  | .swap _ _ => 1
  | _ => 0

/-- The call is about to log a warning. -/
def Call.warning (c : Call) : Int :=
  match c.pc with
  | .warn _ => 1
  | _ => 0

/-- The warnings in the log. -/
def Nic.warnings (nic : Nic) : Nat := nic.log.countP EgressLog.isWarning

/-- Every operation changes `shared` as much as the share of its call. -/
def Balanced (shared : Nic → Int) (share : Call → Int) : Prop :=
  ∀ nic c nic' c', CallMove nic c nic' c' → shared nic' - share c' = shared nic - share c

/-- The sum of a share over the calls. -/
def callTotal (share : Call → Int) (calls : SyncMap Nat Call) : Int :=
  SyncMap.total (fun _ => share) calls

theorem callTotal_insert (share : Call → Int) {calls : SyncMap Nat Call} {id : Nat}
    (hc : calls.lookup id = some c) (c' : Call) :
    callTotal share (calls.insert id c') = callTotal share calls - share c + share c' := by
  rw [callTotal, SyncMap.total_insert, SyncMap.contrib_of_some hc]
  rfl

theorem callTotal_insert_fresh (share : Call → Int) {calls : SyncMap Nat Call} {id : Nat}
    (hid : calls.lookup id = none) (c : Call) :
    callTotal share (calls.insert id c) = callTotal share calls + share c :=
  SyncMap.total_insert_fresh _ hid

section WritePacket

-- `writePacket` leaves everything but the log and the wire.
variable (nic : Nic) (f : Frame) (outcome : WriteOutcome)

@[simp] theorem writePacket_mtu : (nic.writePacket f outcome).mtu = nic.mtu := by
  cases outcome <;> rfl

@[simp] theorem writePacket_ctrlPackets :
    (nic.writePacket f outcome).ctrlPackets = nic.ctrlPackets := by
  cases outcome <;> rfl

@[simp] theorem writePacket_refs : (nic.writePacket f outcome).refs = nic.refs := by
  cases outcome <;> rfl

@[simp] theorem writePacket_ctrlDrops :
    (nic.writePacket f outcome).ctrlDrops = nic.ctrlDrops := by
  cases outcome <;> rfl

@[simp] theorem writePacket_ctrlLastWarn :
    (nic.writePacket f outcome).ctrlLastWarn = nic.ctrlLastWarn := by
  cases outcome <;> rfl

@[simp] theorem writePacket_accepted : (nic.writePacket f outcome).accepted = nic.accepted := by
  cases outcome <;> rfl

@[simp] theorem writePacket_flushed : (nic.writePacket f outcome).flushed = nic.flushed := by
  cases outcome <;> rfl

/-- `writePacket` does not warn about dropped frames. -/
theorem filter_writePacket_log :
    (nic.writePacket f outcome).log.filter EgressLog.isWarning =
      nic.log.filter EgressLog.isWarning := by
  have htrunc : (nic.truncation f).filter EgressLog.isWarning = [] := by
    unfold Nic.truncation
    split_ifs <;> rfl
  cases outcome <;> simp [Nic.writePacket, List.filter_append, htrunc, EgressLog.isWarning]

@[simp] theorem countP_writePacket_log :
    (nic.writePacket f outcome).log.countP EgressLog.isWarning =
      nic.log.countP EgressLog.isWarning := by
  rw [List.countP_eq_length_filter, List.countP_eq_length_filter, filter_writePacket_log]

theorem writePacket_isWarning {line : EgressLog} (h : line ∈ (nic.writePacket f outcome).log)
    (hline : line.isWarning = true) : line ∈ nic.log := by
  have hmem := List.mem_filter.2 ⟨h, hline⟩
  rw [filter_writePacket_log] at hmem
  exact (List.mem_filter.1 hmem).1

end WritePacket

theorem balanced_accepted (f : Frame) :
    Balanced (fun nic => nic.accepted.count f) (Call.queued f) := by
  intro nic c nic' c' hmove
  cases hmove with
  | @enqueue g ch hpc hsend =>
    by_cases hfg : g = f <;> simp [Call.queued, List.count_append, hfg]
  | send | fail | drop => simp [Call.queued, List.count_append]
  | _ => rfl

theorem balanced_refs (f : Frame) :
    Balanced (fun nic => nic.refs f - nic.ctrlPackets.items.count f) (Call.holds f) := by
  intro nic c nic' c' hmove
  cases hmove with
  | @incRef g rest hpc hrest hcontrol =>
    by_cases hfg : f = g <;> simp [Call.holds, Nic.incRef, hpc, hfg]; omega
  | @enqueue g ch hpc hsend =>
    by_cases hfg : f = g
    · simp [Call.holds, hpc, hfg, Chan.trySend_eq_some hsend, List.count_append]; omega
    · simp [Call.holds, hpc, hfg, Chan.trySend_eq_some hsend, List.count_append, Ne.symm hfg]
  | @decRef g hpc =>
    by_cases hfg : f = g <;> simp [Call.holds, Nic.decRef, hpc, hfg]; omega
  | finish hpc | send hpc | fail hpc | drop hpc | add hpc | clock hpc | due hpc | early hpc
  | pass hpc | lose hpc | warn hpc => simp [Call.holds, hpc]

theorem balanced_drops :
    Balanced (fun nic => nic.ctrlDrops) (fun c => c.dropped - c.uncounted) := by
  intro nic c nic' c' hmove
  cases hmove with
  | add hpc => simp [Call.dropped, Call.uncounted, hpc]; omega
  | incRef hpc | decRef hpc =>
    simp [Call.dropped, Call.uncounted, hpc, Nic.incRef, Nic.decRef]
  | finish hpc | send hpc | fail hpc | enqueue hpc | drop hpc | clock hpc | due hpc | early hpc
  | pass hpc | lose hpc | warn hpc => simp [Call.dropped, Call.uncounted, hpc]

theorem balanced_warnings :
    Balanced (fun nic => nic.ctrlLastWarn.passes.length - nic.warnings) Call.warning := by
  intro nic c nic' c' hmove
  cases hmove with
  | fail hpc => simp [Call.warning, hpc, Nic.warnings, List.countP_append, EgressLog.isWarning]
  | @pass total ticket gate hpc hswap =>
    simp [Call.warning, hpc, Nic.warnings, Gate.compareAndSwap_eq_some hswap]; omega
  | warn hpc =>
    simp [Call.warning, hpc, Nic.warnings, List.countP_append, EgressLog.isWarning]; omega
  | incRef hpc | decRef hpc =>
    simp [Call.warning, hpc, Nic.warnings, Nic.incRef, Nic.decRef]
  | finish hpc | send hpc | enqueue hpc | drop hpc | add hpc | clock hpc | due hpc | early hpc
  | lose hpc => simp [Call.warning, hpc, Nic.warnings]

/-! ## One call -/

/-- The frame at the `select`. -/
def CallPc.selecting : CallPc → List Frame
  | .select f => [f]
  | _ => []

/-- What a call has done with the frames of its list. -/
structure FramesOk (nic : Nic) (c : Call) : Prop where
  list : c.list = c.fates.map Prod.fst ++ (c.pc.selecting ++ c.rest)
  written : c.written = c.fates.countP fun x => x.2 ≠ .dropped
  control : ∀ x ∈ c.fates, x.1.control = true ↔ x.2 ≠ .sent
  sent : ∀ f, (f, .sent) ∈ c.fates → f.view.take nic.mtu ∈ nic.wire

/-- A total that a call is going to report. -/
def Nic.Counted (nic : Nic) (total : Nat) : Prop := 0 < total ∧ total ≤ nic.ctrlDrops

/-- What a call knows where it stands. -/
def PcOk (nic : Nic) (rest : List Frame) : CallPc → Prop
  | .select f => f.control = true
  | .clock total => nic.Counted total
  | .load total now => nic.Counted total ∧ 0 < now
  | .swap total ticket =>
    nic.Counted total ∧ (ticket.last ≠ 0 → nic.ctrlLastWarn.passes ≠ [])
  | .warn total => nic.Counted total
  | .returned false => rest = []
  | .returned true => ∃ f rest', rest = f :: rest' ∧ f.control = false
  | _ => True

/-- What holds of a call between its operations. -/
structure CallOk (nic : Nic) (c : Call) : Prop where
  frames : FramesOk nic c
  pc : PcOk nic c.rest c.pc

/-- What the operations of other goroutines do to what a call relies on. -/
structure Grows (nic nic' : Nic) : Prop where
  mtu : nic'.mtu = nic.mtu
  wire : nic.wire ⊆ nic'.wire
  drops : nic.ctrlDrops ≤ nic'.ctrlDrops
  passes : nic.ctrlLastWarn.passes ≠ [] → nic'.ctrlLastWarn.passes ≠ []

theorem Grows.refl (nic : Nic) : Grows nic nic :=
  ⟨rfl, List.Subset.refl _, Nat.le_refl _, id⟩

theorem grows_writePacket (nic : Nic) (f : Frame) (outcome : WriteOutcome) :
    Grows nic (nic.writePacket f outcome) := by
  cases outcome with
  | ok => exact { Grows.refl nic with wire := List.subset_append_left .. }
  | _ => exact { Grows.refl nic with }

theorem CallMove.grows (h : CallMove nic c nic' c') : Grows nic nic' := by
  cases h with
  | @send f rest hpc hrest hcontrol => exact grows_writePacket nic f .ok
  | @fail f rest outcome hpc hrest hcontrol houtcome =>
    exact { grows_writePacket nic f outcome with }
  | add hpc => exact { Grows.refl nic with drops := Nat.le_succ _ }
  | pass hpc hswap =>
    exact { Grows.refl nic with passes := fun _ => by simp [Gate.compareAndSwap_eq_some hswap] }
  | _ => exact { Grows.refl nic with }

theorem Nic.Counted.mono {total : Nat} (h : nic.Counted total) (hgrows : Grows nic nic') :
    nic'.Counted total :=
  ⟨h.1, h.2.trans hgrows.drops⟩

theorem FramesOk.mono (h : FramesOk nic c) (hgrows : Grows nic nic') : FramesOk nic' c :=
  { h with sent := fun f hf => hgrows.mtu ▸ hgrows.wire (h.sent f hf) }

theorem CallOk.mono (h : CallOk nic c) (hgrows : Grows nic nic') : CallOk nic' c := by
  refine ⟨h.frames.mono hgrows, ?_⟩
  have hpc := h.pc
  cases hc : c.pc with
  | clock total | warn total =>
    rw [hc] at hpc
    exact Nic.Counted.mono hpc hgrows
  | load total now =>
    rw [hc] at hpc
    exact ⟨hpc.1.mono hgrows, hpc.2⟩
  | swap total ticket =>
    rw [hc] at hpc
    exact ⟨hpc.1.mono hgrows, fun hlast => hgrows.passes (hpc.2 hlast)⟩
  | returned err =>
    rw [hc] at hpc
    cases err <;> exact hpc
  | _ =>
    rw [hc] at hpc
    exact hpc

theorem FramesOk.move (h : FramesOk nic c) {rest : List Frame} {pc : CallPc}
    (hpending : c.pc.selecting ++ c.rest = pc.selecting ++ rest) :
    FramesOk nic { c with rest, pc } :=
  { h with list := hpending ▸ h.list }

theorem FramesOk.record (h : FramesOk nic c) {f : Frame} {fate : Fate} {rest : List Frame}
    {pc : CallPc} (hpending : c.pc.selecting ++ c.rest = f :: (pc.selecting ++ rest))
    (hcontrol : f.control = true ↔ fate ≠ .sent)
    (hsent : fate = .sent → f.view.take nic.mtu ∈ nic.wire) {written : Nat}
    (hwritten : written = c.written + if fate ≠ .dropped then 1 else 0) :
    FramesOk nic { c with rest, pc, written, fates := c.fates ++ [(f, fate)] } where
  list := by simp [h.list, hpending]
  written := by simp [hwritten, h.written, List.countP_append, List.countP_singleton]
  control := fun x hx => by
    rcases List.mem_append.1 hx with hold | hnew
    · exact h.control x hold
    · rw [List.mem_singleton.1 hnew]
      exact hcontrol
  sent := fun g hg => by
    rcases List.mem_append.1 hg with hold | hnew
    · exact h.sent g hold
    · obtain ⟨rfl, rfl⟩ := Prod.mk.inj (List.mem_singleton.1 hnew)
      exact hsent rfl

theorem callOk_start (nic : Nic) (list : List Frame) : CallOk nic { list, rest := list } where
  frames :=
    { list := rfl, written := rfl
      control := fun _ hx => absurd hx List.not_mem_nil
      sent := fun _ hf => absurd hf List.not_mem_nil }
  pc := trivial

theorem CallMove.ok (h : CallMove nic c nic' c') (hc : CallOk nic c) : CallOk nic' c' := by
  obtain ⟨hframes, hknown⟩ := hc.mono h.grows
  cases h with
  | finish hpc hrest => exact ⟨hframes.move (by rw [hpc]; rfl), hrest⟩
  | incRef hpc hrest hcontrol => exact ⟨hframes.move (by rw [hpc, hrest]; rfl), hcontrol⟩
  | @send f rest hpc hrest hcontrol =>
    refine ⟨hframes.record (by rw [hpc, hrest]; rfl) (by simp [hcontrol]) (fun _ => ?_) rfl, ?_⟩
    · exact List.mem_append_right _ (List.mem_singleton.2 rfl)
    · rw [hpc]
      trivial
  | @fail f rest outcome hpc hrest hcontrol houtcome =>
    exact ⟨hframes.move (by rw [hpc]; rfl), f, rest, hrest, hcontrol⟩
  | enqueue hpc hsend =>
    rw [hpc] at hknown
    refine ⟨hframes.record ?_ ?_ ?_ rfl, trivial⟩
    · rw [hpc]
      rfl
    · exact iff_of_true hknown (by decide)
    · exact fun hsent => by cases hsent
  | drop hpc hsend =>
    rw [hpc] at hknown
    refine ⟨hframes.record ?_ ?_ ?_ rfl, trivial⟩
    · rw [hpc]
      rfl
    · exact iff_of_true hknown (by decide)
    · exact fun hsent => by cases hsent
  | decRef hpc => exact ⟨hframes.move (by rw [hpc]; rfl), trivial⟩
  | add hpc => exact ⟨hframes.move (by rw [hpc]; rfl), Nat.succ_pos _, Nat.le_refl _⟩
  | clock hpc hnow =>
    rw [hpc] at hknown
    exact ⟨hframes.move (by rw [hpc]; rfl), hknown, hnow⟩
  | due hpc hcheck =>
    rw [hpc] at hknown
    refine ⟨hframes.move (by rw [hpc]; rfl), hknown.1, fun hlast hempty => hlast ?_⟩
    exact (Ticket.check_eq_some hcheck).trans (Gate.last_eq_zero hempty)
  | pass hpc hswap =>
    rw [hpc] at hknown
    exact ⟨hframes.move (by rw [hpc]; rfl), hknown.1⟩
  | early hpc | lose hpc | warn hpc => exact ⟨hframes.move (by rw [hpc]; rfl), trivial⟩

/-- While nobody has passed the gate, nobody who counted a drop has gone on. -/
theorem CallMove.undecided (h : CallMove nic c nic' c') (hc : CallOk nic c)
    (hempty : nic'.ctrlLastWarn.passes = []) :
    nic.ctrlLastWarn.passes = [] ∧
      (nic'.ctrlDrops : Int) - c'.undecided = nic.ctrlDrops - c.undecided := by
  have hknown := hc.pc
  have hbefore : nic.ctrlLastWarn.passes = [] :=
    Classical.byContradiction fun hne => h.grows.passes hne hempty
  refine ⟨hbefore, ?_⟩
  cases h with
  | early hpc hcheck =>
    rw [hpc] at hknown
    exact absurd (Gate.last_eq_zero hbefore) (Ticket.check_eq_none hknown.2 hcheck)
  | pass hpc hswap =>
    exact absurd ((Gate.compareAndSwap_eq_some hswap).symm.trans hempty) (List.cons_ne_nil _ _)
  | lose hpc hswap =>
    rw [hpc] at hknown
    have hlast := Gate.compareAndSwap_eq_none hswap
    rw [Gate.last_eq_zero hbefore] at hlast
    exact absurd hbefore (hknown.2 hlast.symm)
  | add hpc => simp [Call.undecided, hpc]
  | incRef hpc | decRef hpc => simp [Call.undecided, hpc, Nic.incRef, Nic.decRef]
  | finish hpc | send hpc | fail hpc | enqueue hpc | drop hpc | clock hpc | due hpc | warn hpc =>
    simp [Call.undecided, hpc]

/-! ## All goroutines -/

/-- The frame that the flusher has taken and not written. -/
def FlusherPc.held : FlusherPc → List Frame
  | .write f => [f]
  | _ => []

/-- The reference of the flusher. -/
def FlusherPc.holds (f : Frame) : FlusherPc → Int
  | .recv => 0
  | .write g => if f = g then 1 else 0
  | .decRef g => if f = g then 1 else 0

/-- What holds between the operations. -/
structure EgressInv (mtu : Nat) (s : Egress) : Prop where
  mtu : s.nic.mtu = mtu
  calls : ∀ id c, s.calls.lookup id = some c → CallOk s.nic c
  queue : s.nic.accepted = (s.nic.flushed ++ s.flusher.held) ++ s.nic.ctrlPackets.items
  accepted : ∀ f, (s.nic.accepted.count f : Int) = callTotal (Call.queued f) s.calls
  refs : ∀ f, s.nic.refs f - s.nic.ctrlPackets.items.count f =
    s.flusher.holds f + callTotal (Call.holds f) s.calls
  drops : (s.nic.ctrlDrops : Int) = callTotal (fun c => c.dropped - c.uncounted) s.calls
  passes : (s.nic.ctrlLastWarn.passes.length : Int) - s.nic.warnings =
    callTotal Call.warning s.calls
  undecided : s.nic.ctrlLastWarn.passes = [] →
    (s.nic.ctrlDrops : Int) = callTotal Call.undecided s.calls
  logged : ∀ total, .ctrlQueueFull total ∈ s.nic.log → s.nic.Counted total

theorem egressInv_start (mtu : Nat) : EgressInv mtu (.start mtu) where
  mtu := rfl
  calls := fun _ _ hc => by cases hc
  queue := rfl
  accepted := fun _ => rfl
  refs := fun _ => rfl
  drops := rfl
  passes := rfl
  undecided := fun _ => rfl
  logged := fun _ hmem => absurd hmem List.not_mem_nil

theorem Balanced.step {shared : Nic → Int} {share : Call → Int} (h : Balanced shared share)
    {calls : SyncMap Nat Call} {id : Nat} (hc : calls.lookup id = some c)
    (hmove : CallMove nic c nic' c') :
    shared nic' - callTotal share (calls.insert id c') =
      shared nic - callTotal share calls := by
  have hbalance := h _ _ _ _ hmove
  rw [callTotal_insert share hc]
  omega

theorem CallMove.queue (h : CallMove nic c nic' c') {received : List Frame}
    (hqueue : nic.accepted = received ++ nic.ctrlPackets.items) :
    nic'.accepted = received ++ nic'.ctrlPackets.items ∧ nic'.flushed = nic.flushed := by
  cases h with
  | enqueue hpc hsend => exact ⟨Chan.sent_of_trySend hqueue hsend, rfl⟩
  | fail => exact ⟨by simpa using hqueue, by simp⟩
  | _ => exact ⟨hqueue, rfl⟩

theorem CallMove.logged (h : CallMove nic c nic' c') (hc : CallOk nic c)
    (hlogged : ∀ total, .ctrlQueueFull total ∈ nic.log → nic.Counted total) (total : Nat)
    (hmem : .ctrlQueueFull total ∈ nic'.log) : nic'.Counted total := by
  suffices hold : nic.Counted total from hold.mono h.grows
  have hknown := hc.pc
  cases h with
  | send hpc => exact hlogged total (writePacket_isWarning _ _ _ hmem rfl)
  | fail hpc =>
    rcases List.mem_append.1 hmem with hold | hnew
    · exact hlogged total (writePacket_isWarning _ _ _ hold rfl)
    · cases List.mem_singleton.1 hnew
  | warn hpc =>
    rw [hpc] at hknown
    rcases List.mem_append.1 hmem with hold | hnew
    · exact hlogged total hold
    · cases List.mem_singleton.1 hnew
      exact hknown
  | _ => exact hlogged total hmem

variable {mtu : Nat} {s s' : Egress}

theorem EgressInv.call (h : EgressInv mtu s) {id : Nat} (hc : s.calls.lookup id = some c)
    (hmove : CallMove s.nic c nic' c') :
    EgressInv mtu { s with nic := nic', calls := s.calls.insert id c' } := by
  have hok := h.calls id c hc
  obtain ⟨hqueue, hflushed⟩ := hmove.queue h.queue
  refine
    { mtu := hmove.grows.mtu.trans h.mtu
      calls := fun k v hk => ?_
      queue := hflushed ▸ hqueue
      accepted := fun f => ?_
      refs := fun f => ?_
      drops := ?_
      passes := ?_
      undecided := fun hempty => ?_
      logged := hmove.logged hok h.logged }
  · rw [SyncMap.lookup_insert_eq_ite] at hk
    split_ifs at hk with hkid
    · exact Option.some.inj hk ▸ hmove.ok hok
    · exact (h.calls k v hk).mono hmove.grows
  · have hstep := (balanced_accepted f).step hc hmove
    have hold := h.accepted f
    dsimp only at hstep ⊢
    omega
  · have hstep := (balanced_refs f).step hc hmove
    have hold := h.refs f
    dsimp only at hstep ⊢
    omega
  · have hstep := balanced_drops.step hc hmove
    have hold := h.drops
    dsimp only at hstep ⊢
    omega
  · have hstep := balanced_warnings.step hc hmove
    have hold := h.passes
    dsimp only at hstep ⊢
    omega
  · obtain ⟨hbefore, hstep⟩ := hmove.undecided hok hempty
    have hold := h.undecided hbefore
    dsimp only at hstep ⊢
    rw [callTotal_insert _ hc]
    omega

theorem EgressInv.flush (h : EgressInv mtu s) {ev : EgressEvent} {pc' : FlusherPc}
    (hstep : flushStep s.nic s.flusher ev = some (nic', pc')) :
    EgressInv mtu { s with nic := nic', flusher := pc' } := by
  have hqueue := h.queue
  have hrefs := h.refs
  unfold flushStep at hstep
  split at hstep
  next hpc =>
    rw [hpc] at hqueue hrefs
    obtain ⟨⟨f, ch⟩, hrecv, heq⟩ := Option.map_eq_some_iff.1 hstep
    cases heq
    have hitems := Chan.recv_eq_some hrecv
    refine { h with calls := fun id c hc => ?_, queue := ?_, refs := fun g => ?_ }
    · exact (h.calls id c hc).mono { Grows.refl s.nic with }
    · exact Chan.sent_of_recv (by simpa [FlusherPc.held] using hqueue) hrecv
    · have hold := hrefs g
      rw [hitems] at hold
      by_cases hfg : g = f
      · simp [hfg, FlusherPc.holds] at hold ⊢
        omega
      · simpa [List.count_cons, hfg, Ne.symm hfg, FlusherPc.holds] using hold
  next f outcome hpc =>
    rw [hpc] at hqueue hrefs
    cases hstep
    have hgrows := grows_writePacket s.nic f outcome
    exact
      { mtu := hgrows.mtu.trans h.mtu
        calls := fun id c hc => (h.calls id c hc).mono { hgrows with }
        queue := by simpa [FlusherPc.held] using hqueue
        accepted := fun g => by simpa using h.accepted g
        refs := fun g => by simpa [FlusherPc.holds] using hrefs g
        drops := by simpa using h.drops
        passes := by simpa [Nic.warnings] using h.passes
        undecided := by simpa using h.undecided
        logged := fun total hmem =>
          (h.logged total (writePacket_isWarning _ _ _ hmem rfl)).mono { hgrows with } }
  next f hpc =>
    rw [hpc] at hqueue hrefs
    cases hstep
    refine { h with calls := fun id c hc => ?_, queue := hqueue, refs := fun g => ?_ }
    · exact (h.calls id c hc).mono { Grows.refl s.nic with }
    · have hold := hrefs g
      by_cases hfg : g = f
      · simp [hfg, FlusherPc.holds, Nic.decRef] at hold ⊢
        omega
      · simpa [hfg, FlusherPc.holds, Nic.decRef] using hold
  next => cases hstep

theorem EgressInv.step (h : EgressInv mtu s) (l : EgressStep) (hs : egressStep s l = some s') :
    EgressInv mtu s' := by
  cases l with
  | writePackets id list =>
    simp only [egressStep] at hs
    split_ifs at hs with hid
    obtain rfl := Option.some.inj hs
    have hfresh : ∀ share : Call → Int, share { list, rest := list } = 0 →
        callTotal share (s.calls.insert id { list, rest := list }) = callTotal share s.calls :=
      fun share hshare => by rw [callTotal_insert_fresh share hid, hshare, add_zero]
    refine
      { mtu := h.mtu, queue := h.queue, logged := h.logged
        calls := fun k v hk => ?_
        accepted := fun f => (h.accepted f).trans (hfresh _ rfl).symm
        refs := fun f => by rw [hfresh _ rfl]; exact h.refs f
        drops := h.drops.trans (hfresh _ rfl).symm
        passes := h.passes.trans (hfresh _ rfl).symm
        undecided := fun hempty => (h.undecided hempty).trans (hfresh _ rfl).symm }
    rw [SyncMap.lookup_insert_eq_ite] at hk
    split_ifs at hk
    · exact Option.some.inj hk ▸ callOk_start s.nic list
    · exact h.calls k v hk
  | call id ev =>
    obtain ⟨c, hc, hs⟩ := Option.bind_eq_some_iff.1 hs
    obtain ⟨⟨nic', c'⟩, hstep, rfl⟩ := Option.map_eq_some_iff.1 hs
    exact h.call hc (callMove_of_step hstep)
  | flush ev =>
    obtain ⟨⟨nic', pc'⟩, hstep, rfl⟩ := Option.map_eq_some_iff.1 hs
    exact h.flush hstep

theorem egressInv_run {ls : List EgressStep} (hrun : run egressStep (.start mtu) ls = some s) :
    EgressInv mtu s :=
  run_invariant_of_step (fun _ l _ h hl => EgressInv.step h l hl) (egressInv_start mtu) hrun

/-- In every interleaving of calls and the flusher: what the channel has taken is what the
flusher has written or tried to, what it holds and what is waiting, in this order; every
frame was put there by as many calls as it occurs.  A frame has one reference for each
time it is waiting, for the flusher if it holds it, and for each call that is about to
send it or to give it up.  The counter has every drop except those that a call is about
to count.  A call that has returned has decided about the frames of its list in order,
control frames to the channel and the others to the transport, and reports how many were
not dropped; it has come to the end of its list, or stopped at a frame that is not a
control frame. -/
theorem egress_accounts (mtu : Nat) (ls : List EgressStep) (s : Egress)
    (hrun : run egressStep (.start mtu) ls = some s) :
    s.nic.accepted = (s.nic.flushed ++ s.flusher.held) ++ s.nic.ctrlPackets.items ∧
    (∀ f, (s.nic.accepted.count f : Int) = callTotal (Call.queued f) s.calls) ∧
    (∀ f, s.nic.refs f = s.nic.ctrlPackets.items.count f + s.flusher.holds f +
      callTotal (Call.holds f) s.calls) ∧
    (s.nic.ctrlDrops : Int) = callTotal (fun c => c.dropped - c.uncounted) s.calls ∧
    ∀ id c err, s.calls.lookup id = some c → c.pc = .returned err →
      c.written = (c.fates.countP fun x => x.2 ≠ .dropped) ∧
      (∀ x ∈ c.fates, x.1.control = true ↔ x.2 ≠ .sent) ∧
      (∀ f, (f, .sent) ∈ c.fates → f.view.take mtu ∈ s.nic.wire) ∧
      (err = false → c.list = c.fates.map Prod.fst) ∧
      (err = true → ∃ f rest, f.control = false ∧ c.list = c.fates.map Prod.fst ++ f :: rest) := by
  have h := egressInv_run hrun
  refine ⟨h.queue, h.accepted, fun f => ?_, h.drops, fun id c err hc hpc => ?_⟩
  · have hrefs := h.refs f
    omega
  · obtain ⟨hframes, hknown⟩ := h.calls id c hc
    have hlist := hframes.list
    rw [hpc] at hlist hknown
    refine ⟨hframes.written, hframes.control, h.mtu ▸ hframes.sent, ?_, ?_⟩
    · rintro rfl
      have hrest : c.rest = [] := hknown
      rw [hlist, hrest]
      exact List.append_nil _
    · rintro rfl
      obtain ⟨f, rest, hrest, hcontrol⟩ := hknown
      exact ⟨f, rest, hcontrol, hrest ▸ hlist⟩

/-- A TCP frame without a payload. -/
def synAck : Frame := ⟨1, 0, 6, [0x60]⟩

/-- A call with one such frame more than the channel has room for. -/
def overfull : List EgressStep :=
  .writePackets 0 (List.replicate 101 synAck) :: (List.replicate 204 (.call 0 .go) ++
    [.call 0 (.clock 5), .call 0 .go, .call 0 .go, .call 0 .go, .call 0 .go])

/-- The call reports that it has handed over all frames but one. -/
theorem egress_accounts_overfull :
    ∃ s ∈ run egressStep (.start 1280) overfull, ∃ c ∈ s.calls.lookup 0,
      c.written = 100 ∧ s.nic.refs synAck = 100 ∧ c.list = c.fates.map Prod.fst := by
  have hrun : ∃ s ∈ run egressStep (.start 1280) overfull, ∃ c ∈ s.calls.lookup 0,
      c.written = 100 ∧ s.nic.refs synAck = 100 ∧ c.pc = .returned false := by
    decide +kernel
  obtain ⟨s, hs, c, hc, hwritten, hrefs, hpc⟩ := hrun
  have hcall := (egress_accounts 1280 overfull s hs).2.2.2.2 0 c false hc hpc
  exact ⟨s, hs, c, hc, hwritten, hrefs, hcall.2.2.2.1 rfl⟩

/-- In every interleaving: the clocks of the calls that warn are thirty seconds apart, so
that a window of `T` nanoseconds has no more than `T / 30 s + 1` of them, and each of them
logs one line.  A line reports a number of drops that had happened.  And drops are never
silent: once no call is on its way through `noteCtrlDrop`, a counter above zero means
that there has been a warning. -/
theorem ctrl_drops_warned (mtu : Nat) (ls : List EgressStep) (s : Egress)
    (hrun : run egressStep (.start mtu) ls = some s) :
    s.nic.ctrlLastWarn.passes.Pairwise (Spaced ctrlDropWarnInterval) ∧
    (∀ a T : Int, 0 ≤ T →
      ((s.nic.ctrlLastWarn.passes.filter fun t => a ≤ t ∧ t ≤ a + T).length : Int) *
        ctrlDropWarnInterval ≤ T + ctrlDropWarnInterval) ∧
    (s.nic.ctrlLastWarn.passes.length : Int) =
      s.nic.warnings + callTotal Call.warning s.calls ∧
    (∀ total, .ctrlQueueFull total ∈ s.nic.log → 0 < total ∧ total ≤ s.nic.ctrlDrops) ∧
    (0 < s.nic.ctrlDrops →
      (∀ id c, s.calls.lookup id = some c → c.undecided = 0 ∧ c.warning = 0) →
      0 < s.nic.warnings) := by
  have h := egressInv_run hrun
  have hpasses := h.passes
  refine ⟨s.nic.ctrlLastWarn.spaced, fun a T hT => s.nic.ctrlLastWarn.passes_le a T hT,
    by omega, h.logged, fun hdrops hidle => ?_⟩
  have hundecided : callTotal Call.undecided s.calls = 0 :=
    SyncMap.total_eq_zero fun id c hc => (hidle id c hc).1
  have hwarning : callTotal Call.warning s.calls = 0 :=
    SyncMap.total_eq_zero fun id c hc => (hidle id c hc).2
  have hne : s.nic.ctrlLastWarn.passes ≠ [] := fun hempty => by
    have hnone := h.undecided hempty
    omega
  have hlen := List.length_pos_iff.2 hne
  omega

/-- The one drop of that call has been warned about. -/
theorem ctrl_drops_warned_overfull :
    ∃ s ∈ run egressStep (.start 1280) overfull, s.nic.ctrlDrops = 1 ∧
      s.nic.ctrlLastWarn.passes = [5] ∧
      (s.nic.ctrlLastWarn.passes.length : Int) =
        s.nic.warnings + callTotal Call.warning s.calls := by
  have hrun : ∃ s ∈ run egressStep (.start 1280) overfull, s.nic.ctrlDrops = 1 ∧
      s.nic.ctrlLastWarn.passes = [5] := by decide +kernel
  obtain ⟨s, hs, hdrops, hpasses⟩ := hrun
  exact ⟨s, hs, hdrops, hpasses, (ctrl_drops_warned 1280 overfull s hs).2.2.1⟩

end Ydn64.Netstack
