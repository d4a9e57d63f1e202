import Ydn64.Nat64.TcpSlots

/-!
# The copy loops of a proxied connection

`proxyTCP`, `activityConn` and the closing of connections, from `src/nat64/tcp.go`
and `src/nat64/service.go`.  Two goroutines copy, one in each direction; the
cleanup goroutine may close the legs under them, because the connection has been
idle or because the service stops.

* `copyStep` is one operation of a copy: the loop of `io.Copy` between two wrapped
  legs, and what `proxyTCP` does when the loop ends.
* `relayStep` is the TCP side of the translator with the copies in it.  A copy that
  has moved payload stamps its pair, and an invocation leaves `proxyTCP` when both
  copies have ended.
* `relayStep_core`: what the copies do is a run of `tcpStep`, so that the accounts
  of the TCP side hold here too.
* `relay_transparent`: in every run, each direction of each connection carries its
  bytes in order, and passes the end of the stream on after the last of them.
-/

namespace Ydn64.Nat64

open Ydn64.GoStd Ydn64.Config Ydn64.Lib

/-! ## Two legs -/

/-- The legs of a `tcpPair`: `a` towards Yggdrasil and `b` towards IPv4. -/
inductive Leg where
  | ygg
  | ip4
  deriving DecidableEq

/-- A copy that reads from one leg writes to the other one. -/
def Leg.other : Leg → Leg
  | .ygg => .ip4
  | .ip4 => .ygg

@[simp] theorem Leg.other_other (leg : Leg) : leg.other.other = leg := by
  cases leg <;> rfl

@[simp] theorem Leg.other_ne (leg : Leg) : leg.other ≠ leg := by
  cases leg <;> decide

@[simp] theorem Leg.ne_other (leg : Leg) : leg ≠ leg.other := by
  cases leg <;> decide

theorem Leg.eq_or_eq_other (leg src : Leg) : leg = src ∨ leg = src.other := by
  cases leg <;> cases src <;> decide

/-- A leg as the proxy uses it.  `received` and `sent` are the histories of what its
reads have returned and its writes have taken, and `eof` says that a read has found
the end of the stream. -/
structure LegConn where
  received : Bytes := []
  eof : Bool := false
  sent : Bytes := []
  writeClosed : Bool := false
  closed : Bool := false
  deriving DecidableEq

/-- What a read reports, other than success. -/
inductive ReadErr where
  | eof
  | failed
  deriving DecidableEq

namespace LegConn

/-- A read has returned `buf`. -/
def read (c : LegConn) (buf : Bytes) (er : Option ReadErr) : LegConn :=
  { c with received := c.received ++ buf, eof := c.eof || er = some .eof }

/-- A write has taken `buf`. -/
def wrote (c : LegConn) (buf : Bytes) : LegConn := { c with sent := c.sent ++ buf }

end LegConn

/-! ## One direction -/

/-- The error that `io.Copy` returns. -/
inductive CopyErr where
  | read
  | write
  | shortWrite
  deriving DecidableEq

/-- The next operation of a copy.  A read or a write that has moved payload is
followed by the `touch` of its wrapper. -/
inductive CopyPc where
  | read
  | touchRead (buf : Bytes) (er : Option ReadErr)
  | write (buf : Bytes) (er : Option ReadErr)
  | touchWrite (nr nw : Nat) (ew : Bool) (er : Option ReadErr)
  | closeWrite
  | close (err : CopyErr)
  -- The send on `done` does not block.
  | finished
  deriving DecidableEq

/-- What the operation of a copy returns. -/
inductive CopyEvent where
  | read (buf : Bytes) (er : Option ReadErr)
  | wrote (nw : Nat) (ew : Bool)
  | next

/-- The buffer that `io.Copy` allocates. -/
def copyBufSize : Nat := 32 * 1024

/-- After the write of what a read has returned, if anything.  `io.Copy` does not
return `io.EOF`, and `activityConn` has the method `CloseWrite`. -/
def afterRead : Option ReadErr → CopyPc
  | none => .read
  | some .eof => .closeWrite
  | some .failed => .close .read

/-- After a write of `nw` of `nr` bytes. -/
def afterWrite (nr nw : Nat) (ew : Bool) (er : Option ReadErr) : CopyPc :=
  if ew then .close .write
  else if nr ≠ nw then .close .shortWrite
  else afterRead er

/-- The two legs, and for each of them the copy that reads from it. -/
structure Relay where
  conn : Leg → LegConn := fun _ => {}
  copy : Leg → CopyPc := fun _ => .read

namespace Relay

def setConn (r : Relay) (leg : Leg) (c : LegConn) : Relay :=
  { r with conn := fun l => if l = leg then c else r.conn l }

def goto (r : Relay) (src : Leg) (pc : CopyPc) : Relay :=
  { r with copy := fun l => if l = src then pc else r.copy l }

/-- `Close` of a leg. -/
def close (r : Relay) (leg : Leg) : Relay :=
  r.setConn leg { r.conn leg with closed := true }

section

variable (r : Relay) (leg src : Leg) (c : LegConn) (pc : CopyPc)

@[simp] theorem conn_goto : (r.goto src pc).conn = r.conn := rfl

@[simp] theorem copy_setConn : (r.setConn leg c).copy = r.copy := rfl

@[simp] theorem copy_close : (r.close leg).copy = r.copy := rfl

theorem copy_goto : (r.goto src pc).copy leg = if leg = src then pc else r.copy leg := rfl

theorem conn_setConn : (r.setConn src c).conn leg = if leg = src then c else r.conn leg := rfl

end

/-- Both copies have sent on `done`. -/
def Finished (r : Relay) : Prop := ∀ src, r.copy src = .finished

instance (r : Relay) : Decidable r.Finished :=
  decidable_of_iff (r.copy .ygg = .finished ∧ r.copy .ip4 = .finished)
    ⟨fun h src => by cases src with | ygg => exact h.1 | ip4 => exact h.2,
      fun h => ⟨h .ygg, h .ip4⟩⟩

/-- What a read of the leg may return: at most a buffer, and nothing but an error
once the leg is closed. -/
def MayRead (c : LegConn) (buf : Bytes) (er : Option ReadErr) : Prop :=
  buf.length ≤ copyBufSize ∧ (c.closed = true → buf = [] ∧ er ≠ none)

/-- What a write to the leg may return: no more than it was given, and an error once
the leg is closed or closed for writing. -/
def MayWrite (c : LegConn) (buf : Bytes) (nw : Nat) (ew : Bool) : Prop :=
  nw ≤ buf.length ∧ (c.closed = true ∨ c.writeClosed = true → nw = 0 ∧ ew = true)

instance (c : LegConn) (buf : Bytes) (er : Option ReadErr) : Decidable (MayRead c buf er) :=
  inferInstanceAs (Decidable (_ ∧ _))

instance (c : LegConn) (buf : Bytes) (nw : Nat) (ew : Bool) : Decidable (MayWrite c buf nw ew) :=
  inferInstanceAs (Decidable (_ ∧ _))

/-- The copy that reads from `src` takes its next operation.  The flag says that the
operation is a `touch`. -/
def copyStep (r : Relay) (src : Leg) (ev : CopyEvent) : Option (Relay × Bool) :=
  match r.copy src, ev with
  | .read, .read buf er =>
    if MayRead (r.conn src) buf er then
      some ((r.setConn src ((r.conn src).read buf er)).goto src
        (if buf = [] then afterRead er else .touchRead buf er), false)
    else none
  | .touchRead buf er, .next => some (r.goto src (.write buf er), true)
  | .write buf er, .wrote nw ew =>
    if MayWrite (r.conn src.other) buf nw ew then
      some ((r.setConn src.other ((r.conn src.other).wrote (buf.take nw))).goto src
        (if nw = 0 then afterWrite buf.length nw ew er else .touchWrite buf.length nw ew er), false)
    else none
  | .touchWrite nr nw ew er, .next => some (r.goto src (afterWrite nr nw ew er), true)
  | .closeWrite, .next =>
    some ((r.setConn src.other { r.conn src.other with writeClosed := true }).goto src .finished,
      false)
  | .close _, .next => some ((r.close src.other).goto src .finished, false)
  | _, _ => none

end Relay

/-! ## The TCP side with its copies -/

/-- Where the cleanup goroutine stands once the service stops: it closes both legs of
every tracked connection. -/
inductive StopPc where
  | running
  | scan (scan : SyncMap.Scan TcpRef TcpRef)
  -- The leg towards Yggdrasil is closed.
  | closeIP4 (scan : SyncMap.Scan TcpRef TcpRef) (r : TcpRef)
  | stopped

structure RelayState where
  tcp : TcpState
  relays : SyncMap TcpRef Relay := ∅
  stop : StopPc := .running

/-- A new service. -/
def RelayState.start (svc : Service) (clock : Int) : RelayState where
  tcp := .start svc clock

/-- Who moves. -/
inductive RelayLabel where
  | core (l : TcpLabel)
  | copy (n : TcpRef) (src : Leg) (ev : CopyEvent)
  -- The reaper closes the leg towards Yggdrasil; its next operation closes the other one.
  | reapYgg
  | stop
  | stopVisit (n : TcpRef)
  | stopNext

namespace RelayState

/-- Where an invocation stands. -/
def pc (s : RelayState) (n : TcpRef) : Option TcpPc := (s.tcp.handlers.lookup n).map TcpHandler.pc

/-- `f` is done to the legs and copies of a connection. -/
def modify (s : RelayState) (n : TcpRef) (f : Relay → Relay) : Option RelayState :=
  (s.relays.lookup n).map fun r => { s with relays := s.relays.insert n (f r) }

/-- The conditions that the copies and the closing put on an operation of the TCP
side.  Payload is moved by the copies only, `proxyTCP` returns when both copies are
finished, the reaper closes the second leg after the first one, and it does not run
once the service stops. -/
def admits (s : RelayState) : TcpLabel → Bool
  | .transfer _ => false
  | .handler n _ =>
    match s.pc n with
    | some .proxyTCP => (s.relays.lookup n).any fun r => decide r.Finished
    | _ => true
  | .tick | .visit _ =>
    match s.stop with
    | .running => true
    | _ => false
  | .reap =>
    match s.stop, s.tcp.reaper with
    | .running, .close _ _ n => (s.relays.lookup n).any fun r => (r.conn .ygg).closed
    | .running, _ => true
    | _, _ => false
  | _ => true

/-- What an operation of the TCP side does to the connections: `trackTCP` is followed
by `proxyTCP`, and the reaper closes a leg. -/
def relaysAfter (s : RelayState) : TcpLabel → SyncMap TcpRef Relay
  | .handler n _ =>
    match s.pc n with
    | some .trackTCP => s.relays.insert n {}
    | _ => s.relays
  | .reap =>
    match s.tcp.reaper with
    | .close _ _ n => s.relays.put n ((s.relays.lookup n).map (Relay.close · .ip4))
    | _ => s.relays
  | _ => s.relays

end RelayState

/-- One operation of one of the parties. -/
def relayStep (s : RelayState) : RelayLabel → Option RelayState
  | .core l =>
    if s.admits l then
      (tcpStep s.tcp l).map fun tcp => { s with tcp, relays := s.relaysAfter l }
    else none
  | .copy n src ev =>
    (s.relays.lookup n).bind fun r => (r.copyStep src ev).bind fun x =>
      let relays := s.relays.insert n x.1
      if x.2 then (tcpStep s.tcp (.transfer n)).map fun tcp => { s with tcp, relays }
      else some { s with relays }
  | .reapYgg =>
    match s.tcp.reaper with
    | .close _ _ n => s.modify n (Relay.close · .ygg)
    | _ => none
  | .stop =>
    match s.stop, s.tcp.reaper with
    | .running, .idle => some { s with stop := .scan (SyncMap.Scan.begin s.tcp.mem.tcpConns) }
    | _, _ => none
  | .stopVisit n =>
    match s.stop with
    | .scan scan =>
      if n ∈ scan.visited then none
      else (s.tcp.mem.tcpConns.lookup n).bind fun n' =>
        { s with stop := .closeIP4 (scan.visit n) n' }.modify n' (Relay.close · .ygg)
    | _ => none
  | .stopNext =>
    match s.stop with
    | .scan scan =>
      if scan.Complete s.tcp.mem.tcpConns then some { s with stop := .stopped } else none
    | .closeIP4 scan n => { s with stop := .scan scan }.modify n (Relay.close · .ip4)
    | _ => none

/-! ## What a step changes -/

/-- One operation of a copy, case by case. -/
inductive CopyMove (r : Relay) (src : Leg) : Relay → Prop where
  | read {buf : Bytes} {er : Option ReadErr} (hpc : r.copy src = .read)
      (hread : Relay.MayRead (r.conn src) buf er) : CopyMove r src
        ((r.setConn src ((r.conn src).read buf er)).goto src
          (if buf = [] then afterRead er else .touchRead buf er))
  | touchRead {buf : Bytes} {er : Option ReadErr} (hpc : r.copy src = .touchRead buf er) :
      CopyMove r src (r.goto src (.write buf er))
  | write {buf : Bytes} {er : Option ReadErr} {nw : Nat} {ew : Bool}
      (hpc : r.copy src = .write buf er)
      (hwrite : Relay.MayWrite (r.conn src.other) buf nw ew) : CopyMove r src
        ((r.setConn src.other ((r.conn src.other).wrote (buf.take nw))).goto src
          (if nw = 0 then afterWrite buf.length nw ew er else .touchWrite buf.length nw ew er))
  | touchWrite {nr nw : Nat} {ew : Bool} {er : Option ReadErr}
      (hpc : r.copy src = .touchWrite nr nw ew er) :
      CopyMove r src (r.goto src (afterWrite nr nw ew er))
  | closeWrite (hpc : r.copy src = .closeWrite) : CopyMove r src
      ((r.setConn src.other { r.conn src.other with writeClosed := true }).goto src .finished)
  | close {err : CopyErr} (hpc : r.copy src = .close err) :
      CopyMove r src ((r.close src.other).goto src .finished)

theorem Relay.copyStep_move {r r' : Relay} {src : Leg} {ev : CopyEvent} {touched : Bool}
    (h : r.copyStep src ev = some (r', touched)) : CopyMove r src r' := by
  unfold Relay.copyStep at h
  split at h
  · next buf er hpc =>
    by_cases hread : Relay.MayRead (r.conn src) buf er
    · rw [if_pos hread] at h
      obtain ⟨rfl, -⟩ := Prod.mk.inj (Option.some.inj h)
      exact .read hpc hread
    · rw [if_neg hread] at h
      cases h
  · next hpc =>
    obtain ⟨rfl, -⟩ := Prod.mk.inj (Option.some.inj h)
    exact .touchRead hpc
  · next buf er nw ew hpc =>
    by_cases hwrite : Relay.MayWrite (r.conn src.other) buf nw ew
    · rw [if_pos hwrite] at h
      obtain ⟨rfl, -⟩ := Prod.mk.inj (Option.some.inj h)
      exact .write hpc hwrite
    · rw [if_neg hwrite] at h
      cases h
  · next hpc =>
    obtain ⟨rfl, -⟩ := Prod.mk.inj (Option.some.inj h)
    exact .touchWrite hpc
  · next hpc =>
    obtain ⟨rfl, -⟩ := Prod.mk.inj (Option.some.inj h)
    exact .closeWrite hpc
  · next hpc =>
    obtain ⟨rfl, -⟩ := Prod.mk.inj (Option.some.inj h)
    exact .close hpc
  · cases h

/-! ## What one direction carries -/

/-- What has gone out is the beginning of what has come in, and at most a buffer is
missing. -/
def Behind (src dst : LegConn) : Prop :=
  dst.sent <+: src.received ∧ src.received.length ≤ dst.sent.length + copyBufSize

/-- What a copy that stands at `pc` has made of the leg that it reads from and of the
leg that it writes to. -/
def CopyPc.Carries : CopyPc → LegConn → LegConn → Prop
  | .read, src, dst => dst.sent = src.received ∧ src.eof = false ∧ dst.writeClosed = false
  | .touchRead buf er, src, dst | .write buf er, src, dst =>
    buf.length ≤ copyBufSize ∧ dst.sent ++ buf = src.received ∧
      src.eof = decide (er = some .eof) ∧ dst.writeClosed = false
  | .touchWrite nr nw _ er, src, dst =>
    Behind src dst ∧ (nr = nw → dst.sent = src.received) ∧
      src.eof = decide (er = some .eof) ∧ dst.writeClosed = false
  | .closeWrite, src, dst => dst.sent = src.received ∧ src.eof = true ∧ dst.writeClosed = false
  | .close _, src, dst => Behind src dst ∧ dst.writeClosed = false
  | .finished, src, dst =>
    Behind src dst ∧ (dst.writeClosed = true → src.eof = true ∧ dst.sent = src.received) ∧
      (dst.writeClosed = true ∨ dst.closed = true)

/-- Each direction looks at what has come in on one leg and gone out on the other
one. -/
theorem CopyPc.Carries.congr {pc : CopyPc} {src dst src' dst' : LegConn} (h : pc.Carries src dst)
    (hreceived : src'.received = src.received) (heof : src'.eof = src.eof)
    (hsent : dst'.sent = dst.sent) (hwrite : dst'.writeClosed = dst.writeClosed)
    (hclosed : dst.closed = true → dst'.closed = true) : pc.Carries src' dst' := by
  cases pc with
  | finished =>
    simp only [Carries, Behind, hreceived, heof, hsent, hwrite] at h ⊢
    exact ⟨h.1, h.2.1, h.2.2.imp_right hclosed⟩
  | _ =>
    simp only [Carries, Behind, hreceived, heof, hsent, hwrite] at h ⊢
    exact h

theorem Behind.of_eq {src dst : LegConn} (h : dst.sent = src.received) : Behind src dst := by
  unfold Behind
  rw [h]
  exact ⟨List.prefix_refl _, by omega⟩

theorem afterRead_carries {src dst : LegConn} {er : Option ReadErr}
    (hsent : dst.sent = src.received) (heof : src.eof = decide (er = some .eof))
    (hwrite : dst.writeClosed = false) : (afterRead er).Carries src dst := by
  cases er with
  | none => exact ⟨hsent, by simpa using heof, hwrite⟩
  | some e =>
    cases e with
    | eof => exact ⟨hsent, by simpa using heof, hwrite⟩
    | failed => exact ⟨.of_eq hsent, hwrite⟩

theorem afterWrite_carries {src dst : LegConn} {nr nw : Nat} {er : Option ReadErr}
    (hbehind : Behind src dst) (hsent : nr = nw → dst.sent = src.received)
    (heof : src.eof = decide (er = some .eof)) (hwrite : dst.writeClosed = false) (ew : Bool) :
    (afterWrite nr nw ew er).Carries src dst := by
  unfold afterWrite
  by_cases hew : ew = true
  · rw [if_pos hew]
    exact ⟨hbehind, hwrite⟩
  · rw [if_neg hew]
    by_cases hshort : nr ≠ nw
    · rw [if_pos hshort]
      exact ⟨hbehind, hwrite⟩
    · rw [if_neg hshort]
      exact afterRead_carries (hsent (not_not.1 hshort)) heof hwrite

theorem Behind.wrote {src dst : LegConn} {buf : Bytes} (hlen : buf.length ≤ copyBufSize)
    (h : dst.sent ++ buf = src.received) (nw : Nat) : Behind src (dst.wrote (buf.take nw)) := by
  have htake : dst.sent ++ buf.take nw ++ buf.drop nw = src.received := by
    rw [List.append_assoc, List.take_append_drop, h]
  refine ⟨⟨_, htake⟩, ?_⟩
  have := congrArg List.length htake
  simp only [List.length_append, List.length_drop] at this
  simp only [LegConn.wrote, List.length_append]
  omega

/-- Both directions of a connection. -/
def Relay.Carries (r : Relay) : Prop :=
  ∀ src, (r.copy src).Carries (r.conn src) (r.conn src.other)

theorem Relay.Carries.init : Relay.Carries {} := fun _ => ⟨rfl, rfl, rfl⟩

/-- The direction that moves. -/
theorem CopyMove.carries {r r' : Relay} {src : Leg} (hmove : CopyMove r src r')
    (h : (r.copy src).Carries (r.conn src) (r.conn src.other)) :
    (r'.copy src).Carries (r'.conn src) (r'.conn src.other) := by
  cases hmove with
  | @read buf er hpc hread =>
    rw [hpc] at h
    obtain ⟨hsent, heof, hwrite⟩ := h
    simp only [Relay.copy_goto, Relay.conn_goto, Relay.conn_setConn, if_true, Leg.other_ne,
      if_false]
    have hreceived : ((r.conn src).read buf er).received = (r.conn src).received ++ buf := rfl
    have heof' : ((r.conn src).read buf er).eof = decide (er = some .eof) := by
      simp [LegConn.read, heof]
    by_cases hbuf : buf = []
    · rw [if_pos hbuf]
      exact afterRead_carries (by rw [hreceived, hbuf, hsent, List.append_nil]) heof' hwrite
    · rw [if_neg hbuf]
      exact ⟨hread.1, by rw [hreceived, hsent], heof', hwrite⟩
  | touchRead hpc =>
    rw [hpc] at h
    simp only [Relay.copy_goto, Relay.conn_goto, if_true]
    exact h
  | @write buf er nw ew hpc hwrite =>
    rw [hpc] at h
    obtain ⟨hlen, hsent, heof, hopen⟩ := h
    have hbehind := Behind.wrote hlen hsent nw
    have hall : buf.length = nw →
        ((r.conn src.other).wrote (buf.take nw)).sent = (r.conn src).received := by
      intro hnw
      rw [← hnw, List.take_length]
      exact hsent
    simp only [Relay.copy_goto, Relay.conn_goto, Relay.conn_setConn, if_true, Leg.ne_other,
      if_false]
    by_cases hnw : nw = 0
    · rw [if_pos hnw]
      exact afterWrite_carries hbehind hall heof hopen ew
    · rw [if_neg hnw]
      exact ⟨hbehind, hall, heof, hopen⟩
  | touchWrite hpc =>
    rw [hpc] at h
    obtain ⟨hbehind, hsent, heof, hopen⟩ := h
    simpa [Relay.copy_goto] using afterWrite_carries hbehind hsent heof hopen _
  | closeWrite hpc =>
    rw [hpc] at h
    obtain ⟨hsent, heof, -⟩ := h
    simp only [Relay.copy_goto, Relay.conn_goto, Relay.conn_setConn, if_true, Leg.ne_other,
      if_false]
    exact ⟨.of_eq hsent, fun _ => ⟨heof, hsent⟩, .inl rfl⟩
  | close hpc =>
    rw [hpc] at h
    obtain ⟨hbehind, hopen⟩ := h
    simp only [Relay.copy_goto, Relay.conn_goto, Relay.close, Relay.conn_setConn, if_true,
      Leg.ne_other, if_false]
    exact ⟨hbehind, fun hwrite => absurd hwrite (by simp [hopen]), .inr rfl⟩

/-- A `Close` takes nothing back. -/
theorem Relay.Carries.close {r : Relay} (h : r.Carries) (leg : Leg) : (r.close leg).Carries := by
  intro src
  refine (h src).congr ?_ ?_ ?_ ?_ ?_
  all_goals
    simp only [Relay.close, Relay.conn_setConn]
    split <;> simp_all

theorem CopyMove.carries_other {r r' : Relay} {src : Leg} (hmove : CopyMove r src r')
    (h : (r.copy src.other).Carries (r.conn src.other) (r.conn src)) :
    (r'.copy src.other).Carries (r'.conn src.other) (r'.conn src) := by
  have hcopy : r'.copy src.other = r.copy src.other := by
    cases hmove <;> simp [Relay.copy_goto]
  rw [hcopy]
  refine h.congr ?_ ?_ ?_ ?_ ?_
  all_goals
    cases hmove <;> simp [Relay.close, Relay.conn_setConn, LegConn.read, LegConn.wrote]

theorem Relay.Carries.copy {r r' : Relay} {src : Leg} (h : r.Carries) (hmove : CopyMove r src r') :
    r'.Carries := by
  intro leg
  obtain rfl | rfl := leg.eq_or_eq_other src
  · exact hmove.carries (h leg)
  · have hother := h src.other
    rw [Leg.other_other] at hother ⊢
    exact hmove.carries_other hother

/-! ## The whole system -/

/-- One operation of the system, case by case. -/
inductive RelayChange (s : RelayState) : RelayLabel → RelayState → Prop where
  | core {l : TcpLabel} {tcp : TcpState} (hadmits : s.admits l = true)
      (hstep : tcpStep s.tcp l = some tcp) :
      RelayChange s (.core l) { s with tcp, relays := s.relaysAfter l }
  | copy {n : TcpRef} {src : Leg} {ev : CopyEvent} {r r' : Relay}
      (hr : s.relays.lookup n = some r) (hcopy : r.copyStep src ev = some (r', false)) :
      RelayChange s (.copy n src ev) { s with relays := s.relays.insert n r' }
  | touch {n : TcpRef} {src : Leg} {ev : CopyEvent} {r r' : Relay} {tcp : TcpState}
      (hr : s.relays.lookup n = some r) (hcopy : r.copyStep src ev = some (r', true))
      (hstep : tcpStep s.tcp (.transfer n) = some tcp) :
      RelayChange s (.copy n src ev) { s with tcp, relays := s.relays.insert n r' }
  | reapYgg {n : TcpRef} {r : Relay} (hr : s.relays.lookup n = some r) :
      RelayChange s .reapYgg { s with relays := s.relays.insert n (r.close .ygg) }
  | stop : RelayChange s .stop { s with stop := .scan (SyncMap.Scan.begin s.tcp.mem.tcpConns) }
  | stopVisit {scan : SyncMap.Scan TcpRef TcpRef} {n n' : TcpRef} {r : Relay}
      (hr : s.relays.lookup n' = some r) : RelayChange s (.stopVisit n)
        { s with stop := .closeIP4 (scan.visit n) n', relays := s.relays.insert n' (r.close .ygg) }
  | stopClose {scan : SyncMap.Scan TcpRef TcpRef} {n : TcpRef} {r : Relay}
      (hr : s.relays.lookup n = some r) : RelayChange s .stopNext
        { s with stop := .scan scan, relays := s.relays.insert n (r.close .ip4) }
  | stopped : RelayChange s .stopNext { s with stop := .stopped }

theorem relayStep_change {s s' : RelayState} {l : RelayLabel} (h : relayStep s l = some s') :
    RelayChange s l s' := by
  cases l with
  | core l =>
    simp only [relayStep] at h
    split_ifs at h with hadmits
    obtain ⟨tcp, hstep, rfl⟩ := Option.map_eq_some_iff.1 h
    exact .core hadmits hstep
  | copy n src ev =>
    obtain ⟨r, hr, h⟩ := Option.bind_eq_some_iff.1 h
    obtain ⟨⟨r', touched⟩, hcopy, h⟩ := Option.bind_eq_some_iff.1 h
    cases touched with
    | false =>
      obtain rfl := Option.some.inj h
      exact .copy hr hcopy
    | true =>
      obtain ⟨tcp, hstep, rfl⟩ := Option.map_eq_some_iff.1 h
      exact .touch hr hcopy hstep
  | reapYgg =>
    simp only [relayStep] at h
    split at h
    · obtain ⟨r, hr, rfl⟩ := Option.map_eq_some_iff.1 h
      exact .reapYgg hr
    · cases h
  | stop =>
    simp only [relayStep] at h
    split at h
    · obtain rfl := Option.some.inj h
      exact .stop
    · cases h
  | stopVisit n =>
    simp only [relayStep] at h
    split at h
    · split_ifs at h
      obtain ⟨n', _, h⟩ := Option.bind_eq_some_iff.1 h
      obtain ⟨r, hr, rfl⟩ := Option.map_eq_some_iff.1 h
      exact .stopVisit hr
    · cases h
  | stopNext =>
    simp only [relayStep] at h
    split at h
    · split_ifs at h
      obtain rfl := Option.some.inj h
      exact .stopped
    · obtain ⟨r, hr, rfl⟩ := Option.map_eq_some_iff.1 h
      exact .stopClose hr
    · cases h

theorem relayStep_core {s s' : RelayState} {l : RelayLabel} (h : relayStep s l = some s') :
    s'.tcp = s.tcp ∨ ∃ l', tcpStep s.tcp l' = some s'.tcp := by
  cases relayStep_change h with
  | core _ hstep | touch _ _ hstep => exact .inr ⟨_, hstep⟩
  | _ => exact .inl rfl

/-- What one operation does to a connection. -/
inductive RelayMove (r : Relay) : Relay → Prop where
  | same : RelayMove r r
  | close (leg : Leg) : RelayMove r (r.close leg)
  | copy {src : Leg} {r' : Relay} (hmove : CopyMove r src r') : RelayMove r r'

/-- `trackTCP` is followed by `proxyTCP`. -/
theorem tcpStep_trackTCP {s s' : TcpState} {n : TcpRef} {ok : Bool}
    (hpc : (s.handlers.lookup n).map TcpHandler.pc = some .trackTCP)
    (h : tcpStep s (.handler n ok) = some s') :
    (s'.handlers.lookup n).map TcpHandler.pc = some .proxyTCP := by
  obtain ⟨hd, hl, hpc⟩ := Option.map_eq_some_iff.1 hpc
  simp only [tcpStep, hl, Option.bind_some, handlerStep, hpc, Option.map_some] at h
  obtain rfl := Option.some.inj h
  simp [SyncMap.lookup_put]

/-- A connection after an operation is a new one, or has made one of its moves. -/
theorem relayStep_relays {s s' : RelayState} {l : RelayLabel} (h : relayStep s l = some s')
    {n : TcpRef} {r' : Relay} (hr' : s'.relays.lookup n = some r') :
    (r' = {} ∧ s'.pc n = some .proxyTCP) ∨
      ∃ r, s.relays.lookup n = some r ∧ RelayMove r r' := by
  have hinsert : ∀ {m : TcpRef} {r x : Relay}, s.relays.lookup m = some r → RelayMove r x →
      (s.relays.insert m x).lookup n = some r' →
      ∃ r, s.relays.lookup n = some r ∧ RelayMove r r' := by
    intro m r x hr hmove hx
    rw [SyncMap.lookup_insert_eq_ite] at hx
    split_ifs at hx with hn
    · obtain rfl := Option.some.inj hx
      exact ⟨r, hn ▸ hr, hmove⟩
    · exact ⟨r', hx, .same⟩
  cases relayStep_change h with
  | @core l tcp hadmits hstep =>
    cases l with
    | handler m ok =>
      simp only [RelayState.relaysAfter] at hr'
      split at hr'
      · next hpc =>
        rw [SyncMap.lookup_insert_eq_ite] at hr'
        split_ifs at hr' with hn
        · subst hn
          exact .inl ⟨(Option.some.inj hr').symm, tcpStep_trackTCP hpc hstep⟩
        · exact .inr ⟨r', hr', .same⟩
      · exact .inr ⟨r', hr', .same⟩
    | reap =>
      simp only [RelayState.relaysAfter] at hr'
      split at hr'
      · next m hreaper =>
        rw [SyncMap.lookup_put] at hr'
        split_ifs at hr' with hn
        · obtain ⟨r, hr, rfl⟩ := Option.map_eq_some_iff.1 hr'
          exact .inr ⟨r, hn ▸ hr, .close _⟩
        · exact .inr ⟨r', hr', .same⟩
      · exact .inr ⟨r', hr', .same⟩
    | _ => exact .inr ⟨r', hr', .same⟩
  | copy hr hcopy | touch hr hcopy =>
    exact .inr (hinsert hr (.copy (Relay.copyStep_move hcopy)) hr')
  | reapYgg hr | stopVisit hr | stopClose hr => exact .inr (hinsert hr (.close _) hr')
  | stop | stopped => exact .inr ⟨r', hr', .same⟩

theorem Relay.Carries.move {r r' : Relay} (h : r.Carries) (hmove : RelayMove r r') :
    r'.Carries := by
  cases hmove with
  | same => exact h
  | close leg => exact h.close leg
  | copy hmove => exact h.copy hmove

theorem Relay.Finished.move {r r' : Relay} (h : r.Finished) (hmove : RelayMove r r') :
    r'.Finished := by
  cases hmove with
  | same => exact h
  | close leg => exact h
  | @copy src _ hmove =>
    have hsrc := h src
    cases hmove <;> simp_all

/-- Where the invocation `n` stands after a step of the TCP side. -/
theorem tcpStep_handler {s s' : TcpState} {l : TcpLabel} (h : tcpStep s l = some s') (n : TcpRef) :
    s'.handlers.lookup n = s.handlers.lookup n ∨ n = s.nextRef ∨ ∃ ok, l = .handler n ok := by
  cases tcpStep_change h with
  | syn =>
    by_cases hn : n = s.nextRef
    · exact .inr (.inl hn)
    · exact .inl (by simp [hn])
  | @handler m ok hd _ o hlabel =>
    by_cases hn : n = m
    · exact .inr (.inr ⟨ok, by rw [hlabel, hn]⟩)
    · exact .inl (by simp [SyncMap.lookup_put, hn])
  | _ => exact .inl rfl

/-- What holds of the connections in every state: the accounts of the TCP side, and
an invocation that is not in `proxyTCP` any more has waited for both copies. -/
structure RelayInv (s : RelayState) : Prop where
  accounts : Accounting s.tcp.mem.svc.tcpSem s.tcp
  carries : ∀ n r, s.relays.lookup n = some r → r.Carries
  joined : ∀ n r, s.relays.lookup n = some r → s.pc n = some .proxyTCP ∨ r.Finished

namespace RelayInv

variable {s s' : RelayState} {l : RelayLabel}

theorem start (svc : Service) (clock : Int) : RelayInv (.start svc clock) where
  accounts := .start svc clock
  carries _ _ h := by cases h
  joined _ _ h := by cases h

theorem accounts_step (h : RelayInv s) (hstep : relayStep s l = some s') :
    Accounting s'.tcp.mem.svc.tcpSem s'.tcp := by
  obtain hsame | ⟨l', hcore⟩ := relayStep_core hstep
  · rw [hsame]
    exact h.accounts
  · have hacc := h.accounts.step hcore
    exact hacc.tcpSem.symm ▸ hacc

/-- An invocation leaves `proxyTCP` when both copies have ended. -/
theorem pc_step (h : RelayInv s) (hstep : relayStep s l = some s') {n : TcpRef}
    (hpc : s.pc n = some .proxyTCP) :
    s'.pc n = some .proxyTCP ∨ ∃ r, s.relays.lookup n = some r ∧ r.Finished := by
  have hsame : ∀ {tcp : TcpState}, tcp.handlers.lookup n = s.tcp.handlers.lookup n →
      (tcp.handlers.lookup n).map TcpHandler.pc = some .proxyTCP := by
    intro tcp htcp
    rw [htcp]
    exact hpc
  have hold : n ≠ s.tcp.nextRef := by
    obtain ⟨hd, hl, -⟩ := Option.map_eq_some_iff.1 hpc
    exact (h.accounts.fresh n hd hl).ne
  cases relayStep_change hstep with
  | @core l tcp hadmits hcore =>
    obtain hl | hl | ⟨ok, rfl⟩ := tcpStep_handler hcore n
    · exact .inl (hsame hl)
    · exact absurd hl hold
    · simp only [RelayState.admits, hpc, Option.any_eq_true] at hadmits
      obtain ⟨r, hr, hfin⟩ := hadmits
      exact .inr ⟨r, hr, of_decide_eq_true hfin⟩
  | touch _ _ hcore =>
    obtain hl | hl | ⟨ok, hl⟩ := tcpStep_handler hcore n
    · exact .inl (hsame hl)
    · exact absurd hl hold
    · cases hl
  | _ => exact .inl hpc

theorem step (h : RelayInv s) (hstep : relayStep s l = some s') : RelayInv s' where
  accounts := h.accounts_step hstep
  carries n r' hr' := by
    obtain ⟨rfl, -⟩ | ⟨r, hr, hmove⟩ := relayStep_relays hstep hr'
    · exact .init
    · exact (h.carries n r hr).move hmove
  joined n r' hr' := by
    obtain ⟨-, hpc⟩ | ⟨r, hr, hmove⟩ := relayStep_relays hstep hr'
    · exact .inl hpc
    · obtain hpc | hfin := h.joined n r hr
      · obtain hpc' | ⟨r₀, hr₀, hfin⟩ := h.pc_step hstep hpc
        · exact .inl hpc'
        · obtain rfl := Option.some.inj (hr.symm.trans hr₀)
          exact .inr (hfin.move hmove)
      · exact .inr (hfin.move hmove)

theorem of_run {svc : Service} {clock : Int} {ls : List RelayLabel}
    (hrun : run relayStep (.start svc clock) ls = some s) : RelayInv s :=
  run_invariant_of_step (fun _ _ _ hi hl => hi.step hl) (.start svc clock) hrun

end RelayInv

/-- One direction of a connection, from the leg `src` to the other one. -/
structure Transparent (r : Relay) (src : Leg) : Prop where
  /-- What has gone out is what came in, in order and from the first byte on. -/
  in_order : (r.conn src.other).sent <+: (r.conn src).received
  /-- At most one buffer is on its way, or lost with a copy that failed. -/
  buffered : (r.conn src).received.length ≤ (r.conn src.other).sent.length + copyBufSize
  /-- Nothing is held back while the copy waits for more. -/
  flushed : r.copy src = .read → (r.conn src.other).sent = (r.conn src).received
  /-- The end of the stream is passed on if it was found, after the last byte. -/
  half_closed : (r.conn src.other).writeClosed = true →
    (r.conn src).eof = true ∧ (r.conn src.other).sent = (r.conn src).received
  /-- A copy that has ended has told the other side. -/
  ended : r.copy src = .finished →
    (r.conn src.other).writeClosed = true ∨ (r.conn src.other).closed = true

theorem CopyPc.Carries.behind {pc : CopyPc} {src dst : LegConn} (h : pc.Carries src dst) :
    Behind src dst := by
  cases pc with
  | read | closeWrite => exact .of_eq h.1
  | touchRead buf er | write buf er => exact ⟨⟨buf, h.2.1⟩, by simp [← h.2.1, h.1]⟩
  | touchWrite | close | finished => exact h.1

theorem CopyPc.Carries.half_closed {pc : CopyPc} {src dst : LegConn} (h : pc.Carries src dst)
    (hwrite : dst.writeClosed = true) : src.eof = true ∧ dst.sent = src.received := by
  cases pc with
  | finished => exact h.2.1 hwrite
  | _ => simp_all [Carries]

theorem Relay.Carries.each {r : Relay} (h : r.Carries) (src : Leg) : Transparent r src where
  in_order := (h src).behind.1
  buffered := (h src).behind.2
  flushed hpc := by
    have hsrc := h src
    rw [hpc] at hsrc
    exact hsrc.1
  half_closed hwrite := (h src).half_closed hwrite
  ended hpc := by
    have hsrc := h src
    rw [hpc] at hsrc
    exact hsrc.2.2

/-- In every run, whoever closes what and whenever, both directions of every
connection are transparent, and the invocation takes the connection down only after
both copies have ended. -/
theorem relay_transparent (svc : Service) (clock : Int) (ls : List RelayLabel) (s : RelayState)
    (hrun : run relayStep (.start svc clock) ls = some s) (n : TcpRef) (r : Relay)
    (hr : s.relays.lookup n = some r) :
    (∀ src, Transparent r src) ∧ (s.pc n ≠ some .proxyTCP → r.Finished) := by
  have hinv := RelayInv.of_run hrun
  refine ⟨(hinv.carries n r hr).each, fun hpc => ?_⟩
  exact (hinv.joined n r hr).resolve_left hpc

/-- One copy of a connection takes these operations. -/
def copies (n : TcpRef) (src : Leg) (evs : List CopyEvent) : List RelayLabel :=
  evs.map (.copy n src)

/-- A connection is set up and copies. -/
def proxied : List RelayLabel := ([sampleSyn 1000] ++ advances 0 10).map .core

/-- The client sends a request and closes its side, and gets a response. -/
def requestResponse : List RelayLabel :=
  proxied ++
    copies 0 .ygg [.read [1, 2] none, .next, .wrote 2 false, .next, .read [] (some .eof), .next] ++
    copies 0 .ip4 [.read [3] none, .next, .wrote 1 false, .next]

/-- The client has closed its side, the server has seen that, and the response has
reached the client. -/
theorem relay_transparent_requestResponse :
    ∃ svc ∈ (newService asciiCase (poolConfig "300:1:2:3::/96") ["200::/7"] []).toOption,
      ∃ s ∈ run relayStep (.start svc 0) requestResponse, ∃ r ∈ s.relays.lookup 0,
        (r.conn .ip4 = { received := [3], sent := [1, 2], writeClosed := true } ∧
          (r.conn .ygg).sent = [3] ∧ r.copy .ip4 = .read) ∧
        (∀ src, Transparent r src) ∧ (s.pc 0 ≠ some .proxyTCP → r.Finished) := by
  have hrun : ∃ svc ∈ (newService asciiCase (poolConfig "300:1:2:3::/96") ["200::/7"] []).toOption,
      ∃ s ∈ run relayStep (.start svc 0) requestResponse, ∃ r ∈ s.relays.lookup 0,
        r.conn .ip4 = { received := [3], sent := [1, 2], writeClosed := true } ∧
          (r.conn .ygg).sent = [3] ∧ r.copy .ip4 = .read := by
    decide +kernel
  obtain ⟨svc, hsvc, s, hs, r, hr, hstate⟩ := hrun
  exact ⟨svc, hsvc, s, hs, r, hr, hstate, relay_transparent svc 0 requestResponse s hs 0 r hr⟩

end Ydn64.Nat64
