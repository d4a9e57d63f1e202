import Mathlib.Algebra.BigOperators.Group.List.Basic
import Mathlib.Algebra.Order.Ring.Int
import Ydn64.Lib.Run

/-!
# The read loop of the network interface

`readLoop` (`src/netstack/yggdrasil.go`) reads frames from the Yggdrasil transport.
A failed read is retried after a backoff, and once reads have been failing for
the grace period the loop cancels the process and ends.  The function to cancel
with and the grace period are fields that `SuperviseReadLoop` fills in, and the
loop is running before that call.

The loop is a machine whose states are the places where another goroutine can
come in between: the read, the look at `readStop`, the copy of the fields under
the lock, the verdict on that copy, the wait.  `waited` and `invoked` are no
fields of the source: they record the backoffs since the last good read and the
cancel functions that the loop has called.

* `Paced` ties the two numbers of the loop to that record: `brokenFor` is the sum
  of the backoffs, and the next backoff is the doubled one, up to a second.
* `Heard` is what the verdict rests on.  A copy without a cancel function ends
  the loop as well, once the grace period is over; before `SuperviseReadLoop` it is
  zero, so the first failed read ends the loop (`unsupervised_read_error_deafens`).
* `never_deaf` is about the runs in which no failed read finds the fields so;
  `never_deaf_of_supervised` gives such runs.
-/

namespace Ydn64.Netstack

open Ydn64.Lib

/-! ## The loop -/

/-- `DefaultReadFailGrace`. -/
def defaultReadFailGrace : Int := 30000000000

def readRetryInitialBackoff : Int := 10000000

def readRetryMaxBackoff : Int := 1000000000

/-- Where a log line goes. -/
inductive Logger where
  | stderr
  | service
  deriving DecidableEq

/-- The log lines of the loop. -/
inductive ReadLog where
  /-- `yggdrasil NIC read error (retrying in %v, broken for %v so far)`. -/
  | readError (backoff brokenFor : Int)
  /-- `yggdrasil NIC read loop giving up after ~%v of consecutive failures`. -/
  | givingUp (brokenFor : Int)
  deriving DecidableEq

/-- The fields of the netstack that supervise the loop. -/
structure Supervision where
  cancelRoot : Option Nat := none
  grace : Int := 0
  logf : Option Logger := none
  deriving DecidableEq

/-- `SuperviseReadLoop`. -/
def Supervision.superviseReadLoop (cancel : Option Nat) (logf : Option Logger) (grace : Int) :
    Supervision where
  cancelRoot := cancel
  grace := if grace ≤ 0 then defaultReadFailGrace else grace
  logf := some (logf.getD .stderr)

/-- What `CreateYdn64Netstack` leaves. -/
def Supervision.created : Supervision := { logf := some .stderr }

/-- Where the loop is. -/
inductive ReadPc where
  | read
  | checkStop
  | copyFields
  | judge (seen : Supervision)
  | wait
  | returned
  deriving DecidableEq

/-- The loop and what it shares. -/
structure ReadState where
  sup : Supervision := .created
  /-- `readStop` is closed. -/
  readStop : Bool := false
  pc : ReadPc := .read
  backoff : Int := readRetryInitialBackoff
  brokenFor : Int := 0
  logged : List (Logger × ReadLog) := []
  /-- The backoffs that were waited since the last good read, the last one first. -/
  waited : List Int := []
  /-- The cancel functions that the loop has called, the last one first. -/
  invoked : List Nat := []
  deriving DecidableEq

inductive ReadLabel where
  /-- `Read` returns, with or without an error. -/
  | read (ok : Bool)
  | checkStop
  | copyFields
  | judge
  /-- The timer fires. -/
  | timer
  /-- The wait ends because `readStop` is closed. -/
  | stopped
  | superviseReadLoop (cancel : Option Nat) (logf : Option Logger) (grace : Int)
  | closeStop
  deriving DecidableEq

namespace ReadState

/-- A line for the logger, if there is one. -/
def log (s : ReadState) (logf : Option Logger) (line : ReadLog) : ReadState :=
  { s with logged := logf.toList.map (·, line) ++ s.logged }

/-- A good read.  `deliverInbound` touches nothing of the loop. -/
def recover (s : ReadState) : ReadState :=
  { s with backoff := readRetryInitialBackoff, brokenFor := 0, waited := [] }

/-- The loop gives up. -/
def giveUp (s : ReadState) (seen : Supervision) : ReadState :=
  { s.log seen.logf (.givingUp s.brokenFor) with
    invoked := seen.cancelRoot.toList ++ s.invoked
    pc := .returned }

/-- What the loop does with the fields that it has copied. -/
def judge (s : ReadState) (seen : Supervision) : ReadState :=
  let s := s.log seen.logf (.readError s.backoff (s.brokenFor + s.backoff))
  if seen.grace ≤ s.brokenFor + s.backoff then s.giveUp seen else { s with pc := .wait }

/-- The end of a round. -/
def backOff (s : ReadState) : ReadState :=
  { s with
    brokenFor := s.brokenFor + s.backoff
    backoff :=
      if readRetryMaxBackoff < s.backoff * 2 then readRetryMaxBackoff else s.backoff * 2
    waited := s.backoff :: s.waited
    pc := .read }

end ReadState

/-- One step of the loop or of a goroutine beside it. -/
def readStep (s : ReadState) : ReadLabel → Option ReadState
  | .read ok =>
    match s.pc with
    | .read => some (if ok then s.recover else { s with pc := .checkStop })
    | _ => none
  | .checkStop =>
    match s.pc with
    | .checkStop => some { s with pc := if s.readStop then .returned else .copyFields }
    | _ => none
  | .copyFields =>
    match s.pc with
    | .copyFields => some { s with pc := .judge s.sup }
    | _ => none
  | .judge =>
    match s.pc with
    | .judge seen => some (s.judge seen)
    | _ => none
  | .timer =>
    match s.pc with
    | .wait => some s.backOff
    | _ => none
  | .stopped =>
    match s.pc with
    | .wait => if s.readStop then some { s with pc := .returned } else none
    | _ => none
  | .superviseReadLoop cancel logf grace =>
    some { s with sup := .superviseReadLoop cancel logf grace }
  | .closeStop => some { s with readStop := true }

/-- The moves of the loop and of the goroutines beside it. -/
inductive ReadMove (s : ReadState) : ReadLabel → ReadState → Prop where
  | good (hpc : s.pc = .read) : ReadMove s (.read true) s.recover
  | failed (hpc : s.pc = .read) : ReadMove s (.read false) { s with pc := .checkStop }
  | stop (hpc : s.pc = .checkStop) (hstop : s.readStop = true) :
    ReadMove s .checkStop { s with pc := .returned }
  | goOn (hpc : s.pc = .checkStop) : ReadMove s .checkStop { s with pc := .copyFields }
  | copy (hpc : s.pc = .copyFields) : ReadMove s .copyFields { s with pc := .judge s.sup }
  | giveUp (seen : Supervision) (line : ReadLog) (hpc : s.pc = .judge seen)
    (hgrace : seen.grace ≤ s.brokenFor + s.backoff) :
    ReadMove s .judge ((s.log seen.logf line).giveUp seen)
  | retry (seen : Supervision) (line : ReadLog) (hpc : s.pc = .judge seen)
    (hgrace : s.brokenFor + s.backoff < seen.grace) :
    ReadMove s .judge { s.log seen.logf line with pc := .wait }
  | timer (hpc : s.pc = .wait) : ReadMove s .timer s.backOff
  | stopped (hpc : s.pc = .wait) (hstop : s.readStop = true) :
    ReadMove s .stopped { s with pc := .returned }
  | supervise (cancel : Option Nat) (logf : Option Logger) (grace : Int) :
    ReadMove s (.superviseReadLoop cancel logf grace)
      { s with sup := .superviseReadLoop cancel logf grace }
  | close : ReadMove s .closeStop { s with readStop := true }

/-- Every step is one of the moves. -/
theorem readMove_of_step {s s' : ReadState} {l : ReadLabel} (h : readStep s l = some s') :
    ReadMove s l s' := by
  cases l with
  | read ok =>
    cases hpc : s.pc <;> simp only [readStep, hpc, reduceCtorEq] at h
    rw [← Option.some.inj h]
    cases ok with
    | true => exact .good hpc
    | false => exact .failed hpc
  | checkStop =>
    cases hpc : s.pc <;> simp only [readStep, hpc, reduceCtorEq] at h
    rw [← Option.some.inj h]
    split_ifs with hstop
    · exact .stop hpc hstop
    · exact .goOn hpc
  | copyFields =>
    cases hpc : s.pc <;> simp only [readStep, hpc, reduceCtorEq] at h
    rw [← Option.some.inj h]
    exact .copy hpc
  | judge =>
    cases hpc : s.pc <;> simp only [readStep, hpc, reduceCtorEq] at h
    rename_i seen
    rw [← Option.some.inj h]
    by_cases hgrace : seen.grace ≤ s.brokenFor + s.backoff
    · have hmove := ReadMove.giveUp seen
        (.readError s.backoff (s.brokenFor + s.backoff)) hpc hgrace
      rw [ReadState.judge]
      simpa only [ReadState.log, hgrace, if_true] using hmove
    · have hmove := ReadMove.retry seen
        (.readError s.backoff (s.brokenFor + s.backoff)) hpc (not_le.1 hgrace)
      rw [ReadState.judge]
      simpa only [ReadState.log, hgrace, if_false] using hmove
  | timer =>
    cases hpc : s.pc <;> simp only [readStep, hpc, reduceCtorEq] at h
    rw [← Option.some.inj h]
    exact .timer hpc
  | stopped =>
    cases hpc : s.pc <;> simp only [readStep, hpc, reduceCtorEq] at h
    split_ifs at h with hstop
    rw [← Option.some.inj h]
    exact .stopped hpc hstop
  | superviseReadLoop cancel logf grace =>
    rw [← Option.some.inj h]
    exact .supervise cancel logf grace
  | closeStop =>
    rw [← Option.some.inj h]
    exact .close

/-! ## The backoffs -/

/-- The backoff after `n` failed reads in a row. -/
def backoffAt : Nat → Int
  | 0 => readRetryInitialBackoff
  | n + 1 => min readRetryMaxBackoff (backoffAt n * 2)

/-- The numbers of the loop are those of the failed reads on record. -/
structure Paced (s : ReadState) : Prop where
  brokenFor : s.brokenFor = s.waited.sum
  backoff : s.backoff = backoffAt s.waited.length

theorem Paced.step {s s' : ReadState} {l : ReadLabel} (h : Paced s) (hl : readStep s l = some s') :
    Paced s' := by
  cases readMove_of_step hl with
  | good _ => exact ⟨rfl, rfl⟩
  | timer _ =>
    refine ⟨?_, ?_⟩
    · show s.brokenFor + s.backoff = s.backoff + s.waited.sum
      rw [h.brokenFor, add_comm]
    · show (if readRetryMaxBackoff < s.backoff * 2 then readRetryMaxBackoff else s.backoff * 2) =
        min readRetryMaxBackoff (backoffAt s.waited.length * 2)
      rw [h.backoff]
      split_ifs <;> omega
  | _ => exact ⟨h.brokenFor, h.backoff⟩

/-- A step that calls a cancel function does so when the backoffs since the last
good read and the next one reach the grace period that the loop has copied. -/
def CancelsLate (s : ReadState) (l : ReadLabel) : Prop :=
  ∀ s', readStep s l = some s' → s'.invoked ≠ s.invoked →
    ∃ seen, s.pc = .judge seen ∧ seen.grace ≤ s.waited.sum + backoffAt s.waited.length

theorem Paced.cancelsLate {s : ReadState} (h : Paced s) (l : ReadLabel) : CancelsLate s l := by
  intro s' hl hinvoked
  cases readMove_of_step hl with
  | giveUp seen _ hpc hgrace =>
    rw [h.brokenFor, h.backoff] at hgrace
    exact ⟨seen, hpc, hgrace⟩
  | _ => exact absurd rfl hinvoked

/-- A good read starts the count again. -/
def ResetsOnRead (s : ReadState) (l : ReadLabel) : Prop :=
  ∀ s', l = .read true → readStep s l = some s' →
    s'.waited = [] ∧ s'.brokenFor = 0 ∧ s'.backoff = readRetryInitialBackoff

theorem resetsOnRead (s : ReadState) (l : ReadLabel) : ResetsOnRead s l := by
  rintro s' rfl hl
  cases readMove_of_step hl with
  | good _ => exact ⟨rfl, rfl, rfl⟩

/-! ## The end of the loop -/

/-- A failed read that looks at the fields finds a cancel function there, or a
grace period that is not over. -/
def FindsSupervisor (s : ReadState) (l : ReadLabel) : Prop :=
  l = .copyFields → s.sup.cancelRoot.isSome = true ∨ s.brokenFor + s.backoff < s.sup.grace

instance (s : ReadState) (l : ReadLabel) : Decidable (FindsSupervisor s l) :=
  inferInstanceAs (Decidable (l = .copyFields → _))

/-- The loop has not ended in silence, and the copy that it holds will not make
it do so. -/
def Heard (s : ReadState) : Prop :=
  match s.pc with
  | .judge seen => seen.cancelRoot.isSome = true ∨ s.brokenFor + s.backoff < seen.grace
  | .returned => s.readStop = true ∨ s.invoked ≠ []
  | _ => True

theorem Heard.step {s s' : ReadState} {l : ReadLabel} (h : Heard s) (hsup : FindsSupervisor s l)
    (hl : readStep s l = some s') : Heard s' := by
  cases readMove_of_step hl with
  | good hpc =>
    unfold Heard ReadState.recover
    rw [hpc]
    trivial
  | failed _ => trivial
  | stop _ hstop => exact .inl hstop
  | goOn _ => trivial
  | copy _ => exact hsup rfl
  | giveUp seen _ hpc hgrace =>
    unfold Heard at h
    rw [hpc] at h
    have hsome : seen.cancelRoot.isSome = true := h.resolve_right (not_lt.2 hgrace)
    obtain ⟨cancel, hcancel⟩ := Option.isSome_iff_exists.1 hsome
    refine .inr ?_
    show seen.cancelRoot.toList ++ s.invoked ≠ []
    rw [hcancel]
    exact List.cons_ne_nil _ _
  | retry _ _ _ _ => trivial
  | timer _ => trivial
  | stopped _ hstop => exact .inl hstop
  | supervise _ _ _ => exact h
  | close =>
    unfold Heard at h ⊢
    dsimp only
    split at h
    · exact h
    · exact .inl rfl
    · trivial

theorem Heard.of_returned {s : ReadState} (h : Heard s) (hpc : s.pc = .returned) :
    s.readStop = true ∨ s.invoked ≠ [] := by
  unfold Heard at h
  rw [hpc] at h
  exact h

/-- The loop cancels only when the reads have been failing for the grace period, and
a good read starts the count again.  In a run in which no failed read finds the loop
unsupervised it ends only when it is stopped or after it has cancelled the process. -/
theorem never_deaf {ls : List ReadLabel} {s : ReadState} (hrun : run readStep {} ls = some s) :
    (AllSteps readStep FindsSupervisor {} ls → s.pc = .returned →
        s.readStop = true ∨ s.invoked ≠ []) ∧
      AllSteps readStep CancelsLate {} ls ∧ AllSteps readStep ResetsOnRead {} ls := by
  have hpaced : Paced {} := ⟨rfl, rfl⟩
  refine ⟨fun hsup hpc => ?_, ?_, allSteps_of_forall resetsOnRead ls {}⟩
  · have hheard : Heard s :=
      run_invariant (fun _ _ _ h hsup hl => h.step hsup hl) (show Heard {} from trivial) hsup hrun
    exact hheard.of_returned hpc
  · exact allSteps_of_invariant (fun _ _ _ h hl => h.step hl) (fun _ l h => h.cancelsLate l) hpaced

/-- Two failed reads under a grace period of 25 milliseconds. -/
def supervisedOutage : List ReadLabel :=
  [.superviseReadLoop (some 1) (some .service) 25000000, .read true,
    .read false, .checkStop, .copyFields, .judge, .timer,
    .read false, .checkStop, .copyFields, .judge]

theorem never_deaf_outage :
    ∃ s, run readStep {} supervisedOutage = some s ∧
      AllSteps readStep FindsSupervisor {} supervisedOutage ∧
      s.pc = .returned ∧ (s.readStop = true ∨ s.invoked ≠ []) := by
  have hsup : AllSteps readStep FindsSupervisor {} supervisedOutage := by decide
  exact ⟨_, rfl, hsup, rfl, (never_deaf rfl).1 hsup rfl⟩

/-- The label is not a call of `SuperviseReadLoop` without a cancel function. -/
def ReadLabel.Supervises : ReadLabel → Prop
  | .superviseReadLoop cancel _ _ => cancel.isSome = true
  | _ => True

/-- The loop does not end in silence if `SuperviseReadLoop` is called with a cancel
function before the first read fails, and never without one after that. -/
theorem never_deaf_of_supervised {before after : List ReadLabel} {s₁ s : ReadState} {cancel : Nat}
    {logf : Option Logger} {grace : Int} (hbefore : run readStep {} before = some s₁)
    (hgood : .read false ∉ before)
    (hafter : run readStep { s₁ with sup := .superviseReadLoop (some cancel) logf grace } after =
      some s) (hkeeps : ∀ l ∈ after, l.Supervises) (hpc : s.pc = .returned) :
    s.readStop = true ∨ s.invoked ≠ [] := by
  have hreading : s₁.pc = .read := by
    refine run_invariant (P := fun _ l => l ≠ .read false) (I := fun s => s.pc = .read) ?_ rfl
      (allSteps_of_mem (fun l hl => ne_of_mem_of_not_mem hl hgood) _) hbefore
    intro s l s' h hne hl
    cases readMove_of_step hl with
    | failed => exact absurd rfl hne
    | good | supervise | close => exact h
    | giveUp _ _ hpc => cases h.symm.trans hpc
    | retry _ _ hpc => cases h.symm.trans hpc
    | _ hpc => cases h.symm.trans hpc
  have hstart : Heard { s₁ with sup := .superviseReadLoop (some cancel) logf grace } := by
    unfold Heard
    rw [hreading]
    trivial
  have hheard : s.sup.cancelRoot.isSome = true ∧ Heard s := by
    refine run_invariant (P := fun _ l => l.Supervises)
      (I := fun s => s.sup.cancelRoot.isSome = true ∧ Heard s) ?_ ⟨rfl, hstart⟩
      (allSteps_of_mem hkeeps _) hafter
    intro s l s' h hl hstep
    refine ⟨?_, h.2.step (fun _ => .inl h.1) hstep⟩
    cases readMove_of_step hstep with
    | supervise => exact hl
    | _ => exact h.1
  exact hheard.2.of_returned hpc

/-- A read that fails before `SuperviseReadLoop` is called. -/
def earlyError : List ReadLabel := [.read false, .checkStop, .copyFields, .judge]

theorem unsupervised_read_error_deafens :
    ∃ s, run readStep {} earlyError = some s ∧
      s.pc = .returned ∧ s.readStop = false ∧ s.invoked = [] :=
  ⟨_, rfl, rfl, rfl, rfl⟩

end Ydn64.Netstack
