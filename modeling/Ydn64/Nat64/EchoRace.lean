import Ydn64.Nat64.Echo

/-!
# A registration and a cleanup tick

`registerICMPSession` runs on the NIC read loop and the cleanup tick on a
goroutine of its own.  Neither takes a lock: what is one step of `Echo` is a
sequence of operations on the maps and the atomic fields, and the operations of
the two interleave.  `Race` is the two parties at that granularity, each at its
next operation; a call that nothing interrupts is `registerICMPSession`
(`nic_uninterrupted`), and a visit that nothing interrupts is `expireICMPQuery`
(`visit_uninterrupted`).

The tick compares the session and not its stamp when it deletes.  So it evicts a
session that a call refreshes after the tick has read the stamp
(`refreshed_session_evicted`).  `Clean` rules out the two steps that lead there: a
call that finds a session which the tick has condemned, and a tick that condemns a
session which a call has in its hands.  `returned_registered` says that nothing
else can go wrong, and that each of the two steps can.
-/

namespace Ydn64.Nat64

open Ydn64.GoStd Ydn64.Config Ydn64.Lib

/-! ## The two parties -/

/-- The next operation of `registerICMPSession`.  A new session is in no map until
its slot is stored; until then its record is here. -/
inductive NicPc where
  | idle
  | load (q : IcmpQueryKey) (pool6Src : Addr16)
  | refresh (q : IcmpQueryKey) (r : IcmpRef)
  | checkCount (q : IcmpQueryKey) (pool6Src : Addr16)
  | create (q : IcmpQueryKey) (pool6Src : Addr16)
  | nextID (q : IcmpQueryKey) (sess : IcmpSession) (attempts : Nat)
  | probe (q : IcmpQueryKey) (sess : IcmpSession) (cand : UInt16) (attempts : Nat)
  | storeSlot (q : IcmpQueryKey) (sess : IcmpSession)
  | storeQuery (q : IcmpQueryKey) (r : IcmpRef)
  | addCount (q : IcmpQueryKey) (r : IcmpRef)
  -- The call returns the session.
  | returning (q : IcmpQueryKey) (r : IcmpRef)
  deriving DecidableEq

/-- The next operation of the ICMP part of a cleanup tick. -/
inductive TickPc where
  | idle
  | scan (cutoff : Int) (scan : SyncMap.Scan IcmpQueryKey IcmpRef)
  -- An entry is in the hands of the callback; its stamp has not been read.
  | visited (cutoff : Int) (scan : SyncMap.Scan IcmpQueryKey IcmpRef) (q : IcmpQueryKey)
      (r : IcmpRef)
  -- The stamp was too old.
  | condemned (cutoff : Int) (scan : SyncMap.Scan IcmpQueryKey IcmpRef) (q : IcmpQueryKey)
      (r : IcmpRef)
  | dropSlot (cutoff : Int) (scan : SyncMap.Scan IcmpQueryKey IcmpRef) (q : IcmpQueryKey)
      (r : IcmpRef)
  | dropCount (cutoff : Int) (scan : SyncMap.Scan IcmpQueryKey IcmpRef)

/-- The tables and the two parties. -/
structure Race where
  st : IcmpState
  clock : Int
  nic : NicPc := .idle
  tick : TickPc := .idle

/-- Who moves. -/
inductive RaceLabel where
  | call (q : IcmpQueryKey) (pool6Src : Addr16)
  | nic
  | tick
  | visit (q : IcmpQueryKey)
  | cleanup
  | advance (d : Nat)

/-- The slot of a new session is stored; the session is in the heap from here on. -/
def storedSlot (st : IcmpState) (q : IcmpQueryKey) (sess : IcmpSession) : IcmpState :=
  { st with
    icmpSessions := st.icmpSessions.insert ⟨q.dstAddr, sess.allocID⟩ st.nextRef
    heap := st.heap.insert st.nextRef sess
    nextRef := st.nextRef + 1 }

/-- The call takes its next operation. -/
def nicStep (st : IcmpState) (clock : Int) : NicPc → Option (IcmpState × NicPc)
  | .idle => none
  | .load q pool6Src =>
    match st.icmpQueries.lookup q with
    | some r => some (st, .refresh q r)
    | none => some (st, .checkCount q pool6Src)
  | .refresh q r => some (st.touch r clock, .returning q r)
  | .checkCount q pool6Src =>
    some (st, if maxICMPSessions ≤ st.icmpCount then .idle else .create q pool6Src)
  | .create q pool6Src =>
    some (st, .nextID q ⟨pool6Src, q.srcAddr, q.id, 0, clock⟩ maxICMPIDAllocAttempts)
  | .nextID _ _ 0 => some (st, .idle)
  | .nextID q sess (attempts + 1) =>
    some ({ st with icmpNextID := st.icmpNextID + 1 },
      if st.candidate = 0 then .nextID q sess attempts else .probe q sess st.candidate attempts)
  | .probe q sess cand attempts =>
    some (st, if st.icmpSessions.lookup ⟨q.dstAddr, cand⟩ ≠ none then .nextID q sess attempts
      else .storeSlot q { sess with allocID := cand })
  | .storeSlot q sess => some (storedSlot st q sess, .storeQuery q st.nextRef)
  | .storeQuery q r => some ({ st with icmpQueries := st.icmpQueries.insert q r }, .addCount q r)
  | .addCount q r => some ({ st with icmpCount := st.icmpCount + 1 }, .returning q r)
  | .returning _ _ => some (st, .idle)

/-- The tick takes its next operation, other than the visit of an entry. -/
def tickStep (st : IcmpState) : TickPc → Option (IcmpState × TickPc)
  | .idle => none
  | .scan _ scan => if scan.Complete st.icmpQueries then some (st, .idle) else none
  | .visited cutoff scan q r =>
    match st.heap.lookup r with
    | none => none
    | some sess =>
      some (st, if sess.lastSeenNs < cutoff then .condemned cutoff scan q r
        else .scan cutoff scan)
  | .condemned cutoff scan q r =>
    if st.icmpQueries.lookup q = some r then
      some ({ st with icmpQueries := st.icmpQueries.erase q }, .dropSlot cutoff scan q r)
    else some (st, .scan cutoff scan)
  | .dropSlot cutoff scan q r =>
    match st.heap.lookup r with
    | none => none
    | some sess =>
      some ({ st with icmpSessions := st.icmpSessions.erase ⟨q.dstAddr, sess.allocID⟩ },
        .dropCount cutoff scan)
  | .dropCount cutoff scan =>
    some ({ st with icmpCount := st.icmpCount - 1 }, .scan cutoff scan)

/-- One operation of one of the parties. -/
def raceStep (s : Race) : RaceLabel → Option Race
  | .call q pool6Src =>
    match s.nic with
    | .idle => some { s with nic := .load q pool6Src }
    | _ => none
  | .nic => (nicStep s.st s.clock s.nic).map fun res => { s with st := res.1, nic := res.2 }
  | .tick =>
    match s.tick with
    | .idle => some { s with
        tick := .scan (s.clock - icmpSessionTimeout) (SyncMap.Scan.begin s.st.icmpQueries) }
    | _ => none
  | .visit q =>
    match s.tick, s.st.icmpQueries.lookup q with
    | .scan cutoff scan, some r =>
      if q ∈ scan.visited then none
      else some { s with tick := .visited cutoff (scan.visit q) q r }
    | _, _ => none
  | .cleanup => (tickStep s.st s.tick).map fun res => { s with st := res.1, tick := res.2 }
  | .advance d => some { s with clock := s.clock + d }

/-- A new service, with any value of the identifier counter. -/
def Race.init (icmpNextID : UInt32) (clock : Int) : Race where
  st := IcmpState.init icmpNextID
  clock := clock

/-! ## Calls and visits that nothing interrupts -/

theorem run_nic {s : Race} {st : IcmpState} {pc : NicPc}
    (h : nicStep s.st s.clock s.nic = some (st, pc)) (n : Nat) :
    run raceStep s (List.replicate (n + 1) .nic) =
      run raceStep { s with st := st, nic := pc } (List.replicate n .nic) := by
  rw [List.replicate_succ, run, raceStep, h]
  rfl

/-- Where a call stands after its last operation. -/
def nicAfter (q : IcmpQueryKey) : Option IcmpRef → NicPc
  | some r => .returning q r
  | none => .idle

theorem nic_loop_uninterrupted (q : IcmpQueryKey) (sess : IcmpSession) :
    ∀ (attempts : Nat) (s : Race), s.nic = .nextID q sess attempts →
      ∃ n, run raceStep s (List.replicate n .nic) = some { s with
        st := (allocICMPSession q sess attempts s.st).1
        nic := nicAfter q (allocICMPSession q sess attempts s.st).2 } := by
  intro attempts
  induction attempts with
  | zero =>
    intro s hnic
    have hreturn : nicStep s.st s.clock s.nic = some (s.st, .idle) := by
      rw [hnic]
      rfl
    refine ⟨1, ?_⟩
    rw [run_nic hreturn]
    rfl
  | succ attempts ih =>
    intro s hnic
    rw [allocICMPSession]
    dsimp only
    by_cases hzero : s.st.candidate = 0
    · -- The identifier zero is skipped.
      obtain ⟨n, hn⟩ := ih { s with
        st := { s.st with icmpNextID := s.st.icmpNextID + 1 }, nic := .nextID q sess attempts } rfl
      refine ⟨n + 1, ?_⟩
      rw [run_nic (by rw [hnic, nicStep, if_pos hzero]), hn, if_pos hzero]
    rw [if_neg hzero]
    by_cases hused : s.st.icmpSessions.lookup ⟨q.dstAddr, s.st.candidate⟩ ≠ none
    · obtain ⟨n, hn⟩ := ih { s with
        st := { s.st with icmpNextID := s.st.icmpNextID + 1 }, nic := .nextID q sess attempts } rfl
      refine ⟨n + 2, ?_⟩
      rw [run_nic (by rw [hnic, nicStep, if_neg hzero]), run_nic (by rw [nicStep, if_pos hused]),
        hn, if_pos hused]
    · refine ⟨5, ?_⟩
      rw [run_nic (by rw [hnic, nicStep, if_neg hzero]), run_nic (by rw [nicStep, if_neg hused]),
        if_neg hused]
      rfl

/-- A call that nothing interrupts is `registerICMPSession`. -/
theorem nic_uninterrupted (s : Race) (q : IcmpQueryKey) (pool6Src : Addr16)
    (hnic : s.nic = .load q pool6Src) :
    ∃ n, run raceStep s (List.replicate n .nic) = some { s with
      st := (registerICMPSession s.st q.srcAddr pool6Src q.dstAddr q.id s.clock).1
      nic := nicAfter q
        (registerICMPSession s.st q.srcAddr pool6Src q.dstAddr q.id s.clock).2 } := by
  rw [registerICMPSession]
  cases hq : s.st.icmpQueries.lookup q with
  | some r =>
    refine ⟨2, ?_⟩
    rw [run_nic (by rw [hnic, nicStep, hq])]
    rfl
  | none =>
    dsimp only
    by_cases hfull : maxICMPSessions ≤ s.st.icmpCount
    · refine ⟨2, ?_⟩
      rw [run_nic (by rw [hnic, nicStep, hq]), run_nic (by rw [nicStep, if_pos hfull]),
        if_pos hfull]
      rfl
    · obtain ⟨n, hn⟩ := nic_loop_uninterrupted q ⟨pool6Src, q.srcAddr, q.id, 0, s.clock⟩
        maxICMPIDAllocAttempts { s with nic := _ } rfl
      refine ⟨n + 3, ?_⟩
      rw [run_nic (by rw [hnic, nicStep, hq]), run_nic (by rw [nicStep, if_neg hfull]),
        run_nic (by rw [nicStep]), hn, if_neg hfull]

/-- A visit that nothing interrupts is `expireICMPQuery`. -/
theorem visit_uninterrupted (s : Race) {cutoff : Int} {scan : SyncMap.Scan IcmpQueryKey IcmpRef}
    {q : IcmpQueryKey} {r : IcmpRef} {sess : IcmpSession} (htick : s.tick = .scan cutoff scan)
    (hnew : q ∉ scan.visited) (hq : s.st.icmpQueries.lookup q = some r)
    (hr : s.st.heap.lookup r = some sess) :
    ∃ n, run raceStep s (.visit q :: List.replicate n .cleanup) = some { s with
      st := expireICMPQuery s.st cutoff q
      tick := .scan cutoff (scan.visit q) } := by
  have hvisit : raceStep s (.visit q) =
      some { s with tick := .visited cutoff (scan.visit q) q r } := by
    rw [raceStep, htick, hq]
    exact if_neg hnew
  have hread : raceStep { s with tick := .visited cutoff (scan.visit q) q r } .cleanup =
      some { s with
        tick := if sess.lastSeenNs < cutoff then .condemned cutoff (scan.visit q) q r
          else .scan cutoff (scan.visit q) } := by
    rw [raceStep, tickStep, hr]
    rfl
  rw [expireICMPQuery, hq]
  dsimp only
  rw [hr]
  dsimp only
  by_cases hold : sess.lastSeenNs < cutoff
  · rw [if_pos hold] at hread ⊢
    have hdelete : raceStep { s with tick := .condemned cutoff (scan.visit q) q r } .cleanup =
        some { s with
          st := { s.st with icmpQueries := s.st.icmpQueries.erase q }
          tick := .dropSlot cutoff (scan.visit q) q r } := by
      rw [raceStep, tickStep, if_pos hq]
      rfl
    refine ⟨4, ?_⟩
    rw [run, hvisit, Option.bind_some, List.replicate_succ, run, hread, Option.bind_some,
      List.replicate_succ, run, hdelete, Option.bind_some, List.replicate_succ, run, raceStep,
      tickStep]
    dsimp only
    rw [hr]
    rfl
  · rw [if_neg hold] at hread ⊢
    refine ⟨1, ?_⟩
    rw [run, hvisit, Option.bind_some, List.replicate_succ, run, hread, Option.bind_some]
    rfl

/-! ## What is to hold -/

/-- The session has its slot. -/
def Slotted (st : IcmpState) (q : IcmpQueryKey) (r : IcmpRef) : Prop :=
  ∃ sess ∈ st.heap.lookup r, st.icmpSessions.lookup ⟨q.dstAddr, sess.allocID⟩ = some r

/-- Both maps lead to the session. -/
def Registered (st : IcmpState) (q : IcmpQueryKey) (r : IcmpRef) : Prop :=
  st.icmpQueries.lookup q = some r ∧ Slotted st q r

/-- The session has not been seen since the cutoff. -/
def Stale (st : IcmpState) (r : IcmpRef) (cutoff : Int) : Prop :=
  ∃ sess ∈ st.heap.lookup r, sess.lastSeenNs < cutoff

instance (st : IcmpState) (q : IcmpQueryKey) (r : IcmpRef) : Decidable (Registered st q r) :=
  inferInstanceAs (Decidable (_ ∧ ∃ sess ∈ st.heap.lookup r, _))

instance (st : IcmpState) (r : IcmpRef) (cutoff : Int) : Decidable (Stale st r cutoff) :=
  inferInstanceAs (Decidable (∃ sess ∈ st.heap.lookup r, _))

/-- A session that a call returns is registered, and a session that the tick is
about to evict has not been refreshed since the tick read its stamp. -/
structure Sound (s : Race) : Prop where
  returned : ∀ q r, s.nic = .returning q r → Registered s.st q r
  evicted : ∀ cutoff scan q r, s.tick = .condemned cutoff scan q r →
    s.st.icmpQueries.lookup q = some r → Stale s.st r cutoff

/-- The session that a call has stored in a map or has found there. -/
def NicPc.ref? : NicPc → Option IcmpRef
  | .refresh _ r | .storeQuery _ r | .addCount _ r | .returning _ r => some r
  | _ => none

/-- The session that the tick has condemned and not quite removed. -/
def TickPc.doomed? : TickPc → Option IcmpRef
  | .condemned _ _ _ r | .dropSlot _ _ _ r => some r
  | _ => none

/-- The session that the next operation of the call finds. -/
def NicPc.finds (st : IcmpState) : NicPc → Option IcmpRef
  | .load q _ => st.icmpQueries.lookup q
  | _ => none

/-- The session that the next operation of the tick condemns. -/
def TickPc.condemns (st : IcmpState) : TickPc → Option IcmpRef
  | .visited cutoff _ _ r => if Stale st r cutoff then some r else none
  | _ => none

/-- A call does not find a session that the tick has condemned, and the tick does
not condemn a session that a call has in its hands. -/
def Clean (s : Race) : RaceLabel → Prop
  | .nic => ∀ r ∈ s.nic.finds s.st, s.tick.doomed? ≠ some r
  | .cleanup => ∀ r ∈ s.tick.condemns s.st, s.nic.ref? ≠ some r
  | _ => True

instance (s : Race) : ∀ l, Decidable (Clean s l)
  | .nic => inferInstanceAs (Decidable (∀ r ∈ s.nic.finds s.st, _))
  | .cleanup => inferInstanceAs (Decidable (∀ r ∈ s.tick.condemns s.st, _))
  | .call .. | .tick | .visit _ | .advance _ => isTrue trivial

/-! ## The invariant -/

/-- No query leads to the session. -/
def Unlisted (st : IcmpState) (r : IcmpRef) : Prop := ∀ q, st.icmpQueries.lookup q ≠ some r

/-- A query has its slot, and no two queries share a session. -/
structure TableInv (st : IcmpState) : Prop where
  slotted : ∀ q r, st.icmpQueries.lookup q = some r → Slotted st q r
  injective : ∀ q q' r, st.icmpQueries.lookup q = some r → st.icmpQueries.lookup q' = some r →
    q = q'
  fresh : ∀ r sess, st.heap.lookup r = some sess → r < st.nextRef

/-- What a call relies on. -/
def NicPc.Ok (st : IcmpState) : NicPc → Prop
  | .idle | .load .. => True
  | .checkCount q _ | .create q _ | .nextID q _ _ | .probe q _ _ _ =>
    st.icmpQueries.lookup q = none
  | .storeSlot q sess =>
    st.icmpQueries.lookup q = none ∧ st.icmpSessions.lookup ⟨q.dstAddr, sess.allocID⟩ = none
  | .storeQuery q r => st.icmpQueries.lookup q = none ∧ Slotted st q r ∧ Unlisted st r
  | .refresh q r | .addCount q r | .returning q r => st.icmpQueries.lookup q = some r

/-- What the tick relies on. -/
def TickPc.Ok (st : IcmpState) : TickPc → Prop
  | .idle | .scan .. | .dropCount .. => True
  | .visited _ _ q r => st.icmpQueries.lookup q = some r
  | .condemned cutoff _ q r => st.icmpQueries.lookup q = some r ∧ Stale st r cutoff
  | .dropSlot _ _ q r => Slotted st q r ∧ Unlisted st r

/-- The invariant of clean runs: the two parties never have one session in their
hands, the tick to remove it and the call to return it. -/
structure RaceInv (s : Race) : Prop where
  table : TableInv s.st
  nic : s.nic.Ok s.st
  tick : s.tick.Ok s.st
  apart : ∀ r, s.nic.ref? = some r → s.tick.doomed? ≠ some r

theorem RaceInv.init (icmpNextID : UInt32) (clock : Int) :
    RaceInv (Race.init icmpNextID clock) where
  table :=
    { slotted := fun _ _ h => by cases h
      injective := fun _ _ _ h => by cases h
      fresh := fun _ _ h => by cases h }
  nic := trivial
  tick := trivial
  apart := fun _ h => by cases h

theorem RaceInv.sound {s : Race} (h : RaceInv s) : Sound s where
  returned := by
    intro q r hnic
    have hq := h.nic
    rw [hnic] at hq
    exact ⟨hq, h.table.slotted q r hq⟩
  evicted := by
    intro cutoff scan q r htick _
    have hok := h.tick
    rw [htick] at hok
    exact hok.2

/-! ### Slots -/

section Tables

variable {st : IcmpState} {q : IcmpQueryKey} {r : IcmpRef}

theorem Slotted.touch (h : Slotted st q r) (r' : IcmpRef) (now : Int) :
    Slotted (st.touch r' now) q r := by
  obtain ⟨sess, hsess, hslot⟩ := h
  obtain ⟨sess', hsess', hsame⟩ := touch_heap r' now hsess
  refine ⟨sess', hsess', ?_⟩
  rw [(touch_maps st r' now).1, hsame]
  exact hslot

theorem heap_storedSlot (hfresh : ∀ r sess, st.heap.lookup r = some sess → r < st.nextRef)
    {sess : IcmpSession} (hr : st.heap.lookup r = some sess) (q' : IcmpQueryKey)
    (new : IcmpSession) : (storedSlot st q' new).heap.lookup r = some sess := by
  show (st.heap.insert st.nextRef new).lookup r = some sess
  rw [SyncMap.lookup_insert_eq_ite, if_neg (hfresh r sess hr).ne, hr]

theorem Slotted.storedSlot (hfresh : ∀ r sess, st.heap.lookup r = some sess → r < st.nextRef)
    (h : Slotted st q r) {q' : IcmpQueryKey} {new : IcmpSession}
    (hfree : st.icmpSessions.lookup ⟨q'.dstAddr, new.allocID⟩ = none) :
    Slotted (storedSlot st q' new) q r := by
  obtain ⟨sess, hsess, hslot⟩ := h
  refine ⟨sess, heap_storedSlot hfresh hsess q' new, ?_⟩
  show (st.icmpSessions.insert _ st.nextRef).lookup _ = some r
  rw [SyncMap.lookup_insert_eq_ite, if_neg ?_, hslot]
  intro he
  rw [he, hfree] at hslot
  cases hslot

theorem Slotted.lt (h : Slotted st q r)
    (hfresh : ∀ r sess, st.heap.lookup r = some sess → r < st.nextRef) : r < st.nextRef := by
  obtain ⟨sess, hsess, -⟩ := h
  exact hfresh r sess hsess

theorem Slotted.erase (h : Slotted st q r) {q' : IcmpQueryKey} {r' : IcmpRef}
    {sess' : IcmpSession} (hslot' : st.icmpSessions.lookup ⟨q'.dstAddr, sess'.allocID⟩ = some r')
    (hne : r ≠ r') :
    Slotted { st with icmpSessions := st.icmpSessions.erase ⟨q'.dstAddr, sess'.allocID⟩ } q r := by
  obtain ⟨sess, hsess, hslot⟩ := h
  exact ⟨sess, hsess, SyncMap.lookup_erase_of_ne hslot hslot' hne⟩

/-! ### The tables -/

theorem TableInv.touch (h : TableInv st) (r' : IcmpRef) (now : Int) :
    TableInv (st.touch r' now) := by
  obtain ⟨-, hquer, -, hnext⟩ := touch_maps st r' now
  refine ⟨?_, ?_, ?_⟩
  · intro q r hq
    rw [hquer] at hq
    exact (h.slotted q r hq).touch r' now
  · rw [hquer]
    exact h.injective
  · intro r sess hr
    rw [hnext]
    unfold IcmpState.touch at hr
    split at hr
    · exact h.fresh r sess hr
    · rename_i old hold
      rw [SyncMap.lookup_insert_eq_ite] at hr
      split_ifs at hr with he
      · exact he ▸ h.fresh r' old hold
      · exact h.fresh r sess hr

theorem TableInv.storedSlot (h : TableInv st) {new : IcmpSession}
    (hfree : st.icmpSessions.lookup ⟨q.dstAddr, new.allocID⟩ = none) :
    TableInv (storedSlot st q new) := by
  refine ⟨fun q' r hq => (h.slotted q' r hq).storedSlot h.fresh hfree, h.injective, ?_⟩
  intro r sess hr
  change (st.heap.insert st.nextRef new).lookup r = some sess at hr
  rw [SyncMap.lookup_insert_eq_ite] at hr
  show r < st.nextRef + 1
  split_ifs at hr with he
  · rw [he]
    exact Nat.lt_succ_self _
  · exact Nat.lt_succ_of_lt (h.fresh r sess hr)

theorem TableInv.insertQuery (h : TableInv st) (hslot : Slotted st q r) (hr : Unlisted st r) :
    TableInv { st with icmpQueries := st.icmpQueries.insert q r } := by
  refine ⟨?_, ?_, h.fresh⟩
  · intro q' r' hq
    rw [SyncMap.lookup_insert_eq_ite] at hq
    split_ifs at hq with he
    · obtain rfl := Option.some.inj hq
      exact he ▸ hslot
    · exact h.slotted q' r' hq
  · intro q₁ q₂ r' h₁ h₂
    rw [SyncMap.lookup_insert_eq_ite] at h₁ h₂
    split_ifs at h₁ h₂ with he₁ he₂ he₂
    · rw [he₁, he₂]
    · obtain rfl := Option.some.inj h₁
      exact absurd h₂ (hr q₂)
    · obtain rfl := Option.some.inj h₂
      exact absurd h₁ (hr q₁)
    · exact h.injective q₁ q₂ r' h₁ h₂

theorem TableInv.eraseQuery (h : TableInv st) (q : IcmpQueryKey) :
    TableInv { st with icmpQueries := st.icmpQueries.erase q } where
  slotted := fun q' r hq => h.slotted q' r (SyncMap.lookup_of_erase hq)
  injective := fun q₁ q₂ r h₁ h₂ =>
    h.injective q₁ q₂ r (SyncMap.lookup_of_erase h₁) (SyncMap.lookup_of_erase h₂)
  fresh := h.fresh

theorem TableInv.eraseSlot (h : TableInv st) (hr : Unlisted st r) {sess : IcmpSession}
    (hslot : st.icmpSessions.lookup ⟨q.dstAddr, sess.allocID⟩ = some r) :
    TableInv { st with icmpSessions := st.icmpSessions.erase ⟨q.dstAddr, sess.allocID⟩ } where
  slotted := by
    intro q' r' hq
    refine (h.slotted q' r' hq).erase hslot ?_
    rintro rfl
    exact hr q' hq
  injective := h.injective
  fresh := h.fresh

/-! ### The tick while the call moves -/

theorem TickPc.Ok.touch {tick : TickPc} (h : tick.Ok st) {r' : IcmpRef}
    (hne : tick.doomed? ≠ some r') (now : Int) : tick.Ok (st.touch r' now) := by
  obtain ⟨-, hquer, -, -⟩ := touch_maps st r' now
  cases tick with
  | visited cutoff scan q r =>
    rw [TickPc.Ok, hquer]
    exact h
  | condemned cutoff scan q r =>
    obtain ⟨hq, sess, hsess, hold⟩ := h
    refine ⟨by rw [hquer]; exact hq, sess, ?_, hold⟩
    -- The call stamps another session.
    have hr : r ≠ r' := fun he => hne (congrArg some he)
    unfold IcmpState.touch
    split
    · exact hsess
    · show (st.heap.insert r' _).lookup r = some sess
      rw [SyncMap.lookup_insert_eq_ite, if_neg hr]
      exact hsess
  | dropSlot cutoff scan q r =>
    refine ⟨h.1.touch r' now, ?_⟩
    rw [Unlisted, hquer]
    exact h.2
  | _ => trivial

theorem TickPc.Ok.storedSlot {tick : TickPc} (h : tick.Ok st) (htable : TableInv st)
    {new : IcmpSession} (hfree : st.icmpSessions.lookup ⟨q.dstAddr, new.allocID⟩ = none) :
    tick.Ok (storedSlot st q new) := by
  cases tick with
  | condemned cutoff scan q' r =>
    obtain ⟨hq, sess, hsess, hold⟩ := h
    exact ⟨hq, sess, heap_storedSlot htable.fresh hsess q new, hold⟩
  | dropSlot cutoff scan q' r => exact ⟨h.1.storedSlot htable.fresh hfree, h.2⟩
  | _ => exact h

theorem TickPc.Ok.insertQuery {tick : TickPc} (h : tick.Ok st)
    (hq : st.icmpQueries.lookup q = none) (hne : tick.doomed? ≠ some r) :
    tick.Ok { st with icmpQueries := st.icmpQueries.insert q r } := by
  have hkeep : ∀ {q' r'}, st.icmpQueries.lookup q' = some r' →
      (st.icmpQueries.insert q r).lookup q' = some r' := by
    intro q' r' hq'
    rw [SyncMap.lookup_insert_eq_ite, if_neg, hq']
    rintro rfl
    cases hq.symm.trans hq'
  cases tick with
  | visited cutoff scan q' r' => exact hkeep h
  | condemned cutoff scan q' r' => exact ⟨hkeep h.1, h.2⟩
  | dropSlot cutoff scan q' r' =>
    refine ⟨h.1, fun q'' hq'' => ?_⟩
    rw [SyncMap.lookup_insert_eq_ite] at hq''
    split_ifs at hq''
    · exact hne hq''.symm
    · exact h.2 q'' hq''
  | _ => trivial

theorem TickPc.Ok.doomed_lt {tick : TickPc} (h : tick.Ok st) (htable : TableInv st)
    (hr : tick.doomed? = some r) : r < st.nextRef := by
  cases tick with
  | condemned cutoff scan q' r' =>
    obtain rfl := Option.some.inj hr
    exact (htable.slotted _ _ h.1).lt htable.fresh
  | dropSlot cutoff scan q' r' =>
    obtain rfl := Option.some.inj hr
    exact h.1.lt htable.fresh
  | _ => cases hr

theorem TickPc.Ok.condemned_of_listed {tick : TickPc} (h : tick.Ok st)
    (hq : st.icmpQueries.lookup q = some r) (hr : tick.doomed? = some r) :
    ∃ cutoff scan q', tick = .condemned cutoff scan q' r ∧
      st.icmpQueries.lookup q' = some r := by
  cases tick with
  | condemned cutoff scan q' r' =>
    obtain rfl := Option.some.inj hr
    exact ⟨cutoff, scan, q', rfl, h.1⟩
  | dropSlot cutoff scan q' r' =>
    obtain rfl := Option.some.inj hr
    exact absurd hq (h.2 q)
  | _ => cases hr

/-! ### The call while the tick moves -/

theorem NicPc.Ok.eraseQuery {nic : NicPc} (h : nic.Ok st) (hq : st.icmpQueries.lookup q = some r)
    (hne : nic.ref? ≠ some r) : nic.Ok { st with icmpQueries := st.icmpQueries.erase q } := by
  cases nic with
  | idle | load => trivial
  | storeSlot q' sess => exact ⟨SyncMap.lookup_erase_of_none h.1 q, h.2⟩
  | storeQuery q' r' =>
    exact ⟨SyncMap.lookup_erase_of_none h.1 q, h.2.1,
      fun q'' hq'' => h.2.2 q'' (SyncMap.lookup_of_erase hq'')⟩
  | refresh q' r' | addCount q' r' | returning q' r' =>
    exact SyncMap.lookup_erase_of_ne h hq fun he => hne (congrArg some he)
  | _ => exact SyncMap.lookup_erase_of_none h q

theorem NicPc.Ok.eraseSlot {nic : NicPc} (h : nic.Ok st) {sess : IcmpSession}
    (hslot : st.icmpSessions.lookup ⟨q.dstAddr, sess.allocID⟩ = some r)
    (hne : nic.ref? ≠ some r) :
    nic.Ok { st with icmpSessions := st.icmpSessions.erase ⟨q.dstAddr, sess.allocID⟩ } := by
  cases nic with
  | storeSlot q' new =>
    exact ⟨h.1, SyncMap.lookup_erase_of_none h.2 _⟩
  | storeQuery q' r' =>
    exact ⟨h.1, h.2.1.erase hslot fun he => hne (congrArg some he), h.2.2⟩
  | _ => exact h

end Tables

/-! ### Steps -/

/-- An operation of a call that does not find a condemned session. -/
theorem RaceInv.of_nicStep {s : Race} {st : IcmpState} {pc : NicPc} (h : RaceInv s)
    (hclean : Clean s .nic) (hstep : nicStep s.st s.clock s.nic = some (st, pc)) :
    RaceInv { s with st := st, nic := pc } := by
  obtain ⟨htable, hnic, htick, hapart⟩ := h
  change ∀ r ∈ s.nic.finds s.st, s.tick.doomed? ≠ some r at hclean
  generalize s.nic = nic at hnic hapart hclean hstep
  cases nic with
  | idle => cases hstep
  | load q pool6Src =>
    simp only [nicStep] at hstep
    cases hq : s.st.icmpQueries.lookup q with
    | some r =>
      rw [hq] at hstep
      cases hstep
      exact ⟨htable, hq, htick, fun r' hr => Option.some.inj hr ▸ hclean r hq⟩
    | none =>
      rw [hq] at hstep
      cases hstep
      exact ⟨htable, hq, htick, fun _ hr => by cases hr⟩
  | refresh q r =>
    cases hstep
    refine ⟨htable.touch r s.clock, ?_, htick.touch (hapart r rfl) s.clock, hapart⟩
    show (s.st.touch r s.clock).icmpQueries.lookup q = some r
    rw [(touch_maps s.st r s.clock).2.1]
    exact hnic
  | checkCount q pool6Src =>
    cases hstep
    refine ⟨htable, ?_, htick, ?_⟩
    · show NicPc.Ok s.st (if _ then _ else _)
      split_ifs
      · trivial
      · exact hnic
    · intro r hr
      change NicPc.ref? (if _ then _ else _) = some r at hr
      split_ifs at hr <;> cases hr
  | create q pool6Src =>
    cases hstep
    exact ⟨htable, hnic, htick, fun _ hr => by cases hr⟩
  | nextID q sess attempts =>
    cases attempts with
    | zero =>
      cases hstep
      exact ⟨htable, trivial, htick, fun _ hr => by cases hr⟩
    | succ attempts =>
      cases hstep
      refine ⟨⟨htable.slotted, htable.injective, htable.fresh⟩, ?_, htick, ?_⟩
      · show NicPc.Ok _ (if _ then _ else _)
        split_ifs
        · exact hnic
        · exact hnic
      · intro r hr
        change NicPc.ref? (if _ then _ else _) = some r at hr
        split_ifs at hr <;> cases hr
  | probe q sess cand attempts =>
    cases hstep
    refine ⟨htable, ?_, htick, ?_⟩
    · show NicPc.Ok s.st (if _ then _ else _)
      split_ifs with hused
      · exact hnic
      · exact ⟨hnic, not_not.1 hused⟩
    · intro r hr
      change NicPc.ref? (if _ then _ else _) = some r at hr
      split_ifs at hr <;> cases hr
  | storeSlot q sess =>
    cases hstep
    refine ⟨htable.storedSlot hnic.2, ⟨hnic.1, ?_, ?_⟩, htick.storedSlot htable hnic.2, ?_⟩
    · exact ⟨sess, Finmap.lookup_insert _, Finmap.lookup_insert _⟩
    · intro q' hq'
      exact ((htable.slotted q' _ hq').lt htable.fresh).ne rfl
    · intro r hr hdoomed
      obtain rfl := Option.some.inj hr
      exact (htick.doomed_lt htable hdoomed).ne rfl
  | storeQuery q r =>
    cases hstep
    obtain ⟨hq, hslot, hlist⟩ := hnic
    exact ⟨htable.insertQuery hslot hlist, Finmap.lookup_insert _,
      htick.insertQuery hq (hapart r rfl), hapart⟩
  | addCount q r =>
    cases hstep
    exact ⟨⟨htable.slotted, htable.injective, htable.fresh⟩, hnic, htick, hapart⟩
  | returning q r =>
    cases hstep
    exact ⟨htable, trivial, htick, fun _ hr => by cases hr⟩

/-- An operation of the tick that does not condemn a session of the call. -/
theorem RaceInv.of_tickStep {s : Race} {st : IcmpState} {pc : TickPc} (h : RaceInv s)
    (hclean : Clean s .cleanup) (hstep : tickStep s.st s.tick = some (st, pc)) :
    RaceInv { s with st := st, tick := pc } := by
  obtain ⟨htable, hnic, htick, hapart⟩ := h
  change ∀ r ∈ s.tick.condemns s.st, s.nic.ref? ≠ some r at hclean
  generalize s.tick = tick at htick hapart hclean hstep
  cases tick with
  | idle => cases hstep
  | scan cutoff scan =>
    simp only [tickStep] at hstep
    split_ifs at hstep
    cases hstep
    exact ⟨htable, hnic, trivial, fun _ _ hdoomed => by cases hdoomed⟩
  | visited cutoff scan q r =>
    simp only [tickStep] at hstep
    cases hr : s.st.heap.lookup r with
    | none =>
      rw [hr] at hstep
      cases hstep
    | some sess =>
      rw [hr] at hstep
      cases hstep
      by_cases hold : sess.lastSeenNs < cutoff
      · have hstale : Stale s.st r cutoff := ⟨sess, hr, hold⟩
        rw [if_pos hold]
        refine ⟨htable, hnic, ⟨htick, hstale⟩, ?_⟩
        intro r' hr' hdoomed
        obtain rfl := Option.some.inj hdoomed
        exact hclean r (if_pos hstale) hr'
      · rw [if_neg hold]
        exact ⟨htable, hnic, trivial, fun _ _ hdoomed => by cases hdoomed⟩
  | condemned cutoff scan q r =>
    have hne : s.nic.ref? ≠ some r := fun hr => hapart r hr rfl
    simp only [tickStep] at hstep
    rw [if_pos htick.1] at hstep
    cases hstep
    refine ⟨htable.eraseQuery q, hnic.eraseQuery htick.1 hne, ⟨?_, ?_⟩, hapart⟩
    · exact htable.slotted q r htick.1
    · intro q' hq'
      obtain rfl := htable.injective q q' r htick.1 (SyncMap.lookup_of_erase hq')
      cases (Finmap.lookup_erase q s.st.icmpQueries).symm.trans hq'
  | dropSlot cutoff scan q r =>
    obtain ⟨⟨sess, hsess, hslot⟩, hlist⟩ := htick
    simp only [tickStep] at hstep
    rw [show s.st.heap.lookup r = some sess from hsess] at hstep
    cases hstep
    refine ⟨htable.eraseSlot hlist hslot, ?_, trivial, fun _ _ hdoomed => by cases hdoomed⟩
    exact hnic.eraseSlot hslot fun hr => hapart r hr rfl
  | dropCount cutoff scan =>
    cases hstep
    exact ⟨⟨htable.slotted, htable.injective, htable.fresh⟩, hnic, trivial,
      fun _ _ hdoomed => by cases hdoomed⟩

theorem raceStep_inv {s s' : Race} {l : RaceLabel} (h : RaceInv s) (hclean : Clean s l)
    (hstep : raceStep s l = some s') : RaceInv s' := by
  cases l with
  | call q pool6Src =>
    simp only [raceStep] at hstep
    split at hstep
    · cases hstep
      exact ⟨h.table, trivial, h.tick, fun _ hr => by cases hr⟩
    · cases hstep
  | nic =>
    obtain ⟨res, hres, rfl⟩ := Option.map_eq_some_iff.1 hstep
    exact h.of_nicStep hclean hres
  | tick =>
    simp only [raceStep] at hstep
    split at hstep
    · cases hstep
      exact ⟨h.table, h.nic, trivial, fun _ _ hdoomed => by cases hdoomed⟩
    · cases hstep
  | visit q =>
    simp only [raceStep] at hstep
    split at hstep
    · rename_i cutoff scan r _ hq
      split_ifs at hstep
      cases hstep
      exact ⟨h.table, h.nic, hq, fun _ _ hdoomed => by cases hdoomed⟩
    · cases hstep
  | cleanup =>
    obtain ⟨res, hres, rfl⟩ := Option.map_eq_some_iff.1 hstep
    exact h.of_tickStep hclean hres
  | advance d =>
    cases hstep
    exact ⟨h.table, h.nic, h.tick, h.apart⟩

/-! ## What a step that is not clean leads to -/

theorem raceStep_delete {s : Race} {cutoff : Int} {scan : SyncMap.Scan IcmpQueryKey IcmpRef}
    {q : IcmpQueryKey} {r : IcmpRef} (htick : s.tick = .condemned cutoff scan q r)
    (hq : s.st.icmpQueries.lookup q = some r) :
    raceStep s .cleanup = some { s with
      st := { s.st with icmpQueries := s.st.icmpQueries.erase q }
      tick := .dropSlot cutoff scan q r } := by
  rw [raceStep, htick, tickStep, if_pos hq]
  rfl

/-- The call has the session of a query in its hands. -/
def NicPc.Holds (nic : NicPc) (q : IcmpQueryKey) (r : IcmpRef) : Prop :=
  nic = .refresh q r ∨ nic = .addCount q r ∨ nic = .returning q r

/-- A call can still return a session whose query is gone. -/
theorem unsound_of_erased {s : Race} {q : IcmpQueryKey} {r : IcmpRef} (hnic : s.nic.Holds q r)
    (hq : s.st.icmpQueries.lookup q = none) :
    ∃ ls t, run raceStep s ls = some t ∧ ¬ Sound t := by
  have hunsound : ∀ t : Race, t.nic = .returning q r → t.st.icmpQueries.lookup q = none →
      ¬ Sound t := by
    intro t hret hgone h
    cases hgone.symm.trans (h.returned q r hret).1
  obtain hnic | hnic | hnic := hnic
  · refine ⟨[.nic], { s with st := s.st.touch r s.clock, nic := .returning q r }, ?_, ?_⟩
    · rw [run, raceStep, hnic]
      rfl
    · apply hunsound _ rfl
      show (s.st.touch r s.clock).icmpQueries.lookup q = none
      rw [(touch_maps s.st r s.clock).2.1]
      exact hq
  · refine ⟨[.nic], { s with
      st := { s.st with icmpCount := s.st.icmpCount + 1 }, nic := .returning q r }, ?_, ?_⟩
    · rw [run, raceStep, hnic]
      rfl
    · exact hunsound _ rfl hq
  · exact ⟨[], s, rfl, hunsound s hnic hq⟩

/-- While a call has a session in its hands that the tick has condemned, the tick
can delete the query. -/
theorem unsound_of_doomed {s : Race} (htable : TableInv s.st) {q q' : IcmpQueryKey} {r : IcmpRef}
    {cutoff : Int} {scan : SyncMap.Scan IcmpQueryKey IcmpRef}
    (htick : s.tick = .condemned cutoff scan q' r) (hq' : s.st.icmpQueries.lookup q' = some r)
    (hq : s.st.icmpQueries.lookup q = some r) (hnic : s.nic.Holds q r) :
    ∃ ls t, run raceStep s ls = some t ∧ ¬ Sound t := by
  obtain rfl := htable.injective q q' r hq hq'
  have hdelete := raceStep_delete htick hq
  obtain ⟨ls, t, hrun, ht⟩ := unsound_of_erased (s := { s with
      st := { s.st with icmpQueries := s.st.icmpQueries.erase q }
      tick := .dropSlot cutoff scan q r }) hnic (Finmap.lookup_erase q _)
  refine ⟨.cleanup :: ls, t, ?_, ht⟩
  rw [run, hdelete]
  exact hrun

theorem NicPc.Ok.holds {st : IcmpState} {nic : NicPc} {q : IcmpQueryKey} {r : IcmpRef}
    (h : nic.Ok st) (hq : st.icmpQueries.lookup q = some r) (hr : nic.ref? = some r) :
    ∃ q', nic.Holds q' r ∧ st.icmpQueries.lookup q' = some r := by
  cases nic with
  | refresh q' r' =>
    obtain rfl := Option.some.inj hr
    exact ⟨q', .inl rfl, h⟩
  | storeQuery q' r' =>
    obtain rfl := Option.some.inj hr
    exact absurd hq (h.2.2 q)
  | addCount q' r' =>
    obtain rfl := Option.some.inj hr
    exact ⟨q', .inr (.inl rfl), h⟩
  | returning q' r' =>
    obtain rfl := Option.some.inj hr
    exact ⟨q', .inr (.inr rfl), h⟩
  | _ => cases hr

/-- After a step that is not clean, a call can return a session that is not
registered. -/
theorem RaceInv.unsound_of_not_clean {s s' : Race} {l : RaceLabel} (h : RaceInv s)
    (hclean : ¬ Clean s l) (hstep : raceStep s l = some s') :
    ∃ ls t, run raceStep s' ls = some t ∧ ¬ Sound t := by
  obtain ⟨htable, hnic, htick, -⟩ := h
  cases l with
  | nic =>
    simp only [Clean, not_forall, not_not] at hclean
    obtain ⟨r, hfinds, hdoomed⟩ := hclean
    cases hpc : s.nic with
    | load q pool6Src =>
      rw [hpc] at hfinds
      have hq : s.st.icmpQueries.lookup q = some r := hfinds
      obtain ⟨cutoff, scan, q', htick', hq'⟩ := htick.condemned_of_listed hq hdoomed
      rw [raceStep, hpc, nicStep, hq] at hstep
      cases hstep
      exact unsound_of_doomed htable htick' hq' hq (.inl rfl)
    | _ =>
      rw [hpc] at hfinds
      cases hfinds
  | cleanup =>
    simp only [Clean, not_forall, not_not] at hclean
    obtain ⟨r, hcondemns, href⟩ := hclean
    cases hpc : s.tick with
    | visited cutoff scan q r' =>
      rw [hpc] at hcondemns htick
      rw [TickPc.condemns, Option.mem_def, Option.ite_none_right_eq_some] at hcondemns
      obtain ⟨⟨sess, hsess, hold⟩, he⟩ := hcondemns
      obtain rfl := Option.some.inj he
      obtain ⟨q', hholds, hq'⟩ := hnic.holds htick href
      rw [raceStep, hpc, tickStep, show s.st.heap.lookup r' = some sess from hsess] at hstep
      dsimp only at hstep
      rw [if_pos hold] at hstep
      cases hstep
      exact unsound_of_doomed htable rfl htick hq' hholds
    | _ =>
      rw [hpc] at hcondemns
      cases hcondemns
  | _ => exact absurd trivial hclean

/-! ## Whole runs -/

/-- In every interleaving whose steps are clean, whatever identifier the counter
starts from: a session that a call returns is in both maps, and a session that the
tick evicts has not been refreshed since the tick read its stamp.  Each step that is
not clean leads to a state where that fails. -/
theorem returned_registered (icmpNextID : UInt32) (clock : Int) (ls : List RaceLabel) (s : Race)
    (hclean : AllSteps raceStep Clean (Race.init icmpNextID clock) ls)
    (hrun : run raceStep (Race.init icmpNextID clock) ls = some s) :
    Sound s ∧ ∀ l s', raceStep s l = some s' → ¬ Clean s l →
      ∃ ms t, run raceStep s' ms = some t ∧ ¬ Sound t := by
  have hinv : RaceInv s :=
    run_invariant (fun _ _ _ hi hc hl => raceStep_inv hi hc hl)
      (RaceInv.init icmpNextID clock) hclean hrun
  exact ⟨hinv.sound, fun l s' hstep hl => hinv.unsound_of_not_clean hl hstep⟩

/-- The client `200::1` pings `1.2.3.4`, the last four bytes of `pingDst96`, with
identifier 7. -/
def raceQuery : IcmpQueryKey := ⟨pingSrc, addr4At pingDst96.toList 12, 7⟩

/-- A request of that client, up to the return of its call. -/
def newRequest : List RaceLabel := .call raceQuery pingDst96 :: List.replicate 8 .nic

/-- Another request, a minute later, that finds the session; a tick then starts and
finds the stamp fresh. -/
def steadyPing : List RaceLabel :=
  newRequest ++ [.nic, .advance (61 * 10 ^ 9), .call raceQuery pingDst96, .nic, .nic,
    .tick, .visit raceQuery, .cleanup, .cleanup]

theorem returned_registered_steadyPing :
    ∃ s ∈ run raceStep (Race.init 0 0) steadyPing,
      AllSteps raceStep Clean (Race.init 0 0) steadyPing ∧
      s.nic = .returning raceQuery 0 ∧ Registered s.st raceQuery 0 := by
  have hrun : ∃ s ∈ run raceStep (Race.init 0 0) steadyPing,
      AllSteps raceStep Clean (Race.init 0 0) steadyPing ∧ s.nic = .returning raceQuery 0 := by
    decide +kernel
  obtain ⟨s, hs, hclean, hnic⟩ := hrun
  refine ⟨s, hs, hclean, hnic, ?_⟩
  exact (returned_registered 0 0 steadyPing s hclean hs).1.returned raceQuery 0 hnic

/-- The tick reads the stamp first.  The call finds the session, the tick deletes it
from both maps, and the call stamps it and returns it. -/
def lateRefresh : List RaceLabel :=
  newRequest ++ [.nic, .advance (61 * 10 ^ 9), .tick, .visit raceQuery, .cleanup,
    .call raceQuery pingDst96, .nic, .cleanup, .cleanup, .nic]

/-- The call returns a session that was stamped after the tick read it and that is in
neither map. -/
theorem refreshed_session_evicted :
    ∃ s ∈ run raceStep (Race.init 0 0) lateRefresh,
      s.nic = .returning raceQuery 0 ∧
      (s.st.heap.lookup 0).map IcmpSession.lastSeenNs = some s.clock ∧
      s.st.icmpQueries = ∅ ∧ s.st.icmpSessions = ∅ ∧ ¬ Registered s.st raceQuery 0 := by
  decide +kernel

end Ydn64.Nat64
