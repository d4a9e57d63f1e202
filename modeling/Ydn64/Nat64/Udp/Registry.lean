import Ydn64.Nat64.Udp.Steps

/-!
# The counters beside the session table

Two counters are kept beside the `sessions` map: `udpSessions` for all of it,
and the UDP count of `srcCounts` for each client.  A registration publishes its
session first and counts it in two later steps; a `deleteSession` takes the
entry away first and uncounts it in two later steps.  `Pc.owes` and
`Pc.owesSrc` are what a thread still owes to a counter, so counter plus debts
is the size of the table as long as every publication and every removal is
matched.

Two steps break the match.  A replacing `Store` that finds its key gone adds an
entry that nobody counts (`udpSessions_exact_iff`), and a `remove` that finds
the client's count at zero is forgotten (`srcCounts_exact_iff`).  Each is the
only way in which its counter drifts, and the drift never heals.
-/

namespace Ydn64.Nat64.Udp

open Ydn64.GoStd Ydn64.Config Ydn64.Lib

/-! ## Half-way threads -/

/-- A registration or a `deleteSession` has taken its first step on the tables
and not its last one. -/
def Pc.halfway : Pc → Bool
  | .store .. | .addCounter .. | .addSrc .. | .storeFlow .. | .touchBib .. => true
  | .delSession .. | .delCounter .. | .delSrc .. | .delFlow .. => true
  | _ => false

/-- No registration and no `deleteSession` is half-way. -/
def Quiet (s : State) : Prop :=
  ∀ tid ∈ s.threads.keys, ∀ pc ∈ s.threads.lookup tid, pc.halfway = false

instance (s : State) : Decidable (Quiet s) :=
  inferInstanceAs (Decidable (∀ tid ∈ s.threads.keys, _))

theorem Quiet.halfway {s : State} (h : Quiet s) {tid : Tid} {pc : Pc}
    (ht : s.threads.lookup tid = some pc) : pc.halfway = false :=
  h tid (Finmap.mem_keys.2 (Finmap.mem_of_lookup_eq_some ht)) pc ht

/-- The sum of `f` over the threads. -/
def threadTotal (f : Pc → Int) (threads : SyncMap Tid Pc) : Int :=
  SyncMap.total (fun _ => f) threads

theorem threadTotal_setThread (f : Pc → Int) {threads : SyncMap Tid Pc} {tid : Tid} {pc : Pc}
    (ht : threads.lookup tid = some pc) (pc' : Option Pc) :
    threadTotal f (setThread threads tid pc') = threadTotal f threads - f pc + pc'.elim 0 f := by
  unfold threadTotal
  cases pc' with
  | none =>
    rw [setThread, SyncMap.total_erase, SyncMap.contrib_of_some ht, Option.elim_none, add_zero]
  | some p => rw [setThread, SyncMap.total_insert, SyncMap.contrib_of_some ht, Option.elim_some]

theorem threadTotal_insert (f : Pc → Int) {threads : SyncMap Tid Pc} {tid : Tid}
    (ht : threads.lookup tid = none) (pc : Pc) :
    threadTotal f (threads.insert tid pc) = threadTotal f threads + f pc :=
  SyncMap.total_insert_fresh _ ht

theorem threadTotal_mono {f g : Pc → Int} (h : ∀ pc, f pc ≤ g pc) (threads : SyncMap Tid Pc) :
    threadTotal f threads ≤ threadTotal g threads :=
  SyncMap.total_mono fun _ pc _ => h pc

theorem threadTotal_nonneg {f : Pc → Int} (h : ∀ pc, 0 ≤ f pc) (threads : SyncMap Tid Pc) :
    0 ≤ threadTotal f threads := by
  have hzero : threadTotal (fun _ => 0) threads = 0 := SyncMap.total_eq_zero fun _ _ _ => rfl
  rw [← hzero]
  exact threadTotal_mono h threads

/-- Threads that owe nothing unless they are half-way owe nothing in a quiet
state. -/
theorem Quiet.threadTotal_eq_zero {s : State} (h : Quiet s) {f : Pc → Int}
    (hf : ∀ pc, pc.halfway = false → f pc = 0) : threadTotal f s.threads = 0 :=
  SyncMap.total_eq_zero fun _ _ ht => hf _ (h.halfway ht)

theorem CleanupStep.tables {m m' : Memory} {pc pc' : CleanupPc} {ev : CleanupEvent}
    (h : CleanupStep m pc ev m' pc') : m'.sessions = m.sessions ∧
      m'.udpSessions = m.udpSessions ∧ m'.srcCounts = m.srcCounts := by
  cases h <;> exact ⟨rfl, rfl, rfl⟩

/-! ## The counter of all sessions -/

/-- What a thread owes to `udpSessions`. -/
def Pc.owes : Pc → Int
  | .addCounter .. => 1
  | .delCounter .. => -1
  | _ => 0

/-- The entries that are not counted and that no thread will count. -/
def drift (s : State) : Int :=
  SyncMap.size s.mem.sessions - s.mem.udpSessions - threadTotal Pc.owes s.threads

/-- The next operation of the thread is a replacing `Store`, and there is no
entry to replace. -/
def Pc.replacesNothing (m : Memory) : Pc → Bool
  | .store key _ => m.sessions.lookup key = none
  | _ => false

/-- The step is a replacing `Store` that finds its key gone. -/
def replacesNothing (s : State) : Label → Bool
  | .thread tid _ => (s.threads.lookup tid).elim false (Pc.replacesNothing s.mem)
  | _ => false

theorem ReadStep.owes {m : Memory} {pc : Pc} {ev : Event} {pc' : Option Pc}
    (h : ReadStep m pc ev pc') : pc.owes = 0 ∧ pc'.elim 0 Pc.owes = 0 ∧
      pc.replacesNothing m = false := by
  cases h with
  | @pick flow max attempt scan oldest _ => cases oldest <;> exact ⟨rfl, rfl, rfl⟩
  | @bindErr flow ep bindIP want attempt fallback err =>
    cases fallback <;> exact ⟨rfl, rfl, rfl⟩
  | @delLost r key after _ => cases after <;> exact ⟨rfl, rfl, rfl⟩
  | _ => exact ⟨rfl, rfl, rfl⟩

/-- What a step of a thread does to the size of the table, the counter and the
debt of the thread. -/
theorem ThreadStep.drift {m m' : Memory} {pc : Pc} {ev : Event} {pc' : Option Pc}
    (h : ThreadStep m pc ev m' pc') :
    SyncMap.size m'.sessions - m'.udpSessions - pc'.elim 0 Pc.owes =
      SyncMap.size m.sessions - m.udpSessions - pc.owes +
        if pc.replacesNothing m then 1 else 0 := by
  cases h with
  | read h =>
    obtain ⟨howes, howes', hmark⟩ := h.owes
    rw [howes, howes', hmark, if_neg Bool.false_ne_true]
    omega
  | fresh h =>
    have hsize := SyncMap.size_insert_fresh (v := ‹SessRef›) h
    simp only [Memory.storeSession, hsize, Pc.owes, Pc.replacesNothing, Option.elim_some,
      Bool.false_eq_true, if_false]
    omega
  | @store key r =>
    simp only [Memory.storeSession, Pc.owes, Pc.replacesNothing, Option.elim_some,
      decide_eq_true_eq]
    rw [SyncMap.size_eq_total, SyncMap.size_eq_total, SyncMap.total_insert]
    cases hk : m.sessions.lookup key with
    | none =>
      rw [SyncMap.contrib_of_none hk, if_pos rfl]
      omega
    | some r₀ =>
      rw [SyncMap.contrib_of_some hk, if_neg (by simp)]
      omega
  | delWon h =>
    have hsize := SyncMap.size_erase h
    simp only [Memory.eraseSession, hsize, Pc.owes, Pc.replacesNothing, Option.elim_some,
      Bool.false_eq_true, if_false]
    omega
  | delFlow h =>
    rename_i after sess
    cases after <;> exact (add_zero _).symm
  | addCounter =>
    simp only [Memory.addUdpSessions, Pc.owes, Pc.replacesNothing, Option.elim_some,
      Bool.false_eq_true, if_false]
    omega
  | delCounter =>
    simp only [Memory.addUdpSessions, Pc.owes, Pc.replacesNothing, Option.elim_some,
      Bool.false_eq_true, if_false]
    omega
  | _ => exact (add_zero _).symm

/-- The drift moves by one on a replacing `Store` that finds its key gone, and
on no other step. -/
theorem step_drift {s s' : State} {l : Label} (h : step s l = some s') :
    drift s' = drift s + if replacesNothing s l then 1 else 0 := by
  cases step_cases h with
  | thread ht hstep =>
    have hd := hstep.drift
    have htot := threadTotal_setThread Pc.owes ht ‹Option Pc›
    simp only [drift, replacesNothing, ht, Option.elim_some] at hd ⊢
    rw [htot]
    omega
  | datagram ht hp hd =>
    simp only [drift, replacesNothing]
    rw [threadTotal_insert Pc.owes ht]
    simp [Pc.owes]
  | cleanup hstep =>
    obtain ⟨hsess, hcount, -⟩ := hstep.tables
    simp only [drift, hsess, hcount]
    exact (add_zero _).symm
  | @inbound l x hl =>
    have hmark : replacesNothing s l = false := by
      cases l <;> first | rfl | cases hl
    rw [hmark]
    exact (add_zero _).symm
  | _ => exact (add_zero _).symm

theorem drift_eq_countSteps {service : Service} {mtu : Nat} {clock : Int} {labels : List Label}
    {s : State} (hrun : run step (State.init service mtu clock) labels = some s) :
    drift s = countSteps step replacesNothing (State.init service mtu clock) labels := by
  have hdrift := run_drift (I := fun _ => True) (P := fun _ _ => True)
    (fun _ _ _ _ _ h => ⟨trivial, step_drift h⟩) trivial
    (allSteps_of_forall (fun _ _ => trivial) labels _) hrun
  have hinit : drift (State.init service mtu clock) = 0 := rfl
  rw [hdrift, hinit, zero_add]

/-- In a state that is quiet, `udpSessions` is the number of sessions exactly
when no replacing `Store` of the run has found its key gone. -/
theorem udpSessions_exact_iff (service : Service) (mtu : Nat) (clock : Int)
    (labels : List Label) (s : State)
    (hrun : run step (State.init service mtu clock) labels = some s) (hq : Quiet s) :
    s.mem.udpSessions = SyncMap.size s.mem.sessions ↔
      AllSteps step (fun s l => replacesNothing s l = false)
        (State.init service mtu clock) labels := by
  have hdrift := drift_eq_countSteps hrun
  have howes : threadTotal Pc.owes s.threads = 0 :=
    hq.threadTotal_eq_zero fun pc hpc => by cases pc <;> first | rfl | cases hpc
  rw [← countSteps_eq_zero_iff]
  rw [drift, howes] at hdrift
  omega

/-! ### Flows of the traces -/

/-- A service with the pool `300:1:2:3::/96` and room for `max` sessions. -/
def flowService (max : Int) : Option Service :=
  (newService asciiCase { poolConfig "300:1:2:3::/96" with maxUDPSessions := max }
    ["200::/7"] []).toOption

/-- The client `200::n`. -/
def client (n : UInt8) : Addr16 := ⟨[2, 0, 0, 0, 0, 0, 0, 0, 0, 0, 0, 0, 0, 0, 0, n], rfl⟩

/-- The session of port 1000 of a client with port 53 of `1.2.3.4`. -/
def flowKey (n : UInt8) : SessionKey := ⟨client n, 1000, ⟨[1, 2, 3, 4], rfl⟩, 53⟩

/-- The thread takes its next `n` operations, which have one outcome each. -/
def nexts (tid : Tid) (n : Nat) : List Label := List.replicate n (.thread tid .next)

/-- A datagram of a client to a port of `1.2.3.4` arrives and is admitted at
once; its endpoint is made. -/
def arriveTo (port : UInt16) (tid : Tid) (n : UInt8) : List Label :=
  [.datagram tid (endpoint (client n) pingDst96 1000 port)] ++ nexts tid 3 ++
    [.thread tid (.created true)]

/-- The same to port 53. -/
def arrive : Tid → UInt8 → List Label := arriveTo 53

/-- `192.0.2.1`, the address of the routes to `1.2.3.4`. -/
def routeIP : Addr4 := ⟨[192, 0, 2, 1], rfl⟩

/-- The flow finds no BIB entry, makes one on the external port `port` and
stands before its `LoadOrStore`. -/
def newMapping (tid : Tid) (port : UInt16) : List Label :=
  nexts tid 1 ++ [.thread tid (.probed (.ok routeIP))] ++ nexts tid 1 ++
    [.thread tid (.bound (.ok port))] ++ nexts tid 3

/-- The forward loop of the flow ends, and its `deleteSession` wins. -/
def endFlow (tid : Tid) : List Label := [.thread tid (.read none)] ++ nexts tid 5

/-- The cleanup goroutine expires the flow of a client: it closes the endpoint,
and it closes and deletes the BIB entry. -/
def expireFlow (n : UInt8) : List Label :=
  [.advance (301 * 10 ^ 9), .cleanup .tick, .cleanup (.visitSess (flowKey n)), .cleanup .next,
    .cleanup .next, .cleanup (.visitBib (bibKey (flowKey n))), .cleanup .next, .cleanup .next,
    .cleanup .next]

/-! ### A replaced entry -/

/-- One flow that is set up alone is counted. -/
theorem udpSessions_exact_oneFlow :
    ∃ svc ∈ flowService 4096,
      ∃ s ∈ run step (State.init svc 1280 0) (arrive 0 1 ++ newMapping 0 40000 ++ nexts 0 5),
        Quiet s ∧ s.mem.udpSessions = 1 ∧
        AllSteps step (fun s l => replacesNothing s l = false) (State.init svc 1280 0)
          (arrive 0 1 ++ newMapping 0 40000 ++ nexts 0 5) := by
  have hrun : ∃ svc ∈ flowService 4096,
      ∃ s ∈ run step (State.init svc 1280 0) (arrive 0 1 ++ newMapping 0 40000 ++ nexts 0 5),
        Quiet s ∧ s.mem.udpSessions = 1 ∧
          s.mem.udpSessions = SyncMap.size s.mem.sessions := by
    decide +kernel
  obtain ⟨svc, hsvc, s, hs, hq, hone, hexact⟩ := hrun
  exact ⟨svc, hsvc, s, hs, hq, hone,
    (udpSessions_exact_iff svc 1280 0 _ s hs hq).1 hexact⟩

/-- A flow expires, its tuple comes back, and the new registration finds the
stale entry.  The old forward loop deletes and uncounts it before the `Store`,
so the table ends with one session and the counter at zero. -/
theorem stale_replacement_not_counted :
    ∃ svc ∈ flowService 4096,
      ∃ s ∈ run step (State.init svc 1280 0)
          (arrive 0 1 ++ newMapping 0 40000 ++ nexts 0 5 ++ expireFlow 1 ++
            arrive 1 1 ++ newMapping 1 40002 ++ nexts 1 1 ++ endFlow 0 ++ nexts 1 3),
        Quiet s ∧ s.mem.udpSessions = 0 ∧ SyncMap.size s.mem.sessions = 1 := by
  decide +kernel

/-! ## The counter of each client -/

/-- The sessions of a client. -/
def entriesOf (src : Addr16) (sessions : SyncMap SessionKey SessRef) : Int :=
  SyncMap.total (fun key _ => if key.srcAddr = src then 1 else 0) sessions

/-- What a thread owes to the UDP count of a client. -/
def Pc.owesSrc (src : Addr16) : Pc → Int
  | .addCounter key _ | .addSrc key _ => if key.srcAddr = src then 1 else 0
  | .delCounter _ key _ | .delSrc _ key _ => if key.srcAddr = src then -1 else 0
  | _ => 0

/-- The count of a client with all debts paid, less its sessions. -/
def srcDrift (src : Addr16) (s : State) : Int :=
  SrcTracker.count s.mem.srcCounts src .srcUDP - entriesOf src s.mem.sessions +
    threadTotal (Pc.owesSrc src) s.threads

/-- The next operation of the thread is a `LoadOrStore` that finds a stale
entry. -/
def Pc.findsStale (m : Memory) : Pc → Bool
  | .loadOrStore key _ => m.sessions.lookup key ≠ none
  | _ => false

/-- The step is a registration that finds a stale entry of its tuple. -/
def findsStale (s : State) : Label → Bool
  | .thread tid _ => (s.threads.lookup tid).elim false (Pc.findsStale s.mem)
  | _ => false

/-- The next operation of the thread takes a unit from a client whose count is
zero. -/
def Pc.underRun (m : Memory) : Pc → Option Addr16
  | .delSrc _ key _ =>
    if SrcTracker.count m.srcCounts key.srcAddr .srcUDP ≤ 0 then some key.srcAddr else none
  | _ => none

/-- The client whose count a `remove` of the step finds at zero. -/
def underRun (s : State) : Label → Option Addr16
  | .thread tid _ => (s.threads.lookup tid).bind (Pc.underRun s.mem)
  | _ => none

/-- No registration is about to replace a stale entry. -/
def NoStale (s : State) : Prop :=
  ∀ tid key r, s.threads.lookup tid ≠ some (.store key r)

theorem ReadStep.owesSrc {m : Memory} {pc : Pc} {ev : Event} {pc' : Option Pc}
    (h : ReadStep m pc ev pc') (src : Addr16) : pc.owesSrc src = 0 ∧
      pc'.elim 0 (Pc.owesSrc src) = 0 ∧ pc.underRun m = none := by
  cases h with
  | @pick flow max attempt scan oldest _ => cases oldest <;> exact ⟨rfl, rfl, rfl⟩
  | @bindErr flow ep bindIP want attempt fallback err =>
    cases fallback <;> exact ⟨rfl, rfl, rfl⟩
  | @delLost r key after _ => cases after <;> exact ⟨rfl, rfl, rfl⟩
  | _ => exact ⟨rfl, rfl, rfl⟩

/-- What a step of a thread does to the count of a client, its sessions and the
debt of the thread, replacements apart. -/
theorem ThreadStep.srcDrift {m m' : Memory} {pc : Pc} {ev : Event} {pc' : Option Pc}
    (h : ThreadStep m pc ev m' pc') (hstore : ∀ key r, pc ≠ .store key r) (src : Addr16) :
    SrcTracker.count m'.srcCounts src .srcUDP - entriesOf src m'.sessions +
        pc'.elim 0 (Pc.owesSrc src) =
      SrcTracker.count m.srcCounts src .srcUDP - entriesOf src m.sessions + pc.owesSrc src +
        if pc.underRun m = some src then 1 else 0 := by
  cases h with
  | read h =>
    obtain ⟨howes, howes', hmark⟩ := h.owesSrc src
    rw [howes, howes', hmark, if_neg fun h => by cases h]
    omega
  | @fresh key r h =>
    have hent := SyncMap.total_insert_fresh
      (fun (key : SessionKey) (_ : SessRef) => if key.srcAddr = src then (1 : Int) else 0)
      (v := r) h
    simp only [entriesOf, Memory.storeSession, hent, Pc.owesSrc, Pc.underRun, Option.elim_some,
      reduceCtorEq, if_false]
    omega
  | store => exact absurd rfl (hstore _ _)
  | @delWon r key after h =>
    have hent := SyncMap.total_erase
      (fun (key : SessionKey) (_ : SessRef) => if key.srcAddr = src then (1 : Int) else 0)
      m.sessions key
    rw [SyncMap.contrib_of_some h] at hent
    simp only [entriesOf, Memory.eraseSession, hent, Pc.owesSrc, Pc.underRun, Option.elim_some,
      reduceCtorEq, if_false]
    split_ifs <;> omega
  | @addSrc key r =>
    simp only [Memory.addSrc, SrcTracker.count_add, Pc.owesSrc, Pc.underRun, Option.elim_some,
      reduceCtorEq, if_false, and_true, eq_comm (a := src)]
    omega
  | @delSrc r key after =>
    simp only [Memory.removeSrc, SrcTracker.count_remove, Pc.owesSrc, Pc.underRun,
      Option.elim_some, true_and, eq_comm (a := src)]
    by_cases hsrc : key.srcAddr = src
    · subst hsrc
      by_cases hpos : 0 < SrcTracker.count m.srcCounts key.srcAddr .srcUDP
      · simp [hpos, not_le.2 hpos]
        omega
      · simp [hpos, not_lt.1 hpos]
    · simp [hsrc]
  | delFlow h =>
    rename_i after sess
    cases after <;> exact (add_zero _).symm
  | _ => exact (add_zero _).symm

theorem ThreadStep.source_of_store {m m' : Memory} {pc : Pc} {ev : Event} {key : SessionKey}
    {r : SessRef} (h : ThreadStep m pc ev m' (some (.store key r))) :
    pc.findsStale m = true := by
  generalize hp : some (Pc.store key r) = pc' at h
  cases h with
  | read h =>
    cases h with
    | stale h =>
      rw [Pc.findsStale, h]
      rfl
    | @pick flow max attempt scan oldest _ => cases oldest <;> cases hp
    | @bindErr flow ep bindIP want attempt fallback err => cases fallback <;> cases hp
    | @delLost r key after _ => cases after <;> cases hp
    | _ => cases hp
  | delFlow h =>
    rename_i after sess
    cases after <;> cases hp
  | _ => cases hp

theorem NoStale.step {s s' : State} {l : Label} (hs : NoStale s)
    (hfresh : findsStale s l = false) (h : step s l = some s') : NoStale s' := by
  intro a key r ha
  cases step_cases h with
  | @thread tid ev pc m pc' ht hstep =>
    rw [lookup_setThread] at ha
    split_ifs at ha with heq
    · subst ha
      rw [findsStale, ht, Option.elim_some, hstep.source_of_store] at hfresh
      cases hfresh
    · exact hs a key r ha
  | datagram ht hp hd =>
    rw [SyncMap.lookup_insert_eq_ite] at ha
    split_ifs at ha with heq
    · cases ha
    · exact hs a key r ha
  | _ => exact hs a key r ha

/-- Without replacements the drift of a client moves by one on a `remove` that
finds its count at zero, and on no other step. -/
theorem step_srcDrift {s s' : State} {l : Label} (hs : NoStale s) (h : step s l = some s')
    (src : Addr16) :
    srcDrift src s' = srcDrift src s + if underRun s l = some src then 1 else 0 := by
  cases step_cases h with
  | @thread tid ev pc m pc' ht hstep =>
    have hd := hstep.srcDrift (fun key r hpc => hs tid key r (hpc ▸ ht)) src
    have htot := threadTotal_setThread (Pc.owesSrc src) ht pc'
    simp only [srcDrift, underRun, ht, Option.bind_some] at hd ⊢
    rw [htot]
    omega
  | datagram ht hp hd =>
    simp only [srcDrift, underRun]
    rw [threadTotal_insert (Pc.owesSrc src) ht]
    simp [Pc.owesSrc]
  | cleanup hstep =>
    obtain ⟨hsess, -, hsrc⟩ := hstep.tables
    simp only [srcDrift, hsess, hsrc]
    exact (add_zero _).symm
  | @inbound l x hl =>
    have hmark : underRun s l = none := by
      cases l <;> first | rfl | cases hl
    rw [hmark]
    exact (add_zero _).symm
  | tcpAdd => simp [srcDrift, Memory.addSrc, SrcTracker.count_add, underRun]
  | tcpRemove => simp [srcDrift, Memory.removeSrc, SrcTracker.count_remove, underRun]
  | _ => exact (add_zero _).symm

/-- In a quiet state of a run that registers fresh tuples only, the UDP count of
every client is the number of its sessions exactly when no `remove` of the run
has found a count at zero. -/
theorem srcCounts_exact_iff (service : Service) (mtu : Nat) (clock : Int)
    (labels : List Label) (s : State)
    (hrun : run step (State.init service mtu clock) labels = some s)
    (hfresh : AllSteps step (fun s l => findsStale s l = false)
      (State.init service mtu clock) labels) (hq : Quiet s) :
    (∀ src, SrcTracker.count s.mem.srcCounts src .srcUDP = entriesOf src s.mem.sessions) ↔
      AllSteps step (fun s l => underRun s l = none) (State.init service mtu clock)
        labels := by
  have hnone : AllSteps step (fun s l => underRun s l = none)
      (State.init service mtu clock) labels ↔
      ∀ src, AllSteps step (fun s l => decide (underRun s l = some src) = false)
        (State.init service mtu clock) labels := by
    rw [allSteps_forall]
    refine allSteps_congr fun s l => ?_
    cases underRun s l <;> simp
  rw [hnone]
  refine forall_congr' fun src => ?_
  have hdrift : srcDrift src s = srcDrift src (State.init service mtu clock) +
      countSteps step (fun s l => decide (underRun s l = some src))
        (State.init service mtu clock) labels :=
    run_drift (I := NoStale) (P := fun s l => findsStale s l = false)
      (fun s l s' hs hf h => ⟨hs.step hf h, by simpa using step_srcDrift hs h src⟩)
      (fun _ _ _ hl => by cases hl) hfresh hrun
  have hinit : srcDrift src (State.init service mtu clock) = 0 := rfl
  have howes : threadTotal (Pc.owesSrc src) s.threads = 0 :=
    hq.threadTotal_eq_zero fun pc hpc => by cases pc <;> first | rfl | cases hpc
  rw [← countSteps_eq_zero_iff]
  rw [hinit, srcDrift, howes] at hdrift
  omega

/-! ### An eviction half-way through a registration -/

/-- A datagram of a client arrives at a full table and evicts the session of
another one; then its endpoint is made. -/
def arriveEvicting (tid : Tid) (n victim : UInt8) : List Label :=
  [.datagram tid (endpoint (client n) pingDst96 1000 53)] ++ nexts tid 3 ++
    [.thread tid (.visit (flowKey victim))] ++ nexts tid 7 ++ [.thread tid (.created true)]

/-- The second client evicts the first one after its registration. -/
def evictAfter : List Label :=
  arrive 0 1 ++ newMapping 0 40000 ++ nexts 0 5 ++
    arriveEvicting 1 2 1 ++ newMapping 1 40002 ++ nexts 1 5

/-- The second client evicts the first one between its two counters; the first
one then ends its registration and its forward loop. -/
def evictBetween : List Label :=
  arrive 0 1 ++ newMapping 0 40000 ++ nexts 0 2 ++
    arriveEvicting 1 2 1 ++ newMapping 1 40002 ++ nexts 1 5 ++
    nexts 0 3 ++ [.thread 0 (.read none)] ++ nexts 0 2

/-- An eviction after the registration leaves the counts exact. -/
theorem srcCounts_exact_evictAfter :
    ∃ svc ∈ flowService 1, ∃ s ∈ run step (State.init svc 1280 0) evictAfter,
      Quiet s ∧ ∀ src,
        SrcTracker.count s.mem.srcCounts src .srcUDP = entriesOf src s.mem.sessions := by
  have hrun : ∃ svc ∈ flowService 1, ∃ s ∈ run step (State.init svc 1280 0) evictAfter,
      Quiet s ∧
      AllSteps step (fun s l => findsStale s l = false) (State.init svc 1280 0) evictAfter ∧
      AllSteps step (fun s l => underRun s l = none) (State.init svc 1280 0) evictAfter := by
    decide +kernel
  obtain ⟨svc, hsvc, s, hs, hq, hfresh, hunder⟩ := hrun
  exact ⟨svc, hsvc, s, hs, hq, (srcCounts_exact_iff svc 1280 0 _ s hs hfresh hq).2 hunder⟩

/-- An eviction between the publication of a session and the count of its client
leaves the client with a count of one and no session. -/
theorem eviction_leaks_srcCount :
    ∃ svc ∈ flowService 1, ∃ s ∈ run step (State.init svc 1280 0) evictBetween,
      Quiet s ∧
      AllSteps step (fun s l => findsStale s l = false) (State.init svc 1280 0) evictBetween ∧
      SrcTracker.count s.mem.srcCounts (client 1) .srcUDP = 1 ∧
      entriesOf (client 1) s.mem.sessions = 0 := by
  decide +kernel

end Ydn64.Nat64.Udp
