import Ydn64.Nat64.TcpSlots
import Ydn64.Nat64.Udp.Registry

/-!
# How far the limits can be passed

Three limits are checked at one place and counted at a later one: the number of UDP
sessions, the number of UDP sessions of a client, and the number of proxied TCP
connections of a client.  The comments of `src/nat64/persource.go` and
`src/nat64/udp.go` say that a limit is passed by no more than the number of set-ups
that are under way at the same time.  The theorems of this module say that, for every
order of the operations, and what the sessions are that nobody counts.

* `sessions_ceiling`: the session table.
* `source_sessions_ceiling`: the sessions of one client.
* `source_connections_ceiling`: the connections of one client.
* `source_slots_ceiling`: a client keeps to its limit of connections if its set-ups come
  one after the other, and not otherwise (`two_past_limit`).
-/

namespace Ydn64.Nat64.Udp

open Ydn64.GoStd Ydn64.Config Ydn64.Lib

/-! ## All sessions -/

/-- One for a set-up that has been admitted and not counted yet. -/
def Pc.settingUp : Pc → Int
  | .createEndpoint _ | .bibLoad .. | .bibProbe .. | .bibListen .. | .bibBind .. | .bibTake ..
  | .bibPublish .. | .bibSurplus .. | .newSession .. | .loadOrStore .. | .addCounter .. => 1
  | _ => 0

/-- The limit that the set-up has loaded. -/
def After.max? : After → Option Int
  | .admitLoop _ max _ => some max
  | .exit => none

def Pc.max? : Pc → Option Int
  | .admitLoop _ max _ | .evict _ max _ _ _ => some max
  | .delClose _ _ after | .delSession _ _ after | .delCounter _ _ after | .delSrc _ _ after
  | .delFlow _ _ after => after.max?
  | _ => none

section

variable {m m' : Memory} {pc : Pc} {ev : Event} {pc' : Option Pc} {limit : Int}

theorem After.pc_settingUp (after : After) : after.pc.elim 0 Pc.settingUp = 0 := by
  cases after <;> rfl

/-- A flow is admitted while the counter is below the limit; otherwise no step of a
thread adds to the counter and the set-ups under way. -/
theorem threadStep_settingUp (h : threadStep m pc ev = some (m', pc'))
    (hlimit : m.service.settings.maxUDPSessions = limit) (hpos : 0 < limit)
    (hmax : ∀ max, pc.max? = some max → max = limit) :
    (m.udpSessions < limit ∧ m'.udpSessions ≤ m.udpSessions) ∨
      m'.udpSessions + pc'.elim 0 Pc.settingUp ≤ m.udpSessions + pc.settingUp := by
  cases threadStep_cases h with
  | read hread =>
    cases hread with
    | admitOk hlt =>
      rw [hmax _ rfl] at hlt
      exact .inl ⟨hlt, le_refl _⟩
    | unlimited =>
      simp only [threadStep, hlimit, Option.some.injEq, Prod.mk.injEq, true_and] at h
      rw [if_neg (not_le.2 hpos)] at h
      cases h
    | @pick _ _ _ _ oldest =>
      right
      cases oldest <;> simp [evictPick, Pc.settingUp]
    | @bindErr _ _ _ _ _ fallback _ =>
      right
      cases fallback <;> simp [Udp.bindErr, Pc.settingUp]
    | delLost =>
      right
      simp [After.pc_settingUp, Pc.settingUp]
    | _ =>
      right
      simp [Pc.settingUp]
  | addCounter =>
    right
    simp [Pc.settingUp, Memory.addUdpSessions]
  | delCounter =>
    right
    simp [Pc.settingUp, Memory.addUdpSessions]
  | delFlow =>
    right
    simp [After.pc_settingUp, Pc.settingUp, Memory.deleteFlow]
  | _ => exact .inr (le_refl _)

/-- The limit that a set-up has loaded is the one in force. -/
theorem threadStep_max (h : threadStep m pc ev = some (m', pc'))
    (hlimit : m.service.settings.maxUDPSessions = limit)
    (hmax : ∀ max, pc.max? = some max → max = limit) {p : Pc} (hp : pc' = some p) {max : Int}
    (hpmax : p.max? = some max) : max = limit := by
  have hafter : ∀ {after : After}, after.pc = some p → after.max? = some max := by
    intro after heq
    cases after with
    | exit => cases heq
    | admitLoop =>
      obtain rfl := Option.some.inj heq
      exact hpmax
  cases threadStep_cases h with
  | read hread =>
    cases hread with
    | limited =>
      simp only [threadStep, hlimit, Option.some.injEq, Prod.mk.injEq, true_and] at h
      obtain rfl := Option.some.inj hp
      split_ifs at h
      cases h
      exact (Option.some.inj hpmax).symm
    | @pick _ _ _ _ oldest =>
      obtain rfl := Option.some.inj hp
      cases oldest <;> exact hmax max hpmax
    | delLost => exact hmax max (hafter hp)
    | @bindErr _ _ _ _ _ fallback _ =>
      obtain rfl := Option.some.inj hp
      cases fallback <;> cases hpmax
    | srcShed => cases hp
    | admitShed => cases hp
    | epFail => cases hp
    | admitEvict | visit =>
      obtain rfl := Option.some.inj hp
      exact hmax max hpmax
    | _ =>
      obtain rfl := Option.some.inj hp
      cases hpmax
  | delClose | delWon | delCounter | delSrc =>
    obtain rfl := Option.some.inj hp
    exact hmax max hpmax
  | delFlow => exact hmax max (hafter hp)
  | epClose => cases hp
  | _ =>
    obtain rfl := Option.some.inj hp
    cases hpmax

end

/-- The set-ups that have been admitted and are not counted yet. -/
def settingUp (s : State) : Int := threadTotal Pc.settingUp s.threads

/-- Every set-up goes by the limit. -/
def LimitLoaded (limit : Int) (s : State) : Prop :=
  ∀ tid pc max, s.threads.lookup tid = some pc → pc.max? = some max → max = limit

/-- What a step that is not one of a thread does to the threads and to the counters:
nothing, but for a new thread that stands at its first check. -/
structure Elsewhere (s s' : State) : Prop where
  udpSessions : s'.mem.udpSessions = s.mem.udpSessions
  srcCounts : ∀ src, s'.mem.srcCounts.count src .srcUDP = s.mem.srcCounts.count src .srcUDP
  threads : s'.threads = s.threads ∨ ∃ tid flow, s.threads.lookup tid = none ∧
    s'.threads = s.threads.insert tid (.srcCheck flow)

/-- A step is one of a thread, or it happens elsewhere. -/
theorem step_thread_or {s s' : State} {l : Label} (h : step s l = some s') :
    Elsewhere s s' ∨ ∃ tid ev pc m pc', s.threads.lookup tid = some pc ∧
      threadStep s.mem pc ev = some (m, pc') ∧
      s' = { s with mem := m, threads := setThread s.threads tid pc' } := by
  by_cases hl : ∃ tid ev, l = .thread tid ev
  · obtain ⟨tid, ev, rfl⟩ := hl
    simp only [step] at h
    split at h
    · cases h
    · next pc hpc =>
      split at h
      · cases h
      · next m pc' hstep => exact .inr ⟨tid, ev, pc, m, pc', hpc, hstep, (Option.some.inj h).symm⟩
  · left
    cases step_cases h with
    | thread => exact absurd ⟨_, _, rfl⟩ hl
    | datagram ht => exact ⟨rfl, fun _ => rfl, .inr ⟨_, _, ht, rfl⟩⟩
    | cleanup hc =>
      obtain ⟨-, hu, hsrc⟩ := hc.tables
      exact ⟨hu, fun src => by rw [hsrc], .inl rfl⟩
    | tcpAdd => exact ⟨rfl, fun _ => by simp [Memory.addSrc, SrcTracker.count_add], .inl rfl⟩
    | tcpRemove =>
      exact ⟨rfl, fun _ => by simp [Memory.removeSrc, SrcTracker.count_remove], .inl rfl⟩
    | _ => exact ⟨rfl, fun _ => rfl, .inl rfl⟩

/-- What the operations of the threads do to a counter and to the set-ups under way is
what every step does. -/
theorem keepsCeiling_of_threads (counter : Memory → Int) (weight : Pc → Int) {limit : Int}
    {s s' : State} {l : Label} (hfirst : ∀ flow, weight (.srcCheck flow) = 0)
    (hother : Elsewhere s s' → counter s'.mem = counter s.mem)
    (hthread : ∀ tid pc ev m pc', s.threads.lookup tid = some pc →
      threadStep s.mem pc ev = some (m, pc') →
      (counter s.mem < limit ∧ counter m ≤ counter s.mem) ∨
        counter m + pc'.elim 0 weight ≤ counter s.mem + weight pc)
    (h : step s l = some s') :
    KeepsCeiling (fun s => counter s.mem) (fun s => threadTotal weight s.threads) limit s s' := by
  unfold KeepsCeiling
  dsimp only
  obtain hother' | ⟨tid, ev, pc, m, pc', ht, hstep, rfl⟩ := step_thread_or h
  · right
    rw [hother hother']
    obtain hthreads | ⟨tid, flow, ht, hthreads⟩ := hother'.threads
    · rw [hthreads]
    · rw [hthreads, threadTotal_insert _ ht, hfirst, add_zero]
  · dsimp only
    rw [threadTotal_setThread _ ht]
    exact (hthread tid pc ev m pc' ht hstep).imp_right fun hle => by omega

theorem LimitLoaded.step {s s' : State} {l : Label} {limit : Int} (hI : LimitLoaded limit s)
    (hlimit : s.mem.service.settings.maxUDPSessions = limit) (h : step s l = some s') :
    LimitLoaded limit s' := by
  intro tid' p max htid hmax
  obtain ⟨-, -, hthreads | ⟨tid, flow, -, hthreads⟩⟩ | ⟨tid, ev, pc, m, pc', ht, hstep, rfl⟩ :=
    step_thread_or h
  · exact hI tid' p max (hthreads ▸ htid) hmax
  · rw [hthreads, SyncMap.lookup_insert_eq_ite] at htid
    split_ifs at htid
    · obtain rfl := Option.some.inj htid
      cases hmax
    · exact hI tid' p max htid hmax
  · rw [lookup_setThread] at htid
    split_ifs at htid
    · exact threadStep_max hstep hlimit (fun max => hI tid pc max ht) htid hmax
    · exact hI tid' p max htid hmax

theorem owes_le_settingUp (s : State) : threadTotal Pc.owes s.threads ≤ settingUp s :=
  threadTotal_mono (fun pc => by cases pc <;> simp [Pc.owes, Pc.settingUp]) _

theorem settingUp_nonneg (s : State) : 0 ≤ settingUp s :=
  threadTotal_nonneg (fun pc => by cases pc <;> simp [Pc.settingUp]) _

/-- With a limit on the UDP sessions and never more than `most` set-ups between their
admission and their count, the counter stays below the limit plus `most`, and the
table has no more sessions than that but for the replacing `Store`s that found their
key gone. -/
theorem sessions_ceiling (service : Service) (mtu : Nat) (clock limit most : Int)
    (hpos : 0 < limit) (labels : List Label) (s : State)
    (hrun : run step (State.init service mtu clock) labels = some s)
    (hsteps : AllSteps step
      (fun s _ => s.mem.service.settings.maxUDPSessions = limit ∧ settingUp s ≤ most)
      (State.init service mtu clock) labels)
    (hend : settingUp s ≤ most) :
    s.mem.udpSessions ≤ limit - 1 + most ∧
      (SyncMap.size s.mem.sessions : Int) ≤ limit - 1 + most +
        countSteps step replacesNothing (State.init service mtu clock) labels := by
  have hceiling : s.mem.udpSessions + settingUp s ≤ limit - 1 + most :=
    run_ceiling (I := LimitLoaded limit) (fun s => s.mem.udpSessions) settingUp
      (fun s l s' hI hP hl => ⟨hI.step hP.1 hl,
        keepsCeiling_of_threads Memory.udpSessions Pc.settingUp (fun _ => rfl)
          Elsewhere.udpSessions (fun tid pc _ _ _ ht hstep =>
            threadStep_settingUp hstep hP.1 hpos fun max => hI tid pc max ht) hl⟩)
      (fun s l hP => hP.2)
      (fun _ _ _ h => by cases h) hpos hsteps hrun hend
  have hdrift := drift_eq_countSteps hrun
  have howes := owes_le_settingUp s
  have hnonneg := settingUp_nonneg s
  rw [drift] at hdrift
  omega

/-- Two clients are admitted before either of them is counted. -/
def bothAdmitted : List Label :=
  arrive 0 1 ++ arrive 1 2 ++ newMapping 0 40000 ++ newMapping 1 40002 ++ nexts 0 5 ++ nexts 1 5

/-- With room for one session and two set-ups under way there are two sessions. -/
theorem sessions_ceiling_bothAdmitted :
    ∃ svc ∈ flowService 1, ∃ s ∈ run step (State.init svc 1280 0) bothAdmitted,
      SyncMap.size s.mem.sessions = 2 ∧ s.mem.udpSessions ≤ 1 - 1 + 2 := by
  have hrun : ∃ svc ∈ flowService 1,
      AllSteps step
        (fun s _ => s.mem.service.settings.maxUDPSessions = 1 ∧ settingUp s ≤ 2)
        (State.init svc 1280 0) bothAdmitted ∧
      ∃ s ∈ run step (State.init svc 1280 0) bothAdmitted,
        settingUp s ≤ 2 ∧ SyncMap.size s.mem.sessions = 2 := by
    decide +kernel
  obtain ⟨svc, hsvc, hsteps, s, hs, hend, hsize⟩ := hrun
  exact ⟨svc, hsvc, s, hs, hsize,
    (sessions_ceiling svc 1280 0 1 2 (by decide) bothAdmitted s hs hsteps hend).1⟩

/-! ## The sessions of a client -/

def After.admitted : After → Option SessionKey
  | .admitLoop flow _ _ => some flow.key
  | .exit => none

/-- The flow that has passed the check of its client and is not counted yet. -/
def Pc.admitted : Pc → Option SessionKey
  | .admitSession flow | .admitLoop flow _ _ | .evict flow _ _ _ _ | .createEndpoint flow
  | .bibLoad flow _ | .bibProbe flow _ | .bibListen flow _ _ | .bibBind flow _ _ _ _ _
  | .bibTake flow _ _ _ | .bibPublish flow _ _ | .bibSurplus flow _ _ _ | .newSession flow _ _ =>
    some flow.key
  | .loadOrStore key _ | .addCounter key _ | .addSrc key _ => some key
  | .delClose _ _ after | .delSession _ _ after | .delCounter _ _ after | .delSrc _ _ after
  | .delFlow _ _ after => after.admitted
  | _ => none

/-- One for a set-up of the client that has passed its check and is not counted yet. -/
def Pc.settingUpFrom (src : Addr16) (pc : Pc) : Int :=
  pc.admitted.elim 0 fun key => if key.srcAddr = src then 1 else 0

theorem Pc.settingUpFrom_nonneg (src : Addr16) (pc : Pc) : 0 ≤ pc.settingUpFrom src := by
  unfold Pc.settingUpFrom
  cases pc.admitted with
  | none => exact le_refl _
  | some key =>
    simp only [Option.elim_some]
    split_ifs <;> decide

section

variable {m m' : Memory} {pc : Pc} {ev : Event} {pc' : Option Pc} {limit : Int}

theorem After.pc_settingUpFrom (src : Addr16) (after : After) :
    after.pc.elim 0 (Pc.settingUpFrom src) =
      after.admitted.elim 0 fun key => if key.srcAddr = src then 1 else 0 := by
  cases after <;> rfl

/-- A flow of the client passes the check while its count is below the limit;
otherwise no step of a thread adds to the count and the set-ups under way. -/
theorem threadStep_settingUpFrom (h : threadStep m pc ev = some (m', pc'))
    (hlimit : m.service.settings.maxUDPSessionsPerSrc = limit) (hpos : 0 < limit) (src : Addr16) :
    (m.srcCounts.count src .srcUDP < limit ∧
        m'.srcCounts.count src .srcUDP ≤ m.srcCounts.count src .srcUDP) ∨
      m'.srcCounts.count src .srcUDP + pc'.elim 0 (Pc.settingUpFrom src) ≤
        m.srcCounts.count src .srcUDP + pc.settingUpFrom src := by
  cases threadStep_cases h with
  | read hread =>
    cases hread with
    | @srcPass flow =>
      have hsheds : shedsSource m flow = false := by
        simp only [threadStep, Option.some.injEq, Prod.mk.injEq, true_and] at h
        split_ifs at h with hsheds
        exact eq_false_of_ne_true hsheds
      by_cases hsrc : flow.key.srcAddr = src
      · simp only [shedsSource, hlimit, hpos, hsrc, true_and, decide_eq_false_iff_not, not_le]
          at hsheds
        exact .inl ⟨hsheds, le_refl _⟩
      · right
        simp [Pc.settingUpFrom, Pc.admitted, hsrc]
    | @pick _ _ _ _ oldest =>
      right
      cases oldest <;> exact le_refl _
    | @bindErr _ _ _ _ _ fallback _ =>
      right
      cases fallback with
      | none => exact Int.add_le_add_left (Pc.settingUpFrom_nonneg src _) _
      | some => exact le_refl _
    | delLost =>
      right
      rw [After.pc_settingUpFrom]
      exact le_refl _
    | admitShed | epFail | probeErr | stale =>
      exact .inr (Int.add_le_add_left (Pc.settingUpFrom_nonneg src _) _)
    | _ => exact .inr (le_refl _)
  | @addSrc key r =>
    right
    by_cases hsrc : src = key.srcAddr
    · simp [Memory.addSrc, SrcTracker.count_add, Pc.settingUpFrom, Pc.admitted, hsrc]
    · simp [Memory.addSrc, SrcTracker.count_add, Pc.settingUpFrom, Pc.admitted, hsrc, Ne.symm hsrc]
  | @delSrc r key after =>
    right
    simp only [Memory.removeSrc, SrcTracker.count_remove, Pc.settingUpFrom, Pc.admitted,
      Option.elim_some]
    split_ifs <;> omega
  | delFlow =>
    right
    rw [After.pc_settingUpFrom]
    exact le_refl _
  | _ => exact .inr (le_refl _)

end

/-- The set-ups of a client that have passed its check and are not counted yet. -/
def settingUpFrom (src : Addr16) (s : State) : Int := threadTotal (Pc.settingUpFrom src) s.threads

theorem owesSrc_le_settingUpFrom (src : Addr16) (s : State) :
    threadTotal (Pc.owesSrc src) s.threads ≤ settingUpFrom src s := by
  refine threadTotal_mono (fun pc => ?_) _
  cases pc with
  | addCounter | addSrc => exact le_refl _
  | delCounter | delSrc =>
    refine le_trans ?_ (Pc.settingUpFrom_nonneg src _)
    simp only [Pc.owesSrc]
    split_ifs <;> decide
  | _ => exact Pc.settingUpFrom_nonneg src _

/-- With a limit on the UDP sessions of a client and never more than `most` of its
set-ups between the check and the count, the count of the client stays below the limit
plus `most`; and so does the number of its sessions, if every tuple that is set up is
a fresh one. -/
theorem source_sessions_ceiling (service : Service) (mtu : Nat) (clock limit most : Int)
    (src : Addr16) (hpos : 0 < limit) (labels : List Label) (s : State)
    (hrun : run step (State.init service mtu clock) labels = some s)
    (hsteps : AllSteps step (fun s _ => s.mem.service.settings.maxUDPSessionsPerSrc = limit ∧
      settingUpFrom src s ≤ most) (State.init service mtu clock) labels)
    (hend : settingUpFrom src s ≤ most) :
    s.mem.srcCounts.count src .srcUDP ≤ limit - 1 + most ∧
      (AllSteps step (fun s l => findsStale s l = false) (State.init service mtu clock) labels →
        entriesOf src s.mem.sessions ≤ limit - 1 + most) := by
  have hceiling : s.mem.srcCounts.count src .srcUDP + settingUpFrom src s ≤ limit - 1 + most :=
    run_ceiling (I := fun _ => True) (fun s => s.mem.srcCounts.count src .srcUDP)
      (settingUpFrom src)
      (fun s l s' _ hP hl => ⟨trivial,
        keepsCeiling_of_threads (fun m => m.srcCounts.count src .srcUDP) (Pc.settingUpFrom src)
          (fun _ => rfl) (fun hother => hother.srcCounts src)
          (fun _ _ _ _ _ _ hstep => threadStep_settingUpFrom hstep hP.1 hpos src) hl⟩)
      (fun s l hP => hP.2)
      trivial hpos hsteps hrun hend
  have hnonneg : 0 ≤ settingUpFrom src s := threadTotal_nonneg (Pc.settingUpFrom_nonneg src) _
  refine ⟨by omega, fun hfresh => ?_⟩
  -- A `remove` that finds nothing leaves the count above the sessions, never below.
  have hdrift : NoStale s ∧ 0 ≤ srcDrift src s := by
    refine run_invariant (I := fun s => NoStale s ∧ 0 ≤ srcDrift src s)
      (fun s l s' hs hP hl => ⟨hs.1.step hP hl, ?_⟩) ⟨fun _ _ _ h => (by cases h), ?_⟩ hfresh hrun
    · have hmove := step_srcDrift hs.1 hl src
      have hold := hs.2
      split_ifs at hmove <;> omega
    · exact le_refl _
  have howes := owesSrc_le_settingUpFrom src s
  have := hdrift.2
  unfold srcDrift at this
  omega

/-- A service with the pool `300:1:2:3::/96` and one session for each client. -/
def oneSessionEach : Option Service :=
  (newService asciiCase { poolConfig "300:1:2:3::/96" with maxUDPSessionsPerSrc := 1 }
    ["200::/7"] []).toOption

/-- Two flows of a client pass its check before either of them is counted. -/
def twoOfOne : List Label :=
  arrive 0 1 ++ arriveTo 54 1 1 ++ newMapping 0 40000 ++ nexts 0 5 ++ nexts 1 7

/-- With one session for each client and two set-ups under way a client has two
sessions. -/
theorem source_sessions_ceiling_twoOfOne :
    ∃ svc ∈ oneSessionEach, ∃ s ∈ run step (State.init svc 1280 0) twoOfOne,
      entriesOf (client 1) s.mem.sessions = 2 ∧
      s.mem.srcCounts.count (client 1) .srcUDP ≤ 1 - 1 + 2 := by
  have hrun : ∃ svc ∈ oneSessionEach,
      AllSteps step (fun s _ => s.mem.service.settings.maxUDPSessionsPerSrc = 1 ∧
        settingUpFrom (client 1) s ≤ 2) (State.init svc 1280 0) twoOfOne ∧
      ∃ s ∈ run step (State.init svc 1280 0) twoOfOne,
        settingUpFrom (client 1) s ≤ 2 ∧ entriesOf (client 1) s.mem.sessions = 2 := by
    decide +kernel
  obtain ⟨svc, hsvc, hsteps, s, hs, hend, hentries⟩ := hrun
  exact ⟨svc, hsvc, s, hs, hentries,
    (source_sessions_ceiling svc 1280 0 1 2 (client 1) (by decide) twoOfOne s hs hsteps hend).1⟩

end Ydn64.Nat64.Udp

namespace Ydn64.Nat64

open Ydn64.GoStd Ydn64.Config Ydn64.Lib

/-! ## The connections of a client -/

/-- Every invocation goes by the limit. -/
def ClientLimitLoaded (limit : Int) (s : TcpState) : Prop :=
  ∀ n h l, s.handlers.lookup n = some h → h.pc = .count l → l = limit

/-- The limit of a client is loaded right before its count. -/
theorem handlerStep_count {m m' : TcpMemory} {now : Int} {n : TcpRef} {ok : Bool}
    {h h' : TcpHandler} (hstep : handlerStep m now n ok h = some (m', some h')) {l : Int}
    (hpc' : h'.pc = .count l) : l = m.perSrcTCPLimit := by
  have hmove := (handlerStep_move hstep).1
  rw [Option.map_some, hpc'] at hmove
  generalize h.pc = pc at hmove
  cases hmove with
  | quiet _ hcount => exact hcount l rfl

theorem ClientLimitLoaded.step {limit : Int} {s s' : TcpState} {l : TcpLabel}
    (h : ClientLimitLoaded limit s) (hlimit : s.mem.perSrcTCPLimit = limit)
    (hstep : tcpStep s l = some s') : ClientLimitLoaded limit s' := by
  intro n hd l' hl hpc
  cases l with
  | syn id =>
    obtain rfl := Option.some.inj hstep
    rw [SyncMap.lookup_insert_eq_ite] at hl
    split_ifs at hl
    · obtain rfl := Option.some.inj hl
      cases hpc
    · exact h n hd l' hl hpc
  | handler k ok =>
    obtain ⟨hd₀, hl₀, hstep⟩ := Option.bind_eq_some_iff.1 hstep
    obtain ⟨⟨m, o⟩, hhandler, rfl⟩ := Option.map_eq_some_iff.1 hstep
    rw [SyncMap.lookup_put] at hl
    split_ifs at hl
    · dsimp only at hl
      subst hl
      rw [← hlimit]
      exact handlerStep_count hhandler hpc
    · exact h n hd l' hl hpc
  | transfer | tick =>
    simp only [tcpStep] at hstep
    split at hstep
    · obtain rfl := Option.some.inj hstep
      exact h n hd l' hl hpc
    · cases hstep
  | visit | reap =>
    obtain ⟨_, -, rfl⟩ := Option.map_eq_some_iff.1 hstep
    exact h n hd l' hl hpc
  | _ =>
    obtain rfl := Option.some.inj hstep
    exact h n hd l' hl hpc

/-- A connection of a client is counted, or set up and not counted yet, or neither:
an operation adds to neither of the two, unless it passes the limit. -/
theorem TcpMove.settingUp {now : Int} {n : TcpRef} {src : Addr16} {m m' : TcpMemory} {pc : TcpPc}
    {pc' : Option TcpPc} (hmove : TcpMove now n src m pc m' pc') :
    (pc.passesLimit m src = true ∧ weight (·.counted) pc' = weight (·.counted) (some pc)) ∨
      weight (·.counted) pc' + weight (·.pending) pc' ≤
        weight (·.counted) (some pc) + weight (·.pending) (some pc) := by
  cases hmove with
  | quiet h _ => exact .inr (by rw [weight_quiet h, weight_quiet h])
  | refuse h => exact .inr (by simp [weight, h])
  | pass h hpass => exact .inl ⟨hpass, by simp [weight, h, standing_tryAcquireTCP]⟩
  | _ => exact .inr (by simp [weight, TcpPc.standing])

/-- The connections of a client that are counted. -/
def connectionsOf (src : Addr16) (s : TcpState) : Int := s.numberFrom src (·.counted)

/-- The invocations of a client that have passed its limit and are not counted yet. -/
def connectingOf (src : Addr16) (s : TcpState) : Int := s.numberFrom src (·.pending)

theorem tcpStep_ceiling {sem : Option Nat} {limit : Int} {s s' : TcpState} {l : TcpLabel}
    (hacc : Accounting sem s) (hload : ClientLimitLoaded limit s)
    (hlimit : s.mem.perSrcTCPLimit = limit) (hpos : 0 < limit) (hstep : tcpStep s l = some s')
    (src : Addr16) : KeepsCeiling (connectionsOf src) (connectingOf src) limit s s' := by
  unfold KeepsCeiling connectionsOf connectingOf
  cases tcpStep_change hstep with
  | syn hpc =>
    right
    simp only [TcpState.numberFrom]
    rw [hacc.size_syn (by simp [hpc]), hacc.size_syn (by simp [hpc])]
  | @handler n ok hd m o hlabel hl hmove hid =>
    rw [s.numberFrom_put m hl hid, s.numberFrom_put m hl hid]
    by_cases hsrc : src = hd.srcKey
    · rw [if_pos hsrc, if_pos hsrc]
      refine hmove.settingUp.imp ?_ fun hle => by omega
      -- Whoever passes the limit has found the count below it.
      rintro ⟨hpass, hweight⟩
      refine ⟨?_, by omega⟩
      have hcount := hacc.counts src
      cases hpc : hd.pc with
      | perSrcTCPLimit =>
        rw [hpc] at hpass
        have := of_decide_eq_true hpass
        omega
      | count l =>
        rw [hpc, ← hsrc] at hpass
        have hlt := of_decide_eq_true hpass
        have := hload n hd l hl hpc
        omega
      | _ =>
        rw [hpc] at hpass
        cases hpass
    · rw [if_neg hsrc, if_neg hsrc]
      right
      omega
  | udp => exact .inr (le_refl _)
  | frame => exact .inr (le_refl _)

section Connections

variable {svc : Service} {clock limit most : Int} {src : Addr16} {ls : List TcpLabel}
  {s : TcpState}

theorem connections_run (hpos : 0 < limit) (hrun : run tcpStep (.start svc clock) ls = some s)
    (hsteps : AllSteps tcpStep (fun s _ => s.mem.perSrcTCPLimit = limit ∧ connectingOf src s ≤ most)
      (.start svc clock) ls)
    (hend : connectingOf src s ≤ most) :
    connectionsOf src s + connectingOf src s ≤ limit - 1 + most := by
  have hstep : ∀ s l s', (Accounting svc.tcpSem s ∧ ClientLimitLoaded limit s) →
      (s.mem.perSrcTCPLimit = limit ∧ connectingOf src s ≤ most) → tcpStep s l = some s' →
      (Accounting svc.tcpSem s' ∧ ClientLimitLoaded limit s') ∧
        KeepsCeiling (connectionsOf src) (connectingOf src) limit s s' :=
    fun s l s' hI hP hl => ⟨⟨hI.1.step hl, hI.2.step hP.1 hl⟩,
      tcpStep_ceiling hI.1 hI.2 hP.1 hpos hl src⟩
  have hstart : Accounting svc.tcpSem (.start svc clock) ∧
      ClientLimitLoaded limit (.start svc clock) :=
    ⟨.start svc clock, fun _ _ _ h => by cases h⟩
  exact run_ceiling (connectionsOf src) (connectingOf src) hstep (fun s l hP => hP.2) hstart
    hpos hsteps hrun hend

/-- An invocation that holds a slot has passed the limit and is counted, or will be
with its next operation. -/
theorem slots_le (src : Addr16) (s : TcpState) :
    (s.numberFrom src (·.holdsSlot) : Int) ≤ connectionsOf src s + connectingOf src s := by
  have hor : ∀ pc : TcpPc, pc.standing.holdsSlot = true →
      pc.standing.counted = true ∨ pc.standing.pending = true := by
    intro pc hslot
    cases pc <;> first | exact .inl rfl | exact .inr rfl | cases hslot
  have hle : s.numberFrom src (·.holdsSlot) ≤
      s.numberFrom src (·.counted) + s.numberFrom src (·.pending) := by
    apply SyncMap.size_filter_le_add
    intro h hp
    simp only [Bool.and_eq_true] at hp ⊢
    exact (hor h.pc hp.2).imp (⟨hp.1, ·⟩) (⟨hp.1, ·⟩)
  unfold connectionsOf connectingOf
  omega

end Connections

/-- With a limit on the connections of a client and never more than `most` of its
invocations between the check and the count, the client has fewer connections than
the limit plus `most`. -/
theorem source_connections_ceiling (svc : Service) (clock limit most : Int) (src : Addr16)
    (hpos : 0 < limit) (ls : List TcpLabel) (s : TcpState)
    (hrun : run tcpStep (.start svc clock) ls = some s)
    (hsteps : AllSteps tcpStep (fun s _ => s.mem.perSrcTCPLimit = limit ∧ connectingOf src s ≤ most)
      (.start svc clock) ls)
    (hend : connectingOf src s ≤ most) :
    s.mem.srcCounts.count src .srcTCP + connectingOf src s ≤ limit - 1 + most := by
  have hacc : Accounting svc.tcpSem s :=
    run_invariant_of_step (fun _ _ _ hi hl => hi.step hl) (.start svc clock) hrun
  rw [hacc.counts src]
  exact connections_run hpos hrun hsteps hend

/-- One connection for each client. -/
def oneEach : NAT64Config :=
  { poolConfig "300:1:2:3::/96" with maxTCPConnectionsPerSrc := 1 }

/-- Two SYNs of a client pass its limit before either is counted. -/
def twoSyns : List TcpLabel :=
  [sampleSyn 1000, sampleSyn 1001] ++ advances 0 4 ++ advances 1 4 ++ advances 0 6 ++ advances 1 6

/-- With one connection for each client and two SYNs under way a client has two
connections. -/
theorem source_connections_ceiling_twoSyns :
    ∃ svc ∈ (newService asciiCase oneEach ["200::/7"] []).toOption,
      ∃ s ∈ run tcpStep (.start svc 0) twoSyns,
        s.mem.srcCounts.count pingSrc .srcTCP = 2 ∧
        s.mem.srcCounts.count pingSrc .srcTCP + connectingOf pingSrc s ≤ 1 - 1 + 2 := by
  have hrun : ∃ svc ∈ (newService asciiCase oneEach ["200::/7"] []).toOption,
      AllSteps tcpStep (fun s _ => s.mem.perSrcTCPLimit = 1 ∧ connectingOf pingSrc s ≤ 2)
        (.start svc 0) twoSyns ∧
      ∃ s ∈ run tcpStep (.start svc 0) twoSyns,
        connectingOf pingSrc s ≤ 2 ∧ s.mem.srcCounts.count pingSrc .srcTCP = 2 := by
    decide +kernel
  obtain ⟨svc, hsvc, hsteps, s, hs, hend, hcount⟩ := hrun
  exact ⟨svc, hsvc, s, hs, hcount,
    source_connections_ceiling svc 0 1 2 pingSrc (by decide) twoSyns s hs hsteps hend⟩

/-- With the limit `l` in force, a client of whose invocations no two are between the
check and the count at the same time has at most `l` connections that hold a slot. -/
theorem source_slots_ceiling (svc : Service) (clock l : Int) (src : Addr16) (hl : 0 < l)
    (ls : List TcpLabel) (s : TcpState) (hrun : run tcpStep (.start svc clock) ls = some s)
    (hserial : AllSteps tcpStep (fun s _ => s.mem.perSrcTCPLimit = l ∧ connectingOf src s ≤ 1)
      (.start svc clock) ls)
    (hend : connectingOf src s ≤ 1) : (s.numberFrom src (·.holdsSlot) : Int) ≤ l := by
  have hbound := connections_run hl hrun hserial hend
  have hslots := slots_le src s
  omega

/-- The second SYN comes when the first connection is counted, and is refused. -/
theorem source_slots_ceiling_oneEach :
    ∃ svc ∈ (newService asciiCase oneEach ["200::/7"] []).toOption,
      ∃ s ∈ run tcpStep (.start svc 0)
        ([sampleSyn 1000] ++ advances 0 10 ++ [sampleSyn 1001] ++ advances 1 4),
        s.number (·.holdsSlot) = 1 ∧ (s.numberFrom pingSrc (·.holdsSlot) : Int) ≤ 1 := by
  have hrun : ∃ svc ∈ (newService asciiCase oneEach ["200::/7"] []).toOption,
      AllSteps tcpStep (fun s _ => s.mem.perSrcTCPLimit = 1 ∧ connectingOf pingSrc s ≤ 1)
        (.start svc 0) ([sampleSyn 1000] ++ advances 0 10 ++ [sampleSyn 1001] ++ advances 1 4) ∧
      ∃ s ∈ run tcpStep (.start svc 0)
        ([sampleSyn 1000] ++ advances 0 10 ++ [sampleSyn 1001] ++ advances 1 4),
        connectingOf pingSrc s ≤ 1 ∧ s.number (·.holdsSlot) = 1 := by
    decide +kernel
  obtain ⟨svc, hsvc, hserial, s, hs, hend, hone⟩ := hrun
  exact ⟨svc, hsvc, s, hs, hone,
    source_slots_ceiling svc 0 1 pingSrc (by decide) _ s hs hserial hend⟩

/-- Two SYNs pass the limit before either is counted, and both connections hold a
slot. -/
theorem two_past_limit :
    ∃ svc ∈ (newService asciiCase oneEach ["200::/7"] []).toOption,
      AllSteps tcpStep (fun s _ => s.mem.perSrcTCPLimit = 1) (.start svc 0)
        twoSyns ∧
      ∃ s ∈ run tcpStep (.start svc 0) twoSyns,
        s.numberFrom pingSrc (·.holdsSlot) = 2 := by
  decide +kernel

end Ydn64.Nat64
