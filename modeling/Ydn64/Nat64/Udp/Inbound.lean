import Ydn64.Nat64.Udp.Registry

/-!
# IPv4-side traffic does not extend a mapping

The handlers of inbound data write the fields of the synthesis paths only
(`Side`), and every other step of the machine acts on the rest of the state
without looking at those fields, except to decide what it injects.  So two runs
with the same client-side events go through the same states up to `Side`
(`inbound_noninterference`): the same stamps, the same entries picked by an
eviction or by a cleanup tick, the same tables.

The other events include everything that stands in their labels: the times, the
answers of the system calls, and the order in which an iteration visits its
entries.
-/

namespace Ydn64.Nat64.Udp

open Ydn64.GoStd Ydn64.Config Ydn64.Lib

/-! ## The part of the state that the client side drives -/

/-- The fields of the synthesis paths when the translator starts. -/
def Side.zero : Side := ⟨{}, {}, 0, IcmpState.init 0, [], []⟩

/-- The memory without the fields of the synthesis paths. -/
def Memory.core (m : Memory) : Memory := m.withSide Side.zero

/-- The state without the fields of the synthesis paths.  What remains are the
clock and the settings, the tables, the stamps, and where every thread and the
cleanup goroutine stand, the entries included that they have picked. -/
def State.core (s : State) : State := { s with mem := s.mem.core }

theorem eq_withSide_of_core_eq {s t : State} (h : s.core = t.core) :
    t = { s with mem := s.mem.withSide t.mem.side } := by
  have hmem : s.mem.core = t.mem.core := congrArg State.mem h
  have ht : t.mem = s.mem.withSide t.mem.side := by
    calc t.mem = t.mem.core.withSide t.mem.side := rfl
      _ = s.mem.core.withSide t.mem.side := by rw [hmem]
      _ = s.mem.withSide t.mem.side := rfl
  have hthreads : t.threads = s.threads := (congrArg State.threads h).symm
  have hcleanup : t.cleanup = s.cleanup := (congrArg State.cleanup h).symm
  have hcutoff : t.cutoff = s.cutoff := (congrArg State.cutoff h).symm
  change State.mk t.mem t.threads t.cleanup t.cutoff =
    State.mk (s.mem.withSide t.mem.side) s.threads s.cleanup s.cutoff
  rw [← ht, hthreads, hcleanup, hcutoff]

/-! ## A step looks at the core only -/

section
variable (m : Memory) (x : Side)

/-- The step of a flow thread on the core. -/
theorem threadStep_withSide (pc : Pc) (ev : Event) :
    (threadStep (m.withSide x) pc ev).map (Prod.map Memory.core id) =
      (threadStep m pc ev).map (Prod.map Memory.core id) := by
  have hsess : (m.withSide x).sessions = m.sessions := rfl
  have hbibs : (m.withSide x).bibs = m.bibs := rfl
  have hsocks : (m.withSide x).sockets = m.sockets := rfl
  have hbibHeap : (m.withSide x).bibHeap = m.bibHeap := rfl
  have hheap : (m.withSide x).sessHeap = m.sessHeap := rfl
  have hep : (m.withSide x).epOpen = m.epOpen := rfl
  have hsock : (m.withSide x).sockOpen = m.sockOpen := rfl
  have hdemux : (m.withSide x).demuxed = m.demuxed := rfl
  -- Most operations do not branch on the memory.
  cases pc <;> cases ev <;> try rfl
  case evict.next flow max attempt scan oldest =>
    simp only [threadStep, hsess]
    split_ifs <;> rfl
  case evict.visit flow max attempt scan oldest key =>
    simp only [threadStep, hsess]
    cases m.sessions.lookup key with
    | none => rfl
    | some r =>
      dsimp only
      split_ifs <;> rfl
  case createEndpoint.created flow ok =>
    simp only [threadStep, hdemux]
    split_ifs <;> rfl
  case bibBind.bound flow ep bindIP want attempt fallback res =>
    cases res with
    | error err => rfl
    | ok port =>
      simp only [threadStep, bindOk]
      split_ifs <;> rfl
  case bibTake.next flow ep sock leftover =>
    simp only [threadStep, hsocks]
    cases m.sockets sock <;> rfl
  case bibPublish.next flow ep b =>
    simp only [threadStep, hbibs]
    cases m.bibs.lookup (bibKey flow.key) <;> rfl
  case bibSurplus.next flow ep b actual | newSession.next flow ep b =>
    simp only [threadStep, hbibHeap]
    cases m.bibHeap b <;> rfl
  case loadOrStore.next key r =>
    simp only [threadStep, hsess]
    cases m.sessions.lookup key <;> rfl
  case storeFlow.next key r | touchBib.next key r | fwdTouch.next key r buf
      | delClose.next r key after | delFlow.next r key after =>
    simp only [threadStep, hheap]
    cases m.sessHeap r <;> rfl
  case fwdRead.read key r res =>
    cases res with
    | none => rfl
    | some buf =>
      simp only [threadStep, hheap, hep]
      cases m.sessHeap r with
      | none => rfl
      | some sess =>
        dsimp only
        split_ifs <;> rfl
  case fwdWrite.wrote key r buf res =>
    simp only [threadStep, hheap, hbibHeap, hsock]
    cases m.sessHeap r with
    | none => rfl
    | some sess =>
      dsimp only
      cases m.bibHeap sess.bib with
      | none => rfl
      | some bib =>
        cases res <;> dsimp only
        case failed => rfl
        all_goals split_ifs <;> rfl
  case delSession.next r key after =>
    simp only [threadStep, hsess]
    split_ifs <;> rfl

/-- The step of the cleanup goroutine on the core. -/
theorem cleanupStep_withSide (pc : CleanupPc) (ev : CleanupEvent) :
    (cleanupStep (m.withSide x) pc ev).map (Prod.map Memory.core id) =
      (cleanupStep m pc ev).map (Prod.map Memory.core id) := by
  have hsess : (m.withSide x).sessions = m.sessions := rfl
  have hbibs : (m.withSide x).bibs = m.bibs := rfl
  have hbibHeap : (m.withSide x).bibHeap = m.bibHeap := rfl
  have hheap : (m.withSide x).sessHeap = m.sessHeap := rfl
  have hsessSeen : (m.withSide x).sessSeen = m.sessSeen := rfl
  have hbibSeen : (m.withSide x).bibSeen = m.bibSeen := rfl
  cases pc <;> cases ev <;> try rfl
  case sessScan.next cutoff scan | stopSess.next scan =>
    simp only [cleanupStep, hsess]
    split_ifs <;> rfl
  case sessScan.visitSess cutoff scan key =>
    simp only [cleanupStep, hsess, hsessSeen]
    cases m.sessions.lookup key with
    | none => rfl
    | some r =>
      dsimp only
      split_ifs <;> rfl
  case sessClose.next cutoff scan r =>
    simp only [cleanupStep, hheap]
    cases m.sessHeap r <;> rfl
  case bibScan.next cutoff scan | stopBibs.next scan =>
    simp only [cleanupStep, hbibs]
    split_ifs <;> rfl
  case bibScan.visitBib cutoff scan bk =>
    simp only [cleanupStep, hbibs, hbibSeen]
    cases m.bibs.lookup bk with
    | none => rfl
    | some b =>
      dsimp only
      split_ifs <;> rfl
  case bibClose.next cutoff scan bk b =>
    simp only [cleanupStep, hbibHeap]
    cases m.bibHeap b <;> rfl
  case stopSess.visitSess scan key =>
    simp only [cleanupStep, hsess, hheap]
    cases (m.sessions.lookup key).bind m.sessHeap with
    | none => rfl
    | some sess =>
      dsimp only
      split_ifs <;> rfl
  case stopBibs.visitBib scan bk =>
    simp only [cleanupStep, hbibs, hbibHeap]
    cases (m.bibs.lookup bk).bind m.bibHeap with
    | none => rfl
    | some bib =>
      dsimp only
      split_ifs <;> rfl

end

/-- A step that is no inbound event on the core. -/
theorem step_withSide (s : State) (x : Side) {l : Label} (hl : l.inboundEvent = false) :
    (step { s with mem := s.mem.withSide x } l).map State.core = (step s l).map State.core := by
  cases l with
  | datagram tid id =>
    have hparse : (s.mem.withSide x).service = s.mem.service := rfl
    have hdemux : (s.mem.withSide x).demuxed = s.mem.demuxed := rfl
    simp only [step, hparse, hdemux]
    cases s.threads.lookup tid with
    | some pc => rfl
    | none =>
      cases parseUDPFlow s.mem.service id with
      | none => rfl
      | some flow =>
        dsimp only
        split_ifs <;> rfl
  | thread tid ev =>
    simp only [step]
    cases s.threads.lookup tid with
    | none => rfl
    | some pc =>
      have h := threadStep_withSide s.mem x pc ev
      dsimp only
      cases h₁ : threadStep (s.mem.withSide x) pc ev <;> cases h₂ : threadStep s.mem pc ev <;>
        rw [h₁, h₂] at h
      case none.some => cases h
      case some.none => cases h
      case some.some res₁ res₂ =>
        obtain ⟨hmem, hpc⟩ := Prod.mk.inj (Option.some.inj h)
        simp only [Option.map_some, State.core, hmem, show res₁.2 = res₂.2 from hpc]
  | cleanup ev =>
    have h := cleanupStep_withSide s.mem x s.cleanup ev
    simp only [step]
    cases h₁ : cleanupStep (s.mem.withSide x) s.cleanup ev <;>
      cases h₂ : cleanupStep s.mem s.cleanup ev <;> rw [h₁, h₂] at h
    case none.some => cases h
    case some.none => cases h
    case some.some res₁ res₂ =>
      obtain ⟨hmem, hpc⟩ := Prod.mk.inj (Option.some.inj h)
      simp only [Option.map_some, State.core, hmem, show res₁.2 = res₂.2 from hpc]
  | loopExit b | loopDelete b =>
    have hloops : (s.mem.withSide x).loops = s.mem.loops := rfl
    simp only [step, hloops]
    cases s.mem.loops b with
    | none => rfl
    | some loop =>
      obtain ⟨bk, pc⟩ := loop
      cases pc <;> rfl
  | advance d | reload settings | tcpAdd src | tcpRemove src => rfl
  | _ => cases hl

/-! ## Two runs -/

theorem core_eq_of_inbound {s s' : State} {l : Label} (hl : l.inboundEvent = true)
    (h : step s l = some s') : s'.core = s.core := by
  cases step_cases h with
  | inbound => rfl
  | _ => cases hl

theorem core_eq_of_step {s t s' t' : State} {l : Label} (hl : l.inboundEvent = false)
    (hst : s.core = t.core) (hs : step s l = some s') (ht : step t l = some t') :
    s'.core = t'.core := by
  have h := step_withSide s t.mem.side hl
  rw [← eq_withSide_of_core_eq hst, hs, ht] at h
  exact (Option.some.inj h).symm

/-- Two runs with the same events apart from inbound ones go through states with
the same cores: after every event of the client side the stamps of all sessions
and BIB entries are the same, and so are the entries that the evictions and the
cleanup ticks have picked. -/
theorem inbound_noninterference (service : Service) (mtu : Nat) (clock : Int)
    (ls ms : List Label) (s t : State)
    (hevents : ls.filter (fun l => !l.inboundEvent) = ms.filter (fun l => !l.inboundEvent))
    (hs : run step (State.init service mtu clock) ls = some s)
    (ht : run step (State.init service mtu clock) ms = some t) :
    loudViews step State.core Label.inboundEvent (State.init service mtu clock) ls =
      loudViews step State.core Label.inboundEvent (State.init service mtu clock) ms ∧
    s.mem.sessSeen = t.mem.sessSeen ∧ s.mem.bibSeen = t.mem.bibSeen ∧
    s.mem.sessions = t.mem.sessions ∧ s.mem.bibs = t.mem.bibs ∧
    s.threads = t.threads ∧ s.cleanup = t.cleanup := by
  obtain ⟨hviews, hend⟩ :=
    run_views (fun _ _ _ => core_eq_of_inbound) (fun _ _ _ _ _ => core_eq_of_step)
      hevents rfl hs ht
  have hmem : s.mem.core = t.mem.core := congrArg State.mem hend
  exact ⟨hviews, (congrArg Memory.sessSeen hmem :), (congrArg Memory.bibSeen hmem :),
    (congrArg Memory.sessions hmem :), (congrArg Memory.bibs hmem :),
    (congrArg State.threads hend :), (congrArg State.cleanup hend :)⟩

/-- The server answers the first flow of `evictAfter`, and a router sends an
ICMPv4 error about it, before the second client arrives. -/
def evictAfterReplies : List Label :=
  arrive 0 1 ++ newMapping 0 40000 ++ nexts 0 5 ++
    [.inbound 2 (v4Tuple (flowKey 1)) [1, 2, 3] [v4Tuple (flowKey 1)] 1,
      .icmpError ⟨[198, 51, 100, 1], rfl⟩
        ([3, 1, 0, 0, 0, 0, 0, 0] ++
          [0x45, 0, 0, 28, 0, 0, 0, 0, 64, 17, 0, 0, 192, 0, 2, 1, 1, 2, 3, 4] ++
          [0x9c, 0x40, 0, 53, 0, 8, 0, 0]) [flowKey 1]] ++
    arriveEvicting 1 2 1 ++ newMapping 1 40002 ++ nexts 1 5

/-- The replies reach the client, and the eviction and the stamps are those of
the run without them. -/
theorem inbound_noninterference_evictAfter :
    ∃ svc ∈ flowService 1,
      ∃ s ∈ run step (State.init svc 1280 0) evictAfterReplies,
      ∃ t ∈ run step (State.init svc 1280 0) evictAfter,
        s.mem.relayed.length = 1 ∧ s.mem.injected.length = 1 ∧
        s.mem.sessSeen = t.mem.sessSeen ∧ s.mem.bibSeen = t.mem.bibSeen ∧
        s.mem.sessions = t.mem.sessions := by
  have hrun : ∃ svc ∈ flowService 1,
      ∃ s ∈ run step (State.init svc 1280 0) evictAfterReplies,
      ∃ _t ∈ run step (State.init svc 1280 0) evictAfter,
        s.mem.relayed.length = 1 ∧ s.mem.injected.length = 1 := by
    decide +kernel
  obtain ⟨svc, hsvc, s, hs, t, ht, hrel, hinj⟩ := hrun
  have h := inbound_noninterference svc 1280 0 evictAfterReplies evictAfter s t rfl hs ht
  exact ⟨svc, hsvc, s, hs, t, ht, hrel, hinj, h.2.1, h.2.2.1, h.2.2.2.1⟩

end Ydn64.Nat64.Udp
