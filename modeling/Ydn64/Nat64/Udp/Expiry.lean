import Ydn64.Nat64.Udp.Objects

/-!
# BIB entries live on their own clock

A BIB entry and the sessions on it are made together and end apart.  A session
ends with its forward loop, with an eviction or with an expiry; the entry ends
when a tick of the cleanup goroutine finds that its client has been silent for
`udpTimeout`, or with its reply loop.  So an entry can be in the map with no
session left on it (`eviction_leaves_bib`), and what bounds it is time and not
the ceilings on sessions.

`idle_bibs_touched_since_tick` is that bound: where nothing is in progress,
every entry in the map has had a session, and its client has been active since
the cutoff of the last tick.  The tick races with set-ups, so the invariant
speaks of two kinds of entries (`Expiring`): those whose stamp is recent or
whose stamping thread is on its way (`Recent`), and those that the iteration of
the tick has still to visit (`CleanupPc.pending`).
-/

namespace Ydn64.Nat64.Udp

open Ydn64.GoStd Ydn64.Config Ydn64.Lib

/-! ## Idle states -/

/-- The thread is in its forward loop. -/
def Pc.relaying : Pc → Bool
  | .fwdRead .. | .fwdStamp .. | .fwdTouch .. | .fwdWrite .. => true
  | _ => false

/-- No tick and no shutdown is in progress. -/
def CleanupPc.resting : CleanupPc → Bool
  | .idle | .stopped => true
  | _ => false

/-- No set-up, no teardown and no tick is in progress. -/
def Idle (s : State) : Prop :=
  (∀ tid ∈ s.threads.keys, ∀ pc ∈ s.threads.lookup tid, pc.relaying = true) ∧
    s.cleanup.resting = true

instance (s : State) : Decidable (Idle s) := inferInstanceAs (Decidable (_ ∧ _))

theorem Idle.relaying {s : State} (h : Idle s) {tid : Tid} {pc : Pc}
    (ht : s.threads.lookup tid = some pc) : pc.relaying = true :=
  h.1 tid (Finmap.mem_keys.2 (Finmap.mem_of_lookup_eq_some ht)) pc ht

/-! ## Stamps -/

/-- The BIB entry that a set-up has still to touch. -/
def Pc.toTouch (m : Memory) : Pc → Option BibRef
  | .newSession _ _ b => some b
  | .loadOrStore _ r | .store _ r | .addCounter _ r | .addSrc _ r | .storeFlow _ r
  | .touchBib _ r => (m.sessHeap r).map UdpSession.bib
  | _ => none

/-- The BIB entry on which a set-up has still to register its session. -/
def Pc.toRegister (m : Memory) : Pc → Option BibRef
  | .newSession _ _ b => some b
  | .loadOrStore _ r | .store _ r => (m.sessHeap r).map UdpSession.bib
  | _ => none

theorem Pc.toTouch_of_relaying {m : Memory} {pc : Pc} (h : pc.relaying = true) :
    pc.toTouch m = none := by
  cases pc <;> first | rfl | cases h

theorem Pc.toRegister_of_relaying {m : Memory} {pc : Pc} (h : pc.relaying = true) :
    pc.toRegister m = none := by
  cases pc <;> first | rfl | cases h

/-- The entry was touched at `c` or later, or a set-up is about to touch it. -/
def Recent (s : State) (c : Int) (b : BibRef) : Prop :=
  c ≤ s.mem.bibSeen b ∨
    ∃ tid pc, s.threads.lookup tid = some pc ∧ pc.toTouch s.mem = some b

section
variable {m m' : Memory}

theorem sessHeap_map_mono (hle : m.Le m') {r : SessRef} {b : BibRef}
    (h : (m.sessHeap r).map UdpSession.bib = some b) :
    (m'.sessHeap r).map UdpSession.bib = some b := by
  obtain ⟨sess, hs, hb⟩ := Option.map_eq_some_iff.1 h
  rw [hle.sessHeap r sess hs, Option.map_some, hb]

theorem Pc.toTouch_mono {pc : Pc} (hle : m.Le m') {b : BibRef} (h : pc.toTouch m = some b) :
    pc.toTouch m' = some b := by
  cases pc with
  | newSession => exact h
  | loadOrStore | store | addCounter | addSrc | storeFlow | touchBib =>
    exact sessHeap_map_mono hle h
  | _ => cases h

theorem Pc.toRegister_mono {pc : Pc} (hle : m.Le m') {b : BibRef}
    (h : pc.toRegister m = some b) : pc.toRegister m' = some b := by
  cases pc with
  | newSession => exact h
  | loadOrStore => exact sessHeap_map_mono hle h
  | store => exact sessHeap_map_mono hle h
  | _ => cases h

variable {pc : Pc} {ev : Event} {pc' : Option Pc}

theorem ThreadStep.toTouch (h : ThreadStep m pc ev m' pc') {b : BibRef}
    (hb : pc.toTouch m = some b) :
    m'.bibSeen b = m.clock ∨ ∃ p, pc' = some p ∧ p.toTouch m' = some b := by
  cases h with
  | read h =>
    cases h with
    | stale => exact .inr ⟨_, rfl, hb⟩
    | _ => cases hb
  | newSession =>
    obtain rfl := Option.some.inj hb
    exact .inr ⟨_, rfl, Memory.map_sessHeap_newSess ..⟩
  | fresh | store | addCounter | addSrc | storeFlow => exact .inr ⟨_, rfl, hb⟩
  | @touchBib key r sess hs =>
    obtain ⟨S, hS, rfl⟩ := Option.map_eq_some_iff.1 hb
    obtain rfl := Option.some.inj (hs.symm.trans hS)
    exact .inl (Function.update_self ..)
  | _ => cases hb

theorem ThreadStep.toRegister (h : ThreadStep m pc ev m' pc') {b : BibRef}
    (hb : pc.toRegister m = some b) :
    (∃ key r p sess, pc' = some p ∧ m'.sessHeap r = some sess ∧ sess.bib = b ∧
      (p = .addCounter key r ∨ p = .storeFlow key r) ∧ m'.sessions.lookup key = some r) ∨
      ∃ p, pc' = some p ∧ p.toRegister m' = some b := by
  cases h with
  | read h =>
    cases h with
    | stale => exact .inr ⟨_, rfl, hb⟩
    | _ => cases hb
  | newSession =>
    obtain rfl := Option.some.inj hb
    exact .inr ⟨_, rfl, Memory.map_sessHeap_newSess ..⟩
  | fresh =>
    obtain ⟨sess, hs, rfl⟩ := Option.map_eq_some_iff.1 hb
    exact .inl ⟨_, _, _, sess, rfl, hs, rfl, .inl rfl, Finmap.lookup_insert _⟩
  | store =>
    obtain ⟨sess, hs, rfl⟩ := Option.map_eq_some_iff.1 hb
    exact .inl ⟨_, _, _, sess, rfl, hs, rfl, .inr rfl, Finmap.lookup_insert _⟩
  | _ => cases hb

theorem ThreadStep.bibSeen (h : ThreadStep m pc ev m' pc') (b : BibRef) :
    m'.bibSeen b = m.bibSeen b ∨ m'.bibSeen b = m.clock := by
  have hupd : ∀ k, Function.update m.bibSeen k m.clock b = m.bibSeen b ∨
      Function.update m.bibSeen k m.clock b = m.clock := by
    intro k
    by_cases he : b = k
    · rw [he]
      exact .inr (Function.update_self ..)
    · exact .inl (Function.update_of_ne he ..)
  cases h with
  | take | touchBib | fwdTouch => exact hupd _
  | _ => exact .inl rfl

theorem ThreadStep.clock (h : ThreadStep m pc ev m' pc') : m'.clock = m.clock := by
  cases h <;> rfl

end

/-! ## Steps -/

theorem clock_le_of_step {s s' : State} {l : Label} (hl : step s l = some s') :
    s.mem.clock ≤ s'.mem.clock := by
  cases step_cases hl with
  | thread ht hstep => exact hstep.clock.ge
  | cleanup hstep =>
    have hclock : ∀ {pc ev m pc'}, CleanupStep s.mem pc ev m pc' → m.clock = s.mem.clock := by
      intro pc ev m pc' h
      cases h <;> rfl
    exact (hclock hstep).ge
  | advance => exact Int.le_add_of_nonneg_right (Int.natCast_nonneg _)
  | _ => exact le_rfl

theorem CleanupStep.bibSeen {m m' : Memory} {pc pc' : CleanupPc} {ev : CleanupEvent}
    (h : CleanupStep m pc ev m' pc') : m'.bibSeen = m.bibSeen := by
  cases h <;> rfl

theorem step_bibSeen {s s' : State} {l : Label} (hl : step s l = some s') (b : BibRef) :
    s'.mem.bibSeen b = s.mem.bibSeen b ∨ s'.mem.bibSeen b = s.mem.clock := by
  cases step_cases hl with
  | thread ht hstep => exact hstep.bibSeen b
  | cleanup hstep => exact .inl (congrFun hstep.bibSeen b)
  | _ => exact .inl rfl

theorem Recent.step {s s' : State} {l : Label} {c : Int} {b : BibRef} (h : Recent s c b)
    (hw : Wf s) (hc : c ≤ s.mem.clock) (hl : Udp.step s l = some s') : Recent s' c b := by
  rcases h with hseen | ⟨tid, pc, ht, hpc⟩
  · left
    rcases step_bibSeen hl b with he | he <;> omega
  · rcases thread_after_step hl ht with ht' | ⟨ev, pc', rfl, hstep, ht'⟩
    · exact .inr ⟨tid, pc, ht', Pc.toTouch_mono (hw.le hl) hpc⟩
    · rcases hstep.toTouch hpc with hseen | ⟨p, rfl, hp⟩
      · exact .inl (hseen ▸ hc)
      · exact .inr ⟨tid, p, ht', hp⟩

/-! ## The tick -/

/-- The cutoff of the tick in progress. -/
def CleanupPc.tickCutoff : CleanupPc → Option Int
  | .sessScan c _ | .sessClose c _ _ | .bibScan c _ | .bibClose c _ _ _ | .bibDelete c _ _ _ =>
    some c
  | _ => none

/-- The tick in progress has still to look at the entry, or is about to delete
it. -/
def CleanupPc.pending : CleanupPc → BibKey → BibRef → Prop
  | .bibScan _ scan, bk, b => bk ∉ scan.visited ∧ scan.start.lookup bk = some b
  | .bibClose _ scan bk' b', bk, b | .bibDelete _ scan bk' b', bk, b =>
    bk = bk' ∧ b = b' ∨ bk ∉ scan.visited ∧ scan.start.lookup bk = some b
  | _, _, _ => True

section
variable {m m' : Memory} {pc pc' : CleanupPc} {ev : CleanupEvent} {R : Int → BibRef → Prop}

/-- A visited entry that the tick leaves in the map has a recent stamp. -/
theorem CleanupStep.pending (h : CleanupStep m pc ev m' pc')
    (hseen : ∀ c b, c ≤ m.bibSeen b → R c b)
    (hold : ∀ c ∈ pc.tickCutoff, ∀ bk b, m.bibs.lookup bk = some b → pc.pending bk b ∨ R c b) :
    ∀ c ∈ pc'.tickCutoff, ∀ bk b, m'.bibs.lookup bk = some b → pc'.pending bk b ∨ R c b := by
  intro c hc bk b hb
  cases h with
  | tickNever | stop | bibDone | stopSess | stopSessDone | stopBib | stopBibsDone => cases hc
  | sessDone => exact .inl ⟨List.not_mem_nil, hb⟩
  | @bibStale cutoff scan key b₀ hkey _ =>
    rcases hold c hc bk b hb with ⟨hv, hstart⟩ | hr
    · by_cases he : bk = key
      · subst he
        exact .inl (.inl ⟨rfl, Option.some.inj (hb.symm.trans hkey)⟩)
      · exact .inl (.inr ⟨List.not_mem_cons_of_ne_of_not_mem he hv, hstart⟩)
    · exact .inr hr
  | @bibFresh cutoff scan key b₀ hkey hs =>
    rcases hold c hc bk b hb with ⟨hv, hstart⟩ | hr
    · by_cases he : bk = key
      · subst he
        obtain rfl := Option.some.inj (hb.symm.trans hkey)
        obtain rfl := Option.some.inj hc
        exact .inr (hseen _ _ hs)
      · exact .inl ⟨List.not_mem_cons_of_ne_of_not_mem he hv, hstart⟩
    · exact .inr hr
  | bibClose => exact hold c hc bk b hb
  | @bibDelete cutoff scan key b₀ =>
    rcases hold c hc bk b (SyncMap.lookup_of_compareAndDelete hb) with (⟨rfl, rfl⟩ | hp) | hr
    · -- The entry has just been deleted.
      change (SyncMap.compareAndDelete m.bibs bk b).1.lookup bk = some b at hb
      have hold := SyncMap.lookup_of_compareAndDelete hb
      rw [SyncMap.lookup_compareAndDelete, if_pos ⟨rfl, hold⟩] at hb
      cases hb
    · exact .inl hp
    · exact .inr hr
  | _ => exact .inl trivial

theorem CleanupStep.ended (h : CleanupStep m pc ev m' pc') {old : Option Int}
    (hold : ∀ c ∈ pc.tickCutoff, ∀ bk b, m.bibs.lookup bk = some b → pc.pending bk b ∨ R c b)
    {c : Int} (hc : endedCutoff old pc pc' = some c) :
    old = some c ∨ pc.tickCutoff = some c ∧ ∀ bk b, m'.bibs.lookup bk = some b → R c b := by
  cases h with
  | @bibDone cutoff scan hdone =>
    refine .inr ⟨hc, fun bk b hb => ?_⟩
    rcases hold c hc bk b hb with ⟨hv, hstart⟩ | hr
    · exact absurd hstart (hdone.lookup_ne hb hv)
    · exact hr
  | _ => exact .inl hc

theorem CleanupStep.tickCutoff (h : CleanupStep m pc ev m' pc') {c : Int}
    (hc : pc'.tickCutoff = some c) : pc.tickCutoff = some c ∨ c ≤ m.clock := by
  cases h with
  | tick ht =>
    right
    have := Option.some.inj hc
    omega
  | _ => first | exact .inl hc | cases hc

end

/-! ## The invariant -/

/-- A session has been registered on the entry. -/
def Memory.hadSession (m : Memory) (b : BibRef) : Prop :=
  ∃ key r sess, SessOk m key r sess ∧ m.registered r = true ∧ sess.bib = b

/-- The entries in the map are recent, or the tick in progress still comes to
them, and each has had a session or is about to get one. -/
structure Expiring (s : State) : Prop where
  past : ∀ c, s.cutoff = some c ∨ s.cleanup.tickCutoff = some c → c ≤ s.mem.clock
  ended : ∀ c ∈ s.cutoff, ∀ bk b, s.mem.bibs.lookup bk = some b → Recent s c b
  scanning : ∀ c ∈ s.cleanup.tickCutoff, ∀ bk b, s.mem.bibs.lookup bk = some b →
    s.cleanup.pending bk b ∨ Recent s c b
  sessions : ∀ bk b, s.mem.bibs.lookup bk = some b → s.mem.hadSession b ∨
    ∃ tid pc, s.threads.lookup tid = some pc ∧ pc.toRegister s.mem = some b

theorem Expiring.init (service : Service) (mtu : Nat) (clock : Int) :
    Expiring (State.init service mtu clock) where
  past := by
    rintro c (h | h) <;> cases h
  ended _ h := by cases h
  scanning _ h := by cases h
  sessions _ _ h := by cases h

theorem Memory.hadSession.mono {m m' : Memory} {b : BibRef} (h : m.hadSession b)
    (hle : m.Le m') : m'.hadSession b := by
  obtain ⟨key, r, sess, hs, hreg, hb⟩ := h
  exact ⟨key, r, sess, hs.mono hle, hle.registered r hreg, hb⟩

theorem Expiring.sessions_step {s s' : State} {l : Label} (h : Expiring s) (hw : Wf s)
    (hl : step s l = some s') {bk : BibKey} {b : BibRef}
    (hb : s'.mem.bibs.lookup bk = some b) : s'.mem.hadSession b ∨
      ∃ tid pc, s'.threads.lookup tid = some pc ∧ pc.toRegister s'.mem = some b := by
  have hle := hw.le hl
  rcases step_bibs hl hb with hold | ⟨tid, flow, ep, -, ht⟩
  · rcases h.sessions bk b hold with hs | ⟨tid, pc, ht, hpc⟩
    · exact .inl (hs.mono hle)
    · rcases thread_after_step hl ht with ht' | ⟨ev, pc', rfl, hstep, ht'⟩
      · exact .inr ⟨tid, pc, ht', Pc.toRegister_mono hle hpc⟩
      · rcases hstep.toRegister hpc with ⟨key, r, p, sess, rfl, hs, hbib, hp, -⟩ | ⟨p, rfl, hp⟩
        · -- The session has just been stored; what the thread holds is that session.
          have hreach : Reached s'.mem key r := by
            have hok := (hw.step hl).pcs tid p ht'
            rcases hp with rfl | rfl <;> exact hok
          obtain ⟨⟨S, hS⟩, hreg⟩ := hreach
          obtain rfl := Option.some.inj (hS.heap.symm.trans hs)
          exact .inl ⟨key, r, S, hS, hreg, hbib⟩
        · exact .inr ⟨tid, p, ht', hp⟩
  · exact .inr ⟨tid, _, ht, rfl⟩

/-- Every step keeps the entries recent or pending. -/
theorem Expiring.step {s s' : State} {l : Label} (h : Expiring s) (hw : Wf s)
    (hl : step s l = some s') : Expiring s' := by
  have hclock := clock_le_of_step hl
  have hkeep : ∀ c b, c ≤ s.mem.clock → Recent s c b → Recent s' c b :=
    fun c b hc hr => hr.step hw hc hl
  have hnew : ∀ {bk b}, s'.mem.bibs.lookup bk = some b → s.mem.bibs.lookup bk = some b ∨
      ∀ c, Recent s' c b := by
    intro bk b hb
    rcases step_bibs hl hb with hold | ⟨tid, flow, ep, -, ht⟩
    · exact .inl hold
    · exact .inr fun c => .inr ⟨tid, _, ht, rfl⟩
  have hsess := fun bk b (hb : s'.mem.bibs.lookup bk = some b) => h.sessions_step hw hl hb
  -- Where the cleanup goroutine does not move, its cutoffs stay what they are.
  have hsame : s'.cleanup = s.cleanup → s'.cutoff = s.cutoff → Expiring s' := by
    intro hcl hcut
    refine ⟨?_, ?_, ?_, hsess⟩
    · rw [hcl, hcut]
      exact fun c hc => (h.past c hc).trans hclock
    · rw [hcut]
      intro c hc bk b hb
      rcases hnew hb with hold | hr
      · exact hkeep c b (h.past c (.inl hc)) (h.ended c hc bk b hold)
      · exact hr c
    · rw [hcl]
      intro c hc bk b hb
      rcases hnew hb with hold | hr
      · exact (h.scanning c hc bk b hold).imp id (hkeep c b (h.past c (.inr hc)))
      · exact .inr (hr c)
  cases step_cases hl with
  | @cleanup ev m pc hstep =>
    have hR : ∀ c b, c ≤ s.mem.bibSeen b → Recent s c b := fun c b => .inl
    refine ⟨?_, ?_, ?_, hsess⟩
    · rintro c (hc | hc)
      · rcases hstep.ended h.scanning hc with hold | ⟨hold, -⟩
        · exact (h.past c (.inl hold)).trans hclock
        · exact (h.past c (.inr hold)).trans hclock
      · rcases hstep.tickCutoff hc with hold | hle
        · exact (h.past c (.inr hold)).trans hclock
        · exact hle.trans hclock
    · intro c hc bk b hb
      rcases hstep.ended h.scanning hc with hold | ⟨hold, hall⟩
      · exact hkeep c b (h.past c (.inl hold)) (h.ended c hold bk b (hstep.lookup_bibs hb))
      · exact hkeep c b (h.past c (.inr hold)) (hall bk b hb)
    · intro c hc bk b hb
      rcases hstep.pending hR h.scanning c hc bk b hb with hp | hr
      · exact .inl hp
      · refine .inr ?_
        rcases hstep.tickCutoff hc with hold | hle
        · exact hkeep c b (h.past c (.inr hold)) hr
        · exact hkeep c b hle hr
  | _ => exact hsame rfl rfl

/-! ## Sessions that stay -/

/-- A session on the entry is in the table. -/
def Memory.liveSession (m : Memory) (b : BibRef) : Prop :=
  ∃ key r, m.sessions.lookup key = some r ∧ (m.sessHeap r).map UdpSession.bib = some b

/-- The step takes a session on the entry out of the table: a forward loop that
ends, an eviction or an expiry. -/
def TakesSession (b : BibRef) (s : State) (l : Label) : Prop :=
  ∃ s' ∈ step s l, ∃ key ∈ s.mem.sessions.keys, ∃ r ∈ s.mem.sessions.lookup key,
    (s.mem.sessHeap r).map UdpSession.bib = some b ∧ s'.mem.sessions.lookup key ≠ some r

instance (b : BibRef) (s : State) (l : Label) : Decidable (TakesSession b s l) :=
  inferInstanceAs (Decidable (∃ s' ∈ step s l, ∃ key ∈ s.mem.sessions.keys,
    ∃ r ∈ s.mem.sessions.lookup key, (s.mem.sessHeap r).map UdpSession.bib = some b ∧
      s'.mem.sessions.lookup key ≠ some r))

/-- The entry is not in the map, or a session on it is in the table, or a set-up
is about to store one. -/
def Attended (b : BibRef) (s : State) : Prop :=
  ∀ bk, s.mem.bibs.lookup bk = some b → s.mem.liveSession b ∨
    ∃ tid pc, s.threads.lookup tid = some pc ∧ pc.toRegister s.mem = some b

theorem Attended.step {b : BibRef} {s s' : State} {l : Label} (h : Attended b s) (hw : Wf s)
    (hl : step s l = some s') (hstay : ¬ TakesSession b s l) : Attended b s' := by
  intro bk hb
  have hle := hw.le hl
  rcases step_bibs hl hb with hold | ⟨tid, flow, ep, -, ht⟩
  · rcases h bk hold with ⟨key, r, hr, hbib⟩ | ⟨tid, pc, ht, hpc⟩
    · refine .inl ⟨key, r, ?_, sessHeap_map_mono hle hbib⟩
      by_contra hgone
      have hkey : key ∈ s.mem.sessions.keys := Finmap.mem_keys.2 (Finmap.mem_iff.2 ⟨r, hr⟩)
      exact hstay ⟨s', hl, key, hkey, r, hr, hbib, hgone⟩
    · rcases thread_after_step hl ht with ht' | ⟨ev, pc', rfl, hstep, ht'⟩
      · exact .inr ⟨tid, pc, ht', Pc.toRegister_mono hle hpc⟩
      · rcases hstep.toRegister hpc with ⟨key, r, p, sess, rfl, hs, hbib, -, hr⟩ | ⟨p, rfl, hp⟩
        · exact .inl ⟨key, r, hr, by rw [hs, Option.map_some, hbib]⟩
        · exact .inr ⟨tid, p, ht', hp⟩
  · exact .inr ⟨tid, _, ht, rfl⟩

theorem attended_run {service : Service} {mtu : Nat} {clock : Int} {labels : List Label}
    {s : State} (hrun : run step (State.init service mtu clock) labels = some s) {b : BibRef}
    (hstay : AllSteps step (fun s l => ¬ TakesSession b s l) (State.init service mtu clock)
      labels) : Attended b s := by
  have hinit : Attended b (State.init service mtu clock) := fun bk h => by cases h
  exact (run_invariant (I := fun s => Wf s ∧ Attended b s)
    (fun _ _ _ hi hno hl => ⟨hi.1.step hl, hi.2.step hi.1 hl hno⟩)
    ⟨.init service mtu clock, hinit⟩ hstay hrun).2

/-! ## Whole runs -/

/-- One flow is set up, and a tick passes while it is fresh. -/
def tickFresh : List Label :=
  arrive 0 1 ++ newMapping 0 40000 ++ nexts 0 5 ++
    [.advance (10 ^ 9), .cleanup .tick, .cleanup (.visitSess (flowKey 1)), .cleanup .next,
      .cleanup (.visitBib (bibKey (flowKey 1))), .cleanup .next]

end Ydn64.Nat64.Udp
