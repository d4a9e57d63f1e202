import Ydn64.Nat64.Udp.Objects

/-!
# One external socket per client

A BIB entry is taken out of the map in two places.  The cleanup goroutine closes
the socket first and deletes the entry afterwards.  The reply loop deletes the
entry when it ends, whatever the reason, and does not close the socket: if it
ends on a read error of an open socket, the socket stays open while the next
flow of the client gets a new entry with a new port.

`keepsMapping` is the condition on the steps under which this does not happen:
a reply loop ends on a closed socket only, and a call that loses the race for
an entry holds no second candidate of `listenBIBSocket`.  In every run of such
steps a published entry whose socket is open is the one in the map
(`mapping_endpoint_independent`), so a client has one external address and port.
-/

namespace Ydn64.Nat64.Udp

open Ydn64.GoStd Ydn64.Config Ydn64.Lib

/-! ## The condition -/

/-- The socket of a BIB entry. -/
def Memory.bibOpen (m : Memory) (b : BibRef) : Bool :=
  (m.bibHeap b).any fun bib => m.sockOpen bib.uconn

/-- If the thread is about to lose the `LoadOrStore` of its entry, it has no
leftover candidate. -/
def Pc.losesClean (m : Memory) : Pc → Bool
  | .bibPublish flow _ b =>
    (m.bibs.lookup (bibKey flow.key)).isNone || (m.bibHeap b).all (·.leftover.isNone)
  | _ => true

/-- A reply loop ends on a closed socket only, and a call that loses the
`LoadOrStore` has no leftover candidate. -/
def keepsMapping (s : State) : Label → Bool
  | .loopExit b => !s.mem.bibOpen b
  | .thread tid _ => (s.threads.lookup tid).all (Pc.losesClean s.mem)
  | _ => true

/-! ## Sockets -/

section Sockets
variable {m m' : Memory}

theorem open_of_closeFallback {fallback : Option SockRef} {k : SockRef}
    (h : (m.closeFallback fallback).sockOpen k = true) : m.sockOpen k = true := by
  cases fallback with
  | none => exact h
  | some j => exact open_of_close h

theorem closed_of_closeFallback {fallback : Option SockRef} {k : SockRef} (hk : k ∈ fallback) :
    (m.closeFallback fallback).sockOpen k = false := by
  cases fallback with
  | none => cases hk
  | some j =>
    obtain rfl := Option.some.inj hk
    exact Function.update_self ..

theorem ThreadStep.sockOpen_old {pc : Pc} {ev : Event} {pc' : Option Pc}
    (h : ThreadStep m pc ev m' pc') {k : SockRef} (hk : k < m.nextRef)
    (ho : m'.sockOpen k = true) : m.sockOpen k = true := by
  have hnew : Function.update m.sockOpen m.nextRef true k = m.sockOpen k :=
    Function.update_of_ne hk.ne ..
  cases h with
  | bindMatch => exact hnew ▸ ho
  | bindRetry => exact hnew ▸ open_of_closeFallback ho
  | bindLast => exact hnew ▸ open_of_closeFallback ho
  | surplus => exact open_of_close ho
  | _ => exact ho

theorem CleanupStep.sockOpen_old {pc pc' : CleanupPc} {ev : CleanupEvent}
    (h : CleanupStep m pc ev m' pc') {k : SockRef} (ho : m'.sockOpen k = true) :
    m.sockOpen k = true := by
  cases h with
  | bibClose => exact open_of_close ho
  | stopBib => exact open_of_close ho
  | _ => exact ho

end Sockets

theorem step_sockOpen_old {s s' : State} {l : Label} (hl : step s l = some s') {k : SockRef}
    (hk : k < s.mem.nextRef) (ho : s'.mem.sockOpen k = true) : s.mem.sockOpen k = true := by
  cases step_cases hl with
  | thread ht hstep => exact hstep.sockOpen_old hk ho
  | cleanup hstep => exact hstep.sockOpen_old ho
  | _ => exact ho

/-! ## The entries and their sockets -/

/-- The sockets of BIB entries are sockets. -/
def SocksOk (m : Memory) : Prop :=
  ∀ b bib, m.bibHeap b = some bib →
    (∃ la, m.sockets bib.uconn = some la) ∧
      ∀ k ∈ bib.leftover, ∃ la, m.sockets k = some la

/-- A step makes a BIB entry in `bibTake` only. -/
theorem step_bibHeap {s s' : State} {l : Label} (hl : step s l = some s') {b : BibRef}
    {bib : UdpBIB} (hb : s'.mem.bibHeap b = some bib) : s.mem.bibHeap b = some bib ∨
      ∃ tid flow ep, s.threads.lookup tid = some (.bibTake flow ep bib.uconn bib.leftover) ∧
        s'.threads.lookup tid = some (.bibPublish flow ep b) := by
  cases step_cases hl with
  | @thread tid ev pc m pc' ht hstep =>
    cases hstep with
    | @take flow ep sock leftover la hs =>
      change Function.update s.mem.bibHeap s.mem.nextRef (some _) b = some bib at hb
      by_cases he : b = s.mem.nextRef
      · rw [he, Function.update_self] at hb
        obtain rfl := Option.some.inj hb
        refine .inr ⟨tid, flow, ep, ht, ?_⟩
        rw [he]
        exact (lookup_setThread ..).trans (if_pos rfl)
      · rw [Function.update_of_ne he] at hb
        exact .inl hb
    | _ => exact .inl hb
  | cleanup hstep => exact .inl (hstep.heaps.1 ▸ hb)
  | _ => exact .inl hb

theorem SocksOk.step {s s' : State} {l : Label} (hw : Wf s) (hs : SocksOk s.mem)
    (hl : step s l = some s') : SocksOk s'.mem := by
  intro b bib hb
  have hle := hw.le hl
  rcases step_bibHeap hl hb with hold | ⟨tid, flow, ep, ht, -⟩
  · obtain ⟨hu, hleft⟩ := hs b bib hold
    exact ⟨hu.imp fun la => hle.sockets _ la, fun k hk => (hleft k hk).imp fun la =>
      hle.sockets k la⟩
  · obtain ⟨-, hu, hleft⟩ := hw.pcs _ _ ht
    exact ⟨hu.imp fun la => hle.sockets _ la, fun k hk => (hleft k hk).imp fun la =>
      hle.sockets k la⟩

theorem SocksOk.bibOpen_old {s s' : State} {l : Label} (hw : Wf s) (hs : SocksOk s.mem)
    (hl : Udp.step s l = some s') {b : BibRef} {bib : UdpBIB}
    (hb : s.mem.bibHeap b = some bib) (ho : s'.mem.bibOpen b = true) : s.mem.bibOpen b = true := by
  obtain ⟨la, hla⟩ := (hs b bib hb).1
  rw [Memory.bibOpen, (hw.le hl).bibHeap b bib hb] at ho
  rw [Memory.bibOpen, hb]
  exact step_sockOpen_old hl (hw.fresh.sockets _ _ hla) ho

/-! ## The entry in the map is the one with the open socket -/

/-- A published entry whose socket is open is the one in the map.  Whoever is
about to delete an entry has found its socket closed. -/
structure Current (s : State) : Prop where
  current : ∀ b bk, s.mem.Published b bk → s.mem.bibOpen b = true →
    s.mem.bibs.lookup bk = some b
  exiting : ∀ b bk, s.mem.loops b = some ⟨bk, .exiting⟩ → s.mem.bibOpen b = false
  deleting : ∀ cutoff scan bk b, s.cleanup = .bibDelete cutoff scan bk b →
    s.mem.bibOpen b = false

theorem Current.init (service : Service) (mtu : Nat) (clock : Int) :
    Current (State.init service mtu clock) where
  current := by
    rintro b bk ⟨q, h⟩
    cases h
  exiting _ _ h := by cases h
  deleting _ _ _ _ h := by cases h

theorem Current.of_eq {s s' : State} (h : Current s) (hloops : s'.mem.loops = s.mem.loops)
    (hbibs : s'.mem.bibs = s.mem.bibs)
    (hopen : ∀ b bk, s.mem.Published b bk → s'.mem.bibOpen b = true → s.mem.bibOpen b = true)
    (hdel : ∀ cutoff scan bk b, s'.cleanup = .bibDelete cutoff scan bk b →
      s'.mem.bibOpen b = false) : Current s' := by
  refine ⟨?_, ?_, hdel⟩
  · rintro b bk ⟨q, hq⟩ ho
    rw [hloops] at hq
    rw [hbibs]
    exact h.current b bk ⟨q, hq⟩ (hopen b bk ⟨q, hq⟩ ho)
  · intro b bk hb
    rw [hloops] at hb
    refine Bool.eq_false_iff.2 fun ho => ?_
    exact Bool.eq_false_iff.1 (h.exiting b bk hb) (hopen b bk ⟨_, hb⟩ ho)

theorem Current.deleteBib {s : State} (h : Current s) {b : BibRef} {bk : BibKey}
    (hclosed : s.mem.bibOpen b = false) (pc : CleanupPc) (cutoff : Option Int)
    (hdel : ∀ cutoff scan bk b, pc = .bibDelete cutoff scan bk b → s.mem.bibOpen b = false) :
    Current { s with mem := s.mem.deleteBib bk b, cleanup := pc, cutoff } := by
  refine ⟨?_, h.exiting, hdel⟩
  intro b' bk' hp ho
  have hcur := h.current b' bk' hp ho
  change (SyncMap.compareAndDelete s.mem.bibs bk b).1.lookup bk' = some b'
  rw [SyncMap.lookup_compareAndDelete, if_neg ?_]
  · exact hcur
  · rintro ⟨rfl, hb⟩
    obtain rfl := Option.some.inj (hcur.symm.trans hb)
    cases hclosed.symm.trans ho

theorem Current.publish {s : State} (h : Current s) {bk : BibKey} {b : BibRef}
    (hnone : s.mem.bibs.lookup bk = none) (threads : SyncMap Tid Pc)
    (hdel : ∀ cutoff scan bk b, s.cleanup = .bibDelete cutoff scan bk b →
      s.mem.bibOpen b = false) :
    Current { s with mem := s.mem.publishBib bk b, threads } := by
  refine ⟨?_, ?_, hdel⟩
  · rintro b' bk' ⟨q, hq⟩ ho
    change Function.update s.mem.loops b (some ⟨bk, .reading⟩) b' = some ⟨bk', q⟩ at hq
    change (s.mem.bibs.insert bk b).lookup bk' = some b'
    rw [SyncMap.lookup_insert_eq_ite]
    by_cases he : b' = b
    · rw [he, Function.update_self] at hq
      have hbk : bk = bk' := congrArg ReplyLoop.bk (Option.some.inj hq)
      rw [if_pos hbk.symm, he]
    · rw [Function.update_of_ne he] at hq
      have hcur := h.current b' bk' ⟨q, hq⟩ ho
      rw [if_neg ?_]
      · exact hcur
      · rintro rfl
        cases hnone.symm.trans hcur
  · intro b' bk' hb'
    change Function.update s.mem.loops b (some ⟨bk, .reading⟩) b' = some ⟨bk', .exiting⟩ at hb'
    by_cases he : b' = b
    · rw [he, Function.update_self] at hb'
      cases congrArg ReplyLoop.pc (Option.some.inj hb')
    · rw [Function.update_of_ne he] at hb'
      exact h.exiting b' bk' hb'

theorem Current.setLoop {s : State} (h : Current s) {b : BibRef} {bk : BibKey}
    {lpc lpc' : LoopPc} (hl : s.mem.loops b = some ⟨bk, lpc⟩)
    (hexit : lpc' = .exiting → s.mem.bibOpen b = false) :
    Current { s with mem := s.mem.setLoop b ⟨bk, lpc'⟩ } := by
  refine ⟨?_, ?_, h.deleting⟩
  · rintro b' bk' ⟨q, hq⟩ ho
    change Function.update s.mem.loops b (some ⟨bk, lpc'⟩) b' = some ⟨bk', q⟩ at hq
    refine h.current b' bk' ?_ ho
    by_cases he : b' = b
    · rw [he, Function.update_self] at hq
      have hbk : bk = bk' := congrArg ReplyLoop.bk (Option.some.inj hq)
      exact ⟨lpc, by rw [he, hl, hbk]⟩
    · rw [Function.update_of_ne he] at hq
      exact ⟨q, hq⟩
  · intro b' bk' hb'
    change Function.update s.mem.loops b (some ⟨bk, lpc'⟩) b' = some ⟨bk', .exiting⟩ at hb'
    by_cases he : b' = b
    · rw [he, Function.update_self] at hb'
      exact he ▸ hexit (congrArg ReplyLoop.pc (Option.some.inj hb'))
    · rw [Function.update_of_ne he] at hb'
      exact h.exiting b' bk' hb'

/-- Every step that meets the condition keeps the entry in the map the one with
the open socket. -/
theorem Current.step {s s' : State} {l : Label} (h : Current s) (hw : Wf s)
    (hs : SocksOk s.mem) (hcond : keepsMapping s l = true) (hl : step s l = some s') :
    Current s' := by
  have hopen : ∀ b bk, s.mem.Published b bk → s'.mem.bibOpen b = true →
      s.mem.bibOpen b = true := by
    intro b bk hp ho
    obtain ⟨bib, hb⟩ := hw.tables.published b bk hp
    exact hs.bibOpen_old hw hl hb ho
  have hclosed : ∀ b bk, s.mem.Published b bk → s.mem.bibOpen b = false →
      s'.mem.bibOpen b = false := fun b bk hp hc =>
    Bool.eq_false_iff.2 fun ho => Bool.eq_false_iff.1 hc (hopen b bk hp ho)
  -- Where the cleanup goroutine does not move, it still deletes a closed entry.
  have hdel : s'.cleanup = s.cleanup → ∀ cutoff scan bk b,
      s'.cleanup = .bibDelete cutoff scan bk b → s'.mem.bibOpen b = false := by
    intro he cutoff scan bk b hc
    rw [he] at hc
    have hp : s.mem.Published b bk := by
      have hok := hw.cleanup
      rw [hc] at hok
      exact hok
    exact hclosed b bk hp (h.deleting cutoff scan bk b hc)
  cases step_cases hl with
  | thread ht hstep =>
    cases hstep with
    | publish hnone => exact h.publish hnone _ h.deleting
    | _ => exact h.of_eq rfl rfl hopen (hdel rfl)
  | @cleanup ev m pc hstep =>
    generalize hc : s.cleanup = pc₀ at hstep
    cases hstep with
    | @bibClose cutoff scan bk b bib hb =>
      refine h.of_eq rfl rfl hopen ?_
      intro cutoff' scan' bk' b' hb'
      cases hb'
      change Option.any _ (s.mem.bibHeap b) = false
      rw [hb]
      exact Function.update_self ..
    | bibDelete => exact h.deleteBib (h.deleting _ _ _ _ hc) _ _ (fun _ _ _ _ hb => by cases hb)
    | _ => exact h.of_eq rfl rfl hopen (fun _ _ _ _ hb => by cases hb)
  | loopExit hb =>
    refine h.setLoop hb fun _ => ?_
    simpa [keepsMapping] using hcond
  | @loopDelete b bk hb =>
    have hd : Current { s with mem := s.mem.deleteBib bk b } :=
      h.deleteBib (h.exiting b bk hb) s.cleanup s.cutoff h.deleting
    exact hd.setLoop hb fun h => by cases h
  | _ => exact h.of_eq rfl rfl hopen (hdel rfl)

/-! ## Sockets of a call that loses -/

/-- The BIB entry that a call of `getOrCreateBIB` has made and not published. -/
def Pc.bibInHand : Pc → Option BibRef
  | .bibPublish _ _ b | .bibSurplus _ _ b _ => some b
  | _ => none

/-- The candidates that a call of `getOrCreateBIB` holds outside an entry. -/
def Pc.socksInHand : Pc → List SockRef
  | .bibBind _ _ _ _ _ fallback => fallback.toList
  | .bibTake _ _ sock leftover => sock :: leftover.toList
  | _ => []

/-- An entry that is neither published nor in the hands of a call has its
sockets closed, and every open socket belongs to an entry or to a call. -/
structure Closed (s : State) : Prop where
  surplus : ∀ tid flow ep b actual bib,
    s.threads.lookup tid = some (.bibSurplus flow ep b actual) →
    s.mem.bibHeap b = some bib → bib.leftover = none
  lost : ∀ b bib, s.mem.bibHeap b = some bib → (∃ bk, s.mem.Published b bk) ∨
    (∃ tid pc, s.threads.lookup tid = some pc ∧ pc.bibInHand = some b) ∨
    s.mem.sockOpen bib.uconn = false ∧ ∀ k ∈ bib.leftover, s.mem.sockOpen k = false
  opened : ∀ k, s.mem.sockOpen k = true → ∃ la, s.mem.sockets k = some la
  held : ∀ k, s.mem.sockOpen k = true →
    (∃ b bib, s.mem.bibHeap b = some bib ∧ (bib.uconn = k ∨ bib.leftover = some k)) ∨
    ∃ tid pc, s.threads.lookup tid = some pc ∧ k ∈ pc.socksInHand

theorem Closed.init (service : Service) (mtu : Nat) (clock : Int) :
    Closed (State.init service mtu clock) where
  surplus _ _ _ _ _ _ h := by cases h
  lost _ _ h := by cases h
  opened _ h := by cases h
  held _ h := by cases h

section
variable {m m' : Memory} {pc : Pc} {ev : Event} {pc' : Option Pc}

theorem ThreadStep.bibInHand (h : ThreadStep m pc ev m' pc') {b : BibRef} {bib : UdpBIB}
    (hb : pc.bibInHand = some b) (hbib : m.bibHeap b = some bib) :
    (∃ bk, m'.Published b bk) ∨ (∃ p, pc' = some p ∧ p.bibInHand = some b) ∨
      m'.sockOpen bib.uconn = false ∧ ∃ flow ep actual, pc = .bibSurplus flow ep b actual := by
  cases h with
  | read h =>
    cases h with
    | lose => exact .inr (.inl ⟨_, rfl, hb⟩)
    | _ => cases hb
  | publish =>
    obtain rfl := Option.some.inj hb
    exact .inl ⟨_, .reading, Function.update_self ..⟩
  | surplus hbib' =>
    obtain rfl := Option.some.inj hb
    obtain rfl := Option.some.inj (hbib'.symm.trans hbib)
    exact .inr (.inr ⟨Function.update_self .., _, _, _, rfl⟩)
  | _ => cases hb

/-- What becomes of a candidate that the moving thread has in hand. -/
theorem ThreadStep.socksInHand (h : ThreadStep m pc ev m' pc') {k : SockRef}
    (hk : k ∈ pc.socksInHand) (ho : m'.sockOpen k = true) :
    (∃ b bib, m'.bibHeap b = some bib ∧ (bib.uconn = k ∨ bib.leftover = some k)) ∨
      ∃ p, pc' = some p ∧ k ∈ p.socksInHand := by
  cases h with
  | read h =>
    cases h with
    | @bindErr flow ep bindIP want attempt fallback err =>
      cases fallback with
      | none => cases hk
      | some j => exact .inr ⟨_, rfl, hk⟩
    | _ => cases hk
  | bindMatch => exact .inr ⟨_, rfl, List.mem_cons_of_mem _ hk⟩
  | bindRetry => cases (closed_of_closeFallback (Option.mem_toList.1 hk)).symm.trans ho
  | bindLast => cases (closed_of_closeFallback (Option.mem_toList.1 hk)).symm.trans ho
  | @take flow ep sock leftover la _ =>
    refine .inl ⟨m.nextRef, _, Function.update_self .., ?_⟩
    rcases List.mem_cons.1 hk with rfl | hk
    · exact .inl rfl
    · exact .inr (Option.mem_toList.1 hk)
  | _ => cases hk

/-- A socket that a step opens is one of the moving thread. -/
theorem ThreadStep.sockOpen_new (h : ThreadStep m pc ev m' pc') {k : SockRef}
    (hk : m.sockOpen k = false) (ho : m'.sockOpen k = true) :
    (∃ la, m'.sockets k = some la) ∧ ∃ p, pc' = some p ∧ k ∈ p.socksInHand := by
  have hnew : ∀ {k}, Function.update m.sockOpen m.nextRef true k = true →
      m.sockOpen k = false → k = m.nextRef := by
    intro k hu hk
    by_contra hne
    rw [Function.update_of_ne hne, hk] at hu
    cases hu
  cases h with
  | bindMatch =>
    obtain rfl := hnew ho hk
    exact ⟨⟨_, Function.update_self ..⟩, _, rfl, List.mem_cons_self ..⟩
  | bindRetry =>
    obtain rfl := hnew (open_of_closeFallback ho) hk
    exact ⟨⟨_, Function.update_self ..⟩, _, rfl, List.mem_singleton.2 rfl⟩
  | bindLast =>
    obtain rfl := hnew (open_of_closeFallback ho) hk
    exact ⟨⟨_, Function.update_self ..⟩, _, rfl, List.mem_singleton.2 rfl⟩
  | surplus => cases hk.symm.trans (open_of_close ho)
  | _ => cases hk.symm.trans ho

end

section
variable {s s' : State} {l : Label}

/-- A call that has just lost holds no leftover candidate. -/
theorem Closed.surplus_step (h : Closed s) (hw : Wf s) (hcond : keepsMapping s l = true)
    (hl : step s l = some s') {tid : Tid} {flow : UdpFlow} {ep : EpRef} {b actual : BibRef}
    {bib : UdpBIB} (ht : s'.threads.lookup tid = some (.bibSurplus flow ep b actual))
    (hb : s'.mem.bibHeap b = some bib) : bib.leftover = none := by
  have hle := hw.le hl
  rcases thread_of_step hl ht with hold | ⟨flow', hp⟩ | ⟨pc, ev, rfl, ht₀, hstep⟩
  · obtain ⟨-, ⟨bib₀, hb₀⟩, -⟩ := hw.pcs _ _ hold
    obtain rfl := Option.some.inj ((hle.bibHeap b bib₀ hb₀).symm.trans hb)
    exact h.surplus tid flow ep b actual bib₀ hold hb₀
  · cases hp
  · generalize hq : some (Pc.bibSurplus flow ep b actual) = q at hstep
    generalize s'.mem = m' at hstep
    cases hstep with
    | read hr =>
      cases hr with
      | lose hact =>
        cases hq
        obtain ⟨-, ⟨bib₀, hb₀⟩, -⟩ := hw.pcs _ _ ht₀
        obtain rfl := Option.some.inj ((hle.bibHeap b bib₀ hb₀).symm.trans hb)
        simpa [keepsMapping, ht₀, Pc.losesClean, hact, hb₀] using hcond
      | @pick _ _ _ _ oldest _ => cases oldest <;> cases hq
      | @bindErr _ _ _ _ _ fallback _ => cases fallback <;> cases hq
      | @delLost _ _ after _ => cases after <;> cases hq
      | _ => cases hq
    | @delFlow _ _ after _ _ => cases after <;> cases hq
    | _ => cases hq

/-- An entry is published, in the hands of a call, or has its sockets closed. -/
theorem Closed.lost_step (h : Closed s) (hw : Wf s) (hs : SocksOk s.mem)
    (hl : step s l = some s') {b : BibRef} {bib : UdpBIB}
    (hb : s'.mem.bibHeap b = some bib) : (∃ bk, s'.mem.Published b bk) ∨
    (∃ tid pc, s'.threads.lookup tid = some pc ∧ pc.bibInHand = some b) ∨
    s'.mem.sockOpen bib.uconn = false ∧ ∀ k ∈ bib.leftover, s'.mem.sockOpen k = false := by
  have hclosed : ∀ {k la}, s.mem.sockets k = some la → s.mem.sockOpen k = false →
      s'.mem.sockOpen k = false := fun hk hc => Bool.eq_false_iff.2 fun ho =>
    Bool.eq_false_iff.1 hc (step_sockOpen_old hl (hw.fresh.sockets _ _ hk) ho)
  rcases step_bibHeap hl hb with hold | ⟨tid, flow, ep, -, ht'⟩
  · obtain ⟨⟨la, hla⟩, hleft⟩ := hs b bib hold
    rcases h.lost b bib hold with ⟨bk, hp⟩ | ⟨tid, pc, ht, hpc⟩ | ⟨hu, hlo⟩
    · exact .inl ⟨bk, (hw.le hl).published _ _ hp⟩
    · rcases thread_after_step hl ht with ht' | ⟨ev, pc', rfl, hstep, ht'⟩
      · exact .inr (.inl ⟨tid, pc, ht', hpc⟩)
      · rcases hstep.bibInHand hpc hold with hp | ⟨p, rfl, hp⟩ | ⟨hu, flow, ep, actual, rfl⟩
        · exact .inl hp
        · exact .inr (.inl ⟨tid, p, ht', hp⟩)
        · have hnone := h.surplus tid flow ep b actual bib ht hold
          exact .inr (.inr ⟨hu, by simp [hnone]⟩)
    · refine .inr (.inr ⟨hclosed hla hu, fun k hk => ?_⟩)
      obtain ⟨la', hla'⟩ := hleft k hk
      exact hclosed hla' (hlo k hk)
  · exact .inr (.inl ⟨tid, _, ht', rfl⟩)

/-- A socket that is open after a step was open before, or a thread has just
bound it. -/
theorem sockOpen_cases (hl : step s l = some s') {k : SockRef}
    (ho : s'.mem.sockOpen k = true) : s.mem.sockOpen k = true ∨
      (∃ la, s'.mem.sockets k = some la) ∧
        ∃ tid p, s'.threads.lookup tid = some p ∧ k ∈ p.socksInHand := by
  cases hk : s.mem.sockOpen k with
  | true => exact .inl rfl
  | false =>
    cases step_cases hl with
    | @thread tid ev pc m pc' ht hstep =>
      obtain ⟨hla, p, rfl, hp⟩ := hstep.sockOpen_new hk ho
      exact .inr ⟨hla, tid, p, (lookup_setThread ..).trans (if_pos rfl), hp⟩
    | cleanup hstep => cases hk.symm.trans (hstep.sockOpen_old ho)
    | _ => cases hk.symm.trans ho

theorem Closed.held_step (h : Closed s) (hw : Wf s) (hl : step s l = some s') {k : SockRef}
    (ho : s'.mem.sockOpen k = true) :
    (∃ b bib, s'.mem.bibHeap b = some bib ∧ (bib.uconn = k ∨ bib.leftover = some k)) ∨
    ∃ tid pc, s'.threads.lookup tid = some pc ∧ k ∈ pc.socksInHand := by
  rcases sockOpen_cases hl ho with hold | ⟨-, hnew⟩
  · rcases h.held k hold with ⟨b, bib, hb, hin⟩ | ⟨tid, pc, ht, hin⟩
    · exact .inl ⟨b, bib, (hw.le hl).bibHeap b bib hb, hin⟩
    · rcases thread_after_step hl ht with ht' | ⟨ev, pc', rfl, hstep, ht'⟩
      · exact .inr ⟨tid, pc, ht', hin⟩
      · rcases hstep.socksInHand hin ho with hb | ⟨p, rfl, hp⟩
        · exact .inl hb
        · exact .inr ⟨tid, p, ht', hp⟩
  · exact .inr hnew

theorem Closed.step (h : Closed s) (hw : Wf s) (hs : SocksOk s.mem)
    (hcond : keepsMapping s l = true) (hl : step s l = some s') : Closed s' where
  surplus _ _ _ _ _ _ ht hb := h.surplus_step hw hcond hl ht hb
  lost _ _ hb := h.lost_step hw hs hl hb
  opened k ho := by
    rcases sockOpen_cases hl ho with hold | ⟨hla, -⟩
    · exact (h.opened k hold).imp fun la => (hw.le hl).sockets k la
    · exact hla
  held _ ho := h.held_step hw hl ho

end

/-! ## Whole runs -/

/-- What holds in every state of a run whose steps all meet the condition. -/
structure MappingInv (s : State) : Prop where
  wf : Wf s
  socks : SocksOk s.mem
  current : Current s
  closed : Closed s

theorem MappingInv.step {s s' : State} {l : Label} (h : MappingInv s)
    (hcond : keepsMapping s l = true) (hl : step s l = some s') : MappingInv s' :=
  ⟨h.wf.step hl, h.socks.step h.wf hl, h.current.step h.wf h.socks hcond hl,
    h.closed.step h.wf h.socks hcond hl⟩

theorem MappingInv.init (service : Service) (mtu : Nat) (clock : Int) :
    MappingInv (State.init service mtu clock) where
  wf := .init service mtu clock
  socks _ _ h := by cases h
  current := .init service mtu clock
  closed := .init service mtu clock

theorem MappingInv.unique {s : State} (h : MappingInv s) {b b' : BibRef} {bk : BibKey}
    (hp : s.mem.Published b bk) (hp' : s.mem.Published b' bk) (ho : s.mem.bibOpen b = true)
    (ho' : s.mem.bibOpen b' = true) : b = b' :=
  Option.some.inj ((h.current.current b bk hp ho).symm.trans (h.current.current b' bk hp' ho'))

/-- In every state of a run in which reply loops end on closed sockets only and
no losing call holds a leftover candidate, a client has one published entry with
an open socket, its sessions on open sockets carry one external address and
port, and every socket of a call that has lost is closed. -/
theorem mapping_endpoint_independent (service : Service) (mtu : Nat) (clock : Int)
    (labels : List Label) (s : State)
    (hrun : run step (State.init service mtu clock) labels = some s)
    (hcond : AllSteps step (fun s l => keepsMapping s l = true)
      (State.init service mtu clock) labels) :
    (∀ b b' bk, s.mem.Published b bk → s.mem.Published b' bk → s.mem.bibOpen b = true →
      s.mem.bibOpen b' = true → b = b') ∧
    (∀ key key' r r' sess sess', bibKey key = bibKey key' →
      s.mem.sessions.lookup key = some r → s.mem.sessions.lookup key' = some r' →
      s.mem.sessHeap r = some sess → s.mem.sessHeap r' = some sess' →
      s.mem.bibOpen sess.bib = true → s.mem.bibOpen sess'.bib = true →
      sess.localIP = sess'.localIP ∧ sess.localPort = sess'.localPort) ∧
    (∀ b bib, s.mem.bibHeap b = some bib → (∀ bk, ¬s.mem.Published b bk) →
      (∀ tid pc, s.threads.lookup tid = some pc → pc.bibInHand ≠ some b) →
      s.mem.sockOpen bib.uconn = false ∧ ∀ k ∈ bib.leftover, s.mem.sockOpen k = false) ∧
    (∀ k, s.mem.sockOpen k = true →
      (∃ b bib, s.mem.bibHeap b = some bib ∧ (bib.uconn = k ∨ bib.leftover = some k) ∧
        ((∃ bk, s.mem.Published b bk) ∨
          ∃ tid pc, s.threads.lookup tid = some pc ∧ pc.bibInHand = some b)) ∨
      ∃ tid pc, s.threads.lookup tid = some pc ∧ k ∈ pc.socksInHand) := by
  have h : MappingInv s :=
    run_invariant (fun _ _ _ hi hc hl => hi.step hc hl) (.init service mtu clock) hcond hrun
  refine ⟨fun b b' bk hp hp' ho ho' => h.unique hp hp' ho ho', ?_, ?_, ?_⟩
  · intro key key' r r' sess sess' hbk hr hr' hs hs' ho ho'
    obtain ⟨⟨S, hS⟩, -⟩ := h.wf.tables.sessions key r hr
    obtain ⟨⟨S', hS'⟩, -⟩ := h.wf.tables.sessions key' r' hr'
    obtain rfl := Option.some.inj (hS.heap.symm.trans hs)
    obtain rfl := Option.some.inj (hS'.heap.symm.trans hs')
    have hbib : S.bib = S'.bib :=
      h.unique hS.published (hbk ▸ hS'.published) ho ho'
    obtain ⟨bib, hb, hip, hport⟩ := hS.copies
    obtain ⟨bib', hb', hip', hport'⟩ := hS'.copies
    obtain rfl : bib = bib' := Option.some.inj (hb.symm.trans (hbib ▸ hb'))
    exact ⟨hip.trans hip'.symm, hport.trans hport'.symm⟩
  · intro b bib hb hpub hhand
    rcases h.closed.lost b bib hb with ⟨bk, hp⟩ | ⟨tid, pc, ht, hpc⟩ | hclosed
    · exact absurd hp (hpub bk)
    · exact absurd hpc (hhand tid pc ht)
    · exact hclosed
  · intro k ho
    rcases h.closed.held k ho with ⟨b, bib, hb, hin⟩ | hheld
    · refine .inl ⟨b, bib, hb, hin, ?_⟩
      rcases h.closed.lost b bib hb with hp | hhand | ⟨hu, hleft⟩
      · exact .inl hp
      · exact .inr hhand
      · rcases hin with rfl | hk
        · cases hu.symm.trans ho
        · cases (hleft k hk).symm.trans ho
    · exact .inr hheld

/-- The condition is met when flows are set up and evicted. -/
theorem mapping_endpoint_independent_evictAfter :
    ∃ svc ∈ flowService 1, ∃ s ∈ run step (State.init svc 1280 0) evictAfter,
      ∀ b b' bk, s.mem.Published b bk → s.mem.Published b' bk → s.mem.bibOpen b = true →
        s.mem.bibOpen b' = true → b = b' := by
  have hrun : ∃ svc ∈ flowService 1, ∃ s ∈ run step (State.init svc 1280 0) evictAfter,
      AllSteps step (fun s l => keepsMapping s l = true) (State.init svc 1280 0)
        evictAfter := by
    decide +kernel
  obtain ⟨svc, hsvc, s, hs, hcond⟩ := hrun
  exact ⟨svc, hsvc, s, hs, (mapping_endpoint_independent svc 1280 0 _ s hs hcond).1⟩

/-! ### An open socket outside the map -/

/-- The reply loop of a client ends on a read error; the client then opens a
second flow. -/
def readError : List Label :=
  arrive 0 1 ++ newMapping 0 40000 ++ nexts 0 5 ++ [.loopExit 2, .loopDelete 2] ++
    arriveTo 54 1 1 ++ newMapping 1 40002 ++ nexts 1 5

/-- Two flows of a client race for its entry, and the one that loses has bound
an odd port before the even one. -/
def lostRace : List Label :=
  arrive 0 1 ++ arriveTo 54 1 1 ++ nexts 1 1 ++
    [.thread 1 (.probed (.ok routeIP))] ++ nexts 1 1 ++
    [.thread 1 (.bound (.ok 40001)), .thread 1 (.bound (.ok 40002))] ++ nexts 1 1 ++
    newMapping 0 40000 ++ nexts 0 5 ++ nexts 1 8

/-- After the read error the client has two published entries with open sockets,
and its two sessions carry different ports.  After the race the entry that has
lost is in nobody's hands, and one of its sockets is open. -/
theorem reply_loop_exit_splits_mapping :
    ∃ svc ∈ flowService 4096,
      (∃ s ∈ run step (State.init svc 1280 0) readError,
        s.mem.loops 2 = some ⟨bibKey (flowKey 1), .gone⟩ ∧ s.mem.bibOpen 2 = true ∧
        s.mem.loops 6 = some ⟨bibKey (flowKey 1), .reading⟩ ∧ s.mem.bibOpen 6 = true ∧
        (s.mem.sessHeap 3).map UdpSession.localPort = some 40000 ∧
        (s.mem.sessHeap 7).map UdpSession.localPort = some 40002 ∧
        s.mem.sessions.lookup (flowKey 1) = some 3 ∧
        s.mem.sessions.lookup { flowKey 1 with dstPort := 54 } = some 7) ∧
      ∃ s ∈ run step (State.init svc 1280 0) lostRace,
        Quiet s ∧ s.mem.loops 4 = none ∧
        s.mem.bibHeap 4 = some ⟨3, routeIP, 40002, some 2⟩ ∧
        s.mem.sockOpen 3 = false ∧ s.mem.sockOpen 2 = true := by
  decide +kernel

end Ydn64.Nat64.Udp
