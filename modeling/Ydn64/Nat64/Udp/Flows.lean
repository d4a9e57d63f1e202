import Ydn64.Nat64.Udp.Filtering

/-!
# The flow tables of the BIB entries

`bib.flows` is an index of the sessions of one client socket by destination.  A
set-up writes it last, after its session is in `sessions`, and `deleteSession`
clears it only if its own `CompareAndDelete` on `sessions` has won.  A teardown
between the two writes of the set-up therefore finds nothing to clear, and the
set-up then leaves an entry that nobody removes while the BIB entry lives
(`eviction_leaves_flow`).

`storesLive` is the condition that excludes this: the session of a `flows.Store`
is still the one in the table.  In every run of such steps the index agrees with
the table wherever no set-up and no teardown is half-way (`flows_current`).

The hard case is a set-up that replaces a stale entry of its tuple.  It writes
the flow table of the BIB entry that it has found, and the stale session stands
in the table of the one that its own set-up had found; the two agree as long as
that one is in `bibs`.  `Endpoints` shows that a tuple has one set-up at a time,
since each holds the one open endpoint of the tuple, and `Acquired` that what it
has found is not older than what any session of the tuple has.
-/

namespace Ydn64.Nat64.Udp

open Ydn64.GoStd Ydn64.Config Ydn64.Lib

/-! ## The condition -/

/-- If the next operation of the thread is `flows.Store`, its session is the one
in the table. -/
def Pc.storesLive (m : Memory) : Pc → Bool
  | .storeFlow key r => m.sessions.lookup key = some r
  | _ => true

/-- A `flows.Store` of the step is that of a session in the table. -/
def storesLive (s : State) : Label → Bool
  | .thread tid _ => (s.threads.lookup tid).all (Pc.storesLive s.mem)
  | _ => true

/-! ## One set-up per tuple -/

/-- The tuple of a set-up and the endpoint that it keeps open until its session
is in the table. -/
def Pc.liveEp (m : Memory) : Pc → Option (SessionKey × EpRef)
  | .bibLoad flow ep | .bibProbe flow ep | .bibListen flow ep _ | .bibBind flow ep _ _ _ _
  | .bibTake flow ep _ _ | .bibPublish flow ep _ | .bibSurplus flow ep _ _
  | .newSession flow ep _ => some (flow.key, ep)
  | .loadOrStore key r | .store key r => (m.sessHeap r).map fun sess => (key, sess.conn6)
  | _ => none

section
variable {m m' : Memory} {pc : Pc} {key : SessionKey} {ep : EpRef}

theorem Pc.Ok.liveEp (hok : pc.Ok m) (h : pc.liveEp m = some (key, ep)) :
    m.endpoints ep = some key := by
  have hsess : ∀ {k r}, (∃ sess, SessOk m k r sess) →
      (m.sessHeap r).map (fun sess => (k, sess.conn6)) = some (key, ep) →
      m.endpoints ep = some key := by
    rintro k r ⟨sess, hs⟩ h
    rw [hs.heap] at h
    cases h
    exact hs.conn6
  cases pc with
  | bibLoad | bibProbe | bibListen => cases h; exact hok
  | bibBind | bibTake | bibPublish | bibSurplus | newSession => cases h; exact hok.1
  | loadOrStore => exact hsess hok h
  | store => exact hsess hok h
  | _ => cases h

theorem Pc.liveEp_owns (h : pc.liveEp m = some (key, ep)) : ep ∈ pc.owns ∨
    ∃ r sess, r ∈ pc.owns ∧ m.sessHeap r = some sess ∧ sess.conn6 = ep := by
  have hsess : ∀ {k r}, (m.sessHeap r).map (fun sess => (k, sess.conn6)) = some (key, ep) →
      ∃ sess, m.sessHeap r = some sess ∧ sess.conn6 = ep := by
    intro k r h
    obtain ⟨sess, hs, he⟩ := Option.map_eq_some_iff.1 h
    exact ⟨sess, hs, congrArg Prod.snd he⟩
  cases pc with
  | loadOrStore k r =>
    obtain ⟨sess, hs, he⟩ := hsess h
    exact .inr ⟨r, sess, by simp [Pc.owns], hs, he⟩
  | store k r =>
    obtain ⟨sess, hs, he⟩ := hsess h
    exact .inr ⟨r, sess, by simp [Pc.owns], hs, he⟩
  | bibLoad | bibProbe | bibListen | bibBind | bibTake | bibPublish | bibSurplus | newSession =>
    cases h; exact .inl (by simp [Pc.owns])
  | _ => cases h

theorem Pc.Ok.liveEp_of_le (hok : pc.Ok m) (hle : m.Le m') : pc.liveEp m' = pc.liveEp m := by
  cases pc with
  | loadOrStore k r =>
    obtain ⟨sess, hs⟩ := hok
    rw [Pc.liveEp, Pc.liveEp, hs.heap, hle.sessHeap _ _ hs.heap]
  | store k r =>
    obtain ⟨sess, hs⟩ := hok
    rw [Pc.liveEp, Pc.liveEp, hs.heap, hle.sessHeap _ _ hs.heap]
  | _ => rfl

/-- A thread becomes a set-up with an endpoint when it makes the endpoint. -/
theorem ThreadStep.liveEp {ev : Event} {p : Pc} (h : ThreadStep m pc ev m' (some p))
    (hp : p.liveEp m' = some (key, ep)) :
    pc.liveEp m = some (key, ep) ∨ ep = m.nextRef ∧ m'.epOpen ep = true := by
  generalize hq : some p = q at h
  cases h with
  | read h =>
    left
    cases h with
    | @pick _ _ _ _ oldest _ =>
      obtain rfl := Option.some.inj hq
      cases oldest <;> cases hp
    | @bindErr _ _ _ _ _ fallback _ =>
      obtain rfl := Option.some.inj hq
      cases fallback with
      | none => cases hp
      | some k => exact hp
    | @delLost _ _ after _ =>
      cases after with
      | exit => cases hq
      | admitLoop => obtain rfl := Option.some.inj hq; cases hp
    | probeErr => obtain rfl := Option.some.inj hq; cases hp
    | srcShed | admitShed | epFail => cases hq
    | _ =>
      obtain rfl := Option.some.inj hq
      exact hp
  | epCreate =>
    obtain rfl := Option.some.inj hq
    cases hp
    exact .inr ⟨rfl, Function.update_self ..⟩
  | @newSession flow e b bib _ =>
    obtain rfl := Option.some.inj hq
    exact .inl ((Memory.map_sessHeap_newSess ..).symm.trans hp)
  | @delFlow _ _ after _ _ =>
    cases after with
    | exit => cases hq
    | admitLoop => obtain rfl := Option.some.inj hq; cases hp
  | epClose => cases hq
  | bindMatch | bindRetry | bindLast | take | publish | surplus =>
    obtain rfl := Option.some.inj hq; exact .inl hp
  | _ =>
    obtain rfl := Option.some.inj hq
    cases hp

end

/-- An endpoint belongs to one session, a tuple has one open endpoint, and every
set-up holds its endpoint open. -/
structure Endpoints (s : State) : Prop where
  conn6 : ∀ r r' sess sess', s.mem.sessHeap r = some sess → s.mem.sessHeap r' = some sess' →
    sess.conn6 = sess'.conn6 → r = r'
  one : ∀ ep ep' key, s.mem.endpoints ep = some key → s.mem.endpoints ep' = some key →
    s.mem.epOpen ep = true → s.mem.epOpen ep' = true → ep = ep'
  live : ∀ tid pc key ep, s.threads.lookup tid = some pc → pc.liveEp s.mem = some (key, ep) →
    s.mem.epOpen ep = true

theorem Endpoints.init (service : Service) (mtu : Nat) (clock : Int) :
    Endpoints (State.init service mtu clock) where
  conn6 _ _ _ _ h := by cases h
  one _ _ _ h := by cases h
  live _ _ _ _ h := by cases h

theorem Endpoints.owner {s : State} (h : Endpoints s) (hw : Wf s) {tid tid' : Tid}
    {pc pc' : Pc} {key key' : SessionKey} {ep : EpRef} (ht : s.threads.lookup tid = some pc)
    (ht' : s.threads.lookup tid' = some pc') (he : pc.liveEp s.mem = some (key, ep))
    (he' : pc'.liveEp s.mem = some (key', ep)) : tid = tid' := by
  rcases Pc.liveEp_owns he with ho | ⟨r, sess, ho, hs, hc⟩ <;>
    rcases Pc.liveEp_owns he' with ho' | ⟨r', sess', ho', hs', hc'⟩
  · exact hw.disjoint tid tid' pc pc' ep ht ht' ho ho'
  · exact absurd hc' ((hw.own tid pc ht ep ho).conn6 r' sess' hs')
  · exact absurd hc ((hw.own tid' pc' ht' ep ho').conn6 r sess hs)
  · obtain rfl := h.conn6 r r' sess sess' hs hs' (hc.trans hc'.symm)
    exact hw.disjoint tid tid' pc pc' r ht ht' ho ho'

theorem Endpoints.unique {s : State} (h : Endpoints s) (hw : Wf s) {tid tid' : Tid}
    {pc pc' : Pc} {key : SessionKey} {ep ep' : EpRef} (ht : s.threads.lookup tid = some pc)
    (ht' : s.threads.lookup tid' = some pc') (he : pc.liveEp s.mem = some (key, ep))
    (he' : pc'.liveEp s.mem = some (key, ep')) : tid = tid' := by
  obtain rfl : ep = ep' := h.one ep ep' key ((hw.pcs tid pc ht).liveEp he)
    ((hw.pcs tid' pc' ht').liveEp he') (h.live tid pc key ep ht he)
    (h.live tid' pc' key ep' ht' he')
  exact h.owner hw ht ht' he he'

/-- What a step closes is the endpoint of a set-up that has failed, or that of a
session that has been in the table. -/
theorem step_closes {s s' : State} {l : Label} (hw : Wf s) (hl : step s l = some s')
    {ep : EpRef} (ho : s.mem.epOpen ep = true) : s'.mem.epOpen ep = true ∨
      (∃ tid, s.threads.lookup tid = some (.epClose ep)) ∨
      ∃ key r sess, Reached s.mem key r ∧ s.mem.sessHeap r = some sess ∧ sess.conn6 = ep := by
  have hclose : ∀ e, Function.update s.mem.epOpen e false ep = true ∨ e = ep := by
    intro e
    by_cases he : ep = e
    · exact .inr he.symm
    · exact .inl ((Function.update_of_ne he ..).trans ho)
  cases step_cases hl with
  | @thread tid ev pc m pc' ht hstep =>
    cases hstep with
    | epCreate =>
      left
      change Function.update s.mem.epOpen s.mem.nextRef true ep = true
      by_cases he : ep = s.mem.nextRef
      · rw [he]
        exact Function.update_self ..
      · exact (Function.update_of_ne he ..).trans ho
    | @epClose e =>
      rcases hclose e with h | rfl
      · exact .inl h
      · exact .inr (.inl ⟨tid, ht⟩)
    | @delClose r key after sess hs =>
      rcases hclose sess.conn6 with h | he
      · exact .inl h
      · exact .inr (.inr ⟨key, r, sess, hw.pcs tid _ ht, hs, he⟩)
    | _ => exact .inl ho
  | @cleanup ev m pc hstep =>
    have hok := hw.cleanup
    generalize s.cleanup = pc₀ at hstep hok
    cases hstep with
    | @sessClose cutoff scan r sess hs =>
      obtain ⟨key, hr⟩ := hok
      rcases hclose sess.conn6 with h | he
      · exact .inl h
      · exact .inr (.inr ⟨key, r, sess, hr, hs, he⟩)
    | @stopSess scan key r sess hkey hs =>
      rcases hclose sess.conn6 with h | he
      · exact .inl h
      · exact .inr (.inr ⟨key, r, sess, hw.tables.sessions key r hkey, hs, he⟩)
    | _ => exact .inl ho
  | _ => exact .inl ho

theorem Endpoints.live_step {s s' : State} {l : Label} (h : Endpoints s) (hw : Wf s)
    (hl : step s l = some s') {tid : Tid} {pc : Pc} {key : SessionKey} {ep : EpRef}
    (ht : s.threads.lookup tid = some pc) (he : pc.liveEp s.mem = some (key, ep)) :
    s'.mem.epOpen ep = true := by
  rcases step_closes hw hl (h.live tid pc key ep ht he) with ho | ⟨a, ha⟩ | ⟨k, r, sess, hr, hs, hc⟩
  · exact ho
  · have hown : Own s.mem ep := hw.own a _ ha ep (by simp [Pc.owns])
    rcases Pc.liveEp_owns he with hep | ⟨r, sess, -, hs, hc⟩
    · obtain rfl := hw.disjoint tid a pc _ ep ht ha hep (by simp [Pc.owns])
      obtain rfl := Option.some.inj (ht.symm.trans ha)
      cases he
    · exact absurd hc (hown.conn6 r sess hs)
  · rcases Pc.liveEp_owns he with hep | ⟨r', sess', hr', hs', hc'⟩
    · exact absurd hc ((hw.own tid pc ht ep hep).conn6 r sess hs)
    · obtain rfl := h.conn6 r r' sess sess' hs hs' (hc.trans hc'.symm)
      cases (hw.own tid pc ht r hr').registered.symm.trans hr.2

theorem not_open_of_not_demuxed {m : Memory} (hf : m.Fresh) {key : SessionKey}
    (hd : m.demuxed key = false) {ep : EpRef} (he : m.endpoints ep = some key) :
    m.epOpen ep = false := by
  refine Bool.eq_false_iff.2 fun ho => Bool.eq_false_iff.1 hd ?_
  refine List.any_eq_true.2 ⟨ep, List.mem_range.2 (hf.endpoints ep key he), ?_⟩
  simp [he, ho]

theorem Endpoints.one_newEp {s : State} (h : Endpoints s) (hf : s.mem.Fresh) {key₀ : SessionKey}
    (hd : s.mem.demuxed key₀ = false) {ep ep' : EpRef} {key : SessionKey}
    (he : (s.mem.newEp key₀).endpoints ep = some key)
    (he' : (s.mem.newEp key₀).endpoints ep' = some key)
    (ho : (s.mem.newEp key₀).epOpen ep = true) (ho' : (s.mem.newEp key₀).epOpen ep' = true) :
    ep = ep' := by
  -- An endpoint of the new state is the new one, or an old one that is open.
  have hold : ∀ {e}, (s.mem.newEp key₀).endpoints e = some key →
      (s.mem.newEp key₀).epOpen e = true → e = s.mem.nextRef ∧ key₀ = key ∨
        s.mem.endpoints e = some key ∧ s.mem.epOpen e = true := by
    intro e he ho
    change Function.update s.mem.endpoints s.mem.nextRef (some key₀) e = some key at he
    change Function.update s.mem.epOpen s.mem.nextRef true e = true at ho
    by_cases hn : e = s.mem.nextRef
    · rw [hn, Function.update_self] at he
      exact .inl ⟨hn, Option.some.inj he⟩
    · rw [Function.update_of_ne hn] at he ho
      exact .inr ⟨he, ho⟩
  rcases hold he ho with ⟨rfl, rfl⟩ | ⟨he, ho⟩ <;> rcases hold he' ho' with ⟨rfl, hk⟩ | ⟨he', ho'⟩
  · rfl
  · cases (not_open_of_not_demuxed hf hd he').symm.trans ho'
  · cases (not_open_of_not_demuxed hf hd (hk ▸ he)).symm.trans ho
  · exact h.one ep ep' key he he' ho ho'

theorem Endpoints.conn6_newSess {s : State} (h : Endpoints s) {sess₀ : UdpSession}
    (hown : Own s.mem sess₀.conn6) {r r' : SessRef} {sess sess' : UdpSession}
    (hs : (s.mem.newSess sess₀).sessHeap r = some sess)
    (hs' : (s.mem.newSess sess₀).sessHeap r' = some sess') (hc : sess.conn6 = sess'.conn6) :
    r = r' := by
  have hold : ∀ {q S}, (s.mem.newSess sess₀).sessHeap q = some S →
      q = s.mem.nextRef ∧ sess₀ = S ∨ s.mem.sessHeap q = some S := by
    intro q S hq
    change Function.update s.mem.sessHeap s.mem.nextRef (some sess₀) q = some S at hq
    by_cases hn : q = s.mem.nextRef
    · rw [hn, Function.update_self] at hq
      exact .inl ⟨hn, Option.some.inj hq⟩
    · rw [Function.update_of_ne hn] at hq
      exact .inr hq
  rcases hold hs with ⟨rfl, rfl⟩ | hs <;> rcases hold hs' with ⟨rfl, rfl⟩ | hs'
  · rfl
  · exact absurd hc.symm (hown.conn6 r' sess' hs')
  · exact absurd hc (hown.conn6 r sess hs)
  · exact h.conn6 r r' sess sess' hs hs' hc

/-- Every step keeps the endpoints of set-ups open and apart. -/
theorem Endpoints.step {s s' : State} {l : Label} (h : Endpoints s) (hw : Wf s)
    (hl : step s l = some s') : Endpoints s' := by
  refine ⟨?_, ?_, ?_⟩
  · intro r r' sess sess' hs hs' hc
    cases step_cases hl with
    | @thread tid ev pc m pc' ht hstep =>
      cases hstep with
      | @newSession flow ep b bib _ =>
        exact h.conn6_newSess (hw.own tid _ ht ep (by simp [Pc.owns])) hs hs' hc
      | _ => exact h.conn6 r r' sess sess' hs hs' hc
    | cleanup hstep =>
      obtain ⟨-, hheap, -⟩ := hstep.heaps
      exact h.conn6 r r' sess sess' (hheap ▸ hs) (hheap ▸ hs') hc
    | _ => exact h.conn6 r r' sess sess' hs hs' hc
  · intro ep ep' key he he' ho ho'
    cases step_cases hl with
    | @thread tid ev pc m pc' ht hstep =>
      cases hstep with
      | epCreate hd => exact h.one_newEp hw.fresh hd he he' ho ho'
      | epClose => exact h.one ep ep' key he he' (open_of_close ho) (open_of_close ho')
      | delClose => exact h.one ep ep' key he he' (open_of_close ho) (open_of_close ho')
      | _ => exact h.one ep ep' key he he' ho ho'
    | cleanup hstep =>
      generalize s.cleanup = pc₀ at hstep
      cases hstep with
      | sessClose => exact h.one ep ep' key he he' (open_of_close ho) (open_of_close ho')
      | stopSess => exact h.one ep ep' key he he' (open_of_close ho) (open_of_close ho')
      | _ => exact h.one ep ep' key he he' ho ho'
    | _ => exact h.one ep ep' key he he' ho ho'
  · intro tid pc key ep ht he
    rcases thread_of_step hl ht with hold | ⟨flow, rfl⟩ | ⟨pc₀, ev, rfl, ht₀, hstep⟩
    · rw [(hw.pcs tid pc hold).liveEp_of_le (hw.le hl)] at he
      exact h.live_step hw hl hold he
    · cases he
    · rcases hstep.liveEp he with he₀ | ⟨-, ho⟩
      · exact h.live_step hw hl ht₀ he₀
      · exact ho

/-! ## What a set-up has found -/

/-- The tuple of a set-up and the BIB entry that it has found or published. -/
def Pc.acquired (m : Memory) : Pc → Option (SessionKey × BibRef)
  | .bibSurplus flow _ _ actual => some (flow.key, actual)
  | .newSession flow _ b => some (flow.key, b)
  | .loadOrStore key r | .store key r => (m.sessHeap r).map fun sess => (key, sess.bib)
  | _ => none

section
variable {m m' : Memory} {pc : Pc} {key : SessionKey} {b : BibRef}

theorem Pc.liveEp_of_acquired (h : pc.acquired m = some (key, b)) :
    ∃ ep, pc.liveEp m = some (key, ep) := by
  have hsess : ∀ {k r}, (m.sessHeap r).map (fun sess => (k, sess.bib)) = some (key, b) →
      ∃ ep, (m.sessHeap r).map (fun sess => (k, sess.conn6)) = some (key, ep) := by
    intro k r h
    obtain ⟨sess, hs, he⟩ := Option.map_eq_some_iff.1 h
    cases he
    exact ⟨sess.conn6, by rw [hs]; rfl⟩
  cases pc with
  | bibSurplus => cases h; exact ⟨_, rfl⟩
  | newSession => cases h; exact ⟨_, rfl⟩
  | loadOrStore => exact hsess h
  | store => exact hsess h
  | _ => cases h

theorem Pc.Ok.acquired_of_le (hok : pc.Ok m) (hle : m.Le m') :
    pc.acquired m' = pc.acquired m := by
  cases pc with
  | loadOrStore k r =>
    obtain ⟨sess, hs⟩ := hok
    rw [Pc.acquired, Pc.acquired, hs.heap, hle.sessHeap _ _ hs.heap]
  | store k r =>
    obtain ⟨sess, hs⟩ := hok
    rw [Pc.acquired, Pc.acquired, hs.heap, hle.sessHeap _ _ hs.heap]
  | _ => rfl

/-- A set-up finds the entry that is in the map at that moment. -/
theorem ThreadStep.acquired {ev : Event} {p : Pc} (h : ThreadStep m pc ev m' (some p))
    (hp : p.acquired m' = some (key, b)) :
    pc.acquired m = some (key, b) ∨ m'.bibs.lookup (bibKey key) = some b := by
  generalize hq : some p = q at h
  cases h with
  | read h =>
    cases h with
    | bibFound hb =>
      obtain rfl := Option.some.inj hq
      cases hp
      exact .inr hb
    | lose hb =>
      obtain rfl := Option.some.inj hq
      cases hp
      exact .inr hb
    | stale => obtain rfl := Option.some.inj hq; exact .inl hp
    | @pick _ _ _ _ oldest _ =>
      obtain rfl := Option.some.inj hq
      cases oldest <;> cases hp
    | @bindErr _ _ _ _ _ fallback _ =>
      obtain rfl := Option.some.inj hq
      cases fallback <;> cases hp
    | @delLost _ _ after _ =>
      cases after with
      | exit => cases hq
      | admitLoop => obtain rfl := Option.some.inj hq; cases hp
    | srcShed | admitShed | epFail => cases hq
    | _ =>
      obtain rfl := Option.some.inj hq
      cases hp
  | @publish flow ep b' _ =>
    obtain rfl := Option.some.inj hq
    cases hp
    exact .inr (Finmap.lookup_insert _)
  | surplus => obtain rfl := Option.some.inj hq; exact .inl hp
  | newSession =>
    obtain rfl := Option.some.inj hq
    exact .inl ((Memory.map_sessHeap_newSess ..).symm.trans hp)
  | @delFlow _ _ after _ _ =>
    cases after with
    | exit => cases hq
    | admitLoop => obtain rfl := Option.some.inj hq; cases hp
  | epClose => cases hq
  | _ =>
    obtain rfl := Option.some.inj hq
    cases hp

end

/-- Every registered session is a session of some tuple, and one of the tuple of
a set-up has the BIB entry that the set-up has found, or one that has left the
map. -/
structure Acquired (s : State) : Prop where
  known : ∀ r, s.mem.registered r = true → ∃ key, Reached s.mem key r
  found : ∀ tid pc key b, s.threads.lookup tid = some pc → pc.acquired s.mem = some (key, b) →
    ∀ r sess, SessOk s.mem key r sess → s.mem.registered r = true →
      sess.bib = b ∨ s.mem.bibs.lookup (bibKey key) ≠ some sess.bib

theorem Acquired.init (service : Service) (mtu : Nat) (clock : Int) :
    Acquired (State.init service mtu clock) where
  known _ h := by cases h
  found _ _ _ _ h := by cases h

/-- A session that is new in the table has just been stored by its set-up. -/
theorem step_registered {s s' : State} {l : Label} (hl : step s l = some s') {r : SessRef}
    (hr : s'.mem.registered r = true) : s.mem.registered r = true ∨
      ∃ tid ev key pc p, l = .thread tid ev ∧ s.threads.lookup tid = some pc ∧
        (pc = .loadOrStore key r ∨ pc = .store key r) ∧ s'.threads.lookup tid = some p ∧
        (p = .addCounter key r ∨ p = .storeFlow key r) := by
  have hstore : ∀ {k}, Function.update s.mem.registered k true r = true →
      s.mem.registered r = true ∨ r = k := by
    intro k h
    by_cases he : r = k
    · exact .inr he
    · exact .inl ((Function.update_of_ne he ..).symm.trans h)
  cases step_cases hl with
  | @thread tid ev pc m pc' ht hstep =>
    cases hstep with
    | fresh =>
      rcases hstore hr with h | rfl
      · exact .inl h
      · exact .inr ⟨tid, _, _, _, _, rfl, ht, .inl rfl,
          (lookup_setThread ..).trans (if_pos rfl), .inl rfl⟩
    | store =>
      rcases hstore hr with h | rfl
      · exact .inl h
      · exact .inr ⟨tid, _, _, _, _, rfl, ht, .inr rfl,
          (lookup_setThread ..).trans (if_pos rfl), .inr rfl⟩
    | _ => exact .inl hr
  | cleanup hstep => exact .inl (hstep.heaps.2.2 ▸ hr)
  | _ => exact .inl hr

theorem SessOk.unique {m : Memory} {key key' : SessionKey} {r : SessRef}
    {sess sess' : UdpSession} (h : SessOk m key r sess) (h' : SessOk m key' r sess') :
    key = key' ∧ sess = sess' := by
  obtain rfl := Option.some.inj (h.heap.symm.trans h'.heap)
  exact ⟨Option.some.inj (h.conn6.symm.trans h'.conn6), rfl⟩

theorem Acquired.bibs_step {s s' : State} {l : Label} (h : Acquired s) (hw : Wf s)
    (hl : step s l = some s') {tid : Tid} {pc : Pc} {key : SessionKey} {b : BibRef}
    (ht : s.threads.lookup tid = some pc) (hpc : pc.acquired s.mem = some (key, b))
    {r : SessRef} {sess : UdpSession} (hs : SessOk s'.mem key r sess)
    (hreg : s.mem.registered r = true) :
    sess.bib = b ∨ s'.mem.bibs.lookup (bibKey key) ≠ some sess.bib := by
  obtain ⟨key₀, ⟨sess₀, hs₀⟩, -⟩ := h.known r hreg
  obtain ⟨rfl, rfl⟩ := (hs₀.mono (hw.le hl)).unique hs
  refine (h.found tid pc key₀ b ht hpc r sess₀ hs₀ hreg).imp_right fun hne hb => ?_
  rcases step_bibs hl hb with hold | ⟨a, flow, ep, ha, -⟩
  · exact hne hold
  · -- An entry that is published now had no sessions.
    have hown : Own s.mem sess₀.bib := hw.own a _ ha _ (by simp [Pc.owns])
    obtain ⟨q, hq⟩ := hs₀.published
    cases hown.loops.symm.trans hq

/-- Every step keeps what a set-up has found the newest of its tuple. -/
theorem Acquired.step {s s' : State} {l : Label} (h : Acquired s) (he : Endpoints s)
    (hw : Wf s) (hl : step s l = some s') : Acquired s' := by
  have hle := hw.le hl
  have hw' := hw.step hl
  refine ⟨?_, ?_⟩
  · intro r hr
    rcases step_registered hl hr with hold | ⟨tid, ev, key, pc, p, -, -, -, ht', hp⟩
    · exact (h.known r hold).imp fun key hk => hk.mono hle
    · have hok := hw'.pcs tid p ht'
      rcases hp with rfl | rfl <;> exact ⟨key, hok⟩
  · intro a p key b ha hp r sess hs hreg
    rcases step_registered hl hreg with hold | ⟨tid, ev, key', pc, p', rfl, ht, hpc, ht', hp'⟩
    · rcases thread_of_step hl ha with ha₀ | ⟨flow, rfl⟩ | ⟨pc, ev, rfl, ha₀, hstep⟩
      · rw [(hw.pcs a p ha₀).acquired_of_le hle] at hp
        exact h.bibs_step hw hl ha₀ hp hs hold
      · cases hp
      · rcases hstep.acquired hp with hp₀ | hb
        · exact h.bibs_step hw hl ha₀ hp₀ hs hold
        · by_cases hne : sess.bib = b
          · exact .inl hne
          · exact .inr fun hb' => hne (Option.some.inj (hb'.symm.trans hb))
    · -- The tuple would have two set-ups, this one and the one that has just stored.
      exfalso
      have hne : a ≠ tid := by
        rintro rfl
        obtain rfl := Option.some.inj (ha.symm.trans ht')
        rcases hp' with rfl | rfl <;> cases hp
      have ha₀ : s.threads.lookup a = some p := by
        rcases thread_of_step hl ha with ha₀ | ⟨flow, rfl⟩ | ⟨pc₀, ev', hlab, -, -⟩
        · exact ha₀
        · cases hp
        · exact absurd (Label.thread.inj hlab).1.symm hne
      rw [(hw.pcs a p ha₀).acquired_of_le hle] at hp
      obtain ⟨ep, hep⟩ := Pc.liveEp_of_acquired hp
      obtain ⟨sess₀, hs₀⟩ : ∃ sess₀, SessOk s.mem key' r sess₀ := by
        have hok := hw.pcs tid pc ht
        rcases hpc with rfl | rfl <;> exact hok
      obtain ⟨rfl, rfl⟩ := (hs₀.mono hle).unique hs
      have hep' : pc.liveEp s.mem = some (key', sess₀.conn6) := by
        rcases hpc with rfl | rfl <;> rw [Pc.liveEp, hs₀.heap] <;> rfl
      exact hne (he.unique hw ha₀ ht hep hep')

/-! ## The index and the table -/

/-- The session that a teardown has taken out of the table and whose flow it has
still to clear. -/
def Pc.clearsFlow : Pc → Option (SessionKey × SessRef)
  | .delCounter r key _ | .delSrc r key _ | .delFlow r key _ => some (key, r)
  | _ => none

/-- The tuple and the BIB entry of a set-up that has still to store its flow. -/
def Pc.storesFlow (m : Memory) : Pc → Option (SessionKey × BibRef)
  | .addCounter key r | .addSrc key r | .storeFlow key r =>
    (m.sessHeap r).map fun sess => (key, sess.bib)
  | _ => none

/-- A flow of an entry in the map is that of the session in the table, or a
teardown is about to clear it, or a set-up is about to replace it. -/
def FlowsOk (s : State) : Prop :=
  ∀ bk b t r, s.mem.bibs.lookup bk = some b → (s.mem.flows b).lookup t = some r →
    s.mem.sessions.lookup (sessionKey bk t) = some r ∨
      (∃ tid pc, s.threads.lookup tid = some pc ∧ pc.clearsFlow = some (sessionKey bk t, r)) ∨
      ∃ tid pc, s.threads.lookup tid = some pc ∧
        pc.storesFlow s.mem = some (sessionKey bk t, b)

section
variable {m m' : Memory} {pc : Pc} {ev : Event} {pc' : Option Pc} {key : SessionKey}

theorem ThreadStep.clearsFlow (h : ThreadStep m pc ev m' pc') {r : SessRef}
    (hpc : pc.clearsFlow = some (key, r)) :
    (∃ p, pc' = some p ∧ p.clearsFlow = some (key, r)) ∨
      ∃ sess, m.sessHeap r = some sess ∧ m' = m.deleteFlow sess.bib (v4Tuple key) r := by
  cases h with
  | delCounter => exact .inl ⟨_, rfl, hpc⟩
  | delSrc => exact .inl ⟨_, rfl, hpc⟩
  | delFlow hs =>
    cases hpc
    exact .inr ⟨_, hs, rfl⟩
  | read h => cases h <;> cases hpc
  | _ => cases hpc

theorem ThreadStep.storesFlow (h : ThreadStep m pc ev m' pc') {b : BibRef}
    (hpc : pc.storesFlow m = some (key, b)) :
    (∃ p, pc' = some p ∧ p.storesFlow m' = some (key, b)) ∨
      ∃ r, pc = .storeFlow key r ∧ m' = m.storeFlow b (v4Tuple key) r := by
  cases h with
  | addCounter => exact .inl ⟨_, rfl, hpc⟩
  | addSrc => exact .inl ⟨_, rfl, hpc⟩
  | @storeFlow k r sess hs =>
    rw [Pc.storesFlow, hs] at hpc
    cases hpc
    exact .inr ⟨r, rfl, rfl⟩
  | read h => cases h <;> cases hpc
  | _ => cases hpc

theorem Pc.storesFlow_mono (hle : m.Le m') {b : BibRef} (h : pc.storesFlow m = some (key, b)) :
    pc.storesFlow m' = some (key, b) := by
  have hsess : ∀ {k r}, (m.sessHeap r).map (fun sess => (k, sess.bib)) = some (key, b) →
      (m'.sessHeap r).map (fun sess => (k, sess.bib)) = some (key, b) := by
    intro k r h
    obtain ⟨sess, hs, he⟩ := Option.map_eq_some_iff.1 h
    rw [hle.sessHeap r sess hs, Option.map_some, he]
  cases pc with
  | addCounter | addSrc | storeFlow => exact hsess h
  | _ => cases h

end

/-- What becomes of the entry of a tuple in the session table. -/
theorem step_sessions {s s' : State} {l : Label} (hl : step s l = some s') {key : SessionKey}
    {r : SessRef} (hr : s.mem.sessions.lookup key = some r) :
    s'.mem.sessions.lookup key = some r ∨
      (∃ tid pc, s'.threads.lookup tid = some pc ∧ pc.clearsFlow = some (key, r)) ∨
      ∃ tid r', s.threads.lookup tid = some (.store key r') ∧
        s'.threads.lookup tid = some (.storeFlow key r') := by
  cases step_cases hl with
  | @thread tid ev pc m pc' ht hstep =>
    cases hstep with
    | @fresh key' r' hnone =>
      left
      change (s.mem.sessions.insert key' r').lookup key = some r
      rw [SyncMap.lookup_insert_eq_ite, if_neg ?_]
      · exact hr
      · rintro rfl
        cases hnone.symm.trans hr
    | @store key' r' =>
      by_cases he : key = key'
      · subst he
        exact .inr (.inr ⟨tid, r', ht, (lookup_setThread ..).trans (if_pos rfl)⟩)
      · left
        change (s.mem.sessions.insert key' r').lookup key = some r
        rw [SyncMap.lookup_insert_eq_ite, if_neg he]
        exact hr
    | @delWon r' key' after hwon =>
      by_cases he : key = key'
      · subst he
        obtain rfl := Option.some.inj (hwon.symm.trans hr)
        exact .inr (.inl ⟨tid, _, (lookup_setThread ..).trans (if_pos rfl), rfl⟩)
      · left
        change (s.mem.sessions.erase key').lookup key = some r
        rw [SyncMap.lookup_erase_eq_ite, if_neg he]
        exact hr
    | _ => exact .inl hr
  | cleanup hstep => exact .inl (hstep.tables.1 ▸ hr)
  | _ => exact .inl hr

/-- A flow that is new in the table of an entry has just been stored by the
set-up of its session. -/
theorem step_flows {s s' : State} {l : Label} (hl : step s l = some s') {b : BibRef}
    {t : V4Tuple} {r : SessRef} (hr : (s'.mem.flows b).lookup t = some r) :
    (s.mem.flows b).lookup t = some r ∨
      ∃ tid ev key sess, l = .thread tid ev ∧ s.threads.lookup tid = some (.storeFlow key r) ∧
        s.mem.sessHeap r = some sess ∧ sess.bib = b ∧ v4Tuple key = t ∧
        s'.mem.sessions = s.mem.sessions := by
  cases step_cases hl with
  | @thread tid ev pc m pc' ht hstep =>
    cases hstep with
    | @storeFlow key r' sess hs =>
      change (Function.update s.mem.flows sess.bib _ b).lookup t = some r at hr
      by_cases hb : b = sess.bib
      · subst hb
        rw [Function.update_self, SyncMap.lookup_insert_eq_ite] at hr
        split_ifs at hr with he
        · obtain rfl := Option.some.inj hr
          exact .inr ⟨tid, _, key, sess, rfl, ht, hs, rfl, he.symm, rfl⟩
        · exact .inl hr
      · rw [Function.update_of_ne hb] at hr
        exact .inl hr
    | @delFlow r' key after sess hs =>
      change (Function.update s.mem.flows sess.bib _ b).lookup t = some r at hr
      by_cases hb : b = sess.bib
      · subst hb
        rw [Function.update_self] at hr
        exact .inl (SyncMap.lookup_of_compareAndDelete hr)
      · rw [Function.update_of_ne hb] at hr
        exact .inl hr
    | _ => exact .inl hr
  | cleanup hstep =>
    have hflows : ∀ {pc ev m pc'}, CleanupStep s.mem pc ev m pc' → m.flows = s.mem.flows := by
      intro pc ev m pc' h
      cases h <;> rfl
    exact .inl (hflows hstep ▸ hr)
  | _ => exact .inl hr

/-- A replacing `Store` of a tuple writes the flow table of the entry in the
map. -/
theorem Acquired.same_bib {s : State} (h : Acquired s) (hw : Wf s) {tid : Tid} {bk : BibKey}
    {t : V4Tuple} {b : BibRef} {r r' : SessRef} {sess' : UdpSession}
    (hb : s.mem.bibs.lookup bk = some b) (hr : (s.mem.flows b).lookup t = some r)
    (ht : s.threads.lookup tid = some (.store (sessionKey bk t) r'))
    (hs' : s.mem.sessHeap r' = some sess') : sess'.bib = b := by
  obtain ⟨bk', sess, hp, hs, rfl, hreg⟩ := hw.tables.flows b t r hr
  obtain rfl := hp.unique (hw.tables.bibs bk _ hb)
  have hacq : Pc.acquired s.mem (.store (sessionKey bk' t) r') =
      some (sessionKey bk' t, sess'.bib) := by
    rw [Pc.acquired, hs']
    rfl
  rcases h.found tid _ _ _ ht hacq r sess hs hreg with he | hne
  · exact he.symm
  · exact absurd hb hne

section
variable {s s' : State} {l : Label} {bk : BibKey} {b : BibRef} {t : V4Tuple} {r : SessRef}

/-- The flows of an entry in the map are those of an entry that was in the map
before: one that has just been published has no flows. -/
theorem bibs_of_flow_step (hw : Wf s) (hl : step s l = some s')
    (hb : s'.mem.bibs.lookup bk = some b) (hr : (s'.mem.flows b).lookup t = some r) :
    s.mem.bibs.lookup bk = some b := by
  rcases step_bibs hl hb with hold | ⟨a, flow, ep, hta, -⟩
  · exact hold
  · have hown : Own s.mem b := hw.own a _ hta b (by simp [Pc.owns])
    have hpub : ∃ bk, s.mem.Published b bk := by
      rcases step_flows hl hr with hold | ⟨tid, ev, key, sess, -, ht, hs, rfl, -, -⟩
      · obtain ⟨bk, -, hp, -⟩ := hw.tables.flows b t r hold
        exact ⟨bk, hp⟩
      · obtain ⟨⟨S, hS⟩, -⟩ := hw.pcs tid _ ht
        obtain rfl := Option.some.inj (hS.heap.symm.trans hs)
        exact ⟨_, hS.published⟩
    obtain ⟨bk, q, hq⟩ := hpub
    cases hown.loops.symm.trans hq

/-- A teardown that has cleared its flow has cleared it in the entry that holds
it. -/
theorem flows_deleteFlow (hw : Wf s) {key : SessionKey} {sess : UdpSession}
    (hs : s.mem.sessHeap r = some sess) (hkey : v4Tuple key = t)
    (hr : (s.mem.flows b).lookup t = some r) :
    ((s.mem.deleteFlow sess.bib (v4Tuple key) r).flows b).lookup t = none := by
  obtain ⟨bk', sess', -, hs', rfl, -⟩ := hw.tables.flows b t r hr
  obtain rfl := Option.some.inj (hs'.heap.symm.trans hs)
  change (Function.update s.mem.flows sess'.bib _ sess'.bib).lookup t = none
  rw [Function.update_self, hkey, SyncMap.lookup_compareAndDelete, if_pos ⟨rfl, hr⟩]

theorem FlowsOk.in_table_step (ha : Acquired s) (hw : Wf s) (hl : step s l = some s')
    (hb : s.mem.bibs.lookup bk = some b) (hr : (s.mem.flows b).lookup t = some r)
    (hin : s.mem.sessions.lookup (sessionKey bk t) = some r) :
    s'.mem.sessions.lookup (sessionKey bk t) = some r ∨
      (∃ tid pc, s'.threads.lookup tid = some pc ∧ pc.clearsFlow = some (sessionKey bk t, r)) ∨
      ∃ tid pc, s'.threads.lookup tid = some pc ∧
        pc.storesFlow s'.mem = some (sessionKey bk t, b) := by
  rcases step_sessions hl hin with hin' | hclear | ⟨tid, r', ht, ht'⟩
  · exact .inl hin'
  · exact .inr (.inl hclear)
  · -- A stale entry of the tuple has just been replaced.
    obtain ⟨sess', hs'⟩ := hw.pcs tid _ ht
    obtain rfl := ha.same_bib hw hb hr ht hs'.heap
    refine .inr (.inr ⟨tid, _, ht', ?_⟩)
    rw [Pc.storesFlow, (hw.le hl).sessHeap _ _ hs'.heap]
    rfl

/-- A `flows.Store` that meets the condition is that of the session in the
table. -/
theorem lookup_of_storesLive (hcond : storesLive s l = true) {tid : Tid} {ev : Event}
    {key : SessionKey} (hlab : l = .thread tid ev)
    (ht : s.threads.lookup tid = some (.storeFlow key r)) :
    s.mem.sessions.lookup key = some r := by
  subst hlab
  simpa [storesLive, ht, Pc.storesLive] using hcond

/-- Every step that meets the condition keeps the index in line with the
table. -/
theorem FlowsOk.step (h : FlowsOk s) (ha : Acquired s) (hw : Wf s)
    (hcond : storesLive s l = true) (hl : step s l = some s') : FlowsOk s' := by
  intro bk b t r hb hr
  have hb₀ := bibs_of_flow_step hw hl hb hr
  rcases step_flows hl hr with hr₀ | ⟨tid, ev, key, sess, hlab, ht, hs, rfl, rfl, hsame⟩
  · rcases h bk b t r hb₀ hr₀ with hin | ⟨tid, pc, ht, hpc⟩ | ⟨tid, pc, ht, hpc⟩
    · exact FlowsOk.in_table_step ha hw hl hb₀ hr₀ hin
    · rcases thread_after_step hl ht with ht' | ⟨ev, pc', rfl, hstep, ht'⟩
      · exact .inr (.inl ⟨tid, pc, ht', hpc⟩)
      · rcases hstep.clearsFlow hpc with ⟨p, rfl, hp⟩ | ⟨sess, hs, hm⟩
        · exact .inr (.inl ⟨tid, p, ht', hp⟩)
        · -- The teardown has just cleared the flow.
          rw [hm, flows_deleteFlow hw hs (v4Tuple_sessionKey bk t) hr₀] at hr
          cases hr
    · rcases thread_after_step hl ht with ht' | ⟨ev, pc', rfl, hstep, ht'⟩
      · exact .inr (.inr ⟨tid, pc, ht', Pc.storesFlow_mono (hw.le hl) hpc⟩)
      · rcases hstep.storesFlow hpc with ⟨p, rfl, hp⟩ | ⟨r', rfl, hm⟩
        · exact .inr (.inr ⟨tid, p, ht', hp⟩)
        · -- The set-up has just stored its own session.
          left
          rw [hm] at hr ⊢
          change (Function.update s.mem.flows b _ b).lookup t = some r at hr
          rw [Function.update_self, v4Tuple_sessionKey, Finmap.lookup_insert] at hr
          obtain rfl := Option.some.inj hr
          exact lookup_of_storesLive hcond rfl ht
  · obtain ⟨⟨S, hS⟩, -⟩ := hw.pcs tid _ ht
    obtain rfl := Option.some.inj (hS.heap.symm.trans hs)
    obtain rfl := hS.published.unique (hw.tables.bibs bk _ hb₀)
    left
    rw [hsame]
    exact lookup_of_storesLive hcond hlab ht

end

/-! ## Whole runs -/

/-- What holds in every state of a run whose steps all meet the condition. -/
structure FlowsInv (s : State) : Prop where
  wf : Wf s
  endpoints : Endpoints s
  acquired : Acquired s
  flows : FlowsOk s

theorem FlowsInv.init (service : Service) (mtu : Nat) (clock : Int) :
    FlowsInv (State.init service mtu clock) where
  wf := .init service mtu clock
  endpoints := .init service mtu clock
  acquired := .init service mtu clock
  flows _ _ _ _ h := by cases h

theorem FlowsInv.step {s s' : State} {l : Label} (h : FlowsInv s)
    (hcond : storesLive s l = true) (hl : step s l = some s') : FlowsInv s' :=
  ⟨h.wf.step hl, h.endpoints.step h.wf hl, h.acquired.step h.endpoints h.wf hl,
    h.flows.step h.acquired h.wf hcond hl⟩

theorem FlowsInv.current {s : State} (h : FlowsInv s) (hq : Quiet s) {bk : BibKey} {b : BibRef}
    {t : V4Tuple} {r : SessRef} (hb : s.mem.bibs.lookup bk = some b)
    (hr : (s.mem.flows b).lookup t = some r) :
    s.mem.sessions.lookup (sessionKey bk t) = some r := by
  have hclears : ∀ {pc : Pc}, pc.halfway = false → pc.clearsFlow = none := by
    intro pc hpc
    cases pc <;> first | rfl | cases hpc
  have hstores : ∀ {pc : Pc}, pc.halfway = false → pc.storesFlow s.mem = none := by
    intro pc hpc
    cases pc <;> first | rfl | cases hpc
  rcases h.flows bk b t r hb hr with hin | ⟨tid, pc, ht, hpc⟩ | ⟨tid, pc, ht, hpc⟩
  · exact hin
  · cases (hclears (hq.halfway ht)).symm.trans hpc
  · cases (hstores (hq.halfway ht)).symm.trans hpc

/-- In every quiet state of a run in which each `flows.Store` is that of a
session in the table, every flow of an entry in `bibs` is that of the session in
the table, and `demuxUDPReply` selects no other session. -/
theorem flows_current (service : Service) (mtu : Nat) (clock : Int) (labels : List Label)
    (s : State) (hrun : run step (State.init service mtu clock) labels = some s)
    (hcond : AllSteps step (fun s l => storesLive s l = true)
      (State.init service mtu clock) labels) (hq : Quiet s) :
    (∀ bk b t r, s.mem.bibs.lookup bk = some b → (s.mem.flows b).lookup t = some r →
      s.mem.sessions.lookup (sessionKey bk t) = some r) ∧
    ∀ bk b raddr order r, s.mem.bibs.lookup bk = some b →
      demuxUDPReply s.mem b raddr order = some r →
      ∃ t, t.addr = raddr.addr ∧ s.mem.sessions.lookup (sessionKey bk t) = some r := by
  have h : FlowsInv s :=
    run_invariant (fun _ _ _ hi hc hl => hi.step hc hl) (.init service mtu clock) hcond hrun
  refine ⟨fun bk b t r hb hr => h.current hq hb hr, ?_⟩
  intro bk b raddr order r hb hr
  obtain ⟨t, ht, haddr⟩ := demuxUDPReply_flow (h.wf.tables.flowsAddressed b) hr
  exact ⟨t, haddr, h.current hq hb ht⟩

/-- The condition is met when a flow is evicted after its registration. -/
theorem flows_current_evictAfter :
    ∃ svc ∈ flowService 1, ∃ s ∈ run step (State.init svc 1280 0) evictAfter,
      Quiet s ∧ ∀ bk b t r, s.mem.bibs.lookup bk = some b →
        (s.mem.flows b).lookup t = some r →
        s.mem.sessions.lookup (sessionKey bk t) = some r := by
  have hrun : ∃ svc ∈ flowService 1, ∃ s ∈ run step (State.init svc 1280 0) evictAfter,
      Quiet s ∧ AllSteps step (fun s l => storesLive s l = true) (State.init svc 1280 0)
        evictAfter := by
    decide +kernel
  obtain ⟨svc, hsvc, s, hs, hq, hcond⟩ := hrun
  exact ⟨svc, hsvc, s, hs, hq, (flows_current svc 1280 0 _ s hs hcond hq).1⟩

/-- An eviction between the publication of a session and its `flows.Store` leaves
the flow of a session that is gone, and a reply to it is still let in. -/
theorem eviction_leaves_flow :
    ∃ svc ∈ flowService 1, ∃ s ∈ run step (State.init svc 1280 0) evictBetween,
      Quiet s ∧ s.mem.bibs.lookup (bibKey (flowKey 1)) = some 2 ∧
      (s.mem.flows 2).lookup (v4Tuple (flowKey 1)) = some 3 ∧
      s.mem.sessions.lookup (flowKey 1) = none ∧
      demuxUDPReply s.mem 2 (v4Tuple (flowKey 1)) [] = some 3 := by
  decide +kernel

end Ydn64.Nat64.Udp
