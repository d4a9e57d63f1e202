import Ydn64.Nat64.Udp.Registry

/-!
# The objects of the translator fit together

Every reference that a table or a goroutine holds is that of an object with the
fields it should have: the entries of `sessions` are sessions of their key, the
entries of `bibs` are published for their client, a flow entry of a BIB entry is
a session on it.  `Wf` collects these facts, and `Wf.step` shows that every step
of the machine keeps them.

Two ideas carry the proof.  The objects only grow (`Memory.Le`), and the facts
about them are monotone.  What a thread has made and not handed out yet is its
own (`Pc.owns`, `Own`): no other thread and no table refers to it, so no other
thread can publish or register it.
-/

namespace Ydn64.Nat64.Udp

open Ydn64.GoStd Ydn64.Config Ydn64.Lib

/-! ## Objects -/

/-- The BIB entry has been stored in the map under `bk`. -/
def Memory.Published (m : Memory) (b : BibRef) (bk : BibKey) : Prop :=
  ∃ pc, m.loops b = some ⟨bk, pc⟩

/-- The reference is a session of the key. -/
structure SessOk (m : Memory) (key : SessionKey) (r : SessRef) (sess : UdpSession) : Prop where
  heap : m.sessHeap r = some sess
  conn6 : m.endpoints sess.conn6 = some key
  dstAddr : sess.dstAddr = key.dstAddr
  published : m.Published sess.bib (bibKey key)
  copies : ∃ bib, m.bibHeap sess.bib = some bib ∧ sess.localIP = bib.localIP ∧
    sess.localPort = bib.localPort

/-- The reference is a session of the key that has been in the table. -/
def Reached (m : Memory) (key : SessionKey) (r : SessRef) : Prop :=
  (∃ sess, SessOk m key r sess) ∧ m.registered r = true

theorem Memory.Published.unique {m : Memory} {b : BibRef} {bk bk' : BibKey}
    (h : m.Published b bk) (h' : m.Published b bk') : bk = bk' := by
  obtain ⟨q, hq⟩ := h
  obtain ⟨q', hq'⟩ := h'
  exact congrArg ReplyLoop.bk (Option.some.inj (hq.symm.trans hq'))

/-- Every reference in use is below `n`. -/
structure Memory.Below (m : Memory) (n : Nat) : Prop where
  endpoints : ∀ ep key, m.endpoints ep = some key → ep < n
  sockets : ∀ k sock, m.sockets k = some sock → k < n
  bibHeap : ∀ b bib, m.bibHeap b = some bib → b < n
  sessHeap : ∀ r sess, m.sessHeap r = some sess → r < n
  loops : ∀ b loop, m.loops b = some loop → b < n
  registered : ∀ r, m.registered r = true → r < n
  conn6 : ∀ r sess, m.sessHeap r = some sess → sess.conn6 < n

/-- The next reference is new. -/
def Memory.Fresh (m : Memory) : Prop := m.Below m.nextRef

/-- The objects grow. -/
structure Memory.Le (m m' : Memory) : Prop where
  nextRef : m.nextRef ≤ m'.nextRef
  endpoints : ∀ ep key, m.endpoints ep = some key → m'.endpoints ep = some key
  sockets : ∀ k sock, m.sockets k = some sock → m'.sockets k = some sock
  bibHeap : ∀ b bib, m.bibHeap b = some bib → m'.bibHeap b = some bib
  sessHeap : ∀ r sess, m.sessHeap r = some sess → m'.sessHeap r = some sess
  published : ∀ b bk, m.Published b bk → m'.Published b bk
  registered : ∀ r, m.registered r = true → m'.registered r = true

variable {m m' : Memory}

/-- The part of the memory that the facts about objects look at. -/
def Memory.objects (m : Memory) : Nat × (EpRef → Option SessionKey) ×
    (SockRef → Option Socket) × (BibRef → Option UdpBIB) × (SessRef → Option UdpSession) ×
    (BibRef → Option ReplyLoop) × (SessRef → Bool) :=
  (m.nextRef, m.endpoints, m.sockets, m.bibHeap, m.sessHeap, m.loops, m.registered)

theorem Memory.Le.of_objects_eq {m₁ : Memory} (h : m.Le m₁) (he : m'.objects = m₁.objects) :
    m.Le m' := by
  simp only [Memory.objects, Prod.mk.injEq] at he
  obtain ⟨h1, h2, h3, h4, h5, h6, h7⟩ := he
  refine ⟨?_, ?_, ?_, ?_, ?_, ?_, ?_⟩
  · rw [h1]
    exact h.nextRef
  · rw [h2]
    exact h.endpoints
  · rw [h3]
    exact h.sockets
  · rw [h4]
    exact h.bibHeap
  · rw [h5]
    exact h.sessHeap
  · unfold Memory.Published
    rw [h6]
    exact h.published
  · rw [h7]
    exact h.registered

theorem Memory.Fresh.of_objects_eq (h : m.Fresh) (he : m'.objects = m.objects) : m'.Fresh := by
  simp only [Memory.objects, Prod.mk.injEq] at he
  obtain ⟨h1, h2, h3, h4, h5, h6, h7⟩ := he
  unfold Memory.Fresh
  rw [h1]
  refine ⟨?_, ?_, ?_, ?_, ?_, ?_, ?_⟩
  · rw [h2]
    exact h.endpoints
  · rw [h3]
    exact h.sockets
  · rw [h4]
    exact h.bibHeap
  · rw [h5]
    exact h.sessHeap
  · rw [h6]
    exact h.loops
  · rw [h7]
    exact h.registered
  · rw [h5]
    exact h.conn6

theorem Memory.Below.succ {n : Nat} (h : m.Below n) : m.Below (n + 1) where
  endpoints ep key hk := Nat.lt_succ_of_lt (h.endpoints ep key hk)
  sockets k la hk := Nat.lt_succ_of_lt (h.sockets k la hk)
  bibHeap b bib hb := Nat.lt_succ_of_lt (h.bibHeap b bib hb)
  sessHeap r sess hr := Nat.lt_succ_of_lt (h.sessHeap r sess hr)
  loops b loop hb := Nat.lt_succ_of_lt (h.loops b loop hb)
  registered r hr := Nat.lt_succ_of_lt (h.registered r hr)
  conn6 r sess hr := Nat.lt_succ_of_lt (h.conn6 r sess hr)

theorem Memory.Le.refl (m : Memory) : m.Le m :=
  ⟨le_rfl, fun _ _ h => h, fun _ _ h => h, fun _ _ h => h, fun _ _ h => h, fun _ _ h => h,
    fun _ h => h⟩

theorem SessOk.mono {key : SessionKey} {r : SessRef} {sess : UdpSession}
    (h : SessOk m key r sess) (hle : m.Le m') : SessOk m' key r sess := by
  obtain ⟨bib, hbib, hcopy⟩ := h.copies
  exact ⟨hle.sessHeap _ _ h.heap, hle.endpoints _ _ h.conn6, h.dstAddr,
    hle.published _ _ h.published, bib, hle.bibHeap _ _ hbib, hcopy⟩

theorem Reached.mono {key : SessionKey} {r : SessRef} (h : Reached m key r) (hle : m.Le m') :
    Reached m' key r := by
  obtain ⟨⟨sess, hs⟩, hreg⟩ := h
  exact ⟨⟨sess, hs.mono hle⟩, hle.registered r hreg⟩

theorem update_of_fresh {A : Type} {heap : Nat → Option A} {n : Nat} {v : A}
    (hfresh : ∀ r w, heap r = some w → r < n) {r : Nat} {w : A} (h : heap r = some w) :
    Function.update heap n (some v) r = some w := by
  rw [Function.update_of_ne (hfresh r w h).ne]
  exact h

theorem lt_of_update {A : Type} {heap : Nat → Option A} {n : Nat} {v : A}
    (hfresh : ∀ r w, heap r = some w → r < n) {r : Nat} {w : A}
    (h : Function.update heap n (some v) r = some w) : r < n + 1 := by
  by_cases hr : r = n
  · omega
  · rw [Function.update_of_ne hr] at h
    have := hfresh r w h
    omega

/-- What is open after a `Close` was open before. -/
theorem open_of_close {f : Nat → Bool} {j k : Nat} (h : Function.update f j false k = true) :
    f k = true := by
  by_cases he : k = j
  · rw [he, Function.update_self] at h
    cases h
  · rwa [Function.update_of_ne he] at h

/-! ## Threads -/

/-- What the references that a thread holds stand for. -/
def Pc.Ok (m : Memory) : Pc → Prop
  | .srcCheck _ | .admitSession _ | .admitLoop .. | .createEndpoint _ | .epClose _ => True
  | .evict _ _ _ _ oldest => ∀ o ∈ oldest, Reached m o.key o.sess
  | .bibLoad flow ep | .bibProbe flow ep | .bibListen flow ep _ | .bibError flow ep _ =>
    m.endpoints ep = some flow.key
  | .bibBind flow ep _ _ _ fallback =>
    m.endpoints ep = some flow.key ∧ ∀ k ∈ fallback, ∃ la, m.sockets k = some la
  | .bibTake flow ep sock leftover =>
    m.endpoints ep = some flow.key ∧ (∃ la, m.sockets sock = some la) ∧
      ∀ k ∈ leftover, ∃ la, m.sockets k = some la
  | .bibPublish flow ep b =>
    m.endpoints ep = some flow.key ∧ (∃ bib, m.bibHeap b = some bib) ∧ ep ≠ b
  | .bibSurplus flow ep b actual =>
    m.endpoints ep = some flow.key ∧ (∃ bib, m.bibHeap b = some bib) ∧
      m.Published actual (bibKey flow.key)
  | .newSession flow ep b => m.endpoints ep = some flow.key ∧ m.Published b (bibKey flow.key)
  | .loadOrStore key r | .store key r => ∃ sess, SessOk m key r sess
  | .addCounter key r | .addSrc key r | .storeFlow key r | .touchBib key r => Reached m key r
  | .fwdRead key r | .fwdStamp key r _ | .fwdTouch key r _ | .fwdWrite key r _ =>
    Reached m key r
  | .delClose r key _ | .delSession r key _ | .delCounter r key _ | .delSrc r key _
  | .delFlow r key _ => Reached m key r

/-- What a thread has made and not handed out yet. -/
def Pc.owns : Pc → List Nat
  | .bibLoad _ ep | .bibProbe _ ep | .bibListen _ ep _ | .bibError _ ep _ | .epClose ep
  | .bibBind _ ep _ _ _ _ | .bibTake _ ep _ _ | .newSession _ ep _ => [ep]
  | .bibPublish _ ep b | .bibSurplus _ ep b _ => [ep, b]
  | .loadOrStore _ r | .store _ r => [r]
  | _ => []

/-- Nobody but its owner refers to the object. -/
structure Own (m : Memory) (x : Nat) : Prop where
  lt : x < m.nextRef
  loops : m.loops x = none
  registered : m.registered x = false
  conn6 : ∀ r sess, m.sessHeap r = some sess → sess.conn6 ≠ x

/-- What the references of the cleanup goroutine stand for. -/
def CleanupPc.Ok (m : Memory) : CleanupPc → Prop
  | .sessClose _ _ r => ∃ key, Reached m key r
  | .bibClose _ _ bk b | .bibDelete _ _ bk b => m.Published b bk
  | _ => True

theorem Pc.Ok.mono {pc : Pc} (h : pc.Ok m) (hle : m.Le m') : pc.Ok m' := by
  cases pc with
  | evict flow max attempt scan oldest => exact fun o ho => (h o ho).mono hle
  | bibLoad flow ep | bibProbe flow ep | bibListen flow ep bindIP | bibError flow ep err =>
    exact hle.endpoints _ _ h
  | bibBind flow ep bindIP want attempt fallback =>
    exact ⟨hle.endpoints _ _ h.1, fun k hk => (h.2 k hk).imp fun la => hle.sockets k la⟩
  | bibTake flow ep sock leftover =>
    exact ⟨hle.endpoints _ _ h.1, h.2.1.imp fun la => hle.sockets sock la,
      fun k hk => (h.2.2 k hk).imp fun la => hle.sockets k la⟩
  | bibPublish flow ep b =>
    exact ⟨hle.endpoints _ _ h.1, h.2.1.imp fun bib => hle.bibHeap b bib, h.2.2⟩
  | bibSurplus flow ep b actual =>
    exact ⟨hle.endpoints _ _ h.1, h.2.1.imp fun bib => hle.bibHeap b bib,
      hle.published _ _ h.2.2⟩
  | newSession flow ep b => exact ⟨hle.endpoints _ _ h.1, hle.published _ _ h.2⟩
  | loadOrStore key r => exact h.imp fun sess hs => hs.mono hle
  | store key r => exact h.imp fun sess hs => hs.mono hle
  | srcCheck | admitSession | admitLoop | createEndpoint | epClose => trivial
  | _ => exact Reached.mono h hle

theorem CleanupPc.Ok.mono {pc : CleanupPc} (h : pc.Ok m) (hle : m.Le m') : pc.Ok m' := by
  cases pc with
  | sessClose cutoff scan r => exact h.imp fun key hr => hr.mono hle
  | bibClose cutoff scan bk b => exact hle.published _ _ h
  | bibDelete cutoff scan bk b => exact hle.published _ _ h
  | _ => trivial

/-! ## New objects -/

theorem Memory.Fresh.newEp (h : m.Fresh) (key : SessionKey) :
    m.Le (m.newEp key) ∧ (m.newEp key).Fresh := by
  refine ⟨{ Memory.Le.refl m with nextRef := Nat.le_succ _, endpoints := ?_ },
    { h.succ with endpoints := ?_ }⟩
  · exact fun ep k => update_of_fresh h.endpoints
  · exact fun ep k => lt_of_update h.endpoints

theorem Memory.Fresh.newSock (h : m.Fresh) (sock : Socket) :
    m.Le (m.newSock sock) ∧ (m.newSock sock).Fresh := by
  refine ⟨{ Memory.Le.refl m with nextRef := Nat.le_succ _, sockets := ?_ },
    { h.succ with sockets := ?_ }⟩
  · exact fun k la => update_of_fresh h.sockets
  · exact fun k la => lt_of_update h.sockets

theorem Memory.Fresh.newBib (h : m.Fresh) (bib : UdpBIB) :
    m.Le (m.newBib bib) ∧ (m.newBib bib).Fresh := by
  refine ⟨{ Memory.Le.refl m with nextRef := Nat.le_succ _, bibHeap := ?_ },
    { h.succ with bibHeap := ?_ }⟩
  · exact fun b B => update_of_fresh h.bibHeap
  · exact fun b B => lt_of_update h.bibHeap

theorem Memory.Fresh.newSess (h : m.Fresh) {sess : UdpSession} (hc : sess.conn6 < m.nextRef) :
    m.Le (m.newSess sess) ∧ (m.newSess sess).Fresh := by
  refine ⟨{ Memory.Le.refl m with nextRef := Nat.le_succ _, sessHeap := ?_ },
    { h.succ with sessHeap := ?_, conn6 := ?_ }⟩
  · exact fun r S => update_of_fresh h.sessHeap
  · exact fun r S => lt_of_update h.sessHeap
  · intro r S hr
    change Function.update m.sessHeap m.nextRef (some sess) r = some S at hr
    refine Nat.lt_succ_of_lt ?_
    by_cases he : r = m.nextRef
    · rw [he, Function.update_self] at hr
      exact Option.some.inj hr ▸ hc
    · rw [Function.update_of_ne he] at hr
      exact h.conn6 r S hr

theorem Memory.map_sessHeap_newSess {α : Type} (m : Memory) (sess : UdpSession)
    (f : UdpSession → α) :
    ((m.newSess sess).sessHeap m.nextRef).map f = some (f sess) := by
  have hself : (m.newSess sess).sessHeap m.nextRef = some sess := Function.update_self ..
  rw [hself, Option.map_some]

theorem Memory.Fresh.setLoop (h : m.Fresh) {b : BibRef} (loop : ReplyLoop)
    (hb : b < m.nextRef) (hpub : ∀ bk, m.Published b bk → bk = loop.bk) :
    m.Le (m.setLoop b loop) ∧ (m.setLoop b loop).Fresh := by
  refine ⟨{ Memory.Le.refl m with published := ?_ }, { h with loops := ?_ }⟩
  · intro b' bk hp
    unfold Memory.Published
    change ∃ pc, Function.update m.loops b (some loop) b' = some ⟨bk, pc⟩
    by_cases he : b' = b
    · subst he
      rw [Function.update_self, hpub bk hp]
      exact ⟨loop.pc, rfl⟩
    · rw [Function.update_of_ne he]
      exact hp
  · intro b' loop' hb'
    change Function.update m.loops b (some loop) b' = some loop' at hb'
    by_cases he : b' = b
    · exact he ▸ hb
    · rw [Function.update_of_ne he] at hb'
      exact h.loops b' loop' hb'

theorem Memory.Fresh.storeSession (h : m.Fresh) (key : SessionKey) {r : SessRef}
    (hr : r < m.nextRef) :
    m.Le (m.storeSession key r) ∧ (m.storeSession key r).Fresh := by
  refine ⟨{ Memory.Le.refl m with registered := ?_ }, { h with registered := ?_ }⟩
  · intro r' hreg
    change Function.update m.registered r true r' = true
    by_cases he : r' = r
    · rw [he, Function.update_self]
    · rw [Function.update_of_ne he]
      exact hreg
  · intro r' hreg
    change Function.update m.registered r true r' = true at hreg
    by_cases he : r' = r
    · exact he ▸ hr
    · rw [Function.update_of_ne he] at hreg
      exact h.registered r' hreg

/-! ## The step of a thread -/

/-- What the entries of the tables stand for. -/
structure Memory.Tables (m : Memory) : Prop where
  sessions : ∀ key r, m.sessions.lookup key = some r → Reached m key r
  bibs : ∀ bk b, m.bibs.lookup bk = some b → m.Published b bk
  flows : ∀ b t r, (m.flows b).lookup t = some r → ∃ bk sess, m.Published b bk ∧
    SessOk m (sessionKey bk t) r sess ∧ sess.bib = b ∧ m.registered r = true
  published : ∀ b bk, m.Published b bk → ∃ bib, m.bibHeap b = some bib

section ThreadSteps
variable {pc : Pc} {ev : Event} {pc' : Option Pc}

theorem ThreadStep.le_fresh (h : ThreadStep m pc ev m' pc') (hf : m.Fresh)
    (hown : ∀ x ∈ pc.owns, Own m x) : m.Le m' ∧ m'.Fresh := by
  cases h with
  | read => exact ⟨.refl m, hf⟩
  | epCreate => exact hf.newEp _
  | bindMatch => exact hf.newSock _
  | bindRetry => exact (hf.newSock _).imp (·.of_objects_eq rfl) (·.of_objects_eq rfl)
  | bindLast => exact (hf.newSock _).imp (·.of_objects_eq rfl) (·.of_objects_eq rfl)
  | take => exact hf.newBib _
  | @publish flow ep b _ =>
    -- The entry is the thread's own, so its loop has not been started before.
    have hb : Own m b := hown b (by simp [Pc.owns])
    have hpub : ∀ bk, m.Published b bk → bk = bibKey flow.key := by
      rintro bk ⟨lpc, hl⟩
      cases hb.loops.symm.trans hl
    exact (hf.setLoop ⟨bibKey flow.key, .reading⟩ hb.lt hpub).imp
      (·.of_objects_eq rfl) (·.of_objects_eq rfl)
  | newSession => exact hf.newSess (hown _ (by simp [Pc.owns])).lt
  | fresh => exact hf.storeSession _ (hown _ (by simp [Pc.owns])).lt
  | store => exact hf.storeSession _ (hown _ (by simp [Pc.owns])).lt
  | _ => exact ⟨(Memory.Le.refl m).of_objects_eq rfl, hf.of_objects_eq rfl⟩

theorem Oldest.update_ok {oldest : Option Oldest} (h : ∀ o ∈ oldest, Reached m o.key o.sess)
    {key : SessionKey} {r : SessRef} (hr : Reached m key r) :
    ∀ o ∈ Oldest.update m oldest key r, Reached m o.key o.sess := by
  unfold Oldest.update
  split_ifs
  · rintro o ho
    obtain rfl := Option.some.inj ho
    exact hr
  · exact h

theorem After.pc_ok {after : After} {p : Pc} (hp : after.pc = some p) : p.Ok m := by
  cases after with
  | admitLoop flow max attempt =>
    obtain rfl := Option.some.inj hp
    trivial
  | exit => cases hp

theorem ReadStep.next_ok (h : ReadStep m pc ev pc') (ht : m.Tables) (hok : pc.Ok m)
    {p : Pc} (hp : pc' = some p) : p.Ok m := by
  cases h with
  | visit hr =>
    obtain rfl := Option.some.inj hp
    exact Oldest.update_ok hok (ht.sessions _ _ hr)
  | @pick flow max attempt scan oldest _ =>
    obtain rfl := Option.some.inj hp
    cases oldest with
    | none => trivial
    | some o => exact hok o rfl
  | bibFound hb =>
    obtain rfl := Option.some.inj hp
    exact ⟨hok, ht.bibs _ _ hb⟩
  | listen =>
    obtain rfl := Option.some.inj hp
    exact ⟨hok, fun _ h => by cases h⟩
  | @bindErr flow ep bindIP want attempt fallback err =>
    obtain rfl := Option.some.inj hp
    cases fallback with
    | none => exact hok.1
    | some k => exact ⟨hok.1, hok.2 k rfl, fun _ h => by cases h⟩
  | lose hb =>
    obtain rfl := Option.some.inj hp
    exact ⟨hok.1, hok.2.1, ht.bibs _ _ hb⟩
  | delLost => exact After.pc_ok hp
  | srcShed | admitShed | epFail => cases hp
  | admitEvict =>
    obtain rfl := Option.some.inj hp
    exact fun _ h => by cases h
  | srcPass | unlimited | limited | admitOk => obtain rfl := Option.some.inj hp; trivial
  | _ =>
    obtain rfl := Option.some.inj hp
    exact hok

/-- The references that a thread holds after its step. -/
theorem ThreadStep.next_ok (h : ThreadStep m pc ev m' pc') (hf : m.Fresh) (ht : m.Tables)
    (hok : pc.Ok m) (hown : ∀ x ∈ pc.owns, Own m x) {p : Pc} (hp : pc' = some p) :
    p.Ok m' := by
  have hle := (h.le_fresh hf hown).1
  cases h with
  | read h => exact h.next_ok ht hok hp
  | epCreate =>
    obtain rfl := Option.some.inj hp
    exact Function.update_self ..
  | bindMatch =>
    obtain rfl := Option.some.inj hp
    exact ⟨hle.endpoints _ _ hok.1, ⟨_, Function.update_self ..⟩,
      fun k hk => (hok.2 k hk).imp fun la => hle.sockets k la⟩
  | bindRetry =>
    obtain rfl := Option.some.inj hp
    refine ⟨hle.endpoints _ _ hok.1, fun k hk => ?_⟩
    obtain rfl := Option.some.inj hk
    exact ⟨_, Function.update_self ..⟩
  | bindLast =>
    obtain rfl := Option.some.inj hp
    exact ⟨hle.endpoints _ _ hok.1, ⟨_, Function.update_self ..⟩, fun _ h => by cases h⟩
  | @take flow ep sock leftover la hs =>
    obtain rfl := Option.some.inj hp
    exact ⟨hle.endpoints _ _ hok.1, ⟨_, Function.update_self ..⟩,
      (hown ep (by simp [Pc.owns])).lt.ne⟩
  | publish =>
    obtain rfl := Option.some.inj hp
    exact ⟨hle.endpoints _ _ hok.1, .reading, Function.update_self ..⟩
  | surplus =>
    obtain rfl := Option.some.inj hp
    exact ⟨hok.1, hok.2.2⟩
  | bibError =>
    obtain rfl := Option.some.inj hp
    trivial
  | epClose => cases hp
  | @newSession flow ep b bib hb =>
    obtain rfl := Option.some.inj hp
    exact ⟨_, Function.update_self .., hle.endpoints _ _ hok.1, rfl, hle.published _ _ hok.2,
      bib, hle.bibHeap _ _ hb, rfl, rfl⟩
  | fresh =>
    obtain rfl := Option.some.inj hp
    exact ⟨hok.imp fun sess hs => hs.mono hle, Function.update_self ..⟩
  | store =>
    obtain rfl := Option.some.inj hp
    exact ⟨hok.imp fun sess hs => hs.mono hle, Function.update_self ..⟩
  | delFlow => exact After.pc_ok hp
  | _ =>
    obtain rfl := Option.some.inj hp
    exact Reached.mono hok hle

/-- A thread owns what it owned before or what it has just made. -/
theorem ThreadStep.owns_next (h : ThreadStep m pc ev m' pc') {p : Pc} (hp : pc' = some p)
    {x : Nat} (hx : x ∈ p.owns) :
    x ∈ pc.owns ∨ x = m.nextRef ∧ m.nextRef < m'.nextRef := by
  cases h with
  | read h =>
    left
    cases h with
    | @pick flow max attempt scan oldest _ =>
      obtain rfl := Option.some.inj hp
      cases oldest <;> cases hx
    | @bindErr flow ep bindIP want attempt fallback err =>
      obtain rfl := Option.some.inj hp
      cases fallback <;> exact hx
    | @delLost r key after _ =>
      cases after with
      | exit => cases hp
      | admitLoop => obtain rfl := Option.some.inj hp; cases hx
    | srcShed | admitShed | epFail => cases hp
    | _ =>
      obtain rfl := Option.some.inj hp
      exact hx
  | epCreate =>
    obtain rfl := Option.some.inj hp
    exact .inr ⟨List.mem_singleton.1 hx, Nat.lt_succ_self _⟩
  | @take flow ep sock leftover la hs =>
    obtain rfl := Option.some.inj hp
    rcases List.mem_cons.1 hx with rfl | hx
    · exact .inl (by simp [Pc.owns])
    · exact .inr ⟨List.mem_singleton.1 hx, Nat.lt_succ_self _⟩
  | newSession =>
    obtain rfl := Option.some.inj hp
    exact .inr ⟨List.mem_singleton.1 hx, Nat.lt_succ_self _⟩
  | publish =>
    obtain rfl := Option.some.inj hp
    obtain rfl := List.mem_singleton.1 hx
    exact .inl (by simp [Pc.owns])
  | surplus =>
    obtain rfl := Option.some.inj hp
    obtain rfl := List.mem_singleton.1 hx
    exact .inl (by simp [Pc.owns])
  | @delFlow r key after sess _ =>
    cases after with
    | exit => cases hp
    | admitLoop => obtain rfl := Option.some.inj hp; cases hx
  | epClose => cases hp
  | bindMatch | bindRetry | bindLast | bibError => obtain rfl := Option.some.inj hp; exact .inl hx
  | _ =>
    obtain rfl := Option.some.inj hp
    cases hx

theorem Own.storeSession {x : Nat} (hx : Own m x) (key : SessionKey) {r : SessRef}
    (hne : x ≠ r) : Own (m.storeSession key r) x :=
  ⟨hx.lt, hx.loops, (Function.update_of_ne hne ..).trans hx.registered, hx.conn6⟩

/-- What is owned stays owned, unless the moving thread hands it out. -/
theorem ThreadStep.own_mono (h : ThreadStep m pc ev m' pc') (hok : pc.Ok m) {x : Nat}
    (hx : Own m x) (hkeep : x ∉ pc.owns ∨ ∃ p, pc' = some p ∧ x ∈ p.owns) : Own m' x := by
  cases h with
  | @publish flow ep b _ =>
    refine ⟨hx.lt, ?_, hx.registered, hx.conn6⟩
    have hne : x ≠ b := by
      rcases hkeep with hkeep | ⟨p, hp, hxp⟩
      · rintro rfl
        exact hkeep (by simp [Pc.owns])
      · obtain rfl := Option.some.inj hp
        obtain rfl := List.mem_singleton.1 hxp
        exact hok.2.2
    exact (Function.update_of_ne hne ..).trans hx.loops
  | @newSession flow ep b bib _ =>
    refine ⟨Nat.lt_succ_of_lt hx.lt, hx.loops, hx.registered, ?_⟩
    intro r sess hr
    change Function.update m.sessHeap m.nextRef (some _) r = some sess at hr
    by_cases he : r = m.nextRef
    · rw [he, Function.update_self] at hr
      obtain rfl := Option.some.inj hr
      rcases hkeep with hkeep | ⟨p, hp, hxp⟩
      · rintro rfl
        exact hkeep (by simp [Pc.owns])
      · obtain rfl := Option.some.inj hp
        exact absurd (List.mem_singleton.1 hxp) hx.lt.ne
    · rw [Function.update_of_ne he] at hr
      exact hx.conn6 r sess hr
  | @fresh key r _ | @store key r =>
    refine hx.storeSession key ?_
    rcases hkeep with hkeep | ⟨p, hp, hxp⟩
    · rintro rfl
      exact hkeep (by simp [Pc.owns])
    · obtain rfl := Option.some.inj hp
      cases hxp
  | epCreate | bindMatch | bindRetry | bindLast | take =>
    exact ⟨Nat.lt_succ_of_lt hx.lt, hx.loops, hx.registered, hx.conn6⟩
  | _ => exact ⟨hx.lt, hx.loops, hx.registered, hx.conn6⟩

/-- What a thread has just made is its own. -/
theorem ThreadStep.own_new (h : ThreadStep m pc ev m' pc') (hf : m.Fresh)
    (hown : ∀ x ∈ pc.owns, Own m x) (hlt : m.nextRef < m'.nextRef) : Own m' m.nextRef := by
  have hloops : m.loops m.nextRef = none := by
    cases hl : m.loops m.nextRef with
    | none => rfl
    | some loop => exact absurd (hf.loops _ _ hl) (lt_irrefl _)
  have hreg : m.registered m.nextRef = false := by
    by_contra hr
    exact absurd (hf.registered _ (by simpa using hr)) (lt_irrefl _)
  have hconn : ∀ r sess, m.sessHeap r = some sess → sess.conn6 ≠ m.nextRef :=
    fun r sess hr => (hf.conn6 r sess hr).ne
  cases h with
  | @newSession flow ep b bib _ =>
    refine ⟨hlt, hloops, hreg, ?_⟩
    intro r sess hr
    change Function.update m.sessHeap m.nextRef (some _) r = some sess at hr
    by_cases he : r = m.nextRef
    · rw [he, Function.update_self] at hr
      obtain rfl := Option.some.inj hr
      exact (hown ep (by simp [Pc.owns])).lt.ne
    · rw [Function.update_of_ne he] at hr
      exact hconn r sess hr
  | epCreate | bindMatch | bindRetry | bindLast | take => exact ⟨hlt, hloops, hreg, hconn⟩
  | _ => exact absurd hlt (lt_irrefl _)

/-- The tables stay right when every new entry is. -/
theorem Memory.Tables.of_le (ht : m.Tables) (hle : m.Le m')
    (hsess : ∀ key r, m'.sessions.lookup key = some r →
      m.sessions.lookup key = some r ∨ Reached m' key r)
    (hbibs : ∀ bk b, m'.bibs.lookup bk = some b →
      m.bibs.lookup bk = some b ∨ m'.Published b bk)
    (hflows : ∀ b t r, (m'.flows b).lookup t = some r → (m.flows b).lookup t = some r ∨
      ∃ bk sess, m'.Published b bk ∧ SessOk m' (sessionKey bk t) r sess ∧ sess.bib = b ∧
        m'.registered r = true)
    (hpub : ∀ b bk, m'.Published b bk → m.Published b bk ∨ ∃ bib, m'.bibHeap b = some bib) :
    m'.Tables := by
  refine ⟨?_, ?_, ?_, ?_⟩
  · intro key r hr
    rcases hsess key r hr with h | h
    · exact (ht.sessions key r h).mono hle
    · exact h
  · intro bk b hb
    rcases hbibs bk b hb with h | h
    · exact hle.published _ _ (ht.bibs bk b h)
    · exact h
  · intro b t r hr
    rcases hflows b t r hr with h | h
    · obtain ⟨bk, sess, hp, hs, hb, hreg⟩ := ht.flows b t r h
      exact ⟨bk, sess, hle.published _ _ hp, hs.mono hle, hb, hle.registered r hreg⟩
    · exact h
  · intro b bk hp
    rcases hpub b bk hp with h | h
    · exact (ht.published b bk h).imp fun bib => hle.bibHeap b bib
    · exact h

theorem Memory.Tables.storeSession (ht : m.Tables) {key : SessionKey} {r : SessRef}
    (hle : m.Le (m.storeSession key r)) (hr : Reached (m.storeSession key r) key r) :
    (m.storeSession key r).Tables := by
  refine ht.of_le hle ?_ (fun _ _ h => .inl h) (fun _ _ _ h => .inl h) (fun _ _ h => .inl h)
  intro key' r' hr'
  change (m.sessions.insert key r).lookup key' = some r' at hr'
  rw [SyncMap.lookup_insert_eq_ite] at hr'
  split_ifs at hr' with he
  · obtain rfl := Option.some.inj hr'
    exact .inr (he ▸ hr)
  · exact .inl hr'

/-- A step of a thread keeps the tables right. -/
theorem ThreadStep.tables (h : ThreadStep m pc ev m' pc') (hf : m.Fresh) (ht : m.Tables)
    (hok : pc.Ok m) (hown : ∀ x ∈ pc.owns, Own m x) : m'.Tables := by
  have hle := (h.le_fresh hf hown).1
  have hnext := @ThreadStep.next_ok m m' pc ev pc' h hf ht hok hown
  cases h with
  | read => exact ht
  | @publish flow ep b _ =>
    refine ht.of_le hle (fun _ _ h => .inl h) ?_ (fun _ _ _ h => .inl h) ?_
    · intro bk b' hb'
      change (m.bibs.insert (bibKey flow.key) b).lookup bk = some b' at hb'
      rw [SyncMap.lookup_insert_eq_ite] at hb'
      split_ifs at hb' with he
      · obtain rfl := Option.some.inj hb'
        exact .inr (he ▸ (hnext rfl).2)
      · exact .inl hb'
    · rintro b' bk ⟨lpc, hl⟩
      change Function.update m.loops b (some _) b' = some _ at hl
      by_cases he : b' = b
      · exact .inr (he ▸ hok.2.1)
      · rw [Function.update_of_ne he] at hl
        exact .inl ⟨lpc, hl⟩
  | fresh => exact ht.storeSession hle (hnext rfl)
  | store => exact ht.storeSession hle (hnext rfl)
  | @delWon r key after _ =>
    refine ht.of_le hle ?_ (fun _ _ h => .inl h) (fun _ _ _ h => .inl h) (fun _ _ h => .inl h)
    intro key' r' hr'
    change (m.sessions.erase key).lookup key' = some r' at hr'
    exact .inl (SyncMap.lookup_of_erase hr')
  | @storeFlow key r sess hs =>
    refine ht.of_le hle (fun _ _ h => .inl h) (fun _ _ h => .inl h) ?_ (fun _ _ h => .inl h)
    intro b t r' hr'
    change (Function.update m.flows sess.bib _ b).lookup t = some r' at hr'
    by_cases hb : b = sess.bib
    · rw [hb, Function.update_self, SyncMap.lookup_insert_eq_ite] at hr'
      split_ifs at hr' with he
      · obtain rfl := Option.some.inj hr'
        obtain ⟨⟨S, hS⟩, hreg⟩ := hok
        obtain rfl : S = sess := Option.some.inj (hS.heap.symm.trans hs)
        subst he hb
        have hS' := hS.mono hle
        exact .inr ⟨bibKey key, S, hS'.published, hS', rfl, hreg⟩
      · exact .inl (hb ▸ hr')
    · rw [Function.update_of_ne hb] at hr'
      exact .inl hr'
  | @delFlow r key after sess hs =>
    refine ht.of_le hle (fun _ _ h => .inl h) (fun _ _ h => .inl h) ?_ (fun _ _ h => .inl h)
    intro b t r' hr'
    change (Function.update m.flows sess.bib _ b).lookup t = some r' at hr'
    by_cases hb : b = sess.bib
    · rw [hb, Function.update_self] at hr'
      exact .inl (hb ▸ SyncMap.lookup_of_compareAndDelete hr')
    · rw [Function.update_of_ne hb] at hr'
      exact .inl hr'
  | _ =>
    exact ht.of_le hle (fun _ _ h => .inl h) (fun _ _ h => .inl h) (fun _ _ _ h => .inl h)
      (fun _ _ h => .inl h)

end ThreadSteps

/-! ## Cleanup and reply loops -/

theorem CleanupStep.objects {pc pc' : CleanupPc} {ev : CleanupEvent}
    (h : CleanupStep m pc ev m' pc') : m'.objects = m.objects := by
  cases h <;> rfl

theorem CleanupStep.heaps {pc pc' : CleanupPc} {ev : CleanupEvent}
    (h : CleanupStep m pc ev m' pc') : m'.bibHeap = m.bibHeap ∧ m'.sessHeap = m.sessHeap ∧
      m'.registered = m.registered := by
  cases h <;> exact ⟨rfl, rfl, rfl⟩

theorem CleanupStep.next_ok {pc pc' : CleanupPc} {ev : CleanupEvent}
    (h : CleanupStep m pc ev m' pc') (ht : m.Tables) (hok : pc.Ok m) : pc'.Ok m' := by
  cases h with
  | sessStale hr => exact ⟨_, ht.sessions _ _ hr⟩
  | bibStale hb => exact ht.bibs _ _ hb
  | bibClose => exact hok
  | _ => trivial

theorem Memory.Tables.deleteBib (ht : m.Tables) (bk : BibKey) (b : BibRef) :
    (m.deleteBib bk b).Tables := by
  refine ht.of_le ((Memory.Le.refl m).of_objects_eq rfl) (fun _ _ h => .inl h) ?_
    (fun _ _ _ h => .inl h) (fun _ _ h => .inl h)
  exact fun bk' b' hb' => .inl (SyncMap.lookup_of_compareAndDelete hb')

theorem CleanupStep.tables_ok {pc pc' : CleanupPc} {ev : CleanupEvent}
    (h : CleanupStep m pc ev m' pc') (ht : m.Tables) : m'.Tables := by
  have hle := (Memory.Le.refl m).of_objects_eq h.objects
  cases h with
  | bibDelete => exact ht.deleteBib _ _
  | _ =>
    exact ht.of_le hle (fun _ _ h => .inl h) (fun _ _ h => .inl h) (fun _ _ _ h => .inl h)
      (fun _ _ h => .inl h)

/-! ## The machine -/

/-- Every reference stands for the right object. -/
structure Wf (s : State) : Prop where
  fresh : s.mem.Fresh
  tables : s.mem.Tables
  cleanup : s.cleanup.Ok s.mem
  pcs : ∀ tid pc, s.threads.lookup tid = some pc → pc.Ok s.mem
  own : ∀ tid pc, s.threads.lookup tid = some pc → ∀ x ∈ pc.owns, Own s.mem x
  disjoint : ∀ tid tid' pc pc' x, s.threads.lookup tid = some pc →
    s.threads.lookup tid' = some pc' → x ∈ pc.owns → x ∈ pc'.owns → tid = tid'

theorem Wf.init (service : Service) (mtu : Nat) (clock : Int) :
    Wf (State.init service mtu clock) where
  fresh := by
    refine ⟨?_, ?_, ?_, ?_, ?_, ?_, ?_⟩ <;> intro _ <;> intros <;> contradiction
  tables := by
    refine ⟨?_, ?_, ?_, ?_⟩
    · intro key r h
      cases h
    · intro bk b h
      cases h
    · intro b t r h
      cases h
    · rintro b bk ⟨q, h⟩
      cases h
  cleanup := trivial
  pcs := fun _ _ h => by cases h
  own := fun _ _ h => by cases h
  disjoint := fun _ _ _ _ _ h => by cases h

theorem Wf.of_objects_eq {s : State} (h : Wf s) (he : m.objects = s.mem.objects)
    (ht : m.Tables) {pc : CleanupPc} (hc : pc.Ok m) (cutoff : Option Int) :
    Wf { s with mem := m, cleanup := pc, cutoff } := by
  have hle := (Memory.Le.refl s.mem).of_objects_eq he
  refine ⟨h.fresh.of_objects_eq he, ht, hc, fun tid p hp => (h.pcs tid p hp).mono hle, ?_,
    h.disjoint⟩
  intro tid p hp x hx
  obtain ⟨hlt, hloops, hreg, hconn⟩ := h.own tid p hp x hx
  simp only [Memory.objects, Prod.mk.injEq] at he
  obtain ⟨h1, -, -, -, h5, h6, h7⟩ := he
  exact ⟨by rwa [h1], by rwa [h6], by rwa [h7], by rwa [h5]⟩

theorem Wf.setLoop {s : State} (h : Wf s) {b : BibRef} {bk : BibKey} {lpc : LoopPc}
    (hl : s.mem.loops b = some ⟨bk, lpc⟩) (lpc' : LoopPc) :
    Wf { s with mem := s.mem.setLoop b ⟨bk, lpc'⟩ } := by
  have hpub : ∀ bk', s.mem.Published b bk' → bk' = bk := fun bk' hp => hp.unique ⟨lpc, hl⟩
  obtain ⟨hle, hfresh⟩ := h.fresh.setLoop ⟨bk, lpc'⟩ (h.fresh.loops _ _ hl) hpub
  refine ⟨hfresh, ?_, h.cleanup.mono hle, fun tid p hp => (h.pcs tid p hp).mono hle, ?_,
    h.disjoint⟩
  · refine h.tables.of_le hle (fun _ _ h => .inl h) (fun _ _ h => .inl h)
      (fun _ _ _ h => .inl h) ?_
    rintro b' bk' ⟨q, hq⟩
    change Function.update s.mem.loops b (some _) b' = some _ at hq
    by_cases he : b' = b
    · exact .inr (he ▸ h.tables.published b bk ⟨lpc, hl⟩)
    · rw [Function.update_of_ne he] at hq
      exact .inl ⟨q, hq⟩
  · intro tid p hp x hx
    obtain ⟨hlt, hloops, hreg, hconn⟩ := h.own tid p hp x hx
    refine ⟨hlt, ?_, hreg, hconn⟩
    have hne : x ≠ b := by
      rintro rfl
      cases hloops.symm.trans hl
    exact (Function.update_of_ne hne ..).trans hloops

/-- The step of a flow thread. -/
theorem Wf.thread {s : State} (h : Wf s) {tid : Tid} {pc : Pc} {ev : Event} {pc' : Option Pc}
    (ht : s.threads.lookup tid = some pc) (hstep : ThreadStep s.mem pc ev m pc') :
    Wf { s with mem := m, threads := setThread s.threads tid pc' } := by
  have hok := h.pcs tid pc ht
  have hown := h.own tid pc ht
  obtain ⟨hle, hfresh⟩ := hstep.le_fresh h.fresh hown
  -- The references below are those of another thread or of the one that moved.
  have hcases : ∀ a p, (setThread s.threads tid pc').lookup a = some p →
      a = tid ∧ pc' = some p ∨ a ≠ tid ∧ s.threads.lookup a = some p := by
    intro a p ha
    rw [lookup_setThread] at ha
    split_ifs at ha with he
    · exact .inl ⟨he, ha⟩
    · exact .inr ⟨he, ha⟩
  refine ⟨hfresh, hstep.tables h.fresh h.tables hok hown, h.cleanup.mono hle, ?_, ?_, ?_⟩
  · intro a p ha
    rcases hcases a p ha with ⟨-, hp⟩ | ⟨-, hp⟩
    · exact hstep.next_ok h.fresh h.tables hok hown hp
    · exact (h.pcs a p hp).mono hle
  · intro a p ha x hx
    rcases hcases a p ha with ⟨-, hp⟩ | ⟨hne, hp⟩
    · rcases hstep.owns_next hp hx with hold | ⟨rfl, hlt⟩
      · exact hstep.own_mono hok (hown x hold) (.inr ⟨p, hp, hx⟩)
      · exact hstep.own_new h.fresh hown hlt
    · refine hstep.own_mono hok (h.own a p hp x hx) (.inl fun hpc => hne ?_)
      exact h.disjoint a tid p pc x hp ht hx hpc
  · -- A new reference is above everything that another thread owns.
    have hsep : ∀ a p q x, a ≠ tid → s.threads.lookup a = some p → pc' = some q →
        x ∈ p.owns → x ∈ q.owns → False := by
      intro a p q x hne hp hq hxp hxq
      rcases hstep.owns_next hq hxq with hold | ⟨rfl, -⟩
      · exact hne (h.disjoint a tid p pc x hp ht hxp hold)
      · exact absurd (h.own a p hp _ hxp).lt (lt_irrefl _)
    intro a a' p p' x ha ha' hx hx'
    rcases hcases a p ha with ⟨rfl, hp⟩ | ⟨hne, hp⟩ <;>
      rcases hcases a' p' ha' with ⟨rfl, hp'⟩ | ⟨hne', hp'⟩
    · rfl
    · exact (hsep a' p' p x hne' hp' hp hx' hx).elim
    · exact (hsep a p p' x hne hp hp' hx hx').elim
    · exact h.disjoint a a' p p' x hp hp' hx hx'

/-- A new thread holds no reference. -/
theorem Wf.datagram {s : State} (h : Wf s) (tid : Tid) (flow : UdpFlow) :
    Wf { s with threads := s.threads.insert tid (.srcCheck flow) } := by
  have hcases : ∀ a p, (s.threads.insert tid (.srcCheck flow)).lookup a = some p →
      p = .srcCheck flow ∨ s.threads.lookup a = some p := by
    intro a p ha
    rw [SyncMap.lookup_insert_eq_ite] at ha
    split_ifs at ha
    · exact .inl (Option.some.inj ha).symm
    · exact .inr ha
  refine ⟨h.fresh, h.tables, h.cleanup, ?_, ?_, ?_⟩
  · intro a p ha
    rcases hcases a p ha with rfl | hp
    · trivial
    · exact h.pcs a p hp
  · intro a p ha x hx
    rcases hcases a p ha with rfl | hp
    · cases hx
    · exact h.own a p hp x hx
  · intro a a' p p' x ha ha' hx hx'
    rcases hcases a p ha with rfl | hp
    · cases hx
    · rcases hcases a' p' ha' with rfl | hp'
      · cases hx'
      · exact h.disjoint a a' p p' x hp hp' hx hx'

theorem Wf.step {s s' : State} {l : Label} (h : Wf s) (hl : step s l = some s') : Wf s' := by
  have hsame : ∀ {m : Memory}, m.objects = s.mem.objects → m.sessions = s.mem.sessions →
      m.bibs = s.mem.bibs → m.flows = s.mem.flows → Wf { s with mem := m } := by
    intro m he hs hb hf
    have hle := (Memory.Le.refl s.mem).of_objects_eq he
    refine h.of_objects_eq he (h.tables.of_le hle ?_ ?_ ?_ ?_) (h.cleanup.mono hle) s.cutoff
    · exact fun _ _ hk => .inl (hs ▸ hk)
    · exact fun _ _ hk => .inl (hb ▸ hk)
    · exact fun _ _ _ hk => .inl (hf ▸ hk)
    · rintro b bk ⟨q, hq⟩
      simp only [Memory.objects, Prod.mk.injEq] at he
      exact .inl ⟨q, he.2.2.2.2.2.1 ▸ hq⟩
  cases step_cases hl with
  | ignored => exact h
  | datagram => exact h.datagram _ _
  | thread ht hstep => exact h.thread ht hstep
  | cleanup hstep =>
    exact h.of_objects_eq hstep.objects (hstep.tables_ok h.tables)
      (hstep.next_ok h.tables h.cleanup) _
  | inbound => exact hsame rfl rfl rfl rfl
  | loopExit hb => exact h.setLoop hb _
  | @loopDelete b bk hb =>
    have hdel : Wf { s with mem := s.mem.deleteBib bk b } :=
      h.of_objects_eq (m := s.mem.deleteBib bk b) rfl (h.tables.deleteBib bk b)
        (h.cleanup.mono ((Memory.Le.refl s.mem).of_objects_eq rfl)) s.cutoff
    exact hdel.setLoop hb _
  | advance | reload | tcpAdd | tcpRemove => exact hsame rfl rfl rfl rfl

theorem Wf.le {s s' : State} {l : Label} (h : Wf s) (hl : Udp.step s l = some s') :
    s.mem.Le s'.mem := by
  cases step_cases hl with
  | thread ht hstep => exact (hstep.le_fresh h.fresh (h.own _ _ ht)).1
  | cleanup hstep => exact (Memory.Le.refl _).of_objects_eq hstep.objects
  | @loopExit b bk hb =>
    exact (h.fresh.setLoop ⟨bk, .exiting⟩ (h.fresh.loops _ _ hb) fun bk' hp =>
      hp.unique ⟨_, hb⟩).1
  | @loopDelete b bk hb =>
    exact (h.fresh.setLoop ⟨bk, .gone⟩ (h.fresh.loops _ _ hb) fun bk' hp =>
      hp.unique ⟨_, hb⟩).1.of_objects_eq rfl
  | _ => exact (Memory.Le.refl _).of_objects_eq rfl

/-! ## Where the threads stand -/

/-- Where a thread of the new state was before the step: it is the one that has
moved, or it stands where it stood. -/
theorem thread_of_step {s s' : State} {l : Label} (hl : step s l = some s') {a : Tid} {p : Pc}
    (ha : s'.threads.lookup a = some p) :
    s.threads.lookup a = some p ∨ (∃ flow, p = .srcCheck flow) ∨
      ∃ pc ev, l = .thread a ev ∧ s.threads.lookup a = some pc ∧
        ThreadStep s.mem pc ev s'.mem (some p) := by
  cases step_cases hl with
  | @thread tid ev pc m pc' ht hstep =>
    rw [lookup_setThread] at ha
    split_ifs at ha with he
    · subst he ha
      exact .inr (.inr ⟨pc, ev, rfl, ht, hstep⟩)
    · exact .inl ha
  | datagram =>
    rw [SyncMap.lookup_insert_eq_ite] at ha
    split_ifs at ha
    · exact .inr (.inl ⟨_, (Option.some.inj ha).symm⟩)
    · exact .inl ha
  | _ => exact .inl ha

theorem thread_after_step {s s' : State} {l : Label} (hl : step s l = some s') {a : Tid}
    {pc : Pc} (ha : s.threads.lookup a = some pc) :
    s'.threads.lookup a = some pc ∨
      ∃ ev pc', l = .thread a ev ∧ ThreadStep s.mem pc ev s'.mem pc' ∧
        s'.threads.lookup a = pc' := by
  cases step_cases hl with
  | @thread tid ev pc₀ m pc' ht hstep =>
    have hlook := lookup_setThread s.threads tid a pc'
    split_ifs at hlook with he
    · subst he
      obtain rfl := Option.some.inj (ht.symm.trans ha)
      exact .inr ⟨ev, pc', rfl, hstep, hlook⟩
    · exact .inl (hlook.trans ha)
  | @datagram tid id flow ht =>
    left
    have hlook := SyncMap.lookup_insert_eq_ite s.threads a tid (.srcCheck flow)
    rw [if_neg ?_] at hlook
    · exact hlook.trans ha
    · rintro rfl
      cases ht.symm.trans ha
  | _ => exact .inl ha

/-! ## What becomes of the tables -/

theorem CleanupStep.lookup_bibs {pc pc' : CleanupPc} {ev : CleanupEvent}
    (h : CleanupStep m pc ev m' pc') {bk : BibKey} {b : BibRef}
    (hb : m'.bibs.lookup bk = some b) : m.bibs.lookup bk = some b := by
  cases h with
  | bibDelete => exact SyncMap.lookup_of_compareAndDelete hb
  | _ => exact hb

/-- An entry that is new in `bibs` has just been published by the set-up that
made it. -/
theorem step_bibs {s s' : State} {l : Label} (hl : step s l = some s') {bk : BibKey}
    {b : BibRef} (hb : s'.mem.bibs.lookup bk = some b) : s.mem.bibs.lookup bk = some b ∨
      ∃ tid flow ep, s.threads.lookup tid = some (.bibPublish flow ep b) ∧
        s'.threads.lookup tid = some (.newSession flow ep b) := by
  cases step_cases hl with
  | @thread tid ev pc m pc' ht hstep =>
    cases hstep with
    | @publish flow ep b' _ =>
      change (s.mem.bibs.insert (bibKey flow.key) b').lookup bk = some b at hb
      rw [SyncMap.lookup_insert_eq_ite] at hb
      split_ifs at hb
      · obtain rfl := Option.some.inj hb
        exact .inr ⟨tid, flow, ep, ht, (lookup_setThread ..).trans (if_pos rfl)⟩
      · exact .inl hb
    | _ => exact .inl hb
  | cleanup hstep => exact .inl (hstep.lookup_bibs hb)
  | loopDelete => exact .inl (SyncMap.lookup_of_compareAndDelete hb)
  | _ => exact .inl hb

end Ydn64.Nat64.Udp
