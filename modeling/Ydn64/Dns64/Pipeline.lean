import Ydn64.Dns64.Server

/-!
# One connection and its queries

What holds of a connection whatever its client, its upstream servers and the
scheduler do.  Every operation is one of the moves of `QueryMove` and
`ReaderMove`.  The functions on the program counters say what a goroutine has at
each point (a slot, a place in the wait group, the mutex, its write still to
come), and `ConnOk` ties the variables of the connection to them:

* `Counters`: the slots are those of the goroutines that hold one, at most
  `maxTCPQueriesInFlight`, and the wait group counts the queries that have not left
  it, so it stays at zero once the reader has seen it there;
* `Writes`: the mutex has one owner, so a failed write is on record in `broken`
  before the next query can write;
* `Numbering`: a number goes to one query, which writes once.
-/

namespace Ydn64.Dns64.Server

open Ydn64.Lib

/-! ## The moves -/

/-- What one operation of the query `q` can do. -/
inductive QueryMove (g : Shared) (c : TcpConn) (q : QueryNo) :
    QueryPc → Shared → TcpConn → QueryPc → Prop where
  | answer : QueryMove g c q .handleVia g c .lock
  | lock (h : c.writeMu = none) :
      QueryMove g c q .lock g { c with writeMu := some (.query q) } .checkBroken
  | abandon : QueryMove g c q .checkBroken g c .unlock
  | proceed (h : c.broken = false) : QueryMove g c q .checkBroken g c .writeMsg
  | sent : QueryMove g c q .writeMsg g { c with wire := (q, true) :: c.wire } .unlock
  | failed : QueryMove g c q .writeMsg g { c with wire := (q, false) :: c.wire } .markBroken
  | markBroken : QueryMove g c q .markBroken g { c with broken := true } .closeConn
  | closeConn : QueryMove g c q .closeConn g { c with closed := true } .unlock
  | unlock : QueryMove g c q .unlock g { c with writeMu := none } .releaseSlot
  | releaseSlot {slots : Nat} (h : c.slots = slots + 1) :
      QueryMove g c q .releaseSlot g { c with slots } .handlersDone
  | handlersDone :
      QueryMove g c q .handlersDone g { c with handlers := c.handlers - 1 } .wgDone
  | wgDone : QueryMove g c q .wgDone g.wgDone c .done

/-- What one operation of the reader can do. -/
inductive ReaderMove (g : Shared) (c : TcpConn) :
    ReaderPc → Shared → TcpConn → ReaderPc → Prop where
  | readMsg : ReaderMove g c .readMsg g { c with nextQuery := c.nextQuery + 1 } (.allow c.nextQuery)
  | readError : ReaderMove g c .readMsg g c .closeConn
  | allow (q : QueryNo) : ReaderMove g c (.allow q) g c (.takeSlot q)
  | deny (q : QueryNo) : ReaderMove g c (.allow q) g c .closeConn
  | takeSlot (q : QueryNo) (h : c.slots < maxTCPQueriesInFlight) :
      ReaderMove g c (.takeSlot q) g { c with slots := c.slots + 1 } (.lock q)
  | full (q : QueryNo) : ReaderMove g c (.takeSlot q) g c (.awaitSlot q)
  | awaitSlot (q : QueryNo) (h : c.slots < maxTCPQueriesInFlight) :
      ReaderMove g c (.awaitSlot q) g { c with slots := c.slots + 1 } (.lock q)
  | timeout (q : QueryNo) : ReaderMove g c (.awaitSlot q) g c .closeConn
  | lock (q : QueryNo) (h : c.writeMu = none) :
      ReaderMove g c (.lock q) g { c with writeMu := some .reader } (.loadBroken q)
  | loadBroken (q : QueryNo) : ReaderMove g c (.loadBroken q) g c (.unlock q c.broken)
  | giveUp (q : QueryNo) :
      ReaderMove g c (.unlock q true) g { c with writeMu := none } .giveBackSlot
  | unlock (q : QueryNo) :
      ReaderMove g c (.unlock q false) g { c with writeMu := none } (.wgAdd q)
  | giveBackSlot {slots : Nat} (h : c.slots = slots + 1) :
      ReaderMove g c .giveBackSlot g { c with slots } .closeConn
  | wgAdd (q : QueryNo) : ReaderMove g c (.wgAdd q) g.wgAdd c (.handlersAdd q)
  | handlersAdd (q : QueryNo) :
      ReaderMove g c (.handlersAdd q) g { c with handlers := c.handlers + 1 } (.start q)
  | start (q : QueryNo) :
      ReaderMove g c (.start q) g { c with queries := c.queries.insert q .handleVia } .readMsg
  | closeConn : ReaderMove g c .closeConn g { c with closed := true } .wait
  | wait (h : c.handlers = 0) : ReaderMove g c .wait g c .releaseQuery
  | releaseQuery {g' : Shared} (h : g.releaseQuery = some g') :
      ReaderMove g c .releaseQuery g' c .wgDone
  | wgDone : ReaderMove g c .wgDone g.wgDone c .done

section Moves

variable {g g' : Shared} {c c' : TcpConn} {q : QueryNo} {ok : Bool}

theorem queryStep_move {pc pc' : QueryPc} (h : queryStep g c q ok pc = some (g', c', pc')) :
    QueryMove g c q pc g' c' pc' := by
  cases pc with
  | lock =>
    simp only [queryStep] at h
    split_ifs at h with hfree
    cases h
    exact .lock hfree
  | checkBroken =>
    cases h
    cases hbroken : c.broken with
    | true => exact .abandon
    | false => exact .proceed hbroken
  | writeMsg =>
    cases h
    cases ok && !c.closed with
    | true => exact .sent
    | false => exact .failed
  | releaseSlot =>
    simp only [queryStep] at h
    split_ifs at h with hempty
    cases h
    exact .releaseSlot (by omega)
  | done => cases h
  | _ =>
    cases h
    constructor

theorem readerStep_move {pc pc' : ReaderPc} (h : readerStep g c ok pc = some (g', c', pc')) :
    ReaderMove g c pc g' c' pc' := by
  cases pc with
  | readMsg =>
    simp only [readerStep] at h
    split_ifs at h
    · cases h
      exact .readMsg
    · cases h
      exact .readError
  | allow q =>
    cases h
    cases ok with
    | true => exact .allow q
    | false => exact .deny q
  | takeSlot q =>
    simp only [readerStep] at h
    split_ifs at h with hfree
    · cases h
      exact .takeSlot q hfree
    · cases h
      exact .full q
  | awaitSlot q =>
    simp only [readerStep] at h
    split_ifs at h with hok hfree
    · cases h
      exact .awaitSlot q hfree
    · cases h
      exact .timeout q
  | lock q =>
    simp only [readerStep] at h
    split_ifs at h with hfree
    cases h
    exact .lock q hfree
  | unlock q giveUp =>
    cases h
    cases giveUp with
    | true => exact .giveUp q
    | false => exact .unlock q
  | giveBackSlot =>
    simp only [readerStep] at h
    split_ifs at h with hempty
    cases h
    exact .giveBackSlot (by omega)
  | wait =>
    simp only [readerStep] at h
    split_ifs at h with hzero
    cases h
    exact .wait hzero
  | releaseQuery =>
    simp only [readerStep, Option.map_eq_some_iff] at h
    obtain ⟨g₁, hrelease, heq⟩ := h
    cases heq
    exact .releaseQuery hrelease
  | done => cases h
  | _ =>
    cases h
    constructor

end Moves

/-! ## What a goroutine has -/

namespace QueryPc

/-- The goroutine holds a slot of the connection. -/
def holdsSlot : QueryPc → Bool
  | .handlersDone | .wgDone | .done => false
  | _ => true

/-- The reader waits for the goroutine. -/
def awaited : QueryPc → Bool
  | .wgDone | .done => false
  | _ => true

/-- The goroutine has not ended. -/
def live : QueryPc → Bool
  | .done => false
  | _ => true

/-- The goroutine has locked `writeMu`. -/
def locks : QueryPc → Bool
  | .checkBroken | .writeMsg | .markBroken | .closeConn | .unlock => true
  | _ => false

/-- The goroutine has not tried to write its response. -/
def unsent : QueryPc → Bool
  | .handleVia | .lock | .checkBroken | .writeMsg => true
  | _ => false

/-- The goroutine is in `handleVia`. -/
def running : QueryPc → Bool
  | .handleVia => true
  | _ => false

end QueryPc

namespace ReaderPc

/-- The reader holds a slot for the next query. -/
def holdsSlot : ReaderPc → Bool
  | .lock _ | .loadBroken _ | .unlock _ _ | .giveBackSlot | .wgAdd _ | .handlersAdd _
  | .start _ => true
  | _ => false

/-- The reader has counted the next query in `handlers`. -/
def awaits : ReaderPc → Bool
  | .start _ => true
  | _ => false

/-- The reader has counted the next query in `wg`. -/
def announces : ReaderPc → Bool
  | .handlersAdd _ | .start _ => true
  | _ => false

/-- The reader has locked `writeMu`. -/
def locks : ReaderPc → Bool
  | .loadBroken _ | .unlock _ _ => true
  | _ => false

/-- The query that the reader has read and not started. -/
def query : ReaderPc → Option QueryNo
  | .allow q | .takeSlot q | .awaitSlot q | .lock q | .loadBroken q | .unlock q _ | .wgAdd q
  | .handlersAdd q | .start q => some q
  | _ => none

/-- `serveTCPConn` has returned. -/
def returned : ReaderPc → Bool
  | .releaseQuery | .wgDone | .done => true
  | _ => false

/-- The connection holds a token of `querySem`. -/
def holdsToken : ReaderPc → Bool
  | .wgDone | .done => false
  | _ => true

/-- The goroutine of the connection has not ended. -/
def live : ReaderPc → Bool
  | .done => false
  | _ => true

end ReaderPc

/-- One if the condition holds. -/
def one (b : Bool) : Int := if b then 1 else 0

@[simp] theorem one_true : one true = 1 := rfl

@[simp] theorem one_false : one false = 0 := rfl

namespace TcpConn

/-- The number of queries with a property. -/
def number (c : TcpConn) (f : QueryPc → Bool) : Nat := SyncMap.size (c.queries.filter f)

variable {c : TcpConn} {q : QueryNo}

theorem number_move {c' : TcpConn} {pc : QueryPc} (hl : c.queries.lookup q = some pc)
    (pc' : QueryPc) (hq : c'.queries = c.queries) (f : QueryPc → Bool) :
    (number { c' with queries := c'.queries.insert q pc' } f : Int) =
      c.number f - one (f pc) + one (f pc') := by
  rw [hq]
  exact SyncMap.size_filter_put f hl (some pc')

theorem number_start (hl : c.queries.lookup q = none) (pc : QueryPc) (f : QueryPc → Bool) :
    (SyncMap.size (SyncMap.filter f (c.queries.insert q pc)) : Int) =
      c.number f + one (f pc) :=
  SyncMap.size_filter_insert_fresh f hl

end TcpConn

/-! ## The invariant -/

/-- The two counters of a connection. -/
structure Counters (c : TcpConn) : Prop where
  slots : (c.slots : Int) = c.number QueryPc.holdsSlot + one c.reader.holdsSlot
  slots_le : c.slots ≤ maxTCPQueriesInFlight
  handlers : c.handlers = c.number QueryPc.awaited + one c.reader.awaits
  returned : c.reader.returned = true → c.handlers = 0

/-- The writes of a connection. -/
structure Writes (c : TcpConn) : Prop where
  owner : ∀ q pc, c.queries.lookup q = some pc → pc.locks = true → c.writeMu = some (.query q)
  reader : c.reader.locks = true → c.writeMu = some .reader
  sound : ∀ q, c.queries.lookup q = some .writeMsg → c.broken = false
  recorded : ∀ w ∈ c.wire, w.2 = false → c.broken = true ∨
    ∃ q, c.queries.lookup q = some .markBroken
  last : ∀ w ∈ c.wire.tail, w.2 = true

/-- The numbers of the queries. -/
structure Numbering (c : TcpConn) : Prop where
  fresh : ∀ q, c.nextQuery ≤ q → c.queries.lookup q = none
  next : ∀ q ∈ c.reader.query, q < c.nextQuery ∧ c.queries.lookup q = none
  once : (c.wire.map Prod.fst).Nodup
  written : ∀ w ∈ c.wire, ∃ pc, c.queries.lookup w.1 = some pc ∧ pc.unsent = false

/-- What holds of every connection. -/
structure ConnOk (c : TcpConn) : Prop where
  counters : Counters c
  writes : Writes c
  numbering : Numbering c

/-! ## A query moves -/

namespace QueryMove

variable {g g' : Shared} {c c' : TcpConn} {q : QueryNo} {pc pc' : QueryPc}

theorem frame (hmove : QueryMove g c q pc g' c' pc') :
    c'.queries = c.queries ∧ c'.reader = c.reader ∧ c'.nextQuery = c.nextQuery := by
  cases hmove <;> exact ⟨rfl, rfl, rfl⟩

theorem lookup (hmove : QueryMove g c q pc g' c' pc') (q' : QueryNo) :
    (c'.queries.insert q pc').lookup q' = if q' = q then some pc' else c.queries.lookup q' := by
  rw [hmove.frame.1]
  exact SyncMap.lookup_insert_eq_ite ..

theorem counters (hmove : QueryMove g c q pc g' c' pc') :
    (c'.slots : Int) = c.slots - one pc.holdsSlot + one pc'.holdsSlot ∧
      c'.handlers = c.handlers - one pc.awaited + one pc'.awaited ∧ c'.slots ≤ c.slots := by
  cases hmove with
  | releaseSlot h =>
    simp only [h, QueryPc.holdsSlot, QueryPc.awaited, one_true, one_false]
    omega
  | _ =>
    simp only [QueryPc.holdsSlot, QueryPc.awaited, one_true, one_false]
    omega

theorem awaited_of_awaited (hmove : QueryMove g c q pc g' c' pc') (h : pc'.awaited = true) :
    pc.awaited = true := by
  cases hmove <;> first | rfl | cases h

theorem sent_of_sent (hmove : QueryMove g c q pc g' c' pc') (h : pc.unsent = false) :
    pc'.unsent = false := by
  cases hmove <;> first | rfl | cases h

theorem mutex (hmove : QueryMove g c q pc g' c' pc') :
    (c'.writeMu = c.writeMu ∧ pc'.locks = pc.locks) ∨
      (c.writeMu = none ∧ c'.writeMu = some (.query q)) ∨
      (pc.locks = true ∧ pc'.locks = false) := by
  cases hmove with
  | lock h => exact .inr (.inl ⟨h, rfl⟩)
  | unlock => exact .inr (.inr ⟨rfl, rfl⟩)
  | _ => exact .inl ⟨rfl, rfl⟩

/-- A query sets `broken` while it has the mutex. -/
theorem broken (hmove : QueryMove g c q pc g' c' pc') :
    (c'.broken = c.broken ∧ (pc' = .writeMsg → c.broken = false) ∧ pc ≠ .markBroken) ∨
      (c'.broken = true ∧ pc = .markBroken ∧ pc' = .closeConn) := by
  cases hmove with
  | markBroken => exact .inr ⟨rfl, rfl, rfl⟩
  | proceed h => exact .inl ⟨rfl, fun _ => h, by decide⟩
  | _ => exact .inl ⟨rfl, by simp, by simp⟩

/-- A query writes from `writeMsg`, and says so if that fails. -/
theorem wire (hmove : QueryMove g c q pc g' c' pc') :
    c'.wire = c.wire ∨
      ∃ sent, pc = .writeMsg ∧ c'.wire = (q, sent) :: c.wire ∧ pc'.unsent = false ∧
        (sent = false → pc' = .markBroken) := by
  cases hmove with
  | sent => exact .inr ⟨true, rfl, rfl, rfl, by simp⟩
  | failed => exact .inr ⟨false, rfl, rfl, rfl, fun _ => rfl⟩
  | _ => exact .inl rfl

end QueryMove

section Query

variable {g g' : Shared} {c c' : TcpConn} {q : QueryNo} {pc pc' : QueryPc}

theorem Counters.query (h : Counters c) (hl : c.queries.lookup q = some pc)
    (hmove : QueryMove g c q pc g' c' pc') :
    Counters { c' with queries := c'.queries.insert q pc' } := by
  obtain ⟨hqueries, hreader, -⟩ := hmove.frame
  obtain ⟨hslots, hhandlers, hle⟩ := hmove.counters
  have hslots₀ := h.slots
  have hhandlers₀ := h.handlers
  have hnumSlots := TcpConn.number_move hl pc' hqueries QueryPc.holdsSlot
  have hnumAwaited := TcpConn.number_move hl pc' hqueries QueryPc.awaited
  constructor
  · rw [hnumSlots]
    show (c'.slots : Int) = _ + one c'.reader.holdsSlot
    rw [hreader]
    omega
  · exact le_trans hle h.slots_le
  · rw [hnumAwaited]
    show c'.handlers = _ + one c'.reader.awaits
    rw [hreader]
    omega
  · intro hreturned
    change c'.reader.returned = true at hreturned
    rw [hreader] at hreturned
    have hzero := h.returned hreturned
    -- A goroutine that the reader waits for would keep the counter up.
    have hpast : pc.awaited = false := by
      rw [← Bool.not_eq_true]
      intro hawaited
      have hpos : 0 < c.number QueryPc.awaited := SyncMap.size_filter_pos hl hawaited
      unfold one at hhandlers₀
      split_ifs at hhandlers₀ <;> omega
    have hpast' : pc'.awaited = false := by
      rw [← Bool.not_eq_true]
      intro hawaited
      rw [hmove.awaited_of_awaited hawaited] at hpast
      cases hpast
    show c'.handlers = 0
    rw [hhandlers, hpast, hpast', hzero]
    rfl

theorem Writes.eq_of_locks (h : Writes c) {q' : QueryNo} {pc₁ pc₂ : QueryPc}
    (hl : c.queries.lookup q = some pc₁) (hl' : c.queries.lookup q' = some pc₂)
    (hlocks : pc₁.locks = true) (hlocks' : pc₂.locks = true) : q' = q ∧ pc₂ = pc₁ := by
  have hq := h.owner q pc₁ hl hlocks
  rw [h.owner q' pc₂ hl' hlocks'] at hq
  cases hq
  exact ⟨rfl, Option.some.inj (hl'.symm.trans hl)⟩

theorem Writes.all_sent (h : Writes c) (hl : c.queries.lookup q = some .writeMsg) :
    ∀ w ∈ c.wire, w.2 = true := by
  intro w hw
  rw [← Bool.not_eq_false]
  intro hfailed
  rcases h.recorded w hw hfailed with hbroken | ⟨q', hl'⟩
  · rw [h.sound q hl] at hbroken
    cases hbroken
  · exact absurd (h.eq_of_locks hl hl' rfl rfl).2 (by decide)

theorem Writes.writeMu_of_ne (h : Writes c) (hl : c.queries.lookup q = some pc)
    (hmove : QueryMove g c q pc g' c' pc') {o : Owner} (howner : c.writeMu = some o)
    (hne : o ≠ .query q) : c'.writeMu = some o := by
  rcases hmove.mutex with ⟨hmu, -⟩ | ⟨hnone, -⟩ | ⟨hlocked, -⟩
  · rw [hmu, howner]
  · rw [hnone] at howner
    cases howner
  · rw [h.owner q pc hl hlocked] at howner
    exact absurd (Option.some.inj howner).symm hne

theorem Writes.recorded_of_mem (h : Writes c) (hl : c.queries.lookup q = some pc)
    (hmove : QueryMove g c q pc g' c' pc') {w : QueryNo × Bool} (hw : w ∈ c.wire)
    (hfailed : w.2 = false) :
    c'.broken = true ∨ ∃ q', (c'.queries.insert q pc').lookup q' = some .markBroken := by
  rcases hmove.broken with ⟨hbroken, -, hne⟩ | ⟨hbroken, -⟩
  · rcases h.recorded w hw hfailed with hset | ⟨q', hl'⟩
    · exact .inl (hbroken.trans hset)
    · refine .inr ⟨q', ?_⟩
      rw [hmove.lookup, if_neg, hl']
      rintro rfl
      exact hne (Option.some.inj (hl.symm.trans hl'))
  · exact .inl hbroken

theorem Writes.query (h : Writes c) (hl : c.queries.lookup q = some pc)
    (hmove : QueryMove g c q pc g' c' pc') :
    Writes { c' with queries := c'.queries.insert q pc' } := by
  have hlookup := hmove.lookup
  constructor
  · intro q' pc₁ hl₁ hlocks
    rw [hlookup] at hl₁
    show c'.writeMu = some (.query q')
    split_ifs at hl₁ with hq
    · subst hq
      obtain rfl := Option.some.inj hl₁
      rcases hmove.mutex with ⟨hmu, hsame⟩ | ⟨-, hmu⟩ | ⟨-, hfree⟩
      · rw [hmu]
        exact h.owner q' pc hl (hsame ▸ hlocks)
      · exact hmu
      · rw [hfree] at hlocks
        cases hlocks
    · exact h.writeMu_of_ne hl hmove (h.owner q' pc₁ hl₁ hlocks) (by simpa using hq)
  · intro hlocks
    exact h.writeMu_of_ne hl hmove (h.reader (hmove.frame.2.1 ▸ hlocks)) nofun
  · intro q' hl₁
    rw [hlookup] at hl₁
    show c'.broken = false
    rcases hmove.broken with ⟨hbroken, hwrite, -⟩ | ⟨-, rfl, hclose⟩
    · rw [hbroken]
      split_ifs at hl₁
      · exact hwrite (Option.some.inj hl₁)
      · exact h.sound q' hl₁
    · split_ifs at hl₁ with hq
      · rw [hclose] at hl₁
        cases hl₁
      · exact absurd (h.eq_of_locks hl hl₁ rfl rfl).1 hq
  · intro w hw hfailed
    rcases hmove.wire with hsame | ⟨sent, -, hwire, -, hmark⟩
    · exact h.recorded_of_mem hl hmove (hsame ▸ hw) hfailed
    · change w ∈ c'.wire at hw
      rw [hwire] at hw
      rcases List.mem_cons.1 hw with rfl | hw
      · refine .inr ⟨q, ?_⟩
        show (c'.queries.insert q pc').lookup q = some .markBroken
        rw [hlookup, if_pos rfl, hmark hfailed]
      · exact h.recorded_of_mem hl hmove hw hfailed
  · show ∀ w ∈ c'.wire.tail, w.2 = true
    rcases hmove.wire with hsame | ⟨sent, rfl, hwire, -⟩
    · rw [hsame]
      exact h.last
    · rw [hwire]
      exact h.all_sent hl

theorem Numbering.query (h : Numbering c) (hl : c.queries.lookup q = some pc)
    (hmove : QueryMove g c q pc g' c' pc') :
    Numbering { c' with queries := c'.queries.insert q pc' } := by
  obtain ⟨-, hreader, hnext⟩ := hmove.frame
  have hlookup := hmove.lookup
  have hold : ∀ q', c.queries.lookup q' = none → (c'.queries.insert q pc').lookup q' = none := by
    intro q' hnone
    rw [hlookup, if_neg, hnone]
    rintro rfl
    rw [hl] at hnone
    cases hnone
  constructor
  · intro q' hq'
    exact hold q' (h.fresh q' (hnext ▸ hq'))
  · intro q' hq'
    obtain ⟨hlt, hnone⟩ := h.next q' (hreader ▸ hq')
    exact ⟨hnext ▸ hlt, hold q' hnone⟩
  · show (c'.wire.map Prod.fst).Nodup
    rcases hmove.wire with hsame | ⟨sent, rfl, hwire, -⟩
    · rw [hsame]
      exact h.once
    · rw [hwire, List.map_cons, List.nodup_cons]
      refine ⟨fun hmem => ?_, h.once⟩
      obtain ⟨w, hw, hwq⟩ := List.mem_map.1 hmem
      obtain ⟨pc₁, hl₁, hsent⟩ := h.written w hw
      change w.1 = q at hwq
      rw [hwq, hl] at hl₁
      cases hl₁
      cases hsent
  · intro w hw
    show ∃ pc₁, (c'.queries.insert q pc').lookup w.1 = some pc₁ ∧ pc₁.unsent = false
    have hold' : w ∈ c.wire → ∃ pc₁, (c'.queries.insert q pc').lookup w.1 = some pc₁ ∧
        pc₁.unsent = false := by
      intro hw
      obtain ⟨pc₁, hl₁, hsent⟩ := h.written w hw
      rw [hlookup]
      split_ifs with hq
      · rw [hq, hl] at hl₁
        cases hl₁
        exact ⟨pc', rfl, hmove.sent_of_sent hsent⟩
      · exact ⟨pc₁, hl₁, hsent⟩
    rcases hmove.wire with hsame | ⟨sent, -, hwire, hsent, -⟩
    · exact hold' (hsame ▸ hw)
    · change w ∈ c'.wire at hw
      rw [hwire] at hw
      rcases List.mem_cons.1 hw with rfl | hw
      · exact ⟨pc', by rw [hlookup, if_pos rfl], hsent⟩
      · exact hold' hw

end Query

/-! ## The reader moves -/

namespace ReaderMove

variable {g g' : Shared} {c c' : TcpConn} {pc pc' : ReaderPc}

theorem queries (hmove : ReaderMove g c pc g' c' pc') :
    (c'.queries = c.queries ∧ ∀ q, pc ≠ .start q) ∨
      ∃ q, pc = .start q ∧ pc' = .readMsg ∧ g' = g ∧
        c' = { c with queries := c.queries.insert q .handleVia } := by
  cases hmove with
  | start q => exact .inr ⟨q, rfl, rfl, rfl, rfl⟩
  | _ => exact .inl ⟨rfl, by simp⟩

/-- The slot of a query that is started goes over to it, and every other one is
the reader's own. -/
theorem counters (hmove : ReaderMove g c pc g' c' pc') (h : ∀ q, pc ≠ .start q) :
    (c'.slots : Int) = c.slots - one pc.holdsSlot + one pc'.holdsSlot ∧
      c'.handlers = c.handlers - one pc.awaits + one pc'.awaits ∧
      (c.slots ≤ maxTCPQueriesInFlight → c'.slots ≤ maxTCPQueriesInFlight) := by
  cases hmove with
  | start q => exact absurd rfl (h q)
  | giveBackSlot hs =>
    simp only [hs, ReaderPc.holdsSlot, ReaderPc.awaits, one_true, one_false]
    omega
  | _ =>
    simp only [ReaderPc.holdsSlot, ReaderPc.awaits, one_true, one_false]
    omega

theorem returned (hmove : ReaderMove g c pc g' c' pc') (h : pc'.returned = true) :
    c'.handlers = c.handlers ∧ (pc.returned = true ∨ c.handlers = 0) := by
  cases hmove with
  | wait hzero => exact ⟨rfl, .inr hzero⟩
  | releaseQuery => exact ⟨rfl, .inl rfl⟩
  | wgDone => exact ⟨rfl, .inl rfl⟩
  | _ => cases h

/-- The reader writes nothing and leaves `broken` as it is. -/
theorem frame (hmove : ReaderMove g c pc g' c' pc') :
    c'.wire = c.wire ∧ c'.broken = c.broken := by
  cases hmove <;> exact ⟨rfl, rfl⟩

theorem mutex (hmove : ReaderMove g c pc g' c' pc') :
    (c'.writeMu = c.writeMu ∧ pc'.locks = pc.locks) ∨
      (c.writeMu = none ∧ c'.writeMu = some .reader) ∨
      (pc.locks = true ∧ pc'.locks = false) := by
  cases hmove with
  | lock q h => exact .inr (.inl ⟨h, rfl⟩)
  | giveUp q => exact .inr (.inr ⟨rfl, rfl⟩)
  | unlock q => exact .inr (.inr ⟨rfl, rfl⟩)
  | _ => exact .inl ⟨rfl, rfl⟩

theorem numbers (hmove : ReaderMove g c pc g' c' pc') :
    c.nextQuery ≤ c'.nextQuery ∧ ∀ q ∈ pc'.query, q ∈ pc.query ∧ (∀ q', pc ≠ .start q') ∨
      q = c.nextQuery ∧ c'.nextQuery = c.nextQuery + 1 ∧ c'.queries = c.queries := by
  cases hmove <;> simp [ReaderPc.query]

end ReaderMove

section Reader

variable {g g' : Shared} {c c' : TcpConn} {pc' : ReaderPc}

theorem Counters.readerStep (h : Counters c) (hn : Numbering c)
    (hmove : ReaderMove g c c.reader g' c' pc') : Counters { c' with reader := pc' } := by
  have hslots₀ := h.slots
  have hhandlers₀ := h.handlers
  rcases hmove.queries with ⟨hqueries, hnot⟩ | ⟨q, hpc, rfl, -, rfl⟩
  · obtain ⟨hslots, hhandlers, hle⟩ := hmove.counters hnot
    have hnumber : ∀ f, TcpConn.number { c' with reader := pc' } f = c.number f := by
      intro f
      unfold TcpConn.number
      rw [hqueries]
    constructor
    · rw [hnumber]
      show (c'.slots : Int) = _ + one pc'.holdsSlot
      omega
    · exact hle h.slots_le
    · rw [hnumber]
      show c'.handlers = _ + one pc'.awaits
      omega
    · intro hreturned
      obtain ⟨hsame, hpast | hzero⟩ := hmove.returned hreturned
      · exact hsame.trans (h.returned hpast)
      · exact hsame.trans hzero
  · have hfresh := (hn.next q (by rw [hpc]; rfl)).2
    have hnumSlots := TcpConn.number_start hfresh .handleVia QueryPc.holdsSlot
    have hnumAwaited := TcpConn.number_start hfresh .handleVia QueryPc.awaited
    rw [hpc] at hslots₀ hhandlers₀
    constructor
    · show (c.slots : Int) = SyncMap.size (SyncMap.filter _ (c.queries.insert q .handleVia)) +
        one ReaderPc.readMsg.holdsSlot
      rw [hnumSlots]
      simp only [ReaderPc.holdsSlot, QueryPc.holdsSlot, one_true, one_false] at hslots₀ ⊢
      omega
    · exact h.slots_le
    · show c.handlers = SyncMap.size (SyncMap.filter _ (c.queries.insert q .handleVia)) +
        one ReaderPc.readMsg.awaits
      rw [hnumAwaited]
      simp only [ReaderPc.awaits, QueryPc.awaited, one_true, one_false] at hhandlers₀ ⊢
      omega
    · rintro ⟨⟩

/-- A query that the reader starts is not in `writeResponse`. -/
theorem ReaderMove.lookup (hn : Numbering c) (hmove : ReaderMove g c c.reader g' c' pc')
    {q : QueryNo} {pc : QueryPc} :
    c'.queries.lookup q = some pc ↔ c.queries.lookup q = some pc ∨
      (pc = .handleVia ∧ c.reader = .start q) := by
  rcases hmove.queries with ⟨hqueries, hnot⟩ | ⟨q', hpc, -, -, rfl⟩
  · rw [hqueries]
    simp [hnot q]
  · have hfresh := (hn.next q' (by rw [hpc]; rfl)).2
    show (c.queries.insert q' .handleVia).lookup q = some pc ↔ _
    rw [SyncMap.lookup_insert_eq_ite, hpc]
    by_cases hq : q = q'
    · subst hq
      simp [hfresh, eq_comm]
    · simp [hq, Ne.symm hq]

theorem Writes.readerStep (h : Writes c) (hn : Numbering c)
    (hmove : ReaderMove g c c.reader g' c' pc') : Writes { c' with reader := pc' } := by
  obtain ⟨hwire, hbroken⟩ := hmove.frame
  constructor
  · intro q pc hl hlocks
    show c'.writeMu = some (.query q)
    rcases (hmove.lookup hn).1 hl with hl | ⟨rfl, -⟩
    · have howner := h.owner q pc hl hlocks
      rcases hmove.mutex with ⟨hmu, -⟩ | ⟨hnone, -⟩ | ⟨hlocked, -⟩
      · rw [hmu, howner]
      · rw [hnone] at howner
        cases howner
      · rw [h.reader hlocked] at howner
        cases howner
    · cases hlocks
  · intro hlocks
    change pc'.locks = true at hlocks
    show c'.writeMu = some .reader
    rcases hmove.mutex with ⟨hmu, hsame⟩ | ⟨-, hmu⟩ | ⟨-, hfree⟩
    · rw [hmu]
      exact h.reader (hsame ▸ hlocks)
    · exact hmu
    · rw [hfree] at hlocks
      cases hlocks
  · intro q hl
    rcases (hmove.lookup hn).1 hl with hl | ⟨hpc, -⟩
    · exact hbroken.trans (h.sound q hl)
    · cases hpc
  · intro w hw hfailed
    rcases h.recorded w (hwire ▸ hw) hfailed with hset | ⟨q, hl⟩
    · exact .inl (hbroken.trans hset)
    · exact .inr ⟨q, (hmove.lookup hn).2 (.inl hl)⟩
  · show ∀ w ∈ c'.wire.tail, w.2 = true
    rw [hwire]
    exact h.last

theorem Numbering.readerStep (h : Numbering c) (hmove : ReaderMove g c c.reader g' c' pc') :
    Numbering { c' with reader := pc' } := by
  obtain ⟨hwire, -⟩ := hmove.frame
  obtain ⟨hle, hnumbers⟩ := hmove.numbers
  have hnone : ∀ q, c.queries.lookup q = none → c.reader ≠ .start q →
      c'.queries.lookup q = none := by
    intro q hl hstart
    rw [Option.eq_none_iff_forall_ne_some]
    intro pc hl'
    rcases (hmove.lookup h).1 hl' with hl' | ⟨-, hpc⟩
    · rw [hl] at hl'
      cases hl'
    · exact hstart hpc
  constructor
  · intro q hq
    change c'.nextQuery ≤ q at hq
    refine hnone q (h.fresh q (le_trans hle hq)) fun hpc => ?_
    have hlt := (h.next q (by rw [hpc]; rfl)).1
    exact absurd (le_trans hle hq) (not_le.2 hlt)
  · intro q hq
    show q < c'.nextQuery ∧ c'.queries.lookup q = none
    rcases hnumbers q hq with ⟨hold, hnot⟩ | ⟨rfl, hnext, hqueries⟩
    · obtain ⟨hlt, hl⟩ := h.next q hold
      exact ⟨lt_of_lt_of_le hlt hle, hnone q hl (hnot q)⟩
    · rw [hqueries, hnext]
      exact ⟨Nat.lt_succ_self _, h.fresh _ (le_refl _)⟩
  · show (c'.wire.map Prod.fst).Nodup
    rw [hwire]
    exact h.once
  · intro w hw
    obtain ⟨pc, hl, hsent⟩ := h.written w (hwire ▸ hw)
    exact ⟨pc, (hmove.lookup h).2 (.inl hl), hsent⟩

end Reader

/-! ## Every step -/

namespace ConnOk

variable {g g' : Shared} {c c' : TcpConn}

theorem new : ConnOk {} where
  counters := ⟨rfl, by decide, rfl, by simp [ReaderPc.returned]⟩
  writes := ⟨by simp, by simp [ReaderPc.locks], by simp, by simp, by simp⟩
  numbering := ⟨by simp, by simp [ReaderPc.query], by simp, by simp⟩

theorem step (h : ConnOk c) {l : ConnLabel} (hstep : connStep g c l = some (g', c')) :
    ConnOk c' := by
  cases l with
  | reader ok =>
    simp only [connStep, Option.map_eq_some_iff, Prod.mk.injEq] at hstep
    obtain ⟨⟨g₁, c₁, pc'⟩, hmove, rfl, rfl⟩ := hstep
    have hmove := readerStep_move hmove
    exact ⟨h.counters.readerStep h.numbering hmove, h.writes.readerStep h.numbering hmove,
      h.numbering.readerStep hmove⟩
  | query q ok =>
    simp only [connStep, Option.bind_eq_some_iff, Option.map_eq_some_iff, Prod.mk.injEq] at hstep
    obtain ⟨pc, hl, ⟨g₁, c₁, pc'⟩, hmove, rfl, rfl⟩ := hstep
    have hmove := queryStep_move hmove
    exact ⟨h.counters.query hl hmove, h.writes.query hl hmove, h.numbering.query hl hmove⟩

end ConnOk

end Ydn64.Dns64.Server
