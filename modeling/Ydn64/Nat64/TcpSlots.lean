import Ydn64.Nat64.Tcp

/-!
# The accounts of proxied connections

A connection takes a token of `tcpSem` and a place in the count of its client, and
its deferred calls give both back.  `Accounting` says what is out at any time: the
tokens are the invocations that hold a slot, the counts are those that are counted,
and `tcpConns` holds those that copy.  Every operation moves what is shared along
with what the invocation has of it (`TcpMove.tokens`, `TcpMove.count` and so on),
so every step keeps the accounts, and `slot_accounting` reads the consequences off.

The limit of a client is another matter (`Ydn64.Nat64.Ceilings`): the count is read,
the slot is taken and the count is raised in three operations.
-/

namespace Ydn64.Nat64

open Ydn64.GoStd Ydn64.Config Ydn64.Lib

/-! ## What one operation moves -/

/-- One for an invocation with the property, and zero for one that is over. -/
def weight (f : Standing → Bool) (pc : Option TcpPc) : Int :=
  pc.elim 0 fun pc => if f pc.standing then 1 else 0

namespace TcpMove

variable {now : Int} {n : TcpRef} {src : Addr16} {m m' : TcpMemory} {pc : TcpPc}
  {pc' : Option TcpPc}

theorem weight_quiet {pc pc' : TcpPc} (h : pc'.standing = pc.standing) (f : Standing → Bool) :
    weight f (some pc') = weight f (some pc) := by
  simp only [weight, Option.elim_some, h]

theorem standing_tryAcquireTCP : TcpPc.tryAcquireTCP.standing = { pending := true } := rfl

/-- The token of an invocation goes in with its slot and comes out with it. -/
theorem tokens (hmove : TcpMove now n src m pc m' pc') :
    m'.svc = m.svc ∧ (m.svc.tcpSem = none → m'.tokens = m.tokens) ∧
      ∀ cap, m.svc.tcpSem = some cap →
        (m'.tokens : Int) = m.tokens - weight (·.holdsSlot) (some pc) + weight (·.holdsSlot) pc' ∧
        (m.tokens ≤ cap → m'.tokens ≤ cap) := by
  cases hmove with
  | quiet h _ =>
    refine ⟨rfl, fun _ => rfl, fun cap _ => ⟨?_, id⟩⟩
    rw [weight_quiet h]
    omega
  | refuse h => simp [weight, h]
  | pass h => simp [weight, h, standing_tryAcquireTCP]
  | acquire h =>
    refine ⟨rfl, h.1, fun cap hcap => ?_⟩
    obtain ⟨hfree, htokens⟩ := h.2 cap hcap
    simp only [weight, TcpPc.standing, Option.elim_some, Bool.false_eq_true, if_true, if_false]
    omega
  | abortRelease h | release h =>
    refine ⟨rfl, h.1, fun cap hcap => ?_⟩
    have htokens := h.2 cap hcap
    simp only [weight, TcpPc.standing, Option.elim_some, Bool.false_eq_true, if_true, if_false]
    omega
  | _ => simp [weight, TcpPc.standing, TcpMemory.trackTCP, TcpMemory.untrackTCP]

/-- The place of an invocation in the count of its client goes in with `add` and
comes out with `remove`.  A `remove` needs a count that is not zero. -/
theorem count (hmove : TcpMove now n src m pc m' pc')
    (hpos : pc.standing.counted = true → 0 < m.srcCounts.count src .srcTCP) (src' : Addr16) :
    m'.srcCounts.count src' .srcTCP = m.srcCounts.count src' .srcTCP +
      if src' = src then weight (·.counted) pc' - weight (·.counted) (some pc) else 0 := by
  cases hmove with
  | quiet h _ => simp [weight_quiet h]
  | refuse h => simp [weight, h]
  | pass h => simp [weight, h, standing_tryAcquireTCP]
  | add => simp [SrcTracker.count_add, weight, TcpPc.standing]
  | abortRemove =>
    have hcount := hpos rfl
    simp only [SrcTracker.count_remove, hcount, weight, TcpPc.standing]
    by_cases hsrc : src' = src <;> simp [hsrc, sub_eq_add_neg]
  | remove =>
    have hcount := hpos rfl
    simp only [SrcTracker.count_remove, hcount, weight, TcpPc.standing]
    by_cases hsrc : src' = src <;> simp [hsrc, sub_eq_add_neg]
  | _ => simp [weight, TcpPc.standing, TcpMemory.trackTCP, TcpMemory.untrackTCP]

theorem pruned (hmove : TcpMove now n src m pc m' pc') (h : m.srcCounts.Pruned) :
    m'.srcCounts.Pruned := by
  cases hmove with
  | add => exact h.add src .srcTCP
  | abortRemove => exact h.remove src .srcTCP
  | remove => exact h.remove src .srcTCP
  | _ => exact h

/-- The entry of an invocation in `tcpConns` goes in with `trackTCP` and comes out
with `untrackTCP`. -/
theorem conns (hmove : TcpMove now n src m pc m' pc')
    (h : m.tcpConns.lookup n = if pc.standing.tracked then some n else none) (a : TcpRef) :
    m'.tcpConns.lookup a =
      if a = n then pc'.bind fun pc => if pc.standing.tracked then some n else none
      else m.tcpConns.lookup a := by
  by_cases ha : a = n
  swap
  · rw [if_neg ha]
    cases hmove with
    | track => exact (SyncMap.lookup_insert_eq_ite ..).trans (if_neg ha)
    | untrack => exact (SyncMap.lookup_erase_eq_ite ..).trans (if_neg ha)
    | _ => rfl
  · rw [if_pos ha, ha]
    cases hmove with
    | quiet hq _ => rw [h, Option.bind_some, hq]
    | refuse hq => rw [h, hq]; rfl
    | pass hq => rw [h, hq]; rfl
    | track => exact (SyncMap.lookup_insert_eq_ite ..).trans (if_pos rfl)
    | untrack => exact (SyncMap.lookup_erase_eq_ite ..).trans (if_pos rfl)
    | _ => exact h

theorem drainWG (hmove : TcpMove now n src m pc m' pc') :
    m'.drainWG = m.drainWG - weight (·.drains) (some pc) + weight (·.drains) pc' := by
  cases hmove with
  | quiet h _ => simp [weight_quiet h]
  | refuse h => simp [weight, h]
  | pass h => simp [weight, h, standing_tryAcquireTCP]
  | _ => simp [weight, TcpPc.standing, TcpMemory.trackTCP, TcpMemory.untrackTCP]

theorem released (hmove : TcpMove now n src m pc m' pc') :
    m'.released = m.released ∧
        (pc.standing.released = true → ∀ q ∈ pc', q.standing.released = true) ∨
      m'.released = n :: m.released ∧ pc.standing.released = false ∧
        ∀ q ∈ pc', q.standing.released = true := by
  cases hmove with
  | quiet h _ => simp [h]
  | refuse h => simp
  | pass h => simp [h]
  | _ => simp [TcpPc.standing, TcpMemory.trackTCP, TcpMemory.untrackTCP]

end TcpMove

/-! ## The invariant -/

/-- The number of invocations with a property. -/
def TcpState.number (s : TcpState) (f : Standing → Bool) : Nat :=
  SyncMap.size (s.handlers.filter fun h => f h.pc.standing)

/-- The number of invocations of one client with a property. -/
def TcpState.numberFrom (s : TcpState) (src : Addr16) (f : Standing → Bool) : Nat :=
  SyncMap.size (s.handlers.filter fun h => h.srcKey = src && f h.pc.standing)

namespace TcpState

variable (s : TcpState) {n : TcpRef} {hd : TcpHandler}

theorem number_put (m : TcpMemory) (hl : s.handlers.lookup n = some hd) (o : Option TcpHandler)
    (f : Standing → Bool) :
    (number { s with mem := m, handlers := s.handlers.put n o } f : Int) =
      s.number f - weight f (some hd.pc) + weight f (o.map TcpHandler.pc) := by
  rw [number, SyncMap.size_filter_put _ hl]
  cases o <;> rfl

theorem numberFrom_put (m : TcpMemory) (hl : s.handlers.lookup n = some hd)
    {o : Option TcpHandler} (hid : ∀ h' ∈ o, h'.id = hd.id) (src : Addr16)
    (f : Standing → Bool) :
    (numberFrom { s with mem := m, handlers := s.handlers.put n o } src f : Int) =
      s.numberFrom src f + if src = hd.srcKey then
        weight f (o.map TcpHandler.pc) - weight f (some hd.pc) else 0 := by
  have hkey : ∀ h' ∈ o, h'.srcKey = hd.srcKey := by
    intro h' ho
    unfold TcpHandler.srcKey
    rw [hid h' ho]
  rw [numberFrom, SyncMap.size_filter_put _ hl, ← numberFrom]
  by_cases hsrc : src = hd.srcKey
  · subst hsrc
    rw [if_pos rfl]
    cases o with
    | none => simp [weight]; omega
    | some h' => simp [weight, hkey]; omega
  · have hne : ∀ h' ∈ o, ¬ h'.srcKey = src := fun h' ho he => hsrc (he.symm.trans (hkey h' ho))
    rw [if_neg hsrc]
    cases o with
    | none => simp [Ne.symm hsrc]
    | some h' => simp [Ne.symm hsrc, hne]

end TcpState

/-- No invocation has released twice, and those that have are past their
release. -/
structure ReleasedOnce (s : TcpState) : Prop where
  nodup : s.mem.released.Nodup
  past : ∀ n ∈ s.mem.released, n < s.nextRef ∧
    ∀ h, s.handlers.lookup n = some h → h.pc.standing.released = true

/-- The accounts of the TCP side, with a semaphore of the given capacity. -/
structure Accounting (sem : Option Nat) (s : TcpState) : Prop where
  tcpSem : s.mem.svc.tcpSem = sem
  slots : ∀ cap, sem = some cap → s.mem.tokens = s.number (·.holdsSlot) ∧ s.mem.tokens ≤ cap
  no_slots : sem = none → s.mem.tokens = 0
  counts : ∀ src, s.mem.srcCounts.count src .srcTCP = s.numberFrom src (·.counted)
  pruned : s.mem.srcCounts.Pruned
  conns : ∀ n, s.mem.tcpConns.lookup n =
    (s.handlers.lookup n).bind fun h => if h.pc.standing.tracked then some n else none
  drains : s.mem.drainWG = s.number (·.drains)
  fresh : ∀ n h, s.handlers.lookup n = some h → n < s.nextRef
  releases : ReleasedOnce s

namespace ReleasedOnce

variable {s : TcpState} (h : ReleasedOnce s)
include h

theorem syn (hd : TcpHandler) : ReleasedOnce { s with
    handlers := s.handlers.insert s.nextRef hd, nextRef := s.nextRef + 1 } := by
  refine ⟨h.nodup, fun n hn => ?_⟩
  obtain ⟨hlt, hreleased⟩ := h.past n hn
  refine ⟨Nat.lt_succ_of_lt hlt, fun h' hl => ?_⟩
  rw [SyncMap.lookup_insert_eq_ite, if_neg (Nat.ne_of_lt hlt)] at hl
  exact hreleased h' hl

theorem handler {n : TcpRef} {hd : TcpHandler} {m : TcpMemory} {o : Option TcpHandler}
    (hl : s.handlers.lookup n = some hd) (hfresh : n < s.nextRef)
    (hmove : TcpMove s.clock n hd.srcKey s.mem hd.pc m (o.map TcpHandler.pc)) :
    ReleasedOnce { s with mem := m, handlers := s.handlers.put n o } := by
  have hown : (∀ pc ∈ o.map TcpHandler.pc, pc.standing.released = true) →
      ∀ h', (s.handlers.put n o).lookup n = some h' → h'.pc.standing.released = true := by
    intro hpc h' hl'
    rw [SyncMap.lookup_put, if_pos rfl] at hl'
    exact hpc h'.pc (by rw [hl']; rfl)
  have hother : ∀ a ∈ s.mem.released, a ≠ n → a < s.nextRef ∧
      ∀ h', (s.handlers.put n o).lookup a = some h' → h'.pc.standing.released = true := by
    intro a ha hne
    refine ⟨(h.past a ha).1, fun h' hl' => ?_⟩
    rw [SyncMap.lookup_put, if_neg hne] at hl'
    exact (h.past a ha).2 h' hl'
  rcases hmove.released with ⟨hsame, hkeeps⟩ | ⟨hcons, hfirst, hnow⟩
  · constructor <;> simp only [hsame]
    · exact h.nodup
    · intro a ha
      by_cases han : a = n
      · subst han
        exact ⟨hfresh, hown (hkeeps ((h.past a ha).2 hd hl))⟩
      · exact hother a ha han
  · constructor <;> simp only [hcons]
    · refine List.nodup_cons.2 ⟨fun hn => ?_, h.nodup⟩
      have hagain := (h.past n hn).2 hd hl
      rw [hfirst] at hagain
      cases hagain
    · intro a ha
      by_cases han : a = n
      · subst han
        exact ⟨hfresh, hown hnow⟩
      · exact hother a ((List.mem_cons.1 ha).resolve_left han) han

end ReleasedOnce

namespace Accounting

variable {sem : Option Nat} {s : TcpState}

theorem start (svc : Service) (clock : Int) : Accounting svc.tcpSem (.start svc clock) where
  tcpSem := rfl
  slots _ _ := ⟨rfl, Nat.zero_le _⟩
  no_slots _ := rfl
  counts _ := rfl
  pruned _ _ h := by cases h
  conns _ := rfl
  drains := rfl
  fresh _ _ h := by cases h
  releases := ⟨List.nodup_nil, fun _ h => by cases h⟩

theorem udp (h : Accounting sem s) {t : SrcTracker} (hpruned : t.Pruned)
    (hcount : ∀ src, t.count src .srcTCP = s.mem.srcCounts.count src .srcTCP) :
    Accounting sem { s with mem := { s.mem with srcCounts := t } } :=
  ⟨h.tcpSem, h.slots, h.no_slots, fun src => (hcount src).trans (h.counts src), hpruned, h.conns,
    h.drains, h.fresh, ⟨h.releases.nodup, h.releases.past⟩⟩

theorem lookup_nextRef (h : Accounting sem s) : s.handlers.lookup s.nextRef = none := by
  cases hl : s.handlers.lookup s.nextRef with
  | none => rfl
  | some hd => exact absurd (h.fresh _ _ hl) (lt_irrefl _)

theorem size_syn (h : Accounting sem s) {hd : TcpHandler} {p : TcpHandler → Bool}
    (hp : p hd = false) :
    SyncMap.size (SyncMap.filter p (s.handlers.insert s.nextRef hd)) =
      SyncMap.size (s.handlers.filter p) := by
  have hinsert := SyncMap.size_filter_insert_fresh p (v := hd) h.lookup_nextRef
  rw [hp] at hinsert
  simpa using hinsert

theorem syn (h : Accounting sem s) {hd : TcpHandler} (hpc : hd.pc.standing = {}) :
    Accounting sem { s with
      handlers := s.handlers.insert s.nextRef hd, nextRef := s.nextRef + 1 } := by
  have hnumber : ∀ f : Standing → Bool, f {} = false →
      TcpState.number { s with
        handlers := s.handlers.insert s.nextRef hd, nextRef := s.nextRef + 1 } f = s.number f :=
    fun f hf => h.size_syn (by rw [hpc, hf])
  constructor
  · exact h.tcpSem
  · intro cap hcap
    rw [hnumber _ rfl]
    exact h.slots cap hcap
  · exact h.no_slots
  · intro src
    rw [h.counts src, TcpState.numberFrom, TcpState.numberFrom, h.size_syn (by simp [hpc])]
  · exact h.pruned
  · intro n
    rw [h.conns n, SyncMap.lookup_insert_eq_ite]
    split_ifs with hn
    · rw [hn, h.lookup_nextRef, Option.bind_some, hpc]
      rfl
    · rfl
  · rw [hnumber _ rfl]
    exact h.drains
  · intro n h' hl
    rw [SyncMap.lookup_insert_eq_ite] at hl
    split_ifs at hl with hn
    · exact hn ▸ Nat.lt_succ_self _
    · exact Nat.lt_succ_of_lt (h.fresh n h' hl)
  · exact h.releases.syn hd

/-- An operation of an invocation keeps the accounts. -/
theorem handler (h : Accounting sem s) {n : TcpRef} {hd : TcpHandler} {m' : TcpMemory}
    {o : Option TcpHandler} (hl : s.handlers.lookup n = some hd)
    (hmove : TcpMove s.clock n hd.srcKey s.mem hd.pc m' (o.map TcpHandler.pc))
    (hid : ∀ h' ∈ o, h'.id = hd.id) :
    Accounting sem { s with mem := m', handlers := s.handlers.put n o } := by
  have hcounted : hd.pc.standing.counted = true → 0 < s.mem.srcCounts.count hd.srcKey .srcTCP := by
    intro hc
    rw [h.counts hd.srcKey]
    exact_mod_cast SyncMap.size_filter_pos hl (by simp [hc])
  obtain ⟨hsvc, hnil, htokens⟩ := hmove.tokens
  have hconn : s.mem.tcpConns.lookup n = if hd.pc.standing.tracked then some n else none := by
    rw [h.conns n, hl, Option.bind_some]
  rw [h.tcpSem] at hnil htokens
  constructor
  · show m'.svc.tcpSem = sem
    rw [hsvc, h.tcpSem]
  · intro cap hcap
    obtain ⟨htokens, hle⟩ := htokens cap hcap
    obtain ⟨hslots, hcaps⟩ := h.slots cap hcap
    refine ⟨?_, hle hcaps⟩
    have hn := s.number_put m' hl o (·.holdsSlot)
    show m'.tokens = _
    omega
  · intro hcap
    exact (hnil hcap).trans (h.no_slots hcap)
  · intro src
    have hcount := hmove.count hcounted src
    rw [h.counts src] at hcount
    rw [hcount, s.numberFrom_put m' hl hid]
  · exact hmove.pruned h.pruned
  · intro a
    rw [hmove.conns hconn a, SyncMap.lookup_put]
    split_ifs with ha
    · rw [ha]
      cases o <;> rfl
    · exact h.conns a
  · have hn := s.number_put m' hl o (·.drains)
    have hd := hmove.drainWG
    have hs := h.drains
    dsimp only
    omega
  · intro a h' ha
    rw [SyncMap.lookup_put] at ha
    split_ifs at ha with han
    · exact han ▸ h.fresh n hd hl
    · exact h.fresh a h' ha
  · exact h.releases.handler hl (h.fresh n hd hl) hmove

theorem step {l : TcpLabel} {s' : TcpState} (h : Accounting sem s) (hstep : tcpStep s l = some s') :
    Accounting sem s' := by
  cases tcpStep_change hstep with
  | syn hpc => exact h.syn hpc
  | handler _ hl hmove hid => exact h.handler hl hmove hid
  | udp src ht =>
    rcases ht with rfl | rfl
    · exact h.udp (h.pruned.add src .srcUDP) fun src' => by simp [SrcTracker.count_add]
    · exact h.udp (h.pruned.remove src .srcUDP) fun src' => by simp [SrcTracker.count_remove]
  | frame =>
    exact ⟨h.tcpSem, h.slots, h.no_slots, h.counts, h.pruned, h.conns, h.drains, h.fresh,
      ⟨h.releases.nodup, h.releases.past⟩⟩

end Accounting

/-! ## Whole runs -/

/-- The TCP side keeps its accounts, with at most `max` connections. -/
structure SlotAccounting (max : Int) (s : TcpState) : Prop where
  /-- The tokens are those of the connections that hold a slot. -/
  slots : 0 < max → s.mem.tokens = s.number (·.holdsSlot) ∧ (s.mem.tokens : Int) ≤ max
  /-- `Drain` waits for the goroutines of the connections. -/
  drains : s.mem.drainWG = s.number (·.drains)
  releases : s.mem.released.Nodup
  /-- No operation of an invocation blocks, and so no release. -/
  enabled : ∀ n h ok, s.handlers.lookup n = some h → tcpStep s (.handler n ok) ≠ none
  /-- The counts are those of the connections that hold a slot, unless one of them
  is between its slot and its count. -/
  counts : (∀ n h, s.handlers.lookup n = some h →
      h.pc.standing.holdsSlot = h.pc.standing.counted) →
    ∀ src, s.mem.srcCounts.count src .srcTCP = s.numberFrom src (·.holdsSlot)
  /-- A connection that copies is in `tcpConns`, and a tick that found it there
  does not end before it has visited it. -/
  tracked : ∀ n h, s.handlers.lookup n = some h → h.pc = .proxyTCP →
    s.mem.tcpConns.lookup n = some n ∧
      ∀ cutoff scan, s.reaper = .scan cutoff scan → scan.start.lookup n = some n →
        n ∉ scan.visited → tcpStep s .reap = none
  finished : ∀ n, (∀ h, s.handlers.lookup n = some h → h.pc.standing.tracked = false) →
    s.mem.tcpConns.lookup n = none
  /-- When all connections have ended nothing is left of them. -/
  ended : (∀ n h, s.handlers.lookup n = some h →
      h.pc.standing.holdsSlot = false ∧ h.pc.standing.counted = false) →
    s.mem.tokens = 0 ∧ ∀ src, s.mem.srcCounts.count src .srcTCP = 0 ∧
      (s.mem.srcCounts.count src .srcUDP = 0 → s.mem.srcCounts.lookup src = none)

theorem handlerStep_ne_none {m : TcpMemory} {h : TcpHandler}
    (hrelease : h.pc.standing.holdsSlot = true → m.releaseTCP ≠ none) (now : Int) (n : TcpRef)
    (ok : Bool) : handlerStep m now n ok h ≠ none := by
  unfold handlerStep
  cases hpc : h.pc with
  | checks d => cases d <;> simp
  | tryAcquireTCP => cases m.tryAcquireTCP <;> simp
  | abortRelease => simpa [TcpMemory.releaseBy] using hrelease (by rw [hpc]; rfl)
  | releaseTCP => simpa [TcpMemory.releaseBy] using hrelease (by rw [hpc]; rfl)
  | _ => simp

namespace Accounting

variable {sem : Option Nat} {s : TcpState}

theorem releaseTCP_ne_none (h : Accounting sem s) {n : TcpRef} {hd : TcpHandler}
    (hl : s.handlers.lookup n = some hd) (hslot : hd.pc.standing.holdsSlot = true) :
    s.mem.releaseTCP ≠ none := by
  unfold TcpMemory.releaseTCP
  rw [h.tcpSem]
  cases hsem : sem with
  | none => simp
  | some cap =>
    have hpos : 0 < s.number (·.holdsSlot) := SyncMap.size_filter_pos hl hslot
    have htokens := (h.slots cap hsem).1
    simp
    omega

theorem count_eq_zero (h : Accounting sem s)
    (hcounted : ∀ n h, s.handlers.lookup n = some h → h.pc.standing.counted = false)
    (src : Addr16) : s.mem.srcCounts.count src .srcTCP = 0 := by
  rw [h.counts src, TcpState.numberFrom, SyncMap.size_filter_eq_zero]
  · rfl
  · intro n hd hl
    simp [hcounted n hd hl]

end Accounting

/-- Every run of the TCP side keeps its accounts. -/
theorem slot_accounting {uc : UnicodeCase} {cfg : NAT64Config} {allowed ignored : List String}
    {svc : Service} (hsvc : newService uc cfg allowed ignored = .ok svc) {clock : Int}
    {ls : List TcpLabel} {s : TcpState} (hrun : run tcpStep (.start svc clock) ls = some s) :
    SlotAccounting cfg.maxTCPClients s := by
  have h : Accounting svc.tcpSem s :=
    run_invariant_of_step (fun _ _ _ hi hstep => hi.step hstep) (Accounting.start svc clock) hrun
  have hsem : svc.tcpSem =
      if 0 < cfg.maxTCPClients then some cfg.maxTCPClients.toNat else none := by
    unfold newService at hsvc
    cases hpref : parsePref64 cfg.pool6 with
    | error e =>
      rw [hpref] at hsvc
      cases hsvc
    | ok pref64 =>
      rw [hpref] at hsvc
      obtain rfl := Except.ok.inj hsvc
      rfl
  constructor
  · intro hmax
    rw [if_pos hmax] at hsem
    obtain ⟨htokens, hle⟩ := h.slots _ hsem
    exact ⟨htokens, by omega⟩
  · exact h.drains
  · exact h.releases.nodup
  · intro n hd ok hl
    have henabled := handlerStep_ne_none (h.releaseTCP_ne_none hl) s.clock n ok
    simpa [tcpStep, hl] using henabled
  · intro hbetween src
    rw [h.counts src]
    congr 1
    apply SyncMap.size_filter_congr
    intro n hd hl
    simp only [hbetween n hd hl]
  · intro n hd hl hpc
    have hconn : s.mem.tcpConns.lookup n = some n := by
      rw [h.conns n, hl, Option.bind_some, hpc]
      rfl
    refine ⟨hconn, fun cutoff scan hscan hstart hvisited => ?_⟩
    have hincomplete : ¬ scan.Complete s.mem.tcpConns :=
      fun hc => hc.lookup_ne hconn hvisited hstart
    simp [tcpStep, reapStep, hscan, hincomplete]
  · intro n hn
    rw [h.conns n]
    cases hl : s.handlers.lookup n with
    | none => rfl
    | some hd => simp [hn hd hl]
  · intro hended
    have htcp := h.count_eq_zero fun n hd hl => (hended n hd hl).2
    refine ⟨?_, fun src => ⟨htcp src, fun hudp => h.pruned.lookup_eq_none hudp (htcp src)⟩⟩
    cases hcap : svc.tcpSem with
    | none => exact h.no_slots hcap
    | some cap =>
      rw [(h.slots cap hcap).1]
      exact SyncMap.size_filter_eq_zero fun n hd hl => (hended n hd hl).1

/-- The client connects from one of its ports. -/
def sampleSyn (port : UInt16) : TcpLabel := .syn (endpoint pingSrc pingDst96 port 80)

/-- The next operations of an invocation, all of which succeed. -/
def advances (n : TcpRef) (count : Nat) : List TcpLabel := List.replicate count (.handler n true)

/-- One connection copies when the handshake of another one fails. -/
theorem slot_accounting_oneProxied :
    ∃ svc ∈ (newService asciiCase (poolConfig "300:1:2:3::/96") ["200::/7"] []).toOption,
      ∃ s ∈ run tcpStep (.start svc 0)
        ([sampleSyn 1000, sampleSyn 1001] ++ advances 0 10 ++ advances 1 6 ++
          List.replicate 3 (.handler 1 false)),
        s.number (·.tracked) = 1 ∧ SlotAccounting 1024 s := by
  have hrun : ∃ svc ∈ (newService asciiCase (poolConfig "300:1:2:3::/96") ["200::/7"] []).toOption,
      ∃ s ∈ run tcpStep (.start svc 0)
        ([sampleSyn 1000, sampleSyn 1001] ++ advances 0 10 ++ advances 1 6 ++
          List.replicate 3 (.handler 1 false)), s.number (·.tracked) = 1 := by
    decide +kernel
  obtain ⟨svc, hsvc, s, hs, hone⟩ := hrun
  exact ⟨svc, hsvc, s, hs, hone, slot_accounting (toOption_eq_some hsvc) hs⟩

end Ydn64.Nat64
