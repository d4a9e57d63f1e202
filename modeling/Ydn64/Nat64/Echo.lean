import Ydn64.Nat64.Admission
import Ydn64.Lib.Run

/-!
# The tables of the echo translator

The echo translator keeps two maps onto one set of sessions and a counter
beside them.  `EchoInv` says that they fit together: the queries and the slots
are in bijection, the counter is their size, and the session of a query carries
the tuple of the query and the pool address that embeds its destination.  Every
request, reply and expiry keeps it (`echoStep_inv`), so it holds in every state
that a run reaches, whatever identifier the counter started from.

The bijection rests on `Extract`: a query key does not mention the pool address,
but the pool address of a session determines the destination of its key.
-/

namespace Ydn64.Nat64

open Ydn64.GoStd Ydn64.Config Ydn64.Lib

/-! ## Runs -/

/-- One event at the echo translator. -/
inductive EchoLabel where
  | request (msg : Bytes) (srcAddr pool6Src : Addr16) (now : Int)
  | reply (srcV4 : Addr4) (echo : Echo) (ident : UInt32) (now : Int)
  | expire (now : Int) (order : List IcmpQueryKey)

/-- The tables after an event. -/
def echoStep (pref64 : Pref64) (mtu : Int) (st : IcmpState) : EchoLabel → Option IcmpState
  | .request msg srcAddr pool6Src now =>
    some (handleEchoRequest pref64 st msg srcAddr pool6Src now).1
  | .reply srcV4 echo ident now => some (translateICMPv4Reply st mtu ident srcV4 echo now).1
  | .expire now order => some (expireICMP st now order)

/-! ## The invariant -/

/-- The session that a query refers to: it carries the tuple of the query, its
pool address embeds the destination, and it holds a slot of its own. -/
structure QueryOk (pref64 : Pref64) (st : IcmpState) (q : IcmpQueryKey) (r : IcmpRef)
    (s : IcmpSession) : Prop where
  heap : st.heap.lookup r = some s
  yggDst : s.yggDst = q.srcAddr
  clientID : s.clientID = q.id
  allocID : s.allocID ≠ 0
  slot : st.icmpSessions.lookup ⟨q.dstAddr, s.allocID⟩ = some r
  extract : pref64.extract s.pool6Src.toList = some q.dstAddr

/-- The two maps and the counter fit together. -/
structure EchoInv (pref64 : Pref64) (st : IcmpState) : Prop where
  query : ∀ q r, st.icmpQueries.lookup q = some r → ∃ s, QueryOk pref64 st q r s
  slot : ∀ k r, st.icmpSessions.lookup k = some r → ∃ q s, QueryOk pref64 st q r s ∧
    st.icmpQueries.lookup q = some r ∧ k = ⟨q.dstAddr, s.allocID⟩
  fresh : ∀ q r, st.icmpQueries.lookup q = some r → r < st.nextRef
  countQueries : st.icmpCount = SyncMap.size st.icmpQueries
  countSlots : st.icmpCount = SyncMap.size st.icmpSessions
  countLe : st.icmpCount ≤ maxICMPSessions

variable {pref64 : Pref64} {st : IcmpState}

theorem QueryOk.unique {q q' : IcmpQueryKey} {r : IcmpRef} {s s' : IcmpSession}
    (h : QueryOk pref64 st q r s) (h' : QueryOk pref64 st q' r s') : q = q' := by
  obtain rfl : s = s' := Option.some.inj (h.heap.symm.trans h'.heap)
  have hdst : q.dstAddr = q'.dstAddr := Option.some.inj (h.extract.symm.trans h'.extract)
  have hsrc := h.yggDst.symm.trans h'.yggDst
  have hid := h.clientID.symm.trans h'.clientID
  cases q
  cases q'
  simp_all

theorem EchoInv.init (pref64 : Pref64) (id : UInt32) : EchoInv pref64 (IcmpState.init id) where
  query := fun _ _ h => by cases h
  slot := fun _ _ h => by cases h
  fresh := fun _ _ h => by cases h
  countQueries := rfl
  countSlots := rfl
  countLe := by
    change (0 : Int) ≤ maxICMPSessions
    decide

theorem EchoInv.nextID (h : EchoInv pref64 st) (n : UInt32) :
    EchoInv pref64 { st with icmpNextID := n } where
  query := fun q r hq => by
    obtain ⟨s, hs⟩ := h.query q r hq
    exact ⟨s, hs.1, hs.2, hs.3, hs.4, hs.5, hs.6⟩
  slot := fun k r hk => by
    obtain ⟨q, s, hs, hq, hkey⟩ := h.slot k r hk
    exact ⟨q, s, ⟨hs.1, hs.2, hs.3, hs.4, hs.5, hs.6⟩, hq, hkey⟩
  fresh := h.fresh
  countQueries := h.countQueries
  countSlots := h.countSlots
  countLe := h.countLe

/-! ## Touching a session -/

theorem touch_heap {r : IcmpRef} {s : IcmpSession} (r' : IcmpRef) (now : Int)
    (h : st.heap.lookup r = some s) :
    ∃ s', (st.touch r' now).heap.lookup r = some s' ∧
      s' = { s with lastSeenNs := s'.lastSeenNs } := by
  unfold IcmpState.touch
  cases ht : st.heap.lookup r' with
  | none => exact ⟨s, h, rfl⟩
  | some t =>
    simp only [SyncMap.lookup_insert_eq_ite]
    split_ifs with hr
    · subst hr
      obtain rfl := Option.some.inj (h.symm.trans ht)
      exact ⟨_, rfl, rfl⟩
    · exact ⟨s, h, rfl⟩

theorem touch_maps (st : IcmpState) (r : IcmpRef) (now : Int) :
    (st.touch r now).icmpSessions = st.icmpSessions ∧
      (st.touch r now).icmpQueries = st.icmpQueries ∧
      (st.touch r now).icmpCount = st.icmpCount ∧
      (st.touch r now).nextRef = st.nextRef := by
  unfold IcmpState.touch
  split <;> exact ⟨rfl, rfl, rfl, rfl⟩

theorem QueryOk.touch {q : IcmpQueryKey} {r : IcmpRef} {s : IcmpSession}
    (h : QueryOk pref64 st q r s) (r' : IcmpRef) (now : Int) :
    ∃ s', QueryOk pref64 (st.touch r' now) q r s' ∧ s'.allocID = s.allocID := by
  obtain ⟨s', hheap, hs'⟩ := touch_heap r' now h.heap
  have halloc : s'.allocID = s.allocID := by rw [hs']
  refine ⟨s', ⟨hheap, ?_, ?_, ?_, ?_, ?_⟩, halloc⟩
  · rw [hs']
    exact h.yggDst
  · rw [hs']
    exact h.clientID
  · rw [halloc]
    exact h.allocID
  · rw [(touch_maps st r' now).1, halloc]
    exact h.slot
  · rw [hs']
    exact h.extract

theorem EchoInv.touch (h : EchoInv pref64 st) (r' : IcmpRef) (now : Int) :
    EchoInv pref64 (st.touch r' now) := by
  obtain ⟨hsess, hquer, hcount, hnext⟩ := touch_maps st r' now
  refine ⟨?_, ?_, ?_, ?_, ?_, ?_⟩
  · intro q r hq
    rw [hquer] at hq
    obtain ⟨s, hs⟩ := h.query q r hq
    obtain ⟨s', hs', -⟩ := hs.touch r' now
    exact ⟨s', hs'⟩
  · intro k r hk
    rw [hsess] at hk
    obtain ⟨q, s, hs, hq, hkey⟩ := h.slot k r hk
    obtain ⟨s', hs', halloc⟩ := hs.touch r' now
    exact ⟨q, s', hs', by rw [hquer]; exact hq, by rw [halloc]; exact hkey⟩
  · intro q r hq
    rw [hquer] at hq
    rw [hnext]
    exact h.fresh q r hq
  · rw [hcount, hquer]
    exact h.countQueries
  · rw [hcount, hsess]
    exact h.countSlots
  · rw [hcount]
    exact h.countLe

/-! ## Requests -/

/-- What the allocation loop can do: it gives up, or it takes a free slot with
an identifier other than zero. -/
theorem allocICMPSession_cases (qKey : IcmpQueryKey) (sess : IcmpSession) :
    ∀ (attempts : Nat) (st : IcmpState), ∃ n,
      allocICMPSession qKey sess attempts st = ({ st with icmpNextID := n }, none) ∨
      ∃ cand, cand ≠ 0 ∧ st.icmpSessions.lookup ⟨qKey.dstAddr, cand⟩ = none ∧
        allocICMPSession qKey sess attempts st =
          ({ st with icmpNextID := n }.publish qKey { sess with allocID := cand },
            some st.nextRef) := by
  intro attempts
  induction attempts with
  | zero => exact fun st => ⟨st.icmpNextID, .inl rfl⟩
  | succ attempts ih =>
    intro st
    have hnext := ih { st with icmpNextID := st.icmpNextID + 1 }
    rw [allocICMPSession]
    dsimp only
    split_ifs with hzero hused
    · exact hnext
    · exact hnext
    · exact ⟨st.icmpNextID + 1, .inr ⟨st.candidate, hzero, not_not.1 hused, rfl⟩⟩

theorem QueryOk.publish {q qKey : IcmpQueryKey} {r : IcmpRef} {s sess : IcmpSession}
    (h : QueryOk pref64 st q r s) (hr : r < st.nextRef)
    (hk : st.icmpSessions.lookup ⟨qKey.dstAddr, sess.allocID⟩ = none) :
    QueryOk pref64 (st.publish qKey sess) q r s := by
  refine ⟨?_, h.yggDst, h.clientID, h.allocID, ?_, h.extract⟩
  · rw [IcmpState.publish, SyncMap.lookup_insert_eq_ite, if_neg hr.ne]
    exact h.heap
  · have hslot := h.slot
    rw [IcmpState.publish, SyncMap.lookup_insert_eq_ite, if_neg ?_]
    · exact hslot
    · intro he
      rw [he, hk] at hslot
      cases hslot

/-- A new session under a free slot and a new query keeps the invariant. -/
theorem EchoInv.publish (h : EchoInv pref64 st) {qKey : IcmpQueryKey} {sess : IcmpSession}
    (hq : st.icmpQueries.lookup qKey = none)
    (hk : st.icmpSessions.lookup ⟨qKey.dstAddr, sess.allocID⟩ = none)
    (hcount : st.icmpCount < maxICMPSessions) (halloc : sess.allocID ≠ 0)
    (hygg : sess.yggDst = qKey.srcAddr) (hid : sess.clientID = qKey.id)
    (hext : pref64.extract sess.pool6Src.toList = some qKey.dstAddr) :
    EchoInv pref64 (st.publish qKey sess) := by
  have hnew : QueryOk pref64 (st.publish qKey sess) qKey st.nextRef sess :=
    ⟨Finmap.lookup_insert _, hygg, hid, halloc, Finmap.lookup_insert _, hext⟩
  have hlookup : ∀ q, (st.publish qKey sess).icmpQueries.lookup q
      = if q = qKey then some st.nextRef else st.icmpQueries.lookup q :=
    fun q => SyncMap.lookup_insert_eq_ite _ q qKey st.nextRef
  refine ⟨?_, ?_, ?_, ?_, ?_, ?_⟩
  · intro q r hqr
    rw [hlookup] at hqr
    split_ifs at hqr with he
    · obtain rfl := Option.some.inj hqr
      exact ⟨sess, he ▸ hnew⟩
    · obtain ⟨s, hs⟩ := h.query q r hqr
      exact ⟨s, hs.publish (h.fresh q r hqr) hk⟩
  · intro k r hkr
    rw [IcmpState.publish, SyncMap.lookup_insert_eq_ite] at hkr
    split_ifs at hkr with he
    · obtain rfl := Option.some.inj hkr
      exact ⟨qKey, sess, hnew, Finmap.lookup_insert _, he⟩
    · obtain ⟨q, s, hs, hqr, hkey⟩ := h.slot k r hkr
      refine ⟨q, s, hs.publish (h.fresh q r hqr) hk, ?_, hkey⟩
      rw [hlookup, if_neg ?_]
      · exact hqr
      · rintro rfl
        cases hq.symm.trans hqr
  · intro q r hqr
    rw [hlookup] at hqr
    change r < st.nextRef + 1
    split_ifs at hqr with he
    · obtain rfl := Option.some.inj hqr
      exact Nat.lt_succ_self _
    · exact Nat.lt_succ_of_lt (h.fresh q r hqr)
  · change st.icmpCount + 1 = (SyncMap.size (st.icmpQueries.insert qKey st.nextRef) : Int)
    rw [SyncMap.size_insert_fresh hq, h.countQueries]
  · change st.icmpCount + 1 = (SyncMap.size (st.icmpSessions.insert _ st.nextRef) : Int)
    rw [SyncMap.size_insert_fresh hk, h.countSlots]
  · change st.icmpCount + 1 ≤ maxICMPSessions
    omega

/-- What a registration can do: it refreshes the session of the query, it gives
up, or it publishes a new session. -/
theorem registerICMPSession_cases (st : IcmpState) (srcAddr pool6Src : Addr16) (dstIPv4 : Addr4)
    (clientID : UInt16) (now : Int) :
    (∃ r, st.icmpQueries.lookup ⟨srcAddr, dstIPv4, clientID⟩ = some r ∧
      registerICMPSession st srcAddr pool6Src dstIPv4 clientID now =
        (st.touch r now, some r)) ∨
    ∃ n, registerICMPSession st srcAddr pool6Src dstIPv4 clientID now =
        ({ st with icmpNextID := n }, none) ∨
      ∃ cand, cand ≠ 0 ∧ st.icmpQueries.lookup ⟨srcAddr, dstIPv4, clientID⟩ = none ∧
        st.icmpCount < maxICMPSessions ∧ st.icmpSessions.lookup ⟨dstIPv4, cand⟩ = none ∧
        registerICMPSession st srcAddr pool6Src dstIPv4 clientID now =
          ({ st with icmpNextID := n }.publish ⟨srcAddr, dstIPv4, clientID⟩
            ⟨pool6Src, srcAddr, clientID, cand, now⟩, some st.nextRef) := by
  unfold registerICMPSession
  dsimp only
  cases hq : st.icmpQueries.lookup ⟨srcAddr, dstIPv4, clientID⟩ with
  | some r => exact .inl ⟨r, rfl, rfl⟩
  | none =>
    dsimp only
    split_ifs with hfull
    · exact .inr ⟨st.icmpNextID, .inl rfl⟩
    · obtain ⟨n, hres | ⟨cand, hcand, hfree, hres⟩⟩ :=
        allocICMPSession_cases ⟨srcAddr, dstIPv4, clientID⟩
          ⟨pool6Src, srcAddr, clientID, 0, now⟩ maxICMPIDAllocAttempts st
      · exact .inr ⟨n, .inl hres⟩
      · exact .inr ⟨n, .inr ⟨cand, hcand, rfl, not_le.1 hfull, hfree, hres⟩⟩

theorem EchoInv.registerICMPSession (h : EchoInv pref64 st) (srcAddr : Addr16)
    {pool6Src : Addr16} {dstIPv4 : Addr4} (hext : pref64.extract pool6Src.toList = some dstIPv4)
    (clientID : UInt16) (now : Int) :
    EchoInv pref64 (registerICMPSession st srcAddr pool6Src dstIPv4 clientID now).1 := by
  obtain ⟨r, -, hres⟩ | ⟨n, hres | ⟨cand, hcand, hq, hfull, hfree, hres⟩⟩ :=
    registerICMPSession_cases st srcAddr pool6Src dstIPv4 clientID now
  · rw [hres]
    exact h.touch r now
  · rw [hres]
    exact h.nextID n
  · rw [hres]
    exact (h.nextID n).publish hq hfree hfull hcand rfl rfl hext

theorem EchoInv.handleEchoRequest (h : EchoInv pref64 st) (msg : Bytes)
    (srcAddr pool6Src : Addr16) (now : Int) :
    EchoInv pref64 (handleEchoRequest pref64 st msg srcAddr pool6Src now).1 := by
  unfold Nat64.handleEchoRequest
  cases hext : pref64.extract pool6Src.toList with
  | none => exact h
  | some dstIPv4 =>
    have hreg := h.registerICMPSession srcAddr hext (uint16At msg 4) now
    dsimp only
    split <;> simp_all

/-! ## Expiry -/

theorem EchoInv.expireICMPQuery (h : EchoInv pref64 st) (cutoff : Int) (qk : IcmpQueryKey) :
    EchoInv pref64 (expireICMPQuery st cutoff qk) := by
  unfold Nat64.expireICMPQuery
  cases hq : st.icmpQueries.lookup qk with
  | none => exact h
  | some r =>
    obtain ⟨s, hs⟩ := h.query qk r hq
    dsimp only
    rw [hs.heap]
    dsimp only
    split_ifs with hold
    swap
    · exact h
    -- Another query holds another slot.
    have hother : ∀ {q r' s'}, q ≠ qk → QueryOk pref64 st q r' s' →
        (⟨q.dstAddr, s'.allocID⟩ : IcmpSessionKey) ≠ ⟨qk.dstAddr, s.allocID⟩ := by
      intro q r' s' hne hs' he
      have hslot := hs'.slot
      rw [he, hs.slot] at hslot
      obtain rfl := Option.some.inj hslot
      exact hne (hs'.unique hs)
    have hkeep : ∀ {q r' s'}, q ≠ qk → QueryOk pref64 st q r' s' →
        QueryOk pref64 { st with
          icmpQueries := st.icmpQueries.erase qk
          icmpSessions := st.icmpSessions.erase ⟨qk.dstAddr, s.allocID⟩
          icmpCount := st.icmpCount - 1 } q r' s' := by
      intro q r' s' hne hs'
      refine ⟨hs'.1, hs'.2, hs'.3, hs'.4, ?_, hs'.6⟩
      rw [SyncMap.lookup_erase_eq_ite, if_neg (hother hne hs')]
      exact hs'.slot
    refine ⟨?_, ?_, ?_, ?_, ?_, ?_⟩
    · intro q r' hqr
      rw [SyncMap.lookup_erase_eq_ite] at hqr
      split_ifs at hqr with hne
      obtain ⟨s', hs'⟩ := h.query q r' hqr
      exact ⟨s', hkeep hne hs'⟩
    · intro k r' hkr
      rw [SyncMap.lookup_erase_eq_ite] at hkr
      split_ifs at hkr with hne
      obtain ⟨q, s', hs', hqr, rfl⟩ := h.slot k r' hkr
      have hqne : q ≠ qk := by
        rintro rfl
        obtain rfl := Option.some.inj (hqr.symm.trans hq)
        obtain rfl := Option.some.inj (hs'.heap.symm.trans hs.heap)
        exact hne rfl
      refine ⟨q, s', hkeep hqne hs', ?_, rfl⟩
      rw [SyncMap.lookup_erase_eq_ite, if_neg hqne]
      exact hqr
    · intro q r' hqr
      exact h.fresh q r' (SyncMap.lookup_of_erase hqr)
    · rw [SyncMap.size_erase hq, h.countQueries]
    · rw [SyncMap.size_erase hs.slot, h.countSlots]
    · have := h.countLe
      change st.icmpCount - 1 ≤ maxICMPSessions
      omega

theorem EchoInv.expireICMP (h : EchoInv pref64 st) (now : Int) (order : List IcmpQueryKey) :
    EchoInv pref64 (expireICMP st now order) := by
  unfold Nat64.expireICMP
  induction order generalizing st with
  | nil => exact h
  | cons qk order ih => exact ih (h.expireICMPQuery _ qk)

/-! ## Replies -/

theorem EchoInv.translateICMPv4Reply (h : EchoInv pref64 st) (mtu : Int) (ident : UInt32)
    (srcV4 : Addr4) (echo : Echo) (now : Int) :
    EchoInv pref64 (translateICMPv4Reply st mtu ident srcV4 echo now).1 := by
  unfold Nat64.translateICMPv4Reply
  split
  · exact h
  · split
    · exact h
    · exact h.touch _ now

theorem QueryOk.pool6Src {q : IcmpQueryKey} {r : IcmpRef} {s : IcmpSession}
    (h : QueryOk pref64 st q r s) : s.pool6Src = pref64.embed q.dstAddr :=
  ((pref64.extract_eq_some_iff s.pool6Src q.dstAddr).1 h.extract).2.1

theorem EchoInv.query_injective (h : EchoInv pref64 st) {q q' : IcmpQueryKey} {r : IcmpRef}
    (hq : st.icmpQueries.lookup q = some r) (hq' : st.icmpQueries.lookup q' = some r) :
    q = q' := by
  obtain ⟨s, hs⟩ := h.query q r hq
  obtain ⟨s', hs'⟩ := h.query q' r hq'
  exact hs.unique hs'

/-- The reply in a slot goes to the client of the one query that holds it, under
the identifier of that client and from the pool address of the destination. -/
theorem EchoInv.reply (h : EchoInv pref64 st) {srcV4 : Addr4} {echo : Echo} {r : IcmpRef}
    (hk : st.icmpSessions.lookup ⟨srcV4, echo.id⟩ = some r) (mtu : Int) (ident : UInt32)
    (now : Int) :
    ∃! q, st.icmpQueries.lookup q = some r ∧ q.dstAddr = srcV4 ∧
      (Nat64.translateICMPv4Reply st mtu ident srcV4 echo now).2 =
        fragmentIPv6Packet
          (buildIPv6ICMPEchoReplyPacket (pref64.embed srcV4) q.srcAddr q.id echo.seq
            echo.data) mtu ident := by
  obtain ⟨q, s, hs, hq, hkey⟩ := h.slot _ r hk
  have hdst : srcV4 = q.dstAddr := congrArg IcmpSessionKey.dstAddr hkey
  refine ⟨q, ⟨hq, hdst.symm, ?_⟩, fun q' hq' => h.query_injective hq'.1 hq⟩
  unfold Nat64.translateICMPv4Reply
  rw [hk]
  dsimp only
  rw [hs.heap]
  dsimp only
  rw [hs.pool6Src, hs.yggDst, hs.clientID, hdst]

/-! ## Whole runs -/

theorem echoStep_inv (mtu : Int) {st' : IcmpState} (h : EchoInv pref64 st)
    (l : EchoLabel) (hl : echoStep pref64 mtu st l = some st') : EchoInv pref64 st' := by
  cases l with
  | request msg srcAddr pool6Src now =>
    exact Option.some.inj hl ▸ h.handleEchoRequest msg srcAddr pool6Src now
  | reply srcV4 echo ident now =>
    exact Option.some.inj hl ▸ h.translateICMPv4Reply mtu ident srcV4 echo now
  | expire now order => exact Option.some.inj hl ▸ h.expireICMP now order

/-- In every state that the echo translator reaches, from any value of its
identifier counter, the queries and the slots are in bijection, the counter is
their size and at most 4096, every session carries the pool address of its
destination, and a reply is dropped or goes to the one client that holds its
slot. -/
theorem echo_run_bijective (pref64 : Pref64) (mtu : Int) (id : UInt32)
    (labels : List EchoLabel) (st : IcmpState)
    (hrun : run (echoStep pref64 mtu) (IcmpState.init id) labels = some st) :
    EchoInv pref64 st ∧
    (∀ q r s, QueryOk pref64 st q r s → s.pool6Src = pref64.embed q.dstAddr) ∧
    (∀ q q' r, st.icmpQueries.lookup q = some r → st.icmpQueries.lookup q' = some r →
      q = q') ∧
    ∀ srcV4 echo ident now,
      match st.icmpSessions.lookup ⟨srcV4, echo.id⟩ with
      | none => (translateICMPv4Reply st mtu ident srcV4 echo now).2 = []
      | some r => ∃! q, st.icmpQueries.lookup q = some r ∧ q.dstAddr = srcV4 ∧
          (translateICMPv4Reply st mtu ident srcV4 echo now).2 =
            fragmentIPv6Packet
              (buildIPv6ICMPEchoReplyPacket (pref64.embed srcV4) q.srcAddr q.id echo.seq
                echo.data) mtu ident := by
  have h : EchoInv pref64 st :=
    run_invariant_of_step (fun _ l _ hi hl => echoStep_inv mtu hi l hl)
      (EchoInv.init pref64 id) hrun
  refine ⟨h, fun q r s hs => hs.pool6Src, fun q q' r => h.query_injective, ?_⟩
  intro srcV4 echo ident now
  cases hk : st.icmpSessions.lookup ⟨srcV4, echo.id⟩ with
  | none =>
    dsimp only
    rw [Nat64.translateICMPv4Reply, hk]
  | some r => exact h.reply hk mtu ident now

/-- Two clients ping `1.2.3.4` through `300:1:2:3::/96` with identifier 7. -/
def twoPings : List EchoLabel :=
  [.request (pingMsg 0 0) pingSrc pingDst96 0,
    .request (pingMsg 0 0) ⟨[2, 0, 0, 0, 0, 0, 0, 0, 0, 0, 0, 0, 0, 0, 0, 2], rfl⟩ pingDst96 1]

/-- The identifier counter wraps between two pings: the second client holds
slot 1, and the replies of both slots find one client each. -/
theorem echo_run_bijective_twoPings :
    ∃ pref64 ∈ (parsePref64 "300:1:2:3::/96").toOption,
      ∃ st ∈ run (echoStep pref64 1280) (IcmpState.init 0xFFFE) twoPings,
        st.icmpSessions.lookup ⟨⟨[1, 2, 3, 4], rfl⟩, 0xFFFF⟩ = some 0 ∧
        st.icmpSessions.lookup ⟨⟨[1, 2, 3, 4], rfl⟩, 1⟩ = some 1 ∧
        EchoInv pref64 st := by
  have hrun : ∃ pref64 ∈ (parsePref64 "300:1:2:3::/96").toOption,
      ∃ st ∈ run (echoStep pref64 1280) (IcmpState.init 0xFFFE) twoPings,
        st.icmpSessions.lookup ⟨⟨[1, 2, 3, 4], rfl⟩, 0xFFFF⟩ = some 0 ∧
        st.icmpSessions.lookup ⟨⟨[1, 2, 3, 4], rfl⟩, 1⟩ = some 1 := by
    decide +kernel
  obtain ⟨pref64, hpref, st, hst, hfirst, hsecond⟩ := hrun
  exact ⟨pref64, hpref, st, hst, hfirst, hsecond,
    (echo_run_bijective pref64 1280 0xFFFE twoPings st hst).1⟩

end Ydn64.Nat64
