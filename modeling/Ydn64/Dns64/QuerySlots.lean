import Ydn64.Dns64.Pipeline

/-!
# The query slots of the server

Every party has a share in what is counted for all: a token of `querySem` and its
goroutines in `wg`.  `Settles` says that an operation moves the two counters by
what it moves the share of the party that takes it.  So the counters are the sum of
the shares in every state (`Accounting`), and `query_slots` reads the consequences
off, together with what `ConnOk` says of each connection.

A connection has one token for all its queries.  `running_le` is the bound on the
queries in process that follows from the two semaphores, and `two_for_one_token`
shows that the budget itself is no bound.  `budget_of_serial` says what keeps to
it: connections that start a query when no other one of theirs is in process.
-/

namespace Ydn64.Dns64.Server

open Ydn64.Config Ydn64.Lib

/-! ## Shares -/

/-- What a party has of the tokens and of `wg`. -/
structure Share where
  tokens : Int := 0
  wg : Int := 0

namespace UdpPc

/-- The goroutine holds a token of `querySem`. -/
def holdsToken : UdpPc → Bool
  | .handle | .pack | .writeTo | .releaseQuery => true
  | _ => false

/-- The goroutine has not ended. -/
def live : UdpPc → Bool
  | .done => false
  | _ => true

/-- The goroutine has not written a response. -/
def unsent : UdpPc → Bool
  | .unpack | .tryAcquireQuery | .shed | .handle | .pack | .writeTo => true
  | _ => false

/-- The goroutine is in `handle`. -/
def running : UdpPc → Bool
  | .handle => true
  | _ => false

def share (pc : UdpPc) : Share := ⟨one pc.holdsToken, one pc.live⟩

end UdpPc

/-- The loop has counted the next datagram in `wg`. -/
def UdpLoopPc.share : UdpLoopPc → Share
  | .start => { wg := 1 }
  | _ => {}

/-- The loop has the token of the next connection, and has counted it in `wg`. -/
def TcpLoopPc.share : TcpLoopPc → Share
  | .wgAdd => { tokens := 1 }
  | .start => { tokens := 1, wg := 1 }
  | _ => {}

theorem UdpLoopPc.share_readFrom : UdpLoopPc.readFrom.share = {} := rfl

theorem UdpLoopPc.share_start : UdpLoopPc.start.share = { wg := 1 } := rfl

theorem TcpLoopPc.share_accept : TcpLoopPc.accept.share = {} := rfl

theorem TcpLoopPc.share_wgAdd : TcpLoopPc.wgAdd.share = { tokens := 1 } := rfl

theorem TcpLoopPc.share_start : TcpLoopPc.start.share = { tokens := 1, wg := 1 } := rfl

/-- A connection has one token, its own goroutine and those of its queries. -/
def TcpConn.share (c : TcpConn) : Share where
  tokens := one c.reader.holdsToken
  wg := one c.reader.live + c.number QueryPc.live + one c.reader.announces

/-- The sum of all shares. -/
def State.share (s : State) : Share where
  tokens := s.serveTCP.share.tokens + SyncMap.total (fun _ pc => pc.share.tokens) s.datagrams +
    SyncMap.total (fun _ c => c.share.tokens) s.conns
  wg := s.serveUDP.share.wg + s.serveTCP.share.wg +
    SyncMap.total (fun _ pc => pc.share.wg) s.datagrams +
    SyncMap.total (fun _ c => c.share.wg) s.conns

/-- The counters move from `g` to `g'` by what a share moves from `a` to `b`, and
the semaphore is not filled beyond its capacity. -/
structure Settles (g g' : Shared) (a b : Share) : Prop where
  querySem : g'.querySem = g.querySem
  unlimited : g.querySem = none → g'.tokens = g.tokens
  tokens : ∀ cap, g.querySem = some cap →
    (g'.tokens : Int) - g.tokens = b.tokens - a.tokens ∧ (g.tokens ≤ cap → g'.tokens ≤ cap)
  wg : g'.wg - g.wg = b.wg - a.wg

namespace Settles

variable {g g' : Shared} {a b : Share}

theorem quiet (g : Shared) (htokens : b.tokens = a.tokens) (hwg : b.wg = a.wg) :
    Settles g g a b :=
  ⟨rfl, fun _ => rfl, fun _ _ => ⟨by omega, id⟩, by omega⟩

theorem wgAdd (g : Shared) (htokens : b.tokens = a.tokens) (hwg : b.wg = a.wg + 1) :
    Settles g g.wgAdd a b :=
  ⟨rfl, fun _ => rfl, fun _ _ => ⟨by simp only [Shared.wgAdd]; omega, id⟩,
    by simp only [Shared.wgAdd]; omega⟩

theorem wgDone (g : Shared) (htokens : b.tokens = a.tokens) (hwg : b.wg = a.wg - 1) :
    Settles g g.wgDone a b :=
  ⟨rfl, fun _ => rfl, fun _ _ => ⟨by simp only [Shared.wgDone]; omega, id⟩,
    by simp only [Shared.wgDone]; omega⟩

theorem tryAcquireQuery (h : g.tryAcquireQuery = some g') (htokens : b.tokens = a.tokens + 1)
    (hwg : b.wg = a.wg) : Settles g g' a b := by
  cases hsem : g.querySem with
  | none =>
    obtain rfl : g = g' := by simpa [Shared.tryAcquireQuery, hsem] using h
    exact ⟨rfl, fun _ => rfl, by simp [hsem], by omega⟩
  | some cap =>
    obtain ⟨hfree, rfl⟩ : g.tokens < cap ∧ { g with tokens := g.tokens + 1 } = g' := by
      simpa [Shared.tryAcquireQuery, hsem] using h
    refine ⟨rfl, by simp [hsem], fun cap' hcap => ?_, ?_⟩
    · obtain rfl := Option.some.inj (hsem.symm.trans hcap)
      dsimp only
      omega
    · dsimp only
      omega

theorem releaseQuery (h : g.releaseQuery = some g') (htokens : b.tokens = a.tokens - 1)
    (hwg : b.wg = a.wg) : Settles g g' a b := by
  cases hsem : g.querySem with
  | none =>
    obtain rfl : g = g' := by simpa [Shared.releaseQuery, hsem] using h
    exact ⟨rfl, fun _ => rfl, by simp [hsem], by omega⟩
  | some cap =>
    obtain ⟨hpos, rfl⟩ : g.tokens ≠ 0 ∧ { g with tokens := g.tokens - 1 } = g' := by
      simpa [Shared.releaseQuery, hsem] using h
    refine ⟨rfl, by simp [hsem], fun cap' hcap => ?_, ?_⟩
    · dsimp only
      omega
    · dsimp only
      omega

theorem frame (h : Settles g g' a b) {x y : Share}
    (htokens : y.tokens - x.tokens = b.tokens - a.tokens) (hwg : y.wg - x.wg = b.wg - a.wg) :
    Settles g g' x y :=
  ⟨h.querySem, h.unlimited, fun cap hcap => by rw [htokens]; exact h.tokens cap hcap,
    by rw [hwg]; exact h.wg⟩

end Settles

/-! ## Every party settles -/

section Parties

variable {g g' : Shared}

theorem udpStep_settles {ok sent : Bool} {pc pc' : UdpPc}
    (h : udpStep g ok pc = some (g', sent, pc')) :
    Settles g g' pc.share pc'.share ∧ (pc.unsent = false → sent = false ∧ pc'.unsent = false) ∧
      (sent = true → pc'.unsent = false) := by
  cases pc with
  | unpack =>
    cases h
    cases ok <;> exact ⟨.quiet _ rfl rfl, by simp [UdpPc.unsent], by simp⟩
  | tryAcquireQuery =>
    simp only [udpStep] at h
    cases hacquire : g.tryAcquireQuery with
    | none =>
      rw [hacquire] at h
      cases h
      exact ⟨.quiet _ rfl rfl, by simp [UdpPc.unsent], by simp⟩
    | some g₁ =>
      rw [hacquire] at h
      cases h
      exact ⟨.tryAcquireQuery hacquire rfl rfl, by simp [UdpPc.unsent], by simp⟩
  | pack =>
    cases h
    cases ok <;> exact ⟨.quiet _ rfl rfl, by simp [UdpPc.unsent], by simp⟩
  | releaseQuery =>
    simp only [udpStep, Option.map_eq_some_iff] at h
    obtain ⟨g₁, hrelease, heq⟩ := h
    cases heq
    exact ⟨.releaseQuery hrelease rfl rfl, by simp [UdpPc.unsent], by simp⟩
  | wgDone =>
    cases h
    exact ⟨.wgDone _ rfl rfl, by simp [UdpPc.unsent], by simp⟩
  | done => cases h
  | _ =>
    cases h
    exact ⟨.quiet _ rfl rfl, by simp [UdpPc.unsent], by simp [UdpPc.unsent]⟩

theorem queryMove_settles {c c' : TcpConn} {q : QueryNo} {pc pc' : QueryPc}
    (hl : c.queries.lookup q = some pc) (hmove : QueryMove g c q pc g' c' pc') :
    Settles g g' c.share
      (TcpConn.share { c' with queries := c'.queries.insert q pc' }) := by
  obtain ⟨hqueries, hreader, -⟩ := hmove.frame
  have hlive := TcpConn.number_move hl pc' hqueries QueryPc.live
  have hself : Settles g g' ⟨0, one pc.live⟩ ⟨0, one pc'.live⟩ := by
    cases hmove with
    | wgDone => exact .wgDone _ rfl rfl
    | _ => exact .quiet _ rfl rfl
  refine hself.frame ?_ ?_
  · show one c'.reader.holdsToken - one c.reader.holdsToken = 0
    rw [hreader]
    omega
  · show one c'.reader.live + TcpConn.number { c' with queries := c'.queries.insert q pc' }
      QueryPc.live + one c'.reader.announces -
        (one c.reader.live + c.number QueryPc.live + one c.reader.announces) = _
    rw [hlive, hreader]
    dsimp only
    omega

theorem readerMove_settles {c c' : TcpConn} {pc' : ReaderPc} (hn : Numbering c)
    (hmove : ReaderMove g c c.reader g' c' pc') :
    Settles g g' c.share (TcpConn.share { c' with reader := pc' }) := by
  rcases hmove.queries with ⟨hqueries, hnot⟩ | ⟨q, hpc, rfl, rfl, rfl⟩
  · have hself : Settles g g' ⟨one c.reader.holdsToken, one c.reader.live + one c.reader.announces⟩
        ⟨one pc'.holdsToken, one pc'.live + one pc'.announces⟩ := by
      generalize c.reader = pc at hmove hnot
      cases hmove with
      | start q => exact absurd rfl (hnot q)
      | wgAdd q => exact .wgAdd _ rfl rfl
      | releaseQuery h => exact .releaseQuery h rfl rfl
      | wgDone => exact .wgDone _ rfl rfl
      | _ => exact .quiet _ rfl rfl
    have hnumber : TcpConn.number { c' with reader := pc' } QueryPc.live =
        c.number QueryPc.live := by
      unfold TcpConn.number
      rw [hqueries]
    refine hself.frame rfl ?_
    show one pc'.live + TcpConn.number { c' with reader := pc' } QueryPc.live +
      one pc'.announces - (one c.reader.live + c.number QueryPc.live + one c.reader.announces) = _
    rw [hnumber]
    dsimp only
    omega
  · -- The place in `wg` goes over to the query that is started.
    have hfresh := (hn.next q (by rw [hpc]; rfl)).2
    have hlive := TcpConn.number_start hfresh .handleVia QueryPc.live
    refine .quiet _ ?_ ?_
    · show one ReaderPc.readMsg.holdsToken = one c.reader.holdsToken
      rw [hpc]
      rfl
    · show one ReaderPc.readMsg.live +
        SyncMap.size (SyncMap.filter QueryPc.live (c.queries.insert q .handleVia)) +
        one ReaderPc.readMsg.announces =
          one c.reader.live + c.number QueryPc.live + one c.reader.announces
      rw [hlive, hpc]
      simp only [ReaderPc.live, ReaderPc.announces, QueryPc.live, one_true, one_false]
      omega

theorem connStep_settles {c c' : TcpConn} (hn : Numbering c) {l : ConnLabel}
    (hstep : connStep g c l = some (g', c')) : Settles g g' c.share c'.share := by
  cases l with
  | reader ok =>
    simp only [connStep, Option.map_eq_some_iff, Prod.mk.injEq] at hstep
    obtain ⟨⟨g₁, c₁, pc'⟩, hmove, rfl, rfl⟩ := hstep
    exact readerMove_settles hn (readerStep_move hmove)
  | query q ok =>
    simp only [connStep, Option.bind_eq_some_iff, Option.map_eq_some_iff, Prod.mk.injEq] at hstep
    obtain ⟨pc, hl, ⟨g₁, c₁, pc'⟩, hmove, rfl, rfl⟩ := hstep
    exact queryMove_settles hl (queryStep_move hmove)

end Parties

/-! ## The accounts of the server -/

/-- The shared counters are the sum of the shares, with a semaphore of the given
capacity. -/
structure Balanced (sem : Option Nat) (s : State) : Prop where
  querySem : s.shared.querySem = sem
  unlimited : sem = none → s.shared.tokens = 0
  tokens : ∀ cap, sem = some cap →
    (s.shared.tokens : Int) = s.share.tokens ∧ s.shared.tokens ≤ cap
  wg : s.shared.wg = s.share.wg

/-- The datagrams are numbered, and each gets one reply. -/
structure RepliedOnce (s : State) : Prop where
  fresh : ∀ n, s.nextDatagram ≤ n → s.datagrams.lookup n = none
  nodup : s.replies.Nodup
  past : ∀ n ∈ s.replies, n < s.nextDatagram ∧
    ∀ pc, s.datagrams.lookup n = some pc → pc.unsent = false

/-- What holds of the server. -/
structure Accounting (sem : Option Nat) (s : State) : Prop where
  balanced : Balanced sem s
  replied : RepliedOnce s
  conns : ∀ n c, s.conns.lookup n = some c → n < s.nextConn ∧ ConnOk c

theorem Balanced.settle {sem : Option Nat} {s s' : State} (h : Balanced sem s)
    (hs : Settles s.shared s'.shared s.share s'.share) : Balanced sem s' := by
  have hsem := h.querySem
  constructor
  · exact hs.querySem.trans hsem
  · intro hnone
    exact (hs.unlimited (hsem.trans hnone)).trans (h.unlimited hnone)
  · intro cap hcap
    obtain ⟨hmoved, hle⟩ := hs.tokens cap (hsem.trans hcap)
    obtain ⟨htokens, hcap⟩ := h.tokens cap hcap
    exact ⟨by omega, hle hcap⟩
  · have hmoved := hs.wg
    have hwg := h.wg
    omega

/-- What one operation can do to the server. -/
inductive Change (s : State) : Label → State → Prop where
  | udpQuiet {ok : Bool} {pc : UdpLoopPc} (h : pc.share = s.serveUDP.share) :
      Change s (.serveUDP ok) { s with serveUDP := pc }
  | refuse {ok : Bool} (h : s.serveUDP.share = {}) :
      Change s (.serveUDP ok) { s with
        serveUDP := .readFrom
        nextDatagram := s.nextDatagram + 1
        replies := if ok then s.nextDatagram :: s.replies else s.replies }
  | announceDatagram {ok : Bool} (h : s.serveUDP.share = {}) :
      Change s (.serveUDP ok) { s with shared := s.shared.wgAdd, serveUDP := .start }
  | startDatagram {ok : Bool} (h : s.serveUDP.share = { wg := 1 }) :
      Change s (.serveUDP ok) { s with
        serveUDP := .readFrom
        nextDatagram := s.nextDatagram + 1
        datagrams := s.datagrams.insert s.nextDatagram .unpack }
  | datagram {n : Nat} {ok sent : Bool} {pc pc' : UdpPc} {g : Shared}
      (hl : s.datagrams.lookup n = some pc) (h : udpStep s.shared ok pc = some (g, sent, pc')) :
      Change s (.datagram n ok) { s with
        shared := g
        replies := if sent then n :: s.replies else s.replies
        datagrams := s.datagrams.insert n pc' }
  | tcpQuiet {ok : Bool} {pc : TcpLoopPc} (h : pc.share = s.serveTCP.share) :
      Change s (.serveTCP ok) { s with serveTCP := pc }
  | admitConn {ok : Bool} {g : Shared} (h : s.serveTCP.share = {})
      (hacquire : s.shared.tryAcquireQuery = some g) :
      Change s (.serveTCP ok) { s with shared := g, serveTCP := .wgAdd }
  | announceConn {ok : Bool} (h : s.serveTCP.share = { tokens := 1 }) :
      Change s (.serveTCP ok) { s with shared := s.shared.wgAdd, serveTCP := .start }
  | startConn {ok : Bool} (h : s.serveTCP.share = { tokens := 1, wg := 1 }) :
      Change s (.serveTCP ok) { s with
        serveTCP := .accept
        nextConn := s.nextConn + 1
        conns := s.conns.insert s.nextConn {} }
  | conn {n : Nat} {l : ConnLabel} {c c' : TcpConn} {g : Shared}
      (hl : s.conns.lookup n = some c) (h : connStep s.shared c l = some (g, c')) :
      Change s (.conn n l) { s with shared := g, conns := s.conns.insert n c' }

section Shares

variable (s : State)

theorem share_datagram {n : Nat} {pc : UdpPc} (hl : s.datagrams.lookup n = some pc)
    (pc' : UdpPc) (g : Shared) (replies : List Nat) :
    (State.share { s with
      shared := g, replies, datagrams := s.datagrams.insert n pc' }).tokens - s.share.tokens =
        pc'.share.tokens - pc.share.tokens ∧
    (State.share { s with
      shared := g, replies, datagrams := s.datagrams.insert n pc' }).wg - s.share.wg =
        pc'.share.wg - pc.share.wg := by
  simp only [State.share, SyncMap.total_insert, SyncMap.contrib_of_some hl]
  omega

theorem share_conn {n : Nat} {c : TcpConn} (hl : s.conns.lookup n = some c) (c' : TcpConn)
    (g : Shared) :
    (State.share { s with shared := g, conns := s.conns.insert n c' }).tokens - s.share.tokens =
        c'.share.tokens - c.share.tokens ∧
    (State.share { s with shared := g, conns := s.conns.insert n c' }).wg - s.share.wg =
        c'.share.wg - c.share.wg := by
  simp only [State.share, SyncMap.total_insert, SyncMap.contrib_of_some hl]
  omega

end Shares

theorem serveUDPStep_change {s s' : State} {ok : Bool} (h : serveUDPStep s ok = some s') :
    Change s (.serveUDP ok) s' := by
  unfold serveUDPStep at h
  cases hpc : s.serveUDP with
  | readFrom =>
    simp only [hpc] at h
    cases h
    exact .udpQuiet (by cases ok <;> simp [hpc, UdpLoopPc.share])
  | checks =>
    simp only [hpc] at h
    cases h
    exact .udpQuiet (by cases ok <;> simp [hpc, UdpLoopPc.share])
  | maybeRefuseDenied =>
    simp only [hpc] at h
    cases h
    exact .refuse (by rw [hpc]; rfl)
  | wgAdd =>
    simp only [hpc] at h
    cases h
    exact .announceDatagram (by rw [hpc]; rfl)
  | start =>
    simp only [hpc] at h
    cases h
    exact .startDatagram (by rw [hpc]; rfl)
  | returned =>
    simp only [hpc] at h
    cases h

theorem serveTCPStep_change {s s' : State} {ok : Bool} (h : serveTCPStep s ok = some s') :
    Change s (.serveTCP ok) s' := by
  unfold serveTCPStep at h
  cases hpc : s.serveTCP with
  | accept =>
    simp only [hpc] at h
    cases h
    exact .tcpQuiet (by cases ok <;> simp [hpc, TcpLoopPc.share])
  | isAllowed =>
    simp only [hpc] at h
    cases h
    exact .tcpQuiet (by cases ok <;> simp [hpc, TcpLoopPc.share])
  | tryAcquireQuery =>
    cases hacquire : s.shared.tryAcquireQuery with
    | none =>
      simp only [hpc, hacquire] at h
      cases h
      exact .tcpQuiet (by rw [hpc]; rfl)
    | some g =>
      simp only [hpc, hacquire] at h
      cases h
      exact .admitConn (by rw [hpc]; rfl) hacquire
  | wgAdd =>
    simp only [hpc] at h
    cases h
    exact .announceConn (by rw [hpc]; rfl)
  | start =>
    simp only [hpc] at h
    cases h
    exact .startConn (by rw [hpc]; rfl)
  | returned =>
    simp only [hpc] at h
    cases h

theorem step_change {s s' : State} {l : Label} (h : step s l = some s') : Change s l s' := by
  cases l with
  | serveUDP ok => exact serveUDPStep_change h
  | datagram n ok =>
    simp only [step, Option.bind_eq_some_iff, Option.map_eq_some_iff] at h
    obtain ⟨pc, hl, ⟨g, sent, pc'⟩, hmove, rfl⟩ := h
    exact .datagram hl hmove
  | serveTCP ok => exact serveTCPStep_change h
  | conn n l =>
    simp only [step, Option.bind_eq_some_iff, Option.map_eq_some_iff] at h
    obtain ⟨c, hl, ⟨g, c'⟩, hmove, rfl⟩ := h
    exact .conn hl hmove

namespace Accounting

variable {sem : Option Nat} {s s' : State} {l : Label}

theorem new (cfg : DNS64Config) : Accounting (State.new cfg).shared.querySem (.new cfg) where
  balanced := ⟨rfl, fun _ => rfl, fun _ _ => ⟨rfl, Nat.zero_le _⟩, rfl⟩
  replied := ⟨fun _ _ => rfl, List.nodup_nil, by simp [State.new]⟩
  conns := by simp [State.new]

theorem lookup_nextConn (h : Accounting sem s) : s.conns.lookup s.nextConn = none := by
  rw [Option.eq_none_iff_forall_ne_some]
  intro c hl
  exact absurd (h.conns _ c hl).1 (lt_irrefl _)

/-- Every change is settled. -/
theorem settles (h : Accounting sem s) (hchange : Change s l s') :
    Settles s.shared s'.shared s.share s'.share := by
  cases hchange with
  | udpQuiet hpc => exact .quiet _ rfl (by simp only [State.share, hpc])
  | refuse hpc =>
    exact .quiet _ rfl (by simp only [State.share, hpc, UdpLoopPc.share_readFrom])
  | announceDatagram hpc =>
    refine .wgAdd _ rfl ?_
    simp only [State.share, hpc, UdpLoopPc.share_start]
    omega
  | startDatagram hpc =>
    have hfresh := h.replied.fresh _ (le_refl s.nextDatagram)
    have hshare : UdpPc.unpack.share = ⟨0, 1⟩ := rfl
    refine .quiet _ ?_ ?_
    · simp only [State.share, SyncMap.total_insert_fresh _ hfresh, hshare]
      omega
    · simp only [State.share, SyncMap.total_insert_fresh _ hfresh, hpc, hshare,
        UdpLoopPc.share_readFrom]
      omega
  | datagram hl hmove =>
    obtain ⟨htokens, hwg⟩ := share_datagram s hl _ _ _
    exact (udpStep_settles hmove).1.frame htokens hwg
  | tcpQuiet hpc =>
    exact .quiet _ (by simp only [State.share, hpc]) (by simp only [State.share, hpc])
  | admitConn hpc hacquire =>
    refine .tryAcquireQuery hacquire ?_ ?_
    · simp only [State.share, hpc, TcpLoopPc.share_wgAdd]
      omega
    · simp only [State.share, hpc, TcpLoopPc.share_wgAdd]
  | announceConn hpc =>
    refine .wgAdd _ ?_ ?_
    · simp only [State.share, hpc, TcpLoopPc.share_start]
    · simp only [State.share, hpc, TcpLoopPc.share_start]
      omega
  | startConn hpc =>
    have hshare : TcpConn.share {} = ⟨1, 1⟩ := rfl
    refine .quiet _ ?_ ?_
    · simp only [State.share, SyncMap.total_insert_fresh _ h.lookup_nextConn, hpc, hshare,
        TcpLoopPc.share_accept]
      omega
    · simp only [State.share, SyncMap.total_insert_fresh _ h.lookup_nextConn, hpc, hshare,
        TcpLoopPc.share_accept]
      omega
  | conn hl hmove =>
    obtain ⟨htokens, hwg⟩ := share_conn s hl _ _
    exact (connStep_settles (h.conns _ _ hl).2.numbering hmove).frame htokens hwg

end Accounting

namespace RepliedOnce

variable {s s' : State} {l : Label}

theorem refuse (h : RepliedOnce s) (ok : Bool) :
    RepliedOnce { s with
      serveUDP := .readFrom
      nextDatagram := s.nextDatagram + 1
      replies := if ok then s.nextDatagram :: s.replies else s.replies } := by
  have hold : ∀ n ∈ s.replies, n < s.nextDatagram + 1 ∧
      ∀ pc, s.datagrams.lookup n = some pc → pc.unsent = false :=
    fun n hmem => ⟨Nat.lt_succ_of_lt (h.past n hmem).1, (h.past n hmem).2⟩
  refine ⟨fun n hn => h.fresh n (Nat.le_of_succ_le hn), ?_, ?_⟩
  · cases ok with
    | false => exact h.nodup
    | true => exact List.nodup_cons.2 ⟨fun hmem => lt_irrefl _ (h.past _ hmem).1, h.nodup⟩
  · cases ok with
    | false => exact hold
    | true =>
      refine List.forall_mem_cons.2 ⟨⟨Nat.lt_succ_self _, fun pc hl => ?_⟩, hold⟩
      change s.datagrams.lookup s.nextDatagram = some pc at hl
      rw [h.fresh _ (le_refl _)] at hl
      cases hl

/-- The goroutine of a datagram replies once. -/
theorem datagram (h : RepliedOnce s) {n : Nat} {ok sent : Bool} {pc pc' : UdpPc} {g : Shared}
    (hl : s.datagrams.lookup n = some pc) (hmove : udpStep s.shared ok pc = some (g, sent, pc')) :
    RepliedOnce { s with
      shared := g
      replies := if sent then n :: s.replies else s.replies
      datagrams := s.datagrams.insert n pc' } := by
  obtain ⟨-, hpast, hsent⟩ := udpStep_settles hmove
  have hlt : n < s.nextDatagram := by
    by_contra hge
    rw [h.fresh n (not_lt.1 hge)] at hl
    cases hl
  have hnew : ∀ k, (s.datagrams.insert n pc').lookup k =
      if k = n then some pc' else s.datagrams.lookup k :=
    fun k => SyncMap.lookup_insert_eq_ite ..
  have hold : ∀ k ∈ s.replies, k < s.nextDatagram ∧
      ∀ pc₁, (s.datagrams.insert n pc').lookup k = some pc₁ → pc₁.unsent = false := by
    intro k hk
    refine ⟨(h.past k hk).1, fun pc₁ hl₁ => ?_⟩
    rw [hnew] at hl₁
    split_ifs at hl₁ with hkn
    · subst hkn
      rw [← Option.some.inj hl₁]
      exact (hpast ((h.past k hk).2 pc hl)).2
    · exact (h.past k hk).2 pc₁ hl₁
  refine ⟨fun k hk => ?_, ?_, ?_⟩
  · change s.nextDatagram ≤ k at hk
    show (s.datagrams.insert n pc').lookup k = none
    rw [hnew, if_neg (by omega)]
    exact h.fresh k hk
  · cases sent with
    | false => exact h.nodup
    | true =>
      refine List.nodup_cons.2 ⟨fun hmem => ?_, h.nodup⟩
      cases (hpast ((h.past n hmem).2 pc hl)).1
  · cases sent with
    | false => exact hold
    | true =>
      refine List.forall_mem_cons.2 ⟨⟨hlt, fun pc₁ hl₁ => ?_⟩, hold⟩
      rw [hnew, if_pos rfl] at hl₁
      rw [← Option.some.inj hl₁]
      exact hsent rfl

theorem change (h : RepliedOnce s) (hchange : Change s l s') : RepliedOnce s' := by
  cases hchange with
  | refuse _ => exact h.refuse _
  | startDatagram _ =>
    refine ⟨fun n hn => ?_, h.nodup, fun n hn => ⟨Nat.lt_succ_of_lt (h.past n hn).1, ?_⟩⟩
    · change s.nextDatagram + 1 ≤ n at hn
      show (s.datagrams.insert s.nextDatagram .unpack).lookup n = none
      rw [SyncMap.lookup_insert_eq_ite, if_neg (by omega)]
      exact h.fresh n (by omega)
    · show ∀ pc, (s.datagrams.insert s.nextDatagram .unpack).lookup n = some pc → _
      have hlt := (h.past n hn).1
      rw [SyncMap.lookup_insert_eq_ite, if_neg (by omega)]
      exact (h.past n hn).2
  | datagram hl hmove => exact h.datagram hl hmove
  | _ => exact ⟨h.fresh, h.nodup, h.past⟩

end RepliedOnce

namespace Accounting

variable {sem : Option Nat} {s s' : State} {l : Label}

theorem change (h : Accounting sem s) (hchange : Change s l s') : Accounting sem s' := by
  refine ⟨h.balanced.settle (h.settles hchange), h.replied.change hchange, ?_⟩
  cases hchange with
  | startConn _ =>
    intro n c hl
    show n < s.nextConn + 1 ∧ ConnOk c
    rw [SyncMap.lookup_insert_eq_ite] at hl
    split_ifs at hl with hn
    · rw [hn, ← Option.some.inj hl]
      exact ⟨Nat.lt_succ_self _, ConnOk.new⟩
    · exact ⟨Nat.lt_succ_of_lt (h.conns n c hl).1, (h.conns n c hl).2⟩
  | @conn n₀ _ c₀ c' _ hl₀ hmove =>
    intro n c hl
    rw [SyncMap.lookup_insert_eq_ite] at hl
    split_ifs at hl with hn
    · obtain ⟨hlt, hok⟩ := h.conns n₀ c₀ hl₀
      rw [hn, ← Option.some.inj hl]
      exact ⟨hlt, hok.step hmove⟩
    · exact h.conns n c hl
  | _ => exact h.conns

theorem of_run {cfg : DNS64Config} {ls : List Label} (hrun : run step (.new cfg) ls = some s) :
    Accounting (State.new cfg).shared.querySem s :=
  run_invariant_of_step (fun _ _ _ hi hstep => hi.change (step_change hstep)) (Accounting.new cfg)
    hrun

end Accounting

/-! ## Every run -/

/-- The loop has the token of the next connection. -/
def TcpLoopPc.holdsToken : TcpLoopPc → Bool
  | .wgAdd | .start => true
  | _ => false

/-- The goroutines of datagrams that hold a token. -/
def State.udpHandlers (s : State) : Nat := SyncMap.size (s.datagrams.filter UdpPc.holdsToken)

/-- The connections that hold a token, with the one that `serveTCP` is about to
start. -/
def State.tcpConnections (s : State) : Nat :=
  SyncMap.size (s.conns.filter fun c => c.reader.holdsToken) +
    if s.serveTCP.holdsToken then 1 else 0

/-- The server keeps its accounts, with at most `max` tokens. -/
structure QuerySlots (max : Int) (s : State) : Prop where
  /-- The tokens are those of the datagrams and connections between acquire and
  release. -/
  tokens : 0 < max →
    s.shared.tokens = s.udpHandlers + s.tcpConnections ∧ (s.shared.tokens : Int) ≤ max
  inFlight : ∀ n c, s.conns.lookup n = some c →
    c.number QueryPc.holdsSlot ≤ maxTCPQueriesInFlight
  /-- When `serveTCPConn` has returned its queries have, and all slots are free. -/
  returned : ∀ n c, s.conns.lookup n = some c → c.reader.returned = true →
    c.slots = 0 ∧ ∀ q pc, c.queries.lookup q = some pc → pc.awaited = false
  /-- No release blocks. -/
  datagramReleases : ∀ n ok, s.datagrams.lookup n = some .releaseQuery →
    step s (.datagram n ok) ≠ none
  readerReleases : ∀ n c ok, s.conns.lookup n = some c →
    c.reader = .giveBackSlot ∨ c.reader = .releaseQuery → step s (.conn n (.reader ok)) ≠ none
  queryReleases : ∀ n c q ok, s.conns.lookup n = some c →
    c.queries.lookup q = some .releaseSlot → step s (.conn n (.query q ok)) ≠ none
  /-- A query has at most one response, and none is written after a write that has
  failed. -/
  udpOnce : s.replies.Nodup
  tcpOnce : ∀ n c, s.conns.lookup n = some c → (c.wire.map Prod.fst).Nodup
  last : ∀ n c, s.conns.lookup n = some c → ∀ w ∈ c.wire.tail, w.2 = true
  /-- When all work has ended every slot is free. -/
  ended : (∀ n pc, s.datagrams.lookup n = some pc → pc = .done) →
    (∀ n c, s.conns.lookup n = some c → c.reader = .done) → s.serveTCP.holdsToken = false →
    s.shared.tokens = 0 ∧ ∀ n c, s.conns.lookup n = some c → c.slots = 0
  /-- When `Drain` finds nothing to wait for no token is out, unless `serveTCP` has
  one for a connection that it has not counted yet. -/
  drained : s.shared.wg = 0 → s.serveTCP ≠ .wgAdd → s.shared.tokens = 0

theorem share_tokens_eq (s : State) : s.share.tokens = s.udpHandlers + s.tcpConnections := by
  have hudp : (s.udpHandlers : Int) = SyncMap.total (fun _ pc => pc.share.tokens) s.datagrams :=
    SyncMap.size_filter_eq_total ..
  have htcp := SyncMap.size_filter_eq_total (fun c : TcpConn => c.reader.holdsToken) s.conns
  have hloop : s.serveTCP.share.tokens = if s.serveTCP.holdsToken then 1 else 0 := by
    cases s.serveTCP <;> rfl
  rw [State.share, State.tcpConnections, hudp, hloop, Nat.cast_add, htcp, Nat.cast_ite]
  show _ + _ + SyncMap.total (fun _ c => one c.reader.holdsToken) s.conns = _
  unfold one
  push_cast
  omega

theorem one_nonneg (b : Bool) : 0 ≤ one b := by
  cases b <;> decide

/-- Who holds a token is counted in `wg`. -/
theorem share_tokens_le (s : State) (h : s.serveTCP ≠ .wgAdd) : s.share.tokens ≤ s.share.wg := by
  have hudp : SyncMap.total (fun _ pc => pc.share.tokens) s.datagrams ≤
      SyncMap.total (fun _ pc => pc.share.wg) s.datagrams := by
    apply SyncMap.total_mono
    intro n pc _
    cases pc <;> decide
  have htcp : SyncMap.total (fun _ c => c.share.tokens) s.conns ≤
      SyncMap.total (fun _ c => c.share.wg) s.conns := by
    apply SyncMap.total_mono
    intro n c _
    have hlive : one c.reader.holdsToken ≤ one c.reader.live := by
      cases c.reader <;> simp [ReaderPc.holdsToken, ReaderPc.live]
    have hannounces := one_nonneg c.reader.announces
    show one c.reader.holdsToken ≤ one c.reader.live + c.number QueryPc.live + _
    omega
  have hloop : s.serveTCP.share.tokens ≤ s.serveTCP.share.wg := by
    cases hpc : s.serveTCP with
    | wgAdd => exact absurd hpc h
    | _ => decide
  have hserve : 0 ≤ s.serveUDP.share.wg := by
    cases s.serveUDP <;> decide
  simp only [State.share]
  omega

theorem Balanced.releaseQuery_ne_none {sem : Option Nat} {s : State} (h : Balanced sem s)
    (hpos : 0 < s.share.tokens) : s.shared.releaseQuery ≠ none := by
  unfold Shared.releaseQuery
  cases hsem : s.shared.querySem with
  | none => simp
  | some cap =>
    have htokens := (h.tokens cap (h.querySem.symm.trans hsem)).1
    have hne : s.shared.tokens ≠ 0 := by omega
    simp [hne]

namespace ConnOk

variable {c : TcpConn}

theorem inFlight (h : ConnOk c) : c.number QueryPc.holdsSlot ≤ maxTCPQueriesInFlight := by
  have hslots := h.counters.slots
  have hle := h.counters.slots_le
  have hone := one_nonneg c.reader.holdsSlot
  omega

/-- A query that is not over keeps the reader in `serveTCPConn`. -/
theorem returned (h : ConnOk c) (hreturned : c.reader.returned = true) :
    c.slots = 0 ∧ ∀ q pc, c.queries.lookup q = some pc → pc.awaited = false := by
  have hhandlers := h.counters.handlers
  have hslots := h.counters.slots
  have hzero := h.counters.returned hreturned
  have hone := one_nonneg c.reader.awaits
  have hpast : ∀ q pc, c.queries.lookup q = some pc → pc.awaited = false := by
    intro q pc hl
    rw [← Bool.not_eq_true]
    intro hawaited
    have hpos : 0 < c.number QueryPc.awaited := SyncMap.size_filter_pos hl hawaited
    omega
  have hnumber : c.number QueryPc.holdsSlot = 0 := by
    apply SyncMap.size_filter_eq_zero
    intro q pc hl
    have hpast := hpast q pc hl
    cases pc <;> first | rfl | cases hpast
  have hreader : c.reader.holdsSlot = false := by
    generalize c.reader = pc at hreturned
    cases pc <;> first | rfl | cases hreturned
  rw [hnumber, hreader] at hslots
  simp only [one_false] at hslots
  exact ⟨by omega, hpast⟩

theorem slots_pos (h : ConnOk c)
    (hholds : 0 < c.number QueryPc.holdsSlot ∨ c.reader.holdsSlot = true) : c.slots ≠ 0 := by
  have hslots := h.counters.slots
  rcases hholds with hquery | hreader
  · have hone := one_nonneg c.reader.holdsSlot
    omega
  · rw [hreader, one_true] at hslots
    omega

end ConnOk

/-- Every run of the server keeps its accounts. -/
theorem query_slots {cfg : DNS64Config} {ls : List Label} {s : State}
    (hrun : run step (.new cfg) ls = some s) : QuerySlots cfg.maxQueries s := by
  have h := Accounting.of_run hrun
  have hpos : ∀ n c, s.conns.lookup n = some c → c.reader = .releaseQuery → 0 < s.share.tokens := by
    intro n c hl hpc
    have hcount : 0 < SyncMap.size (s.conns.filter fun c => c.reader.holdsToken) :=
      SyncMap.size_filter_pos hl (by rw [hpc]; rfl)
    rw [share_tokens_eq, State.tcpConnections]
    omega
  constructor
  · intro hmax
    obtain ⟨htokens, hle⟩ := h.balanced.tokens cfg.maxQueries.toNat (if_pos hmax)
    rw [share_tokens_eq] at htokens
    exact ⟨by omega, by omega⟩
  · exact fun n c hl => (h.conns n c hl).2.inFlight
  · exact fun n c hl => (h.conns n c hl).2.returned
  · intro n ok hl
    have hrelease := h.balanced.releaseQuery_ne_none (by
      have hcount : 0 < s.udpHandlers := SyncMap.size_filter_pos hl rfl
      rw [share_tokens_eq]
      omega)
    simpa [step, hl, udpStep] using hrelease
  · rintro n c ok hl (hpc | hpc)
    · have hslots := (h.conns n c hl).2.slots_pos (.inr (by rw [hpc]; rfl))
      simp [step, hl, connStep, hpc, readerStep, hslots]
    · have hrelease := h.balanced.releaseQuery_ne_none (hpos n c hl hpc)
      simpa [step, hl, connStep, hpc, readerStep] using hrelease
  · intro n c q ok hl hq
    have hslots := (h.conns n c hl).2.slots_pos (.inl (SyncMap.size_filter_pos hq rfl))
    simp [step, hl, connStep, hq, queryStep, hslots]
  · exact h.replied.nodup
  · exact fun n c hl => (h.conns n c hl).2.numbering.once
  · exact fun n c hl => (h.conns n c hl).2.writes.last
  · intro hdatagrams hconns hloop
    refine ⟨?_, fun n c hl => ((h.conns n c hl).2.returned (by rw [hconns n c hl]; rfl)).1⟩
    cases hsem : (State.new cfg).shared.querySem with
    | none => exact h.balanced.unlimited hsem
    | some cap =>
      have htokens := (h.balanced.tokens cap hsem).1
      have hudp : s.udpHandlers = 0 :=
        SyncMap.size_filter_eq_zero fun n pc hl => by rw [hdatagrams n pc hl]; rfl
      have htcp : SyncMap.size (s.conns.filter fun c => c.reader.holdsToken) = 0 :=
        SyncMap.size_filter_eq_zero fun n c hl => by rw [hconns n c hl]; rfl
      rw [share_tokens_eq, State.tcpConnections, hudp, htcp, hloop] at htokens
      simpa using htokens
  · intro hwg hloop
    cases hsem : (State.new cfg).shared.querySem with
    | none => exact h.balanced.unlimited hsem
    | some cap =>
      have htokens := (h.balanced.tokens cap hsem).1
      have hle := share_tokens_le s hloop
      have hbalance := h.balanced.wg
      omega

/-- The settings with a budget of `n` queries. -/
def budgetConfig (n : Int) : DNS64Config :=
  ({ dns64MaxConcurrentQueries := n } : AppConfig).dns64

/-- `serveTCP` accepts a connection and starts it. -/
def acceptConn : List Label := List.replicate 5 (.serveTCP true)

/-- The reader of a connection takes a query off the pipeline and starts it. -/
def readQuery (n : Nat) : List Label := List.replicate 9 (.conn n (.reader true))

/-- A budget of one, taken by a connection whose client goes away: the first of its
two queries fails to write, the second one then does not try, and the datagram that
comes in between is shed. -/
def failedWrite : List Label :=
  acceptConn ++ readQuery 0 ++ readQuery 0 ++ List.replicate 4 (.serveUDP true) ++
    List.replicate 4 (.datagram 0 true) ++ List.replicate 3 (.conn 0 (.query 0 true)) ++
    List.replicate 7 (.conn 0 (.query 0 false)) ++ List.replicate 7 (.conn 0 (.query 1 true)) ++
    List.replicate 5 (.conn 0 (.reader false))

theorem query_slots_failedWrite :
    ∃ s ∈ run step (.new (budgetConfig 1)) failedWrite,
      s.replies = [0] ∧ (∃ c ∈ s.conns.lookup 0, c.wire = [(0, false)] ∧ c.reader = .done) ∧
        QuerySlots 1 s := by
  have hrun : ∃ s ∈ run step (.new (budgetConfig 1)) failedWrite,
      s.replies = [0] ∧ ∃ c ∈ s.conns.lookup 0, c.wire = [(0, false)] ∧ c.reader = .done := by
    decide +kernel
  obtain ⟨s, hs, hreplies, hconn⟩ := hrun
  exact ⟨s, hs, hreplies, hconn, query_slots hs⟩

/-! ## The budget -/

/-- The queries in process: the calls of `handle` and `handleVia` that have not
returned. -/
def State.running (s : State) : Int :=
  SyncMap.size (s.datagrams.filter UdpPc.running) +
    SyncMap.total (fun _ c => (c.number QueryPc.running : Int)) s.conns

theorem ConnOk.running_le {c : TcpConn} (h : ConnOk c) :
    (c.number QueryPc.running : Int) ≤ maxTCPQueriesInFlight * one c.reader.holdsToken := by
  have hle : c.number QueryPc.running ≤ c.number QueryPc.holdsSlot :=
    SyncMap.size_filter_mono (fun pc hpc => by cases pc <;> first | rfl | cases hpc) _
  have hin := h.inFlight
  cases htoken : c.reader.holdsToken with
  | true =>
    rw [one_true]
    omega
  | false =>
    have hreturned : c.reader.returned = true := by
      generalize c.reader = pc at htoken
      cases pc <;> first | rfl | cases htoken
    have hzero : c.number QueryPc.running = 0 := by
      apply SyncMap.size_filter_eq_zero
      intro q pc hl
      have hpast := (h.returned hreturned).2 q pc hl
      cases pc <;> first | rfl | cases hpast
    rw [hzero, one_false]
    decide

/-- With at most `k` queries in process on a connection there are at most `k` for
each token. -/
theorem running_le_tokens {s : State} {k : Int} (hk : 1 ≤ k)
    (h : ∀ n c, s.conns.lookup n = some c →
      (c.number QueryPc.running : Int) ≤ k * one c.reader.holdsToken) :
    s.running ≤ k * s.share.tokens := by
  have hudp : (SyncMap.size (s.datagrams.filter UdpPc.running) : Int) ≤ s.udpHandlers := by
    have hmono : SyncMap.size (s.datagrams.filter UdpPc.running) ≤ s.udpHandlers :=
      SyncMap.size_filter_mono (fun pc hpc => by cases pc <;> first | rfl | cases hpc) _
    exact_mod_cast hmono
  have htcp : SyncMap.total (fun _ c => (c.number QueryPc.running : Int)) s.conns ≤
      k * SyncMap.total (fun _ c => one c.reader.holdsToken) s.conns := by
    rw [← SyncMap.total_mul_left]
    exact SyncMap.total_mono h
  have hconns : SyncMap.total (fun _ c => one c.reader.holdsToken) s.conns ≤ s.tcpConnections := by
    have heq := SyncMap.size_filter_eq_total (fun c : TcpConn => c.reader.holdsToken) s.conns
    unfold one State.tcpConnections
    omega
  have hudp' : (s.udpHandlers : Int) ≤ k * s.udpHandlers := le_mul_of_one_le_left (by omega) hk
  have hconns' := Int.mul_le_mul_of_nonneg_left hconns (show 0 ≤ k by omega)
  rw [State.running, share_tokens_eq, mul_add]
  omega

theorem running_le {cfg : DNS64Config} (hmax : 0 < cfg.maxQueries) {ls : List Label} {s : State}
    (hrun : run step (.new cfg) ls = some s) :
    s.running ≤ maxTCPQueriesInFlight * cfg.maxQueries := by
  have h := Accounting.of_run hrun
  obtain ⟨htokens, hle⟩ := h.balanced.tokens cfg.maxQueries.toNat (if_pos hmax)
  have hrunning := running_le_tokens (by decide) fun n c hl => (h.conns n c hl).2.running_le
  have hshare : s.share.tokens ≤ cfg.maxQueries := by omega
  exact hrunning.trans (Int.mul_le_mul_of_nonneg_left hshare (by decide))

/-- A connection starts a query only when no other one of its own is in process. -/
def Serial (s : State) : Label → Prop
  | .conn n (.reader _) => ∀ c ∈ s.conns.lookup n, c.reader.awaits = true →
    c.number QueryPc.running = 0
  | _ => True

instance (s : State) (l : Label) : Decidable (Serial s l) := by
  unfold Serial
  split <;> infer_instance

/-- A step of a connection that is serial leaves at most one query in process. -/
theorem connStep_serial {g g' : Shared} {c c' : TcpConn} {l : ConnLabel} (hn : Numbering c)
    (h : c.number QueryPc.running ≤ 1)
    (hserial : ∀ ok, l = .reader ok → c.reader.awaits = true → c.number QueryPc.running = 0)
    (hstep : connStep g c l = some (g', c')) : c'.number QueryPc.running ≤ 1 := by
  cases l with
  | reader ok =>
    simp only [connStep, Option.map_eq_some_iff, Prod.mk.injEq] at hstep
    obtain ⟨⟨g₁, c₁, pc'⟩, hmove, rfl, rfl⟩ := hstep
    rcases (readerStep_move hmove).queries with ⟨hqueries, -⟩ | ⟨q, hpc, -, -, hc⟩
    · show SyncMap.size (c₁.queries.filter QueryPc.running) ≤ 1
      rw [hqueries]
      exact h
    · have hzero := hserial ok rfl (by rw [hpc]; rfl)
      have hfresh := (hn.next q (by rw [hpc]; rfl)).2
      have hstart := TcpConn.number_start hfresh .handleVia QueryPc.running
      change c₁ = _ at hc
      subst hc
      show SyncMap.size (SyncMap.filter QueryPc.running (c.queries.insert q .handleVia)) ≤ 1
      simp only [QueryPc.running, one_true] at hstart
      omega
  | query q ok =>
    simp only [connStep, Option.bind_eq_some_iff, Option.map_eq_some_iff, Prod.mk.injEq] at hstep
    obtain ⟨pc, hl, ⟨g₁, c₁, pc'⟩, hmove, rfl, rfl⟩ := hstep
    have hmove := queryStep_move hmove
    have hnumber := TcpConn.number_move hl pc' hmove.frame.1 QueryPc.running
    have hnot : pc'.running = false := by
      cases hmove <;> rfl
    have hone := one_nonneg pc.running
    rw [hnot, one_false] at hnumber
    dsimp only at hnumber ⊢
    omega

/-- In a run whose connections start a query only when no other one of theirs is in
process, the queries in process keep to the budget. -/
theorem budget_of_serial {cfg : DNS64Config} (hmax : 0 < cfg.maxQueries) {ls : List Label}
    {s : State} (hsteps : AllSteps step Serial (.new cfg) ls)
    (hrun : run step (.new cfg) ls = some s) : s.running ≤ cfg.maxQueries := by
  have hinv : Accounting (State.new cfg).shared.querySem s ∧
      ∀ n c, s.conns.lookup n = some c → c.number QueryPc.running ≤ 1 := by
    refine run_invariant (I := fun s => Accounting (State.new cfg).shared.querySem s ∧
      ∀ n c, s.conns.lookup n = some c → c.number QueryPc.running ≤ 1) ?_ ?_ hsteps hrun
    · rintro s l s' ⟨hacc, hone⟩ hserial hstep
      have hchange := step_change hstep
      refine ⟨hacc.change hchange, ?_⟩
      cases hchange with
      | startConn _ =>
        intro n c hl
        rw [SyncMap.lookup_insert_eq_ite] at hl
        split_ifs at hl with hn
        · rw [← Option.some.inj hl]
          decide
        · exact hone n c hl
      | @conn n₀ l c₀ c' _ hl₀ hmove =>
        intro n c hl
        rw [SyncMap.lookup_insert_eq_ite] at hl
        split_ifs at hl with hn
        · rw [← Option.some.inj hl]
          refine connStep_serial (hacc.conns n₀ c₀ hl₀).2.numbering (hone n₀ c₀ hl₀) ?_ hmove
          rintro ok rfl hawaits
          exact hserial c₀ hl₀ hawaits
        · exact hone n c hl
      | _ => exact hone
    · exact ⟨Accounting.new cfg, by simp [State.new]⟩
  obtain ⟨hacc, hone⟩ := hinv
  obtain ⟨htokens, hle⟩ := hacc.balanced.tokens cfg.maxQueries.toNat (if_pos hmax)
  have hrunning : s.running ≤ 1 * s.share.tokens := by
    apply running_le_tokens (le_refl 1)
    intro n c hl
    have hbound := (hacc.conns n c hl).2.running_le
    have hle := hone n c hl
    cases htoken : c.reader.holdsToken with
    | true =>
      rw [one_true]
      omega
    | false =>
      rw [htoken, one_false] at hbound
      rw [one_false]
      omega
  omega

/-- Two connections with a query each in a budget of two. -/
theorem budget_of_serial_twoConns :
    ∃ s ∈ run step (.new (budgetConfig 2)) (acceptConn ++ acceptConn ++ readQuery 0 ++ readQuery 1),
      s.running = 2 ∧ s.running ≤ 2 := by
  have hrun : AllSteps step Serial (.new (budgetConfig 2))
        (acceptConn ++ acceptConn ++ readQuery 0 ++ readQuery 1) ∧
      ∃ s ∈ run step (.new (budgetConfig 2))
        (acceptConn ++ acceptConn ++ readQuery 0 ++ readQuery 1), s.running = 2 := by
    decide +kernel
  obtain ⟨hsteps, s, hs, htwo⟩ := hrun
  exact ⟨s, hs, htwo, budget_of_serial (by decide) hsteps hs⟩

/-- A connection with two queries in its pipeline has two in process in a budget of
one. -/
theorem two_for_one_token :
    ∃ s ∈ run step (.new (budgetConfig 1)) (acceptConn ++ readQuery 0 ++ readQuery 0),
      s.shared.tokens = 1 ∧ s.running = 2 ∧ ¬ s.running ≤ (budgetConfig 1).maxQueries := by
  decide +kernel

end Ydn64.Dns64.Server
