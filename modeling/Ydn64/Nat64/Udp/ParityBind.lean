import Ydn64.Lib.Run
import Ydn64.Nat64.Udp.Setup

/-!
# The socket of a new BIB entry

`listenBIBSocket` of `src/nat64/udp.go` as a function of what its calls of
`net.ListenUDP` answer, with the sockets that it leaves open as part of the
result.  A socket is named by the number of the bind that opened it.

* `listenLoop_ends`: the loop makes some binds whose ports have the wrong parity,
  and ends with the eighth of them, with an error, or with a match.
* `socketHygiene_iff`: the socket that the function returns is the only one that
  it leaves open unless the match comes after a mismatch: a match is returned at
  once, and the candidate of the round before is closed by nobody.
* `bibListen_refines`: the steps of `threadStep` from `bibListen` on, taken without
  others in between, leave the sockets open that the function leaves open.
-/

namespace Ydn64.Nat64.Udp

open Ydn64.GoStd Ydn64.Config Ydn64.Lib

/-! ## The function -/

/-- The answers of `net.ListenUDP` in the order of the calls: an error, or the
port of a new socket. -/
abbrev Binds := Nat → Except Errno UInt16

/-- What the function returns, and the sockets that it has opened and not
closed.  A socket that is `nil` is `none`. -/
structure Listened where
  result : Except Errno (Option Nat)
  opened : Finset Nat

/-- `fallback.Close()`, if there is a fallback. -/
def closeHeld (fallback : Option Nat) (opened : Finset Nat) : Finset Nat :=
  fallback.elim opened opened.erase

/-- The loop from bind `attempt` on, with `left` attempts left. -/
def listenLoop (want : UInt16) (binds : Binds) : Nat → Nat → Option Nat → Finset Nat → Listened
  | 0, _, fallback, opened => ⟨.ok fallback, opened⟩
  | left + 1, attempt, fallback, opened =>
    match binds attempt with
    | .error err =>
      match fallback with
      | some sock => ⟨.ok (some sock), opened⟩
      | none => ⟨.error err, opened⟩
    | .ok port =>
      if port &&& 1 = want then ⟨.ok (some attempt), insert attempt opened⟩
      else listenLoop want binds left (attempt + 1) (some attempt)
        (closeHeld fallback (insert attempt opened))

/-- `listenBIBSocket`. -/
def listenBIBSocket (portParity : PortParityMode) (clientPort : UInt16) (binds : Binds) :
    Listened :=
  if portParity ≠ .preserve then
    match binds 0 with
    | .error err => ⟨.error err, ∅⟩
    | .ok _ => ⟨.ok (some 0), {0}⟩
  else listenLoop (clientPort &&& 1) binds bibParityAttempts 0 none ∅

/-! ## How the loop ends -/

/-- The candidate that the loop holds after `n` mismatches from bind `attempt` on. -/
def heldAfter (fallback : Option Nat) (attempt n : Nat) : Option Nat :=
  if n = 0 then fallback else some (attempt + n - 1)

/-- How the loop ends after `n` mismatches: its attempts are used up, a bind
fails, or a bind has the wanted parity. -/
inductive LoopEnds (want : UInt16) (binds : Binds) (attempt left : Nat) (held : Option Nat)
    (n : Nat) : Listened → Prop
  | exhausted (hn : n = left) : LoopEnds want binds attempt left held n ⟨.ok held, held.toFinset⟩
  | failed {err : Errno} (hn : n < left) (herr : binds (attempt + n) = .error err) :
      LoopEnds want binds attempt left held n
        ⟨held.elim (.error err) fun sock => .ok (some sock), held.toFinset⟩
  | matched {port : UInt16} (hn : n < left) (hport : binds (attempt + n) = .ok port)
      (hwant : port &&& 1 = want) :
      LoopEnds want binds attempt left held n
        ⟨.ok (some (attempt + n)), insert (attempt + n) held.toFinset⟩

theorem closeHeld_insert {fallback : Option Nat} {attempt : Nat} (h : ∀ b ∈ fallback, b < attempt) :
    closeHeld fallback (insert attempt fallback.toFinset) = (some attempt).toFinset := by
  cases fallback with
  | none => rfl
  | some b =>
    have hne : attempt ≠ b := by
      have := h b rfl
      omega
    show (insert attempt {b} : Finset Nat).erase b = {attempt}
    rw [Finset.erase_insert_of_ne hne, Finset.erase_singleton]
    rfl

theorem listenLoop_ends (want : UInt16) (binds : Binds) (left : Nat) {attempt : Nat}
    {fallback : Option Nat} (h : ∀ b ∈ fallback, b < attempt) :
    ∃ n, (∀ j < n, ∃ port, binds (attempt + j) = .ok port ∧ port &&& 1 ≠ want) ∧
      LoopEnds want binds attempt left (heldAfter fallback attempt n) n
        (listenLoop want binds left attempt fallback fallback.toFinset) := by
  induction left generalizing attempt fallback with
  | zero => exact ⟨0, by simp, .exhausted rfl⟩
  | succ left ih =>
    rw [listenLoop]
    cases hbind : binds attempt with
    | error err =>
      refine ⟨0, by simp, ?_⟩
      cases fallback with
      | none => exact .failed left.succ_pos hbind
      | some sock => exact .failed left.succ_pos hbind
    | ok port =>
      dsimp only
      split_ifs with hparity
      · exact ⟨0, by simp, .matched left.succ_pos hbind hparity⟩
      · rw [closeHeld_insert h]
        have hprev : ∀ b ∈ some attempt, b < attempt + 1 := by simp
        obtain ⟨n, hmis, hends⟩ := ih hprev
        have hheld : heldAfter (some attempt) (attempt + 1) n
            = heldAfter fallback attempt (n + 1) := by
          unfold heldAfter
          rw [if_neg (Nat.succ_ne_zero n)]
          split_ifs with hn
          · rw [hn]
            rfl
          · congr 1
            omega
        rw [hheld] at hends
        refine ⟨n + 1, fun j hj => ?_, ?_⟩
        · cases j with
          | zero => exact ⟨port, hbind, hparity⟩
          | succ j =>
            rw [show attempt + (j + 1) = attempt + 1 + j by omega]
            exact hmis j (by omega)
        · have hadd : attempt + 1 + n = attempt + (n + 1) := by omega
          generalize listenLoop want binds left (attempt + 1) (some attempt)
            (some attempt).toFinset = out at hends ⊢
          cases hends with
          | exhausted hn => exact .exhausted (by omega)
          | failed hn herr => exact .failed (by omega) (hadd ▸ herr)
          | matched hn hport hwant =>
            rw [hadd]
            exact .matched (by omega) (hadd ▸ hport) hwant

theorem listenBIBSocket_ends (clientPort : UInt16) (binds : Binds) :
    ∃ n, (∀ j < n, ∃ port, binds j = .ok port ∧ port &&& 1 ≠ clientPort &&& 1) ∧
      LoopEnds (clientPort &&& 1) binds 0 bibParityAttempts (heldAfter none 0 n) n
        (listenBIBSocket .preserve clientPort binds) := by
  have hnone : ∀ b ∈ (none : Option Nat), b < 0 := by simp
  obtain ⟨n, hmis, hends⟩ := listenLoop_ends (clientPort &&& 1) binds bibParityAttempts hnone
  refine ⟨n, fun j hj => ?_, hends⟩
  rw [← Nat.zero_add j]
  exact hmis j hj

/-! ## What is left open -/

/-- Bind `k` is one of the first eight, it gives a socket with this port, and no
bind before it fails. -/
structure BoundAt (binds : Binds) (k : Nat) (port : UInt16) : Prop where
  attempt : k < bibParityAttempts
  bound : binds k = .ok port
  before : ∀ j < k, ∃ p, binds j = .ok p

/-- The socket that is returned is the only one that is open, and with an error
none is. -/
def Listened.OnlyResultOpen (out : Listened) : Prop :=
  match out.result with
  | .ok c => ∃ sock, c = some sock ∧ out.opened = {sock}
  | .error _ => out.opened = ∅

/-- The function leaves nothing open but what it returns; in preserve mode it
returns a socket with the client's parity if one of the binds gives one, and the
last socket otherwise. -/
structure SocketHygiene (portParity : PortParityMode) (clientPort : UInt16) (binds : Binds) :
    Prop where
  opened : (listenBIBSocket portParity clientPort binds).OnlyResultOpen
  parity : portParity = .preserve → ∀ k port, BoundAt binds k port →
    port &&& 1 = clientPort &&& 1 →
    ∃ sock p, (listenBIBSocket portParity clientPort binds).result = .ok (some sock) ∧
      BoundAt binds sock p ∧ p &&& 1 = clientPort &&& 1
  last : portParity = .preserve →
    (∀ k port, BoundAt binds k port → port &&& 1 ≠ clientPort &&& 1) →
    ∀ k port, BoundAt binds k port → (∀ p, ¬ BoundAt binds (k + 1) p) →
      (listenBIBSocket portParity clientPort binds).result = .ok (some k)

/-- In preserve mode, if one of the binds gives a socket with the client's
parity, the first one does. -/
def FirstBindMatches (portParity : PortParityMode) (clientPort : UInt16) (binds : Binds) : Prop :=
  portParity = .preserve → ∀ k port, BoundAt binds k port → port &&& 1 = clientPort &&& 1 →
    ∃ p, binds 0 = .ok p ∧ p &&& 1 = clientPort &&& 1

section
variable {clientPort : UInt16} {binds : Binds} {n : Nat}

/-- After `n` mismatches every bind up to there has given a socket. -/
theorem boundAt_of_lt (hmis : ∀ j < n, ∃ port, binds j = .ok port ∧ port &&& 1 ≠ clientPort &&& 1)
    {k : Nat} (hk : k < bibParityAttempts) (hle : k ≤ n) {port : UInt16}
    (hport : binds k = .ok port) : BoundAt binds k port := by
  refine ⟨hk, hport, fun j hj => ?_⟩
  obtain ⟨p, hp, -⟩ := hmis j (by omega)
  exact ⟨p, hp⟩

theorem boundAt_lt_of_end
    (hend : n = bibParityAttempts ∨ n < bibParityAttempts ∧ ∃ err, binds n = .error err)
    {k : Nat} {port : UInt16} (hk : BoundAt binds k port) : k < n := by
  rcases hend with rfl | ⟨-, err, herr⟩
  · exact hk.attempt
  · by_contra hge
    rcases Nat.lt_or_eq_of_le (Nat.le_of_not_lt hge) with hlt | rfl
    · obtain ⟨p, hp⟩ := hk.before n hlt
      rw [herr] at hp
      cases hp
    · have hbound := hk.bound
      rw [herr] at hbound
      cases hbound

/-- A loop that ends without a match leaves the last candidate open, and returns
it; without a candidate it returns the error. -/
theorem socketHygiene_of_unmatched
    (hmis : ∀ j < n, ∃ port, binds j = .ok port ∧ port &&& 1 ≠ clientPort &&& 1)
    (hend : n = bibParityAttempts ∨ n < bibParityAttempts ∧ ∃ err, binds n = .error err)
    (hout : (∃ err, n = 0 ∧ listenBIBSocket .preserve clientPort binds = ⟨.error err, ∅⟩) ∨
      ∃ k, n = k + 1 ∧ listenBIBSocket .preserve clientPort binds = ⟨.ok (some k), {k}⟩) :
    SocketHygiene .preserve clientPort binds ∧ FirstBindMatches .preserve clientPort binds := by
  have hmismatch : ∀ k port, BoundAt binds k port → port &&& 1 ≠ clientPort &&& 1 := by
    intro k port hk
    obtain ⟨p, hp, hne⟩ := hmis k (boundAt_lt_of_end hend hk)
    rw [hk.bound, Except.ok.injEq] at hp
    rw [hp]
    exact hne
  refine ⟨⟨?_, fun _ k port hk hport => ?_, fun _ _ k port hk hlast => ?_⟩,
    fun _ k port hk hport => absurd hport (hmismatch k port hk)⟩
  · rcases hout with ⟨err, -, hout⟩ | ⟨k, -, hout⟩
    · rw [hout]
      exact rfl
    · rw [hout]
      exact ⟨k, rfl, rfl⟩
  · exact absurd hport (hmismatch k port hk)
  · have hlt := boundAt_lt_of_end hend hk
    rcases hout with ⟨err, rfl, -⟩ | ⟨last, rfl, hout⟩
    · exact absurd hlt (Nat.not_lt_zero k)
    · -- A candidate before the last one is followed by another.
      rcases Nat.lt_or_ge k last with hk' | hk'
      · obtain ⟨p, hp, -⟩ := hmis (k + 1) (by omega)
        exact absurd (boundAt_of_lt hmis (by omega) (by omega) hp) (hlast p)
      · rw [hout, show k = last by omega]

/-- A match leaves the candidate of the mismatch before it open, if there was
one. -/
theorem socketHygiene_matched_iff
    (hmis : ∀ j < n, ∃ port, binds j = .ok port ∧ port &&& 1 ≠ clientPort &&& 1)
    (hn : n < bibParityAttempts) {port : UInt16} (hport : binds n = .ok port)
    (hwant : port &&& 1 = clientPort &&& 1)
    (hout : listenBIBSocket .preserve clientPort binds =
      ⟨.ok (some n), insert n (heldAfter none 0 n).toFinset⟩) :
    SocketHygiene .preserve clientPort binds ↔
      FirstBindMatches .preserve clientPort binds := by
  have hbound := boundAt_of_lt hmis hn le_rfl hport
  cases n with
  | zero =>
    refine iff_of_true ⟨?_, fun _ k p hk hp => ?_, fun _ hnone => ?_⟩
      fun _ _ _ _ _ => ⟨port, hport, hwant⟩
    · rw [hout]
      exact ⟨0, rfl, rfl⟩
    · exact ⟨0, port, by rw [hout], hbound, hwant⟩
    · exact absurd hwant (hnone 0 port hbound)
  | succ k =>
    refine iff_of_false (fun h => ?_) fun h => ?_
    · have hopened := h.opened
      rw [hout] at hopened
      obtain ⟨sock, hsock, honly⟩ := hopened
      have hmem : k ∈ ({sock} : Finset Nat) := by
        rw [← honly]
        simp [heldAfter]
      rw [Finset.mem_singleton] at hmem
      have := Option.some.inj hsock
      omega
    · obtain ⟨p, hp, hparity⟩ := h rfl (k + 1) port hbound hwant
      obtain ⟨p', hp', hne⟩ := hmis 0 k.succ_pos
      rw [hp, Except.ok.injEq] at hp'
      rw [hp'] at hparity
      exact absurd hparity hne

theorem onlyResultOpen_of_ne_preserve {portParity : PortParityMode}
    (hmode : portParity ≠ .preserve) :
    (listenBIBSocket portParity clientPort binds).OnlyResultOpen := by
  unfold listenBIBSocket
  rw [if_pos hmode]
  cases binds 0 with
  | error err => exact rfl
  | ok port => exact ⟨0, rfl, rfl⟩

end

/-- For every mode, client port and answers of the binds, the function leaves no
socket behind exactly if in preserve mode no match comes after a mismatch. -/
theorem socketHygiene_iff (portParity : PortParityMode) (clientPort : UInt16) (binds : Binds) :
    SocketHygiene portParity clientPort binds ↔
      FirstBindMatches portParity clientPort binds := by
  by_cases hmode : portParity = .preserve
  · subst hmode
    obtain ⟨n, hmis, hends⟩ := listenBIBSocket_ends clientPort binds
    generalize hout : listenBIBSocket .preserve clientPort binds = out at hends
    cases hends with
    | exhausted hn =>
      have hboth := socketHygiene_of_unmatched hmis (.inl hn)
        (.inr ⟨7, hn, by rw [hout, hn]; rfl⟩)
      exact iff_of_true hboth.1 hboth.2
    | @failed err hn herr =>
      rw [Nat.zero_add] at herr
      have hresult : (∃ err, n = 0 ∧
            listenBIBSocket .preserve clientPort binds = ⟨.error err, ∅⟩) ∨
          ∃ k, n = k + 1 ∧
            listenBIBSocket .preserve clientPort binds = ⟨.ok (some k), {k}⟩ := by
        cases n with
        | zero => exact .inl ⟨err, rfl, hout⟩
        | succ k =>
          refine .inr ⟨k, rfl, hout.trans ?_⟩
          simp [heldAfter]
      have hboth := socketHygiene_of_unmatched hmis (.inr ⟨hn, err, herr⟩) hresult
      exact iff_of_true hboth.1 hboth.2
    | matched hn hport hwant =>
      rw [Nat.zero_add] at hport hout
      exact socketHygiene_matched_iff hmis hn hport hwant hout
  · refine iff_of_true ⟨onlyResultOpen_of_ne_preserve hmode, fun h => absurd h hmode,
      fun h => absurd h hmode⟩ fun h => absurd h hmode

/-- The ports 40001, 40002, 40003, ... in the order of the binds. -/
def portsFrom40001 : Binds := fun k => .ok (40001 + UInt16.ofNat k)

/-- For a client with an even port the function returns the second socket and
leaves the first one open as well. -/
theorem late_match_leaks :
    (listenBIBSocket .preserve 1000 portsFrom40001).result = .ok (some 1) ∧
      (listenBIBSocket .preserve 1000 portsFrom40001).opened = {0, 1} ∧
      ¬ SocketHygiene .preserve 1000 portsFrom40001 := by
  have hresult : (listenBIBSocket .preserve 1000 portsFrom40001).result = .ok (some 1) := by decide
  have hopened : (listenBIBSocket .preserve 1000 portsFrom40001).opened = {0, 1} := by decide
  refine ⟨hresult, hopened, fun h => ?_⟩
  have honly := h.opened
  unfold Listened.OnlyResultOpen at honly
  rw [hresult, hopened] at honly
  obtain ⟨sock, -, honly⟩ := honly
  have hcard := congrArg Finset.card honly
  simp at hcard

/-! ## The steps of the thread -/

/-- A thread takes a step and goes on. -/
def aloneStep (s : Memory × Pc) (ev : Event) : Option (Memory × Pc) :=
  (threadStep s.1 s.2 ev).bind fun r => r.2.map fun pc => (r.1, pc)

/-- The memory after some binds of a call that began with the memory `m₀`. -/
structure AfterBinds (m₀ : Memory) (bound : Nat) (opened : Finset Nat) (m : Memory) : Prop where
  nextRef : m.nextRef = m₀.nextRef + bound
  sockets : ∀ k < bound, m.sockOpen (m₀.nextRef + k) = decide (k ∈ opened)
  others : ∀ x < m₀.nextRef, m.sockOpen x = m₀.sockOpen x

/-- The thread stands where `getOrCreateBIB` goes on with the result of the call.
The leftover is the other socket that is open. -/
inductive ListenReturns (m₀ : Memory) (flow : UdpFlow) (ep : EpRef) : Listened → Pc → Prop
  | socket {k : Nat} {opened : Finset Nat} {leftover : Option SockRef}
      (h : ∀ x, leftover = some x ↔ ∃ j ∈ opened, j ≠ k ∧ x = m₀.nextRef + j) :
      ListenReturns m₀ flow ep ⟨.ok (some k), opened⟩
        (.bibTake flow ep (m₀.nextRef + k) leftover)
  | error {err : Errno} :
      ListenReturns m₀ flow ep ⟨.error err, ∅⟩ (.bibError flow ep err)

theorem AfterBinds.newSock {m₀ m : Memory} {bound : Nat} {opened : Finset Nat}
    (h : AfterBinds m₀ bound opened m) (sock : Socket) :
    AfterBinds m₀ (bound + 1) (insert bound opened) (m.newSock sock) where
  nextRef := by
    show m.nextRef + 1 = _
    rw [h.nextRef, Nat.add_assoc]
  sockets k hk := by
    show Function.update m.sockOpen m.nextRef true (m₀.nextRef + k) = _
    rw [h.nextRef]
    by_cases hlast : k = bound
    · subst hlast
      simp
    · rw [Function.update_of_ne (fun he => hlast (Nat.add_left_cancel he)),
        h.sockets k (by omega)]
      simp [hlast]
  others x hx := by
    show Function.update m.sockOpen m.nextRef true x = _
    rw [h.nextRef, Function.update_of_ne (Nat.ne_of_lt (by omega)), h.others x hx]

theorem AfterBinds.closeFallback {m₀ m : Memory} {bound : Nat} {opened : Finset Nat}
    (h : AfterBinds m₀ bound opened m) (fallback : Option Nat) :
    AfterBinds m₀ bound (closeHeld fallback opened)
      (m.closeFallback (fallback.map (m₀.nextRef + ·))) := by
  cases fallback with
  | none => exact ⟨h.nextRef, h.sockets, h.others⟩
  | some b =>
    refine ⟨h.nextRef, fun k hk => ?_, fun x hx => ?_⟩
    · show Function.update m.sockOpen (m₀.nextRef + b) false (m₀.nextRef + k) =
        decide (k ∈ opened.erase b)
      by_cases hb : k = b
      · subst hb
        simp
      · rw [Function.update_of_ne (fun he => hb (Nat.add_left_cancel he)), h.sockets k hk]
        simp [hb]
    · show Function.update m.sockOpen (m₀.nextRef + b) false x = _
      rw [Function.update_of_ne (Nat.ne_of_lt (by omega)), h.others x hx]

/-- The answers of the binds from `attempt` on. -/
def bindEvents (binds : Binds) (attempt count : Nat) : List Event :=
  (List.range' attempt count).map fun k => .bound (binds k)

/-- Where the thread stands with `left` attempts left. -/
inductive AtLoop (m₀ : Memory) (flow : UdpFlow) (ep : EpRef) (bindIP : Addr4) (want : UInt16) :
    Nat → Nat → Option Nat → Pc → Prop
  | bind {left attempt : Nat} {fallback : Option Nat}
      (h : attempt + (left + 1) = bibParityAttempts) :
      AtLoop m₀ flow ep bindIP want (left + 1) attempt fallback
        (.bibBind flow ep bindIP (some want) attempt (fallback.map (m₀.nextRef + ·)))
  | take {attempt sock : Nat} :
      AtLoop m₀ flow ep bindIP want 0 attempt (some sock)
        (.bibTake flow ep (m₀.nextRef + sock) none)

theorem run_bindEvents (binds : Binds) (s : Memory × Pc) (attempt count : Nat) :
    run aloneStep s (bindEvents binds attempt (count + 1)) =
      (aloneStep s (.bound (binds attempt))).bind fun s' =>
        run aloneStep s' (bindEvents binds (attempt + 1) count) := rfl

section
variable {m₀ m : Memory} {want : UInt16} {left attempt : Nat} {fallback : Option Nat}
  (flow : UdpFlow) (ep : EpRef) (bindIP : Addr4)

theorem bindOk_matched (h : AfterBinds m₀ attempt fallback.toFinset m)
    (hfb : ∀ b ∈ fallback, b < attempt) {port : UInt16} (hparity : port &&& 1 = want) :
    AfterBinds m₀ (attempt + 1) (insert attempt fallback.toFinset)
        (bindOk m flow ep bindIP (some want) attempt (fallback.map (m₀.nextRef + ·)) port).1 ∧
      ListenReturns m₀ flow ep ⟨.ok (some attempt), insert attempt fallback.toFinset⟩
        (bindOk m flow ep bindIP (some want) attempt (fallback.map (m₀.nextRef + ·)) port).2 := by
  have hok : parityOk (some want) port = true := by simp [parityOk, hparity]
  unfold bindOk
  rw [if_pos hok, h.nextRef]
  refine ⟨h.newSock _, .socket fun x => ?_⟩
  cases fallback with
  | none => simp
  | some b =>
    have hne : b ≠ attempt := by
      have := hfb b rfl
      omega
    simp [hne.symm, eq_comm]

theorem bindOk_mismatched (h : AfterBinds m₀ attempt fallback.toFinset m)
    (hfb : ∀ b ∈ fallback, b < attempt) {port : UInt16} (hparity : ¬ port &&& 1 = want)
    (hleft : attempt + (left + 1) = bibParityAttempts) :
    AfterBinds m₀ (attempt + 1) (some attempt).toFinset
        (bindOk m flow ep bindIP (some want) attempt (fallback.map (m₀.nextRef + ·)) port).1 ∧
      AtLoop m₀ flow ep bindIP want left (attempt + 1) (some attempt)
        (bindOk m flow ep bindIP (some want) attempt (fallback.map (m₀.nextRef + ·)) port).2 := by
  have hbad : ¬ parityOk (some want) port = true := by simpa [parityOk] using hparity
  unfold bindOk
  rw [if_neg hbad, h.nextRef, ← closeHeld_insert hfb]
  refine ⟨(h.newSock _).closeFallback fallback, ?_⟩
  cases left with
  | zero =>
    dsimp only
    rw [if_neg (by omega)]
    exact .take
  | succ left =>
    dsimp only
    rw [if_pos (by omega)]
    exact .bind (by omega)

end

/-- The loop, as the thread goes through it. -/
theorem bibBind_refines {m₀ : Memory} {flow : UdpFlow} {ep : EpRef} {bindIP : Addr4}
    {want : UInt16} (binds : Binds) {left attempt : Nat} {fallback : Option Nat} {m : Memory}
    {pc : Pc} (hat : AtLoop m₀ flow ep bindIP want left attempt fallback pc)
    (hfb : ∀ b ∈ fallback, b < attempt) (h : AfterBinds m₀ attempt fallback.toFinset m) :
    ∃ count bound m' pc',
      run aloneStep (m, pc) (bindEvents binds attempt count) = some (m', pc') ∧
      AfterBinds m₀ bound
        (listenLoop want binds left attempt fallback fallback.toFinset).opened m' ∧
      ListenReturns m₀ flow ep
        (listenLoop want binds left attempt fallback fallback.toFinset) pc' := by
  induction left generalizing attempt fallback m pc with
  | zero =>
    cases hat with
    | @take _ sock =>
      refine ⟨0, attempt, m, _, rfl, h, .socket fun x => ?_⟩
      simp
  | succ left ih =>
    cases hat with
    | bind hleft =>
      rw [listenLoop]
      cases hbind : binds attempt with
      | error err =>
        refine ⟨1, attempt, m, bindErr flow ep (fallback.map (m₀.nextRef + ·)) err, ?_, ?_⟩
        · rw [run_bindEvents, hbind]
          rfl
        · cases fallback with
          | none => exact ⟨h, .error⟩
          | some b =>
            refine ⟨h, .socket fun x => ?_⟩
            simp
      | ok port =>
        dsimp only
        split_ifs with hparity
        · obtain ⟨hafter, hreturns⟩ := bindOk_matched flow ep bindIP h hfb hparity
          refine ⟨1, attempt + 1, _, _, ?_, hafter, hreturns⟩
          rw [run_bindEvents, hbind]
          rfl
        · obtain ⟨hafter, hat⟩ := bindOk_mismatched flow ep bindIP h hfb hparity hleft
          rw [closeHeld_insert hfb]
          obtain ⟨count, bound, m', pc', hrun, hopened, hreturns⟩ := ih hat (by simp) hafter
          refine ⟨count + 1, bound, m', pc', ?_, hopened, hreturns⟩
          rw [run_bindEvents, hbind]
          exact hrun

/-- From `bibListen` on, the steps of a thread with no step of another goroutine
in between open and close the sockets that `listenBIBSocket` does, and go on with
its result. -/
theorem bibListen_refines (m₀ : Memory) (flow : UdpFlow) (ep : EpRef) (bindIP : Addr4)
    (binds : Binds) :
    ∃ count bound m pc,
      run aloneStep (m₀, .bibListen flow ep bindIP) (.next :: bindEvents binds 0 count) =
        some (m, pc) ∧
      AfterBinds m₀ bound (listenBIBSocket m₀.service.settings.portParity flow.key.srcPort
        binds).opened m ∧
      ListenReturns m₀ flow ep (listenBIBSocket m₀.service.settings.portParity
        flow.key.srcPort binds) pc := by
  have hstart : AfterBinds m₀ 0 ∅ m₀ :=
    ⟨rfl, fun k hk => absurd hk (Nat.not_lt_zero k), fun _ _ => rfl⟩
  have hlisten : ∀ events, run aloneStep (m₀, .bibListen flow ep bindIP) (.next :: events) =
      run aloneStep (m₀, .bibBind flow ep bindIP
        (if m₀.service.settings.portParity = .preserve then some (flow.key.srcPort &&& 1)
          else none) 0 none) events := fun _ => rfl
  unfold listenBIBSocket
  by_cases hmode : m₀.service.settings.portParity = .preserve
  · rw [if_neg (not_not.mpr hmode)]
    have hat : AtLoop m₀ flow ep bindIP (flow.key.srcPort &&& 1) bibParityAttempts 0 none
        (.bibBind flow ep bindIP (some (flow.key.srcPort &&& 1)) 0 none) := .bind rfl
    obtain ⟨count, bound, m, pc, hrun, hopened, hreturns⟩ :=
      bibBind_refines binds hat (by simp) hstart
    refine ⟨count, bound, m, pc, ?_, hopened, hreturns⟩
    rw [hlisten, if_pos hmode]
    exact hrun
  · rw [if_pos hmode]
    cases hbind : binds 0 with
    | error err =>
      refine ⟨1, 0, m₀, .bibError flow ep err, ?_, hstart, .error⟩
      rw [hlisten, if_neg hmode, run_bindEvents, hbind]
      rfl
    | ok port =>
      refine ⟨1, 1, m₀.newSock ⟨bindIP, port⟩, .bibTake flow ep m₀.nextRef none, ?_,
        hstart.newSock _, .socket fun x => ?_⟩
      · rw [hlisten, if_neg hmode, run_bindEvents, hbind]
        rfl
      · simp

end Ydn64.Nat64.Udp
