import Mathlib.Algebra.Order.Ring.Int
import Mathlib.Data.List.Basic

/-!
# Channels and gates

A `Chan` is a buffered channel, first in, first out, with the bound on what is waiting.
Both operations are the forms that do not block: `trySend` is the send of a `select`
with a `default` branch, and `recv` answers `none` on an empty channel.
`sent_of_recv` and `sent_of_trySend` are the two rules by which what has gone through a
channel is accounted for.

A gate lets one caller pass in an interval.  A shared number holds the time of the last
pass, and zero before the first.  A caller reads a clock, loads the number, gives up if
the last pass is less than an interval before its clock, and otherwise tries to replace
the number it has loaded by its clock with a compare-and-swap.  Any number of callers do
this at the same time, and their clocks need not agree.

`Ticket` is what a caller has after its check, and `Gate` carries the times of the
passes with the fact that they are an interval apart.  A swap needs a ticket, so no
interleaving of callers can build a gate without that fact.  `Gate.passes_le` bounds the
number of passes in a window.
-/

namespace Ydn64.Lib

/-! ## Channels -/

/-- What is waiting in a channel of capacity `cap`, the oldest first. -/
structure Chan (α : Type) (cap : Nat) where
  items : List α
  bounded : items.length ≤ cap

namespace Chan

variable {α : Type} {cap : Nat}

/-- `make(chan α, cap)`. -/
def empty : Chan α cap := ⟨[], Nat.zero_le cap⟩

/-- A send that gives up on a full channel. -/
def trySend (c : Chan α cap) (a : α) : Option (Chan α cap) :=
  if h : c.items.length < cap then
    some ⟨c.items ++ [a], by rw [List.length_append]; exact h⟩
  else none

/-- A receive that gives up on an empty channel. -/
def recv (c : Chan α cap) : Option (α × Chan α cap) :=
  c.items.head?.map fun a =>
    (a, ⟨c.items.tail, by rw [List.length_tail]; exact Nat.le_trans (Nat.sub_le _ _) c.bounded⟩)

@[simp] theorem empty_items : (empty : Chan α cap).items = [] := rfl

variable {c c' : Chan α cap} {a : α}

theorem trySend_eq_some (h : c.trySend a = some c') : c'.items = c.items ++ [a] := by
  unfold trySend at h
  split_ifs at h
  obtain rfl := Option.some.inj h
  rfl

theorem recv_eq_some (h : c.recv = some (a, c')) : c.items = a :: c'.items := by
  obtain ⟨x, hx, hpair⟩ := Option.map_eq_some_iff.1 h
  obtain ⟨rfl, rfl⟩ := Prod.mk.inj hpair
  exact (List.cons_head?_tail hx).symm

variable {sent received : List α}

theorem sent_of_trySend (hsent : sent = received ++ c.items) (h : c.trySend a = some c') :
    sent ++ [a] = received ++ c'.items := by
  rw [hsent, trySend_eq_some h, List.append_assoc]

theorem sent_of_recv (hsent : sent = received ++ c.items) (h : c.recv = some (a, c')) :
    sent = (received ++ [a]) ++ c'.items := by
  rw [hsent, recv_eq_some h, List.append_assoc, List.singleton_append]

end Chan

/-! ## Gates -/

/-- The caller with clock `now` gives up, having loaded `last`. -/
def Early (interval : Nat) (last now : Int) : Prop := last ≠ 0 ∧ now - last < interval

instance (interval : Nat) (last now : Int) : Decidable (Early interval last now) :=
  inferInstanceAs (Decidable (_ ∧ _))

/-- A caller that has passed the check. -/
structure Ticket (interval : Nat) where
  last : Int
  now : Int
  now_pos : 0 < now
  due : ¬ Early interval last now
  deriving DecidableEq

/-- Two passes, an interval apart. -/
def Spaced (interval : Nat) (newer older : Int) : Prop := older + interval ≤ newer

/-- The times of the passes, the last one first. -/
structure Gate (interval : Nat) where
  passes : List Int
  pos : ∀ t ∈ passes, 0 < t
  spaced : passes.Pairwise (Spaced interval)

variable {interval : Nat}

/-- The check: a ticket for a caller that does not have to give up. -/
def Ticket.check (interval : Nat) (last now : Int) : Option (Ticket interval) :=
  if h : 0 < now ∧ ¬ Early interval last now then some ⟨last, now, h.1, h.2⟩ else none

theorem Ticket.check_eq_some {last now : Int} {ticket : Ticket interval}
    (h : Ticket.check interval last now = some ticket) : ticket.last = last := by
  unfold check at h
  split_ifs at h
  obtain rfl := Option.some.inj h
  rfl

/-- Who is turned away has seen an earlier pass. -/
theorem Ticket.check_eq_none {last now : Int} (hnow : 0 < now)
    (h : Ticket.check interval last now = none) : last ≠ 0 := by
  unfold check at h
  split_ifs at h with hdue
  exact fun hlast => hdue ⟨hnow, fun hearly => hearly.1 hlast⟩

namespace Gate

/-- A gate that nobody has passed. -/
def new : Gate interval := ⟨[], fun _ h => absurd h List.not_mem_nil, List.Pairwise.nil⟩

/-- The shared number. -/
def last (g : Gate interval) : Int := g.passes.headD 0

theorem last_eq_zero {g : Gate interval} (h : g.passes = []) : g.last = 0 := by
  rw [last, h]
  rfl

/-- Who may pass after the last pass is an interval behind every pass. -/
theorem le_of_due (g : Gate interval) {now : Int} (h : ¬ Early interval g.last now) :
    ∀ t ∈ g.passes, Spaced interval now t := by
  cases hpasses : g.passes with
  | nil => exact fun t ht => absurd ht List.not_mem_nil
  | cons newest rest =>
    have hlast : g.last = newest := by rw [last, hpasses]; rfl
    have hpos : 0 < newest := g.pos newest (by rw [hpasses]; exact List.mem_cons_self)
    have hspaced := g.spaced
    rw [hpasses, List.pairwise_cons] at hspaced
    have hnewest : Spaced interval now newest :=
      not_lt.1 fun hlt => h ⟨by omega, by omega⟩
    intro t ht
    rcases List.mem_cons.1 ht with rfl | hrest
    · exact hnewest
    · have holder := hspaced.1 t hrest
      unfold Spaced at hnewest holder ⊢
      omega

/-- `CompareAndSwap(last, now)`. -/
def compareAndSwap (g : Gate interval) (ticket : Ticket interval) : Option (Gate interval) :=
  if h : g.last = ticket.last then
    some {
      passes := ticket.now :: g.passes
      pos := List.forall_mem_cons.2 ⟨ticket.now_pos, g.pos⟩
      spaced := List.pairwise_cons.2 ⟨g.le_of_due (h ▸ ticket.due), g.spaced⟩ }
  else none

theorem compareAndSwap_eq_some {g g' : Gate interval} {ticket : Ticket interval}
    (h : g.compareAndSwap ticket = some g') : g'.passes = ticket.now :: g.passes := by
  unfold compareAndSwap at h
  split_ifs at h
  obtain rfl := Option.some.inj h
  rfl

theorem compareAndSwap_eq_none {g : Gate interval} {ticket : Ticket interval}
    (h : g.compareAndSwap ticket = none) : g.last ≠ ticket.last := by
  unfold compareAndSwap at h
  split_ifs at h with hlast
  exact hlast

/-- Times that are an interval apart fill the range that they lie in. -/
theorem length_mul_le {times : List Int}
    (h : times.Pairwise (Spaced interval)) {a b : Int}
    (hrange : ∀ t ∈ times, a ≤ t ∧ t ≤ b) (hab : a ≤ b + interval) :
    (times.length : Int) * interval ≤ b + interval - a := by
  induction times generalizing b with
  | nil =>
    rw [List.length_nil, Int.natCast_zero, zero_mul]
    omega
  | cons newest rest ih =>
    rw [List.pairwise_cons] at h
    obtain ⟨hlow, hhigh⟩ := hrange newest List.mem_cons_self
    have hrest : ∀ t ∈ rest, a ≤ t ∧ t ≤ newest - interval := fun t ht =>
      ⟨(hrange t (List.mem_cons_of_mem _ ht)).1, le_sub_iff_add_le.2 (h.1 t ht)⟩
    have hlen := ih h.2 hrest (by omega)
    rw [List.length_cons, Nat.cast_succ, add_mul, one_mul]
    omega

/-- In a window of length `T` the passes take up no more than `T` and one interval. -/
theorem passes_le (g : Gate interval) (a T : Int) (hT : 0 ≤ T) :
    ((g.passes.filter fun t => a ≤ t ∧ t ≤ a + T).length : Int) * interval ≤ T + interval := by
  have hrange : ∀ t ∈ g.passes.filter (fun t => a ≤ t ∧ t ≤ a + T), a ≤ t ∧ t ≤ a + T :=
    fun t ht => of_decide_eq_true (List.mem_filter.1 ht).2
  have hlen := length_mul_le (g.spaced.filter _) hrange (by omega)
  omega

end Gate

end Ydn64.Lib
