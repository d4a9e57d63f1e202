import Mathlib.Logic.Basic

/-!
# Programs over atomic operations

A program is a tree: it returns a value, or it calls an operation and goes on
with the answer.  `Ans op` is the type of the answers to `op`.  What an
operation does is left open, so one program can be run in several worlds: alone
against a state, or beside other programs.

A world is a step function: `step s op l` is the answer to `op` in the state
`s` and the state after it, or `none` where `l` is not a way to carry out `op`.
Everything that the state does not determine stands in the label `l`, as for the
runs of `Ydn64.Lib.Run`.

`Prog.wp step Q p s` says that every run of `p` from `s` ends with a value and a
state that satisfy `Q` (`wp_iff`).  `wp_ret`, `wp_call` and `wp_bind` compute it
along the program, and `wp_mono` weakens `Q`.  A program is a finite tree, so a
run can only stop early at a call that the world refuses; `Prog.Runs step p s`
says that some run of `p` ends, and `Prog.Avoids step bad p s` that no run comes
to a bad operation.  `Prog.Sim R p q` says that the two programs make the same
calls, so that they have the same runs, up to `R` on the values.
`Prog.Insensitive ok p` says that `p` does not tell answers apart that `ok` relates,
and `exec_simulation` that it then runs alike in two worlds that give such answers.
-/

namespace Ydn64.Lib

variable {Op : Type} {Ans : Op → Type} {α β γ S L : Type}

/-- A program that returns an `α`. -/
inductive Prog (Ans : Op → Type) (α : Type) : Type where
  | ret (a : α)
  | call (op : Op) (k : Ans op → Prog Ans α)

namespace Prog

/-- Run a program and go on with its value. -/
def bind : Prog Ans α → (α → Prog Ans β) → Prog Ans β
  | .ret a, f => f a
  | .call op k, f => .call op fun ans => (k ans).bind f

instance : Monad (Prog Ans) where
  pure := .ret
  bind := .bind

/-- Call one operation. -/
def perform (op : Op) : Prog Ans (Ans op) := .call op .ret

@[simp] theorem ret_bind (a : α) (f : α → Prog Ans β) : (Prog.ret a >>= f) = f a := rfl

@[simp] theorem call_bind (op : Op) (k : Ans op → Prog Ans α) (f : α → Prog Ans β) :
    (Prog.call op k >>= f) = .call op fun ans => k ans >>= f := rfl

theorem bind_ret (p : Prog Ans α) : (p >>= Prog.ret) = p := by
  induction p with
  | ret a => rfl
  | call op k ih => exact congrArg (Prog.call op) (funext ih)

/-! ## Runs in a world -/

section World

variable (step : S → (op : Op) → L → Option (Ans op × S))

/-- The value and the last state of the run with the given labels, one for each
call. -/
def exec : Prog Ans α → S → List L → Option (α × S)
  | .ret a, s, [] => some (a, s)
  | .ret _, _, _ :: _ => none
  | .call _ _, _, [] => none
  | .call op k, s, l :: ls => (step s op l).bind fun r => (k r.1).exec r.2 ls

/-- Every run of the program ends in `Q`. -/
def wp (Q : α → S → Prop) : Prog Ans α → S → Prop
  | .ret a, s => Q a s
  | .call op k, s => ∀ l r, step s op l = some r → (k r.1).wp Q r.2

variable {step}

@[simp] theorem wp_ret {Q : α → S → Prop} {a : α} {s : S} : wp step Q (.ret a) s ↔ Q a s :=
  Iff.rfl

theorem wp_call {Q : α → S → Prop} {op : Op} {k : Ans op → Prog Ans α} {s : S} :
    wp step Q (.call op k) s ↔ ∀ l r, step s op l = some r → wp step Q (k r.1) r.2 :=
  Iff.rfl

/-- A run that begins with a call takes its first label for it. -/
theorem exec_ret {a a' : α} {s s' : S} {ls : List L}
    (h : exec step (.ret a) s ls = some (a', s')) : ls = [] ∧ a = a' ∧ s = s' := by
  cases ls with
  | nil => exact ⟨rfl, Prod.mk.inj (Option.some.inj h)⟩
  | cons => cases h

theorem exec_call {op : Op} {k : Ans op → Prog Ans α} {s : S} {ls : List L} {r : α × S}
    (h : exec step (.call op k) s ls = some r) :
    ∃ l ls' r', ls = l :: ls' ∧ step s op l = some r' ∧ exec step (k r'.1) r'.2 ls' = some r := by
  cases ls with
  | nil => cases h
  | cons l ls =>
    obtain ⟨r', hr', hrun⟩ := Option.bind_eq_some_iff.1 h
    exact ⟨l, ls, r', rfl, hr', hrun⟩

theorem wp_bind {Q : β → S → Prop} {p : Prog Ans α} {f : α → Prog Ans β} {s : S} :
    wp step Q (p >>= f) s ↔ wp step (fun a => wp step Q (f a)) p s := by
  induction p generalizing s with
  | ret a => exact Iff.rfl
  | call op k ih =>
    rw [call_bind, wp_call, wp_call]
    exact forall₃_congr fun l r _ => ih r.1

theorem wp_mono {Q Q' : α → S → Prop} {p : Prog Ans α} {s : S} (h : wp step Q p s)
    (hQ : ∀ a s, Q a s → Q' a s) : wp step Q' p s := by
  induction p generalizing s with
  | ret a => exact hQ a s h
  | call op k ih => exact fun l r hr => ih r.1 (h l r hr)

theorem wp_and {Q Q' : α → S → Prop} {p : Prog Ans α} {s : S} (h : wp step Q p s)
    (h' : wp step Q' p s) : wp step (fun a s => Q a s ∧ Q' a s) p s := by
  induction p generalizing s with
  | ret a => exact ⟨h, h'⟩
  | call op k ih => exact fun l r hr => ih r.1 (h l r hr) (h' l r hr)

theorem wp_of_forall {Q : α → S → Prop} (hQ : ∀ a s, Q a s) (p : Prog Ans α) (s : S) :
    wp step Q p s := by
  induction p generalizing s with
  | ret a => exact hQ a s
  | call op k ih => exact fun l r _ => ih r.1 r.2

/-- The two readings of a specification: over the tree and over the runs. -/
theorem wp_iff {Q : α → S → Prop} {p : Prog Ans α} {s : S} :
    wp step Q p s ↔ ∀ ls a s', exec step p s ls = some (a, s') → Q a s' := by
  induction p generalizing s with
  | ret a =>
    rw [wp_ret]
    constructor
    · intro h ls a' s' hrun
      obtain ⟨-, rfl, rfl⟩ := exec_ret hrun
      exact h
    · intro h
      exact h [] a s rfl
  | call op k ih =>
    rw [wp_call]
    constructor
    · intro h ls a s' hrun
      obtain ⟨l, ls', r, rfl, hr, hrun⟩ := exec_call hrun
      exact (ih r.1).1 (h l r hr) ls' a s' hrun
    · intro h l r hr
      refine (ih r.1).2 fun ls a s' hrun => h (l :: ls) a s' ?_
      rw [exec, hr]
      exact hrun

/-- A state invariant of every operation holds after a program. -/
theorem wp_invariant {I : S → Prop}
    (hI : ∀ s op l r, I s → step s op l = some r → I r.2) (p : Prog Ans α) {s : S} (hs : I s) :
    wp step (fun _ s' => I s') p s := by
  induction p generalizing s with
  | ret a => exact hs
  | call op k ih => exact fun l r hr => ih r.1 (hI s op l r hs hr)

/-! ### Some run ends -/

variable (step) in
/-- Some run of the program ends. -/
def Runs (p : Prog Ans α) (s : S) : Prop := ∃ ls r, exec step p s ls = some r

theorem runs_ret (a : α) (s : S) : Runs step (.ret a : Prog Ans α) s := ⟨[], (a, s), rfl⟩

theorem runs_call_iff {op : Op} {k : Ans op → Prog Ans α} {s : S} :
    Runs step (.call op k) s ↔ ∃ l r, step s op l = some r ∧ Runs step (k r.1) r.2 := by
  constructor
  · rintro ⟨ls, r, hrun⟩
    obtain ⟨l, ls', r', -, hr', hrun⟩ := exec_call hrun
    exact ⟨l, r', hr', ls', r, hrun⟩
  · rintro ⟨l, r, hr, ls, r', hrun⟩
    refine ⟨l :: ls, r', ?_⟩
    rw [exec, hr]
    exact hrun

/-- If the first part has a run and the second part has one after every run of
the first, the two have one together. -/
theorem runs_bind {p : Prog Ans α} {f : α → Prog Ans β} {s : S} (h : Runs step p s)
    (hf : wp step (fun a s' => Runs step (f a) s') p s) : Runs step (p >>= f) s := by
  induction p generalizing s with
  | ret a => exact hf
  | call op k ih =>
    obtain ⟨l, r, hr, hrun⟩ := runs_call_iff.1 h
    exact runs_call_iff.2 ⟨l, r, hr, ih r.1 hrun (hf l r hr)⟩

/-- What holds after every run holds somewhere. -/
theorem Runs.exists_of_wp {Q : α → S → Prop} {p : Prog Ans α} {s : S} (h : Runs step p s)
    (hQ : wp step Q p s) : ∃ ls a s', exec step p s ls = some (a, s') ∧ Q a s' := by
  obtain ⟨ls, ⟨a, s'⟩, hrun⟩ := h
  exact ⟨ls, a, s', hrun, wp_iff.1 hQ ls a s' hrun⟩

/-! ### Operations that no run comes to -/

variable (step) in
/-- The operation that the program calls next after a run with the given
labels. -/
def nextOp : Prog Ans α → S → List L → Option Op
  | .ret _, _, _ => none
  | .call op _, _, [] => some op
  | .call op k, s, l :: ls => (step s op l).bind fun r => (k r.1).nextOp r.2 ls

variable (step) in
/-- No run of the program comes to a call of a bad operation. -/
def Avoids (bad : Op → Prop) (p : Prog Ans α) (s : S) : Prop :=
  ∀ ls op, nextOp step p s ls = some op → ¬ bad op

variable {bad : Op → Prop}

theorem avoids_ret (a : α) (s : S) : Avoids step bad (.ret a : Prog Ans α) s := by
  intro ls op hop
  cases ls <;> cases hop

theorem avoids_call_iff {op : Op} {k : Ans op → Prog Ans α} {s : S} :
    Avoids step bad (.call op k) s ↔
      ¬ bad op ∧ ∀ l r, step s op l = some r → Avoids step bad (k r.1) r.2 := by
  constructor
  · intro h
    refine ⟨h [] op rfl, fun l r hr ls op' hop' => h (l :: ls) op' ?_⟩
    rw [nextOp, hr]
    exact hop'
  · rintro ⟨hop, hk⟩ ls op' hop'
    cases ls with
    | nil =>
      obtain rfl : op = op' := Option.some.inj hop'
      exact hop
    | cons l ls =>
      obtain ⟨r, hr, hop'⟩ := Option.bind_eq_some_iff.1 hop'
      exact hk l r hr ls op' hop'

theorem avoids_bind_iff {p : Prog Ans α} {f : α → Prog Ans β} {s : S} :
    Avoids step bad (p >>= f) s ↔
      Avoids step bad p s ∧ wp step (fun a s' => Avoids step bad (f a) s') p s := by
  induction p generalizing s with
  | ret a => exact ⟨fun h => ⟨avoids_ret a s, h⟩, fun h => h.2⟩
  | call op k ih =>
    rw [call_bind, avoids_call_iff, avoids_call_iff, wp_call]
    constructor
    · rintro ⟨hop, hk⟩
      exact ⟨⟨hop, fun l r hr => ((ih r.1).1 (hk l r hr)).1⟩,
        fun l r hr => ((ih r.1).1 (hk l r hr)).2⟩
    · rintro ⟨⟨hop, hk⟩, hf⟩
      exact ⟨hop, fun l r hr => (ih r.1).2 ⟨hk l r hr, hf l r hr⟩⟩

/-- If the world carries out every operation that is not bad, a program that
avoids the bad ones has a run that ends. -/
theorem runs_of_avoids (henabled : ∀ s op, ¬ bad op → ∃ l r, step s op l = some r)
    {p : Prog Ans α} {s : S} (h : Avoids step bad p s) : Runs step p s := by
  induction p generalizing s with
  | ret a => exact runs_ret a s
  | call op k ih =>
    obtain ⟨hop, hk⟩ := avoids_call_iff.1 h
    obtain ⟨l, r, hr⟩ := henabled s op hop
    exact runs_call_iff.2 ⟨l, r, hr, ih r.1 (hk l r hr)⟩

/-- Where the first part avoids the bad operations, the whole does so exactly if
the second part does after the first. -/
theorem avoids_bind_iff_of_wp (henabled : ∀ s op, ¬ bad op → ∃ l r, step s op l = some r)
    {Q : α → S → Prop} {R : Prop} {p : Prog Ans α} {f : α → Prog Ans β} {s : S}
    (hp : Avoids step bad p s) (hQ : wp step Q p s)
    (hf : ∀ a s', Q a s' → (Avoids step bad (f a) s' ↔ R)) :
    Avoids step bad (p >>= f) s ↔ R := by
  rw [avoids_bind_iff]
  constructor
  · rintro ⟨-, hafter⟩
    obtain ⟨ls, a, s', hrun, ha⟩ := (runs_of_avoids henabled hp).exists_of_wp hQ
    exact (hf a s' ha).1 (wp_iff.1 hafter ls a s' hrun)
  · intro hR
    exact ⟨hp, wp_mono hQ fun a s' ha => (hf a s' ha).2 hR⟩

end World

/-! ## Programs without an operation -/

section Never

variable {bad : Op → Prop}

/-- No call of a bad operation stands anywhere in the program. -/
def Never (bad : Op → Prop) : Prog Ans α → Prop
  | .ret _ => True
  | .call op k => ¬ bad op ∧ ∀ ans, (k ans).Never bad

theorem never_perform {op : Op} (h : ¬ bad op) :
    Never bad (perform op : Prog Ans (Ans op)) := ⟨h, fun _ => trivial⟩

theorem Never.bind {p : Prog Ans α} {f : α → Prog Ans β} (h : p.Never bad)
    (hf : ∀ a, (f a).Never bad) : (p >>= f).Never bad := by
  induction p with
  | ret a => exact hf a
  | call op k ih => exact ⟨h.1, fun ans => ih ans (h.2 ans)⟩

/-- Such a program comes to no bad operation in any world. -/
theorem Never.avoids {step : S → (op : Op) → L → Option (Ans op × S)} {p : Prog Ans α}
    (h : p.Never bad) (s : S) : Avoids step bad p s := by
  induction p generalizing s with
  | ret a => exact avoids_ret a s
  | call op k ih => exact avoids_call_iff.2 ⟨h.1, fun l r _ => ih r.1 (h.2 r.1) r.2⟩

end Never

/-! ## Programs that make the same calls -/

section Sim

variable {δ : Type}

/-- The two programs make the same calls and end in related values. -/
inductive Sim (R : α → β → Prop) : Prog Ans α → Prog Ans β → Prop where
  | ret {a : α} {b : β} (h : R a b) : Sim R (.ret a) (.ret b)
  | call {op : Op} {k : Ans op → Prog Ans α} {k' : Ans op → Prog Ans β}
      (h : ∀ ans, Sim R (k ans) (k' ans)) : Sim R (.call op k) (.call op k')

theorem Sim.self {R : α → α → Prop} (h : ∀ a, R a a) (p : Prog Ans α) : Sim R p p := by
  induction p with
  | ret a => exact .ret (h a)
  | call op k ih => exact .call ih

theorem Sim.mono {R R' : α → β → Prop} {p : Prog Ans α} {q : Prog Ans β} (h : Sim R p q)
    (hR : ∀ a b, R a b → R' a b) : Sim R' p q := by
  induction h with
  | ret hab => exact .ret (hR _ _ hab)
  | call _ ih => exact .call ih

theorem Sim.bind {R : α → β → Prop} {T : γ → δ → Prop} {p : Prog Ans α} {q : Prog Ans β}
    {f : α → Prog Ans γ} {g : β → Prog Ans δ} (h : Sim R p q)
    (hf : ∀ a b, R a b → Sim T (f a) (g b)) : Sim T (p >>= f) (q >>= g) := by
  induction h with
  | ret hab => exact hf _ _ hab
  | call _ ih => exact .call ih

/-- A run of the first program is one of the second. -/
theorem Sim.exec {R : α → β → Prop} {step : S → (op : Op) → L → Option (Ans op × S)}
    {p : Prog Ans α} {q : Prog Ans β} (h : Sim R p q) {s s' : S} {ls : List L} {a : α}
    (hrun : p.exec step s ls = some (a, s')) : ∃ b, q.exec step s ls = some (b, s') ∧ R a b := by
  induction h generalizing s ls with
  | @ret a₀ b hab =>
    obtain ⟨rfl, rfl, rfl⟩ := exec_ret hrun
    exact ⟨b, rfl, hab⟩
  | call _ ih =>
    obtain ⟨l, ls', r, rfl, hr, hrun⟩ := exec_call hrun
    obtain ⟨b, hb, hab⟩ := ih r.1 hrun
    refine ⟨b, ?_, hab⟩
    rw [Prog.exec, hr]
    exact hb

end Sim

/-! ## Answers that a program does not tell apart -/

section Insensitive

variable {ok : (op : Op) → Ans op → Ans op → Prop}

/-- The program goes on in the same way with answers that `ok` relates. -/
def Insensitive (ok : (op : Op) → Ans op → Ans op → Prop) : Prog Ans α → Prop
  | .ret _ => True
  | .call op k => (∀ a a', ok op a a' → k a = k a') ∧ ∀ a, (k a).Insensitive ok

theorem Insensitive.bind {p : Prog Ans α} {f : α → Prog Ans β} (h : p.Insensitive ok)
    (hf : ∀ a, (f a).Insensitive ok) : (p >>= f).Insensitive ok := by
  induction p with
  | ret a => exact hf a
  | call op k ih =>
    refine ⟨fun a a' hok => ?_, fun a => ih a (h.2 a)⟩
    dsimp only
    rw [h.1 a a' hok]

/-- A program without the operations to which several answers are related. -/
theorem Insensitive.of_never {bad : Op → Prop} {p : Prog Ans α} (h : p.Never bad)
    (hok : ∀ op, ¬ bad op → ∀ a a', ok op a a' → a = a') : p.Insensitive ok := by
  induction p with
  | ret a => trivial
  | call op k ih =>
    refine ⟨fun a a' ha => ?_, fun a => ih a (h.2 a)⟩
    rw [hok op h.1 a a' ha]

end Insensitive

/-! ## Two worlds -/

section Simulation

variable {S' L' : Type} {step : S → (op : Op) → L → Option (Ans op × S)}
  {step' : S' → (op : Op) → L' → Option (Ans op × S')}

/-- A condition that a step can only lose going back holds before a run if it
holds after it. -/
theorem exec_back {P : S → Prop} (hback : ∀ s op l r, step s op l = some r → P r.2 → P s)
    {p : Prog Ans α} {s s' : S} {ls : List L} {a : α} (hrun : exec step p s ls = some (a, s'))
    (hP : P s') : P s := by
  induction p generalizing s ls with
  | ret b =>
    obtain ⟨-, -, rfl⟩ := exec_ret hrun
    exact hP
  | call op k ih =>
    obtain ⟨l, ls', r, -, hr, hrun⟩ := exec_call hrun
    exact hback s op l r hr (ih r.1 hrun)

/-- A program runs in the second world as in the first, if each step that keeps `P`
has answers there that it does not tell apart. -/
theorem exec_simulation {ok : (op : Op) → Ans op → Ans op → Prop} {P : S → Prop}
    {R : S → S' → Prop} {g : L → L'}
    (hback : ∀ s op l r, step s op l = some r → P r.2 → P s)
    (hstep : ∀ s t op l r, R s t → step s op l = some r → P r.2 →
      ∃ r', step' t op (g l) = some r' ∧ ok op r.1 r'.1 ∧ R r.2 r'.2)
    {p : Prog Ans α} (hp : p.Insensitive ok) {s s' : S} {t : S'} {ls : List L} {a : α}
    (hrun : exec step p s ls = some (a, s')) (hP : P s') (hR : R s t) :
    ∃ t', exec step' p t (ls.map g) = some (a, t') ∧ R s' t' := by
  induction p generalizing s t ls with
  | ret b =>
    obtain ⟨rfl, rfl, rfl⟩ := exec_ret hrun
    exact ⟨t, rfl, hR⟩
  | call op k ih =>
    obtain ⟨l, ls', r, rfl, hr, hrun⟩ := exec_call hrun
    obtain ⟨r', hr', hok, hR₁⟩ := hstep s t op l r hR hr (exec_back hback hrun hP)
    rw [hp.1 r.1 r'.1 hok] at hrun
    obtain ⟨t', ht', hR'⟩ := ih r'.1 (hp.2 r'.1) hrun hR₁
    refine ⟨t', ?_, hR'⟩
    rw [List.map_cons, exec, hr']
    exact ht'

end Simulation

end Prog

/-! ## Stores before a load -/

/-- What a load answers after some stores is one of them or what was there
before. -/
theorem getLastD_mem_append {old : List α} {a : α} (h : a ∈ old) (stores : List α) :
    stores.getLastD a ∈ old ++ stores := by
  have hlast : stores.getLastD a ∈ a :: stores := List.getLastD_mem_cons
  rcases List.mem_cons.1 hlast with heq | hmem
  · rw [heq]
    exact List.mem_append_left _ h
  · exact List.mem_append_right _ hmem

end Ydn64.Lib
