import Mathlib.Logic.Basic

/-!
# Runs of a labelled step function

A system is a type of states, a type of labels and a partial step function:
`step s l` is the state after the step that `l` names, or `none` where that
step is not enabled in `s`.  Everything that is not determined by the state
(which goroutine moves, what a system call answers, the order of a map
iteration) stands in the label, so a list of labels names at most one run.

Four rules cover the arguments about whole runs.

* `run_invariant`: what every step that meets a condition preserves holds in
  the state that a run of such steps reaches.
* `run_drift`: a quantity that moves by one exactly on the marked steps has
  moved by the number of marked steps.
* `countSteps_le`: an allowance from which each marked step takes one bounds the
  number of marked steps.
* `run_views`: if the silent labels do not move a view of the state and the
  other labels act on the view alone, two runs with the same other labels show
  the same views.

Two kinds of system have a rule of their own.  `run_ceiling` is about requests that
are admitted by a counter which they raise some steps later, and `Loop.Returns.of_rank`
about loops that go on until a round returns.
-/

namespace Ydn64.Lib

variable {S L : Type}

/-- Take the steps of a trace in order. -/
def run (step : S → L → Option S) : S → List L → Option S
  | s, [] => some s
  | s, l :: ls => (step s l).bind fun s' => run step s' ls

/-- Every step of the run meets `P`, which sees the state before the step. -/
def AllSteps (step : S → L → Option S) (P : S → L → Prop) : S → List L → Prop
  | _, [] => True
  | s, l :: ls => P s l ∧ ∀ s', step s l = some s' → AllSteps step P s' ls

/-- The number of steps of the run that `mark` picks out. -/
def countSteps (step : S → L → Option S) (mark : S → L → Bool) :
    S → List L → Nat
  | _, [] => 0
  | s, l :: ls =>
    (if mark s l then 1 else 0) +
      match step s l with
      | none => 0
      | some s' => countSteps step mark s' ls

variable {step : S → L → Option S}

/-- A condition that can be decided at each step can be decided along a run. -/
instance AllSteps.decidable {P : S → L → Prop} [∀ s l, Decidable (P s l)] :
    ∀ (s : S) (ls : List L), Decidable (AllSteps step P s ls)
  | _, [] => isTrue trivial
  | s, l :: ls =>
    match hl : step s l with
    | none =>
      decidable_of_iff (P s l) ⟨fun h => ⟨h, fun _ he => nomatch hl.symm.trans he⟩, And.left⟩
    | some s' =>
      haveI := AllSteps.decidable (P := P) s' ls
      decidable_of_iff (P s l ∧ AllSteps step P s' ls)
        (and_congr_right fun _ =>
          ⟨fun h _ he => Option.some.inj (hl.symm.trans he) ▸ h, fun h => h s' hl⟩)

/-- A run of a non-empty trace is its first step and the run of the rest. -/
theorem run_cons {s t : S} {l : L} {ls : List L}
    (h : run step s (l :: ls) = some t) :
    ∃ s', step s l = some s' ∧ run step s' ls = some t := by
  rw [run, Option.bind_eq_some_iff] at h
  exact h

/-- A step that is always enabled makes every trace a run. -/
theorem exists_run (h : ∀ s l, ∃ s', step s l = some s') (ls : List L) (s : S) :
    ∃ t, run step s ls = some t := by
  induction ls generalizing s with
  | nil => exact ⟨s, rfl⟩
  | cons l ls ih =>
    obtain ⟨s', hl⟩ := h s l
    rw [run, hl]
    exact ih s'

/-- The count along a run, step by step. -/
theorem countSteps_cons {mark : S → L → Bool} {s s' : S} {l : L} (hl : step s l = some s')
    (ls : List L) :
    countSteps step mark s (l :: ls) =
      (if mark s l then 1 else 0) + countSteps step mark s' ls := by
  rw [countSteps, hl]

/-- The induction over a run: an invariant of every step that meets `P` holds
at the end of a run whose steps all meet `P`. -/
theorem run_invariant {I : S → Prop} {P : S → L → Prop}
    (hstep : ∀ s l s', I s → P s l → step s l = some s' → I s') :
    ∀ {ls : List L} {s t : S}, I s → AllSteps step P s ls →
      run step s ls = some t → I t := by
  intro ls
  induction ls with
  | nil =>
    intro s t hs _ hr
    rw [run, Option.some.injEq] at hr
    exact hr ▸ hs
  | cons l ls ih =>
    intro s t hs hP hr
    obtain ⟨s', hl, hr⟩ := run_cons hr
    exact ih (hstep s l s' hs hP.1 hl) (hP.2 s' hl) hr

/-- A condition that every label meets in every state is met along a run. -/
theorem allSteps_of_forall {P : S → L → Prop} (h : ∀ s l, P s l) :
    ∀ (ls : List L) (s : S), AllSteps step P s ls := by
  intro ls
  induction ls with
  | nil => exact fun _ => trivial
  | cons l ls ih => exact fun s => ⟨h s l, fun s' _ => ih s'⟩

/-- A condition on the labels alone is met along every run of them. -/
theorem allSteps_of_mem {P : L → Prop} {ls : List L} (h : ∀ l ∈ ls, P l) (s : S) :
    AllSteps step (fun _ l => P l) s ls := by
  induction ls generalizing s with
  | nil => exact trivial
  | cons l ls ih =>
    rw [List.forall_mem_cons] at h
    exact ⟨h.1, fun s' _ => ih h.2 s'⟩

/-- A condition that every label meets where an invariant holds is met along a run. -/
theorem allSteps_of_invariant {I : S → Prop} {P : S → L → Prop}
    (hstep : ∀ s l s', I s → step s l = some s' → I s') (hP : ∀ s l, I s → P s l)
    {ls : List L} {s : S} (hs : I s) : AllSteps step P s ls := by
  induction ls generalizing s with
  | nil => exact trivial
  | cons l ls ih => exact ⟨hP s l hs, fun s' hl => ih (hstep s l s' hs hl)⟩

/-- Conditions that are equivalent at each step are equivalent along a run. -/
theorem allSteps_congr {P Q : S → L → Prop} (h : ∀ s l, P s l ↔ Q s l) :
    ∀ {ls : List L} {s : S}, AllSteps step P s ls ↔ AllSteps step Q s ls := by
  intro ls
  induction ls with
  | nil => exact Iff.rfl
  | cons l ls ih =>
    exact and_congr (h _ l) (forall_congr' fun _ => forall_congr' fun _ => ih)

/-- A run with no condition on its steps keeps an invariant of every step. -/
theorem run_invariant_of_step {I : S → Prop}
    (hstep : ∀ s l s', I s → step s l = some s' → I s')
    {ls : List L} {s t : S} (hs : I s) (hr : run step s ls = some t) :
    I t :=
  run_invariant (P := fun _ _ => True)
    (fun s l s' hi _ hl => hstep s l s' hi hl) hs
    (allSteps_of_forall (fun _ _ => trivial) ls s) hr

/-- A family of conditions is met along a run when each of them is. -/
theorem allSteps_forall {A : Type} {P : A → S → L → Prop} :
    ∀ {ls : List L} {s : S},
      (∀ i, AllSteps step (P i) s ls) ↔ AllSteps step (fun s l => ∀ i, P i s l) s ls := by
  intro ls
  induction ls with
  | nil => exact fun {s} => ⟨fun _ => trivial, fun _ _ => trivial⟩
  | cons l ls ih =>
    intro s
    constructor
    · exact fun h => ⟨fun i => (h i).1, fun s' hl => ih.1 fun i => (h i).2 s' hl⟩
    · exact fun h i => ⟨h.1 i, fun s' hl => ih.2 (h.2 s' hl) i⟩

/-- A quantity that moves by one on the marked steps, and on no other, has
moved by the number of marked steps at the end of a run whose steps all meet
`P`. -/
theorem run_drift {I : S → Prop} {P : S → L → Prop} {f : S → Int} {mark : S → L → Bool}
    (hstep : ∀ s l s', I s → P s l → step s l = some s' →
      I s' ∧ f s' = f s + if mark s l then 1 else 0) :
    ∀ {ls : List L} {s t : S}, I s → AllSteps step P s ls → run step s ls = some t →
      f t = f s + countSteps step mark s ls := by
  intro ls
  induction ls with
  | nil =>
    intro s t _ _ hr
    rw [run, Option.some.injEq] at hr
    rw [← hr]
    simp [countSteps]
  | cons l ls ih =>
    intro s t hs hP hr
    obtain ⟨s', hl, hr⟩ := run_cons hr
    obtain ⟨hs', hf⟩ := hstep s l s' hs hP.1 hl
    rw [ih hs' (hP.2 s' hl) hr, hf, countSteps_cons hl]
    split <;> omega

/-- An allowance that no step raises, and from which each marked step takes one,
bounds the number of marked steps. -/
theorem countSteps_le {P : S → L → Prop} {mark : S → L → Bool} (allowance : S → Nat)
    (hstep : ∀ s l s', P s l → step s l = some s' →
      (if mark s l then 1 else 0) + allowance s' ≤ allowance s)
    (hmark : ∀ s l, mark s l = true → step s l ≠ none) :
    ∀ {ls : List L} {s : S}, AllSteps step P s ls →
      countSteps step mark s ls ≤ allowance s := by
  intro ls
  induction ls with
  | nil =>
    intro s _
    exact Nat.zero_le _
  | cons l ls ih =>
    intro s hP
    cases hl : step s l with
    | none =>
      have hunmarked : ¬ mark s l = true := fun h => hmark s l h hl
      simp [countSteps, hl, hunmarked]
    | some s' =>
      have hrest := ih (hP.2 s' hl)
      have hfirst := hstep s l s' hP.1 hl
      rw [countSteps_cons hl]
      omega

/-- No step is marked exactly when every step of the run misses the mark. -/
theorem countSteps_eq_zero_iff {mark : S → L → Bool} :
    ∀ {ls : List L} {s : S}, countSteps step mark s ls = 0 ↔
      AllSteps step (fun s l => mark s l = false) s ls := by
  intro ls
  induction ls with
  | nil => exact fun {s} => ⟨fun _ => trivial, fun _ => rfl⟩
  | cons l ls ih =>
    intro s
    rw [countSteps, AllSteps, Nat.add_eq_zero_iff]
    refine and_congr ?_ ?_
    · cases mark s l <;> simp
    · cases hl : step s l with
      | none => simp
      | some s' => simp [ih]

/-! ## Two runs -/

/-- The views of the states after the labels that are not silent. -/
def loudViews {O : Type} (step : S → L → Option S) (view : S → O) (silent : L → Bool) :
    S → List L → List O
  | _, [] => []
  | s, l :: ls =>
    match step s l with
    | none => []
    | some s' =>
      if silent l then loudViews step view silent s' ls
      else view s' :: loudViews step view silent s' ls

section TwoRuns

variable {O : Type} {view : S → O} {silent : L → Bool}

theorem loudViews_silent {s s' : S} {l : L} (hl : step s l = some s') (hs : silent l = true)
    (ls : List L) :
    loudViews step view silent s (l :: ls) = loudViews step view silent s' ls := by
  simp only [loudViews, hl, hs, if_true]

theorem loudViews_loud {s s' : S} {l : L} (hl : step s l = some s') (hs : silent l = false)
    (ls : List L) :
    loudViews step view silent s (l :: ls) =
      view s' :: loudViews step view silent s' ls := by
  simp only [loudViews, hl, hs, Bool.false_eq_true, if_false]

/-- A run of silent labels only shows no view and does not move it. -/
theorem run_quiet
    (hsilent : ∀ s l s', silent l = true → step s l = some s' → view s' = view s) :
    ∀ {ls : List L} {s t : S}, ls.filter (fun l => !silent l) = [] →
      run step s ls = some t →
      loudViews step view silent s ls = [] ∧ view t = view s := by
  intro ls
  induction ls with
  | nil =>
    intro s t _ hr
    rw [run, Option.some.injEq] at hr
    exact ⟨rfl, by rw [hr]⟩
  | cons l ls ih =>
    intro s t hf hr
    obtain ⟨s', hl, hr⟩ := run_cons hr
    cases hs : silent l with
    | true =>
      rw [List.filter_cons_of_neg (by simp [hs])] at hf
      obtain ⟨hviews, hview⟩ := ih hf hr
      rw [loudViews_silent hl hs]
      exact ⟨hviews, hview.trans (hsilent s l s' hs hl)⟩
    | false =>
      rw [List.filter_cons_of_pos (by simp [hs])] at hf
      exact absurd hf (List.cons_ne_nil _ _)

/-- Two runs that differ in silent labels only show the same views. -/
theorem run_views
    (hsilent : ∀ s l s', silent l = true → step s l = some s' → view s' = view s)
    (hloud : ∀ s t l s' t', silent l = false → view s = view t →
      step s l = some s' → step t l = some t' → view s' = view t') :
    ∀ {ls ms : List L} {s t s' t' : S},
      ls.filter (fun l => !silent l) = ms.filter (fun l => !silent l) →
      view s = view t → run step s ls = some s' → run step t ms = some t' →
      loudViews step view silent s ls = loudViews step view silent t ms ∧
        view s' = view t' := by
  intro ls
  induction ls with
  | nil =>
    intro ms s t s' t' hf hv hls hms
    obtain ⟨hviews, hview⟩ := run_quiet hsilent hf.symm hms
    rw [run, Option.some.injEq] at hls
    exact ⟨hviews.symm, by rw [← hls, hv, hview]⟩
  | cons l ls ih =>
    intro ms s t s' t' hf hv hls hms
    obtain ⟨s1, hl, hls⟩ := run_cons hls
    cases hs : silent l with
    | true =>
      rw [List.filter_cons_of_neg (by simp [hs])] at hf
      rw [loudViews_silent hl hs]
      exact ih hf ((hsilent s l s1 hs hl).trans hv) hls hms
    | false =>
      rw [List.filter_cons_of_pos (by simp [hs])] at hf
      -- The second run reaches the same label after silent ones.
      induction ms generalizing t with
      | nil => exact absurd hf (List.cons_ne_nil _ _)
      | cons m ms ihm =>
        obtain ⟨t1, hm, hms'⟩ := run_cons hms
        cases hsm : silent m with
        | true =>
          rw [List.filter_cons_of_neg (by simp [hsm])] at hf
          rw [loudViews_silent hm hsm]
          exact ihm hf (hv.trans (hsilent t m t1 hsm hm).symm) hms'
        | false =>
          rw [List.filter_cons_of_pos (by simp [hsm]), List.cons.injEq] at hf
          obtain ⟨rfl, hf⟩ := hf
          have hview := hloud s t l s1 t1 hs hv hl hm
          obtain ⟨hviews, hend⟩ := ih hf hview hls hms'
          rw [loudViews_loud hl hs, loudViews_loud hm hs, hview, hviews]
          exact ⟨rfl, hend⟩

end TwoRuns

/-! ## Limits that are checked before they are counted

A request reads a counter, is admitted if the counter is below a limit, and raises
the counter some steps later.  The counter may pass the limit, because requests are
admitted while others are between the check and the count. -/

section Ceiling

variable {step : S → L → Option S}

/-- One step either admits a request while the counter is below the limit, or does
not add to the counter and the requests in flight. -/
def KeepsCeiling (counter inFlight : S → Int) (limit : Int) (s s' : S) : Prop :=
  (counter s < limit ∧ counter s' ≤ counter s) ∨
    counter s' + inFlight s' ≤ counter s + inFlight s

/-- The rule for a whole run: with at most `most` requests in flight at any time, the
counter and the requests in flight stay below `limit + most`. -/
theorem run_ceiling {I : S → Prop} {P : S → L → Prop} (counter inFlight : S → Int)
    {limit most : Int}
    (hstep : ∀ s l s', I s → P s l → step s l = some s' →
      I s' ∧ KeepsCeiling counter inFlight limit s s')
    (hmost : ∀ s l, P s l → inFlight s ≤ most) {ls : List L} {s t : S} (hs : I s)
    (hstart : counter s < limit) (hsteps : AllSteps step P s ls) (hrun : run step s ls = some t)
    (hend : inFlight t ≤ most) : counter t + inFlight t ≤ limit - 1 + most := by
  -- At or above the limit nobody is admitted, so those in flight were there before.
  have hinv : I t ∧ (limit ≤ counter t → counter t + inFlight t ≤ limit - 1 + most) := by
    refine run_invariant
      (I := fun s => I s ∧ (limit ≤ counter s → counter s + inFlight s ≤ limit - 1 + most))
      (fun s l s' h hP hl => ?_) ⟨hs, fun h => by omega⟩ hsteps hrun
    obtain ⟨hI, hkeeps⟩ := hstep s l s' h.1 hP hl
    refine ⟨hI, fun hge => ?_⟩
    have hbound := hmost s l hP
    have hold := h.2
    unfold KeepsCeiling at hkeeps
    omega
  have := hinv.2
  omega

end Ceiling

/-! ## Loops

A loop without a bound of its own is given by one round of it, which fails, goes
on with a next state, or returns.  `Returns round s outs res` says that the loop
that starts in `s` returns `res` after rounds with the outputs `outs`; a loop
that fails in a round, or goes on for ever, returns nothing. -/

namespace Loop

/-- How a round ends. -/
inductive Round (σ α β : Type) where
  | next (out : α) (s : σ)
  | exit (res : β)

variable {σ α β : Type} {round : σ → Option (Round σ α β)}

/-- The loop returns. -/
inductive Returns (round : σ → Option (Round σ α β)) : σ → List α → β → Prop
  | exit {s : σ} {res : β} (h : round s = some (.exit res)) : Returns round s [] res
  | next {s s' : σ} {out : α} {outs : List α} {res : β} (h : round s = some (.next out s'))
      (rest : Returns round s' outs res) : Returns round s (out :: outs) res

/-- A loop returns if under an invariant no round fails and each one that goes
on keeps the invariant and lowers the rank. -/
theorem Returns.of_rank (rank : σ → Nat) (Inv : σ → Prop)
    (hround : ∀ s, Inv s → round s ≠ none)
    (hnext : ∀ s out s', Inv s → round s = some (.next out s') → Inv s' ∧ rank s' < rank s)
    {s : σ} (hs : Inv s) : ∃ outs res, Returns round s outs res := by
  induction hr : rank s using Nat.strongRecOn generalizing s with
  | ind r ih =>
    cases hres : round s with
    | none => exact absurd hres (hround s hs)
    | some res =>
      cases res with
      | exit res => exact ⟨[], res, .exit hres⟩
      | next out s' =>
        obtain ⟨hs', hlt⟩ := hnext s out s' hs hres
        obtain ⟨outs, res, hrest⟩ := ih (rank s') (by omega) hs' rfl
        exact ⟨out :: outs, res, .next hres hrest⟩

end Loop

end Ydn64.Lib
