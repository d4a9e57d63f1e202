import Ydn64.Dns64.Transparency

/-!
# The 0x20 defence

`lookup` sends a name in random case, takes a reply only if its question echoes
that spelling, and puts the client's spelling back.

* `spelledAs_client_iff`: the forwarder copies the spelling that it received
  into its records as well, and there nothing is put back.  The reply shows the
  client's spelling only, exactly if that one was sent or the name stands nowhere
  behind the first question.
* `failures_bounded`: a forwarder that answers in lower case fails the check.
  Three failures in a row suspend the randomisation for `x20DisableDuration`, so
  a window of that length has at most three failures, as long as no name that
  happens to go out in lower case clears the strikes.
-/

namespace Ydn64.Dns64

open Ydn64.GoStd Ydn64.Config Ydn64.Lib
open Ydn64.Nat64 (second)

/-! ## The spellings in a reply -/

/-- The names behind the first question: of further questions and of the owners
of records. -/
def Msg.restNames (m : Msg) : List String :=
  m.question.tail.map Question.name ++ (m.answer ++ m.ns ++ m.extra).map RR.name

/-- The names of the questions and of the owners of records. -/
def Msg.names (m : Msg) : List String :=
  (m.question.head?.map Question.name).toList ++ m.restNames

/-- Wherever the message has the name, it is in this spelling. -/
def Msg.SpelledAs (m : Msg) (name : String) : Prop :=
  ∀ n ∈ m.names, foldName n = foldName name → n = name

instance (m : Msg) (name : String) : Decidable (m.SpelledAs name) := by
  unfold Msg.SpelledAs
  infer_instance

/-- Forwarders that copy the name of the question, as they received it, wherever
their reply has that name. -/
def copying : Network := fun _ req _ reply =>
  reply.msg?.all fun m => m.SpelledAs req.qname

theorem Msg.names_setQname (m : Msg) (name : String) :
    (m.setQname name).names = (m.question.head?.map fun _ => name).toList ++ m.restNames := by
  unfold Msg.setQname Msg.names Msg.restNames
  cases hq : m.question with
  | nil => simp [hq]
  | cons q qs => simp

theorem Msg.qname_respelled (req : Msg) (id : UInt16) (flips : List Bool) :
    (req.respelled id flips).qname = flipName req.qname flips := by
  unfold Msg.respelled Msg.setQname Msg.qname
  cases hq : req.question with
  | nil => simp [flipName]
  | cons q qs => simp

/-- With the name of the first question put back, the spelling received is left
wherever else the message has the name. -/
theorem Msg.spelledAs_setQname_iff {m : Msg} {sent name : String} (hm : m.SpelledAs sent)
    (hfold : foldName sent = foldName name) :
    (m.setQname name).SpelledAs name ↔
      sent = name ∨ ∀ n ∈ m.restNames, foldName n ≠ foldName name := by
  have hrest : ∀ n ∈ m.restNames, foldName n = foldName name → n = sent := by
    intro n hn hn'
    exact hm n (List.mem_append_right _ hn) (hn'.trans hfold.symm)
  unfold Msg.SpelledAs
  rw [Msg.names_setQname]
  constructor
  · intro h
    by_cases hsent : sent = name
    · exact .inl hsent
    · refine .inr fun n hn hn' => hsent ?_
      rw [← hrest n hn hn']
      exact h n (List.mem_append_right _ hn) hn'
  · intro h n hn hn'
    rcases List.mem_append.1 hn with hhead | hbehind
    · simp_all
    · rcases h with hsent | h
      · exact (hrest n hbehind hn').trans hsent
      · exact absurd hn' (h n hbehind)

section Confinement

variable {net : Network} {server : String} {req : Msg} {via : Via} {s : ProxyState}

/-- What the message of a lookup is, from the reply to the spelling sent. -/
structure Restored (net : Network) (s : ProxyState) (req m : Msg) (s' : ProxyState)
    (es : List Exchanged) (sent : String) (up : Msg) : Prop where
  log : s'.log = s.log ++ es
  asked : ∀ e ∈ es, e.req.qname = sent ∧ net e.server e.req e.via e.reply = true
  fold : foldName sent = foldName req.qname
  used : usedReply es = some up
  restored : m = { up with id := req.id }.setQname req.qname ∨
    sent = req.qname ∧ m = { up with id := req.id }

theorem ends_lookup_restored :
    Ends net (fun r s' => ∀ m, r = some m → ∃ es sent up, Restored net s req m s' es sent up)
      (lookup server req via) s := by
  refine ends_lookup_of fun id flips check es x20 hcheck hsent _ m hm => ?_
  obtain ⟨up, hup, hm⟩ := Option.bind_eq_some_iff.1 hm
  refine ⟨es, flipName req.qname flips, up, rfl, ?_, foldName_flipName _ _, hup, ?_⟩
  · intro e he
    obtain ⟨-, hreq, hnet⟩ := hsent e he
    rw [← req.qname_respelled id flips, ← hreq]
    exact ⟨rfl, hnet⟩
  · unfold accepted at hm
    split_ifs at hm with hc
    · exact .inl (Option.some.inj hm).symm
    · refine .inr ⟨?_, (Option.some.inj hm).symm⟩
      rw [hcheck (by simpa using hc), flipName_nil]

/-- The reply to a lookup has the client's spelling only, exactly if that is the
spelling sent or the reply has the name nowhere behind its first question. -/
theorem spelledAs_client_iff {chances : List Chance} {m : Msg} {s' : ProxyState}
    (hrun : Prog.exec (proxyStep copying) (lookup server req via) s chances = some (some m, s')) :
    ∃ es sent up, s'.log = s.log ++ es ∧ (∀ e ∈ es, e.req.qname = sent) ∧
      usedReply es = some up ∧
      (m.SpelledAs req.qname ↔
        sent = req.qname ∨ ∀ n ∈ up.restNames, foldName n ≠ foldName req.qname) := by
  obtain ⟨es, sent, up, h⟩ := Prog.wp_iff.1 ends_lookup_restored chances _ s' hrun m rfl
  refine ⟨es, sent, up, h.log, fun e he => (h.asked e he).1, h.used, ?_⟩
  have hcopied : up.SpelledAs sent := by
    have hne : es ≠ [] := by
      rintro rfl
      cases h.used
    obtain ⟨e, he, hreply⟩ := usedReply_mem hne
    obtain ⟨hname, hnet⟩ := h.asked e he
    rw [← hname]
    simpa [copying, ← hreply, h.used] using hnet
  rcases h.restored with rfl | ⟨rfl, rfl⟩
  · exact Msg.spelledAs_setQname_iff (m := { up with id := req.id }) hcopied h.fold
  · exact iff_of_true hcopied (.inl rfl)

end Confinement

/-- A reply that answers under the name as it was sent. -/
def copiedReply (name : String) (qtype : UInt16) (data : List RData) : Msg where
  response := true
  question := [⟨name, qtype, classINET⟩]
  answer := data.map fun data => ⟨name, classINET, 60, data⟩

/-- The choices of a lookup whose first coin falls the other way. -/
def flippedChances (m : Msg) : List Chance :=
  idle 2 ++ [{ flips := [true] }, { reply := .ok m }] ++ idle 1

theorem spelledAs_client_iff_nodata :
    ∃ m s', Prog.exec (proxyStep copying) (lookup "192.0.2.53:53" sampleQuery .udp)
        (.new filteringConfig ⟨second, 0, none⟩)
        (flippedChances (copiedReply "A.example." typeAAAA [])) = some (some m, s') ∧
      ∃ es sent up, s'.log = [] ++ es ∧ (∀ e ∈ es, e.req.qname = sent) ∧
        usedReply es = some up ∧
        (m.SpelledAs sampleQuery.qname ↔ sent = sampleQuery.qname ∨
          ∀ n ∈ up.restNames, foldName n ≠ foldName sampleQuery.qname) := by
  have hrun : ∃ r ∈ Prog.exec (proxyStep copying) (lookup "192.0.2.53:53" sampleQuery .udp)
      (.new filteringConfig ⟨second, 0, none⟩)
      (flippedChances (copiedReply "A.example." typeAAAA [])), r.1.isSome = true := by
    decide +kernel
  obtain ⟨⟨r, s'⟩, hrun, hr⟩ := hrun
  obtain ⟨m, rfl⟩ := Option.isSome_iff_exists.1 hr
  exact ⟨m, s', hrun, spelledAs_client_iff hrun⟩

/-- The record comes back in the spelling that was sent.  A query for AAAA
records goes on to synthesise under that spelling, and the cache keeps it. -/
theorem randomised_owner_returned :
    (∃ r ∈ Prog.exec (proxyStep copying) (lookup "192.0.2.53:53" sampleQuery .udp)
        (.new filteringConfig ⟨second, 0, none⟩)
        (flippedChances (copiedReply "A.example." typeAAAA [.aaaa (List.replicate 16 1)])),
      ∃ m ∈ r.1, m.answer.map RR.name = ["A.example."] ∧ ¬ m.SpelledAs sampleQuery.qname) ∧
    ∃ r ∈ serve copying asciiCase anyName (.new filteringConfig ⟨second, 0, none⟩) sampleQuery .udp
        (idle 3 ++ flippedChances (copiedReply "A.example." typeAAAA []) ++ idle 1 ++
          flippedChances (copiedReply "A.example." typeA [.a [192, 0, 2, 1]]) ++ idle 2),
      (r.2.cache.get ⟨"a.example.", typeAAAA⟩ 0).map (List.map RR.name) = some ["A.example."] := by
  decide +kernel

/-! ## A forwarder that answers in lower case -/

def lowerName (name : String) : String := String.ofList (foldName name)

/-- The reply has the name of the question in lower case. -/
def Canonical (sent m : Msg) : Prop :=
  m.question.head?.map Question.name = sent.question.head?.map fun q => lowerName q.name

instance (sent m : Msg) : Decidable (Canonical sent m) := by
  unfold Canonical
  infer_instance

/-- Forwarders that always answer, and echo the name of the question in lower
case. -/
def canonicalising : Network := fun _ req _ reply =>
  reply.msg?.any fun m => Canonical req m

/-- The proxy with a clock that does not go back: an operation happens at the
time of its label. -/
def clockedStep (net : Network) (s : ProxyState × Int) (op : ProxyOp) (c : Chance) :
    Option (op.Ans × ProxyState × Int) :=
  if s.2 ≤ c.now then (proxyStep net s.1 op c).map fun r => (r.1, r.2, c.now) else none

theorem clockedStep_eq_some {net : Network} {s : ProxyState × Int} {op : ProxyOp} {c : Chance}
    {ans : op.Ans} {s' : ProxyState × Int} (h : clockedStep net s op c = some (ans, s')) :
    s.2 ≤ s'.2 ∧ proxyStep net s.1 op c = some (ans, s'.1) ∧ s'.2 = c.now := by
  unfold clockedStep at h
  split_ifs at h with hnow
  obtain ⟨r, hr, heq⟩ := Option.map_eq_some_iff.1 h
  obtain ⟨rfl, rfl⟩ := Prod.mk.inj heq
  exact ⟨hnow, hr, rfl⟩

section Clocked

variable {server : String} {req : Msg} {via : Via} {s : ProxyState × Int}

theorem clocked_lookupUpstream {sent : Msg} {Q : Reply → ProxyState × Int → Prop}
    (h : ∀ m s', Canonical sent m → s'.1.x20 = s.1.x20 → s.2 ≤ s'.2 → Q (.ok m) s') :
    Prog.wp (clockedStep canonicalising) Q (lookupUpstream server sent via) s := by
  rintro c ⟨reply, s'⟩ hr
  obtain ⟨htime, hstep, -⟩ := clockedStep_eq_some hr
  simp only [proxyStep] at hstep
  split_ifs at hstep with hnet
  obtain ⟨hreply, hs⟩ := Prod.mk.inj (Option.some.inj hstep)
  show Q reply s'
  rw [← hreply]
  cases hc : c.reply with
  | failed part =>
    rw [hc] at hnet
    cases hnet
  | ok m =>
    rw [hc] at hnet
    refine h m s' (of_decide_eq_true hnet) ?_ htime
    rw [← hs]

theorem clocked_retryTCP {sent m : Msg} (hm : Canonical sent m)
    {Q : Reply → ProxyState × Int → Prop}
    (h : ∀ m s', Canonical sent m → s'.1.x20 = s.1.x20 → s.2 ≤ s'.2 → Q (.ok m) s') :
    Prog.wp (clockedStep canonicalising) Q (retryTCP server sent via (.ok m)) s := by
  unfold retryTCP
  dsimp only
  split_ifs
  · refine Prog.wp_bind.2 (clocked_lookupUpstream fun full s' hfull hx20 htime => ?_)
    show Q (if full.truncated then .ok m else .ok full) s'
    split_ifs
    · exact h m s' hm hx20 htime
    · exact h full s' hfull hx20 htime
  · exact h m s hm rfl le_rfl

theorem ProxyState.x20StateFor_congr {s s' : ProxyState} (h : s'.x20 = s.x20) (server : String) :
    s'.x20StateFor server = s.x20StateFor server := by
  rw [ProxyState.x20StateFor, h, ProxyState.x20StateFor]

theorem clocked_x20Record {ok : Bool} {Q : Unit → ProxyState × Int → Prop}
    (h : ∀ s', s'.1.x20StateFor server = (s.1.x20StateFor server).record ok s'.2 →
      s.2 ≤ s'.2 → Q () s') :
    Prog.wp (clockedStep canonicalising) Q (x20Record server ok) s := by
  rintro c ⟨_, s'⟩ hr
  obtain ⟨htime, hstep, hnow⟩ := clockedStep_eq_some hr
  obtain ⟨-, hs⟩ := Prod.mk.inj (Option.some.inj hstep)
  refine h s' ?_ htime
  rw [← hs, hnow, ProxyState.x20StateFor, SyncMap.lookup_insert_eq_ite, if_pos rfl,
    Option.getD_some]

/-- A lookup that sent `name` to the forwarder of lower case ends with an answer
unless the echo was asked for and `name` is not in lower case. -/
structure Judged (server : String) (s : ProxyState × Int) (name : String) (check : Bool)
    (r : Option Msg) (s' : ProxyState × Int) : Prop where
  time : s.2 ≤ s'.2
  answered : r.isSome = (!check || lowerName name = name)
  record : s'.1.x20StateFor server =
    if check then (s.1.x20StateFor server).record (lowerName name = name) s'.2
    else s.1.x20StateFor server

theorem echoes_of_canonical {m : Msg} {id : UInt16} {name : String} (hreq : req.question ≠ [])
    (hm : Canonical ({ req with id }.setQname name) m) :
    echoes m name = decide (lowerName name = name) := by
  obtain ⟨q, qs, hq⟩ := List.exists_cons_of_ne_nil hreq
  simp only [Canonical, Msg.setQname, hq, List.head?_cons, Option.map_some] at hm
  have hne : m.question ≠ [] := by
    intro hnil
    simp [hnil] at hm
  simp [echoes, Msg.qname, hm, hne]

theorem Judged.of_earlier {s₀ s' : ProxyState × Int} {name : String} {check : Bool}
    {r : Option Msg} (h : Judged server s₀ name check r s') (hsame : s₀.1 = s.1)
    (htime : s.2 ≤ s₀.2) : Judged server s name check r s' :=
  ⟨htime.trans h.time, h.answered, hsame ▸ h.record⟩

/-- The part of `lookup` behind the choice of the name. -/
def afterSent (server : String) (req : Msg) (via : Via) (id : UInt16) (p : String × Bool) :
    Handler (Option Msg) := do
  let first ← lookupUpstream server ({ req with id }.setQname p.1) via
  let reply ← retryTCP server ({ req with id }.setQname p.1) via first
  acceptReply server req p.1 p.2 reply

theorem lookup_of_nil {server : String} {req : Msg} {via : Via} (hq : req.question = []) :
    lookup server req via =
      .call .drawId fun id => afterSent server req via id (req.qname, false) := by
  unfold lookup sentName
  rw [if_pos hq]
  rfl

theorem lookup_of_ne_nil {server : String} {req : Msg} {via : Via} (hq : req.question ≠ []) :
    lookup server req via =
      .call .drawId fun id => .call (.x20Active server) fun active =>
        if active then
          .call (.randomizeNameCase req.qname) fun name => afterSent server req via id (name, true)
        else afterSent server req via id (req.qname, false) := by
  unfold lookup sentName
  rw [if_neg hq]
  refine congrArg (Prog.call ProxyOp.drawId) (funext fun id => ?_)
  refine congrArg (Prog.call (ProxyOp.x20Active server)) (funext fun active => ?_)
  cases active <;> rfl

theorem clocked_afterSent {id : UInt16} {name : String} {check : Bool}
    (hcheck : check = true → req.question ≠ []) :
    Prog.wp (clockedStep canonicalising) (Judged server s name check)
      (afterSent server req via id (name, check)) s := by
  unfold afterSent
  refine Prog.wp_bind.2 (clocked_lookupUpstream fun m s₁ hm hx₁ ht₁ => ?_)
  refine Prog.wp_bind.2 (clocked_retryTCP hm fun m s₂ hm hx₂ ht₂ => ?_)
  have hx : s₂.1.x20StateFor server = s.1.x20StateFor server :=
    ProxyState.x20StateFor_congr (hx₂.trans hx₁) server
  have ht : s.2 ≤ s₂.2 := ht₁.trans ht₂
  unfold acceptReply
  cases hc : check with
  | false => exact ⟨ht, rfl, hx⟩
  | true =>
    have hechoes := echoes_of_canonical (hcheck hc) hm
    refine Prog.wp_bind.2 (clocked_x20Record fun s₃ hx₃ ht₃ => ⟨ht.trans ht₃, ?_, ?_⟩)
    · rw [hechoes]
      by_cases hname : lowerName name = name <;> simp [hname]
    · rw [hx₃, hx, hechoes]
      rfl

end Clocked

/-! ## The allowance of a window -/

/-- The suspension lasts until the time, at least. -/
def X20State.shutUntil (x : X20State) (t : Int) : Bool := x.disabledUntil.any fun u => t ≤ u

theorem X20State.lt_of_active {x : X20State} {t a : Int} (hshut : x.shutUntil t = true)
    (hactive : x.active a = true) : t < a := by
  unfold X20State.shutUntil at hshut
  unfold X20State.active at hactive
  cases hx : x.disabledUntil with
  | none => simp [hx] at hshut
  | some u =>
    simp only [hx, Option.any_some, decide_eq_true_eq] at hshut hactive
    omega

/-- How many failures the window from `w` can still see: none once it is over or
the suspension lasts beyond it, and inside it one for each strike that is left. -/
def X20State.allowance (w : Int) (x : X20State) (t : Int) : Nat :=
  if w + x20DisableDuration < t ∨ x.shutUntil (w + x20DisableDuration) then 0
  else if w ≤ t then max 1 (x20MaxConsecutiveFailures - x.strikes)
  else x20MaxConsecutiveFailures

section Allowance

variable {w t t' : Int} {x : X20State}

theorem X20State.allowance_le : x.allowance w t ≤ x20MaxConsecutiveFailures := by
  unfold X20State.allowance x20MaxConsecutiveFailures
  split_ifs <;> omega

theorem X20State.allowance_mono (ht : t ≤ t') : x.allowance w t' ≤ x.allowance w t := by
  unfold X20State.allowance x20MaxConsecutiveFailures
  cases x.shutUntil (w + x20DisableDuration) with
  | true => simp
  | false =>
    simp only [Bool.false_eq_true, or_false]
    split_ifs <;> omega

theorem X20State.allowance_of_open (hopen : x.shutUntil (w + x20DisableDuration) = false)
    (ht : t ≤ w + x20DisableDuration) :
    x.allowance w t = if w ≤ t then max 1 (3 - x.strikes) else 3 := by
  refine if_neg ?_
  rw [hopen]
  simpa using ht

/-- A failure in the window takes one of the allowance. -/
theorem X20State.allowance_record {a : Int} (hactive : x.active a = true) (ha : a ≤ t')
    (ht : t ≤ t') :
    (if w ≤ t' ∧ t' ≤ w + x20DisableDuration then 1 else 0) +
      (x.record false t').allowance w t' ≤ x.allowance w t := by
  by_cases hover : w + x20DisableDuration < t'
  · have hzero : (x.record false t').allowance w t' = 0 := if_pos (.inl hover)
    rw [hzero, if_neg (by omega)]
    exact Nat.zero_le _
  -- The randomisation was on inside the window, so no suspension lasts beyond it.
  have hopen : x.shutUntil (w + x20DisableDuration) = false := by
    rw [Bool.eq_false_iff]
    intro hshut
    have := X20State.lt_of_active hshut hactive
    omega
  rw [X20State.allowance_of_open hopen (by omega)]
  by_cases hin : w ≤ t'
  · rw [if_pos ⟨hin, by omega⟩, X20State.record, if_neg Bool.false_ne_true]
    unfold x20MaxConsecutiveFailures
    by_cases hthird : 3 ≤ x.strikes + 1
    · have hzero : X20State.allowance w ⟨0, some (t' + x20DisableDuration)⟩ t' = 0 :=
        if_pos (.inr (by simpa [X20State.shutUntil] using hin))
      rw [if_pos hthird, hzero]
      split_ifs <;> omega
    · have hnext : X20State.allowance w { x with strikes := x.strikes + 1 } t' =
          max 1 (3 - (x.strikes + 1)) :=
        (X20State.allowance_of_open (x := { x with strikes := x.strikes + 1 }) hopen
          (by omega)).trans (if_pos hin)
      rw [if_neg hthird, hnext]
      split_ifs <;> omega
  · rw [if_neg (by omega), if_neg (by omega), Nat.zero_add]
    exact X20State.allowance_le

end Allowance

/-! ## Lookups one after the other -/

/-- A lookup with its choices: for `dns.Id()`, for the health check, for the
coins, if it comes to them, and for the rest. -/
structure Lookup where
  req : Msg
  via : Via
  chances : List Chance

/-- When the health record is asked. -/
def Lookup.asked (l : Lookup) : Int := (l.chances.getD 1 {}).now

/-- The spelling that goes out if the record allows it. -/
def Lookup.spelling (l : Lookup) : String :=
  flipName l.req.qname (l.chances.getD 2 {}).flips

def runLookup (server : String) (s : ProxyState × Int) (l : Lookup) :
    Option (Option Msg × ProxyState × Int) :=
  Prog.exec (clockedStep canonicalising) (lookup server l.req l.via) s l.chances

def lookupStep (server : String) (s : ProxyState × Int) (l : Lookup) :
    Option (ProxyState × Int) :=
  (runLookup server s l).map Prod.snd

/-- The lookup fails, in the window of the length of the suspension from `w`. -/
def failsIn (server : String) (w : Int) (s : ProxyState × Int) (l : Lookup) : Bool :=
  (runLookup server s l).any fun r =>
    !r.1.isSome && (w ≤ r.2.2 && r.2.2 ≤ w + x20DisableDuration)

/-- The health record asks for the echo of a name. -/
def Randomises (server : String) (s : ProxyState × Int) (l : Lookup) : Prop :=
  l.req.question ≠ [] ∧ (s.1.x20StateFor server).active l.asked = true

/-- A lookup that finds strikes does not happen to send a name in lower case. -/
def KeepsStrikes (server : String) (s : ProxyState × Int) (l : Lookup) : Prop :=
  Randomises server s l → (s.1.x20StateFor server).strikes ≠ 0 → lowerName l.spelling ≠ l.spelling

instance (server : String) (s : ProxyState × Int) (l : Lookup) :
    Decidable (KeepsStrikes server s l) := by
  unfold KeepsStrikes Randomises
  infer_instance

section Lookups

variable {server : String} {s s' : ProxyState × Int} {l : Lookup} {r : Option Msg}

/-- A lookup goes out in the client's spelling, or it asks for the echo of the
spelling that the coins make. -/
theorem runLookup_cases (h : runLookup server s l = some (r, s')) :
    (∃ name, Judged server s name false r s') ∨
      Randomises server s l ∧ s.2 ≤ l.asked ∧ l.asked ≤ s'.2 ∧
        Judged server s l.spelling true r s' := by
  unfold runLookup at h
  by_cases hq : l.req.question = []
  · rw [lookup_of_nil hq] at h
    obtain ⟨c₀, cs, ⟨id, s₀⟩, hcs, h₀, h⟩ := Prog.exec_call h
    obtain ⟨ht₀, hs₀, -⟩ := clockedStep_eq_some h₀
    obtain ⟨-, hs₀⟩ := Prod.mk.inj (Option.some.inj hs₀)
    have hjudged := Prog.wp_iff.1 (clocked_afterSent (by simp)) cs r s' h
    exact .inl ⟨_, hjudged.of_earlier hs₀.symm ht₀⟩
  · rw [lookup_of_ne_nil hq] at h
    obtain ⟨c₀, cs, ⟨id, s₀⟩, hcs, h₀, h⟩ := Prog.exec_call h
    obtain ⟨ht₀, hs₀, -⟩ := clockedStep_eq_some h₀
    obtain ⟨-, hs₀⟩ := Prod.mk.inj (Option.some.inj hs₀)
    obtain ⟨c₁, cs, ⟨active, s₁⟩, rfl, h₁, h⟩ := Prog.exec_call h
    obtain ⟨ht₁, hs₁, hnow₁⟩ := clockedStep_eq_some h₁
    obtain ⟨hactive, hs₁⟩ := Prod.mk.inj (Option.some.inj hs₁)
    have hasked : l.asked = c₁.now := by rw [Lookup.asked, hcs]; rfl
    dsimp only at h ht₁ hactive hs₁
    split_ifs at h with hon
    · obtain ⟨c₂, cs, ⟨name, s₂⟩, rfl, h₂, h⟩ := Prog.exec_call h
      obtain ⟨ht₂, hs₂, -⟩ := clockedStep_eq_some h₂
      obtain ⟨hname, hs₂⟩ := Prod.mk.inj (Option.some.inj hs₂)
      dsimp only at h
      have hspelling : l.spelling = name := by
        rw [Lookup.spelling, hcs, ← hname]
        rfl
      have hjudged := Prog.wp_iff.1 (clocked_afterSent fun _ => hq) cs r s' h
      have htime := hjudged.time
      refine .inr ⟨⟨hq, ?_⟩, by omega, by omega, ?_⟩
      · rw [hasked, hs₀, hactive, hon]
      · rw [hspelling]
        exact hjudged.of_earlier (by rw [← hs₂, ← hs₁, hs₀]) (by omega)
    · have hjudged := Prog.wp_iff.1 (clocked_afterSent (by simp)) cs r s' h
      exact .inl ⟨_, hjudged.of_earlier (by rw [← hs₁, hs₀]) (by omega)⟩

/-- A lookup leaves the health record, or it finds the randomisation on, fails
and is recorded. -/
theorem lookupStep_cases (hl : lookupStep server s l = some s') (hkeeps : KeepsStrikes server s l)
    (w : Int) :
    s.2 ≤ s'.2 ∧
      (failsIn server w s l = false ∧ s'.1.x20StateFor server = s.1.x20StateFor server ∨
        (failsIn server w s l = true ↔ w ≤ s'.2 ∧ s'.2 ≤ w + x20DisableDuration) ∧
          (s.1.x20StateFor server).active l.asked = true ∧ l.asked ≤ s'.2 ∧
          s'.1.x20StateFor server = (s.1.x20StateFor server).record false s'.2) := by
  obtain ⟨⟨r, s''⟩, hrun, rfl⟩ := Option.map_eq_some_iff.1 hl
  have hfails : failsIn server w s l =
      (!r.isSome && (decide (w ≤ s''.2) && decide (s''.2 ≤ w + x20DisableDuration))) := by
    rw [failsIn, hrun]
    rfl
  rcases runLookup_cases hrun with ⟨name, h⟩ | ⟨hon, hasked, hend, h⟩
  · refine ⟨h.time, .inl ⟨?_, h.record⟩⟩
    have hsome : r.isSome = true := h.answered
    rw [hfails, hsome]
    rfl
  · refine ⟨h.time, ?_⟩
    have hsome := h.answered
    have hrecord := h.record
    by_cases hlower : lowerName l.spelling = l.spelling
    · -- A pass would clear the strikes, but there are none.
      have hstrikes : (s.1.x20StateFor server).strikes = 0 := by
        by_contra hne
        exact hkeeps hon hne hlower
      refine .inl ⟨?_, ?_⟩
      · rw [hfails, hsome]
        simp [hlower]
      · rw [hrecord, if_pos rfl, X20State.record, if_pos (by simpa using hlower), ← hstrikes]
    · refine .inr ⟨?_, hon.2, hend, ?_⟩
      · rw [hfails, hsome]
        simp [hlower]
      · rw [hrecord, if_pos rfl, decide_eq_false hlower]

/-- No window of the length of the suspension has more failures than suspend the
randomisation, if no lookup that finds strikes happens to send a name in lower
case. -/
theorem failures_bounded {ls : List Lookup}
    (hkeeps : AllSteps (lookupStep server) (KeepsStrikes server) s ls) (w : Int) :
    countSteps (lookupStep server) (failsIn server w) s ls ≤ x20MaxConsecutiveFailures := by
  refine (countSteps_le (fun s => (s.1.x20StateFor server).allowance w s.2)
    ?_ ?_ hkeeps).trans X20State.allowance_le
  · intro s l s' hkeeps hl
    obtain ⟨ht, ⟨hmark, hx⟩ | ⟨hmark, hactive, ha, hx⟩⟩ := lookupStep_cases hl hkeeps w
    · rw [hmark, hx, if_neg Bool.false_ne_true, Nat.zero_add]
      exact X20State.allowance_mono ht
    · simp only [hmark, hx]
      exact X20State.allowance_record hactive ha ht
  · intro s l hmark hnone
    rw [lookupStep, Option.map_eq_none_iff] at hnone
    rw [failsIn, hnone] at hmark
    cases hmark

end Lookups

/-- A lookup at time 0, whose first coin falls as given. -/
def sampleLookup (name : String) (flip : Bool) : Lookup where
  req := { question := [⟨name, typeAAAA, classINET⟩] }
  via := .udp
  chances := idle 2 ++ [{ flips := [flip] },
    { reply := .ok { question := [⟨lowerName name, typeAAAA, classINET⟩] } }] ++ idle 1

theorem failures_bounded_three :
    countSteps (lookupStep "192.0.2.53:53") (failsIn "192.0.2.53:53" 0)
      (.new filteringConfig ⟨second, 0, none⟩, 0) (List.replicate 3 (sampleLookup "a." true)) ≤ 3 :=
  failures_bounded (by decide +kernel) 0

/-- A name without letters passes the check whatever the coins say, and clears
the two strikes before it. -/
theorem letterless_name_clears_strikes :
    countSteps (lookupStep "192.0.2.53:53") (failsIn "192.0.2.53:53" 0)
      (.new filteringConfig ⟨second, 0, none⟩, 0)
      [sampleLookup "a." true, sampleLookup "a." true, sampleLookup "1." true,
        sampleLookup "a." true, sampleLookup "a." true] = 4 := by
  decide +kernel

end Ydn64.Dns64
