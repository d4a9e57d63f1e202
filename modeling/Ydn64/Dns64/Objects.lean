import Ydn64.Dns64.World

/-!
# Request objects

A handler passes its request around as a pointer, and `lookup` writes to the
message behind it: the ID and the name of the question are replaced for the
exchange, and deferred closures put them back on every way out.  Here the request
of the handlers of `Ydn64.Dns64.Proxy` is an object on a heap, which they load
where the source reads it and copy where the source copies it.

* `lookupObj_sim`: `lookup` on an object is `lookup` on its value, and the heap is
  the same afterwards.
* `actsAs_handleVia`: every handler asks with copies of its own, so `handleVia` on
  an object is `handleVia` on its value, and the objects that were there before
  are as they were.

A response is a value still: it comes from the library or is a copy, and no
request shares a part of it.  `CopyTo` copies the questions too.
-/

namespace Ydn64.Dns64

open Ydn64.GoStd Ydn64.Config Ydn64.Lib

/-! ## The heap -/

/-- The messages that have been allocated; a pointer is an index. -/
abbrev Heap := List Msg

abbrev Ptr := Nat

/-- A handler with objects. -/
abbrev ObjHandler := StateT Heap Handler

def load (p : Ptr) : ObjHandler Msg := do
  let h ← get
  pure (h.getD p {})

/-- Write to fields of an object. -/
def update (p : Ptr) (f : Msg → Msg) : ObjHandler Unit :=
  modify fun h => h.set p (f (h.getD p {}))

/-- `new(dns.Msg)` and `CopyTo`, with what is then assigned to the copy. -/
def copyTo (p : Ptr) (f : Msg → Msg) : ObjHandler Ptr := do
  let h ← get
  set (h ++ [f (h.getD p {})])
  pure h.length

/-! ## Requests on the heap -/

/-- `lookup`.  The deferred closures run last, the one for the name first. -/
def lookupObj (server : String) (req : Ptr) (via : Via) : ObjHandler (Option Msg) := do
  let orig ← load req
  let id ← drawId
  update req fun m => { m with id }
  let (name, check) ← sentName server (← load req)
  update req fun m => if check then m.setQname name else m
  let first ← lookupUpstream server (← load req) via
  let reply ← retryTCP server (← load req) via first
  let resp ← acceptReply server orig name check reply
  update req fun m => if check then m.setQname orig.qname else m
  update req fun m => { m with id := orig.id }
  pure resp

/-- A request that is an object: a lookup gets a copy of it. -/
def Request.object (p : Ptr) : Request ObjHandler where
  load := Dns64.load p
  lookup server f via := do
    let upReq ← copyTo p f
    lookupObj server upReq via

/-! ## Objects as values -/

section ActsAs

variable {α β γ : Type} {p : Ptr} {req : Msg}

/-- On a heap that has the request behind the pointer, the handler does what the
handler on values does, and leaves every object that was there. -/
def ActsAs (p : Ptr) (req : Msg) (m : ObjHandler α) (q : Handler α) : Prop :=
  ∀ h : Heap, h[p]? = some req → Prog.Sim (fun r b => r.1 = b ∧ h <+: r.2) (m h) q

theorem getD_of_getElem? {h : Heap} (hp : h[p]? = some req) : h.getD p {} = req := by
  rw [List.getD_eq_getElem?_getD, hp, Option.getD_some]

theorem actsAs_pure (a : α) : ActsAs p req (pure a) (pure a) :=
  fun _ _ => .ret ⟨rfl, List.prefix_rfl⟩

theorem sim_lift_bind {P : α → Prop} {T : β × Heap → γ → Prop} {q : Handler α}
    {f : α → ObjHandler β} {g : α → Handler γ} {h : Heap}
    (hq : Prog.Sim (fun a b => a = b ∧ P a) q q) (hf : ∀ a, P a → Prog.Sim T (f a h) (g a)) :
    Prog.Sim T ((liftM q >>= f) h) (q >>= g) := by
  show Prog.Sim T ((q >>= fun a => pure (a, h)) >>= fun r => f r.1 r.2) (q >>= g)
  induction q with
  | ret a =>
    cases hq with
    | ret ha => exact hf a ha.2
  | call op k ih =>
    cases hq with
    | call hk => exact .call fun ans => ih ans (hk ans)

theorem sim_lift_then {T : β × Heap → α → Prop} {q : Handler α} {f : α → ObjHandler β}
    {h : Heap} (hf : ∀ a, Prog.Sim T (f a h) (pure a)) : Prog.Sim T ((liftM q >>= f) h) q := by
  have hsim := sim_lift_bind (P := fun _ => True) (T := T) (g := Prog.ret)
    (.self (fun _ => ⟨rfl, trivial⟩) q) fun a _ => hf a
  rw [Prog.bind_ret] at hsim
  exact hsim

theorem actsAs_lift (q : Handler α) : ActsAs p req (liftM q) (liftM q) := by
  intro h _
  show Prog.Sim _ (q >>= fun a => pure (a, h)) q
  induction q with
  | ret a => exact .ret ⟨rfl, List.prefix_rfl⟩
  | call op k ih => exact .call ih

theorem ActsAs.bind {m : ObjHandler α} {q : Handler α} {f : α → ObjHandler β}
    {g : α → Handler β} (hm : ActsAs p req m q) (hf : ∀ a, ActsAs p req (f a) (g a)) :
    ActsAs p req (m >>= f) (q >>= g) := by
  intro h hp
  refine Prog.Sim.bind (hm h hp) ?_
  rintro ⟨a, h'⟩ b ⟨rfl, hh⟩
  refine (hf a h' (getElem?_mono hh hp)).mono fun r b hr => ?_
  exact ⟨hr.1, hh.trans hr.2⟩

theorem ActsAs.map {m : ObjHandler α} {q : Handler α} (hm : ActsAs p req m q) (f : α → β) :
    ActsAs p req (m >>= fun a => pure (f a)) (q >>= fun a => pure (f a)) :=
  hm.bind fun a => actsAs_pure (f a)

theorem actsAs_load : ActsAs p req (Request.object p).load (Request.value req).load := by
  intro h hp
  have hload : (Request.object p).load h = pure (h.getD p {}, h) := rfl
  rw [hload, getD_of_getElem? hp]
  exact .ret ⟨rfl, List.prefix_rfl⟩

end ActsAs

/-! ## `lookup` -/

section Lookup

variable {server : String} {via : Via} {p : Ptr} {req : Msg}

theorem Msg.setQname_setQname (m : Msg) (name name' : String) :
    (m.setQname name).setQname name' = m.setQname name' := by
  unfold Msg.setQname
  cases hq : m.question <;> simp [hq]

theorem Msg.setQname_qname (m : Msg) : m.setQname m.qname = m := by
  unfold Msg.setQname Msg.qname
  cases hq : m.question with
  | nil => rfl
  | cons q qs =>
    show { m with question := q :: qs } = m
    rw [← hq]

theorem sim_sentName : Prog.Sim (fun a b => a = b ∧ (a.2 = false → a.1 = req.qname))
    (sentName server req) (sentName server req) := by
  unfold sentName
  split_ifs
  · exact .ret ⟨rfl, fun _ => rfl⟩
  · refine .call fun active => ?_
    cases active with
    | false => exact .ret ⟨rfl, fun _ => rfl⟩
    | true => exact .call fun name => .ret ⟨rfl, fun h => by cases h⟩

theorem load_bind_set {β : Type} {h : Heap} (hp : p < h.length) (m : Msg)
    (f : Msg → ObjHandler β) : (load p >>= f) (h.set p m) = f m (h.set p m) := by
  show f ((h.set p m).getD p {}) (h.set p m) = f m (h.set p m)
  simp [List.getD_eq_getElem?_getD, hp]

theorem update_bind_set {β : Type} {h : Heap} (hp : p < h.length) (m : Msg) (g : Msg → Msg)
    (f : Unit → ObjHandler β) : (update p g >>= f) (h.set p m) = f () (h.set p (g m)) := by
  show f () ((h.set p m).set p (g ((h.set p m).getD p {}))) = f () (h.set p (g m))
  simp [List.getD_eq_getElem?_getD, hp]

theorem Msg.sent_eq {m : Msg} {name : String} {check : Bool}
    (h : check = false → name = m.qname) :
    (if check then m.setQname name else m) = m.setQname name := by
  cases check with
  | true => rfl
  | false =>
    rw [h rfl, Msg.setQname_qname]
    rfl

theorem Msg.restored_eq {name : String} {check : Bool} (id : UInt16)
    (h : check = false → name = req.qname) :
    { (if check then ({ req with id }.setQname name).setQname req.qname
        else { req with id }.setQname name) with id := req.id } = req := by
  have hname : (if check then ({ req with id }.setQname name).setQname req.qname
      else { req with id }.setQname name) = { req with id } := by
    cases check with
    | true =>
      rw [if_pos rfl, Msg.setQname_setQname]
      exact Msg.setQname_qname { req with id }
    | false =>
      rw [if_neg Bool.false_ne_true, h rfl]
      exact Msg.setQname_qname { req with id }
  rw [hname]

/-- The lookup leaves the object as it found it, whatever comes of the exchange. -/
theorem lookupObj_sim {h : Heap} (hp : h[p]? = some req) :
    Prog.Sim (fun r b => r = (b, h)) (lookupObj server p via h) (lookup server req via) := by
  obtain ⟨hlt, hreq⟩ := List.getElem?_eq_some_iff.1 hp
  have hself : ∀ {α : Type} (q : Handler α), Prog.Sim (fun a b => a = b ∧ True) q q :=
    fun q => .self (fun _ => ⟨rfl, trivial⟩) q
  have hset : h.set p req = h := by rw [← hreq, List.set_getElem_self hlt]
  conv in lookupObj server p via h => rw [← hset]
  unfold lookupObj lookup
  rw [load_bind_set hlt]
  refine sim_lift_bind (hself _) fun id _ => ?_
  rw [update_bind_set hlt, load_bind_set hlt]
  refine sim_lift_bind sim_sentName fun nc hnc => ?_
  obtain ⟨name, check⟩ := nc
  have hname : check = false → name = req.qname := hnc
  dsimp only
  rw [update_bind_set hlt, load_bind_set hlt, Msg.sent_eq (m := { req with id }) hname]
  refine sim_lift_bind (hself _) fun first _ => ?_
  rw [load_bind_set hlt]
  refine sim_lift_bind (hself _) fun reply _ => ?_
  refine sim_lift_then fun resp => ?_
  rw [update_bind_set hlt, update_bind_set hlt, Msg.restored_eq id hname, hset]
  exact .ret rfl

theorem actsAs_lookupCopy (f : Msg → Msg) :
    ActsAs p req ((Request.object p).lookup server f via)
      ((Request.value req).lookup server f via) := by
  intro h hp
  have hcopy : (Request.object p).lookup server f via h =
      lookupObj server h.length via (h ++ [f (h.getD p {})]) := rfl
  rw [hcopy, getD_of_getElem? hp]
  refine (lookupObj_sim (by simp)).mono ?_
  rintro r b rfl
  exact ⟨rfl, List.prefix_append h _⟩

end Lookup

/-! ## The handlers -/

section Handlers

variable {uc : UnicodeCase} {lib : DnsLib} {p : Ptr} {req : Msg} {q : Question} {z : Zone}
  {server : String} {via : Via}

theorem actsAs_passThrough :
    ActsAs p req (passThrough (.object p) server via) (passThrough req server via) :=
  actsAs_lookupCopy _

theorem actsAs_answerFromA {pref : Pref64} {upResp : Msg} :
    ActsAs p req (answerFromA lib (.object p) q pref server via upResp)
      (answerFromA lib req q pref server via upResp) := by
  refine (actsAs_lookupCopy _).bind fun aResp => ?_
  cases aResp with
  | none => exact actsAs_pure none
  | some aResp =>
    refine (actsAs_lift _).bind fun synth => actsAs_load.bind fun req' => ?_
    dsimp only
    split_ifs
    · exact actsAs_pure _
    · exact (actsAs_lift _).map _

theorem actsAs_resolveAAAA :
    ActsAs p req (resolveAAAA lib (.object p) q z server via)
      (resolveAAAA lib req q z server via) := by
  refine (actsAs_lookupCopy _).bind fun upResp => ?_
  cases upResp with
  | none => exact actsAs_pure none
  | some upResp =>
    dsimp only
    split_ifs
    · exact actsAs_load.map _
    · refine (actsAs_lift _).bind fun usable => ?_
      cases usable with
      | some answer =>
        exact (actsAs_lift _).bind fun _ => actsAs_load.map _
      | none =>
        cases z.pref with
        | none => exact actsAs_load.map _
        | some pref => exact actsAs_answerFromA

theorem actsAs_handleAAAA :
    ActsAs p req (handleAAAA uc lib (.object p) q z server via)
      (handleAAAA uc lib req q z server via) := by
  unfold handleAAAA
  split_ifs
  · exact actsAs_load.map _
  · refine (actsAs_lift _).bind fun cached => ?_
    cases cached with
    | some answer => exact actsAs_load.map _
    | none => exact actsAs_resolveAAAA

theorem actsAs_handleA :
    ActsAs p req (handleA uc lib (.object p) q z server via)
      (handleA uc lib req q z server via) := by
  unfold handleA
  cases isIPv4Only uc q.name with
  | true => exact actsAs_load.map _
  | false =>
    refine (actsAs_lookupCopy _).bind fun resp => ?_
    cases resp with
    | none => exact actsAs_pure none
    | some resp => exact actsAs_pure _

theorem actsAs_handlePTR :
    ActsAs p req (handlePTR uc lib (.object p) q server via)
      (handlePTR uc lib req q server via) := by
  refine (actsAs_lift _).bind fun reversed => ?_
  cases reversed with
  | none => exact actsAs_passThrough
  | some ipv4 =>
    refine actsAs_load.bind fun _ => (actsAs_lookupCopy _).bind fun resp => ?_
    cases resp with
    | none => exact actsAs_pure none
    | some resp => exact actsAs_pure _

theorem actsAs_dispatch :
    ActsAs p req (dispatch uc lib (.object p) q z server via)
      (dispatch uc lib req q z server via) := by
  refine actsAs_load.bind fun _ => ?_
  split_ifs
  · exact actsAs_passThrough.map _
  · exact actsAs_passThrough.map _
  · exact actsAs_handleAAAA.map _
  · exact actsAs_passThrough.map _
  · exact actsAs_handleAAAA.map _
  · exact actsAs_handleA.map _
  · exact actsAs_handlePTR.map _
  · exact actsAs_passThrough.map _

theorem actsAs_handleVia :
    ActsAs p req (handleVia uc lib (.object p) via) (handleVia uc lib req via) := by
  refine actsAs_load.bind fun m => ?_
  cases m.question with
  | nil => exact actsAs_load.map _
  | cons q qs =>
    refine actsAs_load.bind fun _ => (actsAs_lift _).bind fun static => ?_
    cases static with
    | some resp => exact actsAs_pure _
    | none =>
      refine (actsAs_lift _).bind fun cfg => ?_
      dsimp only
      cases matchZone uc cfg.zones (toLower uc q.name) with
      | none => exact actsAs_load.map _
      | some z =>
        dsimp only
        split_ifs
        · exact actsAs_load.map _
        · refine (actsAs_lift _).bind fun server => actsAs_dispatch.bind fun r => ?_
          exact actsAs_load.map _

end Handlers

end Ydn64.Dns64
