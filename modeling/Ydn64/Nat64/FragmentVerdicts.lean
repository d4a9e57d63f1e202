import Ydn64.Nat64.FragmentPath

/-!
# What becomes of a fragmented message that is no echo request

The interceptor decides about each fragment on its own.  The fragment at offset
zero shows the type of the message: it is passed on if nothing of the datagram is
buffered and takes the buffered rest down with it otherwise.  Every other fragment
is buffered, whatever the message is.  So the datagram is treated as a whole
exactly when the first fragment finds something buffered, or the policy drops
every fragment (`allOrNothing_iff`).

`waiting` says what is buffered from the times of the arrivals alone: an entry is
opened by the first of them, replaced thirty seconds later and dropped by the
seventeenth.
-/

namespace Ydn64.Nat64

open Ydn64.GoStd Ydn64.Lib

/-- The interceptor on one packet after the other: which of them it consumes. -/
def interceptAll (svc : Service) (icmpConn : Bool) (st : IcmpState) (reasm : ReasmTable) :
    List (Bytes × Int) → List Bool
  | [] => []
  | (pkt, now) :: rest =>
    let res := interceptICMPPacket svc icmpConn st reasm pkt now
    res.consumed :: interceptAll svc icmpConn res.st res.reasm rest

/-- Every packet is consumed, or every packet is passed on. -/
def AllOrNothing (verdicts : List Bool) : Prop :=
  (∀ v ∈ verdicts, v = true) ∨ ∀ v ∈ verdicts, v = false

instance (verdicts : List Bool) : Decidable (AllOrNothing verdicts) :=
  inferInstanceAs (Decidable (_ ∨ _))

/-- A message that is no echo request, from an allowed source to a pool address,
cut into at least two fragments that fit their packets. -/
structure NonEcho (svc : Service) (h : FixedHeader) (pre : List ExtHeader) (c : Cut) : Prop where
  pool : svc.pool6Net.contains h.dst.toList = true
  allowed : svc.settings.isAllowed h.src.toList = true
  type : byteAt c.body 0 ≠ 128
  parts : 2 ≤ c.parts.length
  size : ∀ part ∈ c.parts, (encodeChain pre 44).length + 8 + part.length ≤ 65535

/-- The checks after the allowed sources drop every packet of the pair. -/
def DropsPair (svc : Service) (icmpConn : Bool) (src dst : Addr16) : Prop :=
  svc.pool6Net.contains src.toList = true ∨ icmpConn = false ∨
    svc.settings.isIgnoredDst (dst.toList.drop 12) = true

instance (svc : Service) (icmpConn : Bool) (src dst : Addr16) :
    Decidable (DropsPair svc icmpConn src dst) :=
  inferInstanceAs (Decidable (_ ∨ _ ∨ _))

/-! ## One fragment -/

section Fragment

variable {svc : Service} {icmpConn : Bool} {h : FixedHeader} {pre : List ExtHeader}
  (ident : UInt32) {c : Cut} {f : Fragment}

theorem interceptICMPPacket_fragment (hn : NonEcho svc h pre c) (hf : f ∈ c.fragments)
    (st : IcmpState) (reasm : ReasmTable) (now : Int) :
    interceptICMPPacket svc icmpConn st reasm (fragmentPacket h pre 58 ident f) now =
      if DropsPair svc icmpConn h.src h.dst then ⟨st, reasm, true, none⟩
      else match echoPayload reasm (fragmentPacket h pre 58 ident f)
          { fragmentInfo ident f with l4Offset := fragmentStart pre } h.src h.dst now with
        | (reasm, .pass) => ⟨st, reasm, false, none⟩
        | (reasm, .drop) => ⟨st, reasm, true, none⟩
        | (reasm, .echo msg) =>
          match handleEchoRequest svc.pref64 st msg h.src h.dst now with
          | (st, forward) => ⟨st, reasm, true, forward⟩ := by
  have hlen : 48 ≤ (fragmentPacket h pre 58 ident f).length := by
    rw [fragmentPacket_length, fragmentStart]
    omega
  have hlast := addr4At_eq_drop (fragmentPacket h pre 58 ident f)
  have hsrc : addr16At (fragmentPacket h pre 58 ident f) 8 = h.src := FixedHeader.packet_src ..
  have hdst : addr16At (fragmentPacket h pre 58 ident f) 24 = h.dst := FixedHeader.packet_dst ..
  rw [hdst] at hlast
  unfold interceptICMPPacket DropsPair
  rw [if_neg (by omega), parse_icmpv6Fragment h pre ident (Cut.offset_lt hf)]
  dsimp only
  rw [hsrc, hdst, hlast, hn.pool, hn.allowed]
  generalize echoPayload reasm _ _ _ _ _ = res
  obtain ⟨reasm', payload⟩ := res
  cases payload <;> split_ifs <;> simp_all

/-- The structural checks on a fragment. -/
theorem echoPayload_fragment (hn : NonEcho svc h pre c) (hf : f ∈ c.fragments)
    (reasm : ReasmTable) (now : Int) :
    echoPayload reasm (fragmentPacket h pre 58 ident f)
        { fragmentInfo ident f with l4Offset := fragmentStart pre } h.src h.dst now =
      if f.offsetUnits = 0 then
        match reasm.cancel ⟨h.src, h.dst, ident⟩ with
        | (reasm, true) => (reasm, .drop)
        | (reasm, false) => (reasm, .pass)
      else match reasm.add ⟨h.src, h.dst, ident⟩ f.offsetUnits f.more f.bytes now with
        | (reasm, none) => (reasm, .drop)
        | (reasm, some complete) =>
          if byteAt complete 0 ≠ 128 then (reasm, .drop)
          else (reasm, checkedEcho h.src h.dst complete) := by
  have hsize := hn.size _ (bytes_of_mem_fragmentsFrom hf)
  have hpayload : (encodeChain pre 44 ++ (fragmentHeader 58 ident f ++ f.bytes)).length =
      (encodeChain pre 44).length + 8 + f.bytes.length := by
    rw [List.length_append, List.length_append, fragmentHeader_length]
    omega
  have hplen : (uint16At (fragmentPacket h pre 58 ident f) 4).toNat =
      (encodeChain pre 44).length + 8 + f.bytes.length := by
    rw [fragmentPacket, FixedHeader.packet_plen _ _ _ (by omega), hpayload]
  have hlen := fragmentPacket_length h pre 58 ident f
  unfold fragmentStart at hlen
  unfold echoPayload
  dsimp only
  rw [hplen, if_neg (by omega), if_neg (by simp [fragmentInfo]), fragmentPacket_drop,
    if_neg (Cut.nonempty_of_mem hf)]
  by_cases hzero : f.offsetUnits = 0
  · have hbyte : byteAt f.bytes 0 ≠ 128 := by
      rw [Cut.byteAt_of_offset_zero hf hzero]
      exact hn.type
    rw [if_pos hzero, if_pos ⟨hzero, hbyte⟩]
    rfl
  · rw [if_neg hzero, if_neg fun hz => hzero hz.1]
    rfl

theorem interceptICMPPacket_first (hn : NonEcho svc h pre c) (hf : f ∈ c.fragments)
    (hd : ¬ DropsPair svc icmpConn h.src h.dst) (hzero : f.offsetUnits = 0) (st : IcmpState)
    (reasm : ReasmTable) (now : Int) :
    (interceptICMPPacket svc icmpConn st reasm (fragmentPacket h pre 58 ident f) now).consumed =
      (reasm.find ⟨h.src, h.dst, ident⟩).isSome := by
  rw [interceptICMPPacket_fragment ident hn hf, if_neg hd, echoPayload_fragment ident hn hf,
    if_pos hzero, ReasmTable.cancel]
  cases reasm.find ⟨h.src, h.dst, ident⟩ <;> rfl

theorem interceptICMPPacket_later (hn : NonEcho svc h pre c) (hf : f ∈ c.fragments)
    (hd : ¬ DropsPair svc icmpConn h.src h.dst) (hoff : f.offsetUnits ≠ 0) (st : IcmpState)
    (reasm : ReasmTable) (now : Int) :
    (interceptICMPPacket svc icmpConn st reasm (fragmentPacket h pre 58 ident f) now).consumed
        = true ∧
      (interceptICMPPacket svc icmpConn st reasm (fragmentPacket h pre 58 ident f) now).reasm =
        (reasm.add ⟨h.src, h.dst, ident⟩ f.offsetUnits f.more f.bytes now).1 := by
  rw [interceptICMPPacket_fragment ident hn hf, if_neg hd, echoPayload_fragment ident hn hf,
    if_neg hoff]
  generalize reasm.add _ _ _ _ _ = res
  obtain ⟨reasm', pdu⟩ := res
  cases pdu with
  | none => exact ⟨rfl, rfl⟩
  | some complete =>
    unfold checkedEcho
    dsimp only
    split_ifs <;> exact ⟨rfl, rfl⟩

/-! ## The fragments in order of arrival -/

theorem interceptAll_drops (hn : NonEcho svc h pre c)
    (hd : DropsPair svc icmpConn h.src h.dst) {order : List (Fragment × Int)}
    (hmem : ∀ x ∈ order, x.1 ∈ c.fragments) (st : IcmpState) (reasm : ReasmTable) :
    interceptAll svc icmpConn st reasm (onWire h pre 58 ident order) =
      List.replicate order.length true := by
  induction order generalizing st reasm with
  | nil => rfl
  | cons x order ih =>
    have hrest := ih (fun y hy => hmem y (List.mem_cons_of_mem _ hy)) st reasm
    rw [onWire, List.map_cons, interceptAll,
      interceptICMPPacket_fragment ident hn (hmem x List.mem_cons_self), if_pos hd]
    dsimp only
    rw [← onWire, hrest]
    rfl

theorem interceptAll_later (hn : NonEcho svc h pre c)
    (hd : ¬ DropsPair svc icmpConn h.src h.dst) {order : List (Fragment × Int)}
    (hmem : ∀ x ∈ order, x.1 ∈ c.fragments ∧ x.1.offsetUnits ≠ 0) (st : IcmpState)
    (reasm : ReasmTable) :
    interceptAll svc icmpConn st reasm (onWire h pre 58 ident order) =
      List.replicate order.length true := by
  induction order generalizing st reasm with
  | nil => rfl
  | cons x order ih =>
    obtain ⟨hf, hoff⟩ := hmem x List.mem_cons_self
    obtain ⟨hconsumed, -⟩ := interceptICMPPacket_later ident hn hf hd hoff st reasm x.2
    rw [onWire, List.map_cons, interceptAll, hconsumed, ← onWire,
      ih (fun y hy => hmem y (List.mem_cons_of_mem _ hy))]
    rfl

/-- All fragments but the first are consumed, and the first one is if the table
holds something of the datagram when it comes. -/
theorem interceptAll_eq (hn : NonEcho svc h pre c)
    (hd : ¬ DropsPair svc icmpConn h.src h.dst) {before after : List (Fragment × Int)}
    {first : Fragment × Int}
    (hbefore : ∀ x ∈ before, x.1 ∈ c.fragments ∧ x.1.offsetUnits ≠ 0)
    (hafter : ∀ x ∈ after, x.1 ∈ c.fragments ∧ x.1.offsetUnits ≠ 0)
    (hfirst : first.1 ∈ c.fragments) (hzero : first.1.offsetUnits = 0) (st : IcmpState)
    (reasm : ReasmTable) :
    interceptAll svc icmpConn st reasm (onWire h pre 58 ident (before ++ first :: after)) =
      List.replicate before.length true ++
        (((addAll reasm ⟨h.src, h.dst, ident⟩ before).1.find ⟨h.src, h.dst, ident⟩).isSome ::
          List.replicate after.length true) := by
  induction before generalizing st reasm with
  | nil =>
    have hx := interceptICMPPacket_first ident hn hfirst hd hzero st reasm first.2
    rw [List.nil_append, onWire, List.map_cons, interceptAll, hx, ← onWire,
      interceptAll_later ident hn hd hafter]
    rfl
  | cons x before ih =>
    obtain ⟨hf, hoff⟩ := hbefore x List.mem_cons_self
    obtain ⟨hconsumed, hreasm⟩ :=
      interceptICMPPacket_later ident hn hf hd hoff st reasm x.2
    rw [List.cons_append, onWire, List.map_cons, interceptAll, hconsumed, hreasm, ← onWire,
      ih (fun y hy => hbefore y (List.mem_cons_of_mem _ hy))]
    rfl

end Fragment

/-! ## What is buffered -/

/-- One more fragment of a datagram arrives.  The state is the time at which the
entry was opened and the number of its fragments. -/
def arrive : Option (Int × Nat) → Int → Option (Int × Nat)
  | none, now => some (now, 1)
  | some (created, n), now =>
    if created < now - maxReasmAge then some (now, 1)
    else if n = maxFragmentsPerDgram then none
    else some (created, n + 1)

/-- What is buffered of a datagram after fragments have arrived at these times. -/
def waiting (arrivals : List Int) : Option (Int × Nat) := arrivals.foldl arrive none

/-- The table holds nothing, or some of the fragments `done` of a datagram. -/
inductive Buffers (key : ReasmKey) (done : List Fragment) : ReasmTable → Option (Int × Nat) → Prop
  | nothing : Buffers key done {} none
  | some {fed : List Fragment} {created : Int} (inv : ReasmInv (partialTable key created fed))
      (sub : fed.Sublist done) (count : fed.length ≤ maxFragmentsPerDgram) :
      Buffers key done (partialTable key created fed) (.some (created, fed.length))

theorem add_eq_of_expireLocked_eq {t : ReasmTable} (t' : ReasmTable) {now : Int}
    (h : t.expireLocked now = t'.expireLocked now) (key : ReasmKey) (off : UInt16) (more : Bool)
    (frag : Bytes) : t.add key off more frag now = t'.add key off more frag now := by
  unfold ReasmTable.add
  rw [h]

namespace Buffers

variable {key : ReasmKey} {done rest : List Fragment} {c : Cut} {f : Fragment} {t : ReasmTable}
  {w : Option (Int × Nat)}

theorem add_empty (hperm : (done ++ f :: rest).Perm c.fragments) (hrest : rest ≠ []) (now : Int) :
    Buffers key (f :: done) (({} : ReasmTable).add key f.offsetUnits f.more f.bytes now).1
      (Option.some (now, 1)) := by
  have hfed : Fed c [] (f :: (done ++ rest)) := ⟨List.perm_middle.symm.trans hperm⟩
  have hadd := (Holds.init key now).add hfed (by decide)
  rw [if_neg (by simp [hrest])] at hadd
  have hinv := ReasmInv.init.add key f.offsetUnits f.more f.bytes now
  rw [hadd] at hinv ⊢
  exact .some hinv (List.sublist_append_left [f] done) (Nat.succ_le_of_lt (by decide))

theorem add_full {fed : List Fragment} {created now : Int}
    (h : Holds t key now created fed) (hfed : Fed c fed (f :: rest))
    (hfind : t.find key ≠ none) (hfull : fed.length = maxFragmentsPerDgram) :
    (t.add key f.offsetUnits f.more f.bytes now).1 = {} := by
  obtain ⟨hne, halign, hbudget⟩ := h.fits hfed
  have hnot : ¬ t.Accepts key f.offsetUnits f.more f.bytes := by
    rintro ⟨-, -, -, -, -, -, -, hcount⟩
    rw [h.fragsOf, List.length_map] at hcount
    omega
  obtain ⟨e, he⟩ := Option.ne_none_iff_exists'.mp hfind
  unfold ReasmTable.add
  rw [h.expire]
  dsimp only
  rw [if_neg (by tauto), if_neg (by omega), he]
  dsimp only
  rw [ReasmTable.addTo_of_not_accepts he rfl (ReasmTable.fragsOf_of_find he).symm hnot hne halign
    hbudget (fun hnone => absurd hnone hfind), h.cancel]

theorem find_partialTable (key : ReasmKey) (created : Int) (fed : List Fragment) :
    (partialTable key created fed).find key = Option.some (partialEntry created fed) := by
  simp [ReasmTable.find, partialTable]

theorem expireLocked_partialTable {created now : Int} (fed : List Fragment)
    (hold : created < now - maxReasmAge) :
    (partialTable key created fed).expireLocked now = {} := by
  simp [ReasmTable.expireLocked, partialTable, partialEntry, hold, ReasmTable.releaseEntryLocked]

theorem add (hb : Buffers key done t w) (hperm : (done ++ f :: rest).Perm c.fragments)
    (hrest : rest ≠ []) (now : Int) :
    Buffers key (f :: done) (t.add key f.offsetUnits f.more f.bytes now).1 (arrive w now) := by
  cases hb with
  | nothing => exact add_empty hperm hrest now
  | @some fed created hinv hsub hcount =>
    rw [arrive]
    by_cases hold : created < now - maxReasmAge
    · rw [if_pos hold, add_eq_of_expireLocked_eq {} (expireLocked_partialTable fed hold)]
      exact add_empty hperm hrest now
    rw [if_neg hold]
    have hholds := Holds.partialTable hinv (not_lt.mp hold)
    obtain ⟨others, hothers⟩ := hsub.exists_perm_append
    have hfed : Fed c fed (f :: (others ++ rest)) := by
      refine ⟨.trans (.symm ((hothers.append_right _).trans ?_)) hperm⟩
      rw [List.append_assoc]
      exact List.perm_middle.append_left fed
    by_cases hfull : fed.length = maxFragmentsPerDgram
    · have hfind : (partialTable key created fed).find key ≠ none := by
        rw [find_partialTable]
        exact Option.some_ne_none _
      rw [if_pos hfull, add_full hholds hfed hfind hfull]
      exact .nothing
    · rw [if_neg hfull]
      have hadd := hholds.add hfed (by omega)
      rw [if_neg (by simp [hrest])] at hadd
      have hnext := hinv.add key f.offsetUnits f.more f.bytes now
      rw [hadd] at hnext ⊢
      exact .some hnext (hsub.cons_cons f) (by rw [List.length_cons]; omega)

end Buffers

theorem buffers_addAll {key : ReasmKey} {c : Cut} {order : List (Fragment × Int)}
    {done rest : List Fragment} {t : ReasmTable} {w : Option (Int × Nat)}
    (hb : Buffers key done t w) (hperm : (done ++ (order.map Prod.fst ++ rest)).Perm c.fragments)
    (hrest : rest ≠ []) :
    ∃ done', Buffers key done' (addAll t key order).1 ((order.map Prod.snd).foldl arrive w) := by
  induction order generalizing done t w with
  | nil => exact ⟨done, hb⟩
  | cons x order ih =>
    rw [List.map_cons, List.cons_append] at hperm
    have hnext := hb.add hperm (by simp [hrest]) x.2
    exact ih hnext (List.perm_middle.symm.trans hperm)

theorem find_isSome_iff_waiting {key : ReasmKey} {c : Cut} {order : List (Fragment × Int)}
    {rest : List Fragment} (hperm : (order.map Prod.fst ++ rest).Perm c.fragments)
    (hrest : rest ≠ []) :
    ((addAll {} key order).1.find key).isSome = (waiting (order.map Prod.snd)).isSome := by
  obtain ⟨done, hb⟩ := buffers_addAll (.nothing : Buffers key [] {} none) hperm hrest
  unfold waiting
  generalize (addAll {} key order).1 = t at hb ⊢
  generalize (order.map Prod.snd).foldl arrive none = w at hb ⊢
  cases hb with
  | nothing => rfl
  | some hinv hsub hcount => rw [Buffers.find_partialTable]; rfl

/-! ## The verdict on the datagram -/

theorem Cut.countP_offset_zero {c : Cut} (hparts : 2 ≤ c.parts.length) :
    c.fragments.countP (·.offsetUnits = 0) = 1 := by
  obtain ⟨first, next, parts, heq⟩ := Cut.exists_parts_eq hparts
  obtain ⟨rest, hfrags, hlater⟩ := Cut.fragments_eq heq
  have hpos : 0 < first.length :=
    List.length_pos_of_ne_nil (c.nonempty first (by rw [heq]; exact List.mem_cons_self))
  rw [hfrags, List.countP_cons_of_pos (by simp), List.countP_eq_zero.mpr]
  intro f hf hzero
  have := hlater f hf
  rw [of_decide_eq_true hzero] at this
  change first.length ≤ 0 at this
  omega

theorem exists_split {order : List (Fragment × Int)}
    (hcount : order.countP (·.1.offsetUnits = 0) = 1) :
    ∃ first after, order = order.takeWhile (·.1.offsetUnits ≠ 0) ++ first :: after ∧
      first.1.offsetUnits = 0 ∧ ∀ x ∈ after, x.1.offsetUnits ≠ 0 := by
  induction order with
  | nil => cases hcount
  | cons x order ih =>
    by_cases hx : x.1.offsetUnits = 0
    · rw [List.countP_cons_of_pos (by simpa using hx), Nat.add_eq_right, List.countP_eq_zero]
        at hcount
      refine ⟨x, order, ?_, hx, fun y hy => by simpa using hcount y hy⟩
      rw [List.takeWhile_cons_of_neg (by simpa using hx), List.nil_append]
    · rw [List.countP_cons_of_neg (by simpa using hx)] at hcount
      obtain ⟨first, after, horder, hzero, hafter⟩ := ih hcount
      refine ⟨first, after, ?_, hzero, hafter⟩
      rw [List.takeWhile_cons_of_pos (by simpa using hx), List.cons_append, ← horder]

theorem allOrNothing_of_first {m n : Nat} (h : 0 < m + n) (b : Bool) :
    AllOrNothing (List.replicate m true ++ (b :: List.replicate n true)) ↔ b = true := by
  constructor
  · rintro (hall | hnone)
    · exact hall b (List.mem_append_right _ List.mem_cons_self)
    · have htrue : true ∈ List.replicate m true ++ (b :: List.replicate n true) := by
        rcases Nat.eq_zero_or_pos m with hm | hm
        · exact List.mem_append_right _ (List.mem_cons_of_mem _
            (List.mem_replicate.mpr ⟨by omega, rfl⟩))
        · exact List.mem_append_left _ (List.mem_replicate.mpr ⟨by omega, rfl⟩)
      cases hnone true htrue
  · rintro rfl
    left
    intro v hv
    rw [List.mem_append, List.mem_cons] at hv
    rcases hv with hv | rfl | hv
    · exact List.eq_of_mem_replicate hv
    · rfl
    · exact List.eq_of_mem_replicate hv

/-- The fragments of a message that is no echo request, in any order and at any
times: the interceptor passes all of them on or consumes all of them exactly when
the policy drops the pair of addresses or something of the datagram is buffered
when the fragment at offset zero arrives. -/
theorem allOrNothing_iff {svc : Service} {icmpConn : Bool} {h : FixedHeader}
    {pre : List ExtHeader} {c : Cut} (hn : NonEcho svc h pre c) (ident : UInt32) (st : IcmpState)
    {order : List (Fragment × Int)} (hperm : (order.map Prod.fst).Perm c.fragments) :
    AllOrNothing (interceptAll svc icmpConn st {} (onWire h pre 58 ident order)) ↔
      DropsPair svc icmpConn h.src h.dst ∨
        (waiting ((order.takeWhile (·.1.offsetUnits ≠ 0)).map Prod.snd)).isSome := by
  have hmem : ∀ x ∈ order, x.1 ∈ c.fragments :=
    fun x hx => hperm.mem_iff.mp (List.mem_map_of_mem hx)
  by_cases hd : DropsPair svc icmpConn h.src h.dst
  · rw [interceptAll_drops ident hn hd hmem]
    exact ⟨fun _ => .inl hd, fun _ => .inl fun v hv => List.eq_of_mem_replicate hv⟩
  have hcount : order.countP (·.1.offsetUnits = 0) = 1 := by
    rw [← Cut.countP_offset_zero hn.parts, ← hperm.countP_eq, List.countP_map]
    rfl
  obtain ⟨first, after, horder, hzero, hafter⟩ := exists_split hcount
  generalize hbefore : order.takeWhile (·.1.offsetUnits ≠ 0) = before at horder ⊢
  have hne : ∀ x ∈ before, x.1.offsetUnits ≠ 0 := by
    intro x hx
    rw [← hbefore] at hx
    have := List.mem_takeWhile_imp hx
    simpa using this
  subst horder
  have hsize : 0 < before.length + after.length := by
    have := hperm.length_eq
    rw [c.fragments_length, List.length_map, List.length_append, List.length_cons] at this
    have := hn.parts
    omega
  rw [List.map_append] at hperm
  rw [interceptAll_eq ident hn hd (fun x hx => ⟨hmem x (List.mem_append_left _ hx), hne x hx⟩)
    (fun x hx => ⟨hmem x (by simp [hx]), hafter x hx⟩) (hmem first (by simp)) hzero,
    allOrNothing_of_first hsize, find_isSome_iff_waiting hperm (by simp)]
  exact ⟨.inr, fun hor => hor.resolve_left hd⟩

/-- An Echo Reply of sixteen bytes in two parts. -/
def replyCut : Cut where
  parts := [[129, 0, 0, 0, 0, 7, 0, 1], [5, 5, 5, 5, 5, 5, 5, 5]]
  ne := by decide
  nonempty := by decide
  aligned := by decide
  size_le := by decide

/-- The header of a packet from `200::1` to `1.2.3.4` in the pool. -/
def replyHeader : FixedHeader := .built 64 pingSrc pingDst96

/-- With the second fragment first, both are consumed. -/
theorem allOrNothing_reversed :
    ∃ svc ∈ (newService asciiCase (poolConfig "300:1:2:3::/96") ["200::/7"] []).toOption,
      AllOrNothing (interceptAll svc true (IcmpState.init 0) {}
        (onWire replyHeader [] 58 9 (replyCut.fragments.reverse.map fun f => (f, 0)))) := by
  have hsvc : ∃ svc ∈ (newService asciiCase (poolConfig "300:1:2:3::/96") ["200::/7"]
      []).toOption, svc.pool6Net.contains replyHeader.dst.toList = true ∧
        svc.settings.isAllowed replyHeader.src.toList = true := by
    decide +kernel
  obtain ⟨svc, hmem, hpool, hallowed⟩ := hsvc
  have hn : NonEcho svc replyHeader [] replyCut :=
    ⟨hpool, hallowed, by decide, by decide, by decide⟩
  have hperm : ((replyCut.fragments.reverse.map fun f => (f, (0 : Int))).map Prod.fst).Perm
      replyCut.fragments := List.reverse_perm replyCut.fragments
  exact ⟨svc, hmem, (allOrNothing_iff hn 9 (IcmpState.init 0) hperm).mpr (.inr (by decide))⟩

/-- In order, the first is passed on and the second is consumed. -/
theorem reply_half_passed :
    ∃ svc ∈ (newService asciiCase (poolConfig "300:1:2:3::/96") ["200::/7"] []).toOption,
      interceptAll svc true (IcmpState.init 0) {}
          (onWire replyHeader [] 58 9 (replyCut.fragments.map fun f => (f, 0))) = [false, true] ∧
        ¬ AllOrNothing [false, true] := by
  decide +kernel

end Ydn64.Nat64
