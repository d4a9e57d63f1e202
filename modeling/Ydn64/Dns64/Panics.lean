import Ydn64.Dns64.Returns

/-!
# Records that the synthesis cannot read

A query for AAAA records is answered with a message or an error, and no run of
the handler indexes out of range (`Answers`).  The address of an A record goes
to `Embed` unchecked.  The library decodes a record with an empty RDATA to an
empty address, which is not unspecified and lies in no ignored subnet
(`synthesisPanics_iff`), and `Embed` indexes into it.  So the handler stays safe
exactly if no such record stands in an A reply that it asks for
(`handleAAAA_answers_iff`).
-/

namespace Ydn64.Dns64

open Ydn64.GoStd Ydn64.Config Ydn64.Lib
open Ydn64.Nat64 (second)

/-- No run of the handler indexes out of range, and it returns. -/
structure Answers {α : Type} (net : Network) (p : Handler α) (s : ProxyState) : Prop where
  safe : Safe net p s
  returns : Returns net p s

/-- The A records as the library decodes them: with four bytes or, if the RDATA
is empty, with none. -/
def DecodedA (rrs : List RR) : Prop :=
  ∀ rr ∈ rrs, ∀ addr, rr.a? = some addr → addr.length = 4 ∨ addr = []

/-- The record is an A record with an empty RDATA. -/
def RR.isEmptyA (rr : RR) : Bool := rr.a? = some []

section Panics

variable {lib : DnsLib} {cfg : ProxyConfig} {req : Msg} {q : Question} {z : Zone}

theorem synthesisPanics_of_four {rr : RR} (h4 : ∀ addr, rr.a? = some addr → addr.length = 4) :
    synthesisPanics cfg rr = false := by
  unfold synthesisPanics
  cases ha : rr.a? with
  | none => rfl
  | some addr =>
    have hto4 : to4 addr = some addr := if_pos (h4 addr ha)
    simp [embedPanics, hto4]

/-- Of the records that the library decodes, the synthesis panics for those with
an empty RDATA. -/
theorem synthesisPanics_iff {ignored : List String}
    (hcfg : cfg.ignoredDstNets = parseIPNets ignored)
    {rrs : List RR} (hdecoded : DecodedA rrs) {rr : RR} (hrr : rr ∈ rrs) :
    synthesisPanics cfg rr = rr.isEmptyA := by
  unfold RR.isEmptyA
  cases ha : rr.a? with
  | none => simp [synthesisPanics, ha]
  | some addr =>
    rcases hdecoded rr hrr addr ha with h4 | rfl
    · have hne : addr ≠ [] := by
        rintro rfl
        cases h4
      have hpanics : synthesisPanics cfg rr = false := by
        apply synthesisPanics_of_four
        intro addr' ha'
        rw [ha] at ha'
        rwa [← Option.some.inj ha']
      simp [hpanics, hne]
    · have hout : anyContains cfg.ignoredDstNets [] = false := by
        rw [hcfg, anyContains, List.any_eq_false]
        intro n hn
        rw [IPNet.contains_nil (parseIPNets_wellFormed hn)]
        exact Bool.false_ne_true
      have hun : isUnspecified [] = false := by decide
      simp [synthesisPanics, ha, embedPanics, hout, hun, to4]

theorem resolution_panics_iff {pref : Pref64} (hpref : z.pref = some pref) {up6 up4 : Option Msg} :
    (resolution lib cfg req q z up6 up4).panics = true ↔
      AsksForA cfg z up6 ∧ ∃ aResp, up4 = some aResp ∧
        aResp.answer.any (synthesisPanics cfg) = true := by
  unfold AsksForA
  cases up6 with
  | none => simp [resolution]
  | some upResp =>
    rw [resolution]
    split_ifs with hname
    · simp [hname]
    · cases husable : usableFrom cfg z upResp with
      | some answer => simp [husable]
      | none =>
        rw [hpref]
        cases up4 with
        | none => simp [resolutionFromA]
        | some aResp =>
          dsimp only
          rw [resolutionFromA_panics]
          simp [hname, husable]

end Panics

/-- A query for AAAA records is answered exactly if it is local, or cached, or
settled by the first reply, or no A record of the second has an empty RDATA. -/
theorem handleAAAA_answers_iff (uc : UnicodeCase) (lib : DnsLib) (s : ProxyState) (req : Msg)
    (q : Question) (z : Zone) (server : String) (via : Via) (up6 up4 : Option Msg)
    {pref : Pref64} (hpref : z.pref = some pref) (htype : q.qtype = typeAAAA)
    (ignored : List String) (hcfg : s.cfg.ignoredDstNets = parseIPNets ignored)
    (hdecoded : ∀ aResp, up4 = some aResp → DecodedA aResp.answer) :
    Answers (echoing (pairForwarder up6 up4)) (handleAAAA uc lib req q z server via) s ↔
      ¬ (isIPv4Only uc q.name = false ∧ CacheMisses s q ∧ AsksForA s.cfg z up6 ∧
        ∃ aResp, up4 = some aResp ∧ ∃ rr ∈ aResp.answer, rr.isEmptyA = true) := by
  have hup6 : pairForwarder up6 up4 server (req.asking q) = up6 :=
    if_pos (congrArg some htype)
  have hup4 : pairForwarder up6 up4 server (req.asking (aQuestion q)) = up4 := rfl
  have hpanics : (resolution lib s.cfg req q z up6 up4).panics = true ↔ AsksForA s.cfg z up6 ∧
      ∃ aResp, up4 = some aResp ∧ ∃ rr ∈ aResp.answer, rr.isEmptyA = true := by
    rw [resolution_panics_iff hpref]
    refine and_congr_right fun _ => exists_congr fun aResp => and_congr_right fun haResp => ?_
    rw [List.any_eq_true]
    refine exists_congr fun rr => and_congr_right fun hrr => ?_
    rw [synthesisPanics_iff hcfg (hdecoded aResp haResp) hrr]
  have hsafe := safe_handleAAAA_iff uc lib s req q z server via (pairForwarder_caseBlind up6 up4)
  rw [hup6, hup4] at hsafe
  have hanswers : Answers (echoing (pairForwarder up6 up4))
      (handleAAAA uc lib req q z server via) s ↔
      Safe (echoing (pairForwarder up6 up4)) (handleAAAA uc lib req q z server via) s :=
    ⟨Answers.safe, fun h => ⟨h, returns_of_safe (echoing_replies _) h⟩⟩
  rw [hanswers, hsafe, ← hpanics]
  simp

/-! ## A record with an empty RDATA -/

/-- A reply to the A request with one A record. -/
def oneAReply (addr : IP) : Msg :=
  { response := true, answer := [⟨"a.example.", classINET, 60, .a addr⟩] }

theorem handleAAAA_answers_iff_oneAReply :
    Answers (echoing (pairForwarder (some {}) (some (oneAReply [192, 0, 2, 1]))))
      (handleAAAA asciiCase anyName sampleQuery ⟨"a.example.", typeAAAA, classINET⟩ filteringZone
        "192.0.2.53:53" .udp) (.new filteringConfig ⟨second, 0, none⟩) := by
  obtain ⟨pref, hpref⟩ : ∃ pref, filteringZone.pref = some pref :=
    Option.isSome_iff_exists.1 (by decide +kernel)
  have hdecoded : DecodedA (oneAReply [192, 0, 2, 1]).answer := by
    intro rr hrr addr ha
    obtain rfl := List.mem_singleton.1 hrr
    obtain rfl := Option.some.inj ha
    exact .inl rfl
  refine (handleAAAA_answers_iff asciiCase anyName _ sampleQuery _ _ _ .udp _ _ hpref rfl
    [] rfl fun aResp haResp => ?_).2 ?_
  · obtain rfl := Option.some.inj haResp
    exact hdecoded
  · rintro ⟨-, -, -, aResp, haResp, rr, hrr, hempty⟩
    obtain rfl := Option.some.inj haResp
    obtain rfl := List.mem_singleton.1 hrr
    cases hempty

/-- The run of `sampleQuery` up to the embedding of the record. -/
def emptyAChances : List Chance :=
  idle 1 ++ lookupChances (Msg.replyTo {} sampleQuery) ++ idle 1 ++
    lookupChances ((oneAReply []).replyTo (sampleQuery.asking ⟨"a.example.", typeA, classINET⟩)) ++
    idle 1

/-- An A record with an empty RDATA stops the process. -/
theorem emptyA_panics :
    ¬ Answers (echoing (pairForwarder (some {}) (some (oneAReply []))))
      (handleAAAA asciiCase anyName sampleQuery ⟨"a.example.", typeAAAA, classINET⟩ filteringZone
        "192.0.2.53:53" .udp) (.new filteringConfig ⟨second, 0, none⟩) := by
  intro hanswers
  have hnext : ∃ op ∈ Prog.nextOp (proxyStep (echoing (pairForwarder (some {})
      (some (oneAReply []))))) (handleAAAA asciiCase anyName sampleQuery
        ⟨"a.example.", typeAAAA, classINET⟩ filteringZone "192.0.2.53:53" .udp)
      (.new filteringConfig ⟨second, 0, none⟩) emptyAChances, op.Panics := by
    decide +kernel
  obtain ⟨op, hop, hpanics⟩ := hnext
  exact hanswers.safe emptyAChances op hop hpanics

end Ydn64.Dns64
