import Ydn64.Config.Pref64

/-!
# Embedding and extraction as inverses

`Embed` and `Extract` of `src/config/pref64.go` over all the layouts.  `layout`
is the address format in one line: the prefix, the part of the IPv4 address
that fits before octet 8, a zero octet, the rest of the address and zeros
(`embedInto_eq`).  An address that `Extract` answers is in that format, so the
octet 8 and the suffix are zero and two addresses never share an answer.

`Extract` asks the network of the prefix for membership, and `IPNet.Contains`
reads an address under `::ffff:0:0/96` as an IPv4 address, which no IPv6 network
contains (`contains_iff`).  An embedded address can fall under that prefix: the
pools `::/56` and `::/64` embed into octets 10 and 11, and every octet before
them is zero.  These are the only pools where an address that `Embed` builds is
not extracted again (`inverse_iff`).
-/

namespace Ydn64.Config

open Ydn64.GoStd

/-! ## The format of an embedded address -/

/-- The octets of an embedded address: `pre` is the prefix. -/
def layout (bits : Nat) (pre v4 : Bytes) : Bytes :=
  if bits = 96 then pre ++ v4
  else pre ++ (v4.take (8 - bits / 8) ++ 0 :: (v4.drop (8 - bits / 8) ++
    List.replicate (11 - bits / 8) 0))

namespace Pref64

/-- The octets of the prefix itself. -/
def pre (p : Pref64) : Bytes := p.net.ip.take (p.bits / 8)

theorem layout_cases (p : Pref64) :
    (p.bits = 32 ∧ p.offsets.toList = [4, 5, 6, 7]) ∨
      (p.bits = 40 ∧ p.offsets.toList = [5, 6, 7, 9]) ∨
      (p.bits = 48 ∧ p.offsets.toList = [6, 7, 9, 10]) ∨
      (p.bits = 56 ∧ p.offsets.toList = [7, 9, 10, 11]) ∨
      (p.bits = 64 ∧ p.offsets.toList = [9, 10, 11, 12]) ∨
      (p.bits = 96 ∧ p.offsets.toList = [12, 13, 14, 15]) := by
  have h := p.ok.bits_mem
  simp only [pref64Lengths, List.mem_cons, List.not_mem_nil, or_false] at h
  rcases h with h | h | h | h | h | h <;> rw [offsets, h] <;> simp <;> rfl

theorem bits_le (p : Pref64) : p.bits / 8 ≤ 16 := by
  have h := p.layout_cases
  omega

theorem pre_length (p : Pref64) : p.pre.length = p.bits / 8 := by
  rw [pre, List.length_take, p.ok.ip_length, min_eq_left p.bits_le]

theorem ip_eq (p : Pref64) : p.net.ip = p.pre ++ List.replicate (16 - p.bits / 8) 0 := by
  have h := p.ok.masked
  rw [p.ok.mask_eq, cidrMask_of_mem p.ok.bits_mem,
    andBytes_octetMask p.ok.ip_length p.bits_le] at h
  exact h.symm

theorem embedInto_eq (p : Pref64) (v4 : Addr4) :
    p.embedInto v4 = layout p.bits p.pre v4.toList := by
  have hlen := p.pre_length
  obtain ⟨l, hl⟩ := v4
  obtain ⟨a, b, c, d, rfl⟩ := List.length_eq_four.1 hl
  unfold embedInto layout
  rw [p.ip_eq]
  generalize p.pre = pre at hlen ⊢
  -- Per layout, the writes land in the zeros behind the prefix.
  rcases p.layout_cases with ⟨h, ho⟩ | ⟨h, ho⟩ | ⟨h, ho⟩ | ⟨h, ho⟩ | ⟨h, ho⟩ | ⟨h, ho⟩
  all_goals
    rw [h] at hlen ⊢
    rw [ho]
    simp [List.Vector.toList, pref64UByte, hlen]

/-- The octets at the embedded positions of an embedded address are the
address. -/
theorem gather_embedInto (p : Pref64) (v4 : Addr4) : p.gather (p.embedInto v4) = v4 := by
  apply List.Vector.toList_injective
  have hlen := p.pre_length
  rw [embedInto_eq, gather, List.Vector.toList_map]
  obtain ⟨l, hl⟩ := v4
  obtain ⟨a, b, c, d, rfl⟩ := List.length_eq_four.1 hl
  generalize p.pre = pre at hlen ⊢
  rcases p.layout_cases with ⟨h, ho⟩ | ⟨h, ho⟩ | ⟨h, ho⟩ | ⟨h, ho⟩ | ⟨h, ho⟩ | ⟨h, ho⟩
  all_goals
    rw [h] at hlen ⊢
    rw [ho]
    simp [layout, List.Vector.toList, List.getD_eq_getElem?_getD, List.getElem?_append, hlen]

theorem take_embedInto (p : Pref64) (v4 : Addr4) :
    (p.embedInto v4).take (p.bits / 8) = p.pre := by
  rw [embedInto_eq, ← p.pre_length, layout]
  split <;> rw [List.take_left]

theorem cleanOutside_embedInto (p : Pref64) (v4 : Addr4) :
    cleanOutside p.bits p.offsets (p.embedInto v4) = true := by
  have hlen := p.pre_length
  rw [embedInto_eq]
  obtain ⟨l, hl⟩ := v4
  obtain ⟨a, b, c, d, rfl⟩ := List.length_eq_four.1 hl
  generalize p.pre = pre at hlen ⊢
  unfold cleanOutside
  rcases p.layout_cases with ⟨h, ho⟩ | ⟨h, ho⟩ | ⟨h, ho⟩ | ⟨h, ho⟩ | ⟨h, ho⟩ | ⟨h, ho⟩
  all_goals
    rw [h] at hlen ⊢
    rw [ho]
    simp [layout, List.Vector.toList, List.range_succ, List.getD_eq_getElem?_getD,
      List.getElem?_append, hlen]

/-! ## Membership in the pool -/

/-- The pool contains the addresses under its prefix that are not IPv4 addresses
in disguise. -/
theorem contains_iff (p : Pref64) {a : IP} (ha : a.length = 16) :
    p.net.contains a = true ↔ to4 a = none ∧ a.take (p.bits / 8) = p.pre := by
  have hmask : p.net.mask.length = 16 := by rw [p.ok.mask_eq, cidrMask_length]
  have hnn : networkNumberAndMask p.net = (p.net.ip, p.net.mask) := by
    simp [networkNumberAndMask, p.ok.not_mapped, p.ok.ip_length, hmask]
  unfold IPNet.contains
  rw [hnn]
  dsimp only
  rw [Bool.and_eq_true, beq_iff_eq, beq_iff_eq, p.ok.ip_length]
  cases hto4 : to4 a with
  | some x =>
    have hx : x.length = 4 := to4_length hto4
    simp [hx]
  | none =>
    have hpre : andBytes p.net.ip p.net.mask
        = p.pre ++ List.replicate (16 - p.bits / 8) 0 := by
      rw [p.ok.masked, ← p.ip_eq]
    have hand : andBytes a p.net.mask
        = a.take (p.bits / 8) ++ List.replicate (16 - p.bits / 8) 0 := by
      rw [p.ok.mask_eq, cidrMask_of_mem p.ok.bits_mem, andBytes_octetMask ha p.bits_le]
    rw [Option.getD_none, hpre, hand, List.append_left_inj]
    simp [ha, eq_comm]

/-- `Extract` answers the address that was embedded, unless the result reads as
an IPv4 address. -/
theorem extract_embed_iff (p : Pref64) (v4 : Addr4) :
    p.extract (p.embed v4).toList = some v4 ↔ to4 (p.embedInto v4) = none := by
  have hlen := p.embedInto_length v4
  have hlist : (p.embed v4).toList = p.embedInto v4 := rfl
  rw [extract_eq_some_iff, hlist, p.contains_iff hlen, p.gather_embedInto, p.take_embedInto]
  simp

/-- `Extract` answers an address that was embedded, and where the pool has no
embedded address that reads as IPv4 it answers every one. -/
theorem extract_iff_of_not_mapped (p : Pref64) (h : ∀ v4, to4 (p.embedInto v4) = none)
    (a : Addr16) (v4 : Addr4) : p.extract a.toList = some v4 ↔ a = p.embed v4 := by
  constructor
  · intro ha
    exact ((p.extract_eq_some_iff a v4).1 ha).2.1
  · intro ha
    rw [ha, extract_embed_iff]
    exact h v4

/-! ## The pools without the IPv4 prefix -/

/-- The pools whose embedded addresses can fall under `::ffff:0:0/96`: all octets
of the prefix are zero and the embedded address covers octets 10 and 11. -/
def ReachesMapped (p : Pref64) : Prop :=
  p.net.ip = List.replicate 16 0 ∧ (p.bits = 56 ∨ p.bits = 64)

instance (p : Pref64) : Decidable p.ReachesMapped :=
  inferInstanceAs (Decidable (_ ∧ _))

/-- Outside these pools no embedded address reads as IPv4. -/
theorem to4_embedInto (p : Pref64) (h : ¬ p.ReachesMapped) (v4 : Addr4) :
    to4 (p.embedInto v4) = none := by
  apply to4_eq_none_of_length (p.embedInto_length v4)
  intro hmap
  have hip := p.ip_eq
  have hpre : p.pre = v4InV6Prefix.take (p.bits / 8) := by
    have hbits : p.bits / 8 ≤ 12 := by
      have hcases := p.layout_cases
      omega
    rw [← p.take_embedInto v4, ← hmap, List.take_take, min_eq_left hbits]
  -- Octet 11 of an IPv4 address in disguise is not zero.
  have h11 : (p.embedInto v4).getD 11 0 = 0xff := by
    have h := congrArg (fun l => l.getD 11 0) hmap
    simpa [List.getD_eq_getElem?_getD, List.getElem?_take, v4InV6Prefix] using h
  have hclean := p.cleanOutside_embedInto v4
  rw [cleanOutside, List.all_eq_true] at hclean
  have hclean := hclean 11 (by decide)
  rw [h11] at hclean
  rcases p.layout_cases with ⟨hb, ho⟩ | ⟨hb, ho⟩ | ⟨hb, ho⟩ | ⟨hb, ho⟩ | ⟨hb, ho⟩ | ⟨hb, ho⟩ <;>
    rw [hb] at hip hpre hclean <;> rw [hpre] at hip <;> rw [ho] at hclean
  · exact absurd hclean (by decide)
  · exact absurd hclean (by decide)
  · exact absurd hclean (by decide)
  · exact h ⟨hip, .inl hb⟩
  · exact h ⟨hip, .inr hb⟩
  · -- A prefix of 96 bits would be the mapped prefix itself.
    have hnot := p.ok.not_mapped
    rw [hip] at hnot
    exact absurd hnot (by decide)

/-- An address that such a pool embeds under the mapped prefix: `0.0.255.255` for
`::/56` and `0.255.255.0` for `::/64`. -/
def mappedV4 (bits : Nat) : Addr4 :=
  if bits = 56 then .cons 0 (.cons 0 (.cons 0xff (.cons 0xff .nil)))
  else .cons 0 (.cons 0xff (.cons 0xff (.cons 0 .nil)))

theorem to4_embedInto_mappedV4 {p : Pref64} (h : p.ReachesMapped) :
    to4 (p.embedInto (mappedV4 p.bits)) ≠ none := by
  obtain ⟨hip, hb | hb⟩ := h <;>
    rw [embedInto_eq, pre, hip, hb] <;>
    decide

/-! ## The mapping of a pool -/

/-- The mapping between IPv4 addresses and the addresses of a pool: `Extract`
answers exactly the addresses that `Embed` builds, each with the address that it
was built from. -/
structure Inverse (p : Pref64) : Prop where
  extract_embed : ∀ v4, p.extract (p.embed v4).toList = some v4
  extract_iff : ∀ (a : Addr16) v4, p.extract a.toList = some v4 ↔ a = p.embed v4
  injective : ∀ (a b : Addr16) v4, p.extract a.toList = some v4 →
    p.extract b.toList = some v4 → a = b
  /-- Octet 8 and the suffix are zero. -/
  clean : ∀ (a : Addr16) v4, p.extract a.toList = some v4 →
    cleanOutside p.bits p.offsets a.toList = true
  /-- What `Extract` accepts is what `Embed` can build. -/
  served : ∀ a : Addr16, (p.extract a.toList).isSome ↔ ∃ v4, a = p.embed v4

/-- `Embed` and `Extract` are inverse for every accepted prefix but `::/56` and
`::/64`. -/
theorem inverse_iff (p : Pref64) :
    Inverse p ↔ ¬(p.net.ip = List.replicate 16 0 ∧ (p.bits = 56 ∨ p.bits = 64)) := by
  constructor
  · intro hinv hreach
    apply to4_embedInto_mappedV4 hreach
    rw [← extract_embed_iff]
    exact hinv.extract_embed _
  · intro hreach
    have hnone := p.to4_embedInto hreach
    have hiff := p.extract_iff_of_not_mapped hnone
    refine ⟨fun v4 => (hiff _ v4).2 rfl, hiff, ?_, ?_, ?_⟩
    · intro a b v4
      exact p.extract_injective
    · intro a v4 ha
      rw [(hiff a v4).1 ha]
      exact p.cleanOutside_embedInto v4
    · intro a
      rw [Option.isSome_iff_exists]
      exact exists_congr fun v4 => hiff a v4

end Pref64

/-- `::/56` is accepted, and what it embeds `0.0.255.255` into is not extracted. -/
theorem slash56_not_extracted :
    ∃ p ∈ (parsePref64 "::/56").toOption,
      p.extract (p.embed (Pref64.mappedV4 56)).toList = none := by
  decide +kernel

end Ydn64.Config
