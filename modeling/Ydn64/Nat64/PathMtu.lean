import Ydn64.Nat64.IcmpErr

/-!
# The MTU of a Packet Too Big

`ptbIPv6MTU` of `src/nat64/icmperr.go` in the integers of the source.  The
advertised MTU and the length of the datagram are `int`s, the MTU of the next
hop is a `uint64` that is converted to `int`, and the sum with the twenty bytes
is one of `int`s, so both can wrap.

* `ptbIPv6MTU64_eq`: where neither wraps the result is that of `ptbIPv6MTU`.
* `ptbIPv6MTU64_wraps`: where one does it is the minimum of 1280.
* `plateauMTU_cases`: the plateau is below the length of the datagram, or it is
  the value 1280 that the search starts from.
* `translatesMTU_iff`: the translation is the one of the RFC, and a zero MTU
  makes the sender's path MTU discovery go on, exactly under `MTUCondition`.

The search for a plateau starts from 1280, also for a datagram that is not
longer than that, and the twenty bytes are added to it.  So a datagram of 1280
bytes or less is answered by an MTU of up to 1300, which it did not exceed.
-/

namespace Ydn64.Nat64

/-! ## The integers of the source -/

/-- The plateau that stands for an MTU of zero or less. -/
def plateauMTU64 (innerTotalLen : Int64) : Int64 :=
  rfc1191Plateaus.foldl
    (fun m p => if Int64.ofNat p < innerTotalLen ∧ 1280 ≤ p ∧ m < Int64.ofNat p
      then Int64.ofNat p else m) 1280

/-- `ptbIPv6MTU`. -/
def ptbIPv6MTU64 (v4MTU innerTotalLen : Int64) (v6NextHopMTU : UInt64) : Int64 :=
  let m := if v4MTU ≤ 0 then plateauMTU64 innerTotalLen else v4MTU
  let mtu := m + 20
  let mtu := if 0 < v6NextHopMTU ∧ v6NextHopMTU.toInt64 < mtu then v6NextHopMTU.toInt64 else mtu
  if mtu < 1280 then 1280 else mtu

/-! ## The conversion and the sum -/

theorem toInt_toInt64 (h : UInt64) :
    h.toInt64.toInt = if h.toNat < 2 ^ 63 then (h.toNat : Int) else h.toNat - 2 ^ 64 := by
  have hconv : h.toInt64.toInt =
      if 2 * h.toNat < 2 ^ 64 then (h.toNat : Int) else h.toNat - (2 ^ 64 : Nat) :=
    BitVec.toInt_eq_toNat_cond h.toBitVec
  rw [hconv]
  split_ifs <;> omega

theorem toInt_add_twenty (m : Int64) :
    (m + 20).toInt = if m.toInt + 20 < 2 ^ 63 then m.toInt + 20 else m.toInt + 20 - 2 ^ 64 := by
  have hlow := m.le_toInt
  have hhigh := m.toInt_lt
  rw [Int64.toInt_add, show (20 : Int64).toInt = 20 from rfl, Int.bmod_def]
  split_ifs <;> omega

/-! ## The plateau -/

/-- The search is the one over the natural numbers; for a negative length it
finds nothing either. -/
theorem plateauMTU64_eq (innerTotalLen : Int64) :
    (plateauMTU64 innerTotalLen).toInt = plateauMTU innerTotalLen.toInt.toNat := by
  refine List.foldl_rel (r := fun (m : Int64) (n : Nat) => m.toInt = n) rfl ?_
  intro p hp m n hmn
  have hlt : p < 2 ^ 16 := (by decide : ∀ p ∈ rfc1191Plateaus, p < 2 ^ 16) p hp
  have hval : (Int64.ofNat p).toInt = p := Int64.toInt_ofNat_of_lt (by omega)
  simp only [Int64.lt_iff_toInt_lt, hval, hmn, Int.lt_toNat, Nat.cast_lt]
  split_ifs
  · exact hval
  · exact hmn

/-- The plateau is below the length of the datagram, or it is the value that
the search starts from. -/
theorem plateauMTU_cases (innerTotalLen : Nat) :
    plateauMTU innerTotalLen = 1280 ∨
      1280 < plateauMTU innerTotalLen ∧ plateauMTU innerTotalLen < innerTotalLen ∧
        plateauMTU innerTotalLen ≤ 65535 := by
  refine List.foldlRecOn (motive := fun n =>
    n = 1280 ∨ 1280 < n ∧ n < innerTotalLen ∧ n ≤ 65535) rfc1191Plateaus _ (.inl rfl) ?_
  intro n hn p hp
  have hle : p ≤ 65535 := (by decide : ∀ p ∈ rfc1191Plateaus, p ≤ 65535) p hp
  split_ifs
  · omega
  · exact hn

/-! ## The clamps -/

theorem ptbIPv6MTU_eq {v6NextHopMTU : Nat} (v4MTU innerTotalLen : Nat)
    (hh : 1280 ≤ v6NextHopMTU) :
    ptbIPv6MTU v4MTU innerTotalLen v6NextHopMTU =
      max 1280 (min ((if v4MTU = 0 then plateauMTU innerTotalLen else v4MTU) + 20)
        v6NextHopMTU) := by
  simp only [ptbIPv6MTU]
  split_ifs <;> omega

theorem ptbIPv6MTU64_toInt (v4MTU innerTotalLen : Int64) {v6NextHopMTU : UInt64}
    (hh : 1280 ≤ v6NextHopMTU.toNat) :
    (ptbIPv6MTU64 v4MTU innerTotalLen v6NextHopMTU).toInt =
      max 1280 (min ((if v4MTU ≤ 0 then plateauMTU64 innerTotalLen else v4MTU) + 20).toInt
        v6NextHopMTU.toInt64.toInt) := by
  have hpos : 0 < v6NextHopMTU := by
    rw [UInt64.lt_iff_toNat_lt]
    show 0 < v6NextHopMTU.toNat
    omega
  simp only [ptbIPv6MTU64, hpos, true_and, Int64.lt_iff_toInt_lt,
    show (1280 : Int64).toInt = 1280 from rfl]
  split_ifs <;> first | omega | (rw [show (1280 : Int64).toInt = 1280 from rfl]; omega)

theorem ptbBase_toInt (v4MTU innerTotalLen : Int64) :
    (if v4MTU ≤ 0 then plateauMTU64 innerTotalLen else v4MTU).toInt =
      (if v4MTU.toInt.toNat = 0 then plateauMTU innerTotalLen.toInt.toNat
        else v4MTU.toInt.toNat : Nat) := by
  have hle : v4MTU ≤ 0 ↔ v4MTU.toInt ≤ 0 := Int64.le_iff_toInt_le
  by_cases hm : v4MTU.toInt ≤ 0
  · rw [if_pos (hle.mpr hm), if_pos (by omega), plateauMTU64_eq]
  · rw [if_neg (mt hle.mp hm), if_neg (by omega)]
    omega

/-- Where neither the sum nor the conversion wraps, the result is that over the
natural numbers. -/
theorem ptbIPv6MTU64_eq {v4MTU : Int64} {v6NextHopMTU : UInt64} (innerTotalLen : Int64)
    (hh : 1280 ≤ v6NextHopMTU.toNat) (hm : v4MTU.toInt + 20 < 2 ^ 63)
    (hlt : v6NextHopMTU.toNat < 2 ^ 63) :
    (ptbIPv6MTU64 v4MTU innerTotalLen v6NextHopMTU).toInt =
      ptbIPv6MTU v4MTU.toInt.toNat innerTotalLen.toInt.toNat v6NextHopMTU.toNat := by
  have hplateau := plateauMTU_cases innerTotalLen.toInt.toNat
  rw [ptbIPv6MTU64_toInt v4MTU innerTotalLen hh, ptbIPv6MTU_eq _ _ hh, toInt_add_twenty,
    toInt_toInt64, ptbBase_toInt]
  split_ifs <;> omega

theorem ptbIPv6MTU64_wraps {v4MTU : Int64} {v6NextHopMTU : UInt64} (innerTotalLen : Int64)
    (hh : 1280 ≤ v6NextHopMTU.toNat)
    (hwrap : 2 ^ 63 ≤ v4MTU.toInt + 20 ∨ 2 ^ 63 ≤ v6NextHopMTU.toNat) :
    (ptbIPv6MTU64 v4MTU innerTotalLen v6NextHopMTU).toInt = 1280 := by
  have hlt : v6NextHopMTU.toNat < 2 ^ 64 := v6NextHopMTU.toNat_lt
  have hhigh := v4MTU.toInt_lt
  rw [ptbIPv6MTU64_toInt v4MTU innerTotalLen hh, toInt_add_twenty, toInt_toInt64, ptbBase_toInt]
  split_ifs <;> omega

/-! ## The translation -/

/-- The MTU that the Packet Too Big carries is in the range of the IPv6 side; an
advertised MTU is translated by the twenty bytes and the two bounds; and for a
zero one the answer is the minimum, or below the size that the datagram has on
the IPv6 side. -/
structure TranslatesMTU (v4MTU innerTotalLen : Int64) (v6NextHopMTU : UInt64) : Prop where
  minimum : 1280 ≤ (ptbIPv6MTU64 v4MTU innerTotalLen v6NextHopMTU).toInt
  nextHop : (ptbIPv6MTU64 v4MTU innerTotalLen v6NextHopMTU).toInt ≤ v6NextHopMTU.toNat
  advertised : 0 < v4MTU.toInt → (ptbIPv6MTU64 v4MTU innerTotalLen v6NextHopMTU).toInt =
    max 1280 (min (v4MTU.toInt + 20) v6NextHopMTU.toNat)
  progress : v4MTU.toInt = 0 →
    (ptbIPv6MTU64 v4MTU innerTotalLen v6NextHopMTU).toInt = 1280 ∨
      (ptbIPv6MTU64 v4MTU innerTotalLen v6NextHopMTU).toInt < innerTotalLen.toInt + 20

/-- For a zero MTU the datagram is longer than 1280 bytes, or the MTU of the
next hop makes up for it; otherwise nothing wraps, or the result is the minimum
also without a wrap. -/
def MTUCondition (v4MTU innerTotalLen : Int64) (v6NextHopMTU : UInt64) : Prop :=
  if v4MTU.toInt = 0 then
    1280 < innerTotalLen.toInt ∨ v6NextHopMTU.toNat = 1280 ∨
      v6NextHopMTU.toNat < innerTotalLen.toInt + 20 ∨ 2 ^ 63 ≤ v6NextHopMTU.toNat
  else
    v4MTU.toInt + 20 < 2 ^ 63 ∧ v6NextHopMTU.toNat < 2 ^ 63 ∨ v4MTU.toInt + 20 ≤ 1280 ∨
      v6NextHopMTU.toNat = 1280

instance (v4MTU innerTotalLen : Int64) (v6NextHopMTU : UInt64) :
    Decidable (MTUCondition v4MTU innerTotalLen v6NextHopMTU) :=
  inferInstanceAs (Decidable (ite _ _ _))

/-- For every advertised MTU that is not negative, every length and every MTU of
the next hop from 1280 on, the translation is as it should be exactly under the
condition. -/
theorem translatesMTU_iff (v4MTU innerTotalLen : Int64) (v6NextHopMTU : UInt64)
    (hm : 0 ≤ v4MTU.toInt) (hh : 1280 ≤ v6NextHopMTU.toNat) :
    TranslatesMTU v4MTU innerTotalLen v6NextHopMTU ↔
      MTUCondition v4MTU innerTotalLen v6NextHopMTU := by
  unfold MTUCondition
  by_cases hwrap : 2 ^ 63 ≤ v4MTU.toInt + 20 ∨ 2 ^ 63 ≤ v6NextHopMTU.toNat
  · have hval := ptbIPv6MTU64_wraps innerTotalLen hh hwrap
    constructor
    · intro h
      have hadv := h.advertised
      split_ifs <;> omega
    · intro h
      constructor <;> split_ifs at h <;> omega
  · rw [not_or, not_le, not_le] at hwrap
    have hval := ptbIPv6MTU64_eq innerTotalLen hh hwrap.1 hwrap.2
    have hplateau := plateauMTU_cases innerTotalLen.toInt.toNat
    rw [ptbIPv6MTU_eq _ _ hh] at hval
    constructor
    · intro h
      have hprogress := h.progress
      split_ifs at hval ⊢ <;> omega
    · intro h
      constructor <;> split_ifs at h hval <;> omega

/-- A datagram of 1500 bytes is answered by the plateau of 1492. -/
theorem translatesMTU_fifteenHundred :
    (ptbIPv6MTU64 0 1500 65535).toInt = 1512 ∧ TranslatesMTU 0 1500 65535 :=
  ⟨by decide, (translatesMTU_iff 0 1500 65535 (by decide) (by decide)).mpr (by decide)⟩

/-- A datagram of 1280 bytes, of 1300 on the IPv6 side, is answered by an MTU of
1300. -/
theorem plateau_start_no_progress :
    (ptbIPv6MTU64 0 1280 65535).toInt = 1300 ∧ ¬ TranslatesMTU 0 1280 65535 := by
  have hval : (ptbIPv6MTU64 0 1280 65535).toInt = 1300 := by decide
  refine ⟨hval, fun h => ?_⟩
  have hprogress := h.progress rfl
  rw [hval, show (1280 : Int64).toInt = 1280 from rfl] at hprogress
  omega

end Ydn64.Nat64
