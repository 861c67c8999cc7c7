/-
Numbers that nothing is added to.

What is unpacked is packed again as it was, bit by bit. So a sum with zero is the other
summand, negative zero apart, and a product with zero is a zero. A pause without an extra is
its base plus zero (`Window.sample`), and a pause of nothing is stretched by a factor
(`Duration.scale`): neither is changed by that, since no span tells the two zeros from each
other.
-/
import StoryChat.Pacing.Pacer
import StoryChat.Proofs.Decimal.Finite

set_option autoImplicit false

namespace StoryChat

namespace Decimal

open Float.Model UnpackedFloat

/-! ## Packing what was unpacked -/

/-- The bits of a number are those of its parts. -/
theorem packComponents_unpack (v : BitVec Format.binary64.numBits) :
    packComponents .binary64 (.ofBitVec (unpackSign v)) (unpackExponent v) (unpackMantissa v) =
      v := by
  have hsign (b : BitVec 1) : (Sign.ofBitVec b).toBitVec = b := by
    revert b
    decide
  unfold packComponents
  rw [hsign]
  refine BitVec.eq_of_getLsbD_eq fun i hi => ?_
  have hi : i < 64 := hi
  rw [BitVec.getLsbD_append, BitVec.getLsbD_append]
  by_cases hmantissa : i < 52
  · simp [unpackMantissa, hmantissa]
  by_cases hexponent : i - 52 < 11
  · simp [unpackExponent, hmantissa, hexponent, show 52 + (i - 52) = i by omega]
  · obtain rfl : i = 63 := by omega
    have htop : (unpackSign v).getLsbD 0 = v.getLsbD 63 := by
      change (BitVec.cast _ (v.extractLsb 63 63)).getLsbD 0 = v.getLsbD 63
      rw [BitVec.getLsbD_cast, BitVec.getLsbD_extractLsb]
      rfl
    exact htop

/-- A number that is not too large is packed with its exponent if it has fifty-three bits, and
else with none. -/
theorem pack_finite {m : Nat} {e : Int} (s : Sign) (hm : 0 < m) (he : e ≤ 971) :
    UnpackedFloat.pack .binary64 (.finite s m e hm) = packComponents .binary64 s
      (if m.log2 = 52 then .ofNat 11 (e + 1075).toNat else 0) (.ofNat 52 m) := by
  have hbiased : (e + (Format.binary64.exponentBias : Int) +
      (Format.binary64.mantissaBitsWithoutImplicit : Int)).toNat = (e + 1075).toNat := by
    change (e + (1023 : Nat) + (52 : Nat)).toNat = (e + 1075).toNat
    omega
  unfold UnpackedFloat.pack
  dsimp only
  rw [hbiased, if_neg (show ¬ 2048 ≤ (e + 1075).toNat + 1 by omega)]
  by_cases hlog : m.log2 = 52
  · rw [if_pos hlog, if_pos (by rw [hlog]; rfl)]
  · have hbits : ¬ m.log2 + 1 = Format.binary64.mantissaBits := fun h => hlog (Nat.succ.inj h)
    rw [if_neg hlog, if_neg hbits]
    rfl

/-- Behind the hidden bit there are fifty-two more. -/
theorem log2_hidden (v : BitVec 52) : (1#1 ++ v).toNat.log2 = 52 := by
  have hlow : 2 ^ 52 ≤ (1#1 ++ v).toNat := by
    rw [BitVec.toNat_append, ← Nat.shiftLeft_add_eq_or_of_lt v.isLt]
    exact Nat.le_add_right _ _
  have hhigh : (1#1 ++ v).toNat < 2 ^ 53 := (1#1 ++ v).isLt
  have hne : (1#1 ++ v).toNat ≠ 0 := by omega
  exact Nat.le_antisymm (Nat.le_of_lt_succ ((Nat.log2_lt hne).2 hhigh)) ((Nat.le_log2 hne).2 hlow)

/-- The hidden bit is dropped. -/
theorem ofNat_hidden (v : BitVec 52) : BitVec.ofNat 52 (1#1 ++ v).toNat = v := by
  refine BitVec.eq_of_toNat_eq ?_
  rw [BitVec.toNat_ofNat, BitVec.toNat_append, ← Nat.shiftLeft_add_eq_or_of_lt v.isLt]
  have hv : v.toNat < 2 ^ 52 := v.isLt
  change (1 <<< 52 + v.toNat) % 2 ^ 52 = v.toNat
  omega

/-- What is unpacked is packed as it was. -/
theorem pack_unpack {v : BitVec Format.binary64.numBits} (hv : Format.binary64.Valid v) :
    UnpackedFloat.pack .binary64 (UnpackedFloat.unpack .binary64 v) = v := by
  have hparts := packComponents_unpack v
  have hbias : (Format.binary64.exponentBias : Int) = 1023 := by decide
  have hrange : (unpackExponent v).toNat < 2048 := (unpackExponent v).isLt
  unfold UnpackedFloat.unpack
  dsimp only
  -- the last exponent belongs to the infinities and to what is no number
  by_cases he : unpackExponent v = -BitVec.ofNat _ 1
  · rw [if_pos he]
    by_cases hm : unpackMantissa v = BitVec.ofNat _ 0
    · rw [he, hm] at hparts
      rw [if_pos hm]
      exact hparts
    · rw [if_neg hm]
      exact (hv.eq_packedNaN he hm).symm
  have hlast : (unpackExponent v).toNat ≠ 2047 := fun h => he (BitVec.eq_of_toNat_eq h)
  rw [if_neg he]
  by_cases hzero : unpackExponent v = BitVec.ofNat _ 0
  · rw [if_pos hzero]
    by_cases hm : unpackMantissa v = BitVec.ofNat _ 0
    · rw [hzero, hm] at hparts
      rw [dif_pos hm]
      exact hparts
    · -- without a hidden bit there are fewer than fifty-three
      have hne : (unpackMantissa v).toNat ≠ 0 := fun h => hm (BitVec.eq_of_toNat_eq h)
      have hlog : (unpackMantissa v).toNat.log2 < 52 :=
        (Nat.log2_lt hne).2 (unpackMantissa v).isLt
      rw [hzero] at hparts hrange
      rw [dif_neg hm, pack_finite, if_neg (by omega), BitVec.ofNat_toNat, BitVec.setWidth_eq]
      · exact hparts
      · rw [hzero, hbias]
        decide
  · have hexponent : ((unpackExponent v).toNat - ((Format.binary64.exponentBias : Int) +
        (Format.binary64.mantissaBitsWithoutImplicit : Int)) + 1075).toNat =
        (unpackExponent v).toNat := by
      change ((unpackExponent v).toNat - ((1023 : Nat) + (52 : Nat) : Int) + 1075).toNat = _
      omega
    rw [if_neg hzero, pack_finite, if_pos (log2_hidden _), ofNat_hidden, hexponent,
      BitVec.ofNat_toNat, BitVec.setWidth_eq]
    · exact hparts
    · change ((unpackExponent v).toNat - ((1023 : Nat) + (52 : Nat) : Int)) ≤ 971
      omega

/-- A number is the packed form of its parts. -/
theorem toModel_pack_unpack (x : Float) : Float.Model.pack x.toModel.unpack = x.toModel := by
  obtain ⟨⟨bits, hvalid⟩⟩ := x
  have hbits := pack_unpack hvalid
  unfold Float.Model.pack Float.Model.unpack
  congr 1
  exact congrArg UInt64.ofBitVec hbits

theorem eq_of_unpack {x y : Float} (h : x.toModel.unpack = y.toModel.unpack) : x = y := by
  have hmodel : x.toModel = y.toModel := by
    rw [← toModel_pack_unpack x, h, toModel_pack_unpack y]
  exact congrArg Float.ofModel hmodel

theorem unpack_zero : (0.0 : Float).toModel.unpack = .zero .positive := by
  have hbits : UnpackedFloat.unpack .binary64 (0.0 : Float).toBits.toBitVec = .zero .positive := rfl
  exact hbits

/-- Zero added to a number other than negative zero. -/
theorem add_zero_of_ne {x : Float} (h : x.toModel.unpack ≠ .zero .negative) : x + 0.0 = x := by
  have hsum : (x + 0.0).toModel = Float.Model.pack
      (UnpackedFloat.add .binary64 x.toModel.unpack (0.0 : Float).toModel.unpack) := rfl
  have hadd : UnpackedFloat.add .binary64 x.toModel.unpack (.zero .positive) =
      x.toModel.unpack := by
    cases hx : x.toModel.unpack with
    | notANumber | infinity | finite => rfl
    | zero s =>
      cases s with
      | positive => rfl
      | negative => exact absurd hx h
  rw [unpack_zero, hadd, toModel_pack_unpack] at hsum
  exact congrArg Float.ofModel hsum

/-- Zero times a finite number is a zero. -/
theorem zero_mul_of_isFinite {x : Float} (h : isFinite x = true) :
    0.0 * x = 0.0 ∨ 0.0 * x = -0.0 := by
  have hbelow := below_unpack ((isFinite_iff x).1 h)
  have hproduct : (0.0 * x).toModel = Float.Model.pack
      (UnpackedFloat.mul .binary64 (0.0 : Float).toModel.unpack x.toModel.unpack) := rfl
  have hpos : Float.Model.pack (.zero .positive) = (0.0 : Float).toModel := rfl
  have hneg : Float.Model.pack (.zero .negative) = (-0.0 : Float).toModel := rfl
  have hsign (s : Sign) (hs : (0.0 * x).toModel = Float.Model.pack (.zero s)) :
      0.0 * x = 0.0 ∨ 0.0 * x = -0.0 := by
    cases s with
    | positive => exact .inl (congrArg Float.ofModel (hs.trans hpos))
    | negative => exact .inr (congrArg Float.ofModel (hs.trans hneg))
  rw [unpack_zero] at hproduct
  change Below _ x.toModel.unpack at hbelow
  cases hx : x.toModel.unpack with
  | notANumber | infinity =>
    rw [hx] at hbelow
    cases hbelow
  | zero s | finite s m e hm =>
    rw [hx] at hproduct
    exact hsign _ hproduct

end Decimal

namespace Duration

open Decimal

/-- No span tells the zeros from each other. -/
theorem ofMillis_add_zero (x : Float) : ofMillis (x + 0.0) = ofMillis x := by
  by_cases h : x.toModel.unpack = .zero .negative
  · obtain rfl : x = -0.0 := eq_of_unpack h
    decide +kernel
  · rw [add_zero_of_ne h]

/-- A span of nothing is not made longer. -/
@[simp] theorem scale_zero (factor : Float) : zero.scale factor = zero := by
  have hseconds : zero.seconds = 0.0 := by decide +kernel
  unfold scale
  split
  · next h =>
    rw [hseconds]
    rcases zero_mul_of_isFinite h.1 with h | h
    · rw [h]
      decide +kernel
    · rw [h]
      decide +kernel
  · rfl

end Duration

end StoryChat
