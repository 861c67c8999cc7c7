/-
Where no-number comes from.

Of the sixty-four bits of a number some are no number, and it is asked here which results
can be: a sum only of two infinities that are opposite, a product only of an infinity and
zero, a quotient only of two infinities or two zeros. Negating, rounding and packing make
none. A numeral is a whole number, multiplied or divided by a power of ten that is neither
infinite nor zero, so whatever a document states as a number (`Numeral.toFloat?`) is one.
-/
import StoryChat.Decimal.Measure
import Mathlib.Algebra.Group.Nat.Defs

set_option autoImplicit false

namespace StoryChat.Decimal

open Float.Model UnpackedFloat

/-! ## Packing and rounding -/

section

variable {spec : Format}

/-- The bits that are no number: the largest exponent over a fraction that is not zero. -/
theorem isNaN_unpack_iff (b : BitVec spec.numBits) :
    (UnpackedFloat.unpack spec b).isNaN = true ↔ unpackExponent b = -BitVec.ofNat _ 1 ∧
      unpackMantissa b ≠ BitVec.ofNat _ 0 := by
  unfold UnpackedFloat.unpack
  dsimp only
  by_cases he : unpackExponent b = -BitVec.ofNat _ 1
  · rw [if_pos he]
    by_cases hm : unpackMantissa b = BitVec.ofNat _ 0
    · rw [if_pos hm]
      exact ⟨nofun, fun h => absurd hm h.2⟩
    · rw [if_neg hm]
      exact ⟨fun _ => ⟨he, hm⟩, fun _ => rfl⟩
  · rw [if_neg he]
    refine ⟨fun h => ?_, fun h => absurd h.1 he⟩
    by_cases hzero : unpackExponent b = BitVec.ofNat _ 0
    · rw [if_pos hzero] at h
      by_cases hm : unpackMantissa b = BitVec.ofNat _ 0
      · rw [dif_pos hm] at h
        cases h
      · rw [dif_neg hm] at h
        cases h
    · rw [if_neg hzero] at h
      cases h

/-- Packing makes no number of none and of nothing else. -/
theorem isNaN_unpack_pack (u : UnpackedFloat) : (Float.Model.pack u).unpack.isNaN = u.isNaN := by
  change (UnpackedFloat.unpack .binary64 (UnpackedFloat.pack .binary64 u)).isNaN = u.isNaN
  cases u with
  | notANumber => decide
  | infinity s => cases s <;> decide
  | zero s => cases s <;> decide
  | finite s m e hm =>
    refine Bool.eq_false_iff.2 fun h => ?_
    obtain ⟨hexponent, hmantissa⟩ := (isNaN_unpack_iff _).1 h
    unfold UnpackedFloat.pack at hexponent hmantissa
    dsimp only at hexponent hmantissa
    split at hexponent
    · next hlarge =>
      rw [if_pos hlarge, packedInfinity, unpackMantissa_packComponents] at hmantissa
      exact hmantissa rfl
    · next hsmall =>
      split at hexponent
      · -- the largest exponent is kept for infinities
        rw [unpackExponent_packComponents] at hexponent
        have hvalue := congrArg BitVec.toNat hexponent
        rw [BitVec.toNat_ofNat, Nat.mod_eq_of_lt (by omega)] at hvalue
        exact hsmall (by rw [hvalue]; decide)
      · rw [unpackExponent_packComponents] at hexponent
        exact absurd hexponent (by decide)

theorem isNaN_dite {c : Prop} [Decidable c] {a : c → UnpackedFloat} {b : ¬ c → UnpackedFloat}
    (ha : ∀ h, (a h).isNaN = false) (hb : ∀ h, (b h).isNaN = false) :
    (dite c a b).isNaN = false := by
  by_cases h : c
  · rw [dif_pos h]
    exact ha h
  · rw [dif_neg h]
    exact hb h

theorem isNaN_roundWithAccuracy (s : Sign) (m : Nat) (e : Int) (a : Accuracy) :
    (roundWithAccuracy spec s m e a).isNaN = false := by
  unfold roundWithAccuracy
  exact isNaN_dite (fun _ => rfl) fun _ => rfl

theorem isNaN_normalize (m e : Int) (s : Sign) :
    (UnpackedFloat.normalize spec m e s).isNaN = false := by
  unfold UnpackedFloat.normalize
  split
  · exact isNaN_roundWithAccuracy _ _ _ _
  · rfl
  · exact isNaN_roundWithAccuracy _ _ _ _

theorem isNaN_ofScientific (m : Nat) (e : Int) :
    (UnpackedFloat.ofScientific spec m e).isNaN = false := by
  unfold UnpackedFloat.ofScientific
  refine isNaN_dite (fun _ => rfl) fun hm => ?_
  by_cases hlarge : e > 2 ^ spec.exponentBits
  · rw [if_pos hlarge]
    rfl
  rw [if_neg hlarge]
  by_cases hsmall : e < -(2 ^ spec.exponentBits + (m.log2 : Int))
  · rw [if_pos hsmall]
    rfl
  rw [if_neg hsmall]
  by_cases hup : 0 ≤ e
  · rw [if_pos hup]
    exact isNaN_roundWithAccuracy _ _ _ _
  · rw [if_neg hup]
    exact isNaN_roundWithAccuracy _ _ _ _

end

/-! ## Operations -/

/-- Whether a number is neither none nor infinite nor zero. -/
def isOrdinary (x : Float) : Bool :=
  match x.toModel.unpack with
  | .finite .. => true
  | _ => false

variable {x y : Float}

theorem exists_of_isOrdinary (h : isOrdinary x = true) :
    ∃ s m e hm, x.toModel.unpack = .finite s m e hm := by
  unfold isOrdinary at h
  cases hx : x.toModel.unpack with
  | finite s m e hm => exact ⟨s, m, e, hm, rfl⟩
  | notANumber | infinity | zero =>
    rw [hx] at h
    cases h

/-- A finite number and another one have a sum. -/
theorem isNaN_add (hx : x.isFinite = true) (hy : y.isNaN = false) : (x + y).isNaN = false := by
  have hpack : (x + y).isNaN = (UnpackedFloat.add .binary64 x.toModel.unpack
      y.toModel.unpack).isNaN := isNaN_unpack_pack _
  have hx : x.toModel.unpack.isFinite = true := hx
  have hy : y.toModel.unpack.isNaN = false := hy
  rw [hpack]
  cases hu : x.toModel.unpack with
  | notANumber | infinity =>
    rw [hu] at hx
    cases hx
  | zero s =>
    cases hv : y.toModel.unpack with
    | notANumber =>
      rw [hv] at hy
      cases hy
    | infinity | finite => rfl
    | zero t => cases s <;> cases t <;> rfl
  | finite s m e hm =>
    cases hv : y.toModel.unpack with
    | notANumber =>
      rw [hv] at hy
      cases hy
    | infinity | zero => rfl
    | finite t m' e' hm' => exact isNaN_normalize _ _ _

theorem isNaN_mul (hx : x.isNaN = false) (hy : isOrdinary y = true) : (x * y).isNaN = false := by
  have hpack : (x * y).isNaN = (UnpackedFloat.mul .binary64 x.toModel.unpack
      y.toModel.unpack).isNaN := isNaN_unpack_pack _
  have hx : x.toModel.unpack.isNaN = false := hx
  obtain ⟨t, m', e', hm', hv⟩ := exists_of_isOrdinary hy
  rw [hpack, hv]
  cases hu : x.toModel.unpack with
  | notANumber =>
    rw [hu] at hx
    cases hx
  | infinity | zero => rfl
  | finite s m e hm => exact isNaN_roundWithAccuracy _ _ _ _

theorem isNaN_div (hx : x.isNaN = false) (hy : isOrdinary y = true) : (x / y).isNaN = false := by
  have hpack : (x / y).isNaN = (UnpackedFloat.div .binary64 x.toModel.unpack
      y.toModel.unpack).isNaN := isNaN_unpack_pack _
  have hx : x.toModel.unpack.isNaN = false := hx
  obtain ⟨t, m', e', hm', hv⟩ := exists_of_isOrdinary hy
  rw [hpack, hv]
  cases hu : x.toModel.unpack with
  | notANumber =>
    rw [hu] at hx
    cases hx
  | infinity | zero => rfl
  | finite s m e hm => exact isNaN_roundWithAccuracy _ _ _ _

theorem isNaN_neg (x : Float) : (-x).isNaN = x.isNaN := by
  have hpack : (-x).isNaN = (UnpackedFloat.neg x.toModel.unpack).isNaN := isNaN_unpack_pack _
  have hx : x.isNaN = x.toModel.unpack.isNaN := rfl
  rw [hpack, hx]
  cases x.toModel.unpack <;> rfl

/-! ## Powers of ten

A number of at least fifty-three bits is rounded by dropping all bits below these, and
that is done once more if they have become fifty-four by rounding up. So what is left has
fifty-three bits, and is neither zero nor, unless the exponent is too large, infinite. -/

theorem mantissa_shiftRight (em : ExtendedMantissa) (n : Nat) :
    (em >>> n).mantissa = em.mantissa / 2 ^ n := by
  change (Nat.repeat ExtendedMantissa.shiftRightOne n em).mantissa = em.mantissa / 2 ^ n
  induction n with
  | zero => rw [Nat.pow_zero, Nat.div_one, Nat.repeat]
  | succ n ih =>
    change (Nat.repeat ExtendedMantissa.shiftRightOne n em).mantissa / 2 = em.mantissa / 2 ^ (n + 1)
    rw [ih, Nat.div_div_eq_div_mul, Nat.pow_succ]

theorem roundedMantissa_bounds (em : ExtendedMantissa) :
    em.mantissa ≤ em.roundedMantissa ∧ em.roundedMantissa ≤ em.mantissa + 1 := by
  unfold ExtendedMantissa.roundedMantissa Accuracy.roundToNearestEven
  split <;> omega

/-- The fifty-three leading bits of a number. -/
theorem leading_bounds {m : Nat} (hm : 2 ^ 52 ≤ m) :
    2 ^ 52 ≤ m / 2 ^ (m.log2 - 52) ∧ m / 2 ^ (m.log2 - 52) < 2 ^ 53 := by
  have hne : m ≠ 0 := by omega
  have hlog : 52 ≤ m.log2 := (Nat.le_log2 hne).2 hm
  constructor
  · rw [Nat.le_div_iff_mul_le (Nat.two_pow_pos _), ← Nat.pow_add, Nat.add_sub_cancel' hlog]
    exact Nat.log2_self_le hne
  · rw [Nat.div_lt_iff_lt_mul (Nat.two_pow_pos _), ← Nat.pow_add,
      show 53 + (m.log2 - 52) = m.log2 + 1 by omega]
    exact Nat.lt_log2_self

/-- Where the exponent is not too small, shifting leaves the leading bits. -/
theorem shiftToTargetExponent_eq {m : Nat} {e : Int} (a : Accuracy) (he : -1022 ≤ m.log2 + e) :
    (shiftToTargetExponent .binary64 m e a).1.mantissa = m / 2 ^ (m.log2 - 52) ∧
      (shiftToTargetExponent .binary64 m e a).2 = e + (m.log2 - 52 : Nat) := by
  have hmin : Format.binary64.minExponent = -1074 := by decide
  have hbits : Format.binary64.mantissaBits = 53 := rfl
  have hamount : (Format.binary64.targetExponent (totalExponent m e) - e).toNat =
      m.log2 - 52 := by
    rw [Format.targetExponent, totalExponent, hmin, hbits]
    omega
  unfold shiftToTargetExponent shiftToExponent
  dsimp only
  rw [hamount, mantissa_shiftRight]
  refine ⟨?_, rfl⟩
  unfold ExtendedMantissa.ofMantissaAndAccuracy
  split <;> rfl

/-- So rounding leaves fifty-three bits. -/
theorem roundWithAccuracy_eq {m : Nat} {e : Int} (s : Sign) (a : Accuracy) (hm : 2 ^ 52 ≤ m)
    (he : -1022 ≤ m.log2 + e) : ∃ f e' hf, roundWithAccuracy .binary64 s m e a =
      .finite s f e' hf ∧ f.log2 = 52 ∧ m.log2 + e - 52 ≤ e' ∧ e' ≤ m.log2 + e - 51 := by
  obtain ⟨hfirst, hexponent⟩ := shiftToTargetExponent_eq a he
  obtain ⟨hlow, hhigh⟩ := leading_bounds hm
  unfold roundWithAccuracy
  generalize shiftToTargetExponent .binary64 m e a = first at *
  obtain ⟨em, e₁⟩ := first
  dsimp only at hfirst hexponent ⊢
  obtain ⟨hup, hup'⟩ := roundedMantissa_bounds em
  generalize em.roundedMantissa = r at *
  have hr : 2 ^ 52 ≤ r := by omega
  have hlog : 52 ≤ r.log2 := (Nat.le_log2 (by omega)).2 hr
  have hlog' : r.log2 < 54 := (Nat.log2_lt (by omega)).2 (by omega)
  have hlogm : 52 ≤ m.log2 := (Nat.le_log2 (by omega)).2 hm
  -- the second shift drops a bit only if rounding up has made one more
  obtain ⟨hsecond, hexponent'⟩ := shiftToTargetExponent_eq (m := r) (e := e₁) .exact (by omega)
  obtain ⟨hf, hf'⟩ := leading_bounds hr
  generalize shiftToTargetExponent .binary64 r e₁ .exact = second at *
  rw [← hsecond] at hf hf'
  have hpos : 0 < second.1.mantissa := by omega
  refine ⟨second.1.mantissa, second.2, hpos, dif_neg (by omega), ?_, by omega, by omega⟩
  exact Nat.le_antisymm (Nat.le_of_lt_succ ((Nat.log2_lt (by omega)).2 hf'))
    ((Nat.le_log2 (by omega)).2 hf)

/-- An exponent between the least and the largest stands before fifty-three bits. -/
theorem unpack_normal {b : BitVec Format.binary64.numBits}
    (hzero : (unpackExponent b).toNat ≠ 0) (hlast : (unpackExponent b).toNat ≠ 2047) :
    ∃ s m e hm, UnpackedFloat.unpack .binary64 b = .finite s m e hm ∧ m.log2 = 52 ∧
      e = (unpackExponent b).toNat - 1075 := by
  have hbits (v : BitVec 52) : 2 ^ 52 ≤ (1#1 ++ v).toNat ∧ (1#1 ++ v).toNat < 2 ^ 53 := by
    refine ⟨?_, (1#1 ++ v).isLt⟩
    rw [BitVec.toNat_append, ← Nat.shiftLeft_add_eq_or_of_lt v.isLt]
    exact Nat.le_add_right _ _
  obtain ⟨hlow, hhigh⟩ := hbits (unpackMantissa b)
  have hpos : 0 < (1#1 ++ unpackMantissa b).toNat := Nat.lt_of_lt_of_le (Nat.two_pow_pos 52) hlow
  have hne : (1#1 ++ unpackMantissa b).toNat ≠ 0 := Nat.ne_of_gt hpos
  unfold UnpackedFloat.unpack
  dsimp only
  rw [if_neg fun h => hlast (by rw [h]; rfl), if_neg fun h => hzero (by rw [h]; rfl)]
  refine ⟨_, _, _, hpos, rfl, ?_, rfl⟩
  exact Nat.le_antisymm (Nat.le_of_lt_succ ((Nat.log2_lt hne).2 hhigh)) ((Nat.le_log2 hne).2 hlow)

/-- The exponent in the bits of a number: the largest for a number that is too large, the
number's own for one of fifty-three bits, and else zero. -/
theorem unpackExponent_pack (s : Sign) {m : Nat} (e : Int) (hm : 0 < m) :
    (unpackExponent (UnpackedFloat.pack .binary64 (.finite s m e hm))).toNat =
      if 972 ≤ e then 2047 else if m.log2 = 52 then (e + 1075).toNat else 0 := by
  have hbiased : (e + (Format.binary64.exponentBias : Int) +
      (Format.binary64.mantissaBitsWithoutImplicit : Int)).toNat = (e + 1075).toNat := by
    change (e + (1023 : Nat) + (52 : Nat)).toNat = (e + 1075).toNat
    omega
  unfold UnpackedFloat.pack
  dsimp only
  rw [hbiased]
  by_cases hlarge : 972 ≤ e
  · rw [if_pos hlarge, if_pos (show 2048 ≤ (e + 1075).toNat + 1 by omega), packedInfinity,
      unpackExponent_packComponents]
    rfl
  · rw [if_neg hlarge, if_neg (show ¬ 2048 ≤ (e + 1075).toNat + 1 by omega)]
    by_cases hlog : m.log2 = 52
    · have hsmall : (e + 1075).toNat < 2 ^ 11 := by omega
      rw [if_pos hlog, if_pos (by rw [hlog]; rfl), unpackExponent_packComponents]
      exact (BitVec.toNat_ofNat _ _).trans (Nat.mod_eq_of_lt hsmall)
    · have hbits : ¬ m.log2 + 1 = Format.binary64.mantissaBits := fun h => hlog (Nat.succ.inj h)
      rw [if_neg hlog, if_neg hbits, unpackExponent_packComponents]
      rfl

/-- A number of fifty-three bits is packed with its exponent, unless that is too large. -/
theorem unpack_pack {s : Sign} {m : Nat} {e : Int} (hm : 0 < m) (hlog : m.log2 = 52)
    (hlow : -1074 ≤ e) (hhigh : e ≤ 971) : ∃ t m' e' hm',
      (Float.Model.pack (.finite s m e hm)).unpack = .finite t m' e' hm' ∧ m'.log2 = 52 ∧
        e' = e := by
  have hfield := unpackExponent_pack s e hm
  rw [if_neg (by omega), if_pos hlog] at hfield
  obtain ⟨t, m', e', hm', hunpack, hlog', he⟩ := unpack_normal
    (b := UnpackedFloat.pack .binary64 (.finite s m e hm)) (by omega) (by omega)
  exact ⟨t, m', e', hm', hunpack, hlog', by omega⟩

/-- A power of ten is rounded from its multiple by `2 ^ 53`, which is not too large. -/
theorem ofScientific_eq {k : Nat} (hk : k ≤ 307) : ∃ f e hf,
    UnpackedFloat.ofScientific .binary64 1 (Int.ofNat k) = .finite .positive f e hf ∧
      f.log2 = 52 ∧ -52 ≤ e ∧ e ≤ 971 := by
  have hpos : 0 < 10 ^ k := Nat.pow_pos (by decide)
  have hlarge : 2 ^ 53 ≤ (1 <<< 53) * 10 ^ k := by omega
  have hlow : 53 ≤ ((1 <<< 53) * 10 ^ k).log2 := (Nat.le_log2 (by omega)).2 hlarge
  have hhigh : ((1 <<< 53) * 10 ^ k).log2 < 1076 := by
    refine (Nat.log2_lt (by omega)).2 ?_
    calc (1 <<< 53) * 10 ^ k ≤ (1 <<< 53) * 10 ^ 307 :=
          Nat.mul_le_mul_left _ (Nat.pow_le_pow_right (by decide) hk)
      _ < 2 ^ 1076 := by decide +kernel
  obtain ⟨f, e, hf, hround, hbits, hfloor, hceil⟩ :=
    roundWithAccuracy_eq (m := (1 <<< 53) * 10 ^ k) (e := -53) .positive .exact (by omega)
      (by omega)
  refine ⟨f, e, hf, ?_, hbits, by omega, by omega⟩
  have hexponent : (2 : Int) ^ Format.binary64.exponentBits = 2048 := by decide
  have hint : Int.ofNat k = (k : Int) := rfl
  unfold UnpackedFloat.ofScientific
  rw [dif_neg (by decide), hexponent, if_neg (by rw [hint]; omega), if_neg (by rw [hint]; omega),
    if_pos (show 0 ≤ Int.ofNat k from Int.natCast_nonneg k)]
  exact hround

/-- Whether a number is finite and at least one, up to its sign. -/
def atLeastOne (x : Float) : Bool :=
  match x.toModel.unpack with
  | .finite _ m e _ => 0 ≤ m.log2 + e
  | _ => false

theorem exists_of_atLeastOne (h : atLeastOne x = true) :
    ∃ s m e hm, x.toModel.unpack = .finite s m e hm ∧ 0 ≤ m.log2 + e := by
  unfold atLeastOne at h
  cases hx : x.toModel.unpack with
  | finite s m e hm =>
    rw [hx] at h
    exact ⟨s, m, e, hm, rfl, of_decide_eq_true h⟩
  | notANumber | infinity | zero =>
    rw [hx] at h
    cases h

theorem isOrdinary_of_atLeastOne (h : atLeastOne x = true) : isOrdinary x = true := by
  obtain ⟨s, m, e, hm, hx, -⟩ := exists_of_atLeastOne h
  rw [isOrdinary, hx]

/-- The powers of ten that numbers are scaled by are finite and at least one. -/
theorem atLeastOne_power {k : Nat} (hk : k ≤ 308) :
    atLeastOne (Float.ofScientific 1 false k) = true := by
  by_cases hsmall : k ≤ 22
  · have hall : ∀ k < 23, atLeastOne (Float.ofScientific 1 false k) = true := by decide +kernel
    exact hall k (by omega)
  by_cases htop : k = 308
  · rw [htop]
    decide +kernel
  · obtain ⟨f, e, hf, hscientific, hbits, hlow, hhigh⟩ := ofScientific_eq (k := k) (by omega)
    obtain ⟨t, m', e', hm', hunpack, hlog, he⟩ :=
      unpack_pack (s := .positive) hf hbits (by omega) hhigh
    unfold Float.ofScientific
    rw [dif_neg (by omega)]
    change atLeastOne (.ofModel (.pack (UnpackedFloat.ofScientific .binary64 1 (Int.ofNat k)))) =
      true
    rw [hscientific, atLeastOne, hunpack]
    exact decide_eq_true (by omega)

/-! ## Numerals -/

/-- A whole number is one. -/
theorem isNaN_ofNat (n : Nat) : (Float.ofNat n).isNaN = false := by
  change (Float.ofScientific n false 0).isNaN = false
  unfold Float.ofScientific
  split
  · -- a small one is converted and multiplied by one
    have hwhole : (n.toUInt64.toFloat).isNaN = false :=
      (isNaN_unpack_pack _).trans (isNaN_normalize _ _ _)
    exact isNaN_mul hwhole (y := Float.exactlyRepresentablePowersOfTen[0]) (by decide)
  · exact (isNaN_unpack_pack _).trans (isNaN_ofScientific _ _)

theorem toNat_unpackExponent (b : BitVec Format.binary64.numBits) :
    (unpackExponent b).toNat = b.toNat / hiddenBit % 2048 := by
  simp only [unpackExponent, BitVec.toNat_cast, BitVec.extractLsb_toNat]
  rw [Nat.shiftRight_eq_div_pow]
  rfl

/-- A number is read as finite off its bits unless its exponent is the largest. -/
theorem isFinite_iff (x : Float) : isFinite x = true ↔
    (@unpackExponent .binary64 x.toBits.toBitVec).toNat ≠ 2047 := by
  have hfield : (@unpackExponent .binary64 x.toBits.toBitVec).toNat =
      x.toBits.toNat / hiddenBit % 2048 := toNat_unpackExponent _
  rw [hfield]
  unfold isFinite shape
  dsimp only
  by_cases hlast : x.toBits.toNat / hiddenBit % 2048 = 2047
  · rw [if_pos hlast]
    refine ⟨fun h => ?_, fun h => absurd hlast h⟩
    split at h
    · next heq => split at heq <;> cases heq
    · cases h
  · rw [if_neg hlast]
    refine ⟨fun _ => hlast, fun _ => ?_⟩
    by_cases hzero : x.toBits.toNat / hiddenBit % 2048 = 0
    · rw [if_pos hzero]
    · rw [if_neg hzero]

/-- A number that is read as finite off its bits is one. -/
theorem isNaN_of_isFinite {x : Float} (h : isFinite x = true) : x.isNaN = false := by
  refine Bool.eq_false_iff.2 fun hnan => ?_
  have hbits : (UnpackedFloat.unpack .binary64 x.toBits.toBitVec).isNaN = true := hnan
  exact (isFinite_iff x).1 h (congrArg BitVec.toNat ((isNaN_unpack_iff _).1 hbits).1)

/-- Scaling keeps numbers numbers, as long as it goes on. -/
theorem isNaN_of_scaleByPower {steps : Nat} {x y : Float} {exponent : Int}
    (h : scaleByPower steps x exponent = some y) (hx : x.isNaN = false) : y.isNaN = false := by
  fun_induction scaleByPower steps x exponent with
  | case1 steps x exponent hin power hup z hz =>
    exact Option.some.inj h ▸ isNaN_of_isFinite hz
  | case2 => cases h
  | case3 steps x exponent hin power hdown =>
    cases h
    exact isNaN_div hx (isOrdinary_of_atLeastOne (atLeastOne_power (by omega)))
  | case4 => exact Option.some.inj h ▸ hx
  | case5 => cases h
  | case6 =>
    cases h
    decide
  | case7 x exponent hout hne hdown steps ih =>
    exact ih h (isNaN_div hx (isOrdinary_of_atLeastOne (atLeastOne_power (Nat.le_refl _))))

namespace Numeral

/-- What a numeral stands for is a number. -/
theorem isNaN_of_toFloat? {n : Numeral} {x : Float} (h : n.toFloat? = some x) :
    x.isNaN = false := by
  unfold toFloat? at h
  obtain ⟨y, hy, hx⟩ := Option.map_eq_some_iff.1 h
  have hmagnitude : y.isNaN = false := by
    split at hy
    · cases hy
      exact isNaN_ofNat _
    · exact isNaN_of_scaleByPower hy (isNaN_ofNat _)
  split at hx
  · rw [← hx, isNaN_neg, hmagnitude]
  · rwa [← hx]

end Numeral

end StoryChat.Decimal
