/-
Whatever a document states as a number is finite.

A numeral (`Numeral.toFloat?`) is a whole number of 64 bits, multiplied or divided by a power
of ten. A product is looked at before it is given out. A quotient is not looked at, and need
not be: a power of ten is at least one, so dividing by it moves the leading bit of a number up
by no more than rounding does, and there are few divisions. So the proof follows the place of
the leading bit (`Below`) through rounding, packing, products and quotients, and finds it far
below the place from which on numbers are infinite.
-/
import StoryChat.Proofs.Decimal.NoNumber
import Mathlib.Data.Nat.Log

set_option autoImplicit false

namespace StoryChat.Decimal

open Float.Model UnpackedFloat

/-! ## Leading bits -/

theorem log2_mono {m n : Nat} (h : m ≤ n) : m.log2 ≤ n.log2 := by
  rw [Nat.log2_eq_log_two, Nat.log2_eq_log_two]
  exact Nat.log_mono_right h

theorem log2_div_two_pow (m n : Nat) : (m / 2 ^ n).log2 = m.log2 - n := by
  rw [Nat.log2_eq_log_two, Nat.log2_eq_log_two, Nat.log_div_base_pow]

theorem log2_le_of_lt {m k : Nat} (h : m < 2 ^ (k + 1)) : m.log2 ≤ k := by
  by_cases hm : m = 0
  · rw [hm, Nat.log2_zero]
    exact Nat.zero_le k
  · exact Nat.le_of_lt_succ ((Nat.log2_lt hm).2 h)

theorem log2_succ_le (m : Nat) : (m + 1).log2 ≤ m.log2 + 1 := by
  refine log2_le_of_lt ?_
  calc m + 1 ≤ 2 ^ (m.log2 + 1) := Nat.lt_log2_self
    _ < 2 ^ (m.log2 + 1 + 1) := Nat.pow_lt_pow_right (by decide) (Nat.lt_succ_self _)

theorem log2_shiftLeft_le (m n : Nat) : (m <<< n).log2 ≤ m.log2 + n := by
  refine log2_le_of_lt ?_
  rw [Nat.shiftLeft_eq, Nat.add_right_comm, Nat.pow_add]
  exact Nat.mul_lt_mul_of_pos_right Nat.lt_log2_self (Nat.two_pow_pos n)

theorem log2_mul_le (m n : Nat) : (m * n).log2 ≤ m.log2 + n.log2 + 1 := by
  refine log2_le_of_lt ?_
  rw [show m.log2 + n.log2 + 1 + 1 = (m.log2 + 1) + (n.log2 + 1) by omega, Nat.pow_add]
  exact Nat.mul_lt_mul'' Nat.lt_log2_self Nat.lt_log2_self

/-- A quotient is no larger than that by the power of two below the divisor. -/
theorem log2_div_le (m : Nat) {n : Nat} (hn : 0 < n) : (m / n).log2 ≤ m.log2 - n.log2 := by
  rw [← log2_div_two_pow]
  exact log2_mono (Nat.div_le_div_left (Nat.log2_self_le (Nat.ne_of_gt hn)) (Nat.two_pow_pos _))

/-! ## Rounding and packing -/

/-- Whether a number is finite, with no bit at a place above `2 ^ b`. -/
def Below (b : Int) : UnpackedFloat → Prop
  | .zero _ => True
  | .finite _ m e _ => m.log2 + e ≤ b
  | .infinity _ | .notANumber => False

instance (b : Int) (u : UnpackedFloat) : Decidable (Below b u) :=
  match u with
  | .zero _ => inferInstanceAs (Decidable True)
  | .finite _ m e _ => inferInstanceAs (Decidable (m.log2 + e ≤ b))
  | .infinity _ | .notANumber => inferInstanceAs (Decidable False)

variable {b : Int}

theorem Below.mono {u : UnpackedFloat} {c : Int} (h : Below b u) (hbc : b ≤ c) : Below c u := by
  cases u with
  | zero s => trivial
  | finite s m e hm => exact Int.le_trans h hbc
  | infinity | notANumber => cases h

theorem targetExponent_eq (t : Int) : Format.binary64.targetExponent t = max (t - 53) (-1074) :=
  rfl

/-- Bits are dropped at the lower end only. Where all of them are, the exponent is the least
one that the format has room for. -/
theorem shiftToTargetExponent_le {m : Nat} {e : Int} (a : Accuracy) (h : m.log2 + e ≤ b)
    (hb : 0 ≤ b) : (shiftToTargetExponent .binary64 m e a).1.mantissa.log2 +
      (shiftToTargetExponent .binary64 m e a).2 ≤ b := by
  unfold shiftToTargetExponent shiftToExponent
  dsimp only
  have hsame : (ExtendedMantissa.ofMantissaAndAccuracy m a).mantissa = m := by
    unfold ExtendedMantissa.ofMantissaAndAccuracy
    split <;> rfl
  rw [mantissa_shiftRight, log2_div_two_pow, hsame, targetExponent_eq, totalExponent]
  omega

/-- Rounding moves the leading bit by at most one place. -/
theorem below_roundWithAccuracy {m : Nat} {e : Int} (s : Sign) (a : Accuracy)
    (h : m.log2 + e ≤ b) (hb : 0 ≤ b) : Below (b + 1) (roundWithAccuracy .binary64 s m e a) := by
  have hfirst := shiftToTargetExponent_le a h hb
  unfold roundWithAccuracy
  generalize shiftToTargetExponent .binary64 m e a = first at *
  obtain ⟨em, e₁⟩ := first
  dsimp only at hfirst ⊢
  have hrounded : em.roundedMantissa.log2 ≤ em.mantissa.log2 + 1 :=
    Nat.le_trans (log2_mono (roundedMantissa_bounds em).2) (log2_succ_le _)
  have hsecond := shiftToTargetExponent_le (m := em.roundedMantissa) (e := e₁) (b := b + 1) .exact
    (by omega) (by omega)
  generalize shiftToTargetExponent .binary64 em.roundedMantissa e₁ .exact = second at *
  by_cases hzero : second.1.mantissa = 0
  · rw [dif_pos hzero]
    trivial
  · rw [dif_neg hzero]
    exact hsecond

theorem below_normalize {n : Int} (hn : n.natAbs.log2 ≤ b) (hb : 0 ≤ b) (s : Sign) :
    Below (b + 1) (UnpackedFloat.normalize .binary64 n 0 s) := by
  have hround (m : Nat) (hm : m.log2 ≤ b) (t : Sign) :
      Below (b + 1) (UnpackedFloat.round .binary64 t m 0) := by
    unfold UnpackedFloat.round decreaseExponent
    dsimp only
    generalize (0 - Format.binary64.targetExponent (totalExponent m 0)).toNat = k
    have hshift := log2_shiftLeft_le m k
    exact below_roundWithAccuracy t .exact (by omega) hb
  unfold UnpackedFloat.normalize
  split
  · next hneg =>
    have hlt : n < 0 := Int.compare_eq_lt.1 hneg
    exact hround _ (by rwa [show (-n).toNat = n.natAbs by omega]) _
  · trivial
  · next hpos =>
    have hgt : 0 < n := Int.compare_eq_gt.1 hpos
    exact hround _ (by rwa [show n.toNat = n.natAbs by omega]) _

/-- The leading bit of a packed number is found from its exponent alone, unless that is the
largest: before the exponent zero there are at most fifty-two bits, otherwise fifty-three. -/
theorem below_unpack {v : BitVec Format.binary64.numBits}
    (hlast : (unpackExponent v).toNat ≠ 2047) :
    Below ((unpackExponent v).toNat - 1023) (UnpackedFloat.unpack .binary64 v) := by
  by_cases hzero : (unpackExponent v).toNat = 0
  · have hexponent : unpackExponent v = BitVec.ofNat _ 0 := BitVec.eq_of_toNat_eq hzero
    rw [hzero]
    unfold UnpackedFloat.unpack
    dsimp only
    rw [hexponent, if_neg (by decide), if_pos rfl]
    by_cases hm : unpackMantissa v = BitVec.ofNat _ 0
    · rw [dif_pos hm]
      trivial
    · rw [dif_neg hm]
      have hbits : (unpackMantissa v).toNat.log2 ≤ 51 := log2_le_of_lt (unpackMantissa v).isLt
      change ((unpackMantissa v).toNat.log2 : Int) + ((0 : Int) - (1023 + 52) + 1) ≤ 0 - 1023
      omega
  · obtain ⟨s, m, e, hm, hunpack, hlog, he⟩ := unpack_normal hzero hlast
    rw [hunpack]
    change (m.log2 : Int) + e ≤ _
    omega

/-- Packing keeps the leading bit, or drops it as too small. -/
theorem below_pack {u : UnpackedFloat} (h : Below b u) (hlow : 0 ≤ b) (hhigh : b ≤ 970) :
    Below b (Float.Model.pack u).unpack := by
  have hfield : (unpackExponent (UnpackedFloat.pack .binary64 u)).toNat ≤ b + 1023 := by
    cases u with
    | infinity | notANumber => cases h
    | zero s =>
      have hzero : (unpackExponent (UnpackedFloat.pack .binary64 (.zero s))).toNat = 0 := by
        cases s <;> rfl
      omega
    | finite s m e hm =>
      have he : m.log2 + e ≤ b := h
      rw [unpackExponent_pack]
      split
      · omega
      · split <;> omega
  exact (below_unpack (v := UnpackedFloat.pack .binary64 u) (by omega)).mono (by omega)

/-! ## Products and quotients -/

variable {x y : Float}

theorem below_mul {u v : UnpackedFloat} {c : Int} (hu : Below b u) (hv : Below c v) (hb : 0 ≤ b)
    (hc : 0 ≤ c) : Below (b + c + 2) (UnpackedFloat.mul .binary64 u v) := by
  cases u with
  | notANumber | infinity => cases hu
  | zero s =>
    cases v with
    | notANumber | infinity => cases hv
    | zero | finite => trivial
  | finite s m e hm =>
    cases v with
    | notANumber | infinity => cases hv
    | zero t => trivial
    | finite t m' e' hm' =>
      have hu : m.log2 + e ≤ b := hu
      have hv : m'.log2 + e' ≤ c := hv
      have hproduct := log2_mul_le m m'
      have hround := below_roundWithAccuracy (m := m * m') (e := e + e') (b := b + c + 1) (s * t)
        .exact (by omega) (by omega)
      rwa [show b + c + 1 + 1 = b + c + 2 by omega] at hround

/-- A quotient by a number that is at least one has its leading bit no higher, before it is
rounded. -/
theorem divCore_le {m m' : Nat} {e e' : Int} (hm' : 0 < m') (h : m.log2 + e ≤ b) (hb : 0 ≤ b)
    (hone : 0 ≤ m'.log2 + e') :
    (divCore .binary64 m e m' e').1.log2 + (divCore .binary64 m e m' e').2.1 ≤ b := by
  unfold divCore
  dsimp only
  rw [targetExponent_eq, totalExponent, totalExponent]
  generalize ht : min (e - e') (max ((m.log2 : Int) + 1 + e - (m'.log2 + 1 + e') - 53) (-1074)) = t
  have hquotient := log2_div_le (m <<< (e - e' - t).toNat) hm'
  have hshift := log2_shiftLeft_le m (e - e' - t).toNat
  omega

theorem below_div (hx : Below b x.toModel.unpack) (hy : atLeastOne y = true) (hb : 0 ≤ b)
    (hb' : b ≤ 969) : Below (b + 1) (x / y).toModel.unpack := by
  obtain ⟨t, m', e', hm', hv, hone⟩ := exists_of_atLeastOne hy
  change Below _ (Float.Model.pack
    (UnpackedFloat.div .binary64 x.toModel.unpack y.toModel.unpack)).unpack
  refine below_pack ?_ (by omega) (by omega)
  rw [hv]
  cases hu : x.toModel.unpack with
  | notANumber | infinity =>
    rw [hu] at hx
    cases hx
  | zero s => trivial
  | finite s m e hm =>
    rw [hu] at hx
    exact below_roundWithAccuracy _ _ (divCore_le hm' hx hb hone) hb

/-! ## Numerals -/

/-- A whole number that is too large to be converted as a word is converted by way of a multiple
of it. -/
theorem ofScientific_whole (spec : Format) {n : Nat} (hn : n ≠ 0) : ∃ k m e hk hm,
    UnpackedFloat.ofScientific spec n 0 =
      UnpackedFloat.mul spec (.finite .positive k e hk) (.finite .positive m 0 hm) ∧
      k = n <<< spec.mantissaBits ∧ e = -spec.mantissaBits ∧ m = 1 := by
  have hpos : (0 : Int) < 2 ^ spec.exponentBits := Int.pow_pos (by decide)
  unfold UnpackedFloat.ofScientific
  rw [dif_neg hn, if_neg (by omega), if_neg (by omega), if_pos (Int.le_refl 0)]
  exact ⟨_, _, _, _, _, rfl, rfl, rfl, rfl⟩

theorem below_ofScientific {n : Nat} (hn : n.log2 ≤ b) (hb : 0 ≤ b) :
    Below (b + 2) (UnpackedFloat.ofScientific .binary64 n 0) := by
  by_cases hzero : n = 0
  · rw [hzero]
    trivial
  · obtain ⟨k, m, e, hk, hm, hproduct, hshift, he, hone⟩ :=
      ofScientific_whole .binary64 hzero
    have hlog : k.log2 ≤ n.log2 + Format.binary64.mantissaBits := by
      rw [hshift]
      exact log2_shiftLeft_le n _
    have hfirst : Below b (.finite .positive k e hk) := by
      change (k.log2 : Int) + e ≤ b
      omega
    have hsecond : Below 0 (.finite .positive m 0 hm) := by
      change (m.log2 : Int) + 0 ≤ 0
      rw [hone]
      decide
    rw [hproduct]
    exact (below_mul hfirst hsecond hb (Int.le_refl 0)).mono (by omega)

/-- The leading bit of a whole number of 64 bits stays low, whatever rounding makes of it. -/
theorem below_ofNat {n : Nat} (hn : n ≤ significandLimit) :
    Below 66 (Float.ofNat n).toModel.unpack := by
  have hlog : n.log2 ≤ 63 := log2_le_of_lt (Nat.lt_succ_of_le hn)
  change Below 66 (Float.ofScientific n false 0).toModel.unpack
  unfold Float.ofScientific
  split
  · -- a small one is converted and multiplied by one
    have hword : n.toUInt64.toNat = n := UInt64.toNat_ofNat_of_lt' (Nat.lt_succ_of_le hn)
    have hwhole : Below 64 n.toUInt64.toFloat.toModel.unpack := by
      refine below_pack (below_normalize (b := 63) ?_ (by omega) _) (by omega) (by omega)
      rw [Int.natAbs_natCast, hword]
      omega
    have hone : Below 0 Float.exactlyRepresentablePowersOfTen[0].toModel.unpack := by
      decide +kernel
    exact below_pack (below_mul hwhole hone (by omega) (by omega)) (by omega) (by omega)
  · have hscientific : Below 65 (UnpackedFloat.ofScientific .binary64 n 0) :=
      below_ofScientific (b := 63) (by omega) (by omega)
    exact (below_pack hscientific (by omega) (by omega)).mono (by omega)

/-- A number without a high bit is finite. -/
theorem isFinite_of_below (h : Below b x.toModel.unpack) : isFinite x = true := by
  refine (isFinite_iff x).2 fun hlast => ?_
  have hexponent : @unpackExponent .binary64 x.toBits.toBitVec = -BitVec.ofNat _ 1 :=
    BitVec.eq_of_toNat_eq hlast
  change Below b (UnpackedFloat.unpack .binary64 x.toBits.toBitVec) at h
  unfold UnpackedFloat.unpack at h
  dsimp only at h
  rw [if_pos hexponent] at h
  by_cases hmantissa : @unpackMantissa .binary64 x.toBits.toBitVec = BitVec.ofNat _ 0
  · rw [if_pos hmantissa] at h
    cases h
  · rw [if_neg hmantissa] at h
    cases h

/-- A finite number is negated by its sign alone. -/
theorem isFinite_neg (h : isFinite x = true) : isFinite (-x) = true := by
  have hlast := (isFinite_iff x).1 h
  have hbelow : Below ((@unpackExponent .binary64 x.toBits.toBitVec).toNat - 1023)
      x.toModel.unpack := below_unpack hlast
  refine (isFinite_iff (-x)).2 ?_
  change (unpackExponent (UnpackedFloat.pack .binary64 (UnpackedFloat.neg x.toModel.unpack))).toNat
    ≠ 2047
  cases hx : x.toModel.unpack with
  | notANumber | infinity =>
    rw [hx] at hbelow
    cases hbelow
  | zero s => cases s <;> decide
  | finite s m e hm =>
    -- the sign has no part in whether the exponent is one of a finite number
    have he : e ≤ 971 := by
      by_cases hzero : (@unpackExponent .binary64 x.toBits.toBitVec).toNat = 0
      · rw [hx, hzero] at hbelow
        have hbelow : m.log2 + e ≤ ((0 : Nat) : Int) - 1023 := hbelow
        omega
      · obtain ⟨t, m', e', hm', hunpack, -, he⟩ := unpack_normal hzero hlast
        have hrange : (@unpackExponent .binary64 x.toBits.toBitVec).toNat < 2048 :=
          (@unpackExponent .binary64 x.toBits.toBitVec).isLt
        cases hunpack.symm.trans hx
        omega
    change (unpackExponent (UnpackedFloat.pack .binary64 (.finite (-s) m e hm))).toNat ≠ 2047
    rw [unpackExponent_pack, if_neg (by omega)]
    split <;> omega

/-- Scaling gives out finite numbers only, if it is given one whose leading bit is low. -/
theorem isFinite_of_scaleByPower {steps : Nat} {exponent : Int}
    (h : scaleByPower steps x exponent = some y) (hx : Below b x.toModel.unpack) (hb : 0 ≤ b)
    (hsteps : b + steps ≤ 969) : isFinite y = true := by
  fun_induction scaleByPower steps x exponent generalizing b with
  | case1 steps x exponent hin power hup z =>
    have hz : isFinite z = true := by assumption
    exact Option.some.inj h ▸ hz
  | case2 => cases h
  | case3 steps x exponent hin hdown =>
    cases h
    exact isFinite_of_below (below_div hx (atLeastOne_power (by omega)) hb (by omega))
  | case4 => exact Option.some.inj h ▸ isFinite_of_below hx
  | case5 => cases h
  | case6 =>
    cases h
    decide
  | case7 x exponent hout hne hdown steps ih =>
    exact ih h (below_div hx (atLeastOne_power (Nat.le_refl _)) hb (by omega)) (by omega) (by omega)

theorem Gathered.significand_takeWhole {g : Gathered} (h : g.significand ≤ significandLimit)
    (d : Digit) : (g.takeWhole d).significand ≤ significandLimit := by
  unfold takeWhole
  split
  · exact h
  · split
    · next hfit => exact hfit
    · exact h

theorem Gathered.significand_takeFraction {g : Gathered} (h : g.significand ≤ significandLimit)
    (d : Digit) : (g.takeFraction d).significand ≤ significandLimit := by
  unfold takeFraction
  split
  · exact h
  · split
    · next hfit => exact hfit
    · exact h

/-- Gathering digits one by one keeps to the significands there are. -/
theorem Gathered.significand_foldl {take : Gathered → Digit → Gathered} {g : Gathered}
    (htake : ∀ g : Gathered, g.significand ≤ significandLimit → ∀ d,
      (take g d).significand ≤ significandLimit)
    (h : g.significand ≤ significandLimit) (ds : List Digit) :
    (ds.foldl take g).significand ≤ significandLimit := by
  induction ds generalizing g with
  | nil => exact h
  | cons d ds ih => exact ih (htake g h d)

/-- What a numeral stands for is finite. -/
theorem Numeral.isFinite_of_toFloat? {n : Numeral} (h : n.toFloat? = some x) :
    isFinite x = true := by
  unfold toFloat? at h
  obtain ⟨y, hy, hx⟩ := Option.map_eq_some_iff.1 h
  have hwhole : (n.whole.foldl Gathered.takeWhole ⟨0, 0, false⟩).significand ≤ significandLimit :=
    Gathered.significand_foldl (fun _ => Gathered.significand_takeWhole) (Nat.zero_le _) _
  have hmagnitude : isFinite y = true := by
    split at hy
    · cases hy
      exact isFinite_of_below (below_ofNat hwhole)
    · have hall := Gathered.significand_foldl (fun _ => Gathered.significand_takeFraction)
        (g := ⟨_, (n.whole.foldl Gathered.takeWhole ⟨0, 0, false⟩).exponent, false⟩) hwhole
        n.fraction
      exact isFinite_of_scaleByPower hy (below_ofNat hall) (by omega) (by omega)
  split at hx
  · rw [← hx]
    exact isFinite_neg hmagnitude
  · rwa [← hx]

end StoryChat.Decimal
