/-
What numbers are worth.

Each number that is finite and not negative is worth a fraction (`IsWorth`). The sum, the product
and the quotient of two numbers are the rounding of the exact result (`IsRounding`), and an
infinity if this is too large for the format; a number converted from a whole one is its rounding;
and two numbers are compared as what they are worth.
-/
import StoryChat.Proofs.Decimal.Exactness
import StoryChat.Proofs.Decimal.Packing

set_option autoImplicit false

namespace StoryChat.Decimal

open Float.Model UnpackedFloat

variable {v w : ℚ} {m n : ℕ} {e : ℤ}

/-! ## Packing -/

theorem unpackSign_packComponents (s : Sign) (x : BitVec 11) (f : BitVec 52) :
    unpackSign (packComponents .binary64 s x f) = s.toBitVec := by
  unfold packComponents
  refine BitVec.eq_of_getLsbD_eq fun i hi => ?_
  obtain rfl : i = 0 := by omega
  change ((s.toBitVec ++ x ++ f).extractLsb 63 63).getLsbD 0 = _
  rw [BitVec.getLsbD_extractLsb, BitVec.getLsbD_append, BitVec.getLsbD_append]
  rfl

theorem ofBitVec_toBitVec (s : Sign) : Sign.ofBitVec s.toBitVec = s := by
  cases s <;> rfl

theorem finite_congr {s t : Sign} {e' : ℤ} {hm : 0 < m} {hn : 0 < n} (hs : s = t) (h : m = n)
    (he : e = e') : UnpackedFloat.finite s m e hm = .finite t n e' hn := by
  subst hs h he
  rfl

/-- With an exponent that is neither the least nor the largest there is a hidden bit. -/
theorem unpack_packComponents_normal {x : BitVec 11} {f : BitVec 52} (s : Sign) (hm : 0 < m)
    (hzero : x ≠ 0#11) (hlast : x ≠ -1#11) (hbits : (1#1 ++ f).toNat = m)
    (he : (x.toNat : ℤ) - 1075 = e) :
    UnpackedFloat.unpack .binary64 (packComponents .binary64 s x f) = .finite s m e hm := by
  unfold UnpackedFloat.unpack
  dsimp only
  rw [if_neg (by rw [unpackExponent_packComponents]; exact hlast),
    if_neg (by rw [unpackExponent_packComponents]; exact hzero)]
  refine finite_congr ?_ ?_ ?_
  · rw [unpackSign_packComponents, ofBitVec_toBitVec]
  · rw [unpackMantissa_packComponents]
    exact hbits
  · rw [unpackExponent_packComponents]
    exact he

/-- With the least exponent there is none. -/
theorem unpack_packComponents_low {f : BitVec 52} (s : Sign) (hm : 0 < m) (hbits : f.toNat = m) :
    UnpackedFloat.unpack .binary64 (packComponents .binary64 s 0#11 f) =
      .finite s m (-1074) hm := by
  have hf : f ≠ 0#52 := by
    rintro rfl
    exact hm.ne' hbits.symm
  unfold UnpackedFloat.unpack
  dsimp only
  rw [if_neg (by rw [unpackExponent_packComponents]; decide),
    if_pos (by rw [unpackExponent_packComponents]),
    dif_neg (by rw [unpackMantissa_packComponents]; exact hf)]
  refine finite_congr ?_ ?_ ?_
  · rw [unpackSign_packComponents, ofBitVec_toBitVec]
  · rw [unpackMantissa_packComponents]
    exact hbits
  · rw [unpackExponent_packComponents]
    rfl

/-- A number of the format that is not too large is unpacked as it was. -/
theorem unpack_pack_normal (h : Normal m e) (hm : 0 < m) (he : e ≤ 971) :
    (Float.Model.pack (.finite .positive m e hm)).unpack = .finite .positive m e hm := by
  obtain ⟨hbits, hlow, hfull⟩ := h
  change UnpackedFloat.unpack .binary64 (UnpackedFloat.pack .binary64 _) = _
  rw [pack_finite _ hm he]
  -- with fifty-three bits the exponent is stored, with fewer it is the least and is not
  by_cases hlong : 2 ^ 52 ≤ m
  · have hlog : m.log2 = 52 :=
      Nat.le_antisymm (log2_le_of_lt hbits) ((Nat.le_log2 hm.ne').2 hlong)
    have hexponent : (BitVec.ofNat 11 (e + 1075).toNat).toNat = (e + 1075).toNat := by
      rw [BitVec.toNat_ofNat, Nat.mod_eq_of_lt (by omega)]
    rw [if_pos hlog]
    refine unpack_packComponents_normal _ hm ?_ ?_ ?_ ?_
    · intro heq
      have hvalue : (e + 1075).toNat = 0 := hexponent.symm.trans (congrArg BitVec.toNat heq)
      omega
    · intro heq
      have hvalue : (e + 1075).toNat = 2047 := hexponent.symm.trans (congrArg BitVec.toNat heq)
      omega
    · rw [BitVec.toNat_append, ← Nat.shiftLeft_add_eq_or_of_lt (BitVec.isLt _), BitVec.toNat_ofNat]
      change 1 <<< 52 + m % 2 ^ 52 = m
      omega
    · rw [hexponent]
      omega
  · have hlog : m.log2 ≠ 52 := by
      intro hlog
      exact hlong (hlog ▸ Nat.log2_self_le hm.ne')
    obtain rfl : e = -1074 := hfull.resolve_right hlong
    rw [if_neg hlog]
    refine unpack_packComponents_low _ hm ?_
    rw [BitVec.toNat_ofNat, Nat.mod_eq_of_lt (not_le.1 hlong)]

/-- One that is too large is unpacked as an infinity. -/
theorem unpack_pack_large (hm : 0 < m) (he : 972 ≤ e) :
    (Float.Model.pack (.finite .positive m e hm)).unpack = .infinity .positive := by
  have hbiased : (e + (Format.binary64.exponentBias : Int) +
      (Format.binary64.mantissaBitsWithoutImplicit : Int)).toNat = (e + 1075).toNat := by
    change (e + (1023 : Nat) + (52 : Nat)).toNat = (e + 1075).toNat
    omega
  change UnpackedFloat.unpack .binary64 (UnpackedFloat.pack .binary64 _) = _
  unfold UnpackedFloat.pack
  dsimp only
  rw [hbiased, if_pos (show 2048 ≤ (e + 1075).toNat + 1 by omega)]
  rfl

/-! ## Numbers -/

/-- Whether a number is finite and not negative, and what it is worth. -/
def IsWorth (x : Float) (v : ℚ) : Prop := Amounts v x.toModel.unpack

/-- Whether a number is what another one is rounded to: an infinity, if that is too large. -/
structure IsRounding (x : Float) (v : ℚ) : Prop where
  finite : rounded v < 2 ^ (1024 : ℤ) → IsWorth x (rounded v)
  large : 2 ^ (1024 : ℤ) ≤ rounded v → x.toModel.unpack = .infinity .positive

variable {x y : Float}

theorem IsWorth.inFormat (h : IsWorth x v) : InFormat v := Amounts.inFormat h

theorem IsWorth.nonneg (h : IsWorth x v) : 0 ≤ v := h.inFormat.nonneg

/-- What needs no rounding is not rounded. -/
theorem IsRounding.isWorth (h : IsRounding x v) (hv : InFormat v) (hlimit : v < 2 ^ (1024 : ℤ)) :
    IsWorth x v := by
  have hrounded := hv.rounded_eq
  rw [← hrounded] at hlimit
  exact hrounded ▸ h.finite hlimit

/-- What is rounded is finite if there is a power of two above it that is. -/
theorem IsRounding.isWorth_of_le {k : ℤ} (h : IsRounding x v) (hv : 0 ≤ v) (hle : v ≤ 2 ^ k)
    (hlow : -1074 ≤ k) (hhigh : k < 1024) : IsWorth x (rounded v) ∧ rounded v ≤ 2 ^ k := by
  have hrounded := (inFormat_two_zpow hlow).rounded_le hv hle
  exact ⟨h.finite (hrounded.trans_lt (zpow_lt_zpow_right₀ (by norm_num) hhigh)), hrounded⟩

/-- A mantissa of fewer than fifty-four bits is below the limit exactly if its exponent is. -/
theorem Normal.lt_limit (h : Normal m e) (he : e ≤ 971) : (m * 2 ^ e : ℚ) < 2 ^ (1024 : ℤ) :=
  h.lt_two_zpow.trans_le (Decimal.two_zpow_le (by omega))

theorem Normal.limit_le (h : Normal m e) (he : 972 ≤ e) : 2 ^ (1024 : ℤ) ≤ (m * 2 ^ e : ℚ) :=
  (Decimal.two_zpow_le (by omega)).trans (h.two_zpow_le (by omega))

/-- What an operation packs is what is unpacked from its result, or an infinity. -/
theorem isRounding_of_amounts {u : UnpackedFloat} (hx : x.toModel = Float.Model.pack u)
    (h : Amounts (rounded v) u) : IsRounding x v := by
  generalize hr : rounded v = r at h
  cases h with
  | zero s =>
    have hunpack : x.toModel.unpack = .zero s := by
      rw [hx]
      cases s <;> rfl
    refine ⟨fun _ => ?_, fun hlarge => ?_⟩
    · rw [hr, IsWorth, hunpack]
      exact .zero s
    · rw [hr] at hlarge
      exact absurd hlarge (two_zpow_pos 1024).not_ge
  | @finite m e hm hnormal =>
    by_cases he : e ≤ 971
    · refine ⟨fun _ => ?_, fun hlarge => ?_⟩
      · rw [hr, IsWorth, hx, unpack_pack_normal hnormal hm he]
        exact .finite hm hnormal
      · rw [hr] at hlarge
        exact absurd hlarge (hnormal.lt_limit he).not_ge
    · refine ⟨fun hsmall => ?_, fun _ => ?_⟩
      · rw [hr] at hsmall
        exact absurd hsmall (hnormal.limit_le (by omega)).not_gt
      · rw [hx, unpack_pack_large hm (by omega)]

/-- What is unpacked as finite is a number of the format. -/
theorem normal_of_unpack {b : BitVec Format.binary64.numBits} {s : Sign} {hm : 0 < m}
    (h : UnpackedFloat.unpack .binary64 b = .finite s m e hm) : Normal m e := by
  have hlast : (unpackExponent b).toNat ≠ 2047 := by
    intro hfield
    have hexponent : unpackExponent b = -BitVec.ofNat _ 1 := BitVec.eq_of_toNat_eq hfield
    unfold UnpackedFloat.unpack at h
    dsimp only at h
    rw [if_pos hexponent] at h
    by_cases hempty : unpackMantissa b = BitVec.ofNat _ 0
    · rw [if_pos hempty] at h
      cases h
    · rw [if_neg hempty] at h
      cases h
  -- without a hidden bit the exponent is the least of the format
  by_cases hzero : (unpackExponent b).toNat = 0
  · have hexponent : unpackExponent b = BitVec.ofNat _ 0 := BitVec.eq_of_toNat_eq hzero
    have hbits : (unpackMantissa b).toNat < 2 ^ 52 := (unpackMantissa b).isLt
    unfold UnpackedFloat.unpack at h
    dsimp only at h
    rw [hexponent, if_neg (by decide), if_pos rfl] at h
    by_cases hempty : unpackMantissa b = BitVec.ofNat _ 0
    · rw [dif_pos hempty] at h
      cases h
    · rw [dif_neg hempty] at h
      cases h
      exact ⟨by omega, by decide, .inl (by decide)⟩
  · obtain ⟨t, m', e', hm', hunpack, hlog, he⟩ := unpack_normal hzero hlast
    cases hunpack.symm.trans h
    have hlow := Nat.log2_self_le hm.ne'
    have hhigh := Nat.lt_log2_self (n := m)
    rw [hlog] at hlow hhigh
    exact ⟨hhigh, by omega, .inr hlow⟩

/-- A given number is worth what its mantissa and its exponent say. -/
theorem isWorth_of_unpack (hm : 0 < m) (h : x.toModel.unpack = .finite .positive m e hm)
    (hv : (m * 2 ^ e : ℚ) = v) : IsWorth x v := by
  rw [IsWorth, h, ← hv]
  exact .finite hm (normal_of_unpack h)

/-- What is finite and above zero is worth something. -/
theorem exists_isWorth (hfinite : isFinite x = true) (hpos : x > 0.0) :
    ∃ v, 0 < v ∧ IsWorth x v := by
  have hbelow : Below _ x.toModel.unpack := below_unpack ((isFinite_iff x).1 hfinite)
  have hcompare : UnpackedFloat.lt (0.0 : Float).toModel.unpack x.toModel.unpack = true :=
    of_decide_eq_true hpos
  unfold IsWorth
  rw [unpack_zero] at hcompare
  cases hx : x.toModel.unpack with
  | notANumber | infinity =>
    rw [hx] at hbelow
    cases hbelow
  | zero s =>
    rw [hx] at hcompare
    cases hcompare
  | finite s m e hm =>
    rw [hx] at hcompare
    cases s with
    | negative => cases hcompare
    | positive =>
      exact ⟨_, mul_pos (by exact_mod_cast hm) (two_zpow_pos e), .finite hm (normal_of_unpack hx)⟩

/-! ## The parts of a number -/

theorem toNat_unpackMantissa (b : BitVec Format.binary64.numBits) :
    (unpackMantissa b).toNat = b.toNat % hiddenBit := by
  unfold unpackMantissa
  rw [BitVec.toNat_cast, BitVec.extractLsb_toNat, Nat.shiftRight_zero]
  rfl

theorem toNat_unpackSign (b : BitVec Format.binary64.numBits) :
    (unpackSign b).toNat = b.toNat / 9223372036854775808 % 2 := by
  unfold unpackSign
  rw [BitVec.toNat_cast, BitVec.extractLsb_toNat, Nat.shiftRight_eq_div_pow]
  rfl

/-- What a number is, told from its unpacked form. -/
def shapeOf : UnpackedFloat → Shape
  | .notANumber => .nan
  | .infinity s => .infinite (s == .negative)
  | .zero s => .finite (s == .negative) 0 (-1074)
  | .finite s m e _ => .finite (s == .negative) m e

/-- What is read off the bits is what is unpacked. -/
theorem shape_eq (x : Float) : shape x = shapeOf x.toModel.unpack := by
  change _ = shapeOf (UnpackedFloat.unpack .binary64 x.toBits.toBitVec)
  have hbits : x.toBits.toNat = x.toBits.toBitVec.toNat := rfl
  generalize x.toBits.toBitVec = b at *
  -- the fields are found by division on one side and cut out of the vector on the other
  have hsign : (b.toNat / 9223372036854775808 % 2 == 1) =
      (Sign.ofBitVec (@unpackSign .binary64 b) == .negative) := by
    rw [← toNat_unpackSign]
    generalize @unpackSign .binary64 b = s
    revert s
    decide
  have hhidden (f : BitVec 52) : hiddenBit + f.toNat = (1#1 ++ f).toNat := by
    rw [BitVec.toNat_append, ← Nat.shiftLeft_add_eq_or_of_lt f.isLt]
    rfl
  have hlast : (@unpackExponent .binary64 b).toNat = 2047 ↔ @unpackExponent .binary64 b = -1#11 :=
    BitVec.toNat_inj (y := -1#11)
  have hlow : (@unpackExponent .binary64 b).toNat = 0 ↔ @unpackExponent .binary64 b = 0#11 :=
    BitVec.toNat_inj (y := 0#11)
  have hnone : (@unpackMantissa .binary64 b).toNat = 0 ↔ @unpackMantissa .binary64 b = 0#52 :=
    BitVec.toNat_inj (y := 0#52)
  unfold shape UnpackedFloat.unpack
  dsimp only
  rw [hbits, hsign, ← toNat_unpackExponent, ← toNat_unpackMantissa]
  by_cases hinfinite : @unpackExponent .binary64 b = -1#11
  · rw [if_pos (hlast.2 hinfinite), if_pos hinfinite]
    by_cases hm : @unpackMantissa .binary64 b = 0#52
    · rw [if_pos (hnone.2 hm), if_pos hm]
      rfl
    · rw [if_neg (hm ∘ hnone.1), if_neg hm]
      rfl
  rw [if_neg (hinfinite ∘ hlast.1), if_neg hinfinite]
  by_cases hzero : @unpackExponent .binary64 b = 0#11
  · rw [if_pos (hlow.2 hzero), if_pos hzero]
    by_cases hm : @unpackMantissa .binary64 b = 0#52
    · rw [dif_pos hm, hnone.2 hm]
      rfl
    · rw [dif_neg hm, hzero]
      rfl
  · rw [if_neg (hzero ∘ hlow.1), if_neg hzero, hhidden]
    rfl

/-- What a number is worth is read off its parts. -/
theorem IsWorth.shape_eq (h : IsWorth x v) : ∃ s m q, shape x = .finite s m q ∧
    v = m * 2 ^ q ∧ (s = true → m = 0) := by
  unfold IsWorth at h
  rw [Decimal.shape_eq]
  generalize x.toModel.unpack = u at h
  cases h with
  | zero s => exact ⟨_, 0, _, rfl, by rw [Nat.cast_zero, zero_mul], fun _ => rfl⟩
  | finite hm => exact ⟨_, _, _, rfl, rfl, nofun⟩

/-! ## Operations -/

theorem IsWorth.add (hx : IsWorth x v) (hy : IsWorth y w) : IsRounding (x + y) (v + w) :=
  isRounding_of_amounts rfl (amounts_add hx hy)

theorem IsWorth.mul (hx : IsWorth x v) (hy : IsWorth y w) : IsRounding (x * y) (v * w) :=
  isRounding_of_amounts rfl (amounts_mul hx hy)

theorem IsWorth.div (hx : IsWorth x v) (hy : IsWorth y w) (hw : 0 < w) :
    IsRounding (x / y) (v / w) :=
  isRounding_of_amounts rfl (amounts_div hx hy hw)

theorem IsWorth.lt_iff (hx : IsWorth x v) (hy : IsWorth y w) : x < y ↔ v < w := by
  have hlt : x < y ↔ UnpackedFloat.lt x.toModel.unpack y.toModel.unpack = true :=
    decide_eq_true_iff
  rw [hlt, UnpackedFloat.lt, amounts_compare hx hy, beq_iff_eq, Option.some_inj, compare_lt_iff_lt]

theorem IsWorth.le_iff (hx : IsWorth x v) (hy : IsWorth y w) : x ≤ y ↔ v ≤ w := by
  have hle : x ≤ y ↔ UnpackedFloat.le x.toModel.unpack y.toModel.unpack = true :=
    decide_eq_true_iff
  rw [hle, UnpackedFloat.le, amounts_compare hx hy, Option.any_some,
    ← Ordering.ne_gt_iff_isLE]
  exact compare_le_iff_le

/-- A whole number is converted to its rounding. -/
theorem isRounding_ofNat (n : ℕ) : IsRounding (Float.ofNat n) n := by
  change IsRounding (Float.ofScientific n false 0) n
  unfold Float.ofScientific
  split
  · next hsmall =>
    -- a small one is converted as it is and multiplied by one
    have hword : n.toUInt64.toNat = n :=
      UInt64.toNat_ofNat_of_lt' (hsmall.1.trans (by decide))
    have hlimit : (n : ℚ) < 2 ^ (1024 : ℤ) := by
      have hbits : (n : ℚ) < 2 ^ (53 : ℤ) := by exact_mod_cast hsmall.1
      exact hbits.trans_le (two_zpow_le (by decide))
    have hone : IsWorth Float.exactlyRepresentablePowersOfTen[0] 1 :=
      isWorth_of_unpack (m := 4503599627370496) (e := -52) (by decide) rfl (by norm_num)
    have hwhole : IsRounding n.toUInt64.toFloat n := by
      have h : IsRounding n.toUInt64.toFloat (n.toUInt64.toNat * 2 ^ (0 : ℤ)) :=
        isRounding_of_amounts rfl (amounts_normalize _ 0)
      rwa [hword, zpow_zero, mul_one] at h
    have hproduct := (hwhole.isWorth (inFormat_natCast hsmall.1) hlimit).mul hone
    rwa [mul_one] at hproduct
  · next hlarge =>
    have hpos : n ≠ 0 := by
      rintro rfl
      exact hlarge (by decide)
    obtain ⟨k, m, e, hk, hm, hproduct, hshift, hexponent, hone⟩ :=
      ofScientific_whole .binary64 hpos
    have hbits : Format.binary64.mantissaBits = 53 := rfl
    rw [hbits, Nat.shiftLeft_eq] at hshift
    rw [hbits] at hexponent
    have hvalue : ((k * m : ℕ) * 2 ^ (e + 0) : ℚ) = n := by
      rw [hshift, hexponent, hone, add_zero, mul_one, Nat.cast_mul, mul_assoc]
      norm_num
    have hlong : 2 ^ 52 ≤ k * m := by
      rw [hshift, hone]
      omega
    have h := amounts_exact (e := e + 0) (Nat.mul_pos hk hm) (.inl hlong)
    rw [hvalue] at h
    exact isRounding_of_amounts (congrArg Float.Model.pack hproduct) h

theorem isWorth_ofNat (hn : n < 2 ^ 53) : IsWorth (Float.ofNat n) n := by
  have hbits : (n : ℚ) ≤ 2 ^ (53 : ℤ) := by exact_mod_cast hn.le
  have h := ((isRounding_ofNat n).isWorth_of_le (Nat.cast_nonneg n) hbits (by decide) (by decide)).1
  rwa [(inFormat_natCast hn).rounded_eq] at h

end StoryChat.Decimal
