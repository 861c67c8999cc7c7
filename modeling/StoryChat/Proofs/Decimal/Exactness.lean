/-
What floating point operations compute.

The operations on `Float` work on mantissas: they shift them, and keep of what is shifted out only
whether it was less than a half, a half, or more. That is all that rounding to the nearest asks
for, so each operation on numbers that are not negative gives the rounding of the exact result
(`rounded`), and an infinity if this is too large for the format. Comparing two such numbers
compares what they are worth.
-/
import StoryChat.Proofs.Decimal.Finite
import StoryChat.Proofs.Decimal.Rounding

set_option autoImplicit false

namespace StoryChat.Decimal

open Float.Model UnpackedFloat

variable {v w : ℚ} {m n : ℕ} {e : ℤ}

/-! ## Mantissas -/

/-- Whether a mantissa and the two bits behind it stand for a number: it is the whole part, the
first bit says whether a half or more is left, and the second whether anything but a half is. -/
structure Holds (v : ℚ) (em : ExtendedMantissa) : Prop where
  floor : ⌊v⌋ = em.mantissa
  half : em.roundBit = true ↔ 1 / 2 ≤ Int.fract v
  rest : em.stickyBit = true ↔ Int.fract v ≠ 0 ∧ Int.fract v ≠ 1 / 2

theorem holds_natCast (m : ℕ) : Holds m (.ofMantissaAndAccuracy m .exact) where
  floor := Int.floor_natCast m
  half := by
    rw [Int.fract_natCast]
    norm_num [ExtendedMantissa.ofMantissaAndAccuracy]
  rest := by
    rw [Int.fract_natCast]
    norm_num [ExtendedMantissa.ofMantissaAndAccuracy]

/-- The whole part of half a number, and what is left then. -/
theorem floor_fract_half (v : ℚ) : ⌊v / 2⌋ = ⌊v⌋ / 2 ∧
    Int.fract (v / 2) = ((⌊v⌋ % 2 : ℤ) + Int.fract v) / 2 := by
  have hsplit : ((⌊v⌋ % 2 : ℤ) : ℚ) + 2 * (⌊v⌋ / 2 : ℤ) = ⌊v⌋ := by
    exact_mod_cast Int.emod_add_mul_ediv ⌊v⌋ 2
  have hlow : (0 : ℚ) ≤ (⌊v⌋ % 2 : ℤ) := by exact_mod_cast Int.emod_nonneg _ (by decide)
  have hhigh : ((⌊v⌋ % 2 : ℤ) : ℚ) ≤ 1 := by
    have h : ⌊v⌋ % 2 ≤ 1 := by omega
    exact_mod_cast h
  have hfract := Int.floor_add_fract v
  have hnonneg := Int.fract_nonneg v
  have hlt := Int.fract_lt_one v
  have hfloor : ⌊v / 2⌋ = ⌊v⌋ / 2 := Int.floor_eq_iff.2 ⟨by linarith, by linarith⟩
  refine ⟨hfloor, ?_⟩
  rw [Int.fract, hfloor]
  linarith

/-- To shift out one bit is to halve. -/
theorem Holds.shiftRightOne {em : ExtendedMantissa} (h : Holds v em) :
    Holds (v / 2) em.shiftRightOne := by
  obtain ⟨hfloor, hfract⟩ := floor_fract_half v
  have hnonneg := Int.fract_nonneg v
  have hlt := Int.fract_lt_one v
  -- the two bits behind the mantissa become one: whether there was anything left
  have hnothing : (em.roundBit || em.stickyBit) = true ↔ Int.fract v ≠ 0 := by
    rw [Bool.or_eq_true, h.half, h.rest]
    constructor
    · rintro (hhalf | hrest)
      · linarith
      · exact hrest.1
    · intro hne
      by_cases heq : Int.fract v = 1 / 2
      · exact .inl heq.ge
      · exact .inr ⟨hne, heq⟩
  have hparity : em.mantissa % 2 = 0 ∧ ⌊v⌋ % 2 = 0 ∨ em.mantissa % 2 = 1 ∧ ⌊v⌋ % 2 = 1 := by
    rw [h.floor]
    omega
  have hwhole : ⌊v / 2⌋ = em.shiftRightOne.mantissa := by
    rw [hfloor, h.floor]
    rfl
  -- the bit that is shifted out says whether a half or more is left now
  rcases hparity with ⟨hm, hv⟩ | ⟨hm, hv⟩
  · rw [hv, Int.cast_zero, zero_add] at hfract
    refine ⟨hwhole, ?_, hnothing.trans ?_⟩
    · rw [hfract, ExtendedMantissa.shiftRightOne, hm]
      constructor
      · nofun
      · intro hle
        linarith
    · rw [hfract]
      exact ⟨fun hne => ⟨fun heq => hne (by linarith), fun heq => by linarith⟩,
        fun hne heq => hne.1 (by linarith)⟩
  · rw [hv, Int.cast_one] at hfract
    refine ⟨hwhole, ?_, hnothing.trans ?_⟩
    · rw [hfract, ExtendedMantissa.shiftRightOne, hm]
      exact ⟨fun _ => by linarith, fun _ => rfl⟩
    · rw [hfract]
      exact ⟨fun hne => ⟨fun heq => by linarith, fun heq => hne (by linarith)⟩,
        fun hne heq => hne.2 (by linarith)⟩

theorem Holds.shiftRight {em : ExtendedMantissa} (h : Holds v em) (n : ℕ) :
    Holds (v / 2 ^ n) (em >>> n) := by
  change Holds (v / 2 ^ n) (Nat.repeat ExtendedMantissa.shiftRightOne n em)
  induction n with
  | zero =>
    rw [pow_zero, div_one]
    exact h
  | succ n ih =>
    rw [pow_succ, ← div_div]
    exact ih.shiftRightOne

/-- What a mantissa is rounded to is what the number it stands for is rounded to. -/
theorem Holds.roundedMantissa {em : ExtendedMantissa} (h : Holds v em) :
    (em.roundedMantissa : ℤ) = evenNearest v := by
  obtain ⟨hfloor, hhalf, hrest⟩ := h
  obtain ⟨m, half, rest⟩ := em
  dsimp only at hfloor hhalf hrest
  unfold evenNearest
  rw [hfloor]
  cases half with
  | false =>
    have hbelow : Int.fract v < 1 / 2 := not_le.1 fun hle => nomatch hhalf.2 hle
    rw [if_pos hbelow]
    cases rest <;> rfl
  | true =>
    have habove : 1 / 2 ≤ Int.fract v := hhalf.1 rfl
    rw [if_neg habove.not_gt]
    cases rest with
    | false =>
      have heq : Int.fract v = 1 / 2 := by
        by_contra hne
        exact nomatch hrest.2 ⟨by linarith, hne⟩
      rw [if_neg heq.not_gt]
      change ((m + m % 2 : ℕ) : ℤ) = m + m % 2
      push_cast
      rfl
    | true =>
      rw [if_pos (lt_of_le_of_ne habove (Ne.symm (hrest.1 rfl).2))]
      rfl

/-- A quotient of whole numbers is held by the whole quotient and what the rest says. -/
theorem holds_div (m : ℕ) (hn : 0 < n) :
    Holds (m / n) (.ofMantissaAndAccuracy (m / n) (accuracyOfFraction (m % n) n)) := by
  have hn' : (n : ℚ) ≠ 0 := by exact_mod_cast hn.ne'
  obtain ⟨hfloor, hfract⟩ := floor_fract_div m hn
  obtain ⟨hbelow, habove⟩ := compare_fract_div m hn
  unfold accuracyOfFraction
  by_cases hzero : m % n = 0
  · have hwhole : (m / n : ℚ) = (m / n : ℕ) := by
      rw [← Int.floor_add_fract (m / n : ℚ), hfloor, hfract, hzero, Nat.cast_zero, zero_div,
        add_zero, Int.cast_natCast]
    rw [if_pos hzero, hwhole]
    exact holds_natCast _
  have hne : Int.fract (m / n : ℚ) ≠ 0 := by
    rw [hfract]
    exact div_ne_zero (by exact_mod_cast hzero) hn'
  rw [if_neg hzero]
  -- the rest is compared with one half as twice the remainder with the divisor
  rcases lt_trichotomy (2 * (m % n)) n with hlt | heq | hgt
  · have hless := hbelow.2 hlt
    rw [Nat.compare_eq_lt.2 hlt]
    exact ⟨hfloor, ⟨nofun, fun hle => absurd hle hless.not_ge⟩,
      ⟨fun _ => ⟨hne, hless.ne⟩, fun _ => rfl⟩⟩
  · have hhalf : Int.fract (m / n : ℚ) = 1 / 2 :=
      le_antisymm (not_lt.1 fun h => (habove.1 h).ne heq.symm)
        (not_lt.1 fun h => (hbelow.1 h).ne heq)
    rw [Nat.compare_eq_eq.2 heq]
    exact ⟨hfloor, ⟨fun _ => hhalf.ge, fun _ => rfl⟩, ⟨nofun, fun h => absurd hhalf h.2⟩⟩
  · have hmore := habove.2 hgt
    rw [Nat.compare_eq_gt.2 hgt]
    exact ⟨hfloor, ⟨fun _ => hmore.le, fun _ => rfl⟩, ⟨fun _ => ⟨hne, hmore.ne'⟩, fun _ => rfl⟩⟩

/-! ## Rounding -/

/-- Whether a mantissa and an exponent are those of a number of the format, as if there were no
largest one: fewer than fifty-four bits, and fifty-three unless the last place is the lowest. -/
structure Normal (m : ℕ) (e : ℤ) : Prop where
  bits : m < 2 ^ 53
  low : -1074 ≤ e
  full : e = -1074 ∨ 2 ^ 52 ≤ m

theorem Normal.lt_two_zpow (h : Normal m e) : (m * 2 ^ e : ℚ) < 2 ^ (53 + e) := by
  have hbits : (m : ℚ) < 2 ^ (53 : ℤ) := by exact_mod_cast h.bits
  rw [two_zpow_add]
  exact mul_lt_mul_of_pos_right hbits (two_zpow_pos e)

theorem Normal.two_zpow_le (h : Normal m e) (he : -1074 < e) : 2 ^ (52 + e) ≤ (m * 2 ^ e : ℚ) := by
  have hfull : (2 : ℚ) ^ (52 : ℤ) ≤ m := by exact_mod_cast h.full.resolve_left he.ne'
  rw [two_zpow_add]
  exact mul_le_mul_of_nonneg_right hfull (two_zpow_pos e).le

/-- Where the unit is two or more, less than one added is lost. -/
theorem Normal.rounded_add (h : Normal m e) (he : 1 ≤ e) (hv : 0 ≤ v) (hlt : v < 1) :
    rounded (m * 2 ^ e + v) = m * 2 ^ e := by
  have hunit : (2 : ℚ) ≤ 2 ^ e := by
    have hle := Decimal.two_zpow_le he
    rwa [zpow_one] at hle
  have hnext : (m * 2 ^ e + v : ℚ) < 2 ^ (e + 52 + 1) := by
    have hbits : ((m + 1 : ℕ) : ℚ) ≤ 2 ^ (53 : ℤ) := by exact_mod_cast h.bits
    have hle := mul_le_mul_of_nonneg_right hbits (two_zpow_pos e).le
    rw [← two_zpow_add, Nat.cast_add, Nat.cast_one, add_mul, one_mul] at hle
    rw [show e + 52 + 1 = 53 + e by ring]
    linarith
  have hfirst : (2 : ℚ) ^ (e + 52) ≤ m * 2 ^ e + v := by
    have hle := h.two_zpow_le (by omega)
    rw [add_comm e 52]
    linarith
  have hplace : place (m * 2 ^ e + v) = e := by
    rw [place_eq hfirst hnext]
    omega
  have hhalf : v / 2 ^ e < 1 / 2 := by
    rw [div_lt_iff₀ (two_zpow_pos e)]
    linarith
  rw [rounded, hplace, add_div, mul_div_cancel_right₀ _ (two_zpow_pos e).ne',
    evenNearest_natCast_add m (div_nonneg hv (two_zpow_pos e).le) hhalf, Int.cast_natCast]

/-- Whether what was unpacked is a number that is not negative, and which one. -/
inductive Amounts : ℚ → UnpackedFloat → Prop where
  | zero (s : Sign) : Amounts 0 (.zero s)
  | finite {m : ℕ} {e : ℤ} (hm : 0 < m) : Normal m e →
      Amounts (m * 2 ^ e) (.finite .positive m e hm)

theorem Amounts.inFormat {u : UnpackedFloat} (h : Amounts v u) : InFormat v := by
  cases h with
  | zero s => exact ⟨0, 0, by norm_num, by norm_num, by norm_num⟩
  | @finite m e hm hnormal => exact ⟨m, e, hnormal.bits, hnormal.low, rfl⟩

/-- Where the leading bit of a number stands. The next number with the same exponent has it there
as well, or is the power of two behind. -/
theorem leading_bit (hm : 0 < m) (e : ℤ) :
    (2 : ℚ) ^ (m.log2 + e) ≤ m * 2 ^ e ∧ ((m + 1) * 2 ^ e : ℚ) ≤ 2 ^ (m.log2 + e + 1) := by
  have hlow : ((2 ^ m.log2 : ℕ) : ℚ) ≤ m := by exact_mod_cast Nat.log2_self_le hm.ne'
  have hhigh : (m + 1 : ℚ) ≤ (2 ^ (m.log2 + 1) : ℕ) := by exact_mod_cast Nat.lt_log2_self
  rw [Nat.cast_pow, Nat.cast_ofNat, ← zpow_natCast] at hlow hhigh
  rw [show (m.log2 : ℤ) + e + 1 = (m.log2 + 1 : ℕ) + e by push_cast; ring, two_zpow_add,
    two_zpow_add]
  exact ⟨mul_le_mul_of_nonneg_right hlow (two_zpow_pos e).le,
    mul_le_mul_of_nonneg_right hhigh (two_zpow_pos e).le⟩

/-- Where the first shift goes to: to the last place of what is held. If nothing is held but a
part of a unit, that is the lowest place. -/
theorem targetExponent_eq_place (hv : 0 < v) (hm : ⌊v / 2 ^ e⌋ = m) (he : e ≤ place v) :
    Format.binary64.targetExponent (totalExponent m e) = place v := by
  obtain ⟨hlow, hhigh⟩ := Int.floor_eq_iff.1 hm
  rw [Int.cast_natCast, le_div_iff₀ (two_zpow_pos e)] at hlow
  rw [Int.cast_natCast, div_lt_iff₀ (two_zpow_pos e)] at hhigh
  rw [targetExponent_eq, totalExponent]
  rcases Nat.eq_zero_or_pos m with rfl | hpos
  · -- less than a unit has its last place there only if no place is lower
    rw [Nat.cast_zero, zero_add, one_mul] at hhigh
    have hlowest : e ≤ -1074 := by
      refine ((le_place_iff hv).1 he).resolve_right fun habove => ?_
      exact absurd (habove.trans_lt hhigh) (two_zpow_le (by omega)).not_gt
    have hplace : place v ≤ -1074 :=
      (place_le_iff hv).2 ⟨le_rfl, hhigh.trans_le (two_zpow_le (by omega))⟩
    have := place_ge v
    rw [Nat.log2_zero]
    omega
  · obtain ⟨hfirst, hlast⟩ := leading_bit hpos e
    rw [place_eq (hfirst.trans hlow) (hhigh.trans_le hlast)]
    omega

/-- A mantissa that fits stays where it is. -/
theorem shiftToTargetExponent_fits (hm : m < 2 ^ 53) (he : -1074 ≤ e) :
    shiftToTargetExponent .binary64 m e .exact = (.ofMantissaAndAccuracy m .exact, e) := by
  have hlog : m.log2 ≤ 52 := log2_le_of_lt hm
  have hamount : (Format.binary64.targetExponent (totalExponent m e) - e).toNat = 0 := by
    rw [targetExponent_eq, totalExponent]
    omega
  unfold shiftToTargetExponent shiftToExponent
  dsimp only
  rw [hamount, Nat.cast_zero, add_zero]
  rfl

/-- One that has become too long by rounding is a power of two, and shifted by one bit. -/
theorem shiftToTargetExponent_carry (he : -1074 ≤ e) :
    (shiftToTargetExponent .binary64 (2 ^ 53) e .exact).1.mantissa = 2 ^ 52 ∧
      (shiftToTargetExponent .binary64 (2 ^ 53) e .exact).2 = e + 1 := by
  have hamount : (Format.binary64.targetExponent (totalExponent (2 ^ 53) e) - e).toNat = 1 := by
    rw [targetExponent_eq, totalExponent, Nat.log2_two_pow]
    omega
  unfold shiftToTargetExponent shiftToExponent
  dsimp only
  rw [hamount, mantissa_shiftRight]
  exact ⟨by decide, rfl⟩

/-- What the second shift of a rounding leaves. -/
def settled (found : ExtendedMantissa × ℤ) : UnpackedFloat :=
  if h : found.1.mantissa = 0 then .zero .positive
  else .finite .positive found.1.mantissa found.2 (Nat.pos_of_ne_zero h)

theorem amounts_settled (found : ExtendedMantissa × ℤ)
    (h : found.1.mantissa ≠ 0 → Normal found.1.mantissa found.2) :
    Amounts (found.1.mantissa * 2 ^ found.2) (settled found) := by
  unfold settled
  by_cases hzero : found.1.mantissa = 0
  · rw [dif_pos hzero, hzero, Nat.cast_zero, zero_mul]
    exact .zero _
  · rw [dif_neg hzero]
    exact .finite _ (h hzero)

/-- A count of units is at most a power of two too long. -/
theorem amounts_count (hm : m ≤ 2 ^ 53) (he : -1074 ≤ e) (hfull : e = -1074 ∨ 2 ^ 52 ≤ m) :
    Amounts (m * 2 ^ e) (settled (shiftToTargetExponent .binary64 m e .exact)) := by
  rcases hm.lt_or_eq with hlt | rfl
  · rw [shiftToTargetExponent_fits hlt he]
    exact amounts_settled (.ofMantissaAndAccuracy m .exact, e)
      fun _ => ⟨hlt, he, hfull⟩
  · obtain ⟨hcarry, hexponent⟩ := shiftToTargetExponent_carry he
    generalize shiftToTargetExponent .binary64 (2 ^ 53) e .exact = found at hcarry hexponent
    have hsettled := amounts_settled found fun _ =>
      ⟨by rw [hcarry]; decide, by omega, .inr hcarry.ge⟩
    have hvalue : (found.1.mantissa : ℚ) * 2 ^ found.2 = (2 ^ 53 : ℕ) * 2 ^ e := by
      rw [hcarry, hexponent, two_zpow_add]
      push_cast
      ring
    rwa [hvalue] at hsettled

/-- What is held is rounded: the first shift leaves the units of the last place. -/
theorem amounts_roundWithAccuracy {a : Accuracy} (hv : 0 < v)
    (h : Holds (v / 2 ^ e) (.ofMantissaAndAccuracy m a)) (he : e ≤ place v) :
    Amounts (rounded v) (roundWithAccuracy .binary64 .positive m e a) := by
  have hmantissa : (ExtendedMantissa.ofMantissaAndAccuracy m a).mantissa = m := by
    unfold ExtendedMantissa.ofMantissaAndAccuracy
    split <;> rfl
  have htarget := targetExponent_eq_place hv (h.floor.trans (by rw [hmantissa])) he
  have hexponent : e + ((place v - e).toNat : ℤ) = place v := by omega
  have hfirst := h.shiftRight (place v - e).toNat
  rw [div_div, ← zpow_natCast, ← two_zpow_add, hexponent] at hfirst
  have hcount := hfirst.roundedMantissa
  have hround : roundWithAccuracy .binary64 .positive m e a = settled (shiftToTargetExponent
      .binary64 (ExtendedMantissa.ofMantissaAndAccuracy m a >>>
        (place v - e).toNat).roundedMantissa (place v) .exact) := by
    unfold roundWithAccuracy
    rw [shiftToTargetExponent, htarget, shiftToExponent]
    dsimp only
    rw [hexponent]
    rfl
  -- only the count is left: the second shift is the carry of a count of `2 ^ 53`
  generalize (ExtendedMantissa.ofMantissaAndAccuracy m a >>>
    (place v - e).toNat).roundedMantissa = r at hcount hround
  rw [hround, rounded, ← hcount, Int.cast_natCast]
  refine amounts_count ?_ (place_ge v) ?_
  · have hle := count_le hv
    rw [← hcount] at hle
    exact_mod_cast hle
  · by_cases hlowest : place v = -1074
    · exact .inl hlowest
    · have hle := le_count hv hlowest
      rw [← hcount] at hle
      exact .inr (by exact_mod_cast hle)

/-- A mantissa that is not rounded yet may be made longer first. -/
theorem amounts_round (hm : 0 < m) :
    Amounts (rounded (m * 2 ^ e)) (UnpackedFloat.round .binary64 .positive m e) := by
  have hv : (0 : ℚ) < m * 2 ^ e := mul_pos (by exact_mod_cast hm) (two_zpow_pos e)
  unfold UnpackedFloat.round decreaseExponent
  dsimp only
  generalize hk : (e - Format.binary64.targetExponent (totalExponent m e)).toNat = k
  have hlonger : ((m <<< k : ℕ) : ℚ) = m * 2 ^ e / 2 ^ (e - k) := by
    rw [Nat.shiftLeft_eq, Nat.cast_mul, Nat.cast_pow, Nat.cast_ofNat, ← zpow_natCast,
      mul_div_assoc, ← zpow_sub₀ (by norm_num)]
    congr 2
    ring
  refine amounts_roundWithAccuracy hv (by rw [← hlonger]; exact holds_natCast _) ?_
  rw [targetExponent_eq, totalExponent] at hk
  refine (le_place_iff hv).2 ?_
  by_cases hlowest : e - k ≤ -1074
  · exact .inl hlowest
  · exact .inr ((two_zpow_le (by omega)).trans (leading_bit hm e).1)

/-! ## Operations -/

/-- A product of mantissas is rounded from where it stands, if it is long enough for that. -/
theorem amounts_exact (hm : 0 < m) (hlong : 2 ^ 52 ≤ m ∨ e ≤ -1074) :
    Amounts (rounded (m * 2 ^ e)) (roundWithAccuracy .binary64 .positive m e .exact) := by
  have hv : (0 : ℚ) < m * 2 ^ e := mul_pos (by exact_mod_cast hm) (two_zpow_pos e)
  have hunits : (m * 2 ^ e : ℚ) / 2 ^ e = m := mul_div_cancel_right₀ _ (two_zpow_pos e).ne'
  refine amounts_roundWithAccuracy hv (by rw [hunits]; exact holds_natCast m) ?_
  refine (le_place_iff hv).2 ?_
  rcases hlong with hlong | hlow
  · right
    have hlong : ((2 : ℚ) ^ (52 : ℤ)) ≤ m := by exact_mod_cast hlong
    rw [add_comm, two_zpow_add]
    exact mul_le_mul_of_nonneg_right hlong (two_zpow_pos e).le
  · exact .inl hlow

variable {u u' : UnpackedFloat}

theorem amounts_mul (h : Amounts v u) (h' : Amounts w u') :
    Amounts (rounded (v * w)) (UnpackedFloat.mul .binary64 u u') := by
  cases h with
  | zero s =>
    rw [zero_mul, rounded_zero]
    cases h' with
    | zero | finite => exact .zero _
  | @finite m e hm hnormal =>
    cases h' with
    | zero t =>
      rw [mul_zero, rounded_zero]
      exact .zero _
    | @finite m' e' hm' hnormal' =>
      have hproduct : (m * 2 ^ e * (m' * 2 ^ e') : ℚ) = (m * m' : ℕ) * 2 ^ (e + e') := by
        rw [two_zpow_add]
        push_cast
        ring
      rw [hproduct]
      refine amounts_exact (Nat.mul_pos hm hm') ?_
      -- a factor of fifty-three bits makes the product long enough, and two short ones are both of
      -- the lowest place, so that their product is far below it
      rcases hnormal.full with rfl | hlong
      · rcases hnormal'.full with rfl | hlong'
        · exact .inr (by decide)
        · exact .inl (hlong'.trans (Nat.le_mul_of_pos_left m' hm))
      · exact .inl (hlong.trans (Nat.le_mul_of_pos_right m hm'))

theorem amounts_normalize (m : ℕ) (e : ℤ) :
    Amounts (rounded (m * 2 ^ e)) (UnpackedFloat.normalize .binary64 m e .positive) := by
  rcases Nat.eq_zero_or_pos m with rfl | hm
  · rw [Nat.cast_zero, zero_mul, rounded_zero]
    exact .zero _
  · have hsign : compare (m : ℤ) 0 = .gt := Int.compare_eq_gt.2 (by omega)
    unfold UnpackedFloat.normalize
    rw [hsign]
    exact amounts_round hm

/-- Of a sum the mantissas are brought to one exponent first. -/
theorem amounts_add (h : Amounts v u) (h' : Amounts w u') :
    Amounts (rounded (v + w)) (UnpackedFloat.add .binary64 u u') := by
  have hround := h.inFormat.rounded_eq
  have hround' := h'.inFormat.rounded_eq
  cases h with
  | zero s =>
    rw [zero_add, hround']
    cases h' with
    | zero t => cases s <;> cases t <;> exact .zero _
    | finite hm' hnormal' => exact .finite hm' hnormal'
  | @finite m e hm hnormal =>
    cases h' with
    | zero t =>
      rw [add_zero, hround]
      exact .finite hm hnormal
    | @finite m' e' hm' hnormal' =>
      -- brought to the lesser exponent a mantissa gains as many zeros as its own is above it
      have hshift (k : ℕ) (f : ℤ) (hf : min e e' ≤ f) :
          ((k <<< (f - min e e').toNat : ℕ) : ℚ) * 2 ^ min e e' = k * 2 ^ f := by
        rw [Nat.shiftLeft_eq, Nat.cast_mul, Nat.cast_pow, Nat.cast_ofNat, ← zpow_natCast,
          mul_assoc, ← two_zpow_add]
        congr 2
        omega
      have hsum : (m * 2 ^ e + m' * 2 ^ e' : ℚ) =
          (m <<< (e - min e e').toNat + m' <<< (e' - min e e').toNat : ℕ) * 2 ^ min e e' := by
        rw [Nat.cast_add, add_mul, hshift m e (min_le_left _ _), hshift m' e' (min_le_right _ _)]
      have hadd : UnpackedFloat.add .binary64 (.finite .positive m e hm)
          (.finite .positive m' e' hm') = UnpackedFloat.normalize .binary64
            (m <<< (e - min e e').toNat + m' <<< (e' - min e e').toNat : ℕ) (min e e')
            .positive := rfl
      rw [hsum, hadd]
      exact amounts_normalize _ _

/-- A quotient is divided far enough to be rounded. -/
theorem amounts_div (h : Amounts v u) (h' : Amounts w u') (hw : 0 < w) :
    Amounts (rounded (v / w)) (UnpackedFloat.div .binary64 u u') := by
  cases h' with
  | zero t => exact absurd hw (lt_irrefl 0)
  | @finite m' e' hm' hnormal' =>
    cases h with
    | zero s =>
      rw [zero_div, rounded_zero]
      exact .zero _
    | @finite m e hm hnormal =>
      have hv : (0 : ℚ) < m * 2 ^ e := mul_pos (by exact_mod_cast hm) (two_zpow_pos e)
      have hquotient := div_pos hv hw
      have hdiv : UnpackedFloat.div .binary64 (.finite .positive m e hm)
          (.finite .positive m' e' hm') = roundWithAccuracy .binary64 .positive
            (divCore .binary64 m e m' e').1 (divCore .binary64 m e m' e').2.1
            (divCore .binary64 m e m' e').2.2 := rfl
      rw [hdiv]
      unfold divCore
      dsimp only
      generalize ht : min (e - e') (Format.binary64.targetExponent
        (totalExponent m e - totalExponent m' e')) = t
      have hunits : (m * 2 ^ e / (m' * 2 ^ e') : ℚ) / 2 ^ t =
          (m <<< (e - e' - t).toNat : ℕ) / (m' : ℕ) := by
        rw [Nat.shiftLeft_eq, Nat.cast_mul, ← two_zpow_eq_natCast (by omega), zpow_sub₀ two_ne_zero,
          zpow_sub₀ two_ne_zero]
        field_simp
      -- the quotient has enough bits above the unit that it is divided to
      refine amounts_roundWithAccuracy hquotient (by rw [hunits]; exact holds_div _ hm') ?_
      refine (le_place_iff hquotient).2 ?_
      rw [targetExponent_eq, totalExponent, totalExponent] at ht
      by_cases hlowest : t ≤ -1074
      · exact .inl hlowest
      · right
        rw [le_div_iff₀ hw]
        have hdivisor : (m' * 2 ^ e' : ℚ) ≤ 2 ^ (m'.log2 + e' + 1) := by
          have hle := (leading_bit hm' e').2
          rw [add_mul, one_mul] at hle
          exact (le_add_of_nonneg_right (two_zpow_pos e').le).trans hle
        calc (2 : ℚ) ^ (t + 52) * (m' * 2 ^ e')
            ≤ 2 ^ (t + 52) * 2 ^ (m'.log2 + e' + 1) :=
              mul_le_mul_of_nonneg_left hdivisor (two_zpow_pos _).le
          _ = 2 ^ (t + 52 + (m'.log2 + e' + 1)) := (two_zpow_add _ _).symm
          _ ≤ 2 ^ (m.log2 + e) := two_zpow_le (by omega)
          _ ≤ m * 2 ^ e := (leading_bit hm e).1

/-! ## Comparison -/

/-- Of two numbers of the format the one with the larger exponent is larger, whatever the
mantissas are. -/
theorem Normal.lt_of_exponent_lt {e' : ℤ} (h : Normal m e) (h' : Normal n e') (he : e < e') :
    (m * 2 ^ e : ℚ) < n * 2 ^ e' :=
  calc (m * 2 ^ e : ℚ) < 2 ^ (53 + e) := h.lt_two_zpow
    _ ≤ 2 ^ (52 + e') := Decimal.two_zpow_le (by omega)
    _ ≤ n * 2 ^ e' := h'.two_zpow_le (h.low.trans_lt he)

/-- Numbers are compared as what they are worth. -/
theorem amounts_compare (h : Amounts v u) (h' : Amounts w u') :
    u.compare u' = some (compare v w) := by
  cases h with
  | zero s =>
    cases h' with
    | zero t => rw [compare_eq_iff_eq.2 rfl]; rfl
    | @finite m' e' hm' hnormal' =>
      have hpos : (0 : ℚ) < m' * 2 ^ e' := mul_pos (by exact_mod_cast hm') (two_zpow_pos e')
      rw [compare_lt_iff_lt.2 hpos]
      rfl
  | @finite m e hm hnormal =>
    have hpos : (0 : ℚ) < m * 2 ^ e := mul_pos (by exact_mod_cast hm) (two_zpow_pos e)
    cases h' with
    | zero t =>
      rw [compare_gt_iff_gt.2 hpos]
      rfl
    | @finite m' e' hm' hnormal' =>
      -- the exponents decide, and the mantissas only where these are the same
      change some ((compare e e').then (compare m m')) = _
      congr 1
      rcases lt_trichotomy e e' with hlt | rfl | hgt
      · rw [Int.compare_eq_lt.2 hlt, compare_lt_iff_lt.2 (hnormal.lt_of_exponent_lt hnormal' hlt)]
        rfl
      · have hunit := two_zpow_pos e
        rw [compare_eq_iff_eq.2 rfl]
        rcases lt_trichotomy m m' with hlt | rfl | hgt
        · rw [Nat.compare_eq_lt.2 hlt, compare_lt_iff_lt.2]
          · rfl
          · exact mul_lt_mul_of_pos_right (by exact_mod_cast hlt) hunit
        · rw [compare_eq_iff_eq.2 rfl, compare_eq_iff_eq.2 rfl]
          rfl
        · rw [Nat.compare_eq_gt.2 hgt, compare_gt_iff_gt.2]
          · rfl
          · exact mul_lt_mul_of_pos_right (by exact_mod_cast hgt) hunit
      · rw [Int.compare_eq_gt.2 hgt, compare_gt_iff_gt.2 (hnormal'.lt_of_exponent_lt hnormal hgt)]
        rfl

end StoryChat.Decimal
