/-
Rounding to the numbers of the format.

Floating point arithmetic is exact arithmetic with a rounding behind it. The rounding is stated
here on fractions (`rounded`), without a word about bits: a number is counted in units of its last
place, which is fifty-two places below its first one but never below the lowest place there is,
and the count is rounded to the nearest whole number, a half to the even one. What is shown is
that larger numbers are not rounded to smaller ones, and that a number of the format is rounded to
itself. Within one unit this is a matter of whole numbers. Where the unit gets larger, the first
number with the larger unit stands between.
-/
import StoryChat.Decimal.Binary
import Mathlib.Data.Int.Log
import Mathlib.Data.Rat.Floor
import Mathlib.Tactic.FieldSimp
import Mathlib.Tactic.Linarith
import Mathlib.Tactic.NormNum
import Mathlib.Tactic.Ring

set_option autoImplicit false

namespace StoryChat.Decimal

/-! ## The nearest whole number -/

/-- A number to the nearest whole one, a half to the even neighbour. -/
def evenNearest (v : ℚ) : ℤ :=
  if Int.fract v < 1 / 2 then ⌊v⌋
  else if 1 / 2 < Int.fract v then ⌊v⌋ + 1
  else ⌊v⌋ + ⌊v⌋ % 2

variable {v w : ℚ}

theorem floor_le_evenNearest (v : ℚ) : ⌊v⌋ ≤ evenNearest v ∧ evenNearest v ≤ ⌊v⌋ + 1 := by
  unfold evenNearest
  split
  · omega
  · split <;> omega

@[simp] theorem evenNearest_intCast (n : ℤ) : evenNearest n = n := by
  rw [evenNearest, Int.fract_intCast, if_pos (by norm_num), Int.floor_intCast]

@[simp] theorem evenNearest_zero : evenNearest 0 = 0 := by
  exact_mod_cast evenNearest_intCast 0

/-- Less than a half above a whole number is nothing. -/
theorem evenNearest_natCast_add (n : ℕ) (hv : 0 ≤ v) (hlt : v < 1 / 2) :
    evenNearest (n + v) = n := by
  have hfloor : ⌊(n + v : ℚ)⌋ = n := by
    rw [Int.floor_natCast_add, Int.floor_eq_zero_iff.2 ⟨hv, by linarith⟩, add_zero]
  have hfract : Int.fract (n + v : ℚ) = v := by
    rw [Int.fract, hfloor, Int.cast_natCast]
    ring
  rw [evenNearest, hfract, if_pos hlt, hfloor]

/-- Between two whole numbers the larger part of a unit decides. -/
theorem evenNearest_mono (h : v ≤ w) : evenNearest v ≤ evenNearest w := by
  have hfloor := Int.floor_le_floor h
  rcases hfloor.lt_or_eq with hlt | heq
  · exact (floor_le_evenNearest v).2.trans (le_trans hlt (floor_le_evenNearest w).1)
  · have hfract : Int.fract v ≤ Int.fract w := by
      rw [Int.fract, Int.fract, heq]
      linarith
    unfold evenNearest
    rw [heq]
    split_ifs <;> first | omega | linarith

theorem evenNearest_nonneg (h : 0 ≤ v) : 0 ≤ evenNearest v :=
  le_trans (Int.floor_nonneg.2 h) (floor_le_evenNearest v).1

/-- The whole part of a quotient of whole numbers, and what is left then. -/
theorem floor_fract_div (num : ℕ) {den : ℕ} (hden : 0 < den) :
    ⌊(num / den : ℚ)⌋ = (num / den : ℕ) ∧ Int.fract (num / den : ℚ) = (num % den : ℕ) / den := by
  have hden' : (den : ℚ) ≠ 0 := by exact_mod_cast hden.ne'
  have hfloor : ⌊(num / den : ℚ)⌋ = (num / den : ℕ) := by
    have h := Rat.floor_intCast_div_natCast num den
    rwa [Int.cast_natCast, ← Int.natCast_div] at h
  have hsplit : (num : ℚ) = den * (num / den : ℕ) + (num % den : ℕ) := by
    exact_mod_cast (Nat.div_add_mod num den).symm
  refine ⟨hfloor, ?_⟩
  rw [Int.fract, hfloor, Int.cast_natCast, eq_div_iff hden', sub_mul, div_mul_cancel₀ _ hden']
  linarith

/-- What is left of a quotient is compared with a half by the rest of the division. -/
theorem compare_fract_div (num : ℕ) {den : ℕ} (hden : 0 < den) :
    (Int.fract (num / den : ℚ) < 1 / 2 ↔ 2 * (num % den) < den) ∧
      (1 / 2 < Int.fract (num / den : ℚ) ↔ den < 2 * (num % den)) := by
  have hden' : (0 : ℚ) < den := by exact_mod_cast hden
  rw [(floor_fract_div num hden).2, div_lt_iff₀ hden', lt_div_iff₀ hden', ← @Nat.cast_lt ℚ,
    ← @Nat.cast_lt ℚ, Nat.cast_mul, Nat.cast_ofNat]
  constructor <;> constructor <;> intro h <;> linarith

/-- The same on a numerator and a denominator. -/
theorem natCast_nearestEven (num : ℕ) {den : ℕ} (hden : 0 < den) :
    (nearestEven num den : ℤ) = evenNearest (num / den) := by
  obtain ⟨hbelow, habove⟩ := compare_fract_div num hden
  unfold nearestEven evenNearest
  dsimp only
  simp only [hbelow, habove, (floor_fract_div num hden).1]
  split_ifs <;> push_cast <;> rfl

/-! ## The last place -/

/-- The last place that a number is counted in: fifty-two below the first one, unless that is too
low. -/
def place (v : ℚ) : ℤ := max (Int.log 2 v - 52) (-1074)

theorem place_ge (v : ℚ) : -1074 ≤ place v := le_max_right _ _

theorem le_place_iff (hv : 0 < v) {e : ℤ} :
    e ≤ place v ↔ e ≤ -1074 ∨ (2 : ℚ) ^ (e + 52) ≤ v := by
  have hlog := Int.zpow_le_iff_le_log (b := 2) (by decide) hv (x := e + 52)
  rw [Nat.cast_ofNat] at hlog
  rw [place, le_max_iff, hlog]
  omega

theorem place_le_iff (hv : 0 < v) {e : ℤ} :
    place v ≤ e ↔ -1074 ≤ e ∧ v < (2 : ℚ) ^ (e + 53) := by
  have hlog := Int.lt_zpow_iff_log_lt (b := 2) (by decide) hv (x := e + 53)
  rw [Nat.cast_ofNat] at hlog
  rw [place, max_le_iff, hlog]
  omega

/-- The last place is found from the first one. -/
theorem place_eq {k : ℤ} (hlow : (2 : ℚ) ^ k ≤ v) (hhigh : v < (2 : ℚ) ^ (k + 1)) :
    place v = max (k - 52) (-1074) := by
  have hv : 0 < v := lt_of_lt_of_le (zpow_pos (by norm_num) k) hlow
  have hle := Int.zpow_le_iff_le_log (b := 2) (by decide) hv (x := k)
  have hlt := Int.lt_zpow_iff_log_lt (b := 2) (by decide) hv (x := k + 1)
  rw [Nat.cast_ofNat] at hle hlt
  have hlog := hle.1 hlow
  have hlog' := hlt.1 hhigh
  unfold place
  omega

theorem place_mono (hv : 0 < v) (h : v ≤ w) : place v ≤ place w := by
  have hlog := Int.log_mono_right (b := 2) hv h
  unfold place
  omega

theorem lt_two_zpow_place (hv : 0 < v) : v < (2 : ℚ) ^ (place v + 53) :=
  ((place_le_iff hv).1 le_rfl).2

theorem two_zpow_pos (e : ℤ) : (0 : ℚ) < 2 ^ e := zpow_pos (by norm_num) e

theorem two_zpow_add (a b : ℤ) : (2 : ℚ) ^ (a + b) = 2 ^ a * 2 ^ b :=
  zpow_add₀ (by norm_num) a b

theorem two_zpow_le {a b : ℤ} (h : a ≤ b) : (2 : ℚ) ^ a ≤ 2 ^ b :=
  zpow_le_zpow_right₀ (by norm_num) h

/-- A power of two with an exponent that is not negative is a whole number. -/
theorem two_zpow_eq_natCast {e : ℤ} (h : 0 ≤ e) : (2 : ℚ) ^ e = (2 ^ e.toNat : ℕ) := by
  obtain ⟨n, rfl⟩ := Int.eq_ofNat_of_zero_le h
  rw [zpow_natCast, Int.toNat_natCast, Nat.cast_pow, Nat.cast_ofNat]

/-! ## Rounding -/

/-- The number of the format that is nearest to a number, as if there were no largest one. -/
def rounded (v : ℚ) : ℚ := evenNearest (v / 2 ^ place v) * 2 ^ place v

@[simp] theorem rounded_zero : rounded 0 = 0 := by
  rw [rounded, zero_div, evenNearest_zero, Int.cast_zero, zero_mul]

theorem rounded_nonneg (h : 0 ≤ v) : 0 ≤ rounded v := by
  have hcount := evenNearest_nonneg (div_nonneg h (two_zpow_pos (place v)).le)
  exact mul_nonneg (by exact_mod_cast hcount) (two_zpow_pos _).le

/-- There are at most `2 ^ 53` units. -/
theorem count_le (hv : 0 < v) : evenNearest (v / 2 ^ place v) ≤ (2 ^ 53 : ℕ) := by
  have hlt := lt_two_zpow_place hv
  rw [add_comm, two_zpow_add] at hlt
  have hle : v / 2 ^ place v ≤ ((2 ^ 53 : ℕ) : ℤ) := by
    rw [div_le_iff₀ (two_zpow_pos _)]
    exact_mod_cast hlt.le
  have hcount := evenNearest_mono hle
  rwa [evenNearest_intCast] at hcount

/-- There are at least `2 ^ 52`, unless they are of the lowest place. -/
theorem le_count (hv : 0 < v) (h : place v ≠ -1074) :
    (2 ^ 52 : ℕ) ≤ evenNearest (v / 2 ^ place v) := by
  have hlow := place_ge v
  have habove := ((le_place_iff hv).1 le_rfl).resolve_left (by omega)
  rw [add_comm, two_zpow_add] at habove
  have hle : (((2 ^ 52 : ℕ) : ℤ) : ℚ) ≤ v / 2 ^ place v := by
    rw [le_div_iff₀ (two_zpow_pos _)]
    exact_mod_cast habove
  have hcount := evenNearest_mono hle
  rwa [evenNearest_intCast] at hcount

/-- Rounding does not go beyond a whole number of units. -/
theorem rounded_le_of_le {n : ℤ} (h : v ≤ n * 2 ^ place v) : rounded v ≤ n * 2 ^ place v := by
  have hcount := evenNearest_mono ((div_le_iff₀ (two_zpow_pos (place v))).2 h)
  rw [evenNearest_intCast] at hcount
  exact mul_le_mul_of_nonneg_right (by exact_mod_cast hcount) (two_zpow_pos _).le

theorem le_rounded_of_le {n : ℤ} (h : n * 2 ^ place v ≤ v) : n * 2 ^ place v ≤ rounded v := by
  have hcount := evenNearest_mono ((le_div_iff₀ (two_zpow_pos (place v))).2 h)
  rw [evenNearest_intCast] at hcount
  exact mul_le_mul_of_nonneg_right (by exact_mod_cast hcount) (two_zpow_pos _).le

/-- A larger number is not rounded to a smaller one. -/
theorem rounded_mono (hv : 0 ≤ v) (h : v ≤ w) : rounded v ≤ rounded w := by
  rcases hv.eq_or_lt with rfl | hv
  · rw [rounded_zero]
    exact rounded_nonneg h
  rcases (place_mono hv h).eq_or_lt with heq | hlt
  · have hcount := evenNearest_mono (div_le_div_of_nonneg_right h (two_zpow_pos (place w)).le)
    rw [rounded, rounded, heq]
    exact mul_le_mul_of_nonneg_right (by exact_mod_cast hcount) (two_zpow_pos _).le
  · -- the least number that is counted in the larger unit stands between
    have hpos : 0 < w := lt_of_lt_of_le hv h
    have hlow := place_ge v
    have habove : (2 : ℚ) ^ (place w + 52) ≤ w :=
      ((le_place_iff hpos).1 le_rfl).resolve_left (by omega)
    have hbelow : v < (2 : ℚ) ^ (place w + 52) := by
      have hv' := ((place_le_iff hv).1 (show place v ≤ place w - 1 by omega)).2
      rwa [show place w - 1 + 53 = place w + 52 by ring] at hv'
    have hunits : (2 : ℚ) ^ (place w + 52) =
        ((2 ^ (place w + 52 - place v).toNat : ℕ) : ℤ) * 2 ^ place v := by
      rw [Int.cast_natCast, ← two_zpow_eq_natCast (by omega), ← two_zpow_add]
      congr 1
      ring
    have hunits' : (2 : ℚ) ^ (place w + 52) = ((2 ^ 52 : ℕ) : ℤ) * 2 ^ place w := by
      rw [add_comm, two_zpow_add, Int.cast_natCast]
      norm_num
    calc rounded v ≤ 2 ^ (place w + 52) := by
          rw [hunits] at hbelow ⊢
          exact rounded_le_of_le hbelow.le
      _ ≤ rounded w := by
          rw [hunits'] at habove ⊢
          exact le_rounded_of_le habove

/-! ## The numbers of the format -/

/-- Whether a number is one of the format, as if there were no largest one: fewer than fifty-four
bits, the last at a place that there is. -/
def InFormat (v : ℚ) : Prop := ∃ (m : ℕ) (e : ℤ), m < 2 ^ 53 ∧ -1074 ≤ e ∧ v = m * 2 ^ e

theorem InFormat.nonneg (h : InFormat v) : 0 ≤ v := by
  obtain ⟨m, e, -, -, rfl⟩ := h
  exact mul_nonneg (Nat.cast_nonneg m) (two_zpow_pos e).le

/-- A number of the format is counted in no larger units than those that it is made of. -/
theorem place_le_of_lt {m : ℕ} {e : ℤ} (hm : 0 < m) (hbits : m < 2 ^ 53) (he : -1074 ≤ e) :
    place (m * 2 ^ e) ≤ e := by
  have hpos : (0 : ℚ) < m * 2 ^ e := mul_pos (by exact_mod_cast hm) (two_zpow_pos e)
  refine (place_le_iff hpos).2 ⟨he, ?_⟩
  have hm' : (m : ℚ) < 2 ^ (53 : ℤ) := by exact_mod_cast hbits
  rw [add_comm, two_zpow_add]
  exact mul_lt_mul_of_pos_right hm' (two_zpow_pos e)

/-- A number of the format is rounded to itself. -/
theorem InFormat.rounded_eq (h : InFormat v) : rounded v = v := by
  obtain ⟨m, e, hm, he, rfl⟩ := h
  rcases Nat.eq_zero_or_pos m with rfl | hpos
  · rw [Nat.cast_zero, zero_mul, rounded_zero]
  · have hplace := place_le_of_lt hpos hm he
    have hunits : (m * 2 ^ e : ℚ) / 2 ^ place (m * 2 ^ e) =
        ((m * 2 ^ (e - place (m * 2 ^ e)).toNat : ℕ) : ℤ) := by
      rw [Int.cast_natCast, Nat.cast_mul, ← two_zpow_eq_natCast (by omega), mul_div_assoc,
        zpow_sub₀ (by norm_num)]
    rw [rounded, hunits, evenNearest_intCast, ← hunits, div_mul_cancel₀ _ (two_zpow_pos _).ne']

/-- So rounding does not go beyond a number of the format. -/
theorem InFormat.rounded_le (h : InFormat w) (hv : 0 ≤ v) (hvw : v ≤ w) : rounded v ≤ w := by
  rw [← h.rounded_eq]
  exact rounded_mono hv hvw

theorem InFormat.le_rounded (h : InFormat v) (hvw : v ≤ w) : v ≤ rounded w := by
  rw [← h.rounded_eq]
  exact rounded_mono h.nonneg hvw

/-- A whole number of up to fifty-three bits is one of the format. -/
theorem inFormat_natCast {n : ℕ} (h : n < 2 ^ 53) : InFormat n :=
  ⟨n, 0, h, by norm_num, by rw [zpow_zero, mul_one]⟩

/-- Below a number that is not small the next one of the format is a unit away at least. -/
theorem InFormat.le_pred {n : ℕ} {e : ℤ} (h : InFormat v) (hn : 2 ^ 52 < n)
    (hlt : v < n * 2 ^ e) : v ≤ (n - 1 : ℕ) * 2 ^ e := by
  have hunit := two_zpow_pos e
  by_cases hsmall : v < 2 ^ (e + 52)
  · have hle : ((2 : ℚ) ^ (52 : ℤ)) ≤ (n - 1 : ℕ) := by
      have hle : 2 ^ 52 ≤ n - 1 := by omega
      exact_mod_cast hle
    rw [add_comm, two_zpow_add] at hsmall
    exact hsmall.le.trans (mul_le_mul_of_nonneg_right hle hunit.le)
  · have hv : 0 < v := lt_of_lt_of_le (two_zpow_pos _) (not_lt.1 hsmall)
    have hplace := (le_place_iff hv).2 (.inr (not_lt.1 hsmall))
    obtain ⟨k, hk⟩ : ∃ k : ℤ, v = k * 2 ^ e := by
      refine ⟨evenNearest (v / 2 ^ place v) * (2 ^ (place v - e).toNat : ℕ), ?_⟩
      rw [Int.cast_mul, Int.cast_natCast, ← two_zpow_eq_natCast (by omega), mul_assoc,
        ← two_zpow_add, sub_add_cancel]
      exact h.rounded_eq.symm
    rw [hk] at hlt ⊢
    have hcount : k < n := by exact_mod_cast lt_of_mul_lt_mul_right hlt hunit.le
    have hcount' : k ≤ (n - 1 : ℕ) := by omega
    exact mul_le_mul_of_nonneg_right (by exact_mod_cast hcount') hunit.le

theorem inFormat_two_zpow {e : ℤ} (h : -1074 ≤ e) : InFormat (2 ^ e) :=
  ⟨1, e, by norm_num, h, by rw [Nat.cast_one, one_mul]⟩

end StoryChat.Decimal
