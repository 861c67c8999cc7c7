/-
Longer and shorter spans.

A span is asked for in milliseconds (`Duration.ofMillis`), and it is stretched by a factor
(`Duration.scale`), both in floating point arithmetic. More milliseconds are not a shorter span,
and a longer span is not stretched to a shorter one, whatever is lost by rounding on the way.
What is too long is another matter. A span that is stretched too far is the longest one, but one
that is asked for too long is none at all.
-/
import StoryChat.Proofs.Decimal.Worth
import StoryChat.Time.Duration

set_option autoImplicit false

namespace StoryChat

namespace Duration

open StoryChat.Decimal

variable {x y : Float} {v w : ℚ} {d d' : Duration}

/-! ## Numbers of seconds -/

/-- The span of so many seconds, to the nearest nanosecond. -/
def nearestTo (v : ℚ) : Duration := ⟨(evenNearest (v * 1000000000)).toNat⟩

theorem nearestTo_mono (h : v ≤ w) : (nearestTo v).nanos ≤ (nearestTo w).nanos :=
  Int.toNat_le_toNat (evenNearest_mono (mul_le_mul_of_nonneg_right h (by norm_num)))

/-- A number is a span as what it is worth. -/
theorem ofSeconds?_of_isWorth (h : IsWorth x v) :
    ofSeconds? x = if v < 2 ^ (64 : ℤ) then some (nearestTo v) else none := by
  obtain ⟨s, m, q, hshape, rfl, hsign⟩ := h.shape_eq
  have hden : 0 < 2 ^ (-q).toNat := Nat.two_pow_pos _
  have hden' : (0 : ℚ) < (2 ^ (-q).toNat : ℕ) := by exact_mod_cast hden
  -- a power with a negative exponent is a divisor, so that whole numbers are divided
  have hquotient : (m * 2 ^ q : ℚ) = (m * 2 ^ q.toNat : ℕ) / (2 ^ (-q).toNat : ℕ) := by
    rw [eq_div_iff hden'.ne', Nat.cast_mul, Nat.cast_pow, Nat.cast_pow, Nat.cast_ofNat,
      ← zpow_natCast, ← zpow_natCast, mul_assoc, ← two_zpow_add]
    congr 2
    omega
  have hrange : m * 2 ^ q.toNat < 18446744073709551616 * 2 ^ (-q).toNat ↔
      (m * 2 ^ q : ℚ) < 2 ^ (64 : ℤ) := by
    rw [hquotient, div_lt_iff₀ hden']
    exact_mod_cast Iff.rfl
  have hnanos : nearestEven (m * 2 ^ q.toNat * 1000000000) (2 ^ (-q).toNat) =
      (evenNearest (m * 2 ^ q * 1000000000)).toNat := by
    have h := natCast_nearestEven (m * 2 ^ q.toNat * 1000000000) hden
    rw [Nat.cast_mul, mul_div_right_comm, ← hquotient] at h
    exact (Int.toNat_natCast _).symm.trans (congrArg Int.toNat h)
  unfold ofSeconds?
  rw [hshape]
  change (if s = true ∧ m ≠ 0 then none
    else if m * 2 ^ q.toNat < 18446744073709551616 * 2 ^ (-q).toNat then
      some (Duration.mk (nearestEven (m * 2 ^ q.toNat * 1000000000) (2 ^ (-q).toNat)))
    else none) = _
  rw [if_neg fun h => h.2 (hsign h.1), hnanos]
  simp only [hrange, nearestTo]

/-- What is too large for a number is too long for a span. -/
theorem ofSeconds?_of_isRounding (h : IsRounding x v) :
    ofSeconds? x = if rounded v < 2 ^ (64 : ℤ) then some (nearestTo (rounded v)) else none := by
  by_cases hfinite : rounded v < 2 ^ (1024 : ℤ)
  · exact ofSeconds?_of_isWorth (h.finite hfinite)
  · have hlarge := not_lt.1 hfinite
    have hlong : ¬ rounded v < 2 ^ (64 : ℤ) :=
      ((two_zpow_le (by decide)).trans hlarge).not_gt
    rw [if_neg hlong, ofSeconds?, shape_eq, h.large hlarge]
    rfl

/-- No number of seconds is a span longer than the longest. -/
theorem nearestTo_le_longest (h : IsRounding x v) (hshort : rounded v < 2 ^ (64 : ℤ)) :
    (nearestTo (rounded v)).nanos ≤ longest.nanos := by
  have hformat := (h.finite (hshort.trans_le (two_zpow_le (by decide)))).inFormat
  -- the last number below `2 ^ 64` is a whole number of seconds, with no nanosecond to round
  have hlast : rounded v ≤ ((2 ^ 53 - 1) * 2 ^ 11 : ℕ) := by
    have hle := hformat.le_pred (n := 2 ^ 53) (e := 11) (by decide)
      (by norm_num at hshort ⊢; exact hshort)
    norm_num at hle ⊢
    exact hle
  have hwhole : ((((2 ^ 53 - 1) * 2 ^ 11 : ℕ) : ℚ) * 1000000000) =
      (((2 ^ 53 - 1) * 2 ^ 11 * 1000000000 : ℕ) : ℤ) := by norm_num
  have hcount := evenNearest_mono
    (mul_le_mul_of_nonneg_right hlast (show (0 : ℚ) ≤ 1000000000 by norm_num))
  rw [hwhole, evenNearest_intCast] at hcount
  exact (Int.toNat_le.2 hcount).trans (by decide)

/-! ## Spans in seconds -/

/-- What a span is worth as a number of seconds: the whole seconds and the rest are rounded, and
their sum is rounded again. -/
def secondsWorth (d : Duration) : ℚ :=
  rounded (rounded (d.nanos / 1000000000 : ℕ) + rounded ((d.nanos % 1000000000 : ℕ) / 1000000000))

theorem isWorth_seconds (h : d.nanos ≤ longest.nanos) : IsWorth d.seconds d.secondsWorth := by
  have hbillion : IsWorth 1000000000.0 1000000000 :=
    isWorth_of_unpack (m := 8388608000000000) (e := -23) (by decide) rfl (by norm_num)
  have hlongest : d.nanos ≤ 18446744073709551615999999999 := h
  have hwhole : ((d.nanos / 1000000000 : ℕ) : ℚ) ≤ 2 ^ (64 : ℤ) := by
    have hle : d.nanos / 1000000000 ≤ 2 ^ 64 := by omega
    exact_mod_cast hle
  have hrest : (d.nanos % 1000000000 : ℕ) / 1000000000 ≤ (2 : ℚ) ^ (0 : ℤ) := by
    have hle : ((d.nanos % 1000000000 : ℕ) : ℚ) ≤ 1000000000 := by
      have hle : d.nanos % 1000000000 ≤ 1000000000 := by omega
      exact_mod_cast hle
    rw [zpow_zero]
    linarith
  obtain ⟨hseconds, hseconds'⟩ := (isRounding_ofNat (d.nanos / 1000000000)).isWorth_of_le
    (Nat.cast_nonneg _) hwhole (by decide) (by decide)
  obtain ⟨hnanos, hnanos'⟩ := ((isWorth_ofNat (n := d.nanos % 1000000000) (by omega)).div hbillion
    (by norm_num)).isWorth_of_le (div_nonneg (Nat.cast_nonneg _) (by norm_num)) hrest (by decide)
    (by decide)
  refine ((hseconds.add hnanos).isWorth_of_le (k := 65)
    (add_nonneg hseconds.nonneg hnanos.nonneg) ?_ (by decide) (by decide)).1
  norm_num at hseconds' hnanos' ⊢
  linarith

/-- To many seconds a fraction of one is nothing. -/
theorem rounded_add_fraction {q : ℕ} (hq : 2 ^ 53 ≤ q) (hv : 0 ≤ v) (hlt : v < 1) :
    rounded (rounded q + v) = rounded q := by
  have hmany : 2 ^ (53 : ℤ) ≤ rounded q := by
    refine (inFormat_two_zpow (by decide)).le_rounded ?_
    exact_mod_cast hq
  have hamounts := amounts_normalize q 0
  rw [zpow_zero, mul_one] at hamounts
  -- what `q` is rounded to counts units of two seconds or more
  generalize rounded q = a at *
  generalize Float.Model.UnpackedFloat.normalize .binary64 q 0 .positive = u at hamounts
  cases hamounts with
  | zero s => exact absurd hmany (two_zpow_pos _).not_ge
  | @finite m e hm hnormal =>
    have hexponent : 1 ≤ e := by
      by_contra hlow
      exact absurd hmany (hnormal.lt_two_zpow.trans_le (two_zpow_le (by omega))).not_ge
    exact hnormal.rounded_add hexponent hv hlt

/-- The rest of a second is not rounded to a whole one. -/
theorem rounded_rest {r : ℕ} (hr : r < 1000000000) :
    0 ≤ rounded (r / 1000000000) ∧ rounded (r / 1000000000) < 1 := by
  have hrest : ((r : ℚ) / 1000000000) ≤ (2 ^ 53 - 1 : ℕ) * 2 ^ (-53 : ℤ) := by
    have hle : (r : ℚ) ≤ 999999999 := by
      have hle : r ≤ 999999999 := by omega
      exact_mod_cast hle
    norm_num
    linarith
  have hnonneg : (0 : ℚ) ≤ r / 1000000000 := div_nonneg (Nat.cast_nonneg r) (by norm_num)
  have hlast : InFormat ((2 ^ 53 - 1 : ℕ) * 2 ^ (-53 : ℤ)) :=
    ⟨2 ^ 53 - 1, -53, by norm_num, by norm_num, rfl⟩
  exact ⟨rounded_nonneg hnonneg, (hlast.rounded_le hnonneg hrest).trans_lt (by norm_num)⟩

theorem secondsWorth_of_many (h : 2 ^ 53 ≤ d.nanos / 1000000000) :
    d.secondsWorth = rounded (d.nanos / 1000000000 : ℕ) := by
  obtain ⟨hnonneg, hlt⟩ := rounded_rest (r := d.nanos % 1000000000) (by omega)
  exact rounded_add_fraction h hnonneg hlt

/-- A longer span is not worth less. As long as whole seconds are exact, one more of them is more
than any rest. From then on no rest counts. -/
theorem secondsWorth_mono (h : d.nanos ≤ d'.nanos) : d.secondsWorth ≤ d'.secondsWorth := by
  have hseconds : d.nanos / 1000000000 ≤ d'.nanos / 1000000000 := Nat.div_le_div_right h
  obtain ⟨hrest, hrest'⟩ := rounded_rest (r := d.nanos % 1000000000) (by omega)
  have hnonneg := add_nonneg (rounded_nonneg (Nat.cast_nonneg (d.nanos / 1000000000))) hrest
  rcases Nat.lt_or_ge (d.nanos / 1000000000) (2 ^ 53) with hfew | hmany
  · have hexact := (inFormat_natCast hfew).rounded_eq
    have hnext (n : ℕ) (hn : d.nanos / 1000000000 + 1 ≤ n) :
        rounded (d.nanos / 1000000000 : ℕ) + rounded ((d.nanos % 1000000000 : ℕ) / 1000000000) ≤
          n := by
      have hn : ((d.nanos / 1000000000 : ℕ) : ℚ) + 1 ≤ n := by exact_mod_cast hn
      rw [hexact]
      linarith
    rcases Nat.lt_or_ge (d'.nanos / 1000000000) (2 ^ 53) with hfew' | hmany'
    · refine rounded_mono hnonneg ?_
      -- a whole second more outweighs the rest, in the same second the rests are compared
      rcases hseconds.lt_or_eq with hlt | heq
      · have hle := hnext _ hlt
        have hadded := (rounded_rest (r := d'.nanos % 1000000000) (by omega)).1
        rw [(inFormat_natCast hfew').rounded_eq]
        linarith
      · have hle : d.nanos % 1000000000 ≤ d'.nanos % 1000000000 := by omega
        rw [heq]
        refine add_le_add_right (rounded_mono (div_nonneg (Nat.cast_nonneg _) (by norm_num)) ?_) _
        exact div_le_div_of_nonneg_right (by exact_mod_cast hle) (by norm_num)
    · rw [secondsWorth_of_many hmany']
      exact rounded_mono hnonneg (hnext _ (by omega))
  · rw [secondsWorth_of_many hmany, secondsWorth_of_many (hmany.trans hseconds)]
    exact rounded_mono (Nat.cast_nonneg _) (by exact_mod_cast hseconds)

/-! ## Stretching -/

variable {factor : Float}

/-- What is stretched too far for a span is the longest one. -/
theorem scale_of_isWorth (h : d.nanos ≤ longest.nanos) (hfinite : isFinite factor = true)
    (hpos : factor > 0.0) (hw : IsWorth factor w) : d.scale factor =
      if rounded (d.secondsWorth * w) < 2 ^ (64 : ℤ) then nearestTo (rounded (d.secondsWorth * w))
      else longest := by
  rw [scale, if_pos ⟨hfinite, hpos⟩, ofSeconds?_of_isRounding ((isWorth_seconds h).mul hw)]
  by_cases hshort : rounded (d.secondsWorth * w) < 2 ^ (64 : ℤ)
  · rw [if_pos hshort, if_pos hshort]
    rfl
  · rw [if_neg hshort, if_neg hshort]
    rfl

/-- A longer span is not stretched to a shorter one. -/
theorem scale_mono (h : d.nanos ≤ d'.nanos) (h' : d'.nanos ≤ longest.nanos) (factor : Float) :
    (d.scale factor).nanos ≤ (d'.scale factor).nanos := by
  by_cases hfactor : isFinite factor = true ∧ factor > 0.0
  · obtain ⟨w, hpos, hw⟩ := exists_isWorth hfactor.1 hfactor.2
    have hworth := mul_le_mul_of_nonneg_right (secondsWorth_mono h) hpos.le
    have hnonneg := mul_nonneg (isWorth_seconds (h.trans h')).nonneg hpos.le
    have hrounded := rounded_mono hnonneg hworth
    rw [scale_of_isWorth (h.trans h') hfactor.1 hfactor.2 hw,
      scale_of_isWorth h' hfactor.1 hfactor.2 hw]
    by_cases hshort' : rounded (d'.secondsWorth * w) < 2 ^ (64 : ℤ)
    · rw [if_pos hshort', if_pos (hrounded.trans_lt hshort')]
      exact nearestTo_mono hrounded
    · rw [if_neg hshort']
      by_cases hshort : rounded (d.secondsWorth * w) < 2 ^ (64 : ℤ)
      · rw [if_pos hshort]
        exact nearestTo_le_longest ((isWorth_seconds (h.trans h')).mul hw) hshort
      · rw [if_neg hshort]
  · rw [scale, if_neg hfactor]
    exact Nat.zero_le _

/-- A span that is stretched to `2 ^ 64` seconds or more is the longest one. -/
theorem scale_eq_longest (h : d.nanos ≤ longest.nanos) (hfinite : isFinite factor = true)
    (hpos : factor > 0.0) (hlong : 18446744073709551616.0 ≤ d.seconds * factor) :
    d.scale factor = longest := by
  obtain ⟨w, -, hw⟩ := exists_isWorth hfinite hpos
  have hproduct := (isWorth_seconds h).mul hw
  rw [scale_of_isWorth h hfinite hpos hw, if_neg]
  intro hshort
  have hend : IsWorth 18446744073709551616.0 (2 ^ (64 : ℤ)) :=
    isWorth_of_unpack (m := 4503599627370496) (e := 12) (by decide) rfl (by norm_num)
  have hworth := hproduct.finite (hshort.trans_le (two_zpow_le (by decide)))
  exact absurd ((hend.le_iff hworth).1 hlong) hshort.not_ge

/-! ## Milliseconds -/

/-- The least number of milliseconds that is too long for a span. -/
def millisEnd : Float := 18446744073709551616000.0

theorem isWorth_millisEnd : IsWorth millisEnd 18446744073709551616000 :=
  isWorth_of_unpack (m := 8796093022208000) (e := 21) (by decide) rfl (by norm_num)

theorem isWorth_thousand : IsWorth 1000.0 1000 :=
  isWorth_of_unpack (m := 8796093022208000) (e := -43) (by decide) rfl (by norm_num)

/-- A number of milliseconds is divided by a thousand, and the quotient is not rounded up to what
is too long. -/
theorem ofMillis_of_isWorth (h : IsWorth x v) : ofMillis x =
    if v < 18446744073709551616000 then nearestTo (rounded (v / 1000)) else zero := by
  have hquotient := h.div isWorth_thousand (by norm_num)
  rw [ofMillis, ofSeconds?_of_isRounding hquotient]
  by_cases hlt : v < 18446744073709551616000
  · -- the last number below the end is `2 ^ 21` milliseconds below it, and so the quotient is not
    -- above the last number of seconds below `2 ^ 64`, which is only 2048 seconds below that
    have hlast := h.inFormat.le_pred (n := 8796093022208000) (e := 21) (by norm_num)
      (by norm_num; exact hlt)
    have hformat : InFormat ((2 ^ 53 - 1 : ℕ) * 2 ^ (11 : ℤ)) :=
      ⟨2 ^ 53 - 1, 11, by norm_num, by norm_num, rfl⟩
    have hrounded : rounded (v / 1000) ≤ (2 ^ 53 - 1 : ℕ) * 2 ^ (11 : ℤ) := by
      refine hformat.rounded_le (div_nonneg h.nonneg (by norm_num)) ?_
      norm_num at hlast ⊢
      linarith
    have hshort : rounded (v / 1000) < 2 ^ (64 : ℤ) := hrounded.trans_lt (by norm_num)
    rw [if_pos hlt, if_pos hshort]
    rfl
  · have hlong : 2 ^ (64 : ℤ) ≤ rounded (v / 1000) := by
      refine (inFormat_two_zpow (by decide)).le_rounded ?_
      norm_num at hlt ⊢
      linarith
    rw [if_neg hlt, if_neg hlong.not_gt]
    rfl

/-- A span that is asked for in milliseconds is no longer than the longest. -/
theorem ofMillis_le_longest (h : IsWorth x v) : (ofMillis x).nanos ≤ longest.nanos := by
  have hquotient := h.div isWorth_thousand (by norm_num)
  rw [ofMillis, ofSeconds?_of_isRounding hquotient]
  by_cases hshort : rounded (v / 1000) < 2 ^ (64 : ℤ)
  · rw [if_pos hshort]
    exact nearestTo_le_longest hquotient hshort
  · rw [if_neg hshort]
    exact Nat.zero_le _

/-- More milliseconds are not a shorter span, up to the end. -/
theorem ofMillis_mono (hx : IsWorth x v) (hy : IsWorth y w) (hle : x ≤ y) (hend : y < millisEnd) :
    (ofMillis x).nanos ≤ (ofMillis y).nanos := by
  have hvw := (hx.le_iff hy).1 hle
  have hw := (hy.lt_iff isWorth_millisEnd).1 hend
  rw [ofMillis_of_isWorth hx, ofMillis_of_isWorth hy, if_pos hw, if_pos (hvw.trans_lt hw)]
  exact nearestTo_mono (rounded_mono (div_nonneg hx.nonneg (by norm_num))
    (div_le_div_of_nonneg_right hvw (by norm_num)))

/-- Beyond it they are none. -/
theorem ofMillis_eq_zero (hx : IsWorth x v) (hend : millisEnd ≤ x) : ofMillis x = zero := by
  rw [ofMillis_of_isWorth hx, if_neg ((isWorth_millisEnd.le_iff hx).1 hend).not_gt]

end Duration

end StoryChat
