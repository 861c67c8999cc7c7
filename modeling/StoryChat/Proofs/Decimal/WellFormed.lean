/-
The numeral of a number in a document is well-formed.

A `positional` numeral takes its digits from the significand, so the only way to
an idle zero is a significand that is zero. The search (`searchGrids`) never
finds one: its interval lies above zero, and where it gives up the grid is so
fine that the number covers many of its steps.
-/
import StoryChat.Decimal.Layout

set_option autoImplicit false

namespace StoryChat.Decimal

/-! ## Digits -/

theorem head?_digits_ne {n : Nat} (h : n ≠ 0) : (digits n).head? ≠ some Digit.zero := by
  fun_induction digits n with
  | case1 n hn =>
    intro he
    have hz : n = 0 := congrArg Fin.val (Option.some.inj he)
    exact h hz
  | case2 n hn ih =>
    have hd := ih (by omega)
    cases hds : digits (n / 10) with
    | nil => exact absurd hds (digits_ne_nil _)
    | cons d ds =>
      rw [hds] at hd
      exact hd

theorem lt_pow_countDigits (n : Nat) : n < Nat.pow 10 (countDigits n) := by
  rw [Nat.pow_eq]
  fun_induction countDigits n with
  | case1 => decide
  | case2 n hn ih =>
    rw [Nat.pow_succ]
    omega

theorem pow_countDigits_le {n : Nat} (h : n ≠ 0) : Nat.pow 10 (countDigits n - 1) ≤ n := by
  rw [Nat.pow_eq]
  fun_induction countDigits n with
  | case1 => exact absurd rfl h
  | case2 n hn ih =>
    rw [Nat.add_sub_cancel]
    by_cases hs : n / 10 = 0
    · rw [hs, countDigits, dif_pos rfl]
      omega
    · have hle := ih hs
      have hpos : countDigits (n / 10) ≠ 0 := by
        rw [countDigits, dif_neg hs]
        omega
      rw [← Nat.sub_one_add_one hpos, Nat.pow_succ]
      omega

/-! ## The search -/

/-- The denominators of powers of two are positive. -/
theorem powerOfTwo_pos (q : Int) : 0 < (powerOfTwo q).1 ∧ 0 < (powerOfTwo q).2 :=
  ⟨Nat.pow_pos (by decide), Nat.pow_pos (by decide)⟩

/-- A quarter of a power of two is the power two below. -/
theorem powerOfTwo_quarter (q : Int) :
    4 * (powerOfTwo (q - 2)).1 * (powerOfTwo q).2 = (powerOfTwo q).1 * (powerOfTwo (q - 2)).2 := by
  simp only [powerOfTwo, Nat.pow_eq]
  rcases (by omega : 2 ≤ q ∨ q = 1 ∨ q ≤ 0) with h | rfl | h
  · rw [show q.toNat = (q - 2).toNat + 2 by omega, show (-q).toNat = 0 by omega,
      show (-(q - 2)).toNat = 0 by omega, Nat.pow_succ, Nat.pow_succ]
    omega
  · decide
  · rw [show q.toNat = 0 by omega, show (q - 2).toNat = 0 by omega,
      show (-(q - 2)).toNat = (-q).toNat + 2 by omega, Nat.pow_succ, Nat.pow_succ]
    omega

/-- The number reaches up to the grid of its first digit. -/
theorem pow_leadingExponent_le {m : Nat} (hm : m ≠ 0) (q : Int) :
    (powerOfTwo q).2 * Nat.pow 10 (leadingExponent m q).toNat ≤
      m * (powerOfTwo q).1 * Nat.pow 10 (-leadingExponent m q).toNat := by
  rw [Nat.pow_eq, Nat.pow_eq]
  obtain ⟨hnum, hden⟩ := powerOfTwo_pos q
  have hpos : 0 < m * (powerOfTwo q).1 := Nat.mul_pos (Nat.pos_of_ne_zero hm) hnum
  unfold leadingExponent
  dsimp only
  generalize m * (powerOfTwo q).1 = top at *
  generalize (powerOfTwo q).2 = den at *
  split
  · next hle =>
    -- the first digit stands before the point
    have hdiv : top / den ≠ 0 := by
      have := Nat.div_pos hle hden
      omega
    have hcount := pow_countDigits_le hdiv
    rw [Nat.pow_eq] at hcount
    have hmul : den * 10 ^ (countDigits (top / den) - 1) ≤ top :=
      Nat.le_trans (Nat.mul_le_mul_left den hcount) (Nat.mul_div_le top den)
    have hnat : ((countDigits (top / den) : Int) - 1).toNat = countDigits (top / den) - 1 := by omega
    have hneg : (-((countDigits (top / den) : Int) - 1)).toNat = 0 := by
      have : countDigits (top / den) ≠ 0 := by
        rw [countDigits, dif_neg hdiv]
        omega
      omega
    rwa [hnat, hneg, Nat.pow_zero, Nat.mul_one]
  · next hlt =>
    have hcount := lt_pow_countDigits ((den - 1) / top)
    rw [Nat.pow_eq] at hcount
    have hmul : den - 1 < 10 ^ countDigits ((den - 1) / top) * top :=
      (Nat.div_lt_iff_lt_mul hpos).1 hcount
    rw [Int.toNat_neg_natCast, Int.neg_neg, Int.toNat_natCast, Nat.pow_zero, Nat.mul_one,
      Nat.mul_comm top]
    omega

/-- So it covers at least one step of every grid from there downwards. -/
theorem unit_le_middle {m : Nat} (hm : m ≠ 0) (q : Int) {k : Int} (hk : k ≤ leadingExponent m q) :
    (Grid.at m q k).unit ≤ (Grid.at m q k).middle := by
  have hlead := pow_leadingExponent_le hm q
  rw [Nat.pow_eq, Nat.pow_eq] at hlead
  have hquarter := powerOfTwo_quarter q
  have hup : 10 ^ k.toNat ≤ 10 ^ (leadingExponent m q).toNat :=
    Nat.pow_le_pow_right (by decide) (by omega)
  have hdown : 10 ^ (-leadingExponent m q).toNat ≤ 10 ^ (-k).toNat :=
    Nat.pow_le_pow_right (by decide) (by omega)
  have hk' : (powerOfTwo q).2 * 10 ^ k.toNat ≤ m * (powerOfTwo q).1 * 10 ^ (-k).toNat :=
    Nat.le_trans (Nat.mul_le_mul_left _ hup) (Nat.le_trans hlead (Nat.mul_le_mul_left _ hdown))
  have hden : 0 < (powerOfTwo q).2 := (powerOfTwo_pos q).2
  simp only [Grid.at, Nat.pow_eq]
  refine Nat.le_of_mul_le_mul_left ?_ hden
  calc (powerOfTwo q).2 * ((powerOfTwo (q - 2)).2 * 10 ^ k.toNat)
      = (powerOfTwo (q - 2)).2 * ((powerOfTwo q).2 * 10 ^ k.toNat) := by ac_rfl
    _ ≤ (powerOfTwo (q - 2)).2 * (m * (powerOfTwo q).1 * 10 ^ (-k).toNat) :=
        Nat.mul_le_mul_left _ hk'
    _ = m * 10 ^ (-k).toNat * ((powerOfTwo q).1 * (powerOfTwo (q - 2)).2) := by ac_rfl
    _ = m * 10 ^ (-k).toNat * (4 * (powerOfTwo (q - 2)).1 * (powerOfTwo q).2) := by rw [hquarter]
    _ = (powerOfTwo q).2 * (4 * m * ((powerOfTwo (q - 2)).1 * 10 ^ (-k).toNat)) := by ac_rfl

/-- Zero lies in no interval. -/
theorem holds_zero {m : Nat} (hm : m ≠ 0) (q k : Int) : (Grid.at m q k).holds 0 = false := by
  have hscale : 0 < (powerOfTwo (q - 2)).1 * Nat.pow 10 (-k).toNat :=
    Nat.mul_pos (powerOfTwo_pos _).1 (Nat.pow_pos (by decide))
  have hreach : reachDown m q ≤ 2 := by
    unfold reachDown
    split <;> decide
  have hlow : 0 < (Grid.at m q k).low := Nat.mul_pos (by omega) hscale
  unfold Grid.holds
  rw [Nat.zero_mul]
  split
  · simp only [Bool.and_eq_false_imp, decide_eq_true_eq]
    omega
  · simp only [Bool.and_eq_false_imp, decide_eq_true_eq]
    omega

theorem pick?_ne_zero {tie : Tie} {m c : Nat} (hm : m ≠ 0) {q k : Int}
    (h : (Grid.at m q k).pick? tie = some c) : c ≠ 0 := by
  have hzero := holds_zero hm q k
  generalize Grid.at m q k = g at *
  unfold Grid.pick? at h
  rintro rfl
  dsimp only at h
  split at h
  · cases h
  · next hb _ =>
    rw [Option.some.inj h, hzero] at hb
    cases hb
  · cases h
  · next hb _ =>
    -- both neighbours lie in the interval, so the lower one is not zero
    have hbelow : g.middle / g.unit ≠ 0 := by
      intro he
      rw [he, hzero] at hb
      cases hb
    split at h
    · exact hbelow (Option.some.inj h)
    · split at h
      · cases h
      · split at h
        · cases h
        · exact hbelow (Nat.add_eq_zero_iff.1 (Option.some.inj h)).1

theorem searchGrids_ne_zero (tie : Tie) {m : Nat} (hm : m ≠ 0) (q : Int) (tries : Nat) (k : Int)
    (hk : k ≤ leadingExponent m q) : (searchGrids tie m q tries k).significand ≠ 0 := by
  induction tries generalizing k with
  | zero =>
    have hunit : 0 < (Grid.at m q k).unit :=
      Nat.mul_pos (powerOfTwo_pos _).2 (Nat.pow_pos (by decide))
    have := Nat.div_pos (unit_le_middle hm q hk) hunit
    rw [searchGrids]
    exact Nat.ne_of_gt this
  | succ tries ih =>
    rw [searchGrids]
    split
    · next c hc => exact pick?_ne_zero hm hc
    · exact ih (k - 1) (by omega)

theorem normalize_ne_zero {s : Scientific} (h : s.significand ≠ 0) :
    s.normalize.significand ≠ 0 := by
  fun_induction Scientific.normalize s with
  | case1 s hs ih =>
    refine ih ?_
    have := hs.2
    dsimp only
    omega
  | case2 s hs => exact h

theorem shortest_ne_zero (tie : Tie) {m : Nat} (hm : m ≠ 0) (q : Int) :
    (shortest tie m q).significand ≠ 0 :=
  normalize_ne_zero (searchGrids_ne_zero tie hm q 17 _ (Int.le_refl _))

/-! ## Layouts -/

/-- A zero in front is no harm if it is the only digit before the point. -/
theorem wellFormed_positional (negative : Bool) {ds : List Digit} {point : Int}
    (h : ds.head? ≠ some Digit.zero ∨ point ≤ 1) (hne : ds ≠ []) :
    (positional negative ds point).WellFormed := by
  unfold positional
  split
  · exact ⟨nofun, fun _ => rfl⟩
  · next hpoint =>
    obtain ⟨d, rest, rfl⟩ := List.exists_cons_of_ne_nil hne
    obtain ⟨p, hp⟩ : ∃ p, point.toNat = p + 1 := ⟨point.toNat - 1, by omega⟩
    rw [hp, List.take_succ_cons]
    refine ⟨nofun, fun hzero => ?_⟩
    rcases h with h | h
    · exact absurd hzero h
    · obtain rfl : p = 0 := by omega
      rfl

theorem wellFormed_scientific (negative : Bool) {ds : List Digit} (point : Int) (hne : ds ≠ []) :
    (scientific negative ds point).WellFormed := by
  cases ds with
  | nil => exact absurd rfl hne
  | cons d ds => exact ⟨nofun, fun _ => rfl⟩

theorem shortestDigits_spec (tie : Tie) (m : Nat) (q : Int) :
    (shortestDigits tie m q).1 ≠ [] ∧ ((shortestDigits tie m q).1.head? ≠ some Digit.zero ∨
      (shortestDigits tie m q).2 ≤ 1) := by
  unfold shortestDigits
  split
  · exact ⟨nofun, .inr (Int.le_refl 1)⟩
  · next hm => exact ⟨digits_ne_nil _, .inl (head?_digits_ne (shortest_ne_zero tie hm q))⟩

/-- The numeral of a number in a document can be read back. -/
theorem wellFormed_documentNumeral? {x : Float} {n : Numeral}
    (h : documentNumeral? x = some n) : n.WellFormed := by
  unfold documentNumeral? at h
  split at h
  · cases h
  · cases h
  · next negative m q _ =>
    obtain ⟨hne, hzero⟩ := shortestDigits_spec .even m q
    dsimp only at h
    split at h
    · have hw := wellFormed_positional negative hzero hne
      cases h
      split <;> exact hw
    · cases h
      exact wellFormed_scientific negative _ hne

/-- A count is a well-formed numeral. -/
theorem wellFormed_digits (n : Nat) : (⟨false, digits n, [], none⟩ : Numeral).WellFormed := by
  refine ⟨digits_ne_nil n, fun h => ?_⟩
  by_cases hn : n = 0
  · rw [hn, digits, dif_pos (by decide)]
    rfl
  · exact absurd h (head?_digits_ne hn)

end StoryChat.Decimal
