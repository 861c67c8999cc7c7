/-
Points in time are read back as they are written.

The text of a timestamp (`Timestamp.text`) has its date and its time of day in fixed
places, each with as many digits as its reader takes, so that every reader
(`Timestamp.ofText?`) stops where the next one begins. What is left is the calendar:
the date of a numbered day must have that number. The day is found by way of the year
within its era of 400 years, and the one thing that is not plain is that this year is
neither too early nor too late, so that the day counted from its beginning lies within
it.

Not every timestamp has a text of its own (`Proper`). The date must be one that is
kept, and the second 60 can stand behind the second 59 of a minute only. A timestamp
that was read keeps to that, and so what was read is always written and read again.
-/
import Mathlib.Algebra.Group.Nat.Defs
import StoryChat.Time.Timestamp

set_option autoImplicit false

namespace StoryChat

/-! ## The calendar -/

namespace Calendar

/-- Where a year and its leap days begin within an era: the year that the day `doe` of an
era is found in has begun by then, and the next one has not. -/
theorem dayOfYear_bounds {doe y : Int} (h₀ : 0 ≤ doe) (h₁ : doe < 146097)
    (hy : y = (doe - doe / 1460 + doe / 36524 - doe / 146096) / 365) :
    0 ≤ doe - (365 * y + y / 4 - y / 100) ∧ doe - (365 * y + y / 4 - y / 100) ≤ 365 := by
  obtain ⟨leaps, hleaps⟩ : ∃ leaps, leaps = doe / 1460 := ⟨_, rfl⟩
  obtain ⟨century, hcentury⟩ : ∃ century, century = doe / 36524 := ⟨_, rfl⟩
  obtain ⟨last, hlast⟩ : ∃ last, last = doe / 146096 := ⟨_, rfl⟩
  obtain ⟨fours, hfours⟩ : ∃ fours, fours = y / 4 := ⟨_, rfl⟩
  obtain ⟨hundreds, hhundreds⟩ : ∃ hundreds, hundreds = y / 100 := ⟨_, rfl⟩
  rw [← hleaps, ← hcentury, ← hlast] at hy
  rw [← hfours, ← hhundreds]
  have hcases : century = 0 ∨ century = 1 ∨ century = 2 ∨ century = 3 ∨ century = 4 := by omega
  have hdays : last = 0 ∨ (last = 1 ∧ doe = 146096) := by omega
  rcases hdays with rfl | ⟨rfl, rfl⟩
  · have hsame : hundreds = century := by
      rcases hcases with rfl | rfl | rfl | rfl | rfl <;> omega
    -- within a century the years of four are the same, or one has not begun yet
    have hcount : fours - 25 * hundreds = leaps - 25 * century ∨
        fours - 25 * hundreds = leaps - 25 * century - 1 := by
      rcases hcases with rfl | rfl | rfl | rfl | rfl <;> omega
    omega
  · -- the last day of the era is the leap day of its last year
    omega

/-- A date counted from the beginning of its era, in years that begin in March. -/
theorem dayNumber_of_parts (era : Int) {year month : Int} {d : Date}
    (hyear : 0 ≤ year ∧ year < 400) (hmonth : 0 ≤ month ∧ month < 12)
    (hm : d.month = (if month < 10 then month + 3 else month - 9).toNat)
    (hy : d.year = year + era * 400 + if d.month ≤ 2 then 1 else 0) :
    dayNumber d = era * 146097 + (year * 365 + year / 4 - year / 100 +
      ((153 * month + 2) / 5 + d.day - 1)) - 719468 := by
  have hfrom : ((d.month + 9) % 12 : Nat) = month := by
    split at hm <;> omega
  have hstart : (if d.month ≤ 2 then d.year - 1 else d.year) = year + era * 400 := by
    split at hy <;> split <;> omega
  have hera : (year + era * 400) / 400 = era := by omega
  have hrest : (year + era * 400) % 400 = year := by omega
  unfold dayNumber
  simp only [hfrom, hstart, hera, hrest]

/-- The date of a numbered day has that number, and is a day of a month as far as their
numbers go. -/
theorem dateOf_spec (n : Int) : dayNumber (dateOf n) = n ∧
    (1 ≤ (dateOf n).month ∧ (dateOf n).month ≤ 12) ∧
    1 ≤ (dateOf n).day ∧ (dateOf n).day ≤ 31 := by
  obtain ⟨era, hera⟩ : ∃ era, era = (n + 719468) / 146097 := ⟨_, rfl⟩
  obtain ⟨doe, hdoe⟩ : ∃ doe, doe = (n + 719468) % 146097 := ⟨_, rfl⟩
  obtain ⟨year, hyear⟩ : ∃ year,
    year = (doe - doe / 1460 + doe / 36524 - doe / 146096) / 365 := ⟨_, rfl⟩
  obtain ⟨day, hday⟩ : ∃ day, day = doe - (365 * year + year / 4 - year / 100) := ⟨_, rfl⟩
  obtain ⟨month, hmonth⟩ : ∃ month, month = (5 * day + 2) / 153 := ⟨_, rfl⟩
  have hdate : dateOf n = ⟨year + era * 400 + (if (if month < 10 then month + 3 else month - 9) ≤ 2
      then 1 else 0), (if month < 10 then month + 3 else month - 9).toNat,
      (day - (153 * month + 2) / 5 + 1).toNat⟩ := by
    rw [hmonth, hday, hyear, hdoe, hera]
    rfl
  -- the day of its era, the year of the era, the day of that year, and the month
  have hsplit : n + 719468 = 146097 * era + doe := by omega
  have hbounds : 0 ≤ doe ∧ doe < 146097 := by omega
  obtain ⟨hfirst, hlast⟩ := dayOfYear_bounds hbounds.1 hbounds.2 hyear
  rw [← hday] at hfirst hlast
  have hyears : 0 ≤ year ∧ year < 400 := by omega
  have hmonths : 0 ≤ month ∧ month < 12 := by omega
  have hdays : 1 ≤ day - (153 * month + 2) / 5 + 1 ∧ day - (153 * month + 2) / 5 + 1 ≤ 31 := by
    omega
  rw [hdate]
  refine ⟨?_, by dsimp only; split <;> omega, by dsimp only; omega⟩
  rw [dayNumber_of_parts era hyears hmonths rfl]
  · dsimp only
    omega
  · dsimp only
    congr 1
    split <;> split <;> split <;> omega

end Calendar

/-! ## Digits -/

namespace Decimal

theorem length_digits_le {n k : Nat} (hk : 0 < k) (h : n < 10 ^ k) : (digits n).length ≤ k := by
  fun_induction digits n generalizing k with
  | case1 n hn => exact hk
  | case2 n hn ih =>
    cases k with
    | zero => exact absurd hk (Nat.lt_irrefl 0)
    | succ k =>
      have hlow : n / 10 < 10 ^ k := by
        rw [Nat.pow_succ] at h
        omega
      have hpos : 0 < k := by
        rcases Nat.eq_zero_or_pos k with rfl | hpos
        · omega
        · exact hpos
      rw [List.length_append, List.length_singleton]
      exact Nat.succ_le_succ (ih hpos hlow)

/-- Zeros in front do not count. -/
theorem value_replicate_append (k : Nat) (ds : List Digit) :
    value (List.replicate k .zero ++ ds) = value ds := by
  induction k with
  | zero => rfl
  | succ k ih =>
    rw [List.replicate_succ, List.cons_append, value, List.foldl_cons]
    exact ih

end Decimal

namespace Timestamp

open StoryChat.Decimal StoryChat.Text

/-- The digits of a number, with zeros in front. -/
def paddedDigits (width n : Nat) : List Digit :=
  List.replicate (width - (digits n).length) .zero ++ digits n

theorem padded_eq (width n : Nat) : padded width n = (paddedDigits width n).map Digit.char := by
  rw [padded, paddedDigits, List.map_append, List.map_replicate, List.length_map]
  rfl

@[simp] theorem value_paddedDigits (width n : Nat) : value (paddedDigits width n) = n := by
  rw [paddedDigits, value_replicate_append, value_digits]

theorem paddedDigits_ne_nil (width n : Nat) : paddedDigits width n ≠ [] := by
  rw [paddedDigits, Ne, List.append_eq_nil_iff]
  exact fun h => digits_ne_nil n h.2

/-- A number that fits has exactly the digits it is padded to. -/
theorem length_paddedDigits {width n : Nat} (hw : 0 < width) (h : n < 10 ^ width) :
    (paddedDigits width n).length = width := by
  have hlen := length_digits_le hw h
  rw [paddedDigits, List.length_append, List.length_replicate]
  omega

theorem isBlank_char (d : Digit) : isBlank d.char = false := by
  revert d
  decide

/-- Digits end where a character comes that is none. -/
theorem ends_cons {c : Char} (cs : List Char) (h : digit? c = none) : Ends (c :: cs) := by
  intro x hx
  cases hx
  exact h

/-! ## The readers of the parts -/

variable {rest : List Char}

/-- What stands behind a part is left to the readers that come after it. -/
theorem run_then {α β : Type} {r : Reader α} {f : α → Reader β} {a : α} {cs : List Char}
    (h : r.run cs = some (a, rest)) : (r >>= f).run cs = (f a).run rest := by
  rw [StateT.run_bind, h]
  rfl

theorem run_skipBlank {c : Char} (h : isBlank c = false) :
    skipBlank.run (c :: rest) = some ((), c :: rest) := by
  have hdrop : dropBlank (c :: rest) = c :: rest := by
    rw [dropBlank, List.dropWhile_cons_of_neg (by rw [h]; exact Bool.false_ne_true)]
  exact congrArg (fun cs => some ((), cs)) hdrop

/-- A number is read off its digits. -/
theorem run_number {most : Nat} {ds : List Digit} (hds : ds ≠ []) (hlen : ds.length ≤ most)
    (hrest : Ends rest) :
    (number most).run (ds.map Digit.char ++ rest) = some (value ds, rest) := by
  have hskip : skipBlank.run (ds.map Digit.char ++ rest) =
      some ((), ds.map Digit.char ++ rest) := by
    cases ds with
    | nil => exact absurd rfl hds
    | cons d ds => exact run_skipBlank (isBlank_char d)
  have htake : (span (ds.map Digit.char ++ rest)).1.take most = ds := by
    rw [span_append ds hrest, List.take_of_length_le hlen]
  have hdrop : (ds.map Digit.char ++ rest).drop ds.length = rest := by
    rw [← List.length_map (f := Digit.char), List.drop_left]
  unfold number
  rw [run_then hskip, run_then (StateT.run_get _)]
  simp only [htake, if_neg hds, StateT.run_bind, StateT.run_pure, StateT.run_set, hdrop,
    Option.pure_def, Option.bind_eq_bind, Option.bind_some]

/-- A padded number is read back. -/
theorem run_number_padded {width n : Nat} (hw : 0 < width) (h : n < 10 ^ width)
    (hrest : Ends rest) : (number width).run (padded width n ++ rest) = some (n, rest) := by
  have hlen := Nat.le_of_eq (length_paddedDigits hw h)
  rw [padded_eq, run_number (paddedDigits_ne_nil _ _) hlen hrest, value_paddedDigits]

theorem run_twoDigits {low high n : Nat} (hlow : low ≤ n) (hhigh : n ≤ high) (h : n < 100)
    (hrest : Ends rest) : (twoDigits low high).run (padded 2 n ++ rest) = some (n, rest) := by
  unfold twoDigits
  rw [run_then (run_number_padded (by decide) h hrest), if_pos ⟨hlow, hhigh⟩]
  rfl

theorem run_separator {c : Char} (h : isBlank c = false) :
    (separator c).run (c :: rest) = some ((), rest) := by
  unfold separator expect
  rw [run_then (run_skipBlank h), run_then (StateT.run_get _)]
  dsimp only
  rw [if_pos rfl]
  rfl

theorem run_timeMark : timeMark.run ('T' :: rest) = some ((), rest) := rfl

theorem char_ne_sign (d : Digit) : d.char ≠ '-' ∧ d.char ≠ '+' := by
  revert d
  decide

/-- A year is read back: four digits, or a sign and all the digits there are. -/
theorem run_year (y : Int) (hrest : Ends rest) :
    year.run (yearChars y ++ rest) = some (y, rest) := by
  unfold yearChars
  split
  · next hy =>
    have hfits : y.natAbs < 10 ^ 4 := by omega
    have hback : ((y.natAbs : Nat) : Int) = y := by omega
    have hnumber := run_number_padded (by decide) hfits hrest
    rw [padded_eq] at hnumber ⊢
    -- the reader looks for a sign first, and a digit is none
    cases hds : paddedDigits 4 y.natAbs with
    | nil => exact absurd hds (paddedDigits_ne_nil _ _)
    | cons d ds =>
      obtain ⟨hminus, hplus⟩ := char_ne_sign d
      rw [hds, List.map_cons, List.cons_append] at hnumber
      rw [List.map_cons, List.cons_append]
      unfold year
      rw [run_then (run_skipBlank (isBlank_char d)), run_then (StateT.run_get _)]
      split
      · next h => exact absurd (List.cons.inj h).1 hminus
      · next h => exact absurd (List.cons.inj h).1 hplus
      · rw [run_then hnumber, hback]
        rfl
  · next hy =>
    -- behind a sign all digits are taken, however many there are
    have hspan : span (padded 4 y.natAbs ++ rest) = (paddedDigits 4 y.natAbs, rest) := by
      rw [padded_eq, span_append _ hrest]
    rcases Int.lt_or_le y 0 with hneg | hpos
    · have hback : -((y.natAbs : Nat) : Int) = y := by omega
      rw [if_pos hneg, List.cons_append]
      unfold year
      rw [run_then (run_skipBlank (by decide)), run_then (StateT.run_get _)]
      simp only [hspan, if_neg (paddedDigits_ne_nil _ _), value_paddedDigits, hback]
      rfl
    · have hback : ((y.natAbs : Nat) : Int) = y := by omega
      rw [if_neg (Int.not_lt.2 hpos), List.cons_append]
      unfold year
      rw [run_then (run_skipBlank (by decide)), run_then (StateT.run_get _)]
      simp only [hspan, if_neg (paddedDigits_ne_nil _ _), value_paddedDigits, hback]
      rfl

/-- A group of fraction digits is read back. -/
theorem run_fraction_padded {width n : Nat} (hw : 0 < width) (hnine : width ≤ 9)
    (h : n < 10 ^ width) (hrest : Ends rest) :
    fraction.run ('.' :: padded width n ++ rest) = some (n * 10 ^ (9 - width), rest) := by
  have hlen := length_paddedDigits hw h
  have hspan : span (padded width n ++ rest) = (paddedDigits width n, rest) := by
    rw [padded_eq, span_append _ hrest]
  have htake : (paddedDigits width n).take 9 = paddedDigits width n :=
    List.take_of_length_le (by rw [hlen]; exact hnine)
  unfold fraction
  rw [run_then (StateT.run_get _)]
  simp only [List.cons_append, hspan, if_neg (paddedDigits_ne_nil _ _), htake, value_paddedDigits,
    hlen]
  rfl

/-- A fraction of a second is read back, be it with three, six or nine digits or none. -/
theorem run_fraction {nano : Nat} (h : nano < 1000000000) :
    fraction.run (fractionChars nano ++ ['Z']) = some (nano, ['Z']) := by
  have hend : Ends ['Z'] := ends_cons [] (by decide)
  -- whatever groups are left out are zero, and the reader puts their zeros back
  unfold fractionChars
  split
  · next h₀ => rw [h₀]; rfl
  split
  · next h₃ =>
    rw [run_fraction_padded (by decide) (by decide) (by omega) hend]
    congr 2
    omega
  split
  · next h₆ =>
    rw [run_fraction_padded (by decide) (by decide) (by omega) hend]
    congr 2
    omega
  · rw [run_fraction_padded (by decide) (by decide) h hend]
    congr 2
    omega

theorem run_offset : offset.run ['Z'] = some (0, []) := rfl

/-! ## Timestamps that have a text -/

/-- Whether a timestamp has a text of its own: its date is one that is kept, its second is
one of a day, and more than a second of nanoseconds stands behind the second 59 only. -/
structure Proper (t : Timestamp) : Prop where
  date : (Calendar.dateOf t.day).valid = true
  second : t.second < 86400
  nano : t.nano < 1000000000 ∨ t.nano < 2000000000 ∧ t.second % 60 = 59

instance (t : Timestamp) : Decidable t.Proper :=
  decidable_of_iff ((Calendar.dateOf t.day).valid = true ∧ t.second < 86400 ∧
      (t.nano < 1000000000 ∨ t.nano < 2000000000 ∧ t.second % 60 = 59))
    ⟨fun h => ⟨h.1, h.2.1, h.2.2⟩, fun h => ⟨h.date, h.second, h.nano⟩⟩

variable {t : Timestamp}

theorem ends_fractionChars (nano : Nat) : Ends (fractionChars nano ++ ['Z']) := by
  unfold fractionChars
  split
  · exact ends_cons _ (by decide)
  split
  · exact ends_cons _ (by decide)
  split <;> exact ends_cons _ (by decide)

/-- The parts of a time of day, each in the range that its reader allows. The second that is
written is the 60th where more than a second of nanoseconds stands behind it. -/
theorem Proper.parts (h : t.Proper) : t.second / 3600 ≤ 23 ∧ t.second / 60 % 60 ≤ 59 ∧
    t.second % 60 + t.nano / 1000000000 ≤ 60 ∧
    (if t.second % 60 + t.nano / 1000000000 = 60 then 1 else 0) = t.nano / 1000000000 := by
  have hsecond := h.second
  have hleap : t.nano / 1000000000 = 0 ∨ t.nano / 1000000000 = 1 ∧ t.second % 60 = 59 := by
    rcases h.nano with hn | hn <;> omega
  refine ⟨by omega, by omega, by omega, ?_⟩
  split <;> omega

/-- The text of a proper timestamp is read back. -/
theorem Proper.ofText?_text (h : t.Proper) : ofText? t.text = some t := by
  obtain ⟨hnumber, ⟨hmonth, hmonth'⟩, hday, hday'⟩ := Calendar.dateOf_spec t.day
  obtain ⟨hhour, hminute, hlast, hleap⟩ := h.parts
  have hsecond := h.second
  have hdash : isBlank '-' = false := by decide
  have hcolon : isBlank ':' = false := by decide
  have dash (cs : List Char) : Ends ('-' :: cs) := ends_cons cs (by decide)
  have colon (cs : List Char) : Ends (':' :: cs) := ends_cons cs (by decide)
  have mark (cs : List Char) : Ends ('T' :: cs) := ends_cons cs (by decide)
  -- what is made of the parts again
  have hclock : t.second / 3600 * 3600 + t.second / 60 % 60 * 60 + t.second % 60 = t.second := by
    omega
  have hdays : (t.second : Int) / 86400 = 0 := by omega
  have htime : ((t.second : Int) % 86400).toNat = t.second := by omega
  have hnano : t.nano % 1000000000 + t.nano / 1000000000 * 1000000000 = t.nano := by omega
  have hread : reader.run t.text.toList = some (t, []) := by
    unfold text reader
    rw [String.toList_ofList]
    dsimp only
    simp only [List.append_assoc, List.cons_append]
    -- each reader stops where the next part begins
    rw [run_then (run_year _ (dash _)), run_then (run_separator hdash),
      run_then (run_twoDigits hmonth hmonth' (by omega) (dash _)), run_then (run_separator hdash),
      run_then (run_twoDigits hday hday' (by omega) (mark _)), run_then run_timeMark,
      run_then (run_twoDigits (Nat.zero_le _) hhour (by omega) (colon _)),
      run_then (run_separator hcolon),
      run_then (run_twoDigits (Nat.zero_le _) hminute (by omega) (colon _)),
      run_then (run_separator hcolon),
      run_then (run_twoDigits (Nat.zero_le _) hlast (by omega) (ends_fractionChars _)),
      run_then (run_fraction (by omega)), run_then (run_skipBlank (by decide)),
      run_then run_offset, run_then (show skipBlank.run [] = some ((), []) from rfl)]
    simp only [hleap, Nat.add_sub_cancel, hclock, hnumber, hdays, htime, hnano, Int.sub_zero,
      Int.add_zero, h.date]
    rfl
  rw [ofText?, hread]
  rfl

/-! ## Timestamps that were read

What a reader can yield is put together from what its parts can yield, whatever text they
are given. -/

/-- Whatever the reader yields satisfies `P`. -/
def Yields {α : Type} (P : α → Prop) (r : Reader α) : Prop :=
  ∀ cs a cs', r.run cs = some (a, cs') → P a

section

variable {α β : Type} {P : α → Prop} {Q : β → Prop}

theorem Yields.pure {a : α} (h : P a) : Yields P (pure a) := by
  intro cs b cs' hb
  cases hb
  exact h

theorem Yields.failure : Yields P (failure : Reader α) := by
  intro cs b cs' hb
  cases hb

theorem Yields.bind {r : Reader β} {f : β → Reader α} (h : Yields Q r)
    (h' : ∀ b, Q b → Yields P (f b)) : Yields P (r >>= f) := by
  intro cs a cs' ha
  rw [StateT.run_bind] at ha
  obtain ⟨⟨b, rest⟩, hb, ha⟩ := Option.bind_eq_some_iff.1 ha
  exact h' b (h cs b rest hb) rest a cs' ha

/-- A first reader of which nothing is needed. -/
theorem Yields.after {r : Reader β} {f : β → Reader α} (h : ∀ b, Yields P (f b)) :
    Yields P (r >>= f) :=
  Yields.bind (Q := fun _ => True) (fun _ _ _ _ => trivial) fun b _ => h b

/-- A reader that fails unless a condition holds. -/
theorem Yields.unless {c : Prop} [Decidable c] {r r' : Reader α} (h : ¬ c → Yields P r') :
    Yields P (if c then (do Alternative.failure; r) else r') := by
  split
  · exact .bind (Q := fun _ => False) .failure fun _ => False.elim
  · next hc => exact h hc

end

theorem value_lt (ds : List Digit) : value ds < 10 ^ ds.length := by
  suffices h : ∀ n, ds.foldl (fun n d => 10 * n + d.val) n < (n + 1) * 10 ^ ds.length by
    simpa [value] using h 0
  induction ds with
  | nil => simp
  | cons d ds ih =>
    intro n
    have hd := d.isLt
    calc ds.foldl (fun n d => 10 * n + d.val) (10 * n + d.val)
        < (10 * n + d.val + 1) * 10 ^ ds.length := ih _
      _ ≤ ((n + 1) * 10) * 10 ^ ds.length := Nat.mul_le_mul_right _ (by omega)
      _ = (n + 1) * 10 ^ (ds.length + 1) := by rw [Nat.pow_succ, Nat.mul_assoc, Nat.mul_comm 10]

/-- A fraction is less than a second. -/
theorem yields_fraction : Yields (· < 1000000000) fraction := by
  unfold fraction
  refine .after fun cs => ?_
  split
  · next tail =>
    refine .unless fun _ => .after fun _ => .pure ?_
    obtain ⟨ds, hds⟩ : ∃ ds, ds = (span tail).1.take 9 := ⟨_, rfl⟩
    have hlen : ds.length ≤ 9 := hds ▸ List.length_take_le 9 _
    rw [← hds]
    calc value ds * 10 ^ (9 - ds.length)
        < 10 ^ ds.length * 10 ^ (9 - ds.length) :=
          Nat.mul_lt_mul_of_pos_right (value_lt ds) (Nat.pow_pos (by decide))
      _ = 10 ^ 9 := by rw [← Nat.pow_add, Nat.add_sub_cancel' hlen]
  · exact .pure (by decide)

/-- An offset is a number of minutes. -/
theorem yields_offset : Yields (· % 60 = 0) offset := by
  unfold offset
  refine .after fun cs => ?_
  split
  all_goals dsimp only
  all_goals try split
  -- where no name of a zone stands, hours and minutes are read in either case
  all_goals first
    | exact .after fun _ => .pure rfl
    | refine .after fun cs => ?_
  all_goals
    split
    · exact .failure
    · split
      · exact .after fun _ => .pure rfl
      · refine .unless fun _ => .after fun _ => .after fun hours => .after fun _ =>
          .after fun minutes => .unless fun _ => .pure ?_
        split <;> omega

theorem yields_twoDigits (low high : Nat) : Yields (· ≤ high) (twoDigits low high) := by
  unfold twoDigits
  refine .after fun n => ?_
  split
  · next h => exact .pure h.2
  · exact .failure

/-- A timestamp that was read is proper. -/
theorem yields_reader : Yields Proper reader := by
  unfold reader
  refine .after fun y => .after fun _ => .after fun month => .after fun _ => .after fun day =>
    .after fun _ => ?_
  refine .bind (yields_twoDigits 0 23) fun hour hhour => .after fun _ => ?_
  refine .bind (yields_twoDigits 0 59) fun minute hminute => .after fun _ => ?_
  refine .bind (yields_twoDigits 0 60) fun second hsecond => ?_
  refine .bind yields_fraction fun nano hnano => .after fun _ => ?_
  refine .bind yields_offset fun shift hshift => .after fun _ => .after fun _ => ?_
  refine .unless fun _ => .unless fun _ => ?_
  dsimp only
  refine .unless fun hvalid => .pure ⟨Decidable.of_not_not hvalid, ?_, ?_⟩
  · dsimp only
    omega
  · dsimp only
    split
    · exact .inr (by omega)
    · exact .inl (by omega)

theorem proper_of_ofText? {s : String} (h : ofText? s = some t) : t.Proper := by
  obtain ⟨⟨t', rest⟩, hread, rfl⟩ := Option.map_eq_some_iff.1 h
  exact yields_reader _ _ _ hread

/-- The proper timestamps are those that some text writes, and then their own does. -/
theorem proper_iff : t.Proper ↔ ∃ s, ofText? s = some t :=
  ⟨fun h => ⟨t.text, h.ofText?_text⟩, fun ⟨_, h⟩ => proper_of_ofText? h⟩

end Timestamp

end StoryChat
