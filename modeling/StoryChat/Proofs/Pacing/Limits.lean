/-
Lengths between limits.

The length of a pause that grows with a text (`LengthWindow.base?`) is computed in 64 bits, where
a product that is too large is cut off, and then moved between two limits. The upper limit is a
number of 64 bits itself, so what the cut takes away would have been taken away by the limit as
well: what comes out is what unbounded arithmetic gives (`exactBase`).
-/
import StoryChat.Pacing.Window

set_option autoImplicit false

namespace StoryChat.LengthWindow

variable {w w' : LengthWindow} {chars chars' : Nat}

/-- Whether no number of a window, the extra apart, is larger than that of another one. -/
structure NoLonger (w w' : LengthWindow) : Prop where
  perChar : w.perChar ≤ w'.perChar
  min : w.min ≤ w'.min
  max : w.max ≤ w'.max

/-- The length without the cut. -/
def exactBase (w : LengthWindow) (chars : Nat) : Nat :=
  Nat.max w.min (Nat.min w.max (chars * w.perChar))

/-- There is no length exactly if the limits are crossed, whatever the text is. -/
theorem base?_eq_none_iff : w.base? chars = none ↔ w.max < w.min := by
  unfold base?
  by_cases h : w.max < w.min
  · rw [if_pos h]
    exact ⟨fun _ => h, fun _ => rfl⟩
  · rw [if_neg h]
    exact ⟨nofun, fun h' => absurd h' h⟩

/-- A number that is first cut at something above a limit is moved to the limit all the same. -/
theorem min_min_of_le {limit cut n : Nat} (h : limit ≤ cut) :
    Nat.min limit (Nat.min cut n) = Nat.min limit n :=
  (Nat.min_assoc limit cut n).symm.trans (congrArg (Nat.min · n) (Nat.min_eq_left h))

theorem base?_eq (hmax : w.max ≤ millisLimit) (h : w.min ≤ w.max) :
    w.base? chars = some (w.exactBase chars) := by
  rw [base?, if_neg (Nat.not_lt.2 h), min_min_of_le hmax, exactBase]

theorem exactBase_bounds (h : w.min ≤ w.max) :
    w.min ≤ w.exactBase chars ∧ w.exactBase chars ≤ w.max :=
  ⟨Nat.le_max_left _ _, Nat.max_le.2 ⟨h, Nat.min_le_left _ _⟩⟩

theorem exactBase_mono (h : w.NoLonger w') (hchars : chars ≤ chars') :
    w.exactBase chars ≤ w'.exactBase chars' := by
  have hproduct : chars * w.perChar ≤ chars' * w'.perChar := Nat.mul_le_mul hchars h.perChar
  have hupper : Nat.min w.max (chars * w.perChar) ≤ Nat.min w'.max (chars' * w'.perChar) :=
    Nat.le_min.2 ⟨Nat.le_trans (Nat.min_le_left _ _) h.max,
      Nat.le_trans (Nat.min_le_right _ _) hproduct⟩
  exact Nat.max_le.2 ⟨Nat.le_trans h.min (Nat.le_max_left _ _),
    Nat.le_trans hupper (Nat.le_max_right _ _)⟩

/-- The length (`LengthWindow.base?`) is exact between its limits. If these are numbers of 64
bits and not crossed, it is what unbounded arithmetic gives for the text, and so neither below
nor above them; it does not get smaller with a longer text, a higher rate or higher limits. If
they are crossed, and only then, no text has a length. -/
theorem base_exact_within_limits (hmax : w.max ≤ millisLimit) :
    (∀ chars, w.base? chars = none ↔ w.max < w.min) ∧
    (w.min ≤ w.max → ∀ chars, ∃ base,
      w.base? chars = some base ∧ base = Nat.max w.min (Nat.min w.max (chars * w.perChar)) ∧
      w.min ≤ base ∧ base ≤ w.max ∧
      ∀ w' chars', w'.max ≤ millisLimit → w'.min ≤ w'.max → w.NoLonger w' → chars ≤ chars' →
        ∃ base', w'.base? chars' = some base' ∧ base ≤ base') := by
  refine ⟨fun _ => base?_eq_none_iff, fun h chars => ?_⟩
  have hbounds : w.min ≤ w.exactBase chars ∧ w.exactBase chars ≤ w.max := exactBase_bounds h
  refine ⟨w.exactBase chars, base?_eq hmax h, rfl, hbounds.1, hbounds.2, ?_⟩
  intro w' chars' hmax' h' hle hchars
  exact ⟨w'.exactBase chars', base?_eq hmax' h', exactBase_mono hle hchars⟩

/-- A product of `10 ^ 24` is cut off, and the length is the upper limit, as it is without the
cut. With a longer text and a higher lower limit it stays there. -/
theorem base_exact_within_limits_overflowing :
    (⟨1000000000000, 1, millisLimit, 0⟩ : LengthWindow).max ≤ millisLimit ∧
    (⟨1000000000000, 1, millisLimit, 0⟩ : LengthWindow).base? 1000000000000 = some millisLimit ∧
    ∃ base, (⟨1000000000000, 2, millisLimit, 0⟩ : LengthWindow).base? 2000000000000 = some base ∧
      millisLimit ≤ base := by
  have hmax : (⟨1000000000000, 1, millisLimit, 0⟩ : LengthWindow).max ≤ millisLimit :=
    Nat.le_refl _
  obtain ⟨base, hbase, hexact, -, -, hmono⟩ :=
    (base_exact_within_limits hmax).2 (by decide) 1000000000000
  obtain rfl : base = millisLimit := hexact.trans (by decide)
  obtain ⟨base', hbase', hle⟩ := hmono ⟨1000000000000, 2, millisLimit, 0⟩ 2000000000000
    (Nat.le_refl _) (by decide) ⟨Nat.le_refl _, by decide, Nat.le_refl _⟩ (by decide)
  exact ⟨hmax, hbase, base', hbase', hle⟩

end StoryChat.LengthWindow
