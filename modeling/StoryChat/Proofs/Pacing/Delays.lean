/-
Longer explicit pauses.

A node may state its pause (`Node.explicitDelay`), and a larger number should not make a shorter
one. It does not as long as the number is below `2 ^ 64` seconds, rounding included, and
stretching keeps the order of all spans and stops at the longest. But a number from that end on is
no pause at all (`Duration.ofMillis`).
-/
import StoryChat.Pacing.Pacer
import StoryChat.Proofs.Time.Spans

set_option autoImplicit false

namespace StoryChat

open Decimal

/-- The node with an explicit pause. -/
def Node.delayed (n : Node) (ms : Float) : Node := { n with delay := some ms }

namespace Pacing

variable {p : Pacing} {n : Node} {ms ms' : Float}

/-- Whether the span before a message is the given one, whoever its author is and whatever is
drawn. -/
def Precedes (p : Pacing) (d : Duration) (n : Node) : Prop :=
  ∀ draw, p.smartDelay? n draw = some d ∧ p.systemPause? n draw = some d

/-- An explicit pause that is positive comes before everything else. -/
theorem precedes_delayed (hpos : ms > 0.0) : p.Precedes (.ofMillis ms) (n.delayed ms) := by
  have hexplicit : (n.delayed ms).explicitDelay = some ms := by
    change (some ms).filter (· > 0.0) = some ms
    rw [Option.filter_some, if_pos (decide_eq_true hpos)]
  intro draw
  rw [smartDelay?, systemPause?, hexplicit]
  exact ⟨rfl, rfl⟩

/-- A longer explicit pause (`Duration.ofMillis`) is not shorter, neither before nor after
stretching (`Pacing.scale`), up to the end of the numbers that are spans; from there on it is
no pause. Stretching itself stops at the longest span. -/
theorem pause_mono_of_delay (p : Pacing) (n : Node) (hfinite : isFinite ms = true)
    (hpos : ms > 0.0) (hfinite' : isFinite ms' = true) (hpos' : ms' > 0.0) (hle : ms ≤ ms') :
    ∃ d d', p.Precedes d (n.delayed ms) ∧ p.Precedes d' (n.delayed ms') ∧
      (ms' < Duration.millisEnd →
        d.nanos ≤ d'.nanos ∧ (p.scale d).nanos ≤ (p.scale d').nanos) ∧
      (Duration.millisEnd ≤ ms' → d' = .zero ∧ p.scale d' = .zero) ∧
      (isFinite p.timeScale = true → p.timeScale > 0.0 →
        18446744073709551616.0 ≤ d'.seconds * p.timeScale → p.scale d' = .longest) := by
  obtain ⟨v, -, hv⟩ := exists_isWorth hfinite hpos
  obtain ⟨w, -, hw⟩ := exists_isWorth hfinite' hpos'
  have hlongest := Duration.ofMillis_le_longest hw
  refine ⟨_, _, precedes_delayed hpos, precedes_delayed hpos', fun hend => ?_, fun hend => ?_,
    fun hscale hscale' => Duration.scale_eq_longest hlongest hscale hscale'⟩
  · have hspan := Duration.ofMillis_mono hv hw hle hend
    exact ⟨hspan, Duration.scale_mono hspan hlongest p.timeScale⟩
  · have hzero := Duration.ofMillis_eq_zero hw hend
    exact ⟨hzero, hzero ▸ Duration.scale_zero p.timeScale⟩

/-- A thousand milliseconds and the last number before the end, at the usual pace. -/
theorem pause_mono_of_delay_last :
    isFinite 1000.0 = true ∧ 1000.0 ≤ 18446744073709549518848.0 ∧
    18446744073709549518848.0 < Duration.millisEnd ∧
    ∃ d d', standard.Precedes d ((Node.message "a" (.npc "Ana") "Hm").delayed 1000.0) ∧
      standard.Precedes d'
        ((Node.message "a" (.npc "Ana") "Hm").delayed 18446744073709549518848.0) ∧
      d.nanos ≤ d'.nanos ∧ (standard.scale d).nanos ≤ (standard.scale d').nanos := by
  have hfinite : isFinite 1000.0 = true := by decide +kernel
  have hle : 1000.0 ≤ 18446744073709549518848.0 := by decide +kernel
  have hend : 18446744073709549518848.0 < Duration.millisEnd := by decide +kernel
  obtain ⟨d, d', hd, hd', hmono, -⟩ := pause_mono_of_delay standard
    (Node.message "a" (.npc "Ana") "Hm") hfinite (by decide +kernel) (by decide +kernel)
    (by decide +kernel) hle
  exact ⟨hfinite, hle, hend, d, d', hd, hd', hmono hend⟩

/-- So a longer explicit pause may be the shorter one: ten to the power of three hundred
milliseconds are none. -/
theorem not_pause_mono_of_delay :
    isFinite 1e300 = true ∧ 1000.0 ≤ 1e300 ∧
    standard.smartDelay? ((Node.message "a" (.npc "Ana") "Hm").delayed 1000.0) 0.5 =
      some ⟨1000000000⟩ ∧
    standard.smartDelay? ((Node.message "a" (.npc "Ana") "Hm").delayed 1e300) 0.5 =
      some .zero ∧
    standard.systemPause? ((Node.message "a" .system "Hm").delayed 1e300) 0.5 = some .zero ∧
    standard.scale ⟨1000000000⟩ = ⟨1000000000⟩ ∧ standard.scale .zero = .zero := by
  decide +kernel

end Pacing

end StoryChat
