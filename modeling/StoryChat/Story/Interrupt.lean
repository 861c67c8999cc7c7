/-
Interrupts.

After a choice has had its effect on the variables, and only then, the story may be
diverted into a script of its own. What decides about it (an `InterruptHook`) sees the
variables before and after the whole effect. The usual interrupt, a
`ThresholdInterrupt`, watches a number fall to a threshold: it fires when the number was
above before and is not above after, so it fires on the crossing and not while the
number stays down.
-/
import StoryChat.Story.Variables

set_option autoImplicit false

namespace StoryChat

/-- Names the script to divert into, given the variables before and after a choice
(`InterruptHook::check`). -/
abbrev Interrupt := Variables → Variables → Option String

/-- The interrupt that fires when a number falls to a threshold (`ThresholdInterrupt`). -/
structure Threshold where
  /-- The variable that is watched. -/
  name : String
  threshold : Float
  script : String
  deriving DecidableEq

namespace Threshold

/-- Whether the number is above the threshold (`was_above`, asked before the choice). -/
def above (t : Threshold) (v : Variables) : Bool :=
  match v.number? t.name with
  | some x => x > t.threshold
  | none => false

/-- Whether the number is at the threshold or below (`now_at_or_below`, asked after it). -/
def reached (t : Threshold) (v : Variables) : Bool :=
  match v.number? t.name with
  | some x => x ≤ t.threshold
  | none => false

/-- Fire on the crossing (`ThresholdInterrupt::check`). -/
def check (t : Threshold) : Interrupt := fun before after =>
  if t.above before && t.reached after then some t.script else none

end Threshold

/-- The script that the first of several interrupts to fire names
(`DialogueEngine::check_interrupts`). -/
def firstInterrupt (interrupts : List Interrupt) (before after : Variables) : Option String :=
  interrupts.findSome? fun check => check before after

end StoryChat
