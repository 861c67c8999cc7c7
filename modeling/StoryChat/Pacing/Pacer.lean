/-
How long everything takes.

A message is preceded by a pause in which its author types, records or prepares it
(`Pacer::smart_delay`), and followed by one in which the player reads it
(`Pacer::auto_read`). The lengths are those of a person. They are scaled only when they
are waited for, so what is shown never depends on the scale, and a scale that is not a
positive finite number leaves no waiting at all. An explicit pause of a node takes the
place of typing and of the pause of the system, never of reading.
-/
import StoryChat.Pacing.Window
import StoryChat.Script.Node

set_option autoImplicit false

namespace StoryChat

/-- The windows of all pauses, and the factor on waiting (`PacingConfig`). -/
structure Pacing where
  timeScale : Float
  /-- Typing a text. -/
  text : LengthWindow
  /-- Recording a voice message. -/
  audio : Window
  /-- Preparing an image. -/
  image : Window
  /-- Before a message of the system. -/
  system : LengthWindow
  /-- The player reads a message. -/
  autoRead : LengthWindow
  /-- The other side reads the player's message. -/
  reading : Window
  /-- The other side thinks about it. -/
  thinking : Window
  /-- Once pretending to type. -/
  fakeTyping : Window
  /-- Between two times of pretending. -/
  fakeTypingPause : Window
  deriving DecidableEq

namespace Pacing

/-- The pace of a conversation (`PacingConfig::default`). -/
def standard : Pacing where
  timeScale := 1.0
  text := ⟨60, 1500, 5000, 500⟩
  audio := ⟨12000, 6000⟩
  image := ⟨3000, 2000⟩
  system := ⟨40, 1000, 3000, 0⟩
  autoRead := ⟨55, 1500, 5500, 500⟩
  reading := ⟨1000, 2500⟩
  thinking := ⟨500, 1500⟩
  fakeTyping := ⟨1500, 1500⟩
  fakeTypingPause := ⟨800, 1200⟩

/-- The same pace without any waiting (`PacingConfig::instant`). -/
def instant : Pacing := { standard with timeScale := 0.0 }

/-- The same windows with a scale, which a negative one or none at all makes zero
(`PacingConfig::with_time_scale`). -/
def withTimeScale (p : Pacing) (scale : Float) : Pacing :=
  { p with timeScale := if scale > 0.0 then scale else 0.0 }

/-- The time waited for a span (`Pacer::scale`). -/
def scale (p : Pacing) (d : Duration) : Duration := d.scale p.timeScale

/-- The span before a message of a participant (`Pacer::smart_delay`). -/
def smartDelay? (p : Pacing) (n : Node) (draw : Float) : Option Duration :=
  match n.explicitDelay with
  | some ms => some (.ofMillis ms)
  | none =>
    match n.kind with
    | .audio => some (p.audio.sample draw)
    | .image => some (p.image.sample draw)
    | _ => p.text.sample? n.contentLength draw

/-- The span before a message of the system (`Pacer::system_pause`). -/
def systemPause? (p : Pacing) (n : Node) (draw : Float) : Option Duration :=
  match n.explicitDelay with
  | some ms => some (.ofMillis ms)
  | none => p.system.sample? n.contentLength draw

/-- The span in which the player reads a message (`Pacer::auto_read`). -/
def autoRead? (p : Pacing) (n : Node) (draw : Float) : Option Duration :=
  p.autoRead.sample? n.contentLength draw

end Pacing

end StoryChat
