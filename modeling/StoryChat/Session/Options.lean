/-
What a session is started with.

Options (`HeadlessConfig`) come from the environment and from the command line. The
environment is looked at first and must be sound (`ofEnvironment`); a flag then takes
the place of what the environment said (`apply`). A flag that takes a value takes the
next word, whatever it is, and a word that is no flag is passed over, the name of the
program included.
-/
import StoryChat.Text.Blank
import StoryChat.Text.Number

set_option autoImplicit false

namespace StoryChat

open Text

/-- The folder in which saves are kept if nothing else is said (`saves_dir` of the default
`HeadlessConfig`). -/
def usualSaves : String := ".chatnovel"

/-- What a session is started with (`HeadlessConfig`). -/
structure Options where
  /-- The folder of scripts, if it is not the usual one. -/
  scripts : Option String := none
  /-- The folder of saves. -/
  saves : String := usualSaves
  /-- The factor on all waiting. -/
  timeScale : Float := 1.0
  /-- The player's name in a new story. -/
  name : Option String := none
  /-- The chapter in which a new story starts. -/
  chapter : Nat := 1
  /-- The part with which a new story starts. -/
  part : Nat := 1
  /-- Whether what was kept is wiped first. -/
  fresh : Bool := false
  /-- Whether the other side may block the player. -/
  interrupts : Bool := true
  deriving DecidableEq

/-- The variables of the environment that are looked at (`CHATNOVEL_*`). -/
structure Environment where
  scripts : Option String
  saves : Option String
  timeScale : Option String
  deriving DecidableEq

/-- Why there are no options: the errors of `from_env` and `apply_args`. -/
inductive OptionFault where
  /-- The last word is a flag that takes a value. -/
  | missingValue (flag : String)
  | timeScale (value : String) (fault : DecimalFault)
  /-- The scale is a number, but not a finite one from zero up. -/
  | timeScaleRange (value : String)
  | chapter (value : String) (fault : WholeFault)
  | part (value : String) (fault : WholeFault)
  /-- The fault is in the environment. -/
  | environment (fault : OptionFault)
  deriving DecidableEq

/-- The text of the cause, with the cause of the cause behind a colon. -/
def OptionFault.message : OptionFault → String
  | .missingValue flag => flag ++ " needs a value"
  | .timeScale value fault => "Invalid time scale '" ++ value ++ "': " ++ fault.message
  | .timeScaleRange value => "Time scale must be a non-negative number, got " ++ value
  | .chapter value fault => "Invalid chapter '" ++ value ++ "': " ++ fault.message
  | .part value fault => "Invalid part '" ++ value ++ "': " ++ fault.message
  | .environment fault => "Invalid CHATNOVEL_TIME_SCALE: " ++ fault.message

namespace Options

/-- The largest number of a chapter or a part (`u32::MAX`). -/
def placeLimit : Nat := 4294967295

/-- The scale that a word states (`parse_time_scale`). -/
def readTimeScale (value : String) : Except OptionFault Float :=
  match readDecimal (trim value) with
  | .error fault => .error (.timeScale value fault)
  | .ok x => if Decimal.isFinite x ∧ ¬ x < 0.0 then .ok x else .error (.timeScaleRange value)

/-! ## The environment -/

/-- The options that the environment states (`HeadlessConfig::from_env`). -/
def ofEnvironment (e : Environment) : Except OptionFault Options := do
  let o : Options := { scripts := e.scripts, saves := e.saves.getD usualSaves }
  match e.timeScale with
  | none => return o
  | some value =>
    match readTimeScale value with
    | .error fault => .error (.environment fault)
    | .ok timeScale => return { o with timeScale }

/-! ## The command line -/

/-- What a flag with a value sets in `apply_args`. -/
inductive Setting where
  | scripts
  | saves
  | timeScale
  | name
  | chapter
  | part
  deriving DecidableEq

/-- What a word sets, if it is a flag with a value, as `apply_args` tells them apart. -/
def Setting.ofFlag? : String → Option Setting
  | "--scripts" => some .scripts
  | "--saves" => some .saves
  | "--time-scale" => some .timeScale
  | "--name" => some .name
  | "--chapter" => some .chapter
  | "--part" => some .part
  | _ => none

/-- The options with one of them set, as `apply_args` sets it. -/
def set (o : Options) (setting : Setting) (value : String) : Except OptionFault Options :=
  match setting with
  | .scripts => .ok { o with scripts := some value }
  | .saves => .ok { o with saves := value }
  | .timeScale => (readTimeScale value).map fun timeScale => { o with timeScale }
  | .name => .ok { o with name := some value }
  | .chapter =>
    match readWhole placeLimit value with
    | .error fault => .error (.chapter value fault)
    | .ok chapter => .ok { o with chapter }
  | .part =>
    match readWhole placeLimit value with
    | .error fault => .error (.part value fault)
    | .ok part => .ok { o with part }

/-- The options with a switch turned, if a word is one that `apply_args` knows. -/
def switch (o : Options) : String → Options
  | "--fresh" => { o with fresh := true }
  | "--no-interrupts" => { o with interrupts := false }
  | _ => o

/-- The options after the words of a command line (`apply_args`). -/
def apply (o : Options) : List String → Except OptionFault Options
  | [] => .ok o
  | word :: rest =>
    match Setting.ofFlag? word, rest with
    | none, rest => apply (o.switch word) rest
    | some _, [] => .error (.missingValue word)
    | some setting, value :: rest =>
      match o.set setting value with
      | .error fault => .error fault
      | .ok o => apply o rest

/-- The options of an environment and a command line (`parse_config_from_args`). -/
def parse (e : Environment) (words : List String) : Except OptionFault Options :=
  match ofEnvironment e with
  | .error fault => .error fault
  | .ok o => o.apply words

end Options

end StoryChat
