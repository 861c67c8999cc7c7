/-
Which of two sources of options counts.

The environment is read first (`Options.ofEnvironment`), and the command line is gone through
over what it says (`Options.apply`). So a flag has the last word: once it has set something,
nothing is left of what the environment had for it. For this it does not matter where on the
command line the flag stands, or whether the words are accepted at all, since a value is
judged without a look at the options so far.

There is one way in which the environment counts in spite of a flag. It is read to its end
before the first word is looked at, and a scale in it that is no scale is a fault there and
then. The folders have no such faults, for any text names a folder.
-/
import StoryChat.Proofs.Session.CommandLine

set_option autoImplicit false

namespace StoryChat

namespace Options

variable {o o' : Options} {setting : Setting} {words : List String} {word value : String}

/-! ## What a flag leaves nothing of -/

/-- The options with one of them as it usually is. -/
def without (o : Options) : Setting → Options
  | .scripts => { o with scripts := none }
  | .saves => { o with saves := usualSaves }
  | .timeScale => { o with timeScale := 1.0 }
  | .name => { o with name := none }
  | .chapter => { o with chapter := 1 }
  | .part => { o with part := 1 }

/-- What is set is set over whatever was there, and whether it can be set does not depend on
that either. -/
theorem set_without (o : Options) (setting : Setting) (value : String) :
    (o.without setting).set setting value = o.set setting value := by
  cases setting <;> rfl

/-- What a flag sets does not depend on what another flag would. -/
theorem without_set (o : Options) (setting other : Setting) (value : String) :
    ((o.without setting).set other value).map (·.without setting) =
      (o.set other value).map (·.without setting) := by
  unfold set
  cases other with
  | scripts | saves | name => cases setting <;> rfl
  | timeScale =>
    cases readTimeScale value with
    | error fault => rfl
    | ok x => cases setting <;> rfl
  | chapter | part =>
    cases Text.readWhole placeLimit value with
    | error fault => rfl
    | ok n => cases setting <;> rfl

theorem without_switch (o : Options) (setting : Setting) (word : String) :
    ((o.without setting).switch word).without setting = (o.switch word).without setting := by
  unfold switch
  split <;> cases setting <;> rfl

/-- What two results have in common they lead to the same with, if that is all that is looked
at from there on. -/
theorem bind_eq_of_map_eq {ε α β γ : Type} {f : α → β} {next : α → Except ε γ}
    {r r' : Except ε α} (h : r.map f = r'.map f) (hnext : ∀ a b, f a = f b → next a = next b) :
    r.bind next = r'.bind next := by
  cases r with
  | error fault =>
    cases r' with
    | error fault' =>
      cases h
      rfl
    | ok b => cases h
  | ok a =>
    cases r' with
    | error fault' => cases h
    | ok b => exact hnext a b (Except.ok.inj h)

/-! ## Where a flag stands -/

/-- Whether a command line sets something by a flag. The flag must stand where one is looked
for, and not as the value of the flag before it; and a value must stand behind it. -/
inductive Gives (setting : Setting) : List String → Prop where
  | flag {flag value : String} {rest : List String} :
      Setting.ofFlag? flag = some setting → Gives setting (flag :: value :: rest)
  | behindWord {word : String} {rest : List String} :
      Setting.ofFlag? word = none → Gives setting rest → Gives setting (word :: rest)
  | behindFlag {flag value : String} {rest : List String} {other : Setting} :
      Setting.ofFlag? flag = some other → Gives setting rest →
      Gives setting (flag :: value :: rest)

/-- The run lemma: over options that differ in nothing but what a flag sets, a command line with
that flag comes to the same, be it options or a fault. -/
theorem Gives.apply_eq (h : Gives setting words) (ho : o.without setting = o'.without setting) :
    o.apply words = o'.apply words := by
  -- up to the flag the options may differ, from the flag on they are equal
  induction h generalizing o o' with
  | flag hflag =>
    rw [apply_flag hflag, apply_flag hflag, ← set_without o, ho, set_without]
  | behindWord hword _ ih =>
    rw [apply_word hword, apply_word hword]
    apply ih
    rw [← without_switch o, ho, without_switch]
  | behindFlag hflag _ ih =>
    rw [apply_flag hflag, apply_flag hflag]
    apply bind_eq_of_map_eq
    · rw [← without_set o, ho, without_set]
    · intro p q hpq
      exact ih hpq

/-! ## The environment under a command line -/

variable {e e' : Environment}

/-- A fault in the environment is the answer, whatever the command line is. -/
theorem parse_eq_bind (e : Environment) (words : List String) :
    parse e words = (ofEnvironment e).bind (·.apply words) := by
  unfold parse
  cases ofEnvironment e <;> rfl

/-- Two environments make no difference to a command line that has its own word for all in
which they differ. -/
theorem Gives.parse_eq (h : Gives setting words)
    (he : (ofEnvironment e).map (·.without setting) =
      (ofEnvironment e').map (·.without setting)) : parse e words = parse e' words := by
  rw [parse_eq_bind, parse_eq_bind]
  apply bind_eq_of_map_eq he
  intro p q hpq
  exact h.apply_eq hpq

/-- The scale that an environment states, or the usual one. -/
def scaleOf : Option String → Except OptionFault Float
  | none => .ok 1.0
  | some value => readTimeScale value

/-- Folders are taken as they stand, and a scale must be one. -/
theorem ofEnvironment_eq (e : Environment) : ofEnvironment e =
    match scaleOf e.timeScale with
    | .error fault => .error (.environment fault)
    | .ok timeScale =>
      .ok { scripts := e.scripts, saves := e.saves.getD usualSaves, timeScale } := by
  unfold ofEnvironment scaleOf
  cases e.timeScale with
  | none => rfl
  | some value =>
    dsimp only
    cases readTimeScale value <;> rfl

/-- Another folder of scripts in the environment is all the difference it makes. -/
theorem ofEnvironment_scripts (e : Environment) (scripts : Option String) :
    (ofEnvironment { e with scripts }).map (·.without .scripts) =
      (ofEnvironment e).map (·.without .scripts) := by
  rw [ofEnvironment_eq, ofEnvironment_eq]
  dsimp only
  cases scaleOf e.timeScale <;> rfl

theorem ofEnvironment_saves (e : Environment) (saves : Option String) :
    (ofEnvironment { e with saves }).map (·.without .saves) =
      (ofEnvironment e).map (·.without .saves) := by
  rw [ofEnvironment_eq, ofEnvironment_eq]
  dsimp only
  cases scaleOf e.timeScale <;> rfl

/-- With the scale it is so only as long as there is no fault. -/
theorem ofEnvironment_timeScale {timeScale : Option String} {x y : Float}
    (hx : scaleOf timeScale = .ok x) (hy : scaleOf e.timeScale = .ok y) :
    (ofEnvironment { e with timeScale }).map (·.without .timeScale) =
      (ofEnvironment e).map (·.without .timeScale) := by
  rw [ofEnvironment_eq, ofEnvironment_eq]
  dsimp only
  rw [hx, hy]
  rfl

/-! ## The last word -/

/-- Where a flag sets a folder (`Options.parse`), the variable of the environment for it makes
no difference, whatever it is. Where a flag sets the scale, the variable for it makes no
difference as long as it is not there or states a scale; but one that states none is the
answer, with or without a flag. -/
theorem flags_have_last_word (e : Environment) (words : List String) :
    (Gives .scripts words → ∀ scripts, parse { e with scripts } words = parse e words) ∧
    (Gives .saves words → ∀ saves, parse { e with saves } words = parse e words) ∧
    (Gives .timeScale words → ∀ timeScale x y, scaleOf timeScale = .ok x →
      scaleOf e.timeScale = .ok y → parse { e with timeScale } words = parse e words) ∧
    ∀ value fault, readTimeScale value = .error fault →
      parse { e with timeScale := some value } words = .error (.environment fault) := by
  refine ⟨?_, ?_, ?_, ?_⟩
  · intro h scripts
    exact h.parse_eq (ofEnvironment_scripts e scripts)
  · intro h saves
    exact h.parse_eq (ofEnvironment_saves e saves)
  · intro h timeScale x y hx hy
    exact h.parse_eq (ofEnvironment_timeScale hx hy)
  · intro value fault hfault
    have hscale : scaleOf (some value) = .error fault := hfault
    rw [parse_eq_bind, ofEnvironment_eq]
    dsimp only
    rw [hscale]
    rfl

/-- A flag that is swallowed as a name, and two behind it that count. -/
theorem flags_have_last_word_swallowing :
    let e : Environment := ⟨some "there", some "kept", some "2"⟩
    let words := ["story", "--name", "--saves", "--time-scale", " 0.5", "--scripts", "here"]
    Gives .scripts words ∧ Gives .timeScale words ∧
      parse { e with scripts := some "elsewhere" } words = parse e words ∧
      parse { e with timeScale := none } words = parse e words ∧
      parse { e with timeScale := some "-1" } words =
        .error (.environment (.timeScaleRange "-1")) ∧
      (parse e words).map (·.saves) = .ok "kept" ∧
      (parse { e with saves := none } words).map (·.saves) = .ok usualSaves := by
  intro e words
  have hscale : Gives .timeScale words := .behindWord rfl (.behindFlag rfl (.flag rfl))
  have hscripts : Gives .scripts words :=
    .behindWord rfl (.behindFlag rfl (.behindFlag rfl (.flag rfl)))
  obtain ⟨hs, -, ht, hfault⟩ := flags_have_last_word e words
  refine ⟨hscripts, hscale, hs hscripts _, ?_, hfault "-1" _ rfl, rfl, rfl⟩
  exact ht hscale none 1.0 2.0 rfl rfl

/-- So a flag does not always win: a scale that is given and accepted does not help against one
in the environment that is none. -/
theorem not_last_word_of_unreadable :
    ∃ (e : Environment) (words : List String), Gives .timeScale words ∧
      (∃ o, apply {} words = .ok o) ∧ (∃ o, parse e words = .ok o) ∧
      parse { e with timeScale := some "fast" } words =
        .error (.environment (.timeScale "fast" .invalid)) := by
  refine ⟨⟨none, none, none⟩, ["--time-scale", "0.5"], .flag rfl, ⟨_, rfl⟩, ⟨_, rfl⟩, rfl⟩

end Options

end StoryChat
