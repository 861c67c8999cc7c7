/-
Comparing two runs of a story.

Two operations can be compared in many ways: they come to the same in worlds that go together,
or one of them comes to an end if the other does (`Comparison`). Which way it is, is a
parameter here, and so is which scripts go together. What an operation does to a world are a
few kinds of changes, and what it asks of the world are a few kinds of questions. A comparison
must bear these, and that one operation comes after another. They are listed once, in `Rules`,
and in `Lockstep` what is said of scripts; whether the two slots answer the same is asked for
by few operations, and added in `Concord`; and that the same interrupts are asked matters for a
choice alone.

Everything that is done with an engine is made of these, so all of it goes together with itself
under every such comparison: this is shown once, function by function. Scripts are looked into
at one place only, the visit of a node, and there almost everything is answered by the plain
form of the node (`Node.plain`).
-/
import StoryChat.Proofs.Engine.Refusal
import StoryChat.Proofs.Engine.Upkeep
import StoryChat.Proofs.Save.Agreement
import StoryChat.Proofs.Script.Unknown

set_option autoImplicit false

namespace StoryChat

/-! ## Pauses without chance -/

namespace Pacing

/-- How far the pauses may vary, window by window. -/
def jitters (p : Pacing) : List Nat :=
  [p.text.jitter, p.audio.jitter, p.image.jitter, p.system.jitter, p.autoRead.jitter,
    p.reading.jitter, p.thinking.jitter, p.fakeTyping.jitter, p.fakeTypingPause.jitter]

/-- Whether no pause varies. -/
def Unvaried (p : Pacing) : Prop := ∀ jitter ∈ p.jitters, jitter = 0

instance (p : Pacing) : Decidable p.Unvaried :=
  inferInstanceAs (Decidable (∀ jitter ∈ p.jitters, jitter = 0))

/-- The pace with pauses that do not vary. -/
def even (p : Pacing) : Pacing :=
  { p with
    text := { p.text with jitter := 0 }
    audio := { p.audio with jitter := 0 }
    image := { p.image with jitter := 0 }
    system := { p.system with jitter := 0 }
    autoRead := { p.autoRead with jitter := 0 }
    reading := { p.reading with jitter := 0 }
    thinking := { p.thinking with jitter := 0 }
    fakeTyping := { p.fakeTyping with jitter := 0 }
    fakeTypingPause := { p.fakeTypingPause with jitter := 0 } }

theorem unvaried_even (p : Pacing) : p.even.Unvaried := by
  simp [Unvaried, jitters, even]

/-- The pace with another factor on waiting. -/
def atScale (p : Pacing) (scale : Float) : Pacing := { p with timeScale := scale }

end Pacing

/-- Without an extra the draw does not matter. -/
theorem extraMillis_eq {jitter : Nat} (h : jitter = 0) (draw draw' : Float) :
    extraMillis jitter draw = extraMillis jitter draw' := by
  rw [extraMillis, extraMillis, if_pos h, if_pos h]

theorem Window.sample_eq {w : Window} (h : w.jitter = 0) (draw draw' : Float) :
    w.sample draw = w.sample draw' := by
  rw [sample, sample, extraMillis_eq h draw draw']

theorem LengthWindow.sample?_eq {w : LengthWindow} (h : w.jitter = 0) (chars : Nat)
    (draw draw' : Float) : w.sample? chars draw = w.sample? chars draw' := by
  rw [sample?, sample?, extraMillis_eq h draw draw']

namespace Pacing.Unvaried

variable {p : Pacing}

theorem smartDelay?_eq (h : p.Unvaried) (n : Node) (draw draw' : Float) :
    p.smartDelay? n draw = p.smartDelay? n draw' := by
  have htext : p.text.jitter = 0 := h _ (by simp [jitters])
  have haudio : p.audio.jitter = 0 := h _ (by simp [jitters])
  have himage : p.image.jitter = 0 := h _ (by simp [jitters])
  unfold smartDelay?
  rw [LengthWindow.sample?_eq htext _ draw draw', Window.sample_eq haudio draw draw',
    Window.sample_eq himage draw draw']

theorem systemPause?_eq (h : p.Unvaried) (n : Node) (draw draw' : Float) :
    p.systemPause? n draw = p.systemPause? n draw' := by
  have hsystem : p.system.jitter = 0 := h _ (by simp [jitters])
  unfold systemPause?
  rw [LengthWindow.sample?_eq hsystem _ draw draw']

theorem autoRead?_eq (h : p.Unvaried) (n : Node) (draw draw' : Float) :
    p.autoRead? n draw = p.autoRead? n draw' := by
  have hread : p.autoRead.jitter = 0 := h _ (by simp [jitters])
  exact LengthWindow.sample?_eq hread _ draw draw'

end Pacing.Unvaried

/-- A span that neither the factor on waiting nor, where pauses do not vary, the draw matters
for. -/
structure Drawable {α : Type} (f : Pacing → Float → α) : Prop where
  scale : ∀ p scale draw, f (p.atScale scale) draw = f p draw
  unvaried : ∀ p, p.Unvaried → ∀ draw draw', f p draw = f p draw'

/-! ## What an operation sees -/

namespace World

/-- What an operation can go by in a world that asks no interrupt: neither what is around the
story, nor what happened before. -/
def core (w : World) : World :=
  { w with
    engine := { w.engine with
      config := { w.engine.config with pacing := w.engine.config.pacing.atScale 0.0 }
      interrupts := [] }
    saves := .reliable (.memory .empty)
    clock := 0
    patience := .endless
    draws := fun _ => 0.0
    journal := [] }

/-- The world with a script to be walked, or none. -/
def holding (w : World) (graph : Option Graph) : World :=
  { w with engine := { w.engine with graph } }

/-- What an operation can go by that looks into no script. -/
def bare (w : World) : World :=
  { w.core.holding none with shelf := fun id => .error (.notFound id) }

/-- What the slots answer to a call, and the world behind it. -/
def answer (w : World) (call : SlotCall) : Except SaveFault (Option String) × World :=
  ((w.saves.answer call).1,
    { w with saves := (w.saves.answer call).2 }.note (.call call w.clock))

end World

theorem Narrative.vars_markRead (n : Narrative) : n.markRead.2.vars = n.vars := by
  unfold markRead
  split <;> rfl

/-- Where there is no message to be marked, nothing changes. -/
theorem Narrative.markRead_of_none (n : Narrative) (h : n.markRead.1 = none) :
    n.markRead.2 = n := by
  unfold markRead at h ⊢
  split
  · rfl
  · next hmarked =>
    rw [hmarked] at h
    cases h

/-- Actions set variables, and declare none. -/
theorem Narrative.schema_acts (as : List Action) (n : Narrative) :
    (as.foldl act n).vars.schema = n.vars.schema := by
  induction as generalizing n with
  | nil => rfl
  | cons a as ih =>
    have hfirst : (n.act a).vars.schema = n.vars.schema := by
      cases a with
      | set name value => exact Variables.schema_set _ _ _
      | setOnline | setBlocked | unknown => rfl
    exact (ih (n.act a)).trans hfirst

namespace Act

variable {α β : Type}

/-! ## Parts of a visit -/

/-- The story goes on behind a node. -/
def follow (n : Node) : Act (Option String) := do
  perform n.actions
  goOn (← look fun w => n.resolveNext w.engine.narrative.vars)

/-- What comes behind a message: it is read, and the story goes on. -/
def settle (n : Node) : Act (Option String) := do
  readBehind n
  follow n

/-- Do what a node says, with what comes behind a message. -/
def attend (n : Node) (behind : Act (Option String)) : Act Visit :=
  match n.kind with
  | .partEnd => Visit.halt <$> endPart n
  | .choice => do
    offer n
    return .halt .awaitingChoice
  | .typingFake => Visit.ofNext <$> fakeTyping n
  | _ => Visit.ofNext <$> do
    readFirst n
    prepare n
    speak n
    behind

theorem perform_plain (n : Node) : perform n.plain.actions = perform n.actions := by
  unfold perform Node.plain
  simp only [Narrative.acts_known]

theorem follow_plain (n : Node) : follow n.plain = follow n := by
  unfold follow
  rw [perform_plain]
  simp only [Node.resolveNext_plain]

theorem fakeTyping_plain (n : Node) : fakeTyping n.plain = fakeTyping n := by
  unfold fakeTyping
  rw [perform_plain]
  rfl

theorem prepare_plain (n : Node) : prepare n.plain = prepare n := by
  have hindicator : indicatorBefore n.plain = indicatorBefore n := by
    unfold indicatorBefore Node.plain
    cases n.kind <;> rfl
  unfold prepare
  simp only [Node.smartDelay?_plain, hindicator]
  rfl

theorem speak_plain (n : Node) : speak n.plain = speak n := by
  have hmessage (w : World) : messageOf w n.plain = messageOf w n := by
    unfold messageOf Node.plain
    rw [NodeKind.medium_plain]
  unfold speak
  simp only [hmessage]
  rfl

/-- What nobody knows in a node matters for nothing but what comes behind its message. -/
theorem attend_plain (n : Node) (behind : Act (Option String)) :
    attend n.plain behind = attend n behind := by
  have hsay : (readFirst n.plain >>= fun _ => prepare n.plain >>= fun _ => speak n.plain >>=
      fun _ => behind) = (readFirst n >>= fun _ => prepare n >>= fun _ => speak n >>= fun _ =>
      behind) := by
    rw [prepare_plain, speak_plain]
    rfl
  have hfake := fakeTyping_plain n
  have hkind : n.plain.kind = n.kind.plain := rfl
  unfold attend
  rw [hkind, hfake, hsay]
  cases n.kind <;> rfl

theorem visit_eq (id : String) : visit id = look (·.findNode? id) >>= fun
    | none => pure (.halt (.missingNode id))
    | some n => change (·.tell (·.goTo (some id))) >>= fun _ => attend n (settle n) := by
  unfold visit attend
  refine congrArg (look (·.findNode? id) >>= ·) (funext fun found => ?_)
  cases found with
  | none => rfl
  | some n =>
    refine congrArg (change (·.tell (·.goTo (some id))) >>= ·) (funext fun _ => ?_)
    rw [deliver_eq]
    cases n.kind <;> rfl

/-! ### Changes in their parts -/

theorem display_eq (i : Indicator) : change (·.display i) =
    look (·.engine.narrative.flags.indicator) >>= fun shown =>
      if shown = i then pure ()
      else change (·.tell (·.indicate i)) >>= fun _ => change (·.emit (.indicator i)) := by
  funext w
  rw [bind_apply, look_apply, change_apply]
  dsimp only
  unfold World.display
  split <;> rfl

/-- Tell that a message was read, if one was. -/
def tellRead : Option String → Act Unit
  | none => pure ()
  | some id => change (·.emit (.read id))

theorem readAnswer_eq : readAnswer = (do
    change (·.display .reading)
    pauseIn (·.reading)
    let read ← look (·.engine.narrative.markRead.1)
    change (·.tell (·.markRead.2))
    tellRead read
    change (·.display .idle)
    pauseIn (·.thinking)
    change (·.tell (·.answer false))) := by
  obtain ⟨read, heq, hread⟩ : ∃ read : World → World, readAnswer = (do
      change (·.display .reading)
      pauseIn (·.reading)
      change read
      change (·.display .idle)
      pauseIn (·.thinking)
      change (·.tell (·.answer false))) ∧ ∀ (next : Act Unit) (w : World), next (read w) =
        (tellRead w.engine.narrative.markRead.1 >>= fun _ => next) (w.tell (·.markRead.2)) := by
    refine ⟨_, rfl, fun next w => ?_⟩
    -- where no message was marked, the conversation is put back as it was
    have hsame := w.engine.narrative.markRead_of_none
    have htold : w.tell (·.markRead.2) = w.tell fun _ => w.engine.narrative.markRead.2 := rfl
    rw [htold]
    generalize w.engine.narrative.markRead = marked at hsame ⊢
    obtain ⟨_ | id, narrative⟩ := marked
    · obtain rfl : narrative = w.engine.narrative := hsame rfl
      rfl
    · rfl
  rw [heq]
  refine congrArg (change (·.display .reading) >>= ·) (funext fun _ => ?_)
  refine congrArg (pauseIn (·.reading) >>= ·) (funext fun _ => funext fun w => ?_)
  exact hread (do
    change (·.display .idle)
    pauseIn (·.thinking)
    change (·.tell (·.answer false))) w

/-! ## Comparisons -/

/-- A way to compare operations: it says of two of them whether they go together, given which
of their results do. -/
abbrev Comparison : Type 1 := (α : Type) → (α → α → Prop) → Act α → Act α → Prop

/-- What a comparison must bear of all that is done to a world while a story is played, scripts
apart. -/
structure Rules (J : Comparison) : Prop where
  pure {α : Type} {V : α → α → Prop} {a a' : α} : V a a' → J α V (pure a) (pure a')
  bind {α β : Type} {U : β → β → Prop} {V : α → α → Prop} {first first' : Act β}
    {next next' : β → Act α} : J β U first first' → (∀ b b', U b b' → J α V (next b) (next' b')) →
    J α V (first >>= next) (first' >>= next')
  stop {α : Type} {V : α → α → Prop} (s : Stop) : J α V (stop s) (stop s)
  cleaning {α : Type} {V : α → α → Prop} {cleanup : World → World} {act act' : Act α} :
    J Unit Eq (change cleanup) (change cleanup) → J α V act act' →
    J α V (cleaning cleanup act) (cleaning cleanup act')
  see {α : Type} {f : World → α} : (∀ w, f w.bare = f w) → J α Eq (look f) (look f)
  sample {α : Type} {f : Pacing → Float → α} : Drawable f →
    J α Eq (look fun w => f w.engine.config.pacing w.draw)
      (look fun w => f w.engine.config.pacing w.draw)
  /-- The conversation may change, but not which variables are declared. -/
  telling {f : Narrative → Narrative} : (∀ n, (f n).vars.schema = n.vars.schema) →
    J Unit Eq (change (·.tell f)) (change (·.tell f))
  emitting (e : Event) : J Unit Eq (change (·.emit e)) (change (·.emit e))
  playing (c : Cue) : J Unit Eq (change (·.play c)) (change (·.play c))
  /-- Whether a text could be put into the slot for progress is not looked at. -/
  saving : J Unit Eq (change World.saved) (change World.saved)
  suspend : J Unit Eq suspend suspend
  pause (span : Duration) : J Unit Eq (pause span) (pause span)

namespace Rules

variable {J : Comparison} {V : α → α → Prop}

/-! ## Operations that go together with themselves -/

/-- What comes behind results that are the same. -/
theorem seq (hJ : Rules J) {first first' : Act β} {next next' : β → Act α}
    (h : J β Eq first first') (h' : ∀ b, J α V (next b) (next' b)) :
    J α V (first >>= next) (first' >>= next') := by
  refine hJ.bind h fun b b' hb => ?_
  subst hb
  exact h' b

theorem done (hJ : Rules J) (a : α) : J α Eq (Pure.pure a) (Pure.pure a) := hJ.pure rfl

theorem map (hJ : Rules J) (f : α → β) {act act' : Act α} (h : J α Eq act act') :
    J β Eq (f <$> act) (f <$> act') := by
  rw [map_eq_pure_bind, map_eq_pure_bind]
  exact hJ.seq h fun a => hJ.done (f a)

theorem ite {c : Prop} [Decidable c] {act act' other other' : Act α} (h : J α V act act')
    (h' : J α V other other') : J α V (if c then act else other) (if c then act' else other') := by
  split
  · exact h
  · exact h'

/-- The conversation may be looked at. -/
theorem lookAt (hJ : Rules J) (f : Narrative → α) :
    J α Eq (look fun w => f w.engine.narrative) (look fun w => f w.engine.narrative) :=
  hJ.see fun _ => rfl

theorem displaying (hJ : Rules J) (i : Indicator) :
    J Unit Eq (change (·.display i)) (change (·.display i)) := by
  rw [display_eq]
  exact hJ.seq (hJ.lookAt (·.flags.indicator)) fun _ => ite (hJ.done ())
    (hJ.seq (hJ.telling fun _ => rfl) fun _ => hJ.emitting _)

theorem drawn (hJ : Rules J) {f : Pacing → Float → Option Duration} (hf : Drawable f) :
    J Duration Eq (drawn f) (drawn f) := by
  refine hJ.seq (hJ.sample hf) fun span => ?_
  cases span with
  | none => exact hJ.stop _
  | some span => exact hJ.done span

theorem pauseIn (hJ : Rules J) {f : Pacing → Window} (hf : ∀ p scale, f (p.atScale scale) = f p)
    (hj : ∀ p, (f p).jitter ∈ p.jitters) : J Unit Eq (pauseIn f) (pauseIn f) := by
  have hdraw : Drawable fun p draw => (f p).sample draw :=
    ⟨fun p scale draw => by rw [hf],
      fun p hp draw draw' => Window.sample_eq (hp _ (hj p)) draw draw'⟩
  exact hJ.seq (hJ.sample hdraw) fun span => hJ.pause span

theorem persist (hJ : Rules J) : J Unit Eq persist persist := by
  have hpersist : Act.persist = Act.suspend >>= fun _ => change World.saved := funext persist_apply
  rw [hpersist]
  exact hJ.seq hJ.suspend fun _ => hJ.saving

/-! ### Single nodes -/

theorem perform (hJ : Rules J) (actions : List Action) :
    J Unit Eq (perform actions) (perform actions) := hJ.telling (Narrative.schema_acts actions)

theorem goOn (hJ : Rules J) (next : Option String) :
    J (Option String) Eq (goOn next) (goOn next) :=
  hJ.seq (hJ.telling fun _ => rfl) fun _ => hJ.seq hJ.persist fun _ => hJ.done next

theorem tellRead (hJ : Rules J) (read : Option String) :
    J Unit Eq (tellRead read) (tellRead read) := by
  cases read with
  | none => exact hJ.done ()
  | some id => exact hJ.emitting _

theorem readAnswer (hJ : Rules J) : J Unit Eq readAnswer readAnswer := by
  rw [readAnswer_eq]
  refine hJ.seq (hJ.displaying _) fun _ => hJ.seq (hJ.pauseIn (fun _ _ => rfl) fun p => ?_)
    fun _ => ?_
  · simp [Pacing.jitters]
  refine hJ.seq (hJ.lookAt (·.markRead.1)) fun read => hJ.seq (hJ.telling fun n => ?_) fun _ =>
    hJ.seq (hJ.tellRead read) fun _ => hJ.seq (hJ.displaying _) fun _ => ?_
  · rw [Narrative.vars_markRead]
  refine hJ.seq (hJ.pauseIn (fun _ _ => rfl) fun p => ?_) fun _ => hJ.telling fun _ => rfl
  simp [Pacing.jitters]

theorem readFirst (hJ : Rules J) (n : Node) : J Unit Eq (readFirst n) (readFirst n) :=
  hJ.seq (hJ.lookAt (·.flags.answered)) fun _ => ite hJ.readAnswer (hJ.done ())

theorem prepare (hJ : Rules J) (n : Node) : J Unit Eq (prepare n) (prepare n) := by
  unfold Act.prepare
  cases n.sender with
  | player => exact hJ.done ()
  | system =>
    have hdraw : Drawable fun p draw => p.systemPause? n draw :=
      ⟨fun _ _ _ => rfl, fun p hp => hp.systemPause?_eq n⟩
    exact hJ.seq (hJ.drawn hdraw) fun span => hJ.pause span
  | npc name =>
    have hdraw : Drawable fun p draw => p.smartDelay? n draw :=
      ⟨fun _ _ _ => rfl, fun p hp => hp.smartDelay?_eq n⟩
    have hseen : J Unit Eq (change fun w => (w.display (indicatorBefore n)).play .typing)
        (change fun w => (w.display (indicatorBefore n)).play .typing) :=
      hJ.seq (hJ.displaying _) fun _ => hJ.playing .typing
    exact hJ.seq (hJ.drawn hdraw) fun span => ite (hJ.done ())
      (hJ.seq hseen fun _ => hJ.seq (hJ.pause span) fun _ => hJ.displaying _)

theorem post {message : World → Message} (hJ : Rules J)
    (hm : ∀ w, message w.bare = message w) : J Unit Eq (post message) (post message) := by
  have hpost : Act.post message = look message >>= fun m =>
      change (·.tell (·.append m)) >>= fun _ => change (·.emit (.message m)) := rfl
  rw [hpost]
  exact hJ.seq (hJ.see hm) fun m => hJ.seq (hJ.telling fun _ => rfl) fun _ => hJ.emitting _

theorem speak (hJ : Rules J) (n : Node) : J Unit Eq (speak n) (speak n) :=
  hJ.seq (hJ.post fun _ => rfl) fun _ => ite (hJ.playing _) (hJ.done ())

theorem readBehind (hJ : Rules J) (n : Node) : J Unit Eq (readBehind n) (readBehind n) := by
  have hdraw : Drawable fun p draw => p.autoRead? n draw :=
    ⟨fun _ _ _ => rfl, fun p hp => hp.autoRead?_eq n⟩
  exact ite (hJ.seq (hJ.drawn hdraw) fun span => hJ.pause span) (hJ.done ())

theorem settle (hJ : Rules J) (n : Node) : J (Option String) Eq (settle n) (settle n) :=
  hJ.seq (hJ.readBehind n) fun _ => hJ.seq (hJ.perform n.actions) fun _ =>
    hJ.seq (hJ.lookAt fun c => n.resolveNext c.vars) fun next => hJ.goOn next

theorem pretend (hJ : Rules J) (sender : Sender) (left : Nat) :
    J Unit Eq (pretend sender left) (pretend sender left) := by
  -- on how often it is still pretended: there is no pause behind the last time
  induction left with
  | zero => exact hJ.done ()
  | succ left ih =>
    have hseen : J Unit Eq (change fun w => (w.display (.typing sender)).play .typing)
        (change fun w => (w.display (.typing sender)).play .typing) :=
      hJ.seq (hJ.displaying _) fun _ => hJ.playing .typing
    refine hJ.seq hseen fun _ => hJ.seq (hJ.pauseIn (fun _ _ => rfl) fun p => ?_) fun _ =>
      hJ.seq (hJ.displaying _) fun _ => ite (hJ.done ())
        (hJ.seq (hJ.pauseIn (fun _ _ => rfl) fun p => ?_) fun _ => ih)
    · simp [Pacing.jitters]
    · simp [Pacing.jitters]

theorem fakeTyping (hJ : Rules J) (n : Node) :
    J (Option String) Eq (fakeTyping n) (fakeTyping n) :=
  hJ.seq (hJ.see fun _ => rfl) fun cycles => hJ.seq (hJ.pretend n.sender cycles) fun _ =>
    hJ.seq (hJ.perform n.actions) fun _ => hJ.goOn n.next

theorem offer (hJ : Rules J) (n : Node) : J Unit Eq (offer n) (offer n) := by
  have hoffer : Act.offer n = look (optionsOf · n) >>= fun options =>
      change (·.tell (·.present options)) >>= fun _ => change (·.emit (.choices options)) := rfl
  rw [hoffer]
  exact hJ.seq (hJ.see fun _ => rfl) fun _ => hJ.seq (hJ.telling fun _ => rfl) fun _ =>
    hJ.emitting _

theorem takeChoice (hJ : Rules J) (c : Choice) : J Unit Eq (takeChoice c) (takeChoice c) :=
  hJ.seq (hJ.telling fun _ => rfl) fun _ => hJ.seq (hJ.post fun _ => rfl) fun _ =>
    hJ.seq (hJ.playing _) fun _ => hJ.telling fun n => n.vars.schema_applyImpact c.impact

end Rules

/-! ## Scripts that go together -/

/-- What a comparison must bear if nodes go together as `T` says, and scripts as `G` says. Nodes
that do are the same but for what nobody knows, so what comes behind their messages is all that
is left to be shown of them. -/
structure Lockstep (J : Comparison) (T : Node → Node → Prop) (G : Graph → Graph → Prop) : Prop
    extends Rules J where
  plain {n n' : Node} : T n n' → n'.plain = n.plain
  title {g g' : Graph} : G g g' → g'.title = g.title
  find (id : String) :
    J (Option Node) (Option.Rel T) (look (·.findNode? id)) (look (·.findNode? id))
  entrance : J String Eq (look World.entrance) (look World.entrance)
  shelf (id : ScriptId) : J (Except LoadFault Graph) (Fetched G)
    (look fun w => (w.shelf id).map Graph.ofDocument)
    (look fun w => (w.shelf id).map Graph.ofDocument)
  holding {graph graph' : Option Graph} : Option.Rel G graph graph' →
    J Unit Eq (change (·.holding graph)) (change (·.holding graph'))
  settle {n n' : Node} : T n n' → J (Option String) Eq (settle n) (settle n')

/-- Whether the same interrupts are asked, which only a choice looks at. -/
def Heeds (J : Comparison) : Prop :=
  J (List Interrupt) Eq (look (·.engine.interrupts)) (look (·.engine.interrupts))

namespace Lockstep

variable {J : Comparison} {T : Node → Node → Prop} {G : Graph → Graph → Prop}
  {V : α → α → Prop}

/-- What comes behind the answer of the shelf. -/
theorem fetching (hJ : Lockstep J T G) (id : ScriptId)
    {next next' : Except LoadFault Graph → Act α}
    (hlost : ∀ fault, J α V (next (.error fault)) (next' (.error fault)))
    (hfound : ∀ g g', G g g' → J α V (next (.ok g)) (next' (.ok g'))) :
    J α V (fetch id >>= next) (fetch id >>= next') := by
  have hfetch : J _ (Fetched G) (fetch id) (fetch id) :=
    hJ.seq hJ.suspend fun _ => hJ.shelf id
  refine hJ.bind hfetch fun found found' h => ?_
  cases h with
  | lost fault => exact hlost fault
  | found h => exact hfound _ _ h

theorem installPart (hJ : Lockstep J T G) {g g' : Graph} (h : G g g') :
    J Unit Eq (installPart g) (installPart g') := by
  have hinstall (g : Graph) : Act.installPart g =
      change (·.tell ({ · with title := g.title, activeScript := none })) >>= fun _ =>
        change (·.holding (some g)) := rfl
  -- of a script the conversation takes the title, which is the same in both
  rw [hinstall, hinstall, hJ.title h]
  exact hJ.seq (hJ.telling fun _ => rfl) fun _ => hJ.holding (.some h)

theorem installNamed (hJ : Lockstep J T G) (name : String) {g g' : Graph} (h : G g g') :
    J Unit Eq (installNamed name g) (installNamed name g') := by
  have hinstall (g : Graph) : Act.installNamed name g =
      change (·.tell ({ · with activeScript := some name })) >>= fun _ =>
        change (·.holding (some g)) := rfl
  rw [hinstall, hinstall]
  exact hJ.seq (hJ.telling fun _ => rfl) fun _ => hJ.holding (.some h)

theorem endPart (hJ : Lockstep J T G) (n : Node) : J Halt Eq (endPart n) (endPart n) := by
  refine hJ.seq (hJ.telling fun _ => rfl) fun _ => ?_
  -- whatever was found of the next part, this is how the part ends
  have hend (title : Option String) : J Halt Eq
      (Act.persist >>= fun _ => Act.change (·.emit (.partEnded n.nextPart title)) >>= fun _ =>
        Pure.pure (Halt.partEnd n.nextPart))
      (Act.persist >>= fun _ => Act.change (·.emit (.partEnded n.nextPart title)) >>= fun _ =>
        Pure.pure (Halt.partEnd n.nextPart)) :=
    hJ.seq hJ.persist fun _ => hJ.seq (hJ.emitting _) fun _ => hJ.done _
  cases hn : n.nextPart with
  | none =>
    rw [hn] at hend
    exact hJ.seq (hJ.done none) hend
  | some part =>
    rw [hn] at hend
    refine hJ.seq (hJ.telling fun _ => rfl) fun _ =>
      hJ.seq (hJ.lookAt (·.chapter)) fun chapter => ?_
    refine hJ.fetching _ (fun fault => hJ.seq (hJ.done none) hend) fun g g' hg => ?_
    refine hJ.seq (hJ.installPart hg) fun _ => hJ.seq (hJ.telling fun _ => rfl) fun _ => ?_
    rw [hJ.title hg]
    exact hJ.seq (hJ.done _) hend

/-! ### The walk -/

/-- Of nodes that go together the same is done. -/
theorem attend (hJ : Lockstep J T G) {n n' : Node} (h : T n n') :
    J Visit Eq (attend n (Act.settle n)) (attend n' (Act.settle n')) := by
  rw [← attend_plain n, ← attend_plain n', hJ.plain h]
  have hbehind := hJ.settle h
  -- both nodes have one plain form, and nothing but what comes behind a message is asked of them
  generalize n.plain = n₀
  unfold Act.attend
  have hsay := hJ.seq (hJ.readFirst n₀) fun _ => hJ.seq (hJ.prepare n₀) fun _ =>
    hJ.seq (hJ.speak n₀) fun _ => hbehind
  cases n₀.kind with
  | partEnd => exact hJ.map _ (hJ.endPart n₀)
  | choice => exact hJ.seq (hJ.offer n₀) fun _ => hJ.done _
  | typingFake => exact hJ.map _ (hJ.fakeTyping n₀)
  | message | text | audio | image | other => exact hJ.map _ hsay

/-- The step lemma: a visit goes together with itself. -/
theorem visit (hJ : Lockstep J T G) (id : String) : J Visit Eq (visit id) (visit id) := by
  rw [visit_eq]
  refine hJ.bind (hJ.find id) fun found found' h => ?_
  cases h with
  | none => exact hJ.done _
  | some h => exact hJ.seq (hJ.telling fun _ => rfl) fun _ => hJ.attend h

/-- The run lemma: so does a walk. -/
theorem walk (hJ : Lockstep J T G) (left : Nat) (id : String) :
    J Halt Eq (walk left id) (walk left id) := by
  -- on how many nodes may still be visited, from any of them on
  induction left generalizing id with
  | zero => exact hJ.stop _
  | succ left ih =>
    refine hJ.seq (hJ.visit id) fun v => ?_
    cases v with
    | halt halt => exact hJ.done halt
    | next id' => exact ih id'

theorem advance (hJ : Lockstep J T G) (id : String) (force : Bool) :
    J Walked Eq (advance id force) (advance id force) := by
  have hshown (f : Narrative → Narrative) (hf : ∀ n, (f n).vars.schema = n.vars.schema)
      (i : Indicator) : J Unit Eq (change fun w => (w.tell f).display i)
        (change fun w => (w.tell f).display i) :=
    hJ.seq (hJ.telling hf) fun _ => hJ.displaying i
  have hguarded : J Halt Eq (guardedWalk id) (guardedWalk id) := by
    refine hJ.seq (hJ.telling fun _ => rfl) fun _ =>
      hJ.cleaning (hshown (·.process false) (fun _ => rfl) .idle) ?_
    exact hJ.seq (hJ.see fun _ => rfl) fun reach => hJ.walk reach id
  have hwalk := hJ.seq hguarded fun halt => hJ.seq (hJ.emitting (.halted halt)) fun _ =>
    hJ.done (Walked.halted halt)
  refine hJ.seq (hJ.lookAt (·.flags.processing)) fun busy => Rules.ite (hJ.done _) ?_
  cases force with
  | false => exact hwalk
  | true => exact hJ.seq (hshown (·.clearChoices) (fun _ => rfl) .idle) fun _ => hwalk

/-! ### Playing -/

theorem loading (hJ : Lockstep J T G) (id : ScriptId) {install : Graph → Act Unit}
    (hi : ∀ g g', G g g' → J Unit Eq (install g) (install g')) :
    J _ Eq (loading id install) (loading id install) :=
  hJ.fetching id (fun _ => hJ.done _) fun g g' hg => hJ.seq (hi g g' hg) fun _ => hJ.done _

theorem loadPart (hJ : Lockstep J T G) (chapter part : Nat) :
    J _ Eq (loadPart chapter part) (loadPart chapter part) := by
  rw [loadPart_eq]
  exact hJ.loading _ fun _ _ => hJ.installPart

theorem loadNamed (hJ : Lockstep J T G) (name : String) :
    J _ Eq (loadNamed name) (loadNamed name) := by
  rw [loadNamed_eq]
  exact hJ.loading _ fun _ _ => hJ.installNamed name

theorem enter (hJ : Lockstep J T G) (force : Bool) : J Walked Eq (enter force) (enter force) :=
  hJ.seq hJ.entrance fun id => hJ.advance id force

theorem advanceTo (hJ : Lockstep J T G) (node : Option String) (force : Bool) :
    J _ Eq (advanceTo node force) (advanceTo node force) := by
  cases node with
  | none => exact hJ.done none
  | some id => exact hJ.map _ (hJ.advance id force)

theorem startChapter (hJ : Lockstep J T G) (chapter part : Nat) :
    J _ Eq (startChapter chapter part) (startChapter chapter part) := by
  refine hJ.seq (hJ.lookAt (·.flags.processing)) fun busy => Rules.ite (hJ.done _) ?_
  refine hJ.seq (hJ.loadPart chapter part) fun loaded => ?_
  cases loaded with
  | error fault => exact hJ.done _
  | ok _ => exact hJ.seq (hJ.telling fun _ => rfl) fun _ => hJ.map _ (hJ.enter false)

theorem resumeFrom (hJ : Lockstep J T G) (chapter part : Nat) (node : Option String) :
    J _ Eq (resumeFrom chapter part node) (resumeFrom chapter part node) := by
  refine hJ.seq (hJ.lookAt (·.flags.processing)) fun busy => Rules.ite (hJ.done _) ?_
  refine hJ.seq (hJ.loadPart chapter part) fun loaded => ?_
  cases loaded with
  | error fault => exact hJ.done _
  | ok _ => exact hJ.seq (hJ.telling fun _ => rfl) fun _ => hJ.map _ (hJ.advanceTo node false)

theorem resumeNamed (hJ : Lockstep J T G) (name : String) (node : Option String) :
    J _ Eq (resumeNamed name node) (resumeNamed name node) := by
  refine hJ.seq (hJ.loadNamed name) fun loaded => ?_
  cases loaded with
  | error fault => exact hJ.done _
  | ok _ => exact hJ.map _ (hJ.advanceTo node false)

theorem beginPending (hJ : Lockstep J T G) : J _ Eq beginPending beginPending := by
  refine hJ.seq (hJ.lookAt id) fun n => Rules.ite (hJ.done _) (Rules.ite (hJ.done _) ?_)
  exact hJ.seq (hJ.telling fun _ => rfl) fun _ => hJ.map _ (hJ.enter false)

theorem divert (hJ : Lockstep J T G) (name : String) : J _ Eq (divert name) (divert name) := by
  refine hJ.seq (hJ.loadNamed name) fun loaded => ?_
  cases loaded with
  | error fault => exact hJ.done none
  | ok _ =>
    refine hJ.seq hJ.entrance fun entry => hJ.seq (hJ.telling fun _ => rfl) fun _ => ?_
    exact hJ.seq hJ.persist fun _ => hJ.map _ (hJ.advance entry true)

theorem interrupt (hJ : Lockstep J T G) (heed : Heeds J) (before after : Variables) :
    J _ Eq (interrupt before after) (interrupt before after) := by
  refine hJ.seq heed fun interrupts => ?_
  cases firstInterrupt interrupts before after with
  | none => exact hJ.done none
  | some name => exact hJ.seq (hJ.divert name) fun walked => hJ.done _

theorem choose (hJ : Lockstep J T G) (heed : Heeds J) (index : Nat) :
    J _ Eq (choose index) (choose index) := by
  refine hJ.seq (hJ.lookAt id) fun n => Rules.ite (hJ.done _) ?_
  cases n.flags.choices[index]? with
  | none => exact hJ.done _
  | some c =>
    refine hJ.seq (hJ.takeChoice c) fun _ => hJ.seq (hJ.lookAt (·.vars)) fun vars => ?_
    refine hJ.seq (hJ.interrupt heed n.vars vars) fun diverted => ?_
    cases diverted with
    | none => exact hJ.seq (hJ.goOn c.next) fun next => hJ.map _ (hJ.advanceTo next true)
    | some found => exact hJ.done _

end Lockstep

/-! ## Slots that answer the same -/

/-- What the slots answer to a call, once they are asked. -/
def answered (call : SlotCall) : Act (Except SaveFault (Option String)) :=
  fun w => .ok (w.answer call).1 (w.answer call).2

/-- A call on the slots. -/
def askSlots (call : SlotCall) : Act (Except SaveFault (Option String)) :=
  suspend >>= fun _ => answered call

theorem getSlot_eq (key : String) : getSlot key = askSlots (.get key) := rfl

theorem setSlot_eq (key text : String) :
    setSlot key text = Except.map (fun _ => ()) <$> askSlots (.set key text) := by
  unfold setSlot askSlots
  rw [map_bind]
  refine congrArg (suspend >>= ·) (funext fun _ => funext fun w => ?_)
  rw [map_apply]
  change EStateM.Result.ok (w.saves.set key text).1 (w.put key text) =
    .ok (((w.saves.set key text).1.map fun _ => none).map fun _ => ()) (w.put key text)
  cases (w.saves.set key text).1 <;> rfl

theorem removeSlot_eq (key : String) :
    removeSlot key = Except.map (fun _ => ()) <$> askSlots (.remove key) := by
  unfold removeSlot askSlots
  rw [map_bind]
  refine congrArg (suspend >>= ·) (funext fun _ => funext fun w => ?_)
  rw [map_apply]
  change EStateM.Result.ok (w.saves.remove key).1 (w.emptied key) =
    .ok (((w.saves.remove key).1.map fun _ => none).map fun _ => ()) (w.emptied key)
  cases (w.saves.remove key).1 <;> rfl

/-- What a comparison must bear if it is also asked what the two slots hold. -/
structure Concord (J : Comparison) (T : Node → Node → Prop) (G : Graph → Graph → Prop) : Prop
    extends Lockstep J T G where
  ask {key : Config → String} {call : String → SlotCall} :
    key = Config.progressKey ∨ key = Config.nameKey → (∀ k, (call k).key = k) →
    J _ Eq (look (fun w => key w.engine.config) >>= fun k => askSlots (call k))
      (look (fun w => key w.engine.config) >>= fun k => askSlots (call k))

namespace Concord

variable {J : Comparison} {T : Node → Node → Prop} {G : Graph → Graph → Prop}
  {V : α → α → Prop} {key : Config → String}

/-- What comes behind a call whose success alone is looked at. -/
theorem calling (hJ : Concord J T G) (hkey : key = Config.progressKey ∨ key = Config.nameKey)
    {call : String → SlotCall} (hcall : ∀ k, (call k).key = k)
    {act : String → Act (Except SaveFault Unit)}
    (hact : ∀ k, act k = Except.map (fun _ => ()) <$> askSlots (call k))
    {next next' : Except SaveFault Unit → Act α} (h : ∀ done, J α V (next done) (next' done)) :
    J α V (look (fun w => key w.engine.config) >>= fun k => act k >>= next)
      (look (fun w => key w.engine.config) >>= fun k => act k >>= next') := by
  simp only [hact, map_eq_pure_bind, bind_assoc, pure_bind]
  rw [← bind_assoc, ← bind_assoc]
  exact hJ.seq (hJ.ask hkey hcall) fun found => h _

theorem setSlot (hJ : Concord J T G) (hkey : key = Config.progressKey ∨ key = Config.nameKey)
    (text : String) :
    J _ Eq (look (fun w => key w.engine.config) >>= fun k => setSlot k text)
      (look (fun w => key w.engine.config) >>= fun k => setSlot k text) := by
  have h := hJ.calling hkey (fun _ => rfl) (fun k => setSlot_eq k text) fun done => hJ.done done
  simpa only [bind_pure] using h

/-- What comes behind the text in a slot. -/
theorem reading (hJ : Concord J T G) (hkey : key = Config.progressKey ∨ key = Config.nameKey)
    {next next' : Except SaveFault (Option String) → Act α}
    (h : ∀ found, J α V (next found) (next' found)) :
    J α V (look (fun w => key w.engine.config) >>= fun k => getSlot k >>= next)
      (look (fun w => key w.engine.config) >>= fun k => getSlot k >>= next') := by
  simp only [getSlot_eq]
  rw [← bind_assoc, ← bind_assoc]
  exact hJ.seq (hJ.ask hkey fun _ => rfl) h

theorem setPlayerName (hJ : Concord J T G) (name : String) :
    J _ Eq (setPlayerName name) (setPlayerName name) :=
  hJ.seq (hJ.telling fun _ => rfl) fun _ => hJ.setSlot (.inr rfl) _

theorem loadPlayerName (hJ : Concord J T G) : J _ Eq loadPlayerName loadPlayerName := by
  refine hJ.reading (.inr rfl) fun found => ?_
  match found with
  | .error fault => exact hJ.done _
  | .ok none => exact hJ.done _
  | .ok (some name) =>
    exact Rules.ite (hJ.done _) (hJ.seq (hJ.telling fun _ => rfl) fun _ => hJ.done _)

theorem saveProgress (hJ : Concord J T G) : J _ Eq saveProgress saveProgress := by
  have hsave : Act.saveProgress = look (·.engine.narrative.snapshot.render) >>= fun text =>
      look (·.engine.config.progressKey) >>= fun key => Act.setSlot key text := rfl
  rw [hsave]
  exact hJ.seq (hJ.lookAt (·.snapshot.render)) fun text => hJ.setSlot (.inl rfl) text

theorem loadProgress (hJ : Concord J T G) : J _ Eq loadProgress loadProgress := by
  refine hJ.reading (.inl rfl) fun found => ?_
  match found with
  | .error fault => exact hJ.done _
  | .ok none => exact hJ.done _
  | .ok (some text) =>
    cases hp : Progress.parse text with
    | error fault => simpa only [hp] using hJ.done _
    | ok progress =>
      have htold : J Unit Eq (change (·.tell (·.restore progress)))
          (change (·.tell (·.restore progress))) :=
        hJ.telling fun n => n.vars.schema_restore progress.vars
      simpa only [hp] using hJ.seq htold fun _ => hJ.done _

theorem resumeSaved (hJ : Concord J T G) : J _ Eq resumeSaved resumeSaved := by
  refine hJ.seq (hJ.lookAt (·.flags.processing)) fun busy => Rules.ite (hJ.done _) ?_
  refine hJ.seq hJ.loadPlayerName fun _ => hJ.seq hJ.loadProgress fun found => ?_
  match found with
  | .error fault => exact hJ.done _
  | .ok false => exact hJ.done _
  | .ok true =>
    refine hJ.seq (hJ.lookAt id) fun n => ?_
    cases n.activeScript with
    | none => exact hJ.resumeFrom n.chapter n.part n.currentNode
    | some name => exact hJ.resumeNamed name n.currentNode

theorem resetNarrative (hJ : Concord J T G) : J _ Eq resetNarrative resetNarrative := by
  refine hJ.seq (hJ.telling fun n => n.vars.schema_reset) fun _ => ?_
  refine hJ.calling (.inl rfl) (fun _ => rfl) removeSlot_eq fun progress => ?_
  exact hJ.calling (.inr rfl) (fun _ => rfl) removeSlot_eq fun name => hJ.done _

theorem resetGame (hJ : Concord J T G) : J _ Eq resetGame resetGame :=
  hJ.seq (hJ.holding .none) fun _ => hJ.resetNarrative

end Concord

end Act

end StoryChat
