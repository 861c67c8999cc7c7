/-
What the nodes of a script ask for, and what a walk spends on them.

Where pauses do not vary, a script says how long it takes to be told. Each node on the route of
a walk asks for some spans (`Config.spans`): somebody types before a message, the player reads
it, typing is pretended in bursts. The only thing in this that a node cannot know is whether
the player has just chosen, for then whoever speaks first has to read that and to think about
it. So the `timetable` of a walk is computed from the nodes of its route and one flag that is
carried along them.

What a walk spends is counted on a `Meter`: the pauses that were made, the clock, and the flag.
Nothing else that is done on the way moves the meter, so what a visit spends is a sum, and so
is what a walk spends.
-/
import Mathlib.Algebra.Ring.Nat
import StoryChat.Proofs.Decimal.Packing
import StoryChat.Proofs.Engine.Patience
import StoryChat.Proofs.Engine.Route

set_option autoImplicit false

namespace StoryChat

/-! ## Spans without an extra -/

/-- The span of a window without an extra. -/
def Window.still (w : Window) : Duration := .ofMillis (Float.ofNat w.base)

/-- The span of a window without an extra for a number of characters. -/
def LengthWindow.still? (w : LengthWindow) (chars : Nat) : Option Duration :=
  (w.base? chars).map fun base => .ofMillis (Float.ofNat base)

theorem Window.sample_eq_still {w : Window} (h : w.jitter = 0) (draw : Float) :
    w.sample draw = w.still := by
  rw [sample, extraMillis, if_pos h, Duration.ofMillis_add_zero, still]

theorem LengthWindow.sample?_eq_still? {w : LengthWindow} (h : w.jitter = 0) (chars : Nat)
    (draw : Float) : w.sample? chars draw = w.still? chars := by
  simp only [sample?, still?, extraMillis, if_pos h, Duration.ofMillis_add_zero]

/-! ## The timetable -/

namespace Pacing

variable (p : Pacing)

/-- The span before a message of another participant: the one that the node states, or that of
what it sends. -/
def typing? (n : Node) : Option Duration :=
  match n.explicitDelay, n.kind with
  | some ms, _ => some (.ofMillis ms)
  | none, .audio => some p.audio.still
  | none, .image => some p.image.still
  | none, _ => p.text.still? n.contentLength

/-- The span before a message of the system: the one that the node states, or that of its
length. -/
def notice? (n : Node) : Option Duration :=
  match n.explicitDelay with
  | some ms => some (.ofMillis ms)
  | none => p.system.still? n.contentLength

/-- What is waited for before a message. The player is not waited for. -/
def before (n : Node) : List Duration :=
  match n.sender with
  | .npc _ => (p.typing? n).toList
  | .system => (p.notice? n).toList
  | .player => []

/-- What is waited for behind a message: the player reads it, if anything may come behind it. -/
def behind (n : Node) : List Duration :=
  if n.hasSuccessor then (p.autoRead.still? n.contentLength).toList else []

/-- What is waited for before a choice is answered: it is read, and thought about. -/
def reaction : List Duration := [p.reading.still, p.thinking.still]

/-- Bursts of pretended typing, with a gap between each two. -/
def bursts (cycles : Nat) : List Duration :=
  (List.replicate cycles p.fakeTyping.still).intersperse p.fakeTypingPause.still

end Pacing

/-- Whether a node on a route is a message of another participant. -/
def Node.answers (n : Node) : Bool := n.kind ≠ .typingFake && n.sender.isNpc

namespace Config

variable (c : Config)

/-- How often a node pretends to type: what it says, if that is not zero. -/
def cycles (n : Node) : Nat := (n.typingCycles.filter (0 < ·)).getD c.typingCycles

/-- What a node on a route asks for, given whether a choice waits to be answered. -/
def spans (answered : Bool) (n : Node) : List Duration :=
  if n.kind = .typingFake then c.pacing.bursts (c.cycles n)
  else (if answered && n.sender.isNpc then c.pacing.reaction else []) ++
    (c.pacing.before n ++ c.pacing.behind n)

/-- What the nodes of a route ask for, one after the other. The first message of another
participant answers the choice. -/
def timetable : Bool → List Node → List Duration
  | _, [] => []
  | answered, n :: nodes => c.spans answered n ++ timetable (answered && !n.answers) nodes

end Config

/-! ### As it is drawn -/

namespace Pacing.Unvaried

variable {p : Pacing}

theorem typing?_eq (h : p.Unvaried) (n : Node) (draw : Float) :
    p.smartDelay? n draw = p.typing? n := by
  have htext : p.text.jitter = 0 := h _ (by simp [jitters])
  have haudio : p.audio.jitter = 0 := h _ (by simp [jitters])
  have himage : p.image.jitter = 0 := h _ (by simp [jitters])
  unfold smartDelay? typing?
  rw [Window.sample_eq_still haudio, Window.sample_eq_still himage,
    LengthWindow.sample?_eq_still? htext]
  cases n.explicitDelay with
  | some ms => rfl
  | none => cases n.kind <;> rfl

theorem notice?_eq (h : p.Unvaried) (n : Node) (draw : Float) :
    p.systemPause? n draw = p.notice? n := by
  have hsystem : p.system.jitter = 0 := h _ (by simp [jitters])
  unfold systemPause? notice?
  cases n.explicitDelay with
  | some ms => rfl
  | none => exact LengthWindow.sample?_eq_still? hsystem _ draw

theorem autoRead?_eq_still? (h : p.Unvaried) (n : Node) (draw : Float) :
    p.autoRead? n draw = p.autoRead.still? n.contentLength := by
  have hread : p.autoRead.jitter = 0 := h _ (by simp [jitters])
  exact LengthWindow.sample?_eq_still? hread _ draw

end Pacing.Unvaried

/-! ## The meter -/

/-- What is counted of the time that an operation takes. -/
structure Meter where
  config : Config
  /-- The player has chosen and nobody has answered yet. -/
  answered : Bool
  /-- The pauses so far, first to last and before they are scaled, without those of nothing. -/
  pauses : List Duration
  clock : Nat

namespace Meter

variable (m : Meter)

/-- The meter behind a pause. -/
def spend (span : Duration) : Meter :=
  { m with
    pauses := m.pauses ++ [span].filter (· ≠ .zero)
    clock := m.clock + (m.config.pacing.scale span).waitMillis }

/-- The meter behind some pauses. -/
def spendAll (spans : List Duration) : Meter := spans.foldl spend m

/-- The meter behind a message, which may be an answer. -/
def hear (answers : Bool) : Meter := { m with answered := m.answered && !answers }

@[simp] theorem spendAll_cons (span : Duration) (spans : List Duration) :
    m.spendAll (span :: spans) = (m.spend span).spendAll spans := rfl

theorem spendAll_append (spans spans' : List Duration) :
    m.spendAll (spans ++ spans') = (m.spendAll spans).spendAll spans' :=
  List.foldl_append ..

/-- A pause of nothing is not counted. -/
@[simp] theorem spend_zero : m.spend .zero = m := by
  have hscale : m.config.pacing.scale .zero = .zero := Duration.scale_zero _
  unfold spend
  rw [hscale, List.filter_singleton]
  simp [Duration.waitMillis, Duration.zero]

@[simp] theorem config_spendAll (spans : List Duration) :
    (m.spendAll spans).config = m.config := by
  induction spans generalizing m with
  | nil => rfl
  | cons span spans ih => exact ih (m.spend span)

@[simp] theorem answered_spendAll (spans : List Duration) :
    (m.spendAll spans).answered = m.answered := by
  induction spans generalizing m with
  | nil => rfl
  | cons span spans ih => exact ih (m.spend span)

theorem pauses_spendAll (spans : List Duration) :
    (m.spendAll spans).pauses = m.pauses ++ spans.filter (· ≠ .zero) := by
  induction spans generalizing m with
  | nil => exact (List.append_nil _).symm
  | cons span spans ih =>
    rw [spendAll_cons, ih, spend, List.append_assoc, ← List.filter_append, List.singleton_append]

theorem clock_spendAll (spans : List Duration) : (m.spendAll spans).clock =
    m.clock + (spans.map fun span => (m.config.pacing.scale span).waitMillis).sum := by
  induction spans generalizing m with
  | nil => rfl
  | cons span spans ih =>
    rw [spendAll_cons, ih, List.map_cons, List.sum_cons, ← Nat.add_assoc]
    rfl

/-- Where no choice waits, or nobody else speaks, there is nothing to be answered. -/
theorem hear_of_not {answers : Bool} (h : ¬ (m.answered && answers) = true) :
    m.hear answers = m := by
  obtain ⟨config, answered, pauses, clock⟩ := m
  cases answered <;> cases answers <;> first | rfl | exact absurd rfl h

theorem hear_hear (first second : Bool) : (m.hear first).hear second = m.hear (first || second) := by
  simp only [hear, Bool.not_or, Bool.and_assoc]

/-- It does not matter to the pauses when an answer is heard. -/
theorem spendAll_hear (answers : Bool) (spans : List Duration) :
    (m.hear answers).spendAll spans = (m.spendAll spans).hear answers := by
  induction spans generalizing m with
  | nil => rfl
  | cons span spans ih => exact ih (m.spend span)

end Meter

namespace World

variable (w : World)

/-- The pauses so far, first to last and before they are scaled, without those of nothing. -/
def pauses : List Duration :=
  (w.journal.filterMap Entry.pause?).reverse.filter (· ≠ .zero)

/-- The meter of a world. -/
def meter : Meter :=
  ⟨w.engine.config, w.engine.narrative.flags.answered, w.pauses, w.clock⟩

@[simp] theorem meter_under (p : Patience) : (w.under p).meter = w.meter := rfl

@[simp] theorem meter_emit (e : Event) : (w.emit e).meter = w.meter := by
  unfold emit
  split <;> rfl

@[simp] theorem meter_play (c : Cue) : (w.play c).meter = w.meter := by
  unfold play
  split <;> rfl

@[simp] theorem meter_display (i : Indicator) : (w.display i).meter = w.meter := by
  unfold display
  split
  · rfl
  · rw [meter_emit]
    rfl

@[simp] theorem meter_acts (as : List Action) :
    (w.tell fun n => as.foldl Narrative.act n).meter = w.meter := by
  induction as generalizing w with
  | nil => rfl
  | cons a as ih =>
    refine (ih (w.tell (·.act a))).trans ?_
    cases a <;> rfl

theorem meter_markRead : (w.tell (·.markRead.2)).meter = w.meter := by
  have hflags (n : Narrative) : n.markRead.2.flags = n.flags := by
    unfold Narrative.markRead
    split <;> rfl
  exact congrArg (Meter.mk w.engine.config · w.pauses w.clock) (congrArg Flags.answered (hflags _))

@[simp] theorem meter_saved : w.saved.meter = w.meter := rfl

@[simp] theorem meter_settled : w.settled.meter = w.meter := meter_display _ _

@[simp] theorem meter_ready (force : Bool) : (w.ready force).meter = w.meter := by
  cases force with
  | false => rfl
  | true => exact meter_display (w.tell (·.clearChoices)) .idle

/-- A pause is noted before it is waited for. -/
theorem meter_note_pause (span : Duration) : (w.note (.pause span)).meter =
    { w.meter with pauses := w.meter.pauses ++ [span].filter (· ≠ .zero) } := by
  have hpauses : (w.note (.pause span)).pauses = w.pauses ++ [span].filter (· ≠ .zero) := by
    change (span :: w.journal.filterMap Entry.pause?).reverse.filter _ = _
    rw [List.reverse_cons, List.filter_append]
    rfl
  exact congrArg (Meter.mk w.meter.config w.meter.answered · w.clock) hpauses

end World

/-! ## What operations spend -/

namespace Act

variable {α β : Type} {x y : Meter} {Q : α → Meter → Prop}

/-- Whether an operation that begins with a meter ends with a result and a meter as `Q` says,
if it ends. -/
def Spends (x : Meter) (act : Act α) (Q : α → Meter → Prop) : Prop :=
  ∀ w : World, w.meter = x → Guards (fun _ => True) act w fun a m => Q a m.meter

namespace Spends

theorem pure {a : α} (h : Q a x) : Spends x (pure a) Q := fun w hw => by
  subst hw
  exact h

theorem look {f : World → α} (h : ∀ w : World, w.meter = x → Q (f w) x) :
    Spends x (look f) Q := fun w hw => by
  have hseen := h w hw
  rw [← hw] at hseen
  exact hseen

theorem change {Q : Unit → Meter → Prop} {f : World → World}
    (hf : ∀ w : World, w.meter = x → (f w).meter = y) (h : Q () y) : Spends x (change f) Q :=
  fun w hw => by
    have hy := hf w hw
    subst hy
    exact h

theorem bind {first : Act β} {next : β → Act α} (h : Spends x first fun b y => Spends y (next b) Q) :
    Spends x (first >>= next) Q :=
  fun w hw => .bind ((h w hw).imp fun _ m hm => hm m rfl)

theorem imp {R : α → Meter → Prop} {act : Act α} (h : Spends x act Q)
    (hQ : ∀ a y, Q a y → R a y) : Spends x act R :=
  fun w hw => (h w hw).imp fun a m => hQ a m.meter

theorem map {Q : β → Meter → Prop} {act : Act α} {f : α → β}
    (h : Spends x act fun a => Q (f a)) : Spends x (f <$> act) Q :=
  fun w hw => .map (h w hw)

/-- What does not touch the meter may be left out. -/
theorem silent {f : World → World} {act : Act α} (hf : ∀ w : World, (f w).meter = w.meter)
    (h : Spends x act Q) : Spends x (Act.change f >>= fun _ => act) Q :=
  .bind (.change (fun w hw => (hf w).trans hw) h)

/-- At a suspension point nothing is spent but patience. -/
theorem suspend {Q : Unit → Meter → Prop} (h : Q () x) : Spends x suspend Q := by
  intro w hw
  subst hw
  unfold Guards Act.suspend
  cases w.patience with
  | endless | deadline => exact h
  | suspensions left =>
    cases left with
    | zero => exact True.intro
    | succ left => exact h

/-- A wait that is not given up takes its time. -/
theorem sleep {Q : Unit → Meter → Prop} {millis : Nat}
    (h : Q () { x with clock := x.clock + millis }) : Spends x (sleep millis) Q := by
  intro w hw
  subst hw
  unfold Guards Act.sleep
  cases w.patience with
  | endless | suspensions => exact h
  | deadline time =>
    dsimp only
    by_cases hlate : time < w.clock + millis
    · rw [if_pos hlate]
      exact True.intro
    · rw [if_neg hlate]
      exact h

theorem pause {Q : Unit → Meter → Prop} {span : Duration} (h : Q () (x.spend span)) :
    Spends x (pause span) Q := by
  unfold Meter.spend at h
  refine .bind (.change (fun w hw => (w.meter_note_pause span).trans (by rw [hw])) (.bind ?_))
  refine .look fun w hw => ?_
  have hscaled : w.engine.config.pacing.scale span = x.config.pacing.scale span :=
    congrArg (·.config.pacing.scale span) hw
  rw [hscaled]
  -- a span may be something and be nothing when it is scaled: it is noted, but not waited for
  split
  · next hzero =>
    rw [hzero] at h
    exact .pure h
  · -- how the wait is rounded is of no concern here
    generalize (x.config.pacing.scale span).waitMillis = millis at h ⊢
    exact .bind (.suspend (.sleep h))

/-- A span that does not depend on the draw. -/
theorem drawn {f : Pacing → Float → Option Duration} {span? : Option Duration}
    {Q : Duration → Meter → Prop} (hf : ∀ draw, f x.config.pacing draw = span?)
    (h : ∀ span, span? = some span → Q span x) : Spends x (drawn f) Q := by
  refine .bind (.look fun w hw => ?_)
  have hconfig : w.engine.config = x.config := congrArg (·.config) hw
  rw [hconfig, hf]
  cases span? with
  | none => exact fun _ _ => True.intro
  | some span => exact .pure (h span rfl)

theorem pauseIn {f : Pacing → Window} {span : Duration} {Q : Unit → Meter → Prop}
    (hf : ∀ draw, (f x.config.pacing).sample draw = span) (h : Q () (x.spend span)) :
    Spends x (pauseIn f) Q := by
  refine .bind (.look fun w hw => ?_)
  have hconfig : w.engine.config = x.config := congrArg (·.config) hw
  rw [hconfig, hf]
  exact .pause h

/-- A pause for a drawn span. -/
theorem pauseDrawn {f : Pacing → Float → Option Duration} {span? : Option Duration}
    {Q : Unit → Meter → Prop} (hf : ∀ draw, f x.config.pacing draw = span?)
    (h : Q () (x.spendAll span?.toList)) :
    Spends x (Act.drawn f >>= fun span => Act.pause span) Q := by
  refine .bind (.drawn hf fun span hspan => .pause ?_)
  subst hspan
  exact h

theorem persist {Q : Unit → Meter → Prop} (h : Q () x) : Spends x persist Q := by
  intro w hw
  have hsave : Spends x (Act.suspend >>= fun _ => Act.change World.saved) Q :=
    .bind (.suspend (.change (fun w hw => w.meter_saved.trans hw) h))
  have hdone := hsave w hw
  unfold Guards at hdone ⊢
  rwa [persist_apply]

end Spends

/-! ### Visits -/

variable {n : Node} {p : Pacing}

theorem spends_goOn (next : Option String) : Spends x (goOn next) fun _ y => y = x :=
  .silent (fun _ => rfl) (.bind (.persist (.pure rfl)))

theorem spends_perform (actions : List Action) {act : Act α} (h : Spends x act Q) :
    Spends x (perform actions >>= fun _ => act) Q :=
  .silent (fun w => w.meter_acts actions) h

theorem spends_tellRead (read : Option String) : Spends x (tellRead read) fun _ y => y = x := by
  cases read with
  | none => exact .pure rfl
  | some id => exact .change (fun w hw => (w.meter_emit _).trans hw) rfl

/-- The choice is read and thought about, and is answered then. -/
theorem spends_readAnswer (hx : x.config.pacing = p) (hp : p.Unvaried) :
    Spends x readAnswer fun _ y => y = (x.spendAll p.reaction).hear true := by
  subst hx
  have hreading : x.config.pacing.reading.jitter = 0 := hp _ (by simp [Pacing.jitters])
  have hthinking : x.config.pacing.thinking.jitter = 0 := hp _ (by simp [Pacing.jitters])
  rw [readAnswer_eq]
  refine .silent (fun w => w.meter_display .reading) (.bind ?_)
  refine .pauseIn (Window.sample_eq_still hreading) (.bind (.look fun w hw => ?_))
  -- which message is marked depends on the world, but it is marked in no time
  refine .silent (fun w => w.meter_markRead) (.bind (.imp (spends_tellRead _) fun _ y hy => ?_))
  subst hy
  refine .silent (fun w => w.meter_display .idle) (.bind ?_)
  refine .pauseIn (Window.sample_eq_still hthinking) (.change (fun w hw => ?_) rfl)
  have hspent : x.spendAll x.config.pacing.reaction = w.meter := hw.symm
  rw [hspent, Meter.hear, Bool.not_true, Bool.and_false]
  rfl

/-- Whoever has nothing to answer does not read first. -/
theorem spends_readFirst (hx : x.config.pacing = p) (hp : p.Unvaried) (n : Node) :
    Spends x (readFirst n) fun _ y => y = (x.spendAll
      (if x.answered && n.sender.isNpc then p.reaction else [])).hear n.sender.isNpc := by
  refine .bind (.look fun w hw => ?_)
  have hanswered : w.engine.narrative.flags.answered = x.answered := congrArg (·.answered) hw
  rw [hanswered]
  by_cases h : (x.answered && n.sender.isNpc) = true
  · obtain ⟨-, hn⟩ := Bool.and_eq_true_iff.1 h
    rw [if_pos h, if_pos h, hn]
    exact spends_readAnswer hx hp
  · rw [if_neg h, if_neg h]
    exact .pure (x.hear_of_not h).symm

theorem spends_prepare (hx : x.config.pacing = p) (hp : p.Unvaried) (n : Node) :
    Spends x (prepare n) fun _ y => y = x.spendAll (p.before n) := by
  subst hx
  unfold prepare Pacing.before
  cases n.sender with
  | player => exact .pure rfl
  | system => exact .pauseDrawn (hp.notice?_eq n) rfl
  | npc name =>
    refine .bind (.drawn (hp.typing?_eq n) fun span hspan => ?_)
    dsimp only
    rw [hspan]
    split
    · next hzero =>
      -- nobody is seen typing for no time, which is a pause of nothing
      subst hzero
      exact .pure (x.spend_zero).symm
    · refine .silent (fun w => ?_) (.bind (.pause (.change (fun w hw => ?_) rfl)))
      · rw [World.meter_play, World.meter_display]
      · rw [World.meter_display, hw]
        rfl

theorem spends_speak (n : Node) : Spends x (speak n) fun _ y => y = x := by
  refine .silent (fun w => (w.tell _).meter_emit _) ?_
  split
  · exact .change (fun w hw => (w.meter_play _).trans hw) rfl
  · exact .pure rfl

theorem spends_readBehind (hx : x.config.pacing = p) (hp : p.Unvaried) (n : Node) :
    Spends x (readBehind n) fun _ y => y = x.spendAll (p.behind n) := by
  subst hx
  unfold readBehind Pacing.behind
  split
  · exact .pauseDrawn (hp.autoRead?_eq_still? n) rfl
  · exact .pure rfl

/-- A message takes the time that its node asks for. -/
theorem spends_message (hp : x.config.pacing.Unvaried) (hk : n.kind ≠ .typingFake) :
    Spends x (do
      readFirst n
      prepare n
      speak n
      settle n) fun _ y => y = (x.spendAll (x.config.spans x.answered n)).hear n.answers := by
  have hanswers : n.answers = n.sender.isNpc := by
    rw [Node.answers, decide_eq_true hk, Bool.true_and]
  -- the answer is heard behind the reaction, and the node's spans are counted as if at its end
  rw [Config.spans, if_neg hk, hanswers, Meter.spendAll_append, Meter.spendAll_append,
    ← Meter.spendAll_hear, ← Meter.spendAll_hear]
  generalize hfirst : (x.spendAll (if x.answered && n.sender.isNpc then x.config.pacing.reaction
    else [])).hear n.sender.isNpc = first
  have hconfig : first.config = x.config := by
    rw [← hfirst]
    exact x.config_spendAll _
  refine .bind ((spends_readFirst rfl hp n).imp fun _ y hy => ?_)
  rw [hfirst] at hy
  subst hy
  refine .bind ((spends_prepare (congrArg (·.pacing) hconfig) hp n).imp fun _ y hy => ?_)
  subst hy
  refine .bind ((spends_speak n).imp fun _ y hy => ?_)
  subst hy
  refine .bind ((spends_readBehind ?_ hp n).imp fun _ y hy => ?_)
  · rw [Meter.config_spendAll, hconfig]
  · subst hy
    exact spends_perform _ (.bind (.look fun _ _ => spends_goOn _))

/-- Pretending to type takes its bursts, and the gaps between them. -/
theorem spends_pretend (hx : x.config.pacing = p) (hp : p.Unvaried) (sender : Sender)
    (cycles : Nat) :
    Spends x (pretend sender cycles) fun _ y => y = x.spendAll (p.bursts cycles) := by
  have hburst : p.fakeTyping.jitter = 0 := hp _ (by simp [Pacing.jitters])
  have hgap : p.fakeTypingPause.jitter = 0 := hp _ (by simp [Pacing.jitters])
  induction cycles generalizing x with
  | zero => exact .pure rfl
  | succ cycles ih =>
    subst hx
    unfold pretend
    refine .silent (fun w => ?_) (.bind (.pauseIn (Window.sample_eq_still hburst) ?_))
    · rw [World.meter_play, World.meter_display]
    refine .silent (fun w => w.meter_display .idle) ?_
    -- there is a gap behind each burst but the last
    cases cycles with
    | zero => exact .pure rfl
    | succ cycles => exact .bind (.pauseIn (Window.sample_eq_still hgap) (ih rfl))

theorem spends_fakeTyping (hp : x.config.pacing.Unvaried) (hk : n.kind = .typingFake) :
    Spends x (fakeTyping n) fun _ y => y = x.spendAll (x.config.spans x.answered n) := by
  refine .bind (.look fun w hw => .bind ?_)
  have hcycles : cyclesOf w n = x.config.cycles n := congrArg (·.config.cycles n) hw
  rw [hcycles, Config.spans, if_pos hk]
  refine (spends_pretend rfl hp _ _).imp fun _ y hy => ?_
  subst hy
  exact spends_perform _ (spends_goOn _)

theorem spends_fetch {id : ScriptId} {Q : Except LoadFault Graph → Meter → Prop}
    (h : ∀ found, Q found x) : Spends x (fetch id) Q :=
  .bind (.suspend (.look fun _ _ => h _))

/-- The end of a part takes no time. -/
theorem spends_endPart (n : Node) : Spends x (endPart n) fun _ y => y = x := by
  have hend (title : Option String) : Spends x (persist >>= fun _ =>
      change (·.emit (.partEnded n.nextPart title)) >>= fun _ => pure (Halt.partEnd n.nextPart))
      fun _ y => y = x :=
    .bind (.persist (.silent (fun w => w.meter_emit _) (.pure rfl)))
  refine .silent (fun _ => rfl) ?_
  cases hpart : n.nextPart with
  | none =>
    rw [hpart] at hend
    exact .bind (.pure (hend none))
  | some part =>
    rw [hpart] at hend
    refine .silent (fun _ => rfl) (.bind (.look fun w hw => .bind ?_))
    refine spends_fetch fun found => ?_
    cases found with
    | error fault => exact .bind (.pure (hend none))
    | ok graph =>
      exact .silent (fun _ => rfl) (.silent (fun _ => rfl) (.bind (.pure (hend _))))

/-- A node that is passed takes the time that it asks for. -/
theorem spends_passed (hp : x.config.pacing.Unvaried) (hn : n.Passed) :
    Spends x (attend n (settle n)) fun _ y =>
      y = (x.spendAll (x.config.spans x.answered n)).hear n.answers := by
  unfold attend
  cases hk : n.kind with
  | choice => exact absurd hk hn.1
  | partEnd => exact absurd hk hn.2
  | typingFake =>
    have hanswers : n.answers = false := by
      rw [Node.answers, hk]
      rfl
    refine .map ((spends_fakeTyping hp hk).imp fun _ y hy => ?_)
    rw [hy, hanswers, Meter.hear_of_not _ (by simp)]
  | message | text | audio | image | other =>
    exact .map (spends_message hp (by rw [hk]; exact nofun))

/-- A node at which a walk stops takes no time. -/
theorem spends_stopped (hn : ¬ n.Passed) :
    Spends x (attend n (settle n)) fun _ y => y = x := by
  unfold attend
  cases hk : n.kind with
  | choice => exact .silent (fun w => (w.tell _).meter_emit _) (.pure rfl)
  | partEnd => exact .map (spends_endPart n)
  | typingFake | message | text | audio | image | other =>
    exact absurd ⟨by rw [hk]; exact nofun, by rw [hk]; exact nofun⟩ hn

/-! ### The walk -/

variable {w w' : World} {id : String}

/-- A visit that comes to its end spends what is spent at its node. -/
theorem of_visit {v : Visit} {Q : Visit → Meter → Prop} (hn : w.findNode? id = some n)
    (h : Spends w.meter (attend n (settle n)) Q) (hv : visit id w = .ok v w') : Q v w'.meter := by
  have hvisit : Guards (fun _ => True) (visit id) w fun v m => Q v m.meter := by
    rw [visit_eq]
    refine .bind (.look ?_)
    rw [hn]
    exact .bind (.change (h _ rfl))
  unfold Guards at hvisit
  rw [hv] at hvisit
  exact hvisit

/-- Where there is no node nothing is spent. -/
theorem meter_of_missing {v : Visit} (hn : w.findNode? id = none) (hv : visit id w = .ok v w') :
    w'.meter = w.meter := by
  rw [visit_eq, bind_apply, look_apply, hn] at hv
  cases hv
  rfl

/-- What a visit that comes to its end may be: the walk stops in no time, or a node is passed
and takes the time that it asks for. -/
inductive Took (w : World) (id : String) : Visit → World → Prop where
  | stopped {halt : Halt} {u : World} : Route w.findNode? w.traits id [] halt →
      u.meter = w.meter → Took w id (.halt halt) u
  | passed {n : Node} {u : World} : w.findNode? id = some n → n.Passed →
      u.plot = w.plot.passing id n →
      u.meter = (w.meter.spendAll (w.engine.config.spans w.meter.answered n)).hear n.answers →
      Took w id (.ofNext (w.plot.passing id n).story.currentNode) u

/-- The step lemma: every visit that comes to its end is one of these. -/
theorem took_of_visit {v : Visit} (hp : w.engine.config.pacing.Unvaried)
    (h : visit id (w.under .endless) = .ok v w') : ∃ u, w' = u.under .endless ∧ Took w id v u := by
  obtain ⟨stops, out, hpath, hvisited⟩ := visit_path w id
  -- where the walk goes is read off the plot of the visit, and what it spends off its meter
  have hplot := hvisited.plot
  have hmeter {n : Node} {Q : Visit → Meter → Prop} (hn : w.findNode? id = some n)
      (hspends : Spends w.meter (attend n (settle n)) Q) : Q v w'.meter :=
    of_visit (w := w.under .endless) hn hspends h
  have hmissing (hn : w.findNode? id = none) : w'.meter = w.meter :=
    meter_of_missing (w := w.under .endless) hn h
  rw [hpath.whole] at h
  cases out with
  | error s u => cases h
  | ok v u =>
    cases h
    refine ⟨u, rfl, ?_⟩
    obtain ⟨halt, rfl, htook⟩ | ⟨n, hn, hpassed, rfl, hstory⟩ := Plot.visit_cases hplot.symm
    · refine .stopped htook.route ?_
      cases htook.route with
      | missing hn => exact hmissing hn
      | asked hn hk => exact hmeter hn (spends_stopped fun hpassed => hpassed.1 hk)
      | ended hn hk => exact hmeter hn (spends_stopped fun hpassed => hpassed.2 hk)
    · exact .passed hn hpassed hstory (hmeter hn (spends_passed hp hpassed))

/-- The run lemma: a walk that halts has taken a route, and the time that its nodes ask for. -/
theorem walk_takes {left : Nat} {halt : Halt} (hp : w.engine.config.pacing.Unvaried)
    (h : walk left id (w.under .endless) = .ok halt w') :
    ∃ nodes, Route w.findNode? w.traits id nodes halt ∧ w'.meter = (w.meter.spendAll
      (w.engine.config.timetable w.meter.answered nodes)).hear (nodes.any Node.answers) := by
  induction left generalizing id w with
  | zero => cases h
  | succ left ih =>
    obtain ⟨v, m, hvisit, h⟩ := bind_eq_ok h
    obtain ⟨u, rfl, htook⟩ := took_of_visit hp hvisit
    cases htook with
    | stopped hroute hmeter =>
      cases h
      exact ⟨[], hroute, hmeter.trans (Meter.hear_of_not _ (by simp)).symm⟩
    | @passed n _ hn hpassed hplot hmeter =>
      have hlead := w.plot.leads_passing id n
      cases hnext : (w.plot.passing id n).story.currentNode with
      | none =>
        rw [hnext] at h hlead
        cases h
        refine ⟨[n], .last hn hpassed hlead, hmeter.trans ?_⟩
        rw [Config.timetable, Config.timetable, List.append_nil, List.any_cons, List.any_nil,
          Bool.or_false]
      | some id' =>
        rw [hnext] at h hlead
        have hconfig : u.engine.config = w.engine.config :=
          (congrArg Meter.config hmeter).trans (w.meter.config_spendAll _)
        have hanswered : u.meter.answered = (w.meter.answered && !n.answers) := by
          rw [hmeter, Meter.hear, Meter.answered_spendAll]
        have hfind : u.findNode? = w.findNode? := congrArg Plot.findNode? hplot
        have htraits : u.traits = w.traits.behind n :=
          (congrArg (·.story.traits) hplot).trans (Plot.traits_storyAfter _ n)
        -- the rest of the route begins with the flag that this node has left
        obtain ⟨nodes, hroute, hrest⟩ := ih (hconfig ▸ hp) h
        rw [hfind, htraits] at hroute
        refine ⟨n :: nodes, .step hn hpassed hlead hroute, hrest.trans ?_⟩
        rw [hanswered, hconfig, hmeter, Meter.spendAll_hear, Meter.hear_hear,
          ← Meter.spendAll_append, Config.timetable, List.any_cons]

end Act

end StoryChat
