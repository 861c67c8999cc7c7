/-
The plot: where a walk leads, apart from everything that happens on it.

Slots, clock, draws and journal do not decide where a walk goes. What does decide it is
the script and where further ones come from, the story so far, and the bearing. That much
of a world is its `Plot`, and a walk on plots is a plain function (`Plot.walk`), in which
no node pauses and nothing is written. The walk of an engine (`Act.walk`) comes to what
that function says. So two engines with one plot come to the same end, whatever else is
different about them.
-/
import StoryChat.Proofs.Engine.Operation

set_option autoImplicit false

namespace StoryChat

/-! ## Plots -/

/-- What decides where a walk leads. -/
structure Plot where
  config : Config
  shelf : Shelf
  graph : Option Graph
  story : Story
  bearing : Bearing

instance (n : Node) (p : Pacing) : Decidable (n.Paced p) :=
  inferInstanceAs (Decidable
    (((n.sender.isNpc = true → (p.smartDelay? n 0.0).isSome = true) ∧
      (n.sender = .system → (p.systemPause? n 0.0).isSome = true)) ∧
      (n.hasSuccessor = true → (p.autoRead? n 0.0).isSome = true)))

namespace Plot

/-- A node of the script that is being walked. -/
def findNode? (p : Plot) (id : String) : Option Node := p.graph.bind (·.find? id)

/-- A text with the player's name put in. -/
def personalize (p : Plot) (text : String) : String :=
  Text.substitute text p.config.nameToken p.bearing.playerName

/-- The plot at a node. -/
def visiting (p : Plot) (id : String) : Plot := { p with story := p.story.goTo (some id) }

/-- The story behind a node that tells something. -/
def storyAfter (p : Plot) (n : Node) : Story :=
  if n.kind = .typingFake then p.story.afterTyping n
  else p.story.afterMessage ⟨n.id, n.sender, n.kind.medium, p.personalize n.content⟩ n

/-- The plot where a part is over and the next one, if one is named, is the position. -/
def leaving (p : Plot) (next : Option Nat) : Plot :=
  { p with
    story := p.story.goTo none
    bearing := { p.bearing with part := next.getD p.bearing.part } }

/-- The plot where a part waits to be entered. -/
def turning (p : Plot) (graph : Graph) : Plot :=
  { p with
    graph := some graph
    bearing := { p.bearing with activeScript := none, introPending := true } }

/-- The plot behind the end of a part (`Act.endPart`): if the next one can be loaded, it
waits. -/
def ending (p : Plot) (next : Option Nat) : Plot :=
  match next with
  | none => p.leaving none
  | some part =>
    match p.shelf (.part p.bearing.chapter part) with
    | .error _ => p.leaving next
    | .ok d => (p.leaving next).turning (.ofDocument d)

/-- What a visit of a node (`Act.visit`) leads to; nothing, if the limits of a pause are
crossed. -/
def visit (p : Plot) (id : String) : Option (Act.Visit × Plot) :=
  match p.findNode? id with
  | none => some (.halt (.missingNode id), p)
  | some n =>
    if n.kind = .choice then some (.halt .awaitingChoice, p.visiting id)
    else if n.kind = .partEnd then some (.halt (.partEnd n.nextPart), p.ending n.nextPart)
    else if n.kind = .typingFake ∨ n.Paced p.config.pacing then
      some (.ofNext ((p.visiting id).storyAfter n).currentNode,
        { p with story := (p.visiting id).storyAfter n })
    else none

/-- Where a walk from a node (`Act.walk`) stops, over at most as many nodes as are left. -/
def walk : Nat → String → Plot → Option (Halt × Plot)
  | 0, _, _ => none
  | left + 1, id, p =>
    match p.visit id with
    | none => none
    | some (.halt halt, p) => some (halt, p)
    | some (.next id, p) => walk left id p

/-- The options of the node that the story is at. -/
def options (p : Plot) : List Choice :=
  match p.story.currentNode.bind p.findNode? with
  | none => []
  | some n => n.choices.map fun c => { c with text := p.personalize c.text }

/-- A walk that stops does not stop elsewhere if it may go on for longer. -/
theorem walk_of_le {left left' : Nat} {id : String} {p : Plot} {r : Halt × Plot}
    (h : walk left id p = some r) (hle : left ≤ left') : walk left' id p = some r := by
  induction left generalizing left' id p with
  | zero => cases h
  | succ left ih =>
    obtain ⟨k, rfl⟩ := Nat.exists_eq_add_of_le hle
    rw [Nat.add_right_comm]
    unfold walk at h ⊢
    cases hv : p.visit id with
    | none =>
      rw [hv] at h
      cases h
    | some v =>
      rw [hv] at h
      obtain ⟨v, p'⟩ := v
      cases v with
      | halt halt => exact h
      | next id' => exact ih h (Nat.le_add_right _ _)

/-- What is left of a walk behind its first visit. -/
theorem walk_of_visit {left : Nat} {id id' : String} {p p' : Plot} {r : Halt × Plot}
    (h : walk (left + 1) id p = some r) (hv : p.visit id = some (.next id', p')) :
    walk left id' p' = some r := by
  rw [walk, hv] at h
  exact h

/-- A walk that stops at its first visit. -/
theorem eq_of_walk_of_visit {left : Nat} {id : String} {halt : Halt} {p p' : Plot}
    {r : Halt × Plot} (h : walk (left + 1) id p = some r)
    (hv : p.visit id = some (.halt halt, p')) : r = (halt, p') := by
  rw [walk, hv] at h
  exact (Option.some.inj h).symm

end Plot

namespace World

variable {w m : World}

/-- The plot of a world. -/
def plot (w : World) : Plot :=
  ⟨w.engine.config, w.shelf, w.engine.graph, w.engine.narrative.story,
    w.engine.narrative.bearing.atRest⟩

theorem plot_eq (hset : m.setting = w.setting) (hg : m.engine.graph = w.engine.graph)
    (hs : m.engine.narrative.story = w.engine.narrative.story)
    (hb : m.engine.narrative.bearing.atRest = w.engine.narrative.bearing.atRest) :
    m.plot = w.plot := by
  rw [plot, plot, config_eq_of_setting hset, shelf_eq_of_setting hset, hg, hs, hb]

@[simp] theorem plot_saved (w : World) : w.saved.plot = w.plot := rfl

@[simp] theorem plot_emit (w : World) (e : Event) : (w.emit e).plot = w.plot :=
  plot_eq (w.setting_emit e) (by rw [engine_emit]) (by rw [engine_emit]) (by rw [engine_emit])

@[simp] theorem plot_settled (w : World) : w.settled.plot = w.plot :=
  plot_eq w.setting_settled w.graph_settled w.story_settled (by rw [bearing_settled]; rfl)

@[simp] theorem plot_ready (w : World) (force : Bool) : (w.ready force).plot = w.plot :=
  plot_eq (w.setting_ready force) (w.graph_ready force) (w.story_ready force)
    (w.atRest_ready force)

/-- Where a visit has come to, only the story of the plot is different. -/
theorem Inside.plot {n : Node} (h : w.Inside n m) :
    m.plot = { w.plot with story := m.engine.narrative.story } := by
  rw [World.plot, World.plot, config_eq_of_setting h.setting, shelf_eq_of_setting h.setting,
    h.graph, h.bearing]

/-- The player is asked, and the options are those of the node that the story is at. -/
def Asks (w : World) : Prop :=
  w.waits = true ∧ w.engine.narrative.flags.choices = w.plot.options

theorem Asks.under (h : w.Asks) (p : Patience) : (w.under p).Asks := h

theorem Asks.settled (h : w.Asks) : w.settled.Asks :=
  ⟨w.waits_settled.trans h.1, by rw [choices_settled, h.2, plot_settled]⟩

theorem Asks.emit (h : w.Asks) (e : Event) : (w.emit e).Asks := by
  refine ⟨(w.waits_emit e).trans h.1, ?_⟩
  rw [engine_emit, plot_emit]
  exact h.2

end World

namespace Act

variable {α : Type}

/-- The result of an outcome and the plot it comes to. -/
def Outcome.plot? : Outcome α → Option (α × Plot)
  | .ok a w => some (a, w.plot)
  | .error _ _ => none

/-- The visit of a node comes to what its plot says. -/
theorem Visited.plot {w : World} {id : String} {stops : List World} {out : Outcome Visit}
    (h : Visited w id stops out) : out.plot? = w.plot.visit id := by
  have find {n : Node} (hn : w.findNode? id = some n) : w.plot.findNode? id = some n := hn
  unfold Plot.visit
  cases h with
  | missing hn =>
    rw [show w.plot.findNode? id = none from hn]
    rfl
  | offered hn hk =>
    rw [find hn]
    dsimp only
    rw [if_pos hk, Outcome.plot?, World.offering, World.plot_emit]
    rfl
  -- the record is kept at the end, and it changes nothing of the plot
  | @told n stops m hn hc he hp hs hm =>
    have hin : (w.at id).Inside n m := hs m (List.mem_of_getLast? hm)
    have hstory : m.engine.narrative.story = (w.at id).storyAfter n := ‹_›
    have hp' : n.kind = .typingFake ∨ n.Paced w.plot.config.pacing := hp
    rw [find hn]
    dsimp only
    rw [if_neg hc, if_neg he, if_pos hp', Outcome.plot?, World.plot_saved, hin.plot, hstory]
    rfl
  | @crossed n stops w' hn hc he ht hp hs =>
    have hp' : ¬ (n.kind = .typingFake ∨ n.Paced w.plot.config.pacing) := not_or.2 ⟨ht, hp⟩
    rw [find hn]
    dsimp only
    rw [if_neg hc, if_neg he, if_neg hp']
    rfl
  | ended hn hk hp =>
    rw [find hn]
    dsimp only
    rw [if_neg (by simp [hk]), if_pos hk, hp, Outcome.plot?, World.plot_emit]
    rfl
  | @lost n part fault hn hk hp hs =>
    have hshelf : w.plot.shelf (.part w.plot.bearing.chapter part) = .error fault := hs
    rw [find hn]
    dsimp only
    rw [if_neg (by simp [hk]), if_pos hk, hp, Outcome.plot?, World.plot_emit, Plot.ending, hshelf]
    rfl
  | @turned n part d hn hk hp hs =>
    have hshelf : w.plot.shelf (.part w.plot.bearing.chapter part) = .ok d := hs
    rw [find hn]
    dsimp only
    rw [if_neg (by simp [hk]), if_pos hk, hp, Outcome.plot?, World.plot_emit, Plot.ending, hshelf]
    rfl

/-- The walk of an engine comes to what its plot says. -/
theorem plot_walk (left : Nat) (id : String) (w : World) :
    Outcome.plot? (walk left id (w.under .endless)) = w.plot.walk left id := by
  induction left generalizing id w with
  | zero => rfl
  | succ left ih =>
    obtain ⟨stops, out, hp, hv⟩ := visit_path w id
    have hplot := hv.plot
    unfold walk Plot.walk
    rw [bind_apply, hp.whole, ← hplot]
    cases out with
    | error s w' => rfl
    | ok v w' =>
      cases v with
      | halt halt => rfl
      | next id' => exact ih id' w'

/-- A visit halts at a choice only by offering its options. -/
theorem Visited.asks {w w' : World} {id : String} {stops : List World} {out : Outcome Visit}
    (h : Visited w id stops out) (ho : out = .ok (.halt .awaitingChoice) w') : w'.Asks := by
  cases h with
  | @offered n hn hk =>
    cases ho
    have hplot : ((w.at id).offering n).plot = w.plot.visiting id := by
      rw [World.offering, World.plot_emit]
      rfl
    have hfind : (w.plot.visiting id).story.currentNode.bind (w.plot.visiting id).findNode? =
        some n := hn
    constructor
    · rw [World.offering, World.waits_emit]
      rfl
    · rw [hplot, Plot.options, hfind, World.offering, World.engine_emit]
      rfl
  | told =>
    generalize World.storyAfter _ _ = story at ho
    cases hnext : story.currentNode <;> rw [hnext] at ho <;> cases ho
  | _ => cases ho

/-- A walk that halts at a choice leaves it asked. -/
theorem asks_of_walk {left : Nat} {id : String} {w w' : World}
    (h : walk left id (w.under .endless) = .ok .awaitingChoice w') : w'.Asks := by
  induction left generalizing id w with
  | zero => cases h
  | succ left ih =>
    obtain ⟨stops, out, hp, hv⟩ := visit_path w id
    unfold walk at h
    rw [bind_apply, hp.whole] at h
    cases out with
    | error s m => cases h
    | ok v m =>
      cases v with
      | next id' => exact ih h
      | halt halt =>
        cases h
        have hasks : m.Asks := hv.asks rfl
        exact hasks.under _

/-! ## A walk that is asked for -/

/-- An engine that is not walking walks from where it is ready. -/
theorem advance_apply {w : World} {id : String} {force : Bool}
    (h : w.engine.narrative.flags.processing = true → force = true) :
    advance id force w = match walk w.reach id (w.ready force) with
      | .ok halt m => .ok (.halted halt) (m.settled.emit (.halted halt))
      | .error s m => .error s m.settled := by
  have hbusy : (w.engine.narrative.flags.processing && !force) = false := by
    cases force with
    | true => rw [Bool.not_true, Bool.and_false]
    | false => simpa using h
  -- both kinds of walk come to the same from where they are ready
  have rest {v : World} (hreach : v.reach = w.reach) (hv : v.tell (·.process true) = w.ready force) :
      (do
        let halt ← guardedWalk id
        Act.change (·.emit (.halted halt))
        return Walked.halted halt) v = match walk w.reach id (w.ready force) with
        | .ok halt m => .ok (.halted halt) (m.settled.emit (.halted halt))
        | .error s m => .error s m.settled := by
    rw [bind_apply, guardedWalk_apply, hreach, hv]
    cases walk w.reach id (w.ready force) <;> rfl
  unfold advance
  rw [bind_apply, look_apply]
  dsimp only
  rw [hbusy, if_neg Bool.false_ne_true]
  cases force with
  | false => exact rest rfl rfl
  | true =>
    rw [if_pos rfl, bind_apply, change_apply]
    refine rest ?_ rfl
    exact World.reach_eq_of_setting (by rw [World.setting_display, World.setting_tell])

/-- While a walk is under way nothing comes of asking for one, unless by force. -/
theorem advance_busy {w : World} {id : String}
    (h : w.engine.narrative.flags.processing = true) :
    Path (advance id false) w [] (.ok .alreadyRunning w) := by
  refine .seq (.look fun _ => rfl) ?_
  rw [h]
  exact .pure _ w

/-- What comes of a walk that is asked for is what its plot says. -/
theorem plot_of_advance {w w' : World} {id : String} {force : Bool} {walked : Walked}
    (h : w.engine.narrative.flags.processing = true → force = true)
    (hrun : advance id force (w.under .endless) = .ok walked w') :
    ∃ halt, walked = .halted halt ∧ w.plot.walk w.reach id = some (halt, w'.plot) ∧
      (halt = .awaitingChoice → w'.Asks) := by
  have hready : (w.under .endless).ready force = (w.ready force).under .endless :=
    World.ready_under w force .endless
  have hplot := plot_walk w.reach id (w.ready force)
  have hreach : (w.under .endless).reach = w.reach := rfl
  rw [advance_apply (w := w.under .endless) h, hready, hreach] at hrun
  cases hw : walk w.reach id ((w.ready force).under .endless) with
  | error s m =>
    rw [hw] at hrun
    cases hrun
  | ok halt m =>
    rw [hw] at hrun hplot
    cases hrun
    refine ⟨halt, rfl, ?_, fun hh => ?_⟩
    · rw [World.plot_emit, World.plot_settled, ← World.plot_ready w force, ← hplot]
      rfl
    · subst hh
      exact (asks_of_walk hw).settled.emit _

/-- Where the plot says where a walk stops, the engine comes there. -/
theorem advance_of_plot {w : World} {id : String} {halt : Halt} {p : Plot}
    (h : w.engine.narrative.flags.processing = false)
    (hp : w.plot.walk w.reach id = some (halt, p)) :
    ∃ w', advance id false (w.under .endless) = .ok (.halted halt) w' ∧ w'.plot = p ∧
      (halt = .awaitingChoice → w'.Asks) := by
  have hfree : w.engine.narrative.flags.processing = true → false = true := by
    rw [h]
    exact fun h => h
  have hready : (w.under .endless).ready false = (w.ready false).under .endless :=
    World.ready_under w false .endless
  have hreach : (w.under .endless).reach = w.reach := rfl
  have hplot := plot_walk w.reach id (w.ready false)
  rw [World.plot_ready, hp] at hplot
  cases hw : walk w.reach id ((w.ready false).under .endless) with
  | error s m =>
    rw [hw] at hplot
    cases hplot
  | ok halt' m =>
    rw [hw] at hplot
    cases hplot
    refine ⟨m.settled.emit (.halted halt), ?_, ?_, fun hh => ?_⟩
    · rw [advance_apply (w := w.under .endless) hfree, hready, hreach, hw]
    · rw [World.plot_emit, World.plot_settled]
    · subst hh
      exact (asks_of_walk hw).settled.emit _

end Act

end StoryChat
