/-
What a walk does, visit by visit.

A walk (`Act.walk`) is one visit after another, so a property of walks is an
invariant of the worlds between two visits that every single visit keeps. Around
the walk the flag that it is under way is put up and taken down
(`Act.guardedWalk`), and a forced walk (`Act.advance`) takes back what was
offered before it begins. The rules here leave open which invariant it is and
what is asked of the suspension points.
-/
import StoryChat.Proofs.Engine.Visit

set_option autoImplicit false

namespace StoryChat

namespace World

/-- The world in which a walk begins (`Act.advance`). -/
def ready (w : World) (force : Bool) : World :=
  (if force then (w.tell (·.clearChoices)).display .idle else w).tell (·.process true)

/-- The world as a walk leaves it behind, cut short or not (`Act.guardedWalk`). -/
def settled (w : World) : World := (w.tell (·.process false)).display .idle

@[simp] theorem settled_under (w : World) (p : Patience) :
    (w.under p).settled = w.settled.under p := by
  rw [settled, settled, tell_under, display_under]

theorem ready_under (w : World) (force : Bool) (p : Patience) :
    (w.under p).ready force = (w.ready force).under p := by
  cases force with
  | false => rfl
  | true => rw [ready, ready, if_pos rfl, if_pos rfl, tell_under, display_under, tell_under]

@[simp] theorem setting_settled (w : World) : w.settled.setting = w.setting := by
  rw [settled, setting_display, setting_tell]

@[simp] theorem graph_settled (w : World) : w.settled.engine.graph = w.engine.graph := by
  rw [settled, graph_display, graph_tell]

@[simp] theorem saves_settled (w : World) : w.settled.saves = w.saves := by
  rw [settled, saves_display, saves_tell]

@[simp] theorem calls_settled (w : World) : w.settled.calls = w.calls := by
  rw [settled, calls_display, calls_tell]

@[simp] theorem story_settled (w : World) :
    w.settled.engine.narrative.story = w.engine.narrative.story := by
  rw [settled, story_display, narrative_tell, Narrative.story_process]

@[simp] theorem bearing_settled (w : World) : w.settled.engine.narrative.bearing =
    { w.engine.narrative.bearing with processing := false } := by
  rw [settled, bearing_display, narrative_tell, Narrative.bearing_process]

@[simp] theorem setting_ready (w : World) (force : Bool) :
    (w.ready force).setting = w.setting := by
  unfold ready
  split
  · rw [setting_tell, setting_display, setting_tell]
  · rw [setting_tell]

@[simp] theorem graph_ready (w : World) (force : Bool) :
    (w.ready force).engine.graph = w.engine.graph := by
  unfold ready
  split
  · rw [graph_tell, graph_display, graph_tell]
  · rw [graph_tell]

@[simp] theorem saves_ready (w : World) (force : Bool) : (w.ready force).saves = w.saves := by
  unfold ready
  split
  · rw [saves_tell, saves_display, saves_tell]
  · rw [saves_tell]

@[simp] theorem calls_ready (w : World) (force : Bool) : (w.ready force).calls = w.calls := by
  unfold ready
  split
  · rw [calls_tell, calls_display, calls_tell]
  · rw [calls_tell]

@[simp] theorem story_ready (w : World) (force : Bool) :
    (w.ready force).engine.narrative.story = w.engine.narrative.story := by
  unfold ready
  split
  · rw [narrative_tell, Narrative.story_process, story_display, narrative_tell,
      Narrative.story_clearChoices]
  · rw [narrative_tell, Narrative.story_process]

/-- A forced walk takes back what was offered, and no more of the bearing. -/
@[simp] theorem atRest_ready (w : World) (force : Bool) :
    (w.ready force).engine.narrative.bearing.atRest = w.engine.narrative.bearing.atRest := by
  unfold ready
  split
  · rw [narrative_tell, Narrative.bearing_process, bearing_display, narrative_tell,
      Narrative.bearing_clearChoices]
    rfl
  · rw [narrative_tell, Narrative.bearing_process]
    rfl

@[simp] theorem waits_settled (w : World) : w.settled.waits = w.waits :=
  congrArg Bearing.waiting w.bearing_settled

@[simp] theorem choices_settled (w : World) :
    w.settled.engine.narrative.flags.choices = w.engine.narrative.flags.choices :=
  congrArg Bearing.choices w.bearing_settled

@[simp] theorem currentNode_settled (w : World) :
    w.settled.engine.narrative.currentNode = w.engine.narrative.currentNode :=
  Narrative.currentNode_eq_of_story w.story_settled

/-- A forced walk takes back what was offered. -/
theorem waits_ready_of_force (w : World) : (w.ready true).waits = false := by
  change (w.ready true).engine.narrative.bearing.waiting = false
  rw [ready, if_pos rfl, narrative_tell, Narrative.bearing_process, bearing_display,
    narrative_tell, Narrative.bearing_clearChoices]

theorem waits_ready (w : World) : (w.ready false).waits = w.waits := rfl

end World

namespace Act

variable {S : World → World → Prop} {Q : Halt → World → World → Prop} {g w : World}

/-- What is asked of a visit: `Q` where the walk stops, and `I` where it goes on. -/
def After (Q : Halt → World → World → Prop) (I : World → World → String → Prop) :
    Visit → World → World → Prop
  | .halt halt, g, w => Q halt g w
  | .next id, g, w => I g w id

/-- Behind something told the walk goes on, or the script is over. -/
theorem After.ofNext {I : World → World → String → Prop} {next : Option String}
    (stop : Q .endOfScript g w) (go : ∀ id, next = some id → I g w id) :
    After Q I (.ofNext next) g w := by
  cases next with
  | none => exact stop
  | some id => exact go id rfl

theorem After.const {P : World → World → Prop} {v : Visit} (h : P g w) :
    After (fun _ => P) (fun g w _ => P g w) v g w := by
  cases v with
  | halt halt => exact h
  | next id => exact h

/-- An invariant that every visit keeps until the walk stops is an invariant of the
walk. -/
theorem Passes.walk {I : World → World → String → Prop}
    (step : ∀ g w id stops out, I g w id → Visited w id stops out →
      ∃ last, Legs S g stops last ∧ Ends (After Q I) last out)
    (left : Nat) (id : String) (h : I g w id) : Passes S (walk left id) g w Q := by
  induction left generalizing g w id with
  | zero => exact (Path.error fun _ => rfl).passes (.arrived g) (w := w) nofun
  | succ left ih =>
    obtain ⟨stops, out, hp, hv⟩ := visit_path w id
    obtain ⟨last, hl, he⟩ := step g w id stops out h hv
    unfold Act.walk
    refine .bind (hp.passes hl ?_)
    cases out with
    | error s w' => exact he
    | ok v w' =>
      cases v with
      | halt halt => exact .pure he
      | next id' => exact ih id' he

/-- The flag is up while the walk is under way, and the world is settled however it
ends. -/
theorem guardedWalk_apply (id : String) (w : World) : guardedWalk id w =
    Outcome.inWorld World.settled (walk w.reach id (w.tell (·.process true))) := by
  have hreach : (w.tell (·.process true)).reach = w.reach := rfl
  unfold guardedWalk
  rw [bind_apply, change_apply]
  dsimp only
  unfold cleaning
  rw [bind_apply, look_apply]
  dsimp only
  rw [hreach]
  cases walk w.reach id (w.tell (·.process true)) <;> rfl

/-- A walk that is asked for passes if the walk itself does and nothing depends on the
flag and the indicator, which are set around it. -/
theorem Passes.advance {R : Walked → World → World → Prop} {id : String} {force : Bool}
    (hS : ∀ g m, S g m → S g m.settled ∧ S g.settled m.settled)
    (busy : w.engine.narrative.flags.processing = true → force = false → R .alreadyRunning g w)
    (walk : Passes S (Act.walk w.reach id) g (w.ready force) Q)
    (done : ∀ halt g w, Q halt g w → R (.halted halt) g (w.settled.emit (.halted halt)) ∧
      R (.halted halt) g.settled (w.settled.emit (.halted halt))) :
    Passes S (advance id force) g w R := by
  -- what comes after the look at the flag, once what was offered is taken back
  have rest {v : World} (hv : v.tell (·.process true) = w.ready force) :
      Passes S (do
        let halt ← guardedWalk id
        Act.change (·.emit (.halted halt))
        return .halted halt) g v R := by
    have hreach : (v.tell (·.process true)).reach = w.reach := by
      rw [hv, World.reach_eq_of_setting (World.setting_ready w force)]
    have hwalk : Passes S (do Act.walk (← Act.look (·.reach)) id) g
        (v.tell (·.process true)) Q :=
      .bind (.look (fun _ => rfl) (by rw [hreach, hv]; exact walk))
    refine .bind (.bind (.change (fun _ => rfl) ?_))
    refine .cleaning World.settled_under hS (fun halt g w h => ?_) hwalk
    exact ⟨.bind (.change (by simp) (.pure (done halt g w h).1)),
      .bind (.change (by simp) (.pure (done halt g w h).2))⟩
  unfold Act.advance
  refine .bind (.look (fun _ => rfl) ?_)
  cases force with
  | true =>
    rw [Bool.not_true, Bool.and_false]
    exact .bind (.change (by simp) (rest rfl))
  | false =>
    cases hb : w.engine.narrative.flags.processing with
    | true => exact .pure (busy hb rfl)
    | false => exact rest rfl

/-- Whether a world and the one before it are of a setting. -/
def InSetting (c : Setting) (g w : World) : Prop := g.setting = c ∧ w.setting = c

/-- No walk touches the setting. -/
theorem advance_setting {c : Setting} {g w : World} {id : String} {force : Bool}
    (h : InSetting c g w) :
    Passes (InSetting c) (Act.advance id force) g w fun _ => InSetting c := by
  have step (g w : World) (id : String) (stops : List World) (out : Outcome Visit)
      (h : InSetting c g w) (hv : Visited w id stops out) :
      ∃ last, Legs (InSetting c) g stops last ∧
        Ends (After (fun _ => InSetting c) fun g w _ => InSetting c g w) last out := by
    obtain ⟨hs, ho⟩ := hv.setting
    obtain ⟨hl, hlast⟩ := Legs.of_both h.1 fun m hm => (hs m hm).trans h.2
    exact ⟨_, hl, (ho g).imp fun _ w' hw' => .const ⟨hlast, hw'.trans h.2⟩⟩
  refine .advance (fun g m hm => ?_) (fun _ _ => h)
    (.walk step _ id ⟨h.1, (w.setting_ready force).trans h.2⟩) fun halt g w h => ?_
  · simpa [InSetting] using hm
  · simpa [InSetting] using h

end Act

end StoryChat
