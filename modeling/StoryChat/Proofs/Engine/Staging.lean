/-
Operations change the scene by steps.

Between two steps an operation leaves the scene alone (`Still`), so wherever it ends,
stops or is left, the scene is some number of steps from the one before (`Stages`).
This is shown here for the walk, node kind by node kind, for every amount of patience.
At the end of each delivery nothing is indicated any more, and this is what the steps
behind it are owed.
-/
import StoryChat.Proofs.Engine.Scene
import StoryChat.Proofs.Engine.Upkeep

set_option autoImplicit false

namespace StoryChat

/-! ## What changes no scene -/

namespace World

variable (w : World)

@[simp] theorem scene_asked (key : String) : (w.asked key).scene = w.scene := rfl

@[simp] theorem scene_put (key text : String) : (w.put key text).scene = w.scene := rfl

@[simp] theorem scene_emptied (key : String) : (w.emptied key).scene = w.scene := rfl

@[simp] theorem scene_saved : w.saved.scene = w.scene := rfl

@[simp] theorem scene_goTo (node : Option String) : (w.tell (·.goTo node)).scene = w.scene := rfl

@[simp] theorem scene_named (name : String) : (w.named name).scene = w.scene := rfl

@[simp] theorem scene_at (id : String) : (w.at id).scene = w.scene := rfl

theorem scene_diverted (name : String) (graph : Graph) :
    (w.diverted name graph).scene = w.scene.install graph := rfl

@[simp] theorem scene_called : w.called.scene = w.scene := by
  unfold called
  split <;> rfl

theorem scene_recalled (p : Progress) : (w.recalled p).scene =
    { w.scene with vars := w.scene.vars.restore p.vars, messages := p.messages } := rfl

theorem scene_opened (id : ScriptId) (graph : Graph) :
    (w.opened id graph).scene = w.scene.install graph := by
  cases id <;> rfl

theorem scene_chosen (c : Choice) : (w.chosen c).scene = w.scene.choose c := by
  let m := Act.choiceMessage c (w.tell (·.await false))
  let said := ((w.tell fun n => (n.await false).append m).emit (.message m)).play .send
  have hsaid : said.scene = (w.scene.post m).play .send := by
    rw [scene_play, scene_emit]
    rfl
  change { said.scene with vars := said.scene.vars.applyImpact c.impact, choices := [] } = _
  rw [hsaid]
  rfl

end World

namespace Act

variable {α β : Type} {calm : Prop}

theorem untimed_scene : Untimed World.scene := ⟨fun _ _ => rfl, fun _ _ => rfl, fun _ _ => rfl⟩

/-- Whether an operation leaves the scene as it is, however it comes out. -/
def Still (act : Act α) : Prop := ∀ w, (Outcome.left (act w)).scene = w.scene

theorem Still.pure (a : α) : Still (pure a) := Fixes.pure a

theorem Still.look (f : World → α) : Still (look f) := Fixes.look f

theorem Still.stop (s : Stop) : Still (stop s : Act α) := Fixes.stop s

theorem Still.change {f : World → World} (hf : ∀ w, (f w).scene = w.scene) : Still (change f) := hf

theorem Still.bind {first : Act β} {next : β → Act α} (h : Still first)
    (h' : ∀ b, Still (next b)) : Still (first >>= next) := Fixes.bind h h'

theorem Still.suspend : Still suspend := Fixes.suspend untimed_scene

theorem Still.pause (span : Duration) : Still (pause span) := Fixes.pause untimed_scene span

theorem Still.drawn (f : Pacing → Float → Option Duration) : Still (drawn f) := Fixes.drawn f

theorem Still.pauseIn (f : Pacing → Window) : Still (pauseIn f) := Fixes.pauseIn untimed_scene f

theorem Still.persist : Still persist :=
  .bind (.bind (.look _) fun _ => .bind .suspend fun _ _ => rfl) fun _ => .pure _

theorem Still.goOn (next : Option String) : Still (goOn next) :=
  .bind (.change fun _ => rfl) fun _ => .bind .persist fun _ => .pure _

/-! ## The logic -/

/-- The operation, from `w`, changes the scene by steps, and `Q` holds if it ends. -/
structure Stages (calm : Prop) (act : Act α) (w : World) (Q : α → World → Prop) : Prop where
  steps : Scene.Steps calm w.scene (Outcome.left (act w)).scene
  ends : ∀ a m, act w = .ok a m → Q a m

variable {w : World} {Q : α → World → Prop}

/-- What leaves the scene alone takes no step. -/
theorem Stages.still {act : Act α} (hact : Still act)
    (h : ∀ a m, act w = .ok a m → m.scene = w.scene → Q a m) : Stages calm act w Q := by
  refine ⟨?_, fun a m he => h a m he ?_⟩
  · rw [hact w]
  · have hscene := hact w
    rw [he] at hscene
    exact hscene

/-- An operation that has ended in the same scene. -/
theorem Stages.still_at {act : Act α} {a : α} {m : World} (h : act w = .ok a m)
    (hm : m.scene = w.scene) (hQ : Q a m) : Stages calm act w Q where
  steps := by
    rw [h, Outcome.left, hm]
  ends b m' he := by
    rw [h] at he
    cases he
    exact hQ

theorem Stages.pure {a : α} (h : Q a w) : Stages calm (pure a) w Q :=
  ⟨.refl, fun _ _ he => by cases he; exact h⟩

theorem Stages.look {f : World → α} (h : Q (f w) w) : Stages calm (look f) w Q :=
  ⟨.refl, fun _ _ he => by cases he; exact h⟩

/-- What is done in one step. -/
theorem Stages.step {act : Act α} {a : α} {m : World} (h : act w = .ok a m)
    (step : Scene.Step calm w.scene m.scene) (hQ : Q a m) : Stages calm act w Q where
  steps := by
    rw [h]
    exact .single step
  ends b m' he := by
    rw [h] at he
    cases he
    exact hQ

theorem Stages.change {Q : Unit → World → Prop} {f : World → World}
    (step : Scene.Step calm w.scene (f w).scene) (h : Q () (f w)) :
    Stages calm (change f) w Q := .step (change_apply f w) step h

theorem Stages.bind {Q : β → World → Prop} {first : Act α} {next : α → Act β}
    (h : Stages calm first w fun a m => Stages calm (next a) m Q) :
    Stages calm (first >>= next) w Q := by
  obtain ⟨hsteps, hends⟩ := h
  constructor
  · rw [bind_apply]
    cases hr : first w with
    | error s m =>
      rw [hr] at hsteps
      exact hsteps
    | ok a m =>
      rw [hr] at hsteps
      exact hsteps.trans (hends a m hr).steps
  · intro b m' he
    rw [bind_apply] at he
    cases hr : first w with
    | error s m =>
      rw [hr] at he
      cases he
    | ok a m =>
      rw [hr] at he
      exact (hends a m hr).ends b m' he

theorem Stages.imp {R : α → World → Prop} {act : Act α} (h : Stages calm act w Q)
    (hQ : ∀ a m, Q a m → R a m) : Stages calm act w R :=
  ⟨h.steps, fun a m he => hQ a m (h.ends a m he)⟩

theorem Stages.ite {c : Prop} [Decidable c] {act act' : Act α} (h : c → Stages calm act w Q)
    (h' : ¬ c → Stages calm act' w Q) : Stages calm (if c then act else act') w Q := by
  split
  · next hc => exact h hc
  · next hc => exact h' hc

/-- A world with a script in which nothing is indicated, if that is known at all. -/
structure Poised (calm : Prop) (graph : Option Graph) (w : World) : Prop where
  graph : w.scene.graph = graph
  quiet : calm → w.scene.indicator = .idle

variable {graph : Option Graph}

theorem Poised.congr {m : World} (h : Poised calm graph w) (hm : m.scene = w.scene) :
    Poised calm graph m :=
  ⟨(congrArg Scene.graph hm).trans h.graph,
    fun hc => (congrArg Scene.indicator hm).trans (h.quiet hc)⟩

theorem Poised.still {act : Act α} (h : Poised calm graph w) (hact : Still act) :
    Stages calm act w fun _ => Poised calm graph := .still hact fun _ _ _ hm => h.congr hm

/-! ## Single nodes -/

/-- Whatever was indicated, nothing is indicated any more. -/
theorem stages_hide (h : w.scene.graph = graph) :
    Stages calm (change (·.display .idle)) w fun _ => Poised calm graph := by
  refine .change ?_ ⟨?_, fun _ => ?_⟩
  · rw [World.scene_display]
    exact .hide
  · rw [World.scene_display]
    exact h
  · rw [World.scene_display]
    rfl

/-- Somebody is seen writing for a while. -/
theorem Poised.write {i : Indicator} {act : Act α} (h : Poised calm graph w)
    (hi : i.sender?.isSome) (hact : Still act) :
    Stages calm (do
      change fun w => (w.display i).play .typing
      let _ ← act
      change (·.display .idle)) w fun _ => Poised calm graph := by
  have hshown : ((w.display i).play .typing).scene = (w.scene.display i).play .typing := by
    rw [World.scene_play, World.scene_display]
  refine .bind (.change ?_ (.bind (.still hact fun _ m _ hm => stages_hide ?_)))
  · rw [hshown]
    exact .write hi h.quiet
  · rw [hm, hshown]
    exact h.graph

/-- The last message of the player is read, if there is one. -/
theorem stages_markRead (hi : w.scene.indicator = .reading) :
    Stages calm (change fun w => match w.engine.narrative.markRead with
      | (none, _) => w
      | (some id, narrative) => (w.tell fun _ => narrative).emit (.read id)) w
      fun _ m => m.scene.graph = w.scene.graph := by
  cases hmark : Message.markLastOfPlayer? w.engine.narrative.messages with
  | none =>
    refine .still_at (m := w) (a := ()) ?_ rfl rfl
    rw [change_apply, Narrative.markRead, hmark]
  | some found =>
    obtain ⟨id, messages⟩ := found
    let marked : Narrative := { w.engine.narrative with messages := messages }
    have hscene : ((w.tell fun _ => marked).emit (.read id)).scene =
        { w.scene with messages }.emit (.read id) := World.scene_emit _ _
    refine .step (m := (w.tell fun _ => marked).emit (.read id)) (a := ()) ?_ ?_ ?_
    · rw [change_apply, Narrative.markRead, hmark]
    · rw [hscene]
      exact .read hi hmark
    · rw [hscene]
      rfl

theorem Poised.readAnswer (h : Poised calm graph w) :
    Stages calm readAnswer w fun _ => Poised calm graph := by
  have hshown : (w.display .reading).scene = w.scene.display .reading := w.scene_display _
  refine .bind (.change ?_ (.bind (.still (.pauseIn _) fun _ m _ hm => .bind ?_)))
  · rw [hshown]
    exact .startReading h.quiet
  rw [hshown] at hm
  -- the pause may not take the indicator away, or nothing could be read
  have hi : m.scene.indicator = .reading := by
    rw [hm]
    rfl
  have hg : m.scene.graph = graph := by
    rw [hm]
    exact h.graph
  refine (stages_markRead hi).imp fun _ m hmarked => .bind ?_
  refine (stages_hide (hmarked.trans hg)).imp fun _ m hidle => .bind ?_
  exact (hidle.still (.pauseIn _)).imp fun _ m hidle => hidle.still (.change fun _ => rfl)

theorem Poised.prepare (h : Poised calm graph w) (n : Node) :
    Stages calm (prepare n) w fun _ => Poised calm graph := by
  unfold Act.prepare
  cases n.sender with
  | player => exact .pure h
  | system => exact .bind ((h.still (.drawn _)).imp fun span m hm => hm.still (.pause span))
  | npc name =>
    refine .bind ((h.still (.drawn _)).imp fun span m hm => .ite (fun _ => .pure hm) fun _ => ?_)
    refine hm.write ?_ (.pause span)
    unfold indicatorBefore
    split <;> rfl

/-- What a node says is heard if it is not the player who says it. -/
theorem Poised.speak (h : Poised calm graph w) (n : Node) :
    Stages calm (speak n) w fun _ => Poised calm graph := by
  have hposted : ((w.tell (·.append (messageOf w n))).emit (.message (messageOf w n))).scene =
      w.scene.post (messageOf w n) := World.scene_emit _ _
  -- the cue comes behind the message, and both are one step
  have hsaid : ∃ m, Act.speak n w = .ok () m ∧ m.scene = w.scene.say (messageOf w n) := by
    by_cases hn : n.sender = .player
    · refine ⟨(w.tell (·.append (messageOf w n))).emit (.message (messageOf w n)), ?_, ?_⟩
      · unfold Act.speak
        rw [bind_apply, post, change_apply, if_neg (not_not_intro hn)]
        rfl
      · rw [hposted, Scene.say, if_pos (show (messageOf w n).sender = .player from hn)]
    · refine ⟨((w.tell (·.append (messageOf w n))).emit (.message (messageOf w n))).play .receive,
        ?_, ?_⟩
      · unfold Act.speak
        rw [bind_apply, post, change_apply, if_pos hn]
        rfl
      · rw [World.scene_play, hposted, Scene.say]
        exact (if_neg (show (messageOf w n).sender ≠ .player from hn)).symm
  obtain ⟨m, hact, hm⟩ := hsaid
  have hpoised : Poised calm graph m := by
    constructor
    · rw [hm, Scene.say]
      split <;> exact h.graph
    · intro hc
      rw [hm, Scene.say]
      split <;> exact h.quiet hc
  refine .step hact ?_ hpoised
  rw [hm]
  exact .say rfl h.quiet

theorem Poised.perform {id : String} {n : Node} (hn : graph.bind (·.find? id) = some n)
    (h : Poised calm graph w) :
    Stages calm (perform n.actions) w fun _ => Poised calm graph := by
  have hnode : w.scene.findNode? id = some n := by
    rw [Scene.findNode?, h.graph, hn]
  refine .change ?_ ⟨?_, fun hc => ?_⟩
  · rw [World.scene_acts]
    exact .act hnode
  · rw [World.scene_acts]
    exact h.graph
  · rw [World.scene_acts]
    exact h.quiet hc

theorem Poised.deliver {id : String} {n : Node} (hn : graph.bind (·.find? id) = some n)
    (h : Poised calm graph w) :
    Stages calm (deliver n) w fun _ => Poised calm graph := by
  rw [deliver_eq]
  have hread : Stages calm (readFirst n) w fun _ => Poised calm graph :=
    .bind (.look (.ite (fun _ => h.readAnswer) fun _ => .pure h))
  refine .bind (hread.imp fun _ m hm => .bind ((hm.prepare n).imp fun _ m hm => ?_))
  refine .bind ((hm.speak n).imp fun _ m hm => .bind ?_)
  have hbehind : Stages calm (readBehind n) m fun _ => Poised calm graph :=
    .ite (fun _ => .bind ((hm.still (.drawn _)).imp fun span m hm => hm.still (.pause span)))
      fun _ => .pure hm
  refine hbehind.imp fun _ m hm => .bind ((hm.perform hn).imp fun _ m hm => ?_)
  exact .bind (.look (hm.still (.goOn _)))

theorem Poised.pretend (h : Poised calm graph w) (sender : Sender) (left : Nat) :
    Stages calm (pretend sender left) w fun _ => Poised calm graph := by
  induction left generalizing w with
  | zero => exact .pure h
  | succ left ih =>
    -- one turn of typing, and what comes behind it
    have hturn := h.write (i := .typing sender) rfl (Still.pauseIn (·.fakeTyping))
    have hrest {m : World} (hm : Poised calm graph m) : Stages calm
        (if left = 0 then pure () else do
          pauseIn (·.fakeTypingPause)
          Act.pretend sender left) m fun _ => Poised calm graph :=
      .ite (fun _ => .pure hm) fun _ => .bind ((hm.still (.pauseIn _)).imp fun _ m hm => ih hm)
    have hboth := Stages.bind (hturn.imp fun _ m hm => hrest hm)
    rw [bind_assoc] at hboth
    unfold Act.pretend
    simpa only [bind_assoc] using hboth

theorem Poised.fakeTyping {id : String} {n : Node} (hn : graph.bind (·.find? id) = some n)
    (h : Poised calm graph w) :
    Stages calm (fakeTyping n) w fun _ => Poised calm graph := by
  refine .bind (.look (.bind ((h.pretend n.sender _).imp fun _ m hm => ?_)))
  exact .bind ((hm.perform hn).imp fun _ m hm => hm.still (.goOn _))

theorem Poised.offer {id : String} {n : Node} (hn : graph.bind (·.find? id) = some n)
    (h : Poised calm graph w) :
    Stages calm (offer n) w fun _ => Poised calm graph := by
  have hnode : w.scene.findNode? id = some n := by
    rw [Scene.findNode?, h.graph, hn]
  have hoffered : ((w.tell (·.present (optionsOf w n))).emit (.choices (optionsOf w n))).scene =
      { w.scene with choices := optionsOf w n }.emit (.choices (optionsOf w n)) :=
    World.scene_emit _ _
  -- the player's name in a text makes no difference to what an option does
  have himpact : (optionsOf w n).map Choice.impact = n.choices.map Choice.impact := by
    rw [optionsOf, List.map_map]
    rfl
  refine .change ?_ ⟨?_, fun hc => ?_⟩
  · rw [hoffered]
    exact .offer hnode himpact h.quiet
  · rw [hoffered]
    exact h.graph
  · rw [hoffered]
    exact h.quiet hc

/-- A script that is asked for comes from the shelf. -/
theorem stages_fetch (id : ScriptId) (w : World) :
    Stages calm (fetch id) w fun r m =>
      m.scene = w.scene ∧ r = (w.shelf id).map Graph.ofDocument := by
  refine .still (.bind .suspend fun _ => .look _) fun r m he hm => ⟨hm, ?_⟩
  obtain ⟨u, v, hs, hl⟩ := bind_eq_ok he
  have hshelf : v.shelf = w.shelf := congrArg (·.setting.shelf) (show v.scene = w.scene by
    have hstill := Still.suspend w
    rwa [hs] at hstill)
  rw [look_apply, hshelf] at hl
  cases hl
  rfl

/-- The script of the next part may take the place of this one's. -/
theorem stages_endPart {n : Node} (h : calm → w.scene.indicator = .idle) :
    Stages calm (endPart n) w fun _ m => calm → m.scene.indicator = .idle := by
  -- how it goes on with whatever title was found
  have hend {m : World} (title : Option String) (hm : calm → m.scene.indicator = .idle) :
      Stages calm (persist >>= fun _ => change (·.emit (.partEnded n.nextPart title)) >>= fun _ =>
        pure (Halt.partEnd n.nextPart)) m fun _ m => calm → m.scene.indicator = .idle := by
    refine .bind (.still .persist fun _ m' _ hm' => .bind (.change ?_ (.pure ?_)))
    · rw [World.scene_emit, hm']
      exact .endPart hm
    · rw [World.scene_emit, hm']
      exact hm
  unfold Act.endPart
  refine .bind (.still (.change fun _ => rfl) fun _ m _ hm => ?_)
  have hm : calm → m.scene.indicator = .idle := by
    rw [hm]
    exact h
  cases hpart : n.nextPart with
  | none =>
    rw [hpart] at hend
    exact .bind (.pure (hend none hm))
  | some part =>
    rw [hpart] at hend
    refine .bind (.still (.change fun _ => rfl) fun _ m' _ hm' => ?_)
    have hm' : calm → m'.scene.indicator = .idle := by
      rw [hm']
      exact hm
    refine .bind (.look (.bind ((stages_fetch _ m').imp fun r v hv => ?_)))
    obtain ⟨hv, rfl⟩ := hv
    have hidle : calm → v.scene.indicator = .idle := by
      rw [hv]
      exact hm'
    cases hs : m'.shelf (.part m'.engine.narrative.chapter part) with
    | error fault => exact .bind (.pure (hend none hidle))
    | ok d =>
      have hload : v.scene.setting.shelf (.part m'.engine.narrative.chapter part) = .ok d := by
        rw [hv]
        exact hs
      refine .bind (.change (.load hload) (.bind ?_))
      refine .still (.change fun _ => rfl) fun _ u _ hu => ?_
      refine .bind (.pure (hend _ ?_))
      rw [hu]
      exact hidle

/-! ## The walk -/

/-- The step lemma: a visit changes the scene by steps, and behind it nothing is
indicated. -/
theorem stages_visit (id : String) (h : calm → w.scene.indicator = .idle) :
    Stages calm (visit id) w fun _ m => calm → m.scene.indicator = .idle := by
  refine .bind (.look ?_)
  cases hn : w.findNode? id with
  | none => exact .pure h
  | some n =>
    refine .bind (.still (.change fun _ => rfl) fun _ m _ hm => ?_)
    have hpoised : Poised calm w.engine.graph m := by
      constructor
      · rw [hm]
        rfl
      · rw [hm]
        exact h
    -- nodes of all but three kinds are simply delivered
    have hdeliver : Stages calm (do return Visit.ofNext (← deliver n)) m
        fun _ m => calm → m.scene.indicator = .idle :=
      .bind ((hpoised.deliver hn).imp fun _ m hm => .pure hm.quiet)
    cases n.kind with
    | partEnd => exact .bind ((stages_endPart hpoised.quiet).imp fun _ m hm => .pure hm)
    | choice => exact .bind ((hpoised.offer hn).imp fun _ m hm => .pure hm.quiet)
    | typingFake => exact .bind ((hpoised.fakeTyping hn).imp fun _ m hm => .pure hm.quiet)
    | message | text | audio | image | other => exact hdeliver

/-- The run lemma: so does a walk. -/
theorem stages_walk (left : Nat) (id : String) (h : calm → w.scene.indicator = .idle) :
    Stages calm (walk left id) w fun _ _ => True := by
  induction left generalizing w id with
  | zero => exact .still (.stop _) fun _ _ _ _ => trivial
  | succ left ih =>
    refine .bind ((stages_visit id h).imp fun v m hm => ?_)
    cases v with
    | halt halt => exact .pure trivial
    | next id' => exact ih id' hm

/-- How a walk that is asked for comes out. It takes back and puts up what it needs before
its steps and puts it down behind them, and tells how it ended. -/
inductive Walks (calm : Prop) (s : Scene) : Outcome Walked → Prop where
  | refused {m : World} : s.processing = true → m.scene = s →
      Walks calm s (.ok .alreadyRunning m)
  | halted {force : Bool} {halt : Halt} {t : Scene} {m : World} :
      Scene.Steps calm (s.ready force) t → m.scene = t.settled.emit (.halted halt) →
      Walks calm s (.ok (.halted halt) m)
  | stopped {force : Bool} {stop : Stop} {t : Scene} {m : World} :
      Scene.Steps calm (s.ready force) t → m.scene = t.settled →
      Walks calm s (.error stop m)

/-- What comes of a walk behind the question whether one is under way. -/
theorem walks_guarded {force : Bool} {id : String} {v : World} {s : Scene}
    (hv : (v.tell (·.process true)).scene = s.ready force)
    (h : calm → (s.ready force).indicator = .idle) :
    Walks calm s ((do
      let halt ← guardedWalk id
      change (·.emit (.halted halt))
      return .halted halt : Act Walked) v) := by
  have hquiet : calm → (v.tell (·.process true)).scene.indicator = .idle := by
    rw [hv]
    exact h
  have hsteps := (stages_walk v.reach id hquiet).steps
  rw [hv] at hsteps
  rw [bind_apply, guardedWalk_apply]
  cases hr : walk v.reach id (v.tell (·.process true)) with
  | error stop m =>
    rw [hr] at hsteps
    exact .stopped hsteps m.scene_settled
  | ok halt m =>
    rw [hr] at hsteps
    refine .halted hsteps ?_
    rw [World.scene_emit, World.scene_settled]
    rfl

theorem advance_walks (id : String) (force : Bool) (h : calm → w.scene.indicator = .idle) :
    Walks calm w.scene (Act.advance id force w) := by
  unfold Act.advance
  rw [bind_apply, look_apply]
  by_cases hb : (w.engine.narrative.flags.processing && !force) = true
  · simp only [hb, if_true]
    exact .refused (Bool.and_eq_true_iff.1 hb).1 rfl
  · simp only [hb]
    cases force with
    | false => exact walks_guarded (w.scene_ready false) h
    -- who forces a walk puts away what is indicated
    | true => exact walks_guarded (w.scene_ready true) fun _ => rfl

end Act

end StoryChat
