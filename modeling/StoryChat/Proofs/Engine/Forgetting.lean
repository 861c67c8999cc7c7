/-
What is left of a story after a reset.

An engine can be reset (`Act.resetGame`) wherever its story stands, also in the middle of
something that was left on the way. What is left then is the engine that its configuration
builds (`Engine.fresh`): that the slots could be emptied is not needed for it, and neither
is anybody who waits for them. All that this needs to know of the past is that nothing that
is asked of an engine touches its configuration or declares other variables.

When both slots are empty as well, nothing tells the engine from a fresh one. What happened
before stands in the journal, where nobody looks, and the slots answer as those that were
never used. This is a relation between worlds (`World.WithPast`) that is kept in lockstep,
so whatever is asked of both engines from then on is answered the same, and the same
happens.
-/
import StoryChat.Proofs.Engine.Dealings
import StoryChat.Proofs.Engine.Quiescence

set_option autoImplicit false

namespace StoryChat

/-! ## Engines that were dealt with -/

/-- Whether no change by hand declares other variables. -/
def Request.Plain : Request → Prop
  | .edit f => ∀ n, (f n).vars.schema = n.vars.schema
  | _ => True

/-- The worlds that dealing with an engine can lead to, which was set up with a configuration,
interrupts and perhaps something that plays cues. Any request may be left on the way, and
around the engine everything may change. -/
inductive World.Attained (config : Config) (interrupts : List Interrupt) (audible : Bool) :
    World → Prop where
  | fresh {w : World} {listening : Bool} :
      w.engine = .fresh config interrupts listening audible → Attained config interrupts audible w
  | ask {w : World} {r : Request} (p : Patience) : Attained config interrupts audible w →
      r.Plain → Attained config interrupts audible (Act.Outcome.left (r.ask (w.under p)))
  | aside {w m : World} : Attained config interrupts audible w → m.engine = w.engine →
      Attained config interrupts audible m

namespace World

variable {config : Config} {interrupts : List Interrupt} {audible : Bool} {w w' : World}

/-- Dealings lead from attained worlds to attained ones. -/
theorem Attained.dealings (h : w.Attained config interrupts audible)
    {requests : List (Patience × Request)} (hr : ∀ request ∈ requests, request.2.Plain) :
    (w.dealings requests).2.Attained config interrupts audible := by
  induction requests generalizing w with
  | nil => exact h
  | cons request requests ih =>
    obtain ⟨hfirst, hrest⟩ := List.forall_mem_cons.1 hr
    exact ih (h.ask request.1 hfirst) hrest

/-- Whether an engine is set up as it was built. -/
structure SetUp (config : Config) (interrupts : List Interrupt) (audible : Bool) (w : World) :
    Prop where
  config : w.engine.config = config
  interrupts : w.engine.interrupts = interrupts
  audible : w.engine.audible = audible
  schema : w.engine.narrative.vars.schema = w.engine.config.schema

theorem SetUp.of_engine {m : World} (h : w.SetUp config interrupts audible)
    (he : m.engine = w.engine) : m.SetUp config interrupts audible :=
  ⟨he ▸ h.config, he ▸ h.interrupts, he ▸ h.audible, he ▸ h.schema⟩

theorem SetUp.tell (h : w.SetUp config interrupts audible) {f : Narrative → Narrative}
    (hf : (f w.engine.narrative).vars.schema = w.engine.narrative.vars.schema) :
    (w.tell f).SetUp config interrupts audible :=
  ⟨h.config, h.interrupts, h.audible, hf.trans h.schema⟩

end World

namespace Act

variable {config : Config} {interrupts : List Interrupt} {audible : Bool}

/-- No kind of change touches what an engine was set up with. -/
theorem concordant_setUp : Concordant (Alone (World.SetUp config interrupts audible)) :=
  .alone (fun h he _ => h.of_engine he) (fun h hf => h.tell hf)
    fun _ h => ⟨h.config, h.interrupts, h.audible, h.schema⟩

/-- The step lemma: neither does a request, wherever it is left. -/
theorem setUp_ask {r : Request} (hr : r.Plain) :
    Maintains (World.SetUp config interrupts audible) r.ask := by
  have heed : Heeds (Together (Alone (World.SetUp config interrupts audible))) :=
    Together.heeds fun w w' h => by rw [h.1]
  refine (concordant_setUp.ask (fun _ _ => heed) (fun w w' h => ?_) fun f hf w w' h => ?_).maintains
  · exact ⟨by rw [h.1], h.2.config, h.2.interrupts, h.2.audible, h.2.schema⟩
  · subst hf
    exact ⟨by rw [h.1], h.2.tell (hr _)⟩

end Act

/-- The run lemma: whatever an engine went through, it is set up as it was built. -/
theorem World.Attained.setUp {config : Config} {interrupts : List Interrupt} {audible : Bool}
    {w : World} (h : w.Attained config interrupts audible) :
    w.SetUp config interrupts audible := by
  induction h with
  | fresh he => constructor <;> rw [he] <;> rfl
  | ask p _ hr ih =>
    have hasked := Act.setUp_ask hr _ (ih.of_engine (World.engine_under _ p))
    exact hasked.left fun _ _ hm => hm
  | aside _ he ih => exact ih.of_engine he

/-! ## Resetting -/

/-- An engine without story and script is the one that its configuration builds. -/
theorem World.SetUp.engine_cleared {config : Config} {interrupts : List Interrupt}
    {audible : Bool} {w : World} (h : w.SetUp config interrupts audible) :
    w.cleared.engine = .fresh config interrupts w.engine.listening audible := by
  obtain ⟨rfl, rfl, rfl, hschema⟩ := h
  unfold World.cleared Engine.fresh
  rw [Narrative.forget_eq, hschema]

namespace Act

/-- Nothing is left of a story once a reset has begun, wherever it is left. -/
theorem engine_resetGame (w : World) :
    (Outcome.left (resetGame w)).engine = w.cleared.engine := by
  have hremove (key : String) : Maintains (·.engine = w.cleared.engine) (removeSlot key) := by
    have hfixes : Fixes World.engine (removeSlot key) :=
      .bind (.suspend untimed_engine) fun _ _ => rfl
    exact .of_fixes hfixes fun m m' he hm => he.trans hm
  have hreset : Guards (·.engine = w.cleared.engine) resetGame w
      fun _ m => m.engine = w.cleared.engine := by
    -- the script and the story go first, then there are only slots to be emptied
    refine .bind (.change (.bind (.change (.bind (.look (.bind ?_))))))
    refine (hremove _ _ rfl).imp fun progress m hm => .bind (.look (.bind ?_))
    exact (hremove _ _ hm).imp fun name m' hm' => .pure hm'
  exact hreset.left fun _ _ hm => hm

end Act

/-! ## Worlds with a past -/

/-- Whether a world is another one with a past: it stands in the journal behind everything
else, chance goes on from there, and the slots answer as the other's do. -/
structure World.WithPast (past : List Entry) (u w : World) : Prop where
  rest : { w with saves := u.saves, draws := u.draws, journal := u.journal } = u
  journal : w.journal = u.journal ++ past
  draws : ∀ n, w.draws (n + past.length) = u.draws n
  saves : Saves.Agree u.engine.config.progressKey u.engine.config.nameKey u.saves w.saves

namespace World.WithPast

variable {past : List Entry} {u w : World}

theorem engine (h : u.WithPast past w) : w.engine = u.engine := congrArg (·.engine) h.rest

theorem clock (h : u.WithPast past w) : w.clock = u.clock := congrArg (·.clock) h.rest

theorem core (h : u.WithPast past w) : w.core = u.core := by
  have hc := congrArg World.core h.rest
  exact hc

theorem tell (h : u.WithPast past w) (f : Narrative → Narrative) :
    (u.tell f).WithPast past (w.tell f) :=
  ⟨congrArg (·.tell f) h.rest, h.journal, h.draws, h.saves⟩

theorem note (h : u.WithPast past w) (e : Entry) : (u.note e).WithPast past (w.note e) :=
  ⟨congrArg (·.note e) h.rest, congrArg (e :: ·) h.journal, h.draws, h.saves⟩

theorem emit (h : u.WithPast past w) (e : Event) : (u.emit e).WithPast past (w.emit e) := by
  unfold World.emit
  rw [h.engine]
  split
  · exact h.note _
  · exact h

theorem play (h : u.WithPast past w) (c : Cue) : (u.play c).WithPast past (w.play c) := by
  unfold World.play
  rw [h.engine, h.clock]
  split
  · exact h.note _
  · exact h

theorem answer (h : u.WithPast past w) {call : SlotCall} (hk : u.engine.config.Owns call.key) :
    (w.answer call).1 = (u.answer call).1 ∧ (u.answer call).2.WithPast past (w.answer call).2 := by
  obtain ⟨hanswer, hsaves⟩ := h.saves.answer hk
  -- the call is noted before the past, and at the same time
  refine ⟨hanswer, ?_, ?_, h.draws, hsaves⟩
  · exact congrArg (fun m : World => { m with saves := (u.saves.answer call).2 }.note
      (.call call u.clock)) h.rest
  · have hj : (w.answer call).2.journal = .call call w.clock :: w.journal := rfl
    rw [hj, h.clock, h.journal]
    rfl

/-- To keep the record is to call on a slot. -/
theorem saved (h : u.WithPast past w) : u.saved.WithPast past w.saved := by
  have hsaved (m : World) : m.saved = (m.answer (.set m.engine.config.progressKey
      m.engine.narrative.snapshot.render)).2 := rfl
  rw [hsaved, hsaved, h.engine]
  exact (h.answer (.inl rfl)).2

theorem under (h : u.WithPast past w) (p : Patience) : (u.under p).WithPast past (w.under p) :=
  ⟨congrArg (·.under p) h.rest, h.journal, h.draws, h.saves⟩

theorem listenedTo (h : u.WithPast past w) : u.listenedTo.WithPast past w.listenedTo :=
  ⟨congrArg World.listenedTo h.rest, h.journal, h.draws, h.saves⟩

theorem timed : Act.Timed (WithPast past) where
  pacing h := by rw [h.engine]
  clock h := h.clock
  patience h := congrArg (·.patience) h.rest
  pass time p h := ⟨congrArg (fun m : World => { m with clock := time, patience := p }) h.rest,
    h.journal, h.draws, h.saves⟩
  note _ h := h.note _

/-- Nothing that is asked of an engine brings back the past of its world. -/
theorem concordant : Act.Concordant (WithPast past) where
  core h := h.core
  draw h := .inr (by rw [draw, draw, h.journal, List.length_append, h.draws])
  tell h _ := h.tell _
  hold graph h := ⟨congrArg (·.holding graph) h.rest, h.journal, h.draws, h.saves⟩
  emit e h := h.emit e
  play c h := h.play c
  save h := h.saved
  suspend := timed.suspend
  pause := timed.pause
  answer hk h := h.answer hk

/-- Dealings in a world with a past are dealings in the world without it. -/
theorem dealings (h : u.WithPast past w) (requests : List (Patience × Request)) :
    (w.dealings requests).1 = (u.dealings requests).1 ∧
      (u.dealings requests).2.WithPast past (w.dealings requests).2 :=
  dealings_related h requests fun request _ _ _ hw =>
    concordant.ask (fun _ _ => Act.Together.heeds fun _ _ h => by rw [h.engine])
      (fun _ _ h => h.listenedTo) (fun f _ _ _ h => h.tell f) _ _ (hw.under request.1)

end World.WithPast

/-! ## A reset forgets everything -/

namespace World

/-- The world around another engine and over other slots, in which nothing has happened yet.
Time and chance go on. -/
def around (w : World) (engine : Engine) (saves : Saves) : World :=
  { w with engine, saves, journal := [], draws := fun n => w.draws (n + w.journal.length) }

/-- A world is what is around its engine, with a past. -/
theorem withPast_around (w : World) {saves : Saves} (h : Saves.Agree w.engine.config.progressKey
    w.engine.config.nameKey saves w.saves) : (w.around w.engine saves).WithPast w.journal w :=
  ⟨rfl, rfl, fun _ => rfl, h⟩

/-- The slots are emptied without a fault if each of them is. -/
theorem emptying_eq_ok_iff {w : World} : w.emptying = .ok () ↔
    (w.saves.remove w.engine.config.progressKey).1 = .ok () ∧
      ((w.saves.remove w.engine.config.progressKey).2.remove w.engine.config.nameKey).1 =
        .ok () := by
  unfold emptying
  cases (w.saves.remove w.engine.config.progressKey).1 with
  | error fault => exact ⟨nofun, fun h => nomatch h.1⟩
  | ok _ => exact ⟨fun h => ⟨rfl, h⟩, fun h => h.2⟩

variable {config : Config} {interrupts : List Interrupt} {audible : Bool} {w : World}

/-- A reset (`Act.resetGame`) leaves the engine that its configuration builds
(`Engine.fresh`), with whoever listens, however soon it is left and whatever the slots say. It
tries to empty both of them, and comes to the first failure. If there is none, both are empty,
and from then on the engine cannot be told from a fresh one over slots that cannot be told
from these, of which slots that are empty as well are an example: all answers are the same,
all that happens is, and what is in the slots. -/
theorem Attained.reset_forgets (h : w.Attained config interrupts audible) :
    (∀ p, (Act.Outcome.left (Act.resetGame (w.under p))).engine =
      .fresh config interrupts w.engine.listening audible) ∧
    ∃ v : World, Act.resetGame (w.under .endless) = .ok w.emptying v ∧
      v.engine = .fresh config interrupts w.engine.listening audible ∧
      v.shelf = w.shelf ∧
      v.saves = ((w.saves.remove config.progressKey).2.remove config.nameKey).2 ∧
      v.calls = .remove config.nameKey :: .remove config.progressKey :: w.calls ∧
      (w.emptying = .ok () →
        v.saves.medium.get config.progressKey = .ok none ∧
        v.saves.medium.get config.nameKey = .ok none ∧
        (∀ saves : Saves, saves.medium.Blank config.progressKey config.nameKey →
          v.saves.medium.Serves config.progressKey config.nameKey →
          (∀ n call, v.saves.refusal (v.saves.calls + n) call =
            saves.refusal (saves.calls + n) call) →
          Saves.Agree config.progressKey config.nameKey saves v.saves) ∧
        ∀ saves requests, Saves.Agree config.progressKey config.nameKey saves v.saves →
          let u := v.around (.fresh config interrupts w.engine.listening audible) saves
          (v.dealings requests).1 = (u.dealings requests).1 ∧
            (u.dealings requests).2.WithPast v.journal (v.dealings requests).2) := by
  have hfresh := h.setUp.engine_cleared
  obtain rfl := h.setUp.config
  refine ⟨fun p => (Act.engine_resetGame _).trans hfresh, _, (Act.Path.resetGame w).whole, hfresh,
    rfl, rfl, rfl, fun hempty => ?_⟩
  -- where both slots are empty, whatever answers like them cannot be told from them
  obtain ⟨hprogress, hname⟩ := emptying_eq_ok_iff.1 hempty
  have hnone := Saves.get_remove_of_none (Saves.get_remove hprogress) w.engine.config.nameKey
  have hnone' := Saves.get_remove hname
  refine ⟨hnone, hnone', fun saves hblank hserves hr => ?_, fun saves requests hagree => ?_⟩
  · exact Saves.agree_of_match hr (hblank.toMatch ⟨hserves, hnone, hnone'⟩)
  · rw [← hfresh]
    exact (withPast_around _ hagree).dealings requests

/-- A story that was played to its end, over slots that hold another one. -/
def playedOn : World :=
  { (hesitating.dealings (Request.patiently [.play (.startChapter 1 1), .play (.choose 0)])).2 with
    saves := .reliable (.memory (.ofList [("gameProgress", "a record"), ("playerName", "Ava")])) }

/-- After a reset it is as if nothing had been played and nothing kept. -/
theorem Attained.reset_forgets_playedOn : playedOn.Attained .instant [] true ∧
    playedOn.place = 2 ∧ playedOn.emptying = .ok () ∧ ∃ v : World,
      Act.resetGame (playedOn.under .endless) = .ok (.ok ()) v ∧ v.place = 0 ∧
      v.saves.medium = .memory .empty ∧
      ∀ requests, (v.dealings requests).1 = ((v.around (.fresh .instant [] true true)
        (.reliable (.memory .empty))).dealings requests).1 := by
  have hopened : hesitating.Attained .instant [] true := .fresh rfl
  have hplain : ∀ request ∈ Request.patiently [.play (.startChapter 1 1), .play (.choose 0)],
      request.2.Plain := List.forall_mem_cons.2 ⟨trivial, List.forall_mem_singleton.2 trivial⟩
  have hattained : playedOn.Attained .instant [] true :=
    (hopened.dealings hplain).aside (by dsimp only [playedOn])
  have hempty : playedOn.emptying = .ok () := emptying_eq_ok_iff.2 ⟨rfl, rfl⟩
  have hlistening : playedOn.engine.listening = true := by decide +kernel
  obtain ⟨-, v, hrun, hengine, -, hsaves, -, hafter⟩ := hattained.reset_forgets
  obtain ⟨-, -, hagree, hsame⟩ := hafter hempty
  rw [hempty] at hrun
  rw [hlistening] at hengine hsame
  have hplace : v.place = 0 := by
    rw [place, hengine]
    rfl
  have hmedium : v.saves.medium = .memory .empty := by
    rw [hsaves]
    decide +kernel
  have hrefusal : v.saves.refusal = fun _ _ => none := by
    rw [hsaves, Saves.refusal_remove, Saves.refusal_remove]
    rfl
  -- neither slots that were emptied nor fresh ones refuse anything, and nothing is in them
  have hserves : (SlotMedium.memory .empty).Serves Config.instant.progressKey
      Config.instant.nameKey := ⟨fun _ => rfl, fun _ => rfl, by decide⟩
  have hblank := hagree (.reliable (.memory .empty)) ⟨hserves, rfl, rfl⟩ (hmedium ▸ hserves)
    fun n call => congrFun (congrFun hrefusal _) call
  exact ⟨hattained, by decide +kernel, hempty, v, hrun, hplace, hmedium, fun requests =>
    (hsame _ requests hblank).1⟩

end World

end StoryChat
