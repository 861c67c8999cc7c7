/-
Neither the pace nor what is kept changes the story.

Somebody deals with an engine: operations are asked for, the record is kept and taken, the
conversation is changed by hand. What comes of this (`SameStory`) are the answers, what was
told and heard, and the conversation itself. Two differences around the engine do not show
in any of it.

One is the pace. Pauses are scaled when they are waited for (`Act.pause`) and nowhere else,
so engines that differ in the factor on waiting tell the same story and write the same
texts, one after a longer time than the other. That pauses do not vary is needed here,
since an extra is drawn anew for each engine; the draws themselves may then be different
ones.

The other is what becomes of the record. Whether it could be kept is not looked at by
anything that plays the story (`Act.persist`), so engines with different slots, of which
different calls are refused, tell the same story as long as nobody asks what is in them.
-/
import StoryChat.Proofs.Engine.Dealings
import StoryChat.Proofs.Engine.Likeness
import StoryChat.Proofs.Engine.Quiescence

set_option autoImplicit false

namespace StoryChat

/-- Whether nothing is asked that depends on what could be kept. -/
def Request.Heedless : Request → Prop
  | .play op => op.Plays
  | .edit _ | .listen => True
  | _ => False

/-- Everything that reached outside, in order and without its time: events, cues, calls on
the slots with their texts, and pauses before they are scaled. -/
def World.log (w : World) : List Entry := w.journal.reverse.map Entry.timeless

/-- Whether dealings with two engines tell the same story: the answers are the same, what
was told, heard and put into slots is the same and in the same order, and so are the
conversations and the scripts in the end. -/
structure SameStory (a b : List (Except Stop Report) × World) : Prop where
  answers : b.1 = a.1
  log : b.2.log = a.2.log
  events : b.2.events = a.2.events
  cues : b.2.cues = a.2.cues
  narrative : b.2.engine.narrative = a.2.engine.narrative
  graph : b.2.engine.graph = a.2.engine.graph

namespace World

variable {T : Surroundings → Surroundings → Prop} {w w' : World}

/-! ## Requests that are indifferent -/

/-- Worlds that are alike have told the same. -/
theorem Alike.log (h : w.Alike T w') : w'.log = w.log := by
  have hj : w'.journal.map Entry.timeless = w.journal.map Entry.timeless :=
    congrArg (·.journal) h.gist
  rw [World.log, World.log, List.map_reverse, List.map_reverse, hj]

/-- What the journal says of events and cues has no time. -/
theorem events_gist (w : World) : w.gist.events = w.events := by
  have he (e : Entry) : e.timeless.event? = e.event? := by cases e <;> rfl
  rw [events, events, gist, List.filterMap_map]
  simp only [Function.comp_def, he]

theorem cues_gist (w : World) : w.gist.cues = w.cues := by
  have he (e : Entry) : e.timeless.cue?.map (·.1) = e.cue?.map (·.1) := by cases e <;> rfl
  rw [cues, cues, gist, List.filterMap_map]
  simp only [Function.comp_def, he]

theorem Alike.listenedTo (h : w.Alike T w') : w.listenedTo.Alike T w'.listenedTo :=
  h.congr (congrArg World.listenedTo h.gist) rfl rfl

/-- Requests that come to the same one by one come to the same. -/
theorem Alike.dealings (h : w.Alike T w') (requests : List (Patience × Request))
    (ask : ∀ request ∈ requests, ∀ w w' : World, w.Alike T w' →
      Act.Outcome.Alike T (request.2.ask (w.under request.1))
        (request.2.ask (w'.under request.1))) :
    (w'.dealings requests).1 = (w.dealings requests).1 ∧
      (w.dealings requests).2.Alike T (w'.dealings requests).2 :=
  dealings_related h requests fun request hr w w' hw =>
    Act.Outcome.alike_iff.1 (ask request hr w w' hw)

end World

/-- Worlds that stay alike tell the same story. -/
theorem SameStory.of_alike {T : Surroundings → Surroundings → Prop} {w w' : World}
    {requests : List (Patience × Request)}
    (h : (w'.dealings requests).1 = (w.dealings requests).1 ∧
      (w.dealings requests).2.Alike T (w'.dealings requests).2) :
    SameStory (w.dealings requests) (w'.dealings requests) where
  answers := h.1
  log := h.2.log
  events := h.2.view World.events_gist
  cues := h.2.view World.cues_gist
  narrative := h.2.narrative
  graph := h.2.graph

namespace Act

variable {T : Surroundings → Surroundings → Prop}

/-- What plays the story is indifferent to whatever is immaterial. -/
theorem Immaterial.ask (hT : Immaterial T) {r : Request} (h : r.Heedless) :
    Indifferent T r.ask := by
  cases r with
  | play op =>
    have heed : Heeds (Together (World.Alike T)) := Together.heeds fun _ _ h => h.interrupts
    exact indifferent_iff.2 (hT.attuned.report h fun _ _ => heed)
  | edit f => exact indifferent_iff.2 (.map _ (.change fun _ _ h => h.tell f))
  | listen => exact indifferent_iff.2 (.map _ (.change fun _ _ h => h.listenedTo))
  | keep | takeUp | takeUpName | forget => exact h.elim

/-- Where the slots answer the same, so is everything. -/
theorem Faithful.ask (hT : Faithful T) (r : Request) : Indifferent T r.ask :=
  indifferent_iff.2 (hT.concordant.ask (fun _ _ => Together.heeds fun _ _ h => h.interrupts)
    (fun _ _ h => h.listenedTo) fun f _ _ _ h => h.tell f)

end Act

/-! ## The pace -/

/-- Surroundings that differ in the clock, the factor on waiting and the draws, where no pause
varies. -/
structure Surroundings.Paced (s s' : Surroundings) : Prop where
  unvaried : s.pacing.Unvaried
  saves : s'.saves = s.saves

/-- Such surroundings, in which whoever waits waits to the end. -/
structure Surroundings.Awaited (s s' : Surroundings) : Prop extends Paced s s' where
  patience : s.patience = .endless
  patience' : s'.patience = .endless

namespace World

/-- The world after a pause that is waited for to its end. -/
def paused (w : World) (span : Duration) : World :=
  { w.note (.pause span) with
    clock :=
      if w.engine.config.pacing.scale span = .zero then w.clock
      else w.clock + (w.engine.config.pacing.scale span).waitMillis }

end World

namespace Act

open Surroundings

/-- With endless patience nothing but the clock tells a long pause from a short one. -/
theorem pause_endless {w : World} (h : w.patience = .endless) (span : Duration) :
    pause span w = .ok () (w.paused span) := by
  have hw : w = w.under .endless := by
    rw [← h]
    rfl
  unfold pause
  rw [bind_apply, change_apply]
  dsimp only
  rw [bind_apply, look_apply]
  dsimp only
  by_cases hzero : w.engine.config.pacing.scale span = .zero
  · have hpaused : w.paused span = w.note (.pause span) := by
      unfold World.paused
      rw [if_pos hzero]
      rfl
    rw [hpaused]
    exact congrFun (if_pos hzero) _
  · have hpaused : w.paused span = { w.note (.pause span) with
        clock := w.clock + (w.engine.config.pacing.scale span).waitMillis } := by
      unfold World.paused
      rw [if_neg hzero]
    rw [hpaused]
    refine (congrFun (if_neg hzero) _).trans ?_
    rw [hw]
    rfl

theorem suspend_endless {w : World} (h : w.patience = .endless) : suspend w = .ok () w := by
  unfold suspend
  rw [h]

theorem faithful_awaited : Faithful Awaited where
  suspend w w' h := by
    rw [suspend_endless h.around.patience, suspend_endless h.around.patience']
    exact .ok h
  pause span w w' h := by
    rw [pause_endless h.around.patience, pause_endless h.around.patience']
    have hnoted : (w.note (.pause span)).Alike Awaited (w'.note (.pause span)) := h.note rfl
    exact .ok ⟨hnoted.gist, ⟨⟨h.around.unvaried, h.around.saves⟩, h.around.patience,
      h.around.patience'⟩⟩
  draws s s' h := .inl h.unvaried
  puts s s' key text h := by
    rw [h.saves]
    exact ⟨⟨h.unvaried, rfl⟩, h.patience, h.patience'⟩
  saves s s' h := h.saves
  keeps s s' saves h := ⟨⟨h.unvaried, rfl⟩, h.patience, h.patience'⟩

end Act

namespace World

/-- The world at some pace: with a factor on waiting, and with draws. -/
def paced (w : World) (scale : Float) (draws : Nat → Float) : World :=
  { w with
    engine := { w.engine with
      config := { w.engine.config with pacing := w.engine.config.pacing.atScale scale } }
    draws := draws }

/-- Engines that differ in nothing but the factor on waiting, whatever it is, tell the same
story (`SameStory`) and have the same slots behind it. -/
theorem tells_same_at_any_pace {w : World} (hw : w.engine.config.pacing.Unvaried)
    (scale scale' : Float) (draws draws' : Nat → Float) (requests : List Request) :
    SameStory ((w.paced scale draws).dealings (Request.patiently requests))
        ((w.paced scale' draws').dealings (Request.patiently requests)) ∧
      ((w.paced scale' draws').dealings (Request.patiently requests)).2.saves =
        ((w.paced scale draws).dealings (Request.patiently requests)).2.saves := by
  have halike : (w.paced scale draws).Alike Surroundings.Paced (w.paced scale' draws') :=
    ⟨rfl, hw, rfl⟩
  have h := halike.dealings (Request.patiently requests) fun request hr m m' hm => ?_
  · exact ⟨.of_alike h, h.2.around.saves⟩
  · -- whoever waits does so to the end
    obtain ⟨r, -, rfl⟩ := List.mem_map.1 hr
    have hwaits : (m.under .endless).Alike Surroundings.Awaited (m'.under .endless) :=
      ⟨hm.gist, ⟨hm.around.unvaried, hm.around.saves⟩, rfl, rfl⟩
    exact (Act.faithful_awaited.ask r _ _ hwaits).imp fun s s' h => h.toPaced

/-! ### A story in no time and in some -/

/-- A fresh engine of the usual configuration, in which no pause varies, over a story of
somebody who hesitates. -/
def unhurried : World :=
  .steady (.fresh { Config.standard with pacing := Pacing.standard.even } [] true true)
    (fun _ => .ok .hesitating) (.memory .empty)

/-- The story is told to its end at no pace and at the usual one. It takes no time and
then four and a half seconds, and is the same. -/
theorem tells_same_at_any_pace_unhurried :
    let requests := Request.patiently [.play (.startChapter 1 1), .play (.choose 0)]
    let inNoTime := (unhurried.paced (0.0 / 0.0) fun _ => 0.5).dealings requests
    let inTime := (unhurried.paced 1.0 fun _ => 0.25).dealings requests
    unhurried.engine.config.pacing.Unvaried ∧ SameStory inNoTime inTime ∧
      inTime.2.saves = inNoTime.2.saves ∧ inNoTime.2.clock = 0 ∧ inTime.2.clock = 4500 ∧
      inTime.2.place = 2 := by
  intro requests inNoTime inTime
  have hpace : unhurried.engine.config.pacing.Unvaried := Pacing.standard.unvaried_even
  obtain ⟨hstory, hsaves⟩ := tells_same_at_any_pace hpace (0.0 / 0.0) 1.0 (fun _ => 0.5)
    (fun _ => 0.25) [.play (.startChapter 1 1), .play (.choose 0)]
  exact ⟨hpace, hstory, hsaves, by decide +kernel, by decide +kernel, by decide +kernel⟩

end World

/-! ## What is kept -/

/-- Slots that refuse whatever is put into them. -/
def Saves.refusing : Saves :=
  ⟨.memory .empty, fun _ call => match call with
    | .set .. => some "full"
    | _ => none, 0⟩

/-- Surroundings that differ in nothing but the slots. -/
structure Surroundings.Kept (s s' : Surroundings) : Prop where
  pacing : s'.pacing = s.pacing
  clock : s'.clock = s.clock
  patience : s'.patience = s.patience
  draws : s'.draws = s.draws

namespace World

/-- Worlds that differ in what is kept may be waited for with any patience. -/
theorem Alike.under {w w' : World} (h : w.Alike Surroundings.Kept w') (p : Patience) :
    (w.under p).Alike Surroundings.Kept (w'.under p) :=
  ⟨h.gist, ⟨h.around.pacing, h.around.clock, rfl, h.around.draws⟩⟩

end World

namespace Act

open Surroundings

theorem timed_kept : Timed (World.Alike Kept) where
  pacing h := h.around.pacing
  clock h := h.around.clock
  patience h := h.around.patience
  pass _ _ h := ⟨h.gist, ⟨h.around.pacing, rfl, rfl, h.around.draws⟩⟩
  note _ h := h.note rfl

theorem immaterial_kept : Immaterial Kept where
  suspend := indifferent_iff.2 timed_kept.suspend
  pause span := indifferent_iff.2 (timed_kept.pause span)
  draws _ _ h := .inr h.draws
  puts _ _ _ _ h := ⟨h.pacing, h.clock, h.patience, h.draws⟩

end Act

namespace World

/-- The world over other slots. -/
def keeping (w : World) (saves : Saves) : World := { w with saves }

/-- Engines that differ in nothing but their slots, and in which calls on them are refused,
tell the same story (`SameStory`) as long as nobody asks what is in them (`Request.Heedless`).
Any request may be left on the way, in both at the same time. -/
theorem tells_same_whatever_is_kept (w : World) (saves saves' : Saves)
    {requests : List (Patience × Request)} (h : ∀ request ∈ requests, request.2.Heedless) :
    SameStory ((w.keeping saves).dealings requests) ((w.keeping saves').dealings requests) := by
  have halike : (w.keeping saves).Alike Surroundings.Kept (w.keeping saves') :=
    ⟨rfl, rfl, rfl, rfl, rfl⟩
  refine .of_alike (halike.dealings requests fun request hr m m' hm => ?_)
  exact Act.immaterial_kept.ask (h request hr) _ _ (hm.under request.1)

/-- The story is the same if nothing of it can be kept. -/
theorem tells_same_whatever_is_kept_refusing :
    let requests := Request.patiently [.play (.startChapter 1 1), .play (.choose 0)]
    let kept := (hesitating.keeping (.reliable (.memory .empty))).dealings requests
    let lost := (hesitating.keeping .refusing).dealings requests
    (∀ request ∈ requests, request.2.Heedless) ∧ SameStory kept lost ∧
      kept.2.saves.medium ≠ .memory .empty ∧ lost.2.saves.medium = .memory .empty ∧
      lost.2.place = 2 := by
  intro requests kept lost
  have hheedless : ∀ request ∈ requests, request.2.Heedless :=
    List.forall_mem_cons.2 ⟨rfl, List.forall_mem_singleton.2 rfl⟩
  exact ⟨hheedless, hesitating.tells_same_whatever_is_kept _ _ hheedless,
    by decide +kernel, by decide +kernel, by decide +kernel⟩

end World

end StoryChat
