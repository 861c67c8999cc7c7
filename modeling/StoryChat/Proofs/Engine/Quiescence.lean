/-
The protocol of events, and that nothing goes on between operations.

A listener may take the events for a conversation of its own: it is shown that somebody
writes or reads, and then that nobody does any more, and in between nothing is told but
what was read. This is a protocol with one state, the indicator that is shown, and
`Indicator.after?` is its table. The engine keeps to it, and the state that a listener
has reached is at all times the engine's own: this is the invariant of the steps
(`Shows`). A walk that is left half-way puts the indicator away like any other
(`Act.guardedWalk`), so between operations the state is always the first one again.

That a walk ended is told by the walk itself, behind its last step and once (`EndsOnce`).
No step tells it.
-/
import StoryChat.Proofs.Engine.Opening

set_option autoImplicit false

namespace StoryChat

/-! ## The protocol -/

/-- What is indicated behind an event, which may not come if there is no answer. An
indicator is shown when there was none, and put away before another one is. -/
def Indicator.after? (shown : Indicator) : Event → Option Indicator
  | .indicator i => if shown = .idle ↔ i ≠ .idle then some i else none
  | .read _ => if shown = .reading then some shown else none
  | .message _ | .choices _ | .partEnded _ _ | .halted _ =>
    if shown = .idle then some shown else none

/-- What is indicated behind all of these events, from the first on. -/
def Indicator.afterAll? (events : List Event) : Option Indicator :=
  events.foldlM Indicator.after? .idle

namespace Scene

variable {s t : Scene}

/-- Whoever listens has been shown what is indicated. -/
def Shows (s : Scene) : Prop :=
  s.setting.listening = true → Indicator.afterAll? s.events = some s.indicator

/-- An event that may come keeps listeners up to date. -/
theorem Shows.emit {e : Event} {i : Indicator} (h : s.Shows)
    (he : s.indicator.after? e = some i) : ({ s with indicator := i }.emit e).Shows := by
  intro hl
  have hevents : ({ s with indicator := i }.emit e).events = s.events ++ [e] := if_pos hl
  rw [hevents, Indicator.afterAll?, List.foldlM_append, ← Indicator.afterAll?, h hl]
  change s.indicator.after? e >>= (fun i => pure i) = some i
  rw [he]
  rfl

/-- What is told while nothing is indicated changes nothing about that. -/
theorem Shows.tell {e : Event} (h : s.Shows) (he : s.indicator.after? e = some s.indicator) :
    (s.emit e).Shows := h.emit he

theorem Shows.congr (h : s.Shows) (hs : t.setting = s.setting) (he : t.events = s.events)
    (hi : t.indicator = s.indicator) : t.Shows := by
  intro hl
  rw [he, hi]
  rw [hs] at hl
  exact h hl

/-- An indicator may be put away whatever it is. -/
theorem Shows.hide (h : s.Shows) : (s.display .idle).Shows := by
  by_cases hi : s.indicator = .idle
  · rw [display_of_eq hi]
    exact h
  · rw [display_of_ne hi]
    refine h.emit (if_pos ?_)
    simp [hi]

/-- An indicator may be shown where there is none. -/
theorem Shows.display (h : s.Shows) (hs : s.indicator = .idle) {i : Indicator}
    (hi : i ≠ .idle) : (s.display i).Shows := by
  have hne : s.indicator ≠ i := by
    rw [hs]
    exact hi.symm
  rw [display_of_ne hne]
  refine h.emit (if_pos ?_)
  simp [hs, hi]

/-- The step lemma of the protocol. -/
theorem Step.shows (h : Step True s t) (hs : s.Shows) : t.Shows := by
  cases h with
  | write hi hidle =>
    have hne : ∀ i : Indicator, i.sender?.isSome → i ≠ .idle := by
      rintro i hi rfl
      cases hi
    exact (hs.display (hidle trivial) (hne _ hi)).congr rfl rfl rfl
  | startReading hidle => exact hs.display (hidle trivial) nofun
  -- what is read is told while reading is what is indicated
  | @read id messages hreading hmarked =>
    have hmarked : ({ s with messages } : Scene).Shows := hs.congr rfl rfl rfl
    exact hmarked.tell (if_pos hreading)
  | hide => exact hs.hide
  | @say m ht hidle =>
    have hposted : (s.post m).Shows := by
      have happended : ({ s with messages := s.messages ++ [m] } : Scene).Shows :=
        hs.congr rfl rfl rfl
      exact happended.tell (if_pos (hidle trivial))
    unfold Scene.say
    split
    · exact hposted
    · exact hposted.congr rfl rfl rfl
  | act => exact hs.congr rfl rfl rfl
  | @offer id n choices hn himpact hidle =>
    have hchosen : ({ s with choices } : Scene).Shows := hs.congr rfl rfl rfl
    exact hchosen.tell (if_pos (hidle trivial))
  | load => exact hs.congr rfl rfl rfl
  | endPart hidle => exact hs.tell (if_pos (hidle trivial))

/-! ## Ends of walks -/

/-- The events of one scene go on in the other, if anybody listens, and the end of a walk
is not among those that came. -/
structure Extends (s t : Scene) : Prop where
  setting : t.setting = s.setting
  events : ∃ events, t.events = s.events ++ events ∧ (∀ halt, Event.halted halt ∉ events) ∧
    (s.setting.listening ≠ true → events = [])

theorem Extends.of_eq (hs : t.setting = s.setting) (h : t.events = s.events) : s.Extends t :=
  ⟨hs, [], by rw [h, List.append_nil], fun _ => List.not_mem_nil, fun _ => rfl⟩

theorem Extends.trans {u : Scene} (h : s.Extends t) (h' : t.Extends u) : s.Extends u := by
  obtain ⟨hs, events, he, hnone, hdeaf⟩ := h
  obtain ⟨hs', events', he', hnone', hdeaf'⟩ := h'
  refine ⟨hs'.trans hs, events ++ events', by rw [he', he, List.append_assoc],
    fun halt hmem => ?_, fun hl => ?_⟩
  · rcases List.mem_append.1 hmem with hmem | hmem
    · exact hnone halt hmem
    · exact hnone' halt hmem
  · rw [hdeaf hl, hdeaf' (by rwa [hs])]
    rfl

/-- Nothing comes if nobody listens. -/
theorem Extends.unheard (h : s.Extends t) (hl : s.setting.listening ≠ true) :
    t.events = s.events := by
  obtain ⟨-, events, he, -, hdeaf⟩ := h
  rw [he, hdeaf hl, List.append_nil]

theorem Extends.emit (s : Scene) {e : Event} (he : ∀ halt, e ≠ .halted halt) :
    s.Extends (s.emit e) := by
  by_cases hl : s.setting.listening = true
  · refine ⟨rfl, [e], if_pos hl, fun halt hmem => ?_, fun hdeaf => absurd hl hdeaf⟩
    exact he halt (List.mem_singleton.1 hmem).symm
  · exact .of_eq rfl (if_neg hl)

theorem Extends.display (s : Scene) (i : Indicator) : s.Extends (s.display i) := by
  by_cases hi : s.indicator = i
  · rw [display_of_eq hi]
    exact .of_eq rfl rfl
  · have hshown : s.Extends { s with indicator := i } := .of_eq rfl rfl
    rw [display_of_ne hi]
    exact hshown.trans (.emit _ nofun)

theorem Extends.post (s : Scene) (m : Message) : s.Extends (s.post m) := by
  have happended : s.Extends { s with messages := s.messages ++ [m] } := .of_eq rfl rfl
  exact happended.trans (.emit _ nofun)

/-- No step tells that a walk ended. -/
theorem Step.extends {calm : Prop} (h : Step calm s t) : s.Extends t := by
  cases h with
  | @write i => exact (Extends.display s i).trans (.of_eq rfl rfl)
  | startReading => exact .display s .reading
  | @read id messages =>
    have hmarked : s.Extends { s with messages } := .of_eq rfl rfl
    exact hmarked.trans (.emit _ nofun)
  | hide => exact .display s .idle
  | @say m =>
    unfold Scene.say
    split
    · exact .post s m
    · exact (Extends.post s m).trans (.of_eq rfl rfl)
  | act | load => exact .of_eq rfl rfl
  | @offer id n choices =>
    have hchosen : s.Extends { s with choices } := .of_eq rfl rfl
    exact hchosen.trans (.emit _ nofun)
  | endPart => exact .emit s nofun

/-! ## Around the steps -/

/-- No walk is under way and nothing is indicated. -/
structure Idle (s : Scene) : Prop where
  processing : s.processing = false
  indicator : s.indicator = .idle

theorem Idle.settled (s : Scene) : s.settled.Idle := ⟨rfl, rfl⟩

theorem Shows.settled (h : s.Shows) : s.settled.Shows := by
  have hdown : ({ s with processing := false } : Scene).Shows := h.congr rfl rfl rfl
  exact hdown.hide

theorem Shows.ready (h : s.Shows) (force : Bool) : (s.ready force).Shows := by
  cases force with
  | false => exact h.congr rfl rfl rfl
  | true =>
    have hcleared : ({ s with choices := [] } : Scene).Shows := h.congr rfl rfl rfl
    exact hcleared.hide.congr rfl rfl rfl

theorem Extends.settled (s : Scene) : s.Extends s.settled := by
  have hdown : s.Extends { s with processing := false } := .of_eq rfl rfl
  exact hdown.trans (.display _ _)

theorem Extends.ready (s : Scene) (force : Bool) : s.Extends (s.ready force) := by
  cases force with
  | false => exact .of_eq rfl rfl
  | true =>
    have hcleared : s.Extends { s with choices := [] } := .of_eq rfl rfl
    exact (hcleared.trans (.display _ .idle)).trans (.of_eq rfl rfl)

end Scene

/-! ## Operations -/

section

variable {op : Operation} {w : World} {s : Scene}

theorem Opens.idle (h : Opens op w s) (hw : w.scene.Idle) : s.Idle := by
  induction h with
  | still | take | restore => exact ⟨hw.processing, hw.indicator⟩
  | rest | clear => exact ⟨rfl, rfl⟩
  | install _ _ ih => exact ⟨ih.processing, ih.indicator⟩

/-- Openings tell what is chosen, and that while nothing is indicated. -/
theorem Opens.shows (h : Opens op w s) (hw : w.scene.Idle) (hs : w.scene.Shows) : s.Shows := by
  induction h with
  | still => exact hs
  | @take c =>
    have hsaid (m : Message) : (w.scene.post m).Shows := by
      have happended : ({ w.scene with messages := w.scene.messages ++ [m] } : Scene).Shows :=
        hs.congr rfl rfl rfl
      exact happended.tell (if_pos hw.indicator)
    exact (hsaid _).congr rfl rfl rfl
  | restore => exact hs.congr rfl rfl rfl
  | rest | clear => exact hs.congr rfl rfl hw.indicator.symm
  | install _ _ ih => exact ih.congr rfl rfl rfl

theorem Opens.extends (h : Opens op w s) : w.scene.Extends s := by
  induction h with
  | still | restore | rest | clear => exact .of_eq rfl rfl
  | take => exact (Scene.Extends.post w.scene _).trans (.of_eq rfl rfl)
  | install _ _ ih => exact ih.trans (.of_eq rfl rfl)

end

namespace Act

/-- What an operation from `w` tells about the end of its walk: that it halted, once and
last, if it did, and nothing otherwise. It never finds another walk under way. -/
def EndsOnce (w : World) : Outcome (Option Walked) → Prop
  | .ok (some .alreadyRunning) _ => False
  | .ok (some (.halted halt)) m => w.engine.listening = true →
    ∃ events, m.events = w.events ++ events ++ [.halted halt] ∧ ∀ h, Event.halted h ∉ events
  | .ok none m | .error _ m =>
    ∃ events, m.events = w.events ++ events ∧ ∀ h, Event.halted h ∉ events

/-- Whether nothing is going on in a world and listeners know. -/
structure Rests (w : World) : Prop where
  idle : w.scene.Idle
  told : Indicator.afterAll? w.events = some .idle

theorem Rests.shows {w : World} (h : Rests w) : w.scene.Shows := by
  intro _
  rw [h.idle.indicator]
  exact h.told

/-- Without a listener nothing more is told, and with one it is what is shown. -/
theorem Rests.of_shows {w m : World} (h : Rests w) (hi : m.scene.Idle) (hs : m.scene.Shows)
    (hset : m.scene.setting = w.scene.setting)
    (hdeaf : w.engine.listening ≠ true → m.events = w.events) : Rests m := by
  refine ⟨hi, ?_⟩
  by_cases hl : w.engine.listening = true
  · have hm : m.scene.setting.listening = true := by
      rw [hset]
      exact hl
    have htold := hs hm
    rw [hi.indicator] at htold
    exact htold
  · rw [hdeaf hl]
    exact h.told

/-- What comes of a walk, once it is over. -/
theorem walked_shows {op : Operation} {w : World} {s t : Scene} {force : Bool} (h : Rests w)
    (hs : Opens op w s) (ht : Scene.Steps True (s.ready force) t) :
    t.settled.Shows ∧ w.scene.Extends t.settled := by
  have hready : (s.ready force).Shows := (hs.shows h.idle h.shows).ready force
  have htold : t.Shows := ht.preserves (fun _ _ hu hstep => hstep.shows hu) hready
  have hbegun : w.scene.Extends (s.ready force) := hs.extends.trans (.ready s force)
  have hwalked : w.scene.Extends t :=
    ht.preserves (I := w.scene.Extends) (fun _ _ hu hstep => hu.trans hstep.extends) hbegun
  exact ⟨htold.settled, hwalked.trans (.settled t)⟩

/-- The step lemma of operations: nothing goes on behind one, whatever became of it, and
the end of its walk was told as it should be. -/
theorem Rests.performs {op : Operation} {w : World} {out : Outcome (Option Walked)}
    (h : Rests w) (hout : Performs True op w out) : Rests out.left ∧ EndsOnce w out := by
  -- without a walk, or with one that is not told to its end, nothing says that it ended
  have silent {m : World} (hidle : m.scene.Idle) (hshown : m.scene.Shows)
      (hext : w.scene.Extends m.scene) : Rests m ∧
        ∃ events, m.events = w.events ++ events ∧ ∀ h, Event.halted h ∉ events := by
    refine ⟨h.of_shows hidle hshown hext.setting hext.unheard, ?_⟩
    obtain ⟨-, events, hevents, hnone, -⟩ := hext
    exact ⟨events, hevents, hnone⟩
  cases hout with
  | stayed hm | cut hm => exact silent (hm.idle h.idle) (hm.shows h.idle h.shows) hm.extends
  | @refused m hm hb =>
    -- nothing was under way before, and an opening starts no walk
    have hidle := (hm.idle h.idle).processing
    rw [hb] at hidle
    cases hidle
  | @stopped s t force stop m hs ht hm =>
    obtain ⟨htold, hext⟩ := walked_shows h hs ht
    have hidle : m.scene.Idle := by
      rw [hm]
      exact .settled t
    rw [← hm] at htold hext
    exact silent hidle htold hext
  | @halted s t force halt m hs ht hm =>
    obtain ⟨htold, hext⟩ := walked_shows h hs ht
    have hsaid : m.scene.Shows := by
      rw [hm]
      exact htold.tell rfl
    have hidle : m.scene.Idle := by
      rw [hm]
      exact ⟨rfl, rfl⟩
    have hset : m.scene.setting = w.scene.setting := (congrArg Scene.setting hm).trans hext.setting
    have hlast : m.events = (t.settled.emit (.halted halt)).events := congrArg Scene.events hm
    -- whether this one event is told is asked where the walk ended, of the same listener
    refine ⟨h.of_shows hidle hsaid hset fun hl => ?_, fun hl => ?_⟩
    · have hdeaf : ¬ t.settled.setting.listening = true := by
        rw [hext.setting]
        exact hl
      exact hlast.trans ((if_neg hdeaf).trans (hext.unheard hl))
    · have hlisten : t.settled.setting.listening = true := by
        rw [hext.setting]
        exact hl
      obtain ⟨-, events, hevents, hnone, -⟩ := hext
      refine ⟨events, ?_, hnone⟩
      rw [hlast, ← show t.settled.events = w.events ++ events from hevents]
      exact if_pos hlisten

end Act

/-! ## Runs -/

/-- The worlds of a run from a fresh engine on, of which nothing was told before. Operations
are done to their end or left at any suspension point; between them anything may change but
what was told and the flags of what is going on. -/
inductive World.Undisturbed : World → Prop where
  | fresh {w : World} {config : Config} {interrupts : List Interrupt}
      {listening audible : Bool} :
      w.engine = .fresh config interrupts listening audible → w.events = [] → Undisturbed w
  | step {w w' : World} {op : Operation} : Undisturbed w → Act.Leaves op.run w w' →
      Undisturbed w'
  | aside {w m : World} : Undisturbed w →
      m.engine.narrative.flags = w.engine.narrative.flags → m.events = w.events → Undisturbed m

theorem World.Undisturbed.rests {w : World} (h : w.Undisturbed) : Act.Rests w := by
  induction h with
  | @fresh w config interrupts listening audible hw he =>
    refine ⟨⟨?_, ?_⟩, ?_⟩
    · change w.engine.narrative.flags.processing = false
      rw [hw]
      rfl
    · change w.engine.narrative.flags.indicator = .idle
      rw [hw]
      rfl
    · rw [he]
      rfl
  | step _ hl ih =>
    obtain ⟨out, hout, rfl⟩ := hl.performs True fun _ => ih.idle.indicator
    exact (ih.performs hout).1
  | aside _ hf he ih =>
    refine ⟨⟨?_, ?_⟩, ?_⟩
    · exact (congrArg Flags.processing hf).trans ih.idle.processing
    · exact (congrArg Flags.indicator hf).trans ih.idle.indicator
    · rw [he]
      exact ih.told

/-- Between the operations of such a run no walk is under way and nothing is indicated, what
was told keeps to the protocol (`Indicator.afterAll?`) and has come back to where it began,
and every operation tells the end of its walk once and last, or not at all if it is left. -/
theorem World.Undisturbed.keeps_protocol {w : World} (h : w.Undisturbed) :
    w.engine.narrative.flags.processing = false ∧
    w.engine.narrative.flags.indicator = .idle ∧
    Indicator.afterAll? w.events = some .idle ∧
    ∀ (op : Operation) (p : Patience), (p = .endless ∨ ∃ k, p = .suspensions k) →
      Act.EndsOnce w (op.run (w.under p)) := by
  refine ⟨h.rests.idle.processing, h.rests.idle.indicator, h.rests.told, fun op p hp => ?_⟩
  have hout := op.performs True hp fun _ => h.rests.idle.indicator
  exact (h.rests.performs hout).2

/-! ### Somebody who hesitates -/

/-- A script that pretends to type before it asks, and answers then. -/
def Document.hesitating : Document :=
  ⟨none, [
    { Node.message "start" (.npc "Ana") "" with
      kind := .typingFake, typingCycles := some 1, next := some "ask" },
    { Node.message "ask" .player "" with
      kind := .choice, choices := [⟨"Who is there?", some "answer", .empty⟩] },
    .message "answer" (.npc "Ana") "Nobody"]⟩

/-- A fresh engine over that script, to which somebody listens. -/
def World.hesitating : World := .opening fun _ => .ok .hesitating

theorem World.Undisturbed.keeps_protocol_hesitating : ∃ w : World, w.Undisturbed ∧
    w.events.head? = some (.indicator (.typing (.npc "Ana"))) ∧ w.events.length = 4 ∧
    Indicator.afterAll? w.events = some .idle := by
  have hrun : ∃ walked w, Operation.run (.startChapter 1 1) (World.hesitating.under .endless) =
      .ok walked w ∧ w.events.head? = some (.indicator (.typing (.npc "Ana"))) ∧
      w.events.length = 4 := ⟨_, _, rfl, by decide +kernel, by decide +kernel⟩
  obtain ⟨walked, w, hrun, hfirst, htold⟩ := hrun
  have h : w.Undisturbed := .step (.fresh rfl rfl) (.ended hrun)
  exact ⟨w, h, hfirst, htold, (World.Undisturbed.keeps_protocol h).2.2.1⟩

end StoryChat
