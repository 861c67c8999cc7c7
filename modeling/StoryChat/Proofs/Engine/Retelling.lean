/-
What was told and heard is what happened.

The conversation, the events and the cues are changed side by side, at several places each.
Whoever has only listened knows the conversation all the same: every message was told when
it was put in, and every reading as well, so that the history can be told again event by
event (`Retells`). The cues follow from what was told too, but for one thing: of a message
of the player the events do not say whether the player has chosen it or the script had it
said, and only the first is heard. So what was told is a list of events in which the
answers of the player are marked (`Told`).

Each step tells one thing at most, and that thing tells the step.
-/
import StoryChat.Proofs.Engine.Quiescence
import StoryChat.Proofs.Narrative.Receipts

set_option autoImplicit false

namespace StoryChat

/-! ## Telling again -/

/-- What an event says about the history: a message is added at the end, of the messages
there are the last one of the player is read, or nothing happens to it. -/
inductive Recounts : List Message → Event → List Message → Prop where
  | message (history : List Message) (m : Message) : Recounts history (.message m) (history ++ [m])
  | read {earlier later : List Message} {m : Message} : m.sender = .player →
      (∀ m' ∈ later, m'.sender ≠ .player) →
      Recounts (earlier ++ m :: later) (.read m.id) (earlier ++ { m with read := true } :: later)
  | other (history : List Message) {e : Event} : (∀ m, e ≠ .message m) → (∀ id, e ≠ .read id) →
      Recounts history e history

/-- What events say about the history, one after the other. -/
inductive Retells : List Message → List Event → List Message → Prop where
  | nil (history : List Message) : Retells history [] history
  | cons {before next after : List Message} {e : Event} {events : List Event} :
      Recounts before e next → Retells next events after → Retells before (e :: events) after

theorem Retells.snoc {history before after : List Message} {events : List Event} {e : Event}
    (h : Retells history events before) (he : Recounts before e after) :
    Retells history (events ++ [e]) after := by
  induction h with
  | nil => exact .cons he (.nil after)
  | cons hfirst _ ih => exact .cons hfirst (ih he)

/-- The history that an event leads to, as it is computed. -/
def Event.history (before : List Message) : Event → List Message
  | .message m => before ++ [m]
  | .read _ => ((Message.markLastOfPlayer? before).map (·.2)).getD before
  | _ => before

theorem Recounts.eq_history {before after : List Message} {e : Event}
    (h : Recounts before e after) : after = e.history before := by
  cases h with
  | message => rfl
  | read hm hlater =>
    rw [Event.history, Message.markLastOfPlayer?_append_cons _ hm hlater]
    rfl
  | other _ hmessage hread =>
    cases e with
    | message m => exact absurd rfl (hmessage m)
    | read id => exact absurd rfl (hread id)
    | _ => rfl

/-- The events determine the history that they end in. -/
theorem Retells.unique {history a b : List Message} {events : List Event}
    (h : Retells history events a) (h' : Retells history events b) : a = b := by
  induction h with
  | nil =>
    cases h'
    rfl
  | cons hfirst _ ih =>
    cases h' with
    | cons hfirst' hrest' =>
      rw [hfirst'.eq_history, ← hfirst.eq_history] at hrest'
      exact ih hrest'

/-- Something told, the answers of the player apart. -/
inductive Told where
  | event (e : Event)
  | answer (m : Message)

namespace Told

/-- What is told, as a listener hears it: an answer is a message. -/
def toEvent : Told → Event
  | .event e => e
  | .answer m => .message m

/-- The answer that is told, if it is one. -/
def answer? : Told → Option Message
  | .event _ => none
  | .answer m => some m

/-- The cue that goes with it: somebody types or records, a message comes in, an answer is
sent. -/
def cue? : Told → Option Cue
  | .event (.indicator i) => if i.sender?.isSome then some .typing else none
  | .event (.message m) => if m.sender = .player then none else some .receive
  | .event _ => none
  | .answer _ => some .send

end Told

namespace Scene

variable {s₀ s t : Scene} {answers : List Message}

/-- What was told since a scene tells the conversation and the cues of another one, and
marks these answers. -/
structure Mirrors (s₀ : Scene) (answers : List Message) (s : Scene) : Prop where
  listening : s.setting.listening = true
  audible : s.setting.audible = true
  told : ∃ told : List Told, s.events = s₀.events ++ told.map Told.toEvent ∧
    s.cues = s₀.cues ++ told.filterMap Told.cue? ∧
    Retells s₀.messages (told.map Told.toEvent) s.messages ∧
    told.filterMap Told.answer? = answers

theorem Mirrors.refl (hl : s.setting.listening = true) (ha : s.setting.audible = true) :
    s.Mirrors [] s :=
  ⟨hl, ha, [], (List.append_nil _).symm, (List.append_nil _).symm, .nil _, rfl⟩

theorem Mirrors.congr (h : s₀.Mirrors answers s) (hl : t.setting.listening = s.setting.listening)
    (ha : t.setting.audible = s.setting.audible) (hm : t.messages = s.messages)
    (he : t.events = s.events) (hc : t.cues = s.cues) : s₀.Mirrors answers t := by
  obtain ⟨hls, has, told, htold⟩ := h
  refine ⟨hl.trans hls, ha.trans has, told, ?_⟩
  rw [hm, he, hc]
  exact htold

/-- One more thing is told. -/
theorem Mirrors.tell (h : s₀.Mirrors answers s) (one : Told)
    (hset : t.setting = s.setting) (he : t.events = s.events ++ [one.toEvent])
    (hc : t.cues = s.cues ++ one.cue?.toList) (hm : Recounts s.messages one.toEvent t.messages) :
    s₀.Mirrors (answers ++ one.answer?.toList) t := by
  obtain ⟨hl, ha, told, hevents, hcues, hretells, hanswers⟩ := h
  rw [← hset] at hl ha
  refine ⟨hl, ha, told ++ [one], ?_, ?_, ?_, ?_⟩
  · rw [he, hevents, List.map_append, List.append_assoc]
    rfl
  · rw [hc, hcues, List.filterMap_append, List.append_assoc]
    cases hone : one.cue? <;> simp [hone]
  · rw [List.map_append]
    exact hretells.snoc hm
  · rw [List.filterMap_append, hanswers]
    cases hone : one.answer? <;> simp [hone]

/-- An event that goes with no answer. -/
theorem Mirrors.event (h : s₀.Mirrors answers s) (e : Event) (hset : t.setting = s.setting)
    (he : t.events = s.events ++ [e]) (hc : t.cues = s.cues ++ (Told.event e).cue?.toList)
    (hm : Recounts s.messages e t.messages) : s₀.Mirrors answers t := by
  have htold := h.tell (.event e) hset he hc hm
  rwa [show (Told.event e).answer?.toList = [] from rfl, List.append_nil] at htold

/-- Telling something that is about no message and goes with no cue. -/
theorem Mirrors.emit (h : s₀.Mirrors answers s) {e : Event} (hcue : (Told.event e).cue? = none)
    (hmessage : ∀ m, e ≠ .message m) (hread : ∀ id, e ≠ .read id) :
    s₀.Mirrors answers (s.emit e) := by
  refine h.event e rfl (if_pos h.listening) ?_ (.other _ hmessage hread)
  rw [hcue]
  exact (List.append_nil _).symm

theorem Mirrors.hide (h : s₀.Mirrors answers s) : s₀.Mirrors answers (s.display .idle) := by
  by_cases hi : s.indicator = .idle
  · rw [display_of_eq hi]
    exact h
  · have hset : s₀.Mirrors answers { s with indicator := .idle } := h.congr rfl rfl rfl rfl rfl
    rw [display_of_ne hi]
    exact hset.emit rfl nofun nofun

/-- The step lemma: what a step does to the history and to the cues, it tells. -/
theorem Step.mirrors (hstep : Step True s t) (h : s₀.Mirrors answers s) : s₀.Mirrors answers t := by
  cases hstep with
  | @write i hi hidle =>
    -- nothing was indicated, so what is indicated now is told and heard
    have hne : s.indicator ≠ i := by
      rw [hidle trivial]
      rintro rfl
      cases hi
    have hcue : (Told.event (.indicator i)).cue? = some .typing := if_pos hi
    rw [display_of_ne hne]
    refine h.event (.indicator i) rfl (if_pos h.listening) ?_ (.other _ nofun nofun)
    rw [hcue]
    exact if_pos h.audible
  | startReading hidle =>
    have hne : s.indicator ≠ .reading := by
      rw [hidle trivial]
      nofun
    have hset : s₀.Mirrors answers { s with indicator := .reading } := h.congr rfl rfl rfl rfl rfl
    rw [display_of_ne hne]
    exact hset.emit rfl nofun nofun
  -- one message of the history is read, and reading is not heard
  | @read id messages hreading hmarked =>
    obtain ⟨earlier, m, later, hm, hlater, rfl, hbefore, hafter⟩ :=
      Message.exists_of_markLastOfPlayer? hmarked
    refine h.event (.read m.id) rfl (if_pos h.listening) (List.append_nil _).symm ?_
    change Recounts s.messages _ messages
    rw [hbefore, hafter]
    exact .read hm hlater
  | hide => exact h.hide
  | @say m hsent hidle =>
    unfold Scene.say
    -- what the player says has no cue of its own
    by_cases hm : m.sender = .player
    · rw [if_pos hm]
      have hcue : (Told.event (.message m)).cue? = none := if_pos hm
      refine h.event (.message m) rfl (if_pos h.listening) ?_ (.message _ m)
      rw [hcue]
      exact (List.append_nil _).symm
    · rw [if_neg hm]
      have hcue : (Told.event (.message m)).cue? = some .receive := if_neg hm
      refine h.event (.message m) rfl (if_pos h.listening) ?_ (.message _ m)
      rw [hcue]
      exact if_pos h.audible
  | act | load => exact h.congr rfl rfl rfl rfl rfl
  | @offer id n choices =>
    have hset : s₀.Mirrors answers { s with choices } := h.congr rfl rfl rfl rfl rfl
    exact hset.emit rfl nofun nofun
  | endPart => exact h.emit rfl nofun nofun

theorem Mirrors.ready (h : s₀.Mirrors answers s) (force : Bool) :
    s₀.Mirrors answers (s.ready force) := by
  cases force with
  | false => exact h.congr rfl rfl rfl rfl rfl
  | true =>
    have hset : s₀.Mirrors answers { s with choices := [] } := h.congr rfl rfl rfl rfl rfl
    exact hset.hide.congr rfl rfl rfl rfl rfl

theorem Mirrors.settled (h : s₀.Mirrors answers s) : s₀.Mirrors answers s.settled := by
  have hset : s₀.Mirrors answers { s with processing := false } := h.congr rfl rfl rfl rfl rfl
  exact hset.hide

end Scene

/-! ## Runs -/

/-- The message in which the player says what an operation takes. -/
def Operation.answer? (op : Operation) (w : World) : Option Message :=
  (op.taken? w).map (Act.choiceMessage · w)

/-- Openings tell what is chosen, unless they put another history in its place. -/
theorem Opens.mirrors {s₀ s : Scene} {answers : List Message} {op : Operation} {w : World}
    (hopens : Opens op w s) (hsaved : op ≠ .resumeSaved) (hreset : op ≠ .resetGame)
    (h : s₀.Mirrors answers w.scene) : s₀.Mirrors (answers ++ (op.answer? w).toList) s := by
  induction hopens with
  | still hnone =>
    rw [Operation.answer?, hnone]
    simpa using h
  | @take c hc =>
    -- the one message that is heard although it is the player's
    rw [Operation.answer?, hc]
    exact h.tell (.answer (Act.choiceMessage c w)) rfl (if_pos h.listening) (if_pos h.audible)
      (.message _ _)
  | restore hop => exact absurd hop hsaved
  | rest hop =>
    rw [hop]
    have hrest : s₀.Mirrors answers w.scene.rest := h.congr rfl rfl rfl rfl rfl
    simpa [Operation.answer?, Operation.taken?] using hrest
  | clear hop => exact absurd hop hreset
  | install _ _ ih => exact ih.congr rfl rfl rfl rfl rfl

/-- The worlds of a run from `w₀` in which nothing but operations touches the history, the
indicator and what was told, and none of them takes another history; with the answers that
the player gave in it. Each operation is done to its end or left at any suspension point. -/
inductive World.Plays (w₀ : World) : List Message → World → Prop where
  | begin : Plays w₀ [] w₀
  | step {answers : List Message} {w w' : World} {op : Operation} : Plays w₀ answers w →
      op ≠ .resumeSaved → op ≠ .resetGame → Act.Leaves op.run w w' →
      Plays w₀ (answers ++ (op.answer? w).toList) w'
  | aside {answers : List Message} {w m : World} : Plays w₀ answers w →
      m.engine.listening = w.engine.listening → m.engine.audible = w.engine.audible →
      m.engine.narrative.messages = w.engine.narrative.messages →
      m.engine.narrative.flags.indicator = w.engine.narrative.flags.indicator →
      m.events = w.events → m.cues = w.cues → Plays w₀ answers m

/-- Behind an operation nothing is indicated, if nothing was before. -/
theorem Performs.quiet {calm : Prop} {op : Operation} {w : World}
    {out : Act.Outcome (Option Walked)} (h : Performs calm op w out)
    (hw : w.scene.indicator = .idle) : out.left.scene.indicator = .idle := by
  cases h with
  | stayed hs | cut hs | refused hs => exact hs.quiet hw
  | halted hs ht hm | stopped hs ht hm => exact congrArg Scene.indicator hm

theorem World.Plays.mirrors {w₀ w : World} {answers : List Message} (h : Plays w₀ answers w)
    (hl : w₀.engine.listening = true) (ha : w₀.engine.audible = true)
    (hi : w₀.engine.narrative.flags.indicator = .idle) :
    w.scene.indicator = .idle ∧ w₀.scene.Mirrors answers w.scene := by
  induction h with
  | begin => exact ⟨hi, .refl hl ha⟩
  | step _ hsaved hreset hleaves ih =>
    obtain ⟨hquiet, hmirrors⟩ := ih
    obtain ⟨out, hout, rfl⟩ := hleaves.performs True fun _ => hquiet
    refine ⟨hout.quiet hquiet, ?_⟩
    -- the answer is told by the opening; the walk behind it tells none
    exact hout.keeps (fun s hs => hs.mirrors hsaved hreset hmirrors)
      (fun s force hs => hs.ready force) (fun s t hs hstep => hstep.mirrors hs)
      (fun s hs => hs.settled)
      fun s halt hs => hs.emit rfl nofun nofun
  | aside _ hlisten haudible hmessages hindicator hevents hcues ih =>
    exact ⟨hindicator.trans ih.1, ih.2.congr hlisten haudible hmessages hevents hcues⟩

/-- What a run tells its listeners is all that happens to the history: with the messages and
the readings of the events it is the history that the run ends in (`Retells`). The cues are
those of the events, and the answers among the messages are those that the player gave. -/
theorem World.Plays.retells {w₀ w : World} {answers : List Message} (h : Plays w₀ answers w)
    (hl : w₀.engine.listening = true) (ha : w₀.engine.audible = true)
    (hi : w₀.engine.narrative.flags.indicator = .idle) :
    ∃ told : List Told, w.events = w₀.events ++ told.map Told.toEvent ∧
      w.cues = w₀.cues ++ told.filterMap Told.cue? ∧
      Retells w₀.engine.narrative.messages (told.map Told.toEvent) w.engine.narrative.messages ∧
      told.filterMap Told.answer? = answers := (h.mirrors hl ha hi).2.told

/-! ### An answer that is read -/

/-- The world in which somebody has typed and the player is asked. -/
def World.hesitated : World :=
  Act.Outcome.left (Operation.run (.startChapter 1 1) (World.hesitating.under .endless))

/-- The world in which the player has chosen and was answered. -/
def World.answered : World :=
  Act.Outcome.left (Operation.run (.choose 0) (World.hesitated.under .endless))

theorem World.Plays.retells_hesitating : ∃ m : Message,
    World.hesitating.Plays [m] World.answered ∧ m.content = "Who is there?" ∧
    World.answered.cues = [.typing, .send, .typing, .receive] ∧
    ∃ told : List Told, World.answered.events = told.map Told.toEvent ∧
      Retells [] (told.map Told.toEvent) World.answered.engine.narrative.messages ∧
      told.filterMap Told.answer? = [m] := by
  have hstart : Operation.run (.startChapter 1 1) (World.hesitating.under .endless) =
      .ok (some (.halted .awaitingChoice)) World.hesitated :=
    Act.eq_ok_of_result (by decide +kernel)
  have hchoose : Operation.run (.choose 0) (World.hesitated.under .endless) =
      .ok (some (.halted .endOfScript)) World.answered :=
    Act.eq_ok_of_result (by decide +kernel)
  obtain ⟨m, hm, htext⟩ : ∃ m, (Operation.choose 0).answer? World.hesitated = some m ∧
      m.content = "Who is there?" := by
    have htexts : ((Operation.choose 0).answer? World.hesitated).map Message.content =
        some "Who is there?" := by decide +kernel
    exact Option.map_eq_some_iff.1 htexts
  -- the engine asks, and the first option is chosen
  have hplays : World.hesitating.Plays [m] World.answered := by
    have hasked : World.hesitating.Plays [] World.hesitated := by
      refine .step .begin ?_ ?_ (.ended hstart) <;> nofun
    have hchosen : World.hesitating.Plays ([] ++ ((Operation.choose 0).answer?
        World.hesitated).toList) World.answered := by
      refine .step hasked ?_ ?_ (.ended hchoose) <;> nofun
    rwa [hm] at hchosen
  obtain ⟨told, hevents, -, hretells, hanswers⟩ := World.Plays.retells hplays rfl rfl rfl
  exact ⟨m, hplays, htext, by decide +kernel, told, hevents, hretells, hanswers⟩

end StoryChat
