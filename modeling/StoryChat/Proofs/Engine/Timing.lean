/-
A walk takes the time that its nodes ask for.

A walk that halts has made the pauses of its `timetable` and no others, and has taken as long
as these are when they are scaled. Of what went before only one flag matters (`answered`), that
the player has chosen and nobody has answered yet. As long as one engine goes on with its story
and does every operation to its end, the flag says just this: behind the player's last choice
there is no message of another participant.

The flag is no more than that, though. Whoever puts an engine to rest (`Act.rest`) takes it
down, and then the choice is not read any more.
-/
import Mathlib.Algebra.BigOperators.Ring.List
import StoryChat.Proofs.Engine.Answering
import StoryChat.Proofs.Engine.Metering

set_option autoImplicit false

namespace StoryChat

namespace Act

variable {w w' : World} {id : String} {force : Bool} {halt : Halt}

/-- A walk that halts was not refused. -/
theorem force_of_halted (h : advance id force w = .ok (.halted halt) w')
    (hbusy : w.engine.narrative.flags.processing = true) : force = true := by
  cases force with
  | true => rfl
  | false =>
    have hrefused : advance id false (w.under .endless) = _ := (advance_busy hbusy).whole
    rw [advance_endless h] at hrefused
    cases hrefused

/-- A walk that halts has taken a route, said what the nodes of it say, and spent what they ask
for. -/
theorem advance_takes (hp : w.engine.config.pacing.Unvaried)
    (h : advance id force w = .ok (.halted halt) w') :
    ∃ nodes, Route w.findNode? w.traits id nodes halt ∧
      w'.lines = w.lines ++ nodes.filterMap w.said? ∧ w'.meter = (w.meter.spendAll
        (w.engine.config.timetable w.meter.answered nodes)).hear (nodes.any Node.answers) := by
  have hforce := force_of_halted h
  have hendless := advance_endless h
  obtain ⟨halt', hhalt, hplot, -⟩ := plot_of_advance hforce hendless
  cases hhalt
  obtain ⟨nodes, htook, hlines, -⟩ := Plot.took_of_walk hplot
  refine ⟨nodes, htook, hlines, ?_⟩
  have hready : (w.under .endless).ready force = (w.ready force).under .endless :=
    w.ready_under force .endless
  rw [advance_apply (w := w.under .endless) hforce, hready] at hendless
  cases hwalk : walk (w.under .endless).reach id ((w.ready force).under .endless) with
  | error s m =>
    rw [hwalk] at hendless
    cases hendless
  | ok halt' m =>
    rw [hwalk] at hendless
    have hsame := w.plot_ready force
    have hconfig : (w.ready force).engine.config = w.engine.config := congrArg Plot.config hsame
    have hfind : (w.ready force).findNode? = w.findNode? := congrArg Plot.findNode? hsame
    have htraits : (w.ready force).traits = w.traits := congrArg (·.story.traits) hsame
    obtain ⟨nodes', hroute, hmeter⟩ := walk_takes (hconfig ▸ hp) hwalk
    rw [hfind, htraits] at hroute
    rw [hconfig, World.meter_ready] at hmeter
    injection hendless with hhalt hworld
    -- the route on which the meter ran is the one that the lines were said on
    obtain ⟨rfl, -⟩ := hroute.unique htook
    have hleft : (m.settled.emit (.halted halt')).meter = (w'.under .endless).meter :=
      congrArg World.meter hworld
    rw [World.meter_emit, World.meter_settled, World.meter_under] at hleft
    exact hleft.symm.trans hmeter

/-- A walk that ends was refused and changed nothing, or it has halted. -/
theorem advance_cases {walked : Walked} (h : advance id force w = .ok walked w') :
    w' = w ∨ ∃ halt, walked = .halted halt := by
  by_cases hfree : w.engine.narrative.flags.processing = true → force = true
  · obtain ⟨halt, rfl, -⟩ := plot_of_advance hfree (advance_endless h)
    exact .inr ⟨halt, rfl⟩
  · obtain ⟨hbusy, hpolite⟩ := Classical.not_imp.1 hfree
    have hrefused : advance id force w = .ok .alreadyRunning w := by
      unfold advance
      rw [bind_apply, look_apply]
      dsimp only
      rw [hbusy, Bool.eq_false_iff.2 hpolite]
      rfl
    rw [hrefused] at h
    cases h
    exact .inl rfl

/-- No walk touches the configuration. -/
theorem config_of_advance {walked : Walked} (h : advance id force w = .ok walked w') :
    w'.engine.config = w.engine.config := by
  have hpass : Passes (InSetting w.setting) (advance id force) w w fun _ => InSetting w.setting :=
    advance_setting ⟨rfl, rfl⟩
  obtain ⟨_, m, ⟨-, hset⟩, hsame⟩ := hpass.ended (advance_endless h)
  have hconfig : (w'.under .endless).engine.config = (m.under .endless).engine.config :=
    congrArg (·.engine.config) hsame
  exact hconfig.trans (World.config_eq_of_setting hset)

end Act

/-! ## A choice that waits to be answered -/

/-- Whether the player's last choice waits to be answered behind an operation as it did before.
Whoever reads a record puts another conversation in the place of this one, and whoever puts an
engine to rest or empties it takes the flag down. -/
def Operation.Remembers : Operation → Bool
  | .resumeSaved | .rest | .resetGame => false
  | _ => true

namespace World

/-- Whether the player has chosen, at the given place of the conversation, and nobody else has
said anything since. -/
def due (w : World) (choice : Option Nat) : Bool :=
  choice.any fun place => (w.lines.drop (place + 1)).all fun u => !u.sender.isNpc

/-- The worlds of a run with one engine, and where in the conversation the player chose last.
Each operation of the run is one of `P`, and is done to its end: first its prelude, then the
walk, however long somebody has waited for it. -/
inductive Recounts (P : Operation → Prop) : World → Option Nat → Prop where
  | fresh {w : World} {config : Config} {interrupts : List Interrupt} {listening audible : Bool} :
      w.engine = .fresh config interrupts listening audible → Recounts P w none
  | waited {w : World} {choice : Option Nat} (p : Patience) : Recounts P w choice →
      Recounts P (w.under p) choice
  | opened {w v : World} {choice : Option Nat} {op : Operation} {stops : List World} {on : Onward} :
      Recounts P w choice → P op → Prelude w op stops v on →
      Recounts P v (if (op.taken? w).isSome then some w.place else choice)
  | walked {v w : World} {choice : Option Nat} {id : String} {force : Bool} {walked : Walked} :
      Recounts P v choice → Act.advance id force v = .ok walked w → Recounts P w choice

variable {w w' v : World} {choice : Option Nat}

/-- What the nodes of a route say counts as their messages do. -/
theorem all_said? (w : World) (nodes : List Node) :
    (nodes.filterMap w.said?).all (fun u => !u.sender.isNpc) = !nodes.any Node.answers := by
  induction nodes with
  | nil => rfl
  | cons n nodes ih =>
    rw [List.filterMap_cons, List.any_cons, Bool.not_or, ← ih]
    unfold said? Node.answers
    by_cases hk : n.kind = .typingFake
    · rw [if_pos hk]
      simp [hk]
    · rw [if_neg hk]
      simp [hk, utteranceOf]

/-- Where more is said behind the choice, it is still due unless somebody else has said it. -/
theorem due_append {said : List Utterance} (hplace : ∀ place ∈ choice, place < w.lines.length)
    (h : w'.lines = w.lines ++ said) :
    w'.due choice = (w.due choice && said.all fun u => !u.sender.isNpc) := by
  cases choice with
  | none => rfl
  | some place =>
    have hlt : place + 1 ≤ w.lines.length := hplace place rfl
    unfold due
    rw [Option.any_some, Option.any_some, h, List.drop_append_of_le_length hlt, List.all_append]

/-- Whether the flag is right about the choice made at a place, which lies in the conversation. -/
structure Minds (w : World) (choice : Option Nat) : Prop where
  answered : w.engine.narrative.flags.answered = w.due choice
  place : ∀ place ∈ choice, place < w.lines.length

theorem Minds.congr (h : w.Minds choice) (hl : v.lines = w.lines)
    (ha : v.engine.narrative.flags.answered = w.engine.narrative.flags.answered) :
    v.Minds choice := by
  constructor
  · rw [ha, h.answered, due, due, hl]
  · rw [hl]
    exact h.place

/-- Whoever has just chosen has not been answered yet. -/
theorem minds_chosen (w : World) (c : Choice) : (w.chosen c).Minds (some w.place) := by
  have hlines : (w.chosen c).lines = w.lines ++ [⟨w.playerIds w.place, .player, .text, c.text⟩] :=
    congrArg Story.lines (w.story_chosen c)
  have hplace : w.place = w.lines.length := (List.length_map _).symm
  constructor
  · rw [due, Option.any_some, hlines, List.drop_of_length_le (by simp [hplace])]
    exact congrArg Mail.answered (w.mail_chosen c)
  · rintro place ⟨⟩
    simp [hlines, hplace]

/-- The preludes of these operations say nothing but what is chosen. -/
theorem Minds.opened {op : Operation} {stops : List World} {on : Onward} (h : w.Minds choice)
    (hremembers : op.Remembers) (hp : Prelude w op stops v on) :
    v.Minds (if (op.taken? w).isSome then some w.place else choice) := by
  have still (hnone : op.taken? w = none) (hl : v.lines = w.lines)
      (ha : v.engine.narrative.flags.answered = w.engine.narrative.flags.answered) :
      v.Minds (if (op.taken? w).isSome then some w.place else choice) := by
    rw [hnone]
    exact h.congr hl ha
  have taken {c : Choice} (hsome : op.taken? w = some c)
      (hl : v.lines = (w.chosen c).lines)
      (ha : v.engine.narrative.flags.answered = (w.chosen c).engine.narrative.flags.answered) :
      v.Minds (if (op.taken? w).isSome then some w.place else choice) := by
    rw [hsome]
    exact (w.minds_chosen c).congr hl ha
  cases hp with
  | busy hop => exact still (Operation.taken?_of_isPolite w hop) rfl rfl
  | lostPart | lostNamed | lostStart | lostResume | loadedPart | loadedNamed | started | resumed
  | nonePending | busyPending | begunPending | advance | setPlayerName => exact still rfl rfl rfl
  | refused hr => exact still (Operation.taken?_of_refused hr) rfl rfl
  | accepted hw hc | undiverted hw hc | diverted hw hc => exact taken ((if_pos hw).trans hc) rfl rfl
  | unread | lostRecord | recalled | rest | resetGame => cases hremembers

/-- In every run of these operations the flag is right about the player's last choice. -/
theorem Recounts.minds (h : w.Recounts (Operation.Remembers ·) choice)
    (hp : w.engine.config.pacing.Unvaried) : w.Minds choice := by
  induction h with
  | fresh he =>
    refine ⟨?_, fun _ h => nomatch h⟩
    rw [he]
    rfl
  | waited p _ ih => exact ⟨(ih hp).answered, (ih hp).place⟩
  | opened _ hop hprelude ih =>
    exact (ih (World.config_eq_of_setting hprelude.setting.2 ▸ hp)).opened hop hprelude
  | walked _ hrun ih =>
    rw [Act.config_of_advance hrun] at hp
    rcases Act.advance_cases hrun with rfl | ⟨halt, rfl⟩
    · -- the walk was refused
      exact ih hp
    -- what it said counts for the flag as it counts for the conversation
    obtain ⟨nodes, -, hlines, hmeter⟩ := Act.advance_takes hp hrun
    have hanswered := congrArg Meter.answered hmeter
    rw [Meter.hear, Meter.answered_spendAll] at hanswered
    constructor
    · rw [due_append (ih hp).place hlines, all_said?, ← (ih hp).answered]
      exact hanswered
    · rw [hlines, List.length_append]
      exact fun place hmem => Nat.lt_add_right _ ((ih hp).place place hmem)

/-! ## The time of a walk -/

/-- What the nodes of a route ask for in a world, one after the other. -/
def timetable (w : World) (nodes : List Node) : List Duration :=
  w.engine.config.timetable w.engine.narrative.flags.answered nodes

/-- What a span is waited for. -/
def scaled (w : World) (span : Duration) : Duration := w.engine.config.pacing.scale span

/-- What a walk takes that passes some nodes, from one world to another. -/
structure TakesTime (w : World) (nodes : List Node) (w' : World) : Prop where
  /-- It pauses as its timetable says, pauses of nothing apart. -/
  pauses : w'.pauses = w.pauses ++ (w.timetable nodes).filter (· ≠ .zero)
  /-- The clock waits for the scaled pauses, and for nothing else. -/
  clock : w'.clock = w.clock +
    ((w.timetable nodes).map fun span => (w.scaled span).waitMillis).sum
  /-- If it waits for each of them exactly, the time slept is their sum. -/
  exact : (∀ span ∈ w.timetable nodes,
      1000000 * (w.scaled span).waitMillis = (w.scaled span).nanos) →
    1000000 * w'.clock =
      1000000 * w.clock + ((w.timetable nodes).map fun span => (w.scaled span).nanos).sum
  /-- A choice still waits to be answered if nobody has said anything. -/
  answered : w'.engine.narrative.flags.answered =
    (w.engine.narrative.flags.answered && !nodes.any Node.answers)

/-- What is on the meter in the end is what the walk takes. -/
theorem TakesTime.of_meter {nodes : List Node}
    (h : w'.meter = (w.meter.spendAll (w.timetable nodes)).hear (nodes.any Node.answers)) :
    w.TakesTime nodes w' := by
  have hclock : w'.clock = w.clock +
      ((w.timetable nodes).map fun span => (w.scaled span).waitMillis).sum :=
    (congrArg Meter.clock h).trans (w.meter.clock_spendAll _)
  refine ⟨(congrArg Meter.pauses h).trans (w.meter.pauses_spendAll _), hclock, fun hexact => ?_, ?_⟩
  · -- the clock counts milliseconds, and spans are counted in nanoseconds
    rw [hclock, Nat.mul_add, ← List.sum_map_mul_left, List.map_congr_left hexact]
  · have hanswered := congrArg Meter.answered h
    rwa [Meter.hear, Meter.answered_spendAll] at hanswered

/-- A walk that halts has taken the `Route` from its start, and the time that the nodes on it
ask for. A choice is read and thought about in it if the flag says that it waits, and as long
as the engine has gone on with its story, the flag says whether nobody has answered it. -/
theorem walk_takes_time {id : String} {force : Bool} {halt : Halt}
    (hp : w.engine.config.pacing.Unvaried)
    (h : Act.advance id force w = .ok (.halted halt) w') :
    ∃ nodes, Route w.findNode? w.traits id nodes halt ∧ w.TakesTime nodes w' ∧
      ∀ choice, w.Recounts (Operation.Remembers ·) choice →
        w.engine.narrative.flags.answered = w.due choice := by
  obtain ⟨nodes, hroute, -, hmeter⟩ := Act.advance_takes hp h
  exact ⟨nodes, hroute, .of_meter hmeter, fun choice hrecounts => (hrecounts.minds hp).answered⟩

end World

/-! ### Somebody who takes leave -/

namespace Document

/-- The answer to somebody who takes leave. -/
def farewell : Node := .message "answer" (.npc "Ana") "Bye"

/-- A script in which the player may take leave, and nothing comes behind that by itself. -/
def dismissing : Document :=
  ⟨none, [{ Node.message "start" .player "" with
    kind := .choice, choices := [⟨"Good night", none, .empty⟩] }, farewell]⟩

end Document

namespace World

/-- A fresh engine over that script, in which no pause varies. -/
def dismissing : World :=
  .steady (.fresh { Config.standard with pacing := Pacing.standard.even } [] true true)
    (fun _ => .ok .dismissing) (.memory .empty)

/-- The world in which the player is asked. -/
def inviting : World :=
  Act.Outcome.left (Act.advance "start" false (dismissing.begun 1 1 (.ofDocument .dismissing)))

/-- The world in which the player has taken leave. -/
def dismissed : World := ((inviting.chosen ⟨"Good night", none, .empty⟩).tell (·.goTo none)).saved

/-- The leave is the player's last choice. -/
theorem recounts_dismissed {P : Operation → Prop} (hP : ∀ op : Operation, op.Remembers → P op) :
    dismissed.Recounts P (some 0) := by
  have hstart : Act.advance "start" false (dismissing.begun 1 1 (.ofDocument .dismissing)) =
      .ok (.halted .awaitingChoice) inviting := Act.eq_ok_of_result (by decide +kernel)
  have hfresh : dismissing.Recounts P none := .fresh rfl
  have hbegun : (dismissing.begun 1 1 (.ofDocument .dismissing)).Recounts P none :=
    hfresh.opened (hP (.startChapter 1 1) rfl) (.started rfl rfl)
  have hinviting : inviting.Recounts P none := hbegun.walked hstart
  exact hinviting.opened (hP (.choose 0) rfl)
    (.accepted (by decide +kernel) (by decide +kernel) (by decide +kernel))

/-- The answer is the route from it. -/
theorem route_farewell {w : World} (hn : w.findNode? "answer" = some Document.farewell) :
    Route w.findNode? w.traits "answer" [Document.farewell] .endOfScript :=
  .last hn ⟨nofun, nofun⟩ (Node.leads_iff.2 rfl)

/-- Before it is answered the leave is read for a second, and thought about for half of one. -/
theorem walk_takes_time_dismissed :
    ∃ w', dismissed.engine.config.pacing.Unvaried ∧
      Act.advance "answer" false dismissed = .ok (.halted .endOfScript) w' ∧
      (∃ nodes, Route dismissed.findNode? dismissed.traits "answer" nodes .endOfScript ∧
        dismissed.TakesTime nodes w' ∧ ∀ choice, dismissed.Recounts (Operation.Remembers ·) choice →
          dismissed.engine.narrative.flags.answered = dismissed.due choice) ∧
      dismissed.Recounts (Operation.Remembers ·) (some 0) ∧ dismissed.due (some 0) = true ∧
      w'.pauses = [⟨1000000000⟩, ⟨500000000⟩, ⟨1500000000⟩] ∧ w'.clock = 3000 := by
  have hpace : dismissed.engine.config.pacing.Unvaried := Pacing.standard.unvaried_even
  have hrun : Act.advance "answer" false dismissed = .ok (.halted .endOfScript) _ :=
    Act.eq_ok_of_result (by decide +kernel)
  exact ⟨_, hpace, hrun, walk_takes_time hpace hrun, recounts_dismissed fun _ h => h,
    by decide +kernel, by decide +kernel, by decide +kernel⟩

/-- An engine that was put to rest in between does not read the leave any more. -/
theorem not_takes_time_rested : ¬ ∀ (w w' : World) (choice : Option Nat) (id : String)
    (force : Bool) (halt : Halt), w.engine.config.pacing.Unvaried →
    w.Recounts (fun op => op.Remembers ∨ op = .rest) choice →
    Act.advance id force w = .ok (.halted halt) w' →
    ∃ nodes, Route w.findNode? w.traits id nodes halt ∧ w'.pauses = w.pauses ++
      (w.engine.config.timetable (w.due choice) nodes).filter (· ≠ .zero) := by
  intro h
  have hdismissed : dismissed.Recounts (fun op => op.Remembers ∨ op = .rest) (some 0) :=
    recounts_dismissed fun _ => .inl
  have hrested : (dismissed.tell (·.rest)).Recounts (fun op => op.Remembers ∨ op = .rest) (some 0) :=
    hdismissed.opened (.inr rfl) .rest
  have hrun : Act.advance "answer" false (dismissed.tell (·.rest)) =
      .ok (.halted .endOfScript) _ := Act.eq_ok_of_result (by decide +kernel)
  obtain ⟨nodes, hroute, hpauses⟩ := h _ _ _ _ _ _ Pacing.standard.unvaried_even hrested hrun
  obtain ⟨rfl, -⟩ := (route_farewell rfl).unique hroute
  revert hpauses
  decide +kernel

end World

end StoryChat
