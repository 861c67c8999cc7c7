/-
Every record leads back to the script it was written in.

A record does not hold the script, only which one it is. So it is worth something only
if the position selects the script that is being walked, and that script can be had
again. An engine is on course when this is so (`OnCourse`). It stays on course as long
as scripts are taken together with their place, and a record is written only where the
engine is on course: everything between the suspension point before the record and the
record itself leaves position and script alone.

Two things take an engine off course. To load a part (`Act.loadPart`) moves the script
and not the position, so it must be the part that the position names. And at the end
of a part (`Act.endPart`) the position moves before it is known whether the next part
can be loaded.
-/
import StoryChat.Proofs.Engine.Operation
import StoryChat.Proofs.Narrative.Record

set_option autoImplicit false

namespace StoryChat

namespace World

/-! ## On course -/

/-- The script that the position selects. -/
def script (w : World) : ScriptId := w.engine.narrative.script

theorem script_eq_named {w : World} {name : String}
    (h : w.engine.narrative.activeScript = some name) : w.script = .named name := by
  simp only [script, Narrative.script, Bearing.script, Narrative.bearing, h]

theorem script_eq_part {w : World} (h : w.engine.narrative.activeScript = none) :
    w.script = .part w.engine.narrative.chapter w.engine.narrative.part := by
  simp only [script, Narrative.script, Bearing.script, Narrative.bearing, h]

/-- The script that the position selects can be loaded, and it is the one that is being
walked. -/
def OnCourse (w : World) : Prop :=
  ∃ d, w.shelf w.script = .ok d ∧ w.engine.graph = some (.ofDocument d)

/-- On course, or without a script and then nothing asked. -/
def Steady (w : World) : Prop := (w.engine.graph = none ∧ w.waits = false) ∨ w.OnCourse

theorem OnCourse.congr {w m : World} (h : w.OnCourse) (hset : m.setting = w.setting)
    (hg : m.engine.graph = w.engine.graph) (hs : m.script = w.script) : m.OnCourse := by
  obtain ⟨d, hd, hgd⟩ := h
  exact ⟨d, by rw [shelf_eq_of_setting hset, hs, hd], hg.trans hgd⟩

theorem Steady.congr {w m : World} (h : w.Steady) (hset : m.setting = w.setting)
    (hg : m.engine.graph = w.engine.graph) (hs : m.script = w.script) (hw : m.waits = w.waits) :
    m.Steady := by
  rcases h with ⟨hnone, hwaits⟩ | h
  · exact .inl ⟨hg.trans hnone, hw.trans hwaits⟩
  · exact .inr (h.congr hset hg hs)

/-- Where a node can be found there is a script. -/
theorem Steady.onCourse_of_find {w : World} {id : String} {n : Node} (h : w.Steady)
    (hn : w.findNode? id = some n) : w.OnCourse := by
  rcases h with ⟨hnone, -⟩ | h
  · rw [findNode?, hnone] at hn
    cases hn
  · exact h

/-- Where the player is asked there is a script. -/
theorem Steady.onCourse_of_waits {w : World} (h : w.Steady) (hw : w.waits = true) :
    w.OnCourse := by
  rcases h with ⟨-, hwaits⟩ | h
  · rw [hwaits] at hw
    cases hw
  · exact h

theorem Inside.onCourse {n : Node} {w m : World} (h : w.Inside n m) (hw : w.OnCourse) : m.OnCourse :=
  hw.congr h.setting h.graph h.script

@[simp] theorem script_settled (w : World) : w.settled.script = w.script := by
  rw [script, Narrative.script, bearing_settled]
  rfl

@[simp] theorem script_emit (w : World) (e : Event) : (w.emit e).script = w.script := by
  rw [script, engine_emit, script]

@[simp] theorem script_display (w : World) (i : Indicator) : (w.display i).script = w.script :=
  congrArg Bearing.script (w.bearing_display i)

@[simp] theorem script_ready (w : World) (force : Bool) : (w.ready force).script = w.script := by
  cases force with
  | false => rfl
  | true =>
    rw [ready, if_pos rfl]
    exact script_display (w.tell (·.clearChoices)) .idle

@[simp] theorem script_chosen (w : World) (c : Choice) : (w.chosen c).script = w.script := by
  simp only [chosen, script, Narrative.script, narrative_tell, engine_play, engine_emit]
  rfl

theorem Steady.ready {w : World} (h : w.Steady) (force : Bool) : (w.ready force).Steady := by
  rcases h with ⟨hnone, hwaits⟩ | h
  · refine .inl ⟨(w.graph_ready force).trans hnone, ?_⟩
    cases force with
    | false => exact hwaits
    | true => exact w.waits_ready_of_force
  · exact .inr (h.congr (w.setting_ready force) (w.graph_ready force) (w.script_ready force))

theorem Steady.settled {w : World} (h : w.Steady) : w.settled.Steady :=
  h.congr w.setting_settled w.graph_settled w.script_settled w.waits_settled

theorem Steady.emit {w : World} (h : w.Steady) (e : Event) : (w.emit e).Steady :=
  h.congr (by simp) (by simp) (by simp) (by simp)

theorem OnCourse.saved {w : World} (h : w.OnCourse) : w.saved.OnCourse := h

theorem OnCourse.chosen {w : World} (h : w.OnCourse) (c : Choice) : (w.chosen c).OnCourse :=
  h.congr (w.setting_chosen c) (w.graph_chosen c) (w.script_chosen c)

/-- A named script is on course, whatever was so before. -/
theorem onCourse_diverted {w : World} {c : Choice} {name : String} {d : Document}
    (hs : w.shelf (.named name) = .ok d) :
    ((w.chosen c).diverted name (.ofDocument d)).OnCourse := by
  refine ⟨d, ?_, rfl⟩
  rw [← hs, ← w.shelf_chosen c]
  rfl

/-- Behind a part whose next one cannot be loaded the position selects what cannot be
loaded, or a named script that it selected before. -/
theorem OnCourse.leaving {w : World} {part : Nat} {fault : LoadFault} (h : w.OnCourse)
    (hs : w.shelf (.part w.engine.narrative.chapter part) = .error fault) :
    (w.leaving (some part)).OnCourse ∨
      ∃ fault, (w.leaving (some part)).shelf (w.leaving (some part)).script = .error fault := by
  cases ha : w.engine.narrative.activeScript with
  | some name =>
    refine .inl (h.congr rfl rfl ?_)
    rw [script_eq_named ha]
    exact script_eq_named (w := w.leaving (some part)) ha
  | none =>
    refine .inr ⟨fault, ?_⟩
    rw [script_eq_part (w := w.leaving (some part)) ha]
    exact hs

/-! ## What is written -/

/-- Between two worlds one after the other no record was written, or that of the first,
which was on course. -/
def KeepsCourse (g m : World) : Prop :=
  m.records = g.records ∨
    m.records = g.engine.narrative.snapshot.render :: g.records ∧ g.OnCourse

theorem KeepsCourse.refl (w : World) : w.KeepsCourse w := .inl rfl

/-- Changes that write no record. -/
theorem KeepsCourse.of_records {g w m : World} (h : g.KeepsCourse w)
    (hr : m.records = w.records) : g.KeepsCourse m := by
  rw [KeepsCourse, hr]
  exact h

theorem OnCourse.keeps_saved {w : World} (h : w.OnCourse) : w.KeepsCourse w.saved :=
  .inr ⟨w.records_saved, h⟩

/-- What has to be so where a part has ended: the script that is now selected can be
loaded. -/
def Lands (w : World) (walked : Option Walked) : Prop :=
  ∀ part, walked = some (.halted (.partEnd (some part))) → ∃ d, w.shelf w.script = .ok d

theorem records_emit (w : World) (e : Event) : (w.emit e).records = w.records :=
  records_eq (w.setting_emit e) (w.calls_emit e)

theorem records_chosen (w : World) (c : Choice) : (w.chosen c).records = w.records :=
  records_eq (w.setting_chosen c) (w.calls_chosen c)

theorem records_ready (w : World) (force : Bool) : (w.ready force).records = w.records :=
  records_eq (w.setting_ready force) (w.calls_ready force)

theorem records_settled (w : World) : w.settled.records = w.records :=
  records_eq w.setting_settled w.calls_settled

theorem snapshot_settled (w : World) :
    w.settled.engine.narrative.snapshot = w.engine.narrative.snapshot := by
  unfold settled display
  split
  · rfl
  · rw [engine_emit]
    rfl

theorem KeepsCourse.settled_left {g m : World} (h : g.KeepsCourse m) :
    g.settled.KeepsCourse m := by
  rcases h with h | ⟨h, hg⟩
  · exact .inl (h.trans g.records_settled.symm)
  · refine .inr ⟨?_, hg.congr g.setting_settled g.graph_settled g.script_settled⟩
    rw [h, records_settled, snapshot_settled]

end World

namespace Act

open World

/-! ## Walks -/

/-- What is left behind if it lands: the last record is one of an engine on course, and
the engine is so still. -/
def EndsOnCourse (walked : Option Walked) (last w : World) : Prop :=
  w.Lands walked → last.KeepsCourse w ∧ w.Steady

/-- A visit is made on course from beginning to end. -/
theorem visited_onCourse {g w : World} {id : String} {stops : List World} {out : Outcome Visit}
    (hg : g.KeepsCourse w) (hw : w.Steady) (hv : Visited w id stops out) :
    ∃ last, Legs KeepsCourse g stops last ∧
      Ends (After (fun halt => EndsOnCourse (some (.halted halt)))
        fun g w _ => g.KeepsCourse w ∧ w.Steady) last out := by
  cases hv with
  | missing hn => exact ⟨g, .arrived g, fun _ => ⟨hg, hw⟩⟩
  | @offered n hn hk =>
    have hon := hw.onCourse_of_find hn
    refine ⟨g, .arrived g, fun _ => ⟨hg.of_records (records_emit _ _), .inr ?_⟩⟩
    exact hon.congr (by simp [World.offering, World.at]) (by simp [World.offering, World.at])
      (by rw [World.offering, script_emit]; rfl)
  | @told n stops m hn hc he hp hs hm =>
    have hon : (w.at id).OnCourse := (hw.onCourse_of_find hn).congr rfl rfl rfl
    have keeps {a b : World} (ha : (w.at id).Inside n a) (hb : (w.at id).Inside n b) :
        a.KeepsCourse b := .inl (hb.records.trans ha.records.symm)
    have hlast : (w.at id).Inside n m := hs m (List.mem_of_getLast? hm)
    have hend : m.KeepsCourse m.saved ∧ m.saved.Steady :=
      ⟨(hlast.onCourse hon).keeps_saved, .inr (hlast.onCourse hon)⟩
    refine ⟨_, .of_rel hs (fun a ha => hg.of_records ha.records) fun a b => keeps, ?_⟩
    rw [hm]
    exact After.ofNext (fun _ => hend) fun _ _ => hend
  | crossed hn hc he ht hp hs =>
    exact ⟨_, .of_rel hs (fun a ha => hg.of_records ha.records)
      fun a b ha hb => .inl (hb.records.trans ha.records.symm), Stop.noConfusion⟩
  | ended hn hk hp =>
    have hon : (w.leaving none).OnCourse := (hw.onCourse_of_find hn).congr rfl rfl rfl
    refine ⟨_, .leg (hg.of_records rfl) (.arrived _), fun _ => ⟨?_, ?_⟩⟩
    · exact hon.keeps_saved.of_records (records_emit _ _)
    · exact Steady.emit (.inr hon.saved) _
  | @lost n part fault hn hk hp hs =>
    refine ⟨_, .leg (hg.of_records rfl) (.leg (.refl _) (.arrived _)), fun hlands => ?_⟩
    -- as it lands, the position is not the part that was lost
    have hon : (w.leaving (some part)).OnCourse := by
      obtain ⟨d, hd⟩ := hlands part rfl
      rw [script_emit, shelf_eq_of_setting (setting_emit _ _)] at hd
      rcases (hw.onCourse_of_find hn).leaving hs with hon | ⟨fault', hlost⟩
      · exact hon
      · cases hlost.symm.trans hd
    exact ⟨hon.keeps_saved.of_records (records_emit _ _), Steady.emit (.inr hon.saved) _⟩
  | @turned n part d hn hk hp hs =>
    have hon : ((w.leaving (some part)).turning (.ofDocument d)).OnCourse := ⟨d, hs, rfl⟩
    refine ⟨_, .leg (hg.of_records rfl) (.leg (.inl rfl) (.arrived _)), fun _ => ⟨?_, ?_⟩⟩
    · exact hon.keeps_saved.of_records (records_emit _ _)
    · exact Steady.emit (.inr hon.saved) _

/-! ## Operations -/

theorem advance_onCourse {g w : World} {id : String} {force : Bool} (hg : g.KeepsCourse w)
    (hw : w.Steady) :
    Passes KeepsCourse (Act.advance id force) g w fun walked => EndsOnCourse (some walked) := by
  have hready : g.KeepsCourse (w.ready force) ∧ (w.ready force).Steady :=
    ⟨hg.of_records (w.records_ready force), hw.ready force⟩
  refine .advance (fun g m hm => ?_) (fun _ _ _ => ⟨hg, hw⟩)
    (.walk (fun g w id stops out h hv => visited_onCourse h.1 h.2 hv) _ id hready)
    fun halt g w h => ?_
  · have hsettled : g.KeepsCourse m.settled := hm.of_records m.records_settled
    exact ⟨hsettled, hsettled.settled_left⟩
  · -- the flag and the indicator are nothing that a record or a script could depend on
    have hshelf : (w.settled.emit (.halted halt)).shelf = w.shelf :=
      shelf_eq_of_setting ((setting_emit _ _).trans w.setting_settled)
    have hdone (hlands : (w.settled.emit (.halted halt)).Lands (some (.halted halt))) :
        g.KeepsCourse (w.settled.emit (.halted halt)) ∧ w.Steady := by
      obtain ⟨hk, hs⟩ := h fun part hp => by
        obtain ⟨d, hd⟩ := hlands part (by rw [hp])
        exact ⟨d, by rwa [hshelf, script_emit, script_settled] at hd⟩
      exact ⟨hk.of_records ((records_emit _ _).trans w.records_settled), hs⟩
    exact ⟨fun hl => ⟨(hdone hl).1, (hdone hl).2.settled.emit _⟩,
      fun hl => ⟨(hdone hl).1.settled_left, (hdone hl).2.settled.emit _⟩⟩

end Act

/-! ## Operations -/

/-- Whether an operation plays the story on, or takes the script for it. -/
def Operation.Plays : Operation → Bool
  | .loadPart .. | .loadNamed _ | .startChapter .. | .resumeFrom .. | .beginPending
  | .advance .. | .choose _ => true
  | _ => false

/-- The script that an operation takes together with its place. -/
def Operation.script? : Operation → Option ScriptId
  | .startChapter chapter part | .resumeFrom chapter part _ => some (.part chapter part)
  | .loadNamed name => some (.named name)
  | _ => none

/-- Whether the part that an operation loads is the position. -/
def Operation.Steers (op : Operation) (w : World) : Prop :=
  ∀ chapter part, op = .loadPart chapter part → (∃ d, w.shelf (.part chapter part) = .ok d) →
    w.engine.narrative.chapter = chapter ∧ w.engine.narrative.part = part

namespace Act

open World

/-- To take a script together with its place brings the engine on course. -/
theorem Prelude.takes_onCourse {w v : World} {op : Operation} {stops : List World} {on : Onward}
    {id : ScriptId} {d : Document} (hid : op.script? = some id) (hd : w.shelf id = .ok d)
    (hb : op.isPolite → w.engine.narrative.flags.processing = false)
    (h : Prelude w op stops v on) : stops = [w] ∧ v.records = w.records ∧ v.OnCourse := by
  cases h with
  | busy hop hb' => rw [hb hop] at hb'; cases hb'
  | loadedNamed hs => cases hid; exact ⟨rfl, rfl, _, hs, rfl⟩
  | started hb' hs => cases hid; exact ⟨rfl, rfl, _, hs, rfl⟩
  | resumed hb' hs => cases hid; exact ⟨rfl, rfl, _, hs, rfl⟩
  | lostNamed hs | lostStart _ hs | lostResume _ hs =>
    cases hid
    rw [hd] at hs
    cases hs
  | _ => cases hid

/-- What an operation does before it walks keeps the course. -/
theorem Prelude.onCourse {w v : World} {op : Operation} {stops : List World} {on : Onward}
    (hop : op.Plays) (hst : op.Steers w) (hw : w.Steady) (h : Prelude w op stops v on) :
    ∃ last, Legs KeepsCourse w stops last ∧ last.KeepsCourse v ∧ v.Steady := by
  have here {m : World} (hm : m.records = w.records) (hs : m.Steady) :
      ∃ last, Legs KeepsCourse w [w] last ∧ last.KeepsCourse m ∧ m.Steady :=
    ⟨w, .leg (.refl w) (.arrived w), .inl hm, hs⟩
  cases h with
  | busy hop hb => exact ⟨w, .arrived w, .refl w, hw⟩
  | lostPart | lostNamed | lostStart | lostResume => exact here rfl hw
  -- the part is the one that the story is at, so its script is that of the position
  | @loadedPart chapter part d hs =>
    obtain ⟨hc, hp⟩ := hst chapter part rfl ⟨d, hs⟩
    refine here rfl (.inr ⟨d, ?_, rfl⟩)
    rw [← hs, ← hc, ← hp]
    rfl
  | loadedNamed hs => exact here rfl (.inr ⟨_, hs, rfl⟩)
  | started hb hs => exact here rfl (.inr ⟨_, hs, rfl⟩)
  | resumed hb hs => exact here rfl (.inr ⟨_, hs, rfl⟩)
  | nonePending | busyPending => exact ⟨w, .arrived w, .refl w, hw⟩
  | begunPending hi hb => exact ⟨w, .arrived w, .inl rfl, hw⟩
  | advance => exact ⟨w, .arrived w, .refl w, hw⟩
  | refused hr => exact ⟨w, .arrived w, .refl w, hw⟩
  -- whoever was asked was on course, and an answer does not change the script
  | @accepted index c hv hc hn =>
    have hon : ((w.chosen c).tell (·.goTo c.next)).OnCourse :=
      ((hw.onCourse_of_waits hv).chosen c).congr rfl rfl rfl
    exact ⟨_, .leg (.inl (w.records_chosen c)) (.arrived _), hon.keeps_saved, .inr hon.saved⟩
  | @undiverted index c name fault hv hc hn hs =>
    have hon : ((w.chosen c).tell (·.goTo c.next)).OnCourse :=
      ((hw.onCourse_of_waits hv).chosen c).congr rfl rfl rfl
    exact ⟨_, .leg (.inl (w.records_chosen c)) (.leg (.inl rfl) (.arrived _)), hon.keeps_saved,
      .inr hon.saved⟩
  -- a diversion takes the script and a position in it together
  | @diverted index c name d hv hc hn hs =>
    have hon : (((w.chosen c).diverted name (.ofDocument d)).at
        ((w.chosen c).diverted name (.ofDocument d)).entrance).OnCourse :=
      (onCourse_diverted hs).congr rfl rfl rfl
    exact ⟨_, .leg (.inl (w.records_chosen c)) (.leg (.inl rfl) (.arrived _)), hon.keeps_saved,
      .inr hon.saved⟩
  | unread | lostRecord | recalled | rest | resetGame | setPlayerName => cases hop

/-- The step lemma, for an engine that is on course. -/
theorem operation_onCourse {w : World} {op : Operation} (hop : op.Plays) (hst : op.Steers w)
    (hw : w.Steady) : Passes KeepsCourse op.run w w EndsOnCourse := by
  refine .operation fun stops v on h => ?_
  obtain ⟨last, hl, hv, hs⟩ := Prelude.onCourse hop hst hw h
  exact ⟨last, hl, .onward (fun walked _ _ => ⟨hv, hs⟩) fun id force _ => advance_onCourse hv hs⟩

/-- The step lemma, for an engine that is brought on course. -/
theorem operation_takes_onCourse {w : World} {op : Operation} {id : ScriptId} {d : Document}
    (hid : op.script? = some id) (hd : w.shelf id = .ok d)
    (hb : op.isPolite → w.engine.narrative.flags.processing = false) :
    Passes KeepsCourse op.run w w EndsOnCourse := by
  refine .operation fun stops v on h => ?_
  obtain ⟨rfl, hv, hon⟩ := Prelude.takes_onCourse hid hd hb h
  exact ⟨w, .leg (.refl w) (.arrived w), .onward (fun walked _ _ => ⟨.inl hv, .inr hon⟩)
    fun id force _ => advance_onCourse (.inl hv) (.inr hon)⟩

/-! ## Continuing -/

theorem advanceTo_eq_act (node : Option String) (force : Bool) :
    advanceTo node force = (Onward.to node force).act := by
  cases node <;> rfl

end Act

namespace World

/-- The record written in `g` leads back to it: an engine over the same shelf that finds
the record walks on from the node of `g` in the script of `g`, unless it cannot read the
record, and then it does nothing. -/
def LeadsBack (g : World) : Prop :=
  ∀ v : World, v.shelf = g.shelf → v.engine.narrative.flags.processing = false →
    (v.called.saves.get v.engine.config.progressKey).1 =
      .ok (some g.engine.narrative.snapshot.render) →
    (∃ fault v', Progress.parse g.engine.narrative.snapshot.render = .error fault ∧
      Act.resumeSaved (v.under .endless) = .ok (.ok none) v') ∨
    ∃ v' : World, v'.script = g.script ∧ v'.engine.graph = g.engine.graph ∧
      Act.resumeSaved (v.under .endless) =
        (Except.ok <$> Act.advanceTo g.engine.narrative.currentNode false) (v'.under .endless)

theorem script_opened (w : World) (id : ScriptId) (graph : Graph) :
    (w.opened id graph).script = id := by
  cases id <;> rfl

theorem graph_opened (w : World) (id : ScriptId) (graph : Graph) :
    (w.opened id graph).engine.graph = some graph := by
  cases id <;> rfl

/-- On course every record leads back. -/
theorem OnCourse.leadsBack {g : World} (h : g.OnCourse) : g.LeadsBack := by
  intro v hshelf hb hslot
  obtain ⟨d, hd, hgraph⟩ := h
  rw [← config_called] at hslot
  have hkept : v.called.kept? =
      (Progress.parse g.engine.narrative.snapshot.render).toOption := by
    rw [kept?, hslot]
  cases hp : Progress.parse g.engine.narrative.snapshot.render with
  | error fault =>
    rw [hp] at hkept
    exact .inl ⟨fault, _, rfl, (Act.path_resumeSaved_unread hb hkept).whole⟩
  | ok p =>
    rw [hp] at hkept
    have hp' := Progress.eq_of_parse_render hp
    have hscript : p.script = g.script := congrArg Progress.script hp'
    have hnode : p.currentNode = g.engine.narrative.currentNode :=
      congrArg Progress.currentNode hp'
    have hs : v.shelf p.script = .ok d := by rw [hshelf, hscript, hd]
    refine .inr ⟨(v.called.recalled p).opened p.script (.ofDocument d), ?_, ?_, ?_⟩
    · rw [script_opened, hscript]
    · rw [graph_opened, hgraph]
    · rw [(Act.comes_resumeSaved hb hkept hs).whole, hnode, Act.advanceTo_eq_act]

/-! ## Runs -/

/-- Whether an operation takes a script together with its place. One that finds a walk under
way and gives up takes nothing. -/
def Takes (w : World) (op : Operation) : Prop :=
  (op.isPolite → w.engine.narrative.flags.processing = false) ∧
    ∃ id d, op.script? = some id ∧ w.shelf id = .ok d

/-- The worlds of a run that stays on course: from a fresh engine, or from wherever a
script is taken together with its place, only the part of the position is loaded alone
and every part ends with one that can be loaded. -/
inductive Steered : World → Prop where
  | fresh {w : World} {config : Config} {interrupts : List Interrupt}
      {listening audible : Bool} :
      w.engine = .fresh config interrupts listening audible → Steered w
  | played {w w' : World} {op : Operation} {walked : Option Walked} : Steered w →
      op.Plays → op.Steers w → op.run (w.under .endless) = .ok walked w' → w'.Lands walked →
      Steered w'
  | taken {w w' : World} {op : Operation} {walked : Option Walked} : w.Takes op →
      op.run (w.under .endless) = .ok walked w' → w'.Lands walked → Steered w'

theorem Takes.passes {w : World} {op : Operation} (h : w.Takes op) :
    Act.Passes KeepsCourse op.run w w Act.EndsOnCourse := by
  obtain ⟨hb, id, d, hid, hd⟩ := h
  exact Act.operation_takes_onCourse hid hd hb

/-- What lands is on course at the end of an operation that passes. -/
theorem steady_of_passes {w w' : World} {op : Operation} {walked : Option Walked}
    (h : Act.Passes KeepsCourse op.run w w Act.EndsOnCourse)
    (hrun : op.run (w.under .endless) = .ok walked w') (hl : w'.Lands walked) : w'.Steady := by
  obtain ⟨_, w'', hend, rfl⟩ := h.ended hrun
  exact (hend hl).2

theorem Steered.steady {w : World} (h : w.Steered) : w.Steady := by
  induction h with
  | @fresh w config interrupts listening audible he =>
    refine .inl ⟨by rw [he]; rfl, ?_⟩
    rw [waits, he]
    rfl
  | played _ hop hst hrun hl ih => exact steady_of_passes (Act.operation_onCourse hop hst ih) hrun hl
  | taken ht hrun hl => exact steady_of_passes ht.passes hrun hl

/-- Whether an operation is one of a run that stays on course. -/
def Sails (w : World) (op : Operation) : Prop :=
  w.Steered ∧ op.Plays ∧ op.Steers w ∨ w.Takes op

theorem Sails.passes {w : World} {op : Operation} (h : w.Sails op) :
    Act.Passes KeepsCourse op.run w w Act.EndsOnCourse := by
  rcases h with ⟨hw, hop, hst⟩ | ht
  · exact Act.operation_onCourse hop hst hw.steady
  · exact ht.passes

theorem suspendedIn_setting {w m : World} {op : Operation} {k : Nat}
    (hm : op.run (w.under (.suspensions k)) = .error .cut m ∨
      ∃ walked, op.run (w.under (.suspensions k)) = .ok walked m ∧ m.Lands walked) :
    (Act.suspendedIn op.run w k).setting = w.setting := by
  have hset := Act.operation_setting (w := w) op rfl
  rcases hm with hcut | ⟨walked, hend, -⟩
  · obtain ⟨a, b, p, hin, hs, -⟩ := hset.cut_after hcut
    rw [hs]
    exact hin.1
  · obtain ⟨a, b, p, hin, -, hs | hs⟩ := hset.ended_after hend
    · rw [hs]
      exact hin.1
    · rw [hs]
      exact hin.2

/-- In a run that stays on course (`Sails`), whatever an operation writes between two
suspension points, or before its end, is the record of the first of them. There the script
that the record selects could be loaded, it was the one that was being walked, and the record
leads back to it. -/
theorem Sails.records_lead_back {w m : World} {op : Operation} {k : Nat} (h : w.Sails op)
    (hm : op.run (w.under (.suspensions k)) = .error .cut m ∨
      ∃ walked, op.run (w.under (.suspensions k)) = .ok walked m ∧ m.Lands walked) :
    m.records = (Act.suspendedIn op.run w k).records ∨
      ∃ g d, Act.suspendedIn op.run w k = g ∧ g.shelf = w.shelf ∧
        m.records = g.engine.narrative.snapshot.render :: g.records ∧
        w.shelf g.engine.narrative.snapshot.script = .ok d ∧
        g.engine.graph = some (.ofDocument d) ∧ g.LeadsBack := by
  -- what a world on course says of the record that was written in it
  have written {a b : World} {p q : Patience} (ha : a.KeepsCourse b)
      (hs : Act.suspendedIn op.run w k = a.under p) (hb : m = b.under q) :
      m.records = (Act.suspendedIn op.run w k).records ∨
        ∃ g d, Act.suspendedIn op.run w k = g ∧ g.shelf = w.shelf ∧
          m.records = g.engine.narrative.snapshot.render :: g.records ∧
          w.shelf g.engine.narrative.snapshot.script = .ok d ∧
          g.engine.graph = some (.ofDocument d) ∧ g.LeadsBack := by
    have hshelf : a.shelf = w.shelf := by
      have hset := suspendedIn_setting hm
      rw [hs] at hset
      exact shelf_eq_of_setting hset
    rw [hs, hb]
    rcases ha with ha | ⟨ha, d, hd, hg⟩
    · exact .inl ha
    · refine .inr ⟨a.under p, d, rfl, hshelf, ha, ?_, hg, ?_⟩
      · rw [← hshelf]
        exact hd
      · exact OnCourse.leadsBack (g := a.under p) ⟨d, hd, hg⟩
  rcases hm with hcut | ⟨walked, hend, hlands⟩
  · obtain ⟨a, b, p, hk, hs, hb⟩ := h.passes.cut_after hcut
    exact written hk hs hb
  · obtain ⟨last, b, p, hk, ⟨q, rfl⟩, hs | hs⟩ := h.passes.ended_after hend
    · exact written (hk hlands).1 hs rfl
    · exact written (.refl b) hs rfl

end World

/-! ### A story of two parts -/

/-- A script that is over at its entrance and names the part that is next. -/
def Document.endingIn (part : Nat) : Document :=
  ⟨none, [{ Node.message "start" .player "" with kind := .partEnd, nextPart := some part }]⟩

/-- A story whose second part names a third, which there is not. -/
def Shelf.twoParts : Shelf
  | .part 1 1 => .ok (.endingIn 2)
  | .part 1 2 => .ok (.endingIn 3)
  | id => .error (.notFound id)

theorem World.Sails.records_lead_back_twoParts :
    ∃ w m : World, w.Sails (.startChapter 1 1) ∧
      ∃ g d, Act.suspendedIn (Operation.startChapter 1 1).run w 3 = g ∧ g.shelf = w.shelf ∧
        m.records = g.engine.narrative.snapshot.render :: g.records ∧
        w.shelf g.engine.narrative.snapshot.script = .ok d ∧
        g.engine.graph = some (.ofDocument d) ∧ g.LeadsBack := by
  have hrun : ∃ walked m, (Operation.startChapter 1 1).run
      ((World.opening .twoParts).under (.suspensions 3)) = .ok walked m ∧
      m.records.length = 1 ∧ m.Lands walked := ⟨_, _, rfl, by decide, fun _ _ => ⟨_, rfl⟩⟩
  obtain ⟨walked, m, hrun, hone, hlands⟩ := hrun
  have hs : (World.opening .twoParts).Sails (.startChapter 1 1) := .inl ⟨.fresh rfl, rfl, nofun⟩
  have hnone : (Act.suspendedIn (Operation.startChapter 1 1).run
      (World.opening .twoParts) 3).records.length = 0 := by decide
  rcases hs.records_lead_back (.inr ⟨walked, hrun, hlands⟩) with h | h
  · rw [h, hnone] at hone
    cases hone
  · exact ⟨_, m, hs, h⟩

/-- The worlds of any run from a fresh engine on, each operation done to its end. -/
inductive World.Played : World → Prop where
  | fresh {w : World} {config : Config} {interrupts : List Interrupt}
      {listening audible : Bool} :
      w.engine = .fresh config interrupts listening audible → Played w
  | step {w w' : World} {op : Operation} {walked : Option Walked} : Played w → op.Plays →
      op.run (w.under .endless) = .ok walked w' → Played w'

/-- Not every record that is written selects a script that can be loaded: at the end of a part
(`Act.endPart`) it selects the next one, whether there is one or not. -/
theorem World.not_loads_of_played : ¬ ∀ (w m : World) (op : Operation) (k : Nat)
    (walked : Option Walked), w.Played → op.Plays →
    op.run (w.under (.suspensions k)) = .ok walked m →
    m.records = (Act.suspendedIn op.run w k).records ∨
      ∃ d, w.shelf (Act.suspendedIn op.run w k).engine.narrative.snapshot.script = .ok d := by
  intro h
  have hrun : ∃ walked m, (Operation.startChapter 1 2).run
      ((World.opening .twoParts).under (.suspensions 3)) = .ok walked m ∧
      m.records.length = 1 := ⟨_, _, rfl, by decide⟩
  obtain ⟨walked, m, hrun, hone⟩ := hrun
  have hnone : (Act.suspendedIn (Operation.startChapter 1 2).run
      (World.opening .twoParts) 3).records.length = 0 := by decide
  have hscript : (Act.suspendedIn (Operation.startChapter 1 2).run
      (World.opening .twoParts) 3).engine.narrative.snapshot.script = .part 1 3 := by decide
  rcases h _ m _ 3 walked (.fresh rfl) rfl hrun with h | ⟨d, hd⟩
  · rw [h, hnone] at hone
    cases hone
  · rw [hscript] at hd
    cases hd

/-- A script that says one thing. -/
def Document.saying (text : String) : Document := ⟨none, [.message "start" .player text]⟩

/-- A story whose second part says something else than its first. -/
def Shelf.twoSayings : Shelf := fun id =>
  .ok (.saying (if id = .part 1 1 then "First" else "Second"))

/-- Nor is the script that a record selects always the one that is being walked, even where it
can be loaded: to load a part alone (`Act.loadPart`) does not move the position. -/
theorem World.not_walked_of_played : ¬ ∀ (w m : World) (op : Operation) (k : Nat)
    (walked : Option Walked), w.Played → op.Plays →
    op.run (w.under (.suspensions k)) = .ok walked m →
    m.records = (Act.suspendedIn op.run w k).records ∨
      ∀ d, w.shelf (Act.suspendedIn op.run w k).engine.narrative.snapshot.script = .ok d →
        (Act.suspendedIn op.run w k).engine.graph = some (.ofDocument d) := by
  intro h
  -- the second part is loaded and walked, and the position stays in the first
  have hrun : ∃ w walked m,
      (Operation.loadPart 1 2).run ((World.opening .twoSayings).under .endless) = .ok none w ∧
      (Operation.advance "start" false).run (w.under (.suspensions 1)) = .ok walked m ∧
      m.records.length = 1 ∧
      (Act.suspendedIn (Operation.advance "start" false).run w 1).records.length = 0 ∧
      w.shelf (Act.suspendedIn (Operation.advance "start" false).run w
        1).engine.narrative.snapshot.script = .ok (.saying "First") ∧
      (Act.suspendedIn (Operation.advance "start" false).run w 1).engine.graph =
        some (.ofDocument (.saying "Second")) :=
    ⟨_, _, _, rfl, rfl, by decide, by decide, rfl, rfl⟩
  obtain ⟨w, walked, m, hload, hrun, hone, hnone, hshelf, hgraph⟩ := hrun
  rcases h w m _ 1 walked (.step (.fresh rfl) rfl hload) rfl hrun with h | h
  · rw [h, hnone] at hone
    cases hone
  · rw [h _ hshelf] at hgraph
    have htext := congrArg (Option.map fun g => g.nodes.toList.map Node.content) hgraph
    exact absurd htext (by decide)

end StoryChat
