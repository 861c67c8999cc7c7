/-
A story that was left is taken up where it was.

An operation that is left has written its record at some suspension point, and what it
would still have done is a walk from the position of that record. A fresh engine that
finds the record (`Act.resumeSaved`) stands where the old one stood: the script is the
one that the position selects, and the story and the bearing are those of the record.
Where a walk leads is a matter of the `Plot` alone, so the fresh engine comes to the end
that the old one would have come to, wherever that one was left.

All this needs two slots. In one slot the record stands where the name of the player is
looked for, and the fresh engine calls the player by the record.
-/
import StoryChat.Proofs.Engine.Regular
import StoryChat.Proofs.Engine.Tracking

set_option autoImplicit false

namespace StoryChat

namespace World

/-! ## What the slots hold -/

/-- What is relied on before an operation: the source of scripts and the schema are in
order, the engine is on course and calls the player as the slot for the name does, and
the slot for progress takes what is put into it. -/
structure Dependable (w : World) : Prop extends Sourced w where
  onCourse : w.OnCourse
  called : w.engine.narrative.playerName = w.keptName?.getD ""
  willing : w.saves.Willing w.engine.config.progressKey

/-- What holds in a world that an operation has come to from `w`: the name is where it
was, and if records were written, the slot for progress holds one of a world that
satisfies `P`. -/
structure Carries (w : World) (P : World → Prop) (m : World) : Prop where
  setting : m.setting = w.setting
  playerName : m.engine.narrative.playerName = w.engine.narrative.playerName
  willing : m.saves.Willing w.engine.config.progressKey
  apart : m.saves.medium.Apart w.engine.config.progressKey w.engine.config.nameKey
  name : ∀ text, m.saves.medium.get w.engine.config.nameKey = .ok (some text) ↔
    w.saves.medium.get w.engine.config.nameKey = .ok (some text)
  kept : m.records = w.records ∨ ∃ g, P g ∧ m.saves.medium.get w.engine.config.progressKey =
    .ok (some g.engine.narrative.snapshot.render)

variable {walked : Option Walked} {f : Plot} {w a b : World} {P : World → Prop}

theorem Dependable.carries (h : w.Dependable)
    (ha : w.saves.medium.Apart w.engine.config.progressKey w.engine.config.nameKey)
    (P : World → Prop) : w.Carries P w :=
  ⟨rfl, rfl, h.willing, ha, fun _ => Iff.rfl, .inl rfl⟩

theorem Carries.under (h : w.Carries P a) (p : Patience) : w.Carries P (a.under p) :=
  ⟨h.setting, h.playerName, h.willing, h.apart, h.name, h.kept⟩

/-- From one world to the next, where the first satisfies `P` if it leads to the end. -/
theorem Carries.step (h : w.Carries P a) (hab : Tracks walked f a b)
    (hP : a.LeadsTo walked f → P a) : w.Carries P b := by
  have hset := hab.setting.trans h.setting
  have hname := hab.playerName.trans h.playerName
  have hkey : a.engine.config.progressKey = w.engine.config.progressKey :=
    congrArg Config.progressKey (config_eq_of_setting h.setting)
  -- either nothing was written on the way, or the record of the first world was
  rcases hab.kept with ⟨hr, hs⟩ | ⟨hr, hs, hleads⟩
  · refine ⟨hset, hname, ?_, ?_, ?_, ?_⟩
    · rw [hs]
      exact h.willing
    · rw [hs]
      exact h.apart
    · rw [hs]
      exact h.name
    · rw [hr, hs]
      exact h.kept
  · rw [saves_saved, hkey] at hs
    have hmedium : b.saves.medium = (a.saves.medium.set w.engine.config.progressKey
        a.engine.narrative.snapshot.render).2 := by
      rw [hs, h.willing.medium_set]
    refine ⟨hset, hname, ?_, ?_, fun text => ?_, .inr ⟨a, hP hleads, ?_⟩⟩
    · rw [hs]
      exact h.willing.set _
    · rw [hmedium]
      exact (SlotMedium.apart_set _ _ _ _ _).2 h.apart
    · rw [hmedium, ← h.name text]
      constructor
      · intro hget
        rcases SlotMedium.of_get_set hget with hold | ⟨hnot, -⟩
        · exact hold
        · exact absurd h.apart.symm hnot
      · exact SlotMedium.get_set_of_apart h.apart.symm
    · rw [hmedium]
      exact SlotMedium.get_set (h.willing.takes _)

/-- A world that an operation was last suspended in, whose record leads to its end. -/
structure Turning (w : World) (op : Operation) (walked : Option Walked) (f : Plot) (g : World) :
    Prop extends g.LeadsTo walked f where
  setting : g.setting = w.setting
  playerName : g.engine.narrative.playerName = w.engine.narrative.playerName
  suspended : ∃ k, Act.suspendedIn op.run w k = g

/-- Wherever an operation is left, the slot for progress holds the record of one of the
worlds it was suspended in, and that record leads to its end. -/
theorem Dependable.carries_of_run {m F : World} {op : Operation} {k : Nat} (h : w.Dependable)
    (ha : w.saves.medium.Apart w.engine.config.progressKey w.engine.config.nameKey)
    (hop : op.GoesOn) (hrun : op.run (w.under .endless) = .ok walked F)
    (hm : op.run (w.under (.suspensions k)) = .error .cut m ∨
      ∃ walked', op.run (w.under (.suspensions k)) = .ok walked' m) :
    w.Carries (w.Turning op walked F.plot) m := by
  have step (j : Nat) (a b : World) (p : Patience) (hs : Act.suspendedIn op.run w j = a.under p)
      (hab : Tracks walked F.plot a b) (ha : w.Carries (w.Turning op walked F.plot) a) :
      w.Carries (w.Turning op walked F.plot) b :=
    (ha.under p).step (hab.under_left p) fun hl => ⟨hl, ha.setting, ha.playerName, j, hs⟩
  obtain ⟨b, p, hb, rfl⟩ :=
    (Act.operation_tracks hop h.onCourse hrun).invariant (h.carries ha _) step hm
  exact hb.under p

/-! ## Continuing -/

/-- A fresh engine in the place of the one of `m`: of the same configuration, over the
same scripts and slots, none of whose calls is refused, and able to walk as far. -/
structure Renews (v m : World) : Prop where
  fresh : ∃ interrupts listening audible,
    v.engine = .fresh m.engine.config interrupts listening audible
  shelf : v.shelf = m.shelf
  reach : m.reach ≤ v.reach
  medium : v.saves.medium = m.saves.medium
  refusal : ∀ n call, v.saves.refusal n call = none

/-- A record that is found and can be read back. -/
theorem kept?_of_render {v : World} {p : Progress} (hp : p.Regular) (hread : p.Readable)
    (hversion : p.version = recordVersion)
    (hslot : (v.saves.get v.engine.config.progressKey).1 = .ok (some p.render)) :
    v.kept? = some p := by
  rw [kept?, hslot]
  dsimp only
  rw [Progress.parse_render hp hread hversion]
  rfl

/-- What is restored from the record of a regular world is its story. -/
theorem story_recalled {v g : World} (hg : g.Regular)
    (hv : v.engine.narrative.vars.schema = g.engine.config.schema) :
    (v.recalled g.engine.narrative.snapshot).engine.narrative.story = g.engine.narrative.story := by
  have hvars : v.engine.narrative.vars.restore g.engine.narrative.snapshot.vars =
      g.engine.narrative.vars :=
    hg.story.vars.restore_values hg.built hv
  simp only [recalled, narrative_tell, engine_asked, Narrative.restore, Narrative.story, hvars]
  rfl

/-- And its bearing, if the player is called the same. -/
theorem atRest_recalled {v g : World}
    (hname : v.engine.narrative.playerName = g.engine.narrative.playerName) :
    (v.recalled g.engine.narrative.snapshot).engine.narrative.bearing.atRest =
      g.engine.narrative.bearing.atRest := by
  simp only [recalled, narrative_tell, engine_asked, Narrative.restore, Narrative.bearing,
    Bearing.atRest, hname]
  rfl

/-- To take the script that the position selects changes nothing of the story and the
bearing. -/
theorem opened_script (w : World) (graph : Graph) :
    (w.opened w.script graph).engine.narrative.story = w.engine.narrative.story ∧
      (w.opened w.script graph).engine.narrative.bearing = w.engine.narrative.bearing := by
  cases ha : w.engine.narrative.activeScript with
  | none =>
    rw [script_eq_part ha]
    refine ⟨rfl, ?_⟩
    simp only [opened, installed, narrative_tell, Narrative.moveTo, Narrative.bearing, ha]
  | some name =>
    rw [script_eq_named ha]
    refine ⟨rfl, ?_⟩
    simp only [opened, diverted, Narrative.bearing, ha]

/-- Whether an engine has come to the end that an operation has come to: to the same story
and bearing, and where the operation halted at a choice, to the same question. -/
structure EndsAs (walked : Option Walked) (f V : World) : Prop where
  story : V.engine.narrative.story = f.engine.narrative.story
  bearing : V.engine.narrative.bearing.atRest = f.engine.narrative.bearing.atRest
  asked : walked = some (.halted .awaitingChoice) → f.waits = true ∧ V.waits = true ∧
    V.engine.narrative.flags.choices = f.engine.narrative.flags.choices

theorem EndsAs.of_plot {F V : World} (h : V.plot = F.plot)
    (hasks : walked = some (.halted .awaitingChoice) → F.Asks ∧ V.Asks) : EndsAs walked F V := by
  refine ⟨(congrArg Plot.story h :), (congrArg Plot.bearing h :), fun hw => ?_⟩
  obtain ⟨hF, hV⟩ := hasks hw
  exact ⟨hF.1, hV.1, by rw [hF.2, hV.2, h]⟩

/-- A fresh engine that finds a record that leads to the end of an operation comes there,
if it can read the record back and calls the player the same. -/
theorem LeadsTo.resume {g v F : World} (h : g.LeadsTo walked F.plot) (hg : g.Regular)
    (hread : g.engine.narrative.snapshot.Readable)
    (hF : walked = some (.halted .awaitingChoice) → F.Asks)
    (hb : v.engine.narrative.flags.processing = false)
    (hconfig : v.engine.config = g.engine.config) (hshelf : v.shelf = g.shelf)
    (hreach : g.reach ≤ v.reach)
    (hschema : v.called.engine.narrative.vars.schema = g.engine.config.schema)
    (hname : v.called.engine.narrative.playerName = g.engine.narrative.playerName)
    (hslot : (v.called.saves.get v.engine.config.progressKey).1 =
      .ok (some g.engine.narrative.snapshot.render)) :
    ∃ r V, Act.resumeSaved (v.under .endless) = .ok r V ∧ EndsAs walked F V := by
  have hkept : v.called.kept? = some g.engine.narrative.snapshot :=
    kept?_of_render hg.snapshot hread rfl (by rw [config_called, hslot])
  have hstory := story_recalled hg hschema
  have hrest := atRest_recalled hname
  have hscript : g.engine.narrative.snapshot.script = g.script := rfl
  rcases h.course with ⟨d, hd, hgraph⟩ | ⟨hnone, fault, hlost⟩
  · have hs : v.shelf g.engine.narrative.snapshot.script = .ok d := by rw [hshelf, hscript, hd]
    have hrun := (Act.comes_resumeSaved hb hkept hs).whole
    -- where the fresh engine goes on it stands as the old one stood
    obtain ⟨v', hv'⟩ : ∃ v' : World, v' = (v.called.recalled g.engine.narrative.snapshot).opened
      g.engine.narrative.snapshot.script (.ofDocument d) := ⟨_, rfl⟩
    have hset : v'.setting = v.setting := by
      rw [hv', setting_opened, setting_recalled, setting_called]
    have hplot : v'.plot = g.plot := by
      have hopened := opened_script (v.called.recalled g.engine.narrative.snapshot) (.ofDocument d)
      have hid : (v.called.recalled g.engine.narrative.snapshot).script =
          g.engine.narrative.snapshot.script := rfl
      rw [hid, ← hv'] at hopened
      rw [plot, plot, config_eq_of_setting hset, hconfig, shelf_eq_of_setting hset, hshelf,
        hopened.1, hopened.2, hstory, hrest, hv', graph_opened, hgraph]
    have hfree : v'.engine.narrative.flags.processing = false := by
      rw [hv', flags_opened, flags_recalled, flags_called, hb]
    rw [← hv'] at hrun
    cases hnode : g.engine.narrative.currentNode with
    | none =>
      obtain ⟨hf, hwalked⟩ := h.stays hnode
      have hn : g.engine.narrative.snapshot.currentNode = none := hnode
      rw [hn] at hrun
      exact ⟨_, _, hrun, .of_plot (hplot.trans hf) fun hw => absurd hw hwalked⟩
    | some id =>
      obtain ⟨halt, rfl, hwalk⟩ := h.walks id hnode
      have hn : g.engine.narrative.snapshot.currentNode = some id := hnode
      rw [← hplot] at hwalk
      have hreach' : g.reach ≤ v'.reach := by rwa [reach_eq_of_setting hset]
      obtain ⟨V, hV, hVplot, hasks⟩ :=
        Act.advance_of_plot hfree (Plot.walk_of_le hwalk hreach')
      refine ⟨.ok (some (.halted halt)), V, ?_, .of_plot hVplot fun hw => ?_⟩
      · rw [hrun, hn, Onward.to, Onward.act, Act.map_apply, Act.map_apply, hV]
      · cases hw
        exact ⟨hF rfl, hasks rfl⟩
  · obtain ⟨hf, hwalked⟩ := h.stays hnone
    have hs : v.shelf g.engine.narrative.snapshot.script = .error fault := by
      rw [hshelf, hscript, hlost]
    refine ⟨_, _, (Act.comes_resumeSaved_lost hb hkept hs).whole, ?_, ?_, fun hw => ?_⟩
    · exact hstory.trans (congrArg Plot.story hf)
    · exact hrest.trans (congrArg Plot.bearing hf)
    · exact absurd hw hwalked

/-- A fresh engine calls the player as the old one did. -/
theorem Carries.keptName? {m v : World} (h : w.Carries P m) (hv : v.Renews m)
    (hw : ∀ n call, w.saves.refusal n call = none) :
    v.keptName? = w.keptName? := by
  obtain ⟨interrupts, listening, audible, he⟩ := hv.fresh
  have hkey : v.engine.config.nameKey = w.engine.config.nameKey := by
    rw [he]
    exact congrArg Config.nameKey (config_eq_of_setting h.setting)
  refine Option.ext fun name => ?_
  rw [keptName?_eq_some_iff, keptName?_eq_some_iff, Saves.get_of_refusal hv.refusal,
    Saves.get_of_refusal hw, hv.medium, hkey, h.name]

/-- Whoever leaves an operation and goes on with a fresh engine over the same slots
(`Act.resumeSaved`) comes to where the operation would have come to, as soon as one record was
written. -/
theorem Dependable.resumes {m F v : World} {op : Operation} {k : Nat} (hw : w.Reached)
    (h : w.Dependable)
    (ha : w.saves.medium.Apart w.engine.config.progressKey w.engine.config.nameKey)
    (hop : op.GoesOn) (hrun : op.run (w.under .endless) = .ok walked F)
    (hread : ∀ k, (Act.suspendedIn op.run w k).engine.narrative.snapshot.Readable)
    (hm : op.run (w.under (.suspensions k)) = .error .cut m ∨
      ∃ walked', op.run (w.under (.suspensions k)) = .ok walked' m)
    (hwritten : m.records ≠ w.records) (hv : v.Renews m) :
    ∃ r V, Act.resumeSaved (v.under .endless) = .ok r V ∧ EndsAs walked F V := by
  have hc := h.carries_of_run ha hop hrun hm
  -- the slot holds the record of a world on the way, from which the same end is reached
  obtain ⟨g, hg, hslot⟩ := hc.kept.resolve_left hwritten
  obtain ⟨j, hj⟩ := hg.suspended
  have hrange : op.InRange := by
    cases op with
    | advance | choose => exact trivial
    | _ => cases hop
  have hregular : g.Regular := by
    rw [← hj]
    exact (Act.operation_regular (hw.regular h.toSourced) hrange).suspendedIn
      (fun _ p hm => hm.under p) (hw.regular h.toSourced) hrun j
  obtain ⟨interrupts, listening, audible, he⟩ := hv.fresh
  have hconfig : g.engine.config = w.engine.config := config_eq_of_setting hg.setting
  have hmconfig : m.engine.config = w.engine.config := config_eq_of_setting hc.setting
  have hvconfig : v.engine.config = w.engine.config := by
    rw [he]
    exact hmconfig
  -- it remains that the fresh engine finds the setting, the name and the record of that world
  refine hg.toLeadsTo.resume hregular (hj ▸ hread j) ?_ ?_ ?_ ?_ ?_ ?_ ?_ ?_
  · rintro rfl
    exact Act.asks_of_run hrun
  · rw [he]
    rfl
  · rw [hvconfig, hconfig]
  · rw [hv.shelf, shelf_eq_of_setting hc.setting, shelf_eq_of_setting hg.setting]
  · rw [reach_eq_of_setting hg.setting, ← reach_eq_of_setting hc.setting]
    exact hv.reach
  · rw [vars_called, hconfig, ← hmconfig, he]
    rfl
  · rw [playerName_called, hc.keptName? hv h.willing.refusal, hg.playerName, h.called, he]
    rfl
  · rw [Saves.get_of_refusal (by rw [refusal_called]; exact hv.refusal), medium_called, hv.medium,
      hvconfig]
    exact hslot

end World

/-! ### A story that asks by name -/

/-- A script that pretends to type twice and then asks by the player's name. -/
def Document.callingByName : Document :=
  ⟨none, [
    { Node.message "start" .system "" with kind := .typingFake, next := some "again" },
    { Node.message "again" .system "" with kind := .typingFake, next := some "ask" },
    { Node.message "ask" .system "" with
      kind := .choice, choices := [⟨Config.standard.nameToken, none, .empty⟩] }]⟩

/-- A configuration without variables and pauses, with the name under a given key. -/
def Config.nameUnder (key : String) : Config :=
  { Config.instant with schema := .empty, typingCycles := 0, progressKey := "slot", nameKey := key }

/-- A fresh engine for that script. -/
def World.caller (key : String) (medium : SlotMedium) : World :=
  .steady (.fresh (.nameUnder key) [] false false) (fun _ => .ok .callingByName) medium

/-- The engine with the script taken. -/
def World.calling (key : String) : World :=
  (World.caller key (.memory .empty)).installed (.ofDocument .callingByName)

theorem World.reached_calling (key : String) : (World.calling key).Reached := by
  have hop : (Operation.loadPart 1 1).InRange := ⟨by decide, by decide⟩
  have hrun : (Operation.loadPart 1 1).run ((World.caller key (.memory .empty)).under .endless) =
      .ok none (World.calling key) := rfl
  exact .step (.fresh rfl) hop (.ended hrun)

theorem World.dependable_calling (key : String) : (World.calling key).Dependable where
  given id d h := by
    cases h
    exact ⟨Document.callingByName.toJson, rfl⟩
  built := ⟨[], List.forall_mem_nil _, rfl⟩
  onCourse := ⟨_, rfl, rfl⟩
  called := rfl
  willing := ⟨fun _ _ => rfl, fun _ => rfl⟩

theorem World.readable_calling (key : String) (k : Nat) :
    (Act.suspendedIn (Operation.advance "start" false).run (World.calling key)
      k).engine.narrative.snapshot.Readable := by
  have hempty : (Act.suspendedIn (Operation.advance "start" false).run (World.calling key)
      k).engine.narrative.snapshot.vars = .empty ∧
      (Act.suspendedIn (Operation.advance "start" false).run (World.calling key)
        k).engine.narrative.snapshot.messages = [] := by
    rcases k with _ | _ | _ | k <;> exact ⟨rfl, rfl⟩
  constructor
  · rw [hempty.1]
    exact List.forall_mem_nil _
  · rw [hempty.2]
    exact List.forall_mem_nil _

/-- The operation is left where it would write its second record. -/
theorem World.run_calling (key : String) : ∃ F m,
    (Operation.advance "start" false).run ((World.calling key).under .endless) =
      .ok (some (.halted .awaitingChoice)) F ∧
    (Operation.advance "start" false).run ((World.calling key).under (.suspensions 1)) =
      .error .cut m ∧ m.records.length = 1 ∧ (World.caller key m.saves.medium).Renews m ∧
    m.saves.medium = .memory (Table.empty.insert "slot"
      { currentNode := some "again" : Progress }.render) := by
  obtain ⟨F, m, hrun, hcut, hone, hconfig, hmedium⟩ : ∃ F m,
      (Operation.advance "start" false).run ((World.calling key).under .endless) =
        .ok (some (.halted .awaitingChoice)) F ∧
      (Operation.advance "start" false).run ((World.calling key).under (.suspensions 1)) =
        .error .cut m ∧ m.records.length = 1 ∧ m.engine.config = .nameUnder key ∧
      m.saves.medium = .memory (Table.empty.insert "slot"
        { currentNode := some "again" : Progress }.render) := ⟨_, _, rfl, rfl, rfl, rfl, rfl⟩
  have hset : m.setting = (World.calling key).setting := by
    have hpass := Act.operation_setting (w := World.calling key) (.advance "start" false) rfl
    obtain ⟨_, m', hm', rfl⟩ := hpass.cut hcut
    exact hm'.2
  refine ⟨F, m, hrun, hcut, hone, ⟨⟨[], false, false, ?_⟩, ?_, ?_, rfl, fun _ _ => rfl⟩, hmedium⟩
  · rw [hconfig]
    rfl
  · exact (World.shelf_eq_of_setting hset).symm
  · exact Nat.le_of_eq (World.reach_eq_of_setting hset)

theorem World.records_ne_calling {m : World} {key : String} (h : m.records.length = 1) :
    m.records ≠ (World.calling key).records := by
  intro he
  rw [he] at h
  cases h

theorem World.Dependable.resumes_calling : ∃ F m v : World,
    (Operation.advance "start" false).run ((World.calling "name").under (.suspensions 1)) =
      .error .cut m ∧ m.records.length = 1 ∧ v.Renews m ∧
    ∃ r V, Act.resumeSaved (v.under .endless) = .ok r V ∧
      World.EndsAs (some (.halted .awaitingChoice)) F V := by
  obtain ⟨F, m, hrun, hcut, hone, hv, -⟩ := World.run_calling "name"
  exact ⟨F, m, _, hcut, hone, hv, (World.dependable_calling "name").resumes
    (World.reached_calling "name") (by decide) rfl hrun (World.readable_calling "name")
    (.inl hcut) (World.records_ne_calling hone) hv⟩

theorem Text.substitute_token (token name : String) (h : token ≠ "") :
    Text.substitute token token name = name := by
  unfold Text.substitute
  split
  · next ht => exact absurd (String.toList_eq_nil_iff.1 ht) h
  · next t ts ht =>
    have happend := Text.replaceToken_token_append t ts name.toList []
    rw [List.append_nil, Text.replaceToken_nil, List.append_nil] at happend
    rw [ht, happend, String.ofList_toList]

/-- A walk through that script ends at its question, which is the name of the player. -/
theorem Plot.walk_callingByName {p : Plot} {id : String}
    (hg : p.graph = some (.ofDocument .callingByName))
    (ht : p.config.nameToken = Config.standard.nameToken) (hid : id = "start" ∨ id = "again") :
    ∃ p', p.walk 3 id = some (.awaitingChoice, p') ∧
      p'.options.map Choice.text = [p.bearing.playerName] := by
  obtain ⟨config, shelf, graph, story, bearing⟩ := p
  cases hg
  have hname := Text.substitute_token config.nameToken bearing.playerName (by rw [ht]; decide)
  have htexts : [Text.substitute Config.standard.nameToken config.nameToken bearing.playerName] =
      [bearing.playerName] := by
    rw [← ht, hname]
  rcases hid with rfl | rfl
  · exact ⟨_, rfl, htexts⟩
  · exact ⟨_, rfl, htexts⟩

/-- Hence what an engine asks at the end of it. -/
theorem World.texts_callingByName {w w' : World} {id : String} {walked : Option Walked}
    (hg : w.engine.graph = some (.ofDocument .callingByName))
    (ht : w.engine.config.nameToken = Config.standard.nameToken)
    (hid : id = "start" ∨ id = "again") (hb : w.engine.narrative.flags.processing = false)
    (hreach : 3 ≤ w.reach)
    (hrun : (Onward.walk id false).act (w.under .endless) = .ok walked w') :
    w'.engine.narrative.flags.choices.map Choice.text = [w.engine.narrative.playerName] := by
  obtain ⟨p', hwalk, htexts⟩ := Plot.walk_callingByName (p := w.plot) hg ht hid
  rcases Act.of_act_walk hrun with ⟨hbusy, -⟩ | ⟨-, halt, -, hwalk', hasks⟩
  · rw [hb] at hbusy
    cases hbusy
  · rw [Plot.walk_of_le hwalk hreach] at hwalk'
    cases hwalk'
    rw [(hasks rfl).2]
    exact htexts

/-- Where the record and the name share a slot, a fresh engine calls the player by the
record. -/
theorem World.called_of_oneSlot {v : World} {p : Progress} (hp : p.Regular) (hread : p.Readable)
    (hversion : p.version = recordVersion) (hn : ∀ n call, v.saves.refusal n call = none)
    (hkey : v.engine.config.nameKey = v.engine.config.progressKey)
    (hget : v.saves.medium.get v.engine.config.progressKey = .ok (some p.render)) :
    v.called.kept? = some p ∧ v.called.engine.narrative.playerName = p.render := by
  constructor
  · refine World.kept?_of_render hp hread hversion ?_
    rw [Saves.get_of_refusal (by rwa [World.refusal_called]), World.medium_called,
      World.config_called]
    exact hget
  · have hname : v.keptName? = some p.render := by
      rw [World.keptName?_eq_some_iff, Saves.get_of_refusal hn, hkey]
      exact ⟨hget, p.render_ne_empty⟩
    rw [World.playerName_called, hname, Option.getD_some]

/-- And what one asks that goes on from within it. -/
theorem World.texts_resumed {v V : World} {p : Progress} {r : Except LoadFault (Option Walked)}
    (hkept : v.called.kept? = some p) (hnode : p.currentNode = some "again")
    (hs : v.shelf p.script = .ok .callingByName)
    (ht : v.engine.config.nameToken = Config.standard.nameToken)
    (hb : v.engine.narrative.flags.processing = false) (hreach : 3 ≤ v.reach)
    (hV : Act.resumeSaved (v.under .endless) = .ok r V) :
    V.engine.narrative.flags.choices.map Choice.text = [v.called.engine.narrative.playerName] := by
  -- `u` is where the record leads, before anything is walked
  obtain ⟨u, hu⟩ : ∃ u, u = (v.called.recalled p).opened p.script (.ofDocument .callingByName) :=
    ⟨_, rfl⟩
  have hset : u.setting = v.setting := by
    rw [hu, World.setting_opened, World.setting_recalled, World.setting_called]
  have hfree : u.engine.narrative.flags.processing = false := by
    rw [hu, World.flags_opened, World.flags_recalled, World.flags_called, hb]
  have hname : u.engine.narrative.playerName = v.called.engine.narrative.playerName := by
    rw [hu, World.playerName_opened]
    rfl
  rw [(Act.comes_resumeSaved hb hkept hs).whole, ← hu, Act.map_apply, hnode, Onward.to] at hV
  cases hrun : (Onward.walk "again" false).act (u.under .endless) with
  | error s V' =>
    rw [hrun] at hV
    cases hV
  | ok walked V' =>
    rw [hrun] at hV
    cases hV
    rw [← hname]
    refine World.texts_callingByName ?_ ?_ (.inr rfl) hfree ?_ hrun
    · rw [hu, World.graph_opened]
    · rw [World.config_eq_of_setting hset, ht]
    · rwa [World.reach_eq_of_setting hset]

/-- In one slot the record stands where the name is looked for, and then what is asked is
not the same. -/
theorem World.not_resumes_of_oneSlot : ¬ ∀ (w m F v : World) (op : Operation)
    (walked : Option Walked) (k : Nat), w.Reached → w.Dependable → op.GoesOn →
    op.run (w.under .endless) = .ok walked F →
    (∀ k, (Act.suspendedIn op.run w k).engine.narrative.snapshot.Readable) →
    (op.run (w.under (.suspensions k)) = .error .cut m ∨
      ∃ walked', op.run (w.under (.suspensions k)) = .ok walked' m) →
    m.records ≠ w.records → v.Renews m →
    ∃ r V, Act.resumeSaved (v.under .endless) = .ok r V ∧
      (walked = some (.halted .awaitingChoice) →
        V.engine.narrative.flags.choices = F.engine.narrative.flags.choices) := by
  intro h
  obtain ⟨F, m, hrun, hcut, hone, hv, hmedium⟩ := World.run_calling "slot"
  obtain ⟨r, V, hV, hsame⟩ := h _ m F _ (.advance "start" false) _ 1 (World.reached_calling _)
    (World.dependable_calling _) rfl hrun (World.readable_calling _) (.inl hcut)
    (World.records_ne_calling hone) hv
  obtain ⟨p, hp⟩ : ∃ p : Progress, p = { currentNode := some "again" } := ⟨_, rfl⟩
  rw [← hp] at hmedium
  have hregular : p.Regular := by
    rw [hp]
    exact ⟨List.forall_mem_nil _, by decide, by decide⟩
  have hreadable : p.Readable := by
    rw [hp]
    exact ⟨List.forall_mem_nil _, List.forall_mem_nil _⟩
  have hget : m.saves.medium.get "slot" = .ok (some p.render) := by
    rw [hmedium, SlotMedium.get, Table.get?_insert, if_pos rfl]
  obtain ⟨hkept, hname⟩ := World.called_of_oneSlot (v := World.caller "slot" m.saves.medium)
    hregular hreadable (by rw [hp]) (fun _ _ => rfl) rfl hget
  -- the engine that was not left asks by no name
  have hF : F.engine.narrative.flags.choices.map Choice.text = [""] := by
    exact World.texts_callingByName rfl rfl (.inl rfl) rfl (by decide) hrun
  -- the fresh one asks by the record
  have hV : V.engine.narrative.flags.choices.map Choice.text = [p.render] := by
    rw [← hname]
    exact World.texts_resumed hkept (by rw [hp]) rfl rfl rfl (Nat.le_of_ble_eq_true rfl) hV
  rw [hsame rfl, hF] at hV
  exact p.render_ne_empty (List.singleton_inj.1 hV).symm

end StoryChat
