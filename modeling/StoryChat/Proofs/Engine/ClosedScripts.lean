/-
Where every script is closed, no walk comes to a missing node.

A node's identity means nothing without the script that it is in, and it travels
without it: as the position, as the successor of an option, in a record. So it has to
be shown (`HasNode`) that wherever an identity is walked to, the script of the place it
was taken from is the one that is being walked. Within a walk that is so because the
position selects the script. Between two walks an identity is kept only in what is
offered, or in a record together with the script; and while a part waits to be entered
the position is nowhere. The engine that writes a record may be gone when it is read,
so what is asked of a record (`Progress.LeadsOn`) is asked of whatever the slot holds.
-/
import StoryChat.Proofs.Engine.Course
import StoryChat.Proofs.Save.Slots
import StoryChat.Proofs.Script.Closed

set_option autoImplicit false

namespace StoryChat

/-! ## Records -/

/-- Whether a record can be continued from: its position is a node of the script that
it selects, and if a part waits to be entered, it is there and the position is nowhere. -/
structure Progress.LeadsOn (shelf : Shelf) (p : Progress) : Prop where
  has : ∀ id d, p.currentNode = some id → shelf p.script = .ok d → d.Has id
  pending : p.introPending = true → p.currentNode = none ∧ ∃ d, shelf p.script = .ok d

/-- Of this nothing is lost when a record is written and read. -/
theorem Progress.LeadsOn.of_parse_render {shelf : Shelf} {p p' : Progress} (h : p.LeadsOn shelf)
    (hp : parse p.render = .ok p') : p'.LeadsOn shelf := by
  have he := eq_of_parse_render hp
  have hscript : p'.script = p.script := (congrArg Progress.script he :)
  have hnode : p'.currentNode = p.currentNode := (congrArg Progress.currentNode he :)
  have hpending : p'.introPending = p.introPending := (congrArg Progress.introPending he :)
  constructor
  · rw [hscript, hnode]
    exact h.has
  · rw [hscript, hnode, hpending]
    exact h.pending

namespace World

/-! ## The invariant -/

/-- Whether the script that is being walked has a node. -/
def HasNode (w : World) (id : String) : Prop := ∃ n, w.findNode? id = some n

/-- What has to be so around the engine: all scripts are closed, the two slots are
different ones, and the record in its slot, if it can be read, can be continued from. -/
structure Keeps (w : World) : Prop where
  closed : ∀ id d, w.shelf id = .ok d → d.Closed
  apart : w.saves.medium.Apart w.engine.config.progressKey w.engine.config.nameKey
  kept : ∀ text p, w.saves.medium.get w.engine.config.progressKey = .ok (some text) →
    Progress.parse text = .ok p → p.LeadsOn w.shelf

/-- What has to be so between two operations. What is offered leads on in the script that
is being walked, and a part that waits to be entered is the script that is being walked. -/
structure Sound (w : World) : Prop extends Keeps w where
  asked : w.waits = true → w.OnCourse ∧
    ∀ c ∈ w.engine.narrative.flags.choices, ∀ id, c.next = some id → w.HasNode id
  pending : w.engine.narrative.introPending = true →
    w.OnCourse ∧ w.engine.narrative.currentNode = none ∧ w.waits = false

/-- What has to be so where a walk goes on at a node. -/
structure Walks (w : World) (id : String) : Prop extends Keeps w where
  onCourse : w.OnCourse
  notPending : w.engine.narrative.introPending = false
  notAsked : w.waits = false
  here : w.HasNode id

theorem Keeps.congr {w m : World} (h : w.Keeps) (hset : m.setting = w.setting)
    (hs : m.saves.medium = w.saves.medium) : m.Keeps := by
  have hc := config_eq_of_setting hset
  have hshelf := shelf_eq_of_setting hset
  refine ⟨?_, ?_, ?_⟩
  · rw [hshelf]
    exact h.closed
  · rw [hs, hc]
    exact h.apart
  · rw [hs, hc, hshelf]
    exact h.kept

/-- A record that can be continued from may be written. -/
theorem Keeps.saved {w : World} (h : w.Keeps)
    (hp : w.engine.narrative.snapshot.LeadsOn w.shelf) : w.saved.Keeps := by
  refine ⟨h.closed, ?_, fun text p hget hparse => ?_⟩
  · exact (Saves.apart_set _ _ _ _ _).2 h.apart
  · rcases Saves.of_get_set hget with hold | ⟨-, rfl⟩
    · exact h.kept text p hold hparse
    · exact hp.of_parse_render hparse

/-- The player's name goes into another slot. -/
theorem Keeps.put_name {w : World} (h : w.Keeps) (name : String) :
    (w.put w.engine.config.nameKey name).Keeps := by
  refine ⟨h.closed, ?_, fun text p hget hparse => ?_⟩
  · exact (Saves.apart_set _ _ _ _ _).2 h.apart
  · rcases Saves.of_get_set hget with hold | ⟨hnot, -⟩
    · exact h.kept text p hold hparse
    · exact absurd h.apart hnot

theorem Keeps.emptied {w : World} (h : w.Keeps) (key : String) : (w.emptied key).Keeps := by
  refine ⟨h.closed, ?_, fun text p hget hparse => ?_⟩
  · exact (Saves.apart_remove _ _ _ _).2 h.apart
  · exact h.kept text p (Saves.of_get_remove hget) hparse

theorem HasNode.congr {w m : World} {id : String} (h : w.HasNode id)
    (hg : m.engine.graph = w.engine.graph) : m.HasNode id := by
  obtain ⟨n, hn⟩ := h
  exact ⟨n, by rw [← hn, findNode?, findNode?, hg]⟩

/-- Where the story stands and what is asked, which is all of the engine that is looked
at between two operations. -/
structure Standing where
  graph : Option Graph
  node : Option String
  script : ScriptId
  waits : Bool
  choices : List Choice
  introPending : Bool

def standing (w : World) : Standing :=
  ⟨w.engine.graph, w.engine.narrative.currentNode, w.script, w.waits,
    w.engine.narrative.flags.choices, w.engine.narrative.introPending⟩

@[simp] theorem standing_put (w : World) (key text : String) :
    (w.put key text).standing = w.standing := by
  simp only [standing, script, waits, engine_put]

@[simp] theorem standing_emit (w : World) (e : Event) : (w.emit e).standing = w.standing := by
  simp only [standing, script, waits, engine_emit]

@[simp] theorem standing_named (w : World) (name : String) :
    (w.named name).standing = w.standing := by
  simp only [standing, script, waits, Narrative.script, Bearing.script, Narrative.bearing,
    World.named, narrative_tell, graph_tell]

@[simp] theorem standing_asked (w : World) (key : String) :
    (w.asked key).standing = w.standing := by
  simp only [standing, script, waits, engine_asked]

@[simp] theorem standing_called (w : World) : w.called.standing = w.standing := by
  unfold called
  split
  · exact w.standing_asked _
  · simp only [standing, script, waits, Narrative.script, Bearing.script, Narrative.bearing,
      narrative_tell, graph_tell, engine_asked]

@[simp] theorem standing_settled (w : World) : w.settled.standing = w.standing := by
  have hwaits := w.waits_settled
  have hchoices : w.settled.engine.narrative.flags.choices = w.engine.narrative.flags.choices :=
    (congrArg Bearing.choices w.bearing_settled :)
  have hpending : w.settled.engine.narrative.introPending = w.engine.narrative.introPending :=
    (congrArg Bearing.introPending w.bearing_settled :)
  have hnode := Narrative.currentNode_eq_of_story w.story_settled
  simp only [standing, graph_settled, hnode, script_settled, hwaits, hchoices, hpending]

/-- The engine is sound where it stands as before, as long as what is around it is. -/
theorem Sound.of_standing {w m : World} (h : w.Sound) (hk : m.Keeps)
    (hset : m.setting = w.setting) (hst : m.standing = w.standing) : m.Sound := by
  have hg : m.engine.graph = w.engine.graph := congrArg Standing.graph hst
  have hscript : m.script = w.script := congrArg Standing.script hst
  have hwaits : m.waits = w.waits := congrArg Standing.waits hst
  refine ⟨hk, fun hw => ?_, fun hi => ?_⟩
  · obtain ⟨hon, hleads⟩ := h.asked (hwaits.symm.trans hw)
    refine ⟨hon.congr hset hg hscript, fun c hc id hid => ?_⟩
    rw [show m.engine.narrative.flags.choices = _ from congrArg Standing.choices hst] at hc
    exact (hleads c hc id hid).congr hg
  · obtain ⟨hon, hnode, hnot⟩ := h.pending ((congrArg Standing.introPending hst).symm.trans hi)
    exact ⟨hon.congr hset hg hscript, (congrArg Standing.node hst).trans hnode, hwaits.trans hnot⟩

theorem Sound.congr {w m : World} (h : w.Sound) (hset : m.setting = w.setting)
    (hs : m.saves.medium = w.saves.medium) (hst : m.standing = w.standing) : m.Sound :=
  h.of_standing (h.toKeeps.congr hset hs) hset hst

theorem Keeps.under {w : World} (h : w.Keeps) (p : Patience) : (w.under p).Keeps := h.congr rfl rfl

theorem Sound.under {w : World} (h : w.Sound) (p : Patience) : (w.under p).Sound :=
  h.congr rfl rfl rfl

theorem Sound.settled {w : World} (h : w.Sound) : w.settled.Sound :=
  h.congr w.setting_settled (by rw [saves_settled]) w.standing_settled

theorem Sound.emit {w : World} (h : w.Sound) (e : Event) : (w.emit e).Sound :=
  h.congr (w.setting_emit e) (by rw [saves_emit]) (w.standing_emit e)

theorem Sound.named {w : World} (h : w.Sound) (name : String) : (w.named name).Sound :=
  h.congr (w.setting_tell _) (congrArg Saves.medium (w.saves_tell _)) (w.standing_named name)

theorem Sound.called {w : World} (h : w.Sound) : w.called.Sound :=
  h.congr w.setting_called w.medium_called w.standing_called

theorem Sound.asked_slot {w : World} (h : w.Sound) (key : String) : (w.asked key).Sound :=
  h.congr (w.setting_asked key) (w.medium_asked key) (w.standing_asked key)

theorem Sound.put_name {w : World} (h : w.Sound) (name : String) :
    (w.put w.engine.config.nameKey name).Sound :=
  h.of_standing (h.toKeeps.put_name name) (w.setting_put _ _) (w.standing_put _ _)

/-- Where nothing is asked and no part waits there is nothing to be kept of the engine. -/
theorem Sound.of_keeps {w : World} (h : w.Keeps)
    (hi : w.engine.narrative.introPending = false) (hw : w.waits = false) : w.Sound := by
  refine ⟨h, fun h => ?_, fun h => ?_⟩
  · exact absurd (hw.symm.trans h) Bool.false_ne_true
  · exact absurd (hi.symm.trans h) Bool.false_ne_true

/-- On course the nodes of the script are those of the document. -/
theorem OnCourse.hasNode_iff {w : World} {d : Document} (hd : w.shelf w.script = .ok d)
    (h : w.OnCourse) {id : String} : w.HasNode id ↔ d.Has id := by
  obtain ⟨d', hd', hg⟩ := h
  rw [hd] at hd'
  cases hd'
  unfold HasNode findNode?
  rw [hg]
  constructor
  · rintro ⟨n, hn⟩
    obtain ⟨hm, hid⟩ := Graph.mem_of_find? hn
    exact ⟨n, hm, hid⟩
  · exact fun h => Graph.exists_find? h

/-- Where scripts are closed a node leads to nodes of the same script. -/
theorem OnCourse.hasNode_of_leads {w : World} {id id' : String} {n : Node} (h : w.OnCourse)
    (hc : ∀ id d, w.shelf id = .ok d → d.Closed) (hn : w.findNode? id = some n)
    (hl : n.Leads id') : w.HasNode id' := by
  have hon := h
  obtain ⟨d, hd, hg⟩ := h
  refine (hon.hasNode_iff hd).2 ((hc _ _ hd).leads n ?_ id' hl)
  rw [findNode?, hg] at hn
  exact (Graph.mem_of_find? hn).1

/-- A closed script is entered at one of its nodes. -/
theorem OnCourse.hasNode_entrance {w : World} (h : w.OnCourse)
    (hc : ∀ id d, w.shelf id = .ok d → d.Closed) : w.HasNode w.entrance := by
  obtain ⟨d, hd, hg⟩ := h
  obtain ⟨id, he, hhas⟩ := Graph.has_entrance? (hc _ _ hd).nonempty w.engine.config.entryNode
  have hentrance : w.entrance = id := by
    rw [entrance, hg, Option.bind_some, he, Option.getD_some]
  rw [hentrance]
  exact (OnCourse.hasNode_iff hd ⟨d, hd, hg⟩).2 hhas

/-- The record of an engine on course, at a node of its script. -/
theorem OnCourse.leadsOn {w : World} (h : w.OnCourse)
    (hp : w.engine.narrative.introPending = false)
    (hn : ∀ id, w.engine.narrative.currentNode = some id → w.HasNode id) :
    w.engine.narrative.snapshot.LeadsOn w.shelf := by
  refine ⟨fun id d hid hd => (h.hasNode_iff hd).1 (hn id hid), fun hpending => ?_⟩
  exact absurd (hp.symm.trans hpending) Bool.false_ne_true

theorem storyAfter_leads {w : World} {n : Node} {id : String}
    (h : (w.storyAfter n).currentNode = some id) : n.Leads id := by
  unfold storyAfter at h
  split at h
  · exact .inl h
  · exact Node.leads_resolveNext h

end World

namespace Act

open World

/-! ## Walks -/

/-- What a walk leaves behind: it did not come to a missing node, and all is sound. -/
def HaltsSound (halt : Halt) (w : World) : Prop := (∀ id, halt ≠ .missingNode id) ∧ w.Sound

/-- A visit on course goes on to a node of the script or leaves all sound. -/
theorem visited_sound {g w : World} {id : String} {stops : List World} {out : Outcome Visit}
    (hw : w.Walks id) (hv : Visited w id stops out) :
    ∃ last, Legs (fun _ m => m.Keeps) g stops last ∧
      Ends (After (fun halt _ => HaltsSound halt) fun _ w id => w.Walks id) last out := by
  have hk : (w.at id).Keeps := hw.toKeeps.congr rfl rfl
  have hon : (w.at id).OnCourse := hw.onCourse.congr rfl rfl rfl
  have inside {n : Node} {m : World} (h : (w.at id).Inside n m) : m.Keeps :=
    hk.congr h.setting (congrArg Saves.medium h.saves)
  have hleave (next : Option Nat) : (w.leaving next).Keeps :=
    hw.toKeeps.congr rfl rfl
  -- the record of a part that is over, whether the next one is there or not
  have hover (next : Option Nat) : (w.leaving next).saved.Sound := by
    refine .of_keeps ((hleave next).saved ⟨nofun, fun h => ?_⟩) hw.notPending hw.notAsked
    exact absurd (hw.notPending.symm.trans h) Bool.false_ne_true
  cases hv with
  | missing hn =>
    obtain ⟨n, hn'⟩ := hw.here
    rw [hn] at hn'
    cases hn'
  | @offered n hn hkind =>
    have hsound : ((w.at id).tell (·.present (optionsOf (w.at id) n))).Sound := by
      refine ⟨hk.congr rfl rfl, fun _ => ⟨hon.congr rfl rfl rfl, fun c hc id' hid => ?_⟩, fun h => ?_⟩
      · obtain ⟨c', hc', rfl⟩ := List.mem_map.1 hc
        have hleads : n.Leads id' := .inr (.inr ⟨c', hc', hid⟩)
        exact (hw.onCourse.hasNode_of_leads hw.closed hn hleads).congr rfl
      · exact absurd (hw.notPending.symm.trans h) Bool.false_ne_true
    exact ⟨g, .arrived g, nofun, hsound.emit _⟩
  | @told n stops m hn hc he hp hs hm =>
    have hin : (w.at id).Inside n m := hs m (List.mem_of_getLast? hm)
    have hmon : m.OnCourse := hon.congr hin.setting hin.graph hin.script
    have hpending : m.engine.narrative.introPending = false :=
      (congrArg Bearing.introPending hin.bearing).trans hw.notPending
    have hasked : m.waits = false := (waits_of_bearing hin.bearing).trans hw.notAsked
    have hnode : m.engine.narrative.currentNode = ((w.at id).storyAfter n).currentNode :=
      congrArg Story.currentNode ‹_›
    have hnext (id' : String) (h : ((w.at id).storyAfter n).currentNode = some id') :
        m.HasNode id' :=
      (hw.onCourse.hasNode_of_leads hw.closed hn (storyAfter_leads h)).congr hin.graph
    have hsaved : m.saved.Keeps := by
      refine (inside hin).saved (hmon.leadsOn hpending fun id' hid => hnext id' ?_)
      rw [← hnode, hid]
    refine ⟨_, .of_forall g fun m hm => inside (hs m hm), After.ofNext ?_ fun id' hid => ?_⟩
    · exact ⟨nofun, .of_keeps hsaved hpending hasked⟩
    · exact ⟨hsaved, hmon, hpending, hasked, hnext id' hid⟩
  | crossed hn hc he ht hp hs =>
    exact ⟨_, .of_forall g fun m hm => inside (hs m hm), Stop.noConfusion⟩
  | ended hn hkind hp =>
    exact ⟨_, .leg (hleave _) (.arrived _), nofun, (hover _).emit _⟩
  | lost hn hkind hp hs =>
    exact ⟨_, .leg (hleave _) (.leg (hleave _) (.arrived _)), nofun, (hover _).emit _⟩
  | @turned n part d hn hkind hp hs =>
    have hturn : ((w.leaving (some part)).turning (.ofDocument d)).Keeps :=
      (hleave (some part)).congr rfl rfl
    have hsaved : ((w.leaving (some part)).turning (.ofDocument d)).saved.Keeps :=
      hturn.saved ⟨nofun, fun _ => ⟨rfl, d, hs⟩⟩
    refine ⟨_, .leg (hleave _) (.leg hturn (.arrived _)), nofun, Sound.emit ⟨hsaved, fun h => ?_,
      fun _ => ⟨⟨d, hs, rfl⟩, rfl, hw.notAsked⟩⟩ _⟩
    exact absurd (hw.notAsked.symm.trans h) Bool.false_ne_true

/-- A walk from a node of the script, while nothing is asked or what was is taken back. -/
theorem advance_sound {g w : World} {id : String} {force : Bool} (hs : w.Sound)
    (hon : w.OnCourse) (hi : w.engine.narrative.introPending = false) (hid : w.HasNode id)
    (hw : w.waits = true → force = true) :
    Passes (fun _ m => m.Keeps) (Act.advance id force) g w fun walked _ w' =>
      (∀ id, walked ≠ .halted (.missingNode id)) ∧ w'.Sound := by
  have hready : (w.ready force).waits = false := by
    cases force with
    | true => exact w.waits_ready_of_force
    | false => rw [World.waits_ready]; simpa using hw
  have hpending : (w.ready force).engine.narrative.introPending = false := by
    cases force with
    | true =>
      rw [ready, if_pos rfl]
      exact (congrArg Bearing.introPending (bearing_display _ _)).trans hi
    | false => exact hi
  -- what a walk through a closed script needs, it has as soon as it is ready
  have hwalks : (w.ready force).Walks id :=
    ⟨hs.toKeeps.congr (w.setting_ready force) (by rw [saves_ready]),
      hon.congr (w.setting_ready force) (w.graph_ready force) (w.script_ready force), hpending,
      hready, hid.congr (w.graph_ready force)⟩
  refine .advance (fun g m hm => ?_) (fun _ _ => ⟨fun _ => Walked.noConfusion, hs⟩)
    (.walk (fun g w id stops out h hv => visited_sound h hv) _ id hwalks) fun halt g w h => ?_
  · have hsettled : m.settled.Keeps := hm.congr m.setting_settled (by rw [saves_settled])
    exact ⟨hsettled, hsettled⟩
  · have hdone : (∀ id, Walked.halted halt ≠ .halted (.missingNode id)) ∧
        (w.settled.emit (.halted halt)).Sound :=
      ⟨fun id he => h.1 id (Walked.halted.inj he), h.2.settled.emit _⟩
    exact ⟨hdone, hdone⟩

end Act

/-! ## Operations -/

/-- Whether an operation may be the next in a session: a choice, to enter the part that
waits, to name the player, to forget everything, and where nothing is asked to start a
chapter or to take up a record. -/
def World.Continues (w : World) : Operation → Prop
  | .choose _ | .beginPending | .setPlayerName _ | .resetGame => True
  | .startChapter .. | .resumeSaved => w.waits = false
  | _ => False

namespace Act

/-- Whether what is left of an operation behind its prelude begins at a node of the
script. -/
def Onward.Begins (v : World) (on : Onward) : Prop :=
  ∀ id force, on = .walk id force → v.OnCourse ∧ v.engine.narrative.introPending = false ∧
    v.HasNode id ∧ (v.waits = true → force = true)

/-- To go on at a node of the script and to keep that is sound. -/
theorem goOn_sound {m : World} {next : Option String} (hk : m.Keeps) (hon : m.OnCourse)
    (hi : m.engine.narrative.introPending = false) (hw : m.waits = false)
    (hn : ∀ id, next = some id → m.HasNode id) :
    (m.tell (·.goTo next)).Keeps ∧ (m.tell (·.goTo next)).saved.Sound ∧
      Onward.Begins (m.tell (·.goTo next)).saved (.to next true) := by
  have hmk : (m.tell (·.goTo next)).Keeps := hk.congr rfl rfl
  have hmon : (m.tell (·.goTo next)).OnCourse := hon.congr rfl rfl rfl
  have hleads : (m.tell (·.goTo next)).engine.narrative.snapshot.LeadsOn m.shelf :=
    hmon.leadsOn hi fun id hid => (hn id hid).congr rfl
  refine ⟨hmk, .of_keeps (hmk.saved hleads) hi hw, fun id force he => ?_⟩
  obtain ⟨hid, hforce⟩ := Onward.of_to he
  exact ⟨hmon.saved, hi, (hn id hid).congr rfl, fun _ => hforce⟩

/-- What is offered comes from the script that is being walked, and no part waits. -/
theorem chosen_sound {w : World} {index : Nat} {c : Choice} (hw : w.Sound)
    (hv : w.engine.narrative.flags.waiting = true)
    (hc : w.engine.narrative.flags.choices[index]? = some c) :
    (w.chosen c).Keeps ∧ (w.chosen c).OnCourse ∧
      (w.chosen c).engine.narrative.introPending = false ∧
      ∀ id, c.next = some id → (w.chosen c).HasNode id := by
  obtain ⟨hon, hleads⟩ := hw.asked hv
  refine ⟨hw.toKeeps.congr (w.setting_chosen c) (by rw [World.saves_chosen]),
    hon.chosen c, ?_, fun id hid =>
      (hleads c (List.mem_of_getElem? hc) id hid).congr (w.graph_chosen c)⟩
  rw [World.introPending_chosen]
  cases hi : w.engine.narrative.introPending with
  | false => rfl
  | true => exact absurd ((hw.pending hi).2.2.symm.trans hv) Bool.false_ne_true

/-- A record that is taken from its slot can be continued from. -/
theorem recalled_keeps {w : World} {p : Progress} (hw : w.Sound) (hwaits : w.waits = false)
    (hk : w.called.kept? = some p) :
    (w.called.recalled p).Keeps ∧ (w.called.recalled p).waits = false ∧ p.LeadsOn w.shelf := by
  refine ⟨(hw.called.asked_slot _).toKeeps.congr rfl rfl, ?_, ?_⟩
  · rw [World.waits_recalled, World.waits_called, hwaits]
  · obtain ⟨text, hget, hp⟩ := World.exists_text_of_kept?_called hk
    exact hw.kept text p hget hp

/-- A script that is taken together with its place is the one that the position selects. -/
theorem opened_keeps {w : World} {id : ScriptId} {d : Document} (hk : w.Keeps)
    (hs : w.shelf id = .ok d) :
    (w.opened id (.ofDocument d)).Keeps ∧ (w.opened id (.ofDocument d)).OnCourse ∧
      (w.opened id (.ofDocument d)).engine.narrative.currentNode =
        w.engine.narrative.currentNode ∧
      (w.opened id (.ofDocument d)).engine.narrative.introPending =
        w.engine.narrative.introPending ∧
      (w.opened id (.ofDocument d)).waits = w.waits := by
  cases id with
  | part chapter part => exact ⟨hk.congr rfl rfl, ⟨d, hs, rfl⟩, rfl, rfl, rfl⟩
  | named name => exact ⟨hk.congr rfl rfl, ⟨d, hs, rfl⟩, rfl, rfl, rfl⟩

/-- What an operation of a session does before it walks is sound. -/
theorem Prelude.sound {w v : World} {op : Operation} {stops : List World} {on : Onward}
    (hw : w.Sound) (hop : w.Continues op) (h : Prelude w op stops v on) :
    (∀ m ∈ stops, m.Keeps) ∧ v.Sound ∧ Onward.Begins v on := by
  have here : ∀ m ∈ [w], m.Keeps := List.forall_mem_singleton.2 hw.toKeeps
  cases h with
  | busy | nonePending | busyPending | refused => exact ⟨List.forall_mem_nil _, hw, nofun⟩
  | lostStart hb hs => exact ⟨here, hw, nofun⟩
  | @started chapter part d hb hs =>
    have hon : (w.begun chapter part (.ofDocument d)).OnCourse := ⟨d, hs, rfl⟩
    have hk : (w.begun chapter part (.ofDocument d)).Keeps := hw.toKeeps.congr rfl rfl
    refine ⟨here, .of_keeps hk rfl hop, fun id force he => ?_⟩
    cases he
    exact ⟨hon, rfl, hon.hasNode_entrance hk.closed, fun h => absurd (hop.symm.trans h)
      Bool.false_ne_true⟩
  | unread hb hk =>
    have hv : (w.called.asked w.engine.config.progressKey).Sound := hw.called.asked_slot _
    exact ⟨List.forall_mem_cons.2 ⟨hw.toKeeps, List.forall_mem_singleton.2 hw.called.toKeeps⟩, hv,
      nofun⟩
  | @lostRecord p fault hb hk hs =>
    obtain ⟨hr, hwaits, hleads⟩ := recalled_keeps hw hop hk
    -- a record of a part that waits selects a script that is there
    have hi : (w.called.recalled p).engine.narrative.introPending = false := by
      cases hi : p.introPending with
      | false => exact hi
      | true =>
        obtain ⟨d, hd⟩ := (hleads.pending hi).2
        rw [hd] at hs
        cases hs
    exact ⟨List.forall_mem_cons.2 ⟨hw.toKeeps, List.forall_mem_cons.2 ⟨hw.called.toKeeps,
      List.forall_mem_singleton.2 hr⟩⟩, .of_keeps hr hi hwaits, nofun⟩
  | @recalled p d hb hk hs =>
    obtain ⟨hr, hwaits, hleads⟩ := recalled_keeps hw hop hk
    have hshelf : (w.called.recalled p).shelf p.script = .ok d := by
      rw [World.shelf_recalled, World.shelf_called, hs]
    obtain ⟨hv, hon, hnode, hpending, hasked⟩ := opened_keeps hr hshelf
    rw [hwaits] at hasked
    refine ⟨List.forall_mem_cons.2 ⟨hw.toKeeps, List.forall_mem_cons.2 ⟨hw.called.toKeeps,
      List.forall_mem_singleton.2 hr⟩⟩, ⟨hv, ?_, ?_⟩, fun id force he => ?_⟩
    · exact fun h => absurd (hasked.symm.trans h) Bool.false_ne_true
    · exact fun hi => ⟨hon, hnode.trans (hleads.pending (hpending.symm.trans hi)).1, hasked⟩
    · have hid := (Onward.of_to he).1
      refine ⟨hon, ?_, ?_, fun h => absurd (hasked.symm.trans h) Bool.false_ne_true⟩
      · -- a part that waits has no position to be continued from
        cases hi : p.introPending with
        | false => exact hpending.trans hi
        | true =>
          rw [(hleads.pending hi).1] at hid
          cases hid
      · have hscript := World.script_opened (w.called.recalled p) p.script (.ofDocument d)
        have hset := World.setting_opened (w.called.recalled p) p.script (.ofDocument d)
        have hd : ((w.called.recalled p).opened p.script (.ofDocument d)).shelf
            ((w.called.recalled p).opened p.script (.ofDocument d)).script = .ok d := by
          rw [hscript, World.shelf_eq_of_setting hset, hshelf]
        exact (hon.hasNode_iff hd).2 (hleads.has id d hid hs)
  | begunPending hi hb =>
    obtain ⟨hon, hnode, hnot⟩ := hw.pending hi
    have hv : (w.tell ({ · with introPending := false })).Keeps := hw.toKeeps.congr rfl rfl
    refine ⟨List.forall_mem_nil _, .of_keeps hv rfl hnot, fun id force he => ?_⟩
    cases he
    exact ⟨hon.congr rfl rfl rfl, rfl, (hon.hasNode_entrance hw.closed).congr rfl,
      fun h => absurd (hnot.symm.trans h) Bool.false_ne_true⟩
  | accepted hv hc hn =>
    obtain ⟨hk, hon, hi, hnext⟩ := chosen_sound hw hv hc
    obtain ⟨hmk, hsound, hbegins⟩ := goOn_sound hk hon hi rfl hnext
    exact ⟨List.forall_mem_singleton.2 hmk, hsound, hbegins⟩
  | undiverted hv hc hn hs =>
    obtain ⟨hk, hon, hi, hnext⟩ := chosen_sound hw hv hc
    obtain ⟨hmk, hsound, hbegins⟩ := goOn_sound hk hon hi rfl hnext
    exact ⟨List.forall_mem_cons.2 ⟨hk, List.forall_mem_singleton.2 hmk⟩, hsound, hbegins⟩
  | @diverted index c name d hv hc hn hs =>
    obtain ⟨hk, -, hi, -⟩ := chosen_sound hw hv hc
    have hon : ((w.chosen c).diverted name (.ofDocument d)).OnCourse := by
      refine ⟨d, ?_, rfl⟩
      rw [← hs, ← w.shelf_chosen c]
      rfl
    have hdk : ((w.chosen c).diverted name (.ofDocument d)).Keeps := hk.congr rfl rfl
    have hentrance (id : String)
        (hid : some ((w.chosen c).diverted name (.ofDocument d)).entrance = some id) :
        ((w.chosen c).diverted name (.ofDocument d)).HasNode id :=
      Option.some.inj hid ▸ hon.hasNode_entrance hdk.closed
    obtain ⟨hmk, hsound, hbegins⟩ := goOn_sound hdk hon hi rfl hentrance
    exact ⟨List.forall_mem_cons.2 ⟨hk, List.forall_mem_singleton.2 hmk⟩, hsound, hbegins⟩
  | resetGame =>
    have hk : w.cleared.Keeps := hw.toKeeps.congr rfl rfl
    exact ⟨List.forall_mem_cons.2 ⟨hk, List.forall_mem_singleton.2 (hk.emptied _)⟩,
      .of_keeps ((hk.emptied _).emptied _) rfl rfl, nofun⟩
  | @setPlayerName name =>
    have hnamed : (w.named name).Sound := hw.named name
    exact ⟨List.forall_mem_singleton.2 hnamed.toKeeps, hnamed.put_name _, nofun⟩
  | lostPart | loadedPart | lostNamed | loadedNamed | lostResume | resumed | advance | rest =>
    exact hop.elim

/-- The step lemma: no operation of a session comes to a missing node, and all is sound
behind it, at whatever suspension point it may be left. -/
theorem operation_sound {g w : World} {op : Operation} (hw : w.Sound) (hop : w.Continues op) :
    Passes (fun _ m => m.Keeps) op.run g w fun walked _ w' =>
      (∀ id, walked ≠ some (.halted (.missingNode id))) ∧ w'.Sound := by
  refine .operation fun stops v on h => ?_
  obtain ⟨hs, hv, hbegins⟩ := Prelude.sound hw hop h
  refine ⟨_, .of_forall g hs, .onward (fun walked he => ⟨fun id hid => ?_, hv⟩) fun id force he => ?_⟩
  · rw [hid] at he
    exact absurd he h.ne_halted
  · obtain ⟨hon, hi, hid, hforce⟩ := hbegins id force he
    refine (advance_sound hv hon hi hid hforce).imp (fun _ _ hm => hm) ?_
    rintro walked _ w' ⟨hwalked, hw'⟩
    exact ⟨fun id he => hwalked id (Option.some.inj he), hw'⟩

end Act

/-! ## Sessions -/

namespace World

/-- A fresh engine over slots in which there is no record. -/
def Opens (o : World) : Prop :=
  (∃ config interrupts listening audible, o.engine = .fresh config interrupts listening audible) ∧
    ∀ text, o.saves.medium.get o.engine.config.progressKey ≠ .ok (some text)

/-- The worlds of a session that begins in `o`. An operation is done to its end, or it is
left at a suspension point and a fresh engine takes the place of the one that did it, over
the same scripts and slots. Of the operations that begin without a choice none is done
while the player is asked, as nobody is by a fresh engine or after all was forgotten. -/
inductive Session (o : World) : World → Prop where
  | opened : Session o o
  | played {w w' : World} {op : Operation} {walked : Option Walked} : Session o w →
      w.Continues op → op.run (w.under .endless) = .ok walked w' → Session o w'
  | renewed {w m v : World} {config : Config} {interrupts : List Interrupt}
      {listening audible : Bool} : Session o w →
      (m = w ∨ ∃ op, w.Continues op ∧ Act.Leaves op.run w m) →
      v.engine = .fresh config interrupts listening audible →
      config.progressKey = m.engine.config.progressKey →
      config.nameKey = m.engine.config.nameKey → v.shelf = m.shelf →
      v.saves.medium = m.saves.medium → Session o v

/-- A fresh engine is sound as long as what is around it is. -/
theorem Keeps.sound_of_fresh {w : World} {config : Config} {interrupts : List Interrupt}
    {listening audible : Bool} (h : w.Keeps)
    (he : w.engine = .fresh config interrupts listening audible) : w.Sound := by
  refine .of_keeps h ?_ ?_
  · rw [he]
    rfl
  · rw [waits, he]
    rfl

/-- What is around an engine does not change with the engine. -/
theorem Keeps.renew {m v : World} (h : m.Keeps)
    (hp : v.engine.config.progressKey = m.engine.config.progressKey)
    (hn : v.engine.config.nameKey = m.engine.config.nameKey) (hshelf : v.shelf = m.shelf)
    (hs : v.saves.medium = m.saves.medium) : v.Keeps := by
  refine ⟨?_, ?_, ?_⟩
  · rw [hshelf]
    exact h.closed
  · rw [hs, hp, hn]
    exact h.apart
  · rw [hs, hp, hshelf]
    exact h.kept

theorem Session.sound {o w : World} (ho : o.Opens)
    (hc : ∀ id d, o.shelf id = .ok d → d.Closed)
    (ha : o.saves.medium.Apart o.engine.config.progressKey o.engine.config.nameKey)
    (h : o.Session w) : w.Sound := by
  induction h with
  | opened =>
    obtain ⟨⟨config, interrupts, listening, audible, he⟩, hempty⟩ := ho
    exact Keeps.sound_of_fresh ⟨hc, ha, fun text p hget => absurd hget (hempty text)⟩ he
  | @played w w' op walked _ hop hrun ih =>
    obtain ⟨_, w'', hend, rfl⟩ := (Act.operation_sound (g := w) ih hop).ended hrun
    exact hend.2.under _
  | @renewed w m v config interrupts listening audible _ hm he hp hn hshelf hs ih =>
    have hk : m.Keeps := by
      rcases hm with rfl | ⟨op, hop, hl⟩
      · exact ih.toKeeps
      · have hpass := (Act.operation_sound (g := w) ih hop).imp (fun _ _ hm => hm)
          fun _ _ _ hw' => hw'.2.toKeeps
        exact hpass.leaves (fun _ p hm => hm.under p) hl
    refine (hk.renew ?_ ?_ hshelf hs).sound_of_fresh he
    · rw [he]
      exact hp
    · rw [he]
      exact hn

/-- Where every script that can be loaded is `Closed` and the record and the name are in two
slots, no walk of a session halts at a missing node. -/
theorem Session.ne_missingNode {o w w' : World} {op : Operation} {walked : Option Walked}
    (ho : o.Opens) (hc : ∀ id d, o.shelf id = .ok d → d.Closed)
    (ha : o.saves.medium.Apart o.engine.config.progressKey o.engine.config.nameKey)
    (h : o.Session w) (hop : w.Continues op) (hrun : op.run (w.under .endless) = .ok walked w')
    (id : String) : walked ≠ some (.halted (.missingNode id)) := by
  obtain ⟨_, w'', hend, -⟩ := (Act.operation_sound (g := w) (h.sound ho hc ha) hop).ended hrun
  exact hend.1 id

end World

/-! ### One slot for two things -/

theorem Document.closed_endingIn (part : Nat) : (Document.endingIn part).Closed := by
  refine ⟨nofun, fun n hn id hl => ?_⟩
  obtain rfl := List.mem_singleton.1 hn
  rcases hl with h | ⟨c, hc, -⟩ | ⟨c, hc, -⟩
  · cases h
  · cases hc
  · cases hc

theorem Shelf.closed_twoParts (id : ScriptId) (d : Document) (h : Shelf.twoParts id = .ok d) :
    d.Closed := by
  unfold twoParts at h
  split at h
  · cases h; exact Document.closed_endingIn 2
  · cases h; exact Document.closed_endingIn 3
  · cases h

theorem World.opens_opening (shelf : Shelf) : (World.opening shelf).Opens :=
  ⟨⟨_, _, _, _, rfl⟩, nofun⟩

theorem World.Session.ne_missingNode_twoParts : ∃ w walked w',
    (World.opening .twoParts).Session w ∧
      Operation.run .beginPending (w.under .endless) = .ok walked w' ∧
      walked = some (.halted (.partEnd (some 3))) ∧
      ∀ id, walked ≠ some (.halted (.missingNode id)) := by
  have hrun : ∃ walked w walked' w', (Operation.startChapter 1 1).run
      ((World.opening .twoParts).under .endless) = .ok walked w ∧
      Operation.run .beginPending (w.under .endless) = .ok walked' w' ∧
      walked' = some (.halted (.partEnd (some 3))) := ⟨_, _, _, _, rfl, rfl, by decide⟩
  obtain ⟨walked, w, walked', w', hstart, hbegin, he⟩ := hrun
  have hfirst : (World.opening .twoParts).Continues (.startChapter 1 1) := rfl
  have hnext : w.Continues .beginPending := trivial
  have hs : (World.opening .twoParts).Session w := .played .opened hfirst hstart
  exact ⟨w, walked', w', hs, hbegin, he, hs.ne_missingNode (World.opens_opening _)
    Shelf.closed_twoParts (by decide) hnext hbegin⟩

/-- A fresh engine with one slot for the record and the name. -/
def World.narrow : World :=
  .steady (.fresh { Config.instant with progressKey := "slot", nameKey := "slot" } [] true true)
    .twoParts (.memory .empty)

/-- A record of a node that there is not. -/
def Json.astray : Json := .record [("currentNodeId", .str "x")]

theorem Json.parse_astray : Progress.parse astray.render = .ok { currentNode := some "x" } := by
  have hw : astray.Written := by
    refine written_record fun f hf => ?_
    obtain rfl := List.mem_singleton.1 hf
    rfl
  rw [Progress.parse, parse?_render hw]
  rfl

/-- A fresh engine that finds such a record. -/
def World.strayed : World :=
  { World.narrow with saves := .reliable (.memory (Table.empty.insert "slot" Json.astray.render)) }

/-- The record came into its slot as the name that the player took after the story had
begun. -/
theorem World.session_strayed : World.narrow.Session .strayed := by
  have hbegin : ∃ walked w,
      (Operation.startChapter 1 1).run (World.narrow.under .endless) = .ok walked w ∧
      ∀ name, ∃ walked' w', (Operation.setPlayerName name).run (w.under .endless) =
          .ok walked' w' ∧ w'.engine.config = World.narrow.engine.config ∧
        w'.shelf = .twoParts ∧
        w'.saves.medium = .memory (Table.empty.insert "slot" (Text.trim name)) :=
    ⟨_, _, rfl, fun _ => ⟨_, _, rfl, rfl, rfl, rfl⟩⟩
  obtain ⟨_, w, hstart, hnames⟩ := hbegin
  obtain ⟨_, w', hrun, hconfig, hshelf, hmedium⟩ := hnames Json.astray.render
  have hfirst : World.narrow.Continues (.startChapter 1 1) := rfl
  have hop : w.Continues (.setPlayerName Json.astray.render) := trivial
  have hname : Text.trim Json.astray.render = Json.astray.render := by decide
  refine .renewed (.played (.played .opened hfirst hstart) hop hrun) (.inl rfl) rfl ?_ ?_
    hshelf.symm ?_
  · rw [hconfig]
    rfl
  · rw [hconfig]
    rfl
  · rw [hmedium, hname]
    rfl

theorem World.run_strayed : ∃ walked w,
    Operation.run .resumeSaved (World.strayed.under .endless) = .ok walked w ∧
      walked = some (.halted (.missingNode "x")) := by
  have hget : (World.strayed.called.saves.get World.strayed.called.engine.config.progressKey).1 =
      .ok (some Json.astray.render) := rfl
  have hk : World.strayed.called.kept? = some { currentNode := some "x" } := by
    rw [World.kept?, hget]
    dsimp only
    rw [Json.parse_astray]
    rfl
  have hrun := (Act.comes_resumeSaved rfl hk (d := .endingIn 2) rfl).whole
  have hend : ∃ r w, Act.resumeSaved (World.strayed.under .endless) = .ok r w ∧
      r.toOption.join = some (.halted (.missingNode "x")) := by
    rw [hrun]
    exact ⟨_, _, rfl, rfl⟩
  obtain ⟨r, w, hend, hr⟩ := hend
  refine ⟨_, w, ?_, hr⟩
  change ((fun r => r.toOption.join) <$> Act.resumeSaved) (World.strayed.under .endless) = _
  rw [Act.map_apply, hend]

/-- In one slot the name of the player may be a record, of a node that there is not. -/
theorem World.missingNode_of_oneSlot : ¬ ∀ (o w w' : World) (op : Operation)
    (walked : Option Walked), o.Opens → (∀ id d, o.shelf id = .ok d → d.Closed) →
    o.Session w → w.Continues op → op.run (w.under .endless) = .ok walked w' →
    ∀ id, walked ≠ some (.halted (.missingNode id)) := by
  intro h
  have hopens : World.narrow.Opens := ⟨⟨_, _, _, _, rfl⟩, nofun⟩
  have hop : World.strayed.Continues .resumeSaved := rfl
  obtain ⟨walked, w', hrun, he⟩ := World.run_strayed
  exact h .narrow .strayed w' .resumeSaved walked hopens Shelf.closed_twoParts
    World.session_strayed hop hrun "x" he

end StoryChat
