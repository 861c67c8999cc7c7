/-
The record is the present one where a walk has halted.

A visit that tells something, or ends a part, writes at its end (`Act.goOn`,
`Act.endPart`), and so does a choice (`Act.choose`) before the walk that it leads to. A
walk that is taken up from a record begins where the record stands. So wherever such a walk
halts, the slot for progress holds what there is to hold, whatever it was that the walk
halted at.

This is not so of a walk that begins a part. Nothing is written before its first visit, and
a visit that asks, or finds no node, writes nothing either. So a part must be entered at a
node that is there and does not ask (`World.TellsFirst`).
-/
import StoryChat.Proofs.Engine.Choices
import StoryChat.Proofs.Engine.Saving
import StoryChat.Proofs.Engine.Writing

set_option autoImplicit false

namespace StoryChat

namespace World

variable {g w m v : World}

/-! ## The slot for progress -/

/-- Whether the slot for progress holds the record of the conversation as it is. -/
def Written (w : World) : Prop := w.saves.medium.get w.engine.config.progressKey =
  .ok (some w.engine.narrative.snapshot.render)

theorem Written.congr (h : w.Written) (hm : m.saves.medium = w.saves.medium)
    (hs : m.setting = w.setting)
    (hn : m.engine.narrative.snapshot = w.engine.narrative.snapshot) : m.Written := by
  rw [Written, hm, hn, config_eq_of_setting hs]
  exact h

/-- Whether no record can be read from the slot for progress, be it empty or not. -/
def Recordless (w : World) : Prop :=
  ∀ text, w.saves.medium.get w.engine.config.progressKey = .ok (some text) →
    ∀ p, Progress.parse text ≠ .ok p

/-- What the slots hold in a run: they take what is put into them, and the slot for progress
holds no record yet, or that of a regular world that is read back. -/
structure Stocked (w : World) : Prop where
  willing : w.saves.Willing w.engine.config.progressKey
  kept : w.Recordless ∨
    ∃ g : World, g.Regular ∧ g.engine.narrative.snapshot.Readable ∧
      g.engine.config = w.engine.config ∧
      w.saves.medium.get w.engine.config.progressKey =
        .ok (some g.engine.narrative.snapshot.render)

theorem Stocked.under (h : w.Stocked) (p : Patience) : (w.under p).Stocked := ⟨h.willing, h.kept⟩

theorem Stocked.congr (h : w.Stocked) (hr : ∀ n call, m.saves.refusal n call = none)
    (hm : m.saves.medium = w.saves.medium) (hc : m.engine.config = w.engine.config) :
    m.Stocked := by
  constructor
  · rw [hc]
    exact ⟨hr, by rw [hm]; exact h.willing.takes⟩
  · rw [Recordless, hm, hc]
    exact h.kept

/-- What is written where the slots are willing stands in the slot. -/
theorem medium_saved (h : w.saves.Willing w.engine.config.progressKey) :
    w.saved.saves.medium.get w.engine.config.progressKey =
      .ok (some w.engine.narrative.snapshot.render) := by
  rw [saves_saved, h.medium_set]
  exact SlotMedium.get_set (h.takes _)

theorem willing_saved (h : w.saves.Willing w.engine.config.progressKey) :
    w.saved.saves.Willing w.engine.config.progressKey := h.set _

/-- The slots stay so from one suspension point to the next, if the record of the first is
read back. -/
theorem Stocked.step (h : g.Stocked) (hgm : g.Writes m)
    (hread : g.engine.narrative.snapshot.Readable) : m.Stocked := by
  have hconfig := config_eq_of_setting hgm.setting
  rcases hgm.kept with ⟨-, hm⟩ | ⟨-, hm, hregular⟩
  -- either nothing was written, or the record of the regular world `g`
  · exact h.congr (by rw [hgm.refusal]; exact h.willing.refusal) hm hconfig
  · constructor
    · rw [hconfig]
      exact ⟨by rw [hgm.refusal]; exact h.willing.refusal,
        by rw [hm]; exact (willing_saved h.willing).takes⟩
    · refine .inr ⟨g, hregular, hread, hconfig.symm, ?_⟩
      rw [hm, hconfig, medium_saved h.willing]

/-! ## Walks -/

/-- Where the story is when a walk has halted: at the choice that is asked, at the node that
is missing, or nowhere. -/
def RestsAt (w : World) : Halt → Prop
  | .awaitingChoice => ∃ id n, w.engine.narrative.currentNode = some id ∧
      w.findNode? id = some n ∧ n.kind = .choice
  | .missingNode id => w.engine.narrative.currentNode = some id
  | .partEnd _ | .endOfScript => w.engine.narrative.currentNode = none

/-- What holds between two visits: the record is the present one and the next node is the
position, or the next node is there and does not ask. -/
structure Ahead (w : World) (id : String) : Prop where
  willing : w.saves.Willing w.engine.config.progressKey
  next : w.Written ∧ w.engine.narrative.currentNode = some id ∨
    ∃ n, w.findNode? id = some n ∧ n.kind ≠ .choice

theorem Ahead.congr {id : String} (h : w.Ahead id) (hsaves : m.saves = w.saves)
    (hs : m.setting = w.setting) (hg : m.engine.graph = w.engine.graph)
    (hn : m.engine.narrative.snapshot = w.engine.narrative.snapshot) : m.Ahead id := by
  constructor
  · rw [hsaves, config_eq_of_setting hs]
    exact h.willing
  · rcases h.next with ⟨hwritten, hid⟩ | ⟨n, hfind, hk⟩
    · exact .inl ⟨hwritten.congr (congrArg Saves.medium hsaves) hs hn,
        (congrArg Progress.currentNode hn).trans hid⟩
    · exact .inr ⟨n, by rw [findNode?, hg]; exact hfind, hk⟩

/-- What holds where a walk has halted. -/
def Current (w : World) (halt : Halt) : Prop := w.Written ∧ w.RestsAt halt

theorem Current.congr {halt : Halt} (h : w.Current halt) (hm : m.saves.medium = w.saves.medium)
    (hs : m.setting = w.setting) (hg : m.engine.graph = w.engine.graph)
    (hn : m.engine.narrative.snapshot = w.engine.narrative.snapshot) : m.Current halt := by
  have hnode : m.engine.narrative.currentNode = w.engine.narrative.currentNode :=
    congrArg Progress.currentNode hn
  refine ⟨h.1.congr hm hs hn, ?_⟩
  cases halt with
  | awaitingChoice =>
    obtain ⟨id, n, hid, hfind, hk⟩ := h.2
    exact ⟨id, n, hnode.trans hid, by rw [findNode?, hg]; exact hfind, hk⟩
  | missingNode id => exact hnode.trans h.2
  | partEnd | endOfScript => exact hnode.trans h.2

theorem snapshot_ready (w : World) (force : Bool) :
    (w.ready force).engine.narrative.snapshot = w.engine.narrative.snapshot := by
  cases force with
  | false => rfl
  | true =>
    unfold ready display
    rw [if_pos rfl]
    split
    · rfl
    · rw [narrative_tell, engine_emit]
      rfl

theorem written_saved (h : w.saves.Willing w.engine.config.progressKey) : w.saved.Written :=
  medium_saved h

end World

namespace Act

open World

variable {g w : World}

/-- A visit takes the present record on to the next one, or the walk halts with it. -/
theorem visited_current {id : String} {stops : List World} {out : Outcome Visit}
    (hw : w.Ahead id) (hv : Visited w id stops out) : ∃ last, Legs (fun _ _ => True) g stops last ∧
      Ends (After (fun halt _ w => w.Current halt) fun _ w id => w.Ahead id) last out := by
  have legs : Legs (fun _ _ => True) g stops (stops.getLast?.getD g) :=
    .of_forall (P := fun _ => True) g fun _ _ => trivial
  -- the end of a part is written with the position nowhere
  have stays {v : World} {halt : Halt} {e : Event} (hs : v.saves = w.saves)
      (hc : v.engine.config = w.engine.config) (hn : v.engine.narrative.currentNode = none)
      (hr : ∀ v : World, v.RestsAt halt ↔ v.engine.narrative.currentNode = none) :
      (v.saved.emit e).Current halt := by
    have hwilling : v.saves.Willing v.engine.config.progressKey := by
      rw [hs, hc]
      exact hw.willing
    refine ⟨(written_saved hwilling).congr (by rw [saves_emit]) (setting_emit _ _)
      (by rw [engine_emit]), (hr _).2 ?_⟩
    rw [engine_emit]
    exact hn
  refine ⟨_, legs, ?_⟩
  cases hv with
  | missing hn =>
    rcases hw.next with ⟨hwritten, hid⟩ | ⟨n, hfind, -⟩
    · exact ⟨hwritten, hid⟩
    · rw [hn] at hfind
      cases hfind
  -- to be offered, and to be missed, a node must be the position that was written
  | @offered n hn hk =>
    rcases hw.next with ⟨hwritten, hid⟩ | ⟨n', hfind, hnot⟩
    · have hcurrent : w.Current .awaitingChoice := ⟨hwritten, id, n, hid, hn, hk⟩
      have hsame : ((w.at id).offering n).engine.narrative.snapshot =
          w.engine.narrative.snapshot := by
        rw [offering, engine_emit]
        simp only [World.at, narrative_tell, Narrative.present, Narrative.goTo, Narrative.snapshot,
          hid]
      exact hcurrent.congr (by rw [offering, saves_emit]; rfl) (by rw [offering, setting_emit]; rfl)
        (by rw [offering, engine_emit]; rfl) hsame
    · rw [hn] at hfind
      cases hfind
      exact absurd hk hnot
  | @told n stops m hn hc he hp hs hm hstory =>
    have hin := hs m (List.mem_of_getLast? hm)
    have hwilling : m.saves.Willing m.engine.config.progressKey := by
      rw [hin.saves, config_eq_of_setting hin.setting]
      exact hw.willing
    have hnode : m.saved.engine.narrative.currentNode = ((w.at id).storyAfter n).currentNode :=
      congrArg Story.currentNode hstory
    cases hnext : ((w.at id).storyAfter n).currentNode with
    | none => exact ⟨written_saved hwilling, hnode.trans hnext⟩
    | some next =>
      exact ⟨willing_saved hwilling, .inl ⟨written_saved hwilling, hnode.trans hnext⟩⟩
  | crossed => exact Stop.noConfusion
  | ended => exact stays rfl rfl rfl fun _ => Iff.rfl
  | lost => exact stays rfl rfl rfl fun _ => Iff.rfl
  | turned => exact stays rfl rfl rfl fun _ => Iff.rfl

theorem advance_current {id : String} {force : Bool} (hw : w.Ahead id) :
    Passes (fun _ _ => True) (Act.advance id force) g w
      fun walked _ w' => ∀ halt, walked = .halted halt → w'.Current halt := by
  refine .advance (fun _ _ _ => ⟨trivial, trivial⟩) (fun _ _ _ => nofun)
    (.walk (fun g w id stops out h hv => visited_current h hv) _ id ?_) fun halt g w h => ?_
  · exact hw.congr (w.saves_ready force) (w.setting_ready force) (w.graph_ready force)
      (w.snapshot_ready force)
  · have hend : (w.settled.emit (.halted halt)).Current halt :=
      h.congr (by rw [saves_emit, saves_settled]) ((setting_emit _ _).trans w.setting_settled)
        (by rw [engine_emit, graph_settled]) (by rw [engine_emit, snapshot_settled])
    exact ⟨fun _ he => Walked.halted.inj he ▸ hend, fun _ he => Walked.halted.inj he ▸ hend⟩

end Act

/-! ## Operations -/

/-- Whether the script that is walked is entered at a node that is there and does not ask. -/
def World.TellsFirst (w : World) : Prop :=
  ∃ n, w.findNode? w.entrance = some n ∧ n.kind ≠ .choice

/-- Whether a part that an operation begins is entered at such a node. -/
def Operation.TellsFirst (op : Operation) (w : World) : Prop :=
  match op with
  | .startChapter chapter part => ∀ d, w.shelf (.part chapter part) = .ok d →
      (w.begun chapter part (.ofDocument d)).TellsFirst
  | .beginPending => w.engine.narrative.introPending = true → w.TellsFirst
  | _ => True

namespace World

variable {g w m v : World}

/-- To take the script that the position selects changes nothing that is in a record. -/
theorem snapshot_opened (w : World) (graph : Graph) :
    (w.opened w.script graph).engine.narrative.snapshot = w.engine.narrative.snapshot := by
  cases ha : w.engine.narrative.activeScript with
  | none =>
    rw [script_eq_part ha]
    simp only [opened, installed, narrative_tell, Narrative.moveTo, Narrative.snapshot, ha]
  | some name =>
    rw [script_eq_named ha]
    simp only [opened, diverted, Narrative.snapshot, ha]

theorem Stocked.called (h : w.Stocked) : w.called.Stocked :=
  h.congr (by rw [refusal_called]; exact h.willing.refusal) w.medium_called w.config_called

/-- The record that is found is the one that the slot holds. -/
theorem Stocked.eq_of_kept? {p : Progress} (h : w.Stocked) (hk : w.kept? = some p) :
    ∃ g : World, g.Regular ∧ g.engine.config = w.engine.config ∧
      w.saves.medium.get w.engine.config.progressKey = .ok (some p.render) ∧
      p = g.engine.narrative.snapshot := by
  have hslot := Saves.get_of_refusal h.willing.refusal w.engine.config.progressKey
  rcases h.kept with hnone | ⟨g, hg, hread, hconfig, hsome⟩
  · obtain ⟨text, htext, hp⟩ := exists_text_of_kept? hk
    exact absurd hp (hnone text (hslot.symm.trans htext) p)
  · have hkept := kept?_of_render hg.snapshot hread rfl (hslot.trans hsome)
    rw [hk] at hkept
    cases hkept
    exact ⟨g, hg, hconfig, hsome, rfl⟩

/-- Where a record is continued from, the slot holds the record of the conversation. -/
theorem Stocked.written_opened {p : Progress} (h : w.Stocked) (hw : w.Regular)
    (hk : w.kept? = some p) (graph : Graph) : ((w.recalled p).opened p.script graph).Written := by
  obtain ⟨g, hg, hconfig, hslot, rfl⟩ := h.eq_of_kept? hk
  have hschema : w.engine.narrative.vars.schema = g.engine.config.schema := by
    rw [hconfig]
    exact hw.story.vars.schema
  have hrecalled := snapshot_recalled hg.built hg.story.vars hschema
  have hopened := (w.recalled g.engine.narrative.snapshot).snapshot_opened graph
  have hset := (w.recalled g.engine.narrative.snapshot).setting_opened
    g.engine.narrative.snapshot.script graph
  have hscript : (w.recalled g.engine.narrative.snapshot).script =
      g.engine.narrative.snapshot.script := rfl
  rw [hscript] at hopened
  rw [Written, hopened, hrecalled, config_eq_of_setting hset, saves_opened]
  exact (congrArg (SlotMedium.get · _) (w.medium_asked _)).trans hslot

end World

namespace Act

open World

variable {w v : World} {op : Operation} {stops : List World} {on : Onward}

/-- Where an operation comes to walk, the record is the present one, or the part begins with
something that is told. -/
theorem Prelude.ahead {id : String} {force : Bool} (hop : op.Proceeds) (htell : op.TellsFirst w)
    (hw : w.Regular) (hs : w.Stocked) (h : Prelude w op stops v on)
    (hon : on = .walk id force) : v.Ahead id := by
  -- what is written before a walk is written where the walk begins
  have goOn (c : Choice) (hto : Onward.to c.next true = .walk id force) :
      ((w.chosen c).tell (·.goTo c.next)).saved.Ahead id := by
    have hwilling : ((w.chosen c).tell (·.goTo c.next)).saves.Willing
        ((w.chosen c).tell (·.goTo c.next)).engine.config.progressKey := by
      rw [saves_tell, saves_chosen, config_tell, config_eq_of_setting (w.setting_chosen c)]
      exact hs.willing
    exact ⟨willing_saved hwilling, .inl ⟨written_saved hwilling, (Onward.of_to hto).1⟩⟩
  cases h with
  -- a part that is begun is not written, and so it must tell something first
  | started hb hshelf =>
    cases hon
    exact ⟨hs.willing, .inr (htell _ hshelf)⟩
  | begunPending hi hb =>
    cases hon
    exact ⟨hs.willing, .inr (htell hi)⟩
  -- where a record is continued from, it is in the slot
  | @recalled p d hb hk hshelf =>
    have hset := ((w.called.recalled p).setting_opened p.script (.ofDocument d)).trans
      ((w.called.setting_recalled p).trans w.setting_called)
    have hwritten := hs.called.written_opened (called_regular hw) hk (.ofDocument d)
    have hnode : ((w.called.recalled p).opened p.script
        (.ofDocument d)).engine.narrative.currentNode = p.currentNode :=
      congrArg Progress.currentNode ((w.called.recalled p).snapshot_opened (.ofDocument d))
    refine ⟨?_, .inl ⟨hwritten, hnode.trans (Onward.of_to hon).1⟩⟩
    rw [config_eq_of_setting hset, saves_opened]
    exact ⟨fun n call => (congrFun (congrFun (Saves.refusal_get _ _) n) call).trans
      (hs.called.willing.refusal n call), by
        rw [recalled, saves_tell, medium_asked, medium_called]
        exact hs.willing.takes⟩
  | @accepted index c hv hc hn => exact goOn c hon
  | @undiverted index c name fault hv hc hn hshelf => exact goOn c hon
  | @diverted index c name d hv hc hn hshelf =>
    cases hon
    have hwilling : (((w.chosen c).diverted name (.ofDocument d)).at
        ((w.chosen c).diverted name (.ofDocument d)).entrance).saves.Willing
        (((w.chosen c).diverted name (.ofDocument d)).at
          ((w.chosen c).diverted name (.ofDocument d)).entrance).engine.config.progressKey := by
      rw [World.at, saves_tell, config_tell,
        config_eq_of_setting ((w.chosen c).setting_diverted _ _),
        config_eq_of_setting (w.setting_chosen c)]
      exact (w.saves_chosen c).symm ▸ hs.willing
    exact ⟨willing_saved hwilling, .inl ⟨written_saved hwilling, rfl⟩⟩
  | lostPart | loadedPart | lostNamed | loadedNamed | lostResume | resumed | advance | rest
    | resetGame | setPlayerName => cases hop
  | busy | lostStart | unread | lostRecord | nonePending | busyPending | refused => cases hon

/-- The step lemma: where an operation halts at the end of a walk, the record is the present
one. -/
theorem operation_current (hop : op.Proceeds) (htell : op.TellsFirst w) (hw : w.Regular)
    (hs : w.Stocked) : Passes (fun _ _ => True) op.run w w
      fun walked _ w' => ∀ halt, walked = some (.halted halt) → w'.Current halt := by
  refine .operation fun stops v on h => ?_
  refine ⟨_, .of_forall (P := fun _ => True) w fun _ _ => trivial, .onward ?_ ?_⟩
  · rintro walked rfl halt rfl
    exact absurd rfl h.ne_halted
  · intro id force hon
    refine (advance_current (Prelude.ahead hop htell hw hs h hon)).imp (fun _ _ _ => trivial) ?_
    exact fun walked _ w' hw' halt he => hw' halt (Option.some.inj he)

end Act

/-! ## Runs -/

namespace World

variable {w w' v : World} {op : Operation} {halt : Halt}

/-- The worlds of a run in which a story is played on and its record is kept: from a fresh
engine over slots that take what is put into them, and of which that for progress holds no
record, operations by which the story goes on, each done to its end or left at any suspension point,
and now and then a fresh engine in the place of the old one. What is written is read back. -/
inductive Recorded : World → Prop where
  | fresh {w : World} {config : Config} {interrupts : List Interrupt}
      {listening audible : Bool} :
      w.engine = .fresh config interrupts listening audible → w.Sourced →
      w.saves.Willing w.engine.config.progressKey →
      w.Recordless → Recorded w
  | step {w w' : World} {op : Operation} : Recorded w → op.Proceeds → op.InRange →
      (∀ k, (Act.suspendedIn op.run w k).engine.narrative.snapshot.Readable) →
      Act.Leaves op.run w w' → Recorded w'
  | renewed {w v : World} : Recorded w → v.Renews w → Recorded v

theorem Recorded.regular_stocked (h : w.Recorded) : w.Regular ∧ w.Stocked := by
  induction h with
  | fresh he hs hwilling hnone => exact ⟨hs.regular_of_fresh he, hwilling, .inl hnone⟩
  | @step w w' op _ hop hr hread hl ih =>
    obtain ⟨hw, hs⟩ := ih
    constructor
    · exact (Act.operation_regular (g := w) hw hr).leaves (fun _ p hm => hm.under p) hl
    · -- what is written is the record of a world on the way, which can be read back
      have hwrites := Act.operation_writes (Operation.records_of_proceeds hop) hr hw
      refine hwrites.leaves_of_step (fun _ p hm => hm.under p) hs
        (fun k a b p ha hab hsa => hsa.step hab ?_) hl
      have hreadable := hread k
      rw [ha] at hreadable
      exact hreadable
  | @renewed w v _ hv ih =>
    obtain ⟨hw, hs⟩ := ih
    obtain ⟨interrupts, listening, audible, he⟩ := hv.fresh
    have hconfig : v.engine.config = w.engine.config := by
      rw [he]
      rfl
    have hsourced : v.Sourced := by
      constructor
      · rw [hv.shelf]
        exact hw.given
      · rw [hconfig]
        exact hw.built
    exact ⟨hsourced.regular_of_fresh he, hs.congr hv.refusal hv.medium hconfig⟩

/-- In such a run (`Recorded`), wherever an operation halts at the end of a walk, the slot for
progress holds the record of the conversation as it is, and the story is where the walk has
halted: unless the operation begins a part that asks at once, or whose first node is
missing. -/
theorem Recorded.current (h : w.Recorded) (hop : op.Proceeds) (hr : op.InRange)
    (htell : op.TellsFirst w)
    (hread : ∀ k, (Act.suspendedIn op.run w k).engine.narrative.snapshot.Readable)
    (hrun : op.run (w.under .endless) = .ok (some (.halted halt)) w') :
    w'.kept? = some w'.engine.narrative.snapshot ∧ w'.RestsAt halt := by
  obtain ⟨hw, hs⟩ := h.regular_stocked
  obtain ⟨hw', hs'⟩ := (h.step hop hr hread (.ended hrun)).regular_stocked
  have hpass := Act.operation_current hop htell hw hs
  -- the end is read back as it is one of the worlds that the operation was seen in last
  have hreadable : w'.engine.narrative.snapshot.Readable := by
    obtain ⟨k, p, hk⟩ := hpass.exists_suspendedIn hrun
    have hreadable := hread k
    rwa [hk] at hreadable
  obtain ⟨_, m, hm, rfl⟩ := hpass.ended hrun
  obtain ⟨hwritten, hrests⟩ := hm halt rfl
  refine ⟨kept?_of_render hw'.snapshot hreadable rfl ?_, ?_⟩
  · rw [Saves.get_of_refusal hs'.willing.refusal]
    exact hwritten
  · cases halt <;> exact hrests

end World

/-! ### Parts that begin in two ways -/

/-- A script that pretends to type once and then asks. -/
def Document.askingLater : Document :=
  ⟨none, [
    { Node.message "start" .system "" with kind := .typingFake, next := some "ask" },
    { Node.message "ask" .player "" with
      kind := .choice, choices := [⟨"Go on", none, .empty⟩] }]⟩

/-- A fresh engine without variables and pauses, over empty slots and nothing but one
script. -/
def World.over (d : Document) : World :=
  .steady (.fresh (.nameUnder "name") [] false false) (fun _ => .ok d) (.memory .empty)

theorem World.recorded_over {d : Document} (hd : d.Given) : (World.over d).Recorded := by
  refine .fresh rfl ⟨?_, ?_⟩ ⟨fun _ _ => rfl, fun _ => rfl⟩ nofun
  · intro id d' h
    cases h
    exact hd
  · exact ⟨[], List.forall_mem_nil _, rfl⟩

/-- Without variables and messages there is nothing that might not be read back. -/
theorem Progress.readable_of_empty {p : Progress} (h : p.vars = .empty ∧ p.messages = []) :
    p.Readable := by
  constructor
  · rw [h.1]
    exact List.forall_mem_nil _
  · rw [h.2]
    exact List.forall_mem_nil _

theorem World.Recorded.current_askingLater : ∃ w' : World,
    (Operation.startChapter 1 1).run ((World.over .askingLater).under .endless) =
      .ok (some (.halted .awaitingChoice)) w' ∧
    w'.kept? = some w'.engine.narrative.snapshot ∧ w'.RestsAt .awaitingChoice := by
  have hrun : ∃ w', (Operation.startChapter 1 1).run
      ((World.over .askingLater).under .endless) =
        .ok (some (.halted .awaitingChoice)) w' := ⟨_, rfl⟩
  obtain ⟨w', hrun⟩ := hrun
  have hgiven : Document.askingLater.Given := ⟨Document.askingLater.toJson, rfl⟩
  have htell : (Operation.startChapter 1 1).TellsFirst (World.over .askingLater) := by
    intro d hd
    cases hd
    exact ⟨_, rfl, by decide⟩
  have hread (k : Nat) : (Act.suspendedIn (Operation.startChapter 1 1).run
      (World.over .askingLater) k).engine.narrative.snapshot.Readable := by
    refine Progress.readable_of_empty ?_
    rcases k with _ | _ | _ | k <;> exact ⟨rfl, rfl⟩
  have hrange : (Operation.startChapter 1 1).InRange := ⟨by decide, by decide⟩
  exact ⟨w', hrun, (World.recorded_over hgiven).current rfl hrange htell hread hrun⟩

/-- A part that asks at once is not kept: it is begun, and the slot is as empty as before. -/
theorem World.not_current_of_asking : ¬ ∀ (w w' : World) (op : Operation) (halt : Halt),
    w.Recorded → op.Proceeds → op.InRange →
    (∀ k, (Act.suspendedIn op.run w k).engine.narrative.snapshot.Readable) →
    op.run (w.under .endless) = .ok (some (.halted halt)) w' →
    w'.kept? = some w'.engine.narrative.snapshot ∧ w'.RestsAt halt := by
  intro h
  have hrun : ∃ w', (Operation.startChapter 1 1).run ((World.over .asking).under .endless) =
      .ok (some (.halted .awaitingChoice)) w' ∧ w'.kept? = none := ⟨_, rfl, rfl⟩
  obtain ⟨w', hrun, hnone⟩ := hrun
  have hgiven : Document.asking.Given := ⟨Document.asking.toJson, rfl⟩
  have hread (k : Nat) : (Act.suspendedIn (Operation.startChapter 1 1).run
      (World.over .asking) k).engine.narrative.snapshot.Readable := by
    refine Progress.readable_of_empty ?_
    rcases k with _ | _ | k <;> exact ⟨rfl, rfl⟩
  have hrange : (Operation.startChapter 1 1).InRange := ⟨by decide, by decide⟩
  have hkept := (h _ w' _ _ (World.recorded_over hgiven) rfl hrange hread hrun).1
  rw [hnone] at hkept
  cases hkept

end StoryChat
