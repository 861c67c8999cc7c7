/-
What can be reached can be kept.

Where scripts are read from documents (`Sourced`), the senders and the counts of a
conversation come from documents too, or are the player and small numbers, and its
variables suit the schema. So the record of every world that operations lead to, whether
done to their end or left on the way, is one that can be read back (`Regular`).
-/
import StoryChat.Proofs.Engine.Operation
import StoryChat.Proofs.Narrative.Reading
import StoryChat.Proofs.Script.Closed
import StoryChat.Proofs.Story.Variables

set_option autoImplicit false

namespace StoryChat

/-! ## Regular stories -/

/-- Whether what has been said and done can be kept: the senders are ones that documents
name, and the variables suit the schema. -/
structure Story.Regular (s : Story) (schema : Schema) : Prop where
  senders : ∀ u ∈ s.lines, u.sender.Regular
  vars : s.vars.Suits schema

namespace Story

variable {s t : Story} {schema : Schema}

theorem Regular.say {u : Utterance} (h : s.Regular schema) (hu : u.sender.Regular) :
    (s.say u).Regular schema := by
  refine ⟨fun u' hu' => ?_, h.vars⟩
  rcases List.mem_append.1 hu' with hu' | hu'
  · exact h.senders u' hu'
  · rwa [List.mem_singleton.1 hu']

theorem Regular.act (h : s.Regular schema) (a : Action) : (s.act a).Regular schema := by
  cases a with
  | set name value => exact ⟨h.senders, h.vars.set name value⟩
  | setOnline | setBlocked | unknown => exact ⟨h.senders, h.vars⟩

theorem Regular.goTo (h : s.Regular schema) (node : Option String) :
    (s.goTo node).Regular schema := ⟨h.senders, h.vars⟩

theorem Along.regular {n : Node} (h : Along n s t) (hn : n.sender.Regular)
    (hs : s.Regular schema) : t.Regular schema := by
  induction h with
  | refl => exact hs
  | say _ hu ih => exact ih.say (hu ▸ hn)
  | act _ ih => exact ih.act _
  | goTo _ ih => exact ih.goTo _

end Story

namespace World

/-! ## The invariant -/

/-- Whether the source of scripts and the schema are in order. -/
structure Sourced (w : World) : Prop where
  given : ∀ id d, w.shelf id = .ok d → d.Given
  built : w.engine.config.schema.Built

/-- What has to be so for the conversation to be kept. -/
structure Regular (w : World) : Prop extends Sourced w where
  graph : ∀ graph, w.engine.graph = some graph → ∃ id d, w.shelf id = .ok d ∧
    graph = .ofDocument d
  story : w.engine.narrative.story.Regular w.engine.config.schema
  chapter : w.engine.narrative.chapter ≤ Json.countLimit
  part : w.engine.narrative.part ≤ Json.countLimit

variable {w m : World}

theorem Sourced.congr (h : w.Sourced) (hset : m.setting = w.setting) : m.Sourced := by
  constructor
  · rw [shelf_eq_of_setting hset]
    exact h.given
  · rw [config_eq_of_setting hset]
    exact h.built

/-- Where the script stays, only the story and the position matter. -/
theorem Regular.of_story (h : w.Regular) (hset : m.setting = w.setting)
    (hg : m.engine.graph = w.engine.graph)
    (hs : m.engine.narrative.story.Regular w.engine.config.schema)
    (hc : m.engine.narrative.chapter ≤ Json.countLimit)
    (hp : m.engine.narrative.part ≤ Json.countLimit) : m.Regular := by
  refine ⟨h.toSourced.congr hset, ?_, ?_, hc, hp⟩
  · rw [hg, shelf_eq_of_setting hset]
    exact h.graph
  · rw [config_eq_of_setting hset]
    exact hs

theorem Regular.congr (h : w.Regular) (hset : m.setting = w.setting)
    (hg : m.engine.graph = w.engine.graph)
    (hs : m.engine.narrative.story = w.engine.narrative.story)
    (hc : m.engine.narrative.chapter = w.engine.narrative.chapter)
    (hp : m.engine.narrative.part = w.engine.narrative.part) : m.Regular :=
  h.of_story hset hg (hs ▸ h.story) (hc ▸ h.chapter) (hp ▸ h.part)

/-- A script from the shelf may be taken in place of the one that is walked. -/
theorem Regular.of_graph {id : ScriptId} {d : Document} (h : w.Regular)
    (hd : w.shelf id = .ok d) (hset : m.setting = w.setting)
    (hg : m.engine.graph = some (.ofDocument d))
    (hs : m.engine.narrative.story = w.engine.narrative.story)
    (hc : m.engine.narrative.chapter ≤ Json.countLimit)
    (hp : m.engine.narrative.part ≤ Json.countLimit) : m.Regular := by
  refine ⟨h.toSourced.congr hset, fun graph hgraph => ?_, ?_, hc, hp⟩
  · rw [hg] at hgraph
    cases hgraph
    exact ⟨id, d, by rw [shelf_eq_of_setting hset, hd], rfl⟩
  · rw [hs, config_eq_of_setting hset]
    exact h.story

theorem Regular.under (h : w.Regular) (p : Patience) : (w.under p).Regular :=
  h.congr rfl rfl rfl rfl rfl

theorem Inside.regular {n : Node} (h : w.Inside n m) (hw : w.Regular)
    (hn : n.sender.Regular) : m.Regular := by
  have hc : m.engine.narrative.chapter = w.engine.narrative.chapter :=
    congrArg Bearing.chapter h.bearing
  have hp : m.engine.narrative.part = w.engine.narrative.part := congrArg Bearing.part h.bearing
  exact hw.of_story h.setting h.graph (h.story.regular hn hw.story) (hc ▸ hw.chapter)
    (hp ▸ hw.part)

theorem Lull.regular (h : w.Lull m) (hw : w.Regular) : m.Regular :=
  hw.congr h.setting h.graph h.story (congrArg Bearing.chapter h.bearing)
    (congrArg Bearing.part h.bearing)

theorem Regular.emit (h : w.Regular) (e : Event) : (w.emit e).Regular :=
  (Lull.emit w e).regular h

theorem Regular.put (h : w.Regular) (key text : String) : (w.put key text).Regular :=
  h.congr (w.setting_put key text) (by rw [engine_put]) (by rw [engine_put]) (by rw [engine_put])
    (by rw [engine_put])

theorem Regular.saved (h : w.Regular) : w.saved.Regular := h.put _ _

/-- Who plays is no matter of the story. -/
theorem Regular.named (h : w.Regular) (name : String) : (w.named name).Regular := by
  refine h.congr (w.setting_tell _) (w.graph_tell _) ?_ ?_ ?_
  · rw [World.named, narrative_tell]
    rfl
  · rw [World.named, narrative_tell]
  · rw [World.named, narrative_tell]

theorem Regular.settled (h : w.Regular) : w.settled.Regular :=
  h.congr w.setting_settled w.graph_settled w.story_settled
    (congrArg Bearing.chapter w.bearing_settled) (congrArg Bearing.part w.bearing_settled)

theorem Regular.ready (h : w.Regular) (force : Bool) : (w.ready force).Regular :=
  h.congr (w.setting_ready force) (w.graph_ready force) (w.story_ready force)
    (congrArg Bearing.chapter (w.atRest_ready force))
    (congrArg Bearing.part (w.atRest_ready force))

/-- The nodes of the script that is walked are those of a document. -/
theorem Regular.node {id : String} {n : Node} (h : w.Regular) (hn : w.findNode? id = some n) :
    n.Regular := by
  obtain ⟨graph, hg, hfind⟩ := Option.bind_eq_some_iff.1 hn
  obtain ⟨id', d, hd, rfl⟩ := h.graph graph hg
  exact (h.given id' d hd).regular n (Graph.mem_of_find? hfind).1

/-- The record of a regular world can be read back, as far as it does not hold values and
points in time. -/
theorem Regular.snapshot (h : w.Regular) : w.engine.narrative.snapshot.Regular := by
  refine ⟨fun m hm => ?_, h.chapter, h.part⟩
  exact h.story.senders m.utterance (List.mem_map_of_mem hm)

end World

namespace Act

open World

/-! ## Walks -/

theorem visited_regular {g w : World} {id : String} {stops : List World} {out : Outcome Visit}
    (hw : w.Regular) (hv : Visited w id stops out) :
    (∀ m ∈ stops, m.Regular) ∧ Ends (fun _ _ w' => w'.Regular) g out := by
  have hat : (w.at id).Regular :=
    hw.of_story rfl rfl (hw.story.goTo (some id)) hw.chapter hw.part
  -- a regular node leads to a part in range, or leaves the part as it is
  have hleave {n : Node} (hn : w.findNode? id = some n) : (w.leaving n.nextPart).Regular := by
    refine hw.of_story rfl rfl (hw.story.goTo none) hw.chapter ?_
    cases hp : n.nextPart with
    | none => exact hw.part
    | some part => exact (hw.node hn).nextPart part hp
  cases hv with
  | missing hn => exact ⟨List.forall_mem_nil _, hw⟩
  | @offered n hn hk =>
    have hoffer : ((w.at id).tell (·.present (optionsOf (w.at id) n))).Regular :=
      hat.congr rfl rfl rfl rfl rfl
    exact ⟨List.forall_mem_nil _, hoffer.emit _⟩
  | @told n stops m hn hc he hp hs hm =>
    have inside : ∀ s ∈ stops, s.Regular := fun s hs' => (hs s hs').regular hat (hw.node hn).sender
    exact ⟨inside, (inside m (List.mem_of_getLast? hm)).saved⟩
  | crossed hn hc he ht hp hs =>
    exact ⟨fun s hs' => (hs s hs').regular hat (hw.node hn).sender, Stop.noConfusion⟩
  | ended hn hk hp =>
    have h := hleave hn
    rw [hp] at h
    exact ⟨List.forall_mem_singleton.2 h, h.saved.emit _⟩
  | lost hn hk hp hs =>
    have h := hleave hn
    rw [hp] at h
    exact ⟨List.forall_mem_cons.2 ⟨h, List.forall_mem_singleton.2 h⟩, h.saved.emit _⟩
  | @turned n part d hn hk hp hs =>
    have h := hleave hn
    rw [hp] at h
    have hturn : ((w.leaving (some part)).turning (.ofDocument d)).Regular :=
      h.of_graph hs rfl rfl rfl h.chapter h.part
    exact ⟨List.forall_mem_cons.2 ⟨h, List.forall_mem_singleton.2 hturn⟩, hturn.saved.emit _⟩

theorem advance_regular {g w : World} {id : String} {force : Bool} (hw : w.Regular) :
    Passes (fun _ m => m.Regular) (Act.advance id force) g w fun _ _ w' => w'.Regular := by
  have step (g w : World) (id : String) (stops : List World) (out : Outcome Visit)
      (h : w.Regular) (hv : Visited w id stops out) :
      ∃ last, Legs (fun _ m => m.Regular) g stops last ∧
        Ends (After (fun _ _ w' => w'.Regular) fun _ w _ => w.Regular) last out := by
    obtain ⟨hs, ho⟩ := visited_regular (g := g) h hv
    exact ⟨_, .of_forall g hs, ho.imp fun _ _ hw' => .const hw'⟩
  refine .advance (fun g m hm => ⟨hm.settled, hm.settled⟩) (fun _ _ => hw)
    (.walk step _ id (hw.ready force)) fun halt g w h => ?_
  exact ⟨h.settled.emit _, h.settled.emit _⟩

/-! ## Operations -/

theorem called_regular {w : World} (hw : w.Regular) : w.called.Regular := by
  unfold World.called
  split <;> exact hw.congr rfl rfl rfl rfl rfl

/-- A record is regular because it was read, and what is restored suits the schema. -/
theorem recalled_regular {w : World} {p : Progress} (hw : w.Regular) (hk : w.kept? = some p) :
    (w.recalled p).Regular := by
  obtain ⟨text, -, hparse⟩ := World.exists_text_of_kept? hk
  have hp : p.Regular := Progress.regular_of_parse hparse
  have hstory : (w.recalled p).engine.narrative.story.Regular w.engine.config.schema := by
    refine ⟨fun u hu => ?_, hw.story.vars.restore hw.built p.vars⟩
    obtain ⟨m, hm, rfl⟩ := List.mem_map.1 hu
    exact hp.senders m hm
  exact hw.of_story rfl rfl hstory hp.chapter hp.part

theorem chosen_regular {w : World} {c : Choice} (hw : w.Regular) : (w.chosen c).Regular := by
  have hsaid : (w.engine.narrative.story.say
      ⟨w.playerIds w.place, .player, .text, c.text⟩).Regular w.engine.config.schema :=
    hw.story.say rfl
  refine hw.of_story (w.setting_chosen c) (w.graph_chosen c) ?_ ?_ ?_
  · rw [w.story_chosen c]
    exact ⟨hsaid.senders, hw.story.vars.applyImpact c.impact⟩
  · exact le_of_eq_of_le (congrArg Bearing.chapter (w.atRest_chosen c)) hw.chapter
  · exact le_of_eq_of_le (congrArg Bearing.part (w.atRest_chosen c)) hw.part

theorem Prelude.regular {w v : World} {op : Operation} {stops : List World} {on : Onward}
    (hw : w.Regular) (hop : op.InRange) (h : Prelude w op stops v on) :
    (∀ m ∈ stops, m.Regular) ∧ v.Regular := by
  have here : ∀ m ∈ [w], m.Regular := List.forall_mem_singleton.2 hw
  -- an option that is not diverted
  have goOn (c : Choice) : ((w.chosen c).tell (·.goTo c.next)).Regular := by
    have hc := chosen_regular (c := c) hw
    exact hc.of_story rfl rfl (hc.story.goTo c.next) hc.chapter hc.part
  cases h with
  | busy | nonePending | busyPending | advance | refused =>
    exact ⟨List.forall_mem_nil _, hw⟩
  | begunPending | rest => exact ⟨List.forall_mem_nil _, hw.congr rfl rfl rfl rfl rfl⟩
  | lostPart | lostNamed | lostStart | lostResume => exact ⟨here, hw⟩
  | loadedPart hs | loadedNamed hs =>
    exact ⟨here, hw.of_graph hs rfl rfl rfl hw.chapter hw.part⟩
  | started hb hs | resumed hb hs => exact ⟨here, hw.of_graph hs rfl rfl rfl hop.1 hop.2⟩
  | unread hb hk =>
    have hc := called_regular hw
    exact ⟨List.forall_mem_cons.2 ⟨hw, List.forall_mem_singleton.2 hc⟩,
      hc.congr rfl rfl rfl rfl rfl⟩
  | lostRecord hb hk hs =>
    have hc := called_regular hw
    have hr := recalled_regular hc hk
    exact ⟨List.forall_mem_cons.2 ⟨hw, List.forall_mem_cons.2 ⟨hc,
      List.forall_mem_singleton.2 hr⟩⟩, hr⟩
  | @recalled p d hb hk hs =>
    have hc := called_regular hw
    have hr := recalled_regular hc hk
    refine ⟨List.forall_mem_cons.2 ⟨hw, List.forall_mem_cons.2 ⟨hc,
      List.forall_mem_singleton.2 hr⟩⟩, ?_⟩
    have hshelf : (w.called.recalled p).shelf p.script = .ok d := by
      rw [World.shelf_recalled, World.shelf_called, hs]
    unfold Progress.script at hshelf ⊢
    cases ha : p.activeScript with
    | none =>
      rw [ha] at hshelf
      exact hr.of_graph hshelf rfl rfl rfl hr.chapter hr.part
    | some name =>
      rw [ha] at hshelf
      exact hr.of_graph hshelf rfl rfl rfl hr.chapter hr.part
  | @accepted index c hv hc hn => exact ⟨List.forall_mem_singleton.2 (goOn c), (goOn c).saved⟩
  | @undiverted index c name fault hv hc hn hs =>
    exact ⟨List.forall_mem_cons.2 ⟨chosen_regular hw, List.forall_mem_singleton.2 (goOn c)⟩,
      (goOn c).saved⟩
  | @diverted index c name d hv hc hn hs =>
    have hchosen := chosen_regular (c := c) hw
    rw [← World.shelf_chosen w c] at hs
    have hd : ((w.chosen c).diverted name (.ofDocument d)).Regular :=
      hchosen.of_graph hs rfl rfl rfl hchosen.chapter hchosen.part
    have hat : (((w.chosen c).diverted name (.ofDocument d)).at
        ((w.chosen c).diverted name (.ofDocument d)).entrance).Regular :=
      hd.of_story rfl rfl (hd.story.goTo (some _)) hd.chapter hd.part
    exact ⟨List.forall_mem_cons.2 ⟨hchosen, List.forall_mem_singleton.2 hat⟩, hat.saved⟩
  | resetGame =>
    have hone : 1 ≤ Json.countLimit := by decide
    have hc : w.cleared.Regular :=
      ⟨hw.toSourced.congr rfl, nofun, ⟨List.forall_mem_nil _, hw.story.vars.reset hw.built⟩,
        hone, hone⟩
    exact ⟨List.forall_mem_cons.2 ⟨hc, List.forall_mem_singleton.2 (hc.congr rfl rfl rfl rfl rfl)⟩,
      hc.congr rfl rfl rfl rfl rfl⟩
  | @setPlayerName name =>
    have hnamed : (w.named name).Regular := hw.named name
    exact ⟨List.forall_mem_singleton.2 hnamed, hnamed.put _ _⟩

/-- The step lemma: no operation, however far it comes, makes a conversation that cannot
be kept. -/
theorem operation_regular {g w : World} {op : Operation} (hw : w.Regular) (hop : op.InRange) :
    Passes (fun _ m => m.Regular) op.run g w fun _ _ w' => w'.Regular := by
  refine .operation fun stops v on h => ?_
  obtain ⟨hs, hv⟩ := Prelude.regular hw hop h
  exact ⟨_, .of_forall g hs, .onward (fun _ _ => hv) fun id force _ => advance_regular hv⟩

end Act

/-- A fresh engine is regular. -/
theorem World.Sourced.regular_of_fresh {w : World} {config : Config} {interrupts : List Interrupt}
    {listening audible : Bool} (hw : w.Sourced)
    (he : w.engine = .fresh config interrupts listening audible) : w.Regular := by
  have hone : 1 ≤ Json.countLimit := by decide
  refine ⟨hw, fun graph hg => ?_, ?_, ?_, ?_⟩
  · rw [he] at hg
    cases hg
  · have hb := hw.built
    rw [he] at hb ⊢
    exact ⟨List.forall_mem_nil _, Variables.suits_ofSchema hb⟩
  · rw [he]
    exact hone
  · rw [he]
    exact hone

/-- What can be reached over scripts from documents, with a schema that was built up, is
regular. -/
theorem World.Reached.regular {w : World} (h : w.Reached) (hw : w.Sourced) : w.Regular := by
  induction h with
  | fresh he => exact hw.regular_of_fresh he
  | @step w w' op _ hop hl ih =>
    -- an operation leaves the shelf and the schema as they were
    exact (Act.operation_regular (g := w) (ih (hw.congr hl.setting.symm)) hop).leaves
      (fun _ p hm => hm.under p) hl

end StoryChat
