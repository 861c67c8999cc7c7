/-
Variables stay typed, whatever is told, saved or written from outside.

What may be written to a variable at a time lies in the script that is walked, in the
options that are offered and in the slots. Scripts and slots are read from documents, and
documents state no no-number; options are those of a node. So it is an invariant of the
scene (`Sound`), kept by every step (`Step.sound`) and every opening (`Opens.sound`),
that none of them holds any and that the variables are typed (`Variables.Typed`).
-/
import StoryChat.Proofs.Engine.Opening
import StoryChat.Proofs.Narrative.Stated
import StoryChat.Proofs.Script.Closed

set_option autoImplicit false

namespace StoryChat

namespace Variables

variable {v : Variables} {s : Schema}

/-- What actions write leaves the variables typed. -/
theorem Typed.acts {as : List Action} (h : v.Typed s) (hp : ∀ a ∈ as, a.Proper) :
    (as.foldl Variables.act v).Typed s := by
  induction as generalizing v with
  | nil => exact h
  | cons a as ih =>
    obtain ⟨ha, has⟩ := List.forall_mem_cons.1 hp
    refine ih ?_ has
    cases a with
    | set name value => exact h.set name ha
    | setOnline | setBlocked | unknown => exact h

end Variables

/-! ## The invariant -/

namespace Scene

variable {s t : Scene}

/-- Whether the variables are typed, and nothing is at hand that could change that. -/
structure Sound (s : Scene) : Prop where
  schema : s.setting.config.schema.Proper
  shelf : ∀ id d, s.setting.shelf id = .ok d → ∀ n ∈ d.nodes, n.Proper
  nodes : ∀ id n, s.findNode? id = some n → n.Proper
  choices : ∀ c ∈ s.choices, c.impact.Proper
  vars : s.vars.Typed s.setting.config.schema

/-- What is shown, told and said makes no difference. -/
theorem Sound.congr (h : s.Sound) (hs : t.setting = s.setting) (hg : t.graph = s.graph)
    (hc : t.choices = s.choices) (hv : t.vars = s.vars) : t.Sound where
  schema := by
    rw [hs]
    exact h.schema
  shelf := by
    rw [hs]
    exact h.shelf
  nodes := by
    unfold findNode?
    rw [hg]
    exact h.nodes
  choices := by
    rw [hc]
    exact h.choices
  vars := by
    rw [hs, hv]
    exact h.vars

/-- A script from the shelf may be taken. -/
theorem Sound.install {id : ScriptId} {d : Document} (h : s.Sound)
    (hd : s.setting.shelf id = .ok d) : (s.install (.ofDocument d)).Sound :=
  { h with nodes := fun _ _ hn => h.shelf id d hd _ (Graph.mem_of_find? hn).1 }

theorem Sound.ready (h : s.Sound) (force : Bool) : (s.ready force).Sound := by
  cases force with
  | false => exact h.congr rfl rfl rfl rfl
  | true =>
    have hcleared : ({ s with choices := [] } : Scene).Sound :=
      { h with choices := List.forall_mem_nil _ }
    exact hcleared.congr rfl rfl rfl rfl

/-- The step lemma. -/
theorem Step.sound {calm : Prop} (h : Step calm s t) (hs : s.Sound) : t.Sound := by
  cases h with
  | write | startReading | read | hide | endPart => exact hs.congr rfl rfl rfl rfl
  | say =>
    unfold Scene.say
    split <;> exact hs.congr rfl rfl rfl rfl
  | @act id n hn =>
    exact { hs with vars := hs.vars.acts (hs.nodes id n hn).actions }
  | @offer id n choices hn himpact =>
    refine ⟨hs.schema, hs.shelf, hs.nodes, fun c hc => ?_, hs.vars⟩
    -- the options are personalized, which leaves what they add alone
    have hmem : c.impact ∈ n.choices.map Choice.impact := himpact ▸ List.mem_map_of_mem hc
    obtain ⟨c', hc', heq⟩ := List.mem_map.1 hmem
    exact heq ▸ (hs.nodes id n hn).choices c' hc'
  | load hd => exact hs.install hd

end Scene

/-- The openings keep it too: they take an option that is offered, or a record that was read. -/
theorem Opens.sound {op : Operation} {w : World} {s : Scene} (h : Opens op w s)
    (hw : w.scene.Sound) : s.Sound := by
  induction h with
  | still => exact hw
  | @take c hc =>
    have himpact : c.impact.Proper := hw.choices c (Operation.mem_of_taken? hc)
    exact ⟨hw.schema, hw.shelf, hw.nodes, List.forall_mem_nil _, hw.vars.applyImpact himpact⟩
  | restore _ hp =>
    exact { hw with vars := hw.vars.restore hw.schema (Progress.values_proper hp) }
  | rest => exact { hw with choices := List.forall_mem_nil _ }
  | clear =>
    exact ⟨hw.schema, hw.shelf, nofun, List.forall_mem_nil _, hw.vars.reset hw.schema⟩
  | @install s id d hs hd ih =>
    have hshelf : s.setting.shelf id = .ok d := by
      rw [hs.setting]
      exact hd
    exact ih.install hshelf

/-! ## Runs -/

/-- The worlds of a run from a fresh engine on, over scripts from documents. Operations are
done to their end or left at any suspension point; between them variables may be updated,
records may be restored, and anything else may change but the engine: the slots may hold
any text, and there may be other scripts. -/
inductive World.Updated : World → Prop where
  | fresh {w : World} {config : Config} {interrupts : List Interrupt}
      {listening audible : Bool} :
      w.engine = .fresh config interrupts listening audible → config.schema.Proper →
      (∀ id d, w.shelf id = .ok d → d.Given) → Updated w
  | step {w w' : World} {op : Operation} : Updated w → Act.Leaves op.run w w' → Updated w'
  | update {w : World} {name : String} {value : Value} : Updated w → value.Proper →
      Updated (w.tell fun n => { n with vars := n.vars.set name value })
  | restore {w : World} {text : String} {p : Progress} : Updated w →
      Progress.parse text = .ok p → Updated (w.tell (·.restore p))
  | aside {w m : World} : Updated w → m.engine = w.engine →
      (∀ id d, m.shelf id = .ok d → d.Given) → Updated m

theorem World.Updated.sound {w : World} (h : w.Updated) : w.scene.Sound := by
  induction h with
  | @fresh w config interrupts listening audible hw hschema hgiven =>
    obtain ⟨engine, shelf⟩ := w
    cases hw
    exact ⟨hschema, fun id d hd => (hgiven id d hd).proper, nofun, List.forall_mem_nil _,
      Variables.typed_ofSchema hschema⟩
  | step _ hl ih =>
    obtain ⟨out, hout, rfl⟩ := hl.performs False nofun
    exact hout.keeps (fun s hs => hs.sound ih) (fun s force hs => hs.ready force)
      (fun s t hs hstep => hstep.sound hs) (fun s hs => hs.congr rfl rfl rfl rfl)
      fun s halt hs => hs.congr rfl rfl rfl rfl
  | update _ hp ih => exact { ih with vars := ih.vars.set _ hp }
  | restore _ hp ih =>
    exact { ih with vars := ih.vars.restore ih.schema (Progress.values_proper hp) }
  | @aside w m _ he hgiven ih =>
    obtain ⟨engine, shelf⟩ := m
    cases he
    exact { ih with shelf := fun id d hd => (hgiven id d hd).proper }

/-- In such a run (`World.Updated`) there is a value for each declared name and for no other:
a number for a meter, from 0 to 100, a number for a counter and a truth value for a flag. -/
theorem World.Updated.keeps_typed {w : World} (h : w.Updated) :
    (∀ name, (w.engine.narrative.vars.get? name).isSome ↔
      ∃ d ∈ w.engine.config.schema.declarations, d.name = name) ∧
    ∀ d ∈ w.engine.config.schema.declarations, ∃ value,
      w.engine.narrative.vars.get? d.name = some value ∧ value.OfKind d.kind ∧
        (d.kind = .meter → value.Proper) := by
  have hbuilt : w.engine.config.schema.Built := h.sound.schema.built
  have htyped : w.engine.narrative.vars.Typed w.engine.config.schema := h.sound.vars
  refine ⟨fun name => ⟨fun hsome => ?_, ?_⟩, fun d hd => ?_⟩
  · obtain ⟨value, hvalue⟩ := Option.isSome_iff_exists.1 hsome
    obtain ⟨d, hd, -⟩ := htyped.ofKind name value hvalue
    exact ⟨d, Schema.mem_of_find? hd⟩
  · rintro ⟨d, hd, rfl⟩
    exact htyped.full d.name d (hbuilt.find?_name hd)
  · have hfind := hbuilt.find?_name hd
    obtain ⟨value, hvalue⟩ := Option.isSome_iff_exists.1 (htyped.full d.name d hfind)
    obtain ⟨d', hd', hkind⟩ := htyped.ofKind d.name value hvalue
    cases hfind.symm.trans hd'
    refine ⟨value, hvalue, hkind, fun hmeter => ?_⟩
    rw [hmeter] at hkind
    cases value with
    | number x => exact isNaN_of_finite (isFinite_of_range hkind)
    | bool | text => trivial

/-! ### A meter that is pushed beyond its ends -/

/-- A script that sets a meter too high and offers to take too much off it. -/
def Document.unsettling : Document :=
  ⟨none, [
    { Node.message "start" (.npc "Ana") "Boo" with
      actions := [.set "tension" (.number 250)], next := some "ask" },
    { Node.message "ask" .player "" with
      kind := .choice, choices := [⟨"Very funny", none, Table.empty.insert "tension" (-130)⟩] }]⟩

/-- A fresh engine over that script. -/
def World.unsettling : World := .opening fun _ => .ok .unsettling

/-- The world in which the player is asked. -/
def World.unsettled : World :=
  Act.Outcome.left (Operation.run (.startChapter 1 1) (World.unsettling.under .endless))

/-- The world in which the player has chosen. -/
def World.calmed : World :=
  Act.Outcome.left (Operation.run (.choose 0) (World.unsettled.under .endless))

theorem World.Updated.keeps_typed_unsettling : World.calmed.Updated ∧
    World.unsettled.engine.narrative.vars.get? "tension" = some (.number 100) ∧
    World.calmed.engine.narrative.vars.get? "tension" = some (.number 0) ∧
    ∃ value, World.calmed.engine.narrative.vars.get? "tension" = some value ∧
      value.OfKind .meter := by
  have hgiven : Document.unsettling.Given := ⟨Document.unsettling.toJson, by decide +kernel⟩
  have hschema : Schema.standard.Proper := by
    refine ⟨_, ?_, rfl⟩
    simp only [List.forall_mem_cons]
    exact ⟨.meter _ (by decide), .meter _ (by decide), .meter _ (by decide), .flag _ _,
      .counter _ _, List.forall_mem_nil _⟩
  have hstart : Operation.run (.startChapter 1 1) (World.unsettling.under .endless) =
      .ok (some (.halted .awaitingChoice)) World.unsettled :=
    Act.eq_ok_of_result (by decide +kernel)
  have hchoose : Operation.run (.choose 0) (World.unsettled.under .endless) =
      .ok none World.calmed := Act.eq_ok_of_result (by decide +kernel)
  have hupdated : World.calmed.Updated := by
    refine .step (.step (.fresh rfl hschema fun id d hd => ?_) (.ended hstart)) (.ended hchoose)
    cases hd
    exact hgiven
  have hmem : Declaration.meter "tension" 0 ∈ World.calmed.engine.config.schema.declarations := by
    decide +kernel
  obtain ⟨value, hvalue, hkind, -⟩ := (World.Updated.keeps_typed hupdated).2 _ hmem
  exact ⟨hupdated, by decide +kernel, by decide +kernel, value, hvalue, hkind⟩

end StoryChat
