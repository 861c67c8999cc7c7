/-
The options offered are those of the node the story is at.

Whether the player is asked, what is offered, the position and the script are four
things that are set apart from each other. A walk (`Act.walk`) sets them together:
it stops at a choice only by offering that node's options (`Act.offer`), and as
long as it goes on nothing is offered. So they agree (`Agrees`) as long as nobody
goes on without an answer. What breaks the agreement is an operation that replaces
the script or walks elsewhere while the player is still asked; only a choice, a
forced walk and the two resets take back what was offered (`Operation.Clears`). It
does not stay broken: behind one of these four they agree again, and so they do
where a walk halts at a choice.
-/
import StoryChat.Proofs.Engine.Operation

set_option autoImplicit false

namespace StoryChat

/-! ## Agreement -/

/-- What picking an option does, apart from its text. -/
def Choice.effect (c : Choice) : Option String × Table Float := (c.next, c.impact)

namespace World

/-- The options offered are those of the node that the story is at, one by one. -/
def OffersHere (w : World) : Prop :=
  ∃ id n, w.engine.narrative.currentNode = some id ∧ w.findNode? id = some n ∧
    n.kind = .choice ∧
    w.engine.narrative.flags.choices.map Choice.effect = n.choices.map Choice.effect

/-- Whenever the player is asked, it is for the options of the node that the story is
at. -/
def Agrees (w : World) : Prop := w.waits = true → w.OffersHere

/-- What is offered where does not depend on anything but the options, the position and the
script. -/
theorem OffersHere.congr {w m : World} (hg : m.engine.graph = w.engine.graph)
    (hs : m.engine.narrative.currentNode = w.engine.narrative.currentNode)
    (hc : m.engine.narrative.flags.choices = w.engine.narrative.flags.choices)
    (h : w.OffersHere) : m.OffersHere := by
  obtain ⟨id, n, hid, hn, hk, hcs⟩ := h
  refine ⟨id, n, hs.trans hid, ?_, hk, by rw [hc, hcs]⟩
  rw [← hn, findNode?, findNode?, hg]

/-- Agreement does not look at anything but what is asked, the position and the script. -/
theorem Agrees.congr {w m : World} (hg : m.engine.graph = w.engine.graph)
    (hs : m.engine.narrative.currentNode = w.engine.narrative.currentNode)
    (hf : m.waits = w.waits)
    (hc : m.engine.narrative.flags.choices = w.engine.narrative.flags.choices)
    (h : w.Agrees) : m.Agrees := by
  intro hm
  rw [hf] at hm
  exact (h hm).congr hg hs hc

theorem Agrees.of_not_waits {w : World} (h : w.waits = false) : w.Agrees := by
  intro hw
  rw [h] at hw
  cases hw

theorem OffersHere.settled {w : World} (h : w.OffersHere) : w.settled.OffersHere :=
  h.congr w.graph_settled w.currentNode_settled w.choices_settled

theorem OffersHere.emit {w : World} (h : w.OffersHere) (e : Event) : (w.emit e).OffersHere := by
  have he : (w.emit e).engine = w.engine := engine_emit w e
  exact h.congr (by rw [he]) (by rw [he]) (by rw [he])

theorem Agrees.settled {w : World} (h : w.Agrees) : w.settled.Agrees :=
  h.congr w.graph_settled w.currentNode_settled w.waits_settled w.choices_settled

theorem Agrees.emit {w : World} (h : w.Agrees) (e : Event) : (w.emit e).Agrees := by
  have he : (w.emit e).engine = w.engine := engine_emit w e
  exact h.congr (by rw [he]) (by rw [he]) (by simp) (by rw [he])

end World

namespace Act

/-! ## Walks -/

/-- What a walk leaves of the options: they agree with the position, and there are none
unless it stopped to ask. -/
def HaltsAgreeing (halt : Halt) (w : World) : Prop :=
  w.Agrees ∧ (halt ≠ .awaitingChoice → w.waits = false)

theorem HaltsAgreeing.of_not_waits {halt : Halt} {w : World} (h : w.waits = false) :
    HaltsAgreeing halt w := ⟨.of_not_waits h, fun _ => h⟩

/-- To offer the options of a node is to offer them where that node is the position. -/
theorem offersHere_offering {w : World} {id : String} {n : Node} (hn : w.findNode? id = some n)
    (hk : n.kind = .choice) : ((w.at id).offering n).OffersHere := by
  refine ⟨id, n, ?_, ?_, hk, ?_⟩
  · rw [World.offering, World.engine_emit]
    rfl
  · rw [World.offering, World.findNode?, World.engine_emit]
    exact hn
  · rw [World.offering, World.engine_emit, World.narrative_tell, Narrative.present, optionsOf,
      List.map_map]
    rfl

/-- A visit halts at a choice only by offering the options of its node, whatever was offered
before. -/
theorem visited_offersHere {g w : World} {id : String} {stops : List World} {out : Outcome Visit}
    (hv : Visited w id stops out) : ∃ last, Legs (fun _ _ => True) g stops last ∧
      Ends (After (fun halt _ w => halt = .awaitingChoice → w.OffersHere) fun _ _ _ => True)
        last out := by
  refine ⟨_, .of_forall (P := fun _ => True) g fun _ _ => trivial, ?_⟩
  cases hv with
  | offered hn hk => exact fun _ => offersHere_offering hn hk
  | told => exact After.ofNext nofun fun _ _ => trivial
  | crossed => exact Stop.noConfusion
  | missing | ended | lost | turned => exact nofun

/-- So does a walk that is asked for. -/
theorem advance_offersHere {g w : World} {id : String} {force : Bool} :
    Passes (fun _ _ => True) (Act.advance id force) g w fun walked _ w' =>
      walked = .halted .awaitingChoice → w'.OffersHere := by
  refine .advance (fun _ _ _ => ⟨trivial, trivial⟩) (fun _ _ => nofun)
    (.walk (fun g w id stops out _ hv => visited_offersHere hv) _ id trivial) fun halt g w h => ?_
  have hdone : Walked.halted halt = .halted .awaitingChoice →
      (w.settled.emit (.halted halt)).OffersHere := fun he =>
    (h (Walked.halted.inj he)).settled.emit _
  exact ⟨hdone, hdone⟩

/-- A visit that begins without a question asks one only by offering the options of its
node. -/
theorem visited_agrees {g w : World} {id : String} {stops : List World} {out : Outcome Visit}
    (hw : w.waits = false) (hv : Visited w id stops out) :
    ∃ last, Legs (fun _ m => m.waits = false) g stops last ∧
      Ends (After (fun halt _ => HaltsAgreeing halt) fun _ w _ => w.waits = false) last out := by
  cases hv with
  | missing => exact ⟨g, .arrived g, .of_not_waits hw⟩
  | offered hn hk =>
    exact ⟨g, .arrived g, fun _ => offersHere_offering hn hk, fun h => absurd rfl h⟩
  | @told n stops m hn hc he hp hs hm =>
    have inside {s : World} (h : (w.at id).Inside n s) : s.waits = false :=
      (World.waits_of_bearing h.bearing).trans hw
    have hmw : m.waits = false := inside (hs m (List.mem_of_getLast? hm))
    refine ⟨_, .of_forall g fun s hs' => inside (hs s hs'), ?_⟩
    exact After.ofNext (.of_not_waits hmw) fun _ _ => hmw
  | @crossed n stops w' hn hc he ht hp hs =>
    have inside {s : World} (h : (w.at id).Inside n s) : s.waits = false :=
      (World.waits_of_bearing h.bearing).trans hw
    exact ⟨_, .of_forall g fun s hs' => inside (hs s hs'), Stop.noConfusion⟩
  | ended hn hk hp =>
    exact ⟨_, .leg hw (.arrived _), .of_not_waits (by rwa [World.waits_emit])⟩
  | lost hn hk hp hs =>
    exact ⟨_, .leg hw (.leg hw (.arrived _)), .of_not_waits (by rwa [World.waits_emit])⟩
  | turned hn hk hp hs =>
    exact ⟨_, .leg hw (.leg hw (.arrived _)), .of_not_waits (by rwa [World.waits_emit])⟩

/-- A walk that is asked for while nothing is offered, or that takes back what is. -/
theorem advance_agrees {g w : World} {id : String} {force : Bool}
    (hw : w.waits = true → force = true) :
    Passes (fun _ m => m.waits = false) (Act.advance id force) g w fun walked _ w' =>
      w'.Agrees ∧ ∀ halt, walked = .halted halt → halt ≠ .awaitingChoice → w'.waits = false := by
  have hready : (w.ready force).waits = false := by
    cases force with
    | true => exact w.waits_ready_of_force
    | false => rw [World.waits_ready]; simpa using hw
  refine .advance (fun g m hm => ?_) (fun _ hf => ?_)
    (.walk (fun g w id stops out h hv => visited_agrees h hv) _ id hready) fun halt g w h => ?_
  · rw [World.waits_settled]
    exact ⟨hm, hm⟩
  · rw [hf] at hw
    exact ⟨.of_not_waits (by simpa using hw), nofun⟩
  · have hdone : (w.settled.emit (.halted halt)).Agrees ∧ ∀ halt', Walked.halted halt =
        .halted halt' → halt' ≠ .awaitingChoice →
          (w.settled.emit (.halted halt)).waits = false := by
      refine ⟨h.1.settled.emit _, fun halt' he hne => ?_⟩
      cases he
      rw [World.waits_emit, World.waits_settled]
      exact h.2 hne
    exact ⟨hdone, hdone⟩

/-! ## Operations -/

end Act

/-- Whether an operation deals with what is offered before it goes on: it is the choice
itself, or it takes the offer back. -/
def Operation.Attends : Operation → Bool
  | .choose _ | .rest | .resetGame => true
  | .advance _ force => force
  | _ => false

/-- Whether an operation takes back what is offered, wherever it comes from: it is a choice
that is not refused, a forced walk or one of the two resets. -/
def Operation.Clears (op : Operation) (w : World) : Prop :=
  match op with
  | .choose index => w.waits = true ∧ w.engine.narrative.flags.choices[index]? ≠ none
  | .advance _ force => force = true
  | .rest | .resetGame => True
  | _ => False

theorem Operation.Clears.attends {op : Operation} {w : World} (h : op.Clears w) :
    op.Attends = true := by
  cases op with
  | choose | rest | resetGame => rfl
  | advance id force => exact h
  | _ => exact h.elim

namespace Act

/-- An operation that deals with what is offered, or finds nothing offered, does not walk on
from an offer unless by force. -/
theorem Prelude.forced {w v : World} {op : Operation} {stops : List World} {on : Onward}
    {id : String} {force : Bool} (hw : w.waits = true → op.Attends = true)
    (h : Prelude w op stops v on) (he : on = .walk id force) (hv : v.waits = true) :
    force = true := by
  -- an operation that does not deal with it leaves what is asked as it was
  have unasked (hop : op.Attends = false) (hu : v.waits = w.waits) : force = true :=
    absurd ((hw (hu.symm.trans hv)).symm.trans hop) Bool.noConfusion
  cases h with
  | started | begunPending => exact unasked rfl rfl
  | resumed => exact unasked rfl (World.waits_opened _ _ _)
  | recalled => exact unasked rfl ((World.waits_opened _ _ _).trans w.waits_called)
  | advance =>
    cases he
    exact hw hv
  | accepted | undiverted => exact (Onward.of_to he).2
  | diverted =>
    cases he
    rfl
  | _ => cases he

/-- A prelude that deals with what is offered leaves nothing offered, or leaves the world
as it is. Only in the second case it matters whether the options agreed before. -/
theorem Prelude.agrees {w v : World} {op : Operation} {stops : List World} {on : Onward}
    (ha : op.Clears w ∨ w.Agrees) (hw : w.waits = true → op.Attends = true)
    (h : Prelude w op stops v on) :
    (∀ m ∈ stops, m.Agrees) ∧ ∀ walked, on = .stay walked → v.Agrees := by
  -- an operation that does not deal with it only happens where nothing is offered
  have quiet (hop : op.Attends = false) : w.waits = false := by
    cases hv : w.waits with
    | false => rfl
    | true => rw [hw hv] at hop; cases hop
  have before (hop : op.Attends = false) : w.Agrees := .of_not_waits (quiet hop)
  cases h with
  | busy hop hb =>
    have hw' : w.Agrees := before (by cases op <;> cases hop <;> rfl)
    exact ⟨List.forall_mem_nil _, fun _ _ => hw'⟩
  | lostPart | lostNamed | lostStart | lostResume =>
    exact ⟨List.forall_mem_singleton.2 (before rfl), fun _ _ => before rfl⟩
  | loadedPart | loadedNamed =>
    exact ⟨List.forall_mem_singleton.2 (before rfl), fun _ _ => .of_not_waits (quiet rfl)⟩
  | started => exact ⟨List.forall_mem_singleton.2 (before rfl), nofun⟩
  | resumed =>
    exact ⟨List.forall_mem_singleton.2 (before rfl), fun _ _ =>
      .of_not_waits ((World.waits_opened _ _ _).trans (quiet rfl))⟩
  -- the name and the record are taken from their slots before anything is opened
  | unread hb hk =>
    have hv : w.called.waits = false := w.waits_called.trans (quiet rfl)
    exact ⟨List.forall_mem_cons.2 ⟨before rfl, List.forall_mem_singleton.2 (.of_not_waits hv)⟩,
      fun _ _ => .of_not_waits hv⟩
  | @lostRecord p fault hb hk hs =>
    have hv : w.called.waits = false := w.waits_called.trans (quiet rfl)
    have hr : (w.called.recalled p).waits = false := hv
    exact ⟨List.forall_mem_cons.2 ⟨before rfl, List.forall_mem_cons.2 ⟨.of_not_waits hv,
      List.forall_mem_singleton.2 (.of_not_waits hr)⟩⟩, fun _ _ => .of_not_waits hr⟩
  | @recalled p d hb hk hs =>
    have hv : w.called.waits = false := w.waits_called.trans (quiet rfl)
    have hr : (w.called.recalled p).waits = false := hv
    have ho : ((w.called.recalled p).opened p.script (.ofDocument d)).waits = false :=
      (World.waits_opened _ _ _).trans hr
    exact ⟨List.forall_mem_cons.2 ⟨before rfl, List.forall_mem_cons.2 ⟨.of_not_waits hv,
      List.forall_mem_singleton.2 (.of_not_waits hr)⟩⟩, fun _ _ => .of_not_waits ho⟩
  | nonePending | busyPending => exact ⟨List.forall_mem_nil _, fun _ _ => before rfl⟩
  | begunPending | advance => exact ⟨List.forall_mem_nil _, nofun⟩
  | refused hr =>
    have hw' : w.Agrees := ha.resolve_left fun ⟨hv, hc⟩ => by
      rcases hr with hr | hr
      · exact Bool.false_ne_true (hr.symm.trans hv)
      · exact hc hr
    exact ⟨List.forall_mem_nil _, fun _ _ => hw'⟩
  -- a choice takes its question back first
  | accepted =>
    exact ⟨List.forall_mem_singleton.2 (.of_not_waits rfl), fun _ _ => .of_not_waits rfl⟩
  | undiverted | diverted | resetGame =>
    exact ⟨List.forall_mem_cons.2 ⟨.of_not_waits rfl, List.forall_mem_singleton.2
      (.of_not_waits rfl)⟩, fun _ _ => .of_not_waits rfl⟩
  | rest => exact ⟨List.forall_mem_nil _, fun _ _ => .of_not_waits rfl⟩
  | setPlayerName =>
    exact ⟨List.forall_mem_singleton.2 (.of_not_waits (quiet rfl)),
      fun _ _ => .of_not_waits (quiet rfl)⟩

/-- The step lemma: an operation that deals with what is offered, or finds nothing
offered, keeps the agreement in all its suspension points and at its end. If it takes back
what is offered, the options agree even if they did not before. -/
theorem operation_agrees {g w : World} {op : Operation} (ha : op.Clears w ∨ w.Agrees)
    (hw : w.waits = true → op.Attends = true) :
    Passes (fun _ m => m.Agrees) op.run g w fun _ _ w' => w'.Agrees := by
  refine .operation fun stops v on h => ?_
  obtain ⟨hs, hv⟩ := Prelude.agrees ha hw h
  refine ⟨_, .of_forall g hs, .onward hv fun id force he => ?_⟩
  exact (advance_agrees (Prelude.forced hw h he)).imp (fun _ _ hm => .of_not_waits hm)
    fun _ _ _ hw' => hw'.1

/-- Nothing is offered behind the walk of such an operation unless it stopped to ask,
whatever the options were before. -/
theorem operation_unasked {g w : World} {op : Operation}
    (hw : w.waits = true → op.Attends = true) :
    Passes (fun _ _ => True) op.run g w fun walked _ w' =>
      ∀ halt, walked = some (.halted halt) → halt ≠ .awaitingChoice → w'.waits = false := by
  refine .operation fun stops v on h => ?_
  refine ⟨_, .of_forall (P := fun _ => True) g fun _ _ => trivial, .onward ?_ ?_⟩
  · rintro walked rfl halt rfl
    exact absurd rfl h.ne_halted
  · intro id force he
    exact (advance_agrees (Prelude.forced hw h he)).imp (fun _ _ _ => trivial)
      fun _ _ _ hw' halt hh => hw'.2 halt (Option.some.inj hh)

theorem agrees_of_leaves {w w' : World} {op : Operation} (ha : op.Clears w ∨ w.Agrees)
    (hw : w.waits = true → op.Attends = true) (hl : Leaves op.run w w') : w'.Agrees :=
  (operation_agrees ha hw (g := w)).leaves (fun _ _ hm => hm) hl

/-- And whatever an operation finds offered, the options agree where it halts at a choice. -/
theorem operation_offersHere {g w : World} {op : Operation} :
    Passes (fun _ _ => True) op.run g w fun walked _ w' =>
      walked = some (.halted .awaitingChoice) → w'.OffersHere := by
  refine .operation fun stops v on h => ?_
  refine ⟨_, .of_forall (P := fun _ => True) g fun _ _ => trivial, .onward ?_ ?_⟩
  · rintro walked rfl rfl
    exact absurd rfl h.ne_halted
  · intro id force _
    exact advance_offersHere.imp (fun _ _ _ => trivial) fun _ _ _ hw' he => hw' (Option.some.inj he)

end Act

/-! ## Runs -/

/-- The worlds of a run in which whoever plays deals with what is offered: from a fresh
engine on, any operations, each done to its end or left at any suspension point. While
the player is asked, only an operation that deals with it is done, or one that leaves
the script, the position and what is going on as they were. Whatever else is done, such a
run begins anew as soon as an operation takes back what is offered, or its walk halts at a
choice. -/
inductive World.Attended : World → Prop where
  | fresh {w : World} {config : Config} {interrupts : List Interrupt}
      {listening audible : Bool} :
      w.engine = .fresh config interrupts listening audible → Attended w
  | step {w w' : World} {op : Operation} : Attended w → Act.Leaves op.run w w' →
      (w.waits = true → op.Attends = true ∨
        w'.engine.graph = w.engine.graph ∧
        w'.engine.narrative.currentNode = w.engine.narrative.currentNode ∧
        w'.engine.narrative.flags = w.engine.narrative.flags) → Attended w'
  | cleared {w w' : World} {op : Operation} : op.Clears w → Act.Leaves op.run w w' → Attended w'
  | asked {w w' : World} {op : Operation} :
      op.run (w.under .endless) = .ok (some (.halted .awaitingChoice)) w' → Attended w'

theorem World.Attended.agrees {w : World} (h : w.Attended) : w.Agrees := by
  induction h with
  | fresh he =>
    refine .of_not_waits ?_
    rw [waits, he]
    rfl
  | @step w w' op _ hl hw ih =>
    by_cases ha : w.waits = true → op.Attends = true
    · exact Act.agrees_of_leaves (.inr ih) ha hl
    · rw [Classical.not_imp] at ha
      obtain ⟨hg, hn, hf⟩ := (hw ha.1).resolve_left ha.2
      exact ih.congr hg hn (congrArg Flags.waiting hf) (congrArg Flags.choices hf)
  | cleared hop hl => exact Act.agrees_of_leaves (.inl hop) (fun _ => hop.attends) hl
  | @asked w w' op hrun =>
    obtain ⟨_, m, hm, rfl⟩ := (Act.operation_offersHere (g := w)).ended hrun
    exact fun _ => hm rfl

/-- In every world of such a run (`World.Attended`) the options offered are those of the
choice that the story is at (`OffersHere`). Of an operation whose walk halts for any other
reason nothing stays offered, wherever it is done, if it deals with what is offered or finds
nothing offered. -/
theorem World.Attended.no_stale_choices {w : World} (h : w.Attended) :
    (w.waits = true → w.OffersHere) ∧
      ∀ (v v' : World) (op : Operation) (halt : Halt), (v.waits = true → op.Attends = true) →
        op.run (v.under .endless) = .ok (some (.halted halt)) v' → halt ≠ .awaitingChoice →
        v'.waits = false := by
  refine ⟨h.agrees, fun v v' op halt hv he hne => ?_⟩
  obtain ⟨_, m, hend, rfl⟩ := (Act.operation_unasked hv (g := v)).ended he
  exact hend halt rfl hne

/-! ### A story that asks -/

/-- A script that asks at its entrance. -/
def Document.asking : Document :=
  ⟨none, [{ Node.message "start" .player "" with
    kind := .choice, choices := [⟨"Go on", some "next", .empty⟩] }]⟩

/-- A script that only tells something. -/
def Document.telling : Document := ⟨none, [.message "next" .player "Here I am"]⟩

/-- A story whose first part asks and whose others tell. -/
def Shelf.askingFirst : Shelf := fun id =>
  .ok (if id = .part 1 1 then .asking else .telling)

/-- The first part of the story stops to ask, and its option leads nowhere. -/
theorem run_asking : ∃ walked w v, Operation.run (.startChapter 1 1)
    ((World.opening .askingFirst).under .endless) = .ok walked w ∧ w.waits = true ∧
      Operation.run (.choose 0) (w.under .endless) =
        .ok (some (.halted (.missingNode "next"))) v :=
  ⟨_, _, _, rfl, by decide, rfl⟩

theorem World.Attended.no_stale_choices_asking : ∃ w v : World, w.Attended ∧ w.waits = true ∧
    w.OffersHere ∧ Operation.run (.choose 0) (w.under .endless) =
      .ok (some (.halted (.missingNode "next"))) v ∧ v.waits = false := by
  obtain ⟨walked, w, v, hrun, hw, hchoose⟩ := run_asking
  have h : w.Attended := .step (.fresh rfl) (.ended hrun) nofun
  obtain ⟨hoffers, hquiet⟩ := h.no_stale_choices
  exact ⟨w, v, h, hw, hoffers hw, hchoose, hquiet w v _ _ (fun _ => rfl) hchoose nofun⟩

/-- Where nobody deals with what is offered it does become stale: the options of one
part stay while another part's script is taken. -/
theorem World.not_agrees_of_reached : ¬ ∀ w : World, w.Reached → w.Agrees := by
  intro h
  have hrun : ∃ walked w walked' w', Operation.run (.startChapter 1 1)
      ((World.opening .askingFirst).under .endless) = .ok walked w ∧
      Operation.run (.loadPart 1 2) (w.under .endless) = .ok walked' w' ∧
      w'.waits = true ∧ w'.engine.narrative.currentNode = some "start" ∧
      w'.findNode? "start" = none :=
    ⟨_, _, _, _, rfl, rfl, by decide, by decide, by decide⟩
  obtain ⟨_, w, _, w', h₁, h₂, hwaits, hid, hfind⟩ := hrun
  have hstart : (Operation.startChapter 1 1).InRange := ⟨by decide, by decide⟩
  have hload : (Operation.loadPart 1 2).InRange := ⟨by decide, by decide⟩
  have hreached : w'.Reached := .step (.step (.fresh rfl) hstart (.ended h₁)) hload (.ended h₂)
  obtain ⟨id, n, hid', hn, -⟩ := h w' hreached hwaits
  rw [hid] at hid'
  cases hid'
  rw [hfind] at hn
  cases hn

end StoryChat
