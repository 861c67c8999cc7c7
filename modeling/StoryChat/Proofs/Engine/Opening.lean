/-
What an operation makes of the scene, from its beginning to its end.

Before an operation walks it opens (`Opens`): it leaves the scene alone, or it takes an
option that is offered, or it puts everything back to some state, and it may take another
script. How each operation opens is read off its `Prelude`. Behind that comes the walk,
in steps. So what holds of scenes is shown for the openings, for the steps and for the
two ends of a walk (`Performs`), and then it holds of every world that a player comes to.
-/
import StoryChat.Proofs.Engine.Staging

set_option autoImplicit false

namespace StoryChat

/-- The option that an operation takes in a world, if it takes one. -/
def Operation.taken? (op : Operation) (w : World) : Option Choice :=
  match op with
  | .choose index => if w.waits then w.engine.narrative.flags.choices[index]? else none
  | _ => none

theorem Operation.mem_of_taken? {op : Operation} {w : World} {c : Choice}
    (h : op.taken? w = some c) : c ∈ w.scene.choices := by
  cases op with
  | choose index =>
    rw [taken?] at h
    split at h
    · exact List.mem_of_getElem? h
    · cases h
  | _ => cases h

theorem Operation.taken?_of_isPolite {op : Operation} (w : World) (h : op.isPolite) :
    op.taken? w = none := by
  cases op with
  | choose index => cases h
  | _ => rfl

/-- Where nothing is asked, or not with that many options, nothing is taken. -/
theorem Operation.taken?_of_refused {w : World} {index : Nat}
    (h : w.engine.narrative.flags.waiting = false ∨
      w.engine.narrative.flags.choices[index]? = none) :
    (Operation.choose index).taken? w = none := by
  rcases h with hw | hc
  · exact if_neg (by rw [World.waits, hw]; exact Bool.false_ne_true)
  · rw [Operation.taken?, hc, ite_self]

namespace Scene

/-- The scene with what a record has. -/
def restore (s : Scene) (p : Progress) : Scene :=
  { s with vars := s.vars.restore p.vars, messages := p.messages }

/-- The scene with nothing going on. -/
def rest (s : Scene) : Scene :=
  { s with choices := [], processing := false, indicator := .idle }

/-- The scene with nothing left of the conversation and the script. -/
def clear (s : Scene) : Scene :=
  { s.rest with vars := s.vars.reset, messages := [], graph := none }

end Scene

/-- How an operation may open: all that it can make of the scene before it walks. -/
inductive Opens (op : Operation) (w : World) : Scene → Prop where
  | still : op.taken? w = none → Opens op w w.scene
  | take {c : Choice} : op.taken? w = some c → Opens op w (w.scene.choose c)
  | restore {text : String} {p : Progress} : op = .resumeSaved →
      Progress.parse text = .ok p → Opens op w (w.scene.restore p)
  | rest : op = .rest → Opens op w w.scene.rest
  | clear : op = .resetGame → Opens op w w.scene.clear
  | install {s : Scene} {id : ScriptId} {d : Document} : Opens op w s →
      w.shelf id = .ok d → Opens op w (s.install (.ofDocument d))

theorem Opens.setting {op : Operation} {w : World} {s : Scene} (h : Opens op w s) :
    s.setting = w.setting := by
  induction h with
  | install _ _ ih => exact ih
  | _ => rfl

/-! ## Preludes -/

section

variable {w : World}

/-- To take the name changes no scene. -/
theorem Opens.called (w : World) : Opens .resumeSaved w w.called.scene := by
  rw [World.scene_called]
  exact .still rfl

/-- A record in a slot was read from the text there. -/
theorem Opens.recalled {p : Progress} (hk : w.called.kept? = some p) :
    Opens .resumeSaved w (w.called.recalled p).scene := by
  obtain ⟨text, -, hp⟩ := World.exists_text_of_kept? hk
  rw [World.scene_recalled, World.scene_called]
  exact .restore rfl hp

theorem Opens.chosen {index : Nat} {c : Choice} (hw : w.waits = true)
    (hc : w.engine.narrative.flags.choices[index]? = some c) :
    Opens (.choose index) w (w.chosen c).scene := by
  rw [World.scene_chosen]
  exact .take ((if_pos hw).trans hc)

end

/-- Every prelude opens its operation, at each of its suspension points as well. -/
theorem Prelude.opens {w v : World} {op : Operation} {stops : List World} {on : Onward}
    (h : Prelude w op stops v on) :
    (∀ m ∈ stops, Opens op w m.scene) ∧ Opens op w v.scene := by
  cases h with
  | busy hop hb =>
    -- to choose is not refused while a walk is under way, so no option is taken
    exact ⟨List.forall_mem_nil _, .still (Operation.taken?_of_isPolite w hop)⟩
  | lostPart | lostNamed | lostStart | lostResume =>
    exact ⟨List.forall_mem_singleton.2 (.still rfl), .still rfl⟩
  | loadedPart hs | loadedNamed hs | started hb hs | resumed hb hs =>
    exact ⟨List.forall_mem_singleton.2 (.still rfl), .install (.still rfl) hs⟩
  | unread hb hk =>
    exact ⟨List.forall_mem_cons.2 ⟨.still rfl, List.forall_mem_singleton.2 (.called w)⟩,
      by rw [World.scene_asked]; exact .called w⟩
  | lostRecord hb hk hs =>
    exact ⟨List.forall_mem_cons.2 ⟨.still rfl, List.forall_mem_cons.2 ⟨.called w,
      List.forall_mem_singleton.2 (.recalled hk)⟩⟩, .recalled hk⟩
  | recalled hb hk hs =>
    refine ⟨List.forall_mem_cons.2 ⟨.still rfl, List.forall_mem_cons.2 ⟨.called w,
      List.forall_mem_singleton.2 (.recalled hk)⟩⟩, ?_⟩
    rw [World.scene_opened]
    exact .install (.recalled hk) hs
  | nonePending | busyPending | begunPending | advance =>
    exact ⟨List.forall_mem_nil _, .still rfl⟩
  | refused hr => exact ⟨List.forall_mem_nil _, .still (Operation.taken?_of_refused hr)⟩
  | @accepted index c hw hc hn =>
    have hgone : Opens (.choose index) w ((w.chosen c).tell (·.goTo c.next)).scene := by
      rw [World.scene_goTo]
      exact .chosen hw hc
    exact ⟨List.forall_mem_singleton.2 hgone, by rwa [World.scene_saved]⟩
  | @undiverted index c name fault hw hc hn hs =>
    have hgone : Opens (.choose index) w ((w.chosen c).tell (·.goTo c.next)).scene := by
      rw [World.scene_goTo]
      exact .chosen hw hc
    exact ⟨List.forall_mem_cons.2 ⟨.chosen hw hc, List.forall_mem_singleton.2 hgone⟩,
      by rwa [World.scene_saved]⟩
  | @diverted index c name d hw hc hn hs =>
    have hdiverted : Opens (.choose index) w (((w.chosen c).diverted name (.ofDocument d)).at
        ((w.chosen c).diverted name (.ofDocument d)).entrance).scene := by
      rw [World.scene_at, World.scene_diverted]
      exact .install (.chosen hw hc) hs
    exact ⟨List.forall_mem_cons.2 ⟨.chosen hw hc, List.forall_mem_singleton.2 hdiverted⟩,
      by rwa [World.scene_saved]⟩
  | rest => exact ⟨List.forall_mem_nil _, .rest rfl⟩
  | resetGame =>
    have hcleared : Opens .resetGame w w.cleared.scene := .clear rfl
    have hemptied : Opens .resetGame w (w.cleared.emptied w.engine.config.progressKey).scene := by
      rwa [World.scene_emptied]
    exact ⟨List.forall_mem_cons.2 ⟨hcleared, List.forall_mem_singleton.2 hemptied⟩,
      by rwa [World.scene_emptied]⟩
  | @setPlayerName name =>
    have hnamed : Opens (.setPlayerName name) w (w.named name).scene := by
      rw [World.scene_named]
      exact .still rfl
    exact ⟨List.forall_mem_singleton.2 hnamed, by rwa [World.scene_put]⟩

/-- A prelude that answers that a walk is under way has found one. -/
theorem Prelude.processing_of_stay {w v : World} {op : Operation} {stops : List World}
    (h : Prelude w op stops v (.stay (some .alreadyRunning))) : v.scene.processing = true := by
  have onTo {node : Option String} {force : Bool} {walked : Walked}
      (he : Onward.to node force = .stay (some walked)) : False := by
    cases node <;> cases he
  -- only two preludes answer so; the others name a node or have another answer
  generalize ho : Onward.stay (some .alreadyRunning) = on at h
  cases h with
  | busy hop hb => exact hb
  | busyPending hi hb => exact hb
  | resumed | recalled | accepted | undiverted => exact (onTo ho.symm).elim
  | _ => cases ho

/-! ## From the beginning to the end -/

/-- All that can become of an operation that is given up, if at all, at a suspension point. -/
inductive Performs (calm : Prop) (op : Operation) (w : World) :
    Act.Outcome (Option Walked) → Prop where
  | stayed {m : World} : Opens op w m.scene → Performs calm op w (.ok none m)
  | cut {m : World} : Opens op w m.scene → Performs calm op w (.error .cut m)
  | refused {m : World} : Opens op w m.scene → m.scene.processing = true →
      Performs calm op w (.ok (some .alreadyRunning) m)
  | halted {s t : Scene} {force : Bool} {halt : Halt} {m : World} : Opens op w s →
      Scene.Steps calm (s.ready force) t → m.scene = t.settled.emit (.halted halt) →
      Performs calm op w (.ok (some (.halted halt)) m)
  | stopped {s t : Scene} {force : Bool} {stop : Stop} {m : World} : Opens op w s →
      Scene.Steps calm (s.ready force) t → m.scene = t.settled →
      Performs calm op w (.error stop m)

namespace Act

variable {calm : Prop} {op : Operation} {w v : World}

/-- Behind its opening an operation stays where it is, or walks. -/
theorem performs_onward {on : Onward} {stops : List World} (p : Patience)
    (h : Prelude w op stops v on) (hquiet : calm → v.scene.indicator = .idle) :
    Performs calm op w (on.act (v.under p)) := by
  have hopens : Opens op w v.scene := h.opens.2
  cases on with
  | stay walked =>
    cases walked with
    | none => exact .stayed hopens
    | some walked =>
      cases walked with
      | alreadyRunning => exact .refused hopens h.processing_of_stay
      | halted halt => exact absurd rfl h.ne_halted
  -- the walk begins where the opening has ended
  | walk id force =>
    have hwalks := advance_walks (w := v.under p) id force hquiet
    rw [Onward.act, map_apply]
    cases hr : Act.advance id force (v.under p) with
    | ok walked m =>
      rw [hr] at hwalks
      cases hwalks with
      | refused hb hm =>
        have hm' : m.scene = v.scene := hm
        rw [← hm'] at hopens
        refine .refused hopens ?_
        rw [hm]
        exact hb
      | halted hs hm => exact .halted hopens hs hm
    | error stop m =>
      rw [hr] at hwalks
      cases hwalks with
      | stopped hs hm => exact .stopped hopens hs hm

end Act

/-- An opening leaves nothing indicated where nothing was. -/
theorem Opens.quiet {op : Operation} {w : World} {s : Scene} (h : Opens op w s)
    (hw : w.scene.indicator = .idle) : s.indicator = .idle := by
  induction h with
  | still | take | restore => exact hw
  | rest | clear => rfl
  | install _ _ ih => exact ih

/-- The step lemma: whatever becomes of an operation, it opened, and walked by steps. -/
theorem Operation.performs (op : Operation) (calm : Prop) {w : World} {p : Patience}
    (hp : p = .endless ∨ ∃ k, p = .suspensions k) (h : calm → w.scene.indicator = .idle) :
    Performs calm op w (op.run (w.under p)) := by
  obtain ⟨stops, v, on, hprelude, hrun⟩ := Act.Operation.run_under op w hp
  obtain ⟨hstops, hend⟩ := hprelude.opens
  rcases hrun with ⟨m, hm, hcut⟩ | ⟨q, hwalk⟩
  · rw [hcut]
    have hopened : Opens op w m.scene := hstops m hm
    exact .cut hopened
  · rw [hwalk]
    exact Act.performs_onward q hprelude fun hc => hend.quiet (h hc)

/-- Whoever is left with a world has had something become of the operation. -/
theorem Act.Leaves.performs {op : Operation} {w w' : World}
    (hl : Act.Leaves op.run w w') (calm : Prop) (h : calm → w.scene.indicator = .idle) :
    ∃ out, Performs calm op w out ∧ out.left = w' := by
  cases hl with
  | ended he => exact ⟨_, he ▸ op.performs calm (.inl rfl) h, rfl⟩
  | cut hc => exact ⟨_, hc ▸ op.performs calm (.inr ⟨_, rfl⟩) h, rfl⟩

/-- What the openings, the steps and the two ends of a walk keep is kept by operations. -/
theorem Performs.keeps {calm : Prop} {op : Operation} {w : World} {I : Scene → Prop}
    {out : Act.Outcome (Option Walked)} (h : Performs calm op w out)
    (opens : ∀ s, Opens op w s → I s) (ready : ∀ s force, I s → I (s.ready force))
    (step : ∀ s t, I s → Scene.Step calm s t → I t) (settled : ∀ s, I s → I s.settled)
    (halted : ∀ s halt, I s → I (s.emit (.halted halt))) : I out.left.scene := by
  have walked {s t : Scene} {force : Bool} (hs : Opens op w s)
      (ht : Scene.Steps calm (s.ready force) t) : I t.settled :=
    settled t (ht.preserves step (ready s force (opens s hs)))
  cases h with
  | stayed hs | cut hs | refused hs => exact opens _ hs
  | @halted s t force halt m hs ht hm =>
    change I m.scene
    rw [hm]
    exact halted _ halt (walked hs ht)
  | @stopped s t force stop m hs ht hm =>
    change I m.scene
    rw [hm]
    exact walked hs ht

end StoryChat
