/-
What comes of choosing an option.

A choice is taken at once (`Act.takeChoice`): it is said, it has its effect and nothing is
asked any more before the operation can be left for the first time. Only then it is decided
where the story goes. The first interrupt that fires may divert it into a script of its own
(`Act.interrupt`, `Act.divert`), and if it does, the option's successor has no part in what
comes next. Otherwise, and also where that script cannot be loaded, the story goes on at the
successor.

Either way the record is kept before a node is walked. So the choice is in the record, and a
crash on the walk neither loses its effect nor repeats it.
-/
import StoryChat.Proofs.Engine.Route
import StoryChat.Proofs.Engine.Upkeep

set_option autoImplicit false

namespace StoryChat

namespace World

variable {w v m w' : World} {c : Choice} {index : Nat} {name : String}

/-! ## The choice itself -/

/-- Whether in `m` the choice of an option in `w` was said and had its effect, once each, and
nothing is asked. -/
structure Answered (w : World) (c : Choice) (m : World) : Prop where
  messages : m.engine.narrative.messages =
    w.engine.narrative.messages ++ [Act.choiceMessage c w]
  vars : m.engine.narrative.vars = w.engine.narrative.vars.applyImpact c.impact
  choices : m.engine.narrative.flags.choices = []
  waiting : m.engine.narrative.flags.waiting = false

theorem answered_chosen (w : World) (c : Choice) : w.Answered c (w.chosen c) where
  messages := by
    simp only [chosen, narrative_tell, engine_play, engine_emit]
    rfl
  vars := w.vars_chosen c
  choices := rfl
  waiting := rfl

/-- What is not about the conversation and leaves the flags is no second answer. -/
theorem Answered.congr (h : w.Answered c m)
    (hm : v.engine.narrative.messages = m.engine.narrative.messages)
    (hv : v.engine.narrative.vars = m.engine.narrative.vars)
    (hf : v.engine.narrative.flags = m.engine.narrative.flags) : w.Answered c v where
  messages := hm.trans h.messages
  vars := hv.trans h.vars
  choices := by rw [hf, h.choices]
  waiting := by rw [hf, h.waiting]

theorem Answered.saved (h : w.Answered c m) : w.Answered c m.saved := h.congr rfl rfl rfl

theorem tell_emit (w : World) (e : Event) (f : Narrative → Narrative) :
    (w.emit e).tell f = (w.tell f).emit e := by
  have hlistening : (w.tell f).engine.listening = w.engine.listening := rfl
  unfold emit
  rw [hlistening]
  split <;> rfl

theorem tell_play (w : World) (cue : Cue) (f : Narrative → Narrative) :
    (w.play cue).tell f = (w.tell f).play cue := by
  have haudible : (w.tell f).engine.audible = w.engine.audible := rfl
  unfold play
  rw [haudible]
  split <;> rfl

/-- What was asked is forgotten as soon as an option is chosen, the option's successor
included. -/
theorem chosen_present (w : World) (c : Choice) (choices : List Choice) (next : Option String) :
    (w.tell (·.present choices)).chosen { c with next } = w.chosen c := by
  unfold chosen
  simp only [tell_play, tell_emit]
  rfl

/-- Whether, from `w` to `v`, the record as it is in `v` was kept and nothing else was asked of
the slots. -/
structure Records (w v : World) : Prop where
  calls : v.calls =
    .set w.engine.config.progressKey v.engine.narrative.snapshot.render :: w.calls
  saves : v.saves =
    (w.saves.set w.engine.config.progressKey v.engine.narrative.snapshot.render).2

theorem records_saved_of_chosen (hs : m.setting = w.setting) (hc : m.calls = w.calls)
    (hm : m.saves = w.saves) : w.Records m.saved where
  calls := by rw [calls_saved, hc, config_eq_of_setting hs, engine_saved]
  saves := by rw [saves_saved, hm, config_eq_of_setting hs, engine_saved]

/-! ## Where the story goes -/

/-- Whether an interrupt that names a script is the first of all to fire on the effect of an
option. -/
def Fires (w : World) (c : Choice) (name : String) : Prop :=
  ∃ (earlier later : List Interrupt) (hook : Interrupt),
    w.engine.interrupts = earlier ++ hook :: later ∧
    hook w.engine.narrative.vars (w.engine.narrative.vars.applyImpact c.impact) = some name ∧
    ∀ other ∈ earlier,
      other w.engine.narrative.vars (w.engine.narrative.vars.applyImpact c.impact) = none

theorem fires_iff : w.Fires c name ↔ w.interruption? c = some name := by
  unfold interruption? firstInterrupt
  rw [List.findSome?_eq_some_iff]
  constructor
  · rintro ⟨earlier, later, hook, h⟩
    exact ⟨earlier, hook, later, h⟩
  · rintro ⟨earlier, hook, later, h⟩
    exact ⟨earlier, later, hook, h⟩

/-- What a walk from a node has come to: it has taken the route from there. -/
def Travels (v : World) (id : String) (walked : Walked) (w' : World) : Prop :=
  ∃ nodes halt, Route v.findNode? v.traits id nodes halt ∧ walked = .halted halt ∧
    w'.lines = v.lines ++ nodes.filterMap v.said? ∧
    w'.traits = nodes.foldl Traits.behind v.traits

/-- A walk that is forced takes the route, whatever was going on. -/
theorem travels_of_advance {id : String} {walked : Walked}
    (hrun : Act.advance id true (v.under .endless) = .ok walked w') : v.Travels id walked w' := by
  obtain ⟨halt, rfl, hplot, -⟩ := Act.plot_of_advance (fun _ => rfl) hrun
  obtain ⟨nodes, hroute, hlines, htraits⟩ := Plot.took_of_walk hplot
  exact ⟨nodes, halt, hroute, rfl, hlines, htraits⟩

/-- Choosing an option diverts the story into a script: from `v`, behind the suspension points,
the script is walked from its entrance, whatever the successor of the option is. -/
structure Diverts (w : World) (index : Nat) (c : Choice) (stops : List World) (v : World)
    (name : String) (d : Document) : Prop where
  fires : w.Fires c name
  loads : w.shelf (.named name) = .ok d
  graph : v.engine.graph = some (.ofDocument d)
  script : v.engine.narrative.activeScript = some name
  node : v.engine.narrative.currentNode = some v.entrance
  comes : Act.Comes (Act.choose index) w stops v
    (.interrupted name <$> Act.advance v.entrance true)
  walks {chosen : Chosen} {w' : World} : Act.choose index (w.under .endless) = .ok chosen w' →
    ∃ walked, chosen = .interrupted name walked ∧ v.Travels v.entrance walked w'
  regardless (next : Option String) : Act.choose index (w.tell (·.present
    (w.engine.narrative.flags.choices.set index { c with next }))) = Act.choose index w

/-- Choosing an option leads to its successor: from `v`, behind the suspension points, the
script is walked from there on, or there is no walk if the option has no successor. -/
structure Succeeds (w : World) (index : Nat) (c : Choice) (stops : List World) (v : World) :
    Prop where
  undiverted {name : String} {d : Document} : w.Fires c name → w.shelf (.named name) ≠ .ok d
  graph : v.engine.graph = w.engine.graph
  script : v.engine.narrative.activeScript = w.engine.narrative.activeScript
  node : v.engine.narrative.currentNode = c.next
  comes : Act.Comes (Act.choose index) w stops v (.accepted <$> Act.advanceTo c.next true)
  walks {chosen : Chosen} {w' : World} : Act.choose index (w.under .endless) = .ok chosen w' →
    match c.next with
    | none => chosen = .accepted none ∧ w' = v.under .endless
    | some id => ∃ walked, chosen = .accepted (some walked) ∧ v.Travels id walked w'

end World

namespace Act

variable {w v : World} {c : Choice} {index : Nat} {name : String} {d : Document}

/-! ### The successor of an option that is diverted -/

theorem takeChoice_apply (c : Choice) (w : World) : takeChoice c w = .ok () (w.chosen c) := rfl

/-- What an option leads to, once it is taken. -/
def lead (next : Option String) : Option (String × Walked) → Act Chosen
  | some (name, walk) => pure (.interrupted name walk)
  | none => do
    let next ← goOn next
    .accepted <$> advanceTo next true

/-- To choose an option is to take it, to look for interrupts, and to go where it leads. -/
theorem choose_apply (hw : w.engine.narrative.flags.waiting = true)
    (hc : w.engine.narrative.flags.choices[index]? = some c) : choose index w =
      (interrupt w.engine.narrative.vars (w.engine.narrative.vars.applyImpact c.impact) >>=
        lead c.next) (w.chosen c) := by
  unfold choose
  rw [bind_apply, look_apply]
  dsimp only
  rw [hw, if_neg (by simp), hc]
  dsimp only
  rw [bind_apply, takeChoice_apply]
  dsimp only
  rw [bind_apply, look_apply]
  dsimp only
  rw [World.vars_chosen]
  refine congrFun (congrArg (_ >>= ·) (funext fun found => ?_)) _
  cases found <;> rfl

theorem untimed_shelf : Untimed World.shelf :=
  ⟨fun _ _ => rfl, fun _ _ => rfl, fun _ _ => rfl⟩

theorem eq_of_fetch {id : ScriptId} {r : Except LoadFault Graph} {m : World}
    (h : fetch id v = .ok r m) : r = (v.shelf id).map Graph.ofDocument := by
  obtain ⟨⟨⟩, u, hsuspend, hlook⟩ := bind_eq_ok h
  have hshelf := Fixes.suspend untimed_shelf v
  rw [hsuspend] at hshelf
  cases hlook
  exact congrArg (fun shelf : Shelf => (shelf id).map Graph.ofDocument) hshelf

/-- An interrupt whose script can be loaded comes to something, if it comes to an end. -/
theorem interrupt_ne_none {before after : Variables} {m : World}
    (hn : firstInterrupt v.engine.interrupts before after = some name)
    (hs : v.shelf (.named name) = .ok d) : interrupt before after v ≠ .ok none m := by
  intro h
  unfold interrupt at h
  rw [bind_apply, look_apply] at h
  dsimp only at h
  rw [hn] at h
  obtain ⟨walk?, u, hdivert, h⟩ := bind_eq_ok h
  cases walk? with
  | some walk => cases h
  | none =>
    obtain ⟨loaded, u, hload, hdivert⟩ := bind_eq_ok hdivert
    obtain ⟨fetched, u, hfetch, hload⟩ := bind_eq_ok hload
    rw [eq_of_fetch hfetch, hs] at hload
    cases hload
    obtain ⟨entry, u, -, hdivert⟩ := bind_eq_ok hdivert
    obtain ⟨⟨⟩, u, -, hdivert⟩ := bind_eq_ok hdivert
    obtain ⟨⟨⟩, u, -, hdivert⟩ := bind_eq_ok hdivert
    obtain ⟨walked, -, hnone⟩ := map_eq_ok hdivert
    cases hnone

/-- Where an interrupt diverts the story, the successor of the option does not matter. -/
theorem choose_regardless (hw : w.engine.narrative.flags.waiting = true)
    (hc : w.engine.narrative.flags.choices[index]? = some c) (hn : w.interruption? c = some name)
    (hs : w.shelf (.named name) = .ok d) (next : Option String) :
    choose index (w.tell (·.present (w.engine.narrative.flags.choices.set index
      { c with next }))) = choose index w := by
  have hc' : (w.engine.narrative.flags.choices.set index { c with next })[index]? =
      some { c with next } :=
    List.getElem?_set_self (List.getElem?_eq_some_iff.1 hc).1
  rw [← World.firstInterrupt_chosen] at hn
  rw [← World.shelf_chosen w c] at hs
  -- behind the interrupt there is nothing left that looks at the successor
  have hlead : (interrupt w.engine.narrative.vars (w.engine.narrative.vars.applyImpact c.impact)
        >>= lead next) (w.chosen c) =
      (interrupt w.engine.narrative.vars (w.engine.narrative.vars.applyImpact c.impact) >>=
        lead c.next) (w.chosen c) := by
    rw [bind_apply, bind_apply]
    cases hr : interrupt w.engine.narrative.vars (w.engine.narrative.vars.applyImpact c.impact)
      (w.chosen c) with
    | error s m => rfl
    | ok found m =>
      cases found with
      | none => exact absurd hr (interrupt_ne_none hn hs)
      | some found => rfl
  rw [choose_apply hw hc, choose_apply (w := w.tell _) rfl hc', World.chosen_present]
  exact hlead

/-! ## Choosing an option -/

theorem diverts {w : World} {index : Nat} {c : Choice} {name : String} {d : Document}
    (hw : w.engine.narrative.flags.waiting = true)
    (hc : w.engine.narrative.flags.choices[index]? = some c) (hn : w.interruption? c = some name)
    (hs : w.shelf (.named name) = .ok d) :
    let begun := ((w.chosen c).diverted name (.ofDocument d)).at
      ((w.chosen c).diverted name (.ofDocument d)).entrance
    w.Diverts index c [w.chosen c, begun] begun.saved name d := by
  intro begun
  have hcomes := comes_diverted hw hc hn hs
  refine ⟨World.fires_iff.2 hn, hs, rfl, rfl, rfl, hcomes, fun {chosen w'} hrun => ?_,
    choose_regardless hw hc hn hs⟩
  rw [hcomes.whole] at hrun
  obtain ⟨walked, hadvance, rfl⟩ := map_eq_ok hrun
  exact ⟨walked, rfl, World.travels_of_advance hadvance⟩

/-- What comes behind a choice that is not diverted. -/
theorem succeeds_of_comes {w : World} {index : Nat} {c : Choice} {stops : List World}
    (hcomes : Comes (choose index) w stops ((w.chosen c).tell (·.goTo c.next)).saved
      (.accepted <$> (Onward.to c.next true).act))
    (hnone : ∀ name d, w.interruption? c = some name → w.shelf (.named name) ≠ .ok d) :
    w.Succeeds index c stops ((w.chosen c).tell (·.goTo c.next)).saved := by
  have hact : (Onward.to c.next true).act = advanceTo c.next true := by
    cases c.next <;> rfl
  rw [hact] at hcomes
  refine ⟨fun {name d} hf => hnone name d (World.fires_iff.1 hf), w.graph_chosen c, ?_, rfl,
    hcomes, fun {chosen w'} hrun => ?_⟩
  · simp only [World.engine_saved, World.narrative_tell, World.chosen, World.engine_play,
      World.engine_emit]
    rfl
  · rw [hcomes.whole] at hrun
    obtain ⟨walk, hadvance, rfl⟩ := map_eq_ok hrun
    cases hnext : c.next with
    | none =>
      rw [hnext] at hadvance
      cases hadvance
      exact ⟨rfl, rfl⟩
    | some id =>
      rw [hnext] at hadvance
      obtain ⟨walked, hwalk, rfl⟩ := map_eq_ok hadvance
      exact ⟨walked, rfl, World.travels_of_advance hwalk⟩

end Act

namespace World

variable {w : World} {c : Choice} {index : Nat}

/-- An option that is chosen (`Act.choose`) is answered before the operation can be left for
the first time, and the record of that is kept before a node is walked. Then the story is
diverted into the script of the first interrupt that fires, if there is one and its script can
be loaded, and otherwise goes on at the option's successor. -/
theorem submits (hw : w.engine.narrative.flags.waiting = true)
    (hc : w.engine.narrative.flags.choices[index]? = some c) :
    ∃ stops v, (∀ m ∈ stops, w.Answered c m) ∧ w.Answered c v ∧ w.Records v ∧
      ((∃ name d, w.Diverts index c stops v name d) ∨ w.Succeeds index c stops v) := by
  have hanswered := w.answered_chosen c
  have hgone : w.Answered c ((w.chosen c).tell (·.goTo c.next)) := hanswered.congr rfl rfl rfl
  have hrecords : w.Records ((w.chosen c).tell (·.goTo c.next)).saved :=
    records_saved_of_chosen (w.setting_chosen c) (w.calls_chosen c) (w.saves_chosen c)
  cases hn : w.interruption? c with
  | none =>
    have hsucceeds := Act.succeeds_of_comes (Act.comes_accepted hw hc hn)
      (by rw [hn]; exact nofun)
    exact ⟨_, _, List.forall_mem_singleton.2 hgone, hgone.saved, hrecords,
      .inr hsucceeds⟩
  | some name =>
    cases hs : w.shelf (.named name) with
    | error fault =>
      -- an interrupt whose script cannot be loaded does not divert
      have hlost : ∀ name' d, w.interruption? c = some name' →
          w.shelf (.named name') ≠ .ok d := by
        rw [hn]
        rintro _ d ⟨⟩
        rw [hs]
        exact nofun
      have hsucceeds := Act.succeeds_of_comes (Act.comes_undiverted hw hc hn hs) hlost
      exact ⟨_, _, List.forall_mem_cons.2 ⟨hanswered, List.forall_mem_singleton.2 hgone⟩,
        hgone.saved, hrecords, .inr hsucceeds⟩
    | ok d =>
      have hbegun : w.Answered c (((w.chosen c).diverted name (.ofDocument d)).at
          ((w.chosen c).diverted name (.ofDocument d)).entrance) := hanswered.congr rfl rfl rfl
      exact ⟨_, _, List.forall_mem_cons.2 ⟨hanswered, List.forall_mem_singleton.2 hbegun⟩,
        hbegun.saved,
        records_saved_of_chosen (w.setting_chosen c) (w.calls_chosen c) (w.saves_chosen c),
        .inl ⟨name, d, Act.diverts hw hc hn hs⟩⟩

/-- The only option of the world below. -/
def goodNight : Choice := ⟨"Good night", some "next", .empty⟩

/-- An engine that offers an option, with an interrupt that never fires and one that always
does. -/
def provoked : World :=
  { World.opening fun _ => .ok .forking with
    engine :=
      { Engine.fresh .instant [fun _ _ => none, fun _ _ => some "blocked"] true true with
        narrative := (Narrative.fresh .standard).present [goodNight] } }

theorem submits_provoked : provoked.engine.narrative.flags.waiting = true ∧
    provoked.engine.narrative.flags.choices[0]? = some goodNight ∧
    ∃ stops v, provoked.Records v ∧
      provoked.Diverts 0 goodNight stops v "blocked" .forking := by
  have hwaits : provoked.engine.narrative.flags.waiting = true := rfl
  have hoption : provoked.engine.narrative.flags.choices[0]? = some goodNight := rfl
  obtain ⟨stops, v, -, -, hrecords, hnext⟩ := submits hwaits hoption
  refine ⟨hwaits, hoption, stops, v, hrecords, ?_⟩
  have hfires : provoked.interruption? goodNight = some "blocked" := rfl
  rcases hnext with ⟨name, d, hdiverts⟩ | hsucceeds
  · have hname := fires_iff.1 hdiverts.fires
    have hloads := hdiverts.loads
    rw [hfires] at hname
    cases hname
    cases hloads
    exact hdiverts
  · exact absurd rfl (hsucceeds.undiverted (fires_iff.2 hfires))

end World

end StoryChat
