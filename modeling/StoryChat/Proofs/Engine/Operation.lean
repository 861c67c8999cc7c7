/-
What an operation does before it walks.

All that a player or a program can ask of an engine is one type `Operation`
here, so that sequences of them can be spoken about. Apart from the walk that it
may come to, an operation is a few suspension points with a fixed change behind
each. `Prelude` lists these once and for all: the suspension points, the world
they lead to, and whether a walk begins there. Laws about operations go through
its cases and never look into an operation again.
-/
import StoryChat.Engine.Play
import StoryChat.Proofs.Engine.Walking
import StoryChat.Proofs.Save.Slots

set_option autoImplicit false

namespace StoryChat

/-! ## Operations -/

/-- What may be asked of a `DialogueEngine` and, for the player's name, of its store. -/
inductive Operation where
  | loadPart (chapter part : Nat)
  | loadNamed (name : String)
  | startChapter (chapter part : Nat)
  | resumeFrom (chapter part : Nat) (node : Option String)
  | resumeSaved
  | beginPending
  | advance (id : String) (force : Bool)
  | choose (index : Nat)
  | rest
  | resetGame
  | setPlayerName (name : String)
  deriving DecidableEq

/-- The walk that a choice came to, if `Act.choose` got that far. -/
def Chosen.walk? : Chosen → Option Walked
  | .accepted walk => walk
  | .interrupted _ walk => some walk
  | _ => none

/-- Do an operation, and say which walk it came to, if any. -/
def Operation.run : Operation → Act (Option Walked)
  | .loadPart chapter part => (fun _ => none) <$> Act.loadPart chapter part
  | .loadNamed name => (fun _ => none) <$> Act.loadNamed name
  | .startChapter chapter part => Except.toOption <$> Act.startChapter chapter part
  | .resumeFrom chapter part node =>
    (·.toOption.join) <$> Act.resumeFrom chapter part node
  | .resumeSaved => (·.toOption.join) <$> Act.resumeSaved
  | .beginPending => Act.beginPending
  | .advance id force => some <$> Act.advance id force
  | .choose index => Chosen.walk? <$> Act.choose index
  | .rest => (fun _ => none) <$> Act.rest
  | .resetGame => (fun _ => none) <$> Act.resetGame
  | .setPlayerName name => (fun _ => none) <$> Act.setPlayerName name

/-! ## Changes of an operation -/

namespace World

/-- The world with a script taken for a part (`Act.installPart`). -/
def installed (w : World) (graph : Graph) : World :=
  { w with engine := { w.engine with
      narrative := { w.engine.narrative with title := graph.title, activeScript := none }
      graph := some graph } }

/-- The world with a script taken for a named one (`Act.installNamed`). -/
def diverted (w : World) (name : String) (graph : Graph) : World :=
  { w with engine := { w.engine with
      narrative := { w.engine.narrative with activeScript := some name }
      graph := some graph } }

/-- The world with a script taken and its place as the position, as `Act.resumeFrom` and
`Act.resumeNamed` leave it. -/
def opened (w : World) (id : ScriptId) (graph : Graph) : World :=
  match id with
  | .part chapter part => (w.installed graph).tell (·.moveTo chapter part)
  | .named name => w.diverted name graph

/-- The world with a part's script taken and the part begun, as `Act.startChapter` does before
it walks. -/
def begun (w : World) (chapter part : Nat) (graph : Graph) : World :=
  (w.installed graph).tell fun n =>
    { n.moveTo chapter part with introPending := false, started := true }

/-- The world after the text in a slot was asked for. -/
def asked (w : World) (key : String) : World :=
  { w with saves := (w.saves.get key).2 }.note (.call (.get key) w.clock)

/-- The world after a slot was emptied. -/
def emptied (w : World) (key : String) : World :=
  { w with saves := (w.saves.remove key).2 }.note (.call (.remove key) w.clock)

/-- The name in the slot for it, if `Act.loadPlayerName` takes it. -/
def keptName? (w : World) : Option String :=
  match (w.saves.get w.engine.config.nameKey).1 with
  | .ok (some name) => if name = "" then none else some name
  | _ => none

/-- The world after the player's name was taken from its slot (`Act.loadPlayerName`). -/
def called (w : World) : World :=
  match w.keptName? with
  | none => w.asked w.engine.config.nameKey
  | some name => (w.asked w.engine.config.nameKey).tell
      ({ · with playerName := name, started := true })

/-- The record in the slot for progress, if `Act.loadProgress` can read it. -/
def kept? (w : World) : Option Progress :=
  match (w.saves.get w.engine.config.progressKey).1 with
  | .ok (some text) => (Progress.parse text).toOption
  | _ => none

/-- The world after a record was taken from the slot (`Act.loadProgress`). -/
def recalled (w : World) (p : Progress) : World :=
  (w.asked w.engine.config.progressKey).tell (·.restore p)

/-- The world in which an option was chosen (`Act.takeChoice`), before anything is written or
walked. -/
def chosen (w : World) (c : Choice) : World :=
  let m := Act.choiceMessage c (w.tell (·.await false))
  (((w.tell fun n => (n.await false).append m).emit (.message m)).play .send).tell fun n =>
    ({ n with vars := n.vars.applyImpact c.impact }.answer true).clearChoices

/-- The script into which an option diverts the story, which `firstInterrupt` finds. -/
def interruption? (w : World) (c : Choice) : Option String :=
  firstInterrupt w.engine.interrupts w.engine.narrative.vars
    (w.engine.narrative.vars.applyImpact c.impact)

/-- The world with nothing left of the conversation and the script, as `Act.resetGame` does
first. -/
def cleared (w : World) : World :=
  { w with engine := { w.engine with narrative := w.engine.narrative.forget, graph := none } }

/-- What comes of emptying both slots, which is the first failure: the answer of
`Act.resetGame`. -/
def emptying (w : World) : Except SaveFault Unit :=
  match (w.saves.remove w.engine.config.progressKey).1 with
  | .error fault => .error fault
  | .ok () => ((w.saves.remove w.engine.config.progressKey).2.remove w.engine.config.nameKey).1

/-- The world in which the player is named (`Act.setPlayerName`). -/
def named (w : World) (name : String) : World :=
  w.tell ({ · with playerName := Text.trim name })

@[simp] theorem engine_asked (w : World) (key : String) : (w.asked key).engine = w.engine := rfl

@[simp] theorem setting_asked (w : World) (key : String) : (w.asked key).setting = w.setting := rfl

/-- To ask for what is in a slot leaves all slots as they are. -/
@[simp] theorem medium_asked (w : World) (key : String) :
    (w.asked key).saves.medium = w.saves.medium := Saves.medium_get _ _

@[simp] theorem medium_called (w : World) : w.called.saves.medium = w.saves.medium := by
  unfold called
  split
  · exact w.medium_asked _
  · exact w.medium_asked _

@[simp] theorem refusal_called (w : World) : w.called.saves.refusal = w.saves.refusal := by
  unfold called
  split <;> exact Saves.refusal_get _ _

theorem playerName_called (w : World) : w.called.engine.narrative.playerName =
    w.keptName?.getD w.engine.narrative.playerName := by
  unfold called
  split
  · next h =>
    rw [h]
    rfl
  · next name h =>
    rw [h]
    rfl

@[simp] theorem vars_called (w : World) :
    w.called.engine.narrative.vars = w.engine.narrative.vars := by
  unfold called
  split <;> rfl

/-- A record that is found is read from a text that stands in the slot. -/
theorem exists_text_of_kept? {w : World} {p : Progress} (h : w.kept? = some p) :
    ∃ text, (w.saves.get w.engine.config.progressKey).1 = .ok (some text) ∧
      Progress.parse text = .ok p := by
  unfold kept? at h
  split at h
  · next text htext =>
    cases hp : Progress.parse text with
    | ok q =>
      rw [hp] at h
      cases h
      exact ⟨text, htext, hp⟩
    | error e =>
      rw [hp] at h
      cases h
  · cases h

theorem keptName?_eq_some_iff {w : World} {name : String} : w.keptName? = some name ↔
    (w.saves.get w.engine.config.nameKey).1 = .ok (some name) ∧ name ≠ "" := by
  unfold keptName?
  constructor
  · intro h
    split at h
    · next text ht =>
      split at h
      · cases h
      · next hne =>
        cases h
        exact ⟨ht, hne⟩
    · cases h
  · rintro ⟨h, hne⟩
    rw [h]
    exact if_neg hne

@[simp] theorem flags_called (w : World) :
    w.called.engine.narrative.flags = w.engine.narrative.flags := by
  unfold called
  split <;> rfl

@[simp] theorem setting_called (w : World) : w.called.setting = w.setting := by
  unfold called
  split <;> rfl

@[simp] theorem config_called (w : World) : w.called.engine.config = w.engine.config :=
  config_eq_of_setting w.setting_called

/-- The player's name is taken first, which leaves the text in the slot for progress. -/
theorem exists_text_of_kept?_called {w : World} {p : Progress} (h : w.called.kept? = some p) :
    ∃ text, w.saves.medium.get w.engine.config.progressKey = .ok (some text) ∧
      Progress.parse text = .ok p := by
  obtain ⟨text, hget, hp⟩ := exists_text_of_kept? h
  have htext := Saves.of_get hget
  rw [medium_called, config_called] at htext
  exact ⟨text, htext, hp⟩

@[simp] theorem setting_chosen (w : World) (c : Choice) : (w.chosen c).setting = w.setting := by
  simp only [chosen, setting_tell, setting_play, setting_emit]

@[simp] theorem graph_chosen (w : World) (c : Choice) :
    (w.chosen c).engine.graph = w.engine.graph := by
  simp only [chosen, graph_tell, engine_play, engine_emit]

@[simp] theorem calls_chosen (w : World) (c : Choice) : (w.chosen c).calls = w.calls := by
  simp only [chosen, calls_tell, calls_play, calls_emit]

@[simp] theorem saves_chosen (w : World) (c : Choice) : (w.chosen c).saves = w.saves := by
  simp only [chosen, saves_tell, saves_play, saves_emit]

@[simp] theorem introPending_chosen (w : World) (c : Choice) :
    (w.chosen c).engine.narrative.introPending = w.engine.narrative.introPending := by
  simp only [chosen, narrative_tell, engine_play, engine_emit]
  rfl

@[simp] theorem interrupts_chosen (w : World) (c : Choice) :
    (w.chosen c).engine.interrupts = w.engine.interrupts :=
  congrArg Setting.interrupts (w.setting_chosen c)

@[simp] theorem shelf_chosen (w : World) (c : Choice) : (w.chosen c).shelf = w.shelf :=
  shelf_eq_of_setting (w.setting_chosen c)

@[simp] theorem vars_chosen (w : World) (c : Choice) :
    (w.chosen c).engine.narrative.vars = w.engine.narrative.vars.applyImpact c.impact := by
  simp only [chosen, narrative_tell, engine_play, engine_emit]
  rfl

theorem chosen_under (w : World) (c : Choice) (p : Patience) :
    (w.under p).chosen c = (w.chosen c).under p := by
  unfold chosen
  simp only [tell_under, emit_under, play_under]
  rfl

/-- What is chosen is said by the player and has its effect on the variables. -/
theorem story_chosen (w : World) (c : Choice) : (w.chosen c).engine.narrative.story =
    { w.engine.narrative.story.say ⟨w.playerIds w.place, .player, .text, c.text⟩ with
      vars := w.engine.narrative.vars.applyImpact c.impact } := by
  simp only [chosen, narrative_tell, engine_play, engine_emit, Narrative.story, Narrative.append,
    Narrative.await, Narrative.answer, Narrative.clearChoices, List.map_append, List.map_cons,
    List.map_nil]
  rfl

theorem atRest_chosen (w : World) (c : Choice) :
    (w.chosen c).engine.narrative.bearing.atRest = w.engine.narrative.bearing.atRest := by
  simp only [chosen, narrative_tell, engine_play, engine_emit]
  rfl

theorem firstInterrupt_chosen (w : World) (c : Choice) :
    firstInterrupt (w.chosen c).engine.interrupts w.engine.narrative.vars
      (w.engine.narrative.vars.applyImpact c.impact) = w.interruption? c := by
  rw [interrupts_chosen, interruption?]

@[simp] theorem setting_recalled (w : World) (p : Progress) :
    (w.recalled p).setting = w.setting := rfl

@[simp] theorem shelf_called (w : World) : w.called.shelf = w.shelf :=
  shelf_eq_of_setting w.setting_called

@[simp] theorem shelf_recalled (w : World) (p : Progress) : (w.recalled p).shelf = w.shelf := rfl

@[simp] theorem flags_recalled (w : World) (p : Progress) :
    (w.recalled p).engine.narrative.flags = w.engine.narrative.flags := rfl

@[simp] theorem waits_called (w : World) : w.called.waits = w.waits := by
  rw [waits, flags_called, waits]

@[simp] theorem waits_recalled (w : World) (p : Progress) : (w.recalled p).waits = w.waits := rfl

@[simp] theorem flags_opened (w : World) (id : ScriptId) (graph : Graph) :
    (w.opened id graph).engine.narrative.flags = w.engine.narrative.flags := by
  cases id <;> rfl

@[simp] theorem playerName_opened (w : World) (id : ScriptId) (graph : Graph) :
    (w.opened id graph).engine.narrative.playerName = w.engine.narrative.playerName := by
  cases id <;> rfl

@[simp] theorem saves_opened (w : World) (id : ScriptId) (graph : Graph) :
    (w.opened id graph).saves = w.saves := by
  cases id <;> rfl

@[simp] theorem waits_opened (w : World) (id : ScriptId) (graph : Graph) :
    (w.opened id graph).waits = w.waits := by
  cases id <;> rfl

@[simp] theorem setting_diverted (w : World) (name : String) (graph : Graph) :
    (w.diverted name graph).setting = w.setting := rfl

@[simp] theorem setting_opened (w : World) (id : ScriptId) (graph : Graph) :
    (w.opened id graph).setting = w.setting := by
  cases id <;> rfl

end World

/-- The script that a record selects. -/
def Progress.script (p : Progress) : ScriptId :=
  match p.activeScript with
  | some name => .named name
  | none => .part p.chapter p.part

/-! ## Preludes -/

/-- How an operation goes on behind its prelude. -/
inductive Onward where
  /-- It is over, and this is what came of it. -/
  | stay (walked : Option Walked)
  | walk (id : String) (force : Bool)

/-- On to a node, if there is one. -/
def Onward.to (node : Option String) (force : Bool) : Onward :=
  match node with
  | none => .stay none
  | some id => .walk id force

theorem Onward.of_to {node : Option String} {force force' : Bool} {id : String}
    (h : Onward.to node force = .walk id force') : node = some id ∧ force' = force := by
  cases node with
  | none => cases h
  | some id' => cases h; exact ⟨rfl, rfl⟩

/-- What is left of an operation. -/
def Onward.act : Onward → Act (Option Walked)
  | .stay walked => pure walked
  | .walk id force => some <$> Act.advance id force

/-- Whether an operation refuses while a walk is under way, before anything else. -/
def Operation.isPolite : Operation → Bool
  | .startChapter .. | .resumeFrom .. | .resumeSaved => true
  | _ => false

/-- All that an operation can do before it walks: the suspension points, the world
that they lead to, and how it goes on. -/
inductive Prelude (w : World) : Operation → List World → World → Onward → Prop where
  | busy {op : Operation} : op.isPolite → w.engine.narrative.flags.processing = true →
      Prelude w op [] w (.stay (some .alreadyRunning))
  | lostPart {chapter part : Nat} {fault : LoadFault} :
      w.shelf (.part chapter part) = .error fault →
      Prelude w (.loadPart chapter part) [w] w (.stay none)
  | loadedPart {chapter part : Nat} {d : Document} : w.shelf (.part chapter part) = .ok d →
      Prelude w (.loadPart chapter part) [w] (w.installed (.ofDocument d)) (.stay none)
  | lostNamed {name : String} {fault : LoadFault} : w.shelf (.named name) = .error fault →
      Prelude w (.loadNamed name) [w] w (.stay none)
  | loadedNamed {name : String} {d : Document} : w.shelf (.named name) = .ok d →
      Prelude w (.loadNamed name) [w] (w.diverted name (.ofDocument d)) (.stay none)
  | lostStart {chapter part : Nat} {fault : LoadFault} :
      w.engine.narrative.flags.processing = false →
      w.shelf (.part chapter part) = .error fault →
      Prelude w (.startChapter chapter part) [w] w (.stay none)
  | started {chapter part : Nat} {d : Document} :
      w.engine.narrative.flags.processing = false → w.shelf (.part chapter part) = .ok d →
      Prelude w (.startChapter chapter part) [w] (w.begun chapter part (.ofDocument d))
        (.walk (w.begun chapter part (.ofDocument d)).entrance false)
  | lostResume {chapter part : Nat} {node : Option String} {fault : LoadFault} :
      w.engine.narrative.flags.processing = false →
      w.shelf (.part chapter part) = .error fault →
      Prelude w (.resumeFrom chapter part node) [w] w (.stay none)
  | resumed {chapter part : Nat} {node : Option String} {d : Document} :
      w.engine.narrative.flags.processing = false → w.shelf (.part chapter part) = .ok d →
      Prelude w (.resumeFrom chapter part node) [w]
        (w.opened (.part chapter part) (.ofDocument d)) (.to node false)
  | unread : w.engine.narrative.flags.processing = false → w.called.kept? = none →
      Prelude w .resumeSaved [w, w.called] (w.called.asked w.engine.config.progressKey) (.stay none)
  | lostRecord {p : Progress} {fault : LoadFault} :
      w.engine.narrative.flags.processing = false → w.called.kept? = some p →
      w.shelf p.script = .error fault →
      Prelude w .resumeSaved [w, w.called, w.called.recalled p] (w.called.recalled p) (.stay none)
  | recalled {p : Progress} {d : Document} :
      w.engine.narrative.flags.processing = false → w.called.kept? = some p →
      w.shelf p.script = .ok d →
      Prelude w .resumeSaved [w, w.called, w.called.recalled p]
        ((w.called.recalled p).opened p.script (.ofDocument d)) (.to p.currentNode false)
  | nonePending : w.engine.narrative.introPending = false →
      Prelude w .beginPending [] w (.stay none)
  | busyPending : w.engine.narrative.introPending = true →
      w.engine.narrative.flags.processing = true →
      Prelude w .beginPending [] w (.stay (some .alreadyRunning))
  | begunPending : w.engine.narrative.introPending = true →
      w.engine.narrative.flags.processing = false →
      Prelude w .beginPending [] (w.tell ({ · with introPending := false }))
        (.walk w.entrance false)
  | advance {id : String} {force : Bool} : Prelude w (.advance id force) [] w (.walk id force)
  | refused {index : Nat} : w.engine.narrative.flags.waiting = false ∨
      w.engine.narrative.flags.choices[index]? = none →
      Prelude w (.choose index) [] w (.stay none)
  | accepted {index : Nat} {c : Choice} : w.engine.narrative.flags.waiting = true →
      w.engine.narrative.flags.choices[index]? = some c → w.interruption? c = none →
      Prelude w (.choose index) [(w.chosen c).tell (·.goTo c.next)]
        ((w.chosen c).tell (·.goTo c.next)).saved (.to c.next true)
  /-- The script to divert into cannot be loaded. -/
  | undiverted {index : Nat} {c : Choice} {name : String} {fault : LoadFault} :
      w.engine.narrative.flags.waiting = true →
      w.engine.narrative.flags.choices[index]? = some c → w.interruption? c = some name →
      w.shelf (.named name) = .error fault →
      Prelude w (.choose index) [w.chosen c, (w.chosen c).tell (·.goTo c.next)]
        ((w.chosen c).tell (·.goTo c.next)).saved (.to c.next true)
  | diverted {index : Nat} {c : Choice} {name : String} {d : Document} :
      w.engine.narrative.flags.waiting = true →
      w.engine.narrative.flags.choices[index]? = some c → w.interruption? c = some name →
      w.shelf (.named name) = .ok d →
      Prelude w (.choose index)
        [w.chosen c, ((w.chosen c).diverted name (.ofDocument d)).at
          ((w.chosen c).diverted name (.ofDocument d)).entrance]
        (((w.chosen c).diverted name (.ofDocument d)).at
          ((w.chosen c).diverted name (.ofDocument d)).entrance).saved
        (.walk ((w.chosen c).diverted name (.ofDocument d)).entrance true)
  | rest : Prelude w .rest [] (w.tell (·.rest)) (.stay none)
  | resetGame : Prelude w .resetGame [w.cleared, w.cleared.emptied w.engine.config.progressKey]
      ((w.cleared.emptied w.engine.config.progressKey).emptied w.engine.config.nameKey)
      (.stay none)
  | setPlayerName {name : String} : Prelude w (.setPlayerName name) [w.named name]
      ((w.named name).put w.engine.config.nameKey (Text.trim name)) (.stay none)

/-- No prelude touches the setting. -/
theorem Prelude.setting {w v : World} {op : Operation} {stops : List World} {on : Onward}
    (h : Prelude w op stops v on) : (∀ m ∈ stops, m.setting = w.setting) ∧ v.setting = w.setting := by
  have here : ∀ m ∈ [w], m.setting = w.setting := List.forall_mem_singleton.2 rfl
  have hcalled : w.called.setting = w.setting := w.setting_called
  cases h with
  | busy | nonePending | busyPending | begunPending | advance | refused | rest =>
    exact ⟨List.forall_mem_nil _, rfl⟩
  | lostPart | loadedPart | lostNamed | loadedNamed | lostStart | started | lostResume | resumed =>
    exact ⟨here, rfl⟩
  | unread =>
    exact ⟨List.forall_mem_cons.2 ⟨rfl, List.forall_mem_singleton.2 hcalled⟩, hcalled⟩
  | lostRecord =>
    exact ⟨List.forall_mem_cons.2 ⟨rfl, List.forall_mem_cons.2 ⟨hcalled,
      List.forall_mem_singleton.2 hcalled⟩⟩, hcalled⟩
  | recalled =>
    exact ⟨List.forall_mem_cons.2 ⟨rfl, List.forall_mem_cons.2 ⟨hcalled,
      List.forall_mem_singleton.2 hcalled⟩⟩, (World.setting_opened _ _ _).trans hcalled⟩
  | accepted | undiverted | diverted => simp [World.at]
  | resetGame =>
    exact ⟨List.forall_mem_cons.2 ⟨rfl, List.forall_mem_singleton.2 rfl⟩, rfl⟩
  | setPlayerName => exact ⟨List.forall_mem_singleton.2 rfl, rfl⟩

/-- A prelude alone halts no walk. -/
theorem Prelude.ne_halted {w v : World} {op : Operation} {stops : List World} {on : Onward}
    {halt : Halt} (h : Prelude w op stops v on) : on ≠ .stay (some (.halted halt)) := by
  have onTo (node : Option String) (force : Bool) :
      Onward.to node force ≠ .stay (some (.halted halt)) := by
    cases node <;> exact nofun
  cases h with
  | resumed | recalled | accepted | undiverted => exact onTo _ _
  | _ => exact nofun

namespace Act

variable {α β : Type}

/-- From `w` an operation comes over suspension points to `v`, and `rest` is what is
left of it there. -/
structure Comes (act : Act α) (w : World) (stops : List World) (v : World) (rest : Act α) :
    Prop where
  whole : act (w.under .endless) = rest (v.under .endless)
  cut : ∀ k (h : k < stops.length),
    act (w.under (.suspensions k)) = .error .cut (stops[k].under (.suspensions 0))
  spared : ∀ k, act (w.under (.suspensions (stops.length + k))) = rest (v.under (.suspensions k))

theorem Comes.here (act : Act α) (w : World) : Comes act w [] w act where
  whole := rfl
  cut k hk := absurd hk (Nat.not_lt_zero k)
  spared k := by rw [List.length_nil, Nat.zero_add]

theorem Comes.bind {first : Act β} {next : β → Act α} {w w' v : World} {b : β}
    {stops stops' : List World} {rest : Act α} (h : Path first w stops (.ok b w'))
    (h' : Comes (next b) w' stops' v rest) :
    Comes (first >>= next) w (stops ++ stops') v rest where
  whole := by rw [bind_apply, h.whole]; exact h'.whole
  cut k hk := by
    rw [bind_apply]
    rcases Nat.lt_or_ge k stops.length with hlt | hge
    · rw [h.cut k hlt, List.getElem_append_left hlt]
    · obtain ⟨j, rfl⟩ := Nat.exists_eq_add_of_le hge
      have hj : j < stops'.length := by rw [List.length_append] at hk; omega
      rw [h.spared j, List.getElem_append_right (Nat.le_add_right _ _)]
      simp only [Nat.add_sub_cancel_left]
      exact h'.cut j hj
  spared k := by
    rw [bind_apply, List.length_append, Nat.add_assoc, h.spared]
    exact h'.spared k

theorem Comes.seq {first : Act β} {next : β → Act α} {w w' v : World} {b : β}
    {stops : List World} {rest : Act α} (h : Path first w [] (.ok b w'))
    (h' : Comes (next b) w' stops v rest) : Comes (first >>= next) w stops v rest := .bind h h'

theorem Comes.cons {first : Act β} {next : β → Act α} {w m w' v : World} {b : β}
    {stops : List World} {rest : Act α} (h : Path first w [m] (.ok b w'))
    (h' : Comes (next b) w' stops v rest) :
    Comes (first >>= next) w (m :: stops) v rest := .bind h h'

/-- The row of what is left comes behind. -/
theorem Comes.path {act rest : Act α} {w v : World} {stops stops' : List World}
    {out : Outcome α} (h : Comes act w stops v rest) (h' : Path rest v stops' out) :
    Path act w (stops ++ stops') out where
  whole := h.whole.trans h'.whole
  cut k hk := by
    rcases Nat.lt_or_ge k stops.length with hlt | hge
    · rw [h.cut k hlt, List.getElem_append_left hlt]
    · obtain ⟨j, rfl⟩ := Nat.exists_eq_add_of_le hge
      have hj : j < stops'.length := by rw [List.length_append] at hk; omega
      rw [h.spared j, List.getElem_append_right (Nat.le_add_right _ _)]
      simp only [Nat.add_sub_cancel_left]
      exact h'.cut j hj
  spared k := by
    rw [List.length_append, Nat.add_assoc, h.spared]
    exact h'.spared k

theorem map_apply (f : β → α) (act : Act β) (w : World) :
    (f <$> act : Act α) w = match act w with
      | .ok b w => .ok (f b) w
      | .error s w => .error s w := by
  simp only [Functor.map, EStateM.map]
  cases act w <;> rfl

/-- An operation that ends has ended each of its parts. -/
theorem bind_eq_ok {w m : World} {first : Act α} {next : α → Act β} {b : β}
    (h : (first >>= next) w = .ok b m) : ∃ a v, first w = .ok a v ∧ next a v = .ok b m := by
  rw [bind_apply] at h
  cases hf : first w with
  | error s v =>
    rw [hf] at h
    cases h
  | ok a v =>
    rw [hf] at h
    exact ⟨a, v, rfl, h⟩

theorem map_eq_ok {w m : World} {act : Act α} {f : α → β} {b : β}
    (h : (f <$> act) w = .ok b m) : ∃ a, act w = .ok a m ∧ b = f a := by
  rw [map_apply] at h
  cases ha : act w with
  | error s v =>
    rw [ha] at h
    cases h
  | ok a v =>
    rw [ha] at h
    cases h
    exact ⟨a, rfl, rfl⟩

theorem Comes.congr {act rest rest' : Act α} {w v : World} {stops : List World}
    (h : Comes act w stops v rest) (e : rest = rest') : Comes act w stops v rest' := e ▸ h

/-- What comes behind an operation comes behind what is left of it. -/
theorem Comes.andThen {act rest : Act β} {next : β → Act α} {w v : World} {stops : List World}
    (h : Comes act w stops v rest) : Comes (act >>= next) w stops v (rest >>= next) where
  whole := by rw [bind_apply, bind_apply, h.whole]
  cut k hk := by rw [bind_apply, h.cut k hk]
  spared k := by rw [bind_apply, bind_apply, h.spared]

/-- What is made of a result does not matter on the way. -/
theorem Comes.map {act rest : Act β} {w v : World} {stops : List World} (f : β → α)
    (h : Comes act w stops v rest) : Comes (f <$> act) w stops v (f <$> rest) where
  whole := by rw [map_apply, map_apply, h.whole]
  cut k hk := by rw [map_apply, h.cut k hk]
  spared k := by rw [map_apply, map_apply, h.spared]

/-- An operation without a walk is all prelude. -/
theorem Comes.of_path {act : Act α} {a : α} {w v : World} {stops : List World}
    (h : Path act w stops (.ok a v)) : Comes act w stops v (pure a) where
  whole := h.whole
  cut := h.cut
  spared := h.spared

/-! ### Scripts and slots -/

theorem Path.getSlot (key : String) (w : World) :
    Path (getSlot key) w [w] (.ok (w.saves.get key).1 (w.asked key)) :=
  .bind (.suspend w) (.ok fun _ => rfl)

theorem Path.setSlot (key value : String) (w : World) :
    Path (setSlot key value) w [w] (.ok (w.saves.set key value).1 (w.put key value)) :=
  .bind (.suspend w) (.ok fun _ => rfl)

theorem Path.removeSlot (key : String) (w : World) :
    Path (removeSlot key) w [w] (.ok (w.saves.remove key).1 (w.emptied key)) :=
  .bind (.suspend w) (.ok fun _ => rfl)

theorem Path.fetch_lost {id : ScriptId} {w : World} {fault : LoadFault}
    (h : w.shelf id = .error fault) : Path (Act.fetch id) w [w] (.ok (.error fault) w) := by
  have hf := Path.fetch id w
  rwa [h] at hf

theorem Path.fetch_loaded {id : ScriptId} {w : World} {d : Document} (h : w.shelf id = .ok d) :
    Path (Act.fetch id) w [w] (.ok (.ok (.ofDocument d)) w) := by
  have hf := Path.fetch id w
  rwa [h] at hf

theorem Path.loadPart_lost {chapter part : Nat} {w : World} {fault : LoadFault}
    (h : w.shelf (.part chapter part) = .error fault) :
    Path (loadPart chapter part) w [w] (.ok (.error fault) w) :=
  (Path.fetch_lost h).cons (.pure _ w)

theorem Path.loadPart_loaded {chapter part : Nat} {w : World} {d : Document}
    (h : w.shelf (.part chapter part) = .ok d) :
    Path (loadPart chapter part) w [w] (.ok (.ok ()) (w.installed (.ofDocument d))) :=
  (Path.fetch_loaded h).cons (.seq (.change fun _ => rfl) (.pure _ _))

theorem Path.loadNamed_lost {name : String} {w : World} {fault : LoadFault}
    (h : w.shelf (.named name) = .error fault) :
    Path (loadNamed name) w [w] (.ok (.error fault) w) :=
  (Path.fetch_lost h).cons (.pure _ w)

theorem Path.loadNamed_loaded {name : String} {w : World} {d : Document}
    (h : w.shelf (.named name) = .ok d) :
    Path (loadNamed name) w [w] (.ok (.ok ()) (w.diverted name (.ofDocument d))) :=
  (Path.fetch_loaded h).cons (.seq (.change fun _ => rfl) (.pure _ _))

theorem Path.loadPlayerName (w : World) :
    ∃ r, Path loadPlayerName w [w] (.ok r w.called) := by
  have hget := Path.getSlot w.engine.config.nameKey w
  unfold World.called World.keptName? Act.loadPlayerName
  cases hr : (w.saves.get w.engine.config.nameKey).1 with
  | error fault => exact ⟨_, .seq (.look fun _ => rfl) (.cons (hr ▸ hget) (.pure _ _))⟩
  | ok text? =>
    cases text? with
    | none => exact ⟨_, .seq (.look fun _ => rfl) (.cons (hr ▸ hget) (.pure _ _))⟩
    | some name =>
      by_cases hn : name = ""
      · refine ⟨.ok false, .seq (.look fun _ => rfl) (.cons (hr ▸ hget) ?_)⟩
        simp only [hn, if_true]
        exact .pure _ _
      · refine ⟨.ok true, .seq (.look fun _ => rfl) (.cons (hr ▸ hget) ?_)⟩
        simp only [hn, if_false]
        exact .seq (.change fun _ => rfl) (.pure _ _)

theorem Path.loadProgress_some {w : World} {p : Progress} (h : w.kept? = some p) :
    Path loadProgress w [w] (.ok (.ok true) (w.recalled p)) := by
  obtain ⟨text, htext, hp⟩ := World.exists_text_of_kept? h
  have hget := Path.getSlot w.engine.config.progressKey w
  rw [htext] at hget
  refine .seq (.look fun _ => rfl) (.cons hget ?_)
  simp only [hp]
  exact .seq (.change fun _ => rfl) (.pure _ _)

theorem Path.loadProgress_none {w : World} (h : w.kept? = none) :
    ∃ r, r ≠ .ok true ∧ Path loadProgress w [w] (.ok r (w.asked w.engine.config.progressKey)) := by
  have hget := Path.getSlot w.engine.config.progressKey w
  unfold World.kept? at h
  cases hr : (w.saves.get w.engine.config.progressKey).1 with
  | error fault =>
    exact ⟨.error fault, nofun, .seq (.look fun _ => rfl) (.cons (hr ▸ hget) (.pure _ _))⟩
  | ok text? =>
    rw [hr] at h hget
    cases text? with
    | none => exact ⟨.ok false, by simp, .seq (.look fun _ => rfl) (.cons hget (.pure _ _))⟩
    | some text =>
      cases hp : Progress.parse text with
      | ok p => simp [hp, Except.toOption] at h
      | error fault =>
        refine ⟨.error fault, by simp, .seq (.look fun _ => rfl) (.cons hget ?_)⟩
        simp only [hp]
        exact .pure _ _

theorem Path.setPlayerName (name : String) (w : World) : Path (setPlayerName name) w [w.named name]
    (.ok ((w.named name).saves.set w.engine.config.nameKey (Text.trim name)).1
      ((w.named name).put w.engine.config.nameKey (Text.trim name))) := by
  unfold Act.setPlayerName
  exact .seq (.change fun _ => rfl) (.seq (.look fun _ => rfl) (.setSlot _ _ _))

theorem Path.resetGame (w : World) : Path resetGame w
    [w.cleared, w.cleared.emptied w.engine.config.progressKey]
    (.ok w.emptying ((w.cleared.emptied w.engine.config.progressKey).emptied
      w.engine.config.nameKey)) := by
  unfold Act.resetGame resetNarrative
  refine .seq (.change fun _ => rfl) (.seq (.change fun _ => rfl)
    (.seq (.look fun _ => rfl) (.cons (.removeSlot _ _)
      (.seq (.look fun _ => rfl) (.cons (.removeSlot _ _) ?_)))))
  exact .pure _ _

/-! ### Operations -/

theorem Comes.advanceTo (node : Option String) (force : Bool) (w : World) :
    Comes (advanceTo node force) w [] w (Onward.to node force).act := by
  cases node with
  | none => exact .here _ w
  | some id => exact .here _ w

theorem Comes.enter (force : Bool) (w : World) :
    Comes (enter force) w [] w (Act.advance w.entrance force) :=
  .seq (.look fun _ => rfl) (.here _ w)

theorem comes_startChapter {chapter part : Nat} {w : World} {d : Document}
    (hb : w.engine.narrative.flags.processing = false)
    (hs : w.shelf (.part chapter part) = .ok d) :
    Comes (startChapter chapter part) w [w] (w.begun chapter part (.ofDocument d))
      (.ok <$> Act.advance (w.begun chapter part (.ofDocument d)).entrance false) := by
  refine .seq (.look fun _ => rfl) ?_
  rw [hb, if_neg Bool.false_ne_true]
  exact .cons (.loadPart_loaded hs) (.seq (.change fun _ => rfl) (.map _ (.enter false _)))

theorem comes_resumeFrom {chapter part : Nat} {node : Option String} {w : World} {d : Document}
    (hb : w.engine.narrative.flags.processing = false)
    (hs : w.shelf (.part chapter part) = .ok d) :
    Comes (resumeFrom chapter part node) w [w] (w.opened (.part chapter part) (.ofDocument d))
      (.ok <$> (Onward.to node false).act) := by
  refine .seq (.look fun _ => rfl) ?_
  rw [hb, if_neg Bool.false_ne_true]
  exact .cons (.loadPart_loaded hs) (.seq (.change fun _ => rfl) (.map _ (.advanceTo node false _)))

theorem path_resumeFrom_lost {chapter part : Nat} {node : Option String} {w : World}
    {fault : LoadFault} (hb : w.engine.narrative.flags.processing = false)
    (hs : w.shelf (.part chapter part) = .error fault) :
    Path (resumeFrom chapter part node) w [w] (.ok (.error fault) w) := by
  refine .seq (.look fun _ => rfl) ?_
  rw [hb, if_neg Bool.false_ne_true]
  exact .cons (.loadPart_lost hs) (.pure _ w)

theorem comes_resumeNamed {name : String} {node : Option String} {w : World} {d : Document}
    (hs : w.shelf (.named name) = .ok d) :
    Comes (resumeNamed name node) w [w] (w.opened (.named name) (.ofDocument d))
      (.ok <$> (Onward.to node false).act) :=
  .cons (.loadNamed_loaded hs) (.map _ (.advanceTo node false _))

theorem path_resumeNamed_lost {name : String} {node : Option String} {w : World}
    {fault : LoadFault} (hs : w.shelf (.named name) = .error fault) :
    Path (resumeNamed name node) w [w] (.ok (.error fault) w) :=
  .cons (.loadNamed_lost hs) (.pure _ w)

/-- Behind the record there is only the script that it selects. -/
theorem comes_resumeRecord {w v : World} {p : Progress} {stops : List World}
    {rest : Act (Except LoadFault (Option Walked))}
    (hb : w.engine.narrative.flags.processing = false) (hk : w.called.kept? = some p)
    (h : Comes (match p.activeScript with
      | some name => resumeNamed name p.currentNode
      | none => resumeFrom p.chapter p.part p.currentNode) (w.called.recalled p) stops v rest) :
    Comes resumeSaved w (w :: w.called :: stops) v rest := by
  obtain ⟨r, hname⟩ := Path.loadPlayerName w
  refine .seq (.look fun _ => rfl) ?_
  rw [hb, if_neg Bool.false_ne_true]
  refine .cons hname (.cons (Path.loadProgress_some hk) ?_)
  exact .seq (.look fun _ => rfl) h

/-- Continuing from a record whose script is there. -/
theorem comes_resumeSaved {w : World} {p : Progress} {d : Document}
    (hb : w.engine.narrative.flags.processing = false) (hk : w.called.kept? = some p)
    (hs : w.shelf p.script = .ok d) :
    Comes resumeSaved w [w, w.called, w.called.recalled p]
      ((w.called.recalled p).opened p.script (.ofDocument d))
      (.ok <$> (Onward.to p.currentNode false).act) := by
  refine comes_resumeRecord hb hk ?_
  have hb' : (w.called.recalled p).engine.narrative.flags.processing = false := by
    rw [World.flags_recalled, World.flags_called, hb]
  rw [← World.shelf_called, ← World.shelf_recalled _ p, Progress.script] at hs
  rw [Progress.script]
  cases ha : p.activeScript with
  | none => rw [ha] at hs; exact comes_resumeFrom hb' hs
  | some name => rw [ha] at hs; exact comes_resumeNamed hs

theorem comes_resumeSaved_lost {w : World} {p : Progress} {fault : LoadFault}
    (hb : w.engine.narrative.flags.processing = false) (hk : w.called.kept? = some p)
    (hs : w.shelf p.script = .error fault) :
    Comes resumeSaved w [w, w.called, w.called.recalled p] (w.called.recalled p)
      (pure (.error fault)) := by
  refine comes_resumeRecord hb hk ?_
  have hb' : (w.called.recalled p).engine.narrative.flags.processing = false := by
    rw [World.flags_recalled, World.flags_called, hb]
  rw [← World.shelf_called, ← World.shelf_recalled _ p, Progress.script] at hs
  cases ha : p.activeScript with
  | none => rw [ha] at hs; exact .of_path (path_resumeFrom_lost hb' hs)
  | some name => rw [ha] at hs; exact .of_path (path_resumeNamed_lost hs)

/-- Without a record there is nothing to continue, which is no fault. -/
theorem path_resumeSaved_unread {w : World} (hb : w.engine.narrative.flags.processing = false)
    (hk : w.called.kept? = none) :
    Path resumeSaved w [w, w.called] (.ok (.ok none)
      (w.called.asked w.engine.config.progressKey)) := by
  obtain ⟨r, hname⟩ := Path.loadPlayerName w
  obtain ⟨r', hr', hprogress⟩ := Path.loadProgress_none hk
  rw [World.config_called] at hprogress
  refine .seq (.look fun _ => rfl) ?_
  rw [hb, if_neg Bool.false_ne_true]
  refine .cons hname (.cons hprogress ?_)
  match r', hr' with
  | .error _, _ => exact .pure _ _
  | .ok false, _ => exact .pure _ _
  | .ok true, h => exact absurd rfl h

/-! ### Choosing -/

/-- What is chosen is said and has its effect at once. -/
theorem Path.takeChoice (c : Choice) (w : World) :
    Path (takeChoice c) w [] (.ok () (w.chosen c)) :=
  .ok fun p => congrArg (EStateM.Result.ok ()) (w.chosen_under c p)

theorem Path.goOn (next : Option String) (w : World) :
    Path (goOn next) w [w.tell (·.goTo next)] (.ok next (w.tell (·.goTo next)).saved) :=
  .seq (.change fun _ => rfl) (.cons (.persist _) (.pure next _))

/-- Behind the choice itself there are the interrupt and the option's successor. -/
theorem comes_choose {index : Nat} {c : Choice} {w v : World} {stops : List World}
    {rest : Act Chosen} (hw : w.engine.narrative.flags.waiting = true)
    (hc : w.engine.narrative.flags.choices[index]? = some c)
    (h : Comes (do
      match ← interrupt w.engine.narrative.vars (w.engine.narrative.vars.applyImpact c.impact) with
      | some (name, walk) => return .interrupted name walk
      | none =>
        let next ← goOn c.next
        .accepted <$> advanceTo next true) (w.chosen c) stops v rest) :
    Comes (choose index) w stops v rest := by
  refine .seq (.look fun _ => rfl) ?_
  rw [hw, if_neg (by simp), hc]
  exact .seq (.takeChoice c w) (.seq (.look fun _ => rfl) (by rwa [World.vars_chosen]))

theorem path_choose_refused {index : Nat} {w : World}
    (h : w.engine.narrative.flags.waiting = false ∨
      w.engine.narrative.flags.choices[index]? = none) :
    ∃ chosen, chosen.walk? = none ∧ Path (choose index) w [] (.ok chosen w) := by
  cases hw : w.engine.narrative.flags.waiting with
  | false =>
    refine ⟨.notWaiting, rfl, .seq (.look fun _ => rfl) ?_⟩
    rw [hw, if_pos (by simp)]
    exact .pure _ w
  | true =>
    rw [hw] at h
    refine ⟨.invalidIndex index, rfl, .seq (.look fun _ => rfl) ?_⟩
    rw [hw, if_neg (by simp), h.resolve_left nofun]
    exact .pure _ w

/-- A diversion that finds its script. -/
theorem comes_divert {name : String} {w : World} {d : Document}
    (hs : w.shelf (.named name) = .ok d) :
    Comes (divert name) w
      [w, (w.diverted name (.ofDocument d)).at (w.diverted name (.ofDocument d)).entrance]
      ((w.diverted name (.ofDocument d)).at (w.diverted name (.ofDocument d)).entrance).saved
      (some <$> Act.advance (w.diverted name (.ofDocument d)).entrance true) :=
  .cons (.loadNamed_loaded hs) (.seq (.look fun _ => rfl) (.seq (.change fun _ => rfl)
    (.cons (.persist _) (.here _ _))))

theorem path_divert_lost {name : String} {w : World} {fault : LoadFault}
    (hs : w.shelf (.named name) = .error fault) : Path (divert name) w [w] (.ok none w) :=
  .cons (.loadNamed_lost hs) (.pure none w)

/-- An option that is not diverted goes on where it says. -/
theorem comes_goOn (c : Choice) (w : World) :
    Comes (do
      let next ← goOn c.next
      Chosen.accepted <$> advanceTo next true) w [w.tell (·.goTo c.next)]
        (w.tell (·.goTo c.next)).saved (Chosen.accepted <$> (Onward.to c.next true).act) :=
  .cons (.goOn c.next w) (.map _ (.advanceTo c.next true _))

theorem comes_accepted {index : Nat} {c : Choice} {w : World}
    (hw : w.engine.narrative.flags.waiting = true)
    (hc : w.engine.narrative.flags.choices[index]? = some c) (hn : w.interruption? c = none) :
    Comes (choose index) w [(w.chosen c).tell (·.goTo c.next)]
      ((w.chosen c).tell (·.goTo c.next)).saved (.accepted <$> (Onward.to c.next true).act) := by
  rw [← World.firstInterrupt_chosen] at hn
  have hi : Path (interrupt w.engine.narrative.vars
      (w.engine.narrative.vars.applyImpact c.impact)) (w.chosen c) [] (.ok none (w.chosen c)) := by
    refine .seq (.look fun _ => rfl) ?_
    rw [hn]
    exact .pure none _
  exact comes_choose hw hc (.seq hi (comes_goOn c _))

theorem comes_undiverted {index : Nat} {c : Choice} {w : World} {name : String}
    {fault : LoadFault} (hw : w.engine.narrative.flags.waiting = true)
    (hc : w.engine.narrative.flags.choices[index]? = some c)
    (hn : w.interruption? c = some name) (hs : w.shelf (.named name) = .error fault) :
    Comes (choose index) w [w.chosen c, (w.chosen c).tell (·.goTo c.next)]
      ((w.chosen c).tell (·.goTo c.next)).saved (.accepted <$> (Onward.to c.next true).act) := by
  rw [← World.firstInterrupt_chosen] at hn
  rw [← World.shelf_chosen w c] at hs
  have hi : Path (interrupt w.engine.narrative.vars
      (w.engine.narrative.vars.applyImpact c.impact)) (w.chosen c) [w.chosen c]
      (.ok none (w.chosen c)) := by
    refine .seq (.look fun _ => rfl) ?_
    rw [hn]
    exact .cons (path_divert_lost hs) (.pure none _)
  exact comes_choose hw hc (.cons hi (comes_goOn c _))

theorem comes_diverted {index : Nat} {c : Choice} {w : World} {name : String} {d : Document}
    (hw : w.engine.narrative.flags.waiting = true)
    (hc : w.engine.narrative.flags.choices[index]? = some c)
    (hn : w.interruption? c = some name) (hs : w.shelf (.named name) = .ok d) :
    Comes (choose index) w
      [w.chosen c, ((w.chosen c).diverted name (.ofDocument d)).at
        ((w.chosen c).diverted name (.ofDocument d)).entrance]
      (((w.chosen c).diverted name (.ofDocument d)).at
        ((w.chosen c).diverted name (.ofDocument d)).entrance).saved
      (.interrupted name <$>
        Act.advance ((w.chosen c).diverted name (.ofDocument d)).entrance true) := by
  rw [← World.firstInterrupt_chosen] at hn
  rw [← World.shelf_chosen w c] at hs
  refine comes_choose hw hc ?_
  unfold interrupt
  rw [bind_assoc]
  refine .seq (.look fun _ => rfl) ?_
  rw [hn]
  simp only [bind_assoc, pure_bind]
  refine (Comes.andThen (comes_divert hs)).congr ?_
  simp only [map_eq_pure_bind, bind_assoc, pure_bind, Option.map_some]

/-- An operation in its two halves. -/
def Preluded (op : Operation) (w : World) : Prop :=
  ∃ stops v on, Prelude w op stops v on ∧ Comes op.run w stops v on.act

/-- Operations whose results are first marked and then taken for what they are. -/
theorem map_toOption_join (act : Act (Option Walked)) :
    (fun r : Except LoadFault (Option Walked) => r.toOption.join) <$> (Except.ok <$> act) = act := by
  rw [Functor.map_map]
  exact id_map act

theorem map_walk?_accepted (act : Act (Option Walked)) :
    Chosen.walk? <$> (Chosen.accepted <$> act) = act := by
  rw [Functor.map_map]
  exact id_map act

theorem preluded_startChapter (chapter part : Nat) (w : World) :
    Preluded (.startChapter chapter part) w := by
  cases hb : w.engine.narrative.flags.processing with
  | true =>
    have h : Path (startChapter chapter part) w [] (.ok (.ok .alreadyRunning) w) :=
      .seq (.look fun _ => rfl) (by rw [hb, if_pos rfl]; exact .pure _ w)
    exact ⟨[], w, _, .busy rfl hb, .map _ (.of_path h)⟩
  | false =>
    cases hs : w.shelf (.part chapter part) with
    | error fault =>
      have h : Path (startChapter chapter part) w [w] (.ok (.error fault) w) :=
        .seq (.look fun _ => rfl) (by
          rw [hb, if_neg Bool.false_ne_true]; exact .cons (.loadPart_lost hs) (.pure _ w))
      exact ⟨[w], w, _, .lostStart hb hs, .map _ (.of_path h)⟩
    | ok d =>
      refine ⟨[w], _, _, .started hb hs, (Comes.map _ (comes_startChapter hb hs)).congr ?_⟩
      rw [Functor.map_map]
      rfl

theorem preluded_resumeFrom (chapter part : Nat) (node : Option String) (w : World) :
    Preluded (.resumeFrom chapter part node) w := by
  cases hb : w.engine.narrative.flags.processing with
  | true =>
    have h : Path (resumeFrom chapter part node) w [] (.ok (.ok (some .alreadyRunning)) w) :=
      .seq (.look fun _ => rfl) (by rw [hb, if_pos rfl]; exact .pure _ w)
    exact ⟨[], w, _, .busy rfl hb, .map _ (.of_path h)⟩
  | false =>
    cases hs : w.shelf (.part chapter part) with
    | error fault =>
      exact ⟨[w], w, _, .lostResume hb hs, .map _ (.of_path (path_resumeFrom_lost hb hs))⟩
    | ok d =>
      exact ⟨[w], _, _, .resumed hb hs,
        (Comes.map _ (comes_resumeFrom hb hs)).congr (map_toOption_join _)⟩

theorem preluded_resumeSaved (w : World) : Preluded .resumeSaved w := by
  cases hb : w.engine.narrative.flags.processing with
  | true =>
    have h : Path resumeSaved w [] (.ok (.ok (some .alreadyRunning)) w) :=
      .seq (.look fun _ => rfl) (by rw [hb, if_pos rfl]; exact .pure _ w)
    exact ⟨[], w, _, .busy rfl hb, .map _ (.of_path h)⟩
  | false =>
    cases hk : w.called.kept? with
    | none =>
      exact ⟨_, _, _, .unread hb hk, .map _ (.of_path (path_resumeSaved_unread hb hk))⟩
    | some p =>
      cases hs : w.shelf p.script with
      | error fault =>
        exact ⟨_, _, _, .lostRecord hb hk hs, .map _ (comes_resumeSaved_lost hb hk hs)⟩
      | ok d =>
        exact ⟨_, _, _, .recalled hb hk hs,
          (Comes.map _ (comes_resumeSaved hb hk hs)).congr (map_toOption_join _)⟩

theorem preluded_beginPending (w : World) : Preluded .beginPending w := by
  cases hi : w.engine.narrative.introPending with
  | false =>
    refine ⟨[], w, _, .nonePending hi, .seq (.look fun _ => rfl) ?_⟩
    rw [hi, if_pos (by simp)]
    exact .here _ w
  | true =>
    cases hb : w.engine.narrative.flags.processing with
    | true =>
      refine ⟨[], w, _, .busyPending hi hb, .seq (.look fun _ => rfl) ?_⟩
      rw [hi, if_neg (by simp), hb, if_pos rfl]
      exact .here _ w
    | false =>
      refine ⟨[], _, _, .begunPending hi hb, .seq (.look fun _ => rfl) ?_⟩
      rw [hi, if_neg (by simp), hb, if_neg Bool.false_ne_true]
      exact .seq (.change fun _ => rfl) (.map _ (.enter false _))

theorem preluded_choose (index : Nat) (w : World) : Preluded (.choose index) w := by
  have refused (h : w.engine.narrative.flags.waiting = false ∨
      w.engine.narrative.flags.choices[index]? = none) : Preluded (.choose index) w := by
    obtain ⟨chosen, hnone, hp⟩ := path_choose_refused h
    refine ⟨[], w, _, .refused h, (Comes.map Chosen.walk? (.of_path hp)).congr ?_⟩
    rw [map_pure, hnone]
    rfl
  cases hw : w.engine.narrative.flags.waiting with
  | false => exact refused (.inl hw)
  | true =>
    cases hc : w.engine.narrative.flags.choices[index]? with
    | none => exact refused (.inr hc)
    | some c =>
      -- an interrupt diverts the story only if its script is there
      cases hn : w.interruption? c with
      | none =>
        exact ⟨_, _, _, .accepted hw hc hn,
          (Comes.map _ (comes_accepted hw hc hn)).congr (map_walk?_accepted _)⟩
      | some name =>
        cases hs : w.shelf (.named name) with
        | error fault =>
          exact ⟨_, _, _, .undiverted hw hc hn hs,
            (Comes.map _ (comes_undiverted hw hc hn hs)).congr (map_walk?_accepted _)⟩
        | ok d =>
          refine ⟨_, _, _, .diverted hw hc hn hs,
            (Comes.map _ (comes_diverted hw hc hn hs)).congr ?_⟩
          rw [Functor.map_map]
          rfl

theorem Operation.preluded (op : Operation) (w : World) : Preluded op w := by
  cases op with
  | startChapter chapter part => exact preluded_startChapter chapter part w
  | resumeFrom chapter part node => exact preluded_resumeFrom chapter part node w
  | resumeSaved => exact preluded_resumeSaved w
  | beginPending => exact preluded_beginPending w
  | choose index => exact preluded_choose index w
  | advance id force => exact ⟨[], w, _, .advance, .here _ w⟩
  | loadPart chapter part =>
    cases hs : w.shelf (.part chapter part) with
    | error fault =>
      exact ⟨_, _, _, .lostPart hs, .map _ (.of_path (.loadPart_lost hs))⟩
    | ok d => exact ⟨_, _, _, .loadedPart hs, .map _ (.of_path (.loadPart_loaded hs))⟩
  | loadNamed name =>
    cases hs : w.shelf (.named name) with
    | error fault => exact ⟨_, _, _, .lostNamed hs, .map _ (.of_path (.loadNamed_lost hs))⟩
    | ok d => exact ⟨_, _, _, .loadedNamed hs, .map _ (.of_path (.loadNamed_loaded hs))⟩
  | rest =>
    have h : Path Act.rest w [] (.ok () (w.tell (·.rest))) := .change fun _ => rfl
    exact ⟨_, _, _, .rest, .map _ (.of_path h)⟩
  | resetGame => exact ⟨_, _, _, .resetGame, .map _ (.of_path (.resetGame w))⟩
  | setPlayerName name =>
    exact ⟨_, _, _, .setPlayerName, .map _ (.of_path (.setPlayerName name w))⟩

/-- An operation passes if its way does and what is left of it. -/
theorem Comes.passes {S : World → World → Prop} {g w v last : World} {act rest : Act α}
    {stops : List World} {R : α → World → World → Prop} (hc : Comes act w stops v rest)
    (hl : Legs S g stops last) (h : Passes S rest last v R) : Passes S act g w R := by
  obtain ⟨stops', out, last', hp', hl', he⟩ := h
  exact (hc.path hp').passes (hl.append hl') he

/-- An operation passes if its prelude does and the walk behind it. -/
theorem Passes.operation {S : World → World → Prop} {g w : World} {op : Operation}
    {R : Option Walked → World → World → Prop}
    (h : ∀ stops v on, Prelude w op stops v on → ∃ last, Legs S g stops last ∧
      Passes S on.act last v R) : Passes S op.run g w R := by
  obtain ⟨stops, v, on, hp, hc⟩ := Operation.preluded op w
  obtain ⟨last, hl, hpass⟩ := h stops v on hp
  exact hc.passes hl hpass

/-- The walk behind a prelude, if there is one. -/
theorem Passes.onward {S : World → World → Prop} {g w : World} {on : Onward}
    {R : Option Walked → World → World → Prop}
    (stay : ∀ walked, on = .stay walked → R walked g w)
    (walk : ∀ id force, on = .walk id force →
      Passes S (Act.advance id force) g w (fun walked => R (some walked))) :
    Passes S on.act g w R := by
  cases on with
  | stay walked => exact .pure (stay walked rfl)
  | walk id force => exact .map (walk id force rfl)

/-- No operation touches the setting. -/
theorem operation_setting {c : Setting} {w : World} (op : Operation) (hw : w.setting = c) :
    Passes (InSetting c) op.run w w fun _ => InSetting c := by
  refine .operation fun stops v on h => ?_
  obtain ⟨hs, hv⟩ := h.setting
  obtain ⟨hl, hlast⟩ := Legs.of_both hw fun m hm => (hs m hm).trans hw
  exact ⟨_, hl, .onward (fun _ _ => ⟨hlast, hv.trans hw⟩)
    fun id force _ => advance_setting ⟨hlast, hv.trans hw⟩⟩

/-- However far an operation has come, the setting is what it was. -/
theorem Leaves.setting {w w' : World} {op : Operation} (hl : Leaves op.run w w') :
    w'.setting = w.setting := by
  have hpass := (operation_setting op rfl (w := w)).imp (fun _ _ hm => hm.2) fun _ _ _ hw' => hw'.2
  exact hpass.leaves (fun _ _ hm => hm) hl

end Act

/-! ## Runs -/

/-- Whether the numbers of an operation are ones that a position can have. -/
def Operation.InRange : Operation → Prop
  | .loadPart chapter part | .startChapter chapter part | .resumeFrom chapter part _ =>
    chapter ≤ Json.countLimit ∧ part ≤ Json.countLimit
  | _ => True

/-- The worlds that any operations can lead to from a fresh engine, each done to its
end or left at any suspension point. -/
inductive World.Reached : World → Prop where
  | fresh {w : World} {config : Config} {interrupts : List Interrupt}
      {listening audible : Bool} :
      w.engine = .fresh config interrupts listening audible → Reached w
  | step {w w' : World} {op : Operation} : Reached w → op.InRange →
      Act.Leaves op.run w w' → Reached w'

/-- A fresh engine over scripts and empty slots, in which nothing is waited for. -/
def World.opening (shelf : Shelf) : World :=
  .steady (.fresh .instant [] true true) shelf (.memory .empty)

end StoryChat
