/-
Two runs of a story, in lockstep.

Two worlds may be told apart by much of what is around a story, by the pace, the clock, the
slots or what happened before, and the story in them can be the same for all that. Which worlds
are taken for the same is a relation between them, and a parameter here. An operation
`Respects` it if in related worlds it comes to the same and leaves related worlds, whether it
ends or stops.

To respect a relation is to go together with itself in a certain comparison, so what a relation
must bear is what a comparison must: `Attuned` lists it for relations, and `Concordant` adds
that the two slots answer the same. Everything that is done with an engine then respects the
relation.
-/
import StoryChat.Proofs.Engine.Comparison

set_option autoImplicit false

namespace StoryChat

/-- Whether a key is that of one of the two slots. -/
def Config.Owns (c : Config) (key : String) : Prop := key = c.progressKey ∨ key = c.nameKey

namespace Act

variable {α β : Type} {R : World → World → Prop} {w w' : World}

/-! ## Operations that respect a relation -/

/-- Outcomes that are the same, in worlds that are related. -/
inductive Outcome.Related (R : World → World → Prop) : Outcome α → Outcome α → Prop where
  | ok {a : α} {w w' : World} : R w w' → Related R (.ok a w) (.ok a w')
  | error {s : Stop} {w w' : World} : R w w' → Related R (.error s w) (.error s w')

/-- What is left behind is related. -/
theorem Outcome.Related.left {out out' : Outcome α} (h : Outcome.Related R out out') :
    R out.left out'.left := by
  cases h with
  | ok h | error h => exact h

/-- Whether an operation comes to the same in related worlds, and leaves them related. -/
def Respects (R : World → World → Prop) (act : Act α) : Prop :=
  ∀ w w', R w w' → Outcome.Related R (act w) (act w')

/-! ### As a comparison -/

/-- Outcomes that go together, in worlds that are related. -/
inductive Outcome.Paired (V : α → α → Prop) (R : World → World → Prop) :
    Outcome α → Outcome α → Prop where
  | ok {a a' : α} {w w' : World} : V a a' → R w w' → Paired V R (.ok a w) (.ok a' w')
  | error {s : Stop} {w w' : World} : R w w' → Paired V R (.error s w) (.error s w')

/-- Operations go together if they do in related worlds, and leave them related. -/
def Together (R : World → World → Prop) : Comparison := fun _ V act act' =>
  ∀ w w', R w w' → Outcome.Paired V R (act w) (act' w')

theorem Outcome.paired_eq_iff {out out' : Outcome α} :
    Outcome.Paired Eq R out out' ↔ Outcome.Related R out out' := by
  constructor
  · intro h
    cases h with
    | ok ha hw =>
      cases ha
      exact .ok hw
    | error hw => exact .error hw
  · intro h
    cases h with
    | ok hw => exact .ok rfl hw
    | error hw => exact .error hw

/-- To respect a relation is to go together with itself. -/
theorem together_iff {act : Act α} : Together R α Eq act act ↔ Respects R act :=
  forall_congr' fun _ => forall_congr' fun _ => imp_congr_right fun _ => Outcome.paired_eq_iff

namespace Together

variable {V : α → α → Prop}

theorem bind {U : β → β → Prop} {first first' : Act β} {next next' : β → Act α}
    (h : Together R β U first first') (h' : ∀ b b', U b b' → Together R α V (next b) (next' b')) :
    Together R α V (first >>= next) (first' >>= next') := by
  intro w w' hw
  have hfirst := h w w' hw
  rw [bind_apply, bind_apply]
  generalize first w = out at hfirst ⊢
  generalize first' w' = out' at hfirst ⊢
  cases hfirst with
  | ok hb hm => exact h' _ _ hb _ _ hm
  | error hm => exact .error hm

theorem cleaning {cleanup : World → World} {act act' : Act α}
    (hc : Together R Unit Eq (change cleanup) (change cleanup)) (h : Together R α V act act') :
    Together R α V (cleaning cleanup act) (cleaning cleanup act') := by
  have hclean (w w' : World) (hw : R w w') : R (cleanup w) (cleanup w') := by
    cases hc w w' hw with
    | ok _ hm => exact hm
  intro w w' hw
  have hact := h w w' hw
  unfold Act.cleaning
  generalize act w = out at hact ⊢
  generalize act' w' = out' at hact ⊢
  cases hact with
  | ok ha hm => exact .ok ha (hclean _ _ hm)
  | error hm => exact .error (hclean _ _ hm)

theorem look {f : World → α} (hf : ∀ w w', R w w' → V (f w) (f w')) :
    Together R α V (look f) (look f) := fun w w' h => .ok (hf w w' h) h

theorem change {f f' : World → World} (hf : ∀ w w', R w w' → R (f w) (f' w')) :
    Together R Unit Eq (change f) (change f') := fun w w' h => .ok rfl (hf w w' h)

/-- Worlds with the same interrupts ask the same ones. -/
theorem heeds (h : ∀ w w', R w w' → w'.engine.interrupts = w.engine.interrupts) :
    Heeds (Together R) := look fun w w' hw => (h w w' hw).symm

end Together

/-! ### In sequence -/

namespace Respects

theorem pure (a : α) : Respects R (pure a) := fun _ _ h => .ok h

theorem look {f : World → α} (hf : ∀ w w', R w w' → f w' = f w) : Respects R (look f) := by
  intro w w' h
  rw [look_apply, look_apply, hf w w' h]
  exact .ok h

theorem change {f : World → World} (hf : ∀ w w', R w w' → R (f w) (f w')) :
    Respects R (change f) := fun w w' h => .ok (hf w w' h)

theorem bind {first : Act α} {next : α → Act β} (h : Respects R first)
    (h' : ∀ a, Respects R (next a)) : Respects R (first >>= next) := by
  refine together_iff.1 (.bind (together_iff.2 h) fun a a' ha => ?_)
  subst ha
  exact together_iff.2 (h' a)

theorem map {act : Act α} (f : α → β) (h : Respects R act) : Respects R (f <$> act) := by
  rw [map_eq_pure_bind]
  exact h.bind fun a => .pure (f a)

theorem ite {c : Prop} [Decidable c] {act act' : Act α} (h : Respects R act)
    (h' : Respects R act') : Respects R (if c then act else act') := by
  split
  · exact h
  · exact h'

end Respects

/-- One world alone, as long as it is of an invariant: nothing is told apart from it. -/
def Alone (I : World → Prop) (w w' : World) : Prop := w' = w ∧ I w

/-- To respect this is to maintain the invariant. -/
theorem Respects.maintains {I : World → Prop} {act : Act α} (h : Respects (Alone I) act) :
    Maintains I act := by
  intro w hw
  have hact := (h w w ⟨rfl, hw⟩).left.2
  unfold Guards
  cases hr : act w with
  | ok a m | error s m =>
    rw [hr] at hact
    exact hact

/-! ## Time -/

/-- Whether related worlds wait alike: at the same pace, from the same moment on and with the
same patience. -/
structure Timed (R : World → World → Prop) : Prop where
  pacing : ∀ {w w'}, R w w' → w'.engine.config.pacing = w.engine.config.pacing
  clock : ∀ {w w'}, R w w' → w'.clock = w.clock
  patience : ∀ {w w'}, R w w' → w'.patience = w.patience
  pass : ∀ {w w'} (time : Nat) (p : Patience), R w w' →
    R { w with clock := time, patience := p } { w' with clock := time, patience := p }
  note : ∀ {w w'} (span : Duration), R w w' →
    R (w.note (.pause span)) (w'.note (.pause span))

namespace Timed

theorem suspend (hR : Timed R) : Respects R suspend := by
  intro w w' h
  unfold Act.suspend
  rw [hR.patience h, hR.clock h]
  cases w.patience with
  | endless | deadline => exact .ok h
  | suspensions left =>
    cases left with
    | zero => exact .error h
    | succ left => exact .ok (hR.pass _ _ h)

theorem sleep (hR : Timed R) (millis : Nat) : Respects R (sleep millis) := by
  intro w w' h
  unfold Act.sleep
  rw [hR.patience h, hR.clock h]
  cases w.patience with
  | endless | suspensions => exact .ok (hR.pass _ _ h)
  | deadline time =>
    dsimp only
    split
    · exact .error (hR.pass _ _ h)
    · exact .ok (hR.pass _ _ h)

theorem pause (hR : Timed R) (span : Duration) : Respects R (pause span) := by
  refine .bind (.change fun w w' h => hR.note span h) fun _ => .bind (.look fun w w' h => ?_)
    fun _ => .ite (.pure ()) (.bind hR.suspend fun _ => hR.sleep _)
  rw [hR.pacing h]

end Timed

/-! ## What a relation must bear -/

/-- Whether a relation bears all that is done to a world while a story is played: related
worlds look the same but for their interrupts, draw alike, and stay related through each kind
of change and wherever an operation may be left. -/
structure Attuned (R : World → World → Prop) : Prop where
  core : ∀ {w w'}, R w w' → w'.core = w.core
  draw : ∀ {w w'}, R w w' → w.engine.config.pacing.Unvaried ∨ w'.draw = w.draw
  /-- The conversation may change, but not which variables are declared. -/
  tell : ∀ {w w'} {f : Narrative → Narrative}, R w w' →
    (f w.engine.narrative).vars.schema = w.engine.narrative.vars.schema →
    R (w.tell f) (w'.tell f)
  hold : ∀ {w w'} (graph : Option Graph), R w w' → R (w.holding graph) (w'.holding graph)
  emit : ∀ {w w'} (e : Event), R w w' → R (w.emit e) (w'.emit e)
  play : ∀ {w w'} (c : Cue), R w w' → R (w.play c) (w'.play c)
  /-- Whether a text could be put into the slot for progress is not looked at. -/
  save : ∀ {w w'}, R w w' → R w.saved w'.saved
  suspend : Respects R suspend
  pause : ∀ span, Respects R (pause span)

namespace Attuned

/-- What can be gone by is the same. -/
theorem view {f : World → α} (hR : Attuned R) (hf : ∀ w, f w.core = f w) (h : R w w') :
    f w' = f w := by
  rw [← hf w', hR.core h, hf w]

/-- Nothing but the factor on waiting differs between the configurations. -/
theorem config (hR : Attuned R) (h : R w w') : w'.engine.config =
    { w.engine.config with
      pacing := w.engine.config.pacing.atScale w'.engine.config.pacing.timeScale } := by
  have hc := congrArg (·.engine.config) (hR.core h)
  exact congrArg (fun c : Config => { c with
    pacing := c.pacing.atScale w'.engine.config.pacing.timeScale }) hc

/-- A span is drawn alike. -/
theorem sample_eq {f : Pacing → Float → α} (hR : Attuned R) (hf : Drawable f) (h : R w w') :
    f w'.engine.config.pacing w'.draw = f w.engine.config.pacing w.draw := by
  rw [hR.config h, hf.scale]
  rcases hR.draw h with hp | hw
  · exact hf.unvaried _ hp _ _
  · rw [hw]

/-- A relation that bears all kinds of changes is a comparison that does. -/
theorem rules (hR : Attuned R) : Rules (Together R) where
  pure ha _ _ h := .ok ha h
  bind := .bind
  stop _ _ _ h := .error h
  cleaning := .cleaning
  see hf := .look fun _ _ h => (hR.view (fun w => (hf w.core).symm.trans (hf w)) h).symm
  sample hf := .look fun _ _ h => (hR.sample_eq hf h).symm
  telling hf := .change fun _ _ h => hR.tell h (hf _)
  emitting e := .change fun _ _ => hR.emit e
  playing c := .change fun _ _ => hR.play c
  saving := .change fun _ _ => hR.save
  suspend := together_iff.2 hR.suspend
  pause span := together_iff.2 (hR.pause span)

/-- Its worlds hold the same scripts. -/
theorem lockstep (hR : Attuned R) : Lockstep (Together R) Eq Eq where
  toRules := hR.rules
  plain h := by rw [h]
  title h := by rw [h]
  find id := .look fun w w' h => by
    rw [hR.view (f := (·.findNode? id)) (fun _ => rfl) h]
    exact rel_refl Eq.refl _
  entrance := .look fun _ _ h => (hR.view (fun _ => rfl) h).symm
  shelf id := .look fun w w' h => by
    rw [hR.view (f := (·.shelf)) (fun _ => rfl) h]
    exact .refl Eq.refl _
  holding h := .change fun w w' hw => by
    cases h with
    | none => exact hR.hold none hw
    | some h =>
      subst h
      exact hR.hold _ hw
  settle h := by
    subst h
    exact hR.rules.settle _

end Attuned

/-! ## Slots that answer the same -/

/-- Whether a relation also bears that the two slots are asked for what they hold. -/
structure Concordant (R : World → World → Prop) : Prop extends Attuned R where
  answer : ∀ {w w'} {call : SlotCall}, w.engine.config.Owns call.key → R w w' →
    (w'.answer call).1 = (w.answer call).1 ∧ R (w.answer call).2 (w'.answer call).2

theorem untimed_engine : Untimed World.engine :=
  ⟨fun _ _ => rfl, fun _ _ => rfl, fun _ _ => rfl⟩

namespace Concordant

theorem askSlots (hR : Concordant R) {call : SlotCall} (hk : w.engine.config.Owns call.key)
    (h : R w w') : Outcome.Paired Eq R (askSlots call w) (askSlots call w') := by
  have hs := hR.suspend w w' h
  have he : (Outcome.left (Act.suspend w)).engine = w.engine := Fixes.suspend untimed_engine w
  unfold Act.askSlots
  rw [bind_apply, bind_apply]
  generalize Act.suspend w = out at hs he ⊢
  generalize Act.suspend w' = out' at hs ⊢
  cases hs with
  | error hm => exact .error hm
  | @ok _ m m' hm =>
    -- the engine is the same when the slots are called, so the key is still one of the two
    have hkm : m.engine.config.Owns call.key := by
      rw [show m.engine = w.engine from he]
      exact hk
    obtain ⟨ha, hafter⟩ := hR.answer hkm hm
    exact .ok ha.symm hafter

/-- A relation that bears calls on the slots is a comparison that does. -/
theorem concord (hR : Concordant R) : Concord (Together R) Eq Eq where
  toLockstep := hR.lockstep
  ask {key call} hkey hcall w w' h := by
    have hsame : key w'.engine.config = key w.engine.config := by
      rcases hkey with rfl | rfl
      · exact hR.view (f := (·.engine.config.progressKey)) (fun _ => rfl) h
      · exact hR.view (f := (·.engine.config.nameKey)) (fun _ => rfl) h
    rw [bind_apply, bind_apply, look_apply, look_apply, hsame]
    refine hR.askSlots ?_ h
    rw [hcall]
    exact hkey.imp (congrFun · _) (congrFun · _)

/-- An invariant of the engine and the shelf is borne if the conversation and the script may
change. -/
theorem alone {I : World → Prop}
    (outside : ∀ {w m : World}, I w → m.engine = w.engine → m.shelf = w.shelf → I m)
    (tell : ∀ {w : World} {f : Narrative → Narrative}, I w →
      (f w.engine.narrative).vars.schema = w.engine.narrative.vars.schema → I (w.tell f))
    (hold : ∀ {w : World} (graph : Option Graph), I w → I (w.holding graph)) :
    Concordant (Alone I) := by
  have timed : Timed (Alone I) :=
    { pacing := fun h => by rw [h.1]
      clock := fun h => by rw [h.1]
      patience := fun h => by rw [h.1]
      pass := fun _ _ h => ⟨by rw [h.1], outside h.2 rfl rfl⟩
      note := fun _ h => ⟨by rw [h.1], outside h.2 rfl rfl⟩ }
  exact
    { core := fun h => by rw [h.1]
      draw := fun h => .inr (by rw [h.1])
      tell := fun h hf => ⟨by rw [h.1], tell h.2 hf⟩
      hold := fun graph h => ⟨by rw [h.1], hold graph h.2⟩
      emit := fun {w _} e h => ⟨by rw [h.1],
        outside h.2 (w.engine_emit e) (World.shelf_eq_of_setting (w.setting_emit e))⟩
      play := fun {w _} c h => ⟨by rw [h.1],
        outside h.2 (w.engine_play c) (World.shelf_eq_of_setting (w.setting_play c))⟩
      save := fun h => ⟨by rw [h.1], outside h.2 rfl rfl⟩
      suspend := timed.suspend
      pause := timed.pause
      answer := fun _ h => ⟨by rw [h.1], by rw [h.1], outside h.2 rfl rfl⟩ }

end Concordant

end Act

end StoryChat
