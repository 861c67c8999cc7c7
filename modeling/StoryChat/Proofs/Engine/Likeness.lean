/-
Two runs of a story, side by side.

Around a story are things that hold it up or take something of it: the pace, the clock, the
draws, the patience of whoever waits, and the slots. What is left of a world without these
is its `gist`. Two worlds are `Alike` if they have the same gist and what is around them
differs only in a way that is allowed; which way that is, is a parameter here
(`Surroundings`).

An operation is `Indifferent` to what may differ if in worlds that are alike it comes to
the same and leaves worlds that are alike. What is around a story is asked for in few
places: where an operation is suspended, where it pauses, where it draws and where it keeps
the record. A difference that these places are indifferent to is `Immaterial`, and then so
is all the rest, since worlds that are alike can be played in lockstep.
-/
import StoryChat.Proofs.Engine.Lockstep

set_option autoImplicit false

namespace StoryChat

/-! ## The gist of a world -/

/-- An entry of the journal without its time. -/
def Entry.timeless : Entry → Entry
  | .cue c _ => .cue c 0
  | .call c _ => .call c 0
  | e => e

/-- What is around a story. -/
structure Surroundings where
  pacing : Pacing
  saves : Saves
  clock : Nat
  patience : Patience
  draws : Nat → Float

namespace World

/-- What is around the story of a world. -/
def surroundings (w : World) : Surroundings :=
  ⟨w.engine.config.pacing, w.saves, w.clock, w.patience, w.draws⟩

/-- A world without what is around its story: nothing in it is waited for or kept, and no
entry has a time. -/
def gist (w : World) : World :=
  { w with
    engine := { w.engine with
      config := { w.engine.config with pacing := w.engine.config.pacing.atScale 0.0 } }
    saves := .reliable (.memory .empty)
    clock := 0
    patience := .endless
    draws := fun _ => 0.0
    journal := w.journal.map Entry.timeless }

section

variable (w : World)

theorem gist_tell (f : Narrative → Narrative) : (w.tell f).gist = w.gist.tell f := rfl

theorem gist_note (e : Entry) : (w.note e).gist = w.gist.note e.timeless := rfl

theorem gist_emit (e : Event) : (w.emit e).gist = w.gist.emit e := by
  unfold emit
  exact apply_ite gist _ _ _

theorem gist_play (c : Cue) : (w.play c).gist = w.gist.play c := by
  unfold play
  exact apply_ite gist _ _ _

theorem surroundings_tell (f : Narrative → Narrative) :
    (w.tell f).surroundings = w.surroundings := rfl

theorem surroundings_note (e : Entry) : (w.note e).surroundings = w.surroundings := rfl

theorem surroundings_emit (e : Event) : (w.emit e).surroundings = w.surroundings := by
  unfold emit
  split <;> rfl

theorem surroundings_play (c : Cue) : (w.play c).surroundings = w.surroundings := by
  unfold play
  split <;> rfl

end

/-! ## Worlds that are alike -/

/-- Whether two worlds have the same gist, and what is around them differs as `T` allows. -/
structure Alike (T : Surroundings → Surroundings → Prop) (w w' : World) : Prop where
  gist : w'.gist = w.gist
  around : T w.surroundings w'.surroundings

namespace Alike

variable {T : Surroundings → Surroundings → Prop} {w w' : World}

/-- Changes that are not about the surroundings keep worlds alike. -/
theorem congr {m m' : World} (h : w.Alike T w') (hg : m'.gist = m.gist)
    (hm : m.surroundings = w.surroundings) (hm' : m'.surroundings = w'.surroundings) :
    m.Alike T m' := by
  refine ⟨hg, ?_⟩
  rw [hm, hm']
  exact h.around

theorem narrative (h : w.Alike T w') : w'.engine.narrative = w.engine.narrative :=
  congrArg (·.engine.narrative) h.gist

theorem graph (h : w.Alike T w') : w'.engine.graph = w.engine.graph :=
  congrArg (·.engine.graph) h.gist

theorem interrupts (h : w.Alike T w') : w'.engine.interrupts = w.engine.interrupts :=
  congrArg (·.engine.interrupts) h.gist

/-- What does not look at the surroundings is the same. -/
theorem view {α : Type} {f : World → α} (hf : ∀ w, f w.gist = f w) (h : w.Alike T w') :
    f w' = f w := by
  rw [← hf w', h.gist, hf w]

theorem tell (h : w.Alike T w') (f : Narrative → Narrative) : (w.tell f).Alike T (w'.tell f) := by
  refine h.congr ?_ (surroundings_tell _ _) (surroundings_tell _ _)
  rw [gist_tell, gist_tell, h.gist]

theorem note (h : w.Alike T w') {e e' : Entry} (he : e'.timeless = e.timeless) :
    (w.note e).Alike T (w'.note e') := by
  refine h.congr ?_ (surroundings_note _ _) (surroundings_note _ _)
  rw [gist_note, gist_note, h.gist, he]

theorem emit (h : w.Alike T w') (e : Event) : (w.emit e).Alike T (w'.emit e) := by
  refine h.congr ?_ (surroundings_emit _ _) (surroundings_emit _ _)
  rw [gist_emit, gist_emit, h.gist]

theorem play (h : w.Alike T w') (c : Cue) : (w.play c).Alike T (w'.play c) := by
  refine h.congr ?_ (surroundings_play _ _) (surroundings_play _ _)
  rw [gist_play, gist_play, h.gist]

end Alike

end World

namespace Act

variable {α : Type} {T : Surroundings → Surroundings → Prop}

/-! ## Operations that are indifferent -/

/-- Outcomes that are the same, in worlds that are alike. -/
inductive Outcome.Alike (T : Surroundings → Surroundings → Prop) :
    Outcome α → Outcome α → Prop where
  | ok {a : α} {w w' : World} : w.Alike T w' → Alike T (.ok a w) (.ok a w')
  | error {s : Stop} {w w' : World} : w.Alike T w' → Alike T (.error s w) (.error s w')

/-- Outcomes may be alike in a way that allows more. -/
theorem Outcome.Alike.imp {T' : Surroundings → Surroundings → Prop} {out out' : Outcome α}
    (h : Outcome.Alike T out out') (hT : ∀ s s', T s s' → T' s s') :
    Outcome.Alike T' out out' := by
  cases h with
  | ok h => exact .ok ⟨h.gist, hT _ _ h.around⟩
  | error h => exact .error ⟨h.gist, hT _ _ h.around⟩

/-- Whether an operation comes to the same in worlds that are alike, and leaves them so. -/
def Indifferent (T : Surroundings → Surroundings → Prop) (act : Act α) : Prop :=
  ∀ w w', w.Alike T w' → Outcome.Alike T (act w) (act w')

theorem Outcome.alike_iff {out out' : Outcome α} :
    Outcome.Alike T out out' ↔ Outcome.Related (World.Alike T) out out' := by
  constructor
  · intro h
    cases h with
    | ok hw => exact .ok hw
    | error hw => exact .error hw
  · intro h
    cases h with
    | ok hw => exact .ok hw
    | error hw => exact .error hw

/-- To be indifferent is to respect that worlds are alike. -/
theorem indifferent_iff {act : Act α} : Indifferent T act ↔ Respects (World.Alike T) act :=
  forall_congr' fun _ => forall_congr' fun _ => imp_congr_right fun _ => Outcome.alike_iff

/-! ## What is immaterial -/

/-- A difference in what is around a story that no place is touched by at which the story
asks for something. -/
structure Immaterial (T : Surroundings → Surroundings → Prop) : Prop where
  suspend : Indifferent T suspend
  pause : ∀ span, Indifferent T (pause span)
  draws : ∀ s s', T s s' → s.pacing.Unvaried ∨ s'.draws = s.draws
  puts : ∀ s s' key text, T s s' →
    T { s with saves := (s.saves.set key text).2 } { s' with saves := (s'.saves.set key text).2 }

/-- Pauses that vary are drawn alike. -/
theorem Immaterial.draw {w w' : World} (hT : Immaterial T) (h : w.Alike T w') :
    w.engine.config.pacing.Unvaried ∨ w'.draw = w.draw := by
  have hlength : w'.journal.length = w.journal.length := by
    have hj := congrArg (·.journal.length) h.gist
    simpa only [World.gist, List.length_map] using hj
  refine (hT.draws _ _ h.around).imp id fun hd => ?_
  have hd : w'.draws = w.draws := hd
  rw [World.draw, World.draw, hlength, hd]

/-! ## Worlds that are alike, in lockstep -/

/-- To keep the record is immaterial. -/
theorem Immaterial.saved {w w' : World} (hT : Immaterial T) (h : w.Alike T w') :
    w.saved.Alike T w'.saved := by
  refine ⟨?_, ?_⟩
  · exact congrArg (fun w : World => w.note
      (.call (.set w.engine.config.progressKey w.engine.narrative.snapshot.render) 0)) h.gist
  · have hkey : w'.engine.config.progressKey = w.engine.config.progressKey :=
      congrArg (·.engine.config.progressKey) h.gist
    have hput : w'.saved.surroundings = { w'.surroundings with
        saves := (w'.saves.set w.engine.config.progressKey
          w.engine.narrative.snapshot.render).2 } := by
      rw [← hkey, ← h.narrative]
      rfl
    rw [hput]
    exact hT.puts _ _ _ _ h.around

/-- Worlds that are alike stay so through all that is played, whatever immaterial differs. -/
theorem Immaterial.attuned (hT : Immaterial T) : Attuned (World.Alike T) where
  core h := h.view fun _ => rfl
  draw h := hT.draw h
  tell h _ := h.tell _
  hold graph h := h.congr (congrArg (·.holding graph) h.gist) rfl rfl
  emit e h := h.emit e
  play c h := h.play c
  save h := hT.saved h
  suspend := indifferent_iff.1 hT.suspend
  pause span := indifferent_iff.1 (hT.pause span)

/-! ## Slots that answer the same -/

/-- A difference that is immaterial and no difference between the slots. -/
structure Faithful (T : Surroundings → Surroundings → Prop) : Prop extends Immaterial T where
  saves : ∀ s s', T s s' → s'.saves = s.saves
  keeps : ∀ s s' saves, T s s' → T { s with saves } { s' with saves }

/-- Slots that are the same answer the same and are the same behind it. -/
theorem Faithful.concordant (hT : Faithful T) : Concordant (World.Alike T) where
  toAttuned := hT.attuned
  answer := @fun w w' call _ h => by
    have hs : w'.saves = w.saves := hT.saves _ _ h.around
    unfold World.answer
    rw [hs]
    exact ⟨rfl, congrArg (·.note (.call call 0)) h.gist, hT.keeps _ _ _ h.around⟩

end Act

end StoryChat
