/-
A record that cannot be read is no record.

A record is restored (`Act.loadProgress`) only after all of it was read, so that from one that
cannot be read nothing is restored, whatever is wrong with it. It is asked for after the
player's name (`Act.resumeSaved`), and what comes of the name does not depend on it. Where the
slot cannot be read, or what stands in it is not a record, the engine therefore ends as it does
where the slot is empty, and so do the journal and all else in the world but the slots, which
have been asked and not been written.
-/
import StoryChat.Proofs.Engine.Operation
import StoryChat.Proofs.Narrative.Record

set_option autoImplicit false

namespace StoryChat

namespace World

variable {w : World} {s : Saves}

/-- Whether what was answered for the record of progress is of no use: the slot could not be
read, or its text is no record, or the record is of a version from the future. -/
inductive Unreadable : Except SaveFault (Option String) → Prop where
  | lost (fault : SaveFault) : Unreadable (.error fault)
  | rejected {text : String} {fault : SaveFault} :
      Progress.parse text = .error fault → Unreadable (.ok (some text))

/-- What is answered for the record, which is asked for after the name. -/
def recordAnswer (w : World) : Except SaveFault (Option String) :=
  ((w.saves.get w.engine.config.nameKey).2.get w.engine.config.progressKey).1

/-! ## After the name -/

theorem saves_called (w : World) :
    w.called.saves = (w.saves.get w.engine.config.nameKey).2 := by
  unfold called
  split <;> rfl

theorem journal_called (w : World) :
    w.called.journal = .call (.get w.engine.config.nameKey) w.clock :: w.journal := by
  unfold called
  split <;> rfl

theorem clock_called (w : World) : w.called.clock = w.clock := by
  unfold called
  split <;> rfl

theorem kept?_called (w : World) : w.called.kept? = match w.recordAnswer with
    | .ok (some text) => (Progress.parse text).toOption
    | _ => none := by
  rw [kept?, config_called, saves_called]
  rfl

/-- So there is no record, as there is none where the slot is empty. -/
theorem Unreadable.kept?_called (h : Unreadable w.recordAnswer) : w.called.kept? = none := by
  rw [World.kept?_called]
  generalize w.recordAnswer = answer at h
  cases h with
  | lost fault => rfl
  | rejected htext =>
    dsimp only
    rw [htext]
    rfl

theorem kept?_called_of_empty (h : w.recordAnswer = .ok none) : w.called.kept? = none := by
  rw [kept?_called, h]

/-- What comes of the name depends on nothing in the slots but the answer for it. -/
theorem called_of_same_name
    (h : (s.get w.engine.config.nameKey).1 = (w.saves.get w.engine.config.nameKey).1) :
    ({ w with saves := s } : World).called =
      { w.called with saves := (s.get w.engine.config.nameKey).2 } := by
  have hname : ({ w with saves := s } : World).keptName? = w.keptName? := by
    rw [keptName?, keptName?, h]
  unfold called
  rw [hname]
  split <;> rfl

/-- The world after the name and the record were asked for and there was no record. -/
def unrecorded (w : World) : World := w.called.asked w.engine.config.progressKey

theorem unrecorded_of_same_name
    (h : (s.get w.engine.config.nameKey).1 = (w.saves.get w.engine.config.nameKey).1) :
    ({ w with saves := s } : World).unrecorded =
      { w.unrecorded with saves := ({ w with saves := s } : World).unrecorded.saves } := by
  rw [unrecorded, unrecorded, called_of_same_name h]
  rfl

theorem medium_unrecorded (w : World) : w.unrecorded.saves.medium = w.saves.medium := by
  rw [unrecorded, medium_asked, medium_called]

theorem journal_unrecorded (w : World) : w.unrecorded.journal =
    .call (.get w.engine.config.progressKey) w.clock ::
      .call (.get w.engine.config.nameKey) w.clock :: w.journal := by
  rw [unrecorded, asked, journal_note, clock_called]
  exact congrArg _ w.journal_called

/-! ## All of it -/

/-- If the slot for the record is of no use, an idle engine has nothing to continue
(`Act.resumeSaved`). Nothing but the name is taken into the conversation; the slots are asked
and not written, and nothing is told or played. With slots that answer the same for the name
and have no record, the engine comes to the same end, and so does everything but the slots. -/
theorem unreadable_is_none (hidle : w.engine.narrative.flags.processing = false)
    (hbad : Unreadable w.recordAnswer) :
    ∃ m, Act.resumeSaved (w.under .endless) = .ok (.ok none) m ∧
      m.engine = w.called.engine ∧ m.saves.medium = w.saves.medium ∧
      m.journal = .call (.get w.engine.config.progressKey) w.clock ::
        .call (.get w.engine.config.nameKey) w.clock :: w.journal ∧
      ∀ s : Saves, (s.get w.engine.config.nameKey).1 = (w.saves.get w.engine.config.nameKey).1 →
        ({ w with saves := s } : World).recordAnswer = .ok none →
        ∃ m₀, Act.resumeSaved (({ w with saves := s } : World).under .endless) =
            .ok (.ok none) m₀ ∧
          m₀.saves.medium = s.medium ∧ m = { m₀ with saves := m.saves } := by
  have hrun := (Act.path_resumeSaved_unread hidle hbad.kept?_called).whole
  refine ⟨w.unrecorded.under .endless, hrun, rfl, w.medium_unrecorded, w.journal_unrecorded,
    fun s hname hempty => ?_⟩
  -- the run with the other slots takes the same path, from a world that differs in them only
  let w₀ : World := { w with saves := s }
  have hrun₀ := (Act.path_resumeSaved_unread (w := w₀) hidle (kept?_called_of_empty hempty)).whole
  refine ⟨w₀.unrecorded.under .endless, hrun₀, w₀.medium_unrecorded, ?_⟩
  rw [unrecorded_of_same_name hname]
  rfl

/-! ### A record from the future -/

/-- A record of a version that is not known yet. -/
def foreign : Progress where
  version := 2
  chapter := 3
  blocked := true

/-- A world whose player has a name and such a record. -/
def foreseen : World :=
  .steady (.fresh .standard [] true true) (fun id => .error (.notFound id))
    (.memory (.ofList [("playerName", "Ava"), ("gameProgress", foreign.render)]))

/-- The slots with the name alone. -/
def nameOnly : Saves := .reliable (.memory (.ofList [("playerName", "Ava")]))

theorem unreadable_is_none_foreign : Unreadable foreseen.recordAnswer ∧ ∃ m m₀,
    Act.resumeSaved (foreseen.under .endless) = .ok (.ok none) m ∧
      Act.resumeSaved (({ foreseen with saves := nameOnly } : World).under .endless) =
        .ok (.ok none) m₀ ∧
      m.engine.narrative = { Narrative.fresh .standard with playerName := "Ava", started := true } ∧
      m.engine = m₀.engine ∧ m.journal = m₀.journal ∧
      m.saves.medium = foreseen.saves.medium := by
  have hparse : Progress.parse foreign.render = .error (.unsupportedVersion 2) := by
    have hread : Progress.ofJson? foreign.toJson = some foreign := by decide +kernel
    rw [Progress.parse_render_eq, hread]
    rfl
  have hbad : Unreadable foreseen.recordAnswer := .rejected hparse
  obtain ⟨m, hrun, hengine, hmedium, -, hsame⟩ := unreadable_is_none (w := foreseen) rfl hbad
  obtain ⟨m₀, hrun₀, -, hm⟩ := hsame nameOnly rfl rfl
  refine ⟨hbad, m, m₀, hrun, hrun₀, ?_, ?_, ?_, hmedium⟩
  · rw [hengine]
    rfl
  · rw [hm]
  · rw [hm]

end World

end StoryChat
