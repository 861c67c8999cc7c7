/-
What a new story begins on.

A session begins a new story (`Act.newStory`) where it finds none to go on with
(`Act.resumeSession`). It comes to that in three ways. There is no record, or none that can be
read, and nothing has been restored. There is one whose script cannot be had, and everything
has been wiped. Or there is a record that has been restored, script and all, and leads nowhere:
it has no position, no part waits to be entered, and nobody has said anything by which one
could tell that its story has ended (`Progress.Adrift`). Such a record stays, and the new story
begins on top of it.

No more is needed for such a record than a part in which the other side only pretends to type.
-/
import StoryChat.Proofs.Engine.Resuming
import StoryChat.Session.Player

set_option autoImplicit false

namespace StoryChat

/-- Whether a conversation has not begun, but that its player may have a name and that it may
be said to have begun. -/
def Narrative.Clean (n : Narrative) (s : Schema) : Prop :=
  { n with playerName := "", started := false } = .fresh s

/-- Whether a record leads nowhere and does not look like the end of a story either. -/
structure Progress.Adrift (p : Progress) : Prop where
  nowhere : p.currentNode = none
  notPending : p.introPending = false
  notEnded : ¬ (p.started ∧ p.messages ≠ [])

namespace World

variable {w : World} {s : Schema}

theorem clean_called (h : w.engine.narrative = .fresh s) : w.called.engine.narrative.Clean s := by
  unfold called
  split
  · rw [engine_asked, h]
    rfl
  · rw [narrative_tell, engine_asked, h]
    rfl

/-- Of a conversation that has not begun nothing but the restored record is left. -/
theorem snapshot_opened_recalled {p : Progress} (h : w.engine.narrative.Clean s) (graph : Graph) :
    ((w.recalled p).opened p.script graph).engine.narrative.snapshot =
      ((Narrative.fresh s).restore p).snapshot := by
  have hvars : w.engine.narrative.vars = .ofSchema s := congrArg Narrative.vars h
  unfold Progress.script
  cases hscript : p.activeScript with
  | none =>
    simp only [opened, installed, recalled, narrative_tell, engine_asked, Narrative.restore,
      Narrative.moveTo, Narrative.snapshot, hvars, hscript]
    rfl
  | some name =>
    simp only [opened, diverted, recalled, narrative_tell, engine_asked, Narrative.restore,
      Narrative.snapshot, hvars, hscript]
    rfl

/-- If it is wiped, nothing of the record is left either. -/
theorem clean_cleared_recalled {p : Progress} (h : w.engine.narrative.Clean s) :
    (w.recalled p).cleared.engine.narrative.Clean s := by
  have hvars : w.engine.narrative.vars = .ofSchema s := congrArg Narrative.vars h
  have hschema : (w.recalled p).engine.narrative.vars.schema = s := by
    change (w.engine.narrative.vars.restore p.vars).schema = s
    rw [Variables.schema_restore, hvars]
    rfl
  change (w.recalled p).engine.narrative.forget.Clean s
  rw [Narrative.forget_eq, hschema]
  rfl

/-- What a session asks a restored conversation for is as the record has it. -/
theorem opened_recalled_fields (w : World) (p : Progress) (graph : Graph) :
    ((w.recalled p).opened p.script graph).engine.narrative.introPending = p.introPending ∧
      ((w.recalled p).opened p.script graph).engine.narrative.started = p.started ∧
      ((w.recalled p).opened p.script graph).engine.narrative.messages = p.messages := by
  unfold Progress.script
  cases p.activeScript <;> exact ⟨rfl, rfl, rfl⟩

end World

namespace Act

variable {w v : World}

/-! ## Three ways to a new story -/

/-- How a session comes from a world to a new story. -/
inductive BeginsAnew (w : World) : Resumed → World → Prop where
  /-- There is no record, or none that can be read. -/
  | unread : w.called.kept? = none →
      BeginsAnew w .newStory (w.called.asked w.engine.config.progressKey)
  /-- The script of the record cannot be had. -/
  | lost {p : Progress} {fault : LoadFault} : w.called.kept? = some p →
      w.shelf p.script = .error fault →
      BeginsAnew w .wiped (((w.called.recalled p).cleared.emptied
        w.engine.config.progressKey).emptied w.engine.config.nameKey)
  /-- The record leads nowhere. -/
  | adrift {p : Progress} {d : Document} : w.called.kept? = some p → w.shelf p.script = .ok d →
      p.Adrift → BeginsAnew w .newStory ((w.called.recalled p).opened p.script (.ofDocument d))

theorem resumeSession_of_some {walked : Walked}
    (h : resumeSaved (w.under .endless) = .ok (.ok (some walked)) v) :
    resumeSession (w.under .endless) = .ok .continued v := by
  rw [resumeSession, bind_apply, h]
  rfl

theorem resumeSession_of_none (h : resumeSaved (w.under .endless) = .ok (.ok none) v) :
    resumeSession (w.under .endless) = .ok (if v.engine.narrative.introPending then .pendingPart
      else if v.engine.narrative.started ∧ v.engine.narrative.messages ≠ [] then .ended
      else .newStory) v := by
  rw [resumeSession, bind_apply, h]
  change (if v.engine.narrative.introPending = true then _ else _ : Act Resumed) v = _
  split
  · rfl
  · split <;> rfl

/-- Without a record that can be read, a conversation that has not begun is all there is. -/
theorem resumeSession_of_unread (hb : w.engine.narrative.flags.processing = false)
    (hk : w.called.kept? = none) (hi : w.engine.narrative.introPending = false)
    (hm : w.engine.narrative.messages = []) : resumeSession (w.under .endless) =
      .ok .newStory ((w.called.asked w.engine.config.progressKey).under .endless) := by
  rw [resumeSession_of_none (path_resumeSaved_unread hb hk).whole]
  have hfields : w.called.engine.narrative.introPending = false ∧
      w.called.engine.narrative.messages = [] := by
    unfold World.called
    split <;> exact ⟨hi, hm⟩
  change EStateM.Result.ok (if w.called.engine.narrative.introPending = true then _ else _) _ = _
  rw [hfields.1, if_neg Bool.false_ne_true, if_neg fun h => h.2 hfields.2]

/-- A record whose script cannot be had is wiped. -/
theorem resumeSession_of_lost {p : Progress} {fault : LoadFault}
    (hb : w.engine.narrative.flags.processing = false) (hk : w.called.kept? = some p)
    (hs : w.shelf p.script = .error fault) : resumeSession (w.under .endless) = .ok .wiped
      ((((w.called.recalled p).cleared.emptied w.engine.config.progressKey).emptied
        w.engine.config.nameKey).under .endless) := by
  have hconfig : (w.called.recalled p).engine.config = w.engine.config := w.config_called
  rw [resumeSession, bind_apply, (comes_resumeSaved_lost hb hk hs).whole, ← hconfig]
  rfl

/-- What restoring the record and taking its script leads to is a new story only if the record
leads nowhere. -/
theorem beginsAnew_of_kept {p : Progress} {d : Document} {r : Resumed}
    (hb : w.engine.narrative.flags.processing = false) (hk : w.called.kept? = some p)
    (hs : w.shelf p.script = .ok d) (h : resumeSession (w.under .endless) = .ok r v)
    (hr : r = .newStory ∨ r = .wiped) : ∃ m, v = m.under .endless ∧ BeginsAnew w r m := by
  have hresume := (comes_resumeSaved hb hk hs).whole
  cases hnode : p.currentNode with
  | some id =>
    -- behind a position there is a walk, and then the story goes on
    rw [hnode, Onward.to, Onward.act, map_apply, map_apply] at hresume
    split at hresume
    · next walked u hwalk =>
      split at hwalk
      · cases hwalk
        rw [resumeSession_of_some hresume] at h
        cases h
        rcases hr with hr | hr <;> cases hr
      · cases hwalk
    · rw [resumeSession, bind_apply, hresume] at h
      cases h
  | none =>
    rw [hnode] at hresume
    have hsession := resumeSession_of_none hresume
    obtain ⟨hpending, hstarted, hmessages⟩ :=
      World.opened_recalled_fields w.called p (.ofDocument d)
    rw [World.engine_under, hpending, hstarted, hmessages] at hsession
    cases h.symm.trans hsession
    split at hr
    · rcases hr with hr | hr <;> cases hr
    · next hp =>
      split at hr
      · rcases hr with hr | hr <;> cases hr
      · next he =>
        rw [if_neg hp, if_neg he]
        exact ⟨_, rfl, .adrift hk hs ⟨hnode, Bool.eq_false_iff.2 hp, he⟩⟩

/-- There is no other way to a new story. -/
theorem beginsAnew_of_resumeSession {r : Resumed}
    (hb : w.engine.narrative.flags.processing = false)
    (h : resumeSession (w.under .endless) = .ok r v) (hr : r = .newStory ∨ r = .wiped) :
    ∃ m, v = m.under .endless ∧ BeginsAnew w r m := by
  cases hk : w.called.kept? with
  | none =>
    have hsession := resumeSession_of_none (path_resumeSaved_unread hb hk).whole
    cases h.symm.trans hsession
    split at hr
    · rcases hr with hr | hr <;> cases hr
    · next hp =>
      split at hr
      · rcases hr with hr | hr <;> cases hr
      · next he =>
        rw [if_neg hp, if_neg he]
        exact ⟨_, rfl, .unread hk⟩
  | some p =>
    cases hs : w.shelf p.script with
    | error fault =>
      cases h.symm.trans (resumeSession_of_lost hb hk hs)
      exact ⟨_, rfl, .lost hk hs⟩
    | ok d => exact beginsAnew_of_kept hb hk hs h hr

/-! ## What it begins on -/

/-- A new story begins clean (`Narrative.Clean`), unless a record that leads nowhere
(`Progress.Adrift`) has been restored, script and all: then it begins with all that is in the
record. -/
theorem begins_clean_unless_adrift {config : Config} {interrupts : List Interrupt}
    {listening audible : Bool} {r : Resumed}
    (hw : w.engine = .fresh config interrupts listening audible)
    (h : resumeSession (w.under .endless) = .ok r v) (hr : r = .newStory ∨ r = .wiped) :
    ((∀ p d, w.called.kept? = some p → p.Adrift → w.shelf p.script ≠ .ok d) →
      v.engine.narrative.Clean config.schema) ∧
    ∀ p d, w.called.kept? = some p → p.Adrift → w.shelf p.script = .ok d →
      v.engine.narrative.snapshot = ((Narrative.fresh config.schema).restore p).snapshot := by
  have hnarrative : w.engine.narrative = .fresh config.schema := by
    rw [hw]
    rfl
  have hcalled : w.called.engine.narrative.Clean config.schema := World.clean_called hnarrative
  obtain ⟨m, rfl, hanew⟩ := beginsAnew_of_resumeSession (by rw [hnarrative]; rfl) h hr
  -- a session begins anew without a record, without its script, or with one that leads nowhere
  cases hanew with
  | unread hk =>
    refine ⟨fun _ => hcalled, fun p d hp => ?_⟩
    rw [hk] at hp
    cases hp
  | @lost p fault hk hs =>
    refine ⟨fun _ => World.clean_cleared_recalled hcalled, fun q d hq _ hd => ?_⟩
    cases hk.symm.trans hq
    rw [hs] at hd
    cases hd
  | @adrift p d hk hs hadrift =>
    refine ⟨fun hno => absurd hs (hno p d hk hadrift), fun q e hq _ _ => ?_⟩
    cases hk.symm.trans hq
    exact World.snapshot_opened_recalled hcalled _

end Act

/-! ### A record that leads nowhere -/

/-- A part in which the other side only pretends to type, while the tension rises. -/
def Document.pretence : Document where
  title := none
  nodes := [{ Node.message "start" (.npc "valeria") "" with
    kind := .typingFake
    actions := [.set "tension" (.number 50)]
    typingCycles := some 1 }]

/-- The first part is such a one. -/
def Shelf.pretending : Shelf := fun id =>
  if id = .part 1 1 then .ok .pretence else .error (.notFound id)

/-- What is kept behind it. -/
def Progress.drifting : Progress where
  vars := ((Variables.ofSchema .standard).set "tension" (.number 50)).values
  started := true

theorem Progress.parse_drifting : parse drifting.render = .ok drifting := by
  refine parse_render ⟨List.forall_mem_nil _, by decide, by decide⟩ ⟨?_, List.forall_mem_nil _⟩ rfl
  decide +kernel

/-- A fresh engine over the slots that are left behind that part. -/
def World.drifting : World :=
  { World.opening .pretending with
    saves := .reliable (.memory (Table.empty.insert "gameProgress" Progress.drifting.render)) }

theorem World.kept?_drifting : drifting.called.kept? = some .drifting := by
  have hslot : (drifting.called.saves.get drifting.called.engine.config.progressKey).1 =
      .ok (some Progress.drifting.render) := rfl
  rw [kept?, hslot]
  dsimp only
  rw [Progress.parse_drifting]
  rfl

theorem Progress.adrift_drifting : Progress.drifting.Adrift where
  nowhere := rfl
  notPending := rfl
  notEnded h := h.2 rfl

theorem Act.resumeSession_drifting : ∃ v,
    resumeSession (World.drifting.under .endless) = .ok .newStory v ∧
      v.engine.narrative.snapshot = ((Narrative.fresh .standard).restore .drifting).snapshot := by
  have hresume := (comes_resumeSaved (w := World.drifting) (d := .pretence) rfl
    World.kept?_drifting rfl).whole
  refine ⟨_, resumeSession_of_none hresume, ?_⟩
  exact World.snapshot_opened_recalled (World.clean_called rfl) _

/-- A new story begins on top of it. -/
theorem Act.begins_clean_unless_adrift_drifting : ∃ v,
    resumeSession (World.drifting.under .endless) = .ok .newStory v ∧
      v.engine.narrative.snapshot = ((Narrative.fresh .standard).restore .drifting).snapshot := by
  obtain ⟨v, hrun, -⟩ := resumeSession_drifting
  have hfresh : World.drifting.engine = .fresh .instant [] true true := rfl
  have hbegins := begins_clean_unless_adrift hfresh hrun (.inl rfl)
  exact ⟨v, hrun, hbegins.2 _ .pretence World.kept?_drifting Progress.adrift_drifting rfl⟩

/-- So a part that only pretends to type makes the next new story begin with its tension. -/
theorem World.not_clean_of_drifting : ∃ halt w v,
    Act.startChapter 1 1 (World.opening .pretending) = .ok (.ok halt) w ∧
      w.saves.medium = World.drifting.saves.medium ∧
      World.drifting.engine = .fresh .instant [] true true ∧
      Act.resumeSession (World.drifting.under .endless) = .ok .newStory v ∧
      v.engine.narrative.vars.get? "tension" = some (.number 50) ∧
      ¬ v.engine.narrative.Clean .standard := by
  obtain ⟨v, hrun, hsnapshot⟩ := Act.resumeSession_drifting
  have htension : v.engine.narrative.vars.get? "tension" = some (.number 50) := by
    have hvalues : v.engine.narrative.vars.values =
      ((Narrative.fresh .standard).restore .drifting).vars.values :=
      congrArg Progress.vars hsnapshot
    rw [Variables.get?, hvalues]
    decide +kernel
  refine ⟨_, _, v, rfl, rfl, rfl, hrun, htension, fun hclean => ?_⟩
  have hvars : v.engine.narrative.vars = .ofSchema .standard := congrArg Narrative.vars hclean
  rw [hvars] at htension
  exact absurd htension (by decide +kernel)

end StoryChat
