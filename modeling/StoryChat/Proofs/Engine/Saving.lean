/-
What is saved is loaded.

A conversation is saved as the text of its record (`Act.saveProgress`) and loaded from it
(`Act.loadProgress`). On the way it goes through four lists of fields: those of the record
that is taken, of the document that is written, of the document that is read, and of the
conversation that is restored. A field that is missing in one of them is lost without
anything being refused, so what is asked for here is an equation of whole records. What is
not in a record belongs to the conversation that loads it, and stays as it is.

Not every conversation comes back (`Narrative.Keepable`). Its variables must be typed,
since restoring writes them anew; a participant must not go by the name of another sort of
sender; and numbers and points in time must be ones that have a text.
-/
import StoryChat.Proofs.Engine.Resuming
import StoryChat.Proofs.Story.Bounded
import StoryChat.Proofs.Time.Timestamp

set_option autoImplicit false

namespace StoryChat

/-! ## Conversations that can be kept -/

/-- A participant with a name of its own is regular, as are the player and the system. -/
theorem Sender.regular_of_ne {s : Sender} (hp : s ≠ .npc "player") (hs : s ≠ .npc "system") :
    s.Regular := by
  cases s with
  | player => rfl
  | system => rfl
  | npc name =>
    have hplayer : name ≠ "player" := fun h => hp (congrArg Sender.npc h)
    have hsystem : name ≠ "system" := fun h => hs (congrArg Sender.npc h)
    rw [Regular, Sender.name, ofName, if_neg hplayer, if_neg hsystem]

/-- Whether a conversation is one that a record can hold, for a schema. -/
structure Narrative.Keepable (n : Narrative) (s : Schema) : Prop where
  typed : n.vars.Typed s
  finite : ∀ x, n.vars.Holds x → Decimal.isFinite x = true
  senders : ∀ m ∈ n.messages, m.sender ≠ .npc "player" ∧ m.sender ≠ .npc "system"
  moments : ∀ m ∈ n.messages, m.sentAt.Proper
  chapter : n.chapter ≤ Json.countLimit
  part : n.part ≤ Json.countLimit

namespace Narrative.Keepable

variable {n : Narrative} {s : Schema}

theorem regular (h : n.Keepable s) : n.snapshot.Regular where
  senders m hm := Sender.regular_of_ne (h.senders m hm).1 (h.senders m hm).2
  chapter := h.chapter
  part := h.part

/-- What is left to ask for is that its numbers are read back. -/
theorem readable (h : n.Keepable s)
    (hread : ∀ x, n.vars.Holds x → Decimal.isFinite x = true → ReadBack x) :
    n.snapshot.Readable where
  values e he := by
    have hget : n.vars.get? e.1 = some e.2 := Table.get?_eq_some_iff.2 he
    obtain ⟨name, value⟩ := e
    cases value with
    | bool b => rfl
    | text t => rfl
    | number x => exact hread x ⟨name, hget⟩ (h.finite x ⟨name, hget⟩)
  moments m hm := (h.moments m hm).ofText?_text

end Narrative.Keepable

/-! ## Saving and loading -/

namespace World

variable {w v : World}

/-- The record that is found is restored whole, by a conversation of the same schema. -/
theorem snapshot_recalled {s : Schema} (hs : s.Built)
    (hw : w.engine.narrative.vars.Suits s) (hv : v.engine.narrative.vars.schema = s) :
    (v.recalled w.engine.narrative.snapshot).engine.narrative.snapshot =
      w.engine.narrative.snapshot := by
  have hvars : v.engine.narrative.vars.restore w.engine.narrative.snapshot.vars =
      w.engine.narrative.vars := hw.restore_values hs hv
  simp only [recalled, narrative_tell, engine_asked, Narrative.restore,
    Narrative.snapshot] at hvars ⊢
  rw [hvars]

/-- A conversation is saved (`Act.saveProgress`), and whoever loads from the same slots
(`Act.loadProgress`) has its record, with all else of his own. -/
theorem loads_saved {s : Schema} (hs : s.Built) (hw : w.engine.narrative.Keepable s)
    (hread : ∀ x, w.engine.narrative.vars.Holds x → Decimal.isFinite x = true → ReadBack x)
    (hsaves : w.saves.Willing w.engine.config.progressKey) :
    ∃ w', Act.saveProgress (w.under .endless) = .ok (.ok ()) w' ∧
      ∀ v : World, v.saves.medium = w'.saves.medium →
        (∀ n call, v.saves.refusal n call = none) →
        v.engine.config.progressKey = w.engine.config.progressKey →
        v.engine.narrative.vars.schema = s →
        ∃ v', Act.loadProgress (v.under .endless) = .ok (.ok true) v' ∧
          v'.engine.narrative.snapshot = w.engine.narrative.snapshot ∧
          v'.engine.narrative.playerName = v.engine.narrative.playerName ∧
          v'.engine.narrative.title = v.engine.narrative.title ∧
          v'.engine.narrative.flags = v.engine.narrative.flags := by
  have hsave : Act.saveProgress (w.under .endless) =
      .ok (w.saves.set w.engine.config.progressKey w.engine.narrative.snapshot.render).1
        (w.saved.under .endless) := rfl
  refine ⟨w.saved.under .endless, ?_, fun v hmedium hrefusal hkey hschema => ?_⟩
  · rw [hsave, hsaves.set_fst]
  -- the text is in the slot, it is read back as the record, and the record is restored
  have hslot : (v.saves.get v.engine.config.progressKey).1 =
      .ok (some w.engine.narrative.snapshot.render) := by
    rw [Saves.get_of_refusal hrefusal, hmedium, saves_under, saves_saved, hkey,
      hsaves.medium_set]
    exact SlotMedium.get_set (hsaves.takes _)
  have hkept : v.kept? = some w.engine.narrative.snapshot :=
    kept?_of_render hw.regular (hw.readable hread) rfl hslot
  refine ⟨_, (Act.Path.loadProgress_some hkept).whole, ?_, rfl, rfl, rfl⟩
  exact snapshot_recalled hs hw.typed.toSuits hschema

end World

/-! ### A conversation under way -/

theorem Schema.built_standard : Schema.standard.Built := Schema.proper_standard.built

/-- A conversation in which two have spoken and the tension has risen. -/
def Narrative.underway : Narrative :=
  { Narrative.fresh .standard with
    started := true
    vars := ((Variables.ofSchema .standard).set "tension" (.number 60)).set "is_liar" (.bool true)
    messages :=
      [⟨"start", .npc "valeria", .audio, "Hi", .millennium, true⟩,
        ⟨"answer", .player, .text, "Hello", .millennium, false⟩]
    currentNode := some "ask"
    chapter := 2
    activeScript := some "detour" }

/-- What is found in the variables of that conversation. -/
theorem Narrative.holds_underway : ∀ x, Narrative.underway.vars.Holds x →
    Decimal.isFinite x = true ∧ ReadBack x := by
  have hall : ∀ e ∈ Narrative.underway.vars.values.entries, ∀ y ∈ e.2.number?,
      Decimal.isFinite y = true ∧ Value.ofJson? (Value.number y).toJson = some (.number y) := by
    decide +kernel
  exact Variables.forall_holds hall

theorem Narrative.keepable_underway : Narrative.underway.Keepable .standard where
  typed := Variables.typed_of_entries Schema.built_standard rfl (by decide +kernel)
    (by decide +kernel)
  finite x hx := (holds_underway x hx).1
  senders := by decide
  moments := by decide +kernel
  chapter := by decide
  part := by decide

/-- An engine over no scripts that has a conversation. -/
def World.having (n : Narrative) : World :=
  (World.opening fun id => .error (.notFound id)).tell fun _ => n

theorem World.loads_saved_underway : ∃ w' v' : World,
    Act.saveProgress ((World.having .underway).under .endless) = .ok (.ok ()) w' ∧
    Act.loadProgress ({ World.having { Narrative.fresh .standard with playerName := "Ava" } with
      saves := w'.saves }.under .endless) = .ok (.ok true) v' ∧
    v'.engine.narrative.snapshot = Narrative.underway.snapshot ∧
    v'.engine.narrative.playerName = "Ava" := by
  have hwilling : (World.having .underway).saves.Willing
      (World.having .underway).engine.config.progressKey := ⟨fun _ _ => rfl, fun _ => rfl⟩
  obtain ⟨w', hsave, hload⟩ := World.loads_saved Schema.built_standard
    Narrative.keepable_underway (fun x hx _ => (Narrative.holds_underway x hx).2) hwilling
  have hw' : w' = (World.having .underway).saved.under .endless := by
    cases hsave
    rfl
  obtain ⟨v', hv', hsnapshot, hname, -, -⟩ := hload
    { World.having { Narrative.fresh .standard with playerName := "Ava" } with saves := w'.saves }
    rfl (by rw [hw']; exact fun _ _ => rfl) rfl rfl
  exact ⟨w', v', hsave, hv', hsnapshot, hname⟩

end StoryChat
