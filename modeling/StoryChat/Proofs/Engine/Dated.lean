/-
Every message was sent at a point in time that has a text.

The clock gives such points, and so does whatever was read, for nothing else is accepted.
No operation makes up another one: it sends a message at the time of the clock, or takes
messages over from a record that it has read.

This is an invariant of the scene (`Dated`), kept by the openings of operations and by
the steps of their walks.
-/
import StoryChat.Proofs.Engine.Opening
import StoryChat.Proofs.Narrative.Reading
import StoryChat.Proofs.Time.Timestamp

set_option autoImplicit false

namespace StoryChat

open Json

/-! ## What was read -/

theorem Message.proper_of_ofJson? {j : Json} {m : Message} (h : ofJson? j = some m) :
    m.sentAt.Proper := by
  unfold ofJson? at h
  simp only [Option.bind_eq_bind, Option.bind_eq_some_iff] at h
  obtain ⟨fields, -, id, -, sender, -, medium, -, content, -, sentAt, hsent, read, -, hm⟩ := h
  cases hm
  obtain ⟨j', hj'⟩ := exists_of_required hsent
  obtain ⟨text, -, htext⟩ := Option.bind_eq_some_iff.1 hj'
  exact Timestamp.proper_of_ofText? htext

/-- The messages of a record that was read. -/
theorem Progress.proper_of_parse {text : String} {p : Progress} (h : parse text = .ok p) :
    ∀ m ∈ p.messages, m.sentAt.Proper := by
  obtain ⟨j, hj⟩ := exists_of_parse h
  obtain ⟨fields, -, hread⟩ := ofJson?_eq_some_iff.1 hj
  intro m hm
  rcases of_defaulted hread.messages with hnil | ⟨j', hj'⟩
  · rw [hnil] at hm
    cases hm
  · obtain ⟨j'', hj''⟩ := exists_of_mem_asList? hj' hm
    exact Message.proper_of_ofJson? hj''

/-! ## What is read of is sent no later -/

/-- Reading changes no message's point in time. -/
theorem Message.proper_markLastOfPlayer? {ms ms' : List Message} {id : String}
    (h : markLastOfPlayer? ms = some (id, ms')) (hms : ∀ m ∈ ms, m.sentAt.Proper) :
    ∀ m ∈ ms', m.sentAt.Proper := by
  induction ms generalizing ms' id with
  | nil => cases h
  | cons m ms ih =>
    obtain ⟨hm, hrest⟩ := List.forall_mem_cons.1 hms
    rw [markLastOfPlayer?] at h
    split at h
    · next hlater =>
      cases h
      exact List.forall_mem_cons.2 ⟨hm, ih hlater hrest⟩
    · split at h
      · cases h
        exact List.forall_mem_cons.2 ⟨hm, hrest⟩
      · cases h

/-! ## The invariant -/

namespace Scene

variable {s t : Scene}

/-- Whether all points in time are proper: those at which messages were sent, and those
that the clock has for messages to come. -/
structure Dated (s : Scene) : Prop where
  moments : ∀ i, (s.setting.moments i).Proper
  messages : ∀ m ∈ s.messages, m.sentAt.Proper

theorem Dated.congr (h : s.Dated) (hs : t.setting = s.setting) (hm : t.messages = s.messages) :
    t.Dated := by
  constructor
  · rw [hs]
    exact h.moments
  · rw [hm]
    exact h.messages

/-- A message is sent at the time of the clock. -/
theorem Dated.post (h : s.Dated) {m : Message}
    (ht : m.sentAt = s.setting.moments s.messages.length) : (s.post m).Dated := by
  refine ⟨h.moments, fun m' hm' => ?_⟩
  rcases List.mem_append.1 hm' with hm' | hm'
  · exact h.messages m' hm'
  · rw [List.mem_singleton.1 hm', ht]
    exact h.moments _

theorem Dated.ready (h : s.Dated) (force : Bool) : (s.ready force).Dated := by
  cases force <;> exact h.congr rfl rfl

/-- The step lemma: no step makes up a point in time. -/
theorem Step.dated {calm : Prop} (h : Step calm s t) (hs : s.Dated) : t.Dated := by
  cases h with
  | write | startReading | hide | act | offer | load | endPart => exact hs.congr rfl rfl
  | read _ hmarked => exact ⟨hs.moments, Message.proper_markLastOfPlayer? hmarked hs.messages⟩
  | say ht =>
    unfold Scene.say
    split
    · exact hs.post ht
    · exact (hs.post ht).congr rfl rfl

end Scene

/-- Nor does an opening: it says something at the time of the clock, or takes over what was
read. -/
theorem Opens.dated {op : Operation} {w : World} {s : Scene} (h : Opens op w s)
    (hw : w.scene.Dated) : s.Dated := by
  induction h with
  | still => exact hw
  | take => exact (hw.post rfl).congr rfl rfl
  | rest => exact hw.congr rfl rfl
  | restore _ hp => exact ⟨hw.moments, Progress.proper_of_parse hp⟩
  | clear => exact ⟨hw.moments, List.forall_mem_nil _⟩
  | install _ _ ih => exact ih.congr rfl rfl

/-- The step lemma of operations: none makes up a point in time, wherever it is given up. -/
theorem Performs.dated {calm : Prop} {op : Operation} {w : World}
    {out : Act.Outcome (Option Walked)} (h : Performs calm op w out) (hw : w.scene.Dated) :
    out.left.scene.Dated :=
  h.keeps (fun _ hs => hs.dated hw) (fun _ force hs => hs.ready force)
    (fun _ _ hs hstep => hstep.dated hs) (fun _ hs => hs.congr rfl rfl)
    fun _ _ hs => hs.congr rfl rfl

/-- An operation that begins with proper points in time is suspended with such. -/
theorem Act.dated_suspendedIn (op : Operation) {w : World} (hw : w.scene.Dated) (k : Nat) :
    (suspendedIn op.run w k).scene.Dated := by
  cases k with
  | zero => exact hw
  | succ k =>
    have hleft := (op.performs False (.inr ⟨k, rfl⟩) nofun).dated hw
    rw [suspendedIn]
    cases hr : op.run (w.under (.suspensions k)) with
    | ok walked m =>
      rw [hr] at hleft
      exact hleft
    | error stop m =>
      rw [hr] at hleft
      exact hleft

/-! ## Runs -/

/-- In all that can be reached with a clock whose points in time are proper, those of the
messages are proper too, and so are read back. -/
theorem World.Reached.dated {w : World} (h : w.Reached) (hc : ∀ i, (w.moments i).Proper) :
    w.scene.Dated := by
  induction h with
  | @fresh w config interrupts listening audible he =>
    have hnone : w.scene.messages = [] := by
      change w.engine.narrative.messages = []
      rw [he]
      rfl
    refine ⟨hc, ?_⟩
    rw [hnone]
    exact List.forall_mem_nil _
  | step _ _ hl ih =>
    obtain ⟨out, hout, rfl⟩ := hl.performs False nofun
    have hclock : out.left.moments = _ := congrArg Setting.moments hl.setting
    rw [hclock] at hc
    exact hout.dated (ih hc)

end StoryChat
