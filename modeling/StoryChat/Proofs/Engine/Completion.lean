/-
Operations that come to an end.

Whoever waits for an operation without end may do so in vain in two ways only: a script can lead
in a circle, so that the walk goes as far as a walk may go (`Stop.exhausted`), and the limits of
a pause may be crossed (`Stop.crossedLimits`). The second does not happen at a pace whose limits
are in order (`Pacing.InOrder`). What is left is a story that goes round for ever, and the rules
of `Completes` say of an operation that this is all that can keep it from its end. What an
operation leads to is said of where it ends; that it leaves the setting alone is known of all of
them.
-/
import StoryChat.Proofs.Engine.Operation
import StoryChat.Proofs.Engine.Plot

set_option autoImplicit false

namespace StoryChat

/-! ## A pace in order -/

/-- Whether the limits of all pauses of a pace are in order. -/
structure Pacing.InOrder (p : Pacing) : Prop where
  text : p.text.min ≤ p.text.max
  system : p.system.min ≤ p.system.max
  autoRead : p.autoRead.min ≤ p.autoRead.max

theorem LengthWindow.isSome_sample?_of_le {w : LengthWindow} (h : w.min ≤ w.max) (chars : Nat)
    (draw : Float) : (w.sample? chars draw).isSome := by
  rw [sample?, Option.isSome_map, base?, if_neg (Nat.not_lt.2 h)]
  rfl

/-- At such a pace no node crosses the limits of its pauses. -/
theorem Pacing.InOrder.paced {p : Pacing} (h : p.InOrder) (n : Node) : n.Paced p := by
  refine ⟨⟨fun _ => ?_, fun _ => ?_⟩, fun _ => ?_⟩
  · unfold Pacing.smartDelay?
    cases n.explicitDelay with
    | some ms => rfl
    | none => cases n.kind <;> first | rfl | exact LengthWindow.isSome_sample?_of_le h.text _ _
  · unfold Pacing.systemPause?
    cases n.explicitDelay with
    | some ms => rfl
    | none => exact LengthWindow.isSome_sample?_of_le h.system _ _
  · exact LengthWindow.isSome_sample?_of_le h.autoRead _ _

namespace Act

variable {α β : Type} {w : World}

/-! ## Rules -/

/-- Whether an operation that is waited for without end ends as `Q` says, if no walk goes as far
as a walk may. -/
def Completes (act : Act α) (w : World) (Q : α → World → Prop) : Prop :=
  (∃ a v, act (w.under .endless) = .ok a (v.under .endless) ∧ Q a v) ∨
    ∃ v, act (w.under .endless) = .error .exhausted v

section

variable {Q : α → World → Prop} {act : Act α}

theorem Completes.pure {a : α} (h : Q a w) : Completes (pure a) w Q := .inl ⟨a, w, rfl, h⟩

theorem Completes.look {f : World → α} (hf : ∀ p, f (w.under p) = f w) (h : Q (f w) w) :
    Completes (look f) w Q := .inl ⟨f w, w, congrArg (EStateM.Result.ok · _) (hf _), h⟩

theorem Completes.change {Q : Unit → World → Prop} {f : World → World}
    (hf : ∀ p, f (w.under p) = (f w).under p) (h : Q () (f w)) : Completes (change f) w Q :=
  .inl ⟨(), f w, congrArg (EStateM.Result.ok ()) (hf _), h⟩

theorem Completes.bind {Q : β → World → Prop} {R : α → World → Prop} {first : Act β}
    {next : β → Act α} (h : Completes first w Q)
    (h' : ∀ b v, Q b v → Completes (next b) v R) : Completes (first >>= next) w R := by
  unfold Completes
  rw [bind_apply]
  rcases h with ⟨b, v, hrun, hb⟩ | ⟨v, hrun⟩
  · rw [hrun]
    exact h' b v hb
  · rw [hrun]
    exact .inr ⟨v, rfl⟩

theorem Completes.ite {c : Prop} [Decidable c] {act' : Act α} (h : c → Completes act w Q)
    (h' : ¬ c → Completes act' w Q) : Completes (if c then act else act') w Q := by
  split
  · next hc => exact h hc
  · next hc => exact h' hc

theorem Completes.imp {R : α → World → Prop} (h : Completes act w Q)
    (hQ : ∀ a v, act (w.under .endless) = .ok a (v.under .endless) → Q a v → R a v) :
    Completes act w R := by
  rcases h with ⟨a, v, hrun, hq⟩ | h
  · exact .inl ⟨a, v, hrun, hQ a v hrun hq⟩
  · exact .inr h

/-- What is made of the result does not matter. -/
theorem Completes.of_map {f : α → β}
    (h : Completes (f <$> act) w fun _ => (·.setting = w.setting)) :
    Completes act w fun _ => (·.setting = w.setting) := by
  unfold Completes at h
  rw [map_apply] at h
  rcases h with ⟨b, v, hrun, hv⟩ | ⟨v, hrun⟩
  · cases hact : act (w.under .endless) with
    | error s m =>
      rw [hact] at hrun
      cases hrun
    | ok a m =>
      rw [hact] at hrun
      cases hrun
      exact .inl ⟨a, v, hact, hv⟩
  · cases hact : act (w.under .endless) with
    | error s m =>
      rw [hact] at hrun
      cases hrun
      exact .inr ⟨v, hact⟩
    | ok a m =>
      rw [hact] at hrun
      cases hrun

/-- An operation completes if what is left of it does. -/
theorem Comes.completes {rest : Act α} {v : World} {stops : List World}
    (h : Comes act w stops v rest) (h' : Completes rest v Q) : Completes act w Q := by
  unfold Completes
  rw [h.whole]
  exact h'

theorem Path.completes {a : α} {v : World} {stops : List World}
    (h : Path act w stops (.ok a v)) (hv : Q a v) : Completes act w Q :=
  .inl ⟨a, v, h.whole, hv⟩

end

/-! ## Walks -/

theorem completes_visit (hp : w.engine.config.pacing.InOrder) (id : String) :
    Completes (visit id) w fun _ => (·.setting = w.setting) := by
  obtain ⟨stops, out, hpath, hv⟩ := visit_path w id
  cases out with
  | ok a v => exact hpath.completes (hv.setting.2 w)
  | error s v =>
    cases hv with
    | crossed hn hc he ht hnot => exact absurd (hp.paced _) hnot

theorem completes_walk (hp : w.engine.config.pacing.InOrder) (left : Nat) (id : String) :
    Completes (walk left id) w fun _ => (·.setting = w.setting) := by
  induction left generalizing id w with
  | zero => exact .inr ⟨_, rfl⟩
  | succ left ih =>
    refine (completes_visit hp id).bind fun visit v hv => ?_
    cases visit with
    | halt halt => exact .pure hv
    | next id' =>
      have hpv : v.engine.config.pacing.InOrder := by rwa [World.config_eq_of_setting hv]
      exact (ih hpv id').imp fun _ _ _ h => h.trans hv

theorem completes_advance (hp : w.engine.config.pacing.InOrder) (id : String) (force : Bool) :
    Completes (Act.advance id force) w fun _ => (·.setting = w.setting) := by
  by_cases hfree : w.engine.narrative.flags.processing = true → force = true
  · have hpr : (w.ready force).engine.config.pacing.InOrder := by
      rwa [World.config_eq_of_setting (w.setting_ready force)]
    have hrun := @advance_apply (w.under .endless) id force hfree
    have hreach : (w.under .endless).reach = w.reach := rfl
    rw [World.ready_under, hreach] at hrun
    rcases completes_walk hpr w.reach id with ⟨halt, v, hwalk, hv⟩ | ⟨v, hwalk⟩
    · rw [hwalk] at hrun
      dsimp only at hrun
      rw [World.settled_under, World.emit_under] at hrun
      have hset : (v.settled.emit (.halted halt)).setting = w.setting := by
        rw [World.setting_emit, World.setting_settled, hv, World.setting_ready]
      exact .inl ⟨_, _, hrun, hset⟩
    · rw [hwalk] at hrun
      exact .inr ⟨_, hrun⟩
  · obtain ⟨hb, hf⟩ := Classical.not_imp.1 hfree
    rw [Bool.eq_false_iff.2 hf]
    exact (advance_busy hb).completes rfl

/-- Every operation of an engine comes to an end, if no walk goes as far as a walk may. -/
theorem Operation.completes (hp : w.engine.config.pacing.InOrder) (op : Operation) :
    Completes op.run w fun _ => (·.setting = w.setting) := by
  obtain ⟨stops, v, on, hprelude, hcomes⟩ := Operation.preluded op w
  have hv : v.setting = w.setting := hprelude.setting.2
  refine hcomes.completes ?_
  cases on with
  | stay walked => exact .pure hv
  | walk id force =>
    have hpv : v.engine.config.pacing.InOrder := by rwa [World.config_eq_of_setting hv]
    exact (completes_advance hpv id force).bind fun _ _ h => .pure (h.trans hv)

end Act

end StoryChat
