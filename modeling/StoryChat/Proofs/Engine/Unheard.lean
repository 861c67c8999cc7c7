/-
Interrupts that nobody hears of.

Interrupts are asked at one place (`Act.interrupt`), behind the effect of a choice. So
engines that differ in nothing but their interrupts go the same way with everything else
that is requested, and two worlds that differ so (`Hooked`) are a relation that is borne in
lockstep.

A choice goes the same way, too, as long as no interrupt fires on it. And if one does whose
script cannot be loaded, the story was held up at one point, where the shelf was asked, and
nothing else is left of it: from there on it is the story that is told without interrupts.
-/
import StoryChat.Proofs.Engine.Dealings
import StoryChat.Proofs.Engine.Submission

set_option autoImplicit false

namespace StoryChat

/-! ## Worlds with other interrupts -/

namespace World

/-- The world with other interrupts. -/
def hooked (w : World) (hooks : List Interrupt) : World :=
  { w with engine := { w.engine with interrupts := hooks } }

/-- Whether in the second world the interrupts are these, and all else is the same. -/
def Hooked (hooks : List Interrupt) (w w' : World) : Prop := w' = w.hooked hooks

variable {hooks : List Interrupt} (w : World)

theorem emit_hooked (e : Event) : (w.hooked hooks).emit e = (w.emit e).hooked hooks := by
  have hlistening : (w.hooked hooks).engine.listening = w.engine.listening := rfl
  unfold emit
  rw [hlistening]
  split <;> rfl

theorem play_hooked (c : Cue) : (w.hooked hooks).play c = (w.play c).hooked hooks := by
  have haudible : (w.hooked hooks).engine.audible = w.engine.audible := rfl
  unfold play
  rw [haudible]
  split <;> rfl

end World

namespace Act

open World

variable {α : Type} {hooks : List Interrupt} {w : World}

theorem timed_hooked : Timed (Hooked hooks) where
  pacing h := by rw [h]; rfl
  clock h := by rw [h]; rfl
  patience h := by rw [h]; rfl
  pass _ _ h := by rw [h]; rfl
  note _ h := by rw [h]; rfl

/-- Whatever is done to a world, the interrupts are not looked at. -/
theorem concordant_hooked : Concordant (Hooked hooks) where
  core h := by rw [h]; rfl
  draw h := .inr (by rw [h]; rfl)
  tell h _ := by rw [h]; rfl
  hold _ h := by rw [h]; rfl
  emit e h := by rw [h]; exact emit_hooked _ e
  play c h := by rw [h]; exact play_hooked _ c
  save h := by rw [h]; rfl
  suspend := timed_hooked.suspend
  pause := timed_hooked.pause
  answer _ h := by rw [h]; exact ⟨rfl, rfl⟩

/-- An operation that does not look at the interrupts comes to the same with others. -/
theorem Respects.hooked {act : Act α} (h : Respects (Hooked hooks) act) (w : World) :
    act (w.hooked hooks) = Outcome.inWorld (·.hooked hooks) (act w) := by
  have hrel := h w (w.hooked hooks) rfl
  generalize act (w.hooked hooks) = out' at hrel ⊢
  generalize act w = out at hrel ⊢
  cases hrel with
  | ok hw | error hw =>
    rw [hw]
    rfl

/-- A choice has its effect before any interrupt is asked. -/
theorem chosen_hooked (w : World) (c : Choice) :
    (w.hooked hooks).chosen c = (w.chosen c).hooked hooks := by
  have htake : takeChoice c (w.hooked hooks) = _ :=
    (together_iff.1 (concordant_hooked.rules.takeChoice c)).hooked w
  rw [takeChoice_apply, takeChoice_apply] at htake
  exact (EStateM.Result.ok.inj htake).2

/-- Where an option leads that is not diverted does not depend on the interrupts. -/
theorem respects_lead (hooks : List Interrupt) (next : Option String) :
    Respects (Hooked hooks) (lead next none) :=
  together_iff.1 (concordant_hooked.rules.seq (concordant_hooked.rules.goOn next) fun next =>
    concordant_hooked.rules.map _ (concordant_hooked.lockstep.advanceTo next true))

/-! ## Choices on which no script is entered -/

section

variable {c : Choice} {index : Nat} {name : String} {fault : LoadFault}

/-- A choice on which no interrupt fires goes straight on. -/
theorem choose_unfired (hw : w.engine.narrative.flags.waiting = true)
    (hc : w.engine.narrative.flags.choices[index]? = some c) (hn : w.interruption? c = none)
    (p : Patience) : choose index (w.under p) = lead c.next none ((w.chosen c).under p) := by
  have hasked : interrupt w.engine.narrative.vars (w.engine.narrative.vars.applyImpact c.impact)
      ((w.chosen c).under p) = .ok none ((w.chosen c).under p) := by
    unfold interrupt
    rw [bind_apply, look_apply]
    dsimp only
    rw [engine_under, firstInterrupt_chosen, hn]
    rfl
  rw [choose_apply (w := w.under p) hw hc, chosen_under, bind_apply, engine_under, hasked]

/-- A script that cannot be loaded costs the suspension point at which the shelf is asked. -/
theorem loadNamed_lost (hs : w.shelf (.named name) = .error fault) :
    loadNamed name w = (suspend >>= fun _ => pure (.error fault)) w := by
  have hshelf := Fixes.suspend untimed_shelf w
  unfold loadNamed fetch
  rw [bind_apply, bind_apply, bind_apply]
  cases hsuspend : suspend w with
  | error s m => rfl
  | ok a m =>
    rw [hsuspend] at hshelf
    -- nobody restocks the shelf while it is waited for
    have hm : m.shelf (.named name) = .error fault := (congrFun hshelf _).trans hs
    dsimp only
    rw [look_apply, hm]
    rfl

/-- The interrupt that names it costs no more. -/
theorem interrupt_lost {before after : Variables}
    (hn : firstInterrupt w.engine.interrupts before after = some name)
    (hs : w.shelf (.named name) = .error fault) :
    interrupt before after w = (suspend >>= fun _ => pure none) w := by
  unfold interrupt
  rw [bind_apply, look_apply]
  dsimp only
  rw [hn]
  dsimp only
  unfold divert
  rw [bind_apply, bind_apply, bind_apply, loadNamed_lost hs, bind_apply]
  cases suspend w <;> rfl

/-- A choice whose interrupt is lost goes on behind that point. -/
theorem choose_lost (hw : w.engine.narrative.flags.waiting = true)
    (hc : w.engine.narrative.flags.choices[index]? = some c) (hn : w.interruption? c = some name)
    (hs : w.shelf (.named name) = .error fault) (p : Patience) : choose index (w.under p) =
      (suspend >>= fun _ => lead c.next none) ((w.chosen c).under p) := by
  rw [← firstInterrupt_chosen] at hn
  rw [← shelf_chosen w c] at hs
  have hlost := interrupt_lost (w := (w.chosen c).under p) hn hs
  rw [choose_apply (w := w.under p) hw hc, chosen_under, bind_apply, engine_under, hlost,
    bind_apply, bind_apply]
  cases suspend ((w.chosen c).under p) <;> rfl

/-- Without interrupts an option leads where it leads if none fires. -/
theorem choose_unhooked (hw : w.engine.narrative.flags.waiting = true)
    (hc : w.engine.narrative.flags.choices[index]? = some c) (p : Patience) :
    Outcome.inWorld (·.hooked w.engine.interrupts) (choose index ((w.hooked []).under p)) =
      lead c.next none ((w.chosen c).under p) := by
  have hlead := (respects_lead w.engine.interrupts c.next).hooked (((w.chosen c).hooked []).under p)
  rw [choose_unfired (w := w.hooked []) hw hc rfl, chosen_hooked, ← hlead, ← interrupts_chosen w c]
  rfl

/-- An index is that of an option on offer, or the choice is refused. -/
theorem taken_or_refused (w : World) (index : Nat) :
    (∃ c, w.engine.narrative.flags.waiting = true ∧
      w.engine.narrative.flags.choices[index]? = some c) ∨
    (w.engine.narrative.flags.waiting = true →
      w.engine.narrative.flags.choices[index]? = none) := by
  cases hc : w.engine.narrative.flags.choices[index]? with
  | none => exact .inr fun _ => rfl
  | some c =>
    cases hw : w.engine.narrative.flags.waiting with
    | true => exact .inl ⟨c, rfl, rfl⟩
    | false => exact .inr nofun

/-- A choice that is refused asks no interrupt. -/
theorem choose_refused (h : w.engine.narrative.flags.waiting = true →
      w.engine.narrative.flags.choices[index]? = none) (p : Patience) :
    choose index (w.under p) = .ok
      (if w.engine.narrative.flags.waiting then .invalidIndex index else .notWaiting)
      (w.under p) := by
  unfold choose
  rw [bind_apply, look_apply]
  dsimp only
  rw [engine_under]
  cases hw : w.engine.narrative.flags.waiting with
  | false => rfl
  | true =>
    rw [h hw]
    rfl

end

end Act

/-! ## Requests on which no interrupt fires -/

/-- Whether a request chooses no option on which an interrupt fires. -/
def Request.Unfired (r : Request) (w : World) : Prop :=
  ∀ index c, r = .play (.choose index) → w.engine.narrative.flags.waiting = true →
    w.engine.narrative.flags.choices[index]? = some c → w.interruption? c = none

namespace Act

open World

variable {w : World}

theorem choose_unheard {index : Nat}
    (h : (Request.play (.choose index)).Unfired w) (p : Patience) : choose index (w.under p) =
      Outcome.inWorld (·.hooked w.engine.interrupts) (choose index ((w.hooked []).under p)) := by
  rcases taken_or_refused w index with ⟨c, hw, hc⟩ | hrefused
  · rw [choose_unfired hw hc (h index c rfl hw hc), choose_unhooked hw hc]
  · rw [choose_refused hrefused, choose_refused (w := w.hooked []) hrefused]
    rfl

/-- What is requested comes to the same without any interrupts, unless one fires on it. -/
theorem ask_unheard {r : Request} (h : r.Unfired w) (p : Patience) : r.ask (w.under p) =
    Outcome.inWorld (·.hooked w.engine.interrupts) (r.ask ((w.hooked []).under p)) := by
  by_cases hchoose : ∃ index, r = .play (.choose index)
  · obtain ⟨index, rfl⟩ := hchoose
    have hask : (Request.play (.choose index)).ask = Report.chosen <$> choose index := rfl
    rw [hask, map_apply, map_apply, choose_unheard h p]
    cases choose index ((w.hooked []).under p) <;> rfl
  · have hrespects : Respects (Hooked w.engine.interrupts) r.ask := concordant_hooked.ask
      (fun index hr => absurd ⟨index, hr⟩ hchoose) (fun _ _ h => by rw [h]; rfl)
      fun _ _ _ _ h => by rw [h]; rfl
    exact hrespects.hooked ((w.hooked []).under p)

end Act

/-! ## Interrupts that are lost -/

namespace World

variable {w : World} {c : Choice} {index : Nat} {name : String} {fault : LoadFault}

/-- Whether choosing an option comes to what it comes to without interrupts, but for a
suspension point that is passed behind the effect of the option and before anything else. -/
structure Overlooks (w : World) (index : Nat) (c : Choice) : Prop where
  /-- Whoever waits on, or up to a point in time, sees no difference. -/
  same {p : Patience} : (∀ left, p ≠ .suspensions left) → Act.choose index (w.under p) =
    Act.Outcome.inWorld (·.hooked w.engine.interrupts) (Act.choose index ((w.hooked []).under p))
  cut : Act.choose index (w.under (.suspensions 0)) =
    .error .cut ((w.chosen c).under (.suspensions 0))
  spared (left : Nat) : Act.choose index (w.under (.suspensions (left + 1))) =
    Act.Outcome.inWorld (·.hooked w.engine.interrupts)
      (Act.choose index ((w.hooked []).under (.suspensions left)))

/-- An interrupt whose script cannot be loaded (`Act.divert`) is as good as none: the same is
answered, told, heard and kept, at the same time, and the story is left in the same state. -/
theorem overlooks_lost (hw : w.engine.narrative.flags.waiting = true)
    (hc : w.engine.narrative.flags.choices[index]? = some c) (hf : w.Fires c name)
    (hs : w.shelf (.named name) = .error fault) : w.Overlooks index c := by
  have hlost := Act.choose_lost hw hc (fires_iff.1 hf) hs
  refine ⟨fun {p} hp => ?_, ?_, fun left => ?_⟩
  · rw [Act.choose_unhooked hw hc, hlost]
    cases p with
    | endless | deadline => rfl
    | suspensions left => exact absurd rfl (hp left)
  · rw [hlost]
    rfl
  · rw [Act.choose_unhooked hw hc, hlost]
    rfl

/-- An engine that offers to enter the script that forks, with the interrupts of an engine that
is always diverted, and nothing on its shelf. -/
def forlorn : World :=
  { provoked with
    engine := { provoked.engine with
      graph := some (.ofDocument .forking)
      narrative := (Narrative.fresh .standard).present [{ goodNight with next := some "left" }] }
    shelf := fun id => .error (.notFound id) }

/-- The script in which one is blocked is lost, so the story goes left. -/
theorem overlooks_lost_forlorn :
    let c : Choice := { goodNight with next := some "left" }
    forlorn.engine.narrative.flags.waiting = true ∧
    forlorn.engine.narrative.flags.choices[0]? = some c ∧ forlorn.Fires c "blocked" ∧
    forlorn.shelf (.named "blocked") = .error (.notFound (.named "blocked")) ∧
    forlorn.Overlooks 0 c ∧
    ∃ w', Act.choose 0 forlorn = .ok (.accepted (some (.halted .awaitingChoice))) w' := by
  intro c
  have hwaits : forlorn.engine.narrative.flags.waiting = true := rfl
  have hoption : forlorn.engine.narrative.flags.choices[0]? = some c := rfl
  have hfires : forlorn.Fires c "blocked" := fires_iff.2 rfl
  have hlost : forlorn.shelf (.named "blocked") = .error (.notFound (.named "blocked")) := rfl
  refine ⟨hwaits, hoption, hfires, hlost, overlooks_lost hwaits hoption hfires hlost, ?_⟩
  exact ⟨_, Act.eq_ok_of_result (by decide +kernel)⟩

end World

end StoryChat
