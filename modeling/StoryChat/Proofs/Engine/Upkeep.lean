/-
What an operation keeps, wherever it ends or stops.

An operation that stops has been somewhere, and what it did until then is done. So there are
two things to say of it: where it may end, and in what worlds it may stop. `Guards` says
both, for any amount of patience, a deadline included, and `Maintains` is the case in which
one invariant is all there is to say. Much of what an operation does cannot
be seen in the part of a world that a law is about; `Fixes` says that of pauses and the
like, for every such part.

Operations are their preludes and the walks behind them. What holds at the suspension points
of a prelude and is guarded by the walk holds in every world that is left behind.
-/
import StoryChat.Proofs.Engine.Operation

set_option autoImplicit false

namespace StoryChat.Act

variable {α β : Type}

/-- The world in which an operation has ended or stopped. -/
def Outcome.left : Outcome α → World
  | .ok _ w => w
  | .error _ w => w

/-- How an operation ended, as far as a closed computation can tell. -/
theorem eq_ok_of_result {out : Outcome α} {a : α}
    (h : (match out with | .ok b _ => some b | .error _ _ => none) = some a) :
    out = .ok a out.left := by
  cases out with
  | error s w => cases h
  | ok b w =>
    cases h
    rfl

/-- To keep the record is a suspension, and then a call on the slots whose answer nobody
looks at. -/
theorem persist_apply (w : World) :
    Act.persist w = (Act.suspend >>= fun _ => Act.change World.saved) w := by
  obtain ⟨engine, shelf, saves, clock, patience, reach, draws, moments, playerIds, journal⟩ := w
  cases patience with
  | endless => rfl
  | deadline time => rfl
  | suspensions left => cases left <;> rfl

/-! ## What cannot be seen -/

section

variable {γ : Type} {f : World → γ}

/-- Whether a part of a world is not about time: it is the same later, with another
patience, and with a pause in the journal. -/
structure Untimed (f : World → γ) : Prop where
  clock : ∀ w clock, f { w with clock } = f w
  patience : ∀ w p, f (w.under p) = f w
  pause : ∀ w span, f (w.note (.pause span)) = f w

/-- Whether an operation leaves a part of the world as it is, however it comes out. -/
def Fixes (f : World → γ) (act : Act α) : Prop := ∀ w, f (Outcome.left (act w)) = f w

namespace Fixes

theorem pure (a : α) : Fixes f (pure a) := fun _ => rfl

theorem look (g : World → α) : Fixes f (look g) := fun _ => rfl

theorem stop (s : Stop) : Fixes f (stop s : Act α) := fun _ => rfl

theorem change {g : World → World} (hg : ∀ w, f (g w) = f w) : Fixes f (change g) := hg

theorem bind {first : Act β} {next : β → Act α} (h : Fixes f first)
    (h' : ∀ b, Fixes f (next b)) : Fixes f (first >>= next) := by
  intro w
  have hfirst := h w
  rw [bind_apply]
  cases hr : first w with
  | error s m =>
    rw [hr] at hfirst
    exact hfirst
  | ok b m =>
    rw [hr] at hfirst
    exact (h' b m).trans hfirst

theorem ite {c : Prop} [Decidable c] {act act' : Act α} (h : Fixes f act) (h' : Fixes f act') :
    Fixes f (if c then act else act') := by
  split
  · exact h
  · exact h'

theorem suspend (hf : Untimed f) : Fixes f suspend := by
  intro w
  unfold Act.suspend
  split
  · rfl
  · exact hf.patience w _
  · rfl

theorem sleep (hf : Untimed f) (millis : Nat) : Fixes f (sleep millis) := by
  intro w
  unfold Act.sleep
  split
  · split <;> exact hf.clock w _
  · exact hf.clock w _

theorem pause (hf : Untimed f) (span : Duration) : Fixes f (pause span) :=
  .bind (.change fun w => hf.pause w span) fun _ => .bind (.look _) fun _ =>
    .ite (.pure _) (.bind (.suspend hf) fun _ => .sleep hf _)

theorem drawn (g : Pacing → Float → Option Duration) : Fixes f (drawn g) := by
  refine .bind (.look _) fun span => ?_
  cases span with
  | none => exact .stop _
  | some span => exact .pure span

theorem pauseIn (hf : Untimed f) (g : Pacing → Window) : Fixes f (pauseIn g) :=
  .bind (.look _) fun span => .pause hf span

theorem fetch (hf : Untimed f) (id : ScriptId) : Fixes f (fetch id) :=
  .bind (.suspend hf) fun _ => .look _

end Fixes

end

/-! ## Where an operation stops -/

/-- From `w` the operation ends as `Q` says, or it stops in a world that `I` holds of. -/
def Guards (I : World → Prop) (act : Act α) (w : World) (Q : α → World → Prop) : Prop :=
  match act w with
  | .ok a m => Q a m
  | .error _ m => I m

namespace Guards

variable {I : World → Prop} {w : World} {Q : α → World → Prop}

theorem pure {a : α} (h : Q a w) : Guards I (pure a) w Q := h

theorem look {f : World → α} (h : Q (f w) w) : Guards I (look f) w Q := h

theorem stop {s : Stop} (h : I w) : Guards I (stop s : Act α) w Q := h

theorem change {Q : Unit → World → Prop} {f : World → World} (h : Q () (f w)) :
    Guards I (change f) w Q := h

theorem bind {first : Act β} {next : β → Act α}
    (h : Guards I first w fun b m => Guards I (next b) m Q) : Guards I (first >>= next) w Q := by
  unfold Guards at h ⊢
  rw [bind_apply]
  cases hr : first w with
  | error s m =>
    rw [hr] at h
    exact h
  | ok b m =>
    rw [hr] at h
    exact h

theorem imp {R : α → World → Prop} {act : Act α} (h : Guards I act w Q)
    (hQ : ∀ a m, Q a m → R a m) : Guards I act w R := by
  unfold Guards at h ⊢
  cases hr : act w with
  | error s m =>
    rw [hr] at h
    exact h
  | ok a m =>
    rw [hr] at h
    exact hQ a m h

/-- The invariant may ask for less. -/
theorem weaken {J : World → Prop} {act : Act α} (h : Guards I act w Q) (hI : ∀ m, I m → J m) :
    Guards J act w Q := by
  unfold Guards at h ⊢
  cases hr : act w with
  | error s m =>
    rw [hr] at h
    exact hI m h
  | ok a m =>
    rw [hr] at h
    exact h

theorem map {Q : β → World → Prop} {act : Act α} {f : α → β}
    (h : Guards I act w fun a => Q (f a)) : Guards I (f <$> act) w Q := by
  rw [map_eq_pure_bind]
  exact .bind (h.imp fun _ _ hQ => .pure hQ)

theorem ite {c : Prop} [Decidable c] {act act' : Act α} (h : c → Guards I act w Q)
    (h' : ¬ c → Guards I act' w Q) : Guards I (if c then act else act') w Q := by
  split
  · next hc => exact h hc
  · next hc => exact h' hc

theorem cleaning {R : α → World → Prop} {act : Act α} {cleanup : World → World}
    (h : Guards I act w Q) (hI : ∀ m, I m → I (cleanup m))
    (hQ : ∀ a m, Q a m → R a (cleanup m)) : Guards I (cleaning cleanup act) w R := by
  unfold Guards Act.cleaning at *
  cases hr : act w with
  | error s m =>
    rw [hr] at h
    exact hI m h
  | ok a m =>
    rw [hr] at h
    exact hQ a m h

/-- What cannot be seen by the part of a world that a law is about keeps the law. -/
theorem of_fixes {γ : Type} {f : World → γ} {act : Act α} (hact : Fixes f act)
    (hI : ∀ m, f m = f w → I m) (hQ : ∀ a m, f m = f w → Q a m) : Guards I act w Q := by
  have hleft := hact w
  unfold Guards
  cases hr : act w with
  | error s m =>
    rw [hr] at hleft
    exact hI m hleft
  | ok a m =>
    rw [hr] at hleft
    exact hQ a m hleft

/-- If the ends are of the invariant too, all that is left is. -/
theorem left {act : Act α} (h : Guards I act w Q) (hQ : ∀ a m, Q a m → I m) :
    I (Outcome.left (act w)) := by
  unfold Guards at h
  cases hr : act w with
  | error s m =>
    rw [hr] at h
    exact h
  | ok a m =>
    rw [hr] at h
    exact hQ a m h

end Guards

/-! ## What is maintained -/

/-- Whether an operation that begins in a world of an invariant ends or stops in one. -/
def Maintains (I : World → Prop) (act : Act α) : Prop := ∀ w, I w → Guards I act w fun _ => I

namespace Maintains

variable {I : World → Prop}

theorem pure (a : α) : Maintains I (pure a) := fun _ h => h

theorem look (f : World → α) : Maintains I (look f) := fun _ h => h

theorem stop (s : Stop) : Maintains I (stop s : Act α) := fun _ h => .stop h

theorem change {f : World → World} (hf : ∀ w, I w → I (f w)) : Maintains I (change f) := hf

theorem bind {first : Act β} {next : β → Act α} (h : Maintains I first)
    (h' : ∀ b, Maintains I (next b)) : Maintains I (first >>= next) :=
  fun w hw => .bind ((h w hw).imp fun b m hm => h' b m hm)

theorem map {act : Act α} (f : α → β) (h : Maintains I act) : Maintains I (f <$> act) :=
  fun w hw => .map (h w hw)

theorem ite {c : Prop} [Decidable c] {act act' : Act α} (h : Maintains I act)
    (h' : Maintains I act') : Maintains I (if c then act else act') :=
  fun w hw => .ite (fun _ => h w hw) fun _ => h' w hw

theorem cleaning {act : Act α} {cleanup : World → World} (h : Maintains I act)
    (hI : ∀ w, I w → I (cleanup w)) : Maintains I (cleaning cleanup act) :=
  fun w hw => .cleaning (h w hw) hI fun _ => hI

theorem of_fixes {γ : Type} {f : World → γ} {act : Act α} (hact : Fixes f act)
    (hI : ∀ w m, f m = f w → I w → I m) : Maintains I act :=
  fun w hw => .of_fixes hact (fun m hm => hI w m hm hw) fun _ m hm => hI w m hm hw

theorem persist (hI : ∀ w p, I w → I (w.under p)) (hsaved : ∀ w, I w → I w.saved) :
    Maintains I persist := by
  intro w hw
  have hsuspend : Maintains I suspend := by
    intro w hw
    unfold Guards Act.suspend
    cases w.patience with
    | endless | deadline => exact hw
    | suspensions left =>
      cases left with
      | zero => exact hw
      | succ left => exact hI w _ hw
  have hsave := hsuspend.bind (fun _ => .change hsaved) w hw
  unfold Guards at hsave ⊢
  rwa [persist_apply]

end Maintains

/-! ## What an operation leaves behind -/

/-- With patience for a number of suspensions an operation is cut short in its prelude, or
comes to its walk with what patience is left. -/
theorem Operation.run_under (op : Operation) (w : World) {p : Patience}
    (hp : p = .endless ∨ ∃ k, p = .suspensions k) :
    ∃ stops v on, Prelude w op stops v on ∧
      ((∃ m ∈ stops, op.run (w.under p) = .error .cut (m.under (.suspensions 0))) ∨
        ∃ q, op.run (w.under p) = on.act (v.under q)) := by
  obtain ⟨stops, v, on, hprelude, hcomes⟩ := Operation.preluded op w
  refine ⟨stops, v, on, hprelude, ?_⟩
  rcases hp with rfl | ⟨k, rfl⟩
  · exact .inr ⟨_, hcomes.whole⟩
  · rcases Nat.lt_or_ge k stops.length with hk | hk
    · exact .inl ⟨stops[k], List.getElem_mem hk, hcomes.cut k hk⟩
    · -- what patience the prelude has left is for the walk
      obtain ⟨j, rfl⟩ := Nat.exists_eq_add_of_le hk
      exact .inr ⟨_, hcomes.spared j⟩

/-- What holds at the suspension points of a prelude and is guarded behind it holds in
whatever is left behind. -/
theorem Leaves.keeps {I : World → Prop} {op : Operation} {w w' : World}
    (hI : ∀ w p, I w → I (w.under p))
    (h : ∀ stops v on, Prelude w op stops v on →
      (∀ m ∈ stops, I m) ∧ ∀ q, Guards I on.act (v.under q) fun _ => I)
    (hl : Leaves op.run w w') : I w' := by
  have hleft {p : Patience} (hp : p = .endless ∨ ∃ k, p = .suspensions k) :
      I (Outcome.left (op.run (w.under p))) := by
    obtain ⟨stops, v, on, hprelude, hrun⟩ := Operation.run_under op w hp
    obtain ⟨hstops, hguards⟩ := h stops v on hprelude
    rcases hrun with ⟨m, hm, hcut⟩ | ⟨q, hwalk⟩
    · rw [hcut]
      exact hI m _ (hstops m hm)
    · rw [hwalk]
      exact (hguards q).left fun _ _ hm => hm
  cases hl with
  | ended he =>
    have hend := hleft (.inl rfl)
    rwa [he] at hend
  | @cut k w' hc =>
    have hend := hleft (.inr ⟨k, rfl⟩)
    rwa [hc] at hend

end StoryChat.Act
