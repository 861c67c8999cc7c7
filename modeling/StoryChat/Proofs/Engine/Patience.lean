/-
What patience decides, and what it does not.

Whoever waits for an operation may stop waiting, at a point in time or after a number of
suspensions (`Patience`), and then the operation is left on the way. That is all there
is to it: an operation that comes to its end has done what it would have done for
somebody who waits without end (`Endures`). So what is shown of operations that are
waited for without end holds of all that end.
-/
import StoryChat.Proofs.Engine.Comparison

set_option autoImplicit false

namespace StoryChat.Act

variable {α β : Type}

/-- Whether one operation ends wherever another one does if it is waited for without end, with
a result that goes together with the other one's and in the same world. -/
def Endures : Comparison := fun _ V act act' => ∀ w a m, act w = .ok a m →
  ∃ a', V a a' ∧ act' (w.under .endless) = .ok a' (m.under .endless)

namespace Endures

variable {V : α → α → Prop}

theorem look {f : World → α} (h : ∀ w, V (f w) (f (w.under .endless))) :
    Endures α V (look f) (look f) := by
  intro w a m hact
  cases hact
  exact ⟨_, h w, rfl⟩

theorem change {f : World → World} (hf : ∀ w, f (w.under .endless) = (f w).under .endless) :
    Endures Unit Eq (change f) (change f) := by
  intro w a m hact
  cases hact
  exact ⟨(), rfl, congrArg (EStateM.Result.ok ()) (hf w)⟩

theorem bind {U : β → β → Prop} {first first' : Act β} {next next' : β → Act α}
    (h : Endures β U first first') (h' : ∀ b b', U b b' → Endures α V (next b) (next' b')) :
    Endures α V (first >>= next) (first' >>= next') := by
  intro w a m hact
  obtain ⟨b, v, hfirst, hnext⟩ := bind_eq_ok hact
  obtain ⟨b', hb, hfirst'⟩ := h w b v hfirst
  obtain ⟨a', ha, hnext'⟩ := h' b b' hb v a m hnext
  refine ⟨a', ha, ?_⟩
  rw [bind_apply, hfirst']
  exact hnext'

theorem cleaning {cleanup : World → World} {act act' : Act α}
    (hc : Endures Unit Eq (Act.change cleanup) (Act.change cleanup)) (h : Endures α V act act') :
    Endures α V (cleaning cleanup act) (cleaning cleanup act') := by
  intro w a m hact
  unfold Act.cleaning at hact
  cases hv : act w with
  | error s v =>
    rw [hv] at hact
    cases hact
  | ok b v =>
    rw [hv] at hact
    cases hact
    obtain ⟨a', ha, hact'⟩ := h w a v hv
    obtain ⟨_, -, hclean⟩ := hc v () (cleanup v) rfl
    refine ⟨a', ha, ?_⟩
    unfold Act.cleaning
    rw [hact']
    exact congrArg (fun out : Outcome Unit => EStateM.Result.ok a' out.left) hclean

theorem suspend : Endures Unit Eq suspend suspend := by
  intro w a m hact
  refine ⟨(), rfl, ?_⟩
  unfold Act.suspend at hact ⊢
  cases hp : w.patience with
  | endless | deadline =>
    rw [hp] at hact
    cases hact
    rfl
  | suspensions left =>
    rw [hp] at hact
    cases left <;> cases hact
    rfl

theorem sleep (millis : Nat) : Endures Unit Eq (sleep millis) (sleep millis) := by
  intro w a m hact
  refine ⟨(), rfl, ?_⟩
  unfold Act.sleep at hact ⊢
  cases hp : w.patience with
  | endless | suspensions =>
    rw [hp] at hact
    cases hact
    rfl
  | deadline time =>
    rw [hp] at hact
    dsimp only at hact
    split at hact
    · cases hact
    · cases hact
      rfl

theorem rules : Rules Endures where
  pure ha w a m hact := by
    cases hact
    exact ⟨_, ha, rfl⟩
  bind := bind
  stop s w a m hact := by cases hact
  cleaning := cleaning
  see hf := look fun w => (hf w).symm.trans (hf (w.under .endless))
  sample _ := look fun _ => rfl
  telling _ := change fun _ => rfl
  emitting e := change fun w => w.emit_under .endless e
  playing c := change fun w => w.play_under .endless c
  saving := change fun _ => rfl
  suspend := suspend
  pause span := by
    have hpause : Endures Unit Eq (Act.change (·.note (.pause span))) _ := change fun _ => rfl
    refine bind hpause fun _ _ _ => bind (look fun _ => rfl) fun scaled scaled' h => ?_
    subst h
    split
    · intro w a m hact
      cases hact
      exact ⟨(), rfl, rfl⟩
    · exact bind suspend fun _ _ _ => sleep _

/-- All operations on scripts bear this, as both worlds have the same. -/
theorem lockstep : Lockstep Endures Eq Eq where
  toRules := rules
  plain h := by rw [h]
  title h := by rw [h]
  find id := look fun w => rel_refl Eq.refl _
  entrance := look fun _ => rfl
  shelf id := look fun _ => .refl Eq.refl _
  holding h := by
    cases h with
    | none => exact change fun _ => rfl
    | some h =>
      subst h
      exact change fun _ => rfl
  settle h := by
    subst h
    exact rules.settle _

end Endures

/-- A walk that ends does so for whoever waits without end. -/
theorem advance_endless {w m : World} {id : String} {force : Bool} {walked : Walked}
    (h : advance id force w = .ok walked m) :
    advance id force (w.under .endless) = .ok walked (m.under .endless) := by
  obtain ⟨_, rfl, hrun⟩ := Endures.lockstep.advance id force w walked m h
  exact hrun

end StoryChat.Act
