/-
Slots that cannot be told apart.

All that is known of slots is what they answer. Two stores of slots agree on two keys if any
calls on these keys are answered the same by both (`Saves.Agree`). They may be kept in
different places and hold different things under other keys.

A store whose two keys are slots of their own and take texts behaves as its contents say. So
if two of them hold the same under both keys, and refuse the same calls from now on, then
they agree.
-/
import StoryChat.Proofs.Save.Slots

set_option autoImplicit false

namespace StoryChat

/-! ## Answers -/

/-- What a medium says to a call, and the medium behind it. Where there is nothing to be read,
it says whether the call was done. -/
def SlotMedium.answer (m : SlotMedium) : SlotCall → Except SaveFault (Option String) × SlotMedium
  | .get key => (m.get key, m)
  | .set key text => ((m.set key text).1.map fun _ => none, (m.set key text).2)
  | .remove key => ((m.remove key).1.map fun _ => none, (m.remove key).2)

/-- What is answered to a call, and the slots behind it. -/
def Saves.answer (s : Saves) : SlotCall → Except SaveFault (Option String) × Saves
  | .get key => s.get key
  | .set key text => ((s.set key text).1.map fun _ => none, (s.set key text).2)
  | .remove key => ((s.remove key).1.map fun _ => none, (s.remove key).2)

/-- What is answered to calls, one after the other. -/
def Saves.answers (s : Saves) : List SlotCall → List (Except SaveFault (Option String))
  | [] => []
  | call :: calls => (s.answer call).1 :: (s.answer call).2.answers calls

/-- Whether slots cannot be told apart by calls on two keys. -/
def Saves.Agree (a b : String) (s t : Saves) : Prop :=
  ∀ calls : List SlotCall, (∀ call ∈ calls, call.key = a ∨ call.key = b) →
    t.answers calls = s.answers calls

/-! ## Media that match -/

/-- Whether two keys are slots of their own that take texts. -/
structure SlotMedium.Serves (m : SlotMedium) (a b : String) : Prop where
  takes : m.Takes a
  takes' : m.Takes b
  apart : m.Apart a b

/-- Whether they are, and nothing is in them. -/
structure SlotMedium.Blank (m : SlotMedium) (a b : String) : Prop extends m.Serves a b where
  empty : m.get a = .ok none
  empty' : m.get b = .ok none

/-- Whether two media serve two keys and hold the same under them. -/
structure SlotMedium.Match (a b : String) (m n : SlotMedium) : Prop where
  serves : m.Serves a b
  serves' : n.Serves a b
  get : n.get a = m.get a
  get' : n.get b = m.get b

namespace SlotMedium

variable {m n : SlotMedium} {a b : String} {call : SlotCall}

theorem Serves.symm (h : m.Serves a b) : m.Serves b a := ⟨h.takes', h.takes, h.apart.symm⟩

/-- Where nothing is in the slots, the media match. -/
theorem Blank.toMatch (h : m.Blank a b) (h' : n.Blank a b) : Match a b m n :=
  ⟨h.toServes, h'.toServes, h'.empty.trans h.empty.symm, h'.empty'.trans h.empty'.symm⟩

theorem Match.symm (h : Match a b m n) : Match b a m n :=
  ⟨h.serves.symm, h.serves'.symm, h.get', h.get⟩

/-- A call on one of the keys leaves what is under the other, and both slots of their own. -/
theorem Serves.answer (h : m.Serves a b) (hk : call.key = a) :
    (m.answer call).2.Serves a b ∧ (m.answer call).2.get b = m.get b := by
  cases call with
  | get key => exact ⟨h, rfl⟩
  | set key text =>
    cases hk
    have hserves : (m.set key text).2.Serves key b := ⟨h.takes.set text,
      h.takes'.set_of_takes h.takes text, (m.apart_set _ _ _ _).2 h.apart⟩
    exact ⟨hserves, h.takes'.get_set h.takes h.apart.symm text⟩
  | remove key =>
    cases hk
    have hserves : (m.remove key).2.Serves key b := ⟨h.takes.remove _,
      h.takes'.remove _, (m.apart_remove _ _ _).2 h.apart⟩
    exact ⟨hserves, h.takes'.get_remove h.apart.symm⟩

/-- What a slot that takes texts says to a call, and what it holds behind it, is known from
what it holds. -/
theorem Match.answer_of_eq (h : Match a b m n) (hk : call.key = a) :
    (n.answer call).1 = (m.answer call).1 ∧ Match a b (m.answer call).2 (n.answer call).2 := by
  obtain ⟨hserves, hget⟩ := h.serves.answer hk
  obtain ⟨hserves', hget'⟩ := h.serves'.answer hk
  have hother : (n.answer call).2.get b = (m.answer call).2.get b := by rw [hget, hget', h.get']
  cases call with
  | get key =>
    cases hk
    exact ⟨h.get, h⟩
  | set key text =>
    cases hk
    have hdone := h.serves.takes text
    have hdone' := h.serves'.takes text
    refine ⟨?_, hserves, hserves', (get_set hdone').trans (get_set hdone).symm, hother⟩
    exact congrArg (Except.map _) (hdone'.trans hdone.symm)
  | remove key =>
    cases hk
    have hdone := h.serves.takes.remove_fst
    have hdone' := h.serves'.takes.remove_fst
    refine ⟨?_, hserves, hserves', (get_remove hdone').trans (get_remove hdone).symm, hother⟩
    exact congrArg (Except.map _) (hdone'.trans hdone.symm)

/-- The step lemma: media that match say the same to a call on one of the keys, and match
behind it. -/
theorem Match.answer (h : Match a b m n) (hk : call.key = a ∨ call.key = b) :
    (n.answer call).1 = (m.answer call).1 ∧ Match a b (m.answer call).2 (n.answer call).2 := by
  rcases hk with hk | hk
  · exact h.answer_of_eq hk
  · exact (h.symm.answer_of_eq hk).imp_right Match.symm

end SlotMedium

/-! ## Slots that agree -/

namespace Saves

variable {s t : Saves} {a b : String}

/-- A call is refused, or the medium answers it. -/
theorem answer_eq (s : Saves) (call : SlotCall) : s.answer call =
    match s.refusal s.calls call with
    | some reason => (.error (.unavailable reason), s.counted)
    | none =>
      ((s.medium.answer call).1, { s.counted with medium := (s.medium.answer call).2 }) := by
  cases call with
  | get key =>
    change s.get key = _
    unfold get
    cases s.refusal s.calls (.get key) <;> rfl
  | set key text =>
    change ((s.set key text).1.map fun _ => none, (s.set key text).2) = _
    unfold set
    cases s.refusal s.calls (.set key text) <;> rfl
  | remove key =>
    change ((s.remove key).1.map fun _ => none, (s.remove key).2) = _
    unfold remove
    cases s.refusal s.calls (.remove key) <;> rfl

/-- A call on slots that agree is answered the same, and they agree behind it. -/
theorem Agree.answer (h : Agree a b s t) {call : SlotCall} (hk : call.key = a ∨ call.key = b) :
    (t.answer call).1 = (s.answer call).1 ∧ Agree a b (s.answer call).2 (t.answer call).2 := by
  have hcons (calls : List SlotCall) (hc : ∀ call ∈ calls, call.key = a ∨ call.key = b) :=
    List.cons_eq_cons.1 (h (call :: calls) (List.forall_mem_cons.2 ⟨hk, hc⟩))
  exact ⟨(hcons [] nofun).1, fun calls hc => (hcons calls hc).2⟩

/-- The run lemma: slots agree if they refuse the same from now on and their media match. -/
theorem agree_of_match (hr : ∀ n call, t.refusal (t.calls + n) call = s.refusal (s.calls + n) call)
    (h : SlotMedium.Match a b s.medium t.medium) : Agree a b s t := by
  intro calls hc
  induction calls generalizing s t with
  | nil => rfl
  | cons call calls ih =>
    -- what is refused now is refused by both, and later calls are counted on alike
    obtain ⟨hk, hc⟩ := List.forall_mem_cons.1 hc
    have hfirst : t.refusal t.calls call = s.refusal s.calls call := hr 0 call
    have hlater (n : Nat) (call : SlotCall) :
        t.refusal (t.calls + 1 + n) call = s.refusal (s.calls + 1 + n) call := by
      rw [Nat.add_assoc, Nat.add_assoc]
      exact hr (1 + n) call
    obtain ⟨hanswer, hmatch⟩ := h.answer hk
    rw [answers, answers, answer_eq, answer_eq, hfirst]
    cases s.refusal s.calls call with
    | some reason => exact congrArg (_ :: ·) (ih hlater h hc)
    | none =>
      dsimp only
      rw [hanswer]
      exact congrArg (_ :: ·) (ih hlater hmatch hc)

end Saves

end StoryChat
