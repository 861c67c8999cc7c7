/-
What saved values come to.

Saved values are laid over the defaults one after the other (`Variables.restore`), in the
order of their names. As a name is saved once, the value of a variable is looked up in one
step all the same: it is what its kind makes of the saved value (`Variables.fit?`), and the
default where nothing was saved that the kind can take. Nothing of this depends on the values
before. And since values are restored as they are if writes have left them, restoring is done
after the first time.
-/
import StoryChat.Proofs.Story.Bounded

set_option autoImplicit false

namespace StoryChat

/-- What a variable of a kind holds after it was given a value. Counters take numbers and flags
truth values as they are. A meter takes numbers too, and one beyond an end of its range is
brought to that end. -/
inductive Value.TakenAs : Kind → Value → Value → Prop where
  | counter (x : Float) : TakenAs .counter (.number x) (.number x)
  | flag (b : Bool) : TakenAs .flag (.bool b) (.bool b)
  | within {x : Float} : 0.0 ≤ x → x ≤ 100.0 → TakenAs .meter (.number x) (.number x)
  | below {x : Float} : x < 0.0 → TakenAs .meter (.number x) (.number 0.0)
  | above {x : Float} : 100.0 < x → TakenAs .meter (.number x) (.number 100.0)

open Float.Model in
/-- What is above the range of a meter is not below it. -/
theorem not_lt_of_above {x : Float} (h : 100.0 < x) : ¬ x < 0.0 := by
  intro hlow
  have h : ((100.0 : Float).toModel.unpack.compare x.toModel.unpack == some .lt) = true :=
    of_decide_eq_true h
  have hlow : (x.toModel.unpack.compare (0.0 : Float).toModel.unpack == some .lt) = true :=
    of_decide_eq_true hlow
  cases hx : x.toModel.unpack with
  | notANumber =>
    rw [hx] at h
    cases h
  | zero s =>
    rw [hx] at hlow
    cases s <;> cases hlow
  | infinity s | finite s =>
    rw [hx] at h hlow
    cases s with
    | positive => cases hlow
    | negative => cases h

instance (value : Value) : Decidable value.Proper :=
  match value with
  | .number x => inferInstanceAs (Decidable (x.isNaN = false))
  | .bool _ | .text _ => inferInstanceAs (Decidable True)

namespace Variables

variable {v w : Variables} {s : Schema} {saved : Table Value} {kind : Kind}
  {value taken : Value} {name : String}

/-! ## What a kind makes of a value -/

theorem fit?_of_takenAs (h : value.TakenAs kind taken) : fit? kind value = some taken := by
  cases h with
  | counter | flag => rfl
  | within hlow hhigh =>
    rw [fit?, clampMeter_of_inside (not_lt_of_le hlow) (not_lt_of_le hhigh)]
  | below hlow => rw [fit?, clampMeter_of_below hlow]
  | above hhigh => rw [fit?, clampMeter_of_above (not_lt_of_above hhigh) hhigh]

theorem takenAs_of_fit? (hp : value.Proper) (h : fit? kind value = some taken) :
    value.TakenAs kind taken := by
  cases kind with
  | counter =>
    cases value with
    | number x =>
      cases h
      exact .counter x
    | bool | text => cases h
  | flag =>
    cases value with
    | bool b =>
      cases h
      exact .flag b
    | number | text => cases h
  | meter =>
    cases value with
    | bool | text => cases h
    | number x =>
      cases h
      -- only a meter changes what it takes
      rcases clampMeter_cases x with ⟨hlow, h⟩ | ⟨hhigh, h⟩ | ⟨hlow, hhigh, h⟩
      · rw [h]
        exact .below hlow
      · rw [h]
        exact .above hhigh
      · rw [h]
        exact .within (le_of_not_lt (by decide) hp hlow) (le_of_not_lt hp (by decide) hhigh)

/-! ## Look-ups -/

/-- A write is seen under its own name, if it is not refused. -/
theorem get?_set (v : Variables) (name : String) (value : Value) (k : String) :
    (v.set name value).get? k =
      if k = name then ((v.schema.find? name).bind fun d => fit? d.kind value).or (v.get? k)
      else v.get? k := by
  unfold set
  cases hw : v.write? name value with
  | none =>
    have hrefused : ((v.schema.find? name).bind fun d => fit? d.kind value) = none := by
      unfold write? at hw
      simp only [Option.bind_eq_bind, Option.bind_eq_none_iff, Option.pure_def, reduceCtorEq,
        imp_false] at hw ⊢
      exact fun d hd => Option.eq_none_iff_forall_ne_some.2 (hw d hd)
    rw [Option.getD_none, hrefused, Option.none_or, ite_self]
  | some w =>
    rw [Option.getD_some, get?_of_write? hw]
    have hleft : ((v.schema.find? name).bind fun d => fit? d.kind value).isSome := by
      unfold write? at hw
      simp only [Option.bind_eq_bind, Option.bind_eq_some_iff] at hw
      obtain ⟨d, hd, left, hfit, -⟩ := hw
      rw [hd, Option.bind_some, hfit]
      rfl
    rw [Option.or_eq_left_of_isSome hleft]

/-- Where names increase, writes lay what they leave over what was there. -/
theorem get?_foldl_set {es : List (String × Value)} (h : es.Pairwise (fun a b => a.1 < b.1))
    (v : Variables) (k : String) :
    (es.foldl (fun v e => v.set e.1 e.2) v).get? k =
      ((v.schema.find? k).bind fun d => (es.lookup k).bind (fit? d.kind)).or (v.get? k) := by
  induction es generalizing v with
  | nil => simp
  | cons e es ih =>
    obtain ⟨name, value⟩ := e
    rw [List.foldl_cons, ih h.of_cons, schema_set, get?_set, Table.lookup_cons_ite]
    by_cases hk : k = name
    · subst hk
      simp [Table.lookup_eq_none_of_cons h]
    · rw [if_neg hk, if_neg hk]

/-- A declared variable holds what its kind makes of the saved value, and its default where that
is nothing. -/
theorem get?_restore (hs : v.schema.Built) (saved : Table Value) (name : String) :
    (v.restore saved).get? name = (v.schema.find? name).map fun d =>
      ((saved.get? name).bind (fit? d.kind)).getD d.default := by
  rw [restore, get?_foldl_set saved.sorted, schema_reset, reset, get?_ofSchema hs.once]
  cases v.schema.find? name with
  | none => rfl
  | some d => exact Option.or_some

/-! ## Restoring -/

theorem restore_congr (h : w.schema = v.schema) (saved : Table Value) :
    w.restore saved = v.restore saved := by
  unfold restore reset
  rw [h]

/-- What is restored is restored from its own values as it is, whatever the values are now. -/
theorem restore_restore (hs : v.schema.Built) (saved : Table Value) (hw : w.schema = v.schema) :
    w.restore (v.restore saved).values = v.restore saved :=
  ((suits_ofSchema hs).foldl_set saved.entries).restore_values hs hw

/-- Restoring (`Variables.restore`) normalises: a declared variable has the saved value as its
kind takes it, and its default if no value was saved that the kind can take. No other
variables have values. What the values were before is of no account, and restoring what was
restored changes nothing. -/
theorem restoring_normalises (hs : v.schema.Built) (hp : ∀ e ∈ saved.entries, e.2.Proper) :
    (∀ name d, v.schema.find? name = some d →
      (∀ value taken, saved.get? name = some value → value.TakenAs d.kind taken →
        (v.restore saved).get? name = some taken) ∧
      ((∀ value taken, saved.get? name = some value → ¬ value.TakenAs d.kind taken) →
        (v.restore saved).get? name = some d.default)) ∧
    (∀ name, v.schema.find? name = none → (v.restore saved).get? name = none) ∧
    ∀ w : Variables, w.schema = v.schema →
      w.restore saved = v.restore saved ∧
        w.restore (v.restore saved).values = v.restore saved := by
  refine ⟨fun name d hd => ⟨fun value taken hvalue htaken => ?_, fun hnone => ?_⟩,
    fun name hnone => ?_, fun w hw => ⟨restore_congr hw saved, restore_restore hs saved hw⟩⟩
  · rw [get?_restore hs, hd, hvalue, Option.map_some, Option.bind_some, fit?_of_takenAs htaken,
      Option.getD_some]
  · have hfits : (saved.get? name).bind (fit? d.kind) = none := by
      refine Option.bind_eq_none_iff.2 fun value hvalue => ?_
      refine Option.eq_none_iff_forall_ne_some.2 fun taken htaken => ?_
      have hproper := hp (name, value) (Table.get?_eq_some_iff.1 hvalue)
      exact hnone value taken hvalue (takenAs_of_fit? hproper htaken)
    rw [get?_restore hs, hd, Option.map_some, hfits, Option.getD_none]
  · rw [get?_restore hs, hnone, Option.map_none]

/-- Saved values that are too large, in range, of the wrong sort, and of no variable. -/
def motley : Table Value :=
  .ofList [("valeria_affection", .number 140), ("tension", .number 55), ("is_liar", .number 1),
    ("ghost", .bool true)]

theorem restoring_normalises_motley : ∃ v : Variables, v = (ofSchema .standard).restore motley ∧
    v.get? "valeria_affection" = some (.number 100) ∧ v.get? "tension" = some (.number 55) ∧
      v.get? "is_liar" = some (.bool false) ∧ v.get? "mistery_level" = some (.number 0) ∧
      v.get? "ghost" = none ∧ v.restore motley = v ∧ v.restore v.values = v := by
  have hs : (ofSchema .standard).schema.Built := by
    refine ⟨_, ?_, rfl⟩
    simp only [List.forall_mem_cons]
    exact ⟨.meter _ _, .meter _ _, .meter _ _, .flag _ _, .counter _ _, List.forall_mem_nil _⟩
  have hp : ∀ e ∈ motley.entries, e.2.Proper := by decide
  obtain ⟨hdeclared, hother, hagain⟩ := restoring_normalises hs hp
  have hsame := hagain ((ofSchema .standard).restore motley) (schema_restore _ _)
  refine ⟨_, rfl, ?_, ?_, ?_, ?_, hother _ (by decide), hsame⟩
  · exact (hdeclared _ _ rfl).1 _ _ rfl (.above (by decide))
  · exact (hdeclared _ _ rfl).1 _ _ rfl (.within (by decide) (by decide))
  · refine (hdeclared "is_liar" _ rfl).2 fun value taken hvalue htaken => ?_
    cases hvalue
    cases htaken
  · refine (hdeclared "mistery_level" _ rfl).2 fun value taken hvalue => ?_
    cases hvalue

end Variables

end StoryChat
