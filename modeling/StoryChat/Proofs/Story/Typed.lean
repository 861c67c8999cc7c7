/-
Variables that are typed as they are declared.

Whoever looks at variables from outside asks for three things (`Typed`): that the
declared names have values and no others do, that each value is of the kind of its
variable, and that meters stay between 0 and 100. Writes leave exactly such values,
no-numbers apart, which lie neither below nor above anything. So the two ways of saying
that variables are in order, this one and `Suits`, are tied together here, by what the
order of numbers says of the ends of a range.
-/
import StoryChat.Proofs.Story.Variables

set_option autoImplicit false

namespace StoryChat

/-! ## The order of numbers -/

section

open Float.Model

/-- Two numbers compare the other way round as they compare. -/
theorem compare_unpacked (a b : UnpackedFloat) :
    b.compare a = (a.compare b).map Ordering.swap := by
  cases a with
  | notANumber => cases b <;> rfl
  | infinity s =>
    cases s <;> cases b with
    | infinity t => cases t <;> rfl
    | _ => rfl
  | zero s =>
    cases b with
    | infinity t => cases t <;> rfl
    | finite t => cases t <;> rfl
    | _ => rfl
  | finite s m e h =>
    cases s <;> cases b with
    | infinity t => cases t <;> rfl
    | finite t m' e' h' =>
      have hm : compare m' m = (compare m m').swap := Std.OrientedOrd.eq_swap
      have he : compare e' e = (compare e e').swap := Std.OrientedOrd.eq_swap
      cases t <;> (unfold UnpackedFloat.compare; simp [Ordering.swap_then, hm, he])
    | _ => rfl

/-- What is at most as large is not larger. The reverse fails where there is no number. -/
theorem not_lt_of_le {x y : Float} (h : x ≤ y) : ¬ y < x := by
  intro hlt
  have hle : (x.toModel.unpack.compare y.toModel.unpack).any (·.isLE) = true :=
    of_decide_eq_true h
  have hlt : (y.toModel.unpack.compare x.toModel.unpack == some .lt) = true :=
    of_decide_eq_true hlt
  rw [compare_unpacked] at hlt
  cases hc : x.toModel.unpack.compare y.toModel.unpack with
  | none =>
    rw [hc] at hle
    cases hle
  | some o =>
    rw [hc] at hle hlt
    cases o <;> simp_all

end

/-! ## Numbers for meters -/

theorem clampMeter_of_below {x : Float} (h : x < 0.0) : clampMeter x = 0.0 := by
  simp only [clampMeter, if_pos h, if_neg meterOrder.1.2]

theorem clampMeter_of_above {x : Float} (hlow : ¬ x < 0.0) (h : 100.0 < x) :
    clampMeter x = 100.0 := by
  simp only [clampMeter, if_neg hlow, gt_iff_lt, if_pos h]

theorem clampMeter_of_inside {x : Float} (hlow : ¬ x < 0.0) (hhigh : ¬ 100.0 < x) :
    clampMeter x = x := by
  simp only [clampMeter, if_neg hlow, gt_iff_lt, if_neg hhigh]

/-- A number for a meter is below the range, above it, or, if it is one at all, within. -/
theorem clampMeter_cases (x : Float) : (x < 0.0 ∧ clampMeter x = 0.0) ∨
    (100.0 < x ∧ clampMeter x = 100.0) ∨ ¬ x < 0.0 ∧ ¬ 100.0 < x ∧ clampMeter x = x := by
  by_cases hlow : x < 0.0
  · exact .inl ⟨hlow, clampMeter_of_below hlow⟩
  · by_cases hhigh : 100.0 < x
    · exact .inr (.inl ⟨hhigh, clampMeter_of_above hlow hhigh⟩)
    · exact .inr (.inr ⟨hlow, hhigh, clampMeter_of_inside hlow hhigh⟩)

/-! ## Typed variables -/

/-- Whether a value is of a kind: numbers for meters and counters, those of meters from 0 to
100, and truth values for flags. -/
def Value.OfKind : Value → Kind → Prop
  | .number x, .meter => 0.0 ≤ x ∧ x ≤ 100.0
  | .number _, .counter => True
  | .bool _, .flag => True
  | _, _ => False

instance (value : Value) (kind : Kind) : Decidable (value.OfKind kind) :=
  match value, kind with
  | .number x, .meter => inferInstanceAs (Decidable (0.0 ≤ x ∧ x ≤ 100.0))
  | .number _, .counter => inferInstanceAs (Decidable True)
  | .bool _, .flag => inferInstanceAs (Decidable True)
  | .number _, .flag | .bool _, .meter | .bool _, .counter | .text _, .meter
  | .text _, .counter | .text _, .flag => inferInstanceAs (Decidable False)

/-- A value that is of a kind is what a write of it leaves. -/
theorem Value.OfKind.left {value : Value} {kind : Kind} (h : value.OfKind kind) :
    Variables.Left kind value := by
  refine ⟨value, ?_⟩
  cases kind with
  | meter =>
    cases value with
    | number x =>
      obtain ⟨hlow, hhigh⟩ := h
      rw [Variables.fit?, clampMeter_of_inside (not_lt_of_le hlow) (not_lt_of_le hhigh)]
    | bool b => cases h
    | text s => cases h
  | counter =>
    cases value with
    | number x => rfl
    | bool b => cases h
    | text s => cases h
  | flag =>
    cases value with
    | bool b => rfl
    | number x => cases h
    | text s => cases h

namespace Variables

/-- The variables of a schema with a value of its kind for every declared name, and with no
others. -/
structure Typed (v : Variables) (s : Schema) : Prop where
  schema : v.schema = s
  ofKind : ∀ name value, v.get? name = some value →
    ∃ d, s.find? name = some d ∧ value.OfKind d.kind
  full : ∀ name d, s.find? name = some d → (v.get? name).isSome

variable {v : Variables} {s : Schema}

theorem Typed.toSuits (h : v.Typed s) : v.Suits s where
  schema := h.schema
  left name value hv := by
    obtain ⟨d, hd, hkind⟩ := h.ofKind name value hv
    exact ⟨d, hd, hkind.left⟩
  full := h.full

/-- Over a schema that was built up it is enough to go through the values and through the
declarations once. -/
theorem typed_of_entries (hs : s.Built) (hschema : v.schema = s)
    (hkind : ∀ e ∈ v.values.entries, ∃ d ∈ s.declarations, d.name = e.1 ∧ e.2.OfKind d.kind)
    (hfull : ∀ d ∈ s.declarations, (v.get? d.name).isSome) : v.Typed s where
  schema := hschema
  ofKind name value hv := by
    obtain ⟨d, hd, rfl, hvalue⟩ := hkind (name, value) (Table.get?_eq_some_iff.1 hv)
    exact ⟨d, hs.find?_name hd, hvalue⟩
  full name d hd := by
    obtain ⟨hmem, rfl⟩ := Schema.mem_of_find? hd
    exact hfull d hmem

/-! ## Numbers in records -/

/-- The numbers among the values of variables. -/
def Holds (v : Variables) (x : Float) : Prop :=
  ∃ name, v.get? name = some (.number x)

/-- What is so of the numbers in the table is so of those that are found. -/
theorem forall_holds {P : Float → Prop} (h : ∀ e ∈ v.values.entries, ∀ x ∈ e.2.number?, P x) :
    ∀ x, v.Holds x → P x := by
  rintro x ⟨name, hx⟩
  exact h (name, .number x) (Table.get?_eq_some_iff.1 hx) x rfl

end Variables

/-- A number that is read back from a document as it is written. -/
def ReadBack (x : Float) : Prop := Value.ofJson? (Value.number x).toJson = some (.number x)

instance (x : Float) : Decidable (ReadBack x) := inferInstanceAs (Decidable (_ = _))

end StoryChat
