/-
Variables stay typed.

A write (`Variables.set`) brings numbers for meters into range, and this fails for
no-number only, which is neither too small nor too large. So variables stay typed
(`Typed`) as long as no such number is written to a meter. Where an impact is added to a
meter (`Variables.increase`) its value is from 0 to 100, thus finite, and its sum with a
number is a number again, be it out of range or infinite. What is asked of a schema
(`Schema.Proper`) is that no meter starts from no-number.
-/
import StoryChat.Proofs.Decimal.NoNumber
import StoryChat.Proofs.Story.Typed

set_option autoImplicit false

namespace StoryChat

/-! ## Ranges -/

section

open Float.Model

variable {x y : Float}

/-- Numbers are comparable. -/
theorem exists_compare {a b : UnpackedFloat} (ha : a.isNaN = false) (hb : b.isNaN = false) :
    ∃ o, a.compare b = some o := by
  cases a with
  | notANumber => cases ha
  | infinity s =>
    cases b with
    | notANumber => cases hb
    | infinity => exact ⟨_, rfl⟩
    | _ => cases s <;> exact ⟨_, rfl⟩
  | zero =>
    cases b with
    | notANumber => cases hb
    | infinity t | finite t => cases t <;> exact ⟨_, rfl⟩
    | zero => exact ⟨_, rfl⟩
  | finite s =>
    cases b with
    | notANumber => cases hb
    | infinity t | finite t => cases s <;> cases t <;> exact ⟨_, rfl⟩
    | zero => cases s <;> exact ⟨_, rfl⟩

/-- Of two numbers the one that is not larger is at most as large. -/
theorem le_of_not_lt (hx : x.isNaN = false) (hy : y.isNaN = false) (h : ¬ y < x) : x ≤ y := by
  obtain ⟨o, ho⟩ := exists_compare hx hy
  -- the comparison that is asked is the other way round than the one that is answered
  have hswap : y.toModel.unpack.compare x.toModel.unpack = some o.swap := by
    rw [compare_unpacked, ho]
    rfl
  have hne : ¬ (y.toModel.unpack.compare x.toModel.unpack == some .lt) = true := fun hlt =>
    h (decide_eq_true hlt)
  rw [hswap] at hne
  have hle : (x.toModel.unpack.compare y.toModel.unpack).any (·.isLE) = true := by
    rw [ho]
    cases o with
    | lt | eq => rfl
    | gt => exact absurd rfl hne
  exact decide_eq_true hle

/-- What is in the range of a meter is finite. -/
theorem isFinite_of_range (h : 0.0 ≤ x ∧ x ≤ 100.0) : x.isFinite = true := by
  obtain ⟨hlow, hhigh⟩ := h
  have hlow : ((0.0 : Float).toModel.unpack.compare x.toModel.unpack).any (·.isLE) = true :=
    of_decide_eq_true hlow
  have hhigh : (x.toModel.unpack.compare (100.0 : Float).toModel.unpack).any (·.isLE) = true :=
    of_decide_eq_true hhigh
  change x.toModel.unpack.isFinite = true
  cases hx : x.toModel.unpack with
  | zero | finite => rfl
  | notANumber =>
    rw [hx] at hhigh
    cases hhigh
  | infinity s =>
    rw [hx] at hlow hhigh
    cases s with
    | positive => exact absurd hhigh (by decide)
    | negative => exact absurd hlow (by decide)

theorem isNaN_of_finite (h : x.isFinite = true) : x.isNaN = false := by
  have h : x.toModel.unpack.isFinite = true := h
  change x.toModel.unpack.isNaN = false
  cases hx : x.toModel.unpack with
  | notANumber =>
    rw [hx] at h
    cases h
  | _ => rfl

/-- A number for a meter is brought into range. -/
theorem clampMeter_range (hx : x.isNaN = false) : 0.0 ≤ clampMeter x ∧ clampMeter x ≤ 100.0 := by
  rcases clampMeter_cases x with ⟨-, h⟩ | ⟨-, h⟩ | ⟨hlow, hhigh, h⟩
  · rw [h]
    decide
  · rw [h]
    decide
  · rw [h]
    exact ⟨le_of_not_lt (by decide) hx hlow, le_of_not_lt hx (by decide) hhigh⟩

end

/-! ## Values and declarations -/

/-- Whether a value is not no-number. -/
def Value.Proper : Value → Prop
  | .number x => x.isNaN = false
  | .bool _ | .text _ => True

/-- Whether what is added by an impact are numbers. -/
def Table.Proper (impact : Table Float) : Prop := ∀ e ∈ impact.entries, e.2.isNaN = false

/-- A declaration of one of the three kinds, which for a meter is from a number. -/
inductive Declaration.Proper : Declaration → Prop where
  | meter (name : String) {default : Float} : default.isNaN = false → Proper (.meter name default)
  | counter (name : String) (default : Float) : Proper (.counter name default)
  | flag (name : String) (default : Bool) : Proper (.flag name default)

/-- A schema that was built up by such declarations. -/
def Schema.Proper (s : Schema) : Prop :=
  ∃ ds : List Declaration, (∀ d ∈ ds, d.Proper) ∧ s = ofList ds

theorem Declaration.Proper.made {d : Declaration} (h : d.Proper) : d.Made := by
  cases h with
  | meter name => exact .meter name _
  | counter name default => exact .counter name default
  | flag name default => exact .flag name default

theorem Declaration.Proper.ofKind {d : Declaration} (h : d.Proper) : d.default.OfKind d.kind := by
  cases h with
  | meter name hdefault => exact clampMeter_range hdefault
  | counter | flag => trivial

theorem Schema.Proper.built {s : Schema} (h : s.Proper) : s.Built := by
  obtain ⟨ds, hds, rfl⟩ := h
  exact ⟨ds, fun d hd => (hds d hd).made, rfl⟩

theorem Schema.Proper.ofKind {s : Schema} {d : Declaration} (h : s.Proper)
    (hd : d ∈ s.declarations) : d.default.OfKind d.kind := by
  obtain ⟨ds, hds, rfl⟩ := h
  exact (hds d (mem_of_mem_ofList hd)).ofKind

theorem Schema.proper_standard : Schema.standard.Proper := by
  refine ⟨[.meter "valeria_affection" 0, .meter "mistery_level" 0, .meter "tension" 0,
    .flag "is_liar" false, .counter "quiz_points" 0], ?_, rfl⟩
  simp only [List.forall_mem_cons]
  exact ⟨.meter _ (by decide), .meter _ (by decide), .meter _ (by decide), .flag _ _,
    .counter _ _, List.forall_mem_nil _⟩

namespace Variables

/-- What a write leaves is of its kind. -/
theorem ofKind_of_fit? {kind : Kind} {value left : Value} (h : fit? kind value = some left)
    (hp : kind = .meter → value.Proper) : left.OfKind kind := by
  cases kind with
  | meter =>
    cases value with
    | number x =>
      cases h
      exact clampMeter_range (hp rfl)
    | bool | text => cases h
  | counter =>
    cases value with
    | number x =>
      cases h
      trivial
    | bool | text => cases h
  | flag =>
    cases value with
    | bool b =>
      cases h
      trivial
    | number | text => cases h

/-! ## Writes -/

variable {v w : Variables} {s : Schema}

theorem typed_ofSchema (h : s.Proper) : (ofSchema s).Typed s where
  schema := rfl
  ofKind name value hv := by
    obtain ⟨d, hd, rfl, rfl⟩ := exists_of_get?_ofSchema hv
    exact ⟨d, h.built.find?_name hd, h.ofKind hd⟩
  full := (suits_ofSchema h.built).full

theorem Typed.write? {name : String} {value : Value} (h : v.Typed s)
    (hp : ∀ d, s.find? name = some d → d.kind = .meter → value.Proper)
    (hw : v.write? name value = some w) : w.Typed s where
  schema := (h.toSuits.write? hw).schema
  ofKind k x hx := by
    rw [get?_of_write? hw] at hx
    split at hx
    · next hk =>
      obtain ⟨d, hd, hfit⟩ := Option.bind_eq_some_iff.1 hx
      rw [h.schema] at hd
      exact ⟨d, hk ▸ hd, ofKind_of_fit? hfit (hp d hd)⟩
    · exact h.ofKind k x hx
  full := (h.toSuits.write? hw).full

theorem Typed.getD {x : Option Variables} (h : v.Typed s) (hx : ∀ w, x = some w → w.Typed s) :
    (x.getD v).Typed s := by
  cases x with
  | none => exact h
  | some w => exact hx w rfl

theorem Typed.set {value : Value} (h : v.Typed s) (name : String) (hp : value.Proper) :
    (v.set name value).Typed s :=
  h.getD fun _ hw => h.write? (fun _ _ _ => hp) hw

/-- What a meter counts as is finite. -/
theorem Typed.isFinite_meter {name : String} {d : Declaration} (h : v.Typed s)
    (hd : s.find? name = some d) (hmeter : d.kind = .meter) :
    ((v.number? name).getD 0.0).isFinite = true := by
  have hzero : (0.0 : Float).isFinite = true := by decide
  unfold number?
  cases hv : v.get? name with
  | none => exact hzero
  | some value =>
    obtain ⟨d', hd', hkind⟩ := h.ofKind name value hv
    cases hd.symm.trans hd'
    rw [hmeter] at hkind
    cases value with
    | number x => exact isFinite_of_range hkind
    | bool | text => exact hzero

/-- So a sum for a meter is a number. -/
theorem Typed.increase {delta : Float} (h : v.Typed s) (name : String)
    (hdelta : delta.isNaN = false) : (v.increase name delta).Typed s := by
  refine h.getD fun w hw => ?_
  unfold increase? at hw
  simp only [Option.bind_eq_bind, Option.bind_eq_some_iff] at hw
  obtain ⟨_, _, hw⟩ := hw
  split at hw
  · cases hw
  · -- a counter may come to hold no-number, so only meters are asked about
    refine h.write? (fun d hd hmeter => ?_) hw
    exact Decimal.isNaN_add (h.isFinite_meter hd hmeter) hdelta

theorem Typed.applyImpact {impact : Table Float} (h : v.Typed s) (hp : impact.Proper) :
    (v.applyImpact impact).Typed s := by
  unfold Variables.applyImpact
  unfold Table.Proper at hp
  generalize impact.entries = es at hp ⊢
  induction es generalizing v with
  | nil => exact h
  | cons e es ih =>
    obtain ⟨he, hes⟩ := List.forall_mem_cons.1 hp
    exact ih (h.increase e.1 he) hes

theorem Typed.foldl_set {es : List (String × Value)} (h : v.Typed s)
    (hp : ∀ e ∈ es, e.2.Proper) : (es.foldl (fun v e => v.set e.1 e.2) v).Typed s := by
  induction es generalizing v with
  | nil => exact h
  | cons e es ih =>
    obtain ⟨he, hes⟩ := List.forall_mem_cons.1 hp
    exact ih (h.set e.1 he) hes

theorem Typed.reset (h : v.Typed s) (hs : s.Proper) : v.reset.Typed s := by
  rw [Variables.reset, h.schema]
  exact typed_ofSchema hs

/-- Whatever numbers were saved under whatever names, what is restored is typed. -/
theorem Typed.restore {saved : Table Value} (h : v.Typed s) (hs : s.Proper)
    (hp : ∀ e ∈ saved.entries, e.2.Proper) : (v.restore saved).Typed s :=
  (h.reset hs).foldl_set hp

end Variables

end StoryChat
