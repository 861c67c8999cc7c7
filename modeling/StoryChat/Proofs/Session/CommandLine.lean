/-
Command lines put together.

A command line is gone through once, from the front (`Options.apply`). A flag takes the next
word for its value, whatever it is, so what a word means depends on the words before it. But a
list of words that is accepted ends between two rounds: its last word is no flag that still
waits for a value. What stands behind it is therefore gone through as a list of its own.

What a word sets (`Sets`), it sets whatever was set before. So two runs over the same words that
begin with different options come to differ in nothing that the words set, and words that were
accepted change nothing when they are gone through again.
-/
import StoryChat.Proofs.Story.Bounded
import StoryChat.Session.Options

set_option autoImplicit false

namespace StoryChat

namespace Options

variable {o o' p q : Options} {words rest : List String} {word flag value : String}
  {setting : Setting}

/-! ## Rounds -/

/-- What a flag and its value make of options. Whether the value suits the flag does not depend
on what was set before. -/
inductive Sets (o : Options) : Setting → String → Options → Prop where
  | scripts (value : String) : Sets o .scripts value { o with scripts := some value }
  | saves (value : String) : Sets o .saves value { o with saves := value }
  | timeScale {value : String} {x : Float} : readTimeScale value = .ok x →
      Sets o .timeScale value { o with timeScale := x }
  | name (value : String) : Sets o .name value { o with name := some value }
  | chapter {value : String} {n : Nat} : Text.readWhole placeLimit value = .ok n →
      Sets o .chapter value { o with chapter := n }
  | part {value : String} {n : Nat} : Text.readWhole placeLimit value = .ok n →
      Sets o .part value { o with part := n }

theorem set_eq_ok_iff : o.set setting value = .ok p ↔ o.Sets setting value p := by
  constructor
  · intro h
    unfold set at h
    cases setting with
    | scripts =>
      cases h
      exact .scripts value
    | saves =>
      cases h
      exact .saves value
    -- only the values that are to be numbers can be refused
    | timeScale =>
      cases hx : readTimeScale value with
      | error fault => rw [hx] at h; cases h
      | ok x =>
        rw [hx] at h
        cases h
        exact .timeScale hx
    | name =>
      cases h
      exact .name value
    | chapter =>
      cases hn : Text.readWhole placeLimit value with
      | error fault => rw [hn] at h; cases h
      | ok n =>
        rw [hn] at h
        cases h
        exact .chapter hn
    | part =>
      cases hn : Text.readWhole placeLimit value with
      | error fault => rw [hn] at h; cases h
      | ok n =>
        rw [hn] at h
        cases h
        exact .part hn
  · intro h
    unfold set
    cases h with
    | scripts | saves | name => rfl
    | timeScale hx =>
      rw [hx]
      rfl
    | chapter hn | part hn => rw [hn]

theorem apply_word (h : Setting.ofFlag? word = none) (o : Options) (rest : List String) :
    o.apply (word :: rest) = (o.switch word).apply rest := by
  rw [apply.eq_def]
  simp only [h]

theorem apply_last (h : Setting.ofFlag? flag = some setting) (o : Options) :
    o.apply [flag] = .error (.missingValue flag) := by
  rw [apply.eq_def]
  simp only [h]

theorem apply_flag (h : Setting.ofFlag? flag = some setting) (o : Options) (value : String)
    (rest : List String) :
    o.apply (flag :: value :: rest) = (o.set setting value).bind (·.apply rest) := by
  rw [apply.eq_def]
  simp only [h]
  cases o.set setting value <;> rfl

/-- How words are gone through from a place on, with the places at which they are looked at.
There is a word at each of them. -/
inductive Scans (words : List String) : Nat → Options → Except OptionFault Options → Prop where
  /-- The end of the words is reached. -/
  | finished {o : Options} : Scans words words.length o (.ok o)
  /-- A switch, or a word that is no flag, stands for itself. -/
  | word {i : Nat} {o : Options} {word : String} {r : Except OptionFault Options} :
      words[i]? = some word → Setting.ofFlag? word = none →
      Scans words (i + 1) (o.switch word) r → Scans words i o r
  /-- A flag takes the next word for its value. -/
  | flag {i : Nat} {o p : Options} {flag value : String} {setting : Setting}
      {r : Except OptionFault Options} :
      words[i]? = some flag → Setting.ofFlag? flag = some setting →
      words[i + 1]? = some value → o.set setting value = .ok p →
      Scans words (i + 2) p r → Scans words i o r
  /-- The value is none for its flag. -/
  | refused {i : Nat} {o : Options} {flag value : String} {setting : Setting}
      {fault : OptionFault} :
      words[i]? = some flag → Setting.ofFlag? flag = some setting →
      words[i + 1]? = some value → o.set setting value = .error fault →
      Scans words i o (.error fault)
  /-- The flag is the last word. -/
  | unfinished {i : Nat} {o : Options} {flag : String} {setting : Setting} :
      words[i]? = some flag → Setting.ofFlag? flag = some setting → i + 1 = words.length →
      Scans words i o (.error (.missingValue flag))

/-- Whatever the words are, they are gone through to an end. -/
theorem scans_apply (before rest : List String) (o : Options) :
    Scans (before ++ rest) before.length o (o.apply rest) := by
  have there (before rest : List String) (word : String) :
      (before ++ word :: rest)[before.length]? = some word := by simp
  -- with each round the words that were looked at move over to those before
  fun_induction apply o rest generalizing before with
  | case1 o =>
    have hlength : before.length = (before ++ []).length := by simp
    rw [hlength]
    exact .finished
  | case2 o word rest hflag ih =>
    refine .word (there before _ word) hflag ?_
    have hrest := ih (before ++ [word])
    rwa [List.append_assoc, List.length_append] at hrest
  | case3 o word setting hflag => exact .unfinished (there before _ word) hflag (by simp)
  | case4 o word setting value rest hflag fault hset =>
    have hvalue := there (before ++ [word]) rest value
    rw [List.append_assoc, List.length_append] at hvalue
    exact .refused (there before _ word) hflag hvalue hset
  | case5 o word setting value rest hflag p hset ih =>
    have hvalue := there (before ++ [word]) rest value
    rw [List.append_assoc, List.length_append] at hvalue
    have hrest := ih (before ++ [word, value])
    rw [List.append_assoc, List.length_append] at hrest
    exact .flag (there before _ word) hflag hvalue hset hrest

/-- There is only one way to go through them. -/
theorem Scans.apply_drop {i : Nat} {r : Except OptionFault Options} (h : Scans words i o r) :
    o.apply (words.drop i) = r := by
  have split {i : Nat} {word : String} (hi : words[i]? = some word) :
      words.drop i = word :: words.drop (i + 1) := by
    obtain ⟨hlt, rfl⟩ := List.getElem?_eq_some_iff.1 hi
    exact List.drop_eq_getElem_cons hlt
  induction h with
  | finished => rw [List.drop_length, apply]
  | word hi hflag _ ih => rw [split hi, apply_word hflag, ih]
  | flag hi hflag hvalue hset _ ih =>
    rw [split hi, split hvalue, apply_flag hflag, hset]
    exact ih
  | refused hi hflag hvalue hset =>
    rw [split hi, split hvalue, apply_flag hflag, hset]
    rfl
  | unfinished hi hflag hlast =>
    rw [split hi, hlast, List.drop_length, apply_last hflag]

theorem scans_iff {r : Except OptionFault Options} : Scans words 0 o r ↔ o.apply words = r := by
  refine ⟨Scans.apply_drop, ?_⟩
  rintro rfl
  exact scans_apply [] words o

/-! ## Lists of words one behind the other -/

/-- Words that are accepted leave nothing open. -/
theorem apply_append (h : o.apply words = .ok o') (rest : List String) :
    o.apply (words ++ rest) = o'.apply rest := by
  fun_induction apply o words with
  | case1 o =>
    cases h
    rfl
  | case2 o word rest' hflag ih => rw [List.cons_append, apply_word hflag, ih h]
  -- a flag at the end would take the first word of the rest, but is not accepted
  | case3 => cases h
  | case4 => cases h
  | case5 o word setting value rest' hflag p hset ih =>
    rw [List.cons_append, List.cons_append, apply_flag hflag, hset]
    exact ih h

/-! ## The same words over different options -/

/-- Whether options `p` and `q` have come from `o` and `o'` by the same words: each of them is
the same in both, or as it was at first in both. -/
structure SetAlike (o o' p q : Options) : Prop where
  scripts : p.scripts = q.scripts ∨ p.scripts = o.scripts ∧ q.scripts = o'.scripts
  saves : p.saves = q.saves ∨ p.saves = o.saves ∧ q.saves = o'.saves
  timeScale : p.timeScale = q.timeScale ∨ p.timeScale = o.timeScale ∧ q.timeScale = o'.timeScale
  name : p.name = q.name ∨ p.name = o.name ∧ q.name = o'.name
  chapter : p.chapter = q.chapter ∨ p.chapter = o.chapter ∧ q.chapter = o'.chapter
  part : p.part = q.part ∨ p.part = o.part ∧ q.part = o'.part
  fresh : p.fresh = q.fresh ∨ p.fresh = o.fresh ∧ q.fresh = o'.fresh
  interrupts :
    p.interrupts = q.interrupts ∨ p.interrupts = o.interrupts ∧ q.interrupts = o'.interrupts

namespace SetAlike

theorem refl (o o' : Options) : SetAlike o o' o o' where
  scripts := .inr ⟨rfl, rfl⟩
  saves := .inr ⟨rfl, rfl⟩
  timeScale := .inr ⟨rfl, rfl⟩
  name := .inr ⟨rfl, rfl⟩
  chapter := .inr ⟨rfl, rfl⟩
  part := .inr ⟨rfl, rfl⟩
  fresh := .inr ⟨rfl, rfl⟩
  interrupts := .inr ⟨rfl, rfl⟩

theorem switch (h : SetAlike o o' p q) (word : String) :
    SetAlike o o' (p.switch word) (q.switch word) := by
  unfold Options.switch
  split
  · exact { h with fresh := .inl rfl }
  · exact { h with interrupts := .inl rfl }
  · exact h

/-- A flag that is set in one can be set in the other. -/
theorem set {p' : Options} (h : SetAlike o o' p q) (hp : p.set setting value = .ok p') :
    ∃ q', q.set setting value = .ok q' ∧ SetAlike o o' p' q' := by
  cases set_eq_ok_iff.1 hp with
  | scripts =>
    exact ⟨_, set_eq_ok_iff.2 (.scripts value), { h with scripts := .inl rfl }⟩
  | saves =>
    exact ⟨_, set_eq_ok_iff.2 (.saves value), { h with saves := .inl rfl }⟩
  | timeScale hx =>
    exact ⟨_, set_eq_ok_iff.2 (.timeScale hx), { h with timeScale := .inl rfl }⟩
  | name =>
    exact ⟨_, set_eq_ok_iff.2 (.name value), { h with name := .inl rfl }⟩
  | chapter hn =>
    exact ⟨_, set_eq_ok_iff.2 (.chapter hn), { h with chapter := .inl rfl }⟩
  | part hn =>
    exact ⟨_, set_eq_ok_iff.2 (.part hn), { h with part := .inl rfl }⟩

/-- Words that are accepted over one are accepted over the other. -/
theorem apply {p' : Options} (h : SetAlike o o' p q) (hp : p.apply words = .ok p') :
    ∃ q', q.apply words = .ok q' ∧ SetAlike o o' p' q' := by
  fun_induction Options.apply p words generalizing q with
  | case1 p =>
    cases hp
    exact ⟨q, rfl, h⟩
  | case2 p word rest hflag ih =>
    rw [apply_word hflag]
    exact ih (h.switch word) hp
  | case3 => cases hp
  | case4 => cases hp
  | case5 p word setting value rest hflag p₁ hset ih =>
    obtain ⟨q₁, hq, h₁⟩ := h.set hset
    rw [apply_flag hflag, hq]
    exact ih h₁ hp

/-- From where the one has come to, the other comes there too. -/
theorem eq (h : SetAlike o p p q) : q = p := by
  obtain ⟨hscripts, hsaves, htimeScale, hname, hchapter, hpart, hfresh, hinterrupts⟩ := h
  have same {α : Type} {a b c : α} (h : a = b ∨ a = c ∧ b = a) : b = a :=
    h.elim Eq.symm And.right
  cases p
  cases q
  simp only [mk.injEq]
  exact ⟨same hscripts, same hsaves, same htimeScale, same hname, same hchapter, same hpart,
    same hfresh, same hinterrupts⟩

end SetAlike

/-- Words that were accepted set nothing anew. -/
theorem apply_again (h : o.apply words = .ok o') : o'.apply words = .ok o' := by
  obtain ⟨q, hq, halike⟩ := (SetAlike.refl o o').apply h
  rw [hq, halike.eq]

/-! ## The scale -/

/-- Whether waiting is scaled by a finite number that is not negative. -/
def Scaled (o : Options) : Prop := Decimal.isFinite o.timeScale = true ∧ 0.0 ≤ o.timeScale

instance (o : Options) : Decidable o.Scaled := inferInstanceAs (Decidable (_ ∧ _))

/-- A scale that is read from a word is finite and not negative. -/
theorem scale_of_readTimeScale {value : String} {x : Float}
    (h : readTimeScale value = .ok x) : Decimal.isFinite x = true ∧ 0.0 ≤ x := by
  unfold readTimeScale at h
  split at h
  · cases h
  · split at h
    · next hx =>
      cases h
      obtain ⟨hfinite, hlow⟩ := hx
      exact ⟨hfinite, le_of_not_lt (by decide) (Decimal.isNaN_of_isFinite hfinite) hlow⟩
    · cases h

theorem Scaled.switch (h : o.Scaled) (word : String) : (o.switch word).Scaled := by
  unfold Options.switch
  split <;> exact h

theorem Scaled.set (h : o.Scaled) (hset : o.set setting value = .ok p) : p.Scaled := by
  cases set_eq_ok_iff.1 hset with
  | timeScale hx => exact scale_of_readTimeScale hx
  | scripts | saves | name | chapter | part => exact h

theorem Scaled.apply (h : o.Scaled) (hp : o.apply words = .ok p) : p.Scaled := by
  fun_induction Options.apply o words with
  | case1 =>
    cases hp
    exact h
  | case2 o word rest hflag ih => exact ih (h.switch word) hp
  | case3 => cases hp
  | case4 => cases hp
  | case5 o word setting value rest hflag p₁ hset ih => exact ih (h.set hset) hp

/-! ## All of it -/

/-- Whatever the words are, they are gone through (`Options.apply`) to one end (`Scans`), with
no look past the last of them. Words that are accepted may be gone through before any others:
that comes to the same as all of them at once. To go through them again changes nothing, and
they keep the scale in order. -/
theorem command_lines_compose (o : Options) (words : List String) :
    (∀ r, Scans words 0 o r ↔ o.apply words = r) ∧
      ∀ o', o.apply words = .ok o' →
        (∀ rest, o.apply (words ++ rest) = o'.apply rest) ∧ o'.apply words = .ok o' ∧
          (o.Scaled → o'.Scaled) :=
  ⟨fun _ => scans_iff, fun _ h => ⟨apply_append h, apply_again h, fun hs => hs.apply h⟩⟩

/-- A flag that stands as the value of another one, and one at the end of what follows. -/
theorem command_lines_compose_swallowing : ∃ o' : Options,
    apply {} ["--name", "--fresh", "story", "--time-scale", "0.5"] = .ok o' ∧
      o'.name = some "--fresh" ∧ o'.fresh = false ∧
      apply {} ["--name", "--fresh", "story", "--time-scale", "0.5", "--fresh", "--part"] =
        .error (.missingValue "--part") ∧
      o'.apply ["--name", "--fresh", "story", "--time-scale", "0.5"] = .ok o' ∧ o'.Scaled := by
  obtain ⟨o', h, hname, hfresh⟩ : ∃ o' : Options,
      apply {} ["--name", "--fresh", "story", "--time-scale", "0.5"] = .ok o' ∧
        o'.name = some "--fresh" ∧ o'.fresh = false := ⟨_, rfl, rfl, rfl⟩
  obtain ⟨happend, hagain, hscaled⟩ := (command_lines_compose {} _).2 o' h
  refine ⟨o', h, hname, hfresh, ?_, hagain, hscaled (by decide)⟩
  exact (happend ["--fresh", "--part"]).trans rfl

end Options

end StoryChat
