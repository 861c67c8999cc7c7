/-
What slots hold after they were written.

Whether a call on the slots succeeds or fails on the way, a slot never holds anything
but what was put into it or what it held before. A slot is told apart from another by
what the medium makes of their keys (`Apart`), so two keys may well be one slot. The
draft of a file (`Text.draftFileName`) is no slot, since no slot's file has a name
like that.
-/
import StoryChat.Save.Slots

set_option autoImplicit false

namespace StoryChat

namespace Text

/-- No slot's file is a draft. -/
theorem fileName_ne_draftFileName (a b : String) : fileName a ≠ draftFileName b := by
  intro h
  have hlast := congrArg (fun s => s.toList.getLast?) h
  simp only [fileName, draftFileName] at hlast
  split at hlast <;> simp [String.toList_append, List.getLast?_append] at hlast

theorem fromUTF8?_toUTF8 (s : String) : String.fromUTF8? s.toUTF8 = some s := by
  unfold String.fromUTF8?
  rw [String.toUTF8_eq_toByteArray, dif_pos s.isValidUTF8]
  rfl

end Text

/-! ## Folders -/

namespace Folder

variable {f g : Folder} {name draft other draft' text : String} {bytes : ByteArray}

/-- A text is read where there is a file that holds it. -/
theorem read_eq_text_iff : f.read name = .text text ↔ f.allows name = true ∧
    ∃ entries bytes, f.entries = some entries ∧ entries.get? name = some (.file bytes) ∧
      String.fromUTF8? bytes = some text := by
  constructor
  · intro h
    unfold read at h
    split at h
    · split at h <;> cases h
    · next entries he =>
      split at h
      · cases h
      · next ha =>
        split at h
        · cases h
        · cases h
        · next bytes hg =>
          split at h
          · cases h
          · next hs =>
            cases h
            exact ⟨Decidable.not_not.1 ha, entries, bytes, he, hg, hs⟩
  · rintro ⟨ha, entries, bytes, he, hg, hs⟩
    unfold read
    rw [he]
    dsimp only
    rw [if_neg (not_not_intro ha), hg]
    dsimp only
    rw [hs]

theorem allows_create (f : Folder) (name : String) : f.create.allows name = f.allows name := by
  unfold create
  split <;> rfl

theorem create_of_entries {entries : Table FileEntry} (he : f.entries = some entries) :
    f.create = f := by
  rw [create, he]

/-- A folder that is made holds no texts that were not there. -/
theorem read_create (h : f.create.read name = .text text) : f.read name = .text text := by
  unfold create at h
  split at h
  · obtain ⟨-, entries, bytes, he, hg, -⟩ := read_eq_text_iff.1 h
    cases he
    cases hg
  · exact h

/-- A folder after a file was written, where nothing else is different. -/
theorem of_write? (h : f.write? name bytes = some g) : ∃ entries, f.entries = some entries ∧
    g = { f with entries := some (entries.insert name (.file bytes)) } := by
  unfold write? at h
  simp only [Option.bind_eq_bind, Option.bind_eq_some_iff] at h
  obtain ⟨entries, he, h⟩ := h
  split at h
  · cases h
  · cases h
    exact ⟨entries, he, rfl⟩

/-- A folder after a file was moved. -/
theorem of_move? (h : f.move? draft name = some g) : f.allows name = true ∧
    ∃ entries entry, f.entries = some entries ∧ entries.get? draft = some entry ∧
      g = { f with entries := some ((entries.erase draft).insert name entry) } := by
  unfold move? at h
  simp only [Option.bind_eq_bind, Option.bind_eq_some_iff] at h
  obtain ⟨entries, he, entry, hd, h⟩ := h
  split at h
  · cases h
  · next hn =>
    cases h
    rw [not_or, Decidable.not_not] at hn
    exact ⟨hn.1, entries, entry, he, hd, rfl⟩

theorem read_write?_of_ne (hw : f.write? draft bytes = some g) (hne : name ≠ draft)
    (h : g.read name = .text text) : f.read name = .text text := by
  obtain ⟨entries, he, rfl⟩ := of_write? hw
  obtain ⟨ha, entries', bytes', he', hg, hs⟩ := read_eq_text_iff.1 h
  cases he'
  rw [Table.get?_insert, if_neg hne] at hg
  exact read_eq_text_iff.2 ⟨ha, entries, bytes', he, hg, hs⟩

/-- What is read after a file was replaced was there before, or it is what the file was
replaced with. -/
theorem of_read_replace (hne : other ≠ draft)
    (h : (f.replace name draft bytes).2.read other = .text text) :
    f.read other = .text text ∨ other = name ∧ String.fromUTF8? bytes = some text := by
  unfold replace at h
  dsimp only at h
  -- a draft is written and moved, and where one of the two fails only the draft has changed
  cases hw : f.create.write? draft bytes with
  | none =>
    rw [hw] at h
    exact .inl (read_create h)
  | some drafted =>
    rw [hw] at h
    dsimp only at h
    cases hm : drafted.move? draft name with
    | none =>
      rw [hm] at h
      exact .inl (read_create (read_write?_of_ne hw hne h))
    | some moved =>
      rw [hm] at h
      obtain ⟨-, entries, entry, he, hd, rfl⟩ := of_move? hm
      obtain ⟨ha, entries', bytes', he', hg, hs⟩ := read_eq_text_iff.1 h
      cases he'
      rw [Table.get?_insert] at hg
      split at hg
      · next heq =>
        obtain ⟨entries₀, -, rfl⟩ := of_write? hw
        cases he
        rw [Table.get?_insert, if_pos rfl] at hd
        cases hd
        cases hg
        exact .inr ⟨heq, hs⟩
      · rw [Table.get?_erase, if_neg hne] at hg
        have hread : drafted.read other = .text text :=
          read_eq_text_iff.2 ⟨ha, entries, bytes', he, hg, hs⟩
        exact .inl (read_create (read_write?_of_ne hw hne hread))

/-- A file that was replaced without a fault is read as what it was replaced with. -/
theorem read_replace (hdone : (f.replace name draft text.toUTF8).1 = true) :
    (f.replace name draft text.toUTF8).2.read name = .text text := by
  unfold replace at hdone ⊢
  dsimp only at hdone ⊢
  cases hw : f.create.write? draft text.toUTF8 with
  | none =>
    rw [hw] at hdone
    cases hdone
  | some drafted =>
    rw [hw] at hdone
    dsimp only at hdone ⊢
    cases hm : drafted.move? draft name with
    | none =>
      rw [hm] at hdone
      cases hdone
    | some moved =>
      obtain ⟨ha, entries, entry, he, hd, rfl⟩ := of_move? hm
      obtain ⟨entries₀, -, rfl⟩ := of_write? hw
      cases he
      rw [Table.get?_insert, if_pos rfl] at hd
      cases hd
      refine read_eq_text_iff.2 ⟨ha, _, _, rfl, ?_, Text.fromUTF8?_toUTF8 text⟩
      rw [Table.get?_insert, if_pos rfl]

/-- To replace a file leaves the others as they are. -/
theorem read_replace_of_ne (hname : other ≠ name) (hdraft : other ≠ draft)
    (h : f.read other = .text text) : (f.replace name draft bytes).2.read other = .text text := by
  obtain ⟨ha, entries, bytes', he, hg, hs⟩ := read_eq_text_iff.1 h
  have hcreate : f.create = f := create_of_entries he
  unfold replace
  dsimp only
  rw [hcreate]
  cases hw : f.write? draft bytes with
  | none => exact h
  | some drafted =>
    obtain ⟨entries₀, he₀, rfl⟩ := of_write? hw
    rw [he] at he₀
    cases he₀
    dsimp only
    split
    · refine read_eq_text_iff.2 ⟨ha, _, bytes', rfl, ?_, hs⟩
      rw [Table.get?_insert, if_neg hdraft, hg]
    · next moved hm =>
      obtain ⟨-, entries₁, entry, he₁, -, rfl⟩ := of_move? hm
      cases he₁
      refine read_eq_text_iff.2 ⟨ha, _, bytes', rfl, ?_, hs⟩
      rw [Table.get?_insert, if_neg hname, Table.get?_erase, if_neg hdraft, Table.get?_insert,
        if_neg hdraft, hg]

/-- Whether nothing stands in the way of replacing a file: both names are allowed, and
neither stands for a folder. -/
structure Clear (f : Folder) (name draft : String) : Prop where
  allowsName : f.allows name = true
  allowsDraft : f.allows draft = true
  files : ∀ entries, f.create.entries = some entries →
    entries.get? name ≠ some .folder ∧ entries.get? draft ≠ some .folder

theorem clear_of_replace (hne : name ≠ draft) (h : (f.replace name draft bytes).1 = true) :
    f.Clear name draft := by
  unfold replace at h
  dsimp only at h
  split at h
  · cases h
  · next drafted hw =>
    split at h
    · cases h
    · next moved hm =>
      unfold write? at hw
      simp only [Option.bind_eq_bind, Option.bind_eq_some_iff] at hw
      obtain ⟨entries, he, hw⟩ := hw
      split at hw
      · cases hw
      · next hd =>
        cases hw
        unfold move? at hm
        simp only [Option.bind_eq_bind, Option.bind_some, Option.bind_eq_some_iff] at hm
        obtain ⟨entry, -, hm⟩ := hm
        split at hm
        · cases hm
        · next hn =>
          rw [not_or, Decidable.not_not] at hd hn
          rw [Table.get?_insert, if_neg hne] at hn
          refine ⟨(allows_create f name).symm.trans hn.1, (allows_create f draft).symm.trans hd.1,
            fun entries' he' => ?_⟩
          rw [he] at he'
          cases he'
          exact ⟨hn.2, hd.2⟩

/-- What comes of replacing a file where nothing stands in the way. -/
theorem replace_of_clear (hne : name ≠ draft) (h : f.Clear name draft) (bytes : ByteArray) :
    ∃ entries : Table FileEntry, f.create.entries = some entries ∧
      f.replace name draft bytes = (true, { f with
        entries := some (((entries.insert draft (.file bytes)).erase draft).insert name
          (.file bytes)) }) := by
  obtain ⟨entries, he⟩ : ∃ entries, f.create = { f with entries := some entries } := by
    unfold create
    split
    · exact ⟨_, rfl⟩
    · next entries he => exact ⟨entries, by rw [← he]⟩
  obtain ⟨hname, hdraft⟩ := h.files entries (by rw [he])
  -- both names are allowed and neither is that of a folder, so both steps are done
  have hw : f.create.write? draft bytes =
      some { f with entries := some (entries.insert draft (.file bytes)) } := by
    rw [he, write?]
    simp only [Option.bind_eq_bind, Option.bind_some]
    exact if_neg (not_or.2 ⟨Decidable.not_not.2 h.allowsDraft, hdraft⟩)
  have hm : Folder.move? { f with entries := some (entries.insert draft (.file bytes)) } draft
      name = some { f with entries := some (((entries.insert draft (.file bytes)).erase
        draft).insert name (.file bytes)) } := by
    rw [move?]
    simp only [Option.bind_eq_bind, Option.bind_some]
    rw [Table.get?_insert, if_pos rfl, Option.bind_some, Table.get?_insert, if_neg hne]
    exact if_neg (not_or.2 ⟨Decidable.not_not.2 h.allowsName, hname⟩)
  refine ⟨entries, by rw [he], ?_⟩
  rw [replace, hw]
  dsimp only
  rw [hm]

/-- Where a file was replaced without a fault, whatever could be replaced can be. -/
theorem Clear.replace (hne : name ≠ draft) (h : f.Clear name draft)
    (hother : f.Clear other draft') (bytes : ByteArray) :
    (f.replace name draft bytes).2.Clear other draft' := by
  obtain ⟨entries, he, hr⟩ := replace_of_clear hne h bytes
  rw [hr]
  refine ⟨hother.allowsName, hother.allowsDraft, fun entries' he' => ?_⟩
  cases he'
  have hnew {key : String} (hkey : entries.get? key ≠ some .folder) :
      (((entries.insert draft (.file bytes)).erase draft).insert name (.file bytes)).get? key ≠
        some .folder := by
    rw [Table.get?_insert, Table.get?_erase, Table.get?_insert]
    split
    · exact nofun
    · split
      · exact nofun
      · exact hkey
  exact ⟨hnew (hother.files entries he).1, hnew (hother.files entries he).2⟩

/-- A folder after a file was removed. -/
theorem of_remove? (h : f.remove? name = some g) :
    f.entries = none ∧ f.reaches name = true ∧ g = f ∨ ∃ entries, f.entries = some entries ∧
      f.allows name = true ∧ g = { f with entries := some (entries.erase name) } := by
  unfold remove? at h
  split at h
  · next he =>
    split at h
    · next hr =>
      cases h
      exact .inl ⟨he, hr, rfl⟩
    · cases h
  · next entries he =>
    split at h
    · cases h
    · next hn =>
      cases h
      rw [not_or, Decidable.not_not] at hn
      exact .inr ⟨entries, he, hn.1, rfl⟩

theorem read_remove? (h : f.remove? name = some g) (hr : g.read other = .text text) :
    f.read other = .text text := by
  rcases of_remove? h with ⟨-, -, rfl⟩ | ⟨entries, he, -, rfl⟩
  · exact hr
  · obtain ⟨ha, entries', bytes, he', hg, hs⟩ := read_eq_text_iff.1 hr
    cases he'
    rw [Table.get?_erase] at hg
    split at hg
    · cases hg
    · exact read_eq_text_iff.2 ⟨ha, entries, bytes, he, hg, hs⟩

/-- A file that is not there is read as one. -/
theorem read_eq_absent (ha : f.allows name = true) {entries : Table FileEntry}
    (he : f.entries = some entries) (hg : entries.get? name = none) : f.read name = .absent := by
  unfold read
  rw [he]
  dsimp only
  rw [if_neg (not_not_intro ha), hg]

theorem read_of_remove? (h : f.remove? name = some g) : g.read name = .absent := by
  rcases of_remove? h with ⟨he, hr, rfl⟩ | ⟨entries, he, ha, rfl⟩
  · unfold read
    rw [he]
    exact if_pos hr
  · refine read_eq_absent ha rfl ?_
    rw [Table.get?_erase, if_pos rfl]

/-- To remove a file brings none back. -/
theorem read_remove?_absent (h : f.remove? name = some g) (hr : f.read other = .absent) :
    g.read other = .absent := by
  rcases of_remove? h with ⟨-, -, rfl⟩ | ⟨entries, he, -, rfl⟩
  · exact hr
  · unfold read at hr
    rw [he] at hr
    dsimp only at hr
    split at hr
    · cases hr
    · next ha =>
      refine read_eq_absent (Decidable.not_not.1 ha) rfl ?_
      rw [Table.get?_erase]
      split
      · rfl
      · split at hr
        · next hg => exact hg
        · cases hr
        · split at hr <;> cases hr

theorem reaches_of_allows (h : f.allows name = true) : f.reaches name = true := by
  unfold allows at h
  unfold reaches
  cases hl : f.limits with
  | none => rfl
  | some limits =>
    rw [hl] at h
    exact decide_eq_true (Nat.le_trans (of_decide_eq_true h) (Nat.min_le_right _ _))

/-- What a name in a folder stands for, if it is there. -/
def listed? (f : Folder) (name : String) : Option FileEntry := f.entries.bind (·.get? name)

theorem listed?_create (f : Folder) (name : String) : f.create.listed? name = f.listed? name := by
  unfold create
  split
  · next he =>
    unfold listed?
    rw [he]
    rfl
  · rfl

/-- A file whose name is allowed is read as what is there. -/
theorem read_of_allows (ha : f.allows name = true) : f.read name =
    match f.listed? name with
    | none => .absent
    | some .folder => .refused
    | some (.file bytes) => ((String.fromUTF8? bytes).map ReadResult.text).getD .refused := by
  unfold read listed?
  cases he : f.entries with
  | none => exact if_pos (reaches_of_allows ha)
  | some entries =>
    dsimp only [Option.bind_some]
    rw [if_neg (not_not_intro ha)]
    cases entries.get? name with
    | none => rfl
    | some entry =>
      cases entry with
      | folder => rfl
      | file bytes =>
        dsimp only
        cases String.fromUTF8? bytes <;> rfl

/-- Where nothing stands in the way, to replace a file leaves the others as they are. -/
theorem Clear.read_replace (hne : name ≠ draft) (h : f.Clear name draft) (hname : other ≠ name)
    (hdraft : other ≠ draft) (ha : f.allows other = true) (bytes : ByteArray) :
    (f.replace name draft bytes).2.read other = f.read other := by
  obtain ⟨entries, he, hr⟩ := replace_of_clear hne h bytes
  have hlisted : f.listed? other = entries.get? other := by
    rw [← listed?_create, listed?, he]
    rfl
  have hafter : (f.replace name draft bytes).2.listed? other = entries.get? other := by
    rw [hr]
    change ((((entries.insert draft _).erase draft).insert name _).get? other) = _
    rw [Table.get?_insert, if_neg hname, Table.get?_erase, if_neg hdraft, Table.get?_insert,
      if_neg hdraft]
  have hallows : (f.replace name draft bytes).2.allows other = true := by
    rw [hr]
    exact ha
  rw [read_of_allows ha, read_of_allows hallows, hafter, hlisted]

/-- To remove a file leaves the others as they are. -/
theorem read_remove?_of_ne (h : f.remove? name = some g) (hname : other ≠ name)
    (ha : f.allows other = true) : g.read other = f.read other := by
  rcases of_remove? h with ⟨-, -, rfl⟩ | ⟨entries, he, -, rfl⟩
  · rfl
  · have hafter : Folder.listed? { f with entries := some (entries.erase name) } other =
        f.listed? other := by
      rw [listed?, listed?, he]
      change (entries.erase name).get? other = entries.get? other
      rw [Table.get?_erase, if_neg hname]
    have hallows : Folder.allows { f with entries := some (entries.erase name) } other = true := ha
    rw [read_of_allows ha, read_of_allows hallows, hafter]

/-- A file that can be replaced can be removed. -/
theorem Clear.exists_remove? (h : f.Clear name draft) : ∃ g, f.remove? name = some g := by
  unfold Folder.remove?
  split
  · exact ⟨f, if_pos (reaches_of_allows h.allowsName)⟩
  · next entries he =>
    have hfile := (h.files entries (by rw [create_of_entries he, he])).1
    exact ⟨_, if_neg (not_or.2 ⟨Decidable.not_not.2 h.allowsName, hfile⟩)⟩

/-- To remove a file stands in the way of nothing. -/
theorem Clear.remove? (h : f.Clear name draft) (hr : f.remove? other = some g) :
    g.Clear name draft := by
  rcases of_remove? hr with ⟨-, -, rfl⟩ | ⟨entries, he, -, rfl⟩
  · exact h
  · refine ⟨h.allowsName, h.allowsDraft, fun entries' he' => ?_⟩
    cases he'
    have hfiles := h.files entries (by rw [create_of_entries he, he])
    constructor
    · rw [Table.get?_erase]
      split
      · exact nofun
      · exact hfiles.1
    · rw [Table.get?_erase]
      split
      · exact nofun
      · exact hfiles.2

end Folder

/-! ## Slots -/

namespace SlotMedium

variable {m : SlotMedium} {a b text text' : String}

/-- Whether two keys are different slots. -/
def Apart (m : SlotMedium) (a b : String) : Prop :=
  match m with
  | .memory _ => a ≠ b
  | .files _ => Text.fileName a ≠ Text.fileName b

instance (m : SlotMedium) (a b : String) : Decidable (m.Apart a b) := by
  cases m <;> exact inferInstanceAs (Decidable (_ ≠ _))

theorem get_files_iff {folder : Folder} {key : String} :
    (files folder).get key = .ok (some text) ↔ folder.read (Text.fileName key) = .text text := by
  unfold get
  dsimp only
  cases folder.read (Text.fileName key) <;> simp

theorem Apart.symm (h : m.Apart a b) : m.Apart b a := by
  cases m <;> exact Ne.symm h

/-- What a slot holds after a text was put into one, it held before, or it is that text. -/
theorem of_get_set (h : (m.set b text).2.get a = .ok (some text')) :
    m.get a = .ok (some text') ∨ ¬ m.Apart a b ∧ text' = text := by
  cases m with
  | memory slots =>
    simp only [set, get, Table.get?_insert, Except.ok.injEq] at h ⊢
    split at h
    · next he => exact .inr ⟨fun hn => hn he, (Option.some.inj h).symm⟩
    · exact .inl h
  | files folder =>
    rcases Folder.of_read_replace (Text.fileName_ne_draftFileName a b) (get_files_iff.1 h) with
      h | ⟨he, hs⟩
    · exact .inl (get_files_iff.2 h)
    · rw [Text.fromUTF8?_toUTF8] at hs
      exact .inr ⟨fun hn => hn he, (Option.some.inj hs).symm⟩

/-- A text that was put into a slot without a fault is in it. -/
theorem get_set (h : (m.set a text).1 = .ok ()) : (m.set a text).2.get a = .ok (some text) := by
  cases m with
  | memory slots => simp [set, get]
  | files folder =>
    refine get_files_iff.2 (Folder.read_replace ?_)
    simp only [set] at h
    split at h
    · assumption
    · cases h

/-- What another slot holds it holds still after a text was put into one. -/
theorem get_set_of_apart (ha : m.Apart a b) (h : m.get a = .ok (some text')) :
    (m.set b text).2.get a = .ok (some text') := by
  cases m with
  | memory slots =>
    simp only [set, get, Table.get?_insert, Except.ok.injEq] at h ⊢
    rw [if_neg ha, h]
  | files folder =>
    exact get_files_iff.2 (Folder.read_replace_of_ne ha (Text.fileName_ne_draftFileName a b)
      (get_files_iff.1 h))

/-- Whether texts can be put into a slot without a fault. -/
def Takes (m : SlotMedium) (key : String) : Prop := ∀ text, (m.set key text).1 = .ok ()

theorem takes_files_iff {folder : Folder} {key : String} : (files folder).Takes key ↔
    folder.Clear (Text.fileName key) (Text.draftFileName key) := by
  have hne := Text.fileName_ne_draftFileName key key
  constructor
  · intro h
    have h' := h ""
    refine Folder.clear_of_replace hne (?_ : (folder.replace _ _ "".toUTF8).1 = true)
    simp only [set] at h'
    split at h'
    · assumption
    · cases h'
  · intro h text
    obtain ⟨entries, -, hr⟩ := Folder.replace_of_clear hne h text.toUTF8
    simp only [set, hr, if_true]

/-- A slot that takes texts does so after one was put into a slot. -/
theorem Takes.set_of_takes (h : m.Takes a) (hb : m.Takes b) (text : String) :
    (m.set b text).2.Takes a := by
  cases m with
  | memory slots => exact fun _ => rfl
  | files folder =>
    have hclear := (takes_files_iff.1 hb).replace (Text.fileName_ne_draftFileName b b)
      (takes_files_iff.1 h) text.toUTF8
    exact takes_files_iff.2 hclear

theorem Takes.set (h : m.Takes a) (text : String) : (m.set a text).2.Takes a :=
  h.set_of_takes h text

/-- Slots that take texts have none to do with another. -/
theorem Takes.get_set (h : m.Takes a) (hb : m.Takes b) (ha : m.Apart a b) (text : String) :
    (m.set b text).2.get a = m.get a := by
  cases m with
  | memory slots =>
    simp only [SlotMedium.set, SlotMedium.get, Table.get?_insert]
    rw [if_neg ha]
  | files folder =>
    have hread := (takes_files_iff.1 hb).read_replace (Text.fileName_ne_draftFileName b b) ha
      (Text.fileName_ne_draftFileName a b) (takes_files_iff.1 h).allowsName text.toUTF8
    simp only [SlotMedium.set, SlotMedium.get, hread]

/-- To empty a slot puts nothing into any. -/
theorem of_get_remove (h : (m.remove b).2.get a = .ok (some text)) :
    m.get a = .ok (some text) := by
  cases m with
  | memory slots =>
    simp only [remove, get, Table.get?_erase, Except.ok.injEq] at h ⊢
    split at h
    · cases h
    · exact h
  | files folder =>
    unfold remove at h
    dsimp only at h
    split at h
    · exact h
    · next hr => exact get_files_iff.2 (Folder.read_remove? hr (get_files_iff.1 h))

/-- A slot that takes texts can be emptied. -/
theorem Takes.remove_fst (h : m.Takes a) : (m.remove a).1 = .ok () := by
  cases m with
  | memory slots => rfl
  | files folder =>
    obtain ⟨g, hg⟩ := (takes_files_iff.1 h).exists_remove?
    simp only [SlotMedium.remove, hg]

/-- A slot that takes texts does so after one was emptied. -/
theorem Takes.remove (h : m.Takes a) (b : String) : (m.remove b).2.Takes a := by
  cases m with
  | memory slots => exact fun _ => rfl
  | files folder =>
    unfold SlotMedium.remove
    dsimp only
    split
    · exact h
    · next hr => exact takes_files_iff.2 ((takes_files_iff.1 h).remove? hr)

/-- A slot that takes texts has none to do with another that is emptied. -/
theorem Takes.get_remove (h : m.Takes a) (ha : m.Apart a b) :
    (m.remove b).2.get a = m.get a := by
  cases m with
  | memory slots =>
    simp only [SlotMedium.remove, SlotMedium.get, Table.get?_erase]
    rw [if_neg ha]
  | files folder =>
    unfold SlotMedium.remove
    dsimp only
    split
    · rfl
    · next hr =>
      have hread := Folder.read_remove?_of_ne hr ha (takes_files_iff.1 h).allowsName
      simp only [SlotMedium.get, hread]

/-- A slot that was emptied without a fault is empty. -/
theorem get_remove (h : (m.remove a).1 = .ok ()) : (m.remove a).2.get a = .ok none := by
  cases m with
  | memory slots =>
    simp only [remove, get, Table.get?_erase, if_true]
  | files folder =>
    unfold remove at h ⊢
    dsimp only at h ⊢
    split at h
    · cases h
    · next g hr => simp only [get, Folder.read_of_remove? hr]

/-- An empty slot stays empty when another is emptied. -/
theorem get_remove_of_none (h : m.get a = .ok none) (b : String) :
    (m.remove b).2.get a = .ok none := by
  cases m with
  | memory slots =>
    simp only [remove, get, Table.get?_erase, Except.ok.injEq] at h ⊢
    split
    · rfl
    · exact h
  | files folder =>
    have hread : folder.read (Text.fileName a) = .absent := by
      unfold get at h
      dsimp only at h
      split at h
      · assumption
      · cases h
      · cases h
    unfold remove
    dsimp only
    split
    · exact h
    · next g hr => simp only [get, Folder.read_remove?_absent hr hread]

theorem apart_set (m : SlotMedium) (a b key text : String) :
    (m.set key text).2.Apart a b ↔ m.Apart a b := by
  cases m <;> exact Iff.rfl

theorem apart_remove (m : SlotMedium) (a b key : String) :
    (m.remove key).2.Apart a b ↔ m.Apart a b := by
  cases m with
  | memory => exact Iff.rfl
  | files folder =>
    unfold remove
    dsimp only
    split <;> exact Iff.rfl

end SlotMedium

/-! ## Slots that may refuse -/

namespace Saves

variable {s : Saves} {a b text text' : String}

@[simp] theorem medium_get (s : Saves) (key : String) : (s.get key).2.medium = s.medium := by
  unfold get
  split <;> rfl

@[simp] theorem refusal_get (s : Saves) (key : String) : (s.get key).2.refusal = s.refusal := by
  unfold get
  split <;> rfl

@[simp] theorem refusal_remove (s : Saves) (key : String) :
    (s.remove key).2.refusal = s.refusal := by
  unfold remove
  split <;> rfl

/-- What was not refused is what the medium says. -/
theorem of_get (h : (s.get a).1 = .ok (some text)) : s.medium.get a = .ok (some text) := by
  unfold get at h
  split at h
  · cases h
  · exact h

/-- Whether texts can be put into a slot, and nothing is refused. -/
structure Willing (s : Saves) (key : String) : Prop where
  refusal : ∀ n call, s.refusal n call = none
  takes : s.medium.Takes key

theorem get_of_refusal (h : ∀ n call, s.refusal n call = none) (key : String) :
    (s.get key).1 = s.medium.get key := by
  rw [get, h]

theorem Willing.medium_set (h : s.Willing a) (text : String) :
    (s.set a text).2.medium = (s.medium.set a text).2 := by
  rw [set, h.refusal]

theorem Willing.set_fst (h : s.Willing a) (text : String) : (s.set a text).1 = .ok () := by
  rw [Saves.set, h.refusal]
  exact h.takes text

theorem Willing.set (h : s.Willing a) (text : String) : (s.set a text).2.Willing a := by
  constructor
  · rw [Saves.set, h.refusal]
    exact h.refusal
  · rw [h.medium_set]
    exact h.takes.set text

theorem Willing.get (h : s.Willing a) (key : String) : (s.get key).2.Willing a where
  refusal := by
    rw [refusal_get]
    exact h.refusal
  takes := by
    rw [medium_get]
    exact h.takes

theorem Willing.medium_remove (h : s.Willing a) (key : String) :
    (s.remove key).2.medium = (s.medium.remove key).2 := by
  rw [remove, h.refusal]

theorem Willing.remove_fst (h : s.Willing a) : (s.remove a).1 = .ok () := by
  rw [Saves.remove, h.refusal]
  exact h.takes.remove_fst

theorem Willing.remove (h : s.Willing a) (key : String) : (s.remove key).2.Willing a := by
  constructor
  · rw [Saves.remove, h.refusal]
    exact h.refusal
  · rw [h.medium_remove]
    exact h.takes.remove key

theorem medium_set (s : Saves) (key text : String) :
    (s.set key text).2.medium = s.medium ∨
      (s.set key text).2.medium = (s.medium.set key text).2 := by
  unfold set
  split
  · exact .inl rfl
  · exact .inr rfl

theorem medium_remove (s : Saves) (key : String) :
    (s.remove key).2.medium = s.medium ∨ (s.remove key).2.medium = (s.medium.remove key).2 := by
  unfold remove
  split
  · exact .inl rfl
  · exact .inr rfl

/-- Slots that say that one was emptied have emptied it. -/
theorem get_remove (h : (s.remove a).1 = .ok ()) :
    (s.remove a).2.medium.get a = .ok none := by
  unfold remove at h ⊢
  split at h
  · cases h
  · exact SlotMedium.get_remove h

theorem get_remove_of_none (h : s.medium.get a = .ok none) (b : String) :
    (s.remove b).2.medium.get a = .ok none := by
  rcases s.medium_remove b with hm | hm
  · rw [hm, h]
  · rw [hm, SlotMedium.get_remove_of_none h]

theorem of_get_set (h : (s.set b text).2.medium.get a = .ok (some text')) :
    s.medium.get a = .ok (some text') ∨ ¬ s.medium.Apart a b ∧ text' = text := by
  rcases s.medium_set b text with hm | hm
  · exact .inl (hm ▸ h)
  · exact SlotMedium.of_get_set (hm ▸ h)

theorem of_get_remove (h : (s.remove b).2.medium.get a = .ok (some text)) :
    s.medium.get a = .ok (some text) := by
  rcases s.medium_remove b with hm | hm
  · exact hm ▸ h
  · exact SlotMedium.of_get_remove (hm ▸ h)

theorem apart_set (s : Saves) (a b key text : String) :
    (s.set key text).2.medium.Apart a b ↔ s.medium.Apart a b := by
  rcases s.medium_set key text with hm | hm
  · rw [hm]
  · rw [hm, SlotMedium.apart_set]

theorem apart_remove (s : Saves) (a b key : String) :
    (s.remove key).2.medium.Apart a b ↔ s.medium.Apart a b := by
  rcases s.medium_remove key with hm | hm
  · rw [hm]
  · rw [hm, SlotMedium.apart_remove]

end Saves

end StoryChat
