/-
What a stop leaves while a text is put into a slot.

A file is replaced in three steps (`Folder.replace`), and each of them may be the last, since
it fails or since nothing comes after it. A draft may be there in part. As far as slots go
there is only one moment that matters: before the draft is moved nothing was put into the
slot, and from then on all of it is there.

The folder itself is not undone. A name that is too long for a folder is that of no file as
long as there is no folder, and can be neither read nor written once there is one.
-/
import StoryChat.Proofs.Save.Slots

set_option autoImplicit false

namespace StoryChat

/-! ## Folders that differ in a draft -/

namespace Folder

variable {f g : Folder} {name draft other : String} {bytes : ByteArray}

/-- Whether a folder is another one up to its being there and what is in a draft. -/
structure Beside (f : Folder) (draft : String) (g : Folder) : Prop where
  limits : g.limits = f.limits
  made : f.entries.isSome = true → g.entries.isSome = true
  listed {name : String} : name ≠ draft → g.listed? name = f.listed? name
  draft : g.listed? draft = some .folder ↔ f.listed? draft = some .folder

theorem Beside.refl (f : Folder) (draft : String) : f.Beside draft f :=
  ⟨rfl, id, fun _ => rfl, Iff.rfl⟩

theorem limits_create (f : Folder) : f.create.limits = f.limits := by
  unfold create
  split <;> rfl

theorem isSome_entries_create (f : Folder) : f.create.entries.isSome = true := by
  unfold create
  split
  · rfl
  · next he => rw [he]; rfl

theorem Beside.create (f : Folder) (draft : String) : f.Beside draft f.create where
  limits := f.limits_create
  made _ := f.isSome_entries_create
  listed _ := f.listed?_create _
  draft := by rw [listed?_create]

/-- To write a draft changes nothing beside it. -/
theorem Beside.of_write? (h : f.create.write? draft bytes = some g) : f.Beside draft g := by
  unfold write? at h
  cases he : f.create.entries with
  | none =>
    rw [he] at h
    cases h
  | some entries =>
    have hlisted (name : String) : f.listed? name = entries.get? name := by
      rw [← f.listed?_create, listed?, he]
      rfl
    rw [he] at h
    simp only [Option.bind_eq_bind, Option.bind_some] at h
    split at h
    · cases h
    · next hd =>
      cases h
      refine ⟨f.limits_create, fun _ => rfl, fun {name} hne => ?_, ?_⟩
      · rw [hlisted]
        change (entries.insert draft _).get? name = entries.get? name
        rw [Table.get?_insert, if_neg hne]
      · rw [hlisted]
        refine iff_of_false ?_ (not_or.1 hd).2
        change (entries.insert draft _).get? draft ≠ _
        rw [Table.get?_insert, if_pos rfl]
        intro hfolder
        cases hfolder

theorem allows_congr (h : g.limits = f.limits) (name : String) : g.allows name = f.allows name := by
  unfold allows
  rw [h]

/-- A name that is not allowed cannot be read where there is a folder. -/
theorem read_of_not_allows (he : f.entries.isSome = true) (ha : f.allows name = false) :
    f.read name = .refused := by
  obtain ⟨entries, he⟩ := Option.isSome_iff_exists.1 he
  unfold read
  rw [he]
  dsimp only
  rw [ha]
  exact if_pos Bool.false_ne_true

/-- Reading goes by what is there, by the limits, and by whether there is a folder. -/
theorem read_congr (hlimits : g.limits = f.limits) (hlisted : g.listed? name = f.listed? name)
    (hmade : g.entries.isSome = f.entries.isSome) : g.read name = f.read name := by
  have hallows := allows_congr hlimits name
  by_cases ha : f.allows name = true
  · rw [read_of_allows ha, read_of_allows (hallows.trans ha), hlisted]
  rw [Bool.not_eq_true] at ha
  by_cases hf : f.entries.isSome = true
  · rw [read_of_not_allows hf ha, read_of_not_allows (hmade.trans hf) (hallows.trans ha)]
  · have hg : ¬ g.entries.isSome = true := by rwa [hmade]
    rw [Option.not_isSome_iff_eq_none] at hf hg
    unfold read reaches
    rw [hf, hg, hlimits]

/-- A folder that may have been made changes what comes of reading only where a name is not
allowed. -/
theorem read_or_refused (hlimits : g.limits = f.limits) (hlisted : g.listed? name = f.listed? name)
    (hmade : f.entries.isSome = true → g.entries.isSome = true) : g.read name = f.read name ∨
      f.entries = none ∧ f.allows name = false ∧ g.read name = .refused := by
  by_cases hsame : g.entries.isSome = f.entries.isSome
  · exact .inl (read_congr hlimits hlisted hsame)
  have hf : ¬ f.entries.isSome = true := fun hf => hsame ((hmade hf).trans hf.symm)
  have hg : g.entries.isSome = true := by
    rw [Bool.not_eq_true] at hf
    rwa [hf, Bool.not_eq_false] at hsame
  have hnone : f.entries = none := Option.not_isSome_iff_eq_none.1 hf
  have hallows := allows_congr hlimits name
  by_cases ha : f.allows name = true
  · exact .inl (by rw [read_of_allows ha, read_of_allows (hallows.trans ha), hlisted])
  · rw [Bool.not_eq_true] at ha
    exact .inr ⟨hnone, ha, read_of_not_allows hg (hallows.trans ha)⟩

/-! ### Replacing another file -/

/-- Whether a file is replaced is known from its names and from what is there. -/
theorem clear_iff : f.Clear name draft ↔ f.allows name = true ∧ f.allows draft = true ∧
    f.listed? name ≠ some .folder ∧ f.listed? draft ≠ some .folder := by
  rw [← f.listed?_create, ← f.listed?_create draft]
  obtain ⟨entries, he⟩ := Option.isSome_iff_exists.1 f.isSome_entries_create
  have hlisted (name : String) : f.create.listed? name = entries.get? name := by
    rw [listed?, he]
    rfl
  rw [hlisted, hlisted]
  constructor
  · intro h
    exact ⟨h.allowsName, h.allowsDraft, h.files entries he⟩
  · intro h
    refine ⟨h.1, h.2.1, fun entries' he' => ?_⟩
    rw [he] at he'
    cases he'
    exact h.2.2

theorem replace_fst_iff (hne : name ≠ draft) (bytes : ByteArray) :
    (f.replace name draft bytes).1 = true ↔ f.Clear name draft := by
  refine ⟨clear_of_replace hne, fun h => ?_⟩
  obtain ⟨entries, -, hr⟩ := replace_of_clear hne h bytes
  rw [hr]

/-- Drafts that were left are in the way of none that are written. -/
theorem Beside.clear (h : f.Beside draft g) {name' draft' : String} (hne : name' ≠ draft) :
    g.Clear name' draft' ↔ f.Clear name' draft' := by
  have hdraft : g.listed? draft' = some .folder ↔ f.listed? draft' = some .folder := by
    by_cases he : draft' = draft
    · rw [he]
      exact h.draft
    · rw [h.listed he]
  rw [clear_iff, clear_iff, allows_congr h.limits, allows_congr h.limits, h.listed hne, Ne, Ne,
    hdraft]

/-- What is there after a file was replaced, or not. -/
theorem listed?_replace (hname : name ≠ draft) (hother : other ≠ draft) (bytes : ByteArray) :
    (f.replace name draft bytes).2.listed? other =
      if (f.replace name draft bytes).1 = true ∧ other = name then some (.file bytes)
      else f.listed? other := by
  -- where nothing stands in the way both steps are done, otherwise one of them is not
  by_cases hc : f.Clear name draft
  · obtain ⟨entries, he, hr⟩ := replace_of_clear hname hc bytes
    rw [hr]
    change (((entries.insert draft _).erase draft).insert name _).get? other = _
    have hlisted : f.listed? other = entries.get? other := by
      rw [← listed?_create, listed?, he]
      rfl
    rw [Table.get?_insert, hlisted]
    by_cases ho : other = name
    · rw [if_pos ho, if_pos ⟨rfl, ho⟩]
    · rw [if_neg ho, if_neg fun h => ho h.2, Table.get?_erase, if_neg hother, Table.get?_insert,
        if_neg hother]
  · have hfst : ¬ (f.replace name draft bytes).1 = true := fun h => hc (clear_of_replace hname h)
    rw [if_neg fun h => hfst h.1]
    unfold replace at hfst ⊢
    dsimp only at hfst ⊢
    cases hw : f.create.write? draft bytes with
    | none => exact f.listed?_create other
    | some drafted =>
      rw [hw] at hfst
      dsimp only at hfst ⊢
      cases hm : drafted.move? draft name with
      | none => exact (Beside.of_write? hw).listed hother
      | some moved =>
        rw [hm] at hfst
        exact absurd rfl hfst

theorem limits_replace (f : Folder) (name draft : String) (bytes : ByteArray) :
    (f.replace name draft bytes).2.limits = f.limits := by
  unfold replace
  dsimp only
  split
  · exact f.limits_create
  · next drafted hw =>
    have hdrafted := (Beside.of_write? hw).limits
    split
    · exact hdrafted
    · next hm =>
      obtain ⟨-, _, _, -, -, rfl⟩ := of_move? hm
      exact hdrafted

theorem isSome_entries_replace (f : Folder) (name draft : String) (bytes : ByteArray) :
    (f.replace name draft bytes).2.entries.isSome = true := by
  unfold replace
  dsimp only
  split
  · exact f.isSome_entries_create
  · next drafted hw =>
    split
    · obtain ⟨_, -, rfl⟩ := of_write? hw
      rfl
    · next hm =>
      obtain ⟨-, _, _, -, -, rfl⟩ := of_move? hm
      rfl

/-- A file is replaced as if no draft had been left. -/
theorem Beside.replace (h : f.Beside draft g) {name' draft' : String} (hne : name' ≠ draft)
    (hne' : name' ≠ draft') (bytes : ByteArray) :
    (g.replace name' draft' bytes).1 = (f.replace name' draft' bytes).1 ∧
      ∀ other, other ≠ draft → other ≠ draft' →
        (g.replace name' draft' bytes).2.read other = (f.replace name' draft' bytes).2.read other := by
  have hfst : (g.replace name' draft' bytes).1 = (f.replace name' draft' bytes).1 := by
    rw [Bool.eq_iff_iff, replace_fst_iff hne', replace_fst_iff hne', h.clear hne]
  refine ⟨hfst, fun other ho ho' => read_congr ?_ ?_ ?_⟩
  · rw [limits_replace, limits_replace, h.limits]
  · rw [listed?_replace hne' ho', listed?_replace hne' ho', hfst, h.listed ho]
  · rw [isSome_entries_replace, isSome_entries_replace]

/-! ## Stops -/

/-- The folders that a stop may leave while a file is replaced, each with whether the file was
replaced by then. A step that fails stops there as well. -/
inductive Stopped (f : Folder) (name draft : String) (bytes : ByteArray) : Bool → Folder → Prop
  | untouched : f.Stopped name draft bytes false f
  | made : f.Stopped name draft bytes false f.create
  | drafting {g : Folder} (n : Nat) (drafted : f.create.write? draft (bytes.extract 0 n) = some g) :
    f.Stopped name draft bytes false g
  | moved {g h : Folder} (drafted : f.create.write? draft bytes = some g)
    (moved : g.move? draft name = some h) : f.Stopped name draft bytes true h

/-- What is left when no step is the last before its time is one of these folders. -/
theorem stopped_replace (f : Folder) (name draft : String) (bytes : ByteArray) :
    f.Stopped name draft bytes (f.replace name draft bytes).1 (f.replace name draft bytes).2 := by
  unfold replace
  dsimp only
  cases hw : f.create.write? draft bytes with
  | none => exact .made
  | some drafted =>
    dsimp only
    cases hm : drafted.move? draft name with
    | none =>
      refine .drafting bytes.size ?_
      rw [ByteArray.extract_zero_size, hw]
    | some moved => exact .moved hw hm

/-- As long as the file is not replaced, only the folder and the draft may be new. -/
theorem Stopped.beside (h : f.Stopped name draft bytes false g) : f.Beside draft g := by
  cases h with
  | untouched => exact .refl f draft
  | made => exact .create f draft
  | drafting n drafted => exact .of_write? drafted

/-- Once the file is replaced, nothing is left to be done. -/
theorem Stopped.eq_replace (h : f.Stopped name draft bytes true g) :
    f.replace name draft bytes = (true, g) := by
  cases h with
  | moved drafted moved =>
    unfold replace
    dsimp only
    rw [drafted]
    dsimp only
    rw [moved]

end Folder

/-! ## Slots -/

namespace SlotMedium

variable {f g : Folder} {key value : String}

/-- Whether a slot is found in one folder as in another, or there was no folder and the name of
its file is too long for one. -/
def Kept (f g : Folder) (key : String) : Prop :=
  (files g).get key = (files f).get key ∨
    f.entries = none ∧ f.allows (Text.fileName key) = false ∧ (files g).get key = .error .io

theorem get_files_congr (h : g.read (Text.fileName key) = f.read (Text.fileName key)) :
    (files g).get key = (files f).get key := by
  unfold get
  dsimp only
  rw [h]

theorem Kept.of_read (h : g.read (Text.fileName key) = f.read (Text.fileName key) ∨
    f.entries = none ∧ f.allows (Text.fileName key) = false ∧
      g.read (Text.fileName key) = .refused) : Kept f g key := by
  rcases h with hr | ⟨he, ha, hr⟩
  · exact .inl (get_files_congr hr)
  · refine .inr ⟨he, ha, ?_⟩
    unfold get
    dsimp only
    rw [hr]

/-- What a draft that was left makes of a slot. -/
theorem Kept.of_beside {draft : String} (h : f.Beside (Text.draftFileName draft) g)
    (key : String) : Kept f g key :=
  .of_read (Folder.read_or_refused h.limits (h.listed (Text.fileName_ne_draftFileName key draft))
    h.made)

/-- Another slot is as it was before a slot was filled, whether that went well or not. -/
theorem Kept.of_replace {other : String} (hne : Text.fileName other ≠ Text.fileName key)
    (bytes : ByteArray) :
    Kept f (f.replace (Text.fileName key) (Text.draftFileName key) bytes).2 other := by
  refine .of_read (Folder.read_or_refused (f.limits_replace _ _ _) ?_
    fun _ => f.isSome_entries_replace _ _ _)
  rw [Folder.listed?_replace (Text.fileName_ne_draftFileName key key)
    (Text.fileName_ne_draftFileName other key), if_neg fun h => hne h.2]

/-- A slot is filled as if no draft had been left. -/
theorem set_of_beside {draft : String} (h : f.Beside (Text.draftFileName draft) g)
    (key value : String) : ((files g).set key value).1 = ((files f).set key value).1 ∧
      ∀ other, ((files g).set key value).2.get other = ((files f).set key value).2.get other := by
  obtain ⟨hdone, hread⟩ := h.replace (Text.fileName_ne_draftFileName key draft)
    (Text.fileName_ne_draftFileName key key) value.toUTF8
  refine ⟨?_, fun other => get_files_congr (hread _ (Text.fileName_ne_draftFileName other draft)
    (Text.fileName_ne_draftFileName other key))⟩
  unfold set
  dsimp only
  rw [hdone]

end SlotMedium

/-- A key of letters is kept as it is. -/
theorem Text.fileName_letters (n : Nat) : Text.fileName (String.ofList (List.replicate n 'k')) =
    String.ofList (List.replicate n 'k') ++ ".json" := by
  have hletter : Text.isFileChar 'k' = true := by decide +kernel
  rw [Text.fileName, Text.fileStem, String.toList_ofList, List.map_replicate, if_pos hletter]

namespace Folder.Stopped

open SlotMedium

variable {f g : Folder} {key value : String} {moved : Bool}

/-- Wherever a text that is put into a slot stops (`Folder.Stopped`), all of it is in the slot
or nothing of it is, in which case the slot is as it was. The other slots are as they were,
and texts are put into slots as if this had been done or as if it had not been begun. -/
theorem all_or_nothing (h : f.Stopped (Text.fileName key) (Text.draftFileName key) value.toUTF8
    moved g) :
    (if moved then (files g).get key = .ok (some value) else Kept f g key) ∧
    (∀ other, Text.fileName other ≠ Text.fileName key → Kept f g other) ∧
    ∀ key' value',
      let whole := if moved then ((files f).set key value).2 else files f
      ((files g).set key' value').1 = (whole.set key' value').1 ∧
      (((files g).set key' value').1 = .ok () →
        ((files g).set key' value').2.get key' = .ok (some value')) ∧
      ∀ other, ((files g).set key' value').2.get other = (whole.set key' value').2.get other := by
  cases moved with
  | false =>
    -- unless the draft was moved, nothing changed but the draft
    have hbeside := h.beside
    refine ⟨Kept.of_beside hbeside key, fun other _ => Kept.of_beside hbeside other,
      fun key' value' => ?_⟩
    obtain ⟨hdone, hget⟩ := set_of_beside hbeside key' value'
    exact ⟨hdone, get_set, hget⟩
  | true =>
    have hr := h.eq_replace
    have hset : (files f).set key value = (.ok (), files g) := by
      unfold SlotMedium.set
      dsimp only
      rw [hr]
      rfl
    have hslot : ((files f).set key value).2.get key = .ok (some value) := get_set (by rw [hset])
    refine ⟨?_, fun other hne => ?_, fun key' value' => ?_⟩
    · rwa [hset] at hslot
    · have hkept := Kept.of_replace (f := f) hne value.toUTF8
      rwa [hr] at hkept
    · rw [if_pos rfl, hset]
      exact ⟨rfl, get_set, fun _ => rfl⟩

/-- A stop after one byte of the draft. -/
theorem all_or_nothing_torn :
    let f : Folder := ⟨some (Table.empty.insert "slot.json" (.file "old".toUTF8)),
      some (.under "saves")⟩
    let torn : Folder := ⟨some ((Table.empty.insert "slot.json" (.file "old".toUTF8)).insert
      "slot.json.tmp" (.file "n".toUTF8)), some (.under "saves")⟩
    f.Stopped (Text.fileName "slot") (Text.draftFileName "slot") "new".toUTF8 false torn ∧
      (files torn).get "slot" = .ok (some "old") := by
  intro f torn
  have hstop : f.Stopped (Text.fileName "slot") (Text.draftFileName "slot") "new".toUTF8 false
      torn := .drafting 1 (by decide +kernel)
  refine ⟨hstop, ?_⟩
  obtain hsame | ⟨hnone, -⟩ := (all_or_nothing hstop).1
  · exact hsame.trans (get_files_iff.2 (by decide +kernel))
  · cases hnone

/-- A slot whose file has too long a name holds nothing as long as there is no folder. To put a
text into it makes the folder and fails, and the slot cannot be read from then on. -/
theorem not_as_before_of_long_name : ¬ ∀ (f g : Folder) (key value : String),
    f.Stopped (Text.fileName key) (Text.draftFileName key) value.toUTF8 false g →
      (files g).get key = (files f).get key := by
  intro h
  obtain ⟨key, hkey⟩ : ∃ key, Text.fileName key =
      String.ofList (List.replicate 300 'k') ++ ".json" := ⟨_, Text.fileName_letters 300⟩
  let f : Folder := ⟨none, some (.under "saves")⟩
  have hbefore : f.read (Text.fileName key) = .absent := by
    rw [hkey]
    decide +kernel
  have hafter : f.create.read (Text.fileName key) = .refused := by
    rw [hkey]
    decide +kernel
  have hsame := h f f.create key "x" .made
  unfold SlotMedium.get at hsame
  dsimp only at hsame
  rw [hbefore, hafter] at hsame
  cases hsame

end Folder.Stopped

end StoryChat
