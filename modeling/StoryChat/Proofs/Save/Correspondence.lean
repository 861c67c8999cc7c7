/-
Files in place of memory.

Slots in a folder where nothing stands in the way are like slots in memory, but for their keys:
a folder goes by the names of the files (`Text.fileName`), and one name may do for many keys.
So files answer what memory answers to the same calls on the names (`Mirrors`). Whoever uses no
two keys with one name cannot tell the files from memory.
-/
import StoryChat.Proofs.Save.Agreement

set_option autoImplicit false

namespace StoryChat

namespace SlotCall

/-- A call on what a key is called instead. -/
def under (rename : String → String) : SlotCall → SlotCall
  | .get key => .get (rename key)
  | .set key text => .set (rename key) text
  | .remove key => .remove (rename key)

/-- What is in a slot after a call on it. -/
def leaves (held : Option String) : SlotCall → Option String
  | .get _ => held
  | .set _ text => some text
  | .remove _ => none

/-- What calls on a slot that was empty have left there: what was put there last, unless the
slot was emptied later. -/
def left (calls : List SlotCall) : Option String := calls.foldl leaves none

@[simp] theorem key_under (rename : String → String) (call : SlotCall) :
    (call.under rename).key = rename call.key := by
  cases call <;> rfl

@[simp] theorem leaves_under (rename : String → String) (held : Option String)
    (call : SlotCall) : (call.under rename).leaves held = call.leaves held := by
  cases call <;> rfl

/-- The slots in memory after a call. -/
def apply (slots : Table String) : SlotCall → Table String
  | .get _ => slots
  | .set key text => slots.insert key text
  | .remove key => slots.erase key

/-- A call changes what is under its own key and nothing else. -/
theorem get?_apply (call : SlotCall) (slots : Table String) (key : String) :
    (call.apply slots).get? key =
      if call.key = key then call.leaves (slots.get? key) else slots.get? key := by
  cases call with
  | get own => exact (ite_self _).symm
  | set own text => simp only [apply, Table.get?_insert, SlotCall.key, leaves, eq_comm]
  | remove own => simp only [apply, Table.get?_erase, SlotCall.key, leaves, eq_comm]

end SlotCall

namespace SlotMedium

variable {folder : Folder} {slots names : Table String}

/-- What a medium says to calls, one after the other. -/
def answers (m : SlotMedium) : List SlotCall → List (Except SaveFault (Option String))
  | [] => []
  | call :: calls => (m.answer call).1 :: (m.answer call).2.answers calls

/-! ## Memory -/

/-- What is said to a call where nothing fails. -/
def reply (held : Option String) : SlotCall → Except SaveFault (Option String)
  | .get _ => .ok held
  | .set _ _ | .remove _ => .ok none

theorem answer_memory (slots : Table String) (call : SlotCall) : (memory slots).answer call =
    (reply (slots.get? call.key) call, memory (call.apply slots)) := by
  cases call <;> rfl

/-- What is read from memory is what the calls on that key have left. -/
theorem answers_memory_get {calls : List SlotCall} {i : Nat} {key : String}
    (h : calls[i]? = some (.get key)) : ((memory slots).answers calls)[i]? =
      some (.ok (((calls.take i).filter (·.key = key)).foldl SlotCall.leaves
        (slots.get? key))) := by
  induction calls generalizing slots i with
  | nil => cases h
  | cons call calls ih =>
    rw [answers, answer_memory]
    cases i with
    | zero =>
      cases h
      rfl
    | succ i =>
      have hrest := @ih (call.apply slots) i h
      rw [SlotCall.get?_apply] at hrest
      rw [List.getElem?_cons_succ, hrest, List.take_succ_cons, List.filter_cons]
      by_cases hk : call.key = key
      · simp only [hk, decide_true, if_true, List.foldl_cons]
      · simp only [hk, decide_false, if_false, Bool.false_eq_true]

/-- Memory under other names answers the same, as long as names differ where keys do. -/
theorem answers_memory_under (rename : String → String) {keys : List String}
    (hinj : ∀ a ∈ keys, ∀ b ∈ keys, rename a = rename b → a = b)
    (hslots : ∀ key ∈ keys, names.get? (rename key) = slots.get? key) {calls : List SlotCall}
    (hkeys : ∀ call ∈ calls, call.key ∈ keys) :
    (memory names).answers (calls.map (·.under rename)) = (memory slots).answers calls := by
  induction calls generalizing names slots with
  | nil => rfl
  | cons call calls ih =>
    obtain ⟨hkey, hkeys⟩ := List.forall_mem_cons.1 hkeys
    rw [List.map_cons, answers, answers, answer_memory, answer_memory, SlotCall.key_under,
      hslots _ hkey]
    have hreply : reply (slots.get? call.key) (call.under rename) =
        reply (slots.get? call.key) call := by
      cases call <;> rfl
    have hnext : ∀ key ∈ keys, ((call.under rename).apply names).get? (rename key) =
        (call.apply slots).get? key := by
      intro key hk
      have hsame : rename call.key = rename key ↔ call.key = key :=
        ⟨hinj _ hkey _ hk, congrArg rename⟩
      rw [SlotCall.get?_apply, SlotCall.get?_apply, SlotCall.key_under, SlotCall.leaves_under,
        hslots key hk]
      simp only [hsame]
    rw [hreply, ih hnext hkeys]

/-! ## Files -/

/-- Whether every key is a slot that takes texts, and each slot holds what is in memory under
the name of its file. -/
structure Mirrors (folder : Folder) (names : Table String) : Prop where
  takes : ∀ key, (files folder).Takes key
  get : ∀ key, (files folder).get key = .ok (names.get? (Text.fileName key))

/-- A slot is known by the name of its file. -/
theorem get_files_of_fileName_eq (folder : Folder) {a b : String}
    (h : Text.fileName a = Text.fileName b) : (files folder).get a = (files folder).get b := by
  unfold get
  dsimp only
  rw [h]

/-- The step lemma: files answer what memory answers on their names, and mirror it behind the
call. -/
theorem Mirrors.answer (h : Mirrors folder names) (call : SlotCall) :
    ∃ folder', (files folder).answer call =
        (reply (names.get? (Text.fileName call.key)) call, files folder') ∧
      Mirrors folder' ((call.under Text.fileName).apply names) := by
  have hget (key : String) := SlotCall.get?_apply (call.under Text.fileName) names
    (Text.fileName key)
  simp only [SlotCall.key_under, SlotCall.leaves_under] at hget
  cases call with
  | get key => exact ⟨folder, Prod.ext (h.get key) rfl, h⟩
  -- behind a change the slots of that name hold what was put there, all others what they held
  | set key text =>
    obtain ⟨folder', hset⟩ : ∃ folder', (files folder).set key text = (.ok (), files folder') :=
      ⟨_, Prod.ext (h.takes key text) rfl⟩
    have hafter : files folder' = ((files folder).set key text).2 := by rw [hset]
    refine ⟨folder', ?_, fun other => ?_, fun other => ?_⟩
    · change (((files folder).set key text).1.map _, ((files folder).set key text).2) = _
      rw [hset]
      rfl
    · rw [hafter]
      exact (h.takes other).set_of_takes (h.takes key) text
    · rw [hget, SlotCall.leaves]
      split
      · next he =>
        rw [← get_files_of_fileName_eq folder' he, hafter]
        exact get_set (h.takes key text)
      · next hne =>
        rw [hafter, (h.takes other).get_set (h.takes key) (Ne.symm hne), h.get]
  | remove key =>
    obtain ⟨folder', hremove⟩ : ∃ folder', (files folder).remove key = (.ok (), files folder') := by
      obtain ⟨folder', hr⟩ := (takes_files_iff.1 (h.takes key)).exists_remove?
      exact ⟨folder', by unfold remove; dsimp only; rw [hr]⟩
    have hafter : files folder' = ((files folder).remove key).2 := by rw [hremove]
    refine ⟨folder', ?_, fun other => ?_, fun other => ?_⟩
    · change (((files folder).remove key).1.map _, ((files folder).remove key).2) = _
      rw [hremove]
      rfl
    · rw [hafter]
      exact (h.takes other).remove key
    · rw [hget, SlotCall.leaves]
      split
      · next he =>
        rw [← get_files_of_fileName_eq folder' he, hafter]
        exact get_remove (h.takes key).remove_fst
      · next hne => rw [hafter, (h.takes other).get_remove (b := key) (Ne.symm hne), h.get]

/-- The run lemma. -/
theorem Mirrors.answers (h : Mirrors folder names) (calls : List SlotCall) :
    (files folder).answers calls =
      (memory names).answers (calls.map (·.under Text.fileName)) := by
  induction calls generalizing folder names with
  | nil => rfl
  | cons call calls ih =>
    obtain ⟨folder', hanswer, hmirrors⟩ := h.answer call
    rw [List.map_cons, SlotMedium.answers, SlotMedium.answers, hanswer, answer_memory,
      SlotCall.key_under]
    dsimp only
    rw [ih hmirrors]
    cases call <;> rfl

/-- A folder that is not there, where every name is allowed, is like memory that is empty. -/
theorem mirrors_unmade : Mirrors ⟨none, none⟩ .empty where
  takes key := takes_files_iff.2 ⟨rfl, rfl, fun entries he => by cases he; exact ⟨nofun, nofun⟩⟩
  get _ := rfl

/-- Files (`SlotMedium.files`) in a folder that is not there at first answer what memory
answers to calls on the names of the files. So a slot holds what the calls on that file have
left. If no two keys that are called have one name, files answer what memory answers to the
calls as they are, and a slot holds what the calls on that key have left. -/
theorem answers_files (calls : List SlotCall) :
    (files ⟨none, none⟩).answers calls =
      (memory .empty).answers (calls.map (·.under Text.fileName)) ∧
    (∀ (i : Nat) (key : String), calls[i]? = some (.get key) →
      ((files ⟨none, none⟩).answers calls)[i]? = some (.ok (SlotCall.left ((calls.take i).filter
        fun call => Text.fileName call.key = Text.fileName key)))) ∧
    ((∀ a ∈ calls, ∀ b ∈ calls, Text.fileName a.key = Text.fileName b.key → a.key = b.key) →
      (files ⟨none, none⟩).answers calls = (memory .empty).answers calls ∧
      ∀ (i : Nat) (key : String), calls[i]? = some (.get key) →
        ((files ⟨none, none⟩).answers calls)[i]? =
          some (.ok (SlotCall.left ((calls.take i).filter (·.key = key))))) := by
  have hnames := mirrors_unmade.answers calls
  refine ⟨hnames, fun i key hget => ?_, fun hapart => ?_⟩
  · have hunder : (calls.map (·.under Text.fileName))[i]? = some (.get (Text.fileName key)) := by
      rw [List.getElem?_map, hget]
      rfl
    rw [hnames, answers_memory_get hunder, ← List.map_take, List.filter_map, List.foldl_map]
    simp only [SlotCall.leaves_under, SlotCall.left, Function.comp_def, SlotCall.key_under,
      Table.get?_empty]
  · have hkeys : ∀ call ∈ calls, call.key ∈ calls.map SlotCall.key :=
      fun call hc => List.mem_map_of_mem hc
    have hempty : ∀ key ∈ calls.map SlotCall.key,
        (Table.empty : Table String).get? (Text.fileName key) = Table.empty.get? key :=
      fun _ _ => rfl
    -- where no two keys share a name, the names are as good as the keys
    have hsame := answers_memory_under Text.fileName (by simpa only [List.forall_mem_map] using hapart)
      hempty hkeys
    rw [hnames, hsame]
    refine ⟨rfl, fun i key hget => ?_⟩
    rw [answers_memory_get hget]
    rfl

/-- Two slots of their own, one of which is emptied. -/
theorem answers_files_apart :
    let calls : List SlotCall := [.set "a" "x", .set "b" "y", .remove "a", .get "a", .get "b"]
    (files ⟨none, none⟩).answers calls = (memory .empty).answers calls ∧
      ((files ⟨none, none⟩).answers calls)[4]? = some (.ok (some "y")) := by
  intro calls
  have hnames : Text.fileName "a" ≠ Text.fileName "b" := by decide +kernel
  have hapart : ∀ a ∈ calls, ∀ b ∈ calls, Text.fileName a.key = Text.fileName b.key →
      a.key = b.key := by
    simp only [calls, List.forall_mem_cons, List.not_mem_nil, SlotCall.key, hnames, hnames.symm,
      implies_true, false_implies, and_self]
  obtain ⟨hsame, hget⟩ := (answers_files calls).2.2 hapart
  exact ⟨hsame, hget 4 "b" rfl⟩

/-- Two keys whose files are called the same are one slot. -/
theorem not_answers_of_shared_name : ¬ ∀ calls : List SlotCall,
    (files ⟨none, none⟩).answers calls = (memory .empty).answers calls := by
  intro h
  let calls : List SlotCall := [.set "a b" "Ava", .get "a_b"]
  have hnames : calls.map (·.under Text.fileName) = [.set "a_b.json" "Ava", .get "a_b.json"] := by
    decide +kernel
  have hfiles := mirrors_unmade.answers calls
  rw [hnames, h calls] at hfiles
  cases hfiles

end SlotMedium

end StoryChat
