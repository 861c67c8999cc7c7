/-
Names stay in their folder.

A script and a slot may be called by any text, and the path to the file of each (`ScriptId.path`,
`slotPath`) is made from that text. Wherever the folder is, such a path leads to the folder and
then to one name in it. The reason is in the characters: what stands before the ending can neither
separate pieces of a path nor be a dot, and the one dot of the ending is not enough to be a name
that leads elsewhere.

The draft of a slot's file (`draftPath`) has the ending replaced by a longer one. It stays in the
folder as well, and no slot has a path like that.
-/
import StoryChat.Script.Shelf
import StoryChat.Proofs.Save.Slots

set_option autoImplicit false

namespace StoryChat

/-! ## Paths that continue others -/

namespace Path

variable {folder name ending : String}

/-- Whether a text is one piece of a path and leads to something of that name. -/
structure IsName (name : String) : Prop where
  noSlash : '/' ∉ name.toList
  nonempty : name ≠ ""
  notHere : name ≠ "."
  notParent : name ≠ ".."

/-- The texts that lead elsewhere have nothing but dots at their ends. -/
theorem IsName.of_getLast? {c : Char} (hslash : '/' ∉ name.toList)
    (hlast : name.toList.getLast? = some c) (hc : c ≠ '.') : IsName name := by
  refine ⟨hslash, ?_, ?_, ?_⟩
  · rintro rfl
    cases hlast
  · rintro rfl
    exact hc (Option.some.inj hlast).symm
  · rintro rfl
    exact hc (Option.some.inj hlast).symm

theorem IsName.ofPiece? (h : IsName name) : Component.ofPiece? name = some (.named name) := by
  unfold Component.ofPiece?
  rw [if_neg (not_or.2 ⟨h.nonempty, h.notHere⟩), if_neg h.notParent]

theorem isAbsolute_of_noSlash (h : '/' ∉ name.toList) : isAbsolute name = false := by
  unfold isAbsolute
  rw [beq_eq_false_iff_ne]
  intro hhead
  exact h (List.mem_of_mem_head? hhead)

theorem pieces_of_noSlash (h : '/' ∉ name.toList) : pieces name = [name] := by
  unfold pieces
  rw [List.splitOn_eq_singleton h, List.map_singleton, String.ofList_toList]

theorem pieces_ne_nil (path : String) : pieces path ≠ [] := by
  unfold pieces
  intro h
  exact List.splitOnP_ne_nil _ _ (List.map_eq_nil_iff.1 h)

theorem pieces_slash (a b : String) : pieces (a ++ "/" ++ b) = pieces a ++ pieces b := by
  have happend : (a ++ "/" ++ b).toList = a.toList ++ '/' :: b.toList := by
    rw [String.toList_append, String.toList_append, List.append_assoc]
    rfl
  unfold pieces
  rw [happend, List.splitOn_append_cons_self, List.map_append]

/-- A path is its pieces with slashes between them. -/
theorem intercalate_pieces (path : String) : "/".intercalate (pieces path) = path := by
  apply String.toList_injective
  have hchars : (pieces path).map String.toList = path.toList.splitOn '/' := by
    unfold pieces
    rw [List.map_map]
    exact List.map_id'' (fun _ => String.toList_ofList) _
  rw [String.toList_intercalate, hchars]
  exact List.intercalate_splitOn '/'

theorem join_of_noSlash (h : '/' ∉ name.toList) :
    join folder name = if isOpen folder then folder ++ name else folder ++ "/" ++ name := by
  unfold join
  rw [if_neg (by simp [isAbsolute_of_noSlash h])]

theorem join_empty (h : '/' ∉ name.toList) : join "" name = name := by
  rw [join_of_noSlash h]
  exact String.empty_append

theorem isAbsolute_join (h : '/' ∉ name.toList) :
    isAbsolute (join folder name) = isAbsolute folder := by
  by_cases hempty : folder = ""
  · subst hempty
    rw [join_empty h, isAbsolute_of_noSlash h]
    rfl
  · obtain ⟨c, cs, hchars⟩ := List.exists_cons_of_ne_nil (l := folder.toList) (by simpa using hempty)
    rw [join_of_noSlash h]
    unfold isAbsolute
    split
    · rw [String.toList_append, hchars]
      rfl
    · rw [String.toList_append, String.toList_append, hchars]
      rfl

/-- The pieces of a folder with room at the end for a name: a last piece that is empty gives way
to the name, and any other one stays before it. -/
theorem exists_pieces_join (folder : String) : ∃ above,
    (pieces folder = above ∧ above ≠ [] ∨ pieces folder = above ++ [""]) ∧
      ∀ name, '/' ∉ name.toList → pieces (join folder name) = above ++ [name] := by
  by_cases hempty : folder = ""
  · subst hempty
    refine ⟨[], .inr rfl, ?_⟩
    intro name hname
    rw [join_empty hname, List.nil_append, pieces_of_noSlash hname]
  · by_cases hlast : folder.toList.getLast? = some '/'
    · -- the slash is the last character, so the last piece is empty
      obtain ⟨cs, hcs⟩ := List.getLast?_eq_some_iff.1 hlast
      have hopen : isOpen folder = true := by simp [isOpen, hlast]
      have hfolder : folder = String.ofList cs ++ "/" := by
        apply String.toList_injective
        rw [hcs, String.toList_append, String.toList_ofList]
        rfl
      refine ⟨pieces (String.ofList cs), .inr ?_, ?_⟩
      · rw [hfolder, ← String.append_empty (s := String.ofList cs ++ "/"), pieces_slash]
        rfl
      · intro name hname
        rw [join_of_noSlash hname, if_pos hopen, hfolder, pieces_slash, pieces_of_noSlash hname]
    · have hopen : isOpen folder = false := by simp [isOpen, hlast, hempty]
      refine ⟨pieces folder, .inl ⟨rfl, pieces_ne_nil folder⟩, ?_⟩
      intro name hname
      rw [join_of_noSlash hname, if_neg (by simp [hopen]), pieces_slash, pieces_of_noSlash hname]

/-- A name in a folder is one step from it. -/
theorem components_join (h : IsName name) :
    components (join folder name) = components folder ++ [.named name] := by
  obtain ⟨above, habove, hpieces⟩ := exists_pieces_join folder
  have hjoin := hpieces name h.noSlash
  have hsteps : (pieces folder).filterMap Component.ofPiece? =
      above.filterMap Component.ofPiece? := by
    rcases habove with ⟨heq, -⟩ | heq
    · rw [heq]
    · rw [heq, List.filterMap_append]
      exact List.append_nil _
  have hstart : start (join folder name) = start folder := by
    have hhead : (pieces (join folder name)).head? = some "." ↔
        (pieces folder).head? = some "." := by
      rw [hjoin]
      cases above with
      | nil =>
        -- the folder has no piece that is not empty, and neither it nor the name is a dot
        rcases habove with ⟨-, hne⟩ | heq
        · exact absurd rfl hne
        · rw [heq]
          simp [h.notHere]
      | cons first rest =>
        rcases habove with ⟨heq, -⟩ | heq <;> rw [heq] <;> rfl
    unfold start
    rw [isAbsolute_join h.noSlash]
    simp only [hhead]
  unfold components
  rw [hstart, hjoin, List.filterMap_append, hsteps, List.append_assoc]
  simp [h.ofPiece?]

/-- Another ending for a name in a folder is another name in the same folder. -/
theorem withEnding_join (h : IsName name) (hending : '/' ∉ (replaceEnding name ending).toList) :
    withEnding (join folder name) ending = join folder (replaceEnding name ending) := by
  obtain ⟨above, -, hpieces⟩ := exists_pieces_join folder
  unfold withEnding
  rw [hpieces name h.noSlash, List.reverse_append, List.reverse_singleton, List.singleton_append,
    List.dropWhile_cons_of_neg (by simp [h.nonempty, h.notHere])]
  dsimp only
  rw [if_neg h.notParent, List.reverse_reverse, ← hpieces _ hending, intercalate_pieces]

end Path

/-! ## Characters of file names -/

namespace Text

/-- Whether a character controls a device and is not shown. -/
def isControl (c : Char) : Bool := c.toNat < 0x20 || (0x7F ≤ c.toNat && c.toNat ≤ 0x9F)

theorem isAlphanumeric_of_isControl {c : Char} (h : isControl c = true) :
    isAlphanumeric c = false := by
  have hlow : ∀ n < 0x80, isControl (Char.ofNat n) = true →
      (Char.ofNat n).isAlphanum = false := by decide
  have hhigh : ∀ r ∈ alphanumericRanges, 0xA0 ≤ r.1 := by decide +kernel
  unfold isAlphanumeric
  by_cases hc : c.toNat < 0x80
  · rw [if_pos hc]
    have hn := hlow c.toNat hc
    rw [Char.ofNat_toNat] at hn
    exact hn h
  · rw [if_neg hc, List.any_eq_false]
    intro r hr
    have hr := hhigh r hr
    simp only [isControl, Bool.or_eq_true, Bool.and_eq_true, decide_eq_true_eq] at h ⊢
    omega

theorem isFileChar_of_isControl {c : Char} (h : isControl c = true) : isFileChar c = false := by
  unfold isFileChar
  rw [isAlphanumeric_of_isControl h, Bool.false_or, Bool.or_eq_false_iff, beq_eq_false_iff_ne,
    beq_eq_false_iff_ne]
  constructor <;> rintro rfl <;> exact absurd h (by decide)

theorem isFileChar_of_mem_text {n : Nat} {c : Char} (h : c ∈ (Decimal.text n).toList) :
    isFileChar c = true := by
  have hdigit : ∀ d : Decimal.Digit, isFileChar d.char = true := by decide +kernel
  rw [Decimal.text, String.toList_ofList, List.mem_map] at h
  obtain ⟨d, -, rfl⟩ := h
  exact hdigit d

/-- Whether a text is safe as the name of a file: no character of it separates pieces of a path
or is not shown, and its only dot is the one of the ending. -/
structure Confined (name : String) : Prop where
  marks : ∀ c ∈ name.toList, c ≠ '/' ∧ c ≠ '\\' ∧ c ≠ ':' ∧ isControl c = false
  dot : ∃ stem, name = stem ++ ".json" ∧ '.' ∉ stem.toList

variable {name stem : String}

theorem ne_of_isFileChar {c d : Char} (hc : isFileChar c = true) (hd : isFileChar d = false) :
    c ≠ d := by
  rintro rfl
  exact Bool.false_ne_true (hd.symm.trans hc)

/-- The characters before the ending decide. -/
theorem Confined.of_stem (h : ∀ c ∈ stem.toList, isFileChar c = true) :
    Confined (stem ++ ".json") where
  marks := by
    obtain ⟨hslash, hback, -, hcolon⟩ := isFileChar_separator
    intro c hc
    rw [String.toList_append, List.mem_append] at hc
    rcases hc with hc | hc
    · have hfile := h c hc
      refine ⟨ne_of_isFileChar hfile hslash, ne_of_isFileChar hfile hback,
        ne_of_isFileChar hfile hcolon, ?_⟩
      rw [← Bool.not_eq_true]
      intro hcontrol
      exact ne_of_isFileChar hfile (isFileChar_of_isControl hcontrol) rfl
    · have hending : c ∈ ['.', 'j', 's', 'o', 'n'] := hc
      simp only [List.mem_cons, List.not_mem_nil, or_false] at hending
      rcases hending with rfl | rfl | rfl | rfl | rfl <;> decide
  dot := ⟨stem, rfl, fun hmem => ne_of_isFileChar (h '.' hmem) isFileChar_separator.2.2.1 rfl⟩

theorem Confined.isName (h : Confined name) : Path.IsName name := by
  refine .of_getLast? (fun hmem => (h.marks _ hmem).1 rfl) (c := 'n') ?_ (by decide)
  obtain ⟨stem, rfl, -⟩ := h.dot
  simp [String.toList_append, List.getLast?_append]

theorem confined_fileName (name : String) : Confined (fileName name) :=
  .of_stem fun _ => isFileChar_of_mem_fileStem

end Text

theorem ScriptId.confined_fileName (id : ScriptId) : Text.Confined id.fileName := by
  cases id with
  | named name => exact Text.confined_fileName name
  | part chapter number =>
    apply Text.Confined.of_stem
    have hchapter : "chapter".toList.all Text.isFileChar = true := by decide +kernel
    have hpart : "_part".toList.all Text.isFileChar = true := by decide +kernel
    intro c hc
    simp only [String.toList_append, List.mem_append] at hc
    rcases hc with ((hc | hc) | hc) | hc
    · exact List.all_eq_true.1 hchapter c hc
    · exact Text.isFileChar_of_mem_text hc
    · exact List.all_eq_true.1 hpart c hc
    · exact Text.isFileChar_of_mem_text hc

/-! ## Drafts -/

/-- The last dot of a slot's file name is the one of its ending, unless nothing stands before
it. -/
theorem Text.replaceEnding_fileName (key : String) :
    Path.replaceEnding (fileName key) "json.tmp" = draftFileName key := by
  have hreverse : (fileName key).toList.reverse.dropWhile (· != '.') =
      '.' :: (fileStem key).toList.reverse := by
    rw [fileName, String.toList_append, List.reverse_append]
    rfl
  unfold Path.replaceEnding Path.stem draftFileName
  rw [hreverse, if_neg (by decide)]
  by_cases hempty : fileStem key = ""
  · rw [if_pos hempty, hempty, String.append_assoc]
    rfl
  · obtain ⟨c, cs, hstem⟩ := List.exists_cons_of_ne_nil (l := (fileStem key).toList.reverse)
      (by simpa using hempty)
    rw [if_neg hempty, hstem]
    change String.ofList (c :: cs).reverse ++ "." ++ "json.tmp" = _
    rw [← hstem, List.reverse_reverse, String.ofList_toList, fileName, String.append_assoc,
      String.append_assoc]
    rfl

theorem Text.isName_draftFileName (key : String) : Path.IsName (draftFileName key) := by
  have hfile := (confined_fileName key).isName.noSlash
  refine .of_getLast? (c := 'p') ?_ ?_ (by decide)
  · unfold draftFileName
    split <;> rw [String.toList_append, List.mem_append, not_or] <;> exact ⟨hfile, by decide⟩
  · unfold draftFileName
    split <;> simp [String.toList_append, List.getLast?_append]

/-- The draft is written beside the file of its slot, under the name that slots know of. -/
theorem draftPath_eq (folder key : String) :
    draftPath folder key = Path.join folder (Text.draftFileName key) := by
  have hdraft := (Text.isName_draftFileName key).noSlash
  unfold draftPath slotPath
  rw [← Text.replaceEnding_fileName] at hdraft ⊢
  exact Path.withEnding_join (Text.confined_fileName key).isName hdraft

/-! ## The folder is not left -/

/-- What it means that a path stays in a folder: it leads there and on to one name, which is safe
and so leads nowhere else. -/
structure Path.StaysIn (folder path name : String) : Prop where
  joined : path = join folder name
  steps : components path = components folder ++ [.named name]
  absolute : isAbsolute path = isAbsolute folder
  confined : Text.Confined name
  notAbsolute : isAbsolute name = false
  notHere : name ≠ "."
  notParent : name ≠ ".."

theorem Text.Confined.staysIn {name : String} (h : Confined name) (folder : String) :
    Path.StaysIn folder (Path.join folder name) name where
  joined := rfl
  steps := Path.components_join h.isName
  absolute := Path.isAbsolute_join h.isName.noSlash
  confined := h
  notAbsolute := Path.isAbsolute_of_noSlash h.isName.noSlash
  notHere := h.isName.notHere
  notParent := h.isName.notParent

/-- Whatever a script or a slot is called, the path to its file (`ScriptId.path`, `slotPath`)
stays in the folder (`Path.StaysIn`). The path to the draft of a slot leads to one name in the
folder as well, and it is the path to no slot, however the two paths are compared. -/
theorem paths_stay_in_folder (folder : String) :
    (∀ id : ScriptId, Path.StaysIn folder (id.path folder) id.fileName) ∧
    (∀ key, Path.StaysIn folder (slotPath folder key) (Text.fileName key)) ∧
    ∀ key, Path.components (draftPath folder key) =
        Path.components folder ++ [.named (Text.draftFileName key)] ∧
      ∀ other, draftPath folder key ≠ slotPath folder other ∧
        Path.components (draftPath folder key) ≠ Path.components (slotPath folder other) := by
  refine ⟨fun id => id.confined_fileName.staysIn folder,
    fun key => (Text.confined_fileName key).staysIn folder, ?_⟩
  intro key
  have hdraft : Path.components (draftPath folder key) =
      Path.components folder ++ [.named (Text.draftFileName key)] := by
    rw [draftPath_eq]
    exact Path.components_join (Text.isName_draftFileName key)
  have hne : ∀ other,
      Path.components (draftPath folder key) ≠ Path.components (slotPath folder other) := by
    intro other heq
    have hslot : Path.components (slotPath folder other) =
        Path.components folder ++ [.named (Text.fileName other)] :=
      ((Text.confined_fileName other).staysIn folder).steps
    rw [hdraft, hslot] at heq
    have hname := List.append_cancel_left heq
    simp only [List.cons.injEq, Path.Component.named.injEq, and_true] at hname
    exact Text.fileName_ne_draftFileName other key hname.symm
  exact ⟨hdraft, fun other => ⟨fun heq => hne other (congrArg Path.components heq), hne other⟩⟩

end StoryChat
