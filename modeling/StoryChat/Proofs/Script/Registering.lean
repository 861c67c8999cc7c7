/-
What a registry answers.

Texts and documents are registered in any order, and each kind is kept on a `Rack` of its own.
Whoever asks for a script has the document if there is one, so it must not happen that a document
is still there when a text has been registered after it. It does not, because whatever is put on
one rack is taken off the other (`Apart`). So the last registration for a request is the one that
counts, and no request has both.

A text is read when it is asked for (`Registered.load`), and comes to what a document would have
come to that was read from it beforehand.
-/
import StoryChat.Script.Shelf
import Mathlib.Data.List.Induction

set_option autoImplicit false

namespace StoryChat

/-! ## Registrations -/

/-- What is registered, and how. -/
inductive Registration where
  | withText (id : ScriptId) (s : String)
  | withDocument (id : ScriptId) (d : Document)
  | insert (id : ScriptId) (d : Document)

namespace Registration

/-- The request that a registration is for. -/
def id : Registration → ScriptId
  | .withText id _ | .withDocument id _ | .insert id _ => id

/-- What is registered. -/
def script : Registration → Registered
  | .withText _ s => .text s
  | .withDocument _ d | .insert _ d => .document d

/-- The registry after one more registration. -/
def enter (r : Registry) : Registration → Registry
  | .withText id s => r.withText id s
  | .withDocument id d => r.withDocument id d
  | .insert id d => r.insert id d

/-- The last of some registrations that is for a request. -/
def last? (rs : List Registration) (id : ScriptId) : Option Registered :=
  (rs.filter (·.id = id)).getLast?.map script

theorem last?_snoc (rs : List Registration) (x : Registration) (id : ScriptId) :
    last? (rs ++ [x]) id = if x.id = id then some x.script else last? rs id := by
  unfold last?
  rw [List.filter_append]
  by_cases hx : x.id = id
  · rw [List.filter_cons_of_pos (by simpa using hx), if_pos hx, List.filter_nil,
      List.getLast?_concat, Option.map_some]
  · rw [List.filter_cons_of_neg (by simpa using hx), if_neg hx, List.filter_nil, List.append_nil]

end Registration

namespace Registry

variable {r : Registry} {id : ScriptId} {s : String} {d : Document}

/-- The registry that registrations lead to, one after the other. -/
def ofRegistrations (rs : List Registration) : Registry := rs.foldl Registration.enter .empty

theorem ofRegistrations_snoc (rs : List Registration) (x : Registration) :
    ofRegistrations (rs ++ [x]) = x.enter (ofRegistrations rs) := by
  rw [ofRegistrations, List.foldl_append]
  rfl

/-! ## Two racks -/

/-- Whether no request has a document and a text. -/
def Apart (r : Registry) : Prop :=
  ∀ id, r.documents.find? id = none ∨ r.texts.find? id = none

theorem apart_empty : empty.Apart := fun _ => .inl rfl

/-- The step lemma: what is put on one rack is taken off the other. -/
theorem Apart.enter (h : r.Apart) (x : Registration) : (x.enter r).Apart := by
  intro key
  have hkey := h key
  cases x with
  | withText id s =>
    change (r.documents.drop id).find? key = none ∨ (r.texts.put id s).find? key = none
    rw [Rack.find?_drop, Rack.find?_put]
    by_cases hk : key = id
    · left
      rw [if_pos hk]
    · rwa [if_neg hk, if_neg hk]
  | withDocument id d | insert id d =>
    change (r.documents.put id d).find? key = none ∨ (r.texts.drop id).find? key = none
    rw [Rack.find?_put, Rack.find?_drop]
    by_cases hk : key = id
    · right
      rw [if_pos hk]
    · rwa [if_neg hk, if_neg hk]

/-- The run lemma. -/
theorem apart_ofRegistrations (rs : List Registration) : (ofRegistrations rs).Apart := by
  induction rs using List.reverseRecOn with
  | nil => exact apart_empty
  | append_singleton rs x ih =>
    rw [ofRegistrations_snoc]
    exact ih.enter x

/-- As no request has both, it does not matter which of the racks is looked at first. -/
theorem Apart.find?_eq (h : r.Apart) (id : ScriptId) : r.find? id =
    ((r.texts.find? id).map Registered.text).or ((r.documents.find? id).map .document) := by
  unfold find?
  rcases h id with hd | ht
  · rw [hd, Option.map_none, Option.or_none]
  · rw [ht, Option.map_none, Option.none_or]
    cases r.documents.find? id <;> rfl

/-! ## The last one counts -/

/-- The step lemma: a registration is found for its request, and changes nothing for others. -/
theorem find?_enter (h : r.Apart) (x : Registration) (id : ScriptId) :
    (x.enter r).find? id = if x.id = id then some x.script else r.find? id := by
  -- which rack has the request is known on both sides, so the order of the look-ups is not needed
  rw [(h.enter x).find?_eq, h.find?_eq]
  cases x with
  | withText key s =>
    change (((r.texts.put key s).find? id).map _).or (((r.documents.drop key).find? id).map _) =
      if key = id then some (Registered.text s) else _
    rw [Rack.find?_put, Rack.find?_drop]
    by_cases hk : id = key
    · rw [if_pos hk, if_pos hk, if_pos hk.symm]
      rfl
    · rw [if_neg hk, if_neg hk, if_neg (Ne.symm hk)]
  | withDocument key d | insert key d =>
    change (((r.texts.drop key).find? id).map _).or (((r.documents.put key d).find? id).map _) =
      if key = id then some (Registered.document d) else _
    rw [Rack.find?_put, Rack.find?_drop]
    by_cases hk : id = key
    · rw [if_pos hk, if_pos hk, if_pos hk.symm]
      rfl
    · rw [if_neg hk, if_neg hk, if_neg (Ne.symm hk)]

/-- The run lemma. -/
theorem find?_ofRegistrations (rs : List Registration) (id : ScriptId) :
    (ofRegistrations rs).find? id = Registration.last? rs id := by
  induction rs using List.reverseRecOn with
  | nil => rfl
  | append_singleton rs x ih =>
    rw [ofRegistrations_snoc, find?_enter (apart_ofRegistrations rs), ih,
      Registration.last?_snoc]

/-! ## What is loaded -/

theorem shelf_eq_of_find?_none (h : r.find? id = none) : r.shelf id = .error (.notFound id) := by
  unfold shelf
  rw [h]

theorem shelf_eq_of_find?_some {script : Registered} (h : r.find? id = some script) :
    r.shelf id = script.load id := by
  unfold shelf
  rw [h]

/-- The step lemma for what is loaded. -/
theorem shelf_enter (h : r.Apart) (x : Registration) (id : ScriptId) :
    (x.enter r).shelf id = if x.id = id then x.script.load id else r.shelf id := by
  have hfind := find?_enter h x id
  by_cases hx : x.id = id
  · rw [if_pos hx] at hfind ⊢
    exact shelf_eq_of_find?_some hfind
  · rw [if_neg hx] at hfind ⊢
    unfold shelf
    rw [hfind]

/-- Registries with the same scripts have the same scripts after the same registrations. -/
theorem shelf_foldl_congr {r' : Registry} (h : r.Apart) (h' : r'.Apart)
    (hshelf : r.shelf = r'.shelf) (xs : List Registration) :
    (xs.foldl Registration.enter r).shelf = (xs.foldl Registration.enter r').shelf := by
  induction xs generalizing r r' with
  | nil => exact hshelf
  | cons x xs ih =>
    apply ih (h.enter x) (h'.enter x)
    funext id
    rw [shelf_enter h, shelf_enter h', hshelf]

/-- It does not matter which of two registrations is made, whenever it is made, if they are for
the same request and come to the same script. -/
theorem shelf_replace {x y : Registration} (hid : x.id = y.id)
    (hload : x.script.load x.id = y.script.load x.id) (before after : List Registration) :
    (ofRegistrations (before ++ x :: after)).shelf =
      (ofRegistrations (before ++ y :: after)).shelf := by
  have hapart := apart_ofRegistrations before
  unfold ofRegistrations at hapart ⊢
  -- both come to the same registry before, and to the same scripts with `x` and with `y`
  rw [List.foldl_append, List.foldl_append]
  apply shelf_foldl_congr (hapart.enter x) (hapart.enter y)
  funext id
  rw [shelf_enter hapart, shelf_enter hapart, ← hid]
  by_cases hx : x.id = id
  · rw [if_pos hx, if_pos hx, ← hx, hload]
  · rw [if_neg hx, if_neg hx]

theorem load_text_of_parse {s : String} {d : Document} (h : Document.parse? s = some d) :
    Registered.load id (.text s) = .ok d := by
  change Document.load id s = _
  unfold Document.load
  rw [h]

theorem load_text_of_parse_none {s : String} (h : Document.parse? s = none) :
    Registered.load id (.text s) = .error (.malformed id) := by
  change Document.load id s = _
  unfold Document.load
  rw [h]

/-- A request is answered (`Registry.shelf`) from the last registration for it and from
nothing else, with the document, with what the text comes to, or with the fault of a text that
is none. Other requests do not count, no request has a document and a text, and a text may be
registered as what it reads as. -/
theorem answers_last_registered (rs : List Registration) (id : ScriptId) :
    (Registration.last? rs id = none → (ofRegistrations rs).shelf id = .error (.notFound id)) ∧
    (∀ d, Registration.last? rs id = some (.document d) →
      (ofRegistrations rs).shelf id = .ok d) ∧
    (∀ s, Registration.last? rs id = some (.text s) →
      (∀ d, Document.parse? s = some d → (ofRegistrations rs).shelf id = .ok d) ∧
      (Document.parse? s = none → (ofRegistrations rs).shelf id = .error (.malformed id))) ∧
    (∀ rs' : List Registration, rs'.filter (·.id = id) = rs.filter (·.id = id) →
      (ofRegistrations rs').shelf id = (ofRegistrations rs).shelf id) ∧
    ((ofRegistrations rs).documents.find? id = none ∨
      (ofRegistrations rs).texts.find? id = none) ∧
    ∀ before s after d, rs = before ++ .withText id s :: after → Document.parse? s = some d →
      (ofRegistrations (before ++ .withDocument id d :: after)).shelf =
        (ofRegistrations rs).shelf ∧
      (ofRegistrations (before ++ .insert id d :: after)).shelf = (ofRegistrations rs).shelf := by
  have hfind := find?_ofRegistrations rs id
  refine ⟨?_, ?_, ?_, ?_, apart_ofRegistrations rs id, ?_⟩
  · intro hnone
    exact shelf_eq_of_find?_none (hfind.trans hnone)
  · intro d hd
    exact shelf_eq_of_find?_some (hfind.trans hd)
  · intro s hs
    have hload := shelf_eq_of_find?_some (hfind.trans hs)
    exact ⟨fun d hd => hload.trans (load_text_of_parse hd),
      fun hnone => hload.trans (load_text_of_parse_none hnone)⟩
  -- only the registrations for this script have a part in what is found
  · intro rs' hsame
    have hfind' := find?_ofRegistrations rs' id
    unfold Registration.last? at hfind hfind'
    unfold shelf
    rw [hfind', hsame, hfind]
  · intro before s after d hrs hd
    have hload : Registered.load id (.document d) = Registered.load id (.text s) :=
      (load_text_of_parse hd).symm
    rw [hrs]
    exact ⟨shelf_replace (x := .withDocument id d) (y := .withText id s) rfl hload before after,
      shelf_replace (x := .insert id d) (y := .withText id s) rfl hload before after⟩

/-- A document, a text for another request that is no script, and a text in place of the
document. -/
def overwriting : List Registration :=
  [.insert (.part 1 1) ⟨some "draft", []⟩, .withText (.named "extra") "",
    .withText (.part 1 1) "\x7b\"nodes\":[]\x7d"]

theorem answers_last_registered_overwriting :
    (ofRegistrations overwriting).shelf (.part 1 1) = .ok ⟨none, []⟩ ∧
      (ofRegistrations overwriting).shelf (.named "extra") =
        .error (.malformed (.named "extra")) ∧
      (ofRegistrations overwriting).shelf (.part 1 2) =
        .error (.notFound (.part 1 2)) ∧
      (ofRegistrations (overwriting.take 2 ++
          [.withDocument (.part 1 1) ⟨none, []⟩])).shelf =
        (ofRegistrations overwriting).shelf := by
  have hparse : Document.parse? "\x7b\"nodes\":[]\x7d" = some ⟨none, []⟩ := by decide +kernel
  have hnone : Document.parse? "" = none := by decide +kernel
  obtain ⟨-, -, htext, -, -, hreplace⟩ :=
    answers_last_registered overwriting (.part 1 1)
  obtain ⟨-, -, hextra, -⟩ := answers_last_registered overwriting (.named "extra")
  refine ⟨(htext _ rfl).1 _ hparse, (hextra _ rfl).2 hnone, ?_, ?_⟩
  · exact (answers_last_registered overwriting (.part 1 2)).1 rfl
  · exact (hreplace (overwriting.take 2) _ [] _ rfl hparse).1

end Registry
end StoryChat
