/-
Whether the player's messages were read before they were answered.

Of all that precedes a message only the last one of the player before it matters: to answer
is to have read that one (`ReadBefore`). So we speak of places in a conversation, and of
the place of the last message of the player before another place, be it that of a message
or the one behind the end. A conversation is told place by place. A message that is added
opens no new question for the places before it, and one that nobody but another participant
may send answers the question for its own.

A record keeps all that is needed for this: a message that is read back (`StandsFor`) has
the same sender, unless it had a name that means another one, and is read if it was.
-/
import StoryChat.Proofs.Narrative.Reading
import Mathlib.Data.Set.Basic

set_option autoImplicit false

namespace StoryChat

open Json

namespace Message

variable {ms ms' : List Message} {m : Message} {made : Set Nat} {i j : Nat}

/-! ## The last message of the player -/

/-- Whether at a place there is a message of the player, and none between it and another
place. -/
structure LastOfPlayer (ms : List Message) (i j : Nat) : Prop where
  before : i < j
  player : ∃ m, ms[i]? = some m ∧ m.sender = .player
  last : ∀ k m, i < k → k < j → ms[k]? = some m → m.sender ≠ .player

/-- Whether the last message of the player before a place is read, if it is one of those that
were made in a certain way. -/
def ReadBefore (made : Set Nat) (ms : List Message) (j : Nat) : Prop :=
  ∀ i m, i ∈ made → LastOfPlayer ms i j → ms[i]? = some m → m.read = true

/-- Whether that holds before each message of another participant. -/
def Answered (made : Set Nat) (ms : List Message) : Prop :=
  ∀ j m, ms[j]? = some m → m.sender.isNpc → ReadBefore made ms j

/-- Whether the player sent what is at certain places. -/
def Sent (made : Set Nat) (ms : List Message) : Prop :=
  ∀ i ∈ made, ∃ m, ms[i]? = some m ∧ m.sender = .player

/-- Whether the player sent what is at certain places, and it was read before it was
answered. -/
structure Heard (made : Set Nat) (ms : List Message) : Prop where
  sent : Sent made ms
  answered : Answered made ms

/-- Of fewer places less is asked. -/
theorem ReadBefore.mono {fewer : Set Nat} (h : ReadBefore made ms j) (hsub : fewer ⊆ made) :
    ReadBefore fewer ms j := fun i m hi => h i m (hsub hi)

theorem Heard.mono {fewer : Set Nat} (h : Heard made ms) (hsub : fewer ⊆ made) :
    Heard fewer ms :=
  ⟨fun i hi => h.sent i (hsub hi), fun j m hm hn => (h.answered j m hm hn).mono hsub⟩

theorem Heard.of_empty (ms : List Message) : Heard ∅ ms :=
  ⟨fun _ hi => hi.elim, fun _ _ _ _ _ _ hi => hi.elim⟩

theorem Sent.lt (h : Sent made ms) (hi : i ∈ made) : i < ms.length := by
  obtain ⟨m, hm, -⟩ := h i hi
  exact (List.getElem?_eq_some_iff.1 hm).1

/-- A place that is not beyond the end does not see what is added at the end. -/
theorem lastOfPlayer_append (hj : j ≤ ms.length) :
    LastOfPlayer (ms ++ [m]) i j ↔ LastOfPlayer ms i j := by
  have hat {k : Nat} (hk : k < j) : (ms ++ [m])[k]? = ms[k]? :=
    List.getElem?_append_left (Nat.lt_of_lt_of_le hk hj)
  constructor
  · rintro ⟨hlt, hi, hlast⟩
    exact ⟨hlt, hat hlt ▸ hi, fun k m' hik hkj hk => hlast k m' hik hkj (by rwa [hat hkj])⟩
  · rintro ⟨hlt, hi, hlast⟩
    exact ⟨hlt, by rwa [hat hlt], fun k m' hik hkj hk => hlast k m' hik hkj (by rwa [← hat hkj])⟩

theorem readBefore_append (hj : j ≤ ms.length) :
    ReadBefore made (ms ++ [m]) j ↔ ReadBefore made ms j := by
  have hat {k : Nat} (hk : k < j) : (ms ++ [m])[k]? = ms[k]? :=
    List.getElem?_append_left (Nat.lt_of_lt_of_le hk hj)
  unfold ReadBefore
  constructor
  · intro h i m' hi hl hm
    exact h i m' hi ((lastOfPlayer_append hj).2 hl) (by rwa [hat hl.before])
  · intro h i m' hi hl hm
    rw [lastOfPlayer_append hj] at hl
    exact h i m' hi hl (by rwa [← hat hl.before])

/-! ## A message more -/

theorem Sent.append (h : Sent made ms) (m : Message) : Sent made (ms ++ [m]) := by
  intro i hi
  obtain ⟨m', hm', hs⟩ := h i hi
  exact ⟨m', by rwa [List.getElem?_append_left (h.lt hi)], hs⟩

/-- Another participant may send something where what came before is read. -/
theorem Answered.append (h : Answered made ms)
    (hm : m.sender.isNpc → ReadBefore made ms ms.length) : Answered made (ms ++ [m]) := by
  intro j m' hj hn
  obtain ⟨hlt, -⟩ := List.getElem?_eq_some_iff.1 hj
  rw [List.length_append, List.length_singleton] at hlt
  refine (readBefore_append (by omega)).2 ?_
  rcases Nat.lt_or_ge j ms.length with hlt | hge
  · rw [List.getElem?_append_left hlt] at hj
    exact h j m' hj hn
  · obtain rfl : j = ms.length := by omega
    rw [List.getElem?_concat_length] at hj
    cases hj
    exact hm hn

/-- A message that is none of those that were made leaves all read that was. -/
theorem ReadBefore.append (h : ReadBefore made ms ms.length) (hs : Sent made ms) (m : Message) :
    ReadBefore made (ms ++ [m]) (ms ++ [m]).length := by
  intro i m' hi hl hm'
  have hlt := hs.lt hi
  rw [List.getElem?_append_left hlt] at hm'
  refine h i m' hi ⟨hlt, ?_, fun k m'' hik hk hm'' => ?_⟩ hm'
  · obtain ⟨m'', hm'', hp⟩ := hs i hi
    exact ⟨m'', hm'', hp⟩
  · refine hl.last k m'' hik ?_ (by rwa [List.getElem?_append_left hk])
    rw [List.length_append]
    omega

/-- Where the last message is one of those that were made, more of them are. -/
theorem Sent.insert (h : Sent made ms) (hm : m.sender = .player) :
    Sent (made ∪ {ms.length}) (ms ++ [m]) := by
  rintro i (hi | rfl)
  · exact h.append m i hi
  · exact ⟨m, List.getElem?_concat_length, hm⟩

theorem Answered.insert (h : Answered made ms) (hm : m.sender = .player) :
    Answered (made ∪ {ms.length}) (ms ++ [m]) := by
  have hnpc : ¬ m.sender.isNpc := by
    rw [hm]
    exact Bool.false_ne_true
  intro j m' hj hn
  obtain ⟨hlt, -⟩ := List.getElem?_eq_some_iff.1 hj
  rw [List.length_append, List.length_singleton] at hlt
  have hread := h.append (fun hn => absurd hn hnpc) j m' hj hn
  rintro i m'' (hi | rfl) hl hm''
  · exact hread i m'' hi hl hm''
  · -- behind the new message there is nothing yet
    exact absurd hl.before (by omega)

/-! ## A message that is read -/

/-- The last message of the player is the one behind which there is none. -/
theorem markLastOfPlayer?_append_cons (earlier : List Message) {m : Message}
    {later : List Message} (hm : m.sender = .player) (hlater : ∀ m' ∈ later, m'.sender ≠ .player) :
    markLastOfPlayer? (earlier ++ m :: later) =
      some (m.id, earlier ++ { m with read := true } :: later) := by
  have hnone : markLastOfPlayer? later = none := by
    induction later with
    | nil => rfl
    | cons m' later ih =>
      obtain ⟨hm', hlater⟩ := List.forall_mem_cons.1 hlater
      rw [markLastOfPlayer?, ih hlater]
      exact if_neg hm'
  induction earlier with
  | nil =>
    rw [List.nil_append, markLastOfPlayer?, hnone]
    exact if_pos hm
  | cons m' earlier ih => rw [List.cons_append, markLastOfPlayer?, ih, List.cons_append]

/-- None is found where the player has sent none. -/
theorem sender_ne_player_of_markLastOfPlayer? (h : markLastOfPlayer? ms = none) :
    ∀ m ∈ ms, m.sender ≠ .player := by
  induction ms with
  | nil => exact List.forall_mem_nil _
  | cons m ms ih =>
    rw [markLastOfPlayer?] at h
    split at h
    · cases h
    · next hrest =>
      by_cases hm : m.sender = .player
      · rw [if_pos hm] at h
        cases h
      · exact List.forall_mem_cons.2 ⟨hm, ih hrest⟩

/-- What is read is that message, and no other one is touched. -/
theorem exists_of_markLastOfPlayer? {id : String}
    (h : markLastOfPlayer? ms = some (id, ms')) :
    ∃ earlier m later, m.sender = .player ∧ (∀ m' ∈ later, m'.sender ≠ .player) ∧ m.id = id ∧
      ms = earlier ++ m :: later ∧ ms' = earlier ++ { m with read := true } :: later := by
  induction ms generalizing ms' id with
  | nil => cases h
  | cons m ms ih =>
    rw [markLastOfPlayer?] at h
    split at h
    · next id' ms'' hrest =>
      cases h
      obtain ⟨earlier, m', later, hm', hlater, hid, rfl, rfl⟩ := ih hrest
      exact ⟨m :: earlier, m', later, hm', hlater, hid, rfl, rfl⟩
    · next hrest =>
      -- behind the one that is found there is none, which is how it was found
      by_cases hm : m.sender = .player
      · rw [if_pos hm] at h
        cases h
        exact ⟨[], m, ms, hm, sender_ne_player_of_markLastOfPlayer? hrest, rfl, rfl, rfl⟩
      · rw [if_neg hm] at h
        cases h

/-! ## Messages that are still those -/

/-- Whether a message may stand for another one, as far as reading goes: the player's is
still the player's, no other participant has got one more, and what was read still is. -/
structure StandsFor (m m' : Message) : Prop where
  player : m.sender = .player → m'.sender = .player
  npc : m'.sender.isNpc → m.sender.isNpc
  read : m.read = true → m'.read = true

theorem StandsFor.refl (m : Message) : StandsFor m m := ⟨fun h => h, fun h => h, fun h => h⟩

section

variable (h : List.Forall₂ StandsFor ms ms')
include h

theorem Sent.congr (hs : Sent made ms) : Sent made ms' := by
  intro i hi
  have hlt : i < ms'.length := h.length_eq ▸ hs.lt hi
  obtain ⟨m, hm, hp⟩ := hs i hi
  obtain ⟨m₀, hm₀, hstands⟩ := getElem?_of_forall₂ h (List.getElem?_eq_getElem hlt)
  rw [hm] at hm₀
  cases hm₀
  exact ⟨_, List.getElem?_eq_getElem hlt, hstands.player hp⟩

theorem ReadBefore.congr (hs : Sent made ms) (hr : ReadBefore made ms j) :
    ReadBefore made ms' j := by
  intro i m' hi hl hm'
  obtain ⟨m, hm, hstands⟩ := getElem?_of_forall₂ h hm'
  refine hstands.read (hr i m hi ⟨hl.before, ?_, fun k m₁ hik hkj hk hp => ?_⟩ hm)
  · obtain ⟨m₁, hm₁, hp⟩ := hs i hi
    exact ⟨m₁, hm₁, hp⟩
  · have hlt : k < ms'.length := h.length_eq ▸ (List.getElem?_eq_some_iff.1 hk).1
    obtain ⟨m₂, hm₂, hstands'⟩ := getElem?_of_forall₂ h (List.getElem?_eq_getElem hlt)
    rw [hk] at hm₂
    cases hm₂
    exact hl.last k _ hik hkj (List.getElem?_eq_getElem hlt) (hstands'.player hp)

theorem Answered.congr (hs : Sent made ms) (ha : Answered made ms) : Answered made ms' := by
  intro j m' hj hn
  obtain ⟨m, hm, hstands⟩ := getElem?_of_forall₂ h hj
  exact (ha j m hm (hstands.npc hn)).congr h hs

end

/-- Whoever reads the last message of the player has read all that is asked for. -/
theorem readBefore_of_markLastOfPlayer? {id : String}
    (h : markLastOfPlayer? ms = some (id, ms')) :
    List.Forall₂ StandsFor ms ms' ∧ ReadBefore made ms' ms'.length := by
  obtain ⟨earlier, m, later, hm, hlater, -, rfl, rfl⟩ := exists_of_markLastOfPlayer? h
  have hsame (ms : List Message) : List.Forall₂ StandsFor ms ms :=
    List.forall₂_same.2 fun m _ => .refl m
  refine ⟨List.rel_append (hsame earlier) (.cons ⟨fun h => h, fun h => h, fun _ => rfl⟩ (hsame later)), ?_⟩
  intro i m' hi hl hm'
  rcases Nat.lt_trichotomy i earlier.length with hlt | rfl | hgt
  · -- the message that is read stands between
    refine absurd hm (hl.last earlier.length { m with read := true } hlt ?_ ?_)
    · rw [List.length_append, List.length_cons]
      omega
    · rw [List.getElem?_append_right (Nat.le_refl _), Nat.sub_self]
      rfl
  · rw [List.getElem?_append_right (Nat.le_refl _), Nat.sub_self] at hm'
    cases hm'
    rfl
  · obtain ⟨m'', hm'', hp⟩ := hl.player
    obtain ⟨k, rfl⟩ : ∃ k, i = earlier.length + (k + 1) := ⟨i - earlier.length - 1, by omega⟩
    rw [List.getElem?_append_right (Nat.le_add_right _ _), Nat.add_sub_cancel_left,
      List.getElem?_cons_succ] at hm''
    exact absurd hp (hlater m'' (List.mem_of_getElem? hm''))

/-- Where the player has sent nothing there is nothing to be read. -/
theorem ReadBefore.of_none (h : markLastOfPlayer? ms = none) : ReadBefore made ms j := by
  intro i m hi hl hm
  obtain ⟨m', hm', hp⟩ := hl.player
  exact absurd hp (sender_ne_player_of_markLastOfPlayer? h m' (List.mem_of_getElem? hm'))

/-! ## Messages that are read back -/

/-- A message that is read back has the sender that its name means, and is read if it was. -/
theorem standsFor_of_ofJson? {m' : Message} (h : ofJson? m.toJson = some m') : StandsFor m m' := by
  rw [ofJson?_toJson_eq] at h
  obtain ⟨sentAt, -, rfl⟩ := Option.map_eq_some_iff.1 h
  refine ⟨fun hp => ?_, fun hn => ?_, fun hr => hr⟩
  · change Sender.ofName m.sender.name = .player
    rw [hp]
    rfl
  · -- the names of the two others mean them
    cases hs : m.sender with
    | npc name => rfl
    | player | system =>
      rw [hs] at hn
      cases hn

end Message

/-- The messages of a record that is read back stand for those that were written. -/
theorem Progress.standsFor_of_parse_render {p p' : Progress} (h : parse p.render = .ok p') :
    List.Forall₂ Message.StandsFor p.messages p'.messages := by
  have hj := ofJson?_of_parse_render h
  rw [ofJson?_toJson] at hj
  simp only [Option.bind_eq_bind, Option.bind_eq_some_iff] at hj
  obtain ⟨version, -, vars, -, messages, hmessages, chapter, -, part, -, hq⟩ := hj
  cases hq
  have hread := List.forall₂_map_left_iff.1 (forall₂_of_mapM hmessages)
  exact hread.imp fun m m' hm => Message.standsFor_of_ofJson? hm

end StoryChat
