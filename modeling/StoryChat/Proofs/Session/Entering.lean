/-
What a line does, as against what was shown.

Somebody who plays sees the options with their numbers and types one of these. So the number has
to mean the same to the one who shows the options (`choicesText`), who counts from one, and to
the engine (`Act.choose`), which counts from nothing. It does: the line makes the engine choose
the option behind that number, and nothing else happens, and what the player is then heard to say
is the text of that option.

Any other line that answers or asks to be shown something changes nothing. It may print, but the
engine stays what it is, the slots are not called, and no event is told and no cue is played.
-/
import StoryChat.Proofs.Engine.Opening
import StoryChat.Proofs.Engine.Submission
import StoryChat.Proofs.Session.Damage

set_option autoImplicit false

namespace StoryChat

/-! ## Numbers -/

namespace Decimal

theorem eq_char_of_digit? {c : Char} {d : Digit} (h : digit? c = some d) : c = d.char := by
  unfold digit? at h
  split at h
  · next hc =>
    cases h
    change c = Char.ofNat (48 + (c.toNat - 48))
    rw [Nat.add_sub_cancel' hc.1, Char.ofNat_toNat]
  · cases h

theorem le_foldl_digits (ds : List Digit) (m : Nat) :
    m ≤ ds.foldl (fun n d => 10 * n + d.val) m := by
  induction ds generalizing m with
  | nil => exact Nat.le_refl m
  | cons d ds ih =>
    have hrest := ih (10 * m + d.val)
    rw [List.foldl_cons]
    omega

end Decimal

namespace Text

open Decimal

variable {bound m n : Nat} {s : String}

/-- Whether a text writes a number: in digits, perhaps with a plus sign in front of them. -/
def Writes (s : String) (n : Nat) : Prop :=
  ∃ ds : List Digit, ds ≠ [] ∧ value ds = n ∧
    (s.toList = ds.map Digit.char ∨ s.toList = '+' :: ds.map Digit.char)

theorem writes_text (n : Nat) : Writes (Decimal.text n) n :=
  ⟨digits n, digits_ne_nil n, value_digits n, .inl (String.toList_ofList)⟩

/-- Digit by digit the number never gets smaller, so the bound holds on the way if it holds at the
end. -/
theorem foldlM_appendDigit_iff (hm : m ≤ bound) (cs : List Char) :
    cs.foldlM (appendDigit bound) m = .ok n ↔ n ≤ bound ∧
      ∃ ds : List Digit, cs = ds.map Digit.char ∧ ds.foldl (fun n d => 10 * n + d.val) m = n := by
  induction cs generalizing m with
  | nil =>
    constructor
    · intro h
      cases h
      exact ⟨hm, [], rfl, rfl⟩
    · rintro ⟨-, ds, hds, rfl⟩
      rw [List.map_eq_nil_iff.1 hds.symm]
      rfl
  | cons c cs ih =>
    rw [List.foldlM_cons]
    constructor
    · intro h
      unfold appendDigit at h
      cases hd : digit? c with
      | none =>
        rw [hd] at h
        cases h
      | some d =>
        rw [hd] at h
        dsimp only at h
        split at h
        · next hle =>
          obtain ⟨hn, ds, rfl, hvalue⟩ := (ih hle).1 h
          refine ⟨hn, d :: ds, ?_, hvalue⟩
          rw [List.map_cons, eq_char_of_digit? hd]
        · cases h
    · rintro ⟨hn, ds, hds, hvalue⟩
      cases ds with
      | nil => cases hds
      | cons d ds =>
        obtain ⟨rfl, rfl⟩ := List.cons.inj hds
        rw [List.foldl_cons] at hvalue
        -- the digits that follow only add, so the bound holds here if it holds at the end
        have hle : 10 * m + d.val ≤ bound := by
          have hrest := le_foldl_digits ds (10 * m + d.val)
          omega
        have hstep : appendDigit bound m d.char = .ok (10 * m + d.val) := by
          unfold appendDigit
          rw [digit?_char]
          exact if_pos hle
        rw [hstep]
        exact (ih hle).2 ⟨hn, ds, rfl, hvalue⟩

/-- What is read as a number is what writes one, if it is small enough. -/
theorem readWhole_eq_ok_iff : readWhole bound s = .ok n ↔ n ≤ bound ∧ Writes s n := by
  have hplus : ∀ (d : Digit) (cs cs' : List Char), '+' :: cs ≠ d.char :: cs' := by
    intro d cs cs' h
    exact (by decide : ∀ d : Digit, '+' ≠ d.char) d (List.cons.inj h).1
  have hfold := fun cs =>
    foldlM_appendDigit_iff (m := 0) (n := n) (Nat.zero_le bound) cs
  unfold readWhole Writes
  generalize s.toList = cs
  -- nothing, a sign alone, a sign with something behind it, and anything without a sign
  split
  · constructor
    · exact nofun
    · rintro ⟨-, ds, hne, -, h | h⟩
      · exact absurd (List.map_eq_nil_iff.1 h.symm) hne
      · cases h
  · constructor
    · exact nofun
    · rintro ⟨-, ds, hne, -, h | h⟩
      · obtain ⟨d, ds, rfl⟩ := List.exists_cons_of_ne_nil hne
        exact absurd h (hplus d _ _)
      · exact absurd (List.map_eq_nil_iff.1 (List.cons.inj h).2.symm) hne
  · next cs hcs =>
    rw [hfold]
    constructor
    · rintro ⟨hn, ds, rfl, hvalue⟩
      exact ⟨hn, ds, fun hnil => hcs (List.map_eq_nil_iff.2 hnil), hvalue, .inr rfl⟩
    · rintro ⟨hn, ds, hne, hvalue, h | h⟩
      · obtain ⟨d, ds, rfl⟩ := List.exists_cons_of_ne_nil hne
        exact absurd h (hplus d _ _)
      · exact ⟨hn, ds, (List.cons.inj h).2, hvalue⟩
  · next hnil _ hcons =>
    rw [hfold]
    constructor
    · rintro ⟨hn, ds, rfl, hvalue⟩
      exact ⟨hn, ds, fun hnone => hnil (List.map_eq_nil_iff.2 hnone), hvalue, .inl rfl⟩
    · rintro ⟨hn, ds, -, hvalue, h | h⟩
      · exact ⟨hn, ds, h, hvalue⟩
      · exact absurd h (hcons _)

end Text

/-! ## Lines -/

namespace Command

variable {line : String} {n : Nat}

/-- Whether a line begins with a hash sign, and which words stand behind it. -/
def Hashed (line : String) (words : List String) : Prop :=
  ∃ rest, (Text.trim line).toList = '#' :: rest ∧ Text.words (String.ofList rest) = words

/-- Whether a line is a number, of those that can be the number of a choice. -/
def Numbers (line : String) (n : Nat) : Prop := n ≤ choiceLimit ∧ Text.Writes (Text.trim line) n

/-- Whether a line is to lead the session elsewhere, and not to answer or to show something: it
ends the session, starts it over, enters the part that waits, if one does, or names the player. -/
inductive Leads (pending : Bool) (line : String) : Prop where
  | quit {rest : List String} : Hashed line ("quit" :: rest) → Leads pending line
  | exit {rest : List String} : Hashed line ("exit" :: rest) → Leads pending line
  | reset {rest : List String} : Hashed line ("reset" :: rest) → Leads pending line
  | begin {rest : List String} : Hashed line ("continue" :: rest) → pending = true →
      Leads pending line
  | name {name : String} {rest : List String} : Hashed line ("name" :: name :: rest) →
      Leads pending line

/-- How a line becomes a command. -/
inductive Reads (line : String) : Command → Prop where
  | nothing : Reads line .nothing
  | words {ws : List String} : Hashed line ws → Reads line (ofWords ws)
  | answer : Reads line (.answer (Text.trim line))

theorem reads_ofLine (line : String) : Reads line (ofLine line) := by
  unfold ofLine ofTrimmed
  split
  · exact .nothing
  · next rest hrest => exact .words ⟨rest, hrest, rfl⟩
  · exact .answer

/-- A number as it is shown is one as it is typed. -/
theorem Numbers.of_text (hn : n ≤ choiceLimit) (hline : Text.trim line = Decimal.text n) :
    Numbers line n := by
  refine ⟨hn, ?_⟩
  rw [hline]
  exact Text.writes_text n

/-- A number is no command. -/
theorem Numbers.ofLine_eq (h : Numbers line n) : ofLine line = .answer (Text.trim line) := by
  obtain ⟨-, ds, hne, -, hline⟩ := h
  obtain ⟨d, ds, rfl⟩ := List.exists_cons_of_ne_nil hne
  have hhash : ∀ d : Decimal.Digit, d.char ≠ '#' := by decide
  unfold ofLine ofTrimmed
  split
  · next hnil => rcases hline with hline | hline <;> cases hnil.symm.trans hline
  · next rest hrest =>
    rcases hline with hline | hline
    · exact absurd (List.cons.inj (hline.symm.trans hrest)).1 (hhash d)
    · exact absurd (List.cons.inj (hline.symm.trans hrest)).1 (by decide)
  · rfl

/-- The index of an option is one less than its number. -/
theorem choiceIndex?_eq_some_iff {index : Nat} :
    choiceIndex? (Text.trim line) = some index ↔ Numbers line (index + 1) := by
  unfold Numbers
  rw [← Text.readWhole_eq_ok_iff]
  unfold choiceIndex?
  constructor
  · intro h
    split at h
    · next hread =>
      cases h
      exact hread
    · cases h
  · intro h
    rw [h]

end Command

/-- An option stands behind its number, and the others before and behind it. -/
theorem numbered_eq_of_getElem? {choices : List Choice} {index : Nat} {c : Choice}
    (hc : choices[index]? = some c) (next : Nat) : numbered next choices =
      numbered next (choices.take index) ++ "\n  " ++ Decimal.text (next + index) ++ ") " ++
        c.text ++ numbered (next + index + 1) (choices.drop (index + 1)) := by
  induction choices generalizing index next with
  | nil => cases hc
  | cons first rest ih =>
    cases index with
    | zero =>
      cases hc
      rw [List.take_zero, numbered, numbered, String.empty_append]
      rfl
    | succ index =>
      rw [List.getElem?_cons_succ] at hc
      have hnext : next + (index + 1) = next + 1 + index := by omega
      rw [numbered, ih hc, List.take_succ_cons, List.drop_succ_cons, numbered, hnext]
      simp only [String.append_assoc]

theorem choicesText_eq_of_getElem? {choices : List Choice} {index : Nat} {c : Choice}
    (hc : choices[index]? = some c) : choicesText choices =
      choicesText (choices.take index) ++ "\n  " ++ Decimal.text (index + 1) ++ ") " ++ c.text ++
        numbered (index + 1 + 1) (choices.drop (index + 1)) := by
  unfold choicesText
  rw [numbered_eq_of_getElem? hc, Nat.add_comm 1 index]
  simp only [String.append_assoc]

namespace World

variable (w : World) (lines : List String)

/-- What is printed is no event. -/
@[simp] theorem events_printed : (w.printed lines).events = w.events := by
  induction lines generalizing w with
  | nil => rfl
  | cons line rest ih => exact ih (w.note (.line line))

/-- What is printed is no cue. -/
@[simp] theorem cues_printed : (w.printed lines).cues = w.cues := by
  induction lines generalizing w with
  | nil => rfl
  | cons line rest ih => exact ih (w.note (.line line))

end World

/-! ## What is said -/

/-- What an operation takes is said before anything else, and it is not unsaid, whatever becomes
of the operation. -/
theorem Performs.lines {calm : Prop} {index : Nat} {w : World} {c : Choice}
    {out : Act.Outcome (Option Walked)} (h : Performs calm (.choose index) w out)
    (hc : (Operation.choose index).taken? w = some c) :
    w.lines ++ [⟨w.playerIds w.place, .player, .text, c.text⟩] <+: out.left.lines := by
  let I : Scene → Prop := fun s =>
    w.lines ++ [⟨w.playerIds w.place, .player, .text, c.text⟩] <+:
      s.messages.map Message.utterance
  have hpost {s : Scene} (m : Message) (hs : I s) : I (s.post m) := by
    change _ <+: (s.messages ++ [m]).map _
    rw [List.map_append]
    exact hs.trans (List.prefix_append _ _)
  refine h.keeps (I := I) ?_ ?_ ?_ (fun s hs => hs) (fun s halt hs => hs)
  · intro s hopens
    induction hopens with
    | still hnone =>
      rw [hc] at hnone
      cases hnone
    | @take c' hc' =>
      obtain rfl : c = c' := Option.some.inj (hc.symm.trans hc')
      change _ <+: (w.engine.narrative.messages ++ [_]).map _
      rw [List.map_append]
      exact List.prefix_rfl
    | restore hop | rest hop | clear hop => cases hop
    | install _ _ ih => exact ih
  · intro s force hs
    unfold Scene.ready
    split <;> exact hs
  · intro s t hs hstep
    cases hstep with
    | @read id messages hi hm =>
      -- to be read is all that a message can still come to
      change _ <+: messages.map _
      rw [Narrative.lines_markLastOfPlayer? hm]
      exact hs
    | say hm hcalm =>
      unfold Scene.say
      split <;> exact hpost _ hs
    | _ => exact hs

namespace Act

variable {o : Options} {w : World} {line word : String} {index n : Nat} {c : Choice}

theorem left_map {α β : Type} (f : α → β) (act : Act α) (w : World) :
    Outcome.left ((f <$> act) w) = Outcome.left (act w) := by
  rw [map_apply]
  cases act w <;> rfl

/-- What is chosen from what is offered is never out of range. -/
theorem choose_ne_invalidIndex (hw : w.engine.narrative.flags.waiting = true)
    (hc : w.engine.narrative.flags.choices[index]? = some c) {i : Nat} {m : World} :
    choose index w ≠ .ok (.invalidIndex i) m := by
  intro h
  rw [choose_apply hw hc] at h
  obtain ⟨found, v, -, hlead⟩ := bind_eq_ok h
  cases found with
  | some found => cases hlead
  | none =>
    obtain ⟨next, v, -, hnext⟩ := bind_eq_ok hlead
    obtain ⟨walked, -, hchosen⟩ := map_eq_ok hnext
    cases hchosen

theorem choose_of_range (hw : w.engine.narrative.flags.waiting = true)
    (hc : w.engine.narrative.flags.choices[index]? = none) :
    choose index w = .ok (.invalidIndex index) w := by
  unfold choose
  rw [bind_apply, look_apply]
  dsimp only
  rw [hw, if_neg (by simp), hc]
  rfl

/-- The number of an option makes the engine choose it, and nothing is printed on that. -/
theorem answerWith_of_offered (hw : w.engine.narrative.flags.waiting = true)
    (hi : choiceIndex? word = some index)
    (hc : w.engine.narrative.flags.choices[index]? = some c) :
    answerWith word w = ((fun _ => ()) <$> choose index) w := by
  unfold answerWith
  rw [bind_apply, look_apply, map_apply]
  dsimp only
  rw [hw, if_neg (by simp), hi]
  dsimp only
  rw [bind_apply]
  cases hr : choose index w with
  | error stop m => rfl
  | ok chosen m =>
    cases chosen with
    | invalidIndex i => exact absurd hr (choose_ne_invalidIndex hw hc)
    | _ => rfl

/-- Any other answer is only told to be none. -/
theorem answerWith_of_refused (h : ∀ index, w.engine.narrative.flags.waiting = true →
      choiceIndex? word = some index → w.engine.narrative.flags.choices[index]? = none) :
    ∃ printed, answerWith word w = .ok () (w.printed printed) := by
  unfold answerWith
  rw [bind_apply, look_apply]
  dsimp only
  cases hw : w.engine.narrative.flags.waiting with
  | false => exact ⟨_, rfl⟩
  | true =>
    rw [if_neg (by simp)]
    cases hi : choiceIndex? word with
    | none => exact ⟨_, rfl⟩
    | some index =>
      dsimp only
      rw [bind_apply, choose_of_range hw (h index hw hi)]
      exact ⟨_, rfl⟩

theorem beginNext_of_none (h : w.engine.narrative.introPending = false) :
    beginNext w = .ok () (w.printed ["[ERROR] No part is waiting to begin."]) := by
  unfold beginNext
  rw [bind_apply, look_apply]
  dsimp only
  rw [h]
  rfl

/-- The result of what is done does not matter for the session. -/
theorem thenPlay_eq_map {α : Type} {act : Act Unit} {other : Act α}
    (h : act w = ((fun _ => ()) <$> other) w) :
    thenPlay act w = ((fun _ => .ok .playing) <$> other) w := by
  unfold thenPlay
  rw [bind_apply, h, map_apply, map_apply]
  cases other w <;> rfl

theorem thenPlay_of_ok {act : Act Unit} {m : World} (h : act w = .ok () m) :
    thenPlay act w = .ok (.ok .playing) m := by
  unfold thenPlay
  rw [bind_apply, h]
  rfl

/-- A command that does not lead elsewhere prints something. -/
theorem obey_words {ws : List String} (hline : Command.Hashed line ws)
    (h : ¬ Command.Leads w.engine.narrative.introPending line) :
    ∃ printed, obey o (Command.ofWords ws) w = .ok (.ok .playing) (w.printed printed) := by
  unfold Command.ofWords
  -- one case for each word that is known, in the order in which they are compared
  split
  · exact absurd (.quit hline) h
  · exact absurd (.exit hline) h
  · exact ⟨_, rfl⟩
  · exact ⟨_, rfl⟩
  · exact ⟨_, rfl⟩
  · next rest =>
    have hpending : w.engine.narrative.introPending = false := by
      rw [← Bool.not_eq_true]
      exact fun hp => h (.begin hline hp)
    exact ⟨_, thenPlay_of_ok (beginNext_of_none hpending)⟩
  · next rest =>
    -- without a name the usage is printed
    cases rest with
    | nil => exact ⟨_, rfl⟩
    | cons name rest => exact absurd (.name hline) h
  · exact absurd (.reset hline) h
  · exact ⟨_, rfl⟩
  · exact ⟨_, rfl⟩

/-- The number of an option on a line makes the engine choose it. -/
theorem enterLine_of_number (hw : w.engine.narrative.flags.waiting = true)
    (hn : Command.Numbers line (index + 1))
    (hc : w.engine.narrative.flags.choices[index]? = some c) :
    enterLine o line .playing w = ((fun _ => .ok .playing) <$> choose index) w := by
  unfold enterLine
  rw [hn.ofLine_eq]
  exact thenPlay_eq_map
    (answerWith_of_offered hw (Command.choiceIndex?_eq_some_iff.2 hn) hc)

/-- What is chosen is said, whatever becomes of the choice. -/
theorem lines_choose (hw : w.engine.narrative.flags.waiting = true)
    (hc : w.engine.narrative.flags.choices[index]? = some c) {p : Patience}
    (hp : p = .endless ∨ ∃ k, p = .suspensions k) :
    w.lines ++ [⟨w.playerIds w.place, .player, .text, c.text⟩] <+:
      (Outcome.left (choose index (w.under p))).lines := by
  have htaken : (Operation.choose index).taken? w = some c := (if_pos hw).trans hc
  have hperforms := (Operation.choose index).performs False hp (w := w) nofun
  have hlines := hperforms.lines htaken
  rwa [Operation.run, left_map] at hlines

/-- A line that neither leads elsewhere nor is the number of an option prints something at
most. -/
theorem enterLine_of_other (hleads : ¬ Command.Leads w.engine.narrative.introPending line)
    (hn : ∀ n, w.engine.narrative.flags.waiting = true → Command.Numbers line n → 1 ≤ n →
      w.engine.narrative.flags.choices.length < n) :
    ∃ printed, enterLine o line .playing w = .ok (.ok .playing) (w.printed printed) := by
  unfold enterLine
  have hreads := Command.reads_ofLine line
  generalize Command.ofLine line = command at hreads
  cases hreads with
  | nothing => exact ⟨[], rfl⟩
  | words hline => exact obey_words hline hleads
  | answer =>
    have hrefused : ∀ index, w.engine.narrative.flags.waiting = true →
        choiceIndex? (Text.trim line) = some index →
        w.engine.narrative.flags.choices[index]? = none := by
      intro index hw hi
      have hlt := hn (index + 1) hw (Command.choiceIndex?_eq_some_iff.1 hi) (by omega)
      exact List.getElem?_eq_none (by omega)
    obtain ⟨printed, hprinted⟩ := answerWith_of_refused hrefused
    exact ⟨printed, thenPlay_of_ok hprinted⟩

/-- A number as it is shown is a number as it is typed. A line (`Act.enterLine`) that is the
number of an option makes the engine choose (`Act.choose`) the option that is shown behind
that number, and does nothing else, and what the player says is the text that is shown. Any
other line that does not lead elsewhere prints something at most. -/
theorem lines_do_what_was_shown (o : Options) (w : World) (line : String) :
    (∀ n ≤ choiceLimit, Text.trim line = Decimal.text n → Command.Numbers line n) ∧
    (∀ n, w.engine.narrative.flags.waiting = true → Command.Numbers line n → 1 ≤ n →
      n ≤ w.engine.narrative.flags.choices.length →
      ∃ c, w.engine.narrative.flags.choices[n - 1]? = some c ∧
        choicesText w.engine.narrative.flags.choices =
          choicesText (w.engine.narrative.flags.choices.take (n - 1)) ++ "\n  " ++
            Decimal.text n ++ ") " ++ c.text ++
            numbered (n + 1) (w.engine.narrative.flags.choices.drop n) ∧
        enterLine o line .playing w = ((fun _ => .ok .playing) <$> choose (n - 1)) w ∧
        ∀ p, (p = .endless ∨ ∃ k, p = .suspensions k) →
          w.lines ++ [⟨w.playerIds w.place, .player, .text, c.text⟩] <+:
            (Outcome.left (choose (n - 1) (w.under p))).lines) ∧
    (¬ Command.Leads w.engine.narrative.introPending line →
      (∀ n, w.engine.narrative.flags.waiting = true → Command.Numbers line n → 1 ≤ n →
        w.engine.narrative.flags.choices.length < n) →
      ∃ printed, enterLine o line .playing w = .ok (.ok .playing) (w.printed printed) ∧
        (w.printed printed).engine = w.engine ∧ (w.printed printed).saves = w.saves ∧
        (w.printed printed).events = w.events ∧ (w.printed printed).cues = w.cues) := by
  refine ⟨?_, ?_, ?_⟩
  · intro n hn hline
    exact .of_text hn hline
  · intro n hw hn hone hle
    -- the player counts from one, and the engine from nothing
    obtain ⟨index, rfl⟩ := Nat.exists_eq_add_of_le' hone
    have hc := List.getElem?_eq_getElem (l := w.engine.narrative.flags.choices) hle
    exact ⟨_, hc, choicesText_eq_of_getElem? hc, enterLine_of_number hw hn hc,
      fun p hp => lines_choose hw hc hp⟩
  · intro hleads hn
    obtain ⟨printed, hprinted⟩ := enterLine_of_other (o := o) hleads hn
    exact ⟨printed, hprinted, w.engine_printed printed, w.saves_printed printed,
      w.events_printed printed, w.cues_printed printed⟩

theorem lines_do_what_was_shown_provoked :
    choicesText World.provoked.engine.narrative.flags.choices = "[CHOICES]\n  1) Good night" ∧
      enterLine {} " 1\n" .playing World.provoked =
        ((fun _ => .ok .playing) <$> choose 0) World.provoked ∧
      (∃ u, u.sender = .player ∧ u.content = "Good night" ∧
        [u] <+: (Outcome.left (choose 0 (World.provoked.under .endless))).lines) ∧
      ∃ printed, enterLine {} "7" .playing World.provoked =
          .ok (.ok .playing) (World.provoked.printed printed) ∧
        (World.provoked.printed printed).saves = World.provoked.saves := by
  obtain ⟨hshown, hchosen, -⟩ := lines_do_what_was_shown {} World.provoked " 1\n"
  have hone : Command.Numbers " 1\n" 1 := hshown 1 (by decide) (by decide +kernel)
  have hseven : (Text.trim "7").toList = ['7'] := by decide +kernel
  -- a line of one digit is no command
  have hleads : ¬ Command.Leads World.provoked.engine.narrative.introPending "7" := by
    have hhash {ws : List String} (h : Command.Hashed "7" ws) : False := by
      obtain ⟨rest, hrest, -⟩ := h
      cases hseven.symm.trans hrest
    intro h
    cases h with
    | quit h | exit h | reset h | begin h | name h => exact hhash h
  have hrange : ∀ n, Command.Numbers "7" n → n = 7 := by
    intro n hn
    have hread : Text.readWhole choiceLimit (Text.trim "7") = .ok 7 := by decide +kernel
    cases (Text.readWhole_eq_ok_iff.2 hn).symm.trans hread
    rfl
  obtain ⟨c, hc, -, henter, hsaid⟩ := hchosen 1 rfl hone (by decide) (by decide)
  obtain rfl : World.goodNight = c := Option.some.inj hc
  obtain ⟨printed, hprinted, -, hsaves, -⟩ := (lines_do_what_was_shown {} World.provoked "7").2.2
    hleads fun n _ hn _ => hrange n hn ▸ by decide
  exact ⟨by decide +kernel, henter, ⟨_, rfl, rfl, hsaid .endless (.inl rfl)⟩,
    printed, hprinted, hsaves⟩

end Act

end StoryChat
