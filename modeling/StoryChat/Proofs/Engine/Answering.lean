/-
The player's choices are read before they are answered.

Whoever answers a choice has read it (`Act.readAnswer`): the flag `answered` that a choice
waits to be read stays up over messages of the system, ends of parts and diversions, until
another participant delivers something. So of each choice it holds that it is read before
the next answer, unless the flag is lost in between. It is lost in one way only. The flag
is not in the record, and an engine that takes up a record in which the last message of the
player is unread does not know that it is still due.

To speak about the choices of a run we count them by their places in the conversation,
beside the run (`Tally`, `Chats`). The record in the slot has its own count: it may have
been written long before the engine that wrote it was left.
-/
import StoryChat.Proofs.Engine.Course
import StoryChat.Proofs.Engine.Opening
import StoryChat.Proofs.Narrative.Receipts

set_option autoImplicit false

namespace StoryChat

open Message

/-! ## What the reading of messages depends on -/

/-- The messages, whether a choice waits to be read, and what the slot for progress holds. -/
structure Mail where
  messages : List Message
  answered : Bool
  slot : Except SaveFault (Option String)

namespace World

/-- What the slot for progress holds. -/
def slot (w : World) : Except SaveFault (Option String) :=
  w.saves.medium.get w.engine.config.progressKey

/-- The mail of a world. -/
def mail (w : World) : Mail :=
  ⟨w.engine.narrative.messages, w.engine.narrative.flags.answered, w.slot⟩

section

variable (w : World)

@[simp] theorem mail_under (p : Patience) : (w.under p).mail = w.mail := rfl

@[simp] theorem mail_emit (e : Event) : (w.emit e).mail = w.mail := by
  unfold emit
  split <;> rfl

@[simp] theorem mail_play (c : Cue) : (w.play c).mail = w.mail := by
  unfold play
  split <;> rfl

@[simp] theorem mail_display (i : Indicator) : (w.display i).mail = w.mail := by
  unfold display
  split
  · rfl
  · rw [mail_emit]
    rfl

@[simp] theorem mail_acts (as : List Action) :
    (w.tell fun n => as.foldl Narrative.act n).mail = w.mail := by
  induction as generalizing w with
  | nil => rfl
  | cons a as ih =>
    refine (ih (w.tell (·.act a))).trans ?_
    cases a <;> rfl

@[simp] theorem mail_settled : w.settled.mail = w.mail := mail_display _ _

@[simp] theorem slot_asked (key : String) : (w.asked key).slot = w.slot := by
  rw [slot, medium_asked]
  rfl

@[simp] theorem mail_asked (key : String) : (w.asked key).mail = w.mail := by
  rw [mail, slot_asked]
  rfl

@[simp] theorem mail_called : w.called.mail = w.mail := by
  unfold called
  split <;> exact w.mail_asked _

theorem mail_recalled (p : Progress) :
    (w.recalled p).mail = { w.mail with messages := p.messages } := by
  have hslot : (w.recalled p).slot = w.slot := w.slot_asked _
  rw [mail, hslot]
  rfl

@[simp] theorem mail_opened (id : ScriptId) (graph : Graph) :
    (w.opened id graph).mail = w.mail := by
  cases id <;> rfl

/-- What is chosen is said by the player and waits to be read. -/
theorem mail_chosen (c : Choice) : (w.chosen c).mail =
    ⟨w.engine.narrative.messages ++ [Act.choiceMessage c w], true, w.slot⟩ := by
  have hslot : (w.chosen c).slot = w.slot := by
    rw [slot, saves_chosen, config_eq_of_setting (w.setting_chosen c), slot]
  have hmessages : (w.chosen c).engine.narrative.messages =
      w.engine.narrative.messages ++ [Act.choiceMessage c w] := by
    simp only [chosen, narrative_tell, engine_play, engine_emit]
    rfl
  rw [mail, hslot, hmessages]
  rfl

end

end World

/-! ## The invariant -/

/-- Whether the messages of the record in a slot, if there is one that can be read, were
heard. -/
def HoldsHeard (made : Set Nat) (slot : Except SaveFault (Option String)) : Prop :=
  ∀ text p, slot = .ok (some text) → Progress.parse text = .ok p → Heard made p.messages

namespace Mail

variable {made : Set Nat} {old : Except SaveFault (Option String)} {x : Mail}

/-- Whether the messages were heard, and where no choice waits to be read, all are read. -/
structure Told (made : Set Nat) (x : Mail) : Prop extends Heard made x.messages where
  read : x.answered = false → ReadBefore made x.messages x.messages.length

theorem Told.of_empty (x : Mail) : x.Told ∅ := ⟨.of_empty _, fun _ _ _ hi => hi.elim⟩

theorem Told.mono {fewer : Set Nat} (h : x.Told made) (hsub : fewer ⊆ made) : x.Told fewer :=
  ⟨h.toHeard.mono hsub, fun ha => (h.read ha).mono hsub⟩

/-- What the player says by choosing counts, and waits to be read. -/
theorem Told.choose (h : x.Told made) {m : Message} (hm : m.sender = .player) :
    Told (made ∪ {x.messages.length}) ⟨x.messages ++ [m], true, x.slot⟩ :=
  ⟨⟨h.sent.insert hm, h.answered.insert hm⟩, nofun⟩

end Mail

namespace World

variable {made : Set Nat} {old : Except SaveFault (Option String)} {w m : World}

/-- In the midst of an operation the slot is as it was, or what it holds was heard. -/
structure Fair (made : Set Nat) (old : Except SaveFault (Option String)) (w : World) : Prop where
  told : w.mail.Told made
  slot : w.mail.slot = old ∨ HoldsHeard made w.mail.slot

theorem Fair.mono {fewer : Set Nat} (h : w.Fair made old) (hsub : fewer ⊆ made) :
    w.Fair fewer old :=
  ⟨h.told.mono hsub, h.slot.imp id fun hk text p ht hp => (hk text p ht hp).mono hsub⟩

theorem Fair.congr (h : w.Fair made old) (hm : m.mail = w.mail) : m.Fair made old := by
  constructor
  · rw [hm]
    exact h.told
  · rw [hm]
    exact h.slot

/-- Where the last message of the player has been read, it does not matter whether it
waits to be. -/
structure AllRead (made : Set Nat) (old : Except SaveFault (Option String)) (w : World) : Prop
    extends Fair made old w where
  read : ReadBefore made w.mail.messages w.mail.messages.length

theorem AllRead.congr (h : w.AllRead made old) (hm : m.mail = w.mail) : m.AllRead made old := by
  refine ⟨h.toFair.congr hm, ?_⟩
  rw [hm]
  exact h.read

/-- A message that is none of those that count may be sent by whoever has read the others. -/
theorem Fair.append (h : w.Fair made old) {said : Message}
    (hsaid : said.sender.isNpc → ReadBefore made w.mail.messages w.mail.messages.length) :
    (w.tell (·.append said)).Fair made old := by
  obtain ⟨⟨⟨hsent, hanswered⟩, hread⟩, hslot⟩ := h
  exact ⟨⟨⟨hsent.append said, hanswered.append hsaid⟩, fun ha => (hread ha).append hsent said⟩, hslot⟩

/-- A record that is written holds what was heard. -/
theorem Fair.saved (h : w.Fair made old) : w.saved.Fair made old := by
  refine ⟨⟨h.told.toHeard, h.told.read⟩, ?_⟩
  change w.saved.slot = old ∨ HoldsHeard made w.saved.slot
  by_cases hsame : w.saved.slot = w.slot
  · rw [hsame]
    exact h.slot
  · refine .inr fun text p hslot hp => ?_
    rcases Saves.of_get_set hslot with hold | ⟨-, rfl⟩
    · exact absurd (hslot.trans hold.symm) hsame
    · have hstands := Progress.standsFor_of_parse_render hp
      exact ⟨h.told.sent.congr hstands, h.told.answered.congr hstands h.told.sent⟩

/-- Whoever reads the last message of the player has read all that counts. -/
theorem Fair.markRead (h : w.Fair made old) : AllRead made old
    (match w.engine.narrative.markRead with
      | (none, _) => w
      | (some seen, narrative) => (w.tell fun _ => narrative).emit (.read seen)) := by
  unfold Narrative.markRead
  cases hmark : markLastOfPlayer? w.engine.narrative.messages with
  | none => exact ⟨h, .of_none hmark⟩
  | some found =>
    obtain ⟨seen, messages⟩ := found
    obtain ⟨hstands, hread⟩ : _ ∧ ReadBefore made messages messages.length :=
      readBefore_of_markLastOfPlayer? hmark
    have hmarked : (w.tell fun n => { n with messages }).AllRead made old :=
      ⟨⟨⟨⟨h.told.sent.congr hstands, h.told.answered.congr hstands h.told.sent⟩,
        fun _ => hread⟩, h.slot⟩, hread⟩
    exact hmarked.congr (mail_emit _ _)

end World

namespace Act

open World

variable {α : Type} {made : Set Nat} {old : Except SaveFault (Option String)} {w : World}

theorem untimed_mail : Untimed mail := ⟨fun _ _ => rfl, fun _ _ => rfl, fun _ _ => rfl⟩

/-- What leaves the mail alone is fair. -/
theorem Fixes.fair {act : Act α} (h : Fixes mail act) : Maintains (Fair made old) act :=
  .of_fixes h fun _ _ hm hw => hw.congr hm

/-! ## Single nodes -/

theorem fair_goOn (next : Option String) : Maintains (Fair made old) (goOn next) :=
  .bind (.change fun _ h => h.congr rfl) fun _ =>
    .bind (.persist (fun _ _ h => h.congr rfl) fun _ h => h.saved) fun _ => .pure _

theorem guards_readAnswer (h : w.Fair made old) :
    Guards (Fair made old) readAnswer w fun _ => AllRead made old := by
  have hpause (f : Pacing → Window) : Fixes mail (pauseIn f) := .pauseIn untimed_mail f
  have hshown : (w.display .reading).Fair made old := h.congr (w.mail_display _)
  refine .bind (.change (.bind (((hpause _).fair _ hshown).imp fun _ m hm => ?_)))
  have hread : AllRead made old _ := hm.markRead
  refine .bind (.change (.bind (.change (.bind ?_))))
  have hidle := hread.congr (mail_display _ .idle)
  refine .of_fixes (hpause _) (fun m hm => (hidle.congr hm).toFair) fun _ m hm => .change ?_
  obtain ⟨⟨htold, hslot⟩, hall⟩ := hidle.congr hm
  exact ⟨⟨⟨htold.toHeard, fun _ => hall⟩, hslot⟩, hall⟩

/-- Before another participant delivers something, all is read. -/
theorem guards_readFirst (n : Node) (h : w.Fair made old) :
    Guards (Fair made old) (readFirst n) w fun _ m => m.Fair made old ∧
      (n.sender.isNpc → m.AllRead made old) := by
  refine .bind (.look (.ite (fun _ => ?_) fun hnot => .pure ⟨h, fun hn => ⟨h, h.told.read ?_⟩⟩))
  · exact (guards_readAnswer h).imp fun _ m hm => ⟨hm.toFair, fun _ => hm⟩
  · -- nobody has read, so nothing waited to be read
    change w.engine.narrative.flags.answered = false
    simpa [hn] using hnot

theorem fixes_prepare (n : Node) : Fixes mail (prepare n) := by
  unfold Act.prepare
  cases n.sender with
  | player => exact .pure ()
  | system => exact .bind (.drawn _) fun span => .pause untimed_mail span
  | npc name =>
    refine .bind (.drawn _) fun span => .ite (.pure ()) (.bind (.change fun w => ?_) fun _ => ?_)
    · rw [mail_play, mail_display]
    · exact .bind (.pause untimed_mail span) fun _ => .change fun w => w.mail_display .idle

theorem guards_speak (n : Node) (h : w.Fair made old)
    (hread : n.sender.isNpc → w.AllRead made old) :
    Guards (Fair made old) (speak n) w fun _ => Fair made old := by
  have hposted : ((w.tell (·.append (messageOf w n))).emit (.message (messageOf w n))).Fair
      made old := (h.append fun hn => (hread hn).read).congr (mail_emit _ _)
  exact .bind (.change (.ite (fun _ => .change (hposted.congr (mail_play _ _)))
    fun _ => .pure hposted))

theorem fair_deliver (n : Node) : Maintains (Fair made old) (deliver n) := by
  have hbehind : Fixes mail (readBehind n) :=
    .ite (.bind (.drawn _) fun span => .pause untimed_mail span) (.pure ())
  have hperform : Fixes mail (perform n.actions) := .change fun w => w.mail_acts n.actions
  have hrest : Maintains (Fair made old) (do
      readBehind n
      perform n.actions
      goOn (← look fun w => n.resolveNext w.engine.narrative.vars)) :=
    .bind hbehind.fair fun _ => .bind hperform.fair fun _ => .bind (.look _) fun _ => fair_goOn _
  intro w h
  rw [deliver_eq]
  refine .bind ((guards_readFirst n h).imp fun _ m hm => .bind ?_)
  refine .of_fixes (fixes_prepare n) (fun m' hm' => hm.1.congr hm') fun _ m' hm' => .bind ?_
  have hspoken := guards_speak n (hm.1.congr hm') fun hn => (hm.2 hn).congr hm'
  exact hspoken.imp fun _ m'' hm'' => hrest m'' hm''

theorem fixes_pretend (sender : Sender) (left : Nat) : Fixes mail (pretend sender left) := by
  induction left with
  | zero => exact .pure ()
  | succ left ih =>
    refine .bind (.change fun w => ?_) fun _ => .bind (.pauseIn untimed_mail _) fun _ => ?_
    · rw [mail_play, mail_display]
    · exact .bind (.change fun w => w.mail_display .idle) fun _ =>
        .ite (.pure ()) (.bind (.pauseIn untimed_mail _) fun _ => ih)

theorem fair_fakeTyping (n : Node) : Maintains (Fair made old) (fakeTyping n) :=
  .bind (.look _) fun cycles => .bind (fixes_pretend n.sender cycles).fair fun _ =>
    .bind (.change fun w h => h.congr (w.mail_acts n.actions)) fun _ => fair_goOn _

theorem fair_endPart (n : Node) : Maintains (Fair made old) (endPart n) := by
  -- the record is kept behind whatever was found of the next part
  have hend (title : Option String) : Maintains (Fair made old) (persist >>= fun _ =>
      change (·.emit (.partEnded n.nextPart title)) >>= fun _ => pure (Halt.partEnd n.nextPart)) :=
    .bind (.persist (fun _ _ h => h.congr rfl) fun _ h => h.saved) fun _ =>
      .bind (.change fun _ h => h.congr (mail_emit _ _)) fun _ => .pure _
  refine .bind (.change fun _ h => h.congr rfl) fun _ => ?_
  cases hpart : n.nextPart with
  | none =>
    rw [hpart] at hend
    exact .bind (.pure none) hend
  | some part =>
    rw [hpart] at hend
    refine .bind (.change fun _ h => h.congr rfl) fun _ => .bind (.look _) fun chapter => ?_
    refine .bind (Fixes.fetch untimed_mail _).fair fun found => ?_
    cases found with
    | error fault => exact .bind (.pure none) hend
    | ok graph =>
      exact .bind (.change fun _ h => h.congr rfl) fun _ =>
        .bind (.change fun _ h => h.congr rfl) fun _ => .bind (.pure _) hend

/-! ## The walk -/

/-- The step lemma: a visit is fair. -/
theorem fair_visit (id : String) : Maintains (Fair made old) (visit id) := by
  refine .bind (.look _) fun found => ?_
  cases found with
  | none => exact .pure _
  | some n =>
    refine .bind (.change fun _ h => h.congr rfl) fun _ => ?_
    cases n.kind with
    | partEnd => exact .bind (fair_endPart n) fun _ => .pure _
    | choice => exact .bind (.change fun _ h => h.congr (mail_emit _ _)) fun _ => .pure _
    | typingFake => exact .bind (fair_fakeTyping n) fun _ => .pure _
    | message | text | audio | image | other => exact .bind (fair_deliver n) fun _ => .pure _

/-- The run lemma: so is a walk. -/
theorem fair_walk (left : Nat) (id : String) : Maintains (Fair made old) (walk left id) := by
  induction left generalizing id with
  | zero => exact .stop _
  | succ left ih =>
    refine .bind (fair_visit id) fun v => ?_
    cases v with
    | halt halt => exact .pure halt
    | next id' => exact ih id'

theorem fair_advance (id : String) (force : Bool) :
    Maintains (Fair made old) (Act.advance id force) := by
  have hguarded : Maintains (Fair made old) (guardedWalk id) :=
    .bind (.change fun _ h => h.congr rfl) fun _ => .cleaning
      (.bind (.look _) fun reach => fair_walk reach id) fun w h => h.congr w.mail_settled
  have hwalk : Maintains (Fair made old) (do
      let halt ← guardedWalk id
      change (·.emit (.halted halt))
      return Walked.halted halt) :=
    .bind hguarded fun _ => .bind (.change fun _ h => h.congr (mail_emit _ _)) fun _ => .pure _
  refine .bind (.look _) fun busy => .ite (.pure _) ?_
  cases force with
  | false => exact hwalk
  | true =>
    refine .bind (.change fun w h => ?_) fun _ => hwalk
    exact h.congr (mail_display (w.tell (·.clearChoices)) .idle)

theorem fair_onward (on : Onward) : Maintains (Fair made old) on.act := by
  cases on with
  | stay walked => exact .pure walked
  | walk id force => exact .map _ (fair_advance id force)

end Act

/-! ## Counting choices -/

/-- Whether the last message of the player in a record stands at a place and is unread. -/
def Progress.Owes (p : Progress) (i : Nat) : Prop :=
  LastOfPlayer p.messages i p.messages.length ∧ ∃ m, p.messages[i]? = some m ∧ m.read = false

/-- What is counted of the choices of a conversation. -/
structure Tally where
  /-- The places of the messages that the player has sent by choosing. -/
  made : Set Nat
  /-- The places of messages that were still to be read when a record was taken up. -/
  due : Set Nat

namespace Tally

/-- Nothing was chosen yet. -/
def nothing : Tally := ⟨∅, ∅⟩

/-- The places of choices that were not due when a record was taken up. -/
def counted (t : Tally) : Set Nat := t.made \ t.due

/-- The tally behind an operation, which may have taken an option. -/
def choose (t : Tally) (op : Operation) (w : World) : Tally :=
  { t with made := t.made ∪ {i | op.taken? w ≠ none ∧ i = w.place} }

/-- The tally of a record behind an attempt to take it up: if there are no messages then it
was not taken up, and otherwise the last one of the player is due if it is unread. -/
def takenUp (t : Tally) (v v' : World) : Tally where
  made := {i ∈ t.made | i < v'.place}
  due := t.due ∪ {i | ∃ p, v.called.kept? = some p ∧ p.Owes i}

/-- What is counted of a record that an engine takes up. -/
def paid (t : Tally) (v : World) : Set Nat :=
  {i ∈ t.counted | ∀ p, v.called.kept? = some p → ¬ p.Owes i}

variable {t : Tally} {op : Operation} {v w m : World}

theorem counted_choose : (t.choose op w).counted ⊆ t.counted ∪ {w.place} := by
  rintro i ⟨hi | ⟨-, hi⟩, hdue⟩
  · exact .inl ⟨hi, hdue⟩
  · exact .inr hi

theorem counted_choose_of_none (h : op.taken? w = none) :
    (t.choose op w).counted ⊆ t.counted := by
  rintro i ⟨hi | ⟨hsome, -⟩, hdue⟩
  · exact ⟨hi, hdue⟩
  · exact absurd h hsome

theorem counted_takenUp_of_empty (h : m.mail.messages = []) : (t.takenUp v m).counted = ∅ := by
  refine Set.eq_empty_iff_forall_notMem.2 ?_
  rintro i ⟨⟨-, hlt⟩, -⟩
  exact absurd hlt (by rw [show m.place = 0 from congrArg List.length h]; exact Nat.not_lt_zero i)

theorem counted_takenUp : (t.takenUp v m).counted ⊆ t.paid v := by
  rintro i ⟨⟨hmade, -⟩, hdue⟩
  exact ⟨⟨hmade, fun h => hdue (.inl h)⟩, fun p hp ho => hdue (.inr ⟨p, hp, ho⟩)⟩

end Tally

/-! ## Operations -/

namespace Act

open World

variable {t : Tally} {op : Operation} {v w w' : World}

/-- A choice that is taken counts from its beginning. -/
theorem fair_chosen (h : w.mail.Told t.counted) (c : Choice) :
    (w.chosen c).Fair (t.choose op w).counted w.slot := by
  have htold : (w.chosen c).mail.Told (t.counted ∪ {w.place}) := by
    rw [mail_chosen]
    exact h.choose rfl
  refine ⟨htold.mono Tally.counted_choose, .inl ?_⟩
  rw [mail_chosen]

/-- Openings are fair: they leave the mail alone, or take an option. -/
theorem Prelude.fair {stops : List World} {on : Onward} (h : w.mail.Told t.counted)
    (hplays : op.Plays) (hp : Prelude w op stops v on) :
    (∀ m ∈ stops, m.Fair (t.choose op w).counted w.slot) ∧
      v.Fair (t.choose op w).counted w.slot := by
  have here (hnone : op.taken? w = none) : w.Fair (t.choose op w).counted w.slot :=
    ⟨h.mono (Tally.counted_choose_of_none hnone), .inl rfl⟩
  have chosen (c : Choice) : (w.chosen c).Fair (t.choose op w).counted w.slot := fair_chosen h c
  cases hp with
  | busy hop hb => exact ⟨List.forall_mem_nil _, here (Operation.taken?_of_isPolite _ hop)⟩
  | lostPart | lostNamed | lostStart | lostResume =>
    exact ⟨List.forall_mem_singleton.2 (here rfl), here rfl⟩
  | loadedPart | loadedNamed | started | resumed =>
    exact ⟨List.forall_mem_singleton.2 (here rfl), (here rfl).congr rfl⟩
  | nonePending | busyPending | begunPending | advance =>
    exact ⟨List.forall_mem_nil _, (here rfl).congr rfl⟩
  | refused hr => exact ⟨List.forall_mem_nil _, here (Operation.taken?_of_refused hr)⟩
  | @accepted index c hw hc hn =>
    have hgone := (chosen c).congr (m := (w.chosen c).tell (·.goTo c.next)) rfl
    exact ⟨List.forall_mem_singleton.2 hgone, hgone.saved⟩
  | @undiverted index c name fault hw hc hn hs =>
    have hgone := (chosen c).congr (m := (w.chosen c).tell (·.goTo c.next)) rfl
    exact ⟨List.forall_mem_cons.2 ⟨chosen c, List.forall_mem_singleton.2 hgone⟩, hgone.saved⟩
  | @diverted index c name d hw hc hn hs =>
    have hgone := (chosen c).congr (m := ((w.chosen c).diverted name (.ofDocument d)).at
      ((w.chosen c).diverted name (.ofDocument d)).entrance) rfl
    exact ⟨List.forall_mem_cons.2 ⟨chosen c, List.forall_mem_singleton.2 hgone⟩, hgone.saved⟩
  | unread | lostRecord | recalled | rest | resetGame | setPlayerName => cases hplays

/-- The step lemma: whatever an operation that plays on leaves behind is fair. -/
theorem Leaves.fair (hl : Leaves op.run w w') (hplays : op.Plays)
    (h : w.mail.Told t.counted) : w'.Fair (t.choose op w).counted w.slot := by
  refine hl.keeps (fun _ _ hm => hm.congr rfl) fun stops v on hp => ?_
  obtain ⟨hstops, hv⟩ := Prelude.fair h hplays hp
  exact ⟨hstops, fun q => fair_onward on _ (hv.congr rfl)⟩

/-- A record that is taken up without the flag is fair to all that is not due. -/
theorem fair_recalled {p : Progress} (hk : HoldsHeard t.counted v.slot)
    (hp : v.called.kept? = some p) : (v.called.recalled p).Fair (t.paid v) v.slot := by
  obtain ⟨text, hslot, hparse⟩ := exists_text_of_kept?_called hp
  have hheard : Heard (t.paid v) p.messages := (hk text p hslot hparse).mono fun i hi => hi.1
  have hread : ReadBefore (t.paid v) p.messages p.messages.length := by
    intro i m hi hlast hm
    cases hr : m.read with
    | true => rfl
    | false => exact absurd ⟨hlast, m, hm, hr⟩ (hi.2 p hp)
  have hmail : (v.called.recalled p).mail = { v.mail with messages := p.messages } := by
    rw [mail_recalled, mail_called]
  constructor
  · rw [hmail]
    exact ⟨hheard, fun _ => hread⟩
  · rw [hmail]
    exact .inl rfl

/-- A fresh engine that takes up a record is fair to all in it that is not due. -/
theorem Leaves.fair_resumeSaved (hl : Leaves Operation.resumeSaved.run v w')
    (hnone : v.mail.messages = []) (hk : HoldsHeard t.counted v.slot) :
    w'.Fair (t.takenUp v w').counted v.slot := by
  -- before the record was taken up there is nothing to be counted
  have hempty {m : World} (hm : m.mail = v.mail) : m.Fair (t.takenUp v m).counted v.slot := by
    rw [Tally.counted_takenUp_of_empty (by rw [hm, hnone])]
    refine ⟨.of_empty _, .inl ?_⟩
    rw [hm]
    rfl
  have hpaid (m : World) (hm : m.Fair (t.paid v) v.slot) :
      m.Fair (t.takenUp v m).counted v.slot := hm.mono Tally.counted_takenUp
  refine hl.keeps (I := fun m => m.Fair (t.takenUp v m).counted v.slot)
    (fun _ _ hm => hm.congr rfl) fun stops m on hp => ?_
  cases hp with
  | busy => exact ⟨List.forall_mem_nil _, fun q => .pure (hempty rfl)⟩
  | unread hb hnone =>
    refine ⟨List.forall_mem_cons.2 ⟨hempty rfl, List.forall_mem_singleton.2
      (hempty v.mail_called)⟩, fun q => .pure (hempty ?_)⟩
    rw [mail_under, mail_asked, mail_called]
  | lostRecord hb hp hs =>
    have hfair := fair_recalled hk hp
    exact ⟨List.forall_mem_cons.2 ⟨hempty rfl, List.forall_mem_cons.2 ⟨hempty v.mail_called,
      List.forall_mem_singleton.2 (hpaid _ hfair)⟩⟩, fun q => .pure (hpaid _ (hfair.congr rfl))⟩
  | @recalled p d hb hp hs =>
    have hfair := fair_recalled hk hp
    refine ⟨List.forall_mem_cons.2 ⟨hempty rfl, List.forall_mem_cons.2 ⟨hempty v.mail_called,
      List.forall_mem_singleton.2 (hpaid _ hfair)⟩⟩, fun q => ?_⟩
    have hopened := hfair.congr (mail_opened _ p.script (.ofDocument d))
    exact ((fair_onward _ _ (hopened.congr (mail_under _ q))).weaken hpaid).imp fun _ => hpaid

end Act

/-! ## Runs -/

namespace World

/-- The worlds of a run in which the story is played on and the engine may be replaced by a
fresh one that takes up the record, with the tally of the conversation and that of the
record in the slot. What was in the slot before the run does not count. An operation is done
to its end or left at any suspension point. -/
inductive Chats : World → Tally → Tally → Prop where
  | fresh {w : World} {config : Config} {interrupts : List Interrupt}
      {listening audible : Bool} :
      w.engine = .fresh config interrupts listening audible → Chats w .nothing .nothing
  | step {w w' : World} {told kept : Tally} {op : Operation} : Chats w told kept → op.Plays →
      Act.Leaves op.run w w' →
      Chats w' (told.choose op w) (if w'.slot = w.slot then kept else told.choose op w)
  | renewed {w v v' : World} {told kept : Tally} {config : Config} {interrupts : List Interrupt}
      {listening audible : Bool} : Chats w told kept →
      v.engine = .fresh config interrupts listening audible →
      config.progressKey = w.engine.config.progressKey → v.saves.medium = w.saves.medium →
      Act.Leaves Operation.resumeSaved.run v v' →
      Chats v' (kept.takenUp v v') (if v'.slot = w.slot then kept else kept.takenUp v v')

variable {w : World} {told kept : Tally}

theorem Chats.heard (h : w.Chats told kept) :
    w.mail.Told told.counted ∧ HoldsHeard kept.counted w.slot := by
  -- what the slot holds behind an operation it held before, or it was written in it
  have hslot {made : Set Nat} {t t' : Tally} {m m' : World} (hfair : m'.Fair made m.slot)
      (hmade : made = t'.counted) (hk : HoldsHeard t.counted m.slot) :
      HoldsHeard (if m'.slot = m.slot then t else t').counted m'.slot := by
    split
    · next he =>
      rw [he]
      exact hk
    · next hne =>
      rw [← hmade]
      exact hfair.slot.resolve_left hne
  induction h with
  | fresh =>
    have hnone : Tally.nothing.counted ⊆ ∅ := fun _ hi => hi.1
    exact ⟨(Mail.Told.of_empty _).mono hnone, fun _ _ _ _ => (Heard.of_empty _).mono hnone⟩
  | step _ hplays hl ih =>
    obtain ⟨htold, hk⟩ := ih
    have hfair := hl.fair hplays htold
    exact ⟨hfair.told, hslot hfair rfl hk⟩
  | @renewed w v v' told kept config interrupts listening audible _ he hkey hmedium hl ih =>
    obtain ⟨-, hk⟩ := ih
    have hsame : v.slot = w.slot := by
      rw [slot, hmedium, he, slot]
      exact congrArg _ hkey
    have hnone : v.mail.messages = [] := by
      change v.engine.narrative.messages = []
      rw [he]
      rfl
    rw [← hsame] at hk
    have hfair := hl.fair_resumeSaved hnone hk
    refine ⟨hfair.told, ?_⟩
    rw [← hsame]
    exact hslot hfair rfl hk

/-- In every run (`Chats`), what another participant says comes after the player's last choice
before it was read, unless that choice was due to be read when a record was taken up. -/
theorem Chats.read_before_answer (h : w.Chats told kept) {i j : Nat} {choice answer : Message}
    (hi : i ∈ told.made) (hdue : i ∉ told.due)
    (hanswer : w.engine.narrative.messages[j]? = some answer) (hn : answer.sender.isNpc)
    (hlast : LastOfPlayer w.engine.narrative.messages i j)
    (hchoice : w.engine.narrative.messages[i]? = some choice) : choice.read = true :=
  h.heard.1.answered j answer hanswer hn i choice ⟨hi, hdue⟩ hlast hchoice

end World

/-! ### A night between choice and answer -/

/-- A script in which the player takes leave, and the part is over. -/
def Document.parting : Document :=
  ⟨none, [
    { Node.message "start" .player "" with
      kind := .choice, choices := [⟨"Good night", some "end", .empty⟩] },
    { Node.message "end" .system "" with kind := .partEnd, nextPart := some 2 }]⟩

/-- A script in which somebody answers. -/
def Document.greeting : Document := ⟨none, [.message "start" (.npc "Ana") "Good morning"]⟩

/-- The story of these two parts. -/
def Shelf.parting : Shelf := fun id =>
  .ok (if id = .part 1 1 then .parting else .greeting)

namespace World

/-- A fresh engine over that story that finds the slots of another world. -/
def reopening (w : World) : World :=
  { World.opening .parting with saves := .reliable w.saves.medium }

/-- The world in which the player may take leave. -/
def asking : World :=
  Act.Outcome.left (Operation.run (.startChapter 1 1) ((World.opening .parting).under .endless))

/-- The world in which the player has taken leave and the next part waits. -/
def parted : World := Act.Outcome.left (Operation.run (.choose 0) (asking.under .endless))

/-- The world behind the answer. -/
def greeted (w : World) : World := Act.Outcome.left (Operation.run .beginPending (w.under .endless))

/-- The world in which a fresh engine has taken up a record of the second part. -/
def renewing (w : World) : World :=
  ((w.reopening.called.recalled w.engine.narrative.snapshot).opened (.part 1 2)
    (.ofDocument .greeting)).under .endless

/-- The choice is counted, in the conversation and in the record. -/
theorem chats_parted : ∃ told, parted.Chats told told ∧ 0 ∈ told.made ∧ 0 ∉ told.due := by
  have hstart : Operation.run (.startChapter 1 1) ((World.opening .parting).under .endless) =
      .ok (some (.halted .awaitingChoice)) asking := Act.eq_ok_of_result (by decide +kernel)
  have hchoose : Operation.run (.choose 0) (asking.under .endless) =
      .ok (some (.halted (.partEnd (some 2)))) parted := Act.eq_ok_of_result (by decide +kernel)
  have hopening : (World.opening .parting).Chats .nothing .nothing := .fresh rfl
  have hparted := (hopening.step rfl (.ended hstart)).step rfl (.ended hchoose)
  have hwritten : parted.slot ≠ asking.slot := nofun
  rw [if_neg hwritten] at hparted
  refine ⟨_, hparted, .inr ⟨?_, ?_⟩, not_false⟩
  · decide +kernel
  · decide +kernel

/-- A record without a position is taken up, and nothing else is done. -/
theorem leaves_renewing {w : World}
    (hget : (w.reopening.called.saves.get w.reopening.called.engine.config.progressKey).1 =
      .ok (some w.engine.narrative.snapshot.render))
    (hread : Progress.ofJson? w.engine.narrative.snapshot.toJson = some w.engine.narrative.snapshot)
    (hscript : w.engine.narrative.snapshot.script = .part 1 2)
    (hnode : w.engine.narrative.snapshot.currentNode = none) :
    w.reopening.called.kept? = some w.engine.narrative.snapshot ∧
      Act.Leaves Operation.resumeSaved.run w.reopening w.renewing := by
  have hparse : Progress.parse w.engine.narrative.snapshot.render =
      .ok w.engine.narrative.snapshot := by
    rw [Progress.parse_render_eq, hread]
    rfl
  have hk : w.reopening.called.kept? = some w.engine.narrative.snapshot := by
    rw [kept?, hget]
    dsimp only
    rw [hparse]
    rfl
  have hs : w.reopening.shelf w.engine.narrative.snapshot.script = .ok .greeting := by
    rw [hscript]
    rfl
  have hrun := (Act.Comes.map (fun r : Except LoadFault (Option Walked) => r.toOption.join)
    (Act.comes_resumeSaved rfl hk hs)).whole
  rw [hscript, hnode] at hrun
  exact ⟨hk, .ended hrun⟩

/-- Two messages, of the player and of somebody else. -/
theorem exists_answer (ms : List Message) (read read' : Bool)
    (h : ms.map (fun m => (m.sender, m.read)) = [(.player, read), (.npc "Ana", read')]) :
    ∃ choice answer, ms[0]? = some choice ∧ ms[1]? = some answer ∧ choice.read = read ∧
      answer.sender.isNpc ∧ Message.LastOfPlayer ms 0 1 := by
  obtain ⟨choice, rest, rfl, hchoice, hrest⟩ := List.map_eq_cons_iff.1 h
  obtain ⟨answer, none, rfl, hanswer, hnone⟩ := List.map_eq_cons_iff.1 hrest
  obtain ⟨hplayer, hread⟩ := Prod.mk.inj hchoice
  refine ⟨choice, answer, rfl, rfl, hread, ?_, Nat.zero_lt_one, ⟨choice, rfl, hplayer⟩, ?_⟩
  · rw [(Prod.mk.inj hanswer).1]
    rfl
  · intro k m hk hk'
    omega

set_option maxRecDepth 4000 in
/-- The player has taken leave, was answered, and an engine has taken up the record of
that. -/
theorem Chats.read_before_answer_parting : ∃ (w : World) (told kept : Tally)
    (choice answer : Message), w.Chats told kept ∧ 0 ∈ told.made ∧ 0 ∉ told.due ∧
    w.engine.narrative.messages[1]? = some answer ∧ answer.sender.isNpc ∧
    Message.LastOfPlayer w.engine.narrative.messages 0 1 ∧
    w.engine.narrative.messages[0]? = some choice ∧ choice.read = true := by
  obtain ⟨told, hparted, hmade, hdue⟩ := chats_parted
  have hbegin : Operation.run .beginPending (parted.under .endless) =
      .ok (some (.halted .endOfScript)) parted.greeted := Act.eq_ok_of_result (by decide +kernel)
  have hslot : (parted.greeted.reopening.called.saves.get
      parted.greeted.reopening.called.engine.config.progressKey).1 =
      .ok (some parted.greeted.engine.narrative.snapshot.render) := rfl
  obtain ⟨hkept, hleaves⟩ := leaves_renewing (w := parted.greeted) hslot
    (by decide +kernel) (by decide +kernel) (by decide +kernel)
  have hplays : Operation.beginPending.Plays := rfl
  have hgreeted := hparted.step hplays (.ended hbegin)
  have hrenewed := hgreeted.renewed (v := parted.greeted.reopening) rfl (by decide +kernel) rfl
    hleaves
  obtain ⟨choice, answer, hfirst, hsecond, hread, hn, hlast⟩ := exists_answer
    parted.greeted.renewing.engine.narrative.messages true false (by decide +kernel)
  -- the choice was read when the record was written, and so nothing is due
  have hpaid : ¬ ∃ p, parted.greeted.reopening.called.kept? = some p ∧ p.Owes 0 := by
    rintro ⟨p, hp, -, m, hm, hunread⟩
    rw [hkept] at hp
    cases hp
    have hsame : parted.greeted.engine.narrative.snapshot.messages[0]? = some choice := hfirst
    rw [hsame] at hm
    cases hm
    rw [hread] at hunread
    cases hunread
  generalize hkeeps : (if parted.greeted.slot = parted.slot then told
    else told.choose .beginPending parted) = keeps at hrenewed
  have hcounted : 0 ∈ keeps.made ∧ 0 ∉ keeps.due := by
    rw [← hkeeps]
    split
    · exact ⟨hmade, hdue⟩
    · exact ⟨.inl hmade, hdue⟩
  have hmade' : 0 ∈ (keeps.takenUp parted.greeted.reopening parted.greeted.renewing).made :=
    ⟨hcounted.1, by decide +kernel⟩
  have hdue' : 0 ∉ (keeps.takenUp parted.greeted.reopening parted.greeted.renewing).due :=
    fun h => h.elim hcounted.2 hpaid
  exact ⟨_, _, _, choice, answer, hrenewed, hmade', hdue', hsecond, hn, hlast, hfirst,
    hrenewed.read_before_answer hmade' hdue' hsecond hn hlast hfirst⟩

/-- The record takes the choice up unread, and so the answer finds it. -/
theorem not_read_of_parted : ¬ ∀ (w : World) (told kept : Tally) (i j : Nat)
    (choice answer : Message), w.Chats told kept → i ∈ told.made →
    w.engine.narrative.messages[j]? = some answer → answer.sender.isNpc →
    Message.LastOfPlayer w.engine.narrative.messages i j →
    w.engine.narrative.messages[i]? = some choice → choice.read = true := by
  intro h
  obtain ⟨told, hparted, hmade, -⟩ := chats_parted
  obtain ⟨-, hleaves⟩ := leaves_renewing (w := parted) rfl (by decide +kernel) (by decide +kernel)
    (by decide +kernel)
  have hrenewed := hparted.renewed (v := parted.reopening) rfl (by decide +kernel) rfl hleaves
  have hbegin : Operation.run .beginPending (parted.renewing.under .endless) =
      .ok (some (.halted .endOfScript)) parted.renewing.greeted :=
    Act.eq_ok_of_result (by decide +kernel)
  have hplays : Operation.beginPending.Plays := rfl
  have hgreeted := hrenewed.step hplays (.ended hbegin)
  obtain ⟨choice, answer, hfirst, hsecond, hunread, hn, hlast⟩ := exists_answer
    parted.renewing.greeted.engine.narrative.messages false false (by decide +kernel)
  have hread := h _ _ _ 0 1 choice answer hgreeted (.inl ⟨hmade, by decide +kernel⟩)
    hsecond hn hlast hfirst
  rw [hunread] at hread
  cases hread

end World
end StoryChat
