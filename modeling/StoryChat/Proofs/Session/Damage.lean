/-
What damaged saves do to a session.

A session must be playable whatever is in the two slots it finds. That the record is no record,
or one of a script that is gone, does not hurt it: the record is looked at in two places
(`Act.showRecord`, `Act.resumeSession`), and both make nothing of what they cannot read. So all
that is needed of the world is that the slots can be written, and that the part is there with
which a new story starts. From there on no line but the one that starts over can end a session
in a fault, since whatever else fails is told on the screen.

There is one thing that the two places see differently. A file whose bytes are no text is no
record for the engine, but for the screen it is a fault.
-/
import StoryChat.Proofs.Engine.Completion
import StoryChat.Proofs.Session.Beginning

set_option autoImplicit false

namespace StoryChat

/-- A session keeps the usual pace, but for its scale. -/
theorem Options.inOrder (o : Options) : o.config.pacing.InOrder where
  text := Nat.le_of_ble_eq_true rfl
  system := Nat.le_of_ble_eq_true rfl
  autoRead := Nat.le_of_ble_eq_true rfl

namespace World

/-- Whether a session with these options can be played, whatever is in the slots: they can be
written, and the part is there with which a new story starts. -/
structure Hosts (w : World) (o : Options) : Prop where
  engine : w.engine = o.engine
  progress : w.saves.Willing w.engine.config.progressKey
  name : w.saves.Willing w.engine.config.nameKey
  part : ∃ d, w.shelf (.part o.chapter o.part) = .ok d

/-- Whether nothing can be made of the record in its slot: it is not there or no record, or its
script cannot be had. -/
def Unusable (w : World) : Prop :=
  ∀ text p, w.saves.medium.get w.engine.config.progressKey = .ok (some text) →
    Progress.parse text = .ok p → ∃ fault, w.shelf p.script = .error fault

/-- The world after lines were printed. -/
def printed (w : World) (lines : List String) : World :=
  lines.foldl (fun w line => w.note (.line line)) w

variable {w m : World} {o : Options}

@[simp] theorem engine_printed (w : World) (lines : List String) :
    (w.printed lines).engine = w.engine := by
  induction lines generalizing w with
  | nil => rfl
  | cons line rest ih => exact ih (w.note (.line line))

@[simp] theorem saves_printed (w : World) (lines : List String) :
    (w.printed lines).saves = w.saves := by
  induction lines generalizing w with
  | nil => rfl
  | cons line rest ih => exact ih (w.note (.line line))

@[simp] theorem setting_printed (w : World) (lines : List String) :
    (w.printed lines).setting = w.setting := by
  induction lines generalizing w with
  | nil => rfl
  | cons line rest ih => exact ih (w.note (.line line))

theorem printed_under (w : World) (lines : List String) (p : Patience) :
    (w.under p).printed lines = (w.printed lines).under p := by
  induction lines generalizing w with
  | nil => rfl
  | cons line rest ih => exact ih (w.note (.line line))

theorem Hosts.config (h : w.Hosts o) : w.engine.config = o.config := by
  rw [h.engine]
  rfl

theorem Hosts.narrative (h : w.Hosts o) : w.engine.narrative = .fresh o.config.schema := by
  rw [h.engine]
  rfl

theorem Hosts.idle (h : w.Hosts o) : w.engine.narrative.flags.processing = false := by
  rw [h.narrative]
  rfl

theorem Hosts.inOrder (h : w.Hosts o) : w.engine.config.pacing.InOrder := by
  rw [h.config]
  exact o.inOrder

/-- Nothing but the slots and the setting matters for whether a session can be played. -/
theorem Hosts.of_eq (h : w.Hosts o) (he : m.engine = w.engine)
    (hs : ∀ key, w.saves.Willing key → m.saves.Willing key) (hset : m.setting = w.setting) :
    m.Hosts o where
  engine := he.trans h.engine
  progress := by
    rw [he]
    exact hs _ h.progress
  name := by
    rw [he]
    exact hs _ h.name
  part := by
    rw [shelf_eq_of_setting hset]
    exact h.part

theorem Hosts.printed (h : w.Hosts o) (lines : List String) : (w.printed lines).Hosts o :=
  h.of_eq (w.engine_printed lines) (fun _ hk => by rwa [saves_printed]) (w.setting_printed lines)

theorem Hosts.asked (h : w.Hosts o) (key : String) : (w.asked key).Hosts o :=
  h.of_eq rfl (fun _ hk => hk.get key) rfl

theorem Hosts.wiped (h : w.Hosts o) : ((w.cleared.emptied w.engine.config.progressKey).emptied
    w.engine.config.nameKey).Hosts o := by
  refine h.of_eq ?_ (fun _ hk => (hk.remove _).remove _) rfl
  change Engine.mk _ _ _ _ _ _ = _
  rw [h.engine]
  rfl

theorem Unusable.of_eq (h : w.Unusable) (he : m.engine.config = w.engine.config)
    (hm : m.saves.medium = w.saves.medium) (hs : m.shelf = w.shelf) : m.Unusable := by
  unfold Unusable
  rw [he, hm, hs]
  exact h

end World

namespace Act

variable {α β : Type} {c : Setting} {o : Options}

/-! ## Lines -/

/-- Whether an operation completes wherever the setting is the given one and leaves it so, with
a result as `P` says. -/
def CompletesIn (c : Setting) (act : Act α) (P : α → Prop) : Prop :=
  ∀ w : World, w.setting = c → Completes act w fun a v => P a ∧ v.setting = c

namespace CompletesIn

variable {P : α → Prop} {act : Act α}

theorem pure {a : α} (h : P a) : CompletesIn c (pure a) P := fun _ hw => .pure ⟨h, hw⟩

theorem look {f : World → α} (hf : ∀ w p, f (w.under p) = f w) :
    CompletesIn c (look f) fun _ => True := fun _ hw => .look (hf _) ⟨trivial, hw⟩

theorem bind {Q : β → Prop} {first : Act β} {next : β → Act α} (h : CompletesIn c first Q)
    (h' : ∀ b, Q b → CompletesIn c (next b) P) : CompletesIn c (first >>= next) P :=
  fun w hw => (h w hw).bind fun b v hv => h' b hv.1 v hv.2

theorem ite {p : Prop} [Decidable p] {act' : Act α} (h : CompletesIn c act P)
    (h' : CompletesIn c act' P) : CompletesIn c (if p then act else act') P :=
  fun w hw => .ite (fun _ => h w hw) fun _ => h' w hw

/-- An operation of the engine, up to what is made of its result. -/
theorem operation (hp : c.config.pacing.InOrder) (op : Operation) {f : α → Option Walked}
    (h : op.run = f <$> act) : CompletesIn c act fun _ => True := by
  intro w hw
  have hpw : w.engine.config.pacing.InOrder := by
    rw [← hw] at hp
    exact hp
  have hrun := Operation.completes hpw op
  rw [h] at hrun
  exact hrun.of_map.imp fun _ _ _ hv => ⟨trivial, hv.trans hw⟩

end CompletesIn

theorem completesIn_say (lines : List String) : CompletesIn c (say lines) fun _ => True :=
  fun w hw => .change (w.printed_under lines) ⟨trivial, (w.setting_printed lines).trans hw⟩

theorem completesIn_announcePending (hp : c.config.pacing.InOrder) :
    CompletesIn c announcePending fun _ => True :=
  .bind (.look fun _ _ => rfl) fun heading _ => .bind (completesIn_say [heading]) fun _ _ =>
    .bind (.operation hp .beginPending (id_map _).symm) fun _ _ => .pure trivial

theorem completesIn_answerWith (hp : c.config.pacing.InOrder) (word : String) :
    CompletesIn c (answerWith word) fun _ => True := by
  refine .bind (.look fun _ _ => rfl) fun waiting _ => .ite (completesIn_say _) ?_
  cases choiceIndex? word with
  | none => exact completesIn_say _
  | some index =>
    refine .bind (.operation hp (.choose index) rfl) fun chosen _ => ?_
    cases chosen with
    | invalidIndex _ => exact .bind (.look fun _ _ => rfl) fun _ _ => completesIn_say _
    | _ => exact .pure trivial

theorem completesIn_rename (hp : c.config.pacing.InOrder) (name : String) :
    CompletesIn c (rename name) fun _ => True := by
  refine .ite (completesIn_say _) ?_
  refine .bind (.operation hp (.setPlayerName name) rfl) fun result _ => ?_
  cases result with
  | error fault => exact completesIn_say _
  | ok _ => exact .bind (.look fun _ _ => rfl) fun _ _ => completesIn_say _

theorem completesIn_thenPlay {act : Act Unit} (h : CompletesIn c act fun _ => True) :
    CompletesIn c (thenPlay act) fun r => r = .ok .playing ∨ r = .ok .over :=
  .bind h fun _ _ => .pure (.inl rfl)

/-- No command but the one that starts over can fail. -/
theorem completesIn_obey (hp : c.config.pacing.InOrder) {command : Command}
    (hc : command ≠ .reset) :
    CompletesIn c (obey o command) fun r => r = .ok .playing ∨ r = .ok .over := by
  cases command with
  | nothing => exact completesIn_thenPlay (.pure trivial)
  | quit => exact .bind (completesIn_say _) fun _ _ => .pure (.inr rfl)
  | status | history =>
    exact completesIn_thenPlay (.bind (.look fun _ _ => rfl) fun _ _ => completesIn_say _)
  | choices =>
    exact completesIn_thenPlay (.bind (.look fun _ _ => rfl) fun _ _ => completesIn_say _)
  | begin =>
    exact completesIn_thenPlay (.bind (.look fun _ _ => rfl) fun _ _ =>
      .ite (completesIn_announcePending hp) (completesIn_say _))
  | name name => exact completesIn_thenPlay (completesIn_rename hp name)
  | reset => exact absurd rfl hc
  | help | unknown => exact completesIn_thenPlay (completesIn_say _)
  | answer word => exact completesIn_thenPlay (completesIn_answerWith hp word)

/-- A session that has come so far as to be played ends well. -/
theorem completesIn_enterLines (hp : c.config.pacing.InOrder) {lines : List String}
    (hl : ∀ line ∈ lines, Command.ofLine line ≠ .reset) {stage : Stage}
    (hs : stage = .playing ∨ stage = .over) :
    CompletesIn c (enterLines o stage lines) fun r => r = .ok () := by
  induction lines generalizing stage with
  | nil =>
    rcases hs with rfl | rfl
    · exact .pure rfl
    · exact .pure rfl
  | cons line rest ih =>
    obtain ⟨hline, hrest⟩ := List.forall_mem_cons.1 hl
    rcases hs with rfl | rfl
    · refine .ite (.pure rfl) (.bind (completesIn_obey hp hline) fun r hr => ?_)
      rcases hr with rfl | rfl
      · exact ih hrest (.inl rfl)
      · exact ih hrest (.inr rfl)
    · exact .ite (.pure rfl) (.bind (.pure rfl) fun r hr => hr ▸ ih hrest (.inr rfl))

/-! ## Opening -/

variable {w m : World} {name : String}

theorem path_say (lines : List String) (w : World) :
    Path (say lines) w [] (.ok () (w.printed lines)) := .change (w.printed_under lines)

/-- What is to be wiped can be wiped, and then there is no record any more. -/
theorem path_wipeIf (h : w.Hosts o) : ∃ stops m, Path (wipeIf o.fresh) w stops (.ok (.ok ()) m) ∧
    m.Hosts o ∧ m.setting = w.setting ∧ (o.fresh = false → m = w) ∧
    (o.fresh = true → m.saves.medium.get m.engine.config.progressKey = .ok none) := by
  cases o.fresh with
  | false => exact ⟨[], w, .pure _ w, h, rfl, fun _ => rfl, nofun⟩
  | true =>
    have hdone : w.emptying = .ok () := by
      rw [World.emptying, h.progress.remove_fst]
      exact (h.name.remove _).remove_fst
    have hreset := Path.resetGame w
    rw [hdone] at hreset
    refine ⟨_, _, hreset, h.wiped, rfl, nofun, fun _ => ?_⟩
    change ((w.saves.remove _).2.remove _).2.medium.get _ = _
    rw [(h.name.remove _).medium_remove, h.progress.medium_remove]
    exact SlotMedium.get_remove_of_none (SlotMedium.get_remove h.progress.takes.remove_fst) _

/-- A record that is a text is shown as far as it can be read. -/
theorem path_showRecord {text? : Option String} (h : w.Hosts o)
    (ht : w.saves.medium.get w.engine.config.progressKey = .ok text?) : ∃ lines,
    Path showRecord w [w] (.ok (.ok ()) ((w.asked w.engine.config.progressKey).printed lines)) := by
  have hget := Path.getSlot w.engine.config.progressKey w
  rw [Saves.get_of_refusal h.progress.refusal, ht] at hget
  unfold showRecord
  cases text? with
  | none => exact ⟨[], .seq (.look fun _ => rfl) (.cons hget (.pure _ _))⟩
  | some text =>
    cases hp : Progress.parse text with
    | error fault =>
      refine ⟨[], .seq (.look fun _ => rfl) (.cons hget ?_)⟩
      simp only [hp]
      exact .pure _ _
    | ok p =>
      refine ⟨recap p, .seq (.look fun _ => rfl) (.cons hget ?_)⟩
      simp only [hp]
      exact .seq (path_say _ _) (.pure _ _)

/-- One that is no text ends the session. -/
theorem path_showRecord_error {fault : SaveFault} (h : w.Hosts o)
    (hf : w.saves.medium.get w.engine.config.progressKey = .error fault) :
    Path showRecord w [w] (.ok (.error fault) (w.asked w.engine.config.progressKey)) := by
  have hget := Path.getSlot w.engine.config.progressKey w
  rw [Saves.get_of_refusal h.progress.refusal, hf] at hget
  exact .seq (.look fun _ => rfl) (.cons hget (.pure _ _))

/-- A new story starts where the player's name can be kept and the part is there. -/
theorem newStory_apply (hb : w.engine.narrative.flags.processing = false)
    (hname : w.saves.Willing w.engine.config.nameKey)
    (hpart : ∃ d, w.shelf (.part o.chapter o.part) = .ok d) :
    newStory o name (w.under .endless) =
      ((fun _ => .ok .playing) <$> startChapter o.chapter o.part)
        (((w.named name).put w.engine.config.nameKey (Text.trim name)).under .endless) := by
  obtain ⟨d, hd⟩ := hpart
  have hset := Path.setPlayerName name w
  have hdone : ((w.named name).saves.set w.engine.config.nameKey (Text.trim name)).1 = .ok () :=
    hname.set_fst _
  rw [hdone] at hset
  have hstart := comes_startChapter
    (w := (w.named name).put w.engine.config.nameKey (Text.trim name)) hb hd
  unfold newStory
  rw [bind_apply, hset.whole]
  change (startChapter o.chapter o.part >>= _ : Act (Except SessionFault Stage)) _ = _
  rw [bind_apply, map_apply, hstart.whole, map_apply]
  cases Act.advance _ false _ <;> rfl

/-- Wherever a session comes to a new story, it can be played as before. -/
theorem BeginsAnew.ready {r : Resumed} (h : BeginsAnew w r m) (hw : w.Hosts o) :
    m.engine.narrative.flags.processing = false ∧ m.setting = w.setting ∧
      m.saves.Willing m.engine.config.nameKey := by
  have hflags : w.called.engine.narrative.flags.processing = false := by
    rw [World.flags_called, hw.idle]
  have hcalled : w.called.saves.Willing w.engine.config.nameKey := by
    constructor
    · rw [World.refusal_called]
      exact hw.name.refusal
    · rw [World.medium_called]
      exact hw.name.takes
  -- in all three cases only the records and the story have changed
  cases h with
  | unread hk =>
    refine ⟨hflags, w.setting_called, ?_⟩
    rw [World.engine_asked, World.config_called]
    exact hcalled.get _
  | @lost p fault hk hs =>
    refine ⟨rfl, w.setting_called, ?_⟩
    change Saves.Willing _ w.called.engine.config.nameKey
    rw [World.config_called]
    exact ((hcalled.get _).remove _).remove _
  | @adrift p d hk hs hadrift =>
    have hset : ((w.called.recalled p).opened p.script (.ofDocument d)).setting = w.setting := by
      rw [World.setting_opened, World.setting_recalled, World.setting_called]
    refine ⟨?_, hset, ?_⟩
    · rw [World.flags_opened, World.flags_recalled, hflags]
    · rw [World.config_eq_of_setting hset, World.saves_opened]
      exact hcalled.get _

theorem completesIn_resumeSession (hp : c.config.pacing.InOrder) :
    CompletesIn c resumeSession fun _ => True := by
  refine .bind (.operation hp .resumeSaved rfl) fun result _ => ?_
  match result with
  | .error _ => exact .bind (.operation hp .resetGame rfl) fun _ _ => .pure trivial
  | .ok (some _) => exact .pure trivial
  | .ok none =>
    exact .bind (.look fun _ _ => rfl) fun n _ =>
      .ite (.pure trivial) (.ite (.pure trivial) (.pure trivial))

theorem completes_newStory (hp : w.engine.config.pacing.InOrder)
    (hb : w.engine.narrative.flags.processing = false)
    (hname : w.saves.Willing w.engine.config.nameKey)
    (hpart : ∃ d, w.shelf (.part o.chapter o.part) = .ok d) :
    Completes (newStory o name) w fun r v => r = .ok .playing ∧ v.setting = w.setting := by
  have hstart := CompletesIn.operation (c := w.setting) hp (.startChapter o.chapter o.part)
    (f := Except.toOption) rfl ((w.named name).put w.engine.config.nameKey (Text.trim name)) rfl
  have hmap : Completes ((fun _ => .ok .playing) <$> startChapter o.chapter o.part)
      ((w.named name).put w.engine.config.nameKey (Text.trim name))
      fun r v => r = (.ok .playing : Except SessionFault Stage) ∧ v.setting = w.setting :=
    hstart.bind fun _ _ hv => .pure ⟨rfl, hv.2⟩
  unfold Completes
  rw [newStory_apply hb hname hpart]
  exact hmap

/-- Wherever a session comes to after it looked for a record, a new story can start if one
has to. -/
theorem completes_resumeSession (hw : w.Hosts o) : Completes resumeSession w fun r v =>
    v.setting = w.setting ∧ (r = .newStory ∨ r = .wiped →
      v.engine.narrative.flags.processing = false ∧
        v.saves.Willing v.engine.config.nameKey) := by
  refine (completesIn_resumeSession hw.inOrder w rfl).imp fun r v hrun hv => ⟨hv.2, fun hr => ?_⟩
  obtain ⟨m, hm, hanew⟩ := beginsAnew_of_resumeSession hw.idle hrun hr
  have hengine : v.engine = m.engine := (congrArg World.engine hm :)
  have hsaves : v.saves = m.saves := (congrArg World.saves hm :)
  obtain ⟨hflags, -, hwilling⟩ := hanew.ready hw
  rw [hengine, hsaves]
  exact ⟨hflags, hwilling⟩

/-- A new story starts if the player's name is given. -/
theorem completes_newStoryOrAsk (hw : w.Hosts o) (hname : o.name = some name)
    (hset : m.setting = w.setting) (hb : m.engine.narrative.flags.processing = false)
    (hwilling : m.saves.Willing m.engine.config.nameKey) :
    Completes (newStoryOrAsk o) m fun r v => r = .ok .playing ∧ v.setting = w.setting := by
  have hp : m.engine.config.pacing.InOrder := by
    rw [World.config_eq_of_setting hset]
    exact hw.inOrder
  have hpart : ∃ d, m.shelf (.part o.chapter o.part) = .ok d := by
    rw [World.shelf_eq_of_setting hset]
    exact hw.part
  unfold newStoryOrAsk
  rw [hname]
  exact (completes_newStory hp hb hwilling hpart).imp fun _ _ _ h => ⟨h.1, h.2.trans hset⟩

/-- Whatever the record was, a session that has shown it goes on to be played. -/
theorem completes_takeUp (hw : w.Hosts o) (hname : o.name = some name) :
    Completes (takeUp o) w fun r v => r = .ok .playing ∧ v.setting = w.setting := by
  refine (completes_resumeSession hw).bind fun r v hv => ?_
  obtain ⟨hset, hnew⟩ := hv
  cases r with
  | continued => exact .pure ⟨rfl, hset⟩
  | pendingPart =>
    have hpending := completesIn_announcePending (c := w.setting) hw.inOrder v hset
    exact hpending.bind fun _ _ h => .pure ⟨rfl, h.2⟩
  | ended => exact (completesIn_say _ v hset).bind fun _ _ h => .pure ⟨rfl, h.2⟩
  | newStory =>
    obtain ⟨hb, hwilling⟩ := hnew (.inl rfl)
    exact completes_newStoryOrAsk hw hname hset hb hwilling
  | wiped =>
    -- the fault is told first, which changes nothing that a new story needs
    refine ((path_say _ v).completes (Q := fun _ u => u = v.printed _) rfl).bind fun _ u hu => ?_
    subst hu
    obtain ⟨hb, hwilling⟩ := hnew (.inr rfl)
    refine completes_newStoryOrAsk hw hname ((v.setting_printed _).trans hset) ?_ ?_
    · rwa [World.engine_printed]
    · rwa [World.engine_printed, World.saves_printed]

/-! ### A new story -/

/-- Whether an operation comes to a new story: the player is named and enters the part that the
options say, in a conversation that has not begun. -/
def StartsNewStory (o : Options) (name : String) (act : Act (Except SessionFault Stage))
    (w : World) : Prop :=
  ∃ m : World, m.engine.narrative.Clean o.config.schema ∧
    m.engine.narrative.playerName = Text.trim name ∧ m.setting = w.setting ∧
    act (w.under .endless) =
      ((fun _ => .ok .playing) <$> startChapter o.chapter o.part) (m.under .endless)

theorem StartsNewStory.of_comes {act rest : Act (Except SessionFault Stage)}
    {stops : List World} (hc : Comes act w stops m rest) (hset : m.setting = w.setting)
    (h : StartsNewStory o name rest m) : StartsNewStory o name act w := by
  obtain ⟨v, hclean, hplayer, hv, hrun⟩ := h
  exact ⟨v, hclean, hplayer, hv.trans hset, hc.whole.trans hrun⟩

theorem startsNewStory (hname : o.name = some name)
    (hclean : w.engine.narrative.Clean o.config.schema)
    (hb : w.engine.narrative.flags.processing = false)
    (hwilling : w.saves.Willing w.engine.config.nameKey)
    (hpart : ∃ d, w.shelf (.part o.chapter o.part) = .ok d) :
    StartsNewStory o name (newStoryOrAsk o) w := by
  refine ⟨(w.named name).put w.engine.config.nameKey (Text.trim name), hclean, rfl, rfl, ?_⟩
  rw [newStoryOrAsk, hname]
  exact newStory_apply hb hwilling hpart

/-- Where nothing was restored, a session that comes to a new story starts it. -/
theorem BeginsAnew.startsNewStory {r : Resumed} (h : BeginsAnew w r m) (hw : w.Hosts o)
    (hname : o.name = some name) (hclean : m.engine.narrative.Clean o.config.schema)
    (lines : List String) : StartsNewStory o name (newStoryOrAsk o) (m.printed lines) := by
  obtain ⟨hb, hset, hwilling⟩ := h.ready hw
  refine Act.startsNewStory hname ?_ ?_ ?_ ?_
  · rwa [World.engine_printed]
  · rwa [World.engine_printed]
  · rwa [World.engine_printed, World.saves_printed]
  · rw [World.shelf_eq_of_setting (m.setting_printed lines), World.shelf_eq_of_setting hset]
    exact hw.part

/-- Without a record that is of any use, a session goes on to a new story. -/
theorem startsNewStory_takeUp (hw : w.Hosts o) (hname : o.name = some name) (hu : w.Unusable) :
    StartsNewStory o name (takeUp o) w := by
  have hb := hw.idle
  have hcalled := World.clean_called hw.narrative
  -- either no record can be read, or the one that was read names a script that is lost
  cases hk : w.called.kept? with
  | none =>
    have hanew := BeginsAnew.unread hk
    have hbegins : w.engine.narrative.introPending = false ∧ w.engine.narrative.messages = [] := by
      rw [hw.narrative]
      exact ⟨rfl, rfl⟩
    have hrun := resumeSession_of_unread hb hk hbegins.1 hbegins.2
    obtain ⟨m, hclean, hplayer, hset, hstart⟩ := hanew.startsNewStory hw hname hcalled []
    refine ⟨m, hclean, hplayer, hset.trans (hanew.ready hw).2.1, ?_⟩
    rw [takeUp, bind_apply, hrun]
    exact hstart
  | some p =>
    obtain ⟨text, hget, hparse⟩ := World.exists_text_of_kept?_called hk
    obtain ⟨fault, hs⟩ := hu text p hget hparse
    have hanew := BeginsAnew.lost hk hs
    have hrun := resumeSession_of_lost hb hk hs
    obtain ⟨m, hclean, hplayer, hset, hstart⟩ := hanew.startsNewStory hw hname
      (World.clean_cleared_recalled hcalled)
      ["[ERROR] The saved game could not be resumed. Starting a new one."]
    refine ⟨m, hclean, hplayer, ?_, ?_⟩
    · rw [hset, World.setting_printed, (hanew.ready hw).2.1]
    · rw [takeUp, bind_apply, hrun]
      dsimp only
      rw [bind_apply, (path_say _ _).whole]
      exact hstart

/-! ## The whole session -/

/-- Before a session takes up what was kept, it wipes it if that is asked for, and shows it. -/
theorem comes_openSession (hw : w.Hosts o) {text? : Option String}
    (ht : o.fresh = true ∨ w.saves.medium.get w.engine.config.progressKey = .ok text?) :
    ∃ stops m, Comes (openSession o) w stops m (takeUp o) ∧ m.Hosts o ∧ m.setting = w.setting ∧
      (o.fresh = true ∨ w.Unusable → m.Unusable) := by
  obtain ⟨stops, m, hwipe, hm, hset, hkept, hempty⟩ := path_wipeIf hw
  -- what is shown is what the wipe has left, or what was there if nothing was wiped
  have hshown : ∃ text?, (m.printed greeting).saves.medium.get
      (m.printed greeting).engine.config.progressKey = .ok text? := by
    rw [World.saves_printed, World.engine_printed]
    cases hf : o.fresh with
    | true => exact ⟨none, hempty hf⟩
    | false =>
      rw [hkept hf]
      exact ⟨text?, ht.resolve_left (by rw [hf]; exact Bool.false_ne_true)⟩
  obtain ⟨shown?, hshown⟩ := hshown
  obtain ⟨lines, hshow⟩ := path_showRecord (hm.printed greeting) hshown
  refine ⟨_, _, .bind hwipe (.seq (path_say _ _) (.cons hshow (.here _ _))),
    ((hm.printed greeting).asked _).printed lines, ?_, fun hu => ?_⟩
  · rw [World.setting_printed, World.setting_asked, World.setting_printed, hset]
  · have hm' : m.Unusable := by
      cases hf : o.fresh with
      | true =>
        intro text p hget
        rw [hempty hf] at hget
        cases hget
      | false =>
        rw [hkept hf]
        exact hu.resolve_left (by rw [hf]; exact Bool.false_ne_true)
    refine hm'.of_eq ?_ ?_ ?_
    · rw [World.engine_printed, World.engine_asked, World.engine_printed]
    · rw [World.saves_printed, World.medium_asked, World.saves_printed]
    · refine World.shelf_eq_of_setting ?_
      rw [World.setting_printed, World.setting_asked, World.setting_printed]

/-- A damaged save does not keep a player from playing. Whatever text is in the slot for
progress, and whatever is in the one for the name, a session (`Act.runSession`) without a line
that starts over ends well, unless its story goes round for ever. If nothing can be made of
the record, what is played is a new story. -/
theorem runSession_survives_damage (hw : w.Hosts o) (hname : o.name = some name)
    {text? : Option String}
    (ht : o.fresh = true ∨ w.saves.medium.get w.engine.config.progressKey = .ok text?)
    {lines : List String} (hl : ∀ line ∈ lines, Command.ofLine line ≠ .reset) :
    Completes (runSession o lines) w (fun r _ => r = .ok ()) ∧
      (o.fresh = true ∨ w.Unusable → StartsNewStory o name (openSession o) w) := by
  obtain ⟨stops, m, hopen, hm, hset, hunusable⟩ := comes_openSession hw ht
  constructor
  · have hp : w.setting.config.pacing.InOrder := hw.inOrder
    have htake := hopen.completes (completes_takeUp hm hname)
    refine htake.bind fun r v hv => ?_
    obtain ⟨rfl, hv⟩ := hv
    exact (completesIn_enterLines hp hl (.inl rfl) v (hv.trans hset)).imp fun _ _ _ h => h.1
  · intro hu
    exact .of_comes hopen hset (startsNewStory_takeUp hm hname (hunusable hu))

/-- Bytes that are no text do: the session breaks off before it is played. -/
theorem runSession_of_no_text (hw : w.Hosts o) (hf : o.fresh = false) {fault : SaveFault}
    (h : w.saves.medium.get w.engine.config.progressKey = .error fault) (lines : List String) :
    ∃ v, runSession o lines (w.under .endless) = .ok (.error (.slot fault)) v := by
  have hget : (w.printed greeting).saves.medium.get
      (w.printed greeting).engine.config.progressKey = .error fault := by
    rwa [World.saves_printed, World.engine_printed]
  have hshow := path_showRecord_error (hw.printed greeting) hget
  obtain ⟨v, hopen⟩ : ∃ v, Path (openSession o) w [w.printed greeting]
      (.ok (.error (.slot fault)) v) := by
    unfold openSession
    rw [hf]
    exact ⟨_, .seq (.pure _ w) (.seq (path_say greeting w) (.cons hshow (.pure _ _)))⟩
  refine ⟨v.under .endless, ?_⟩
  rw [runSession, bind_apply, hopen.whole]
  rfl

end Act

/-! ### Files with any bytes in them -/

/-- The usual options, with a name for the player. -/
def Options.named (name : String) : Options := { name := some name }

/-- A folder in which there are both files, with these bytes in them. -/
def Folder.holding (progress name : ByteArray) : Folder where
  entries := some ((Table.empty.insert "gameProgress.json" (.file progress)).insert
    "playerName.json" (.file name))
  limits := some (.under usualSaves)

/-- A session's world over such a folder and a first part. -/
def World.finding (progress name : ByteArray) : World :=
  .steady (Options.named "Ava").engine .pretending (.files (.holding progress name))

/-- Nothing stands in the way of replacing either file. -/
theorem Folder.clear_holding (progress name : ByteArray) {key : String}
    (hk : key = "gameProgress" ∨ key = "playerName") :
    (holding progress name).Clear (Text.fileName key) (Text.draftFileName key) := by
  have hfiles (file : String) : ((Table.empty.insert "gameProgress.json" (.file progress)).insert
      "playerName.json" (.file name)).get? file ≠ some FileEntry.folder := by
    rw [Table.get?_insert, Table.get?_insert]
    split
    · exact nofun
    · split
      · exact nofun
      · exact nofun
  rcases hk with rfl | rfl
  · refine ⟨rfl, rfl, fun entries he => ?_⟩
    cases he
    exact ⟨hfiles _, hfiles _⟩
  · refine ⟨rfl, rfl, fun entries he => ?_⟩
    cases he
    exact ⟨hfiles _, hfiles _⟩

/-- Whatever is in the files, a session can be played. -/
theorem World.hosts_finding (progress name : ByteArray) :
    (World.finding progress name).Hosts (.named "Ava") where
  engine := rfl
  progress :=
    ⟨fun _ _ => rfl, SlotMedium.takes_files_iff.2 (Folder.clear_holding _ _ (.inl rfl))⟩
  name := ⟨fun _ _ => rfl, SlotMedium.takes_files_iff.2 (Folder.clear_holding _ _ (.inr rfl))⟩
  part := ⟨.pretence, rfl⟩

/-- A record of which only the first character was written leads to a new story. -/
theorem Act.runSession_survives_damage_torn :
    Completes (runSession (.named "Ava") ["#status", "#quit"])
        (World.finding "\x7b".toUTF8 "Ava".toUTF8) (fun r _ => r = .ok ()) ∧
      StartsNewStory (.named "Ava") "Ava" (openSession (.named "Ava"))
        (World.finding "\x7b".toUTF8 "Ava".toUTF8) := by
  have hget : (World.finding "\x7b".toUTF8 "Ava".toUTF8).saves.medium.get "gameProgress" =
      .ok (some "\x7b") := by
    refine SlotMedium.get_files_iff.2 (Folder.read_eq_text_iff.2 ⟨rfl, _, _, rfl, ?_,
      Text.fromUTF8?_toUTF8 _⟩)
    rfl
  have hlines : ∀ line ∈ ["#status", "#quit"], Command.ofLine line ≠ .reset := by decide
  have hsurvives := runSession_survives_damage (World.hosts_finding "\x7b".toUTF8 "Ava".toUTF8) rfl
    (.inr hget) hlines
  refine ⟨hsurvives.1, hsurvives.2 (.inr fun text p ht hp => ?_)⟩
  cases hget.symm.trans ht
  have hno : (Progress.parse "\x7b").toOption = none := by decide +kernel
  rw [hp] at hno
  cases hno

/-- A file with a byte that no text has ends a session before it begins. -/
theorem World.breaks_off_on_bytes : ∃ w v, w.Hosts (.named "Ava") ∧
    w = World.finding ⟨#[255]⟩ "Ava".toUTF8 ∧
    Act.runSession (.named "Ava") ["#quit"] (w.under .endless) = .ok (.error (.slot .io)) v := by
  have hw := World.hosts_finding ⟨#[255]⟩ "Ava".toUTF8
  have hget : (World.finding ⟨#[255]⟩ "Ava".toUTF8).saves.medium.get "gameProgress" =
      .error .io := rfl
  obtain ⟨v, hrun⟩ := Act.runSession_of_no_text hw rfl hget ["#quit"]
  exact ⟨_, v, hw, rfl, hrun⟩

end StoryChat
