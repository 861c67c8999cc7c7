/-
A part that waits to be entered is the one that was announced.

At the end of a part the next one is announced (`Act.endPart`): its script is taken, the
position is nowhere, and a flag says that the part waits (`introPending`). The flag says
nothing of the script, so whatever moves the position or takes another script has to take
the flag along. To begin a chapter does (`Act.startChapter`), and so does to enter the
part that waits (`Act.beginPending`), and a record has the flag in it. A record of a part
that waits is written where the part is announced and nowhere else, so what is said where
it is read back is what was said there, and nothing of the part itself.

The other operations leave the flag alone. To load a script while a part waits, to choose
what was offered before it was announced, or to walk from a node of someone's choosing can
make the flag say something wrong.
-/
import StoryChat.Proofs.Engine.ClosedScripts

set_option autoImplicit false

namespace StoryChat

/-! ## Announcements -/

namespace Progress

/-- Whether a record announces a part: it can be loaded, and the position is nowhere. -/
structure Announces (shelf : Shelf) (q : Progress) : Prop where
  nowhere : q.currentNode = none
  inPart : q.activeScript = none
  there : ∃ d, shelf (.part q.chapter q.part) = .ok d

theorem Announces.script_eq {shelf : Shelf} {p : Progress} (h : p.Announces shelf) :
    p.script = .part p.chapter p.part := by
  rw [script, h.inPart]

/-- Whether messages are those of a record, or those that are read back from it. -/
def Retains (q : Progress) (messages : List Message) : Prop :=
  messages = q.messages ∨ ∃ p, parse q.render = .ok p ∧ messages = p.messages

end Progress

/-- The records that are announcements behind a walk: earlier ones, and that of the
conversation itself if the walk ended with the announcement. -/
def announcedBehind (A : Progress → Prop) (walked : Option Walked) (s q : Progress) : Prop :=
  A q ∨ q = s ∧ s.introPending = true ∧ walked = some (.halted (.partEnd (some s.part)))

namespace World

variable {A B : Progress → Prop} {w m : World}

/-- Whether a record in the slot of a part that waits is one of the announcements. -/
def HoldsAnnounced (A : Progress → Prop) (w : World) : Prop :=
  ∀ text p, w.saves.medium.get w.engine.config.progressKey = .ok (some text) →
    Progress.parse text = .ok p → p.introPending = true →
    ∃ q, A q ∧ q.Announces w.shelf ∧ text = q.render

/-- What has to be so where a part waits: it is the script that is being walked, the
position is nowhere, and nothing was said since the announcement. -/
structure Expects (A : Progress → Prop) (w : World) : Prop where
  onCourse : w.OnCourse
  nowhere : w.engine.narrative.currentNode = none
  inPart : w.engine.narrative.activeScript = none
  announced : ∃ q, A q ∧ w.engine.narrative.chapter = q.chapter ∧
    w.engine.narrative.part = q.part ∧ q.Retains w.engine.narrative.messages

/-- What has to be so between two operations. -/
structure Orderly (A : Progress → Prop) (w : World) : Prop where
  holds : w.HoldsAnnounced A
  expects : w.engine.narrative.introPending = true → w.Expects A

theorem HoldsAnnounced.mono (h : w.HoldsAnnounced A) (hsub : ∀ q, A q → B q) :
    w.HoldsAnnounced B := by
  intro text p hget hp hi
  obtain ⟨q, hq, hannounces, htext⟩ := h text p hget hp hi
  exact ⟨q, hsub q hq, hannounces, htext⟩

theorem Orderly.mono (h : w.Orderly A) (hsub : ∀ q, A q → B q) : w.Orderly B := by
  refine ⟨h.holds.mono hsub, fun hi => ?_⟩
  obtain ⟨hon, hnode, hscript, q, hq, hsame⟩ := h.expects hi
  exact ⟨hon, hnode, hscript, q, hsub q hq, hsame⟩

theorem HoldsAnnounced.congr (h : w.HoldsAnnounced A)
    (hk : m.engine.config.progressKey = w.engine.config.progressKey) (hshelf : m.shelf = w.shelf)
    (hs : m.saves.medium = w.saves.medium) : m.HoldsAnnounced A := by
  unfold HoldsAnnounced
  rw [hk, hshelf, hs]
  exact h

theorem HoldsAnnounced.of_setting (h : w.HoldsAnnounced A) (hset : m.setting = w.setting)
    (hs : m.saves.medium = w.saves.medium) : m.HoldsAnnounced A :=
  h.congr (by rw [config_eq_of_setting hset]) (shelf_eq_of_setting hset) hs

/-- Where the script, the slots and the record are the same all is as before. It does not
matter whether the story is said to have begun. -/
theorem Orderly.congr (h : w.Orderly A) (hset : m.setting = w.setting)
    (hs : m.saves.medium = w.saves.medium) (hg : m.engine.graph = w.engine.graph)
    (hn : ∃ started, m.engine.narrative.snapshot =
      { w.engine.narrative.snapshot with started }) : m.Orderly A := by
  obtain ⟨started, hn⟩ := hn
  have hnode : m.engine.narrative.currentNode = w.engine.narrative.currentNode :=
    (congrArg Progress.currentNode hn :)
  have hscript : m.script = w.script := (congrArg Progress.script hn :)
  have hinPart : m.engine.narrative.activeScript = w.engine.narrative.activeScript :=
    (congrArg Progress.activeScript hn :)
  have hchapter : m.engine.narrative.chapter = w.engine.narrative.chapter :=
    (congrArg Progress.chapter hn :)
  have hpart : m.engine.narrative.part = w.engine.narrative.part := (congrArg Progress.part hn :)
  have hmessages : m.engine.narrative.messages = w.engine.narrative.messages :=
    (congrArg Progress.messages hn :)
  have hpending : m.engine.narrative.introPending = w.engine.narrative.introPending :=
    (congrArg Progress.introPending hn :)
  refine ⟨h.holds.of_setting hset hs, fun hi => ?_⟩
  have he := h.expects (hpending.symm.trans hi)
  refine ⟨he.onCourse.congr hset hg hscript, hnode.trans he.nowhere, hinPart.trans he.inPart, ?_⟩
  rw [hchapter, hpart, hmessages]
  exact he.announced

/-- Where no part waits there is nothing to be kept but the record. -/
theorem HoldsAnnounced.orderly (h : w.HoldsAnnounced A)
    (hi : w.engine.narrative.introPending = false) : w.Orderly A :=
  ⟨h, fun hpending => absurd (hi.symm.trans hpending) Bool.false_ne_true⟩

/-- The record of a part that waits may be written if it is an announcement. -/
theorem HoldsAnnounced.saved (h : w.HoldsAnnounced A)
    (hq : w.engine.narrative.introPending = true →
      A w.engine.narrative.snapshot ∧ w.engine.narrative.snapshot.Announces w.shelf) :
    w.saved.HoldsAnnounced A := by
  intro text p hget hp hi
  rcases Saves.of_get_set hget with hold | ⟨-, rfl⟩
  · exact h text p hold hp hi
  · have hpending : p.introPending = w.engine.narrative.introPending :=
      (congrArg Progress.introPending (Progress.eq_of_parse_render hp) :)
    obtain ⟨hA, hannounces⟩ := hq (hpending.symm.trans hi)
    exact ⟨_, hA, hannounces, rfl⟩

theorem HoldsAnnounced.saved_of_not_pending (h : w.HoldsAnnounced A)
    (hi : w.engine.narrative.introPending = false) : w.saved.HoldsAnnounced A :=
  h.saved fun hpending => absurd (hi.symm.trans hpending) Bool.false_ne_true

/-- What has to be so behind a walk, when it may have ended with an announcement. -/
def OrderlyBehind (A : Progress → Prop) (walked : Option Walked) (w : World) : Prop :=
  w.Orderly (announcedBehind A walked w.engine.narrative.snapshot)

variable {walked : Option Walked}

theorem Orderly.behind (h : w.Orderly A) : w.OrderlyBehind A walked := h.mono fun _ => .inl

/-- What is told changes neither the record nor the slots. -/
theorem OrderlyBehind.emit (h : w.OrderlyBehind A walked) (e : Event) :
    (w.emit e).OrderlyBehind A walked := by
  unfold OrderlyBehind
  rw [engine_emit]
  exact h.congr (w.setting_emit e) (by rw [saves_emit]) (by rw [engine_emit])
    ⟨_, by rw [engine_emit]⟩

theorem OrderlyBehind.settled (h : w.OrderlyBehind A walked) :
    w.settled.OrderlyBehind A walked := by
  unfold OrderlyBehind
  rw [snapshot_settled]
  exact h.congr w.setting_settled (by rw [saves_settled]) w.graph_settled ⟨_, w.snapshot_settled⟩

/-- Where the next part is there it is announced, by the record that is written. -/
theorem HoldsAnnounced.turned {part : Nat} {d : Document} (h : w.HoldsAnnounced A)
    (hs : w.shelf (.part w.engine.narrative.chapter part) = .ok d) :
    ((w.leaving (some part)).turning (.ofDocument d)).saved.OrderlyBehind A
      (some (.halted (.partEnd (some part)))) := by
  let m : World := (w.leaving (some part)).turning (.ofDocument d)
  have hannounced : announcedBehind A (some (.halted (.partEnd (some part))))
      m.engine.narrative.snapshot m.engine.narrative.snapshot := .inr ⟨rfl, rfl, rfl⟩
  have hturn : m.HoldsAnnounced A := h.of_setting rfl rfl
  constructor
  · exact (hturn.mono fun _ => .inl).saved fun _ => ⟨hannounced, rfl, rfl, d, hs⟩
  · exact fun _ => ⟨⟨d, hs, rfl⟩, rfl, rfl, _, hannounced, rfl, rfl, .inl rfl⟩

theorem HoldsAnnounced.called (h : w.HoldsAnnounced A) : w.called.HoldsAnnounced A :=
  h.of_setting w.setting_called w.medium_called

/-- To take up the record leaves the slots as they are. -/
theorem HoldsAnnounced.recalled {p : Progress} (h : w.HoldsAnnounced A) :
    (w.called.recalled p).HoldsAnnounced A :=
  h.of_setting ((setting_recalled _ p).trans w.setting_called)
    ((w.called.medium_asked _).trans w.medium_called)

/-- A record of a part that waits is read back from an announcement. -/
theorem HoldsAnnounced.of_kept? {p : Progress} (h : w.HoldsAnnounced A)
    (hk : w.called.kept? = some p) (hi : p.introPending = true) :
    p.Announces w.shelf ∧
      ∃ q, A q ∧ p.chapter = q.chapter ∧ p.part = q.part ∧ q.Retains p.messages := by
  obtain ⟨text, htext, hparse⟩ := exists_text_of_kept?_called hk
  obtain ⟨q, hq, hannounces, rfl⟩ := h text p htext hparse hi
  -- variables and messages apart, all is read back as it was written
  have he := Progress.eq_of_parse_render hparse
  have hnode : p.currentNode = q.currentNode := (congrArg Progress.currentNode he :)
  have hinPart : p.activeScript = q.activeScript := (congrArg Progress.activeScript he :)
  have hchapter : p.chapter = q.chapter := (congrArg Progress.chapter he :)
  have hpart : p.part = q.part := (congrArg Progress.part he :)
  refine ⟨⟨hnode.trans hannounces.nowhere, hinPart.trans hannounces.inPart, ?_⟩, q, hq, hchapter,
    hpart, .inr ⟨p, hparse, rfl⟩⟩
  rw [hchapter, hpart]
  exact hannounces.there

end World

namespace Act

open World

variable {A : Progress → Prop}

/-! ## Walks -/

/-- A walk begins where no part waits, and a visit leaves none that waits but the one that
it announces. -/
theorem visited_orderly {g w : World} {id : String} {stops : List World} {out : Outcome Visit}
    (hw : w.HoldsAnnounced A) (hi : w.engine.narrative.introPending = false)
    (hv : Visited w id stops out) :
    ∃ last, Legs (fun _ m => m.HoldsAnnounced A) g stops last ∧
      Ends (After (fun halt _ w => w.OrderlyBehind A (some (.halted halt)))
        fun _ w _ => w.HoldsAnnounced A ∧ w.engine.narrative.introPending = false) last out := by
  have inside {n : Node} {m : World} (h : (w.at id).Inside n m) : m.HoldsAnnounced A :=
    hw.of_setting h.setting (congrArg Saves.medium h.saves)
  have hleave (next : Option Nat) : (w.leaving next).HoldsAnnounced A := hw.of_setting rfl rfl
  have hover (next : Option Nat) (walked : Option Walked) :
      (w.leaving next).saved.OrderlyBehind A walked :=
    (((hleave next).saved_of_not_pending hi).orderly hi).behind
  cases hv with
  | missing => exact ⟨g, .arrived g, (hw.orderly hi).behind⟩
  | @offered n hn hc =>
    have hat : ((w.at id).tell (·.present (optionsOf (w.at id) n))).HoldsAnnounced A :=
      hw.of_setting rfl rfl
    exact ⟨g, .arrived g, (hat.orderly hi).behind.emit _⟩
  | @told n stops m hn hc he hp hs hm =>
    have hin : (w.at id).Inside n m := hs m (List.mem_of_getLast? hm)
    have hmi : m.engine.narrative.introPending = false :=
      (congrArg Bearing.introPending hin.bearing).trans hi
    have hsaved : m.saved.HoldsAnnounced A := (inside hin).saved_of_not_pending hmi
    exact ⟨_, .of_forall g fun m hm => inside (hs m hm),
      After.ofNext (hsaved.orderly hmi).behind fun _ _ => ⟨hsaved, hmi⟩⟩
  | crossed hn hc he hp hs hin =>
    exact ⟨_, .of_forall g fun m hm => inside (hin m hm), Stop.noConfusion⟩
  | ended hn hk hp => exact ⟨_, .leg (hleave _) (.arrived _), (hover none _).emit _⟩
  | lost hn hk hp hs =>
    exact ⟨_, .leg (hleave _) (.leg (hleave _) (.arrived _)), (hover _ _).emit _⟩
  -- only here a part comes to wait, and it is the one that is announced
  | @turned n part d hn hk hp hs =>
    have hturn : ((w.leaving (some part)).turning (.ofDocument d)).HoldsAnnounced A :=
      hw.of_setting rfl rfl
    exact ⟨_, .leg (hleave _) (.leg hturn (.arrived _)), (hw.turned hs).emit _⟩

/-- What is so at the end of an operation. -/
def EndsOrderly (A : Progress → Prop) (walked : Option Walked) (w : World) : Prop :=
  w.OrderlyBehind A walked ∧ w.engine.narrative.flags.processing = false

/-- A walk that begins where no part waits. -/
theorem advance_orderly {g w : World} {id : String} {force : Bool} (hw : w.HoldsAnnounced A)
    (hi : w.engine.narrative.introPending = false)
    (hb : w.engine.narrative.flags.processing = false) :
    Passes (fun _ m => m.HoldsAnnounced A) (Act.advance id force) g w fun walked _ =>
      EndsOrderly A (some walked) := by
  have hready : (w.ready force).HoldsAnnounced A :=
    hw.of_setting (w.setting_ready force) (by rw [saves_ready])
  have hri : (w.ready force).engine.narrative.introPending = false :=
    (congrArg Bearing.introPending (w.atRest_ready force) :).trans hi
  refine .advance (fun g m hm => ?_) (fun hbusy _ => absurd (hb.symm.trans hbusy) Bool.false_ne_true)
    (.walk (fun g w id stops out h hv => visited_orderly h.1 h.2 hv) _ id ⟨hready, hri⟩)
    fun halt g w h => ?_
  · have hsettled : m.settled.HoldsAnnounced A :=
      hm.of_setting m.setting_settled (by rw [saves_settled])
    exact ⟨hsettled, hsettled⟩
  · have hdone : EndsOrderly A (some (.halted halt)) (w.settled.emit (.halted halt)) := by
      refine ⟨h.settled.emit _, ?_⟩
      rw [engine_emit]
      exact congrArg Bearing.processing w.bearing_settled
    exact ⟨hdone, hdone⟩

end Act

/-! ## Operations -/

/-- Whether an operation may be next: while a part waits, only to enter it, to begin a
chapter or to take up the record; and else also to load a script, to walk on from a node
and to choose. -/
def World.Admits (w : World) : Operation → Prop
  | .startChapter .. | .resumeSaved | .beginPending => True
  | .loadPart .. | .loadNamed _ | .resumeFrom .. | .advance .. | .choose _ =>
    w.engine.narrative.introPending = false
  | .rest | .resetGame | .setPlayerName _ => False

namespace Act

open World

variable {A : Progress → Prop}

/-- What waits behind a record that is taken up waited when it was written. -/
theorem opened_orderly {w : World} {p : Progress} {d : Document} (hw : w.HoldsAnnounced A)
    (hk : w.called.kept? = some p) (hs : w.shelf p.script = .ok d) :
    ((w.called.recalled p).opened p.script (.ofDocument d)).Orderly A := by
  have hset := setting_opened (w.called.recalled p) p.script (.ofDocument d)
  have hmedium : ((w.called.recalled p).opened p.script (.ofDocument d)).saves.medium =
      (w.called.recalled p).saves.medium := by
    cases p.script <;> rfl
  refine ⟨hw.recalled.of_setting hset hmedium, fun hi => ?_⟩
  have hpending : p.introPending = true := by
    cases hscript : p.script <;> rw [hscript] at hi <;> exact hi
  obtain ⟨hannounces, hannounced⟩ := hw.of_kept? hk hpending
  have hscript := hannounces.script_eq
  rw [hscript] at hs ⊢
  refine ⟨⟨d, ?_, rfl⟩, hannounces.nowhere, rfl, hannounced⟩
  rw [script_opened, shelf_eq_of_setting (setting_opened _ _ _), shelf_recalled, shelf_called, hs]

/-- Behind a choice no part waits, wherever it leads. -/
theorem chosen_orderly {w : World} {c : Choice} (hw : w.Orderly A)
    (hb : w.engine.narrative.flags.processing = false)
    (hi : w.engine.narrative.introPending = false) (m : World)
    (hset : m.setting = (w.chosen c).setting) (hs : m.saves = (w.chosen c).saves)
    (hmi : m.engine.narrative.introPending = (w.chosen c).engine.narrative.introPending)
    (hmb : m.engine.narrative.flags.processing = (w.chosen c).engine.narrative.flags.processing) :
    (w.chosen c).HoldsAnnounced A ∧ m.HoldsAnnounced A ∧ m.saved.Orderly A ∧
      m.saved.engine.narrative.flags.processing = false ∧
      m.saved.engine.narrative.introPending = false := by
  have hchosen : (w.chosen c).HoldsAnnounced A :=
    hw.holds.of_setting (w.setting_chosen c) (by rw [saves_chosen])
  have hm : m.HoldsAnnounced A := hchosen.of_setting hset (congrArg Saves.medium hs)
  have hpending : m.engine.narrative.introPending = false := by rw [hmi, introPending_chosen, hi]
  have hfree : (w.chosen c).engine.narrative.flags.processing = false := by
    simp only [chosen, narrative_tell, engine_play, engine_emit]
    exact hb
  exact ⟨hchosen, hm, (hm.saved_of_not_pending hpending).orderly hpending, hmb.trans hfree, hpending⟩

/-- What an operation does before it walks, and that it walks only where no part waits. -/
theorem Prelude.orderly {w v : World} {op : Operation} {stops : List World} {on : Onward}
    (hw : w.Orderly A) (hb : w.engine.narrative.flags.processing = false) (hop : w.Admits op)
    (h : Prelude w op stops v on) :
    (∀ m ∈ stops, m.HoldsAnnounced A) ∧ v.Orderly A ∧
      v.engine.narrative.flags.processing = false ∧
      ∀ id force, on = .walk id force → v.engine.narrative.introPending = false := by
  have here : ∀ m ∈ [w], m.HoldsAnnounced A := List.forall_mem_singleton.2 hw.holds
  -- where no part waits, there is only the record to be looked at
  have calm {m : World} (hset : m.setting = w.setting) (hs : m.saves.medium = w.saves.medium)
      (hi : m.engine.narrative.introPending = false) : m.Orderly A :=
    (hw.holds.of_setting hset hs).orderly hi
  have hrecord (p : Progress) :
      ∀ m ∈ [w, w.called, w.called.recalled p], m.HoldsAnnounced A :=
    List.forall_mem_cons.2 ⟨hw.holds, List.forall_mem_cons.2 ⟨hw.holds.called,
      List.forall_mem_singleton.2 hw.holds.recalled⟩⟩
  have hfree : w.called.engine.narrative.flags.processing = false :=
    (congrArg Flags.processing w.flags_called).trans hb
  cases h with
  | busy hop hbusy => exact absurd (hb.symm.trans hbusy) Bool.false_ne_true
  | nonePending => exact ⟨List.forall_mem_nil _, hw, hb, nofun⟩
  | busyPending hi hbusy => exact absurd (hb.symm.trans hbusy) Bool.false_ne_true
  | refused => exact ⟨List.forall_mem_nil _, hw, hb, nofun⟩
  | lostPart | lostNamed | lostStart | lostResume => exact ⟨here, hw, hb, nofun⟩
  | loadedPart | loadedNamed => exact ⟨here, calm rfl rfl hop, hb, nofun⟩
  | started => exact ⟨here, calm rfl rfl rfl, hb, fun _ _ _ => rfl⟩
  | resumed =>
    -- the flag stays as it is, and so a part must not wait
    exact ⟨here, calm rfl rfl hop, hb, fun _ _ _ => hop⟩
  | unread hbusy hk =>
    refine ⟨List.forall_mem_cons.2 ⟨hw.holds, List.forall_mem_singleton.2 hw.holds.called⟩, ?_,
      ?_, nofun⟩
    · refine hw.congr w.setting_called ((medium_asked _ _).trans w.medium_called) ?_ ?_
      · unfold called
        split <;> rfl
      · unfold called
        split <;> exact ⟨_, rfl⟩
    · exact hfree
  | @lostRecord p fault hbusy hk hs =>
    -- a record of a part that waits selects a script that is there
    have hi : (w.called.recalled p).engine.narrative.introPending = false := by
      cases hi : p.introPending with
      | false => exact hi
      | true =>
        have hannounces := (hw.holds.of_kept? hk hi).1
        obtain ⟨d, hd⟩ := hannounces.there
        rw [hannounces.script_eq, hd] at hs
        cases hs
    exact ⟨hrecord p, hw.holds.recalled.orderly hi, hfree, nofun⟩
  | @recalled p d hbusy hk hs =>
    have hv := opened_orderly hw.holds hk hs
    refine ⟨hrecord p, hv, ?_, fun id force he => ?_⟩
    · rw [flags_opened, flags_recalled]
      exact hfree
    · -- a part that waits has no position to be continued from
      have hnode : p.currentNode = some id := (Onward.of_to he).1
      cases hi : p.introPending with
      | false =>
        cases hscript : p.script <;> exact hi
      | true =>
        rw [(hw.holds.of_kept? hk hi).1.nowhere] at hnode
        cases hnode
  | begunPending hi hbusy =>
    exact ⟨List.forall_mem_nil _, calm rfl rfl rfl, hb, fun _ _ _ => rfl⟩
  | advance => exact ⟨List.forall_mem_nil _, hw, hb, fun _ _ _ => hop⟩
  | @accepted index c hv hc hn =>
    obtain ⟨-, hm, hsaved, hfree, hi⟩ := chosen_orderly hw hb hop
      ((w.chosen c).tell (·.goTo c.next)) rfl rfl rfl rfl
    exact ⟨List.forall_mem_singleton.2 hm, hsaved, hfree, fun _ _ _ => hi⟩
  | @undiverted index c name fault hv hc hn hs =>
    obtain ⟨hchosen, hm, hsaved, hfree, hi⟩ := chosen_orderly hw hb hop
      ((w.chosen c).tell (·.goTo c.next)) rfl rfl rfl rfl
    exact ⟨List.forall_mem_cons.2 ⟨hchosen, List.forall_mem_singleton.2 hm⟩, hsaved, hfree,
      fun _ _ _ => hi⟩
  | @diverted index c name d hv hc hn hs =>
    obtain ⟨hchosen, hm, hsaved, hfree, hi⟩ := chosen_orderly hw hb hop
      (((w.chosen c).diverted name (.ofDocument d)).at
        ((w.chosen c).diverted name (.ofDocument d)).entrance) rfl rfl rfl rfl
    exact ⟨List.forall_mem_cons.2 ⟨hchosen, List.forall_mem_singleton.2 hm⟩, hsaved, hfree,
      fun _ _ _ => hi⟩
  | rest | resetGame | setPlayerName => exact hop.elim

/-- The step lemma: wherever an operation ends or is left, a record of a part that waits is
one of the announcements, and so is what waits at its end. -/
theorem operation_orderly {g w : World} {op : Operation} (hw : w.Orderly A)
    (hb : w.engine.narrative.flags.processing = false) (hop : w.Admits op) :
    Passes (fun _ m => m.HoldsAnnounced A) op.run g w fun walked _ => EndsOrderly A walked := by
  refine .operation fun stops v on h => ?_
  obtain ⟨hs, hv, hfree, hbegins⟩ := Prelude.orderly hw hb hop h
  refine ⟨_, .of_forall g hs, .onward (fun walked _ => ⟨hv.behind, hfree⟩) ?_⟩
  exact fun id force he => advance_orderly hv.holds (hbegins id force he) hfree

end Act

/-! ## Runs -/

namespace World

/-- The worlds of a run that begins in `o`. An operation is done to its end, or it is left at
a suspension point and a fresh engine takes the place of the one that did it, over the same
scripts and slots. What is not admitted while a part waits may still be done if it comes to
nothing, as to choose where nothing is offered, or to load the part itself or a script that
is not there. -/
inductive Proceeds (o : World) : World → Prop where
  | opened : Proceeds o o
  | played {w w' : World} {op : Operation} {walked : Option Walked} : Proceeds o w →
      w.Admits op → op.run (w.under .endless) = .ok walked w' → Proceeds o w'
  | idled {w w' : World} {op : Operation} {walked : Option Walked} : Proceeds o w →
      op.Plays → op.run (w.under .endless) = .ok walked w' → w'.engine = w.engine →
      w'.saves.medium = w.saves.medium → Proceeds o w'
  | renewed {w m v : World} {config : Config} {interrupts : List Interrupt}
      {listening audible : Bool} : Proceeds o w →
      (m = w ∨ ∃ op k, w.Admits op ∧ op.run (w.under (.suspensions k)) = .error .cut m) →
      v.engine = .fresh config interrupts listening audible →
      config.progressKey = m.engine.config.progressKey → v.shelf = m.shelf →
      v.saves.medium = m.saves.medium → Proceeds o v

/-- Whether a walk of the run that begins in `o` has just ended in `v` with a part that was
announced and waits. -/
def Announced (o v : World) : Prop :=
  v.engine.narrative.introPending = true ∧ ∃ w op, o.Proceeds w ∧ w.Admits op ∧
    op.run (w.under .endless) = .ok (some (.halted (.partEnd (some v.engine.narrative.part)))) v

/-- The records of what was announced in a run before a world. -/
def AnnouncedBefore (o w : World) (q : Progress) : Prop :=
  ∃ v, o.Announced v ∧ v.Proceeds w ∧ q = v.engine.narrative.snapshot

theorem Proceeds.orderly {o w : World} (ho : o.Opens) (h : o.Proceeds w) :
    w.Orderly (o.AnnouncedBefore w) ∧ w.engine.narrative.flags.processing = false := by
  induction h with
  | opened =>
    obtain ⟨⟨config, interrupts, listening, audible, he⟩, hempty⟩ := ho
    have hholds : o.HoldsAnnounced (o.AnnouncedBefore o) :=
      fun text p hget => absurd hget (hempty text)
    exact ⟨hholds.orderly (by rw [he]; rfl), by rw [he]; rfl⟩
  | @played w w' op walked hw hop hrun ih =>
    -- what was announced before is announced still, and if the walk has announced a part this
    -- is the world in which it did
    obtain ⟨_, w'', hend, rfl⟩ := (Act.operation_orderly (g := w) ih.1 ih.2 hop).ended hrun
    have hunder : (w''.under .endless).Orderly
        (announcedBehind (o.AnnouncedBefore w) walked w''.engine.narrative.snapshot) :=
      hend.1.congr rfl rfl rfl ⟨_, rfl⟩
    refine ⟨hunder.mono fun q hq => ?_, hend.2⟩
    rcases hq with ⟨v, hv, hproceeds, hq⟩ | ⟨rfl, hi, rfl⟩
    · exact ⟨v, hv, hproceeds.played hop hrun, hq⟩
    · exact ⟨w''.under .endless, ⟨hi, w, op, hw, hop, hrun⟩, .opened, rfl⟩
  | @idled w w' op walked hw hop hrun he hs ih =>
    have hset : w'.setting = w.setting := by
      obtain ⟨_, w'', hend, rfl⟩ := (Act.operation_setting op (w := w) rfl).ended hrun
      exact hend.2
    have hsnapshot : w'.engine.narrative.snapshot = w.engine.narrative.snapshot := by rw [he]
    refine ⟨(ih.1.congr hset hs (by rw [he]) ⟨_, hsnapshot⟩).mono ?_, by rw [he]; exact ih.2⟩
    rintro q ⟨v, hv, hproceeds, hq⟩
    exact ⟨v, hv, hproceeds.idled hop hrun he hs, hq⟩
  | @renewed w m v config interrupts listening audible hw hm he hk hshelf hs ih =>
    -- an operation that is cut has not come to write what it announces: behind the record
    -- there is no other suspension point
    have hholds : m.HoldsAnnounced (o.AnnouncedBefore w) := by
      rcases hm with rfl | ⟨op, k, hop, hcut⟩
      · exact ih.1.holds
      · obtain ⟨_, m', hm', rfl⟩ := (Act.operation_orderly (g := w) ih.1 ih.2 hop).cut hcut
        exact hm'.congr rfl rfl rfl
    have hv : v.HoldsAnnounced (o.AnnouncedBefore w) := by
      refine hholds.congr ?_ hshelf hs
      rw [he]
      exact hk
    refine ⟨(hv.orderly (by rw [he]; rfl)).mono ?_, by rw [he]; rfl⟩
    rintro q ⟨u, hu, hproceeds, hq⟩
    exact ⟨u, hu, hproceeds.renewed hm he hk hshelf hs, hq⟩

/-- In such a run (`Proceeds`), wherever a part waits, the position is nowhere and the script
that is being walked is that of the part. To enter it is to walk from its entrance; and it is
the part that was announced before, since when nothing was said: the messages are those of the
announcement, as they were or as they are read back from its record. -/
theorem Proceeds.enters_announced {o w : World} (ho : o.Opens) (h : o.Proceeds w)
    (hi : w.engine.narrative.introPending = true) :
    w.engine.narrative.currentNode = none ∧
      (∃ d, w.shelf (.part w.engine.narrative.chapter w.engine.narrative.part) = .ok d ∧
        w.engine.graph = some (.ofDocument d)) ∧
      (∀ p, Operation.run .beginPending (w.under p) =
        (some <$> Act.advance w.entrance false)
          ((w.tell ({ · with introPending := false })).under p)) ∧
      ∃ v, o.Announced v ∧ v.Proceeds w ∧
        w.engine.narrative.chapter = v.engine.narrative.chapter ∧
        w.engine.narrative.part = v.engine.narrative.part ∧
        v.engine.narrative.snapshot.Retains w.engine.narrative.messages := by
  obtain ⟨hw, hb⟩ := h.orderly ho
  obtain ⟨⟨d, hd, hg⟩, hnode, hinPart, q, ⟨v, hv, hproceeds, rfl⟩, hsame⟩ := hw.expects hi
  rw [script_eq_part hinPart] at hd
  refine ⟨hnode, ⟨d, hd, hg⟩, fun p => ?_, v, hv, hproceeds, hsame⟩
  change Act.beginPending (w.under p) = _
  unfold Act.beginPending
  rw [Act.bind_apply, Act.look_apply]
  dsimp only
  rw [engine_under, hi, hb, if_neg (by simp), if_neg Bool.false_ne_true]
  rfl

end World

/-! ### The second of two parts -/

theorem World.Proceeds.enters_announced_twoParts : ∃ w, (World.opening .twoParts).Proceeds w ∧
    w.engine.narrative.introPending = true ∧ w.engine.narrative.currentNode = none ∧
    w.engine.graph = some (.ofDocument (.endingIn 3)) := by
  have hrun : ∃ walked w, (Operation.startChapter 1 1).run
      ((World.opening .twoParts).under .endless) = .ok walked w ∧
      w.engine.narrative.introPending = true ∧ w.shelf = .twoParts ∧
      w.engine.narrative.chapter = 1 ∧ w.engine.narrative.part = 2 :=
    ⟨_, _, rfl, rfl, rfl, rfl, rfl⟩
  obtain ⟨walked, w, hrun, hi, hshelf, hchapter, hpart⟩ := hrun
  have hop : (World.opening .twoParts).Admits (.startChapter 1 1) := trivial
  have hw : (World.opening .twoParts).Proceeds w := .played .opened hop hrun
  obtain ⟨hnode, ⟨d, hd, hg⟩, -⟩ := hw.enters_announced (World.opens_opening _) hi
  rw [hshelf, hchapter, hpart] at hd
  cases hd
  exact ⟨w, hw, hi, hnode, hg⟩

/-- To load another part while one waits leaves the flag, and takes the script away from
what waits. -/
theorem World.not_announced_of_loadPart : ¬ ∀ w : World, w.Played →
    w.engine.narrative.introPending = true → w.engine.narrative.currentNode = none ∧
      ∃ d, w.shelf (.part w.engine.narrative.chapter w.engine.narrative.part) = .ok d ∧
        w.engine.graph = some (.ofDocument d) := by
  intro h
  have hrun : ∃ walked w walked' w', (Operation.startChapter 1 1).run
      ((World.opening .twoParts).under .endless) = .ok walked w ∧
      (Operation.loadPart 1 1).run (w.under .endless) = .ok walked' w' ∧
      w'.engine.narrative.introPending = true ∧ w'.shelf = .twoParts ∧
      w'.engine.narrative.chapter = 1 ∧ w'.engine.narrative.part = 2 ∧
      w'.engine.graph = some (.ofDocument (.endingIn 2)) :=
    ⟨_, _, _, _, rfl, rfl, rfl, rfl, rfl, rfl, rfl⟩
  obtain ⟨walked, w, walked', w', hstart, hload, hi, hshelf, hchapter, hpart, hgraph⟩ := hrun
  have hplayed : w'.Played := .step (.step (.fresh rfl) rfl hstart) rfl hload
  obtain ⟨-, d, hd, hg⟩ := h w' hplayed hi
  rw [hshelf, hchapter, hpart] at hd
  cases hd
  rw [hgraph] at hg
  cases hg

end StoryChat
