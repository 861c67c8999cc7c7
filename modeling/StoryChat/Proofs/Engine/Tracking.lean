/-
Records lead to the end that the operation comes to.

An operation writes records at its suspension points. What it still does behind one of
them is a walk from the position of that record, so an engine that stands as the record
tells has the same way before it (`LeadsTo`). This is kept from each suspension point to
the next (`Tracks`): either nothing was written and the story did not change, or what
was written is the record of a world that leads to the end.

The record at the end of a part whose next part cannot be loaded is the one exception to
the script, and there it does not matter: nothing is left to be walked.
-/
import StoryChat.Proofs.Engine.Course
import StoryChat.Proofs.Engine.Plot

set_option autoImplicit false

namespace StoryChat

namespace World

/-! ## Records on the way to an end -/

/-- An engine that stands as `g` and walks on from its position comes to `f`, which is
where an operation comes to whose walk is `walked`. -/
structure LeadsTo (g : World) (walked : Option Walked) (f : Plot) : Prop where
  course : g.OnCourse ∨
    g.engine.narrative.currentNode = none ∧ ∃ fault, g.shelf g.script = .error fault
  stays : g.engine.narrative.currentNode = none →
    g.plot = f ∧ walked ≠ some (.halted .awaitingChoice)
  walks : ∀ id, g.engine.narrative.currentNode = some id →
    ∃ halt, walked = some (.halted halt) ∧ g.plot.walk g.reach id = some (halt, f)

/-- Between two worlds one after the other no record was written, or that of the first,
which leads to the end. -/
structure Tracks (walked : Option Walked) (f : Plot) (g m : World) : Prop where
  setting : m.setting = g.setting
  playerName : m.engine.narrative.playerName = g.engine.narrative.playerName
  kept : m.records = g.records ∧ m.saves = g.saves ∨
    m.records = g.saved.records ∧ m.saves = g.saved.saves ∧ g.LeadsTo walked f

variable {walked : Option Walked} {f : Plot} {g m w : World}

theorem LeadsTo.under (h : g.LeadsTo walked f) (p : Patience) : (g.under p).LeadsTo walked f :=
  ⟨h.course, h.stays, h.walks⟩

theorem playerName_settled (w : World) :
    w.settled.engine.narrative.playerName = w.engine.narrative.playerName :=
  (congrArg Bearing.playerName w.bearing_settled :)

theorem LeadsTo.settled (h : g.LeadsTo walked f) : g.settled.LeadsTo walked f := by
  have hreach : g.settled.reach = g.reach := reach_eq_of_setting g.setting_settled
  refine ⟨?_, ?_, ?_⟩
  · rw [currentNode_settled, shelf_eq_of_setting g.setting_settled, script_settled]
    exact h.course.imp_left fun hg => hg.congr g.setting_settled g.graph_settled g.script_settled
  · rw [currentNode_settled, plot_settled]
    exact h.stays
  · rw [currentNode_settled, plot_settled, hreach]
    exact h.walks

/-- A record without a position leads to where it is. -/
theorem LeadsTo.of_over (hn : g.engine.narrative.currentNode = none)
    (hf : g.plot = f) (hw : walked ≠ some (.halted .awaitingChoice))
    (hc : g.OnCourse ∨ ∃ fault, g.shelf g.script = .error fault) : g.LeadsTo walked f := by
  refine ⟨hc.imp_right fun h => ⟨hn, h⟩, fun _ => ⟨hf, hw⟩, fun id hid => ?_⟩
  rw [hn] at hid
  cases hid

theorem Tracks.refl (w : World) : Tracks walked f w w := ⟨rfl, rfl, .inl ⟨rfl, rfl⟩⟩

/-- What comes behind without touching the slots. -/
theorem Tracks.trans_same (h : Tracks walked f g w) (hset : m.setting = w.setting)
    (hname : m.engine.narrative.playerName = w.engine.narrative.playerName)
    (hr : m.records = w.records) (hs : m.saves = w.saves) : Tracks walked f g m := by
  refine ⟨hset.trans h.setting, hname.trans h.playerName, ?_⟩
  rw [hr, hs]
  exact h.kept

theorem Tracks.same (hset : m.setting = g.setting)
    (hname : m.engine.narrative.playerName = g.engine.narrative.playerName)
    (hr : m.records = g.records) (hs : m.saves = g.saves) : Tracks walked f g m :=
  (Tracks.refl g).trans_same hset hname hr hs

theorem Tracks.emit (h : Tracks walked f g w) (e : Event) : Tracks walked f g (w.emit e) :=
  h.trans_same (w.setting_emit e) (by rw [engine_emit]) (w.records_emit e) (w.saves_emit e)

theorem Tracks.settled (h : Tracks walked f g w) : Tracks walked f g w.settled :=
  h.trans_same w.setting_settled w.playerName_settled w.records_settled w.saves_settled

theorem Tracks.ready (h : Tracks walked f g w) (force : Bool) :
    Tracks walked f g (w.ready force) :=
  h.trans_same (w.setting_ready force) (congrArg Bearing.playerName (w.atRest_ready force))
    (w.records_ready force) (w.saves_ready force)

theorem Tracks.inside {n : Node} {a b : World} (h : Tracks walked f g a) (hb : a.Inside n b) :
    Tracks walked f g b :=
  h.trans_same hb.setting (congrArg Bearing.playerName hb.bearing) hb.records hb.saves

/-- The flag and the indicator are no matter of a record either. -/
theorem Tracks.settled_left (h : Tracks walked f g m) : Tracks walked f g.settled m := by
  refine ⟨h.setting.trans g.setting_settled.symm, h.playerName.trans g.playerName_settled.symm, ?_⟩
  have hsaves : g.settled.saved.saves = g.saved.saves := by
    rw [saves_saved, saves_saved, snapshot_settled, saves_settled,
      config_eq_of_setting g.setting_settled]
  rcases h.kept with ⟨hr, hs⟩ | ⟨hr, hs, hg⟩
  · exact .inl ⟨hr.trans g.records_settled.symm, hs.trans g.saves_settled.symm⟩
  · refine .inr ⟨?_, hs.trans hsaves.symm, hg.settled⟩
    rw [hr, records_saved, records_saved, snapshot_settled, records_settled]

theorem Tracks.under_left (h : Tracks walked f g m) (p : Patience) :
    Tracks walked f (g.under p) m :=
  ⟨h.setting, h.playerName, h.kept.imp_right fun hk => ⟨hk.1, hk.2.1, hk.2.2.under p⟩⟩

/-- To write the record of a world that leads to the end. -/
theorem LeadsTo.tracks_saved (h : g.LeadsTo walked f) : Tracks walked f g g.saved :=
  ⟨rfl, rfl, .inr ⟨rfl, rfl, h⟩⟩

end World

namespace Act

open World

/-! ## Walks -/

/-- A walk that is at a node, on the way to an end. -/
structure Heads (halt : Halt) (f : Plot) (g w : World) (id : String) : Prop where
  tracks : Tracks (some (.halted halt)) f g w
  onCourse : w.OnCourse
  walks : ∃ left ≤ w.reach, w.plot.walk left id = some (halt, f)

/-- A walk that is at a node has at least this visit before it. -/
theorem Heads.exists_succ {g w : World} {id : String} {halt : Halt} {f : Plot}
    (h : Heads halt f g w id) : ∃ left < w.reach, w.plot.walk (left + 1) id = some (halt, f) := by
  obtain ⟨left, hleft, hwalk⟩ := h.walks
  cases left with
  | zero => cases hwalk
  | succ left => exact ⟨left, hleft, hwalk⟩

/-- The record behind a node that was told leads to the end, and so does what is left of
the walk. -/
theorem leadsTo_of_told {w m : World} {id : String} {left : Nat} {halt : Halt} {f : Plot}
    (hwalk : w.plot.walk (left + 1) id = some (halt, f)) (hleft : left < w.reach)
    (hplot : some (Visit.ofNext m.engine.narrative.currentNode, m.plot) = w.plot.visit id)
    (hon : m.OnCourse) (hset : m.setting = w.setting) :
    m.LeadsTo (some (.halted halt)) f := by
  refine ⟨.inl hon, ?_, ?_⟩
  · intro hnone
    rw [hnone] at hplot
    have he := Plot.eq_of_walk_of_visit hwalk hplot.symm
    cases he
    exact ⟨rfl, nofun⟩
  · intro id' hid
    rw [hid] at hplot
    have hrest := Plot.walk_of_visit hwalk hplot.symm
    rw [reach_eq_of_setting hset]
    exact ⟨halt, rfl, Plot.walk_of_le hrest (Nat.le_of_lt hleft)⟩

/-- The record of a part that is over leads to where it is, as nothing is left to be
walked. -/
theorem leadsTo_of_partEnd {w v : World} {id : String} {left : Nat} {halt : Halt} {f : Plot}
    {part : Option Nat} (hwalk : w.plot.walk (left + 1) id = some (halt, f))
    (hplot : some (Visit.halt (.partEnd part), v.plot) = w.plot.visit id)
    (hn : v.engine.narrative.currentNode = none)
    (hc : v.OnCourse ∨ ∃ fault, v.shelf v.script = .error fault) :
    v.LeadsTo (some (.halted halt)) f := by
  have he := Plot.eq_of_walk_of_visit hwalk hplot.symm
  cases he
  exact .of_over hn rfl nofun hc

/-- A visit on the way to an end: the records in it lead there, and what comes behind it
is on the way still. -/
theorem visited_tracks {g w : World} {id : String} {halt : Halt} {f : Plot}
    {stops : List World} {out : Outcome Visit} (h : Heads halt f g w id)
    (hv : Visited w id stops out) :
    ∃ last, Legs (Tracks (some (.halted halt)) f) g stops last ∧
      Ends (After (fun _ => Tracks (some (.halted halt)) f) (Heads halt f)) last out := by
  have hplot := hv.plot
  have hg := h.tracks
  have hw := h.onCourse
  obtain ⟨left, hleft, hwalk⟩ := h.exists_succ
  cases hv with
  | missing hn => exact ⟨g, .arrived g, hg⟩
  | @offered n hn hk =>
    have hoffer : Tracks (some (.halted halt)) f g
        ((w.at id).tell (·.present (optionsOf (w.at id) n))) := hg.trans_same rfl rfl rfl rfl
    exact ⟨g, .arrived g, hoffer.emit _⟩
  | @told n stops m hn hc he hp hs hm =>
    have hat : Tracks (some (.halted halt)) f g (w.at id) := hg.trans_same rfl rfl rfl rfl
    have hin : (w.at id).Inside n m := hs m (List.mem_of_getLast? hm)
    have hon : m.OnCourse := hin.onCourse (hw.congr rfl rfl rfl)
    have hnode : m.engine.narrative.currentNode = ((w.at id).storyAfter n).currentNode :=
      congrArg Story.currentNode ‹_›
    rw [← hnode] at hplot
    rw [← hnode]
    have hleads := leadsTo_of_told hwalk hleft hplot hon hin.setting
    -- nothing is written between the suspension points of a node, and its record behind them
    refine ⟨_, .of_rel hs (fun a ha => hat.inside ha) fun a b ha hb => ?_, ?_⟩
    · exact .same (hb.setting.trans ha.setting.symm)
        ((congrArg Bearing.playerName hb.bearing).trans
          (congrArg Bearing.playerName ha.bearing).symm)
        (hb.records.trans ha.records.symm) (hb.saves.trans ha.saves.symm)
    · rw [hm]
      refine After.ofNext hleads.tracks_saved ?_
      intro id' hid
      rw [hid] at hplot
      refine ⟨hleads.tracks_saved, hon.saved, left, ?_, Plot.walk_of_visit hwalk hplot.symm⟩
      rw [show m.saved.reach = m.reach from rfl, reach_eq_of_setting hin.setting]
      exact Nat.le_of_lt hleft
  | crossed hn hc he ht hp hs =>
    -- the whole walk halts, so no limits are crossed in it
    rw [Plot.walk, ← hplot] at hwalk
    cases hwalk
  | ended hn hk hp =>
    rw [Outcome.plot?, plot_emit] at hplot
    have hon : (w.leaving none).OnCourse := hw.congr rfl rfl rfl
    have hleads : (w.leaving none).LeadsTo (some (.halted halt)) f :=
      leadsTo_of_partEnd hwalk hplot rfl (.inl hon)
    exact ⟨_, .leg (hg.trans_same rfl rfl rfl rfl) (.arrived _), hleads.tracks_saved.emit _⟩
  | @lost n part fault hn hk hp hs =>
    rw [Outcome.plot?, plot_emit] at hplot
    have hleads : (w.leaving (some part)).LeadsTo (some (.halted halt)) f :=
      leadsTo_of_partEnd hwalk hplot rfl (hw.leaving hs)
    exact ⟨_, .leg (hg.trans_same rfl rfl rfl rfl) (.leg (.refl _) (.arrived _)),
      hleads.tracks_saved.emit _⟩
  | @turned n part d hn hk hp hs =>
    rw [Outcome.plot?, plot_emit] at hplot
    have hon : ((w.leaving (some part)).turning (.ofDocument d)).OnCourse := ⟨d, hs, rfl⟩
    have hleads : ((w.leaving (some part)).turning (.ofDocument d)).LeadsTo
        (some (.halted halt)) f := leadsTo_of_partEnd hwalk hplot rfl (.inl hon)
    exact ⟨_, .leg (hg.trans_same rfl rfl rfl rfl)
      (.leg (.same rfl rfl rfl rfl) (.arrived _)), hleads.tracks_saved.emit _⟩

theorem advance_tracks {g w : World} {id : String} {force : Bool} {halt : Halt} {f : Plot}
    (hg : Tracks (some (.halted halt)) f g w) (hw : w.OnCourse)
    (hfree : w.engine.narrative.flags.processing = true → force = true)
    (hwalk : w.plot.walk w.reach id = some (halt, f)) :
    Passes (Tracks (some (.halted halt)) f) (Act.advance id force) g w
      fun _ => Tracks (some (.halted halt)) f := by
  have hready : Heads halt f g (w.ready force) id := by
    refine ⟨hg.ready force, ?_, w.reach, ?_, ?_⟩
    · exact hw.congr (w.setting_ready force) (w.graph_ready force) (w.script_ready force)
    · exact Nat.le_of_eq (reach_eq_of_setting (w.setting_ready force)).symm
    · rw [plot_ready]
      exact hwalk
  refine .advance (fun g m hm => ⟨hm.settled, hm.settled.settled_left⟩) ?_
    (.walk (fun _ _ _ _ _ => visited_tracks) _ id hready) ?_
  · intro hb hf
    rw [hfree hb] at hf
    cases hf
  · intro halt g w h
    exact ⟨h.settled.emit _, (h.settled.emit _).settled_left⟩

/-! ## Operations -/

/-- What comes of a walk behind a prelude, which is refused or is what its plot says. -/
theorem of_act_walk {v F : World} {id : String} {force : Bool} {walked : Option Walked}
    (hrun : (Onward.walk id force).act (v.under .endless) = .ok walked F) :
    v.engine.narrative.flags.processing = true ∧ force = false ∧ walked = some .alreadyRunning ∨
      (v.engine.narrative.flags.processing = true → force = true) ∧
        ∃ halt, walked = some (.halted halt) ∧ v.plot.walk v.reach id = some (halt, F.plot) ∧
          (halt = .awaitingChoice → F.Asks) := by
  change (some <$> Act.advance id force) (v.under .endless) = _ at hrun
  rw [map_apply] at hrun
  cases ha : Act.advance id force (v.under .endless) with
  | error s m =>
    rw [ha] at hrun
    cases hrun
  | ok walked' m =>
    rw [ha] at hrun
    cases hrun
    by_cases hfree : v.engine.narrative.flags.processing = true → force = true
    · obtain ⟨halt, rfl, hwalk, hasks⟩ := plot_of_advance hfree ha
      exact .inr ⟨hfree, halt, rfl, hwalk, hasks⟩
    · rw [Classical.not_imp, Bool.not_eq_true] at hfree
      obtain ⟨hb, rfl⟩ := hfree
      rw [(advance_busy hb).whole] at ha
      cases ha
      exact .inl ⟨hb, rfl, rfl⟩

/-- What is left of an operation is on the way to its end. -/
theorem onward_tracks {g v F : World} {on : Onward} {walked : Option Walked}
    (hg : Tracks walked F.plot g v) (hv : v.OnCourse)
    (hrun : on.act (v.under .endless) = .ok walked F) :
    Passes (Tracks walked F.plot) on.act g v fun _ => Tracks walked F.plot := by
  cases on with
  | stay walked' => exact .pure hg
  | walk id force =>
    rcases of_act_walk hrun with ⟨hb, rfl, -⟩ | ⟨hfree, halt, rfl, hwalk, -⟩
    · exact .map ((advance_busy hb).passes (.arrived g) hg)
    · exact .map (advance_tracks hg hv hfree hwalk)

/-- A record that is written before a walk leads to where the walk does. -/
theorem leadsTo_of_onward {g F : World} {node : Option String} {walked : Option Walked}
    (hg : g.OnCourse) (hn : g.engine.narrative.currentNode = node)
    (hrun : (Onward.to node true).act (g.saved.under .endless) = .ok walked F) :
    g.LeadsTo walked F.plot := by
  cases node with
  | none =>
    cases hrun
    exact .of_over hn rfl nofun (.inl hg)
  | some id =>
    refine ⟨.inl hg, fun hnone => ?_, fun id' hid => ?_⟩
    · rw [hn] at hnone
      cases hnone
    · rw [hn] at hid
      cases hid
      rcases of_act_walk hrun with ⟨-, hf, -⟩ | ⟨-, halt, rfl, hwalk, -⟩
      · cases hf
      · exact ⟨halt, rfl, hwalk⟩

end Act

/-- Whether an operation walks on from where the story is. -/
def Operation.GoesOn : Operation → Bool
  | .advance .. | .choose _ => true
  | _ => false

namespace Act

open World

theorem playerName_chosen (w : World) (c : Choice) :
    (w.chosen c).engine.narrative.playerName = w.engine.narrative.playerName :=
  congrArg Bearing.playerName (w.atRest_chosen c)

/-- What an operation writes before it walks leads to its end. -/
theorem Prelude.tracks {w v F : World} {op : Operation} {stops : List World} {on : Onward}
    {walked : Option Walked} (hop : op.GoesOn) (hw : w.OnCourse) (h : Prelude w op stops v on)
    (hrun : on.act (v.under .endless) = .ok walked F) :
    ∃ last, Legs (Tracks walked F.plot) w stops last ∧ Tracks walked F.plot last v ∧
      v.OnCourse := by
  have chosen (c : Choice) : Tracks walked F.plot w (w.chosen c) :=
    .same (w.setting_chosen c) (playerName_chosen w c) (w.records_chosen c) (w.saves_chosen c)
  cases h with
  | busy hop' hb => cases op <;> cases hop <;> cases hop'
  | advance => exact ⟨w, .arrived w, .refl w, hw⟩
  | refused hr => exact ⟨w, .arrived w, .refl w, hw⟩
  -- the record of a choice is written where the walk begins, so it leads to the same end
  | @accepted index c hv hc hn =>
    have hon : ((w.chosen c).tell (·.goTo c.next)).OnCourse := (hw.chosen c).congr rfl rfl rfl
    exact ⟨_, .leg ((chosen c).trans_same rfl rfl rfl rfl) (.arrived _),
      (leadsTo_of_onward hon rfl hrun).tracks_saved, hon.saved⟩
  | @undiverted index c name fault hv hc hn hs =>
    have hon : ((w.chosen c).tell (·.goTo c.next)).OnCourse := (hw.chosen c).congr rfl rfl rfl
    exact ⟨_, .leg (chosen c) (.leg (.same rfl rfl rfl rfl) (.arrived _)),
      (leadsTo_of_onward hon rfl hrun).tracks_saved, hon.saved⟩
  | @diverted index c name d hv hc hn hs =>
    have hon : (((w.chosen c).diverted name (.ofDocument d)).at
        ((w.chosen c).diverted name (.ofDocument d)).entrance).OnCourse :=
      (onCourse_diverted hs).congr rfl rfl rfl
    exact ⟨_, .leg (chosen c) (.leg (.same rfl rfl rfl rfl) (.arrived _)),
      (leadsTo_of_onward hon rfl hrun).tracks_saved, hon.saved⟩
  | _ => cases hop

/-- The step lemma: all that an operation writes leads to its end. -/
theorem operation_tracks {w F : World} {op : Operation} {walked : Option Walked}
    (hop : op.GoesOn) (hw : w.OnCourse) (hrun : op.run (w.under .endless) = .ok walked F) :
    Passes (Tracks walked F.plot) op.run w w fun _ => Tracks walked F.plot := by
  obtain ⟨stops, v, on, hp, hc⟩ := Operation.preluded op w
  rw [hc.whole] at hrun
  obtain ⟨last, hl, hv, hon⟩ := Prelude.tracks hop hw hp hrun
  exact hc.passes hl (onward_tracks hv hon hrun)

/-- An operation that halts at a choice leaves it asked. -/
theorem asks_of_run {w F : World} {op : Operation}
    (hrun : op.run (w.under .endless) = .ok (some (.halted .awaitingChoice)) F) : F.Asks := by
  obtain ⟨stops, v, on, hp, hc⟩ := Operation.preluded op w
  rw [hc.whole] at hrun
  cases on with
  | stay walked =>
    cases hrun
    exact absurd rfl hp.ne_halted
  | walk id force =>
    rcases of_act_walk hrun with ⟨-, -, he⟩ | ⟨-, halt, he, -, hasks⟩
    · cases he
    · cases he
      exact hasks rfl

end Act

end StoryChat
