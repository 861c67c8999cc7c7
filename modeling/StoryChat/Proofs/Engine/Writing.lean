/-
What stands in the slot for progress.

From one suspension point of an operation to the next at most one record is written, and it
is that of the first of the two: between a suspension point and the record behind it nothing
of the conversation changes. So whatever an operation writes (`Writes`) is the record of a
world in which it was suspended, and each of these is regular. The slot follows: it holds
what it held before, or such a record.

This is so of all operations that continue or load (`Operation.Records`), from any world, on
course or not. Left out are the two that put something else into a slot or empty it: to name
the player, whose name may have the same slot, and to begin anew.
-/
import StoryChat.Proofs.Engine.Course
import StoryChat.Proofs.Engine.Regular

set_option autoImplicit false

namespace StoryChat

/-! ## Invariants of what is left behind -/

/-- What holds at the beginning and is kept from each suspension point to what comes behind
it holds of all that is left behind, if the patience does not matter for it. -/
theorem Act.Passes.leaves_of_step {α : Type} {S : World → World → Prop} {act : Act α}
    {I : World → Prop} {w w' : World} (h : Act.Passes S act w w fun _ => S)
    (hI : ∀ w p, I w → I (w.under p)) (begin : I w)
    (step : ∀ k a b p, Act.suspendedIn act w k = a.under p → S a b → I a → I b)
    (hl : Act.Leaves act w w') : I w' := by
  cases hl with
  | cut hc =>
    obtain ⟨b, p, hb, rfl⟩ := h.invariant begin step (.inl hc)
    exact hI b p hb
  | @ended r w' he =>
    obtain ⟨stops, out, last, hp, hpasses⟩ := h
    rw [hp.whole] at he
    cases out with
    | error s m => cases he
    | ok r' m =>
      cases he
      -- with patience for all suspension points and no more, the end is the same
      have hend := hp.spared 0
      obtain ⟨b, p, hb, hm⟩ := Act.Passes.invariant ⟨stops, _, last, hp, hpasses⟩ begin step
        (.inr ⟨r, hend⟩)
      -- the end differs from the one with that patience in the patience alone
      have hsame : (m.under (.suspensions 0)).under .endless = (b.under p).under .endless := by
        rw [hm]
      change I ((m.under (.suspensions 0)).under .endless)
      rw [hsame]
      exact hI b _ hb

namespace World

/-! ## Writing -/

/-- From one world to the next no record was written, or that of the first, which was
regular; and the slot for progress followed. -/
structure Writes (g m : World) : Prop where
  setting : m.setting = g.setting
  refusal : m.saves.refusal = g.saves.refusal
  kept : (m.records = g.records ∧ m.saves.medium = g.saves.medium) ∨
    (m.records = g.engine.narrative.snapshot.render :: g.records ∧
      m.saves.medium = g.saved.saves.medium ∧ g.Regular)

variable {g w m : World}

theorem Writes.refl (w : World) : w.Writes w := ⟨rfl, rfl, .inl ⟨rfl, rfl⟩⟩

/-- Changes that write nothing. -/
theorem Writes.of_eq (h : g.Writes w) (hset : m.setting = w.setting)
    (hr : m.records = w.records) (href : m.saves.refusal = w.saves.refusal)
    (hm : m.saves.medium = w.saves.medium) : g.Writes m := by
  refine ⟨hset.trans h.setting, href.trans h.refusal, ?_⟩
  rw [hr, hm]
  exact h.kept

/-- Changes that make no call. -/
theorem Writes.of_calls (h : g.Writes w) (hset : m.setting = w.setting)
    (hs : m.saves = w.saves) (hc : m.calls = w.calls) : g.Writes m :=
  h.of_eq hset (records_eq hset hc) (by rw [hs]) (by rw [hs])

theorem Writes.emit (h : g.Writes w) (e : Event) : g.Writes (w.emit e) :=
  h.of_calls (w.setting_emit e) (w.saves_emit e) (w.calls_emit e)

theorem Writes.settled (h : g.Writes w) : g.Writes w.settled :=
  h.of_calls w.setting_settled w.saves_settled w.calls_settled

theorem Writes.ready (h : g.Writes w) (force : Bool) : g.Writes (w.ready force) :=
  h.of_calls (w.setting_ready force) (w.saves_ready force) (w.calls_ready force)

theorem Inside.writes {n : Node} (h : w.Inside n m) (hg : g.Writes w) : g.Writes m :=
  hg.of_calls h.setting h.saves h.calls

/-- Nothing is written from one world inside a node to another. -/
theorem Inside.writes_inside {n : Node} {a b : World} (ha : w.Inside n a) (hb : w.Inside n b) :
    a.Writes b :=
  (Writes.refl a).of_calls (hb.setting.trans ha.setting.symm) (hb.saves.trans ha.saves.symm)
    (hb.calls.trans ha.calls.symm)

/-- The record is written in a regular world. -/
theorem Regular.writes_saved (h : w.Regular) : w.Writes w.saved := by
  refine ⟨rfl, ?_, .inr ⟨w.records_saved, rfl, h⟩⟩
  rw [saves_saved]
  unfold Saves.set
  split <;> rfl

/-- What was written behind a walk was written before the flag is taken down, too. -/
theorem Writes.settled_left (h : g.Writes m) : g.settled.Writes m := by
  refine ⟨h.setting.trans g.setting_settled.symm, ?_, ?_⟩
  · rw [h.refusal, saves_settled]
  · rw [records_settled, saves_settled, snapshot_settled]
    rcases h.kept with hk | ⟨hr, hm, hg⟩
    · exact .inl hk
    · refine .inr ⟨hr, ?_, hg.settled⟩
      rw [hm, saves_saved, saves_saved, saves_settled, snapshot_settled,
        config_eq_of_setting g.setting_settled]

theorem records_asked (w : World) (key : String) : (w.asked key).records = w.records := rfl

theorem records_called (w : World) : w.called.records = w.records := by
  unfold called
  split <;> rfl

theorem refusal_asked (w : World) (key : String) :
    (w.asked key).saves.refusal = w.saves.refusal := Saves.refusal_get _ _

theorem Writes.asked (h : g.Writes w) (key : String) : g.Writes (w.asked key) :=
  h.of_eq rfl (w.records_asked key) (w.refusal_asked key) (w.medium_asked key)

theorem Writes.called (h : g.Writes w) : g.Writes w.called :=
  h.of_eq w.setting_called w.records_called w.refusal_called w.medium_called

theorem Writes.recalled (h : g.Writes w) (p : Progress) : g.Writes (w.recalled p) :=
  (h.asked _).of_calls rfl rfl rfl

theorem Writes.opened (h : g.Writes w) (id : ScriptId) (graph : Graph) :
    g.Writes (w.opened id graph) := by
  cases id <;> exact h.of_calls rfl rfl rfl

theorem Writes.chosen (h : g.Writes w) (c : Choice) : g.Writes (w.chosen c) :=
  h.of_calls (w.setting_chosen c) (w.saves_chosen c) (w.calls_chosen c)

end World

/-! ## Walks -/

namespace Act

open World

variable {g w : World}

/-- A visit writes at its end, and what it writes is the record of its last suspension
point. -/
theorem visited_writes {id : String} {stops : List World} {out : Outcome Visit}
    (hg : g.Writes w) (hw : w.Regular) (hv : Visited w id stops out) :
    ∃ last, Legs World.Writes g stops last ∧
      Ends (After (fun _ g w => g.Writes w ∧ w.Regular) fun g w _ => g.Writes w ∧ w.Regular)
        last out := by
  obtain ⟨hstops, hout⟩ := visited_regular (g := g) hw hv
  have hat : g.Writes (w.at id) := hg.of_calls rfl rfl rfl
  have hleft (next : Option Nat) : g.Writes (w.leaving next) := hg.of_calls rfl rfl rfl
  cases hv with
  | missing hn => exact ⟨g, .arrived g, hg, hw⟩
  | @offered n hn hk =>
    have hoffer : g.Writes ((w.at id).offering n) :=
      Writes.emit (w := (w.at id).tell (·.present (optionsOf (w.at id) n)))
        (hat.of_calls rfl rfl rfl) _
    exact ⟨g, .arrived g, hoffer, hout⟩
  -- nothing is written between the suspension points, and the record is kept behind the last
  | @told n stops m hn hc he hp hs hm =>
    have hlast : m.Regular := hstops m (List.mem_of_getLast? hm)
    have hend : m.Writes m.saved ∧ m.saved.Regular := ⟨hlast.writes_saved, hlast.saved⟩
    refine ⟨_, .of_rel hs (fun a ha => ha.writes hat) fun a b => Inside.writes_inside, ?_⟩
    rw [hm]
    exact After.ofNext hend fun _ _ => hend
  | crossed hn hc he ht hp hs =>
    exact ⟨_, .of_rel hs (fun a ha => ha.writes hat) fun a b => Inside.writes_inside,
      Stop.noConfusion⟩
  | ended hn hk hp =>
    have hlast : (w.leaving none).Regular := hstops _ (List.mem_singleton_self _)
    exact ⟨_, .leg (hleft none) (.arrived _), hlast.writes_saved.emit _, hout⟩
  | @lost n part fault hn hk hp hs =>
    have hlast : (w.leaving (some part)).Regular := hstops _ (List.mem_cons_self)
    exact ⟨_, .leg (hleft (some part)) (.leg (.refl _) (.arrived _)),
      hlast.writes_saved.emit _, hout⟩
  | @turned n part d hn hk hp hs =>
    have hlast : ((w.leaving (some part)).turning (.ofDocument d)).Regular :=
      hstops _ (List.mem_cons_of_mem _ (List.mem_singleton_self _))
    exact ⟨_, .leg (hleft (some part)) (.leg ((Writes.refl _).of_calls rfl rfl rfl) (.arrived _)),
      hlast.writes_saved.emit _, hout⟩

theorem advance_writes {id : String} {force : Bool} (hg : g.Writes w) (hw : w.Regular) :
    Passes World.Writes (Act.advance id force) g w fun _ => World.Writes := by
  refine .advance (fun g m hm => ⟨hm.settled, hm.settled.settled_left⟩) (fun _ _ => hg)
    (.walk (fun g w id stops out h hv => visited_writes h.1 h.2 hv) _ id
      ⟨hg.ready force, hw.ready force⟩) fun halt g w h => ?_
  exact ⟨h.1.settled.emit _, (h.1.settled.emit _).settled_left⟩

end Act

/-! ## Operations -/

/-- Whether an operation puts nothing but records into the slots, and empties none. -/
def Operation.Records : Operation → Bool
  | .resetGame | .setPlayerName _ => false
  | _ => true

/-- Whether an operation is one by which a story goes on: a part is begun, an option chosen
or a record continued from. -/
def Operation.Proceeds : Operation → Bool
  | .startChapter .. | .beginPending | .choose _ | .resumeSaved => true
  | _ => false

theorem Operation.records_of_proceeds {op : Operation} (h : op.Proceeds) : op.Records := by
  cases op with
  | resetGame | setPlayerName => cases h
  | _ => rfl

namespace Act

open World

variable {w v : World} {op : Operation} {stops : List World} {on : Onward}

/-- What an operation writes before it walks. -/
theorem Prelude.writes (hop : op.Records) (hr : op.InRange) (hw : w.Regular)
    (h : Prelude w op stops v on) :
    ∃ last, Legs World.Writes w stops last ∧ last.Writes v := by
  obtain ⟨hstops, hv⟩ := Prelude.regular hw hr h
  have here {m : World} (hm : w.Writes m) :
      ∃ last, Legs World.Writes w [w] last ∧ last.Writes m :=
    ⟨w, .leg (.refl w) (.arrived w), hm⟩
  have hcalled : w.Writes w.called := (Writes.refl w).called
  cases h with
  | busy | nonePending | busyPending | advance | refused => exact ⟨w, .arrived w, .refl w⟩
  | begunPending | rest => exact ⟨w, .arrived w, (Writes.refl w).of_calls rfl rfl rfl⟩
  | lostPart | lostNamed | lostStart | lostResume => exact here (.refl w)
  | loadedPart | loadedNamed | started | resumed =>
    exact here ((Writes.refl w).of_calls rfl rfl rfl)
  | unread =>
    exact ⟨_, .leg (.refl w) (.leg hcalled (.arrived _)), (Writes.refl _).asked _⟩
  | @lostRecord p =>
    exact ⟨_, .leg (.refl w) (.leg hcalled (.leg ((Writes.refl _).recalled p) (.arrived _))),
      .refl _⟩
  | @recalled p d =>
    exact ⟨_, .leg (.refl w) (.leg hcalled (.leg ((Writes.refl _).recalled p) (.arrived _))),
      (Writes.refl _).opened _ _⟩
  -- a choice is recorded as it is at the last suspension point before the walk
  | @accepted index c =>
    have hlast : ((w.chosen c).tell (·.goTo c.next)).Regular :=
      hstops _ (List.mem_singleton_self _)
    exact ⟨_, .leg (((Writes.refl w).chosen c).of_calls rfl rfl rfl) (.arrived _),
      hlast.writes_saved⟩
  | @undiverted index c =>
    have hlast : ((w.chosen c).tell (·.goTo c.next)).Regular :=
      hstops _ (List.mem_cons_of_mem _ (List.mem_singleton_self _))
    exact ⟨_, .leg ((Writes.refl w).chosen c)
      (.leg ((Writes.refl _).of_calls rfl rfl rfl) (.arrived _)), hlast.writes_saved⟩
  | @diverted index c =>
    have hlast := hstops _ (List.mem_cons_of_mem _ (List.mem_singleton_self _))
    exact ⟨_, .leg ((Writes.refl w).chosen c)
      (.leg ((Writes.refl _).of_calls rfl rfl rfl) (.arrived _)), hlast.writes_saved⟩
  | resetGame | setPlayerName => cases hop

/-- The step lemma: from one suspension point to the next an operation writes the record of
the first, or nothing. -/
theorem operation_writes (hop : op.Records) (hr : op.InRange) (hw : w.Regular) :
    Passes World.Writes op.run w w fun _ => World.Writes := by
  refine .operation fun stops v on h => ?_
  obtain ⟨last, hl, hv⟩ := Prelude.writes hop hr hw h
  exact ⟨last, hl, .onward (fun _ _ => hv) fun id force _ =>
    advance_writes hv (Prelude.regular hw hr h).2⟩

end Act

namespace World

variable {w m : World} {op : Operation}

/-- Wherever an operation is left, what it has written are records of regular worlds in which
it was suspended. -/
theorem records_of_leaves (hop : op.Records) (hr : op.InRange) (hw : w.Regular)
    (hl : Act.Leaves op.run w m) : ∃ written, m.records = written ++ w.records ∧
      ∀ text ∈ written, ∃ k, (Act.suspendedIn op.run w k).Regular ∧
        text = (Act.suspendedIn op.run w k).engine.narrative.snapshot.render := by
  -- the invariant of the suspension points, which does not mention the patience
  let I (a : World) : Prop := ∃ written, a.records = written ++ w.records ∧
    ∀ text ∈ written, ∃ k, (Act.suspendedIn op.run w k).Regular ∧
      text = (Act.suspendedIn op.run w k).engine.narrative.snapshot.render
  have begin : I w := ⟨[], rfl, List.forall_mem_nil _⟩
  have step (k : Nat) (a b : World) (p : Patience)
      (ha : Act.suspendedIn op.run w k = a.under p) (hab : a.Writes b) (hI : I a) : I b := by
    obtain ⟨written, hrecords, hall⟩ := hI
    rcases hab.kept with ⟨hsame, -⟩ | ⟨hnew, -, hregular⟩
    · exact ⟨written, hsame.trans hrecords, hall⟩
    · refine ⟨a.engine.narrative.snapshot.render :: written, ?_, ?_⟩
      · rw [hnew, hrecords, List.cons_append]
      · refine List.forall_mem_cons.2 ⟨⟨k, ?_, ?_⟩, hall⟩
        · rw [ha]
          exact hregular.under p
        · rw [ha, engine_under]
  exact (Act.operation_writes hop hr hw).leaves_of_step (fun _ _ h => h) begin step hl

end World

end StoryChat
