/-
What is written can be read, unless a number has become too large.

Of a record everything is read again (`Progress.parse`) that a story can put into it:
senders have names of their own, counts are in range, and points in time have texts. What
is left are numbers. A document has none that is not finite, so that of an infinite one
nothing is written but that there is no value, and a record with no value in the place of
a number is refused as a whole. A counter (`Kind.counter`) has no upper end, and so it can
come to that: two impacts are enough, each of which is a number that a script may well
state.
-/
import StoryChat.Proofs.Engine.Dated
import StoryChat.Proofs.Engine.Writing
import StoryChat.Proofs.Story.Typed

set_option autoImplicit false

namespace StoryChat

open Json

/-! ## Values -/

/-- A number that is not finite has no document of its own. -/
theorem Value.ofJson?_of_not_finite {x : Float} (h : Decimal.isFinite x = false) :
    ofJson? (number x).toJson = none := by
  have hnone : Decimal.documentNumeral? x = none := by
    unfold Decimal.isFinite at h
    unfold Decimal.documentNumeral?
    cases hs : Decimal.shape x with
    | nan => rfl
    | infinite negative => rfl
    | finite negative m q =>
      rw [hs] at h
      cases h
  rw [toJson, Json.float, hnone]
  rfl

/-- The values of variables are accepted if their numbers are. -/
theorem Variables.accepted_iff {v : Variables} :
    (∀ e ∈ v.values.entries, (Value.ofJson? e.2.toJson).isSome) ↔
      ∀ x, v.Holds x → (Value.ofJson? (Value.number x).toJson).isSome := by
  constructor
  · rintro h x ⟨name, hx⟩
    exact h (name, .number x) (Table.get?_eq_some_iff.1 hx)
  · rintro h ⟨name, value⟩ he
    cases value with
    | bool b => rfl
    | text s => rfl
    | number x => exact h x ⟨name, Table.get?_eq_some_iff.2 he⟩

/-! ## Records -/

namespace Json

variable {α β : Type}

/-- A list is read if every element is. -/
theorem isSome_mapM {f : α → Option β} {as : List α} :
    (as.mapM f).isSome ↔ ∀ a ∈ as, (f a).isSome := by
  induction as with
  | nil => simp
  | cons a as ih =>
    rw [List.mapM_cons, List.forall_mem_cons, ← ih]
    cases f a with
    | none => simp
    | some b => cases as.mapM f <;> simp

/-- A table is read if every value is. -/
theorem isSome_asTable?_table {write : α → Json} {read : Json → Option β} {t : Table α} :
    (asTable? read (table write t)).isSome ↔ ∀ e ∈ t.entries, (read (write e.2)).isSome := by
  have hfields : (asTable? read (table write t)).isSome =
      ((t.entries.map fun e => (e.1, write e.2)).mapM
        fun f : String × Json => (read f.2).map (f.1, ·)).isSome := by
    rw [asTable?, table, asFields?_record, Option.bind_eq_bind, Option.bind_some]
    cases List.mapM (fun f : String × Json => (read f.2).map (f.1, ·)) _ <;> rfl
  rw [hfields, isSome_mapM, List.forall_mem_map]
  simp only [Option.isSome_map]

end Json

/-- A regular record with proper points in time is accepted if its values are. -/
theorem Progress.parse_render_iff {p : Progress} (h : p.Regular)
    (hm : ∀ m ∈ p.messages, m.sentAt.Proper) (hv : p.version = recordVersion) :
    (∃ q, parse p.render = .ok q) ↔ ∀ e ∈ p.vars.entries, (Value.ofJson? e.2.toJson).isSome := by
  rw [parse_render_of_regular h (fun m hmem => (hm m hmem).ofText?_text) hv,
    ← isSome_asTable?_table]
  cases asTable? Value.ofJson? (table Value.toJson p.vars) with
  | none => simp
  | some vars => simp

/-! ## Runs -/

namespace World

variable {w m : World} {op : Operation}

/-- Whatever an operation writes in a run is accepted by `Progress.parse` just if its numbers
are finite, given that those that are finite are accepted, and that the points in time of the
clock have texts. -/
theorem Reached.accepts_written (h : w.Reached) (hs : w.Sourced)
    (hclock : ∀ i, (w.moments i).Proper) (hop : op.Records) (hr : op.InRange)
    (hread : ∀ k x, (Act.suspendedIn op.run w k).engine.narrative.vars.Holds x →
      Decimal.isFinite x = true → (Value.ofJson? (Value.number x).toJson).isSome)
    (hl : Act.Leaves op.run w m) : ∃ written, m.records = written ++ w.records ∧
      ∀ text ∈ written, ∃ k,
        text = (Act.suspendedIn op.run w k).engine.narrative.snapshot.render ∧
        ((∃ p, Progress.parse text = .ok p) ↔
          ∀ x, (Act.suspendedIn op.run w k).engine.narrative.vars.Holds x →
            Decimal.isFinite x = true) := by
  obtain ⟨written, hrecords, hall⟩ := records_of_leaves hop hr (h.regular hs) hl
  refine ⟨written, hrecords, fun text htext => ?_⟩
  obtain ⟨k, hregular, rfl⟩ := hall text htext
  have hdated := Act.dated_suspendedIn op (h.dated hclock) k
  refine ⟨k, rfl, ?_⟩
  rw [Progress.parse_render_iff hregular.snapshot hdated.messages rfl]
  refine Variables.accepted_iff.trans ⟨fun haccepted x hx => ?_, fun hfinite x hx => ?_⟩
  · -- nothing is accepted for a number that is not finite
    cases hf : Decimal.isFinite x with
    | true => rfl
    | false =>
      have hsome := haccepted x hx
      rw [Value.ofJson?_of_not_finite hf] at hsome
      cases hsome
  · exact hread k x hx (hfinite x hx)

end World

/-! ### A counter that is raised too far -/

/-- A script that pretends to type once and then offers to raise a counter. -/
def Document.raising : Document :=
  ⟨none, [
    { Node.message "start" .system "" with kind := .typingFake, next := some "ask" },
    { Node.message "ask" .player "" with
      kind := .choice, choices := [⟨"More", none, Table.empty.insert "points" 1e308⟩] }]⟩

/-- A schema with that counter, which is high from the beginning. -/
def Schema.highCounter : Schema := .ofList [.counter "points" 1e308]

/-- A fresh engine over that script. -/
def World.raising : World :=
  .steady (.fresh { Config.instant with schema := .highCounter, typingCycles := 0 } [] false false)
    (fun _ => .ok .raising) (.memory .empty)

theorem Document.given_raising : Document.raising.Given :=
  ⟨Document.raising.toJson, by decide +kernel⟩

theorem World.sourced_raising : World.raising.Sourced where
  given id d h := by
    cases h
    exact Document.given_raising
  built := by
    refine ⟨[.counter "points" 1e308], ?_, rfl⟩
    simp only [List.forall_mem_singleton]
    exact .counter _ _

/-- The number that the counter begins with is accepted. -/
theorem Variables.holds_highCounter : ∀ x, (ofSchema .highCounter).Holds x →
    Decimal.isFinite x = true ∧ (Value.ofJson? (Value.number x).toJson).isSome := by
  have hall : ∀ e ∈ (ofSchema .highCounter).values.entries, ∀ x ∈ e.2.number?,
      Decimal.isFinite x = true ∧ (Value.ofJson? (Value.number x).toJson).isSome := by
    decide +kernel
  exact forall_holds hall

theorem World.proper_raising (i : Nat) : (World.raising.moments i).Proper := by
  have hmillennium : Timestamp.millennium.Proper := by decide +kernel
  exact hmillennium

theorem World.Reached.accepts_written_raising : ∃ m text p,
    Act.Leaves (Operation.startChapter 1 1).run World.raising m ∧ text ∈ m.records ∧
      Progress.parse text = .ok p := by
  have hrun : ∃ m, (Operation.startChapter 1 1).run (World.raising.under .endless) =
      .ok (some (.halted .awaitingChoice)) m ∧ m.records.length = 1 := ⟨_, rfl, by decide +kernel⟩
  obtain ⟨m, hrun, hone⟩ := hrun
  have hvars (k : Nat) : (Act.suspendedIn (Operation.startChapter 1 1).run World.raising
      k).engine.narrative.vars = .ofSchema .highCounter := by
    rcases k with _ | _ | _ | k <;> rfl
  have hrange : (Operation.startChapter 1 1).InRange := ⟨by decide, by decide⟩
  have hfresh : World.raising.Reached := .fresh rfl
  obtain ⟨written, hrecords, hall⟩ := hfresh.accepts_written World.sourced_raising
    World.proper_raising rfl hrange (fun k x hx _ =>
      (Variables.holds_highCounter x (hvars k ▸ hx)).2) (.ended hrun)
  have hwritten : m.records = written := by rw [hrecords, show World.raising.records = [] from rfl,
    List.append_nil]
  obtain ⟨text, htext⟩ := List.length_eq_one_iff.1 hone
  have hmem : text ∈ m.records := by rw [htext]; exact List.mem_singleton_self _
  obtain ⟨k, -, haccepted⟩ := hall text (hwritten ▸ hmem)
  obtain ⟨p, hp⟩ := haccepted.2 fun x hx => (Variables.holds_highCounter x (hvars k ▸ hx)).1
  exact ⟨m, text, p, .ended hrun, hmem, hp⟩

/-- Raised once more, the counter is infinite. -/
theorem Variables.holds_raised : ∃ x, ((ofSchema .highCounter).applyImpact
    (Table.empty.insert "points" 1e308)).Holds x ∧ Decimal.isFinite x = false := by
  refine ⟨1e308 + 1e308, ⟨"points", ?_⟩, ?_⟩
  · decide +kernel
  · decide +kernel

/-- Of the numbers of a raised counter those that are finite are accepted, for there are none. -/
theorem Variables.accepted_raised : ∀ x, ((ofSchema .highCounter).applyImpact
    (Table.empty.insert "points" 1e308)).Holds x → Decimal.isFinite x = true →
    (Value.ofJson? (Value.number x).toJson).isSome := by
  have hall : ∀ e ∈ ((ofSchema .highCounter).applyImpact
      (Table.empty.insert "points" 1e308)).values.entries, ∀ x ∈ e.2.number?,
      Decimal.isFinite x = true → (Value.ofJson? (Value.number x).toJson).isSome := by
    decide +kernel
  exact forall_holds hall

/-- An option that leads nowhere is said and written, and that is all. -/
theorem Act.path_choose {w : World} {index : Nat} {c : Choice}
    (hw : w.engine.narrative.flags.waiting = true)
    (hc : w.engine.narrative.flags.choices[index]? = some c) (hn : w.interruption? c = none)
    (hnext : c.next = none) : Act.Path (Operation.choose index).run w
      [(w.chosen c).tell (·.goTo none)] (.ok none ((w.chosen c).tell (·.goTo none)).saved) := by
  have hcomes := (Act.comes_accepted hw hc hn).map Chosen.walk?
  rw [hnext] at hcomes
  exact hcomes.path (.ok fun _ => rfl)

/-- The option is offered, and where it is chosen the counter is raised and the record of
that is written. -/
theorem World.run_raising : ∃ w v walked,
    (Operation.startChapter 1 1).run (World.raising.under .endless) = .ok walked w ∧
    w.engine.narrative.vars = .ofSchema .highCounter ∧
    Act.Path (Operation.choose 0).run w [v] (.ok none v.saved) ∧ v.records = w.records ∧
    v.engine.narrative.vars = (Variables.ofSchema .highCounter).applyImpact
      (Table.empty.insert "points" 1e308) := by
  have hrun : ∃ w c, (Operation.startChapter 1 1).run (World.raising.under .endless) =
        .ok (some (.halted .awaitingChoice)) w ∧
      w.engine.narrative.flags.waiting = true ∧ w.engine.narrative.flags.choices[0]? = some c ∧
      c.next = none ∧ c.impact = Table.empty.insert "points" 1e308 ∧ w.interruption? c = none ∧
      w.engine.narrative.vars = .ofSchema .highCounter :=
    ⟨_, _, rfl, rfl, rfl, rfl, rfl, rfl, rfl⟩
  obtain ⟨w, c, hrun, hw, hc, hnext, himpact, hn, hvars⟩ := hrun
  refine ⟨w, _, _, hrun, hvars, Act.path_choose hw hc hn hnext, w.records_chosen c, ?_⟩
  rw [← himpact, ← hvars, ← vars_chosen]
  rfl

/-- Wherever the choice is suspended, the numbers that are finite are accepted. -/
theorem World.accepted_raising {w v : World}
    (hvars : w.engine.narrative.vars = .ofSchema .highCounter)
    (hpath : Act.Path (Operation.choose 0).run w [v] (.ok none v.saved))
    (hraised : v.engine.narrative.vars = (Variables.ofSchema .highCounter).applyImpact
      (Table.empty.insert "points" 1e308)) (k : Nat) (x : Float)
    (hx : (Act.suspendedIn (Operation.choose 0).run w k).engine.narrative.vars.Holds x)
    (hf : Decimal.isFinite x = true) : (Value.ofJson? (Value.number x).toJson).isSome := by
  -- the variables are those from before or those behind the choice
  let I (a : World) : Prop := a.engine.narrative.vars = w.engine.narrative.vars ∨
    a.engine.narrative.vars = v.engine.narrative.vars
  have hpass : Act.Passes (fun _ a => I a) (Operation.choose 0).run w w fun _ _ a => I a :=
    hpath.passes (.of_forall w (List.forall_mem_singleton.2 (.inr rfl))) (.inr rfl)
  rcases hpass.suspendedIn (fun _ _ ha => ha) (.inl rfl) hpath.whole k with hk | hk
  · rw [hk, hvars] at hx
    exact (Variables.holds_highCounter x hx).2
  · rw [hk, hraised] at hx
    exact Variables.accepted_raised x hx hf

/-- Not every record that is written is accepted: a counter that starts with a finite number
and is raised by another need not be finite any more. -/
theorem World.not_accepted_of_raising : ¬ ∀ (w m : World) (op : Operation), w.Reached →
    w.Sourced → (∀ i, (w.moments i).Proper) →
    (∀ d ∈ w.engine.config.schema.declarations, ∀ x ∈ d.default.number?,
      Decimal.isFinite x = true) → op.Proceeds → op.InRange →
    (∀ k x, (Act.suspendedIn op.run w k).engine.narrative.vars.Holds x →
      Decimal.isFinite x = true → (Value.ofJson? (Value.number x).toJson).isSome) →
    Act.Leaves op.run w m →
    ∃ written, m.records = written ++ w.records ∧
      ∀ text ∈ written, ∃ p, Progress.parse text = .ok p := by
  intro h
  obtain ⟨w, v, walked, hrun, hvars, hpath, hrecords, hraised⟩ := World.run_raising
  have hstart : (Operation.startChapter 1 1).InRange := ⟨by decide, by decide⟩
  have hchoose : (Operation.choose 0).InRange := trivial
  have hreached : w.Reached := .step (.fresh rfl) hstart (.ended hrun)
  have hset : w.setting = World.raising.setting := Act.Leaves.setting (.ended hrun)
  have hsourced : w.Sourced := World.sourced_raising.congr hset
  have hclock : ∀ i, (w.moments i).Proper := by
    have hsame : w.moments = World.raising.moments := congrArg Setting.moments hset
    rw [hsame]
    exact World.proper_raising
  have hdefaults : ∀ d ∈ w.engine.config.schema.declarations, ∀ x ∈ d.default.number?,
      Decimal.isFinite x = true := by
    rw [config_eq_of_setting hset]
    decide +kernel
  obtain ⟨written, hwritten, hall⟩ := h w (v.saved.under .endless) (.choose 0) hreached hsourced
    hclock hdefaults rfl hchoose (World.accepted_raising hvars hpath hraised) (.ended hpath.whole)
  -- what is written is the record of the last world that the choice was suspended in
  rw [records_under, records_saved, hrecords, ← List.singleton_append, List.append_left_inj]
    at hwritten
  obtain ⟨p, hp⟩ := hall v.engine.narrative.snapshot.render (by
    rw [← hwritten]
    exact List.mem_singleton_self _)
  obtain ⟨q, hq⟩ : ∃ q, Act.suspendedIn (Operation.choose 0).run w 1 = v.under q :=
    hpath.suspendedIn rfl
  have hregular : (v.under q).Regular := by
    rw [← hq]
    exact (Act.operation_regular (hreached.regular hsourced) hchoose).suspendedIn
      (fun _ p hm => hm.under p) (hreached.regular hsourced) hpath.whole 1
  have hdated : (v.under q).scene.Dated := by
    rw [← hq]
    exact Act.dated_suspendedIn (.choose 0) (hreached.dated hclock) 1
  -- it is accepted, and yet it holds a number that is not
  have haccepted := (Progress.parse_render_iff hregular.snapshot hdated.messages rfl).1 ⟨p, hp⟩
  obtain ⟨x, hx, hnot⟩ := Variables.holds_raised
  have hsome := Variables.accepted_iff.1 haccepted x (hraised ▸ hx)
  rw [Value.ofJson?_of_not_finite hnot] at hsome
  cases hsome

end StoryChat
