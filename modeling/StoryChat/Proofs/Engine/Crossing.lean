/-
One interrupt for each crossing.

A `Threshold` watches a number fall. An engine with this interrupt alone, whose script can be
loaded, diverts its story (`Report.Diverted`) at exactly those choices (`Crosses`) whose effect
takes the number from above the threshold to it or below. Nothing else that is done with the
engine asks the interrupt, however it changes the number: neither the actions on a walk nor a
record that is taken up, a reset or a change by hand.

So the number must have risen between two diversions: it was down behind the effect of the first
choice, and it is above the threshold where the second is made.
-/
import StoryChat.Proofs.Engine.Unheard

set_option autoImplicit false

namespace StoryChat

/-! ## Crossings -/

namespace Threshold

/-- Whether the number that is watched is above the threshold. -/
def Exceeded (t : Threshold) (v : Variables) : Prop :=
  ∃ x, v.number? t.name = some x ∧ t.threshold < x

/-- Whether the number that is watched is at the threshold or below. -/
def Undercut (t : Threshold) (v : Variables) : Prop :=
  ∃ x, v.number? t.name = some x ∧ x ≤ t.threshold

variable {t : Threshold} {before after v : Variables}

theorem above_iff : t.above v = true ↔ t.Exceeded v := by
  unfold above Exceeded
  cases v.number? t.name with
  | none => simp
  | some x => simp

theorem reached_iff : t.reached v = true ↔ t.Undercut v := by
  unfold reached Undercut
  cases v.number? t.name with
  | none => simp
  | some x => simp

/-- The interrupt fires where the number is above the threshold before, and not behind. -/
theorem check_of_falls (h : t.Exceeded before) (h' : t.Undercut after) :
    t.check before after = some t.script := by
  unfold check
  rw [above_iff.2 h, reached_iff.2 h']
  rfl

/-- It fires nowhere else. -/
theorem check_of_not_falls (h : ¬ (t.Exceeded before ∧ t.Undercut after)) :
    t.check before after = none := by
  rw [← above_iff, ← reached_iff, ← Bool.and_eq_true] at h
  unfold check
  rw [if_neg h]

end Threshold

/-- Whether a report is that a choice was diverted. -/
def Report.Diverted (report : Report) : Prop :=
  ∃ name walked, report = .chosen (.interrupted name walked)

namespace World

/-- Whether an option is offered at an index whose effect takes the number from above the
threshold to it or below. -/
structure Crosses (w : World) (t : Threshold) (index : Nat) (c : Choice) : Prop where
  waiting : w.engine.narrative.flags.waiting = true
  offered : w.engine.narrative.flags.choices[index]? = some c
  exceeded : t.Exceeded w.engine.narrative.vars
  undercut : t.Undercut (w.engine.narrative.vars.applyImpact c.impact)

/-- Whether an engine watches one threshold and nothing else, and the script for it can be
loaded. -/
structure Watches (t : Threshold) (d : Document) (w : World) : Prop where
  hooks : w.engine.interrupts = [t.check]
  loads : w.shelf (.named t.script) = .ok d

variable {t : Threshold} {d : Document} {w m : World} {c : Choice} {index : Nat} {r : Request}

theorem Watches.interruption?_eq (h : w.Watches t d) (c : Choice) : w.interruption? c =
    t.check w.engine.narrative.vars (w.engine.narrative.vars.applyImpact c.impact) := by
  unfold interruption? firstInterrupt
  rw [h.hooks, List.findSome?_cons]
  cases t.check w.engine.narrative.vars (w.engine.narrative.vars.applyImpact c.impact) <;> rfl

theorem Watches.interruption?_of_crosses (h : w.Watches t d) (hc : w.Crosses t index c) :
    w.interruption? c = some t.script := by
  rw [h.interruption?_eq, Threshold.check_of_falls hc.exceeded hc.undercut]

/-- A request that crosses nothing fires nothing. -/
theorem Watches.unfired (h : w.Watches t d)
    (hr : ∀ index c, r = .play (.choose index) → ¬ w.Crosses t index c) : r.Unfired w := by
  intro index c hplay hw hc
  rw [h.interruption?_eq, Threshold.check_of_not_falls]
  rintro ⟨hexceeded, hundercut⟩
  exact hr index c hplay ⟨hw, hc, hexceeded, hundercut⟩

end World

namespace Act

open World

variable {t : Threshold} {d : Document} {w v m : World} {c : Choice} {index : Nat} {r : Request}
  {p : Patience} {report : Report}

/-! ## What a request does -/

/-- Nothing that is done with an engine changes what it watches. -/
theorem watches_ask (r : Request) : Maintains (Watches t d) r.ask := by
  have hR : Concordant (Alone (Watches t d)) := .alone
    (fun h he hs => ⟨he ▸ h.hooks, hs ▸ h.loads⟩) (fun h _ => ⟨h.hooks, h.loads⟩)
    fun _ h => ⟨h.hooks, h.loads⟩
  have heed : Heeds (Together (Alone (Watches t d))) := Together.heeds fun _ _ h => by rw [h.1]
  refine (hR.ask (fun _ _ => heed) (fun _ _ h => ?_) fun f _ _ _ h => ?_).maintains
  · exact ⟨by rw [h.1], h.2.hooks, h.2.loads⟩
  · exact ⟨by rw [h.1], h.2.hooks, h.2.loads⟩

/-- An interrupt that names a script which can be loaded is answered with that name. -/
theorem interrupt_named {before after : Variables} {name : String} {found : Option (String × Walked)}
    (hn : firstInterrupt v.engine.interrupts before after = some name)
    (hs : v.shelf (.named name) = .ok d) (h : interrupt before after v = .ok found m) :
    ∃ walked, found = some (name, walked) := by
  have hsome := interrupt_ne_none (m := m) hn hs
  unfold interrupt at h hsome
  rw [bind_apply, look_apply] at h hsome
  dsimp only at h hsome
  rw [hn] at h hsome
  obtain ⟨walk?, u, -, hfound⟩ := bind_eq_ok h
  cases hfound
  cases walk? with
  | none => exact absurd h hsome
  | some walked => exact ⟨walked, rfl⟩

/-- A choice that crosses the threshold is answered by the interrupt. -/
theorem chosen_of_crosses {chosen : Chosen} (hw : w.Watches t d) (hc : w.Crosses t index c)
    (h : choose index (w.under p) = .ok chosen m) :
    ∃ walked, chosen = .interrupted t.script walked := by
  have hn := hw.interruption?_of_crosses hc
  have hs := hw.loads
  rw [← firstInterrupt_chosen] at hn
  rw [← shelf_chosen w c] at hs
  rw [choose_apply (w := w.under p) hc.waiting hc.offered, chosen_under] at h
  obtain ⟨found, u, hasked, hlead⟩ := bind_eq_ok h
  obtain ⟨walked, rfl⟩ := interrupt_named (v := (w.chosen c).under p) hn hs hasked
  cases hlead
  exact ⟨walked, rfl⟩

/-- A choice on which nothing fires is not. -/
theorem chosen_of_unfired {chosen : Chosen} (hr : (Request.play (.choose index)).Unfired w)
    (h : choose index (w.under p) = .ok chosen m) (name : String) (walked : Walked) :
    chosen ≠ .interrupted name walked := by
  rintro rfl
  rcases taken_or_refused w index with ⟨c, hw, hc⟩ | hrefused
  · rw [choose_unfired hw hc (hr index c rfl hw hc)] at h
    obtain ⟨next, u, -, hnext⟩ := bind_eq_ok h
    obtain ⟨walk, -, hfalse⟩ := map_eq_ok hnext
    cases hfalse
  · rw [choose_refused hrefused] at h
    have hfalse := (EStateM.Result.ok.inj h).1
    split at hfalse <;> cases hfalse

/-- Only a choice is answered as one. -/
theorem choose_of_ask {chosen : Chosen} (h : r.ask w = .ok (.chosen chosen) m) :
    ∃ index, r = .play (.choose index) ∧ choose index w = .ok chosen m := by
  cases r with
  | play op =>
    cases op with
    | choose index =>
      obtain ⟨answer, hchoose, hanswer⟩ := map_eq_ok h
      cases hanswer
      exact ⟨index, rfl, hchoose⟩
    | loadPart | loadNamed | startChapter | resumeFrom | resumeSaved | beginPending | advance
    | rest | resetGame | setPlayerName =>
      obtain ⟨answer, -, hanswer⟩ := map_eq_ok h
      cases hanswer
  | keep | takeUp | takeUpName | forget | edit | listen =>
    obtain ⟨answer, -, hanswer⟩ := map_eq_ok h
    cases hanswer

/-- The step lemma: a request that is answered is answered by the interrupt if and only if it is
a choice that crosses the threshold. -/
theorem diverted_iff (hw : w.Watches t d) (h : r.ask (w.under p) = .ok report m) :
    report.Diverted ↔ ∃ index c, r = .play (.choose index) ∧ w.Crosses t index c := by
  constructor
  · rintro ⟨name, walked, rfl⟩
    obtain ⟨index, rfl, hchoose⟩ := choose_of_ask h
    -- a choice that crosses nothing goes the way of one on which nothing fires
    by_contra hnone
    have hunfired : (Request.play (.choose index)).Unfired w := hw.unfired fun index c hr hc =>
      hnone ⟨index, c, hr, hc⟩
    exact chosen_of_unfired hunfired hchoose name walked rfl
  · rintro ⟨index, c, rfl, hc⟩
    obtain ⟨chosen, hchoose, rfl⟩ := map_eq_ok h
    obtain ⟨walked, rfl⟩ := chosen_of_crosses hw hc hchoose
    exact ⟨t.script, walked, rfl⟩

end Act

/-! ## Runs -/

namespace World

variable {t : Threshold} {d : Document} {w : World} {requests : List (Patience × Request)}

/-- The world in which a request is made. -/
def facing (w : World) (requests : List (Patience × Request)) (i : Nat) : World :=
  (w.dealings (requests.take i)).2

/-- The run lemma: an engine that watches a threshold watches it however it is dealt with. -/
theorem Watches.dealings (h : w.Watches t d) (requests : List (Patience × Request)) :
    (w.dealings requests).2.Watches t d := by
  induction requests generalizing w with
  | nil => exact h
  | cons request requests ih =>
    obtain ⟨p, r⟩ := request
    have hunder : (w.under p).Watches t d := ⟨h.hooks, h.loads⟩
    exact ih ((Act.watches_ask r _ hunder).left fun _ _ hm => hm)

/-- Whether, among requests to an engine, a threshold diverts the story once for each time at
which the number falls to it by a choice. -/
structure DivertsOnFalls (w : World) (t : Threshold) (d : Document)
    (requests : List (Patience × Request)) : Prop where
  /-- Those choices that cross the threshold are answered by the interrupt, and nothing else. -/
  diverted {i : Nat} {p : Patience} {r : Request} {report : Report} :
    requests[i]? = some (p, r) → (w.dealings requests).1[i]? = some (.ok report) →
    (report.Diverted ↔ ∃ index c, r = .play (.choose index) ∧
      (w.facing requests i).Crosses t index c)
  /-- They go on in the script of the interrupt. -/
  goesOn {i index : Nat} {c : Choice} : (w.facing requests i).Crosses t index c →
    ∃ stops v, (w.facing requests i).Diverts index c stops v t.script d
  /-- Whatever else is requested comes to what it comes to without the interrupt. -/
  undisturbed {i : Nat} {p : Patience} {r : Request} :
    (∀ index c, r = .play (.choose index) → ¬ (w.facing requests i).Crosses t index c) →
    r.ask ((w.facing requests i).under p) = Act.Outcome.inWorld (·.hooked [t.check])
      (r.ask (((w.facing requests i).hooked []).under p))
  /-- Between two diversions the number has risen above the threshold again. -/
  rises {i j : Nat} {report report' : Report} : i < j →
    (w.dealings requests).1[i]? = some (.ok report) → report.Diverted →
    (w.dealings requests).1[j]? = some (.ok report') → report'.Diverted →
    (∃ index c, (w.facing requests i).Crosses t index c) ∧
      t.Exceeded (w.facing requests j).engine.narrative.vars

/-- An answer is that of the request, made in the world that it faces. -/
theorem ask_of_answer {i : Nat} {p : Patience} {r : Request} {report : Report}
    (hr : requests[i]? = some (p, r)) (ha : (w.dealings requests).1[i]? = some (.ok report)) :
    ∃ m, r.ask ((w.facing requests i).under p) = .ok report m := by
  rw [dealings_getElem?, hr, Option.map_some, Option.some_inj] at ha
  change Act.Outcome.answer (r.ask ((w.facing requests i).under p)) = _ at ha
  cases hask : r.ask ((w.facing requests i).under p) with
  | error s m =>
    rw [hask] at ha
    cases ha
  | ok report' m =>
    rw [hask] at ha
    cases ha
    exact ⟨m, rfl⟩

/-- Where there is an answer, there was a request. -/
theorem request_of_answer {i : Nat} {answer : Except Stop Report}
    (ha : (w.dealings requests).1[i]? = some answer) : ∃ p r, requests[i]? = some (p, r) := by
  rw [dealings_getElem?] at ha
  obtain ⟨⟨p, r⟩, hr, -⟩ := Option.map_eq_some_iff.1 ha
  exact ⟨p, r, hr⟩

/-- A `Threshold` that is watched alone (`Watches`), and whose script can always be loaded,
diverts the story once for each fall of the number, whatever is requested and wherever it is
left. -/
theorem diverts_once_per_fall (hhooks : w.engine.interrupts = [t.check])
    (hloads : w.shelf (.named t.script) = .ok d) (requests : List (Patience × Request)) :
    w.DivertsOnFalls t d requests := by
  have hwatches (i : Nat) : (w.facing requests i).Watches t d :=
    Watches.dealings ⟨hhooks, hloads⟩ _
  have crosses {i : Nat} {report : Report} (ha : (w.dealings requests).1[i]? = some (.ok report))
      (hdiverted : report.Diverted) : ∃ index c, (w.facing requests i).Crosses t index c := by
    obtain ⟨p, r, hr⟩ := request_of_answer ha
    obtain ⟨m, hask⟩ := ask_of_answer hr ha
    obtain ⟨index, c, -, hc⟩ := (Act.diverted_iff (hwatches i) hask).1 hdiverted
    exact ⟨index, c, hc⟩
  refine ⟨fun {i p r report} hr ha => ?_, fun {i index c} hc => ?_, fun {i p r} hnone => ?_,
    fun {i j report report'} _ ha hd ha' hd' => ⟨crosses ha hd, ?_⟩⟩
  · obtain ⟨m, hask⟩ := ask_of_answer hr ha
    exact Act.diverted_iff (hwatches i) hask
  · exact ⟨_, _, Act.diverts hc.waiting hc.offered ((hwatches i).interruption?_of_crosses hc)
      (hwatches i).loads⟩
  · have hsame := Act.ask_unheard ((hwatches i).unfired hnone) p
    rw [(hwatches i).hooks] at hsame
    exact hsame
  · -- the second diversion crosses the threshold itself, so the number is above it there
    obtain ⟨index, c, hc⟩ := crosses ha' hd'
    exact hc.exceeded

/-- An option that takes thirty off the tension. -/
def relief : Choice := ⟨"Calm down", none, .ofList [("tension", -30)]⟩

/-- A script that raises the tension and offers relief. -/
def tense : Document :=
  ⟨none, [{ Node.message "start" .system "Hurry!" with
      actions := [.set "tension" (.number 50)]
      next := some "ask" },
    { Node.message "ask" .player "" with kind := .choice, choices := [relief] }]⟩

/-- An engine that watches the tension over this script. -/
def strained : World :=
  .steady (.fresh .instant [Threshold.check ⟨"tension", 20, "calm"⟩] true true)
    (fun _ => .ok tense) (.memory .empty)

/-- The script raises the tension again, so relief diverts the story twice. -/
theorem diverts_twice_strained :
    let t : Threshold := ⟨"tension", 20, "calm"⟩
    let requests := Request.patiently [.play (.startChapter 1 1), .play (.choose 0), .keep,
      .play (.choose 0)]
    let diverted := Report.chosen (.interrupted "calm" (.halted .awaitingChoice))
    strained.engine.interrupts = [t.check] ∧ strained.shelf (.named t.script) = .ok tense ∧
      strained.DivertsOnFalls t tense requests ∧
      (strained.dealings requests).1[1]? = some (.ok diverted) ∧
      (strained.dealings requests).1[3]? = some (.ok diverted) := by
  intro t requests diverted
  exact ⟨rfl, rfl, diverts_once_per_fall rfl rfl requests, by decide +kernel, by decide +kernel⟩

end World

end StoryChat
