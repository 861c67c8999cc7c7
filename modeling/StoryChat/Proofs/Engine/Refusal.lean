/-
What is refused changes nothing.

An operation can refuse before it does anything: a walk is under way, nothing waits to be
entered or chosen, there is no such option. It can also fail on the way, when it has asked
for a script or for a record and there is none. In both cases everything is as it was
(`World.Same`): the conversation with all its flags, the script and the slots, and nothing
was told or heard.

For the failures this holds because asking changes nothing and comes before all changes.
For the refusals there is one more thing to see. An operation may ask whether a walk is
under way again behind its first changes, when it starts to walk (`Act.advance`). It would
say so then with the changes made. But what it did by then has not touched the flag, so it
can only be the first of these questions that was answered with yes.
-/
import StoryChat.Proofs.Engine.Choices
import StoryChat.Proofs.Engine.Scene
import StoryChat.Proofs.Save.Slots

set_option autoImplicit false

namespace StoryChat

/-- Whether a world has the same engine, the same slots, and nothing more told or heard in
it than another one. -/
structure World.Same (w m : World) : Prop where
  engine : m.engine = w.engine
  slots : m.saves.medium = w.saves.medium
  events : m.events = w.events
  cues : m.cues = w.cues

theorem World.Same.refl (w : World) : w.Same w := ⟨rfl, rfl, rfl, rfl⟩

theorem World.Same.trans {a b c : World} (h : a.Same b) (h' : b.Same c) : a.Same c :=
  ⟨h'.engine.trans h.engine, h'.slots.trans h.slots, h'.events.trans h.events,
    h'.cues.trans h.cues⟩

namespace Act

variable {α β : Type} {w m : World}

/-! ## Asking changes nothing -/

theorem same_of_suspend (h : suspend w = .ok () m) : w.Same m := by
  unfold suspend at h
  split at h <;> cases h <;> exact ⟨rfl, rfl, rfl, rfl⟩

theorem same_of_fetch {id : ScriptId} {r : Except LoadFault Graph} (h : fetch id w = .ok r m) :
    w.Same m := by
  obtain ⟨u, v, hs, hl⟩ := bind_eq_ok h
  cases hl
  exact same_of_suspend hs

theorem same_of_getSlot {key : String} {r : Except SaveFault (Option String)}
    (h : getSlot key w = .ok r m) : w.Same m := by
  obtain ⟨u, v, hs, hg⟩ := bind_eq_ok h
  have hasked : m = v.asked key := by
    cases hg
    rfl
  rw [hasked]
  exact (same_of_suspend hs).trans ⟨rfl, v.medium_asked key, rfl, rfl⟩

/-! ## Failures -/

/-- Ask for a script and take it in some way. -/
def loading (id : ScriptId) (install : Graph → Act Unit) : Act (Except LoadFault Unit) := do
  match ← fetch id with
  | .error fault => return .error fault
  | .ok graph =>
    install graph
    return .ok ()

theorem loadPart_eq (chapter part : Nat) :
    loadPart chapter part = loading (.part chapter part) installPart := rfl

theorem loadNamed_eq (name : String) :
    loadNamed name = loading (.named name) (installNamed name) := rfl

/-- A script is taken only behind the question for it, and only if it is there. -/
theorem loading_eq_ok {id : ScriptId} {install : Graph → Act Unit} {r : Except LoadFault Unit}
    (h : loading id install w = .ok r m) :
    (∃ fault, r = .error fault ∧ w.Same m) ∨
      ∃ v graph, w.Same v ∧ install graph v = .ok () m ∧ r = .ok () := by
  obtain ⟨loaded, v, hf, hnext⟩ := bind_eq_ok h
  have hsame := same_of_fetch hf
  cases loaded with
  | error fault =>
    cases hnext
    exact .inl ⟨fault, rfl, hsame⟩
  | ok graph =>
    obtain ⟨u, v', hi, hr⟩ := bind_eq_ok hnext
    cases hr
    exact .inr ⟨v, graph, hsame, hi, rfl⟩

theorem same_of_loading {id : ScriptId} {install : Graph → Act Unit} {fault : LoadFault}
    (h : loading id install w = .ok (.error fault) m) : w.Same m := by
  obtain ⟨fault', -, hsame⟩ | ⟨v, graph, -, -, hr⟩ := loading_eq_ok h
  · exact hsame
  · cases hr

theorem same_of_loadPart {chapter part : Nat} {fault : LoadFault}
    (h : loadPart chapter part w = .ok (.error fault) m) : w.Same m := by
  rw [loadPart_eq] at h
  exact same_of_loading h

theorem same_of_loadNamed {name : String} {fault : LoadFault}
    (h : loadNamed name w = .ok (.error fault) m) : w.Same m := by
  rw [loadNamed_eq] at h
  exact same_of_loading h

/-- A record is taken over only if it is there and can be read. -/
theorem loadProgress_eq_ok {r : Except SaveFault Bool} (h : loadProgress w = .ok r m) :
    (r ≠ .ok true ∧ w.Same m) ∨
      ∃ v p, w.Same v ∧ r = .ok true ∧ m = v.tell (·.restore p) := by
  obtain ⟨key, v, hl, h⟩ := bind_eq_ok h
  cases hl
  obtain ⟨found, v, hg, h⟩ := bind_eq_ok h
  have hasked := same_of_getSlot hg
  match found with
  | .error fault =>
    cases h
    exact .inl ⟨nofun, hasked⟩
  | .ok none =>
    cases h
    exact .inl ⟨by simp, hasked⟩
  | .ok (some text) =>
    cases hp : Progress.parse text with
    | error fault =>
      simp only [hp] at h
      cases h
      exact .inl ⟨nofun, hasked⟩
    | ok p =>
      simp only [hp] at h
      cases h
      exact .inr ⟨v, p, hasked, rfl, rfl⟩

theorem same_of_loadProgress {r : Except SaveFault Bool} (h : loadProgress w = .ok r m)
    (hr : r ≠ .ok true) : w.Same m := by
  obtain ⟨-, hsame⟩ | ⟨v, p, -, hread, -⟩ := loadProgress_eq_ok h
  · exact hsame
  · exact absurd hread hr

/-! ## The flag is not touched on the way -/

/-- A script that comes or not changes no flags, if taking it does not. -/
theorem flags_of_loading {id : ScriptId} {install : Graph → Act Unit}
    {r : Except LoadFault Unit} (h : loading id install w = .ok r m)
    (hi : ∀ graph v, install graph v = .ok () m →
      m.engine.narrative.flags = v.engine.narrative.flags) :
    m.engine.narrative.flags = w.engine.narrative.flags := by
  obtain ⟨fault, -, hsame⟩ | ⟨v, graph, hsame, hinstall, -⟩ := loading_eq_ok h
  · rw [hsame.engine]
  · rw [hi graph v hinstall, hsame.engine]

theorem flags_of_loadPart {chapter part : Nat} {r : Except LoadFault Unit}
    (h : loadPart chapter part w = .ok r m) :
    m.engine.narrative.flags = w.engine.narrative.flags := by
  rw [loadPart_eq] at h
  refine flags_of_loading h fun graph v hi => ?_
  cases hi
  rfl

theorem flags_of_loadNamed {name : String} {r : Except LoadFault Unit}
    (h : loadNamed name w = .ok r m) :
    m.engine.narrative.flags = w.engine.narrative.flags := by
  rw [loadNamed_eq] at h
  refine flags_of_loading h fun graph v hi => ?_
  cases hi
  rfl

theorem flags_of_loadPlayerName {r : Except SaveFault Bool}
    (h : loadPlayerName w = .ok r m) :
    m.engine.narrative.flags = w.engine.narrative.flags := by
  obtain ⟨key, v, hl, h⟩ := bind_eq_ok h
  cases hl
  obtain ⟨found, v, hg, h⟩ := bind_eq_ok h
  have hsame : v.engine = w.engine := (same_of_getSlot hg).engine
  match found with
  | .error fault =>
    cases h
    rw [hsame]
  | .ok none =>
    cases h
    rw [hsame]
  | .ok (some name) =>
    by_cases hn : name = ""
    · simp only [hn, if_true] at h
      cases h
      rw [hsame]
    · simp only [hn, if_false] at h
      cases h
      exact congrArg (·.narrative.flags) hsame

/-- Also a record that is taken over leaves them, for the flags are not in it. -/
theorem flags_of_loadProgress {r : Except SaveFault Bool}
    (h : loadProgress w = .ok r m) :
    m.engine.narrative.flags = w.engine.narrative.flags := by
  obtain ⟨-, hsame⟩ | ⟨v, p, hsame, -, rfl⟩ := loadProgress_eq_ok h
  · rw [hsame.engine]
  · exact congrArg (·.narrative.flags) hsame.engine

/-! ## Refusals -/

/-- Only while a walk is under way another one is refused, and at once. -/
theorem busy_of_advance {id : String} {force : Bool}
    (h : Act.advance id force w = .ok .alreadyRunning m) :
    w.engine.narrative.flags.processing = true ∧ m = w := by
  obtain ⟨busy, v, hl, h⟩ := bind_eq_ok h
  cases hl
  by_cases hc : (w.engine.narrative.flags.processing && !force) = true
  · rw [if_pos hc] at h
    cases h
    exact ⟨(Bool.and_eq_true_iff.1 hc).1, rfl⟩
  · -- a walk that begins ends with its own halt
    rw [if_neg hc] at h
    have hwalk {u : World} (h : (guardedWalk id >>= fun halt =>
        change (·.emit (.halted halt)) >>= fun _ => Pure.pure (Walked.halted halt)) u =
          .ok .alreadyRunning m) : False := by
      obtain ⟨halt, v, -, h⟩ := bind_eq_ok h
      cases h
    cases force with
    | false => exact (hwalk h).elim
    | true =>
      obtain ⟨u, v, -, h⟩ := bind_eq_ok h
      exact (hwalk h).elim

theorem busy_of_advanceTo {node : Option String} {force : Bool}
    (h : advanceTo node force w = .ok (some .alreadyRunning) m) :
    w.engine.narrative.flags.processing = true := by
  cases node with
  | none => cases h
  | some id =>
    obtain ⟨walked, hw, he⟩ := map_eq_ok h
    cases he
    exact (busy_of_advance hw).1

theorem busy_of_enter {force : Bool} (h : enter force w = .ok .alreadyRunning m) :
    w.engine.narrative.flags.processing = true := by
  obtain ⟨id, v, hl, h⟩ := bind_eq_ok h
  cases hl
  exact (busy_of_advance h).1

/-- Who enters a part has asked before whether a walk is under way. -/
theorem same_of_startChapter {chapter part : Nat} {r : Except LoadFault Walked}
    (h : startChapter chapter part w = .ok r m) (hr : ∀ halt, r ≠ .ok (.halted halt)) :
    w.Same m := by
  obtain ⟨busy, v, hl, h⟩ := bind_eq_ok h
  cases hl
  by_cases hb : w.engine.narrative.flags.processing = true
  · rw [if_pos hb] at h
    cases h
    exact .refl w
  · rw [if_neg hb] at h
    obtain ⟨loaded, v, hload, h⟩ := bind_eq_ok h
    cases loaded with
    | error fault =>
      cases h
      exact same_of_loadPart hload
    | ok u =>
      obtain ⟨u, v', hc, h⟩ := bind_eq_ok h
      obtain ⟨walked, henter, rfl⟩ := map_eq_ok h
      cases walked with
      | halted halt => exact absurd rfl (hr halt)
      | alreadyRunning =>
        -- it was asked again, but nothing in between has put the flag up
        have hv : v'.engine.narrative.flags = v.engine.narrative.flags := by
          cases hc
          rfl
        have hbusy := busy_of_enter henter
        rw [hv, flags_of_loadPart hload] at hbusy
        exact absurd hbusy hb

/-- Continuing in a part is refused at once, fails before its first change, or comes to
the walk. -/
theorem resumeFrom_eq_ok {chapter part : Nat} {node : Option String}
    {r : Except LoadFault (Option Walked)} (h : resumeFrom chapter part node w = .ok r m) :
    (w.engine.narrative.flags.processing = true ∧ m = w) ∨
      (∃ fault, r = .error fault ∧ w.Same m) ∨
      ∃ v walked, w.engine.narrative.flags.processing ≠ true ∧
        v.engine.narrative.flags = w.engine.narrative.flags ∧
        advanceTo node false v = .ok walked m ∧ r = .ok walked := by
  obtain ⟨busy, v, hl, h⟩ := bind_eq_ok h
  cases hl
  by_cases hb : w.engine.narrative.flags.processing = true
  · rw [if_pos hb] at h
    cases h
    exact .inl ⟨hb, rfl⟩
  · rw [if_neg hb] at h
    obtain ⟨loaded, v, hload, h⟩ := bind_eq_ok h
    cases loaded with
    | error fault =>
      cases h
      exact .inr (.inl ⟨fault, rfl, same_of_loadPart hload⟩)
    | ok u =>
      obtain ⟨u, v', hc, h⟩ := bind_eq_ok h
      obtain ⟨walked, hwalk, rfl⟩ := map_eq_ok h
      have hv : v'.engine.narrative.flags = v.engine.narrative.flags := by
        cases hc
        rfl
      exact .inr (.inr ⟨v', walked, hb, hv.trans (flags_of_loadPart hload), hwalk, rfl⟩)

theorem busy_of_resumeFrom {chapter part : Nat} {node : Option String}
    (h : resumeFrom chapter part node w = .ok (.ok (some .alreadyRunning)) m) :
    w.engine.narrative.flags.processing = true := by
  obtain ⟨hb, -⟩ | ⟨fault, hr, -⟩ | ⟨v, walked, -, hv, hwalk, hr⟩ := resumeFrom_eq_ok h
  · exact hb
  · cases hr
  · cases hr
    rw [← hv]
    exact busy_of_advanceTo hwalk

theorem same_of_resumeFrom {chapter part : Nat} {node : Option String}
    {r : Except LoadFault (Option Walked)} (h : resumeFrom chapter part node w = .ok r m)
    (hr : ∀ walked, r = .ok walked → walked = some .alreadyRunning) : w.Same m := by
  obtain ⟨-, rfl⟩ | ⟨fault, -, hsame⟩ | ⟨v, walked, hb, hv, hwalk, rfl⟩ := resumeFrom_eq_ok h
  · exact .refl m
  · exact hsame
  · obtain rfl := hr walked rfl
    have hbusy := busy_of_advanceTo hwalk
    rw [hv] at hbusy
    exact absurd hbusy hb

theorem busy_of_resumeNamed {name : String} {node : Option String}
    (h : resumeNamed name node w = .ok (.ok (some .alreadyRunning)) m) :
    w.engine.narrative.flags.processing = true := by
  obtain ⟨loaded, v, hload, h⟩ := bind_eq_ok h
  cases loaded with
  | error fault => cases h
  | ok u =>
    obtain ⟨walked, hwalk, he⟩ := map_eq_ok h
    cases he
    rw [← flags_of_loadNamed hload]
    exact busy_of_advanceTo hwalk

/-- The record that is taken over does not put up the flag either. -/
theorem same_of_resumeSaved (h : resumeSaved w = .ok (.ok (some .alreadyRunning)) m) :
    w.Same m := by
  obtain ⟨busy, v, hl, h⟩ := bind_eq_ok h
  cases hl
  by_cases hb : w.engine.narrative.flags.processing = true
  · rw [if_pos hb] at h
    cases h
    exact .refl w
  · rw [if_neg hb] at h
    obtain ⟨named, v₁, hname, h⟩ := bind_eq_ok h
    obtain ⟨loaded, v₂, hload, h⟩ := bind_eq_ok h
    -- the flags are not in the record, so a walk that is refused was under way before
    have hflags : v₂.engine.narrative.flags = w.engine.narrative.flags :=
      (flags_of_loadProgress hload).trans (flags_of_loadPlayerName hname)
    match loaded with
    | .error fault => cases h
    | .ok false => cases h
    | .ok true =>
      obtain ⟨n, v, hl, h⟩ := bind_eq_ok h
      cases hl
      have hbusy : v₂.engine.narrative.flags.processing = true := by
        cases ha : v₂.engine.narrative.activeScript with
        | none =>
          simp only [ha] at h
          exact busy_of_resumeFrom h
        | some name =>
          simp only [ha] at h
          exact busy_of_resumeNamed h
      rw [hflags] at hbusy
      exact absurd hbusy hb

theorem same_of_beginPending {r : Option Walked} (h : beginPending w = .ok r m)
    (hr : ∀ halt, r ≠ some (.halted halt)) : w.Same m := by
  obtain ⟨n, v, hl, h⟩ := bind_eq_ok h
  cases hl
  by_cases hi : w.engine.narrative.introPending = true
  · rw [if_neg (not_not_intro hi)] at h
    by_cases hb : w.engine.narrative.flags.processing = true
    · rw [if_pos hb] at h
      cases h
      exact .refl w
    · rw [if_neg hb] at h
      obtain ⟨u, v, hc, h⟩ := bind_eq_ok h
      obtain ⟨walked, henter, rfl⟩ := map_eq_ok h
      cases walked with
      | halted halt => exact absurd rfl (hr halt)
      | alreadyRunning =>
        have hbusy := busy_of_enter henter
        cases hc
        exact absurd hbusy hb
  · rw [if_pos hi] at h
    cases h
    exact .refl w

/-- Once an option is taken the choice is accepted or interrupted, whatever comes of it. -/
theorem same_of_choose {index : Nat} {r : Chosen} (h : choose index w = .ok r m)
    (hr : r = .notWaiting ∨ ∃ i, r = .invalidIndex i) : w.Same m := by
  obtain ⟨n, v, hl, h⟩ := bind_eq_ok h
  cases hl
  by_cases hw : w.engine.narrative.flags.waiting = true
  · rw [if_neg (not_not_intro hw)] at h
    cases hc : w.engine.narrative.flags.choices[index]? with
    | none =>
      rw [hc] at h
      cases h
      exact .refl w
    | some c =>
      rw [hc] at h
      -- the option is taken from here on, so the answer is neither of the two
      obtain ⟨u, v₁, -, h⟩ := bind_eq_ok h
      obtain ⟨vars, v₂, -, h⟩ := bind_eq_ok h
      obtain ⟨diverted, v₃, -, h⟩ := bind_eq_ok h
      rcases diverted with _ | ⟨name, walk⟩
      · obtain ⟨next, v₄, -, h⟩ := bind_eq_ok h
        obtain ⟨walked, -, rfl⟩ := map_eq_ok h
        rcases hr with hr | ⟨i, hr⟩ <;> cases hr
      · cases h
        rcases hr with hr | ⟨i, hr⟩ <;> cases hr
  · rw [if_pos hw] at h
    cases h
    exact .refl w

end Act

/-! ## All of them -/

/-- The ways in which an operation that begins in `w` can end in `m` without having done
what was asked of it. -/
inductive World.Refused (w m : World) : Prop where
  | advance {id : String} {force : Bool} :
      Act.advance id force w = .ok .alreadyRunning m → Refused w m
  | startChapter {chapter part : Nat} :
      Act.startChapter chapter part w = .ok (.ok .alreadyRunning) m → Refused w m
  | resumeFrom {chapter part : Nat} {node : Option String} :
      Act.resumeFrom chapter part node w = .ok (.ok (some .alreadyRunning)) m → Refused w m
  | resumeSaved : Act.resumeSaved w = .ok (.ok (some .alreadyRunning)) m → Refused w m
  | beginPending : Act.beginPending w = .ok (some .alreadyRunning) m → Refused w m
  | nonePending : Act.beginPending w = .ok none m → Refused w m
  | notWaiting {index : Nat} : Act.choose index w = .ok .notWaiting m → Refused w m
  | invalidIndex {index i : Nat} : Act.choose index w = .ok (.invalidIndex i) m → Refused w m
  | lostPart {chapter part : Nat} {fault : LoadFault} :
      Act.loadPart chapter part w = .ok (.error fault) m → Refused w m
  | lostNamed {name : String} {fault : LoadFault} :
      Act.loadNamed name w = .ok (.error fault) m → Refused w m
  | lostStart {chapter part : Nat} {fault : LoadFault} :
      Act.startChapter chapter part w = .ok (.error fault) m → Refused w m
  | lostResume {chapter part : Nat} {node : Option String} {fault : LoadFault} :
      Act.resumeFrom chapter part node w = .ok (.error fault) m → Refused w m
  | lostProgress {fault : SaveFault} : Act.loadProgress w = .ok (.error fault) m → Refused w m
  | noProgress : Act.loadProgress w = .ok (.ok false) m → Refused w m

/-- Whatever is refused and whatever fails to load (`World.Refused`) leaves the engine and the
slots as they were, and nothing is told or heard. -/
theorem World.Refused.unchanged {w m : World} (h : w.Refused m) : w.Same m := by
  cases h with
  | advance h =>
    rw [(Act.busy_of_advance h).2]
    exact .refl w
  | startChapter h => exact Act.same_of_startChapter h nofun
  | resumeFrom h => exact Act.same_of_resumeFrom h fun _ he => (Except.ok.inj he).symm
  | resumeSaved h => exact Act.same_of_resumeSaved h
  | beginPending h => exact Act.same_of_beginPending h nofun
  | nonePending h => exact Act.same_of_beginPending h nofun
  | notWaiting h => exact Act.same_of_choose h (.inl rfl)
  | invalidIndex h => exact Act.same_of_choose h (.inr ⟨_, rfl⟩)
  | lostPart h => exact Act.same_of_loadPart h
  | lostNamed h => exact Act.same_of_loadNamed h
  | lostStart h => exact Act.same_of_startChapter h nofun
  | lostResume h => exact Act.same_of_resumeFrom h nofun
  | lostProgress h => exact Act.same_of_loadProgress h nofun
  | noProgress h => exact Act.same_of_loadProgress h (by simp)

/-- While the player is asked, an option that there is not is refused. -/
theorem World.Refused.unchanged_asking : ∃ w m : World, w.waits = true ∧
    Act.choose 5 w = .ok (.invalidIndex 5) m ∧ w.Same m := by
  have hrun : ∃ walked w m, Operation.run (.startChapter 1 1)
      ((World.opening .askingFirst).under .endless) = .ok walked w ∧ w.waits = true ∧
      Act.choose 5 w = .ok (.invalidIndex 5) m := ⟨_, _, _, rfl, by decide, rfl⟩
  obtain ⟨_, w, m, -, hw, hchoose⟩ := hrun
  exact ⟨w, m, hw, hchoose, World.Refused.unchanged (.invalidIndex hchoose)⟩

end StoryChat
