/-
What a visit of a node does.

Every node but a choice and the end of a part is visited (`Act.visit`) in the
same way: there are pauses, in which nothing of the story changes; then the story
moves on, and with the next node as its position it is kept. The record is put
into its slot behind the last suspension point of the visit and nothing comes
after it, so whoever leaves a visit finds the slots as they were before it. This
is the fact that all laws about leaving and resuming rest on, and it is stated
here node kind by node kind (`Visited`), for the logic of suspension points.
-/
import StoryChat.Proofs.Engine.Frame

set_option autoImplicit false

namespace StoryChat

/-! ## Pauses -/

/-- Whether the limits of the pause before a message are in order. The draw does not
matter for that, so any will do. -/
def Node.PacedBefore (n : Node) (p : Pacing) : Prop :=
  (n.sender.isNpc → (p.smartDelay? n 0.0).isSome) ∧
    (n.sender = .system → (p.systemPause? n 0.0).isSome)

/-- Whether the limits of the pause behind a message are in order. -/
def Node.PacedBehind (n : Node) (p : Pacing) : Prop :=
  n.hasSuccessor → (p.autoRead? n 0.0).isSome

/-- Whether the limits of the pauses that a message takes are in order. -/
def Node.Paced (n : Node) (p : Pacing) : Prop := n.PacedBefore p ∧ n.PacedBehind p

/-- What a node says in a world. -/
def World.utteranceOf (w : World) (n : Node) : Utterance :=
  ⟨n.id, n.sender, n.kind.medium, w.personalize n.content⟩

theorem World.Inside.utteranceOf {w m : World} {n' : Node} (h : w.Inside n' m) (n : Node) :
    m.utteranceOf n = w.utteranceOf n := by
  have hname : m.engine.narrative.playerName = w.engine.narrative.playerName :=
    congrArg Bearing.playerName h.bearing
  simp only [World.utteranceOf, World.personalize, World.config_eq_of_setting h.setting, hname]

/-- The story behind a node that tells something. -/
def World.storyAfter (w : World) (n : Node) : Story :=
  if n.kind = .typingFake then w.engine.narrative.story.afterTyping n
  else w.engine.narrative.story.afterMessage (w.utteranceOf n) n

theorem World.storyAfter_typing {w : World} {n : Node} (h : n.kind = .typingFake) :
    w.storyAfter n = w.engine.narrative.story.afterTyping n := if_pos h

theorem World.storyAfter_message {w : World} {n : Node} (h : n.kind ≠ .typingFake) :
    w.storyAfter n = w.engine.narrative.story.afterMessage (w.utteranceOf n) n := if_neg h

theorem LengthWindow.isSome_sample? (w : LengthWindow) (chars : Nat) (draw draw' : Float) :
    (w.sample? chars draw).isSome = (w.sample? chars draw').isSome := by
  simp only [sample?, Option.isSome_map]

theorem Pacing.isSome_smartDelay? (p : Pacing) (n : Node) (draw draw' : Float) :
    (p.smartDelay? n draw).isSome = (p.smartDelay? n draw').isSome := by
  unfold smartDelay?
  cases n.explicitDelay with
  | some ms => rfl
  | none =>
    -- the spans differ, so only what is left of them may be compared
    cases n.kind <;> simp only [Option.isSome_some, LengthWindow.isSome_sample? _ _ draw draw']

theorem Pacing.isSome_systemPause? (p : Pacing) (n : Node) (draw draw' : Float) :
    (p.systemPause? n draw).isSome = (p.systemPause? n draw').isSome := by
  unfold systemPause?
  cases n.explicitDelay with
  | some ms => rfl
  | none => exact LengthWindow.isSome_sample? _ _ draw draw'

namespace Act

variable {α : Type} {S : World → World → Prop} {X : Stop → Prop} {g w : World}

/-- An operation from `w` that only lets time pass and shows things, unless it stops
because the limits of a pause are crossed. It does not stop so if `limits` are in
order, and stops in no other way. -/
def Lulls (limits : Prop) (act : Act α) (w : World) : Prop :=
  ∃ stops out, Path act w stops out ∧ (∀ m ∈ stops, w.Lull m) ∧
    match out with
    | .ok _ w' => w.Lull w' ∧ limits
    | .error s _ => s = .crossedLimits ∧ ¬ limits

theorem Lulls.congr {p q : Prop} {act : Act α} {w : World} (h : Lulls p act w) (e : p ↔ q) :
    Lulls q act w := propext e ▸ h

theorem Lulls.bind {β : Type} {p q : Prop} {first : Act α} {next : α → Act β} {w : World}
    (h : Lulls p first w) (h' : ∀ a w', w.Lull w' → Lulls q (next a) w') :
    Lulls (p ∧ q) (first >>= next) w := by
  obtain ⟨stops, out, hp, hs, ho⟩ := h
  cases out with
  | error s w' => exact ⟨stops, _, hp.bind_error, hs, ho.1, fun hpq => ho.2 hpq.1⟩
  | ok a w' =>
    obtain ⟨hl, hlimits⟩ := ho
    obtain ⟨stops', out', hp', hs', ho'⟩ := h' a w' hl
    refine ⟨stops ++ stops', out', hp.bind hp', fun m hm => ?_, ?_⟩
    · rcases List.mem_append.1 hm with hm | hm
      · exact hs m hm
      · exact hl.trans (hs' m hm)
    · cases out' with
      | ok b w'' => exact ⟨hl.trans ho'.1, hlimits, ho'.2⟩
      | error s w'' => exact ⟨ho'.1, fun hpq => ho'.2 hpq.2⟩

/-- Two operations in a row, the second of which has no limits. -/
theorem Lulls.bind_free {β : Type} {p : Prop} {first : Act α} {next : α → Act β} {w : World}
    (h : Lulls p first w) (h' : ∀ a w', w.Lull w' → Lulls True (next a) w') :
    Lulls p (first >>= next) w :=
  (h.bind h').congr (iff_of_eq (and_true p))

/-- Two operations in a row, the first of which has no limits. -/
theorem Lulls.after {β : Type} {q : Prop} {first : Act α} {next : α → Act β} {w : World}
    (h : Lulls True first w) (h' : ∀ a w', w.Lull w' → Lulls q (next a) w') :
    Lulls q (first >>= next) w :=
  (h.bind h').congr (iff_of_eq (true_and q))

theorem Lulls.pure (a : α) (w : World) : Lulls True (pure a) w :=
  ⟨[], .ok a w, .pure a w, fun _ h => absurd h List.not_mem_nil, .refl w, trivial⟩

theorem Lulls.look {f : World → α} {w : World} (hf : ∀ p, f (w.under p) = f w) :
    Lulls True (look f) w :=
  ⟨[], .ok (f w) w, .look hf, fun _ h => absurd h List.not_mem_nil, .refl w, trivial⟩

theorem Lulls.change {f : World → World} {w : World}
    (hf : ∀ p, f (w.under p) = (f w).under p) (h : w.Lull (f w)) : Lulls True (change f) w :=
  ⟨[], .ok () (f w), .change hf, fun _ h => absurd h List.not_mem_nil, h, trivial⟩

theorem Lulls.suspend (w : World) : Lulls True suspend w :=
  ⟨[w], .ok () w, .suspend w, fun _ h => List.mem_singleton.1 h ▸ .refl w, .refl w, trivial⟩

theorem Lulls.sleep (millis : Nat) (w : World) : Lulls True (sleep millis) w :=
  ⟨[], _, .sleep millis w, fun _ h => absurd h List.not_mem_nil, .clock w _, trivial⟩

theorem Lulls.pause (span : Duration) (w : World) : Lulls True (pause span) w := by
  unfold Act.pause
  refine Lulls.change (fun _ => rfl) (.note_pause w span) |>.after fun _ w' _ => ?_
  refine Lulls.look (fun _ => rfl) |>.after fun scaled w' _ => ?_
  split
  · exact .pure () w'
  · exact (Lulls.suspend w').after fun _ w' _ => .sleep _ w'

theorem Lulls.pauseIn (f : Pacing → Window) (w : World) : Lulls True (pauseIn f) w :=
  (Lulls.look fun _ => rfl).after fun span w' _ => .pause span w'

/-- A span is drawn unless its limits are crossed, and for that the draw does not
matter. -/
theorem Lulls.drawn {f : Pacing → Float → Option Duration} {limits : Prop} {w : World}
    (h : (f w.engine.config.pacing w.draw).isSome ↔ limits) : Lulls limits (drawn f) w := by
  cases hd : f w.engine.config.pacing w.draw with
  | none =>
    have look p : Act.drawn f (w.under p) = .error .crossedLimits (w.under p) := by
      unfold Act.drawn
      rw [bind_apply, look_apply]
      simp only [World.engine_under, World.draw_under, hd]
      rfl
    rw [hd] at h
    exact ⟨[], _, .error look, List.forall_mem_nil _, rfl, fun hl =>
      Bool.false_ne_true (h.2 hl)⟩
  | some span =>
    have look p : Act.drawn f (w.under p) = .ok span (w.under p) := by
      unfold Act.drawn
      rw [bind_apply, look_apply]
      simp only [World.engine_under, World.draw_under, hd]
      rfl
    rw [hd] at h
    exact ⟨[], _, .ok look, List.forall_mem_nil _, .refl w, h.1 rfl⟩

/-! ## The pauses of a node -/

theorem Lulls.readAnswer (w : World) : Lulls True readAnswer w := by
  unfold Act.readAnswer
  refine (Lulls.change (fun p => by simp) (.display w .reading)).after fun _ w' _ => ?_
  refine (Lulls.pauseIn (·.reading) w').after fun _ w' _ => ?_
  refine (Lulls.change ?_ ?_).after fun _ w' _ => ?_
  · intro p
    rw [World.engine_under]
    split
    · rfl
    · rw [World.tell_under, World.emit_under]
  · have hs := Narrative.story_markRead w'.engine.narrative
    have hb := Narrative.bearing_markRead w'.engine.narrative
    split
    · exact .refl w'
    · next h =>
      rw [h] at hs hb
      exact .trans (.tell hs hb) (.emit _ _)
  refine (Lulls.change (fun p => by simp) (.display w' .idle)).after fun _ w' _ => ?_
  refine (Lulls.pauseIn (·.thinking) w').after fun _ w' _ => ?_
  exact .change (fun _ => rfl) (.tell rfl rfl)

/-- The pause before a message needs limits only if it is the participant's or the
system's. -/
theorem Lulls.prepare (n : Node) (w : World) :
    Lulls (n.PacedBefore w.engine.config.pacing) (prepare n) w := by
  unfold Act.prepare Node.PacedBefore
  cases n.sender with
  | player => exact (Lulls.pure () w).congr (by simp [Sender.isNpc])
  | system =>
    refine .congr (p := (w.engine.config.pacing.systemPause? n 0.0).isSome = true) ?_ ?_
    · refine .bind_free (.drawn ?_) fun span w' _ => .pause span w'
      rw [Pacing.isSome_systemPause? _ _ _ 0.0]
    · simp [Sender.isNpc]
  | npc name =>
    refine .congr (p := (w.engine.config.pacing.smartDelay? n 0.0).isSome = true) ?_ ?_
    · refine .bind_free (.drawn ?_) fun span w' _ => ?_
      · rw [Pacing.isSome_smartDelay? _ _ _ 0.0]
      split
      · exact .pure () w'
      · refine (Lulls.change ?_ ?_).after fun _ w' _ => ?_
        · intro p; simp
        · exact .trans (.display _ _) (.play _ _)
        refine (Lulls.pause span w').after fun _ w' _ => ?_
        exact .change (fun p => by simp) (.display w' .idle)
    · simp [Sender.isNpc]

theorem Lulls.pretend (sender : Sender) (left : Nat) (w : World) :
    Lulls True (pretend sender left) w := by
  induction left generalizing w with
  | zero => exact .pure () w
  | succ left ih =>
    unfold Act.pretend
    refine (Lulls.change ?_ ?_).after fun _ w' _ => ?_
    · intro p; simp
    · exact .trans (.display _ _) (.play _ _)
    refine (Lulls.pauseIn (·.fakeTyping) w').after fun _ w' _ => ?_
    refine (Lulls.change (fun p => by simp) (.display w' .idle)).after fun _ w' _ => ?_
    split
    · exact .pure () w'
    · exact (Lulls.pauseIn (·.fakeTypingPause) w').after fun _ w' _ => ih w'

/-! ## Delivering a message -/

/-- A participant who has been answered reads first: the first part of `Act.deliver`. -/
def readFirst (n : Node) : Act Unit := do
  if (← look (·.engine.narrative.flags.answered)) && n.sender.isNpc then readAnswer else pure ()

/-- A message is put into the conversation and heard, which `Act.deliver` does once it is
prepared. -/
def speak (n : Node) : Act Unit := do
  post (messageOf · n)
  if n.sender ≠ .player then change (·.play .receive) else pure ()

/-- The pause in which a message is read, which `Act.deliver` leaves behind it if another
follows. -/
def readBehind (n : Node) : Act Unit := do
  if n.hasSuccessor then pause (← drawn fun p draw => p.autoRead? n draw) else pure ()

/-- A delivery in its stages. -/
theorem deliver_eq (n : Node) : deliver n = (do
    readFirst n
    prepare n
    speak n
    readBehind n
    perform n.actions
    goOn (← look fun w => n.resolveNext w.engine.narrative.vars)) := by
  unfold deliver readFirst speak readBehind
  simp only [bind_assoc]
  congr 1
  funext answered
  split <;> split <;> split <;> simp only [bind_assoc, pure_bind]

theorem Lulls.readFirst (n : Node) (w : World) : Lulls True (readFirst n) w := by
  unfold Act.readFirst
  refine (Lulls.look fun _ => rfl).after fun answered w' _ => ?_
  split
  · exact .readAnswer w'
  · exact .pure () w'

theorem Lulls.readBehind (n : Node) (w : World) :
    Lulls (n.PacedBehind w.engine.config.pacing) (readBehind n) w := by
  unfold Act.readBehind Node.PacedBehind
  split
  · next h =>
    refine .congr (p := (w.engine.config.pacing.autoRead? n 0.0).isSome = true) ?_ ?_
    · refine .bind_free (.drawn ?_) fun span w' _ => .pause span w'
      simp only [Pacing.autoRead?, LengthWindow.isSome_sample? _ _ w.draw 0.0]
    · simp [h]
  · next h => exact (Lulls.pure () w).congr (by simp [h])

@[simp] theorem messageOf_under (w : World) (p : Patience) (n : Node) :
    messageOf (w.under p) n = messageOf w n := rfl

@[simp] theorem optionsOf_under (w : World) (p : Patience) (n : Node) :
    optionsOf (w.under p) n = optionsOf w n := rfl

/-- What a node says becomes the last utterance of the story. -/
theorem Path.speak (n : Node) (w : World) :
    ∃ w', Path (speak n) w [] (.ok () w') ∧ w.Inside n w' ∧
      w'.engine.narrative.story = w.engine.narrative.story.say (w.utteranceOf n) := by
  let posted := (w.tell (·.append (messageOf w n))).emit (.message (messageOf w n))
  have hpost : Path (post (messageOf · n)) w [] (.ok () posted) :=
    .change fun p => by simp only [messageOf_under, World.tell_under, World.emit_under]
  have hstory : posted.engine.narrative.story =
      w.engine.narrative.story.say (w.utteranceOf n) := by
    simp only [posted, World.engine_emit, World.narrative_tell, Narrative.story_append,
      messageOf, Message.utterance, World.utteranceOf]
  have hin : w.Inside n posted := ⟨by simp [posted], by simp [posted], by simp [posted],
    by simp [posted], by simp [posted], by rw [hstory]; exact .say (.refl _) rfl⟩
  by_cases hn : n.sender = .player
  · refine ⟨posted, hpost.bind (.ite (fun h => absurd hn h) fun _ => .pure () _), hin, hstory⟩
  · have hplay : Path (Act.change (·.play .receive)) posted [] (.ok () (posted.play .receive)) :=
      .change fun p => by simp
    refine ⟨posted.play .receive, hpost.bind (.ite (fun _ => hplay) fun h => absurd hn h),
      hin.trans ((World.Lull.play _ _).inside n), ?_⟩
    rw [World.engine_play, hstory]

/-! ## Telling and keeping -/

/-- The record is put into its slot behind a suspension point, and at once. -/
theorem Path.persist (w : World) : Path persist w [w] (.ok () w.saved) := by
  refine ⟨rfl, fun k hk => ?_, fun k => ?_⟩
  · obtain rfl : k = 0 := by simpa using hk
    rfl
  · rw [List.length_singleton, Nat.add_comm]
    rfl

/-- An operation from `w` that tells a piece of story, `story` being what it comes to:
no suspension point in it shows a change of the slots or of the bearing, and in the
last one the record of the new story is written. -/
def Tells (n : Node) (limits : Prop) (story : Story) (act : Act (Option String)) (w : World) :
    Prop :=
  ∃ stops out, Path act w stops out ∧ (∀ m ∈ stops, w.Inside n m) ∧
    match out with
    | .ok next w' => limits ∧ next = story.currentNode ∧
        ∃ m, stops.getLast? = some m ∧ m.engine.narrative.story = story ∧ w' = m.saved
    | .error s _ => s = .crossedLimits ∧ ¬ limits

theorem Tells.goOn (n : Node) (next : Option String) (w : World) :
    Tells n True (w.engine.narrative.story.goTo next) (goOn next) w := by
  let m := w.tell (·.goTo next)
  have hp : Path (Act.goOn next) w ([] ++ ([m] ++ [])) (.ok next m.saved) := by
    unfold Act.goOn
    exact .bind (.change fun _ => rfl) (.bind (.persist m) (.pure next _))
  refine ⟨[m], _, hp, fun _ h => ?_, trivial, rfl, m, rfl, rfl, rfl⟩
  rw [List.mem_singleton.1 h]
  exact ⟨rfl, rfl, rfl, rfl, rfl, .goTo (.refl _)⟩

/-- What is told is told as well behind a pause. -/
theorem Tells.after_lull {n : Node} {p q : Prop} {story : Story} {first : Act α}
    {next : α → Act (Option String)} {w : World} (h : Lulls p first w)
    (h' : ∀ a w', w.Lull w' → Tells n q story (next a) w') :
    Tells n (p ∧ q) story (first >>= next) w := by
  obtain ⟨stops, out, hp, hs, ho⟩ := h
  cases out with
  | error s w' =>
    exact ⟨stops, _, hp.bind_error, fun m hm => (hs m hm).inside n, ho.1, fun hpq => ho.2 hpq.1⟩
  | ok a w' =>
    obtain ⟨hl, hlimits⟩ := ho
    obtain ⟨stops', out', hp', hs', ho'⟩ := h' a w' hl
    refine ⟨stops ++ stops', out', hp.bind hp', fun m hm => ?_, ?_⟩
    · rcases List.mem_append.1 hm with hm | hm
      · exact (hs m hm).inside n
      · exact (hl.inside n).trans (hs' m hm)
    · cases out' with
      | error s w'' => exact ⟨ho'.1, fun hpq => ho'.2 hpq.2⟩
      | ok b w'' =>
        obtain ⟨hq, hnext, m, hm, hstory, hw⟩ := ho'
        exact ⟨⟨hlimits, hq⟩, hnext, m, by rw [List.getLast?_append, hm]; rfl, hstory, hw⟩

/-- What is told is told as well behind a change inside the visit. -/
theorem Tells.after_change {n : Node} {q : Prop} {story : Story} {first : Act α}
    {next : α → Act (Option String)} {w w' : World} {a : α}
    (h : Path first w [] (.ok a w')) (hin : w.Inside n w') (h' : Tells n q story (next a) w') :
    Tells n q story (first >>= next) w := by
  obtain ⟨stops', out', hp', hs', ho'⟩ := h'
  exact ⟨stops', out', h.bind hp', fun m hm => hin.trans (hs' m hm), ho'⟩

theorem Tells.congr {n : Node} {p q : Prop} {s t : Story} {act : Act (Option String)}
    {w : World} (h : Tells n p s act w) (e : p ↔ q) (hs : s = t) : Tells n q t act w :=
  propext e ▸ hs ▸ h

theorem Path.perform (as : List Action) (w : World) :
    Path (perform as) w [] (.ok () (w.tell fun n => as.foldl Narrative.act n)) :=
  .change fun _ => rfl

theorem inside_perform (n : Node) (as : List Action) (w : World) :
    w.Inside n (w.tell fun n => as.foldl Narrative.act n) :=
  ⟨rfl, rfl, rfl, rfl, Narrative.bearing_acts _ _, by
    rw [World.narrative_tell, Narrative.story_acts]
    exact .acts (.refl _) as⟩

/-- A message once its author is ready. -/
theorem Tells.speak (n : Node) (w : World) :
    Tells n (n.PacedBehind w.engine.config.pacing)
      (w.engine.narrative.story.afterMessage (w.utteranceOf n) n) (do
        Act.speak n
        readBehind n
        perform n.actions
        Act.goOn (← look fun w => n.resolveNext w.engine.narrative.vars)) w := by
  obtain ⟨w₁, hp, h₁, hsaid⟩ := Path.speak n w
  refine .after_change hp h₁ ?_
  rw [← World.config_eq_of_setting h₁.setting]
  refine .congr (.after_lull (.readBehind n w₁) fun _ w₂ h₂ => ?_) (iff_of_eq (and_true _)) rfl
  refine .after_change (.perform n.actions w₂) (inside_perform n _ _) ?_
  refine .after_change (.look fun _ => rfl) (.refl n _) ?_
  refine (Tells.goOn n _ _).congr .rfl ?_
  -- the actions see the variables as the pause has left them, which is as they were
  rw [World.narrative_tell, Narrative.story_acts, h₂.story, hsaid]
  have hvars : (n.actions.foldl Narrative.act w₂.engine.narrative).vars =
      (n.actions.foldl Story.act (w.engine.narrative.story.say (w.utteranceOf n))).vars := by
    rw [← hsaid, ← h₂.story, ← Narrative.story_acts]
    rfl
  rw [hvars]
  rfl

theorem Tells.deliver (n : Node) (w : World) :
    Tells n (n.Paced w.engine.config.pacing)
      (w.engine.narrative.story.afterMessage (w.utteranceOf n) n) (deliver n) w := by
  rw [deliver_eq]
  refine .congr (.after_lull (.readFirst n w) fun _ w₁ h₁ => ?_) (iff_of_eq (true_and _)) rfl
  rw [← World.config_eq_of_setting h₁.setting]
  refine .after_lull (.prepare n w₁) fun _ w₂ h₂ => ?_
  have h : w.Lull w₂ := h₁.trans h₂
  refine (Tells.speak n w₂).congr ?_ ?_
  · rw [World.config_eq_of_setting h₂.setting]
  · rw [h.story, (h.inside n).utteranceOf]

/-- Pretending to type tells nothing but the node's actions. -/
theorem Tells.fakeTyping (n : Node) (w : World) :
    Tells n True (w.engine.narrative.story.afterTyping n) (fakeTyping n) w := by
  unfold Act.fakeTyping
  refine .after_change (.look fun _ => rfl) (.refl n w) ?_
  refine .congr (.after_lull (.pretend n.sender _ w) fun _ w₁ h₁ => ?_) (iff_of_eq (and_true _)) rfl
  refine .after_change (.perform n.actions w₁) (inside_perform n _ _) ?_
  refine (Tells.goOn n _ _).congr .rfl ?_
  rw [World.narrative_tell, Narrative.story_acts, h₁.story]
  rfl

/-! ## Ending a part -/

/-- A script is asked for behind a suspension point. -/
theorem Path.fetch (id : ScriptId) (w : World) :
    Path (fetch id) w [w] (.ok ((w.shelf id).map Graph.ofDocument) w) :=
  .bind (.suspend w) (.look fun _ => rfl)

end Act

/-- The world in which a part is over and the next one, if one is named, is the position: the
first half of `Act.endPart`. -/
def World.leaving (w : World) (next : Option Nat) : World :=
  w.tell fun n => { n.goTo none with part := next.getD n.part }

/-- The world in which a part waits to be entered: the second half of `Act.endPart`. -/
def World.turning (w : World) (graph : Graph) : World :=
  { w with engine := { w.engine with
      narrative := { w.engine.narrative with
        title := graph.title, activeScript := none, introPending := true }
      graph := some graph } }

namespace Act

theorem Path.endPart_none {n : Node} {w : World} (h : n.nextPart = none) :
    Path (endPart n) w [w.leaving none] (.ok (.partEnd none)
      ((w.leaving none).saved.emit (.partEnded none none))) := by
  unfold Act.endPart
  rw [h]
  refine .seq (.change fun _ => rfl) ?_
  refine .seq (.pure none _) ?_
  refine .cons (.persist _) ?_
  exact .seq (.change fun p => by simp) (.pure _ _)

/-- A part that cannot be loaded is the position all the same. -/
theorem Path.endPart_lost {n : Node} {w : World} {part : Nat} {fault : LoadFault}
    (h : n.nextPart = some part)
    (hs : w.shelf (.part w.engine.narrative.chapter part) = .error fault) :
    Path (endPart n) w [w.leaving (some part), w.leaving (some part)]
      (.ok (.partEnd (some part))
        ((w.leaving (some part)).saved.emit (.partEnded (some part) none))) := by
  unfold Act.endPart
  rw [h]
  refine .seq (.change fun _ => rfl) ?_
  refine .seq (.change fun _ => rfl) ?_
  refine .seq (.look fun _ => rfl) ?_
  have hf := Path.fetch (.part w.engine.narrative.chapter part) (w.leaving (some part))
  change Path _ _ _ (.ok ((w.shelf _).map _) _) at hf
  rw [hs] at hf
  refine .cons hf ?_
  refine .seq (.pure none _) ?_
  refine .cons (.persist _) ?_
  exact .seq (.change fun p => by simp) (.pure _ _)

/-- A part that can be loaded waits to be entered. -/
theorem Path.endPart_loaded {n : Node} {w : World} {part : Nat} {d : Document}
    (h : n.nextPart = some part)
    (hs : w.shelf (.part w.engine.narrative.chapter part) = .ok d) :
    Path (endPart n) w
      [w.leaving (some part), (w.leaving (some part)).turning (.ofDocument d)]
      (.ok (.partEnd (some part)) (((w.leaving (some part)).turning (.ofDocument d)).saved.emit
        (.partEnded (some part) d.title))) := by
  unfold Act.endPart
  rw [h]
  refine .seq (.change fun _ => rfl) ?_
  refine .seq (.change fun _ => rfl) ?_
  refine .seq (.look fun _ => rfl) ?_
  have hf := Path.fetch (.part w.engine.narrative.chapter part) (w.leaving (some part))
  change Path _ _ _ (.ok ((w.shelf _).map _) _) at hf
  rw [hs] at hf
  refine .cons hf ?_
  refine .seq (.change fun _ => rfl) ?_
  refine .seq (.change fun _ => rfl) ?_
  refine .seq (.pure _ _) ?_
  refine .cons (.persist _) ?_
  exact .seq (.change fun p => by simp) (.pure _ _)

/-! ## The visit -/

end Act

/-- The world at a node, where `Act.visit` begins. -/
def World.at (w : World) (id : String) : World := w.tell (·.goTo (some id))

/-- The world in which the options of a node are offered (`Act.offer`). -/
def World.offering (w : World) (n : Node) : World :=
  (w.tell (·.present (Act.optionsOf w n))).emit (.choices (Act.optionsOf w n))

namespace Act

/-- All that a visit of a node (`Act.visit`) can do: its suspension points and what it comes
to. -/
inductive Visited (w : World) (id : String) : List World → Outcome Visit → Prop where
  /-- The graph has no such node. -/
  | missing : w.findNode? id = none → Visited w id [] (.ok (.halt (.missingNode id)) w)
  | offered {n : Node} : w.findNode? id = some n → n.kind = .choice →
      Visited w id [] (.ok (.halt .awaitingChoice) ((w.at id).offering n))
  /-- Something is told. The record of the new story is written in the last suspension
  point. -/
  | told {n : Node} {stops : List World} {m : World} : w.findNode? id = some n →
      n.kind ≠ .choice → n.kind ≠ .partEnd →
      (n.kind = .typingFake ∨ n.Paced w.engine.config.pacing) →
      (∀ s ∈ stops, (w.at id).Inside n s) → stops.getLast? = some m →
      m.engine.narrative.story = (w.at id).storyAfter n →
      Visited w id stops (.ok (.ofNext ((w.at id).storyAfter n).currentNode) m.saved)
  | crossed {n : Node} {stops : List World} {w' : World} : w.findNode? id = some n →
      n.kind ≠ .choice → n.kind ≠ .partEnd →
      n.kind ≠ .typingFake → ¬ n.Paced w.engine.config.pacing →
      (∀ s ∈ stops, (w.at id).Inside n s) → Visited w id stops (.error .crossedLimits w')
  | ended {n : Node} : w.findNode? id = some n → n.kind = .partEnd → n.nextPart = none →
      Visited w id [w.leaving none]
        (.ok (.halt (.partEnd none)) ((w.leaving none).saved.emit (.partEnded none none)))
  /-- The next part cannot be loaded. -/
  | lost {n : Node} {part : Nat} {fault : LoadFault} : w.findNode? id = some n →
      n.kind = .partEnd → n.nextPart = some part →
      w.shelf (.part w.engine.narrative.chapter part) = .error fault →
      Visited w id [w.leaving (some part), w.leaving (some part)]
        (.ok (.halt (.partEnd (some part)))
          ((w.leaving (some part)).saved.emit (.partEnded (some part) none)))
  | turned {n : Node} {part : Nat} {d : Document} : w.findNode? id = some n →
      n.kind = .partEnd → n.nextPart = some part →
      w.shelf (.part w.engine.narrative.chapter part) = .ok d →
      Visited w id [w.leaving (some part), (w.leaving (some part)).turning (.ofDocument d)]
        (.ok (.halt (.partEnd (some part)))
          (((w.leaving (some part)).turning (.ofDocument d)).saved.emit
            (.partEnded (some part) d.title)))

/-- A node that tells something has a visit of the kind that tells. -/
theorem Tells.visited {n : Node} {act : Act (Option String)} {w : World} {id : String}
    {limits : Prop} (hn : w.findNode? id = some n) (hc : n.kind ≠ .choice)
    (he : n.kind ≠ .partEnd)
    (hl : limits ↔ n.kind = .typingFake ∨ n.Paced w.engine.config.pacing)
    (h : Tells n limits ((w.at id).storyAfter n) act (w.at id)) :
    ∃ stops out, Path (do return .ofNext (← act)) (w.at id) stops out ∧ Visited w id stops out := by
  obtain ⟨stops, out, hp, hs, ho⟩ := h
  cases out with
  | error s w' =>
    obtain ⟨rfl, hnot⟩ := ho
    rw [hl, not_or] at hnot
    exact ⟨stops, _, hp.bind_error, .crossed hn hc he hnot.1 hnot.2 hs⟩
  | ok next w' =>
    obtain ⟨hlimits, rfl, m, hm, hstory, rfl⟩ := ho
    exact ⟨stops, _, hp.map, .told hn hc he (hl.1 hlimits) hs hm hstory⟩

/-- No visit touches the setting. -/
theorem Visited.setting {w : World} {id : String} {stops : List World} {out : Outcome Visit}
    (hv : Visited w id stops out) : (∀ m ∈ stops, m.setting = w.setting) ∧
      ∀ g, Ends (fun _ _ w' => w'.setting = w.setting) g out := by
  cases hv with
  | missing => exact ⟨List.forall_mem_nil _, fun _ => rfl⟩
  | offered => exact ⟨List.forall_mem_nil _, fun _ => World.setting_emit _ _⟩
  | told hn hc he hp hs hm =>
    exact ⟨fun m hm => (hs m hm).setting, fun _ => (hs _ (List.mem_of_getLast? hm)).setting⟩
  | crossed hn hc he ht hp hs => exact ⟨fun m hm => (hs m hm).setting, fun _ => Stop.noConfusion⟩
  | ended => exact ⟨List.forall_mem_singleton.2 rfl, fun _ => World.setting_emit _ _⟩
  | lost | turned =>
    exact ⟨List.forall_mem_cons.2 ⟨rfl, List.forall_mem_singleton.2 rfl⟩,
      fun _ => World.setting_emit _ _⟩

/-- What is done at a node. -/
def visitNode (n : Node) : Act Visit := do
  match n.kind with
  | .partEnd => return .halt (← endPart n)
  | .choice =>
    offer n
    return .halt .awaitingChoice
  | .typingFake => return .ofNext (← fakeTyping n)
  | _ => return .ofNext (← deliver n)

/-- A visit of a node that there is is what is done at it. -/
theorem Path.visit {w : World} {id : String} {n : Node} {stops : List World} {out : Outcome Visit}
    (hn : w.findNode? id = some n) (h : Path (visitNode n) (w.at id) stops out) :
    Path (Act.visit id) w stops out := by
  have hlook : Path (Act.look (·.findNode? id)) w [] (.ok (w.findNode? id) w) := .look fun _ => rfl
  rw [hn] at hlook
  exact hlook.seq (.seq (.change fun _ => rfl) h)

/-- Every visit is one of these. -/
theorem visit_path (w : World) (id : String) :
    ∃ stops out, Path (visit id) w stops out ∧ Visited w id stops out := by
  cases hn : w.findNode? id with
  | none =>
    have hlook : Path (look (·.findNode? id)) w [] (.ok (w.findNode? id) w) := .look fun _ => rfl
    rw [hn] at hlook
    exact ⟨[], _, hlook.seq (.pure _ w), .missing hn⟩
  | some n =>
    -- the position is taken first, whatever the node is
    suffices h : ∃ stops out, Path (visitNode n) (w.at id) stops out ∧ Visited w id stops out by
      obtain ⟨stops, out, hp, hv⟩ := h
      exact ⟨stops, out, hp.visit hn, hv⟩
    unfold visitNode
    -- all nodes that are told are told in the same way
    have hdeliver : n.kind ≠ .choice → n.kind ≠ .partEnd → n.kind ≠ .typingFake →
        ∃ stops out, Path (do return .ofNext (← deliver n)) (w.at id) stops out ∧
          Visited w id stops out := by
      intro hc he ht
      have h := Tells.deliver n (w.at id)
      rw [← World.storyAfter_message ht] at h
      exact h.visited hn hc he ⟨.inr, fun h => h.resolve_left ht⟩
    cases hk : n.kind with
    | choice =>
      have hoffer : Path (offer n) (w.at id) [] (.ok () ((w.at id).offering n)) :=
        .change fun p => by simp only [optionsOf_under, World.tell_under, World.emit_under]
      exact ⟨[], _, hoffer.seq (.pure _ _), .offered hn hk⟩
    | partEnd =>
      cases hp : n.nextPart with
      | none => exact ⟨_, _, (Path.endPart_none hp).map, .ended hn hk hp⟩
      | some part =>
        cases hs : w.shelf (.part w.engine.narrative.chapter part) with
        | error fault =>
          exact ⟨_, _, (Path.endPart_lost (w := w.at id) hp hs).map, .lost hn hk hp hs⟩
        | ok d =>
          exact ⟨_, _, (Path.endPart_loaded (w := w.at id) hp hs).map, .turned hn hk hp hs⟩
    | typingFake =>
      have h := Tells.fakeTyping n (w.at id)
      rw [← World.storyAfter_typing hk] at h
      exact h.visited hn (by simp [hk]) (by simp [hk]) ⟨fun _ => .inl hk, fun _ => trivial⟩
    | message | text | audio | image | other =>
      exact hdeliver (by simp [hk]) (by simp [hk]) (by simp [hk])

end Act

end StoryChat
