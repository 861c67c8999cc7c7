/-
One run follows another.

Two worlds are played whose scripts differ only in what nobody knows. Where one of two nodes
looks as if the story went on behind it and the other does not, one world pauses and the other
passes on, so the pauses stand at other places of the two journals, and from then on the same
draws stand at other places too. The second world can be given draws of its own with which it
draws whatever the first one drew. Which draws these are is known only when the first run has
ended, so they are put together as the run is: behind each operation from those of the parts.

That one world `Shadows` another is the relation that such runs keep: only scripts, pauses and
times tell the worlds apart. An operation `Follows` another one if, whenever that one ends, it
ends with the same in a world that shadows the other, with some draws of its own and with all
that agree with them where they are looked at. If the second world may pause where the first
one did not, there is one other end: the limits of that pause are crossed.
-/
import StoryChat.Proofs.Engine.Completion
import StoryChat.Proofs.Engine.Indifference
import Mathlib.Order.Interval.Set.Basic
import Mathlib.Data.Set.Function

set_option autoImplicit false

namespace StoryChat

/-- What an entry tells, which for a pause is nothing. -/
def Entry.told? : Entry → Option Entry
  | .pause _ => none
  | e => some e.timeless

namespace World

/-! ## What is told -/

/-- How much stands in the journal. -/
def age (w : World) : Nat := w.journal.length

/-- The world with other draws. -/
def drawing (w : World) (draws : Nat → Float) : World := { w with draws }

/-- Events, cues and calls on the slots, in their order and without their times. -/
def tale (w : World) : List Entry := w.journal.reverse.filterMap Entry.told?

theorem tale_note (w : World) (e : Entry) : (w.note e).tale = w.tale ++ e.told?.toList := by
  unfold tale
  rw [journal_note, List.reverse_cons, List.filterMap_append]
  cases he : e.told? <;> simp [he]

/-- The world in which the story went on behind a node. -/
def beyond (w : World) (n : Node) : World :=
  let acted := w.tell fun c => n.actions.foldl Narrative.act c
  (acted.tell (·.goTo (n.resolveNext acted.engine.narrative.vars))).saved

/-! ## Worlds that shadow others -/

/-- Whether nothing but scripts, pauses and times tells two worlds apart, and their scripts go
together node by node. -/
structure Shadows (T : Node → Node → Prop) (p : Pacing) (w w' : World) : Prop where
  rest : { w'.holding w.engine.graph with
    shelf := w.shelf, clock := w.clock, draws := w.draws, journal := w.journal } = w
  pacing : w.engine.config.pacing = p
  patience : w.patience = .endless
  tale : w'.tale = w.tale
  graph : Option.Rel (Graph.Along T) w.engine.graph w'.engine.graph
  shelf : ∀ id, Fetched (Graph.Along T) ((w.shelf id).map .ofDocument)
    ((w'.shelf id).map .ofDocument)

namespace Shadows

variable {T : Node → Node → Prop} {p : Pacing} {w w' : World}

theorem engine (h : w.Shadows T p w') :
    { w'.engine with graph := w.engine.graph } = w.engine := congrArg World.engine h.rest

theorem config (h : w.Shadows T p w') : w'.engine.config = w.engine.config :=
  congrArg (·.config) h.engine

theorem interrupts (h : w.Shadows T p w') : w'.engine.interrupts = w.engine.interrupts :=
  congrArg (·.interrupts) h.engine

theorem narrative (h : w.Shadows T p w') : w'.engine.narrative = w.engine.narrative :=
  congrArg (·.narrative) h.engine

theorem saves (h : w.Shadows T p w') : w'.saves = w.saves := by
  have hsaves := congrArg World.saves h.rest
  exact hsaves

theorem patience' (h : w.Shadows T p w') : w'.patience = .endless :=
  (congrArg World.patience h.rest).trans h.patience

theorem pacing' (h : w.Shadows T p w') : w'.engine.config.pacing = p := by
  rw [h.config, h.pacing]

theorem bare (h : w.Shadows T p w') : w'.bare = w.bare := by
  have hb := congrArg World.bare h.rest
  exact hb

theorem drawing (h : w.Shadows T p w') (draws : Nat → Float) : w.Shadows T p (w'.drawing draws) :=
  ⟨h.rest, h.pacing, h.patience, h.tale, h.graph, h.shelf⟩

theorem tell (h : w.Shadows T p w') (f : Narrative → Narrative) :
    (w.tell f).Shadows T p (w'.tell f) :=
  ⟨congrArg (·.tell f) h.rest, h.pacing, h.patience, h.tale, h.graph, h.shelf⟩

theorem note (h : w.Shadows T p w') {e e' : Entry} (he : e'.told? = e.told?) :
    (w.note e).Shadows T p (w'.note e') := by
  refine ⟨congrArg (·.note e) h.rest, h.pacing, h.patience, ?_, h.graph, h.shelf⟩
  rw [tale_note, tale_note, h.tale, he]

theorem emit (h : w.Shadows T p w') (e : Event) : (w.emit e).Shadows T p (w'.emit e) := by
  have hlistening : w'.engine.listening = w.engine.listening := congrArg (·.listening) h.engine
  unfold World.emit
  rw [hlistening]
  split
  · exact h.note rfl
  · exact h

theorem play (h : w.Shadows T p w') (c : Cue) : (w.play c).Shadows T p (w'.play c) := by
  have haudible : w'.engine.audible = w.engine.audible := congrArg (·.audible) h.engine
  unfold World.play
  rw [haudible]
  split
  · exact h.note rfl
  · exact h

theorem holding (h : w.Shadows T p w') {graph graph' : Option Graph}
    (hg : Option.Rel (Graph.Along T) graph graph') :
    (w.holding graph).Shadows T p (w'.holding graph') :=
  ⟨congrArg (·.holding graph) h.rest, h.pacing, h.patience, h.tale, hg, h.shelf⟩

theorem keeping (h : w.Shadows T p w') (saves : Saves) :
    { w with saves }.Shadows T p { w' with saves } :=
  ⟨congrArg (fun m : World => { m with saves }) h.rest, h.pacing, h.patience, h.tale, h.graph,
    h.shelf⟩

theorem answer (h : w.Shadows T p w') (call : SlotCall) :
    (w'.answer call).1 = (w.answer call).1 ∧ (w.answer call).2.Shadows T p (w'.answer call).2 := by
  unfold World.answer
  rw [h.saves]
  exact ⟨rfl, (h.keeping _).note rfl⟩

/-- To keep the record is to call on a slot. -/
theorem saved (h : w.Shadows T p w') : w.saved.Shadows T p w'.saved := by
  have hsaved (m : World) : m.saved = (m.answer (.set m.engine.config.progressKey
      m.engine.narrative.snapshot.render)).2 := rfl
  rw [hsaved, hsaved, h.config, h.narrative]
  exact (h.answer _).2

/-- A pause of the first world tells nothing. -/
theorem paused_left (h : w.Shadows T p w') (span : Duration) : (w.paused span).Shadows T p w' := by
  have hnoted : { w'.holding w.engine.graph with
      shelf := w.shelf, clock := (w.paused span).clock, draws := w.draws,
      journal := (w.paused span).journal } = w.paused span :=
    congrArg (fun m : World => { m with
      clock := (w.paused span).clock, journal := (w.paused span).journal }) h.rest
  have htale : (w.paused span).tale = w.tale :=
    (w.tale_note (.pause span)).trans (List.append_nil _)
  exact ⟨hnoted, h.pacing, h.patience, h.tale.trans htale.symm, h.graph, h.shelf⟩

/-- Neither does one of the second. -/
theorem paused_right (h : w.Shadows T p w') (span : Duration) : w.Shadows T p (w'.paused span) := by
  have htale : (w'.paused span).tale = w'.tale :=
    (w'.tale_note (.pause span)).trans (List.append_nil _)
  exact ⟨h.rest, h.pacing, h.patience, htale.trans h.tale, h.graph, h.shelf⟩

theorem beyond (h : w.Shadows T p w') (n : Node) : (w.beyond n).Shadows T p (w'.beyond n) := by
  unfold World.beyond
  dsimp only
  rw [narrative_tell, narrative_tell, h.narrative]
  exact ((h.tell _).tell _).saved

end Shadows

end World

namespace Act

variable {α β : Type}

/-! ## Without an end of patience -/

theorem follow_endless {w : World} (h : w.patience = .endless) (n : Node) :
    follow n w = .ok (n.resolveNext (n.actions.foldl Narrative.act w.engine.narrative).vars)
      (w.beyond n) := by
  have hw : w = w.under .endless := by
    rw [← h]
    rfl
  rw [hw]
  rfl

/-- The pause in which a message is read, if there is one. -/
theorem readBehind_endless {w : World} (h : w.patience = .endless) (n : Node) :
    readBehind n w =
      if n.hasSuccessor then
        match w.engine.config.pacing.autoRead? n w.draw with
        | some span => .ok () (w.paused span)
        | none => .error .crossedLimits w
      else .ok () w := by
  unfold readBehind
  split
  · unfold drawn
    rw [bind_apply, bind_apply, look_apply]
    dsimp only
    cases w.engine.config.pacing.autoRead? n w.draw with
    | none => rfl
    | some span => exact pause_endless h span
  · rfl

/-! ## Operations that follow others -/

section

variable (b : Prop) (T : Node → Node → Prop) (p : Pacing)

/-- How an operation may end in a world behind another one, given how that one ended there. -/
inductive Follows.Ending (V : α → α → Prop) (act' : Act α) (w w' : World) (a : α) (m : World) :
    Prop where
  /-- It ends with what goes together, and the draws it needs are those that were drawn. -/
  | same {a' : α} {m' : World} {e : Nat → Float} : V a a' → m.Shadows T p m' →
      e w'.age = w.draw → e m'.age = m.draw → w'.age ≤ m'.age →
      (∀ d, p.Unvaried ∨ Set.EqOn d e (Set.Icc w'.age m'.age) →
        act' (w'.drawing d) = .ok a' (m'.drawing d)) → Ending V act' w w' a m
  /-- It stops at a pause that it makes alone. -/
  | crossed {e : Nat → Float} : b → p.autoRead.max < p.autoRead.min → e w'.age = w.draw →
      (∀ d, p.Unvaried ∨ Set.EqOn d e (Set.Ici w'.age) →
        ∃ m', act' (w'.drawing d) = .error .crossedLimits m') → Ending V act' w w' a m

/-- Whether one operation follows another, in every world that shadows another one. -/
def Follows : Comparison := fun _ V act act' => ∀ w w' a m, w.Shadows T p w' →
  act w = .ok a m → Follows.Ending b T p V act' w w' a m

end

namespace Follows

variable {b : Prop} {T : Node → Node → Prop} {p : Pacing} {V : α → α → Prop}

/-- An operation that looks at no draw ends like the other one if the journal grows, or if the
next draw stays. -/
theorem Ending.of_step {act' : Act α} {w w' m m' : World} {a a' : α} (ha : V a a')
    (hm : m.Shadows T p m') (hage : (m'.age = w'.age ∧ m.draw = w.draw) ∨ w'.age < m'.age)
    (hact : ∀ d, act' (w'.drawing d) = .ok a' (m'.drawing d)) : Ending b T p V act' w w' a m := by
  -- the draw at the new end is free to be the next one of the first world
  refine @Ending.same α b T p V act' w w' a m a' m'
    (fun n => if n = w'.age then w.draw else m.draw) ha hm (if_pos rfl) ?_ ?_ fun d _ => hact d
  · rcases hage with ⟨-, hdraw⟩ | hlt
    · rw [hdraw]
      exact ite_self _
    · exact if_neg (Nat.ne_of_gt hlt)
  · rcases hage with ⟨hage, -⟩ | hlt
    · exact Nat.le_of_eq hage.symm
    · exact Nat.le_of_lt hlt

theorem pure {a a' : α} (h : V a a') : Follows b T p α V (Pure.pure a) (Pure.pure a') := by
  intro w w' _ m hS hact
  cases hact
  exact .of_step h hS (.inl ⟨rfl, rfl⟩) fun _ => rfl

theorem look {f : World → α} (hf : ∀ w w', w.Shadows T p w' → V (f w) (f w'))
    (hd : ∀ w d, f (w.drawing d) = f w) : Follows b T p α V (look f) (look f) := by
  intro w w' _ m hS hact
  cases hact
  refine .of_step (hf w w' hS) hS (.inl ⟨rfl, rfl⟩) fun d => ?_
  rw [look_apply, hd]

/-- A change of both worlds that leaves the draws and adds to both journals, or to none. -/
theorem change {f f' : World → World} (hf : ∀ w w', w.Shadows T p w' → (f w).Shadows T p (f' w'))
    (hd : ∀ w d, f' (w.drawing d) = (f' w).drawing d)
    (hage : ∀ w w', w.Shadows T p w' →
      ((f' w').age = w'.age ∧ (f w).draw = w.draw) ∨ w'.age < (f' w').age) :
    Follows b T p Unit Eq (change f) (change f') := by
  intro w w' _ m hS hact
  cases hact
  exact .of_step rfl (hf w w' hS) (hage w w' hS) fun d => congrArg (EStateM.Result.ok ()) (hd w' d)

/-- Nothing follows what stops. -/
theorem stop (s : Stop) : Follows b T p α V (stop s) (stop s) := by
  intro w w' a m hS hact
  cases hact

/-- Draws that are the same at one place can be put together there. -/
theorem exists_joint {e₁ e₂ : Nat → Float} {k : Nat} (h : e₂ k = e₁ k) :
    ∃ e : Nat → Float, (∀ n ≤ k, e n = e₁ n) ∧ ∀ n ≥ k, e n = e₂ n := by
  refine ⟨fun n => if n < k then e₁ n else e₂ n, fun n hn => ?_, fun n hn => ?_⟩
  · rcases Nat.lt_or_eq_of_le hn with hlt | rfl
    · exact if_pos hlt
    · exact (if_neg (Nat.lt_irrefl _)).trans h
  · exact if_neg (Nat.not_lt.2 hn)

/-- The draws of one operation after another are put together where the first one ends. -/
theorem bind {U : β → β → Prop} {first first' : Act β} {next next' : β → Act α}
    (h : Follows b T p β U first first')
    (h' : ∀ a a', U a a' → Follows b T p α V (next a) (next' a')) :
    Follows b T p α V (first >>= next) (first' >>= next') := by
  intro w w' a m hS hact
  obtain ⟨a₁, m₁, hfirst, hnext⟩ := bind_eq_ok hact
  -- the part that ends first decides: what is crossed in it is never come back from
  rcases h w w' a₁ m₁ hS hfirst with
    @⟨a₁', m₁', e₁, ha₁, hS₁, hlo₁, hhi₁, hage₁, hact₁⟩ | @⟨e₁, hb, hp, hlo₁, hact₁⟩
  · have hlo {e : Nat → Float} (he : ∀ n ≤ m₁'.age, e n = e₁ n) : e w'.age = w.draw :=
      (he _ hage₁).trans hlo₁
    rcases h' a₁ a₁' ha₁ m₁ m₁' a m hS₁ hnext with
      @⟨a', m', e₂, ha, hS', hlo₂, hhi₂, hage₂, hact₂⟩ | @⟨e₂, hb, hp, hlo₂, hact₂⟩
    · obtain ⟨e, hbefore, hbehind⟩ := exists_joint (hlo₂.trans hhi₁.symm)
      refine .same ha hS' (hlo hbefore) ((hbehind _ hage₂).trans hhi₂) (hage₁.trans hage₂) fun d hd => ?_
      have hd₁ : first' (w'.drawing d) = .ok a₁' (m₁'.drawing d) := hact₁ d <| hd.imp_right
        fun hd n hn => (hd ⟨hn.1, hn.2.trans hage₂⟩).trans (hbefore n hn.2)
      rw [bind_apply, hd₁]
      exact hact₂ d <| hd.imp_right
        fun hd n hn => (hd ⟨hage₁.trans hn.1, hn.2⟩).trans (hbehind n hn.1)
    · obtain ⟨e, hbefore, hbehind⟩ := exists_joint (hlo₂.trans hhi₁.symm)
      refine .crossed hb hp (hlo hbefore) fun d hd => ?_
      have hd₁ : first' (w'.drawing d) = .ok a₁' (m₁'.drawing d) := hact₁ d <| hd.imp_right
        fun hd n hn => (hd hn.1).trans (hbefore n hn.2)
      rw [bind_apply, hd₁]
      exact hact₂ d <| hd.imp_right fun hd n hn => (hd (hage₁.trans hn)).trans (hbehind n hn)
  · refine .crossed hb hp hlo₁ fun d hd => ?_
    obtain ⟨m', hm'⟩ := hact₁ d hd
    exact ⟨m', by rw [bind_apply, hm']⟩

theorem cleaning {cleanup : World → World} {act act' : Act α}
    (hc : Follows b T p Unit Eq (Act.change cleanup) (Act.change cleanup))
    (h : Follows b T p α V act act') :
    Follows b T p α V (cleaning cleanup act) (cleaning cleanup act') := by
  -- what ends is cleaned up behind as if that came after it
  have hok (act : Act α) (w : World) (a : α) (m : World) : Act.cleaning cleanup act w = .ok a m ↔
      (act >>= fun a => Act.change cleanup >>= fun _ => Pure.pure a : Act α) w = .ok a m := by
    unfold Act.cleaning
    rw [bind_apply]
    cases act w with
    | ok a w => exact Iff.rfl
    | error s w => exact ⟨fun h => (by cases h), fun h => (by cases h)⟩
  have hbound := bind h fun a a' ha => bind hc fun _ _ _ => pure (b := b) (T := T) (p := p) ha
  intro w w' a m hS hact
  rcases hbound w w' a m hS ((hok _ _ _ _).1 hact) with
    @⟨a', m', e, ha, hm, hlo, hhi, hage, hact'⟩ | @⟨e, hb, hp, hlo, hact'⟩
  · exact .same ha hm hlo hhi hage fun d hd => (hok _ _ _ _).2 (hact' d hd)
  · refine .crossed hb hp hlo fun d hd => ?_
    obtain ⟨m', hm'⟩ := hact' d hd
    rw [bind_apply] at hm'
    unfold Act.cleaning
    cases hout : act' (w'.drawing d) with
    | ok a' v =>
      rw [hout] at hm'
      cases hm'
    | error s v =>
      rw [hout] at hm'
      cases hm'
      exact ⟨_, rfl⟩

/-- A span is drawn with the same draw. -/
theorem sample {f : Pacing → Float → α} (hf : Drawable f) :
    Follows b T p α Eq (Act.look fun w => f w.engine.config.pacing w.draw)
      (Act.look fun w => f w.engine.config.pacing w.draw) := by
  intro w w' _ m hS hact
  cases hact
  refine @Ending.same α b T p Eq _ w w' _ w _ w' (fun _ => w.draw) rfl hS rfl rfl le_rfl
    fun d hd => ?_
  rw [look_apply]
  change EStateM.Result.ok (f w'.engine.config.pacing (d w'.age)) _ =
    .ok (f w.engine.config.pacing w.draw) _
  rw [hS.pacing, hS.pacing']
  rcases hd with hp | hd
  · rw [hf.unvaried p hp (d w'.age) w.draw]
  · rw [hd ⟨le_rfl, le_rfl⟩]

theorem telling (f : Narrative → Narrative) :
    Follows b T p Unit Eq (Act.change (·.tell f)) (Act.change (·.tell f)) :=
  change (fun _ _ h => h.tell f) (fun _ _ => rfl) fun _ _ _ => .inl ⟨rfl, rfl⟩

theorem emitting (e : Event) :
    Follows b T p Unit Eq (Act.change (·.emit e)) (Act.change (·.emit e)) := by
  refine change (fun _ _ h => h.emit e) (fun w d => ?_) fun w w' h => ?_
  · unfold World.emit
    change (if w.engine.listening then (w.note (.event e)).drawing d else w.drawing d) = _
    split <;> rfl
  · have hlistening : w'.engine.listening = w.engine.listening := congrArg (·.listening) h.engine
    unfold World.emit
    rw [hlistening]
    split
    · exact .inr (Nat.lt_succ_self _)
    · exact .inl ⟨rfl, rfl⟩

theorem playing (c : Cue) :
    Follows b T p Unit Eq (Act.change (·.play c)) (Act.change (·.play c)) := by
  refine change (fun _ _ h => h.play c) (fun w d => ?_) fun w w' h => ?_
  · unfold World.play
    change (if w.engine.audible then (w.note (.cue c w.clock)).drawing d else w.drawing d) = _
    split <;> rfl
  · have haudible : w'.engine.audible = w.engine.audible := congrArg (·.audible) h.engine
    unfold World.play
    rw [haudible]
    split
    · exact .inr (Nat.lt_succ_self _)
    · exact .inl ⟨rfl, rfl⟩

theorem suspend : Follows b T p Unit Eq suspend suspend := by
  intro w w' _ m hS hact
  rw [suspend_endless hS.patience] at hact
  cases hact
  exact .of_step rfl hS (.inl ⟨rfl, rfl⟩) fun d => suspend_endless (hS.drawing d).patience'

theorem pause (span : Duration) : Follows b T p Unit Eq (pause span) (pause span) := by
  intro w w' _ m hS hact
  rw [pause_endless hS.patience] at hact
  cases hact
  exact .of_step rfl ((hS.paused_left span).paused_right span) (.inr (Nat.lt_succ_self _))
    fun d => pause_endless (hS.drawing d).patience' span

/-- The slots answer the same. -/
theorem answered (call : SlotCall) : Follows b T p _ Eq (answered call) (answered call) := by
  intro w w' _ m hS hact
  cases hact
  exact .of_step (hS.answer call).1.symm (hS.answer call).2 (.inr (Nat.lt_succ_self _)) fun _ => rfl

theorem rules : Rules (Follows b T p) where
  pure := pure
  bind := bind
  stop := stop
  cleaning := cleaning
  see hf := look (fun _ _ h => by rw [← hf, ← h.bare, hf]) fun w d => by
    rw [← hf, ← hf w]
    rfl
  sample := sample
  telling _ := telling _
  emitting := emitting
  playing := playing
  saving := change (fun _ _ h => h.saved) (fun _ _ => rfl) fun _ _ _ => .inr (Nat.lt_succ_self _)
  suspend := suspend
  pause := pause

end Follows

/-! ## Nodes that differ in what nobody knows -/

/-- Whether two nodes are the same but for what nobody knows, where the second one may or may
not look alone as if the story went on behind it. -/
def Trimmable (b : Prop) (n n' : Node) : Prop :=
  n'.plain = n.plain ∧ (b ∨ (n'.hasSuccessor = true → n.hasSuccessor = true))

section

variable {b : Prop} {T : Node → Node → Prop} {p : Pacing} {n n' : Node} {w w' v : World}

theorem Trimmable.id (h : Trimmable b n n') : n'.id = n.id := by
  have hid := congrArg Node.id h.1
  exact hid

/-- They are read in the same time. -/
theorem Trimmable.autoRead?_eq (h : Trimmable b n n') (draw : Float) :
    p.autoRead? n' draw = p.autoRead? n draw := by
  have hcontent : n'.plain.content = n.plain.content := congrArg Node.content h.1
  unfold Pacing.autoRead? Node.contentLength
  rw [show n'.content = n.content from hcontent]

theorem Trimmable.follow_eq (h : Trimmable b n n') : follow n' = follow n := by
  rw [← follow_plain n', ← follow_plain n, h.1]

/-- Whether the first story paused or not, the second one is still where it was. -/
theorem shadows_of_readBehind (hS : w.Shadows T p w') (h : readBehind n w = .ok () v) :
    v.Shadows T p w' := by
  rw [readBehind_endless hS.patience] at h
  split at h
  · cases hspan : w.engine.config.pacing.autoRead? n w.draw with
    | none =>
      rw [hspan] at h
      cases h
    | some span =>
      rw [hspan] at h
      cases h
      exact hS.paused_left span
  · cases h
    exact hS

/-- The second story pauses for what is drawn in the first. -/
theorem readBehind_drawing (hS : w.Shadows T p w') {d : Nat → Float}
    (hd : p.Unvaried ∨ d w'.age = w.draw) (n : Node) :
    readBehind n (w'.drawing d) =
      if n.hasSuccessor then
        match p.autoRead? n w.draw with
        | some span => .ok () ((w'.paused span).drawing d)
        | none => .error .crossedLimits (w'.drawing d)
      else .ok () (w'.drawing d) := by
  have hdraw : (w'.drawing d).engine.config.pacing.autoRead? n (w'.drawing d).draw =
      p.autoRead? n w.draw := by
    change w'.engine.config.pacing.autoRead? n (d w'.age) = _
    rw [hS.pacing']
    rcases hd with hp | hd
    · exact hp.autoRead?_eq n _ _
    · rw [hd]
  rw [readBehind_endless (hS.drawing d).patience', hdraw]
  rfl

/-- Then both go on alike. -/
theorem follow_drawing (hS : w.Shadows T p w') (n : Node) (d : Nat → Float) :
    follow n (w'.drawing d) =
      .ok (n.resolveNext (n.actions.foldl Narrative.act w.engine.narrative).vars)
        ((w'.beyond n).drawing d) := by
  rw [follow_endless (hS.drawing d).patience', ← hS.narrative]
  rfl

/-- Only crossed limits leave no time to read. -/
theorem crossed_of_autoRead? {draw : Float} (h : p.autoRead? n draw = none) :
    p.autoRead.max < p.autoRead.min := by
  refine Nat.lt_of_not_le fun hle => ?_
  have hsome : (p.autoRead? n draw).isSome := LengthWindow.isSome_sample?_of_le hle _ _
  rw [h] at hsome
  cases hsome

end

namespace Follows

variable {b : Prop} {p : Pacing}

/-- Behind a message both stories go on, whichever of them pauses. -/
theorem settle {n n' : Node} (h : Trimmable b n n') :
    Follows b (Trimmable b) p (Option String) Eq (settle n) (settle n') := by
  intro w w' a m hS hact
  obtain ⟨_, v, hread, hfollow⟩ := bind_eq_ok hact
  have hv := shadows_of_readBehind hS hread
  rw [follow_endless hv.patience] at hfollow
  cases hfollow
  by_cases hs : n'.hasSuccessor = true
  · cases hspan : p.autoRead? n' w.draw with
    | some span =>
      -- the pause takes the draw of the first world, and the call behind it is free of draws
      have hu := hv.paused_right span
      refine @Ending.same _ b (Trimmable b) p Eq _ w w' _ _ _ ((w'.paused span).beyond n)
        (fun k => if k = w'.age then w.draw else (v.beyond n).draw) rfl (hu.beyond n) (if_pos rfl)
        (if_neg ?_) ?_ fun d hd => ?_
      · exact Nat.ne_of_gt (Nat.lt_add_of_pos_right (Nat.succ_pos 1))
      · exact Nat.le_add_right _ 2
      · have hdraw : p.Unvaried ∨ d w'.age = w.draw :=
          hd.imp_right fun hd => (hd ⟨le_rfl, Nat.le_add_right _ 2⟩).trans (if_pos rfl)
        unfold Act.settle
        rw [bind_apply, readBehind_drawing hS hdraw, if_pos hs, hspan, h.follow_eq]
        exact follow_drawing hu n d
    | none =>
      -- the first story would have been stopped here as well
      have hb : b := by
        refine h.2.resolve_right fun hn => ?_
        rw [readBehind_endless hS.patience, if_pos (hn hs), hS.pacing, ← h.autoRead?_eq, hspan]
          at hread
        cases hread
      refine @Ending.crossed _ b (Trimmable b) p Eq _ w w' _ _ (fun _ => w.draw) hb
        (crossed_of_autoRead? hspan) rfl fun d hd => ⟨w'.drawing d, ?_⟩
      unfold Act.settle
      rw [bind_apply, readBehind_drawing hS (hd.imp_right fun hd => hd Set.self_mem_Ici),
        if_pos hs, hspan]
  · -- nothing is drawn, so a draw that only the first world took is passed over
    refine .of_step rfl (hv.beyond n) (.inr (Nat.lt_succ_self _)) fun d => ?_
    unfold Act.settle
    rw [bind_apply, readBehind_endless (hS.drawing d).patience', if_neg hs, h.follow_eq]
    exact follow_drawing hv n d

theorem concord :
    Concord (Follows b (Trimmable b) p) (Trimmable b) (Graph.Along (Trimmable b)) where
  toRules := rules
  plain h := h.1
  title h := h.title
  -- what a script finds and where it begins is the same along a trimming, and so is the shelf
  find id := look (fun w w' h => by
    have hgraph := h.graph
    unfold World.findNode?
    generalize w.engine.graph = g at hgraph ⊢
    generalize w'.engine.graph = g' at hgraph ⊢
    cases hgraph with
    | none => exact .none
    | some hg => exact hg.find? id) fun _ _ => rfl
  entrance := look (fun w w' h => by
    have hgraph := h.graph
    unfold World.entrance
    rw [h.config]
    generalize w.engine.graph = g at hgraph ⊢
    generalize w'.engine.graph = g' at hgraph ⊢
    cases hgraph with
    | none => rfl
    | some hg =>
      rw [Option.bind_some, Option.bind_some, hg.entrance? fun _ _ => Trimmable.id]) fun _ _ => rfl
  shelf id := look (fun w w' h => h.shelf id) fun _ _ => rfl
  holding hg := change (fun _ _ h => h.holding hg) (fun _ _ => rfl) fun _ _ _ => .inl ⟨rfl, rfl⟩
  settle := settle
  ask {key call} _ _ := by
    refine rules.seq (look (fun w w' h => ?_) fun _ _ => rfl) fun k =>
      rules.seq suspend fun _ => answered _
    rw [h.config]

/-- Every request follows itself, whatever is changed by hand. -/
theorem request (r : Request) : Follows b (Trimmable b) p Report Eq r.ask r.ask := by
  refine concord.request (fun _ _ => ?_) ?_ fun f _ => telling f
  · exact look (fun _ _ h => h.interrupts.symm) fun _ _ => rfl
  refine change (fun w w' h => ?_) (fun _ _ => rfl) fun _ _ _ => .inl ⟨rfl, rfl⟩
  exact ⟨congrArg World.listenedTo h.rest, h.pacing, h.patience, h.tale, h.graph, h.shelf⟩

end Follows

end Act

end StoryChat
