/-
The suspension points of an operation.

An operation may be left wherever it pauses, asks for a script or calls the
slots (`Act.suspend`), and how often it is suspended before it is left is up to
whoever waits for it. So an operation from a world is a row of worlds, one for
each suspension point, with an outcome behind it: with patience for fewer
suspensions it is left in one of the row, with more it has its outcome. `Path`
says this, once, for all amounts of patience; what follows are the rules by
which the row of an operation is put together from those of its parts.

`Passes` is the logic used on top. It asks of each suspension point how it lies
to the one before it, and of the outcome how it lies to the last one. A property
of single suspension points is the special case in which the one before does not
matter. What happens to the world on the way from one suspension point to the
next cannot be seen from outside, which is why nothing has to be said about it.
-/
import StoryChat.Engine.World

set_option autoImplicit false

namespace StoryChat

namespace World

/-- The world with another patience. -/
def under (w : World) (p : Patience) : World := { w with patience := p }

@[simp] theorem engine_under (w : World) (p : Patience) : (w.under p).engine = w.engine := rfl

@[simp] theorem saves_under (w : World) (p : Patience) : (w.under p).saves = w.saves := rfl

@[simp] theorem under_under (w : World) (p q : Patience) : (w.under p).under q = w.under q := rfl

@[simp] theorem draw_under (w : World) (p : Patience) : (w.under p).draw = w.draw := rfl

/-! ## Changes do not look at the patience -/

@[simp] theorem tell_under (w : World) (p : Patience) (f : Narrative → Narrative) :
    (w.under p).tell f = (w.tell f).under p := rfl

@[simp] theorem note_under (w : World) (p : Patience) (e : Entry) :
    (w.under p).note e = (w.note e).under p := rfl

@[simp] theorem emit_under (w : World) (p : Patience) (e : Event) :
    (w.under p).emit e = (w.emit e).under p := by
  unfold emit
  rw [engine_under]
  split <;> rfl

@[simp] theorem play_under (w : World) (p : Patience) (c : Cue) :
    (w.under p).play c = (w.play c).under p := by
  unfold play
  rw [engine_under]
  split <;> rfl

@[simp] theorem display_under (w : World) (p : Patience) (i : Indicator) :
    (w.under p).display i = (w.display i).under p := by
  unfold display
  rw [engine_under]
  split
  · rfl
  · rw [tell_under, emit_under]

end World

namespace Act

variable {α β : Type}

/-! ## Paths -/

/-- What an operation comes to. -/
abbrev Outcome (α : Type) := EStateM.Result Stop World α

/-- The outcome with another patience. -/
def Outcome.under (p : Patience) : Outcome α → Outcome α
  | .ok a w => .ok a (w.under p)
  | .error s w => .error s (w.under p)

/-- The outcome in a changed world. -/
def Outcome.inWorld (f : World → World) : Outcome α → Outcome α
  | .ok a w => .ok a (f w)
  | .error s w => .error s (f w)

/-- The suspension points of an operation from a world, and its outcome if it is
not left at one of them. -/
structure Path (act : Act α) (w : World) (stops : List World) (out : Outcome α) : Prop where
  whole : act (w.under .endless) = out.under .endless
  cut : ∀ k (h : k < stops.length),
    act (w.under (.suspensions k)) = .error .cut (stops[k].under (.suspensions 0))
  spared : ∀ k, act (w.under (.suspensions (stops.length + k))) = out.under (.suspensions k)

theorem Path.ok {act : Act α} {w w' : World} {a : α}
    (h : ∀ p, act (w.under p) = .ok a (w'.under p)) : Path act w [] (.ok a w') where
  whole := h _
  cut k hk := absurd hk (Nat.not_lt_zero k)
  spared k := by rw [List.length_nil, Nat.zero_add]; exact h _

theorem Path.error {act : Act α} {w w' : World} {s : Stop}
    (h : ∀ p, act (w.under p) = .error s (w'.under p)) : Path act w [] (.error s w') where
  whole := h _
  cut k hk := absurd hk (Nat.not_lt_zero k)
  spared k := by rw [List.length_nil, Nat.zero_add]; exact h _

/-- The first operation's row comes first, then the second's, from where the
first has ended. -/
theorem Path.bind {first : Act α} {next : α → Act β} {w w' : World} {a : α}
    {stops stops' : List World} {out : Outcome β} (h : Path first w stops (.ok a w'))
    (h' : Path (next a) w' stops' out) : Path (first >>= next) w (stops ++ stops') out where
  whole := by rw [bind_apply, h.whole]; exact h'.whole
  cut k hk := by
    rw [bind_apply]
    rcases Nat.lt_or_ge k stops.length with hlt | hge
    · rw [h.cut k hlt, List.getElem_append_left hlt]
    · obtain ⟨j, rfl⟩ := Nat.exists_eq_add_of_le hge
      have hj : j < stops'.length := by rw [List.length_append] at hk; omega
      rw [h.spared j, List.getElem_append_right (Nat.le_add_right _ _)]
      simp only [Nat.add_sub_cancel_left]
      exact h'.cut j hj
  spared k := by
    rw [bind_apply, List.length_append, Nat.add_assoc, h.spared]
    exact h'.spared k

/-- A first operation without suspension points adds none. -/
theorem Path.seq {first : Act α} {next : α → Act β} {w w' : World} {a : α}
    {stops : List World} {out : Outcome β} (h : Path first w [] (.ok a w'))
    (h' : Path (next a) w' stops out) : Path (first >>= next) w stops out := h.bind h'

/-- A first operation with one suspension point puts it in front. -/
theorem Path.cons {first : Act α} {next : α → Act β} {w m w' : World} {a : α}
    {stops : List World} {out : Outcome β} (h : Path first w [m] (.ok a w'))
    (h' : Path (next a) w' stops out) : Path (first >>= next) w (m :: stops) out := h.bind h'

/-- A last operation without suspension points only changes the result. -/
theorem Path.map {act : Act α} {f : α → β} {w w' : World} {a : α} {stops : List World}
    (h : Path act w stops (.ok a w')) :
    Path (act >>= fun a => Pure.pure (f a)) w stops (.ok (f a) w') := by
  have hm : Path (act >>= fun a => Pure.pure (f a)) w (stops ++ []) (.ok (f a) w') :=
    .bind h (.ok fun _ => rfl)
  rwa [List.append_nil] at hm

/-- A first operation that stops is all there is. -/
theorem Path.bind_error {first : Act α} {next : α → Act β} {w w' : World} {s : Stop}
    {stops : List World} (h : Path first w stops (.error s w')) :
    Path (first >>= next) w stops (.error s w') where
  whole := by rw [bind_apply, h.whole]; rfl
  cut k hk := by rw [bind_apply, h.cut k hk]
  spared k := by rw [bind_apply, h.spared]; rfl

/-- What is cleaned up is cleaned up behind every suspension point too. -/
theorem Path.cleaning {act : Act α} {cleanup : World → World} {w : World} {stops : List World}
    {out : Outcome α} (hc : ∀ w p, cleanup (w.under p) = (cleanup w).under p)
    (h : Path act w stops out) :
    Path (cleaning cleanup act) w (stops.map cleanup) (out.inWorld cleanup) where
  whole := by
    unfold Act.cleaning
    rw [h.whole]
    cases out <;> simp only [Outcome.under, Outcome.inWorld, hc]
  cut k hk := by
    unfold Act.cleaning
    rw [h.cut k (by rwa [List.length_map] at hk), List.getElem_map]
    simp only [hc]
  spared k := by
    unfold Act.cleaning
    rw [List.length_map, h.spared]
    cases out <;> simp only [Outcome.under, Outcome.inWorld, hc]

theorem Path.pure (a : α) (w : World) : Path (pure a) w [] (.ok a w) := .ok fun _ => rfl

theorem Path.look {f : World → α} {w : World} (hf : ∀ p, f (w.under p) = f w) :
    Path (look f) w [] (.ok (f w) w) := .ok fun p => by rw [look_apply, hf]

theorem Path.change {f : World → World} {w : World} (hf : ∀ p, f (w.under p) = (f w).under p) :
    Path (change f) w [] (.ok () (f w)) := .ok fun p => by rw [change_apply, hf]

/-- Of a choice between two operations only the one that is taken has a row. -/
theorem Path.ite {c : Prop} [Decidable c] {act act' : Act α} {w : World} {stops : List World}
    {out : Outcome α} (h : c → Path act w stops out) (h' : ¬ c → Path act' w stops out) :
    Path (if c then act else act') w stops out := by
  split
  · next hc => exact h hc
  · next hc => exact h' hc

/-- A suspension point is a row of one. -/
theorem Path.suspend (w : World) : Path suspend w [w] (.ok () w) where
  whole := rfl
  cut k hk := by
    obtain rfl : k = 0 := by simpa using hk
    rfl
  spared k := by
    rw [List.length_singleton, Nat.add_comm]
    rfl

/-- Time that passes is no suspension point: whoever waits counts those only. -/
theorem Path.sleep (millis : Nat) (w : World) :
    Path (sleep millis) w [] (.ok () { w with clock := w.clock + millis }) where
  whole := rfl
  cut k hk := absurd hk (Nat.not_lt_zero k)
  spared k := by rw [List.length_nil, Nat.zero_add]; rfl

/-! ## Legs -/

/-- The way over suspension points from one to the last, each related to the one
before it. -/
inductive Legs (S : World → World → Prop) : World → List World → World → Prop where
  | arrived (g : World) : Legs S g [] g
  | leg {g m l : World} {stops : List World} : S g m → Legs S m stops l → Legs S g (m :: stops) l

theorem Legs.append {S : World → World → Prop} {g m l : World} {stops stops' : List World}
    (h : Legs S g stops m) (h' : Legs S m stops' l) : Legs S g (stops ++ stops') l := by
  induction h with
  | arrived => exact h'
  | leg hs _ ih => exact .leg hs (ih h')

theorem Legs.imp {S T : World → World → Prop} (hST : ∀ g m, S g m → T g m) {g l : World}
    {stops : List World} (h : Legs S g stops l) : Legs T g stops l := by
  induction h with
  | arrived => exact .arrived _
  | leg hs _ ih => exact .leg (hST _ _ hs) ih

/-- The way over suspension points that are all of one kind. -/
theorem Legs.of_rel {P : World → Prop} {S : World → World → Prop} {stops : List World} {g : World}
    (h : ∀ m ∈ stops, P m) (first : ∀ m, P m → S g m) (next : ∀ m m', P m → P m' → S m m') :
    Legs S g stops (stops.getLast?.getD g) := by
  induction stops generalizing g with
  | nil => exact .arrived g
  | cons m stops ih =>
    obtain ⟨hm, hs⟩ := List.forall_mem_cons.1 h
    rw [List.getLast?_cons, Option.getD_some]
    exact .leg (first m hm) (ih hs fun m' hm' => next m m' hm hm')

/-- Where the world before does not matter, each suspension point is asked for itself. -/
theorem Legs.of_forall {P : World → Prop} {stops : List World} (g : World)
    (h : ∀ m ∈ stops, P m) : Legs (fun _ m => P m) g stops (stops.getLast?.getD g) :=
  .of_rel h (fun _ hm => hm) fun _ _ _ hm => hm

/-- The way over suspension points of one kind, from one of that kind. -/
theorem Legs.of_both {P : World → Prop} {stops : List World} {g : World} (hg : P g)
    (h : ∀ m ∈ stops, P m) :
    Legs (fun a b => P a ∧ P b) g stops (stops.getLast?.getD g) ∧ P (stops.getLast?.getD g) := by
  refine ⟨.of_rel h (fun m hm => ⟨hg, hm⟩) fun _ _ => And.intro, ?_⟩
  cases hl : stops.getLast? with
  | none => exact hg
  | some m => exact h m (List.mem_of_getLast? hl)

/-! ## The logic -/

variable {S : World → World → Prop} {Q : α → World → World → Prop} {g w : World}

/-- What is asked of an outcome: of an end, how it lies to the last suspension point;
of a stop, that it is no cut. -/
def Ends (Q : α → World → World → Prop) (last : World) : Outcome α → Prop
  | .ok a w => Q a last w
  | .error s _ => s ≠ .cut

theorem Ends.imp {last last' : World} {R : α → World → World → Prop} {out : Outcome α}
    (h : Ends Q last out) (hQ : ∀ a w, Q a last w → R a last' w) : Ends R last' out := by
  cases out with
  | ok a w => exact hQ a w h
  | error s w => exact h

/-- The operation, last suspended in `g` and going on from `w`, passes suspension
points that are related by `S`, each to the one before it, and ends as `Q` says. -/
def Passes (S : World → World → Prop) (act : Act α) (g w : World)
    (Q : α → World → World → Prop) : Prop :=
  ∃ stops out last, Path act w stops out ∧ Legs S g stops last ∧ Ends Q last out

/-- A row of worlds, each related to the one before it, makes an operation pass. -/
theorem Path.passes {act : Act α} {stops : List World} {out : Outcome α} {last : World}
    (h : Path act w stops out) (hl : Legs S g stops last) (he : Ends Q last out) :
    Passes S act g w Q := ⟨stops, out, last, h, hl, he⟩

theorem Passes.pure {a : α} (h : Q a g w) : Passes S (pure a) g w Q :=
  (Path.pure a w).passes (.arrived g) h

theorem Passes.look {f : World → α} (hf : ∀ p, f (w.under p) = f w) (h : Q (f w) g w) :
    Passes S (look f) g w Q :=
  (Path.look hf).passes (.arrived g) h

theorem Passes.change {Q : Unit → World → World → Prop} {f : World → World}
    (hf : ∀ p, f (w.under p) = (f w).under p) (h : Q () g (f w)) :
    Passes S (change f) g w Q :=
  (Path.change hf).passes (.arrived g) h

theorem Passes.bind {β : Type} {Q : β → World → World → Prop} {first : Act α}
    {next : α → Act β}
    (h : Passes S first g w (fun a g' w' => Passes S (next a) g' w' Q)) :
    Passes S (first >>= next) g w Q := by
  obtain ⟨stops, out, last, hp, hl, he⟩ := h
  cases out with
  | error s w' => exact ⟨stops, .error s w', last, hp.bind_error, hl, he⟩
  | ok a w' =>
    obtain ⟨stops', out', last', hp', hl', he'⟩ := he
    exact ⟨stops ++ stops', out', last', hp.bind hp', hl.append hl', he'⟩

theorem Passes.map {β : Type} {Q : β → World → World → Prop} {act : Act α} {f : α → β}
    (h : Passes S act g w (fun a => Q (f a))) : Passes S (f <$> act) g w Q := by
  obtain ⟨stops, out, last, hp, hl, he⟩ := h
  rw [map_eq_pure_bind]
  cases out with
  | ok a w' => exact hp.map.passes hl he
  | error s w' => exact hp.bind_error.passes hl he

/-- The logic is closed under weaker demands. -/
theorem Passes.imp {act : Act α} {T : World → World → Prop} {R : α → World → World → Prop}
    (h : Passes S act g w Q) (hS : ∀ g m, S g m → T g m)
    (hQ : ∀ a g w, Q a g w → R a g w) : Passes T act g w R := by
  obtain ⟨stops, out, last, hp, hl, he⟩ := h
  refine ⟨stops, out, last, hp, hl.imp hS, ?_⟩
  cases out with
  | ok a w' => exact hQ _ _ _ he
  | error s w' => exact he

/-- An operation that is cleaned up behind passes if cleaning up cannot be seen, neither
in a suspension point nor in the one before it. -/
theorem Passes.cleaning {act : Act α} {cleanup : World → World} {R : α → World → World → Prop}
    (hc : ∀ w p, cleanup (w.under p) = (cleanup w).under p)
    (hS : ∀ g m, S g m → S g (cleanup m) ∧ S (cleanup g) (cleanup m))
    (hQ : ∀ a g w, Q a g w → R a g (cleanup w) ∧ R a (cleanup g) (cleanup w))
    (h : Passes S act g w Q) : Passes S (cleaning cleanup act) g w R := by
  obtain ⟨stops, out, last, hp, hl, he⟩ := h
  have legs {g last : World} {stops : List World} (hl : Legs S g stops last) :
      Legs S (cleanup g) (stops.map cleanup) (cleanup last) := by
    induction hl with
    | arrived => exact .arrived _
    | leg hs _ ih => exact .leg (hS _ _ hs).2 ih
  have ends {last' : World} (h' : last' = last ∨ last' = cleanup last) :
      Ends R last' (out.inWorld cleanup) := by
    cases out with
    | error s w' => exact he
    | ok a w' =>
      rcases h' with rfl | rfl
      · exact (hQ a _ w' he).1
      · exact (hQ a _ w' he).2
  cases hl with
  | arrived => exact ⟨[], _, g, hp.cleaning hc, .arrived g, ends (.inl rfl)⟩
  | leg hs hl' => exact ⟨_, _, _, hp.cleaning hc, .leg (hS _ _ hs).1 (legs hl'), ends (.inr rfl)⟩

/-! ## What is left behind -/

/-- What an operation leaves behind: the world it ends in, or the one of a suspension
point at which nobody waits for it any more. -/
inductive Leaves (act : Act α) (w : World) : World → Prop where
  | ended {a : α} {w' : World} : act (w.under .endless) = .ok a w' → Leaves act w w'
  | cut {k : Nat} {w' : World} : act (w.under (.suspensions k)) = .error .cut w' → Leaves act w w'

theorem Legs.exists_of_mem {stops : List World} {l m : World} (h : Legs S g stops l)
    (hm : m ∈ stops) : ∃ g', S g' m := by
  induction h with
  | arrived => cases hm
  | leg hs _ ih =>
    rcases List.mem_cons.1 hm with rfl | hm
    · exact ⟨_, hs⟩
    · exact ih hm

theorem Legs.rel_of_getElem? {stops : List World} {l a b : World} {k : Nat}
    (h : Legs S g stops l) (ha : (g :: stops)[k]? = some a) (hb : stops[k]? = some b) : S a b := by
  induction h generalizing k with
  | arrived => cases hb
  | leg hs _ ih =>
    cases k with
    | zero => cases ha; cases hb; exact hs
    | succ k => exact ih ha hb

theorem Legs.getElem?_length {stops : List World} {l : World} (h : Legs S g stops l) :
    (g :: stops)[stops.length]? = some l := by
  induction h with
  | arrived => rfl
  | leg _ _ ih => exact ih

/-- The world in which an operation was suspended last, before it may be suspended for
the `k`-th time, counted from zero: at first it is the one it begins in. -/
def suspendedIn (act : Act α) (w : World) : Nat → World
  | 0 => w
  | k + 1 => match act (w.under (.suspensions k)) with
    | .ok _ m => m
    | .error _ m => m

theorem Passes.ended {act : Act α} {a : α} {w' : World} (h : Passes S act g w Q)
    (he : act (w.under .endless) = .ok a w') :
    ∃ last w'', Q a last w'' ∧ w' = w''.under .endless := by
  obtain ⟨stops, out, last, hp, _, ho⟩ := h
  rw [hp.whole] at he
  cases out with
  | error s w'' => cases he
  | ok b w'' => cases he; exact ⟨last, w'', ho, rfl⟩

theorem Passes.cut {act : Act α} {k : Nat} {w' : World} (h : Passes S act g w Q)
    (hc : act (w.under (.suspensions k)) = .error .cut w') :
    ∃ g' m, S g' m ∧ w' = m.under (.suspensions 0) := by
  obtain ⟨stops, out, last, hp, hl, ho⟩ := h
  rcases Nat.lt_or_ge k stops.length with hk | hk
  · rw [hp.cut k hk] at hc
    cases hc
    obtain ⟨g', hs⟩ := hl.exists_of_mem (List.getElem_mem hk)
    exact ⟨g', _, hs, rfl⟩
  · -- with that much patience the operation has its outcome, which is no cut
    obtain ⟨j, rfl⟩ := Nat.exists_eq_add_of_le hk
    rw [hp.spared j] at hc
    cases out with
    | ok b w'' => cases hc
    | error s w'' => cases hc; exact absurd rfl ho

theorem Path.suspendedIn {act : Act α} {stops : List World} {out : Outcome α} {a : World}
    {k : Nat} (h : Path act w stops out) (ha : (w :: stops)[k]? = some a) :
    ∃ p, suspendedIn act w k = a.under p := by
  cases k with
  | zero => cases ha; exact ⟨w.patience, rfl⟩
  | succ k =>
    rw [List.getElem?_cons_succ] at ha
    obtain ⟨hk, rfl⟩ := List.getElem?_eq_some_iff.1 ha
    refine ⟨.suspensions 0, ?_⟩
    rw [Act.suspendedIn, h.cut k hk]

/-- With patience for one suspension more, the end is what was seen last. -/
theorem Passes.exists_suspendedIn {act : Act α} {a : α} {w' : World} (h : Passes S act w w Q)
    (he : act (w.under .endless) = .ok a w') : ∃ k p, suspendedIn act w k = w'.under p := by
  obtain ⟨stops, out, last, hp, hl, ho⟩ := h
  rw [hp.whole] at he
  refine ⟨stops.length + 1, .suspensions 0, ?_⟩
  rw [suspendedIn, ← Nat.add_zero stops.length, hp.spared 0]
  cases out with
  | error s w'' => cases he
  | ok b w'' =>
    cases he
    rfl

/-- A suspension point is related to the one before it. -/
theorem Passes.cut_after {act : Act α} {k : Nat} {w' : World} (h : Passes S act w w Q)
    (hc : act (w.under (.suspensions k)) = .error .cut w') :
    ∃ a b p, S a b ∧ suspendedIn act w k = a.under p ∧ w' = b.under (.suspensions 0) := by
  obtain ⟨stops, out, last, hp, hl, ho⟩ := h
  rcases Nat.lt_or_ge k stops.length with hk | hk
  · rw [hp.cut k hk] at hc
    cases hc
    have hlt : k < (w :: stops).length := Nat.lt_succ_of_lt hk
    obtain ⟨p, hs⟩ := hp.suspendedIn (List.getElem?_eq_getElem hlt)
    have hrel := hl.rel_of_getElem? (List.getElem?_eq_getElem hlt) (List.getElem?_eq_getElem hk)
    exact ⟨_, _, p, hrel, hs, rfl⟩
  · obtain ⟨j, rfl⟩ := Nat.exists_eq_add_of_le hk
    rw [hp.spared j] at hc
    cases out with
    | ok b w'' => cases hc
    | error s w'' => cases hc; exact absurd rfl ho

/-- The end is related to the last suspension point; with more patience than that it is
the end itself that was seen last. -/
theorem Passes.ended_after {act : Act α} {k : Nat} {a : α} {w' : World} (h : Passes S act w w Q)
    (he : act (w.under (.suspensions k)) = .ok a w') :
    ∃ last w'' p, Q a last w'' ∧ (∃ q, w' = w''.under q) ∧
      (suspendedIn act w k = last.under p ∨ suspendedIn act w k = w''.under p) := by
  obtain ⟨stops, out, last, hp, hl, ho⟩ := h
  rcases Nat.lt_or_ge k stops.length with hk | hk
  · rw [hp.cut k hk] at he
    cases he
  · obtain ⟨j, rfl⟩ := Nat.exists_eq_add_of_le hk
    rw [hp.spared j] at he
    cases out with
    | error s w'' => cases he
    | ok b w'' =>
      cases he
      cases j with
      | zero =>
        obtain ⟨p, hs⟩ := hp.suspendedIn hl.getElem?_length
        exact ⟨last, w'', p, ho, ⟨_, rfl⟩, .inl hs⟩
      | succ j =>
        refine ⟨last, w'', .suspensions j, ho, ⟨_, rfl⟩, .inr ?_⟩
        rw [← Nat.add_assoc, Act.suspendedIn, hp.spared j]
        rfl

/-- What holds at the beginning and is kept from each suspension point to what comes
behind it holds wherever the operation is left. -/
theorem Passes.invariant {act : Act α} {I : World → Prop} {k : Nat} {w' : World}
    (h : Passes S act w w fun _ => S) (begin : I w)
    (step : ∀ k a b p, suspendedIn act w k = a.under p → S a b → I a → I b)
    (hw : act (w.under (.suspensions k)) = .error .cut w' ∨
      ∃ r, act (w.under (.suspensions k)) = .ok r w') : ∃ b p, I b ∧ w' = b.under p := by
  obtain ⟨stops, out, last, hp, hl, ho⟩ := h
  -- by induction along the suspension points: at each of them the operation can be left
  have along : ∀ (j : Nat) (a : World), (w :: stops)[j]? = some a → I a := by
    intro j
    induction j with
    | zero =>
      intro a ha
      cases ha
      exact begin
    | succ j ih =>
      intro b hb
      rw [List.getElem?_cons_succ] at hb
      obtain ⟨hj, -⟩ := List.getElem?_eq_some_iff.1 hb
      have ha : (w :: stops)[j]? = some _ := List.getElem?_eq_getElem (Nat.lt_succ_of_lt hj)
      obtain ⟨p, hs⟩ := hp.suspendedIn ha
      exact step j _ b p hs (hl.rel_of_getElem? ha hb) (ih _ ha)
  -- either the patience ends at one of them, or the operation comes to its end
  rcases Nat.lt_or_ge k stops.length with hk | hk
  · rcases hw with hcut | ⟨r, hend⟩
    · rw [hp.cut k hk] at hcut
      cases hcut
      refine ⟨stops[k], .suspensions 0, along (k + 1) _ ?_, rfl⟩
      rw [List.getElem?_cons_succ, List.getElem?_eq_getElem hk]
    · rw [hp.cut k hk] at hend
      cases hend
  · obtain ⟨j, rfl⟩ := Nat.exists_eq_add_of_le hk
    rw [hp.spared j] at hw
    cases out with
    | error s w'' =>
      rcases hw with hcut | ⟨r, hend⟩
      · cases hcut
        exact absurd rfl ho
      · cases hend
    | ok a w'' =>
      rcases hw with hcut | ⟨r, hend⟩
      · cases hcut
      · cases hend
        obtain ⟨p, hs⟩ := hp.suspendedIn hl.getElem?_length
        exact ⟨w'', _, step _ last w'' p hs ho (along _ last hl.getElem?_length), rfl⟩

/-- What holds in all suspension points of an operation that ends, before it and behind
it, holds in every world that it was last suspended in. -/
theorem Passes.suspendedIn {act : Act α} {I : World → Prop} {a : α} {w' : World}
    (hI : ∀ w p, I w → I (w.under p))
    (h : Passes (fun _ m => I m) act w w (fun _ _ w => I w)) (hw : I w)
    (he : act (w.under .endless) = .ok a w') (k : Nat) : I (Act.suspendedIn act w k) := by
  obtain ⟨stops, out, last, hp, hl, ho⟩ := h
  rw [hp.whole] at he
  cases k with
  | zero => exact hw
  | succ k =>
    rcases Nat.lt_or_ge k stops.length with hk | hk
    · rw [Act.suspendedIn, hp.cut k hk]
      obtain ⟨_, hm⟩ := hl.exists_of_mem (List.getElem_mem hk)
      exact hI _ _ hm
    · obtain ⟨j, rfl⟩ := Nat.exists_eq_add_of_le hk
      rw [Act.suspendedIn, hp.spared j]
      cases out with
      | error s w'' => cases he
      | ok b w'' => exact hI _ _ ho

/-- What holds in all suspension points and at the end holds in all that is left
behind, if the patience does not matter for it. -/
theorem Passes.leaves {act : Act α} {I : World → Prop} {w' : World}
    (hI : ∀ w p, I w → I (w.under p))
    (h : Passes (fun _ m => I m) act g w (fun _ _ w => I w)) (hl : Leaves act w w') : I w' := by
  cases hl with
  | ended he =>
    obtain ⟨_, w'', hw, rfl⟩ := h.ended he
    exact hI _ _ hw
  | cut hc =>
    obtain ⟨_, m, hm, rfl⟩ := h.cut hc
    exact hI _ _ hm

end Act

end StoryChat
