/-
Dealing with an engine.

Whatever may be done with an engine is a `Request`: the operations that it offers, keeping
and taking the record, changing the conversation by hand, listening. Requests are made one
after the other (`World.dealings`), each with a patience of its own, so that any of them may
be left on the way.

An operation of which it is known that it respects a relation between worlds keeps related
worlds related. So do dealings, and all answers in them are the same.
-/
import StoryChat.Proofs.Engine.Course
import StoryChat.Proofs.Engine.Lockstep

set_option autoImplicit false

namespace StoryChat

/-! ## Dealing with an engine -/

/-- All that can be answered to a request. -/
inductive Report where
  | loaded (result : Except LoadFault Unit)
  | entered (result : Except LoadFault Walked)
  | resumed (result : Except LoadFault (Option Walked))
  | begun (result : Option Walked)
  | walked (result : Walked)
  | chosen (result : Chosen)
  | kept (result : Except SaveFault Unit)
  | found (result : Except SaveFault Bool)
  | done
  deriving DecidableEq

/-- Do an operation, and say all that came of it. -/
def Operation.report : Operation → Act Report
  | .loadPart chapter part => .loaded <$> Act.loadPart chapter part
  | .loadNamed name => .loaded <$> Act.loadNamed name
  | .startChapter chapter part => .entered <$> Act.startChapter chapter part
  | .resumeFrom chapter part node => .resumed <$> Act.resumeFrom chapter part node
  | .resumeSaved => .resumed <$> Act.resumeSaved
  | .beginPending => .begun <$> Act.beginPending
  | .advance id force => .walked <$> Act.advance id force
  | .choose index => .chosen <$> Act.choose index
  | .rest => (fun _ => .done) <$> Act.rest
  | .resetGame => .kept <$> Act.resetGame
  | .setPlayerName name => .kept <$> Act.setPlayerName name

/-- Whatever may be done with an engine. -/
inductive Request where
  | play (op : Operation)
  /-- Keep the record of progress. -/
  | keep
  /-- Take the conversation from the record. -/
  | takeUp
  /-- Take the player's name from its slot. -/
  | takeUpName
  /-- Forget the conversation and empty both slots. -/
  | forget
  /-- Change the conversation by hand. -/
  | edit (f : Narrative → Narrative)
  /-- Listen to events from now on. -/
  | listen

/-- The world with somebody who listens. -/
def World.listenedTo (w : World) : World := { w with engine := { w.engine with listening := true } }

/-- Do what is requested. -/
def Request.ask : Request → Act Report
  | .play op => op.report
  | .keep => .kept <$> Act.saveProgress
  | .takeUp => .found <$> Act.loadProgress
  | .takeUpName => .found <$> Act.loadPlayerName
  | .forget => .kept <$> Act.resetNarrative
  | .edit f => (fun _ => .done) <$> Act.change (·.tell f)
  | .listen => (fun _ => .done) <$> Act.change World.listenedTo

/-- Requests that are waited for to the end. -/
def Request.patiently (requests : List Request) : List (Patience × Request) :=
  requests.map (.endless, ·)

/-- The answer of an operation that ended, or why it stopped. -/
def Act.Outcome.answer {α : Type} : Act.Outcome α → Except Stop α
  | .ok a _ => .ok a
  | .error s _ => .error s

/-- What comes of requests, one after the other: all answers, and the world that they lead
to. Each is waited for with a patience of its own, and the next is made in the world in
which the one before was left. -/
def World.dealings (w : World) : List (Patience × Request) → List (Except Stop Report) × World
  | [] => ([], w)
  | (p, r) :: requests =>
    let out : Act.Outcome Report := r.ask (w.under p)
    let rest := out.left.dealings requests
    (out.answer :: rest.1, rest.2)

/-- Each request is answered in the world that those before it lead to. -/
theorem World.dealings_getElem? (w : World) (requests : List (Patience × Request)) (i : Nat) :
    (w.dealings requests).1[i]? = requests[i]?.map fun request =>
      Act.Outcome.answer (request.2.ask ((w.dealings (requests.take i)).2.under request.1)) := by
  induction requests generalizing w i with
  | nil => rfl
  | cons request requests ih =>
    cases i with
    | zero => rfl
    | succ i => exact ih _ i

namespace Act

/-! ## Requests that go together with themselves -/

section

variable {J : Comparison} {T : Node → Node → Prop} {G : Graph → Graph → Prop}

/-- What plays the story goes together with itself. -/
theorem Lockstep.report (hJ : Lockstep J T G) {op : Operation} (h : op.Plays)
    (heed : ∀ index, op = .choose index → Heeds J) : J Report Eq op.report op.report := by
  cases op with
  | loadPart chapter part => exact hJ.map _ (hJ.loadPart chapter part)
  | loadNamed name => exact hJ.map _ (hJ.loadNamed name)
  | startChapter chapter part => exact hJ.map _ (hJ.startChapter chapter part)
  | resumeFrom chapter part node => exact hJ.map _ (hJ.resumeFrom chapter part node)
  | beginPending => exact hJ.map _ hJ.beginPending
  | advance id force => exact hJ.map _ (hJ.advance id force)
  | choose index => exact hJ.map _ (hJ.choose (heed index rfl) index)
  | resumeSaved | rest | resetGame | setPlayerName => cases h

/-- Where the slots answer the same, so does every operation. -/
theorem Concord.report (hJ : Concord J T G) (op : Operation)
    (heed : ∀ index, op = .choose index → Heeds J) : J Report Eq op.report op.report := by
  by_cases h : op.Plays
  · exact hJ.toLockstep.report h heed
  · cases op with
    | resumeSaved => exact hJ.map _ hJ.resumeSaved
    | rest => exact hJ.map _ (hJ.telling fun _ => rfl)
    | resetGame => exact hJ.map _ hJ.resetGame
    | setPlayerName name => exact hJ.map _ (hJ.setPlayerName name)
    | _ => exact absurd rfl h

/-- So does every request, as far as listening and changes by hand do, and for a choice the
interrupts are the same. -/
theorem Concord.request (hJ : Concord J T G) {r : Request}
    (heed : ∀ index, r = .play (.choose index) → Heeds J)
    (listen : J Unit Eq (change World.listenedTo) (change World.listenedTo))
    (edit : ∀ f, r = .edit f → J Unit Eq (change (·.tell f)) (change (·.tell f))) :
    J Report Eq r.ask r.ask := by
  cases r with
  | play op => exact hJ.report op fun index h => heed index (congrArg _ h)
  | keep => exact hJ.map _ hJ.saveProgress
  | takeUp => exact hJ.map _ hJ.loadProgress
  | takeUpName => exact hJ.map _ hJ.loadPlayerName
  | forget => exact hJ.map _ hJ.resetNarrative
  | edit f => exact hJ.map _ (edit f rfl)
  | listen => exact hJ.map _ listen

end

variable {R : World → World → Prop}

/-! ## Requests that respect a relation -/

/-- What plays the story respects whatever bears that a story is played. -/
theorem Attuned.report (hR : Attuned R) {op : Operation} (h : op.Plays)
    (heed : ∀ index, op = .choose index → Heeds (Together R)) : Respects R op.report :=
  together_iff.1 (hR.lockstep.report h heed)

/-- Every request respects a relation that bears calls on the slots, as far as listening and
changes by hand do, and for a choice the interrupts are the same. -/
theorem Concordant.ask (hR : Concordant R) {r : Request}
    (heed : ∀ index, r = .play (.choose index) → Heeds (Together R))
    (listen : ∀ w w', R w w' → R w.listenedTo w'.listenedTo)
    (edit : ∀ f, r = .edit f → ∀ w w', R w w' → R (w.tell f) (w'.tell f)) :
    Respects R r.ask :=
  together_iff.1 (hR.concord.request heed (.change listen) fun f hf => .change (edit f hf))

end Act

/-- Requests that come to the same one by one come to the same. -/
theorem World.dealings_related {R : World → World → Prop} {w w' : World} (h : R w w')
    (requests : List (Patience × Request))
    (ask : ∀ request ∈ requests, ∀ w w' : World, R w w' →
      Act.Outcome.Related R (request.2.ask (w.under request.1))
        (request.2.ask (w'.under request.1))) :
    (w'.dealings requests).1 = (w.dealings requests).1 ∧
      R (w.dealings requests).2 (w'.dealings requests).2 := by
  induction requests generalizing w w' with
  | nil => exact ⟨rfl, h⟩
  | cons request requests ih =>
    obtain ⟨hfirst, hrest⟩ := List.forall_mem_cons.1 ask
    have hout := hfirst w w' h
    unfold World.dealings
    generalize request.2.ask (w.under request.1) = out at hout ⊢
    generalize request.2.ask (w'.under request.1) = out' at hout ⊢
    cases hout with
    | ok hm | error hm =>
      obtain ⟨hanswers, hend⟩ := ih hm hrest
      exact ⟨congrArg (_ :: ·) hanswers, hend⟩

end StoryChat
