/-
The route of a walk: which nodes it visits, and what they leave behind.

A script says of each node where the story goes on behind it, and that depends on the
variables as the node's own actions leave them. So a script, the variables and a start
give a `Route`: the nodes that are passed, and the reason for which the walk stops
behind them. It is described here by rules that know of no engine. There is nothing in
them of pauses, cues, slots or events, nor of how an engine looks a successor up.

The walk of an engine (`Act.walk`) takes the route and no other. What it adds to the
conversation is what the nodes of the route say, and variables and connection end as
their actions leave them, one node after the other. The work is done on plots, where a
walk is a plain function (`Plot.walk`); that the walk of an engine comes to the same was
shown there.
-/
import StoryChat.Proofs.Engine.Plot

set_option autoImplicit false

namespace StoryChat

/-! ## What nodes work on -/

/-- What the actions of nodes change. -/
structure Traits where
  vars : Variables
  online : Bool
  blocked : Bool
  deriving DecidableEq

namespace Traits

/-- The traits behind an action. -/
def act (t : Traits) : Action → Traits
  | .set name value => { t with vars := t.vars.set name value }
  | .setOnline online => { t with online }
  | .setBlocked blocked => { t with blocked }
  | .unknown => t

/-- The traits behind a node: all its actions are carried out, in order. -/
def behind (t : Traits) (n : Node) : Traits := n.actions.foldl act t

end Traits

namespace Story

/-- The traits of a story. -/
def traits (s : Story) : Traits := ⟨s.vars, s.online, s.blocked⟩

@[simp] theorem traits_goTo (s : Story) (node : Option String) :
    (s.goTo node).traits = s.traits := rfl

@[simp] theorem traits_say (s : Story) (u : Utterance) : (s.say u).traits = s.traits := rfl

@[simp] theorem lines_goTo (s : Story) (node : Option String) :
    (s.goTo node).lines = s.lines := rfl

@[simp] theorem lines_say (s : Story) (u : Utterance) : (s.say u).lines = s.lines ++ [u] := rfl

theorem traits_act (s : Story) (a : Action) : (s.act a).traits = s.traits.act a := by
  cases a <;> rfl

theorem lines_act (s : Story) (a : Action) : (s.act a).lines = s.lines := by
  cases a <;> rfl

@[simp] theorem traits_acts (as : List Action) (s : Story) :
    (as.foldl act s).traits = as.foldl Traits.act s.traits := by
  induction as generalizing s with
  | nil => rfl
  | cons a as ih => rw [List.foldl_cons, List.foldl_cons, ih, traits_act]

@[simp] theorem lines_acts (as : List Action) (s : Story) :
    (as.foldl act s).lines = s.lines := by
  induction as generalizing s with
  | nil => rfl
  | cons a as ih => rw [List.foldl_cons, ih, lines_act]

end Story

/-! ## Routes -/

/-- A node that a walk passes, rather than stopping at it. -/
def Node.Passed (n : Node) : Prop := n.kind ≠ .choice ∧ n.kind ≠ .partEnd

/-- Where the story goes on behind a node that is passed, given the variables behind it. -/
inductive Node.LeadsTo (n : Node) (v : Variables) : Option String → Prop where
  /-- Pretending to type, a node does not ask for conditions. -/
  | typed : n.kind = .typingFake → LeadsTo n v n.next
  /-- A message goes on at the target of the first condition that holds. -/
  | branched {before after : List Condition} {c : Condition} : n.kind ≠ .typingFake →
      n.conditions = before ++ c :: after → (∀ b ∈ before, b.holds v = false) →
      c.holds v = true → LeadsTo n v (some c.target)
  /-- If none does, it goes on at the successor. -/
  | straight : n.kind ≠ .typingFake → (∀ c ∈ n.conditions, c.holds v = false) →
      LeadsTo n v n.next

/-- The route from a start, with the traits there: the nodes that are passed, in order,
and why the walk stops behind them. -/
inductive Route (find? : String → Option Node) : Traits → String → List Node → Halt → Prop where
  /-- There is no such node. -/
  | missing {t : Traits} {id : String} : find? id = none → Route find? t id [] (.missingNode id)
  /-- The player is asked. -/
  | asked {t : Traits} {id : String} {n : Node} : find? id = some n → n.kind = .choice →
      Route find? t id [] .awaitingChoice
  /-- The part is over. -/
  | ended {t : Traits} {id : String} {n : Node} : find? id = some n → n.kind = .partEnd →
      Route find? t id [] (.partEnd n.nextPart)
  /-- A node is passed, and nothing comes behind it. -/
  | last {t : Traits} {id : String} {n : Node} : find? id = some n → n.Passed →
      n.LeadsTo (t.behind n).vars none → Route find? t id [n] .endOfScript
  /-- A node is passed, and the route goes on. -/
  | step {t : Traits} {id id' : String} {n : Node} {nodes : List Node} {halt : Halt} :
      find? id = some n → n.Passed → n.LeadsTo (t.behind n).vars (some id') →
      Route find? (t.behind n) id' nodes halt → Route find? t id (n :: nodes) halt

namespace Node

/-- Where a walk looks for the next node behind one that it passes. -/
def successor (n : Node) (v : Variables) : Option String :=
  if n.kind = .typingFake then n.next else n.resolveNext v

/-- The rules say of every node where the story goes on behind it, and it is where a walk
looks. -/
theorem leads_iff {n : Node} {v : Variables} {next : Option String} :
    n.LeadsTo v next ↔ next = n.successor v := by
  unfold successor
  constructor
  · rintro (hk | ⟨hk, hc, hb, hh⟩ | ⟨hk, hc⟩)
    · rw [if_pos hk]
    · have hb' := fun b hm => Bool.eq_false_iff.1 (hb b hm)
      rw [if_neg hk, resolveNext, hc, List.find?_append, List.find?_eq_none.2 hb',
        Option.none_or, List.find?_cons, hh]
    · have hc' : ∀ c ∈ n.conditions, ¬ c.holds v = true := fun c hm => Bool.not_eq_true _ ▸ hc c hm
      rw [if_neg hk, resolveNext, List.find?_eq_none.2 hc']
  · rintro rfl
    split
    · next hk => exact .typed hk
    · next hk =>
      unfold resolveNext
      split
      · next c hc =>
        obtain ⟨hh, before, after, hcs, hb⟩ := List.find?_eq_some_iff_append.1 hc
        exact .branched hk hcs (fun b hm => by simpa using hb b hm) hh
      · next hc =>
        exact .straight hk fun c hm => Bool.eq_false_iff.2 (List.find?_eq_none.1 hc c hm)

end Node

/-- What a route is whose first node is passed. -/
theorem Route.of_passed {find? : String → Option Node} {t : Traits} {id : String} {n : Node}
    {nodes : List Node} {halt : Halt} (h : Route find? t id nodes halt) (hn : find? id = some n)
    (hp : n.Passed) : ∃ rest, nodes = n :: rest ∧
      match n.successor (t.behind n).vars with
      | none => rest = [] ∧ halt = .endOfScript
      | some id' => Route find? (t.behind n) id' rest halt := by
  cases h with
  | missing hn' => rw [hn] at hn'; cases hn'
  | asked hn' hk => rw [hn] at hn'; cases hn'; exact absurd hk hp.1
  | ended hn' hk => rw [hn] at hn'; cases hn'; exact absurd hk hp.2
  | last hn' _ hl =>
    rw [hn] at hn'
    cases hn'
    rw [← Node.leads_iff.1 hl]
    exact ⟨[], rfl, rfl, rfl⟩
  | step hn' _ hl hr =>
    rw [hn] at hn'
    cases hn'
    rw [← Node.leads_iff.1 hl]
    exact ⟨_, rfl, hr⟩

/-- From a start there is one route at most. -/
theorem Route.unique {find? : String → Option Node} {t : Traits} {id : String}
    {nodes nodes' : List Node} {halt halt' : Halt} (h : Route find? t id nodes halt)
    (h' : Route find? t id nodes' halt') : nodes = nodes' ∧ halt = halt' := by
  induction h generalizing nodes' halt' with
  | missing hn => cases h' <;> simp_all
  | asked hn hk => cases h' <;> simp_all [Node.Passed]
  | ended hn hk => cases h' <;> simp_all [Node.Passed]
  | last hn hp hl =>
    obtain ⟨rest, rfl, hrest⟩ := h'.of_passed hn hp
    rw [← Node.leads_iff.1 hl] at hrest
    obtain ⟨rfl, rfl⟩ := hrest
    exact ⟨rfl, rfl⟩
  | step hn hp hl _ ih =>
    obtain ⟨rest, rfl, hrest⟩ := h'.of_passed hn hp
    rw [← Node.leads_iff.1 hl] at hrest
    obtain ⟨rfl, rfl⟩ := ih hrest
    exact ⟨rfl, rfl⟩

/-! ## The walk takes the route -/

namespace Plot

/-- What a node on the route adds to the conversation: a message, unless it only pretends
to type. -/
def said? (p : Plot) (n : Node) : Option Utterance :=
  if n.kind = .typingFake then none
  else some ⟨n.id, n.sender, n.kind.medium, p.personalize n.content⟩

theorem traits_storyAfter (p : Plot) (n : Node) :
    (p.storyAfter n).traits = p.story.traits.behind n := by
  unfold storyAfter
  split <;> simp [Story.afterTyping, Story.afterMessage, Traits.behind]

theorem lines_storyAfter (p : Plot) (n : Node) :
    (p.storyAfter n).lines = p.story.lines ++ (p.said? n).toList := by
  unfold storyAfter said?
  split <;> simp [Story.afterTyping, Story.afterMessage]

theorem currentNode_storyAfter (p : Plot) (n : Node) :
    (p.storyAfter n).currentNode = n.successor (p.story.traits.behind n).vars := by
  rw [← traits_storyAfter]
  unfold storyAfter Node.successor
  split <;> rfl

/-- What a walk has come to: `nodes` is its route, they have said what there is to say,
and their actions are done. -/
structure Took (p : Plot) (id : String) (nodes : List Node) (halt : Halt) (p' : Plot) : Prop where
  route : Route p.findNode? p.story.traits id nodes halt
  lines : p'.story.lines = p.story.lines ++ nodes.filterMap p.said?
  traits : p'.story.traits = nodes.foldl Traits.behind p.story.traits

/-- Where a walk stops at once nothing is said and nothing done. -/
theorem Took.nil {p p' : Plot} {id : String} {halt : Halt}
    (hr : Route p.findNode? p.story.traits id [] halt) (hl : p'.story.lines = p.story.lines)
    (ht : p'.story.traits = p.story.traits) : p.Took id [] halt p' :=
  ⟨hr, by rw [hl, List.filterMap_nil, List.append_nil], ht⟩

theorem ending_story (p : Plot) (next : Option Nat) :
    (p.ending next).story = p.story.goTo none := by
  unfold ending
  split
  · rfl
  · split <;> rfl

/-- The plot behind a node that is passed. -/
def passing (p : Plot) (id : String) (n : Node) : Plot :=
  { p with story := (p.visiting id).storyAfter n }

theorem leads_passing (p : Plot) (id : String) (n : Node) :
    n.LeadsTo (p.story.traits.behind n).vars (p.passing id n).story.currentNode :=
  Node.leads_iff.2 (currentNode_storyAfter (p.visiting id) n)

/-- What a visit of a node that is passed leads to. -/
theorem visit_passed {p : Plot} {id : String} {n : Node} (hn : p.findNode? id = some n)
    (hp : n.Passed) (hl : n.kind = .typingFake ∨ n.Paced p.config.pacing) :
    p.visit id = some (.ofNext (p.passing id n).story.currentNode, p.passing id n) := by
  unfold visit
  rw [hn]
  dsimp only
  rw [if_neg hp.1, if_neg hp.2, if_pos hl]
  rfl

/-- A walk that passes a node has taken it, and the route from where it leads. -/
theorem Took.step {p p' : Plot} {id id' : String} {n : Node} {nodes : List Node} {halt : Halt}
    (hn : p.findNode? id = some n) (hp : n.Passed)
    (hnext : (p.passing id n).story.currentNode = some id')
    (h : (p.passing id n).Took id' nodes halt p') : p.Took id (n :: nodes) halt p' := by
  have htraits : (p.passing id n).story.traits = p.story.traits.behind n := traits_storyAfter _ n
  have hlines : (p.passing id n).story.lines = p.story.lines ++ (p.said? n).toList :=
    lines_storyAfter _ n
  refine ⟨.step hn hp (hnext ▸ p.leads_passing id n) (htraits ▸ h.route), ?_, ?_⟩
  · rw [h.lines, hlines, List.filterMap_cons, List.append_assoc]
    -- whoever walks has the same name behind the node
    have hsaid : (p.passing id n).said? = p.said? := rfl
    rw [hsaid]
    cases p.said? n <;> rfl
  · rw [h.traits, htraits, List.foldl_cons]

/-- A walk that ends behind a node has taken this node and no other. -/
theorem Took.last {p : Plot} {id : String} {n : Node} (hn : p.findNode? id = some n)
    (hp : n.Passed) (hnext : (p.passing id n).story.currentNode = none) :
    p.Took id [n] .endOfScript (p.passing id n) := by
  refine ⟨.last hn hp (hnext ▸ p.leads_passing id n), ?_, traits_storyAfter _ n⟩
  have hlines : (p.passing id n).story.lines = p.story.lines ++ (p.said? n).toList :=
    lines_storyAfter _ n
  rw [hlines, List.filterMap_cons, List.filterMap_nil]
  cases p.said? n <;> rfl

/-- The inversion lemma of a visit: the walk stops with it, or a node is passed. -/
theorem visit_cases {p p' : Plot} {id : String} {v : Act.Visit}
    (h : p.visit id = some (v, p')) : (∃ halt, v = .halt halt ∧ p.Took id [] halt p') ∨
      ∃ n, p.findNode? id = some n ∧ n.Passed ∧
        v = .ofNext (p.passing id n).story.currentNode ∧ p' = p.passing id n := by
  cases hn : p.findNode? id with
  | none =>
    rw [visit, hn] at h
    cases h
    exact .inl ⟨_, rfl, .nil (.missing hn) rfl rfl⟩
  | some n =>
    by_cases hc : n.kind = .choice
    · rw [visit, hn] at h
      dsimp only at h
      rw [if_pos hc] at h
      cases h
      exact .inl ⟨_, rfl, .nil (.asked hn hc) rfl rfl⟩
    by_cases he : n.kind = .partEnd
    · rw [visit, hn] at h
      dsimp only at h
      rw [if_neg hc, if_pos he] at h
      cases h
      exact .inl ⟨_, rfl, .nil (.ended hn he) (by rw [ending_story]; rfl)
        (by rw [ending_story]; rfl)⟩
    by_cases hl : n.kind = .typingFake ∨ n.Paced p.config.pacing
    · rw [visit_passed hn ⟨hc, he⟩ hl] at h
      cases h
      exact .inr ⟨n, rfl, ⟨hc, he⟩, rfl, rfl⟩
    · -- at a message that cannot be paced the visit comes to nothing
      rw [visit, hn] at h
      dsimp only at h
      rw [if_neg hc, if_neg he, if_neg hl] at h
      cases h

/-- The walk takes the route: by induction on how many nodes it may still visit, one visit
being one rule. -/
theorem took_of_walk {left : Nat} {id : String} {p p' : Plot} {halt : Halt}
    (h : walk left id p = some (halt, p')) : ∃ nodes, p.Took id nodes halt p' := by
  induction left generalizing id p with
  | zero => cases h
  | succ left ih =>
    unfold walk at h
    cases hv : p.visit id with
    | none =>
      rw [hv] at h
      cases h
    | some visited =>
      obtain ⟨v, q⟩ := visited
      rw [hv] at h
      -- either the visit was the last, or a node is passed and the rest is a route
      obtain ⟨halt', rfl, htook⟩ | ⟨n, hn, hp, rfl, rfl⟩ := visit_cases hv
      · cases h
        exact ⟨[], htook⟩
      · cases hnext : (p.passing id n).story.currentNode with
        | none =>
          rw [hnext] at h
          cases h
          exact ⟨[n], .last hn hp hnext⟩
        | some id' =>
          rw [hnext] at h
          obtain ⟨nodes, htook⟩ := ih h
          exact ⟨n :: nodes, .step hn hp hnext htook⟩

/-- A route whose nodes can be paced, and which is not too long, is walked to its end. -/
theorem walk_of_route {left : Nat} {id : String} {p : Plot} {nodes : List Node} {halt : Halt}
    (h : Route p.findNode? p.story.traits id nodes halt) (hleft : nodes.length < left)
    (hp : ∀ n ∈ nodes, n.kind = .typingFake ∨ n.Paced p.config.pacing) :
    ∃ p', walk left id p = some (halt, p') := by
  induction left generalizing id p nodes with
  | zero => cases hleft
  | succ left ih =>
    -- what the rule says of the next node is where a visit goes on
    have passed {n : Node} (hn : p.findNode? id = some n) (hk : n.Passed)
        (hpn : n.kind = .typingFake ∨ n.Paced p.config.pacing) {next : Option String}
        (hl : n.LeadsTo (p.story.traits.behind n).vars next) :
        p.visit id = some (.ofNext next, p.passing id n) := by
      rw [visit_passed hn hk hpn, Node.leads_iff.1 hl, Node.leads_iff.1 (p.leads_passing id n)]
    cases h with
    | missing hn =>
      refine ⟨p, ?_⟩
      unfold walk visit
      rw [hn]
    | asked hn hk =>
      refine ⟨p.visiting id, ?_⟩
      unfold walk visit
      rw [hn]
      dsimp only
      rw [if_pos hk]
    | @ended _ _ n hn hk =>
      refine ⟨p.ending n.nextPart, ?_⟩
      unfold walk visit
      rw [hn]
      dsimp only
      rw [if_neg (by rw [hk]; decide), if_pos hk]
    | last hn hk hl =>
      unfold walk
      rw [passed hn hk (hp _ (List.mem_singleton.2 rfl)) hl]
      exact ⟨_, rfl⟩
    | step hn hk hl hr =>
      unfold walk
      rw [passed hn hk (hp _ List.mem_cons_self) hl]
      have hlen := Nat.lt_of_succ_lt_succ hleft
      have hp' := fun m hm => hp m (List.mem_cons_of_mem _ hm)
      refine ih ?_ hlen hp'
      rwa [passing, traits_storyAfter]

end Plot

namespace World

/-- The lines of the conversation. -/
def lines (w : World) : List Utterance := w.engine.narrative.story.lines

/-- What the nodes of a route work on. -/
def traits (w : World) : Traits := w.engine.narrative.story.traits

/-- What a node on the route adds to the conversation. -/
def said? (w : World) (n : Node) : Option Utterance :=
  if n.kind = .typingFake then none else some (w.utteranceOf n)

/-- A walk (`Act.advance`) that halts has taken the `Route` from its start, and the route says
why it halts. It has added to the conversation what the nodes of the route say, in order. The
traits are as the actions of these nodes leave them, one node after the other. -/
theorem walks_route {w w' : World} {id : String} {force : Bool} {walked : Walked}
    (hfree : w.engine.narrative.flags.processing = false)
    (hrun : Act.advance id force (w.under .endless) = .ok walked w') :
    ∃ nodes halt, Route w.findNode? w.traits id nodes halt ∧ walked = .halted halt ∧
      w'.lines = w.lines ++ nodes.filterMap w.said? ∧
      w'.traits = nodes.foldl Traits.behind w.traits := by
  have hbusy : w.engine.narrative.flags.processing = true → force = true := by
    rw [hfree]
    exact fun h => absurd h Bool.false_ne_true
  obtain ⟨halt, rfl, hplot, -⟩ := Act.plot_of_advance hbusy hrun
  obtain ⟨nodes, hroute, hlines, htraits⟩ := Plot.took_of_walk hplot
  exact ⟨nodes, halt, hroute, rfl, hlines, htraits⟩

/-- The other way round, a route that is not too long is walked, if the limits of its pauses
are in order. -/
theorem advance_of_route {w : World} {id : String} {nodes : List Node} {halt : Halt}
    (hfree : w.engine.narrative.flags.processing = false)
    (h : Route w.findNode? w.traits id nodes halt) (hreach : nodes.length < w.reach)
    (hp : ∀ n ∈ nodes, n.kind = .typingFake ∨ n.Paced w.engine.config.pacing) :
    ∃ w', Act.advance id false (w.under .endless) = .ok (.halted halt) w' := by
  obtain ⟨p, hwalk⟩ := Plot.walk_of_route (p := w.plot) h hreach hp
  obtain ⟨w', hrun, -⟩ := Act.advance_of_plot hfree hwalk
  exact ⟨w', hrun⟩

end World

/-! ### A script that forks -/

namespace Document

/-- The node at which the script forks: it sets what its own condition looks at. -/
def fork : Node :=
  { Node.message "start" (.npc "valeria") "Hello, \x7b\x7bname\x7d\x7d!" with
    actions := [.set "is_liar" (.bool true)]
    conditions := [⟨"tension", .ge, .bool true, "missing"⟩, ⟨"is_liar", .eq, .bool true, "left"⟩]
    next := some "right" }

/-- The left branch, in which typing is pretended and the other side leaves. -/
def leftBranch : Node :=
  { Node.message "left" (.npc "valeria") "" with
    kind := .typingFake
    actions := [.setOnline false]
    conditions := [⟨"is_liar", .eq, .bool true, "start"⟩]
    next := some "voice" }

/-- A message that is heard. -/
def voice : Node :=
  { Node.message "voice" (.npc "valeria") "bye.ogg" with kind := .audio, next := some "photo" }

/-- A message that is seen. -/
def photo : Node :=
  { Node.message "photo" .system "door.png" with kind := .image, next := some "ask" }

/-- A script that forks, and asks at the end of its left branch. -/
def forking : Document :=
  ⟨none, [fork, leftBranch, voice, photo, { Node.message "ask" .player "" with kind := .choice }]⟩

end Document

/-- An engine that has the script which forks, and a player with a name. -/
def World.forked : World :=
  { World.opening fun _ => .ok .forking with
    engine :=
      { Engine.fresh .instant [] true true with
        graph := some (.ofDocument .forking)
        narrative := { Narrative.fresh .standard with playerName := "Ava" } } }

/-- The left branch is taken. -/
theorem route_forked : Route World.forked.findNode? World.forked.traits "start"
    [Document.fork, Document.leftBranch, Document.voice, Document.photo] .awaitingChoice := by
  have hfork : Document.fork.LeadsTo (World.forked.traits.behind Document.fork).vars
      (some "left") := Node.leads_iff.2 (by decide)
  have hleft : Document.leftBranch.LeadsTo ((World.forked.traits.behind Document.fork).behind
      Document.leftBranch).vars (some "voice") := .typed rfl
  have hvoice (v : Variables) : Document.voice.LeadsTo v (some "photo") :=
    Node.leads_iff.2 rfl
  have hphoto (v : Variables) : Document.photo.LeadsTo v (some "ask") := Node.leads_iff.2 rfl
  exact .step rfl ⟨by decide, by decide⟩ hfork (.step rfl ⟨by decide, by decide⟩ hleft
    (.step rfl ⟨by decide, by decide⟩ (hvoice _) (.step rfl ⟨by decide, by decide⟩ (hphoto _)
      (.asked rfl rfl))))

theorem World.walks_route_forked : ∃ w', Act.advance "start" false
      (World.forked.under .endless) = .ok (.halted .awaitingChoice) w' ∧
    w'.lines = [⟨"start", .npc "valeria", .text, "Hello, Ava!"⟩,
      ⟨"voice", .npc "valeria", .audio, "bye.ogg"⟩, ⟨"photo", .system, .image, "door.png"⟩] ∧
    w'.traits.online = false := by
  have hpaced : ∀ n ∈ [Document.fork, Document.leftBranch, Document.voice, Document.photo],
      n.kind = .typingFake ∨ n.Paced World.forked.engine.config.pacing := by
    decide
  obtain ⟨w', hrun⟩ := World.advance_of_route rfl route_forked (by decide) hpaced
  obtain ⟨nodes, halt, hroute, -, hlines, htraits⟩ := World.walks_route rfl hrun
  obtain ⟨rfl, -⟩ := route_forked.unique hroute
  refine ⟨w', hrun, ?_, ?_⟩
  · rw [hlines]
    decide +kernel
  · rw [htraits]
    decide

end StoryChat
