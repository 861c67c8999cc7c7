/-
Walks that come to an end.

A walk (`Act.walk`) has no measure of its own: where it goes on behind a node depends on
variables that it changes itself. But it goes nowhere else than where the node may lead
(`Node.MayLead`), and that can be read off the script. So if no way through the script leads
back to where it was without asking the player or ending the part (`Acyclic`), no walk sees an
identity twice, and a script has only so many of them.

How long a walk may be is no part of this. What a walk comes to is described here by a tour
(`Tours`), the identities that are visited one after the other, without any bound on them; the
walk that is bounded comes to the same as soon as the bound is no shorter than the tour.
-/
import Mathlib.Data.List.Chain
import Mathlib.Data.List.Dedup
import Mathlib.Data.List.Perm.Subperm
import Mathlib.Logic.Relation
import StoryChat.Proofs.Engine.Completion
import StoryChat.Proofs.Engine.Route
import StoryChat.Proofs.Script.Closed

set_option autoImplicit false

namespace StoryChat

/-! ## Scripts without a loop -/

/-- Whether the story may go on from a node at an identity without asking the player. Behind a
message it goes to the successor or to the target of a condition, whatever the variables are;
pretending to type, a node asks for no conditions. -/
inductive Node.MayLead (n : Node) : String → Prop where
  | successor {id : String} : n.Passed → n.next = some id → MayLead n id
  | target {c : Condition} : n.Passed → n.kind ≠ .typingFake → c ∈ n.conditions →
      MayLead n c.target

/-- Wherever the story goes on behind a node, the node may lead. -/
theorem Node.LeadsTo.mayLead {n : Node} {v : Variables} {next : Option String} {id : String}
    (h : n.LeadsTo v next) (hp : n.Passed) (hnext : next = some id) : n.MayLead id := by
  cases h with
  | typed => exact .successor hp hnext
  | straight => exact .successor hp hnext
  | branched ht hc =>
    cases hnext
    exact .target hp ht (hc ▸ List.mem_append_right _ List.mem_cons_self)

/-- Where a node may lead, as a list. -/
def Node.onward (n : Node) : List String :=
  if n.kind = .choice ∨ n.kind = .partEnd then []
  else if n.kind = .typingFake then n.next.toList
  else n.next.toList ++ n.conditions.map (·.target)

theorem Node.mem_onward {n : Node} {id : String} : id ∈ n.onward ↔ n.MayLead id := by
  unfold onward
  constructor
  · intro h
    split_ifs at h with hhalts ht
    · cases h
    · exact .successor (not_or.1 hhalts) (Option.mem_toList.1 h)
    · rcases List.mem_append.1 h with h | h
      · exact .successor (not_or.1 hhalts) (Option.mem_toList.1 h)
      · obtain ⟨c, hc, rfl⟩ := List.mem_map.1 h
        exact .target (not_or.1 hhalts) ht hc
  · intro h
    cases h with
    | successor hp hnext =>
      rw [if_neg (not_or.2 hp)]
      split_ifs with ht
      · exact Option.mem_toList.2 hnext
      · exact List.mem_append_left _ (Option.mem_toList.2 hnext)
    | target hp ht hc =>
      rw [if_neg (not_or.2 hp), if_neg ht]
      exact List.mem_append_right _ (List.mem_map_of_mem hc)

namespace Graph

/-- Whether a walk may go on from an identity to another one. -/
def Leads (g : Graph) (id id' : String) : Prop := ∃ n, g.find? id = some n ∧ n.MayLead id'

/-- Whether no walk can come back to where it was. -/
def Acyclic (g : Graph) : Prop := ∀ id, ¬ Relation.TransGen g.Leads id id

variable {g : Graph} {d : Document} {ids : List String}

/-- Numbers that fall wherever a node may lead leave no way back. -/
theorem acyclic_of_rank (rank : String → Nat)
    (h : ∀ n ∈ d.nodes, ∀ id ∈ n.onward, rank id < rank n.id) : (ofDocument d).Acyclic := by
  have hfalls {id id' : String} (hway : Relation.TransGen (ofDocument d).Leads id id') :
      rank id' < rank id := by
    have hstep {id id' : String} (hlead : (ofDocument d).Leads id id') : rank id' < rank id := by
      obtain ⟨n, hn, hmay⟩ := hlead
      obtain ⟨hmem, rfl⟩ := mem_of_find? hn
      exact h n hmem id' (Node.mem_onward.2 hmay)
    induction hway with
    | single hlead => exact hstep hlead
    | tail _ hlead ih => exact (hstep hlead).trans ih
  -- on a loop the rank would fall below itself
  exact fun id hloop => Nat.lt_irrefl _ (hfalls hloop)

/-- On a way through such a graph no identity comes twice. -/
theorem Acyclic.nodup (h : g.Acyclic) (hids : ids.IsChain g.Leads) : ids.Nodup := by
  have hway : ids.IsChain (Relation.TransGen g.Leads) :=
    hids.imp fun _ _ => Relation.TransGen.single
  refine (List.isChain_iff_pairwise.1 hway).imp fun {id id'} hlater => ?_
  rintro rfl
  exact h id hlater

/-- On a way through a graph all identities but the last are those of nodes. -/
theorem has_of_isChain (h : ids.IsChain (ofDocument d).Leads) : ∀ id ∈ ids.dropLast, d.Has id := by
  induction ids with
  | nil => exact List.forall_mem_nil _
  | cons id ids ih =>
    cases ids with
    | nil => exact List.forall_mem_nil _
    | cons id' ids =>
      obtain ⟨⟨n, hn, -⟩, hrest⟩ := List.isChain_cons_cons.1 h
      have hhas : d.Has id := ⟨n, mem_of_find? hn⟩
      exact List.forall_mem_cons.2 ⟨hhas, ih hrest⟩

end Graph

namespace Document

/-- The identities of a script, each of them once. -/
def identities (d : Document) : List String := (d.nodes.map Node.id).dedup

variable {d : Document} {ids : List String}

theorem mem_identities {id : String} : id ∈ d.identities ↔ d.Has id := by
  rw [identities, List.mem_dedup, List.mem_map, Has]

/-- There are no more different identities of nodes than the script has. -/
theorem length_le_identities (h : ids.Nodup) (hids : ∀ id ∈ ids, d.Has id) :
    ids.length ≤ d.identities.length := by
  have hsub : ids ⊆ d.identities := fun id hid => mem_identities.2 (hids id hid)
  exact (h.subperm hsub).length_le

end Document

/-- A way through a script without a loop is no longer than the script has identities, but for
an identity at its end that no node has. -/
theorem Graph.Acyclic.length_le {d : Document} {ids : List String}
    (hd : (Graph.ofDocument d).Acyclic) (hway : ids.IsChain (Graph.ofDocument d).Leads) :
    ids.length ≤ d.identities.length + 1 := by
  have hnodup : ids.dropLast.Nodup := (hd.nodup hway).sublist (List.dropLast_sublist _)
  have hle := Document.length_le_identities hnodup (Graph.has_of_isChain hway)
  rw [List.length_dropLast] at hle
  omega

/-! ## Tours -/

namespace Act

/-- The identities that a walk visits, one after the other, and what it comes to. -/
inductive Tours : World → String → List String → Outcome Halt → Prop where
  | stops {w m : World} {id : String} {s : Stop} : visit id w = .error s m →
      Tours w id [id] (.error s m)
  | halts {w m : World} {id : String} {halt : Halt} : visit id w = .ok (.halt halt) m →
      Tours w id [id] (.ok halt m)
  | goes {w m : World} {id id' : String} {ids : List String} {out : Outcome Halt} :
      visit id w = .ok (.next id') m → Tours m id' ids out → Tours w id (id :: ids) out

variable {w : World} {id : String} {ids : List String} {out : Outcome Halt} {d : Document}

/-- A walk that may visit as many nodes as are on its tour comes to what the tour comes to. -/
theorem Tours.walk (h : Tours w id ids out) {left : Nat} (hleft : ids.length ≤ left) :
    walk left id w = out := by
  induction h generalizing left with
  | stops hv =>
    obtain ⟨left, rfl⟩ := Nat.exists_eq_add_of_lt hleft
    unfold Act.walk
    rw [bind_apply, hv]
  | halts hv =>
    obtain ⟨left, rfl⟩ := Nat.exists_eq_add_of_lt hleft
    unfold Act.walk
    rw [bind_apply, hv]
    rfl
  | goes hv _ ih =>
    obtain ⟨left, rfl⟩ := Nat.exists_eq_add_of_lt hleft
    unfold Act.walk
    rw [bind_apply, hv]
    exact ih (by rw [List.length_cons] at hleft; omega)

/-- With less it is exhausted: the tour is what the walk visits. -/
theorem Tours.exhausts (h : Tours w id ids out) {left : Nat} (hleft : left < ids.length) :
    ∃ m, Act.walk left id w = .error .exhausted m := by
  induction h generalizing left with
  | stops | halts =>
    obtain rfl : left = 0 := Nat.lt_one_iff.1 hleft
    exact ⟨_, rfl⟩
  | goes hv _ ih =>
    cases left with
    | zero => exact ⟨_, rfl⟩
    | succ left =>
      unfold Act.walk
      rw [bind_apply, hv]
      exact ih (Nat.lt_of_succ_lt_succ hleft)

end Act

/-! ### Steps of a tour -/

/-- The walk goes on only behind a node that is passed, to where that may lead, and in the same
script. -/
theorem Plot.mayLead_of_visit {p p' : Plot} {id id' : String}
    (h : p.visit id = some (.next id', p')) :
    p'.graph = p.graph ∧ ∃ n, p.findNode? id = some n ∧ n.MayLead id' := by
  obtain ⟨halt, hhalt, -⟩ | ⟨n, hn, hp, hnext, rfl⟩ := visit_cases h
  · cases hhalt
  · cases hcurrent : (p.passing id n).story.currentNode with
    | none =>
      rw [hcurrent] at hnext
      cases hnext
    | some id'' =>
      rw [hcurrent] at hnext
      cases hnext
      exact ⟨rfl, n, hn, (p.leads_passing id n).mayLead hp hcurrent⟩

namespace Act

variable {w : World} {id : String} {ids : List String} {out : Outcome Halt} {d : Document}

/-- The step lemma: behind a visit the walk goes on in the same script, to where that leads. -/
theorem leads_of_visit {g : Graph} {id' : String} {m : World} (hg : w.engine.graph = some g)
    (h : visit id (w.under .endless) = .ok (.next id') m) :
    ∃ v : World, m = v.under .endless ∧ v.engine.graph = some g ∧ g.Leads id id' ∧
      v.setting = w.setting := by
  obtain ⟨stops, out, hpath, hvisited⟩ := visit_path w id
  have hplot := hvisited.plot
  rw [hpath.whole] at h
  cases out with
  | error s v => cases h
  | ok a v =>
    cases h
    obtain ⟨hgraph, n, hn, hlead⟩ := Plot.mayLead_of_visit hplot.symm
    have hfind : w.plot.findNode? id = g.find? id := by
      change w.engine.graph.bind _ = _
      rw [hg, Option.bind_some]
    exact ⟨v, rfl, hgraph.trans hg, ⟨n, hfind ▸ hn, hlead⟩, hvisited.setting.2 w⟩

/-- A visit stops nowhere but at a message whose pauses have crossed limits. -/
theorem crossed_of_visit {g : Graph} {s : Stop} {m : World} (hg : w.engine.graph = some g)
    (h : visit id (w.under .endless) = .error s m) : s = .crossedLimits ∧
      ∃ n, g.find? id = some n ∧ n.Passed ∧ n.kind ≠ .typingFake ∧
        ¬ n.Paced w.engine.config.pacing := by
  obtain ⟨stops, out, hpath, hvisited⟩ := visit_path w id
  rw [hpath.whole] at h
  cases hvisited with
  | crossed hn hchoice hend htyping hlimits =>
    cases h
    rw [World.findNode?, hg, Option.bind_some] at hn
    exact ⟨rfl, _, hn, ⟨hchoice, hend⟩, htyping, hlimits⟩
  | missing | offered | told | ended | lost | turned => cases h

/-! ### Tours through a script -/

/-- The run lemma: a tour is a way through the script. -/
theorem Tours.isChain {g : Graph} (h : Tours (w.under .endless) id ids out)
    (hg : w.engine.graph = some g) : (∃ rest, ids = id :: rest) ∧ ids.IsChain g.Leads := by
  generalize hm : w.under .endless = m at h
  induction h generalizing w with
  | stops | halts => exact ⟨⟨_, rfl⟩, List.isChain_singleton _⟩
  | goes hv _ ih =>
    subst hm
    obtain ⟨v, rfl, hgraph, hlead, -⟩ := leads_of_visit hg hv
    obtain ⟨⟨rest, rfl⟩, hrest⟩ := ih hgraph rfl
    exact ⟨⟨_, rfl⟩, List.isChain_cons_cons.2 ⟨hlead, hrest⟩⟩

/-- A tour that stops stops at a message on it whose pauses have crossed limits. -/
theorem Tours.crossed {g : Graph} {s : Stop} {m : World}
    (h : Tours (w.under .endless) id ids (.error s m)) (hg : w.engine.graph = some g) :
    s = .crossedLimits ∧ ∃ id' ∈ ids, ∃ n, g.find? id' = some n ∧ n.Passed ∧
      n.kind ≠ .typingFake ∧ ¬ n.Paced w.engine.config.pacing := by
  generalize hu : w.under .endless = u at h
  generalize hout : (EStateM.Result.error s m : Outcome Halt) = out at h
  induction h generalizing w with
  | stops hv =>
    subst hu
    cases hout
    obtain ⟨rfl, n, hn⟩ := crossed_of_visit hg hv
    exact ⟨rfl, _, List.mem_singleton_self _, n, hn⟩
  | halts => cases hout
  | goes hv _ ih =>
    subst hu
    obtain ⟨v, rfl, hgraph, -, hset⟩ := leads_of_visit hg hv
    obtain ⟨rfl, id', hid, hn⟩ := ih hgraph rfl hout
    rw [World.config_eq_of_setting hset] at hn
    exact ⟨rfl, id', List.mem_cons_of_mem _ hid, hn⟩

/-- From a node there is a tour, or a way through the script of any length. -/
theorem exists_tour_or_way {g : Graph} (hg : w.engine.graph = some g) (id : String)
    (length : Nat) : (∃ ids out, Tours (w.under .endless) id ids out) ∨
      ∃ ids, ids.length = length ∧ (id :: ids).IsChain g.Leads := by
  -- each visit that does not end the tour is one more step of the way
  induction length generalizing w id with
  | zero => exact .inr ⟨[], rfl, List.isChain_singleton _⟩
  | succ length ih =>
    cases hv : visit id (w.under .endless) with
    | error s m => exact .inl ⟨_, _, .stops hv⟩
    | ok visit m =>
      cases visit with
      | halt halt => exact .inl ⟨_, _, .halts hv⟩
      | next id' =>
        obtain ⟨v, rfl, hgraph, hlead, -⟩ := leads_of_visit hg hv
        rcases ih hgraph id' with ⟨ids, out, htour⟩ | ⟨ids, rfl, hway⟩
        · exact .inl ⟨_, _, .goes hv htour⟩
        · exact .inr ⟨id' :: ids, rfl, List.isChain_cons_cons.2 ⟨hlead, hway⟩⟩

/-- In a script without a loop every walk has a tour: no way through it is longer than it has
identities. -/
theorem exists_tour (hg : w.engine.graph = some (.ofDocument d))
    (hd : (Graph.ofDocument d).Acyclic) (id : String) :
    ∃ ids out, Tours (w.under .endless) id ids out := by
  rcases exists_tour_or_way hg id (d.identities.length + 1) with htour | ⟨ids, hlength, hway⟩
  · exact htour
  · have hle := hd.length_le hway
    rw [List.length_cons] at hle
    omega

end Act

namespace World

variable {w : World} {d : Document} {id : String} {ids : List String} {out : Act.Outcome Halt}

/-- Whether a walk from an identity ends: it has a tour, on which no identity comes twice and no
more nodes are visited than the script has identities, and it halts unless it comes to a message
whose pauses have crossed limits. -/
structure WalkEnds (w : World) (d : Document) (id : String) (ids : List String)
    (out : Act.Outcome Halt) : Prop where
  tour : Act.Tours (w.under .endless) id ids out
  walk {left : Nat} : ids.length ≤ left → Act.walk left id (w.under .endless) = out
  shorter {left : Nat} : left < ids.length →
    ∃ m, Act.walk left id (w.under .endless) = .error .exhausted m
  once : ids.Nodup
  nodes : (ids.filter d.identities.contains).length ≤ d.identities.length
  halts : (∃ halt m, out = .ok halt m) ∨ ∃ m, out = .error .crossedLimits m ∧ ∃ id' ∈ ids, ∃ n,
    (Graph.ofDocument d).find? id' = some n ∧ n.Passed ∧ n.kind ≠ .typingFake ∧
      ¬ n.Paced w.engine.config.pacing

/-- A tour through a script without a loop is the end of the walk. -/
theorem WalkEnds.of_tour (hg : w.engine.graph = some (.ofDocument d))
    (hd : (Graph.ofDocument d).Acyclic) (htour : Act.Tours (w.under .endless) id ids out) :
    w.WalkEnds d id ids out := by
  have hnodup : ids.Nodup := hd.nodup (htour.isChain hg).2
  have hhas : ∀ id ∈ ids.filter d.identities.contains, d.Has id := fun id hid =>
    Document.mem_identities.1 (List.contains_iff_mem.1 (List.mem_filter.1 hid).2)
  refine ⟨htour, htour.walk, htour.exhausts, hnodup,
    Document.length_le_identities (hnodup.filter _) hhas, ?_⟩
  cases out with
  | ok halt m => exact .inl ⟨halt, m, rfl⟩
  | error s m =>
    obtain ⟨rfl, hcrossed⟩ := htour.crossed hg
    exact .inr ⟨m, rfl, hcrossed⟩

/-- Through a script without a loop that asks nobody (`Graph.Acyclic`) every walk ends
(`WalkEnds`). -/
theorem walk_ends (hg : w.engine.graph = some (.ofDocument d))
    (hd : (Graph.ofDocument d).Acyclic) (id : String) : ∃ ids out, w.WalkEnds d id ids out := by
  obtain ⟨ids, out, htour⟩ := Act.exists_tour hg hd id
  exact ⟨ids, out, .of_tour hg hd htour⟩

/-- At a pace in order every walk halts. -/
theorem WalkEnds.halts_of_inOrder (h : w.WalkEnds d id ids out)
    (hp : w.engine.config.pacing.InOrder) : ∃ halt m, out = .ok halt m := by
  rcases h.halts with hhalts | ⟨m, -, id', -, n, -, -, -, hlimits⟩
  · exact hhalts
  · exact absurd (hp.paced n) hlimits

/-- So an engine at such a pace halts whatever node of such a script it is sent to, if a walk may
visit all nodes and the one that is missing. -/
theorem advance_halts {force : Bool} (hg : w.engine.graph = some (.ofDocument d))
    (hd : (Graph.ofDocument d).Acyclic) (hp : w.engine.config.pacing.InOrder)
    (hreach : d.identities.length < w.reach)
    (hfree : w.engine.narrative.flags.processing = true → force = true) (id : String) :
    ∃ halt m, Act.advance id force (w.under .endless) = .ok (.halted halt) m := by
  have hset : (w.ready force).setting = w.setting := w.setting_ready force
  have hready : (w.ready force).engine.graph = some (.ofDocument d) := (w.graph_ready force).trans hg
  obtain ⟨ids, out, htour⟩ := Act.exists_tour hready hd id
  have hends : (w.ready force).WalkEnds d id ids out := .of_tour hready hd htour
  have hin : (w.ready force).engine.config.pacing.InOrder := by rwa [config_eq_of_setting hset]
  obtain ⟨halt, m, rfl⟩ := hends.halts_of_inOrder hin
  have hle := hd.length_le (hends.tour.isChain hready).2
  have hwalk := hends.walk (hle.trans hreach)
  rw [← ready_under] at hwalk
  have hrun : Act.advance id force (w.under .endless) = _ := Act.advance_apply hfree
  have hmay : (w.under .endless).reach = w.reach := rfl
  rw [hmay, hwalk] at hrun
  exact ⟨halt, _, hrun⟩

theorem acyclic_forking : (Graph.ofDocument .forking).Acyclic :=
  Graph.acyclic_of_rank (fun id => 4 - ["start", "left", "voice", "photo"].idxOf id) (by decide)

/-- The script that forks would have a loop if pretending to type asked for conditions. -/
theorem walk_ends_forked : forked.engine.graph = some (.ofDocument .forking) ∧
    (Graph.ofDocument .forking).Acyclic ∧
    ∃ ids out, forked.WalkEnds .forking "start" ids out :=
  ⟨rfl, acyclic_forking, walk_ends rfl acyclic_forking "start"⟩

/-- A script of one message. -/
def remark : Document := ⟨none, [.message "start" (.npc "Ana") "Hm"]⟩

/-- An engine that has this script and a pace at which no text can be typed. -/
def hasty : World :=
  { World.opening fun _ => .ok remark with
    engine :=
      { Engine.fresh { Config.instant with
          pacing := { Pacing.instant with text := ⟨60, 5000, 1500, 0⟩ } } [] true true with
        graph := some (.ofDocument remark) } }

/-- There is no loop in the script, and yet no walk from its only node halts. -/
theorem not_halts_hasty : hasty.engine.graph = some (.ofDocument remark) ∧
    (Graph.ofDocument remark).Acyclic ∧
    ∀ left halt m, Act.walk left "start" (hasty.under .endless) ≠ .ok halt m := by
  refine ⟨rfl, Graph.acyclic_of_rank (fun _ => 0) (by decide), fun left halt m h => ?_⟩
  have hplot := Act.plot_walk left "start" hasty
  have hvisit : hasty.plot.visit "start" = none :=
    Option.isNone_iff_eq_none.1 (by decide +kernel)
  rw [h] at hplot
  cases left with
  | zero => cases hplot
  | succ left =>
    rw [Plot.walk, hvisit] at hplot
    cases hplot

end World

end StoryChat
