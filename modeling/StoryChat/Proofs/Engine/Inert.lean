/-
What nobody knows in a script changes nothing.

A story is played from two sources, one of which is the other one with scripts trimmed
(`Source.Trimmed`): types of nodes that nobody knows, and that of a text, are replaced by that
of a message, and actions and conditions that nobody knows are dropped, in any number.
Everything that is told and kept is the same in both (`SameTale`), whatever is asked of the
engine, as long as all of it comes to an end.

The two may pause at different places, since a condition that never holds makes a node look as
if the story went on behind it. So what is drawn at one place of one journal is drawn at another
of the other, and to whatever one engine draws there are draws with which the other tells the
same story; where no pause varies, all draws are such. The source as it was authored may pause
more often, and so it alone may be stopped at a pause whose limits are crossed.
-/
import StoryChat.Proofs.Engine.Following
import StoryChat.Proofs.Json.RoundTrip
import StoryChat.Proofs.Script.Trimming

set_option autoImplicit false

namespace StoryChat

namespace Act

/-! ## Requests that are done to the end -/

/-- Do what is requested, one after the other, and say all that came of it. -/
def undertake : List Request → Act (List Report)
  | [] => pure []
  | r :: requests => do
    change (·.under .endless)
    let report ← r.ask
    let reports ← undertake requests
    return report :: reports

/-- What comes of the first request, and of the others where it leads. -/
theorem dealings_cons {w u : World} {r : Request} {out : Outcome Report} (requests : List Request)
    (h : r.ask (w.under .endless) = out) (hu : out.left = u) :
    w.dealings (Request.patiently (r :: requests)) =
      (out.answer :: (u.dealings (Request.patiently requests)).1,
        (u.dealings (Request.patiently requests)).2) := by
  subst h hu
  rfl

/-- Dealings in which everything ends. -/
theorem dealings_of_undertake {w m : World} {requests : List Request} {reports : List Report}
    (h : undertake requests w = .ok reports m) :
    w.dealings (Request.patiently requests) = (reports.map .ok, m) := by
  induction requests generalizing w reports with
  | nil =>
    cases h
    rfl
  | cons r requests ih =>
    obtain ⟨_, v, hv, h⟩ := bind_eq_ok h
    cases hv
    obtain ⟨report, u, hu, h⟩ := bind_eq_ok h
    obtain ⟨reports', u', hu', h⟩ := bind_eq_ok h
    cases h
    rw [dealings_cons requests hu rfl]
    exact congrArg (fun rest => (Except.ok report :: rest.1, rest.2)) (ih hu')

/-- Where something stops, this is among the answers. -/
theorem error_mem_dealings {w m : World} {requests : List Request} {s : Stop}
    (h : undertake requests w = .error s m) :
    .error s ∈ (w.dealings (Request.patiently requests)).1 := by
  -- on the requests: either the first one stops, or one of the others in the world it leads to
  induction requests generalizing w with
  | nil => cases h
  | cons r requests ih =>
    unfold undertake at h
    rw [bind_apply, change_apply] at h
    dsimp only at h
    rw [bind_apply] at h
    cases hout : r.ask (w.under .endless) with
    | error s' u =>
      rw [hout] at h
      cases h
      rw [dealings_cons requests hout rfl]
      exact List.mem_cons_self
    | ok report u =>
      rw [hout] at h
      dsimp only at h
      rw [bind_apply] at h
      rw [dealings_cons requests hout rfl]
      refine List.mem_cons_of_mem _ (ih (w := u) ?_)
      cases hrest : undertake requests u with
      | error s' u' =>
        rw [hrest] at h
        cases h
        rfl
      | ok reports u' =>
        rw [hrest] at h
        cases h

/-- The run lemma: what is requested follows itself, from beginning to end. -/
theorem Follows.undertake {b : Prop} {p : Pacing} (requests : List Request) :
    Follows b (Trimmable b) p _ Eq (undertake requests) (undertake requests) := by
  induction requests with
  | nil => exact pure rfl
  | cons r requests ih =>
    refine rules.seq (change (fun w w' h => ?_) (fun _ _ => rfl) fun _ _ _ => .inl ⟨rfl, rfl⟩)
      fun _ => rules.seq (request r) fun report => rules.seq ih fun reports => pure rfl
    exact ⟨congrArg (·.under .endless) h.rest, h.pacing, rfl, h.tale, h.graph, h.shelf⟩

end Act

/-! ## The same story -/

/-- Whether dealings with two engines come to the same but for pauses and times: the answers,
what was told, heard and put into slots, in the same order, the conversations and the slots. -/
structure SameTale (a b : List (Except Stop Report) × World) : Prop where
  answers : b.1 = a.1
  tale : b.2.tale = a.2.tale
  events : b.2.events = a.2.events
  cues : b.2.cues = a.2.cues
  narrative : b.2.engine.narrative = a.2.engine.narrative
  saves : b.2.saves = a.2.saves

theorem SameTale.symm {a b : List (Except Stop Report) × World} (h : SameTale a b) :
    SameTale b a :=
  ⟨h.answers.symm, h.tale.symm, h.events.symm, h.cues.symm, h.narrative.symm, h.saves.symm⟩

namespace World

/-- Events and cues are told. -/
theorem events_eq (w : World) : w.events = w.tale.filterMap Entry.event? := by
  have htold (e : Entry) : e.event? = e.told?.bind Entry.event? := by cases e <;> rfl
  rw [events, tale, List.filterMap_filterMap, ← List.filterMap_reverse]
  exact congrArg (List.filterMap · _) (funext htold)

theorem cues_eq (w : World) : w.cues = w.tale.filterMap fun e => e.cue?.map (·.1) := by
  have htold (e : Entry) : e.cue?.map (·.1) = e.told?.bind fun e => e.cue?.map (·.1) := by
    cases e <;> rfl
  rw [cues, tale, List.filterMap_filterMap, ← List.filterMap_reverse]
  exact congrArg (List.filterMap · _) (funext htold)

/-- Whether all requests are done to the end. -/
def Completes (w : World) (requests : List Request) : Prop :=
  ∀ answer ∈ (w.dealings (Request.patiently requests)).1, answer.isOk = true

/-- The world with the scripts of a source and with draws. Whoever asks for something waits, and
no script is taken yet. -/
def given (w : World) (source : Source) (draws : Nat → Float) : World :=
  { w.holding none with shelf := source.shelf, draws, patience := .endless }

variable {b : Prop} {p : Pacing} {w w' : World}

/-- In a world that shadows another one, whatever comes to an end there does so too, with the
same outcome, unless it is stopped at crossed limits. -/
theorem Shadows.dealings (h : w.Shadows (Act.Trimmable b) p w') {requests : List Request}
    (hc : w.Completes requests) : ∃ aligned, ∀ d, p.Unvaried ∨ d = aligned →
      SameTale (w.dealings (Request.patiently requests))
          ((w'.drawing d).dealings (Request.patiently requests)) ∨
        b ∧ p.autoRead.max < p.autoRead.min ∧
          .error .crossedLimits ∈ ((w'.drawing d).dealings (Request.patiently requests)).1 := by
  cases hout : Act.undertake requests w with
  | error s m => cases hc _ (Act.error_mem_dealings hout)
  | ok reports m =>
    rw [Act.dealings_of_undertake hout]
    -- draws that agree everywhere agree where they are looked at
    rcases Act.Follows.undertake requests w w' reports m h hout with
      @⟨_, m', e, rfl, hm, -, -, -, hact⟩ | @⟨e, hb, hp, -, hact⟩
    · refine ⟨e, fun d hd => .inl ?_⟩
      rw [Act.dealings_of_undertake (hact d (hd.imp_right fun he n _ => congrFun he n))]
      have htale : (m'.drawing d).tale = m.tale := hm.tale
      refine ⟨rfl, htale, ?_, ?_, hm.narrative, hm.saves⟩
      · rw [events_eq, events_eq, htale]
      · rw [cues_eq, cues_eq, htale]
    · refine ⟨e, fun d hd => .inr ⟨hb, hp, ?_⟩⟩
      obtain ⟨m', hm'⟩ := hact d (hd.imp_right fun he n _ => congrFun he n)
      exact Act.error_mem_dealings hm'

/-- Scripts that go together make worlds that shadow each other, before anything is asked. -/
theorem shadows_given (w : World) {source source' : Source} (draws draws' : Nat → Float)
    (h : ∀ id, Fetched (Graph.Along (Act.Trimmable b)) ((source.shelf id).map .ofDocument)
      ((source'.shelf id).map .ofDocument)) :
    (w.given source draws).Shadows (Act.Trimmable b) w.engine.config.pacing
      (w.given source' draws') :=
  ⟨rfl, rfl, rfl, rfl, .none, h⟩

/-- Trimmed scripts go together with those that were trimmed, either way. -/
theorem along_of_trimmed {source source' : Source} (h : source.Trimmed source') (id : ScriptId) :
    Fetched (Graph.Along (Act.Trimmable False)) ((source.shelf id).map .ofDocument)
        ((source'.shelf id).map .ofDocument) ∧
      Fetched (Graph.Along (Act.Trimmable True)) ((source'.shelf id).map .ofDocument)
        ((source.shelf id).map .ofDocument) := by
  have hid (b : Prop) (n n' : Node) (hn : Act.Trimmable b n n') : n'.id = n.id := hn.id
  have hshelf := h.shelf id
  generalize source.shelf id = a at hshelf ⊢
  generalize source'.shelf id = a' at hshelf ⊢
  cases hshelf with
  | lost fault => exact ⟨.lost fault, .lost fault⟩
  | found hd =>
    refine ⟨.found (.ofDocument hd.title ?_ (hid _)), .found (.ofDocument hd.title.symm ?_ (hid _))⟩
    · exact hd.nodes.imp fun _ _ hn => ⟨hn.plain, .inr hn.hasSuccessor⟩
    · exact hd.nodes.flip.imp fun _ _ hn => ⟨hn.plain.symm, .inl trivial⟩

/-- A story is the same in a source and in the one that is left when things that nobody knows
are taken out of its scripts (`Source.Trimmed`). Whatever is asked of an engine of any
configuration, and whatever it draws: if all of it comes to an end with one of the two
sources, then it comes to the same with the other, with draws that suit and, where no pause
varies, with any. The only other end is that of a pause whose limits are crossed, which is
made in the source that was not trimmed. -/
theorem tells_same_trimmed (w : World) {source source' : Source} (h : source.Trimmed source')
    (requests : List Request) (draws : Nat → Float) :
    ((w.given source draws).Completes requests → ∃ aligned, ∀ draws',
      w.engine.config.pacing.Unvaried ∨ draws' = aligned →
        SameTale ((w.given source draws).dealings (Request.patiently requests))
          ((w.given source' draws').dealings (Request.patiently requests))) ∧
    ((w.given source' draws).Completes requests → ∃ aligned, ∀ draws',
      w.engine.config.pacing.Unvaried ∨ draws' = aligned →
        SameTale ((w.given source draws').dealings (Request.patiently requests))
            ((w.given source' draws).dealings (Request.patiently requests)) ∨
          w.engine.config.pacing.autoRead.max < w.engine.config.pacing.autoRead.min ∧
            .error .crossedLimits ∈
              ((w.given source draws').dealings (Request.patiently requests)).1) := by
  refine ⟨fun hc => ?_, fun hc => ?_⟩
  · -- a trimmed script has no pause of its own, so nothing can be crossed in it alone
    have hforth := w.shadows_given draws draws fun id => (along_of_trimmed h id).1
    obtain ⟨aligned, hd⟩ := hforth.dealings hc
    exact ⟨aligned, fun d hd' => (hd d hd').resolve_right fun hcrossed => hcrossed.1⟩
  · have hback := w.shadows_given draws draws fun id => (along_of_trimmed h id).2
    obtain ⟨aligned, hd⟩ := hback.dealings hc
    exact ⟨aligned, fun d hd' => (hd d hd').imp SameTale.symm fun hcrossed => hcrossed.2⟩

/-! ### A riddle -/

open Json in
/-- The text of a script of one node. -/
def riddle (kind : String) (actions conditions : List Json) : Json :=
  record [("nodes", .array [record [("id", str "start"), ("type", str kind), ("sender", str "Ana"),
    ("content", str "Hm"), ("actions", .array actions), ("conditions", .array conditions)]])]

open Json in
/-- An action that nobody knows. -/
def sing : Json := record [("type", str "sing")]

open Json in
/-- A condition that nobody can check. -/
def resembles : Json :=
  record [("variable", str "mood"), ("operator", str "~"), ("value", str "good"),
    ("nextId", str "away")]

/-- A source with one script for everything. -/
def telling (j : Json) : Source := fun _ => .ok (.text j.render)

theorem shelf_telling {j : Json} (hj : j.Written) {d : Document}
    (hd : Document.ofJson? j = some d) : (telling j).shelf = fun _ => .ok d := by
  funext id
  change Document.load id j.render = _
  unfold Document.load Document.parse?
  rw [Json.parse?_render hj, Option.bind_some, hd]

theorem written_riddle : (riddle "riddle" [sing] [resembles]).Written ∧
    (riddle "message" [sing] [resembles]).Written ∧ (riddle "message" [] [resembles]).Written ∧
    (riddle "message" [] []).Written := by
  simp [riddle, sing, resembles, Json.record, Json.str, Json.Written, Json.Written.writtenItems,
    Json.Written.writtenFields]

/-- The script loses its kind, its action and its condition, one after the other. -/
theorem trimmed_riddle :
    (telling (riddle "riddle" [sing] [resembles])).Trimmed (telling (riddle "message" [] [])) := by
  obtain ⟨h₀, h₁, h₂, h₃⟩ := written_riddle
  have hstep {j j' : Json} (hj : j.Written) (hj' : j'.Written) (h : Document.TrimsText j j') :
      Registered.Trims (.text j.render) (.text j'.render) :=
    .text (Json.parse?_render hj) (Json.parse?_render hj') h
  have hnode {n n' : Json} (h : Node.TrimsText 2 n n') : Document.TrimsText
      (.record [("nodes", .array [n])]) (.record [("nodes", .array [n'])]) :=
    @Json.Swap.object _ _ _ [] [] _ _ (@Json.Change.item _ [] [] _ _ h)
  have hkind := hstep h₀ h₁ <| hnode <| .kind <|
    @Json.Swap.object _ _ _ [(some "id", .str "start")] _ _ _ ⟨⟨"riddle", rfl, .inr rfl⟩, rfl⟩
  have haction := hstep h₁ h₂ <| hnode <| .action <|
    @Json.Swap.object _ _ _ [(some "id", .str "start"), (some "type", .str "message"),
      (some "sender", .str "Ana"), (some "content", .str "Hm")] _ _ _
      (@Json.Drop.item _ [] [] sing rfl)
  have hcondition := hstep h₂ h₃ <| hnode <| .condition <|
    @Json.Swap.object _ _ _ [(some "id", .str "start"), (some "type", .str "message"),
      (some "sender", .str "Ana"), (some "content", .str "Hm"), (some "actions", .array [])] _ _ _
      (@Json.Drop.item _ [] [] resembles ⟨⟨"mood", .unknown, .text "good", "away"⟩, rfl, rfl⟩)
  exact fun _ => .found (((Relation.ReflTransGen.single hkind).tail haction).tail hcondition)

/-- The riddle is told as a plain message. Only its author makes the player wait behind it. -/
theorem tells_same_trimmed_riddle :
    let requests := [Request.play (.startChapter 1 1)]
    let authored := unhurried.given (telling (riddle "riddle" [sing] [resembles])) fun _ => 0.5
    let trimmed := unhurried.given (telling (riddle "message" [] [])) fun _ => 0.25
    (telling (riddle "riddle" [sing] [resembles])).Trimmed (telling (riddle "message" [] [])) ∧
      authored.Completes requests ∧ trimmed.Completes requests ∧
      SameTale (authored.dealings (Request.patiently requests))
        (trimmed.dealings (Request.patiently requests)) ∧
      (authored.dealings (Request.patiently requests)).2.clock = 3000 ∧
      (trimmed.dealings (Request.patiently requests)).2.clock = 1500 ∧
      (trimmed.dealings (Request.patiently requests)).2.place = 1 := by
  intro requests authored trimmed
  -- both texts are read first, so that what is played below is a document
  have hplain : (telling (riddle "message" [] [])).shelf =
      fun _ => .ok ⟨none, [.message "start" (.npc "Ana") "Hm"]⟩ :=
    shelf_telling written_riddle.2.2.2 (by decide +kernel)
  have hriddle : (telling (riddle "riddle" [sing] [resembles])).shelf =
      fun _ => .ok ⟨none, [{ Node.message "start" (.npc "Ana") "Hm" with
        kind := .other
        actions := [.unknown]
        conditions := [⟨"mood", .unknown, .text "good", "away"⟩] }]⟩ :=
    shelf_telling written_riddle.1 (by decide +kernel)
  have hauthored : authored.Completes requests ∧
      (authored.dealings (Request.patiently requests)).2.clock = 3000 := by
    unfold Completes authored World.given
    rw [hriddle]
    exact ⟨by decide +kernel, by decide +kernel⟩
  have htrimmed : trimmed.Completes requests ∧
      (trimmed.dealings (Request.patiently requests)).2.clock = 1500 ∧
      (trimmed.dealings (Request.patiently requests)).2.place = 1 := by
    unfold Completes trimmed World.given
    rw [hplain]
    exact ⟨by decide +kernel, by decide +kernel, by decide +kernel⟩
  obtain ⟨aligned, hsame⟩ :=
    (unhurried.tells_same_trimmed trimmed_riddle requests fun _ => 0.5).1 hauthored.1
  exact ⟨trimmed_riddle, hauthored.1, htrimmed.1, hsame _ (.inl Pacing.standard.unvaried_even),
    hauthored.2, htrimmed.2.1, htrimmed.2.2⟩

end World

end StoryChat
