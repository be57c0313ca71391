import VBed.Document.Graph
import VBed.Proofs.ProgramText
import VBed.Proofs.Threads

/-!
Stitch graphs as text. Every loop of a graph is written as JSON that is read back as the loop, with
its stitches in order. The graph itself is written only while no loop has been made: its yarns would
have to be keys of an object, and a key is a text.
-/

namespace VBed

namespace Json

variable {α : Type} {depth : Nat}

theorem Gives.record {fields : List (String × Json)} {read? : Json → Option α} {value : α}
    (each : ∀ field ∈ fields, field.2.Plain ∧ field.2.isProper depth = true)
    (reads : read? (Json.record fields) = some value) :
    Gives (depth + 1) read? (Json.record fields) value :=
  ⟨plain_record fun field member => (each field member).1,
    isProper_record fun field member => (each field member).2, reads⟩

theorem Gives.readText {read? : Json → Option α} {json : Json} {value : α}
    (gives : Gives depth read? json value) : Json.readText read? json.render = .ok value := by
  rw [Json.readText, gives.plain.ofText?_render, Option.bind_some, gives.reads]

theorem mapM_member?_eq_none {entries : List (Json × Json)} :
    entries.mapM member? = none ↔ ∃ entry ∈ entries, key? entry.1 = none := by
  induction entries with
  | nil => simp
  | cons entry rest ih =>
      simp only [List.mem_cons, exists_eq_or_imp, ← ih, List.mapM_cons]
      cases found : key? entry.1 with
      | none => simp [member?, found]
      | some key => cases others : rest.mapM member? <;> simp [member?, found]

/-- A map is refused when one of its keys is none, and for no other reason. -/
theorem ofEntries_eq_error {entries : List (Json × Json)} {fault : Fault} :
    ofEntries entries = .error fault ↔
      .malformedDocument = fault ∧ ∃ entry ∈ entries, key? entry.1 = none := by
  rw [ofEntries, ← mapM_member?_eq_none]
  cases entries.mapM member? <;> simp

end Json

open Json (Gives fields?_record)

structure Yarn.Fits (yarn : Yarn) : Prop where
  carrier : yarn.carrier.number < Text.wordCount
  segment : yarn.segment < Yarn.segmentCount

theorem Yarn.Fits.gives {yarn : Yarn} (fits : yarn.Fits) (depth : Nat) :
    Gives (depth + 1) ofJson? yarn.toJson yarn := by
  have word : yarn.segment < Text.wordCount :=
    Nat.lt_trans fits.segment (by decide : Yarn.segmentCount < Text.wordCount)
  have carrier := Json.gives_carrier depth fits.carrier
  have segment := Json.gives_natural depth fits.segment word
  refine Gives.record ?_ ?_
  · simp only [List.forall_mem_cons]
    exact ⟨⟨carrier.plain, carrier.proper⟩, ⟨segment.plain, segment.proper⟩, List.forall_mem_nil _⟩
  · have fields : yarn.toJson.fields? ["carrier", "segment"] = some ⟨true, _⟩ :=
      fields?_record rfl (by simp)
    have reads : Json.word32? (.int yarn.segment) = some yarn.segment := segment.reads
    change ofJson? yarn.toJson = some yarn
    simp [ofJson?, fields, Json.Fields.required?, List.lookup_cons, carrier.reads, reads]

theorem LoopId.gives {id : LoopId} (word : id.index < Text.wordCount) (depth : Nat) :
    Gives depth ofJson? id.toJson id where
  plain := (Json.gives_word depth word).plain
  proper := (Json.gives_word depth word).proper
  reads := by
    rw [ofJson?, toJson, (Json.gives_word depth word).reads]
    rfl

theorem LoopId.gives_prior {prior : Option LoopId}
    (words : ∀ id, prior = some id → id.index < Text.wordCount) (depth : Nat) :
    Gives depth (Json.nullable? ofJson?) (.orNull toJson prior) prior := by
  cases prior with
  | none => exact ⟨.null, rfl, rfl⟩
  | some id =>
      have gives := id.gives (words id rfl) depth
      exact ⟨gives.plain, gives.proper, congrArg (Option.map some) gives.reads⟩

theorem Pull.gives (pull : Pull) (depth : Nat) : Gives depth ofJson? pull.toJson pull := by
  cases pull <;> exact ⟨.text _, rfl, rfl⟩

structure Stitch.Below (limit : Nat) (stitch : Stitch) : Prop where
  parent : stitch.parent.index < limit
  child : stitch.child.index < limit

theorem Stitch.Below.gives {stitch : Stitch} (below : stitch.Below Text.wordCount) (depth : Nat) :
    Gives (depth + 1) ofJson? stitch.toJson stitch := by
  have parent := stitch.parent.gives below.parent depth
  have child := stitch.child.gives below.child depth
  have pull := stitch.pull.gives depth
  refine Gives.record ?_ ?_
  · simp only [List.forall_mem_cons]
    exact ⟨⟨parent.plain, parent.proper⟩, ⟨child.plain, child.proper⟩, ⟨pull.plain, pull.proper⟩,
      List.forall_mem_nil _⟩
  · have fields : stitch.toJson.fields? ["parent", "child", "pull_direction"] = some ⟨true, _⟩ :=
      fields?_record rfl (by simp)
    change ofJson? stitch.toJson = some stitch
    simp [ofJson?, fields, Json.Fields.required?, List.lookup_cons, parent.reads, child.reads,
      pull.reads]

structure Loop.Below (limit : Nat) (loop : Loop) : Prop where
  id : loop.id.index < limit
  yarn : loop.yarn.Fits
  prior : ∀ id, loop.prior = some id → id.index < limit
  parents : ∀ stitch ∈ loop.parents, stitch.Below limit
  children : ∀ stitch ∈ loop.children, stitch.Below limit

theorem Loop.Below.gives {loop : Loop} (below : loop.Below Text.wordCount) (depth : Nat) :
    Gives (depth + 3) ofJson? loop.toJson loop := by
  have id := loop.id.gives below.id (depth + 2)
  have yarn := below.yarn.gives (depth + 1)
  have prior := LoopId.gives_prior below.prior (depth + 2)
  have parents := Json.gives_list (depth + 1)
    fun stitch member => (below.parents stitch member).gives depth
  have children := Json.gives_list (depth + 1)
    fun stitch member => (below.children stitch member).gives depth
  refine Gives.record ?_ ?_
  · simp only [List.forall_mem_cons]
    exact ⟨⟨id.plain, id.proper⟩, ⟨yarn.plain, yarn.proper⟩, ⟨prior.plain, prior.proper⟩,
      ⟨parents.plain, parents.proper⟩, ⟨children.plain, children.proper⟩, List.forall_mem_nil _⟩
  · have fields : loop.toJson.fields? ["id", "yarn", "prior_on_yarn", "parents", "children"] =
        some ⟨true, _⟩ := fields?_record rfl (by simp)
    change ofJson? loop.toJson = some loop
    simp [ofJson?, fields, Json.Fields.required?, Json.Fields.optional?, List.lookup_cons, id.reads,
      yarn.reads, prior.reads, parents.reads, children.reads]

theorem Stitch.Below.mono {stitch : Stitch} {limit bound : Nat} (below : stitch.Below limit)
    (wider : limit ≤ bound) : stitch.Below bound :=
  ⟨Nat.lt_of_lt_of_le below.parent wider, Nat.lt_of_lt_of_le below.child wider⟩

theorem Loop.Below.mono {loop : Loop} {limit bound : Nat} (below : loop.Below limit)
    (wider : limit ≤ bound) : loop.Below bound where
  id := Nat.lt_of_lt_of_le below.id wider
  yarn := below.yarn
  prior id before := Nat.lt_of_lt_of_le (below.prior id before) wider
  parents stitch member := (below.parents stitch member).mono wider
  children stitch member := (below.children stitch member).mono wider

namespace StitchGraph

variable {graph next : StitchGraph}

inductive Built : StitchGraph → Prop
  | empty : Built .empty
  | newLoop {graph : StitchGraph} {yarn : Yarn} (before : Built graph) (fits : yarn.Fits) :
      Built (graph.newLoop yarn).2
  | connect {graph next : StitchGraph} {parent child : LoopId} {pull : Pull}
      (before : Built graph) (connected : graph.connect parent child pull = .ok next) : Built next

theorem connect_eq_ok {parent child : LoopId} {pull : Pull} :
    graph.connect parent child pull = .ok next ↔
      parent.index < graph.loopCount ∧ child.index < graph.loopCount ∧
        graph.addStitch ⟨parent, child, pull⟩ = next := by
  have check : ∀ id, graph.check id = .ok () ↔ id.index < graph.loopCount := by
    intro id
    rw [StitchGraph.check, ← contains_iff]
    split <;> simp_all
  simp only [connect, then_eq_ok, check, pure_eq_ok]

theorem Threaded.addStitch (threaded : graph.Threaded) (stitch : Stitch) :
    (graph.addStitch stitch).Threaded := by
  have strands : ∀ id, (graph.addStitch stitch).strand? id = graph.strand? id := by
    intro id
    rw [strand?, loop?_addStitch, Option.map_map]
    rfl
  refine ⟨threaded.ordered, threaded.increasing, fun id yarn prior found => ?_,
    fun yarn position id found => ?_⟩
  · rw [strands] at found
    exact threaded.listed id yarn prior found
  · rw [strands]
    exact threaded.prior yarn position id found

structure Numbered (graph : StitchGraph) : Prop where
  threaded : graph.Threaded
  named : graph.yarns = [] ↔ graph.loopCount = 0
  id : ∀ id loop, graph.loop? id = some loop → loop.id = id
  yarn : ∀ id loop, graph.loop? id = some loop → loop.yarn.Fits
  stitches : ∀ id loop, graph.loop? id = some loop →
    ∀ stitch ∈ loop.parents ++ loop.children, stitch.Below graph.loopCount

theorem appendToYarn_ne_nil (yarn : Yarn) (id : LoopId) (entries : List (Yarn × Array LoopId)) :
    appendToYarn yarn id entries ≠ [] := by
  cases entries with
  | nil => exact List.cons_ne_nil _ _
  | cons entry rest =>
      rw [appendToYarn]
      split
      · exact List.cons_ne_nil _ _
      · split <;> exact List.cons_ne_nil _ _

theorem Numbered.newLoop (numbered : graph.Numbered) {yarn : Yarn} (fits : yarn.Fits) :
    (graph.newLoop yarn).2.Numbered := by
  refine ⟨numbered.threaded.added [] .frontToBack yarn, ?_, ?_, ?_, ?_⟩
  · rw [loopCount_newLoop]
    simp [StitchGraph.newLoop, appendToYarn_ne_nil]
  · intro id loop found
    rw [loop?_newLoop] at found
    split at found
    · rename_i new
      cases found
      exact new.symm
    · exact numbered.id id loop found
  · intro id loop found
    rw [loop?_newLoop] at found
    split at found
    · cases found
      exact fits
    · exact numbered.yarn id loop found
  · intro id loop found stitch member
    rw [loop?_newLoop] at found
    split at found
    · cases found
      cases member
    · rw [loopCount_newLoop]
      exact (numbered.stitches id loop found stitch member).mono (Nat.le_succ _)

theorem Numbered.addStitch (numbered : graph.Numbered) {stitch : Stitch}
    (below : stitch.Below graph.loopCount) : (graph.addStitch stitch).Numbered := by
  -- Every loop comes from one that had the same yarn, and at most the new stitch was added to it.
  have origin : ∀ id loop, (graph.addStitch stitch).loop? id = some loop →
      ∃ old, graph.loop? id = some old ∧ loop.id = old.id ∧ loop.yarn = old.yarn ∧
        ∀ other ∈ loop.parents ++ loop.children,
          other = stitch ∨ other ∈ old.parents ++ old.children := by
    intro id loop found
    rw [loop?_addStitch, Option.map_eq_some_iff] at found
    obtain ⟨old, here, rfl⟩ := found
    refine ⟨old, here, rfl, rfl, fun other member => ?_⟩
    simp only [List.mem_append] at member ⊢
    rcases member with parents | children
    · split at parents
      · exact (List.mem_append.mp parents).elim (.inr ∘ .inl) (.inl ∘ List.mem_singleton.mp)
      · exact .inr (.inl parents)
    · split at children
      · exact (List.mem_append.mp children).elim (.inr ∘ .inr) (.inl ∘ List.mem_singleton.mp)
      · exact .inr (.inr children)
  refine ⟨numbered.threaded.addStitch stitch, ?_, ?_, ?_, ?_⟩
  · rw [loopCount_addStitch]
    exact numbered.named
  · intro id loop found
    obtain ⟨old, here, sameId, _⟩ := origin id loop found
    rw [sameId, numbered.id id old here]
  · intro id loop found
    obtain ⟨old, here, _, sameYarn, _⟩ := origin id loop found
    rw [sameYarn]
    exact numbered.yarn id old here
  · intro id loop found other member
    rw [loopCount_addStitch]
    obtain ⟨old, here, _, _, stitches⟩ := origin id loop found
    rcases stitches other member with rfl | kept
    · exact below
    · exact numbered.stitches id old here other kept

theorem Built.numbered (built : graph.Built) : graph.Numbered := by
  induction built with
  | empty => exact ⟨threaded_empty, ⟨fun _ => rfl, fun _ => rfl⟩, nofun, nofun, nofun⟩
  | newLoop _ fits ih => exact ih.newLoop fits
  | connect _ connected ih =>
      obtain ⟨parent, child, rfl⟩ := connect_eq_ok.mp connected
      exact ih.addStitch ⟨parent, child⟩

theorem Numbered.below (numbered : graph.Numbered) {loop : Loop}
    (member : loop ∈ graph.loops.toList) : loop.Below graph.loopCount := by
  obtain ⟨index, inRange, rfl⟩ := List.mem_iff_getElem.mp member
  have found : graph.loop? ⟨index⟩ = some graph.loops.toList[index] := by
    simp [loop?]
  have stitches := numbered.stitches ⟨index⟩ _ found
  have id := numbered.id ⟨index⟩ _ found
  refine ⟨?_, numbered.yarn ⟨index⟩ _ found, fun prior before => ?_,
    fun stitch member => stitches stitch (List.mem_append_left _ member),
    fun stitch member => stitches stitch (List.mem_append_right _ member)⟩
  · rw [id]
    exact inRange
  · have strand : graph.strand? ⟨index⟩ = some (graph.loops.toList[index].yarn, some prior) := by
      rw [strand?, found, Option.map_some, before]
    exact Nat.lt_trans (numbered.threaded.prior_before strand).1 inRange

theorem Built.eq_empty (built : graph.Built) (none : graph.loopCount = 0) : graph = .empty := by
  have yarns := built.numbered.named.mpr none
  have loops := Array.eq_empty_of_size_eq_zero none
  cases graph
  subst loops yarns
  rfl

theorem key?_yarn (yarn : Yarn) : Json.key? yarn.toJson = none := rfl

theorem toJson_eq_error {fault : Fault} :
    graph.toJson = .error fault ↔ .malformedDocument = fault ∧ graph.yarns ≠ [] := by
  simp only [toJson, bind_eq_error, Json.ofEntries_eq_error, pure_ne_error, and_false, exists_false,
    or_false]
  refine and_congr_right fun _ => ?_
  cases graph.yarns with
  | nil => simp
  | cons entry rest => simp [key?_yarn]

theorem readText_empty :
    ∃ json, empty.toJson = .ok json ∧ Json.readText ofJson? json.render = .ok empty :=
  ⟨_, rfl, by decide⟩

/-- A graph is written only before its first loop, and then it is read back. The loops of a graph
are always read back, each with its stitches in order. -/
theorem toJson_of_built (built : graph.Built) :
    (0 < graph.loopCount → graph.toJson = .error .malformedDocument) ∧
      (graph.loopCount = 0 →
        ∃ json, graph.toJson = .ok json ∧ Json.readText ofJson? json.render = .ok graph) ∧
      (graph.loopCount ≤ Text.wordCount →
        Json.readText (Json.list? Loop.ofJson?)
          (Json.array (graph.loops.toList.map Loop.toJson)).render = .ok graph.loops.toList) := by
  refine ⟨fun some => ?_, fun none => ?_, fun words => ?_⟩
  · exact toJson_eq_error.mpr ⟨rfl, mt built.numbered.named.mp (Nat.ne_of_gt some)⟩
  · rw [built.eq_empty none]
    exact readText_empty
  · have each : ∀ loop ∈ graph.loops.toList, Gives 3 Loop.ofJson? loop.toJson loop :=
      fun loop member => ((built.numbered.below member).mono words).gives 0
    exact (Json.gives_list 3 each).readText

theorem toJson_of_built_stitched :
    let yarn : Yarn := ⟨⟨1⟩, 0⟩
    let graph := ((empty.newLoop yarn).2.newLoop yarn).2.addStitch ⟨⟨0⟩, ⟨1⟩, .backToFront⟩
    graph.Built ∧ graph.toJson = .error .malformedDocument ∧
      Json.readText (Json.list? Loop.ofJson?)
        (Json.array (graph.loops.toList.map Loop.toJson)).render = .ok graph.loops.toList := by
  intro yarn graph
  have fits : yarn.Fits := ⟨by decide, by decide⟩
  have loops : Built ((empty.newLoop yarn).2.newLoop yarn).2 :=
    (Built.empty.newLoop fits).newLoop fits
  have built : graph.Built := loops.connect (connect_eq_ok.mpr ⟨by decide, by decide, rfl⟩)
  obtain ⟨refused, _, read⟩ := toJson_of_built built
  exact ⟨built, refused (by decide), read (by decide)⟩

/-- One loop is enough for a graph that has no text. -/
theorem not_written_of_newLoop :
    ¬∀ graph : StitchGraph, graph.Built →
      ∃ json, graph.toJson = .ok json ∧ Json.readText ofJson? json.render = .ok graph := by
  intro written
  have fits : Yarn.Fits ⟨⟨1⟩, 0⟩ := ⟨by decide, by decide⟩
  obtain ⟨json, found, _⟩ := written _ (Built.empty.newLoop fits)
  cases found

end StitchGraph

end VBed
