import VBed.Proofs.StrictLayers

/-!
The strict work of the machine: stitches are recorded on loops that the graph has, and positions
are put on record that the record has. The work keeps the configuration and the gauge.
-/

namespace VBed

namespace Strict

open Machine (ConfiguredAt ask)

def connect (graph : StitchGraph) (parent child : LoopId) (pull : Pull) :
    Option (Except Fault StitchGraph) :=
  match (do graph.check parent; graph.check child) with
  | .error fault => some (.error fault)
  | .ok () => do
      let stitch : Stitch := ⟨parent, child, pull⟩
      let withChild ← change graph.loops parent.index fun loop =>
        { loop with children := loop.children ++ [stitch] }
      let loops ← change withChild child.index fun loop =>
        { loop with parents := loop.parents ++ [stitch] }
      return .ok { graph with loops := loops }

def pullThrough (child : LoopId) (pull : Pull) : List LoopId → Strict (Bed × StitchGraph) Unit
  | [] => return
  | parent :: rest => do
      let (bed, graph) ← lift get
      match ← site (connect graph parent child pull) with
      | .ok next => lift (set (bed, next))
      | .error fault => lift (throw fault)
      pullThrough child pull rest

def growLoops (parents : List LoopId) (pull : Pull) :
    List Yarn → Strict (Bed × StitchGraph) (List LoopId)
  | [] => return []
  | yarn :: rest => do
      let (bed, graph) ← lift get
      let (child, next) := graph.newLoop yarn
      lift (set (bed, next))
      pullThrough child pull parents
      return child :: (← growLoops parents pull rest)

def addLoops (needle : Needle) (source : LoopSource) (dropPrior : Bool) :
    Strict (Bed × StitchGraph) (List LoopId) := do
  let (bed, graph) ← lift get
  match bed.loopsAt needle with
  | .error fault => lift (throw fault)
  | .ok prior =>
      if dropPrior then lift (set (bed.put needle [], graph))
      let added ← match source with
        | .made yarns => growLoops (if dropPrior then prior else []) bed.pull yarns
        | .moved loops => pure loops
      lift (modify fun (bed, graph) => (bed.append needle added, graph))
      return added

def onBed {α : Type} (side : Side) (strict : Strict (Bed × StitchGraph) α) : Strict Machine α :=
  fun machine => (strict (machine.bed side, machine.graph)).map fun
    | .ok answer (bed, graph) => .ok answer (machine.equipped side bed graph)
    | .error fault (bed, graph) => .error fault (machine.equipped side bed graph)

def recordPosition (position : Nat) : Strict Machine Unit := do
  let presence ← lift (ask (·.presenceAt position))
  let machine ← lift get
  let record ← site (write machine.record position presence)
  lift (set { machine with record := record })

def makeLoops (needle : Needle) (carriers : CarrierSet) (dropPrior : Bool) :
    Strict Machine (List LoopId) := do
  let yarns ← lift (Machine.onCarriers (·.makeLoop carriers))
  onBed needle.side (addLoops needle (.made yarns) dropPrior)

def moveLoops (start target : Needle) : Strict Machine (List LoopId) := do
  let loops ← lift (Machine.takeLoops start)
  if !loops.isEmpty then
    let _ ← onBed target.side (addLoops target (.moved loops) false)
  return loops

def knit (needle : Needle) (carriers : CarrierSet) : Strict Machine (List LoopId) := do
  lift (ask (·.checkMaking .knit needle carriers))
  let loops ← makeLoops needle carriers true
  recordPosition needle.position
  return loops

def tuck (needle : Needle) (carriers : CarrierSet) : Strict Machine (List LoopId) := do
  lift (ask (·.checkMaking .tuck needle carriers))
  let loops ← makeLoops needle carriers false
  recordPosition needle.position
  return loops

def drop (needle : Needle) : Strict Machine (List LoopId) := do
  lift (ask (·.checkWork .drop needle))
  let loops ← lift (Machine.takeLoops needle)
  recordPosition needle.position
  return loops

def shift (start target : Needle) : Strict Machine (List LoopId) := do
  lift (ask (·.checkTransfer start target))
  moveLoops start target

def xfer (start target : Needle) : Strict Machine (List LoopId) := do
  let loops ← shift start target
  recordPosition start.position
  recordPosition target.position
  return loops

def split (start target : Needle) (carriers : CarrierSet) : Strict Machine (List LoopId) := do
  lift (ask (·.checkSplit start target carriers))
  let _ ← moveLoops start target
  let loops ← makeLoops start carriers true
  recordPosition start.position
  recordPosition target.position
  return loops

theorem connect_eq (graph : StitchGraph) (parent child : LoopId) (pull : Pull) :
    connect graph parent child pull = some (graph.connect parent child pull) := by
  rw [connect, StitchGraph.connect]
  by_cases parentKnown : graph.contains parent
  · by_cases childKnown : graph.contains child
    · have parentInRange : parent.index < graph.loops.size :=
        StitchGraph.contains_iff.mp parentKnown
      have childInRange : child.index < (graph.loops.modify parent.index fun loop =>
          { loop with children := loop.children ++ [⟨parent, child, pull⟩] }).size := by
        rw [Array.size_modify]
        exact StitchGraph.contains_iff.mp childKnown
      simp only [StitchGraph.check, parentKnown, childKnown, if_true, change_of_lt parentInRange,
        Option.bind_some, bind, Except.bind]
      rw [change_of_lt childInRange]
      rfl
    · simp only [StitchGraph.check, parentKnown, childKnown, if_true]
      rfl
  · simp only [StitchGraph.check, parentKnown]
    rfl

theorem agrees_pullThrough (bed : Bed) (child : LoopId) (pull : Pull) (parents : List LoopId)
    (graph : StitchGraph) :
    Agrees (·.1 = bed) (pullThrough child pull parents) (Bed.pullThrough child pull parents)
      (bed, graph) := by
  induction parents generalizing graph with
  | nil => exact ⟨rfl, rfl⟩
  | cons parent rest ih =>
      refine agrees_get (agrees_get_bind (agrees_site_bind (connect_eq graph parent child pull) ?_))
      cases connected : graph.connect parent child pull with
      | error fault => exact ⟨by simp only [connected]; rfl, by simp only [connected]; rfl⟩
      | ok next =>
          simp only [connected]
          exact agrees_set_bind (ih next)

theorem agrees_growLoops (bed : Bed) (parents : List LoopId) (pull : Pull) (yarns : List Yarn)
    (graph : StitchGraph) :
    Agrees (·.1 = bed) (growLoops parents pull yarns) (Bed.makeLoops parents pull yarns)
      (bed, graph) := by
  induction yarns generalizing graph with
  | nil => exact ⟨rfl, rfl⟩
  | cons yarn rest ih =>
      refine agrees_get (agrees_get_bind (agrees_set_bind ?_))
      refine (agrees_pullThrough bed _ pull parents _).bind ?_
      rintro _ ⟨_, pulled⟩ _ rfl
      exact (ih pulled).bind fun _ _ _ same => ⟨rfl, same⟩

theorem agrees_addLoops (bed : Bed) (graph : StitchGraph) (needle : Needle) (source : LoopSource)
    (dropPrior : Bool) :
    Agrees (bed.SameShape ·.1) (addLoops needle source dropPrior)
      (Bed.addLoops needle source dropPrior) (bed, graph) := by
  have grown : ∀ parents yarns (taken : Bed), bed.SameShape taken →
      Agrees (bed.SameShape ·.1) (growLoops parents bed.pull yarns)
        (Bed.makeLoops parents bed.pull yarns) (taken, graph) :=
    fun parents yarns taken fits =>
      (agrees_growLoops taken parents bed.pull yarns graph).weaken fun _ same => same ▸ fits
  refine agrees_get (agrees_get_bind ?_)
  cases found : bed.loopsAt needle with
  | error fault => exact ⟨by simp only [found]; rfl, by simp only [found]; exact .refl bed⟩
  | ok prior =>
      simp only [found]
      have emptied := bed.sameShape_put needle []
      cases source with
      | moved loops =>
          cases dropPrior with
          | false => exact ⟨rfl, bed.sameShape_put needle _⟩
          | true => exact ⟨rfl, emptied.trans (Bed.sameShape_put _ needle _)⟩
      | made yarns =>
          cases dropPrior with
          | false =>
              exact (grown [] yarns bed (.refl bed)).bind fun _ next _ kept =>
                ⟨rfl, kept.trans (next.1.sameShape_put needle _)⟩
          | true =>
              exact agrees_set_bind ((grown prior yarns _ emptied).bind fun _ next _ kept =>
                ⟨rfl, kept.trans (next.1.sameShape_put needle _)⟩)

variable {gauge : Nat} {machine : Machine}

theorem agrees_onBed {α : Type} (configured : ConfiguredAt gauge machine) {side : Side}
    {strict : Strict (Bed × StitchGraph) α} {action : Bed.Action α}
    (agrees : Agrees ((machine.bed side).SameShape ·.1) strict action
      (machine.bed side, machine.graph)) :
    Agrees (ConfiguredAt gauge) (onBed side strict) (Machine.onBed side action) machine := by
  obtain ⟨runs, keeps⟩ := agrees
  cases ran : action (machine.bed side, machine.graph) with
  | ok answer state =>
      rw [ran] at runs keeps
      refine ⟨?_, ?_⟩
      · rw [Machine.onBed_ok ran, onBed, runs]
        rfl
      · rw [Machine.onBed_ok ran]
        exact configured.equipped keeps state.2
  | error fault state =>
      have failed : Machine.onBed side action machine =
          .error fault (machine.equipped side state.1 state.2) := by
        simp only [Machine.onBed, ran, Machine.equipped_equipped]
      rw [ran] at runs keeps
      refine ⟨?_, ?_⟩
      · rw [failed, onBed, runs]
        rfl
      · rw [failed]
        exact configured.equipped keeps state.2

theorem agrees_recordPosition (configured : ConfiguredAt gauge machine) (position : Nat) :
    Agrees (ConfiguredAt gauge) (recordPosition position) (Machine.recordPosition position)
      machine := by
  refine (agrees_ask (·.presenceAt position) configured).ask_bind fun presence found => ?_
  have inRange : position < machine.record.size := by
    simp only [Machine.presenceAt, then_eq_ok] at found
    rw [configured.record]
    exact (Machine.checkNeedle_eq_ok configured.toShaped).mp found.1
  refine agrees_get_bind (agrees_site_bind (write_of_lt inRange presence) ⟨rfl, ?_⟩)
  exact configured.withPresence position presence

theorem agrees_takeLoops (configured : ConfiguredAt gauge machine) (needle : Needle) :
    Agrees (ConfiguredAt gauge) (lift (Machine.takeLoops needle)) (Machine.takeLoops needle)
      machine := by
  refine ⟨rfl, (agrees_onBed configured (agrees_lift ?_)).keeps⟩
  cases found : (machine.bed needle.side).loopsAt needle with
  | error fault =>
      simp only [Bed.drop, found]
      exact .refl _
  | ok loops =>
      simp only [Bed.drop, found]
      exact Bed.sameShape_put _ needle []

theorem agrees_onCarriers {α : Type} (configured : ConfiguredAt gauge machine)
    (operation : CarrierSystem → Except Fault (α × CarrierSystem)) :
    Agrees (ConfiguredAt gauge) (lift (Machine.onCarriers operation))
      (Machine.onCarriers operation) machine := by
  refine agrees_lift ?_
  cases ran : operation machine.carriers with
  | error fault =>
      simp only [Machine.onCarriers, ran]
      exact configured
  | ok moved =>
      simp only [Machine.onCarriers, ran]
      exact configured.withCarriers moved.2

theorem agrees_makeLoops (configured : ConfiguredAt gauge machine) (needle : Needle)
    (carriers : CarrierSet) (dropPrior : Bool) :
    Agrees (ConfiguredAt gauge) (makeLoops needle carriers dropPrior)
      (Machine.makeLoops needle carriers dropPrior) machine :=
  (agrees_onCarriers configured (·.makeLoop carriers)).bind fun _ _ _ kept =>
    agrees_onBed kept (agrees_addLoops _ _ _ _ _)

theorem agrees_moveLoops (configured : ConfiguredAt gauge machine) (start target : Needle) :
    Agrees (ConfiguredAt gauge) (moveLoops start target) (Machine.moveLoops start target)
      machine := by
  refine (agrees_takeLoops configured start).bind fun loops taken _ kept => ?_
  cases loops with
  | nil => exact agrees_pure kept []
  | cons loop rest =>
      exact (agrees_onBed kept (agrees_addLoops _ _ target (.moved (loop :: rest)) false)).bind
        fun _ _ _ last => agrees_pure last _

theorem agrees_knit (configured : ConfiguredAt gauge machine) (needle : Needle)
    (carriers : CarrierSet) :
    Agrees (ConfiguredAt gauge) (knit needle carriers) (Machine.knit needle carriers) machine :=
  (agrees_ask (·.checkMaking .knit needle carriers) configured).ask_bind fun _ _ =>
    (agrees_makeLoops configured needle carriers true).bind fun _ _ _ made =>
      (agrees_recordPosition made needle.position).bind fun _ _ _ last => agrees_pure last _

theorem agrees_tuck (configured : ConfiguredAt gauge machine) (needle : Needle)
    (carriers : CarrierSet) :
    Agrees (ConfiguredAt gauge) (tuck needle carriers) (Machine.tuck needle carriers) machine :=
  (agrees_ask (·.checkMaking .tuck needle carriers) configured).ask_bind fun _ _ =>
    (agrees_makeLoops configured needle carriers false).bind fun _ _ _ made =>
      (agrees_recordPosition made needle.position).bind fun _ _ _ last => agrees_pure last _

theorem agrees_drop (configured : ConfiguredAt gauge machine) (needle : Needle) :
    Agrees (ConfiguredAt gauge) (drop needle) (Machine.drop needle) machine :=
  (agrees_ask (·.checkWork .drop needle) configured).ask_bind fun _ _ =>
    (agrees_takeLoops configured needle).bind fun _ _ _ taken =>
      (agrees_recordPosition taken needle.position).bind fun _ _ _ last => agrees_pure last _

theorem agrees_shift (configured : ConfiguredAt gauge machine) (start target : Needle) :
    Agrees (ConfiguredAt gauge) (shift start target) (Machine.shift start target) machine :=
  (agrees_ask (·.checkTransfer start target) configured).ask_bind fun _ _ =>
    agrees_moveLoops configured start target

theorem agrees_xfer (configured : ConfiguredAt gauge machine) (start target : Needle) :
    Agrees (ConfiguredAt gauge) (xfer start target) (Machine.xfer start target) machine :=
  (agrees_shift configured start target).bind fun _ _ _ shifted =>
    (agrees_recordPosition shifted start.position).bind fun _ _ _ first =>
      (agrees_recordPosition first target.position).bind fun _ _ _ last => agrees_pure last _

theorem agrees_split (configured : ConfiguredAt gauge machine) (start target : Needle)
    (carriers : CarrierSet) :
    Agrees (ConfiguredAt gauge) (split start target carriers) (Machine.split start target carriers)
      machine :=
  (agrees_ask (·.checkSplit start target carriers) configured).ask_bind fun _ _ =>
    (agrees_moveLoops configured start target).bind fun _ _ _ moved =>
      (agrees_makeLoops moved start carriers true).bind fun _ _ _ made =>
        (agrees_recordPosition made start.position).bind fun _ _ _ first =>
          (agrees_recordPosition first target.position).bind fun _ _ _ last => agrees_pure last _

theorem agrees_setRacking (configured : ConfiguredAt gauge machine) (racking : Binary64) :
    Agrees (ConfiguredAt gauge) (lift (Machine.setRacking racking)) (Machine.setRacking racking)
      machine := by
  refine agrees_lift ?_
  cases checked : machine.checkRacking racking with
  | error fault =>
      rw [Machine.setRacking, run_bind_error (Machine.ask_error checked)]
      exact configured
  | ok passed =>
      rw [Machine.setRacking_done checked]
      exact configured.withRacking checked

end Strict

end VBed
