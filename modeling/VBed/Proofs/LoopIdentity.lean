import VBed.Proofs.Calls

/-!
The identity of loops. A reachable machine holds every loop at most once, and holds only loops that
its graph has made. A loop that has been made and is no longer held does not come back.
-/

namespace VBed

def Call.makesLoops : Call → Bool
  | apply (.knit _ _ _) => true
  | apply (.tuck _ _ _) => true
  | apply (.split _ _ _ _) => true
  | _ => false

def Call.removesLoops : Call → Bool
  | apply (.knit _ _ _) => true
  | apply (.drop _) => true
  | _ => false

namespace Machine

variable {machine next last : Machine}

def Holds (machine : Machine) (loop : LoopId) : Prop :=
  ∃ needle, loop ∈ machine.loops needle

structure Sound (machine : Machine) : Prop where
  shaped : machine.Shaped
  known : machine.Known
  once : ∀ needle, (machine.loops needle).Nodup
  single : ∀ first second loop,
    loop ∈ machine.loops first → loop ∈ machine.loops second → first = second

theorem Sound.bound (sound : machine.Sound) {loop : LoopId} (held : machine.Holds loop) :
    loop.index < machine.graph.loopCount := by
  obtain ⟨needle, member⟩ := held
  exact StitchGraph.contains_iff.mp (sound.known needle loop member)

structure Rearranged (machine next : Machine) : Prop where
  sound : next.Sound
  needleCount : next.needleCount = machine.needleCount
  graph : next.graph = machine.graph
  holds : ∀ loop, next.Holds loop ↔ machine.Holds loop

theorem Rearranged.refl (sound : machine.Sound) : machine.Rearranged machine :=
  ⟨sound, rfl, rfl, fun _ => Iff.rfl⟩

theorem Rearranged.trans (first : machine.Rearranged next) (second : next.Rearranged last) :
    machine.Rearranged last where
  sound := second.sound
  needleCount := by rw [second.needleCount, first.needleCount]
  graph := by rw [second.graph, first.graph]
  holds loop := (second.holds loop).trans (first.holds loop)

theorem Rearranged.of_sameLoops (sound : machine.Sound) (shaped : next.Shaped)
    (needleCount : next.needleCount = machine.needleCount) (graph : next.graph = machine.graph)
    (same : ∀ needle, next.loops needle = machine.loops needle) : machine.Rearranged next where
  sound := by
    refine ⟨shaped, ?_, ?_, ?_⟩
    · intro needle loop member
      rw [graph]
      exact sound.known needle loop (by rwa [same] at member)
    · intro needle
      rw [same]
      exact sound.once needle
    · intro first second loop inFirst inSecond
      rw [same] at inFirst inSecond
      exact sound.single first second loop inFirst inSecond
  needleCount := needleCount
  graph := graph
  holds loop := by simp only [Holds, same]

theorem Undisturbed.rearranged (same : machine.Undisturbed next) (sound : machine.Sound) :
    machine.Rearranged next :=
  .of_sameLoops sound (same.shaped sound.shaped) same.needleCount same.graph same.loops

theorem Sound.recorded (sound : machine.Sound) (position : Nat) :
    machine.Rearranged (machine.recorded position) :=
  .of_sameLoops sound (sound.shaped.recorded position) rfl rfl (loops_recorded position)

/-- Loops moved to another needle are held there, and no longer where they were. -/
theorem Sound.moved (sound : machine.Sound) {start target : Needle} (differs : start ≠ target)
    (startInRange : start.position < machine.needleCount)
    (targetInRange : target.position < machine.needleCount) :
    machine.Rearranged (machine.moved start target) := by
  have loops := loops_moved sound.shaped startInRange targetInRange
  -- Where a loop was held that the machine holds now.
  have origin : ∀ needle loop, loop ∈ (machine.moved start target).loops needle →
      ∃ before, loop ∈ machine.loops before ∧
        needle = if before = start then target else before := by
    intro needle loop member
    rw [loops] at member
    split at member
    · rename_i atTarget
      subst atTarget
      rcases List.mem_append.mp member with there | here
      · exact ⟨needle, there, by simp [Ne.symm differs]⟩
      · exact ⟨start, here, by simp⟩
    · split at member
      · simp at member
      · rename_i notStart
        exact ⟨needle, member, by rw [if_neg notStart]⟩
  refine ⟨⟨sound.shaped.moved start target, ?_, ?_, ?_⟩, by simp, by simp, ?_⟩
  · exact sound.known.moved sound.shaped startInRange targetInRange
  · intro needle
    rw [loops]
    split
    · refine List.nodup_append.mpr ⟨sound.once target, sound.once start, ?_⟩
      rintro loop there other here rfl
      exact differs (sound.single start target loop here there)
    · split
      · exact List.nodup_nil
      · exact sound.once needle
  · intro first second loop inFirst inSecond
    obtain ⟨firstBefore, firstMember, rfl⟩ := origin first loop inFirst
    obtain ⟨secondBefore, secondMember, rfl⟩ := origin second loop inSecond
    rw [sound.single firstBefore secondBefore loop firstMember secondMember]
  · intro loop
    constructor
    · rintro ⟨needle, member⟩
      obtain ⟨before, held, _⟩ := origin needle loop member
      exact ⟨before, held⟩
    · rintro ⟨needle, member⟩
      by_cases leaves : needle = start
      · refine ⟨target, ?_⟩
        rw [loops, if_pos rfl]
        exact List.mem_append_right _ (by rwa [← leaves])
      · refine ⟨needle, ?_⟩
        rw [loops]
        split
        · rename_i atTarget
          exact List.mem_append_left _ (by rwa [← atTarget])
        · exact member

theorem Sound.transferred (sound : machine.Sound) {start target : Needle} (differs : start ≠ target)
    (startInRange : start.position < machine.needleCount)
    (targetInRange : target.position < machine.needleCount) :
    machine.Rearranged (machine.transferred start target) := by
  have moved := sound.moved differs startInRange targetInRange
  have first := moved.sound.recorded start.position
  exact moved.trans (first.trans (first.sound.recorded target.position))

theorem opposite_ne (needle : Needle) : needle ≠ needle.opposite :=
  fun same => opposite_side needle (congrArg Needle.side same)

theorem Rearranged.crossedOnce (same : machine.Rearranged next) {needle : Needle}
    (inRange : needle.position < next.needleCount) :
    machine.Rearranged (next.moved needle needle.opposite) :=
  same.trans (same.sound.moved (opposite_ne needle) inRange inRange)

theorem Rearranged.returnedOnce (same : machine.Rearranged next) {start : Needle}
    (inRange : start.position < next.needleCount) :
    machine.Rearranged (next.transferred start start.opposite) :=
  same.trans (same.sound.transferred (opposite_ne start) inRange inRange)

theorem Sound.peeled (sound : machine.Sound) {plan : PeelPlan} {sheets : List Nat}
    (fits : plan.Fits machine sheets) (straight : List Needle) :
    machine.Rearranged ((machine.straightened straight).crossed (plan.ordered machine)) :=
  peeled_preserves machine.Rearranged (fun _ _ _ _ inRange same => same.crossedOnce inRange)
    sound.shaped fits ((machine.straightened_undisturbed straight).rearranged sound)

theorem Sound.restored (sound : machine.Sound) {plan : PeelPlan} {sheets : List Nat}
    (fits : plan.Fits machine sheets) {chosen : Nat → Bool} {returns : List Needle}
    (planned : machine.returnPlan plan chosen = .ok returns) :
    machine.Rearranged (machine.restored plan returns) :=
  restored_preserves machine.Rearranged (fun _ _ _ _ inRange same => same.crossedOnce inRange)
    (fun _ _ _ _ inRange same => same.returnedOnce inRange) sound.shaped fits planned
    ((machine.straightened_undisturbed _).rearranged sound)

theorem Sound.emptied (sound : machine.Sound) {needle : Needle}
    (inRange : needle.position < machine.needleCount) :
    (machine.put needle []).Sound ∧
      ∀ loop, (machine.put needle []).Holds loop → machine.Holds loop := by
  have loops := loops_put sound.shaped inRange ([] : List LoopId)
  have remains : ∀ other loop, loop ∈ (machine.put needle []).loops other →
      loop ∈ machine.loops other := by
    intro other loop member
    rw [loops] at member
    split at member
    · simp at member
    · exact member
  refine ⟨⟨sound.shaped.put needle [], ?_, ?_, ?_⟩, ?_⟩
  · intro other loop member
    simpa using sound.known other loop (remains other loop member)
  · intro other
    rw [loops]
    split
    · exact List.nodup_nil
    · exact sound.once other
  · intro first second loop inFirst inSecond
    exact sound.single first second loop (remains first loop inFirst)
      (remains second loop inSecond)
  · rintro loop ⟨other, member⟩
    exact ⟨other, remains other loop member⟩

/-- New loops are none of those held before, whether the needle keeps its loops or not. -/
theorem Sound.made (sound : machine.Sound) {needle : Needle}
    (inRange : needle.position < machine.needleCount) (fed : CarrierSystem) (yarns : List Yarn)
    (parents : List LoopId) {kept : List LoopId} (sublist : kept.Sublist (machine.loops needle)) :
    (machine.made needle fed yarns kept parents).Sound ∧
      ∀ loop, (machine.made needle fed yarns kept parents).Holds loop →
        machine.Holds loop ∨ machine.graph.loopCount ≤ loop.index := by
  have loops := loops_made sound.shaped inRange fed yarns kept parents
  have count : (machine.made needle fed yarns kept parents).graph.loopCount =
      machine.graph.loopCount + yarns.length :=
    StitchGraph.loopCount_grown machine.graph parents _ yarns
  -- A loop that is held now was held by the same needle, or is new on the needle.
  have origin : ∀ other loop,
      loop ∈ (machine.made needle fed yarns kept parents).loops other →
        loop ∈ machine.loops other ∨
          other = needle ∧ machine.graph.loopCount ≤ loop.index ∧
            loop.index < machine.graph.loopCount + yarns.length := by
    intro other loop member
    rw [loops] at member
    split at member
    · rename_i here
      subst here
      rcases List.mem_append.mp member with old | new
      · exact Or.inl (sublist.subset old)
      · exact Or.inr ⟨rfl, StitchGraph.mem_nextLoops.mp new⟩
    · exact Or.inl member
  have old : ∀ other, ∀ loop ∈ machine.loops other, loop.index < machine.graph.loopCount :=
    fun other loop member => sound.bound ⟨other, member⟩
  refine ⟨⟨sound.shaped.made needle fed yarns kept parents, ?_, ?_, ?_⟩, ?_⟩
  · intro other loop member
    rw [StitchGraph.contains_iff, count]
    rcases origin other loop member with before | ⟨_, _, below⟩
    · have known := old other loop before
      omega
    · exact below
  · intro other
    rw [loops]
    split
    · refine List.nodup_append.mpr
        ⟨(sound.once needle).sublist sublist, StitchGraph.nodup_nextLoops _ _, ?_⟩
      rintro loop inKept new isNew rfl
      have known := old needle loop (sublist.subset inKept)
      have fresh := (StitchGraph.mem_nextLoops.mp isNew).1
      omega
    · exact sound.once other
  · intro first second loop inFirst inSecond
    rcases origin first loop inFirst with firstOld | ⟨firstHere, firstNew, _⟩
    · rcases origin second loop inSecond with secondOld | ⟨_, secondNew, _⟩
      · exact sound.single first second loop firstOld secondOld
      · have known := old first loop firstOld
        omega
    · rcases origin second loop inSecond with secondOld | ⟨secondHere, _, _⟩
      · have known := old second loop secondOld
        omega
      · rw [firstHere, secondHere]
  · rintro loop ⟨other, member⟩
    rcases origin other loop member with before | ⟨_, fresh, _⟩
    · exact Or.inl ⟨other, before⟩
    · exact Or.inr fresh

/-- Loops stay held when a needle that keeps all its loops gets new ones. -/
theorem holds_made (shaped : machine.Shaped) {needle : Needle}
    (inRange : needle.position < machine.needleCount) (fed : CarrierSystem) (yarns : List Yarn)
    (parents : List LoopId) {loop : LoopId} (held : machine.Holds loop) :
    (machine.made needle fed yarns (machine.loops needle) parents).Holds loop := by
  obtain ⟨other, member⟩ := held
  refine ⟨other, ?_⟩
  rw [loops_made shaped inRange]
  split
  · rename_i here
    exact List.mem_append_left _ (by rwa [← here])
  · exact member

structure Evolved (machine : Machine) (call : Call) (next : Machine) : Prop where
  sound : next.Sound
  count : machine.graph.loopCount ≤ next.graph.loopCount
  made : ∀ loop, next.Holds loop → machine.Holds loop ∨
    (call.makesLoops = true ∧ machine.graph.loopCount ≤ loop.index)
  removed : ∀ loop, machine.Holds loop → next.Holds loop ∨ call.removesLoops = true
  graph : call.makesLoops = false → next.graph = machine.graph

theorem Rearranged.evolved (same : machine.Rearranged next) (call : Call) :
    machine.Evolved call next where
  sound := same.sound
  count := Nat.le_of_eq (by rw [same.graph])
  made loop held := Or.inl ((same.holds loop).mp held)
  removed loop held := Or.inl ((same.holds loop).mpr held)
  graph _ := same.graph

theorem Evolved.rearranged {call : Call} (evolved : machine.Evolved call next)
    (same : next.Rearranged last) : machine.Evolved call last where
  sound := same.sound
  count := by rw [same.graph]; exact evolved.count
  made loop held := evolved.made loop ((same.holds loop).mp held)
  removed loop held := by
    rcases evolved.removed loop held with kept | removes
    · exact Or.inl ((same.holds loop).mpr kept)
    · exact Or.inr removes
  graph makesNone := by rw [same.graph, evolved.graph makesNone]

theorem Rearranged.followed {call : Call} (same : machine.Rearranged next)
    (evolved : next.Evolved call last) : machine.Evolved call last where
  sound := evolved.sound
  count := by rw [← same.graph]; exact evolved.count
  made loop held := by
    rw [← same.holds, ← same.graph]
    exact evolved.made loop held
  removed loop held := evolved.removed loop ((same.holds loop).mpr held)
  graph makesNone := by rw [evolved.graph makesNone, same.graph]

theorem Sound.evolved_made (sound : machine.Sound) (call : Call) {needle : Needle}
    (inRange : needle.position < machine.needleCount) (makes : call.makesLoops = true)
    (fed : CarrierSystem) (yarns : List Yarn) (parents : List LoopId) {kept : List LoopId}
    (keeps : kept = machine.loops needle ∨ kept = [] ∧ call.removesLoops = true) :
    machine.Evolved call (machine.made needle fed yarns kept parents) := by
  have sublist : kept.Sublist (machine.loops needle) := by
    rcases keeps with rfl | ⟨rfl, _⟩
    · exact List.Sublist.refl _
    · exact List.nil_sublist _
  obtain ⟨madeSound, origin⟩ := sound.made inRange fed yarns parents sublist
  refine ⟨madeSound, ?_, ?_, ?_, ?_⟩
  · have count := StitchGraph.loopCount_grown machine.graph parents
      (machine.bed needle.side).pull yarns
    exact Nat.le_trans (Nat.le_add_right _ _) (Nat.le_of_eq count.symm)
  · intro loop held
    rcases origin loop held with before | fresh
    · exact Or.inl before
    · exact Or.inr ⟨makes, fresh⟩
  · intro loop held
    rcases keeps with rfl | ⟨_, removes⟩
    · exact Or.inl (holds_made sound.shaped inRange fed yarns parents held)
    · exact Or.inr removes
  · intro makesNone
    rw [makes] at makesNone
    cases makesNone

theorem Effect.evolved (sound : machine.Sound) {call : Call} {lines : List Line}
    (effect : Effect machine call lines next) : machine.Evolved call next := by
  cases effect with
  | retuned tuning => exact (tuning.retuned.toUndisturbed.rearranged sound).evolved _
  | @regauged number _ =>
      exact ((machine.regauged_undisturbed number).rearranged sound).evolved _
  | recorded _ => exact (sound.recorded _).evolved _
  | @knitted needle carriers direction yarns fed checked _ =>
      obtain ⟨inRange, _⟩ := (checkMaking_eq_ok sound.shaped).mp checked
      have made := sound.evolved_made (.apply (.knit needle carriers direction)) inRange rfl fed
        yarns (machine.loops needle) (Or.inr ⟨rfl, rfl⟩)
      exact made.rearranged (made.sound.recorded needle.position)
  | @tucked needle carriers direction yarns fed checked _ =>
      obtain ⟨inRange, _⟩ := (checkMaking_eq_ok sound.shaped).mp checked
      have made := sound.evolved_made (.apply (.tuck needle carriers direction)) inRange rfl fed
        yarns [] (Or.inl rfl)
      exact made.rearranged (made.sound.recorded needle.position)
  | @splitted start target carriers direction yarns fed checked _ =>
      obtain ⟨transfer, _⟩ := (checkSplit_eq_ok sound.shaped).mp checked
      obtain ⟨startInRange, targetInRange, sides, _⟩ :=
        (checkTransfer_eq_ok sound.shaped).mp transfer
      have differs : start ≠ target := fun same => sides (by rw [same])
      have moved := sound.transferred differs startInRange targetInRange
      have emptied : [] = (machine.transferred start target).loops start := by
        rw [loops_transferred, loops_moved_start sound.shaped startInRange targetInRange differs]
      have made := moved.sound.evolved_made (.apply (.split start target carriers direction))
        (by rwa [moved.needleCount]) rfl fed yarns [] (Or.inl emptied)
      exact moved.followed (made.rearranged (made.sound.recorded start.position))
  | @dropped needle checked =>
      have inRange := (checkNeedle_eq_ok sound.shaped).mp (then_eq_ok.mp checked).1
      obtain ⟨emptySound, remains⟩ := sound.emptied inRange
      have emptied : machine.Evolved (.apply (.drop needle)) (machine.put needle []) :=
        ⟨emptySound, by simp, fun loop held => Or.inl (remains loop held),
          fun _ _ => Or.inr rfl, fun _ => by simp⟩
      exact emptied.rearranged (emptySound.recorded needle.position)
  | @transferred start target checked =>
      obtain ⟨startInRange, targetInRange, sides, _⟩ :=
        (checkTransfer_eq_ok sound.shaped).mp checked
      have differs : start ≠ target := fun same => sides (by rw [same])
      exact (sound.transferred differs startInRange targetInRange).evolved _
  | @peeled _ plan _ _ _ fits _ => exact (sound.peeled fits plan.moves).evolved _
  | restored _ fits planned _ => exact (sound.restored fits planned).evolved _

theorem Sound.after (sound : machine.Sound) (call : Call) :
    machine.Evolved call (call.after machine) := by
  rcases after_cases sound.shaped sound.known call with unchanged | ⟨lines, effect⟩
  · rw [unchanged]
    exact (Rearranged.refl sound).evolved call
  · exact effect.evolved sound

theorem loops_initial (spec : Spec) (needle : Needle) : (initial spec).loops needle = [] := by
  cases needle with
  | mk side position slider =>
      cases side <;> cases slider <;>
        simp [loops, bed, initial, Bed.at?, Bed.slots, Bed.empty, Array.getElem?_replicate] <;>
        split <;> rfl

theorem shaped_initial {spec : Spec} (valid : spec.check = .ok ())
    (word : spec.needleCount < Text.wordCount) : (initial spec).Shaped where
  valid := valid
  word := word
  side side := by cases side <;> rfl
  slots side slider := by
    cases side <;> cases slider <;> simp [bed, initial, Bed.slots, Bed.empty, needleCount]
  record := by simp [initial, needleCount]
  layers := by simp [initial, needleCount]

theorem of_eq_ok {spec : Spec} :
    Machine.of spec = .ok machine ↔ spec.check = .ok () ∧ initial spec = machine := by
  rw [Machine.of, then_eq_ok, pure_eq_ok]

theorem reachable_measured {spec : Spec} (word : spec.needleCount < Text.wordCount)
    (needles : spec.needleCount ≠ 0) (carriers : spec.carrierCount ≠ 0)
    (distance : spec.maxRack.isFinite = true ∧ spec.maxRack.less .zero = false)
    (calls : List Call) : ((initial spec).afterAll calls).Reachable := by
  have valid : spec.check = .ok () := by
    simp only [Spec.check, throw_bind, refusal_eq_ok, pure_eq_ok]
    simp [needles, carriers, distance]
  exact (Reachable.start word (of_eq_ok.mpr ⟨valid, rfl⟩)).afterAll calls

theorem sound_initial {spec : Spec} (valid : spec.check = .ok ())
    (word : spec.needleCount < Text.wordCount) : (initial spec).Sound := by
  refine ⟨shaped_initial valid word, ?_, ?_, ?_⟩
  · intro needle loop member
    rw [loops_initial] at member
    cases member
  · intro needle
    rw [loops_initial]
    exact List.nodup_nil
  · intro first second loop inFirst
    rw [loops_initial] at inFirst
    cases inFirst

theorem Reachable.sound (reachable : machine.Reachable) : machine.Sound := by
  induction reachable with
  | start word empty =>
      obtain ⟨valid, rfl⟩ := of_eq_ok.mp empty
      exact sound_initial valid word
  | step before call ih => exact (ih.after call).sound

/-- What holds of the empty machines and is kept by every effect holds of all reachable machines. -/
theorem Reachable.preserves {motive : Machine → Prop} (reachable : machine.Reachable)
    (starts : ∀ spec, motive (initial spec))
    (keeps : ∀ {current last : Machine} {call : Call} {lines : List Line}, current.Sound →
      Effect current call lines last → motive current → motive last) : motive machine := by
  induction reachable with
  | start _ empty =>
      obtain ⟨_, rfl⟩ := of_eq_ok.mp empty
      exact starts _
  | step before call ih =>
      have sound := before.sound
      rcases after_cases sound.shaped sound.known call with unchanged | ⟨_, effect⟩
      · rw [unchanged]
        exact ih
      · exact keeps sound effect ih

/-- A loop that is made but not held is not held again. -/
theorem Sound.gone (sound : machine.Sound) {loop : LoopId}
    (made : loop.index < machine.graph.loopCount) (absent : ¬machine.Holds loop)
    (calls : List Call) : ¬(machine.afterAll calls).Holds loop := by
  induction calls generalizing machine with
  | nil => exact absent
  | cons call rest ih =>
      have evolved := sound.after call
      refine ih evolved.sound (Nat.lt_of_lt_of_le made evolved.count) ?_
      intro held
      rcases evolved.made loop held with before | ⟨_, fresh⟩
      · exact absent before
      · omega

end Machine

namespace Bed

theorem of_positionOf? {slots : Array (List LoopId)} {loop : LoopId} {position : Nat}
    (found : positionOf? slots loop = some position) :
    ∃ held, slots[position]? = some held ∧ loop ∈ held := by
  obtain ⟨inRange, holds, _⟩ := Array.findIdx?_eq_some_iff_getElem.mp found
  exact ⟨slots[position], Array.getElem?_eq_getElem inRange, by simpa using holds⟩

theorem positionOf?_eq_none {slots : Array (List LoopId)} {loop : LoopId}
    (absent : positionOf? slots loop = none) {position : Nat} {held : List LoopId}
    (found : slots[position]? = some held) : loop ∉ held := by
  have without := Array.findIdx?_eq_none_iff.mp absent held (Array.mem_of_getElem? found)
  simpa using without

theorem of_needleOf? {bed : Bed} {loop : LoopId} {needle : Needle}
    (found : bed.needleOf? loop = some needle) :
    needle.side = bed.side ∧ ∃ held, bed.at? needle = some held ∧ loop ∈ held := by
  simp only [needleOf?, Option.or_eq_some_iff, Option.map_eq_some_iff, Option.map_eq_none_iff]
    at found
  rcases found with ⟨position, here, rfl⟩ | ⟨_, position, here, rfl⟩
  · exact ⟨rfl, of_positionOf? here⟩
  · exact ⟨rfl, of_positionOf? here⟩

theorem needleOf?_eq_none {bed : Bed} {loop : LoopId} (absent : bed.needleOf? loop = none)
    {needle : Needle} {held : List LoopId} (found : bed.at? needle = some held) :
    loop ∉ held := by
  simp only [needleOf?, Option.or_eq_none_iff, Option.map_eq_none_iff] at absent
  simp only [at?, slots] at found
  split at found
  · exact positionOf?_eq_none absent.2 found
  · exact positionOf?_eq_none absent.1 found

end Bed

namespace Machine

variable {machine : Machine}

theorem held_of_needleOf? (side : Side) (shaped : machine.Shaped) {loop : LoopId} {needle : Needle}
    (found : (machine.bed side).needleOf? loop = some needle) :
    needle.side = side ∧ loop ∈ machine.loops needle := by
  obtain ⟨sameSide, held, inPlace, member⟩ := Bed.of_needleOf? found
  rw [shaped.side] at sameSide
  refine ⟨sameSide, ?_⟩
  rw [loops, sameSide, inPlace]
  exact member

theorem not_held_of_needleOf? {needle : Needle} {loop : LoopId}
    (absent : (machine.bed needle.side).needleOf? loop = none) : loop ∉ machine.loops needle := by
  rw [loops]
  cases inPlace : (machine.bed needle.side).at? needle with
  | none => exact List.not_mem_nil
  | some held => exact Bed.needleOf?_eq_none absent inPlace

/-- The needle that holds a loop is found on either bed, and two beds never answer both. -/
theorem Sound.needleOf (sound : machine.Sound) (loop : LoopId) :
    ∃ found, machine.needleOf loop = .ok found ∧
      ∀ needle, found = some needle ↔ loop ∈ machine.loops needle := by
  have unique : ∀ {found : Needle}, loop ∈ machine.loops found →
      ∀ needle, some found = some needle ↔ loop ∈ machine.loops needle := by
    intro found held needle
    constructor
    · rintro same
      cases same
      exact held
    · intro member
      rw [sound.single found needle loop held member]
  simp only [Machine.needleOf]
  cases onFront : machine.frontBed.needleOf? loop with
  | some first =>
      obtain ⟨firstSide, firstHeld⟩ := held_of_needleOf? .front sound.shaped onFront
      cases onBack : machine.backBed.needleOf? loop with
      | some second =>
          obtain ⟨secondSide, secondHeld⟩ := held_of_needleOf? .back sound.shaped onBack
          have same := sound.single first second loop firstHeld secondHeld
          rw [same, secondSide] at firstSide
          cases firstSide
      | none => exact ⟨some first, rfl, unique firstHeld⟩
  | none =>
      cases onBack : machine.backBed.needleOf? loop with
      | some second =>
          obtain ⟨_, secondHeld⟩ := held_of_needleOf? .back sound.shaped onBack
          exact ⟨some second, rfl, unique secondHeld⟩
      | none =>
          refine ⟨none, rfl, fun needle => ⟨by simp, fun member => absurd member ?_⟩⟩
          cases side : needle.side with
          | front => exact not_held_of_needleOf? (by rw [side]; exact onFront)
          | back => exact not_held_of_needleOf? (by rw [side]; exact onBack)

/-- Loops keep their identity: from a machine on, whatever is called, none is held twice, found in
two places, lost except by knitting and dropping, or held again. -/
structure LoopIdentity (machine : Machine) : Prop where
  once : ∀ needle, (machine.loops needle).Nodup
  single : ∀ first second loop,
    loop ∈ machine.loops first → loop ∈ machine.loops second → first = second
  made : ∀ loop, machine.Holds loop → loop.index < machine.graph.loopCount
  found : ∀ loop, ∃ found, machine.needleOf loop = .ok found ∧
    ∀ needle, found = some needle ↔ loop ∈ machine.loops needle
  gone : ∀ loop, loop.index < machine.graph.loopCount → ¬machine.Holds loop →
    ∀ calls, ¬(machine.afterAll calls).Holds loop
  added : ∀ (call : Call) (loop : LoopId), (call.after machine).Holds loop → ¬machine.Holds loop →
    call.makesLoops = true
  removed : ∀ (call : Call) (loop : LoopId), machine.Holds loop → ¬(call.after machine).Holds loop →
    call.removesLoops = true
  unchanged : ∀ call : Call, call.makesLoops = false → call.removesLoops = false →
    (∀ loop, (call.after machine).Holds loop ↔ machine.Holds loop) ∧
      (call.after machine).graph = machine.graph

theorem loopIdentity_of_reachable {machine : Machine} (reachable : machine.Reachable) :
    machine.LoopIdentity := by
  have sound := reachable.sound
  refine ⟨sound.once, sound.single, fun _ => sound.bound, sound.needleOf,
    fun _ => sound.gone, ?_, ?_, ?_⟩
  · intro call loop held absent
    rcases (sound.after call).made loop held with before | ⟨makes, _⟩
    · exact absurd before absent
    · exact makes
  · intro call loop held absent
    rcases (sound.after call).removed loop held with kept | removes
    · exact absurd kept absent
    · exact removes
  · intro call makesNone removesNone
    have evolved := sound.after call
    refine ⟨fun loop => ⟨fun held => ?_, fun held => ?_⟩, evolved.graph makesNone⟩
    · rcases evolved.made loop held with before | ⟨makes, _⟩
      · exact before
      · rw [makesNone] at makes
        cases makes
    · rcases evolved.removed loop held with kept | removes
      · exact kept
      · rw [removesNone] at removes
        cases removes

theorem loopIdentity_tucked_transferred :
    let machine := (initial twoNeedles).afterAll [.apply (.inhook ⟨1⟩),
      .apply (.tuck (.front 0) [⟨1⟩] none), .apply (.xfer (.front 0) (.back 0))]
    machine.loops (.back 0) = [⟨0⟩] ∧ machine.LoopIdentity :=
  ⟨by decide +kernel, loopIdentity_of_reachable (reachable_twoNeedles _)⟩

end Machine

end VBed
