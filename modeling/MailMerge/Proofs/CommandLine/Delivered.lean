import MailMerge.Proofs.CommandLine.Prepared

set_option autoImplicit false

namespace MailMerge.CommandLine

open Fill (Part Processor Replaced)

/-- The bytes that are to be written, if the part was filled. -/
def Delivery.bytes? (delivery : Delivery) : Option (List UInt8) :=
  match delivery.result.outcome.result with
  | .ok replaced => some replaced.bytes
  | .error _ => none

/-- The parts that were filled are at their targets, and all other files are as they were. -/
structure Delivered (system final : FileSystem) (deliveries : List Delivery) : Prop where
  written : ∀ delivery ∈ deliveries, ∀ bytes, delivery.bytes? = some bytes →
    final.tree.file? (system.place delivery.target) = some bytes
  frame : ∀ names, (∀ delivery ∈ deliveries, delivery.bytes?.isSome →
      system.place delivery.target ≠ names) →
    final.tree.file? names = system.tree.file? names

namespace Delivered

variable {system later final : FileSystem} {delivery : Delivery} {rest : List Delivery}

theorem nil : Delivered system system [] := ⟨by simp, fun _ _ => rfl⟩

theorem cons_failed (failed : delivery.bytes? = none) (delivered : Delivered system final rest) :
    Delivered system final (delivery :: rest) where
  written := by
    rw [List.forall_mem_cons, failed]
    exact ⟨by simp, delivered.written⟩
  frame := fun names apart =>
    delivered.frame names fun other member => apart other (List.mem_cons_of_mem delivery member)

/-- No later delivery goes to the place of one that has been written. -/
theorem cons_written {bytes : List UInt8} (filled : delivery.bytes? = some bytes)
    (written : system.write delivery.target bytes = .ok later)
    (new : ∀ other ∈ rest, system.place other.target ≠ system.place delivery.target)
    (delivered : Delivered later final rest) : Delivered system final (delivery :: rest) := by
  have after := FileSystem.write_eq_ok written
  have places : ∀ path, later.place path = system.place path :=
    FileSystem.place_congr (by rw [after])
  have put : ∀ names, later.tree.file? names =
      if names = system.place delivery.target then some bytes else system.tree.file? names := by
    rw [after]
    exact fun names => system.tree.file?_put (system.place delivery.target) names bytes
  constructor
  · rw [List.forall_mem_cons]
    constructor
    · intro found same
      rw [filled] at same
      -- Nothing of the rest goes to this place, so what was put there is there in the end.
      rw [delivered.frame _ fun other member _ => places other.target ▸ new other member, put,
        if_pos rfl, same]
    · intro other member found same
      rw [← places]
      exact delivered.written other member found same
  · intro names apart
    rw [List.forall_mem_cons, filled] at apart
    obtain ⟨notHere, notLater⟩ := apart
    rw [delivered.frame names fun other member => places other.target ▸ notLater other member, put,
      if_neg (Ne.symm (notHere rfl))]

end Delivered

/-- Does a run stop for this reason when a directory cannot be made, or a file not be written? -/
def Stop.IsWriteFailure : Stop → Prop
  | noDirectory _ | unwritable _ => True
  | _ => False

/-- Deliveries with places of their own are all made, unless one of them cannot be written. -/
theorem deliver_cases {system : FileSystem} {deliveries : List Delivery}
    (apart : (deliveries.map fun delivery => system.place delivery.target).Nodup) :
    (∃ stop records final, stop.IsWriteFailure ∧
        deliver system deliveries = (records, final, some stop)) ∨
      ∃ final, deliver system deliveries = (deliveries.map Delivery.record, final, none) ∧
        Delivered system final deliveries := by
  induction deliveries generalizing system with
  | nil => exact .inr ⟨system, rfl, .nil⟩
  | cons delivery rest ih =>
    rw [List.map_cons, List.nodup_cons] at apart
    have new : ∀ other ∈ rest, system.place other.target ≠ system.place delivery.target :=
      fun other member same => apart.1 (same ▸ List.mem_map_of_mem member)
    unfold deliver
    cases result : delivery.result.outcome.result with
    | error error =>
      have failed : delivery.bytes? = none := by rw [Delivery.bytes?, result]
      obtain ⟨stop, records, final, failure, stopped⟩ | ⟨final, went, delivered⟩ := ih apart.2
      · exact .inl ⟨stop, delivery.record :: records, final, failure, by rw [stopped]⟩
      · refine .inr ⟨final, ?_, delivered.cons_failed failed⟩
        rw [went]
        rfl
    | ok replaced =>
      have filled : delivery.bytes? = some replaced.bytes := by rw [Delivery.bytes?, result]
      cases written : system.write delivery.target replaced.bytes with
      | error problem =>
        cases problem with
        | noDirectory =>
          exact .inl ⟨.noDirectory (directoryOf delivery.target), [], system, trivial,
            by simp only [written]⟩
        | noFile =>
          exact .inl ⟨.unwritable delivery.target, [], system, trivial, by simp only [written]⟩
      | ok later =>
        -- A write changes no working directory, so the other paths lead where they led before.
        have others : (rest.map fun other => later.place other.target).Nodup := by
          have same : later.working = system.working := by rw [FileSystem.write_eq_ok written]
          simpa only [FileSystem.place_congr same] using apart.2
        obtain ⟨stop, records, final, failure, stopped⟩ | ⟨final, went, delivered⟩ := ih others
        · exact .inl ⟨stop, delivery.record :: records, final, failure,
            by simp only [written, stopped]⟩
        · refine .inr ⟨final, ?_, .cons_written filled written new delivered⟩
          simp only [written, went, List.map_cons]

def Setup.filled (setup : Setup) (part : Part) : Except Error Replaced :=
  (part.filledAlone setup.processor setup.model setup.capacity).outcome.result

/-- The names of the file that a part is written to. -/
def Arguments.place (arguments : Arguments) (system : FileSystem) (part : Part) : List Text :=
  system.place (arguments.target part.name)

/-- A run has written the parts that were filled, each to a place of its own. -/
structure Completed (system : FileSystem) (arguments : Arguments) (setup : Setup)
    (parts : List Part) (outcome : Outcome) : Prop where
  /-- The place of a part is below the output directory, at the names in its path. -/
  below : ∀ part ∈ parts, Named (namesOf part.name) ∧
    arguments.place system part = system.place arguments.outDir ++ namesOf part.name
  apart : (parts.map (arguments.place system)).Nodup
  filled : ∀ part ∈ parts, ∀ replaced, setup.filled part = .ok replaced →
    outcome.tree.file? (arguments.place system part) = some replaced.bytes
  failed : ∀ part ∈ parts, ∀ error, setup.filled part = .error error →
    outcome.tree.file? (arguments.place system part)
      = system.tree.file? (arguments.place system part)
  others : ∀ names, names ∉ parts.map (arguments.place system) →
    outcome.tree.file? names = system.tree.file? names
  exitCode : outcome.exitCode = 0 ↔ ∀ part ∈ parts, ∃ replaced, setup.filled part = .ok replaced

section

variable (arguments : Arguments) {setup : Setup} {part : Part}

theorem bytes?_delivery_of_ok {replaced : Replaced} (filled : setup.filled part = .ok replaced) :
    (setup.delivery arguments part).bytes? = some replaced.bytes := by
  rw [Setup.filled] at filled
  rw [Delivery.bytes?, Setup.delivery, filled]

theorem bytes?_delivery_of_error {error : Error} (failed : setup.filled part = .error error) :
    (setup.delivery arguments part).bytes? = none := by
  rw [Setup.filled] at failed
  rw [Delivery.bytes?, Setup.delivery, failed]

theorem not_isNone_delivery_iff :
    ¬ (setup.delivery arguments part).result.report?.isNone ↔
      ∃ replaced, setup.filled part = .ok replaced := by
  rw [Fill.PartResult.report?, Setup.delivery, Setup.filled]
  cases (part.filledAlone setup.processor setup.model setup.capacity).outcome.result <;> simp

end

namespace Ready

variable {system : FileSystem} {arguments : Arguments} {setup : Setup} {parts : List Part}

theorem below (ready : Ready system.read? arguments setup parts) {part : Part}
    (member : part ∈ parts) : Named (namesOf part.name) ∧
      arguments.place system part = system.place arguments.outDir ++ namesOf part.name :=
  have named := named_namesOf (ready.named part member)
  ⟨named, system.place_below named arguments.outDir⟩

/-- Parts with targets of their own have places of their own. -/
theorem places_nodup (ready : Ready system.read? arguments setup parts) :
    (parts.map (arguments.place system)).Nodup := by
  refine List.pairwise_map.2 ((List.pairwise_map.1 ready.apart).imp_of_mem ?_)
  intro part other member otherMember differ same
  -- A target is made of nothing but the directory and the names, so equal names give equal targets.
  rw [(ready.below member).2, (ready.below otherMember).2] at same
  apply differ
  rw [Arguments.target, Arguments.target, List.append_cancel_left same]

theorem deliveries_apart (ready : Ready system.read? arguments setup parts) :
    ((parts.map (setup.delivery arguments)).map fun delivery =>
      system.place delivery.target).Nodup := by
  rw [List.map_map]
  exact ready.places_nodup

/-- Writing what the parts gave when they were filled completes a run. -/
theorem completed {final : FileSystem} {outcome : Outcome}
    (ready : Ready system.read? arguments setup parts)
    (delivered : Delivered system final (parts.map (setup.delivery arguments)))
    (tree : outcome.tree = final.tree)
    (exitCode : outcome.exitCode = 0 ↔ failures (parts.map (setup.delivery arguments)) = 0) :
    Completed system arguments setup parts outcome where
  below := fun part member => ready.below member
  apart := ready.places_nodup
  filled := by
    intro part member replaced filled
    rw [tree]
    apply delivered.written _ (List.mem_map_of_mem member)
    exact bytes?_delivery_of_ok arguments filled
  failed := by
    intro part member error failed
    rw [tree]
    apply delivered.frame
    intro delivery inDeliveries some same
    obtain ⟨other, otherMember, rfl⟩ := List.mem_map.1 inDeliveries
    -- Only this part has this place, and it was not filled.
    obtain rfl := List.inj_on_of_nodup_map ready.places_nodup otherMember member same
    simp [bytes?_delivery_of_error arguments failed] at some
  others := by
    intro names elsewhere
    rw [tree]
    apply delivered.frame
    intro delivery inDeliveries _ same
    obtain ⟨other, otherMember, rfl⟩ := List.mem_map.1 inDeliveries
    exact elsewhere (List.mem_map.2 ⟨other, otherMember, same⟩)
  exitCode := by
    rw [exitCode, failures, List.countP_eq_zero, List.forall_mem_map]
    exact forall₂_congr fun part _ => not_isNone_delivery_iff arguments

end Ready

/-- How a run ends whose writes all succeed. -/
inductive Ends (system : FileSystem) (arguments : List Text) (outcome : Outcome) : Prop where
  /-- It only tells about itself. -/
  | told (asked : Request.ofArguments arguments = .help ∨ Request.ofArguments arguments = .version)
      (nothing : outcome = ⟨0, [], [], system.tree⟩)
  /-- Its arguments do not fit together. -/
  | misused (asked : Request.ofArguments arguments = .misuse)
      (nothing : outcome = ⟨2, [], [], system.tree⟩)
  /-- It has a reason to stop, and stops before anything is written. -/
  | stopped {request : Arguments} (asked : Request.ofArguments arguments = .fill request)
      {stop : Stop} (applies : stop.AppliesTo system.read? request)
      (nothing : outcome = ⟨1, [.stopped stop], [], system.tree⟩)
  /-- It has no reason to stop, and has filled its parts with the bytes that they had before. -/
  | completed {request : Arguments} (asked : Request.ofArguments arguments = .fill request)
      (free : ∀ stop : Stop, ¬ stop.AppliesTo system.read? request)
      {setup : Setup} {parts : List Part} (ready : Ready system.read? request setup parts)
      (completed : Completed system request setup parts outcome)

/-- A run whose writes all succeed stops before the first of them or goes through all its parts. -/
theorem runIn_ends (system : FileSystem) (arguments : List Text)
    (writes : ∀ stop : Stop, .stopped stop ∈ (runIn system arguments).records →
      ¬ stop.IsWriteFailure) :
    Ends system arguments (runIn system arguments) := by
  unfold runIn at writes ⊢
  cases asked : Request.ofArguments arguments with
  | help => exact .told (.inl asked) rfl
  | version => exact .told (.inr asked) rfl
  | misuse => exact .misused asked rfl
  | fill request =>
    simp only [asked] at writes ⊢
    unfold fill at writes ⊢
    obtain ⟨stop, applies, stopped⟩ | ⟨setup, parts, ready, prepared⟩ :=
      prepare_cases system.read? request
    · exact .stopped asked applies (by rw [stopped])
    simp only [prepared] at writes ⊢
    obtain ⟨stop, records, final, failure, stopped⟩ | ⟨final, went, delivered⟩ :=
      deliver_cases ready.deliveries_apart
    · simp only [stopped] at writes
      exact absurd failure (writes stop (by simp))
    · simp only [went]
      exact .completed asked ready.not_appliesTo ready (ready.completed delivered rfl (by simp))

open Fill Markup in
/-- The first part goes to where the second one was read from, which is filled as it was before. The
third part fails. -/
theorem runIn_ends_over_input :
    let document : Text → Document := fun text =>
      .ofRoot ⟨['d'], [], [], [paragraphOf [textRun text]], false⟩
    let first := document ['{', '{', 'a', '}', '}']
    let second := document ['c']
    let broken := document ['{', '{']
    let model := Text.bytes ['{', '"', 'a', '"', ':', '"', 'A', '"', '}']
    let system : FileSystem := ⟨⟨[
      ([['w'], ['m']], model),
      ([['w'], ['x']], first.toBytes),
      ([['w'], ['o'], ['x']], second.toBytes),
      ([['w'], ['y']], broken.toBytes)]⟩, [['w']]⟩
    let paths : List Text := [['x'], ['o', '/', 'x'], ['.', '.', '/', 'w', '/', 'y']]
    let arguments := "--data".toList :: ['m'] :: "--out-dir".toList :: ['o'] :: paths
    let request : Arguments := ⟨['m'], none, ['o'], none, none, false, paths⟩
    (runIn system arguments).exitCode = 1 ∧
      (runIn system arguments).tree.file? [['w'], ['o'], ['x']] = some (document ['A']).toBytes ∧
      (runIn system arguments).tree.file? [['w'], ['o'], ['o'], ['x']] = some second.toBytes ∧
      (runIn system arguments).tree.file? [['w'], ['o'], ['w'], ['y']] = none ∧
      ∃ setup parts, Ready system.read? request setup parts ∧
        Completed system request setup parts (runIn system arguments) := by
  intro document first second broken model system paths arguments request
  let value : Json.Value := .object [(['a'], .string ['A'])]
  let settings : Settings :=
    ⟨.standard, .standard, defaultLookahead, .truncate, Model.Resolver.defaultCapacity⟩
  let setup : Setup := ⟨.standard, value, Model.Resolver.defaultCapacity⟩
  let parts : List Part := [⟨['x'], first.toBytes⟩, ⟨['o', '/', 'x'], second.toBytes⟩,
    ⟨['.', '.', '/', 'w', '/', 'y'], broken.toBytes⟩]
  let error : Error := .unterminatedPlaceholder 1 ['{', '{']
  let deliveries : List Delivery := [
    ⟨['o', '/', 'x'], ['x'], .ok ⟨(document ['A']).toBytes, ⟨1, 1, 0, 0⟩⟩, []⟩,
    ⟨['o', '/', 'o', '/', 'x'], ['o', '/', 'x'], .ok ⟨second.toBytes, ⟨1, 0, 0, 0⟩⟩, []⟩,
    ⟨['o', '/', 'w', '/', 'y'], ['.', '.', '/', 'w', '/', 'y'], .error error, []⟩]
  have asked : Request.ofArguments arguments = .fill request := by decide +kernel
  have parsed : Json.ofBytes? model = some value := by
    rw [Json.ofBytes?, Utf8.decode_bytes]
    cbv
  have isSetUp : setUp system.read? request = .ok setup := by
    have loaded : loadSettings system.read? request = .ok settings := rfl
    have checked : Processor.ofOptions settings.toOptions = .ok .standard := rfl
    have dataRead : readFile system.read? request.data = .ok model := rfl
    simp only [setUp, loaded, dataRead, bind, Except.bind, checked, parsed]
    rfl
  have targets : targetsOf request.outDir request.parts
      = .ok (deliveries.map Delivery.target) := rfl
  have partsRead : readParts system.read? request.parts = .ok parts := rfl
  have filled : setup.fill parts = deliveries.map Delivery.result := by
    have fillFirst : (Processor.standard.fillDocument first).run (Model.resolve? value)
        = ⟨document ['A'], ⟨1, 1, 0, 0⟩, [], none⟩ := by cbv
    have fillSecond : (Processor.standard.fillDocument second).run (Model.resolve? value)
        = ⟨second, ⟨1, 0, 0, 0⟩, [], none⟩ := by cbv
    have fillBroken : (Processor.standard.fillDocument broken).run (Model.resolve? value)
        = ⟨broken, ⟨1, 0, 0, 0⟩, [], some error⟩ := by cbv
    rw [Setup.fill, runWith_fillParts _ _ _ 0]
    simp only [parts, List.map_cons, List.map_nil, Part.filledAlone, Threads.runWith_ofModel]
    rw [Processor.run_fillPart _ _ (ofBytes_toBytes ⟨by decide, by decide⟩ (by decide)), fillFirst,
      Processor.run_fillPart _ _ (ofBytes_toBytes ⟨by decide, by decide⟩ (by decide)), fillSecond,
      Processor.run_fillPart _ _ (ofBytes_toBytes ⟨by decide, by decide⟩ (by decide)), fillBroken]
    rfl
  have prepared : prepare system.read? request = .ok deliveries := by
    rw [prepare, isSetUp, targets, partsRead]
    show Except.ok (List.zipWith _ _ (setup.fill parts)) = _
    rw [filled]
    rfl
  let records : List Record := [.filled ['x'] 1 0, .filled ['o', '/', 'x'] 0 0,
    .failed ['.', '.', '/', 'w', '/', 'y'] error]
  let final : FileTree := ⟨[
    ([['w'], ['m']], model),
    ([['w'], ['x']], first.toBytes),
    ([['w'], ['y']], broken.toBytes),
    ([['w'], ['o'], ['x']], (document ['A']).toBytes),
    ([['w'], ['o'], ['o'], ['x']], second.toBytes)]⟩
  have delivered : deliver system deliveries = (records, ⟨final, [['w']]⟩, none) := by
    decide +kernel
  have ran : runIn system arguments
      = ⟨1, records ++ [.done 3 1 ⟨2, 1, 0, 0⟩], [], final⟩ := by
    rw [runIn, asked]
    show fill system request = _
    simp only [fill, prepared, delivered]
    rfl
  have writes : ∀ stop : Stop, .stopped stop ∈ (runIn system arguments).records →
      ¬ stop.IsWriteFailure := by
    rw [ran]
    simp [records]
  refine ⟨by rw [ran], by rw [ran]; rfl, by rw [ran]; rfl, by rw [ran]; rfl, ?_⟩
  cases runIn_ends system arguments writes with
  | told other =>
    rw [asked] at other
    obtain other | other := other <;> cases other
  | misused other =>
    rw [asked] at other
    cases other
  | stopped other applies nothing =>
    rw [ran] at nothing
    cases congrArg Outcome.records nothing
  | completed other free ready completed =>
    rw [asked] at other
    cases other
    exact ⟨_, _, ready, completed⟩

end MailMerge.CommandLine
