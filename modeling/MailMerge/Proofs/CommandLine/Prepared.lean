import MailMerge.Proofs.CommandLine.Places
import MailMerge.Proofs.Fill.SharedParts

set_option autoImplicit false

namespace MailMerge.CommandLine

open Fill (Part PartResult Processor Replaced)

/-- Does a run with these files have this reason to stop before it writes anything? -/
def Stop.AppliesTo (files : Files) (arguments : Arguments) : Stop → Prop
  | badSettings => ∃ problem, loadSettings files arguments = .error problem
  | badOptions error => ∃ settings, loadSettings files arguments = .ok settings ∧
      Processor.ofOptions settings.toOptions = .error error
  | unreadable path => (path = arguments.data ∨ path ∈ arguments.parts) ∧ files path = none
  | badModel path => path = arguments.data ∧
      ∃ bytes, files path = some bytes ∧ Json.ofBytes? bytes = none
  | noFileName part => part ∈ arguments.parts ∧ namesOf part = []
  | wouldOverwrite part target => ∃ front back, arguments.parts = front ++ part :: back ∧
      targetOf arguments.outDir part = .ok target ∧
      ∃ other ∈ front, targetOf arguments.outDir other = .ok target
  | noDirectory _ | unwritable _ => False

def Arguments.target (arguments : Arguments) (part : Text) : Text :=
  below arguments.outDir (namesOf part)

/-- What a run has read when it has come so far that it fills its parts: these parts, each with the
bytes of its file and a target of its own. -/
structure Ready (files : Files) (arguments : Arguments) (setup : Setup) (parts : List Part) :
    Prop where
  setUp : setUp files arguments = .ok setup
  names : parts.map Part.name = arguments.parts
  read : ∀ part ∈ parts, files part.name = some part.bytes
  named : ∀ part ∈ parts, namesOf part.name ≠ []
  apart : (parts.map fun part => arguments.target part.name).Nodup

section

variable {α β ε : Type} {step : α → Except ε β}

theorem exists_of_mapM_eq_error {items : List α} {problem : ε}
    (stopped : items.mapM step = .error problem) : ∃ item ∈ items, step item = .error problem := by
  induction items with
  | nil => cases stopped
  | cons item items ih =>
    rw [List.mapM_cons] at stopped
    cases first : step item with
    | error other =>
      rw [first] at stopped
      obtain rfl := Except.error.inj stopped
      exact ⟨item, List.mem_cons_self, first⟩
    | ok result =>
      cases rest : items.mapM step with
      | error other =>
        rw [first, rest] at stopped
        obtain rfl := Except.error.inj stopped
        obtain ⟨found, member, stops⟩ := ih rest
        exact ⟨found, List.mem_cons_of_mem item member, stops⟩
      | ok results =>
        rw [first, rest] at stopped
        cases stopped

theorem forall₂_of_mapM_eq_ok {items : List α} {results : List β}
    (went : items.mapM step = .ok results) :
    List.Forall₂ (fun item result => step item = .ok result) items results := by
  induction items generalizing results with
  | nil =>
    obtain rfl := Except.ok.inj went
    exact .nil
  | cons item items ih =>
    rw [List.mapM_cons] at went
    cases first : step item with
    | error problem =>
      rw [first] at went
      cases went
    | ok result =>
      cases rest : items.mapM step with
      | error problem =>
        rw [first, rest] at went
        cases went
      | ok others =>
        rw [first, rest] at went
        obtain rfl := Except.ok.inj went
        exact .cons first (ih rest)

end

theorem setUp_cases (files : Files) (arguments : Arguments) :
    (∃ stop, stop.AppliesTo files arguments ∧ setUp files arguments = .error stop) ∨
      ∃ setup settings data, setUp files arguments = .ok setup ∧
        loadSettings files arguments = .ok settings ∧
        Processor.ofOptions settings.toOptions = .ok setup.processor ∧
        files arguments.data = some data ∧ Json.ofBytes? data = some setup.model := by
  unfold setUp
  cases loaded : loadSettings files arguments with
  | error problem => exact .inl ⟨.badSettings, ⟨problem, loaded⟩, rfl⟩
  | ok settings =>
    cases checked : Processor.ofOptions settings.toOptions with
    | error error =>
      refine .inl ⟨.badOptions error, ⟨settings, loaded, checked⟩, ?_⟩
      simp [bind, Except.bind, checked]
    | ok processor =>
      cases read : files arguments.data with
      | none =>
        refine .inl ⟨.unreadable arguments.data, ⟨.inl rfl, read⟩, ?_⟩
        simp [bind, Except.bind, checked, readFile, read]
      | some data =>
        cases parsed : Json.ofBytes? data with
        | none =>
          refine .inl ⟨.badModel arguments.data, ⟨rfl, data, read, parsed⟩, ?_⟩
          simp [bind, Except.bind, checked, readFile, read, parsed]
        | some model =>
          refine .inr ⟨⟨processor, model, settings.cacheCapacity⟩, settings, data, ?_, rfl, checked,
            rfl, parsed⟩
          simp [bind, Except.bind, checked, readFile, read, parsed, pure, Except.pure]

theorem targetOf_eq_error {outDir part : Text} {stop : Stop}
    (stopped : targetOf outDir part = .error stop) :
    namesOf part = [] ∧ stop = .noFileName part := by
  unfold targetOf at stopped
  split at stopped
  · rename_i nothing
    exact ⟨nothing, (Except.error.inj stopped).symm⟩
  · cases stopped

theorem targetOf_eq_ok_iff {arguments : Arguments} {part target : Text} :
    targetOf arguments.outDir part = .ok target ↔
      namesOf part ≠ [] ∧ arguments.target part = target := by
  unfold targetOf Arguments.target
  split
  · rename_i nothing
    simp [nothing]
  · rename_i some
    exact ⟨fun same => ⟨some, Except.ok.inj same⟩, fun ⟨_, same⟩ => congrArg _ same⟩

theorem findClash_eq_some {seen : List Text} {targets : List (Text × Text)} {part target : Text}
    (found : findClash seen targets = some (part, target)) :
    ∃ front back, targets = front ++ (part, target) :: back ∧
      (target ∈ seen ∨ target ∈ front.map Prod.snd) := by
  induction targets generalizing seen with
  | nil => cases found
  | cons entry rest ih =>
    obtain ⟨first, place⟩ := entry
    rw [findClash] at found
    split at found
    · rename_i before
      obtain ⟨rfl, rfl⟩ := Prod.mk.inj (Option.some.inj found)
      exact ⟨[], rest, rfl, .inl (by simpa using before)⟩
    · obtain ⟨front, back, rfl, before⟩ := ih found
      refine ⟨(first, place) :: front, back, rfl, ?_⟩
      rw [List.mem_cons] at before
      rw [List.map_cons, List.mem_cons]
      tauto

theorem nodup_of_findClash_eq_none {seen : List Text} {targets : List (Text × Text)}
    (nothing : findClash seen targets = none) :
    (targets.map Prod.snd).Nodup ∧ ∀ target ∈ targets.map Prod.snd, target ∉ seen := by
  induction targets generalizing seen with
  | nil => simp
  | cons entry rest ih =>
    obtain ⟨first, place⟩ := entry
    rw [findClash] at nothing
    split at nothing
    · cases nothing
    · rename_i new
      obtain ⟨nodup, others⟩ := ih nothing
      rw [List.map_cons, List.nodup_cons, List.forall_mem_cons]
      refine ⟨⟨fun member => others place member List.mem_cons_self, nodup⟩,
        by simpa using new, fun target member inSeen => ?_⟩
      exact others target member (List.mem_cons_of_mem place inSeen)

/-- A clash of targets is between a part and one in front of it. -/
theorem wouldOverwrite_of_findClash (files : Files) {arguments : Arguments} {part target : Text}
    (named : ∀ part ∈ arguments.parts, namesOf part ≠ [])
    (clash : findClash [] (arguments.parts.map fun part => (part, arguments.target part))
      = some (part, target)) : (Stop.wouldOverwrite part target).AppliesTo files arguments := by
  obtain ⟨front, back, split, before⟩ := findClash_eq_some clash
  obtain ⟨first, rest, whole, rfl, behind⟩ := List.map_eq_append_iff.1 split
  obtain ⟨here, last, rfl, same, -⟩ := List.map_eq_cons_iff.1 behind
  obtain ⟨rfl, rfl⟩ := Prod.mk.inj same
  -- Nothing was seen at the start, so the target is that of a part in front.
  obtain ⟨other, inFront, sameTarget⟩ : ∃ other ∈ first,
      arguments.target other = arguments.target here := by
    simpa using before
  rw [whole] at named
  refine ⟨first, last, whole, ?_, other, inFront, ?_⟩
  · exact targetOf_eq_ok_iff.2 ⟨named here (by simp), rfl⟩
  · exact targetOf_eq_ok_iff.2 ⟨named other (by simp [inFront]), sameTarget⟩

theorem targetsOf_cases (files : Files) (arguments : Arguments) :
    (∃ stop : Stop, stop.AppliesTo files arguments ∧
        targetsOf arguments.outDir arguments.parts = .error stop) ∨
      ((∀ part ∈ arguments.parts, namesOf part ≠ []) ∧
        (arguments.parts.map arguments.target).Nodup ∧
        targetsOf arguments.outDir arguments.parts
          = .ok (arguments.parts.map arguments.target)) := by
  unfold targetsOf
  cases mapped : arguments.parts.mapM (targetOf arguments.outDir) with
  | error stop =>
    obtain ⟨part, member, stopped⟩ := exists_of_mapM_eq_error mapped
    obtain ⟨nothing, rfl⟩ := targetOf_eq_error stopped
    exact .inl ⟨.noFileName part, ⟨member, nothing⟩, rfl⟩
  | ok targets =>
    have each := (forall₂_of_mapM_eq_ok mapped).imp fun _ _ found => targetOf_eq_ok_iff.1 found
    rw [List.forall₂_and_left, ← List.forall₂_map_left_iff, List.forall₂_eq_eq_eq] at each
    obtain ⟨named, rfl⟩ := each
    have pairs : arguments.parts.zip (arguments.parts.map arguments.target)
        = arguments.parts.map fun part => (part, arguments.target part) :=
      List.map_prod_left_eq_zip.symm
    cases clash : findClash [] (arguments.parts.zip (arguments.parts.map arguments.target)) with
    | some found =>
      obtain ⟨part, target⟩ := found
      refine .inl ⟨.wouldOverwrite part target, ?_, by simp [bind, Except.bind, clash]⟩
      exact wouldOverwrite_of_findClash files named (pairs ▸ clash)
    | none =>
      refine .inr ⟨named, ?_, by simp [bind, Except.bind, clash, pure, Except.pure]⟩
      have nodup := (nodup_of_findClash_eq_none clash).1
      rwa [pairs, List.map_map] at nodup

theorem readFile_cases (files : Files) (path : Text) :
    (files path = none ∧ readFile files path = .error (.unreadable path)) ∨
      ∃ bytes, files path = some bytes ∧ readFile files path = .ok bytes := by
  unfold readFile
  cases files path with
  | none => exact .inl ⟨rfl, rfl⟩
  | some bytes => exact .inr ⟨bytes, rfl, rfl⟩

theorem readParts_cases (files : Files) (paths : List Text) :
    (∃ path ∈ paths, files path = none ∧ readParts files paths = .error (.unreadable path)) ∨
      ∃ parts : List Part, parts.map Part.name = paths ∧
        (∀ part ∈ parts, files part.name = some part.bytes) ∧
        readParts files paths = .ok parts := by
  unfold readParts
  cases mapped : paths.mapM fun path => do
      let bytes ← readFile files path
      return (⟨path, bytes⟩ : Part) with
  | error stop =>
    obtain ⟨path, member, stopped⟩ := exists_of_mapM_eq_error mapped
    obtain ⟨unread, reading⟩ | ⟨bytes, -, reading⟩ := readFile_cases files path
    · rw [reading] at stopped
      obtain rfl := Except.error.inj stopped
      exact .inl ⟨path, member, unread, rfl⟩
    · rw [reading] at stopped
      cases stopped
  | ok parts =>
    have each : List.Forall₂ (fun part path => files part.name = some part.bytes ∧ part.name = path)
        parts paths := by
      refine ((forall₂_of_mapM_eq_ok mapped).imp fun path part went => ?_).flip
      obtain ⟨-, reading⟩ | ⟨bytes, read, reading⟩ := readFile_cases files path
      · rw [reading] at went
        cases went
      · rw [reading] at went
        obtain rfl := Except.ok.inj went
        exact ⟨read, rfl⟩
    rw [List.forall₂_and_left, ← List.forall₂_map_left_iff, List.forall₂_eq_eq_eq] at each
    exact .inr ⟨parts, each.2, each.1, rfl⟩

/-- What is delivered of a part: what filling it alone gives, at the target of the part. -/
def Setup.delivery (setup : Setup) (arguments : Arguments) (part : Part) : Delivery :=
  ⟨arguments.target part.name, part.filledAlone setup.processor setup.model setup.capacity⟩

theorem zipWith_delivery (setup : Setup) (arguments : Arguments) (parts : List Part) :
    List.zipWith Delivery.mk ((parts.map Part.name).map arguments.target) (setup.fill parts)
      = parts.map (setup.delivery arguments) := by
  rw [Setup.fill, Fill.runWith_fillParts _ _ _ setup.capacity, List.map_map, List.zipWith_map,
    List.zipWith_self]
  rfl

/-- A run stops before it writes for a reason that applies, or it is ready and has each part filled
as it is filled alone. -/
theorem prepare_cases (files : Files) (arguments : Arguments) :
    (∃ stop : Stop, stop.AppliesTo files arguments ∧ prepare files arguments = .error stop) ∨
      ∃ setup parts, Ready files arguments setup parts ∧
        prepare files arguments = .ok (parts.map (setup.delivery arguments)) := by
  unfold prepare
  obtain ⟨stop, applies, stopped⟩ | ⟨setup, _, _, isSetUp, -⟩ := setUp_cases files arguments
  · exact .inl ⟨stop, applies, by rw [stopped]; rfl⟩
  obtain ⟨stop, applies, stopped⟩ | ⟨named, apart, targets⟩ := targetsOf_cases files arguments
  · exact .inl ⟨stop, applies, by rw [isSetUp, stopped]; rfl⟩
  obtain ⟨path, member, unread, stopped⟩ | ⟨parts, names, read, went⟩ :=
    readParts_cases files arguments.parts
  · exact .inl ⟨.unreadable path, ⟨.inr member, unread⟩, by rw [isSetUp, targets, stopped]; rfl⟩
  refine .inr ⟨setup, parts, ⟨isSetUp, names, read, ?_, ?_⟩, ?_⟩
  · exact fun part member => named part.name (names ▸ List.mem_map_of_mem member)
  · rw [← names, List.map_map] at apart
    exact apart
  · rw [isSetUp, targets, went, ← zipWith_delivery, names]
    rfl

/-- No reason to stop applies to a run that is ready. -/
theorem Ready.not_appliesTo {files : Files} {arguments : Arguments} {setup : Setup}
    {parts : List Part} (ready : Ready files arguments setup parts) (stop : Stop) :
    ¬ stop.AppliesTo files arguments := by
  obtain ⟨_, _, stopped⟩ | ⟨_, settings, data, isSetUp, loaded, checked, read, parsed⟩ :=
    setUp_cases files arguments
  · rw [ready.setUp] at stopped
    cases stopped
  have partRead : ∀ path ∈ arguments.parts, ∃ bytes, files path = some bytes := by
    intro path member
    rw [← ready.names] at member
    obtain ⟨part, inParts, rfl⟩ := List.mem_map.1 member
    exact ⟨part.bytes, ready.read part inParts⟩
  intro applies
  cases stop with
  | badSettings =>
    obtain ⟨problem, failed⟩ := applies
    rw [loaded] at failed
    cases failed
  | badOptions error =>
    obtain ⟨other, same, failed⟩ := applies
    rw [loaded] at same
    obtain rfl := Except.ok.inj same
    rw [checked] at failed
    cases failed
  | unreadable path =>
    obtain ⟨rfl | member, unread⟩ := applies
    · rw [read] at unread
      cases unread
    · obtain ⟨bytes, found⟩ := partRead path member
      rw [found] at unread
      cases unread
  | badModel path =>
    obtain ⟨rfl, bytes, found, failed⟩ := applies
    rw [read] at found
    obtain rfl := Option.some.inj found
    rw [parsed] at failed
    cases failed
  | noFileName part =>
    obtain ⟨member, nothing⟩ := applies
    rw [← ready.names] at member
    obtain ⟨part, inParts, rfl⟩ := List.mem_map.1 member
    exact ready.named part inParts nothing
  | wouldOverwrite part target =>
    obtain ⟨front, back, split, here, other, inFront, before⟩ := applies
    have apart : ((parts.map Part.name).map arguments.target).Nodup := by
      rw [List.map_map]
      exact ready.apart
    rw [ready.names, split, List.map_append, List.map_cons, List.nodup_append] at apart
    have same : arguments.target other = arguments.target part :=
      (targetOf_eq_ok_iff.1 before).2.trans (targetOf_eq_ok_iff.1 here).2.symm
    exact apart.2.2 _ (List.mem_map_of_mem inFront) _ List.mem_cons_self same
  | noDirectory path => exact applies
  | unwritable path => exact applies

end MailMerge.CommandLine
