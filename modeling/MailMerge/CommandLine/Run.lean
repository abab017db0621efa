import MailMerge.CommandLine.Arguments
import MailMerge.CommandLine.FileTree
import MailMerge.Fill.Parts
import MailMerge.Json.Reader
import MailMerge.Model.Resolver
import MailMerge.Settings.Layers

set_option autoImplicit false

namespace MailMerge.CommandLine

open Fill (PartResult Processor Report Warning)
open Settings (Layers Setting)

/-- Why a run stops. Paths are those of the command line. -/
inductive Stop where
  | badSettings
  | badOptions (error : Error)
  | unreadable (path : Text)
  | badModel (path : Text)
  | noFileName (path : Text)
  | wouldOverwrite (path target : Text)
  | noDirectory (path : Text)
  | unwritable (path : Text)
  deriving Repr, DecidableEq

def Stop.message : Stop → String
  | badSettings => "failed to load settings"
  | badOptions error => s!"invalid settings: {error.message}"
  | unreadable path => s!"failed to read {String.ofList path}"
  | badModel path => s!"{String.ofList path} is not valid JSON"
  | noFileName path => s!"{String.ofList path} has no file name"
  | wouldOverwrite path target =>
    let place := String.ofList target
    s!"{String.ofList path} would overwrite another part at {place}"
  | noDirectory path => s!"failed to create {String.ofList path}"
  | unwritable path => s!"failed to write {String.ofList path}"

inductive Record where
  | filled (part : Text) (replaced unresolved : Nat)
  | failed (part : Text) (error : Error)
  | done (parts failed : Nat) (total : Report)
  | stopped (reason : Stop)
  deriving Repr, DecidableEq

/-- A character of a log message. The control characters that a terminal acts on are written as
escapes. -/
def messageChar (c : Char) : Text :=
  if c = '\x07' then ['\\', 'x', '0', '7']
  else if c = '\x08' then ['\\', 'x', '0', '8']
  else if c = '\x0c' then ['\\', 'x', '0', 'c']
  else if c = '\x1b' then ['\\', 'x', '1', 'b']
  else if c = '\x7f' then ['\\', 'x', '7', 'f']
  else if 0x80 ≤ c.toNat ∧ c.toNat ≤ 0x9F then Text.codePointEscape c
  else [c]

def logged (message : String) : String := String.ofList (message.toList.flatMap messageChar)

/-- A record as a line of the log. The fields of a record are written as they are. -/
def Record.line : Record → String
  | .filled part replaced unresolved =>
    s!"INFO filled part={String.ofList part} replaced={replaced} unresolved={unresolved}"
  | .failed part cause => s!"ERROR part failed part={String.ofList part} err={cause.message}"
  | .done parts broken total =>
    let counts := s!"replaced={total.replaced} unresolved={total.unresolved}"
    s!"INFO done parts={parts} failed={broken} {counts} " ++
      s!"truncated_paragraphs={total.truncatedParagraphs}"
  | .stopped reason => s!"ERROR {logged reason.message}"

def warningLine (warning : Warning) : String :=
  let name := String.ofList warning.container
  s!"WARN paragraphs after a non-paragraph sibling were not filled container={name} " ++
    s!"skipped={warning.skipped}"

/-- What stands for a file: its bytes, if it can be read. -/
abbrev Files := Text → Option (List UInt8)

/-- A path without the separators and points at its end. -/
def trimPath (path : Text) : Text :=
  let rec trim : Text → Text
    | '/' :: rest => trim rest
    | '.' :: '/' :: rest => trim rest
    | rest => rest
  (trim path.reverse).reverse

/-- The path of a settings file with the usual ending added, unless the path ends in no name. -/
def withEnding? (path : Text) : Option Text :=
  let trimmed := trimPath path
  if ((segmentsOf trimmed).getLast?.map isName).getD false then some (trimmed ++ ".toml".toList)
  else none

/-- The settings file at a path, or else at the path with the usual ending. -/
def configContent (files : Files) (path : Text) : Option (List UInt8) :=
  match files path with
  | some bytes => some bytes
  | none => (withEnding? path).bind files

/-- The settings of a run: those of the settings file under those of the command line. -/
def loadSettings (files : Files) (arguments : Arguments) : Except Settings.LoadError Settings := do
  let layers : Layers :=
    match arguments.config with
    | some path => Layers.empty.addFile ⟨true, configContent files path⟩
    | none => Layers.empty
  let opened ← match arguments.opening with
    | some text => layers.override "delimiters.start".toList (.text text)
    | none => .ok layers
  let closed ← match arguments.closing with
    | some text => opened.override "delimiters.end".toList (.text text)
    | none => .ok opened
  let layered ←
    if arguments.split then
      closed.override "walker.sibling_policy".toList (.text "split".toList)
    else .ok closed
  layered.load

/-- A path below a directory. The path of a directory may be empty, or end in a separator. -/
def below (directory : Text) (names : List Text) : Text :=
  if directory = [] ∨ directory.getLast? = some '/' then directory ++ joinNames names
  else directory ++ '/' :: joinNames names

/-- Where a part goes in the output directory: to the names in its path. -/
def targetOf (outDir part : Text) : Except Stop Text :=
  match namesOf part with
  | [] => .error (.noFileName part)
  | names => .ok (below outDir names)

/-- The first part whose target is that of an earlier one, with its target. -/
def findClash (seen : List Text) : List (Text × Text) → Option (Text × Text)
  | [] => none
  | (part, target) :: rest =>
    if seen.contains target then some (part, target) else findClash (target :: seen) rest

/-- The targets of parts, if each part has one of its own. -/
def targetsOf (outDir : Text) (parts : List Text) : Except Stop (List Text) := do
  let targets ← parts.mapM (targetOf outDir)
  match findClash [] (parts.zip targets) with
  | some (part, target) => .error (.wouldOverwrite part target)
  | none => return targets

def readFile (files : Files) (path : Text) : Except Stop (List UInt8) :=
  match files path with
  | some bytes => .ok bytes
  | none => .error (.unreadable path)

structure Setup where
  processor : Processor
  model : Json.Value
  /-- How many answers of the model are remembered. -/
  capacity : Nat

def setUp (files : Files) (arguments : Arguments) : Except Stop Setup := do
  let settings ← match loadSettings files arguments with
    | .ok settings => .ok settings
    | .error _ => .error .badSettings
  let processor ← match Processor.ofOptions settings.toOptions with
    | .ok processor => .ok processor
    | .error error => .error (.badOptions error)
  let data ← readFile files arguments.data
  match Json.ofBytes? data with
  | some model => return ⟨processor, model, settings.cacheCapacity⟩
  | none => .error (.badModel arguments.data)

def readParts (files : Files) (paths : List Text) : Except Stop (List Fill.Part) :=
  paths.mapM fun path => do
    let bytes ← readFile files path
    return ⟨path, bytes⟩

def Setup.fill (setup : Setup) (parts : List Fill.Part) : List PartResult :=
  let resolver := Model.Resolver.ofModel setup.capacity setup.model
  ((Fill.fillParts setup.processor parts).runWith Model.Resolver.resolve resolver).1

/-- A part that is ready to be written, or its error. -/
structure Delivery where
  /-- Where the filled part goes. -/
  target : Text
  result : PartResult

def prepare (files : Files) (arguments : Arguments) : Except Stop (List Delivery) := do
  let setup ← setUp files arguments
  let targets ← targetsOf arguments.outDir arguments.parts
  let parts ← readParts files arguments.parts
  return List.zipWith Delivery.mk targets (setup.fill parts)

def Delivery.record (delivery : Delivery) : Record :=
  match delivery.result.outcome.result with
  | .ok replaced =>
    .filled delivery.result.name replaced.report.replaced replaced.report.unresolved
  | .error error => .failed delivery.result.name error

def failures (deliveries : List Delivery) : Nat :=
  deliveries.countP fun delivery => delivery.result.report?.isNone

def summary (deliveries : List Delivery) : Record :=
  .done deliveries.length (failures deliveries) (Fill.totalReport (deliveries.map (·.result)))

structure Outcome where
  exitCode : Nat
  records : List Record
  warnings : List Warning
  /-- The files that are there at the end. -/
  tree : FileTree

/-- The directory of a target, without separators and points at its end. -/
def directoryOf (target : Text) : Text :=
  let outer := (target.reverse.dropWhile (· ≠ '/')).reverse
  let trimmed := trimPath outer
  if trimmed = [] ∧ isAbsolute outer then ['/'] else trimmed

/-- Writes the parts that were filled, in order, with a record for each part. -/
def deliver (system : FileSystem) : List Delivery → List Record × FileSystem × Option Stop
  | [] => ([], system, none)
  | delivery :: rest =>
    match delivery.result.outcome.result with
    | .error _ =>
      let (records, final, stop) := deliver system rest
      (delivery.record :: records, final, stop)
    | .ok replaced =>
      match system.write delivery.target replaced.bytes with
      | .error .noDirectory => ([], system, some (.noDirectory (directoryOf delivery.target)))
      | .error .noFile => ([], system, some (.unwritable delivery.target))
      | .ok written =>
        let (records, final, stop) := deliver written rest
        (delivery.record :: records, final, stop)

def fill (system : FileSystem) (arguments : Arguments) : Outcome :=
  match prepare system.read? arguments with
  | .error stop => ⟨1, [.stopped stop], [], system.tree⟩
  | .ok deliveries =>
    let warnings := deliveries.flatMap fun delivery => delivery.result.outcome.warnings
    match deliver system deliveries with
    | (records, final, some stop) => ⟨1, records ++ [.stopped stop], warnings, final.tree⟩
    | (records, final, none) =>
      let exitCode := if failures deliveries = 0 then 0 else 1
      ⟨exitCode, records ++ [summary deliveries], warnings, final.tree⟩

/-- Runs a command line. All input is read and checked before anything is written. -/
def runIn (system : FileSystem) (arguments : List Text) : Outcome :=
  match Request.ofArguments arguments with
  | .fill arguments => fill system arguments
  | .help | .version => ⟨0, [], [], system.tree⟩
  | .misuse => ⟨2, [], [], system.tree⟩

/-- Runs a command line in a directory of which nothing is known but its files. -/
def run (tree : FileTree) (arguments : List Text) : Outcome :=
  let outcome := runIn (.ofTree tree) arguments
  { outcome with tree := (FileSystem.mk outcome.tree [[]]).here }

end MailMerge.CommandLine
