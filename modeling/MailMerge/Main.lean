import MailMerge.CommandLine.Run

set_option autoImplicit false

namespace MailMerge

open CommandLine

def usage : String :=
  "Fill placeholders in word-processing document parts from a JSON model.\n\n" ++
  "Usage: mailmerge [OPTIONS] --data <DATA> <PARTS>...\n\n" ++
  "Arguments:\n" ++
  "  <PARTS>...           Part files, e.g. word/document.xml word/header1.xml\n\n" ++
  "Options:\n" ++
  "      --data <DATA>        JSON file holding the data model\n" ++
  "      --config <CONFIG>    TOML settings layered over the built-in defaults\n" ++
  "      --out-dir <OUT_DIR>  Directory the filled parts are written to [default: filled]\n" ++
  "      --start <START>      Start delimiter override\n" ++
  "      --end <END>          End delimiter override\n" ++
  "      --split              Fill every paragraph group, not only the leading ones\n" ++
  "  -h, --help               Print help\n" ++
  "  -V, --version            Print version"

def readBytes (path : Text) : IO (Option (List UInt8)) := do
  try
    let bytes ← IO.FS.readBinFile (String.ofList path)
    return some bytes.toList
  catch _ => return none

def pathsOf (arguments : Arguments) : List Text :=
  let config := arguments.config.toList
  arguments.data :: config ++ config.filterMap withEnding? ++ arguments.parts

def succeeds (action : IO Unit) : IO Bool := do
  try
    action
    return true
  catch _ => return false

/-- Writes a file and makes the directories that lead to it. -/
def writeBytes (path : Text) (bytes : List UInt8) : IO (Option Stop) := do
  let directory := directoryOf path
  let made ←
    if directory.isEmpty then pure true
    else succeeds (IO.FS.createDirAll (String.ofList directory))
  if !made then return some (.noDirectory directory)
  let written ← succeeds (IO.FS.writeBinFile (String.ofList path) ⟨bytes.toArray⟩)
  return if written then none else some (.unwritable path)

/-- Writes the parts that were filled, in order, and tells about each part. -/
def deliverAll : List Delivery → IO (Option Stop)
  | [] => return none
  | delivery :: rest => do
    match delivery.result.outcome.result with
    | .error _ =>
      IO.println delivery.record.line
      deliverAll rest
    | .ok replaced =>
      match ← writeBytes delivery.target replaced.bytes with
      | some stop => return some stop
      | none =>
        IO.println delivery.record.line
        deliverAll rest

def fillFiles (arguments : Arguments) : IO UInt32 := do
  let contents ← (pathsOf arguments).mapM fun path => return (path, ← readBytes path)
  let files : Files := fun path => (contents.find? fun entry => entry.1 = path).bind Prod.snd
  match prepare files arguments with
  | .error stop =>
    IO.println (Record.stopped stop).line
    return 1
  | .ok deliveries =>
    for delivery in deliveries do
      for warning in delivery.result.outcome.warnings do
        IO.println (warningLine warning)
    match ← deliverAll deliveries with
    | some stop =>
      IO.println (Record.stopped stop).line
      return 1
    | none =>
      IO.println (summary deliveries).line
      return if failures deliveries = 0 then 0 else 1

end MailMerge

def main (arguments : List String) : IO UInt32 := do
  match MailMerge.CommandLine.Request.ofArguments (arguments.map String.toList) with
  | .fill request => MailMerge.fillFiles request
  | .help =>
    IO.println MailMerge.usage
    return 0
  | .version =>
    IO.println "mailmerge 0.1.0"
    return 0
  | .misuse =>
    IO.eprintln MailMerge.usage
    return 2
