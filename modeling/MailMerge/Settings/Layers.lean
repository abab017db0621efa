import MailMerge.Settings.Basic
import MailMerge.Settings.KeyPath
import MailMerge.Settings.Toml.Document
import MailMerge.Text.Utf8

set_option autoImplicit false

namespace MailMerge.Settings

structure SettingsFile where
  /-- Does the file have to be there? -/
  isRequired : Bool
  /-- The bytes of the file, if it is there. -/
  content : Option (List UInt8)
  deriving Repr, DecidableEq

/-- What is laid over the built-in defaults, in the order in which it was given. -/
structure Layers where
  files : List SettingsFile
  overrides : List (KeyPath × Setting)
  deriving Repr

namespace Layers

def empty : Layers := ⟨[], []⟩

def addFile (file : SettingsFile) (layers : Layers) : Layers :=
  { layers with files := layers.files ++ [file] }

def override (path : Text) (setting : Setting) (layers : Layers) : Except LoadError Layers :=
  match KeyPath.ofText? path with
  | some keyPath => .ok { layers with overrides := layers.overrides ++ [(keyPath, setting)] }
  | none => .error (.badPath path)

end Layers

def defaults : Setting :=
  let name (text : String) : Setting := .text text.toList
  .table
    [("delimiters".toList, .table
        [("start".toList, .text Delimiters.standard.opening),
          ("end".toList, .text Delimiters.standard.closing)]),
      ("vocabulary".toList, .table
        [("paragraph".toList, name "w:p"), ("run".toList, name "w:r"), ("text".toList, name "w:t"),
          ("properties".toList, name "w:rPr")]),
      ("parser".toList, .table [("lookahead".toList, .integer Markup.defaultLookahead)]),
      ("walker".toList, .table [("sibling_policy".toList, name "truncate")]),
      ("resolver".toList, .table [("cache_capacity".toList, .integer 256)])]

/-- Lays the entries of a file over a tree of settings. A key that spells a path is a path. -/
def layEntries (entries : List (Text × Setting)) (root : Setting) : Setting :=
  entries.foldl (fun root (key, setting) =>
    match KeyPath.ofText? key with
    | some path => path.set setting root
    | none => .table (mergeEntry key setting root.entries)) root

def layFile (root : Setting) (file : SettingsFile) : Except LoadError Setting :=
  match file.content with
  | none => if file.isRequired then .error .missingFile else .ok root
  | some bytes =>
    match (Utf8.decode bytes).toOption.bind Toml.ofText? with
    | some entries => .ok (layEntries entries root)
    | none => .error .badFile

def required? (name : String) (place : Nat) (group : Setting) : Option Setting :=
  group.field? name.toList place

def textField? (name : String) (place : Nat) (group : Setting) : Option Text :=
  (required? name place group).bind Setting.toText?

def countField? (name : String) (place : Nat) (group : Setting) : Option Nat :=
  (required? name place group).bind Setting.toCount?

/-- The text of a field, or another text when the field is not there. -/
def textFieldOr? (name : String) (place : Nat) (default : Text) (group : Setting) : Option Text :=
  match required? name place group with
  | some setting => setting.toText?
  | none => some default

def delimitersOf? (group : Setting) : Option Delimiters := do
  let opening ← textField? "start" 0 group
  let closing ← textField? "end" 1 group
  return ⟨opening, closing⟩

/-- The vocabulary of a group of settings. The properties alone may be missing. -/
def vocabularyOf? (group : Setting) : Option Vocabulary := do
  let paragraph ← textField? "paragraph" 0 group
  let run ← textField? "run" 1 group
  let text ← textField? "text" 2 group
  let properties ← textFieldOr? "properties" 3 Vocabulary.standard.properties group
  return ⟨paragraph, run, text, properties⟩

def policyOf? (setting : Setting) : Option SiblingPolicy :=
  match setting.toChoice? with
  | some word =>
    if word = "truncate".toList then some .truncate
    else if word = "split".toList then some .split
    else none
  | none => none

def settingsOf? (root : Setting) : Option Settings := do
  let delimiters ← (required? "delimiters" 0 root).bind delimitersOf?
  let vocabulary ← (required? "vocabulary" 1 root).bind vocabularyOf?
  let lookahead ← (required? "parser" 2 root).bind (countField? "lookahead" 0)
  let policy ← ((required? "walker" 3 root).bind (required? "sibling_policy" 0)).bind policyOf?
  let capacity ← (required? "resolver" 4 root).bind (countField? "cache_capacity" 0)
  return ⟨delimiters, vocabulary, lookahead, policy, capacity⟩

def Layers.load (layers : Layers) : Except LoadError Settings := do
  let laid ← layers.files.foldlM layFile defaults
  let root := layers.overrides.foldl (fun root (path, setting) => path.set setting root) laid
  match settingsOf? root with
  | some settings => return settings
  | none => .error .badSetting

end MailMerge.Settings
