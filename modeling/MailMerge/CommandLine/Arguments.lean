import MailMerge.Text.Basic

set_option autoImplicit false

namespace MailMerge.CommandLine

structure Arguments where
  /-- The file with the data model. -/
  data : Text
  /-- The settings file, if one is given. -/
  config : Option Text
  /-- The directory for the filled parts. -/
  outDir : Text
  opening : Option Text
  closing : Option Text
  /-- Is every group of paragraphs to be filled? -/
  split : Bool
  /-- The files to fill. -/
  parts : List Text
  deriving Repr, DecidableEq

inductive Request where
  | fill (arguments : Arguments)
  | help
  | version
  /-- The arguments do not fit together. -/
  | misuse
  deriving Repr, DecidableEq

inductive ValueOption where
  | data
  | config
  | outDir
  | opening
  | closing
  deriving Repr, DecidableEq

def ValueOption.name : ValueOption → Text
  | data => "data".toList
  | config => "config".toList
  | outDir => "out-dir".toList
  | opening => "start".toList
  | closing => "end".toList

def ValueOption.all : List ValueOption := [data, config, outDir, opening, closing]

/-- Is the value of an option the path of a file? Such a value is not empty. -/
def ValueOption.isPath : ValueOption → Bool
  | data | config | outDir => true
  | opening | closing => false

structure Draft where
  values : List (ValueOption × Text)
  split : Bool
  /-- The files to fill, the last one first. -/
  parts : List Text

namespace Draft

def empty : Draft := ⟨[], false, []⟩

def value? (option : ValueOption) (draft : Draft) : Option Text :=
  (draft.values.find? fun entry => entry.1 = option).map Prod.snd

/-- Takes the value of an option, which has none so far. -/
def addValue? (option : ValueOption) (value : Text) (draft : Draft) : Option Draft :=
  if (draft.value? option).isSome ∨ (option.isPath ∧ value = []) then none
  else some { draft with values := (option, value) :: draft.values }

def addPart? (part : Text) (draft : Draft) : Option Draft :=
  if part = [] then none else some { draft with parts := part :: draft.parts }

def addParts? (parts : List Text) (draft : Draft) : Option Draft :=
  parts.foldlM (fun draft part => draft.addPart? part) draft

def defaultOutDir : Text := "filled".toList

/-- The request, once all arguments have been read. The data file and a file to fill are needed. -/
def finish (draft : Draft) : Request :=
  match draft.value? .data, draft.parts with
  | some data, last :: earlier =>
    .fill ⟨data, draft.value? .config, (draft.value? .outDir).getD defaultOutDir,
      draft.value? .opening, draft.value? .closing, draft.split, (last :: earlier).reverse⟩
  | _, _ => .misuse

end Draft

inductive Argument where
  /-- Two hyphens. -/
  | ending
  /-- A name behind two hyphens, with the text behind its equals sign. -/
  | long (name : Text) (attached : Option Text)
  /-- Letters behind one hyphen. -/
  | short (letters : Text)
  | plain (text : Text)
  deriving Repr, DecidableEq

/-- The kind of an argument. A single hyphen is a plain text. -/
def Argument.ofText : Text → Argument
  | ['-', '-'] => ending
  | '-' :: '-' :: rest =>
    match Text.cutAt? '=' rest with
    | some (name, value) => long name (some value)
    | none => long rest none
  | '-' :: c :: rest => short (c :: rest)
  | text => plain text

/-- Reads arguments behind those that have been read. Help and version end the reading as soon as
they come up, and so does the first mistake. -/
def requestFrom (draft : Draft) : List Text → Request
  | [] => draft.finish
  | argument :: rest =>
    match Argument.ofText argument with
    | .ending =>
      match draft.addParts? rest with
      | some draft => draft.finish
      | none => .misuse
    | .plain part =>
      match draft.addPart? part with
      | some draft => requestFrom draft rest
      | none => .misuse
    | .short letters =>
      if letters.head? = some 'h' then .help
      else if letters.head? = some 'V' then .version
      else .misuse
    | .long name attached =>
      if name = "help".toList then if attached.isNone then .help else .misuse
      else if name = "version".toList then if attached.isNone then .version else .misuse
      else if name = "split".toList then
        if attached.isNone ∧ !draft.split then requestFrom { draft with split := true } rest
        else .misuse
      else match ValueOption.all.find? fun option => option.name = name with
        | none => .misuse
        | some option =>
          match attached, rest with
          | some value, rest =>
            match draft.addValue? option value with
            | some draft => requestFrom draft rest
            | none => .misuse
          | none, value :: rest =>
            match Argument.ofText value with
            | .plain value =>
              match draft.addValue? option value with
              | some draft => requestFrom draft rest
              | none => .misuse
            | _ => .misuse
          | none, [] => .misuse

def Request.ofArguments (arguments : List Text) : Request := requestFrom Draft.empty arguments

end MailMerge.CommandLine
