import MailMerge.Settings.Toml.Scalar
import MailMerge.Settings.Toml.Table

set_option autoImplicit false

namespace MailMerge.Settings.Toml

/-- How deep arrays and tables in braces may be nested, and how many names a key may have. -/
def maxDepth : Nat := 79

def isBareKeyChar (c : Char) : Bool := c.isAlphanum || c = '_' || c = '-'

def takeName? (text : Text) : Option (Taken Text text) :=
  let read := match text with
    | '"' :: rest => takeBasic? rest
    | '\'' :: rest => takeLiteral? rest
    | _ =>
      let name := text.takeWhile isBareKeyChar
      if name = [] then none else some (name, text.dropWhile isBareKeyChar)
  read.bind fun (name, rest) => Taken.ofRest? name rest

def takeNames? (text : Text) : Option (Taken (List Text) text) :=
  match takeName? (skipBlanks text) with
  | none => none
  | some name =>
    match skipBlanks name.rest with
    | '.' :: rest =>
      if _shorter : rest.length < text.length then
        (takeNames? rest).bind fun names => Taken.ofRest? (name.value :: names.value) names.rest
      else none
    | rest => Taken.ofRest? [name.value] rest
termination_by text.length

def takeKey? (text : Text) : Option (Taken (List Text) text) :=
  (takeNames? text).filter fun names => names.value.length ≤ maxDepth

/-- A dotted key as the path of its table and its last name. -/
def splitKey? (names : List Text) : Option (List Text × Text) :=
  names.getLast?.map fun last => (names.dropLast, last)

/-- Skips blanks, ends of lines and comments, each comment with the end of its line. -/
def skipTrivia? (text : Text) : Option Text :=
  let here := skipBlanks text
  match here with
  | '#' :: _ =>
    match takeNewline? (skipComment here) with
    | none => none
    | some rest => if _shorter : rest.length < text.length then skipTrivia? rest else none
  | '\r' :: _ | '\n' :: _ =>
    match takeNewline? here with
    | none => none
    | some rest => if _shorter : rest.length < text.length then skipTrivia? rest else none
  | _ => some here
termination_by text.length

mutual

def takeValue? (depth : Nat) (text : Text) : Option (Taken Value text) :=
  match text with
  | [] => none
  | c :: rest =>
    if c = '[' then
      match depth with
      | 0 => none
      | depth + 1 =>
        (takeItems? depth [] rest).bind fun items => Taken.ofRest? (.list items.value) items.rest
    else if c = '{' then
      match depth with
      | 0 => none
      | depth + 1 =>
        match skipBlanks rest with
        | '}' :: behind => Taken.ofRest? (.table []) behind
        | _ =>
          (takePairs? depth [] rest).bind fun pairs =>
            Taken.ofRest? (.table (valuesOf pairs.value)) pairs.rest
    else (takeScalar? (c :: rest)).bind fun (value, rest) => Taken.ofRest? value rest
termination_by 2 * text.length

/-- Reads the items of an array behind those that are already there, and its closing bracket. A
comma may follow the last item. -/
def takeItems? (depth : Nat) (items : List Value) (text : Text) :
    Option (Taken (List Value) text) :=
  match skipTrivia? text with
  | none => none
  | some (']' :: behind) => Taken.ofRest? items.reverse behind
  | some here =>
    if _bound : here.length ≤ text.length then
      match takeValue? depth here with
      | none => none
      | some item =>
        match skipTrivia? item.rest with
        | some (']' :: behind) => Taken.ofRest? (item.value :: items).reverse behind
        | some (',' :: behind) =>
          if _shorter : behind.length < text.length then
            (takeItems? depth (item.value :: items) behind).bind fun others =>
              Taken.ofRest? others.value others.rest
          else none
        | _ => none
    else none
termination_by 2 * text.length + 1

/-- Reads the pairs of a table in braces behind those that are already there, and its closing
brace. -/
def takePairs? (depth : Nat) (entries : Entries) (text : Text) : Option (Taken Entries text) :=
  match takeKey? text with
  | none => none
  | some names =>
    match skipBlanks names.rest, splitKey? names.value with
    | '=' :: valued, some (path, key) =>
      if _shorter : (skipBlanks valued).length < text.length then
        match takeValue? depth (skipBlanks valued) with
        | none => none
        | some value =>
          match addValue path key value.value entries with
          | none => none
          | some entries =>
            match skipBlanks value.rest with
            | '}' :: behind => Taken.ofRest? entries behind
            | ',' :: behind =>
              if _shorter : behind.length < text.length then
                (takePairs? depth entries behind).bind fun others =>
                  Taken.ofRest? others.value others.rest
              else none
            | _ => none
      else none
    | _, _ => none
termination_by 2 * text.length + 1

end

/-- Reads the rest of a line behind a header or a pair: blanks, perhaps a comment, and the end of
the line or of the document. -/
def takeLineEnd? (text : Text) : Option Text :=
  match skipComment (skipBlanks text) with
  | [] => some []
  | rest => takeNewline? rest

structure Draft where
  entries : Entries
  /-- The path of the table that the pairs belong to. -/
  header : List Text

def takeHeader? (draft : Draft) (text : Text) : Option (Draft × Text) :=
  match text with
  | '[' :: '[' :: rest => do
    let names ← takeKey? rest
    let (path, key) ← splitKey? names.value
    match names.rest with
    | ']' :: ']' :: behind => do
      let entries ← addTables path key draft.entries
      return (⟨entries, names.value⟩, behind)
    | _ => none
  | '[' :: rest => do
    let names ← takeKey? rest
    let (path, key) ← splitKey? names.value
    match names.rest with
    | ']' :: behind => do
      let entries ← addTable path key draft.entries
      return (⟨entries, names.value⟩, behind)
    | _ => none
  | _ => none

def takePair? (draft : Draft) (text : Text) : Option (Draft × Text) := do
  let names ← takeKey? text
  let (path, key) ← splitKey? names.value
  match skipBlanks names.rest with
  | '=' :: rest =>
    let value ← takeValue? maxDepth (skipBlanks rest)
    let entries ← addValueUnder draft.header path key value.value draft.entries
    return (⟨entries, draft.header⟩, value.rest)
  | _ => none

def takeLines? (draft : Draft) (text : Text) : Option Draft :=
  match skipBlanks text with
  | [] => some draft
  | c :: rest =>
    let read :=
      if c = '#' ∨ c = '\n' ∨ c = '\r' then (takeLineEnd? (c :: rest)).map (draft, ·)
      else if c = '[' then
        (takeHeader? draft (c :: rest)).bind fun (draft, rest) =>
          (takeLineEnd? rest).map (draft, ·)
      else
        (takePair? draft (c :: rest)).bind fun (draft, rest) => (takeLineEnd? rest).map (draft, ·)
    match read with
    | none => none
    | some (draft, behind) =>
      if _shorter : behind.length < text.length then takeLines? draft behind else none
termination_by text.length

/-- The root table of a document. A byte order mark in front of it does not count. -/
def rootOfText? (text : Text) : Option Value :=
  let text := match text with
    | '\uFEFF' :: rest => rest
    | _ => text
  (takeLines? ⟨[], []⟩ text).map fun draft => .table (valuesOf draft.entries)

def ofText? (text : Text) : Option (List (Text × Setting)) :=
  match (rootOfText? text).bind Value.toSetting? with
  | some (.table entries) => some entries
  | _ => none

end MailMerge.Settings.Toml
