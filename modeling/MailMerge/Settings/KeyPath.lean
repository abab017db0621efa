import MailMerge.Settings.Value

set_option autoImplicit false

namespace MailMerge.Settings

inductive Step where
  | name (name : Text)
  /-- An index; a negative one counts from the end of the list. -/
  | index (index : Int)
  deriving Repr, DecidableEq

structure KeyPath where
  head : Text
  steps : List Step
  deriving Repr, DecidableEq

/-- A character of a name: an ASCII letter or digit, an underscore, a hyphen or a space. -/
def isNameChar (c : Char) : Bool := c.isAlphanum || c = '_' || c = '-' || c = ' '

/-- A space or a tab. -/
def isPadding (c : Char) : Bool := c = ' ' || c = '\t'

def index? (text : Text) : Option Int :=
  let core := ((text.dropWhile isPadding).reverse.dropWhile isPadding).reverse
  match core with
  | '-' :: digits =>
    (Text.toNat? digits).bind fun n => if n ≤ 9223372036854775808 then some (-n) else none
  | digits => (Text.toNat? digits).bind fun n => if n ≤ 9223372036854775807 then some n else none

/-- The steps that a text spells, where each takes at least one of `fuel` characters. -/
def stepsOfText? : (fuel : Nat) → Text → Option (List Step)
  | _, [] => some []
  | 0, _ => none
  | fuel + 1, '.' :: rest =>
    let name := rest.takeWhile isNameChar
    if name = [] then none
    else (stepsOfText? fuel (rest.dropWhile isNameChar)).map (.name (Text.lowerAscii name) :: ·)
  | fuel + 1, '[' :: rest => do
    let (inside, behind) ← Text.cutAt? ']' rest
    let index ← index? inside
    let steps ← stepsOfText? fuel behind
    return .index index :: steps
  | _, _ => none

def KeyPath.ofText? (text : Text) : Option KeyPath :=
  let head := text.takeWhile isNameChar
  if head = [] then none
  else
    (stepsOfText? text.length (text.dropWhile isNameChar)).map fun steps =>
      ⟨Text.lowerAscii head, steps⟩

/-- The entries of a table; a setting of another kind has none. -/
def Setting.entries : Setting → List (Text × Setting)
  | table entries => entries
  | _ => []

/-- The items of a list; a setting of another kind has none. -/
def Setting.items : Setting → List Setting
  | list items => items
  | _ => []

def setEntry (name : Text) (setting : Setting) : List (Text × Setting) → List (Text × Setting)
  | [] => [(name, setting)]
  | (other, old) :: rest =>
    if other = name then (other, setting) :: rest else (other, old) :: setEntry name setting rest

/-- A name in lower case. Besides the ASCII letters only the Kelvin sign has one of them as its
lower case, and names with other letters are not asked for. -/
def lowerName (name : Text) : Text :=
  Text.lowerAscii (name.map fun c => if c = '\u212a' then 'k' else c)

mutual

/-- Puts a setting under a name. Tables are merged entry by entry, anything else takes the place of
what was there. -/
def mergeEntry (name : Text) (incoming : Setting) (entries : List (Text × Setting)) :
    List (Text × Setting) :=
  let key := lowerName name
  let old := (entries.find? fun entry => entry.1 = key).map Prod.snd
  match incoming with
  | .table added =>
    setEntry key (mergeEntries added (old.getD (.table []))) entries
  | other => setEntry key other entries

/-- Merges entries into a setting, which becomes a table as soon as there is one to merge. -/
def mergeEntries (added : List (Text × Setting)) (target : Setting) : Setting :=
  match added with
  | [] => target
  | (name, incoming) :: rest =>
    mergeEntries rest (.table (mergeEntry name incoming target.entries))

end

/-- A list that is long enough for an index, and the place of the index in it. It is lengthened at
its end, or at its front for an index that counts from the end and leads past the front. -/
def makePlace (index : Int) (items : List Setting) : List Setting × Nat :=
  if 0 ≤ index then
    (items ++ List.replicate (index.toNat + 1 - items.length) .unset, index.toNat)
  else
    (List.replicate (index.natAbs - items.length) .unset ++ items, items.length - index.natAbs)

/-- Sets what lies at the end of further steps. A setting of the wrong kind on the way becomes a
table or a list. -/
def setAt (setting : Setting) : List Step → Setting → Setting
  | [], _ => setting
  | [.name name], target => .table (mergeEntry name setting target.entries)
  | .name name :: rest, target =>
    let inner := ((target.entries.find? fun entry => entry.1 = name).map Prod.snd).getD .unset
    .table (setEntry name (setAt setting rest inner) target.entries)
  | .index index :: rest, target =>
    let (items, place) := makePlace index target.items
    .list (items.set place (setAt setting rest (items[place]?.getD .unset)))

def KeyPath.set (path : KeyPath) (setting : Setting) (root : Setting) : Setting :=
  setAt setting (.name path.head :: path.steps) root

end MailMerge.Settings
