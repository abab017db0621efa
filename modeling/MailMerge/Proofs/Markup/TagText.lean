import MailMerge.Proofs.Markup.Writable
import Mathlib.Data.List.TakeWhile

set_option autoImplicit false

namespace MailMerge.Markup

/-- Nothing but space. -/
def Blank (text : Text) : Prop := ∀ c, c ∈ text → isSpace c = true

/-- A text does not begin with a character of a kind. -/
def Stops (kind : Char → Bool) (text : Text) : Prop := ∀ c, c ∈ text.head? → kind c = false

instance (text : Text) : Decidable (Blank text) :=
  decidable_of_iff (text.all isSpace = true) List.all_eq_true

instance (kind : Char → Bool) (text : Text) : Decidable (Stops kind text) :=
  decidable_of_iff (text.head?.any kind = false) (by cases text <;> simp [Stops])

/-- An attribute: a name, an equals sign and a value in double quotes. Space may stand around the
sign. -/
inductive AttributeText : Attribute → Text → Prop
  | intro {attr : Attribute} {before behind : Text} (isName : IsName attr.name)
      (spaceBefore : Blank before) (spaceBehind : Blank behind) (unquoted : '"' ∉ attr.value) :
      AttributeText attr
        (attr.name ++ (before ++ '=' :: (behind ++ '"' :: (attr.value ++ ['"']))))

/-- What stands behind the name of a start tag. Space may stand in front of each attribute and of
the end. -/
inductive TagEndText : List Attribute → Bool → Text → Prop
  | nil {closed : Bool} {space : Text} (blank : Blank space) :
      TagEndText [] closed (space ++ tagEnd closed)
  | cons {attr : Attribute} {attributes : List Attribute} {closed : Bool} {space own rest : Text}
      (blank : Blank space) (first : AttributeText attr own)
      (others : TagEndText attributes closed rest) :
      TagEndText (attr :: attributes) closed (space ++ (own ++ rest))

/-- A start tag. The name is as long as it can be. -/
inductive StartTagText : StartTag → Text → Prop
  | intro {tag : StartTag} {rest : Text} (isName : IsName tag.name)
      (longest : Stops isNameChar rest) (inside : TagEndText tag.attributes tag.selfClosing rest) :
      StartTagText tag ('<' :: (tag.name ++ rest))

/-- An end tag. Space may stand behind the name. -/
inductive EndTagText : Text → Text → Prop
  | intro {name space : Text} (isName : IsName name) (blank : Blank space) :
      EndTagText name ('<' :: '/' :: (name ++ (space ++ ['>'])))

section

variable {kind : Char → Bool} {front rest : Text}

theorem stops_dropWhile (kind : Char → Bool) (text : Text) : Stops kind (text.dropWhile kind) := by
  intro c first
  have head := List.head?_dropWhile_not kind text
  rw [Option.mem_def.1 first] at head
  exact head

theorem stops_cons {c : Char} (other : kind c = false) : Stops kind (c :: rest) := by
  intro d first
  rw [List.head?_cons, Option.mem_some_iff] at first
  rwa [← first]

theorem takeWhile_append (all : ∀ c, c ∈ front → kind c = true) (stops : Stops kind rest) :
    (front ++ rest).takeWhile kind = front := by
  rw [List.takeWhile_append_of_pos all]
  cases rest with
  | nil => simp
  | cons c rest =>
    have other := stops c rfl
    rw [List.takeWhile_cons_of_neg (by simp [other]), List.append_nil]

theorem dropWhile_append (all : ∀ c, c ∈ front → kind c = true) (stops : Stops kind rest) :
    (front ++ rest).dropWhile kind = rest := by
  rw [List.dropWhile_append_of_pos all]
  cases rest with
  | nil => rfl
  | cons c rest =>
    have other := stops c rfl
    rw [List.dropWhile_cons_of_neg (by simp [other])]

theorem skipWhile_append (all : ∀ c, c ∈ front → kind c = true) (stops : Stops kind rest)
    (offset : Nat) : Reader.skipWhile kind ⟨offset, front ++ rest⟩
      = ⟨offset + Text.byteLength front, rest⟩ := by
  rw [Reader.skipWhile]
  simp only [takeWhile_append all stops, dropWhile_append all stops]

end

theorem blank_nil : Blank [] := fun _ member => absurd member List.not_mem_nil

theorem Blank.append {first second : Text} (blank : Blank first) (other : Blank second) :
    Blank (first ++ second) := fun c member =>
  (List.mem_append.1 member).elim (blank c) (other c)

/-- Space is skipped up to the first other character. -/
theorem exists_blank_skipSpace (reader : Reader) :
    ∃ space, Blank space ∧ reader.rest = space ++ reader.skipSpace.rest ∧
      Stops isSpace reader.skipSpace.rest :=
  ⟨reader.rest.takeWhile isSpace, fun _ member => List.mem_takeWhile_imp member,
    List.takeWhile_append_dropWhile.symm, stops_dropWhile isSpace reader.rest⟩

theorem skipSpace_append {space rest : Text} (blank : Blank space) (stops : Stops isSpace rest)
    (offset : Nat) :
    Reader.skipSpace ⟨offset, space ++ rest⟩ = ⟨offset + Text.byteLength space, rest⟩ :=
  skipWhile_append blank stops offset

theorem skipSpace_eq_self {reader : Reader} (stops : Stops isSpace reader.rest) :
    reader.skipSpace = reader :=
  skipSpace_append blank_nil stops reader.offset

theorem isNameChar_false_of_isSpace {c : Char} (space : isSpace c = true) :
    isNameChar c = false := by
  simp only [isSpace, Bool.or_eq_true, decide_eq_true_eq] at space
  rcases space with ((rfl | rfl) | rfl) | rfl <;> decide

theorem isName_of_readName? {reader after : Reader} {name : Text}
    (success : reader.readName? = some (name, after)) : IsName name := by
  unfold Reader.readName? at success
  split at success
  · cases success
  · rename_i c rest whole
    split at success
    · rename_i begins
      cases success
      rw [whole, List.takeWhile_cons_of_pos (isNameChar_of_isNameStart begins)]
      exact ⟨c, _, rfl, begins, fun d member => List.mem_takeWhile_imp member⟩
    · cases success

/-- A name is the longest one at the place. -/
theorem rest_of_readName? {reader after : Reader} {name : Text}
    (success : reader.readName? = some (name, after)) :
    reader.rest = name ++ after.rest ∧ Stops isNameChar after.rest := by
  unfold Reader.readName? at success
  split at success
  · cases success
  · split at success
    · cases success
      exact ⟨List.takeWhile_append_dropWhile.symm, stops_dropWhile isNameChar reader.rest⟩
    · cases success

theorem readName?_append {name rest : Text} (isName : IsName name)
    (longest : Stops isNameChar rest) (offset : Nat) :
    Reader.readName? ⟨offset, name ++ rest⟩
      = some (name, ⟨offset + Text.byteLength name, rest⟩) := by
  have all := fun c (member : c ∈ name) => isName.forall_isNameChar member
  rw [Reader.readName?, skipWhile_append all longest]
  simp only [takeWhile_append all longest]
  obtain ⟨first, others, rfl, begins, _⟩ := isName
  simp [begins]

theorem Blank.stops_name {space rest : Text} {c : Char} (blank : Blank space)
    (other : isNameChar c = false) : Stops isNameChar (space ++ c :: rest) := by
  cases space with
  | nil => exact stops_cons other
  | cons d space =>
    have spaced := blank d List.mem_cons_self
    exact stops_cons (isNameChar_false_of_isSpace spaced)

theorem cutAt?_eq_some {separator : Char} {text before after : Text}
    (success : Text.cutAt? separator text = some (before, after)) :
    separator ∉ before ∧ text = before ++ separator :: after := by
  induction text generalizing before with
  | nil => cases success
  | cons c rest ih =>
    rw [Text.cutAt?] at success
    split at success
    · rename_i same
      cases success
      exact ⟨List.not_mem_nil, by rw [same, List.nil_append]⟩
    · rename_i other
      obtain ⟨⟨shorter, behind⟩, cut, same⟩ := Option.map_eq_some_iff.1 success
      cases same
      obtain ⟨absent, whole⟩ := ih cut
      exact ⟨List.not_mem_cons_of_ne_of_not_mem (Ne.symm other) absent, by
        rw [whole, List.cons_append]⟩

theorem attributeText_of_readAttribute {reader after : Reader} {attr : Attribute}
    (success : readAttribute reader = .ok (attr, after)) :
    ∃ text, AttributeText attr text ∧ reader.rest = text ++ after.rest := by
  unfold readAttribute at success
  split at success
  · cases success
  · rename_i name afterName named
    dsimp only at success
    split at success
    · rename_i behindEquals atEquals
      split at success
      · rename_i behindQuote atQuote
        split at success
        · rename_i value rest cut
          cases success
          obtain ⟨whole, _⟩ := rest_of_readName? named
          obtain ⟨before, spaceBefore, equals, _⟩ := exists_blank_skipSpace afterName
          obtain ⟨behind, spaceBehind, quote, _⟩ :=
            exists_blank_skipSpace afterName.skipSpace.skipChar
          obtain ⟨unquoted, closed⟩ := cutAt?_eq_some cut
          have isName : IsName (⟨name, value⟩ : Attribute).name := isName_of_readName? named
          have afterEquals : afterName.skipSpace.skipChar.rest = behindEquals := by
            rw [Reader.skipChar, atEquals]
          have afterQuote : afterName.skipSpace.skipChar.skipSpace.skipChar.rest = behindQuote := by
            rw [Reader.skipChar, atQuote]
          refine ⟨_, .intro isName spaceBefore spaceBehind unquoted, ?_⟩
          rw [whole, equals, atEquals, ← afterEquals, quote, atQuote, ← afterQuote, closed]
          simp
        · cases success
      · cases success
    · cases success

/-- Reading gives a value and stops in front of a rest. -/
def Gives {α : Type} (outcome : Reading α) (value : α) (rest : Text) : Prop :=
  ∃ offset, outcome = .ok (value, ⟨offset, rest⟩)

theorem cutAt?_append {separator : Char} {before : Text} (absent : separator ∉ before)
    (after : Text) :
    Text.cutAt? separator (before ++ separator :: after) = some (before, after) := by
  induction before with
  | nil => simp [Text.cutAt?]
  | cons c before ih =>
    have other : c ≠ separator := fun same => absent (by simp [same])
    have rest := ih fun member => absent (List.mem_cons_of_mem _ member)
    rw [List.cons_append, Text.cutAt?, if_neg other, rest]
    rfl

theorem AttributeText.gives {attr : Attribute} {text : Text} (own : AttributeText attr text)
    (offset : Nat) (rest : Text) : Gives (readAttribute ⟨offset, text ++ rest⟩) attr rest := by
  cases own with
  | @intro before behind isName spaceBefore spaceBehind unquoted =>
    have whole : attr.name ++ (before ++ '=' :: (behind ++ '"' :: (attr.value ++ ['"']))) ++ rest
        = attr.name ++ (before ++ '=' :: (behind ++ '"' :: (attr.value ++ '"' :: rest))) := by
      simp
    have longest : Stops isNameChar
        (before ++ '=' :: (behind ++ '"' :: (attr.value ++ '"' :: rest))) :=
      spaceBefore.stops_name (by decide)
    rw [whole, readAttribute, readName?_append isName longest]
    simp only [skipSpace_append spaceBefore (stops_cons (show isSpace '=' = false by decide)),
      Reader.skipChar, cutAt?_append unquoted,
      skipSpace_append spaceBehind (stops_cons (show isSpace '"' = false by decide))]
    exact ⟨_, rfl⟩

/-- An attribute begins with its name. -/
theorem AttributeText.exists_cons {attr : Attribute} {text : Text} (own : AttributeText attr text) :
    ∃ c rest, text = c :: rest ∧ isNameStart c = true := by
  cases own with
  | intro isName =>
    obtain ⟨c, others, named, begins, _⟩ := isName
    exact ⟨c, _, by rw [named, List.cons_append], begins⟩

theorem tagEndText_of_readTagEnd {reader final : Reader} {attributes : List Attribute}
    {closed : Bool} (success : readTagEnd reader = .ok ((attributes, closed), final)) :
    ∃ text, TagEndText attributes closed text ∧ reader.rest = text ++ final.rest := by
  fun_induction readTagEnd reader generalizing attributes closed final with
  | case1 => cases success
  | case2 reader here rest =>
    rename_i bracket
    cases success
    obtain ⟨space, blank, whole, _⟩ := exists_blank_skipSpace reader
    have ended : here.skipChar.rest = rest := by rw [Reader.skipChar, bracket]
    refine ⟨_, .nil blank, ?_⟩
    rw [ended, whole]
    change space ++ here.rest = _
    rw [bracket]
    simp [tagEnd]
  | case3 reader here rest =>
    rename_i slash
    cases success
    obtain ⟨space, blank, whole, _⟩ := exists_blank_skipSpace reader
    have ended : here.skipChar.skipChar.rest = rest := by
      rw [Reader.skipChar, Reader.skipChar, slash]
    refine ⟨_, .nil blank, ?_⟩
    rw [ended, whole]
    change space ++ here.rest = _
    rw [slash]
    simp [tagEnd]
  | case4 => cases success
  | case5 => cases success
  | case6 reader here first after taken others closing last read =>
    rename_i ih
    cases success
    obtain ⟨space, blank, whole, _⟩ := exists_blank_skipSpace reader
    obtain ⟨own, attr, ownWhole⟩ := attributeText_of_readAttribute taken
    obtain ⟨behind, inside, restWhole⟩ := ih read
    refine ⟨_, .cons blank attr inside, ?_⟩
    rw [whole]
    change space ++ here.rest = _
    rw [ownWhole, restWhole]
    simp

/-- A character that begins a name is neither the end of the tag nor the end of the text. -/
theorem readTagEnd_attribute {reader after : Reader} {attr : Attribute} {c : Char} {behind : Text}
    (cut : reader.skipSpace.rest = c :: behind) (begins : isNameStart c = true)
    (read : readAttribute reader.skipSpace = .ok (attr, after)) {attributes : List Attribute}
    {closed : Bool} {rest : Text} (ended : Gives (readTagEnd after) (attributes, closed) rest) :
    Gives (readTagEnd reader) (attr :: attributes, closed) rest := by
  obtain ⟨final, ended⟩ := ended
  refine ⟨final, ?_⟩
  rw [readTagEnd]
  split
  · rename_i empty
    rw [cut] at empty
    cases empty
  · rename_i bracket
    rw [cut] at bracket
    exact absurd (List.cons.inj bracket).1 (ne_of_isNameStart begins (by decide))
  · rename_i slash
    rw [cut] at slash
    exact absurd (List.cons.inj slash).1 (ne_of_isNameStart begins (by decide))
  · split
    · rename_i problem failed
      rw [read] at failed
      cases failed
    · rename_i taken
      rw [read] at taken
      cases taken
      rw [ended]

theorem TagEndText.gives {attributes : List Attribute} {closed : Bool} {text : Text}
    (inside : TagEndText attributes closed text) (offset : Nat) (rest : Text) :
    Gives (readTagEnd ⟨offset, text ++ rest⟩) (attributes, closed) rest := by
  induction inside generalizing offset with
  | @nil closed space blank =>
    rw [readTagEnd, List.append_assoc]
    cases closed with
    | false =>
      have stops : Stops isSpace ('>' :: rest) := stops_cons (by decide)
      simp [tagEnd, skipSpace_append blank stops, Gives, Reader.skipChar]
    | true =>
      have stops : Stops isSpace ('/' :: '>' :: rest) := stops_cons (by decide)
      simp [tagEnd, skipSpace_append blank stops, Gives, Reader.skipChar]
  | @cons attr attributes closed space own others blank first inside ih =>
    obtain ⟨place, read⟩ := first.gives (offset + Text.byteLength space) (others ++ rest)
    obtain ⟨c, behind, cut, begins⟩ := first.exists_cons
    have stops : Stops isSpace (own ++ (others ++ rest)) := by
      rw [cut]
      exact stops_cons (isSpace_false_of_isNameStart begins)
    have here := skipSpace_append blank stops offset
    have whole : space ++ (own ++ others) ++ rest = space ++ (own ++ (others ++ rest)) := by simp
    have next : (Reader.skipSpace ⟨offset, space ++ (own ++ (others ++ rest))⟩).rest
        = c :: (behind ++ (others ++ rest)) := by rw [here, cut, List.cons_append]
    rw [← here] at read
    rw [whole]
    exact readTagEnd_attribute next begins read (ih place)

theorem takeBytes_append {first : Text} {limit : Nat} (fits : Text.byteLength first ≤ limit)
    (second : Text) : Text.takeBytes limit (first ++ second)
      = first ++ Text.takeBytes (limit - Text.byteLength first) second := by
  induction first generalizing limit with
  | nil => rfl
  | cons c first ih =>
    rw [Text.byteLength] at fits
    have inner := @ih (limit - Text.width c) (by omega)
    rw [List.cons_append, Text.takeBytes, if_pos (by omega), inner, Text.byteLength, Nat.sub_sub,
      List.cons_append]

theorem takeBytes_prefix (limit : Nat) (text : Text) : Text.takeBytes limit text <+: text := by
  induction text generalizing limit with
  | nil => exact List.prefix_rfl
  | cons c rest ih =>
    rw [Text.takeBytes]
    split
    · exact List.cons_prefix_cons.2 ⟨rfl, ih _⟩
    · exact List.nil_prefix

theorem byteLength_takeBytes_le (limit : Nat) (text : Text) :
    Text.byteLength (Text.takeBytes limit text) ≤ limit := by
  induction text generalizing limit with
  | nil => exact Nat.zero_le _
  | cons c rest ih =>
    rw [Text.takeBytes]
    split
    · have inner := ih (limit - Text.width c)
      rw [Text.byteLength]
      omega
    · exact Nat.zero_le _

/-- The end of the tag stands behind its name at the least. -/
theorem TagEndText.ne_nil {attributes : List Attribute} {closed : Bool} {text : Text}
    (inside : TagEndText attributes closed text) : text ≠ [] := by
  cases inside with
  | nil => cases closed <;> simp [tagEnd]
  | cons _ first _ =>
    obtain ⟨c, rest, cut, _⟩ := first.exists_cons
    simp [cut]

theorem stops_append_iff {kind : Char → Bool} {front : Text} (filled : front ≠ []) (rest : Text) :
    Stops kind (front ++ rest) ↔ Stops kind front := by
  cases front with
  | nil => exact absurd rfl filled
  | cons c front => exact Iff.rfl

theorem startTagText_of_readStartTag {lookahead : Nat} {reader after : Reader} {tag : StartTag}
    {behind : Text} (bracket : reader.rest = '<' :: behind)
    (success : readStartTag lookahead reader = .ok (tag, after)) :
    ∃ text, StartTagText tag text ∧ Text.byteLength text ≤ lookahead ∧
      reader.rest = text ++ after.rest := by
  unfold readStartTag at success
  dsimp only at success
  split at success
  · cases success
  · rename_i name afterName named
    split at success
    · cases success
    · rename_i attributes closed final ended
      cases success
      obtain ⟨isName, whole, longest⟩ :=
        And.intro (isName_of_readName? named) (rest_of_readName? named)
      obtain ⟨rest, inside, behindName⟩ := tagEndText_of_readTagEnd ended
      obtain ⟨more, parts⟩ := takeBytes_prefix lookahead reader.rest
      have bound : Text.byteLength (reader.window lookahead).rest ≤ lookahead :=
        byteLength_takeBytes_le lookahead reader.rest
      have split : (reader.window lookahead).rest ++ more = reader.rest := parts
      cases visible : Text.takeBytes lookahead reader.rest with
      | nil => simp [Reader.window, visible, Reader.skipChar, Reader.readName?] at named
      | cons c text =>
        have first : c = '<' := by
          rw [visible, bracket, List.cons_append] at parts
          exact (List.cons.inj parts).1
        have atName : (reader.window lookahead).skipChar.rest = text := by
          rw [Reader.skipChar, Reader.window, visible]
        have shown : (reader.window lookahead).rest = '<' :: (name ++ rest) ++ final.rest := by
          rw [Reader.window, visible, first, ← atName, whole, behindName]
          simp
        rw [behindName, stops_append_iff inside.ne_nil] at longest
        have length : (reader.window lookahead).rest.length - final.rest.length
            = ('<' :: (name ++ rest)).length := by
          rw [shown, List.length_append, Nat.add_sub_cancel]
        rw [shown] at bound split
        refine ⟨'<' :: (name ++ rest), .intro isName longest inside, ?_, ?_⟩
        · rw [Text.byteLength_append] at bound
          omega
        · rw [length, ← split, List.append_assoc, List.drop_left]

theorem StartTagText.gives {tag : StartTag} {text : Text} (start : StartTagText tag text)
    {lookahead : Nat} (fits : Text.byteLength text ≤ lookahead) (offset : Nat) (rest : Text) :
    Gives (readStartTag lookahead ⟨offset, text ++ rest⟩) tag rest := by
  obtain ⟨visible, visibleEq⟩ : ∃ visible,
      visible = Text.takeBytes (lookahead - Text.byteLength text) rest := ⟨_, rfl⟩
  have window : Reader.window lookahead ⟨offset, text ++ rest⟩ = ⟨offset, text ++ visible⟩ := by
    rw [Reader.window, takeBytes_append fits, visibleEq]
  have consumed : (text ++ visible).length - visible.length = text.length := by
    rw [List.length_append, Nat.add_sub_cancel]
  cases start with
  | @intro behind isName longest inside =>
    have atName : Reader.skipChar ⟨offset, '<' :: (tag.name ++ behind) ++ visible⟩
        = ⟨offset + Text.width '<', tag.name ++ (behind ++ visible)⟩ := by
      rw [← List.append_assoc]
      rfl
    have stops := (stops_append_iff inside.ne_nil visible).2 longest
    have named := readName?_append isName stops (offset + Text.width '<')
    obtain ⟨final, ended⟩ :=
      inside.gives (offset + Text.width '<' + Text.byteLength tag.name) visible
    rw [readStartTag]
    simp only [window, atName, named, ended, consumed, List.drop_left]
    exact ⟨_, rfl⟩

theorem endTagText_of_readEndTag {reader after : Reader} {name behind : Text}
    (bracket : reader.rest = '<' :: '/' :: behind)
    (success : readEndTag reader = .ok (name, after)) :
    ∃ text, EndTagText name text ∧ reader.rest = text ++ after.rest := by
  have atName : reader.skipChar.skipChar.rest = behind := by
    rw [Reader.skipChar, Reader.skipChar, bracket]
  unfold readEndTag at success
  dsimp only at success
  split at success
  · cases success
  · rename_i found afterName named
    split at success
    · rename_i rest ended
      cases success
      obtain ⟨whole, _⟩ := rest_of_readName? named
      obtain ⟨space, blank, spaced, _⟩ := exists_blank_skipSpace afterName
      have behindTag : afterName.skipSpace.skipChar.rest = rest := by rw [Reader.skipChar, ended]
      refine ⟨_, .intro (isName_of_readName? named) blank, ?_⟩
      rw [bracket, ← atName, whole, spaced, ended, behindTag]
      simp
    · cases success

theorem EndTagText.gives {name text : Text} (closing : EndTagText name text) (offset : Nat)
    (rest : Text) : Gives (readEndTag ⟨offset, text ++ rest⟩) name rest := by
  cases closing with
  | @intro space isName blank =>
    have whole : '<' :: '/' :: (name ++ (space ++ ['>'])) ++ rest
        = '<' :: '/' :: (name ++ (space ++ '>' :: rest)) := by simp
    have atName :
        (Reader.skipChar ⟨offset, '<' :: '/' :: (name ++ (space ++ '>' :: rest))⟩).skipChar
          = ⟨offset + Text.width '<' + Text.width '/', name ++ (space ++ '>' :: rest)⟩ := rfl
    have longest : Stops isNameChar (space ++ '>' :: rest) := blank.stops_name (by decide)
    have stops : Stops isSpace ('>' :: rest) := stops_cons (by decide)
    rw [whole, readEndTag]
    simp only [atName, readName?_append isName longest, skipSpace_append blank stops]
    exact ⟨_, rfl⟩

end MailMerge.Markup
