import MailMerge.Error
import MailMerge.Markup.Reader

set_option autoImplicit false

namespace MailMerge.Markup

/-- An attribute, with its value as it stands between the quotes. -/
structure Attribute where
  name : Text
  value : Text
  deriving Repr, DecidableEq

/-- What stands in front of the first colon of an attribute's name. -/
def Attribute.qualifier? (attr : Attribute) : Option Text :=
  (Text.cutAt? ':' attr.name).map Prod.fst

structure StartTag where
  name : Text
  attributes : List Attribute
  /-- Is it written with a slash, so that its end tag is implied? -/
  selfClosing : Bool
  deriving Repr, DecidableEq

/-- The outcome of reading a part of a tag. A problem comes with the place where it was found. -/
abbrev Reading (α : Type) := Except (MarkupProblem × Reader) (α × Reader)

/-- Reads a name, an equals sign and a value in double quotes. -/
def readAttribute (reader : Reader) : Reading Attribute :=
  match reader.readName? with
  | none => .error (.attributeNameExpected, reader)
  | some (name, afterName) =>
    let atEquals := afterName.skipSpace
    match atEquals.rest with
    | '=' :: _ =>
      let atQuote := atEquals.skipChar.skipSpace
      match atQuote.rest with
      | '"' :: _ =>
        let atValue := atQuote.skipChar
        match Text.cutAt? '"' atValue.rest with
        | some (value, rest) =>
          .ok (⟨name, value⟩, ⟨atValue.offset + Text.byteLength value + 1, rest⟩)
        | none => .error (.attributeValueUnclosed, atValue)
      | _ => .error (.attributeValueUnquoted, atQuote)
    | _ => .error (.attributeValueMissing, atEquals)

theorem length_cutAt_lt {separator : Char} {text before after : Text}
    (success : Text.cutAt? separator text = some (before, after)) :
    after.length < text.length := by
  induction text generalizing before with
  | nil => simp [Text.cutAt?] at success
  | cons c rest ih =>
    simp only [Text.cutAt?] at success
    split at success
    · simp only [Option.some.injEq, Prod.mk.injEq] at success
      simp [← success.2]
    · simp only [Option.map_eq_some_iff, Prod.exists, Prod.mk.injEq] at success
      obtain ⟨shorter, tail, found, -, rfl⟩ := success
      exact Nat.lt_succ_of_lt (ih found)

/-- An attribute takes at least one character. -/
theorem length_readAttribute_lt {reader after : Reader} {attr : Attribute}
    (success : readAttribute reader = .ok (attr, after)) :
    after.rest.length < reader.rest.length := by
  unfold readAttribute at success
  split at success
  · simp at success
  · rename_i name afterName named
    have shorter := length_readName_lt named
    have equals := length_skipSpace_le afterName
    simp only at success
    split at success
    · have quote := length_skipSpace_le afterName.skipSpace.skipChar
      have stepped := length_skipChar_le afterName.skipSpace
      split at success
      · have value := length_skipChar_le afterName.skipSpace.skipChar.skipSpace
        split at success
        · rename_i found
          have closed := length_cutAt_lt found
          simp only [Except.ok.injEq, Prod.mk.injEq] at success
          obtain ⟨-, rfl⟩ := success
          show List.length (_ : Text) < _
          exact Nat.lt_of_lt_of_le closed (by omega)
        · simp at success
      · simp at success
    · simp at success

/-- Reads the attributes of a start tag and its end; the flag tells whether it closes itself. -/
def readTagEnd (reader : Reader) : Reading (List Attribute × Bool) :=
  let here := reader.skipSpace
  match here.rest with
  | [] => .error (.startTagUnclosed, here)
  | '>' :: _ => .ok (([], false), here.skipChar)
  | '/' :: '>' :: _ => .ok (([], true), here.skipChar.skipChar)
  | _ =>
    match _taken : readAttribute here with
    | .error problem => .error problem
    | .ok (attr, after) =>
      match readTagEnd after with
      | .error problem => .error problem
      | .ok ((attributes, selfClosing), final) => .ok ((attr :: attributes, selfClosing), final)
termination_by reader.rest.length
decreasing_by
  exact Nat.lt_of_lt_of_le (length_readAttribute_lt _taken) (length_skipSpace_le reader)

theorem length_readTagEnd_lt {reader final : Reader} {content : List Attribute × Bool}
    (success : readTagEnd reader = .ok (content, final)) :
    final.rest.length < reader.rest.length := by
  fun_induction readTagEnd reader generalizing content final with
  | case1 => simp at success
  | case2 reader here rest =>
    rename_i whole
    have skipped : here.rest.length ≤ reader.rest.length := length_skipSpace_le reader
    simp only [Except.ok.injEq, Prod.mk.injEq] at success
    rw [whole, List.length_cons] at skipped
    simp only [← success.2, Reader.skipChar, whole]
    omega
  | case3 reader here rest =>
    rename_i whole
    have skipped : here.rest.length ≤ reader.rest.length := length_skipSpace_le reader
    simp only [Except.ok.injEq, Prod.mk.injEq] at success
    rw [whole, List.length_cons, List.length_cons] at skipped
    simp only [← success.2, Reader.skipChar, whole]
    omega
  | case4 => simp at success
  | case5 => simp at success
  | case6 =>
    rename_i reader here attr after taken attributes selfClosing last read _ _ _ ih
    have skipped : here.rest.length ≤ reader.rest.length := length_skipSpace_le reader
    have shorter := length_readAttribute_lt taken
    have ended := ih read
    simp only [Except.ok.injEq, Prod.mk.injEq] at success
    rw [← success.2]
    omega

/-- Reads a start tag from its angle bracket on, inside a window of `lookahead` bytes. -/
def readStartTag (lookahead : Nat) (reader : Reader) : Reading StartTag :=
  let window := reader.window lookahead
  let atName := window.skipChar
  match atName.readName? with
  | none => .error (.elementNameExpected, atName)
  | some (name, afterName) =>
    match readTagEnd afterName with
    | .error problem => .error problem
    | .ok ((attributes, selfClosing), final) =>
      let length := window.rest.length - final.rest.length
      .ok (⟨name, attributes, selfClosing⟩, ⟨final.offset, reader.rest.drop length⟩)

theorem length_takeBytes_le (n : Nat) (text : Text) :
    (Text.takeBytes n text).length ≤ text.length := by
  induction text generalizing n with
  | nil => simp [Text.takeBytes]
  | cons c rest ih =>
    simp only [Text.takeBytes]
    split
    · simpa using ih _
    · simp

/-- A start tag takes at least one character. -/
theorem length_readStartTag_lt {lookahead : Nat} {reader after : Reader} {tag : StartTag}
    (success : readStartTag lookahead reader = .ok (tag, after)) :
    after.rest.length < reader.rest.length := by
  unfold readStartTag at success
  simp only at success
  split at success
  · simp at success
  · rename_i name afterName named
    split at success
    · simp at success
    · rename_i attributes selfClosing final ended
      have stepped := length_skipChar_le (reader.window lookahead)
      have shorter := length_readName_lt named
      have closed := length_readTagEnd_lt ended
      have inside := length_takeBytes_le lookahead reader.rest
      simp only [Except.ok.injEq, Prod.mk.injEq] at success
      rw [← success.2]
      simp only [Reader.window] at *
      simp only [List.length_drop]
      omega

/-- Reads an end tag from its angle bracket on. -/
def readEndTag (reader : Reader) : Reading Text :=
  let atName := reader.skipChar.skipChar
  match atName.readName? with
  | none => .error (.endTagNameExpected, atName)
  | some (name, afterName) =>
    let here := afterName.skipSpace
    match here.rest with
    | '>' :: _ => .ok (name, here.skipChar)
    | _ => .error (.endTagUnclosed, here)

/-- An end tag takes at least one character. -/
theorem length_readEndTag_lt {reader after : Reader} {name : Text}
    (success : readEndTag reader = .ok (name, after)) :
    after.rest.length < reader.rest.length := by
  unfold readEndTag at success
  simp only at success
  split at success
  · simp at success
  · rename_i found afterName named
    split at success
    · have first := length_skipChar_le reader
      have second := length_skipChar_le reader.skipChar
      have shorter := length_readName_lt named
      have spaced := length_skipSpace_le afterName
      have last := length_skipChar_le afterName.skipSpace
      simp only [Except.ok.injEq, Prod.mk.injEq] at success
      rw [← success.2]
      omega
    · simp at success

end MailMerge.Markup
