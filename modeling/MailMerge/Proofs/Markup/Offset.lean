import MailMerge.Proofs.Markup.RoundTrip

set_option autoImplicit false

namespace MailMerge.Markup

/-- A place further on in the same text. The offset counts the bytes on the way. -/
def Reader.Reaches (reader after : Reader) : Prop :=
  ∃ passed, reader.rest = passed ++ after.rest ∧
    after.offset = reader.offset + Text.byteLength passed

namespace Reader.Reaches

theorem refl (reader : Reader) : reader.Reaches reader := ⟨[], rfl, rfl⟩

theorem trans {reader middle after : Reader} (left : reader.Reaches middle)
    (right : middle.Reaches after) : reader.Reaches after := by
  obtain ⟨first, whole, offset⟩ := left
  obtain ⟨second, rest, offset'⟩ := right
  refine ⟨first ++ second, by rw [whole, rest, List.append_assoc], ?_⟩
  rw [offset', offset, Text.byteLength_append, Nat.add_assoc]

/-- The offset and the bytes that are left have a sum that stays. -/
theorem sum_eq {reader after : Reader} (reaches : reader.Reaches after) :
    after.offset + Text.byteLength after.rest = reader.offset + Text.byteLength reader.rest := by
  obtain ⟨passed, whole, offset⟩ := reaches
  rw [whole, offset, Text.byteLength_append]
  omega

end Reader.Reaches

theorem reaches_skipWhile (keep : Char → Bool) (reader : Reader) :
    reader.Reaches (reader.skipWhile keep) :=
  ⟨reader.rest.takeWhile keep, List.takeWhile_append_dropWhile.symm, rfl⟩

theorem reaches_skipSpace (reader : Reader) : reader.Reaches reader.skipSpace :=
  reaches_skipWhile isSpace reader

theorem reaches_skipChar (reader : Reader) : reader.Reaches reader.skipChar := by
  unfold Reader.skipChar
  split
  · exact .refl reader
  · rename_i c rest whole
    exact ⟨[c], whole, rfl⟩

theorem reaches_readName? {reader after : Reader} {name : Text}
    (success : reader.readName? = some (name, after)) : reader.Reaches after := by
  unfold Reader.readName? at success
  split at success
  · cases success
  · split at success
    · cases success
      exact reaches_skipWhile isNameChar reader
    · cases success

theorem reaches_readAttribute {reader after : Reader} {attr : Attribute}
    (success : readAttribute reader = .ok (attr, after)) : reader.Reaches after := by
  unfold readAttribute at success
  split at success
  · cases success
  · rename_i name afterName named
    dsimp only at success
    split at success
    · split at success
      · split at success
        · rename_i value rest cut
          cases success
          have atValue : reader.Reaches afterName.skipSpace.skipChar.skipSpace.skipChar :=
            (reaches_readName? named).trans <| (reaches_skipSpace _).trans <|
              (reaches_skipChar _).trans <| (reaches_skipSpace _).trans (reaches_skipChar _)
          refine atValue.trans ⟨value ++ ['"'], ?_, ?_⟩
          · rw [(cutAt?_eq_some cut).2, List.append_assoc]
            rfl
          · rw [Text.byteLength_append]
            rfl
        · cases success
      · cases success
    · cases success

theorem reaches_readTagEnd {reader final : Reader} {content : List Attribute × Bool}
    (success : readTagEnd reader = .ok (content, final)) : reader.Reaches final := by
  fun_induction readTagEnd reader generalizing content final with
  | case1 => cases success
  | case2 reader here =>
    cases success
    exact (reaches_skipSpace reader).trans (reaches_skipChar here)
  | case3 reader here =>
    cases success
    exact (reaches_skipSpace reader).trans
      ((reaches_skipChar here).trans (reaches_skipChar here.skipChar))
  | case4 => cases success
  | case5 => cases success
  | case6 reader here first after taken others closed last read =>
    rename_i ih
    cases success
    exact (reaches_skipSpace reader).trans ((reaches_readAttribute taken).trans (ih read))

/-- A tag that was read in a window ends at the same place outside of it. -/
theorem reaches_readStartTag {lookahead : Nat} {reader after : Reader} {tag : StartTag}
    (success : readStartTag lookahead reader = .ok (tag, after)) : reader.Reaches after := by
  unfold readStartTag at success
  dsimp only at success
  split at success
  · cases success
  · rename_i name afterName named
    split at success
    · cases success
    · rename_i attributes closed final ended
      cases success
      have inWindow : (reader.window lookahead).Reaches final :=
        (reaches_skipChar _).trans ((reaches_readName? named).trans (reaches_readTagEnd ended))
      obtain ⟨passed, shown, offset⟩ := inWindow
      obtain ⟨beyond, whole⟩ := takeBytes_prefix lookahead reader.rest
      have split : (reader.window lookahead).rest ++ beyond = reader.rest := whole
      have length : (reader.window lookahead).rest.length - final.rest.length = passed.length := by
        rw [shown, List.length_append, Nat.add_sub_cancel]
      refine ⟨passed, ?_, offset⟩
      rw [shown, List.append_assoc] at split
      rw [length, ← split, List.drop_left]

theorem reaches_readEndTag {reader after : Reader} {name : Text}
    (success : readEndTag reader = .ok (name, after)) : reader.Reaches after := by
  unfold readEndTag at success
  dsimp only at success
  split at success
  · cases success
  · rename_i found afterName named
    split at success
    · cases success
      exact (reaches_skipChar reader).trans <| (reaches_skipChar _).trans <|
        (reaches_readName? named).trans <| (reaches_skipSpace _).trans (reaches_skipChar _)
    · cases success

theorem reaches_readAttribute_error {reader found : Reader} {problem : MarkupProblem}
    (failure : readAttribute reader = .error (problem, found)) : reader.Reaches found := by
  unfold readAttribute at failure
  split at failure
  · cases failure
    exact .refl reader
  · rename_i name afterName named
    have atEquals : reader.Reaches afterName.skipSpace :=
      (reaches_readName? named).trans (reaches_skipSpace afterName)
    have atQuote : reader.Reaches afterName.skipSpace.skipChar.skipSpace :=
      atEquals.trans ((reaches_skipChar _).trans (reaches_skipSpace _))
    dsimp only at failure
    split at failure
    · split at failure
      · split at failure
        · cases failure
        · cases failure
          exact atQuote.trans (reaches_skipChar _)
      · cases failure
        exact atQuote
    · cases failure
      exact atEquals

theorem reaches_readTagEnd_error {reader found : Reader} {problem : MarkupProblem}
    (failure : readTagEnd reader = .error (problem, found)) : reader.Reaches found := by
  fun_induction readTagEnd reader generalizing problem found with
  | case1 reader here =>
    cases failure
    exact reaches_skipSpace reader
  | case2 => cases failure
  | case3 => cases failure
  | case4 reader here failed read =>
    cases failure
    exact (reaches_skipSpace reader).trans (reaches_readAttribute_error read)
  | case5 reader here first after taken failed read =>
    rename_i ih
    cases failure
    exact (reaches_skipSpace reader).trans ((reaches_readAttribute taken).trans (ih read))
  | case6 => cases failure

/-- A problem with a start tag is found inside its window. -/
theorem reaches_readStartTag_error {lookahead : Nat} {reader found : Reader}
    {problem : MarkupProblem} (failure : readStartTag lookahead reader = .error (problem, found)) :
    (reader.window lookahead).Reaches found := by
  unfold readStartTag at failure
  dsimp only at failure
  split at failure
  · cases failure
    exact reaches_skipChar _
  · rename_i name afterName named
    split at failure
    · rename_i ended
      cases failure
      exact (reaches_skipChar _).trans
        ((reaches_readName? named).trans (reaches_readTagEnd_error ended))
    · cases failure

theorem reaches_readEndTag_error {reader found : Reader} {problem : MarkupProblem}
    (failure : readEndTag reader = .error (problem, found)) : reader.Reaches found := by
  have atName : reader.Reaches reader.skipChar.skipChar :=
    (reaches_skipChar reader).trans (reaches_skipChar _)
  unfold readEndTag at failure
  dsimp only at failure
  split at failure
  · cases failure
    exact atName
  · rename_i name afterName named
    split at failure
    · cases failure
    · cases failure
      exact atName.trans ((reaches_readName? named).trans (reaches_skipSpace afterName))

theorem reaches_openTag {place : Reader} {stream after : TokenStream} {tag : StartTag}
    (success : stream.openTag place = (.ok tag, after)) : place.Reaches after.reader := by
  unfold TokenStream.openTag at success
  split at success
  · cases success
  · rename_i read
    cases success
    exact reaches_readStartTag read

theorem reaches_closeTag {place : Reader} {stream after : TokenStream} {name : Text}
    (success : stream.closeTag place = (.ok name, after)) : place.Reaches after.reader := by
  unfold TokenStream.closeTag at success
  split at success
  · cases success
  · rename_i read
    cases success
    exact reaches_readEndTag read

theorem reaches_tokenAt {place : Reader} {stream after : TokenStream} {token : Token}
    (success : stream.tokenAt place = (.ok (some token), after)) : place.Reaches after.reader := by
  unfold TokenStream.tokenAt at success
  split at success
  · cases success
  · split at success
    · split at success
      · rename_i opened
        cases success
        exact (reaches_skipSpace place).trans (reaches_openTag opened)
      · cases success
    · split at success
      · split at success
        · rename_i closed
          cases success
          exact reaches_closeTag closed
        · cases success
      · split at success
        · cases success
        · cases success
          exact reaches_skipWhile _ place

theorem reaches_next {stream after : TokenStream} {token : Token}
    (success : stream.next = (.ok (some token), after)) : stream.reader.Reaches after.reader := by
  unfold TokenStream.next at success
  split at success
  · cases success
  · cases success
    exact .refl stream.reader
  · exact (reaches_skipSpace stream.reader).trans (reaches_tokenAt success)
  · exact reaches_tokenAt success

theorem reaches_first {stream after : TokenStream} {prolog : Text} {tag : StartTag}
    (success : stream.first = (.ok (prolog, tag), after)) :
    stream.reader.Reaches after.reader := by
  unfold TokenStream.first at success
  dsimp only at success
  split at success
  · cases success
  · rename_i before found cut
    split at success
    · rename_i opened
      cases success
      have passed : stream.reader.Reaches
          ⟨stream.reader.offset + Text.byteLength prolog, found⟩ :=
        ⟨prolog, (cutAtStartTag?_eq_some cut).1, rfl⟩
      exact passed.trans (reaches_openTag opened)
    · cases success

/-- Reading an element inside another one goes on some way in the text. -/
theorem reaches_of_contentRead {isRoot : Bool} {name data : Text} {stream final : TokenStream}
    {children : List Element} (read : ContentRead isRoot name stream data children final)
    (inner : isRoot = false) : stream.reader.Reaches final.reader := by
  induction read with
  | ended next => cases inner
  | closed next => exact reaches_next next
  | text next rest ih => exact (reaches_next next).trans (ih inner)
  | child next own rest ownReaches ih =>
    exact (reaches_next next).trans ((ownReaches rfl).trans (ih inner))

end MailMerge.Markup
