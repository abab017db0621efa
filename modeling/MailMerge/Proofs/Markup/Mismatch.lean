import MailMerge.Proofs.Markup.Offset

set_option autoImplicit false

namespace MailMerge.Markup

/-- Reading inside an element passes over data and child elements. -/
inductive Passes : TokenStream → TokenStream → Prop
  | refl (stream : TokenStream) : Passes stream stream
  | text {piece : Text} {stream after last : TokenStream}
      (next : stream.next = (.ok (some (.data piece)), after)) (rest : Passes after last) :
      Passes stream last
  | child {data : Text} {tag : StartTag} {children : List Element}
      {stream after behind last : TokenStream}
      (next : stream.next = (.ok (some (.opening tag)), after))
      (inner : ContentRead false tag.name after data children behind) (rest : Passes behind last) :
      Passes stream last

/-- Reading inside the element `name` comes to an end tag `found` where the end tag of `expected`,
the innermost open element, must stand. The position is that of the stream in front of it. -/
inductive Mismatches : Text → TokenStream → Text → Text → Nat → Prop
  | here {name found : Text} {stream last after : TokenStream} (passed : Passes stream last)
      (next : last.next = (.ok (some (.closing found)), after)) (other : found ≠ name) :
      Mismatches name stream name found last.offset
  | inside {name expected found : Text} {position : Nat} {tag : StartTag}
      {stream last after : TokenStream} (passed : Passes stream last)
      (next : last.next = (.ok (some (.opening tag)), after))
      (inner : Mismatches tag.name after expected found position) :
      Mismatches name stream expected found position

section

variable {name expected found : Text} {position : Nat} {stream after : TokenStream}

theorem Mismatches.text {piece : Text} (next : stream.next = (.ok (some (.data piece)), after))
    (rest : Mismatches name after expected found position) :
    Mismatches name stream expected found position := by
  cases rest with
  | here passed last other => exact .here (.text next passed) last other
  | inside passed last inner => exact .inside (.text next passed) last inner

theorem Mismatches.child {data : Text} {tag : StartTag} {children : List Element}
    {behind : TokenStream} (next : stream.next = (.ok (some (.opening tag)), after))
    (own : ContentRead false tag.name after data children behind)
    (rest : Mismatches name behind expected found position) :
    Mismatches name stream expected found position := by
  cases rest with
  | here passed last other => exact .here (.child next own passed) last other
  | inside passed last inner => exact .inside (.child next own passed) last inner

/-- Start tags fail for reasons of their own, and so does every other token. -/
theorem openTag_ne_mismatchedTag (place : Reader) :
    stream.openTag place ≠ (.error (.mismatchedTag expected found position), after) := by
  intro failed
  unfold TokenStream.openTag at failed
  split at failed <;> cases failed

theorem tokenAt_ne_mismatchedTag (place : Reader) :
    stream.tokenAt place ≠ (.error (.mismatchedTag expected found position), after) := by
  intro failed
  unfold TokenStream.tokenAt at failed
  split at failed
  · cases failed
  · split at failed
    · split at failed
      · cases failed
      · rename_i opened
        cases failed
        exact openTag_ne_mismatchedTag _ opened
    · split at failed
      · split at failed
        · cases failed
        · rename_i closed
          cases failed
          unfold TokenStream.closeTag at closed
          split at closed <;> cases closed
      · split at failed <;> cases failed

theorem next_ne_mismatchedTag :
    stream.next ≠ (.error (.mismatchedTag expected found position), after) := by
  intro failed
  unfold TokenStream.next at failed
  split at failed
  · cases failed
  · cases failed
  · exact tokenAt_ne_mismatchedTag _ failed
  · exact tokenAt_ne_mismatchedTag _ failed

theorem first_ne_mismatchedTag :
    stream.first ≠ (.error (.mismatchedTag expected found position), after) := by
  intro failed
  unfold TokenStream.first at failed
  dsimp only at failed
  split at failed
  · cases failed
  · split at failed
    · cases failed
    · rename_i opened
      cases failed
      exact openTag_ne_mismatchedTag _ opened

theorem mismatches_of_readInside {isRoot : Bool}
    (failure : readInside isRoot name stream = .error (.mismatchedTag expected found position)) :
    Mismatches name stream expected found position := by
  induction isRoot, name, stream using readContent.induct with
  | case1 isRoot name stream error after next =>
    rw [readInside_eq, next] at failure
    cases failure
    exact absurd next next_ne_mismatchedTag
  | case2 name stream after next =>
    rw [readInside_eq, next] at failure
    cases failure
  | case3 isRoot name stream after next notRoot =>
    rw [readInside_eq, next] at failure
    simp [notRoot] at failure
  | case4 isRoot name stream after piece next _ _ ih =>
    rw [readInside_eq, next] at failure
    dsimp only at failure
    cases read : readInside isRoot name after with
    | error error =>
      rw [read] at failure
      cases failure
      exact .text next (ih read)
    | ok rest =>
      rw [read] at failure
      cases failure
  | case5 isRoot stream after found next =>
    rw [readInside_eq, next] at failure
    dsimp only at failure
    rw [if_pos rfl] at failure
    cases failure
  | case6 isRoot name stream after found next other =>
    rw [readInside_eq, next] at failure
    dsimp only at failure
    rw [if_neg other] at failure
    cases failure
    exact .here (.refl stream) next other
  | case7 isRoot name stream after tag next _ _ innerFailed restFailed =>
    rw [readInside_eq, next] at failure
    dsimp only at failure
    cases nested : readContent false tag.name after with
    | error error =>
      have inner : readInside false tag.name after = .error error := by
        rw [readInside, nested]
        rfl
      rw [inner] at failure
      cases failure
      exact .inside (.refl stream) next (innerFailed inner)
    | ok content =>
      have inner : readInside false tag.name after
          = .ok (content.data, content.children, content.after) := by
        rw [readInside, nested]
        rfl
      rw [inner] at failure
      dsimp only [bind, Except.bind] at failure
      cases read : readInside isRoot name content.after with
      | error error =>
        rw [read] at failure
        cases failure
        exact .child next (contentRead_of_readInside inner) (restFailed content read)
      | ok rest =>
        rw [read] at failure
        cases failure

/-- What is passed over does not hide a failure behind it. -/
theorem Passes.readInside_eq_error {isRoot : Bool} {last : TokenStream} {error : Error}
    (passed : Passes stream last) (failure : readInside isRoot name last = .error error) :
    readInside isRoot name stream = .error error := by
  induction passed with
  | refl => exact failure
  | text next rest ih =>
    rw [readInside_eq, next]
    dsimp only
    rw [ih failure]
    rfl
  | child next inner rest ih =>
    rw [readInside_eq, next]
    dsimp only
    rw [readInside_eq_ok_iff.2 inner]
    dsimp only [bind, Except.bind]
    rw [ih failure]

/-- Reading fails at a wrong end tag exactly by the rules. -/
theorem readInside_eq_mismatchedTag_iff {isRoot : Bool} :
    readInside isRoot name stream = .error (.mismatchedTag expected found position) ↔
      Mismatches name stream expected found position := by
  refine ⟨mismatches_of_readInside, fun mismatch => ?_⟩
  induction mismatch generalizing isRoot with
  | here passed next other =>
    apply passed.readInside_eq_error
    rw [readInside_eq, next]
    exact if_neg other
  | inside passed next inner ih =>
    apply passed.readInside_eq_error
    rw [readInside_eq, next]
    dsimp only
    rw [ih]
    rfl

/-- Reading a document fails at a wrong end tag exactly when reading inside its root does. -/
theorem ofText_eq_mismatchedTag_iff {lookahead : Nat} {text : Text} :
    Document.ofText lookahead text = .error (.mismatchedTag expected found position) ↔
      ∃ prolog tag stream,
        (TokenStream.ofText lookahead text).first = (.ok (prolog, tag), stream) ∧
        Mismatches tag.name stream expected found position := by
  rw [ofText_eq]
  constructor
  · intro failure
    split at failure
    · rename_i first
      cases failure
      exact absurd first first_ne_mismatchedTag
    · rename_i prolog tag stream first
      cases read : readInside true tag.name stream with
      | error error =>
        rw [read] at failure
        cases failure
        exact ⟨prolog, tag, stream, first, mismatches_of_readInside read⟩
      | ok inside =>
        rw [read] at failure
        cases failure
  · rintro ⟨prolog, tag, stream, first, mismatch⟩
    rw [first]
    dsimp only
    rw [readInside_eq_mismatchedTag_iff.2 mismatch]
    rfl

end

section

variable {stream last : TokenStream}

theorem Passes.reaches (passed : Passes stream last) : stream.reader.Reaches last.reader := by
  induction passed with
  | refl stream => exact .refl stream.reader
  | text next rest ih => exact (reaches_next next).trans ih
  | child next inner rest ih =>
    exact (reaches_next next).trans ((reaches_of_contentRead inner rfl).trans ih)

/-- Behind a single tag comes its end tag, so nothing fails there. -/
theorem unclosed_of_mismatches {limit position : Nat} {tag : StartTag} {place : Reader}
    {expected found : Text}
    (mismatch : Mismatches tag.name (.behind limit tag place) expected found position) :
    tag.selfClosing = false := by
  by_contra single
  have closed : tag.selfClosing = true := by simpa using single
  have next := next_behind_single limit closed place
  have stays : ∀ {last},
      Passes (.behind limit tag place) last → last = .behind limit tag place := by
    intro last passed
    cases passed with
    | refl => rfl
    | text other =>
      rw [next] at other
      cases other
    | child other =>
      rw [next] at other
      cases other
  cases mismatch with
  | here passed other different =>
    rw [stays passed, next] at other
    cases other
    exact different rfl
  | inside passed other =>
    rw [stays passed, next] at other
    cases other

end

end MailMerge.Markup
