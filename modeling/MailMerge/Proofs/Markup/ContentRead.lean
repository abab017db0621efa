import MailMerge.Markup.Document

set_option autoImplicit false

namespace MailMerge.Markup

/-- Reads what lies inside the element `name`: its data, its children and the tokens behind it. -/
def readInside (isRoot : Bool) (name : Text) (stream : TokenStream) :
    Except Error (Text × List Element × TokenStream) :=
  (readContent isRoot name stream).map fun content =>
    (content.data, content.children, content.after)

theorem readInside_eq (isRoot : Bool) (name : Text) (stream : TokenStream) :
    readInside isRoot name stream =
      match stream.next with
      | (.error error, _) => .error error
      | (.ok none, after) => if isRoot then .ok ([], [], after) else .error (.unexpectedEnd name)
      | (.ok (some (.data piece)), after) => do
        let (data, children, final) ← readInside isRoot name after
        return (piece ++ data, children, final)
      | (.ok (some (.closing found)), after) =>
        if found = name then .ok ([], [], after)
        else .error (.mismatchedTag name found stream.offset)
      | (.ok (some (.opening tag)), after) => do
        let (innerData, innerChildren, behind) ← readInside false tag.name after
        let (data, children, final) ← readInside isRoot name behind
        return (data, .ofTag tag innerData innerChildren :: children, final) := by
  rw [readInside, readContent]
  split
  · rename_i next
    simp only [next]
    rfl
  · rename_i next
    simp only [next]
    cases isRoot <;> rfl
  · rename_i token after next
    simp only [next]
    cases token with
    | opening tag =>
      simp only [readInside]
      cases readContent false tag.name after with
      | error error => rfl
      | ok inner =>
        show Except.map _ (Except.bind (readContent isRoot name inner.after) _)
          = Except.bind (Except.map _ (readContent isRoot name inner.after)) _
        cases readContent isRoot name inner.after with
        | error error => rfl
        | ok rest => rfl
    | closing found =>
      dsimp only
      split <;> rfl
    | data piece =>
      simp only [readInside]
      cases readContent isRoot name after with
      | error error => rfl
      | ok rest => rfl

/-- Reading inside the element `name` gives its data and its children, and stops in front of the
tokens `final`. -/
inductive ContentRead : Bool → Text → TokenStream → Text → List Element → TokenStream → Prop
  | ended {name : Text} {stream final : TokenStream}
      (next : stream.next = (.ok none, final)) : ContentRead true name stream [] [] final
  | closed {isRoot : Bool} {name : Text} {stream final : TokenStream}
      (next : stream.next = (.ok (some (.closing name)), final)) :
      ContentRead isRoot name stream [] [] final
  | text {isRoot : Bool} {name piece data : Text} {children : List Element}
      {stream after final : TokenStream}
      (next : stream.next = (.ok (some (.data piece)), after))
      (rest : ContentRead isRoot name after data children final) :
      ContentRead isRoot name stream (piece ++ data) children final
  | child {isRoot : Bool} {name innerData data : Text} {tag : StartTag}
      {innerChildren children : List Element} {stream after behind final : TokenStream}
      (next : stream.next = (.ok (some (.opening tag)), after))
      (inner : ContentRead false tag.name after innerData innerChildren behind)
      (rest : ContentRead isRoot name behind data children final) :
      ContentRead isRoot name stream data (.ofTag tag innerData innerChildren :: children) final

section

variable {isRoot : Bool} {name data : Text} {stream final : TokenStream} {children : List Element}

theorem contentRead_of_readInside
    (success : readInside isRoot name stream = .ok (data, children, final)) :
    ContentRead isRoot name stream data children final := by
  induction isRoot, name, stream using readContent.induct generalizing data children final with
  | case1 isRoot name stream error after next =>
    rw [readInside_eq, next] at success
    cases success
  | case2 name stream after next =>
    rw [readInside_eq, next] at success
    cases success
    exact .ended next
  | case3 isRoot name stream after next notRoot =>
    rw [readInside_eq, next] at success
    simp [notRoot] at success
  | case4 isRoot name stream after piece next _ _ ih =>
    rw [readInside_eq, next] at success
    dsimp only at success
    cases read : readInside isRoot name after with
    | error error =>
      rw [read] at success
      cases success
    | ok rest =>
      rw [read] at success
      cases success
      exact .text next (ih read)
  | case5 isRoot stream after found next =>
    rw [readInside_eq, next] at success
    dsimp only at success
    rw [if_pos rfl] at success
    cases success
    exact .closed next
  | case6 isRoot name stream after found next other =>
    rw [readInside_eq, next] at success
    simp [other] at success
  | case7 isRoot name stream after tag next _ _ innerRead restRead =>
    rw [readInside_eq, next] at success
    dsimp only at success
    cases nested : readContent false tag.name after with
    | error error =>
      rw [readInside, nested] at success
      cases success
    | ok content =>
      have inner : readInside false tag.name after
          = .ok (content.data, content.children, content.after) := by
        rw [readInside, nested]
        rfl
      rw [inner] at success
      dsimp only [bind, Except.bind] at success
      cases read : readInside isRoot name content.after with
      | error error =>
        rw [read] at success
        cases success
      | ok rest =>
        rw [read] at success
        cases success
        exact .child next (innerRead inner) (restRead content read)

/-- Reading succeeds exactly by the rules. -/
theorem readInside_eq_ok_iff :
    readInside isRoot name stream = .ok (data, children, final) ↔
      ContentRead isRoot name stream data children final := by
  refine ⟨contentRead_of_readInside, fun read => ?_⟩
  induction read with
  | ended next =>
    rw [readInside_eq, next]
    rfl
  | closed next =>
    rw [readInside_eq, next]
    exact if_pos rfl
  | text next rest ih =>
    rw [readInside_eq, next]
    dsimp only
    rw [ih]
    rfl
  | child next inner rest innerRead restRead =>
    rw [readInside_eq, next]
    dsimp only
    rw [innerRead]
    dsimp only [bind, Except.bind]
    rw [restRead]
    rfl

end

/-- Reading inside an element, one case for each kind of token. Behind a child, reading goes on only
if the child was read. -/
@[elab_as_elim]
theorem readInside_induction {motive : Bool → Text → TokenStream → Prop}
    (stopped : ∀ isRoot name stream outcome after, stream.next = (outcome, after) →
      (∀ token, outcome ≠ .ok (some token)) → motive isRoot name stream)
    (closing : ∀ isRoot name stream found after,
      stream.next = (.ok (some (.closing found)), after) → motive isRoot name stream)
    (data : ∀ isRoot name stream piece after, stream.next = (.ok (some (.data piece)), after) →
      motive isRoot name after → motive isRoot name stream)
    (opening : ∀ isRoot name stream tag after, stream.next = (.ok (some (.opening tag)), after) →
      motive false tag.name after →
      (∀ data children behind, ContentRead false tag.name after data children behind →
        motive isRoot name behind) → motive isRoot name stream)
    (isRoot : Bool) (name : Text) (stream : TokenStream) : motive isRoot name stream := by
  induction isRoot, name, stream using readContent.induct with
  | case1 isRoot name stream error after next => exact stopped _ _ _ _ _ next (by simp)
  | case2 name stream after next => exact stopped _ _ _ _ _ next (by simp)
  | case3 isRoot name stream after next => exact stopped _ _ _ _ _ next (by simp)
  | case4 isRoot name stream after piece next _ _ ih => exact data _ _ _ _ _ next ih
  | case5 isRoot stream after found next => exact closing _ _ _ _ _ next
  | case6 isRoot name stream after found next => exact closing _ _ _ _ _ next
  | case7 isRoot name stream after tag next _ _ innerIh restIh =>
    refine opening _ _ _ _ _ next innerIh fun data children behind read => ?_
    have success := readInside_eq_ok_iff.2 read
    cases nested : readContent false tag.name after with
    | error error =>
      rw [readInside, nested] at success
      cases success
    | ok content =>
      rw [readInside, nested] at success
      cases success
      exact restIh content

theorem ContentRead.of_next {isRoot : Bool} {name data : Text} {stream other final : TokenStream}
    {children : List Element} (same : other.next = stream.next)
    (read : ContentRead isRoot name stream data children final) :
    ContentRead isRoot name other data children final := by
  cases read with
  | ended next => exact .ended (same.trans next)
  | closed next => exact .closed (same.trans next)
  | text next rest => exact .text (same.trans next) rest
  | child next inner rest => exact .child (same.trans next) inner rest

theorem ofText_eq (lookahead : Nat) (text : Text) :
    Document.ofText lookahead text =
      match (TokenStream.ofText lookahead text).first with
      | (.error error, _) => .error error
      | (.ok (prolog, tag), stream) =>
        (readInside true tag.name stream).map fun (data, children, final) =>
          ⟨prolog, .ofTag tag data children, final.rest⟩ := by
  rw [Document.ofText]
  obtain ⟨outcome, stream⟩ := (TokenStream.ofText lookahead text).first
  cases outcome with
  | error error => rfl
  | ok opened =>
    obtain ⟨prolog, tag⟩ := opened
    dsimp only
    rw [readInside]
    cases readContent true tag.name stream with
    | error error => rfl
    | ok content => rfl

/-- A document is read from a text by its first start tag and the content behind it. -/
theorem ofText_eq_ok_iff {lookahead : Nat} {text : Text} {document : Document} :
    Document.ofText lookahead text = .ok document ↔
      ∃ tag stream data children final,
        (TokenStream.ofText lookahead text).first = (.ok (document.prolog, tag), stream) ∧
        ContentRead true tag.name stream data children final ∧
        document.root = .ofTag tag data children ∧ document.epilogue = final.rest := by
  rw [ofText_eq]
  constructor
  · intro success
    split at success
    · cases success
    · rename_i prolog tag stream first
      cases read : readInside true tag.name stream with
      | error error =>
        rw [read] at success
        cases success
      | ok inside =>
        obtain ⟨data, children, final⟩ := inside
        rw [read] at success
        cases success
        exact ⟨tag, stream, data, children, final, first, contentRead_of_readInside read, rfl, rfl⟩
  · rintro ⟨tag, stream, data, children, final, first, read, root, epilogue⟩
    rw [first]
    dsimp only
    rw [readInside_eq_ok_iff.2 read, Except.map, ← root, ← epilogue]

end MailMerge.Markup
