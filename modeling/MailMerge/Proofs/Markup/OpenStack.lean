import MailMerge.Proofs.Markup.WrongEndTag

set_option autoImplicit false

namespace MailMerge.Markup

/-- What one pull from the tokens gives: the offset in front of it, its outcome, and the text that
is left behind it. -/
structure Pull where
  offset : Nat
  outcome : Except Error (Option Token)
  rest : Text

def TokenStream.pull (stream : TokenStream) : Pull :=
  ⟨stream.offset, stream.next.1, stream.next.2.rest⟩

/-- Everything that can be pulled from a stream, up to the end or the first error. -/
def TokenStream.pulls (stream : TokenStream) : List Pull :=
  stream.pull ::
    match _pulled : stream.next with
    | (.ok (some _), after) => after.pulls
    | (.ok none, _) => []
    | (.error _, _) => []
termination_by stream.size
decreasing_by exact TokenStream.size_next_lt _pulled

/-- An open element, with what was read inside of it so far. -/
structure Unfinished where
  tag : StartTag
  data : Text
  children : List Element

namespace Unfinished

def ofTag (tag : StartTag) : Unfinished := ⟨tag, [], []⟩

def extend (data : Text) (children : List Element) (opened : Unfinished) : Unfinished :=
  ⟨opened.tag, opened.data ++ data, opened.children ++ children⟩

def element (opened : Unfinished) : Element := .ofTag opened.tag opened.data opened.children

@[simp] theorem extend_nil (opened : Unfinished) : opened.extend [] [] = opened := by
  simp [extend]

@[simp] theorem extend_extend (opened : Unfinished) (data more : Text)
    (children others : List Element) :
    (opened.extend data children).extend more others
      = opened.extend (data ++ more) (children ++ others) := by
  simp [extend]

end Unfinished

/-- A machine that builds a tree. -/
inductive Builder where
  /-- The innermost open element lies on top of those around it. -/
  | building (inner : Unfinished) (outer : List Unfinished)
  /-- The tree is finished, with the text that is left. -/
  | built (root : Element) (rest : Text)
  | failed (error : Error)

namespace Builder

def start (tag : StartTag) : Builder := building (.ofTag tag) []

/-- The finished element goes to the one around it, or it is the root. -/
def close (inner : Unfinished) (rest : Text) : List Unfinished → Builder
  | [] => built inner.element rest
  | parent :: outer => building (parent.extend [] [inner.element]) outer

/-- The text ended inside of an element. Only the root may lack its end tag. -/
def finish (inner : Unfinished) (rest : Text) : List Unfinished → Builder
  | [] => built inner.element rest
  | _ :: _ => failed (.unexpectedEnd inner.tag.name)

/-- Takes one token. A machine that has stopped takes no more. -/
def step : Builder → Pull → Builder
  | building inner outer, pull =>
    match pull.outcome with
    | .error error => failed error
    | .ok none => finish inner pull.rest outer
    | .ok (some (.opening tag)) => building (.ofTag tag) (inner :: outer)
    | .ok (some (.data piece)) => building (inner.extend piece []) outer
    | .ok (some (.closing found)) =>
      if found = inner.tag.name then close inner pull.rest outer
      else failed (.mismatchedTag inner.tag.name found pull.offset)
  | stopped, _ => stopped

def run (builder : Builder) (pulls : List Pull) : Builder := pulls.foldl step builder

/-- The document or the error, once the machine has stopped. -/
def result? (prolog : Text) : Builder → Option (Except Error Document)
  | building _ _ => none
  | built root rest => some (.ok ⟨prolog, root, rest⟩)
  | failed error => some (.error error)

@[simp] theorem run_cons (builder : Builder) (pull : Pull) (pulls : List Pull) :
    builder.run (pull :: pulls) = (builder.step pull).run pulls := rfl

theorem run_append (builder : Builder) (first second : List Pull) :
    builder.run (first ++ second) = (builder.run first).run second := List.foldl_append ..

/-- A machine that has stopped stays as it is. -/
theorem run_of_stopped {builder : Builder} (stopped : ∀ inner outer, builder ≠ building inner outer)
    (pulls : List Pull) : builder.run pulls = builder := by
  induction pulls with
  | nil => rfl
  | cons pull pulls ih =>
    cases builder with
    | building inner outer => exact absurd rfl (stopped inner outer)
    | built => exact ih
    | failed => exact ih

/-- Behind the token at which the machine stops, any others may follow. -/
theorem run_stop {builder between reached : Builder} {taken : List Pull} {last : Pull}
    (run : builder.run taken = between) (stop : between.step last = reached)
    (stopped : ∀ inner outer, reached ≠ building inner outer) (others : List Pull) :
    builder.run (taken ++ last :: others) = reached := by
  rw [run_append, run, run_cons, stop, run_of_stopped stopped]

end Builder

section

variable {stream after : TokenStream} {outcome : Except Error (Option Token)}

theorem pull_of_next (next : stream.next = (outcome, after)) :
    stream.pull = ⟨stream.offset, outcome, after.rest⟩ := by
  rw [TokenStream.pull, next]

theorem pulls_of_token {token : Token} (next : stream.next = (.ok (some token), after)) :
    stream.pulls = stream.pull :: after.pulls := by
  rw [TokenStream.pulls]
  split <;> simp_all

/-- Nothing follows the end and nothing follows an error. -/
theorem pulls_of_stop (next : stream.next = (outcome, after))
    (stop : ∀ token, outcome ≠ .ok (some token)) : stream.pulls = [stream.pull] := by
  rw [TokenStream.pulls]
  split
  · rename_i token behind pulled
    rw [next] at pulled
    exact absurd (Prod.mk.inj pulled).1 (stop token)
  · rfl
  · rfl

variable {inner : Unfinished} {outer : List Unfinished}

theorem step_opening {tag : StartTag} (next : stream.next = (.ok (some (.opening tag)), after)) :
    (Builder.building inner outer).step stream.pull
      = .building (.ofTag tag) (inner :: outer) := by
  rw [pull_of_next next]
  rfl

theorem step_data {piece : Text} (next : stream.next = (.ok (some (.data piece)), after)) :
    (Builder.building inner outer).step stream.pull
      = .building (inner.extend piece []) outer := by
  rw [pull_of_next next]
  rfl

end

/-- The end tag of the innermost open element closes it. -/
theorem step_closing {pull : Pull} {inner : Unfinished} (outer : List Unfinished)
    (closes : pull.outcome = .ok (some (.closing inner.tag.name))) :
    (Builder.building inner outer).step pull = .close inner pull.rest outer := by
  rw [Builder.step, closes]
  exact if_pos rfl

/-- The machine takes tokens off a list until it has reached another state. -/
def Takes (builder : Builder) (pulls : List Pull) (reached : Builder) (rest : List Pull) : Prop :=
  ∃ taken, pulls = taken ++ rest ∧ builder.run taken = reached

section

variable {builder between reached : Builder} {pulls others rest : List Pull}

theorem Takes.refl (builder : Builder) (pulls : List Pull) : Takes builder pulls builder pulls :=
  ⟨[], rfl, rfl⟩

theorem Takes.trans (first : Takes builder pulls between others)
    (second : Takes between others reached rest) : Takes builder pulls reached rest := by
  obtain ⟨front, rfl, rfl⟩ := first
  obtain ⟨back, rfl, rfl⟩ := second
  exact ⟨front ++ back, (List.append_assoc ..).symm, Builder.run_append ..⟩

theorem Takes.pull {pull : Pull} (stepped : builder.step pull = reached) :
    Takes builder (pull :: rest) reached rest := ⟨[pull], rfl, stepped⟩

end

/-- What is read in front of `rest` is put into the innermost open element, whatever this is. -/
def Fills (stream : TokenStream) (data : Text) (children : List Element) (rest : List Pull) :
    Prop :=
  ∀ inner outer, Takes (.building inner outer) stream.pulls
    (.building (inner.extend data children) outer) rest

section

variable {stream after behind : TokenStream} {data : Text} {children : List Element}
  {rest : List Pull}

theorem Fills.nil (stream : TokenStream) : Fills stream [] [] stream.pulls := fun inner outer => by
  rw [Unfinished.extend_nil]
  exact .refl _ _

theorem Fills.text {piece : Text} (next : stream.next = (.ok (some (.data piece)), after))
    (others : Fills after data children rest) : Fills stream (piece ++ data) children rest := by
  intro inner outer
  have filled := others (inner.extend piece []) outer
  rw [Unfinished.extend_extend, List.nil_append] at filled
  rw [pulls_of_token next]
  exact (Takes.pull (step_data next)).trans filled

variable {tag : StartTag} {innerData : Text} {innerChildren : List Element} {last : Pull}

/-- A child is pushed and filled, and its end tag puts it into the element around it. -/
theorem takes_child (next : stream.next = (.ok (some (.opening tag)), after))
    (own : Fills after innerData innerChildren (last :: behind.pulls))
    (closes : last.outcome = .ok (some (.closing tag.name))) (inner : Unfinished)
    (outer : List Unfinished) :
    Takes (.building inner outer) stream.pulls
      (.building (inner.extend [] [.ofTag tag innerData innerChildren]) outer) behind.pulls := by
  have filled := own (.ofTag tag) (inner :: outer)
  have attached : (Builder.building ((Unfinished.ofTag tag).extend innerData innerChildren)
      (inner :: outer)).step last
        = .building (inner.extend [] [.ofTag tag innerData innerChildren]) outer :=
    step_closing _ closes
  rw [pulls_of_token next]
  exact (Takes.pull (step_opening next)).trans (filled.trans (.pull attached))

theorem Fills.child (next : stream.next = (.ok (some (.opening tag)), after))
    (own : Fills after innerData innerChildren (last :: behind.pulls))
    (closes : last.outcome = .ok (some (.closing tag.name)))
    (others : Fills behind data children rest) :
    Fills stream data (.ofTag tag innerData innerChildren :: children) rest := by
  intro inner outer
  have filled := others (inner.extend [] [.ofTag tag innerData innerChildren]) outer
  rw [Unfinished.extend_extend, List.nil_append, List.singleton_append] at filled
  exact (takes_child next own closes inner outer).trans filled

end

/-- What is read inside an element is put into it. The last token is its end tag, which would end
any other element of this name too, or the end of the text. -/
theorem fills_of_contentRead {isRoot : Bool} {name data : Text} {stream final : TokenStream}
    {children : List Element} (read : ContentRead isRoot name stream data children final) :
    ∃ last unread, Fills stream data children (last :: unread) ∧ last.rest = final.rest ∧
      (last.outcome = .ok (some (.closing name)) ∧ unread = final.pulls ∧
          ContentRead false name stream data children final ∨
        last.outcome = .ok none ∧ isRoot = true) := by
  induction read with
  | @ended name stream final next =>
    have fills := Fills.nil stream
    rw [pulls_of_stop next (by simp)] at fills
    refine ⟨stream.pull, [], fills, ?_, Or.inr ⟨?_, rfl⟩⟩ <;> rw [pull_of_next next]
  | @closed isRoot name stream final next =>
    have fills := Fills.nil stream
    rw [pulls_of_token next] at fills
    refine ⟨stream.pull, final.pulls, fills, ?_, Or.inl ⟨?_, rfl, .closed next⟩⟩ <;>
      rw [pull_of_next next]
  | text next rest ih =>
    obtain ⟨last, unread, fills, left, ends⟩ := ih
    refine ⟨last, unread, Fills.text next fills, left, ends.imp_left ?_⟩
    rintro ⟨closes, same, inside⟩
    exact ⟨closes, same, .text next inside⟩
  | child next inner rest innerIh restIh =>
    obtain ⟨close, _, own, _, ownEnds⟩ := innerIh
    obtain ⟨closes, rfl, _⟩ := ownEnds.resolve_right (by simp)
    obtain ⟨last, unread, fills, left, ends⟩ := restIh
    refine ⟨last, unread, Fills.child next own closes fills, left, ends.imp_left ?_⟩
    rintro ⟨closes, same, inside⟩
    exact ⟨closes, same, .child next inner inside⟩

/-- One of the tokens makes the machine fail. -/
def Breaks (builder : Builder) (pulls : List Pull) (error : Error) : Prop :=
  ∃ inner outer last unread, Takes builder pulls (.building inner outer) (last :: unread) ∧
    (Builder.building inner outer).step last = .failed error

theorem Breaks.behind {builder between : Builder} {pulls others : List Pull} {error : Error}
    (breaks : Breaks between others error) (takes : Takes builder pulls between others) :
    Breaks builder pulls error := by
  obtain ⟨inner, outer, last, unread, reached, fails⟩ := breaks
  exact ⟨inner, outer, last, unread, takes.trans reached, fails⟩

/-- Where reading inside an element fails, the machine fails with the same error. -/
theorem breaks_of_readInside {isRoot : Bool} {name : Text} {stream : TokenStream}
    {error : Error} (failure : readInside isRoot name stream = .error error) :
    ∀ inner outer, inner.tag.name = name → (isRoot = false → outer ≠ []) →
      Breaks (.building inner outer) stream.pulls error := by
  -- For every stack at once: data changes the element on top of it, and a child is put on top.
  induction isRoot, name, stream using readInside_induction with
  | stopped isRoot name stream outcome after next stop =>
    intro inner outer named inside
    have takes := Takes.refl (.building inner outer) stream.pulls
    rw [pulls_of_stop next stop] at takes
    refine ⟨inner, outer, stream.pull, [], pulls_of_stop next stop ▸ takes, ?_⟩
    rw [readInside_eq, next] at failure
    rw [pull_of_next next]
    cases outcome with
    | error problem =>
      cases failure
      rfl
    | ok token =>
      cases token with
      | some token => exact absurd rfl (stop token)
      | none =>
        cases isRoot with
        | true => cases failure
        | false =>
          cases failure
          cases outer with
          | nil => exact absurd rfl (inside rfl)
          | cons parent outer => exact congrArg _ (congrArg _ named)
  | closing isRoot name stream found after next =>
    intro inner outer named _
    rw [readInside_eq, next] at failure
    dsimp only at failure
    split at failure
    · cases failure
    · rename_i other
      cases failure
      refine ⟨inner, outer, stream.pull, after.pulls, ?_, ?_⟩
      · rw [pulls_of_token next]
        exact .refl _ _
      · rw [pull_of_next next, ← named]
        exact if_neg (named ▸ other)
  | data isRoot name stream piece after next ih =>
    intro inner outer named inside
    rw [readInside_eq, next] at failure
    dsimp only at failure
    cases read : readInside isRoot name after with
    | ok rest =>
      rw [read] at failure
      cases failure
    | error problem =>
      rw [read] at failure
      cases failure
      have breaks := ih read (inner.extend piece []) outer named inside
      rw [pulls_of_token next]
      exact breaks.behind (.pull (step_data next))
  | opening isRoot name stream tag after next innerIh restIh =>
    intro inner outer named inside
    rw [readInside_eq, next] at failure
    dsimp only at failure
    cases nested : readInside false tag.name after with
    | error problem =>
      rw [nested] at failure
      cases failure
      have breaks := innerIh nested (.ofTag tag) (inner :: outer) rfl (by simp)
      rw [pulls_of_token next]
      exact breaks.behind (.pull (step_opening next))
    | ok content =>
      obtain ⟨data, children, behind⟩ := content
      have read := contentRead_of_readInside nested
      rw [nested] at failure
      dsimp only [bind, Except.bind] at failure
      cases others : readInside isRoot name behind with
      | ok rest =>
        rw [others] at failure
        cases failure
      | error problem =>
        rw [others] at failure
        cases failure
        obtain ⟨close, _, own, _, ends⟩ := fills_of_contentRead read
        obtain ⟨closes, rfl, _⟩ := ends.resolve_right (by simp)
        have breaks := restIh data children behind read others
          (inner.extend [] [.ofTag tag data children]) outer named inside
        exact breaks.behind (takes_child next own closes inner outer)

/-- The text behind a root that is closed is not read: any other text may stand there. -/
theorem ofText_append_of_contentRead {lookahead : Nat} {text prolog data : Text} {tag : StartTag}
    {root : Element} {stream final : TokenStream} {children : List Element}
    (first : (TokenStream.ofText lookahead text).first = (.ok (prolog, tag), stream))
    (read : ContentRead false tag.name stream data children final)
    (success : Document.ofText lookahead text = .ok ⟨prolog, root, final.rest⟩) :
    ∃ front, text = front ++ final.rest ∧
      ∀ other, Document.ofText lookahead (front ++ other) = .ok ⟨prolog, root, other⟩ := by
  obtain ⟨opening, place, noStart, opens, fits, whole, rfl⟩ := first_eq_ok first
  obtain ⟨inside, closing, last, valid, insideFits, consumed, rfl⟩ :=
    Layout.exists_layout_of_contentRead opens fits read
  let layout (other : Text) : DocumentLayout := ⟨prolog, tag, opening, inside, closing, other⟩
  let front := prolog ++ (opening ++ (inside.written ++ closing))
  have written : ∀ other, (layout other).written = front ++ other := fun other => by
    rw [(layout other).written_eq]
    simp [layout, front]
  have reads : ∀ other, Document.ofText lookahead (front ++ other) = .ok (layout other).document :=
    fun other => by
      have laid : (layout other).Valid := ⟨noStart, valid⟩
      rw [← written]
      exact laid.ofText_eq_ok insideFits
  have same : text = front ++ last.rest := by
    rw [whole, consumed]
    simp [front]
  refine ⟨front, same, fun other => ?_⟩
  rw [same, show (TokenStream.mk last _ _ _).rest = last.rest from rfl, reads] at success
  have roots : (layout other).document.root = root :=
    congrArg Document.root (Except.ok.inj success)
  rw [reads, ← roots]
  rfl

/-- Reading a document is running the machine behind its first start tag. The machine stops at one
token, the last that is read: whatever tokens follow it make no difference. If it is the end tag of
the root, then neither does the text behind it. -/
theorem ofBytes_eq_run {lookahead : Nat} {text prolog : Text} {tag : StartTag}
    {stream : TokenStream}
    (first : (TokenStream.ofText lookahead text).first = (.ok (prolog, tag), stream)) :
    ∃ taken last unread, stream.pulls = taken ++ last :: unread ∧
      (∃ inner outer, (Builder.start tag).run taken = .building inner outer) ∧
      (∀ others, ((Builder.start tag).run (taken ++ last :: others)).result? prolog
        = some (Document.ofBytes lookahead (Text.bytes text))) ∧
      ∀ root rest name, last.outcome = .ok (some (.closing name)) →
        (Builder.start tag).run (taken ++ [last]) = .built root rest →
        ∃ front, text = front ++ rest ∧
          ∀ other, Document.ofBytes lookahead (Text.bytes (front ++ other))
            = .ok ⟨prolog, root, other⟩ := by
  have result := ofText_eq lookahead text
  rw [first] at result
  dsimp only at result
  simp only [ofBytes_bytes]
  cases inside : readInside true tag.name stream with
  | error error =>
    rw [inside] at result
    obtain ⟨inner, outer, last, unread, ⟨taken, pulls, reached⟩, fails⟩ :=
      breaks_of_readInside inside (.ofTag tag) [] rfl (by simp)
    have stops : ∀ others, (Builder.start tag).run (taken ++ last :: others) = .failed error :=
      Builder.run_stop reached fails (by simp)
    refine ⟨taken, last, unread, pulls, ⟨inner, outer, reached⟩, fun others => ?_, ?_⟩
    · rw [stops, result]
      rfl
    · intro root rest name _ built
      rw [stops] at built
      cases built
  | ok content =>
    obtain ⟨data, children, final⟩ := content
    rw [inside] at result
    obtain ⟨last, unread, fills, left, ends⟩ :=
      fills_of_contentRead (contentRead_of_readInside inside)
    obtain ⟨taken, pulls, reached⟩ := fills (.ofTag tag) []
    have finishes : (Builder.building ((Unfinished.ofTag tag).extend data children) []).step last
        = .built (.ofTag tag data children) final.rest := by
      rw [← left]
      rcases ends with ⟨closes, _⟩ | ⟨ended, _⟩
      · exact step_closing [] closes
      · rw [Builder.step, ended]
        rfl
    have stops : ∀ others, (Builder.start tag).run (taken ++ last :: others)
        = .built (.ofTag tag data children) final.rest :=
      Builder.run_stop reached finishes (by simp)
    refine ⟨taken, last, unread, pulls, ⟨_, _, reached⟩, fun others => ?_, ?_⟩
    · rw [stops, result]
      rfl
    · intro root rest name closes built
      rw [stops] at built
      cases built
      rcases ends with ⟨_, _, read⟩ | ⟨ended, _⟩
      · exact ofText_append_of_contentRead first read result
      · rw [closes] at ended
        cases ended

/-- Broken markup behind the root is never read. -/
theorem broken_markup_behind_root :
    let tag : StartTag := ⟨['a'], [], false⟩
    let layout : DocumentLayout := ⟨[' '], tag, ['<', 'a', '>'],
      .text ['1'] (.element ⟨['b'], [], true⟩ ['<', 'b', '/', '>'] .nil [] .nil),
      ['<', '/', 'a', '>'], ['<', '/', '<']⟩
    ∃ stream taken last unread,
      (TokenStream.ofText 5 layout.written).first = (.ok ([' '], tag), stream) ∧
      stream.pulls = taken ++ last :: unread ∧
      ∀ others, ((Builder.start tag).run (taken ++ last :: others)).result? [' ']
        = some (.ok ⟨[' '], .ofTag tag ['1'] [.ofTag ⟨['b'], [], true⟩ [] []],
          ['<', '/', '<']⟩) := by
  intro tag layout
  have opens : StartTagText tag ['<', 'a', '>'] := StartTag.startTagText (by decide)
  have single : StartTagText ⟨['b'], [], true⟩ ['<', 'b', '/', '>'] :=
    StartTag.startTagText (by decide)
  have valid : layout.Valid :=
    ⟨by decide, .paired opens rfl (.text (by decide) (by decide) rfl (.single single rfl .nil))
      (endTagText_written (by decide)) .nil⟩
  have success : Document.ofBytes 5 (Text.bytes layout.written) = .ok layout.document := by
    rw [ofBytes_bytes]
    exact valid.ofText_eq_ok (by decide)
  obtain ⟨place, first⟩ := opens.first (show _ ≤ max 5 1 by decide) valid.prolog
    (layout.inside.written ++ (layout.closing ++ layout.epilogue))
  obtain ⟨taken, last, unread, pulls, -, stops, -⟩ := ofBytes_eq_run first
  exact ⟨_, taken, last, unread, first, pulls, fun others => (stops others).trans
    (congrArg some success)⟩

end MailMerge.Markup
