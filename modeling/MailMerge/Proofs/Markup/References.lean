import MailMerge.Markup.Escape
import Mathlib.Data.List.Infix
import Mathlib.Data.List.Count

set_option autoImplicit false

namespace MailMerge.Markup

/-- The plain text of character data, which is read once from left to right. An ampersand that
begins none of the three references stands for itself, like every other character. -/
def unescape : Text → Text
  | '&' :: 'a' :: 'm' :: 'p' :: ';' :: rest => '&' :: unescape rest
  | '&' :: 'l' :: 't' :: ';' :: rest => '<' :: unescape rest
  | '&' :: 'g' :: 't' :: ';' :: rest => '>' :: unescape rest
  | c :: rest => c :: unescape rest
  | [] => []

/-- One of the three references stands at the beginning of a text. -/
def BeginsReference (text : Text) : Prop :=
  ['&', 'a', 'm', 'p', ';'] <+: text ∨ ['&', 'l', 't', ';'] <+: text ∨ ['&', 'g', 't', ';'] <+: text

/-- Nothing in the data can be taken for markup. -/
structure Referenced (data : Text) : Prop where
  not_less : '<' ∉ data
  not_greater : '>' ∉ data
  ampersand : ∀ rest, '&' :: rest <:+ data → BeginsReference ('&' :: rest)

theorem escapeChar_cases (c : Char) :
    (c = '&' ∧ escapeChar c = ['&', 'a', 'm', 'p', ';']) ∨
      (c = '<' ∧ escapeChar c = ['&', 'l', 't', ';']) ∨
      (c = '>' ∧ escapeChar c = ['&', 'g', 't', ';']) ∨
      (c ≠ '&' ∧ c ≠ '<' ∧ c ≠ '>' ∧ escapeChar c = [c]) := by
  by_cases ampersand : c = '&'
  · subst ampersand
    exact .inl ⟨rfl, rfl⟩
  · by_cases less : c = '<'
    · subst less
      exact .inr (.inl ⟨rfl, rfl⟩)
    · by_cases greater : c = '>'
      · subst greater
        exact .inr (.inr (.inl ⟨rfl, rfl⟩))
      · exact .inr (.inr (.inr ⟨ampersand, less, greater, by simp [escapeChar, *]⟩))

theorem unescape_cons {c : Char} (other : c ≠ '&') (rest : Text) :
    unescape (c :: rest) = c :: unescape rest := by
  rw [unescape]
  all_goals
    intro _ same
    exact absurd same other

/-- A reference is decoded whatever stands behind it. -/
theorem unescape_escapeChar (c : Char) (rest : Text) :
    unescape (escapeChar c ++ rest) = c :: unescape rest := by
  obtain ⟨rfl, written⟩ | ⟨rfl, written⟩ | ⟨rfl, written⟩ | ⟨other, -, -, written⟩ :=
    escapeChar_cases c
  · rw [written]
    rfl
  · rw [written]
    rfl
  · rw [written]
    rfl
  · rw [written]
    exact unescape_cons other rest

/-- What is written for a character can be put in front of data. -/
theorem Referenced.escapeChar {data : Text} (referenced : Referenced data) (c : Char) :
    Referenced (escapeChar c ++ data) := by
  obtain ⟨less, greater, ampersand⟩ := referenced
  obtain ⟨rfl, written⟩ | ⟨rfl, written⟩ | ⟨rfl, written⟩ | ⟨other, _, _, written⟩ :=
    escapeChar_cases c
  all_goals
    rw [written]
    refine ⟨by simp [*, Ne.symm], by simp [*, Ne.symm], fun rest suffix => ?_⟩
    simp only [List.cons_append, List.nil_append, List.suffix_cons_iff] at suffix
  · obtain same | deeper := suffix
    · rw [same]
      exact .inl ⟨data, rfl⟩
    · exact ampersand rest (by simpa using deeper)
  · obtain same | deeper := suffix
    · rw [same]
      exact .inr (.inl ⟨data, rfl⟩)
    · exact ampersand rest (by simpa using deeper)
  · obtain same | deeper := suffix
    · rw [same]
      exact .inr (.inr ⟨data, rfl⟩)
    · exact ampersand rest (by simpa using deeper)
  · obtain same | deeper := suffix
    · exact absurd (List.cons.inj same).1.symm other
    · exact ampersand rest deeper

@[simp] theorem escape_nil : escape [] = [] := rfl

theorem escape_append (first second : Text) :
    escape (first ++ second) = escape first ++ escape second := by
  simp only [escape_eq_flatMap, List.flatMap_append]

theorem escape_cons (c : Char) (rest : Text) :
    escape (c :: rest) = escapeChar c ++ escape rest := by
  simp only [escape_eq_flatMap, List.flatMap_cons]

/-- Decoding is behind the last reference of an escaped text when it comes to its end. -/
theorem unescape_escape_append (text rest : Text) :
    unescape (escape text ++ rest) = text ++ unescape rest := by
  induction text with
  | nil => rfl
  | cons c text ih =>
    rw [escape_cons, List.append_assoc, unescape_escapeChar, ih]
    rfl

theorem unescape_escape (text : Text) : unescape (escape text) = text := by
  simpa [unescape] using unescape_escape_append text []

theorem referenced_escape (text : Text) : Referenced (escape text) := by
  induction text with
  | nil => exact ⟨by simp, by simp, by simp⟩
  | cons c text ih =>
    rw [escape_cons]
    exact ih.escapeChar c

theorem Referenced.of_suffix {data rest : Text} (referenced : Referenced data)
    (suffix : rest <:+ data) : Referenced rest :=
  ⟨fun member => referenced.not_less (suffix.mem member),
    fun member => referenced.not_greater (suffix.mem member),
    fun rest inside => referenced.ampersand rest (inside.trans suffix)⟩

/-- Data in which nothing can be taken for markup is what its plain text is escaped to. -/
theorem Referenced.escape_unescape {data : Text} (referenced : Referenced data) :
    escape (unescape data) = data := by
  fun_induction unescape data with
  | case1 rest ih =>
    rw [escape_cons, ih (referenced.of_suffix ⟨['&', 'a', 'm', 'p', ';'], rfl⟩)]
    rfl
  | case2 rest ih =>
    rw [escape_cons, ih (referenced.of_suffix ⟨['&', 'l', 't', ';'], rfl⟩)]
    rfl
  | case3 rest ih =>
    rw [escape_cons, ih (referenced.of_suffix ⟨['&', 'g', 't', ';'], rfl⟩)]
    rfl
  | case4 c rest notAmp notLess notGreater ih =>
    have other : c ≠ '&' := by
      rintro rfl
      obtain ⟨behind, begins⟩ | ⟨behind, begins⟩ | ⟨behind, begins⟩ :=
        referenced.ampersand rest (List.suffix_refl _)
      · exact notAmp behind rfl (List.cons.inj begins).2.symm
      · exact notLess behind rfl (List.cons.inj begins).2.symm
      · exact notGreater behind rfl (List.cons.inj begins).2.symm
    have less : c ≠ '<' := fun same => referenced.not_less (same ▸ List.mem_cons_self)
    have greater : c ≠ '>' := fun same => referenced.not_greater (same ▸ List.mem_cons_self)
    rw [escape_cons, ih (referenced.of_suffix (List.suffix_cons c rest))]
    simp [Markup.escapeChar, other, less, greater]
  | case5 => rfl

theorem escape_eq_iff {text data : Text} :
    escape text = data ↔ Referenced data ∧ unescape data = text := by
  constructor
  · rintro rfl
    exact ⟨referenced_escape text, unescape_escape text⟩
  · rintro ⟨referenced, rfl⟩
    exact referenced.escape_unescape

/-- Every reference takes its own number of characters more than what it stands for. -/
theorem length_escape (text : Text) :
    (escape text).length
      = text.length + 4 * text.count '&' + 3 * text.count '<' + 3 * text.count '>' := by
  induction text with
  | nil => rfl
  | cons c text ih =>
    rw [escape_cons, List.length_append, ih]
    obtain ⟨rfl, written⟩ | ⟨rfl, written⟩ | ⟨rfl, written⟩ | ⟨ampersand, less, greater, written⟩ :=
      escapeChar_cases c
    all_goals
      rw [written]
      simp [*]
      omega

theorem isPlain_iff {text : Text} : isPlain text = true ↔ '&' ∉ text ∧ '<' ∉ text ∧ '>' ∉ text := by
  simp only [isPlain, isMarkupChar, List.all_eq_true, Bool.not_eq_true', Bool.or_eq_false_iff,
    decide_eq_false_iff_not]
  constructor
  · intro plain
    exact ⟨fun member => (plain _ member).1.1 rfl, fun member => (plain _ member).1.2 rfl,
      fun member => (plain _ member).2 rfl⟩
  · rintro ⟨ampersand, less, greater⟩ c member
    exact ⟨⟨fun same => ampersand (same ▸ member), fun same => less (same ▸ member)⟩,
      fun same => greater (same ▸ member)⟩

/-- A text is left as it is exactly when it has nothing to escape. -/
theorem isPlain_iff_escape_eq {text : Text} : isPlain text = true ↔ escape text = text := by
  constructor
  · intro plain
    rw [escape_eq_flatMap, flatMap_escapeChar_of_isPlain plain]
  · intro same
    have length := length_escape text
    rw [same] at length
    exact isPlain_iff.2 ⟨List.count_eq_zero.1 (by omega), List.count_eq_zero.1 (by omega),
      List.count_eq_zero.1 (by omega)⟩

/-- Escaping is undone by decoding, also of texts that read like escaped ones. Of all character data
that decodes to a text, the text escaped is the one in which nothing can be taken for markup, and it
is decoded as part of longer data too. Different texts are escaped to different data, and texts in a
row are escaped one by one. Every text is written as its characters are, and one is not written anew
exactly when it is its own character data. -/
theorem escape_undone (text : Text) :
    unescape (escape text) = text ∧
      (∀ data, escape text = data ↔ Referenced data ∧ unescape data = text) ∧
      (∀ rest, unescape (escape text ++ rest) = text ++ unescape rest) ∧
      (∀ other, escape other = escape text ↔ other = text) ∧
      (∀ rest, escape (text ++ rest) = escape text ++ escape rest) ∧
      (Escaped.ofText text).data = text.flatMap escapeChar ∧
      ((∃ kept, Escaped.ofText text = .same kept) ↔ escape text = text) := by
  refine ⟨unescape_escape text, fun data => escape_eq_iff, unescape_escape_append text,
    fun other => ⟨fun same => ?_, fun same => same ▸ rfl⟩, escape_append text,
    escape_eq_flatMap text, ?_⟩
  · rw [← unescape_escape other, same, unescape_escape]
  · rw [← isPlain_iff_escape_eq, Escaped.ofText]
    split
    · rename_i plain
      exact ⟨fun _ => plain, fun _ => ⟨text, rfl⟩⟩
    · rename_i changed
      exact ⟨fun ⟨_, same⟩ => Escaped.noConfusion same, fun plain => absurd plain changed⟩

/-- A text that reads like an escaped one comes back as it was. -/
example : escape ['&', 'l', 't', ';'] = ['&', 'a', 'm', 'p', ';', 'l', 't', ';'] ∧
    unescape (escape ['&', 'l', 't', ';']) = ['&', 'l', 't', ';'] ∧
    unescape (unescape (escape ['&', 'l', 't', ';'])) = ['<'] := by decide

end MailMerge.Markup
