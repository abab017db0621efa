import MailMerge.Fill.Pass

set_option autoImplicit false

namespace MailMerge.Fill

variable {α β : Type}

/-- The units begin with the characters of a delimiter, one for one. -/
def Begins (char : α → Option Char) (delimiter : Text) (units : List α) : Prop :=
  delimiter.map some <+: units.map char

instance (char : α → Option Char) (delimiter : Text) (units : List α) :
    Decidable (Begins char delimiter units) :=
  inferInstanceAs (Decidable (_ <+: _))

/-- The units in front of the first place where a delimiter begins, and the units from there on. -/
def cutBefore? (char : α → Option Char) (delimiter : Text) : List α → Option (List α × List α)
  | [] => none
  | unit :: rest =>
    if Begins char delimiter (unit :: rest) then some ([], unit :: rest)
    else (cutBefore? char delimiter rest).map fun (before, found) => (unit :: before, found)

/-- What a row of units holds first. -/
inductive Found (α : Type) where
  /-- No opening delimiter. -/
  | nothing
  /-- An opening delimiter at the head of `rest`, with no closing one behind it. -/
  | unclosed (before rest : List α)
  /-- A placeholder with both its delimiters, and the path between them. -/
  | placeholder (before span : List α) (path : Text) (after : List α)

/-- Looks for the first opening delimiter and then for the first closing one behind it. -/
def find (char : α → Option Char) (markers : Markers) (units : List α) : Found α :=
  match cutBefore? char markers.opening units with
  | none => .nothing
  | some (before, opened) =>
    match cutBefore? char markers.closing (opened.drop markers.opening.length) with
    | none => .unclosed before opened
    | some (inside, _) =>
      let length := markers.opening.length + inside.length + markers.closing.length
      .placeholder before (opened.take length) (Text.trim (inside.filterMap char))
        (opened.drop length)

/-- What a scan makes of a row of units, from its head on. -/
inductive Scan (α : Type) where
  /-- No opening delimiter is left. -/
  | finished (rest : List α)
  /-- The opening delimiter at the head of `rest` is never closed. -/
  | unterminated (before rest : List α)
  /-- A placeholder whose path has no value. -/
  | unresolved (before span : List α) (path : Text) (next : Scan α)
  /-- A placeholder whose path has a value. -/
  | replaced (before span : List α) (path value : Text) (next : Scan α)

/-- `found` is what is left of the units from the first place on where a delimiter begins. -/
structure FirstAt (char : α → Option Char) (delimiter : Text) (units before found : List α) :
    Prop where
  append : units = before ++ found
  begins : Begins char delimiter found
  first : ∀ front behind, units = front ++ behind → Begins char delimiter behind →
    before.length ≤ front.length

theorem firstAt_of_cutBefore? {char : α → Option Char} {delimiter : Text}
    {units before found : List α}
    (success : cutBefore? char delimiter units = some (before, found)) :
    FirstAt char delimiter units before found := by
  induction units generalizing before found with
  | nil => simp [cutBefore?] at success
  | cons unit rest ih =>
    rw [cutBefore?] at success
    by_cases here : Begins char delimiter (unit :: rest)
    · simp only [here, ↓reduceIte, Option.some.injEq, Prod.mk.injEq] at success
      obtain ⟨rfl, rfl⟩ := success
      exact ⟨rfl, here, fun front _ _ _ => Nat.zero_le front.length⟩
    · rw [if_neg here] at success
      obtain ⟨⟨before, found⟩, cut, pair⟩ := Option.map_eq_some_iff.1 success
      obtain ⟨rfl, rfl⟩ := Prod.mk.inj pair
      obtain ⟨append, begins, first⟩ := ih cut
      refine ⟨by rw [append, List.cons_append], begins, ?_⟩
      intro front behind split elsewhere
      cases front with
      | nil => exact absurd elsewhere (by rwa [← List.nil_append behind, ← split])
      | cons head front =>
        exact Nat.succ_le_succ (first front behind (List.cons.inj split).2 elsewhere)

theorem Begins.map_take {char : α → Option Char} {delimiter : Text} {units : List α}
    (begins : Begins char delimiter units) :
    (units.take delimiter.length).map char = delimiter.map some := by
  have taken := List.prefix_iff_eq_take.1 begins
  rw [List.length_map, ← List.map_take] at taken
  exact taken.symm

theorem Begins.length_le {char : α → Option Char} {delimiter : Text} {units : List α}
    (begins : Begins char delimiter units) : delimiter.length ≤ units.length := by
  simpa using List.IsPrefix.length_le begins

theorem cutBefore?_of_find_nothing {char : α → Option Char} {markers : Markers} {units : List α}
    (found : find char markers units = .nothing) :
    cutBefore? char markers.opening units = none := by
  unfold find at found
  split at found
  · assumption
  · split at found <;> simp at found

theorem cutBefore?_of_find_unclosed {char : α → Option Char} {markers : Markers}
    {units before rest : List α} (found : find char markers units = .unclosed before rest) :
    cutBefore? char markers.opening units = some (before, rest) ∧
      cutBefore? char markers.closing (rest.drop markers.opening.length) = none := by
  unfold find at found
  split at found
  · simp at found
  · split at found
    · rename_i openingCut _ closingCut
      simp only [Found.unclosed.injEq] at found
      obtain ⟨rfl, rfl⟩ := found
      exact ⟨openingCut, closingCut⟩
    · simp at found

/-- A placeholder is all that its two cuts leave between them, with both delimiters. -/
theorem cutBefore?_of_find_placeholder {char : α → Option Char} {markers : Markers}
    {units before span : List α} {path : Text} {after : List α}
    (found : find char markers units = .placeholder before span path after) :
    ∃ inside closed, cutBefore? char markers.opening units = some (before, span ++ after) ∧
      cutBefore? char markers.closing ((span ++ after).drop markers.opening.length)
        = some (inside, closed) ∧
      path = Text.trim (inside.filterMap char) ∧
      span.map char = markers.opening.map some ++ inside.map char ++ markers.closing.map some := by
  unfold find at found
  split at found
  · simp at found
  · rename_i _ opened openingCut
    split at found
    · simp at found
    · rename_i inside closed closingCut
      simp only [Found.placeholder.injEq] at found
      obtain ⟨rfl, rfl, rfl, rfl⟩ := found
      refine ⟨inside, closed, ?_, ?_, rfl, ?_⟩
      · rw [List.take_append_drop]
        exact openingCut
      · rw [List.take_append_drop]
        exact closingCut
      · have opening := firstAt_of_cutBefore? openingCut
        have closing := firstAt_of_cutBefore? closingCut
        rw [Nat.add_assoc, List.take_add, closing.append, List.take_length_add_append,
          List.map_append, List.map_append, opening.begins.map_take, closing.begins.map_take,
          List.append_assoc]

section

variable {char : α → Option Char} {markers : Markers} {units before span : List α} {path : Text}
  {after : List α}

theorem append_of_find (found : find char markers units = .placeholder before span path after) :
    units = before ++ (span ++ after) := by
  obtain ⟨_, _, openingCut, _⟩ := cutBefore?_of_find_placeholder found
  exact (firstAt_of_cutBefore? openingCut).append

theorem span_ne_nil (found : find char markers units = .placeholder before span path after) :
    span ≠ [] := by
  obtain ⟨_, _, _, _, _, spelt⟩ := cutBefore?_of_find_placeholder found
  rintro rfl
  simp [markers.opening_ne] at spelt

/-- A placeholder is at least as long as its two delimiters. -/
theorem length_delimiters_le
    (found : find char markers units = .placeholder before span path after) :
    markers.opening.length + markers.closing.length ≤ span.length := by
  obtain ⟨inside, _, _, _, _, spelt⟩ := cutBefore?_of_find_placeholder found
  have length := congrArg List.length spelt
  simp only [List.length_map, List.length_append] at length
  omega

theorem length_after_lt (found : find char markers units = .placeholder before span path after) :
    after.length < units.length := by
  have filled := List.length_pos_iff.2 (span_ne_nil found)
  rw [append_of_find found, List.length_append, List.length_append]
  omega

end

/-- Scans a row from its head on. Whatever a placeholder is replaced by is not scanned. -/
def scan (char : α → Option Char) (markers : Markers) (resolve : Text → Option Text)
    (units : List α) : Scan α :=
  match _found : find char markers units with
  | .nothing => .finished units
  | .unclosed before rest => .unterminated before rest
  | .placeholder before span path after =>
    match resolve path with
    | none => .unresolved before span path (scan char markers resolve after)
    | some value => .replaced before span path value (scan char markers resolve after)
termination_by units.length
decreasing_by all_goals exact length_after_lt _found

section

variable {char : α → Option Char} {markers : Markers} {resolve : Text → Option Text}
  {units before span rest after : List α} {path value : Text}

theorem scan_nothing (found : find char markers units = .nothing) :
    scan char markers resolve units = .finished units := by
  rw [scan]
  split <;> simp_all

theorem scan_unclosed (found : find char markers units = .unclosed before rest) :
    scan char markers resolve units = .unterminated before rest := by
  rw [scan]
  split <;> simp_all

theorem scan_unresolved (found : find char markers units = .placeholder before span path after)
    (missing : resolve path = none) :
    scan char markers resolve units
      = .unresolved before span path (scan char markers resolve after) := by
  rw [scan]
  split <;> simp_all

theorem scan_replaced (found : find char markers units = .placeholder before span path after)
    (present : resolve path = some value) :
    scan char markers resolve units
      = .replaced before span path value (scan char markers resolve after) := by
  rw [scan]
  split <;> simp_all

end

namespace Scan

def source : Scan α → List α
  | finished rest => rest
  | unterminated before rest => before ++ rest
  | unresolved before span _ next => before ++ (span ++ next.source)
  | replaced before span _ _ next => before ++ (span ++ next.source)

/-- The characters of the row that the scan leaves. A value takes the place of its span. -/
def units (char : α → Option Char) : Scan α → List (Option Char)
  | finished rest => rest.map char
  | unterminated before rest => (before ++ rest).map char
  | unresolved before span _ next => (before ++ span).map char ++ next.units char
  | replaced before _ _ value next =>
    before.map char ++ (Markup.escape value).map some ++ next.units char

def asked : Scan α → List Text
  | finished _ => []
  | unterminated _ _ => []
  | unresolved _ _ path next => path :: next.asked
  | replaced _ _ path _ next => path :: next.asked

/-- How many placeholders got a value and how many did not. -/
def tally : Scan α → Tally
  | finished _ => ⟨0, 0⟩
  | unterminated _ _ => ⟨0, 0⟩
  | unresolved _ _ _ next => ⟨next.tally.replaced, next.tally.unresolved + 1⟩
  | replaced _ _ _ _ next => ⟨next.tally.replaced + 1, next.tally.unresolved⟩

/-- The opening delimiter that is never closed: its number in the row that the scan leaves, counted
from 1, and the units from there on. -/
def unterminated? : Scan α → Option (Nat × List α)
  | finished _ => none
  | unterminated before rest => some (before.length + 1, rest)
  | unresolved before span _ next => next.unterminated?.map fun (number, rest) =>
    (before.length + span.length + number, rest)
  | replaced before _ _ value next => next.unterminated?.map fun (number, rest) =>
    (before.length + (Markup.escape value).length + number, rest)

/-- How the scan ends: with its counts, or with an opening delimiter that is never closed and the
text of the units behind it. -/
def outcome (char : α → Option Char) (markers : Markers) (scanned : Scan α) : Except Error Tally :=
  match scanned.unterminated? with
  | none => .ok scanned.tally
  | some (number, rest) =>
    let behind := (rest.drop markers.opening.length).take excerptLength
    .error (.unterminatedPlaceholder number (markers.opening ++ behind.filterMap char))

theorem tally_of_outcome {char : α → Option Char} {scanned : Scan α} {markers : Markers}
    {tally : Tally} (success : scanned.outcome char markers = .ok tally) :
    scanned.tally = tally := by
  unfold outcome at success
  split at success
  · exact Except.ok.inj success
  · simp at success

def map (f : α → β) : Scan α → Scan β
  | finished rest => finished (rest.map f)
  | unterminated before rest => unterminated (before.map f) (rest.map f)
  | unresolved before span path next => unresolved (before.map f) (span.map f) path (next.map f)
  | replaced before span path value next =>
    replaced (before.map f) (span.map f) path value (next.map f)

@[simp] theorem units_map (f : α → β) (char : β → Option Char) (scanned : Scan α) :
    (scanned.map f).units char = scanned.units (char ∘ f) := by
  induction scanned with
  | finished rest => simp [map, units]
  | unterminated before rest => simp [map, units]
  | unresolved before span path next ih => simp [map, units, ih]
  | replaced before span path value next ih => simp [map, units, ih]

@[simp] theorem asked_map (f : α → β) (scanned : Scan α) :
    (scanned.map f).asked = scanned.asked := by
  induction scanned with
  | finished rest => rfl
  | unterminated before rest => rfl
  | unresolved before span path next ih => simp [map, asked, ih]
  | replaced before span path value next ih => simp [map, asked, ih]

@[simp] theorem tally_map (f : α → β) (scanned : Scan α) :
    (scanned.map f).tally = scanned.tally := by
  induction scanned with
  | finished rest => rfl
  | unterminated before rest => rfl
  | unresolved before span path next ih => simp [map, tally, ih]
  | replaced before span path value next ih => simp [map, tally, ih]

@[simp] theorem unterminated?_map (f : α → β) (scanned : Scan α) :
    (scanned.map f).unterminated?
      = scanned.unterminated?.map fun (number, rest) => (number, rest.map f) := by
  induction scanned with
  | finished rest => rfl
  | unterminated before rest => simp [map, unterminated?]
  | unresolved before span path next ih =>
    simp [map, unterminated?, ih, Option.map_map, Function.comp_def]
  | replaced before span path value next ih =>
    simp [map, unterminated?, ih, Option.map_map, Function.comp_def]

@[simp] theorem outcome_map (f : α → β) (char : β → Option Char) (markers : Markers)
    (scanned : Scan α) :
    (scanned.map f).outcome char markers = scanned.outcome (char ∘ f) markers := by
  unfold outcome
  rw [unterminated?_map, tally_map]
  cases scanned.unterminated? with
  | none => rfl
  | some ending =>
    simp only [Option.map_some, ← List.map_drop, ← List.map_take, List.filterMap_map]

end Scan

theorem source_scan (char : α → Option Char) (markers : Markers) (resolve : Text → Option Text)
    (units : List α) : (scan char markers resolve units).source = units := by
  fun_induction scan char markers resolve units with
  | case1 units found => rfl
  | case2 units before rest found =>
    obtain ⟨openingCut, _⟩ := cutBefore?_of_find_unclosed found
    exact (firstAt_of_cutBefore? openingCut).append.symm
  | case3 units before span path after found missing ih =>
    rw [Scan.source, ih, append_of_find found]
  | case4 units before span path after found value present ih =>
    rw [Scan.source, ih, append_of_find found]

theorem begins_map (f : α → β) (char : β → Option Char) (delimiter : Text) (units : List α) :
    Begins char delimiter (units.map f) ↔ Begins (char ∘ f) delimiter units := by
  rw [Begins, Begins, List.map_map]

theorem cutBefore?_map (f : α → β) (char : β → Option Char) (delimiter : Text) (units : List α) :
    cutBefore? char delimiter (units.map f)
      = (cutBefore? (char ∘ f) delimiter units).map fun (before, found) =>
        (before.map f, found.map f) := by
  induction units with
  | nil => rfl
  | cons unit rest ih =>
    have same := begins_map f char delimiter (unit :: rest)
    rw [List.map_cons] at same ⊢
    simp only [cutBefore?, same, ih]
    split
    · simp
    · simp [Option.map_map, Function.comp_def]

def Found.map (f : α → β) : Found α → Found β
  | nothing => nothing
  | unclosed before rest => unclosed (before.map f) (rest.map f)
  | placeholder before span path after =>
    placeholder (before.map f) (span.map f) path (after.map f)

theorem find_map (f : α → β) (char : β → Option Char) (markers : Markers) (units : List α) :
    find char markers (units.map f) = (find (char ∘ f) markers units).map f := by
  unfold find
  rw [cutBefore?_map]
  cases cutBefore? (char ∘ f) markers.opening units with
  | none => rfl
  | some cut =>
    simp only [Option.map_some, ← List.map_drop]
    rw [cutBefore?_map]
    cases cutBefore? (char ∘ f) markers.closing (cut.2.drop markers.opening.length) with
    | none => rfl
    | some inner => simp [Found.map, List.map_take, List.filterMap_map]

theorem scan_map (f : α → β) (char : β → Option Char) (markers : Markers)
    (resolve : Text → Option Text) (units : List α) :
    scan char markers resolve (units.map f) = (scan (char ∘ f) markers resolve units).map f := by
  have image := find_map f char markers
  fun_induction scan (char ∘ f) markers resolve units with
  | case1 units found =>
    have same := image units
    rw [found] at same
    rw [scan_nothing same, Scan.map]
  | case2 units before rest found =>
    have same := image units
    rw [found] at same
    rw [scan_unclosed same, Scan.map]
  | case3 units before span path after found missing ih =>
    have same := image units
    rw [found] at same
    rw [scan_unresolved same missing, ih, Scan.map]
  | case4 units before span path after found value present ih =>
    have same := image units
    rw [found] at same
    rw [scan_replaced same present, ih, Scan.map]

end MailMerge.Fill
