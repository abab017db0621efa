import MailMerge.Proofs.Fill.Pieces
import MailMerge.Proofs.Run.Order

set_option autoImplicit false

namespace MailMerge.Fill

open Run (Cell Ordered)

/-- The template of a placeholder is the cell behind it, the cell in front of it or its own first
cell. A neighbour holds text of the same paragraph and touches the placeholder. -/
theorem templateOf?_cases {passed span after : List Cell} {template : Cell}
    (nonempty : span ≠ []) (chosen : templateOf? passed span after = some template) :
    after.head? = some template ∧ isUsable (span.head nonempty) template = true ∧
        touchesBehind (span.getLast nonempty) template = true ∨
      passed.head? = some template ∧ isUsable (span.head nonempty) template = true ∧
        touchesBefore (span.head nonempty) template = true ∨
      template = span.head nonempty := by
  rw [templateOf?_eq passed after nonempty] at chosen
  dsimp only at chosen
  rw [Option.some.injEq] at chosen
  cases behind : after.head?.filter fun cell =>
      isUsable (span.head nonempty) cell && touchesBehind (span.getLast nonempty) cell with
  | some cell =>
    rw [behind] at chosen
    obtain ⟨here, fits⟩ := Option.filter_eq_some_iff.1 behind
    obtain rfl : cell = template := chosen
    exact Or.inl ⟨here, Bool.and_eq_true_iff.1 fits⟩
  | none =>
    rw [behind] at chosen
    cases before : passed.head?.filter fun cell =>
        isUsable (span.head nonempty) cell && touchesBefore (span.head nonempty) cell with
    | some cell =>
      rw [before] at chosen
      obtain ⟨here, fits⟩ := Option.filter_eq_some_iff.1 before
      obtain rfl : cell = template := chosen
      exact Or.inr (Or.inl ⟨here, Bool.and_eq_true_iff.1 fits⟩)
    | none =>
      rw [before] at chosen
      exact Or.inr (Or.inr chosen.symm)

/-- The first cell of a placeholder has a character, that of its opening delimiter. -/
theorem isSome_char_head_span {markers : Markers} {units before span after : List Cell}
    {path : Text} (found : find Cell.char markers units = .placeholder before span path after) :
    (span.head (span_ne_nil found)).char.isSome := by
  obtain ⟨_, _, _, _, _, spelt⟩ := cutBefore?_of_find_placeholder found
  have heads := congrArg List.head? spelt
  rw [List.head?_map, List.head?_eq_some_head (span_ne_nil found), List.head?_append,
    List.head?_append, List.head?_map, List.head?_eq_some_head markers.opening_ne] at heads
  have first : (span.head (span_ne_nil found)).char = some (markers.opening.head _) :=
    Option.some.inj heads
  rw [first]
  rfl

/-- A value is written into one run: each of its cells is akin to one cell with a character, which
lies in the paragraph of the placeholder's first cell, in the placeholder or right beside it. -/
theorem exists_akin_writtenCells (passed after : List Cell) (value : Text) {span : List Cell}
    (nonempty : span ≠ []) (isSome : (span.head nonempty).char.isSome) :
    ∃ template,
      (after.head? = some template ∨ passed.head? = some template ∨
        template = span.head nonempty) ∧
      template.char.isSome ∧
      template.origin.paragraph = (span.head nonempty).origin.paragraph ∧
      ∀ cell, cell ∈ writtenCells passed span after value → cell.Akin template := by
  obtain ⟨template, chosen⟩ := templateOf?_isSome passed after nonempty
  have akin : template.char.isSome →
      ∀ cell, cell ∈ writtenCells passed span after value → cell.Akin template := by
    intro templateChar cell member
    rw [writtenCells, chosen, Option.map_some, Option.getD_some, valueCells] at member
    obtain ⟨c, _, rfl⟩ := List.mem_map.1 member
    exact ⟨rfl, templateChar.symm⟩
  rcases templateOf?_cases nonempty chosen with
    ⟨here, usable, _⟩ | ⟨here, usable, _⟩ | rfl
  · obtain ⟨templateChar, paragraph⟩ := Bool.and_eq_true_iff.1 usable
    exact ⟨template, Or.inl here, templateChar, beq_iff_eq.1 paragraph, akin templateChar⟩
  · obtain ⟨templateChar, paragraph⟩ := Bool.and_eq_true_iff.1 usable
    exact ⟨template, Or.inr (Or.inl here), templateChar, beq_iff_eq.1 paragraph,
      akin templateChar⟩
  · exact ⟨_, Or.inr (Or.inr rfl), isSome, rfl, akin isSome⟩

/-- A row stays in order when a value is written where a placeholder was. -/
theorem ordered_writtenCells (passed : List Cell) {span after : List Cell} (value : Text)
    (nonempty : span ≠ [])
    (isSome : (span.head nonempty).char.isSome)
    (ordered : Ordered (passed.reverse ++ (span ++ after))) :
    Ordered (passed.reverse ++ writtenCells passed span after value ++ after) := by
  obtain ⟨template, place, templateChar, _, akin⟩ :=
    exists_akin_writtenCells passed after value nonempty isSome
  have outside : Ordered (passed.reverse ++ after) :=
    ordered.sublist ((List.sublist_append_right span after).append_left _)
  -- A template beside the span stays in the row, and the value joins it there.
  rcases place with behind | before | rfl
  · obtain ⟨rest, rfl⟩ := List.head?_eq_some_iff.1 behind
    have both : ∀ cell, cell ∈ writtenCells passed span (template :: rest) value ++ [template] →
        cell.Akin template := by
      intro cell member
      rcases List.mem_append.1 member with inWritten | own
      · exact akin cell inWritten
      · exact List.mem_singleton.1 own ▸ .refl template
    simpa using Ordered.spread outside templateChar both
  · obtain ⟨rest, rfl⟩ := List.head?_eq_some_iff.1 before
    rw [List.reverse_cons, List.append_assoc] at outside
    have both : ∀ cell, cell ∈ template :: writtenCells (template :: rest) span after value →
        cell.Akin template := by
      intro cell member
      rcases List.mem_cons.1 member with rfl | inWritten
      · exact .refl cell
      · exact akin cell inWritten
    simpa using Ordered.spread outside templateChar both
  · apply Ordered.spread _ templateChar akin
    refine ordered.sublist (List.Sublist.append_left ?_ _)
    obtain ⟨first, rest, rfl⟩ := List.exists_cons_of_ne_nil nonempty
    exact List.Sublist.cons_cons first (List.sublist_append_right rest after)

section

variable (markers : Markers) (resolve : Text → Option Text)

theorem ordered_pieces (passed units : List Cell) (ordered : Ordered (passed.reverse ++ units)) :
    Ordered (passed.reverse
      ++ ((scan Cell.char markers resolve units).pieces passed).flatMap Piece.result) := by
  fun_induction scan Cell.char markers resolve units generalizing passed with
  | case1 units found => simpa [Scan.pieces, Piece.result] using ordered
  | case2 units before rest found =>
    obtain ⟨openingCut, _⟩ := cutBefore?_of_find_unclosed found
    rw [(firstAt_of_cutBefore? openingCut).append] at ordered
    simpa [Scan.pieces, Piece.result] using ordered
  | case3 units before span path after found missing ih =>
    rw [append_of_find found] at ordered
    have rest := ih (span.reverse ++ (before.reverse ++ passed)) (by simpa using ordered)
    simpa [Scan.pieces, Piece.result] using rest
  | case4 units before span path after found value present ih =>
    rw [append_of_find found] at ordered
    have written := ordered_writtenCells (before.reverse ++ passed) value
      (span_ne_nil found) (isSome_char_head_span found) (by simpa using ordered)
    have rest := ih
      ((writtenCells (before.reverse ++ passed) span after value).reverse
        ++ (before.reverse ++ passed)) (by simpa using written)
    simpa [Scan.pieces, Piece.result, source_scan] using rest

theorem mem_or_of_head?_append {recent passed : List Cell} {cell : Cell}
    (last : (recent.reverse ++ passed).head? = some cell) :
    cell ∈ recent ∨ passed.head? = some cell := by
  rw [List.head?_append, List.head?_reverse] at last
  cases own : recent.getLast? with
  | none =>
    rw [own, Option.none_or] at last
    exact Or.inr last
  | some other =>
    rw [own, Option.some_or, Option.some.injEq] at last
    exact Or.inl (last ▸ List.mem_of_getLast? own)

/-- Every cell that the pieces leave is akin to one of the cells that they were made from, or to the
last cell in front of them. -/
theorem akin_pieces (sources passed units : List Cell)
    (akin : ∀ cell, passed.head? = some cell ∨ cell ∈ units →
      ∃ source, source ∈ sources ∧ cell.Akin source)
    {cell : Cell}
    (member : cell ∈ ((scan Cell.char markers resolve units).pieces passed).flatMap Piece.result) :
    ∃ source, source ∈ sources ∧ cell.Akin source := by
  fun_induction scan Cell.char markers resolve units generalizing passed with
  | case1 units found =>
    exact akin cell (Or.inr (by simpa [Scan.pieces, Piece.result] using member))
  | case2 units before rest found =>
    obtain ⟨openingCut, _⟩ := cutBefore?_of_find_unclosed found
    apply akin cell
    rw [(firstAt_of_cutBefore? openingCut).append]
    exact Or.inr (by simpa [Scan.pieces, Piece.result] using member)
  | case3 units before span path after found missing ih =>
    simp only [append_of_find found, List.mem_append] at akin
    rw [Scan.pieces, List.flatMap_cons] at member
    rcases List.mem_append.1 member with inKept | inRest
    · apply akin cell
      rcases (List.mem_append.1 inKept : cell ∈ before ∨ cell ∈ span) with inBefore | inSpan
      · exact Or.inr (Or.inl inBefore)
      · exact Or.inr (Or.inr (Or.inl inSpan))
    · refine ih (span.reverse ++ (before.reverse ++ passed)) ?_ inRest
      rintro other (last | inAfter)
      · apply akin other
        rcases mem_or_of_head?_append last with inSpan | last
        · exact Or.inr (Or.inr (Or.inl inSpan))
        · rcases mem_or_of_head?_append last with inBefore | last
          · exact Or.inr (Or.inl inBefore)
          · exact Or.inl last
      · exact akin other (Or.inr (Or.inr (Or.inr inAfter)))
  | case4 units before span path after found value present ih =>
    simp only [append_of_find found, List.mem_append] at akin
    rw [Scan.pieces, List.flatMap_cons, List.flatMap_cons, source_scan] at member
    obtain ⟨template, place, _, _, toTemplate⟩ := exists_akin_writtenCells
      (before.reverse ++ passed) after value (span_ne_nil found) (isSome_char_head_span found)
    have inFront : ∀ other, (before.reverse ++ passed).head? = some other →
        ∃ source, source ∈ sources ∧ other.Akin source := by
      intro other last
      rcases mem_or_of_head?_append last with inBefore | last
      · exact akin other (Or.inr (Or.inl inBefore))
      · exact akin other (Or.inl last)
    obtain ⟨origin, inSources, templateAkin⟩ :
        ∃ source, source ∈ sources ∧ template.Akin source := by
      rcases place with behind | last | rfl
      · exact akin template (Or.inr (Or.inr (Or.inr (List.mem_of_head? behind))))
      · exact inFront template last
      · exact akin _ (Or.inr (Or.inr (Or.inl (List.head_mem (span_ne_nil found)))))
    have inherited : ∀ other, other ∈ writtenCells (before.reverse ++ passed) span after value →
        ∃ source, source ∈ sources ∧ other.Akin source := fun other inside =>
      ⟨origin, inSources, (toTemplate other inside).trans templateAkin⟩
    rcases List.mem_append.1 member with inKept | inside
    · exact akin cell (Or.inr (Or.inl inKept))
    rcases List.mem_append.1 inside with inWritten | inRest
    · exact inherited cell inWritten
    · refine ih ((writtenCells (before.reverse ++ passed) span after value).reverse
        ++ (before.reverse ++ passed)) ?_ inRest
      rintro other (last | behind)
      · rcases mem_or_of_head?_append last with inWritten | last
        · exact inherited other inWritten
        · exact inFront other last
      · exact akin other (Or.inr (Or.inr (Or.inr behind)))

/-- The pieces behind a placeholder that got a value are those of the cells behind it. -/
theorem pieces_behind {passed units : List Cell} {front back : List Piece}
    {span written : List Cell} {value : Text}
    (split : (scan Cell.char markers resolve units).pieces passed
      = front ++ .replaced span value written :: back) :
    back = (scan Cell.char markers resolve (back.flatMap Piece.source)).pieces
      (written.reverse ++ ((front.flatMap Piece.result).reverse ++ passed)) := by
  fun_induction scan Cell.char markers resolve units generalizing passed front with
  | case1 units found => cases front <;> simp [Scan.pieces] at split
  | case2 units before rest found => cases front <;> simp [Scan.pieces] at split
  | case3 units before own path after found missing ih =>
    cases front with
    | nil => simp [Scan.pieces] at split
    | cons piece front =>
      obtain ⟨rfl, rest⟩ := List.cons.inj split
      simpa [Piece.result] using ih rest
  | case4 units before own path after found answer present ih =>
    cases front with
    | nil => simp [Scan.pieces] at split
    | cons piece front =>
      obtain ⟨rfl, rest⟩ := List.cons.inj split
      cases front with
      | nil =>
        obtain ⟨same, rfl⟩ := List.cons.inj rest
        obtain ⟨rfl, rfl, rfl⟩ := Piece.replaced.inj same
        simp [Piece.result, source_pieces, source_scan]
      | cons piece front =>
        obtain ⟨rfl, others⟩ := List.cons.inj rest
        simpa [Piece.result] using ih others

/-- A replaced span is a placeholder whose path has the value. The value is written as it is
escaped, into one run of the paragraph in which the span begins. -/
structure Substituted (span : List Cell) (value : Text) (written : List Cell) : Prop where
  resolved : ∃ inside : List Cell,
    span.map Cell.char
      = markers.opening.map some ++ inside.map Cell.char ++ markers.closing.map some ∧
    resolve (Text.trim (Run.textOf inside)) = some value
  chars : written.map Cell.char = (Markup.escape value).map some
  origin : ∃ first template, span.head? = some first ∧
    template.origin.paragraph = first.origin.paragraph ∧ template.char.isSome ∧
    ∀ cell, cell ∈ written → cell.Akin template

theorem substituted_of_mem_pieces (passed units : List Cell) {span written : List Cell}
    {value : Text} (member : .replaced span value written ∈
      (scan Cell.char markers resolve units).pieces passed) :
    Substituted markers resolve span value written := by
  fun_induction scan Cell.char markers resolve units generalizing passed with
  | case1 units found => simp [Scan.pieces] at member
  | case2 units before rest found => simp [Scan.pieces] at member
  | case3 units before own path after found missing ih =>
    rw [Scan.pieces, List.mem_cons] at member
    rcases member with kept | inRest
    · simp at kept
    · exact ih _ inRest
  | case4 units before own path after found answered present ih =>
    rw [Scan.pieces, source_scan] at member
    simp only [List.mem_cons, reduceCtorEq, false_or, Piece.replaced.injEq] at member
    rcases member with ⟨rfl, rfl, rfl⟩ | inRest
    · obtain ⟨inside, _, _, _, rfl, spelt⟩ := cutBefore?_of_find_placeholder found
      obtain ⟨template, _, templateChar, paragraph, akin⟩ := exists_akin_writtenCells
        (before.reverse ++ passed) after value (span_ne_nil found) (isSome_char_head_span found)
      exact ⟨⟨inside, spelt, present⟩, map_char_writtenCells _ _ _ (span_ne_nil found), _,
        template, List.head?_eq_some_head (span_ne_nil found), paragraph, templateChar, akin⟩
    · exact ih _ inRest

end

/-- A scan that replaces nothing leaves all cells as they are. -/
theorem result_pieces_of_replaced_eq_zero (passed : List Cell) {scanned : Scan Cell}
    (nothing : scanned.tally.replaced = 0) :
    (scanned.pieces passed).flatMap Piece.result = scanned.source := by
  induction scanned generalizing passed with
  | finished rest => simp [Scan.pieces, Piece.result, Scan.source]
  | unterminated before rest => simp [Scan.pieces, Piece.result, Scan.source]
  | unresolved before span path next ih =>
    simp [Scan.pieces, Piece.result, Scan.source, ih _ nothing]
  | replaced before span path value next ih => simp [Scan.tally] at nothing

end MailMerge.Fill
