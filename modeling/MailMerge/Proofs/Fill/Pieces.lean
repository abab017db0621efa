import MailMerge.Proofs.Fill.Scan

set_option autoImplicit false

namespace MailMerge.Fill

open Run (Cell Cursor)

theorem spells_iff (delimiter : Text) (cells : List Cell) :
    Run.spells delimiter cells = true ↔ Begins Cell.char delimiter cells := by
  induction delimiter generalizing cells with
  | nil => simp [Run.spells, Begins]
  | cons c delimiter ih =>
    cases cells with
    | nil => simp [Run.spells, Begins]
    | cons cell rest =>
      simp only [Run.spells, Bool.and_eq_true, beq_iff_eq, ih, Begins, List.map_cons,
        List.cons_prefix_cons]
      exact and_congr_left fun _ => eq_comm

theorem textUntil?_eq (delimiter : Text) (cells : List Cell) :
    Run.textUntil? delimiter cells
      = (cutBefore? Cell.char delimiter cells).map fun (inside, _) =>
        (Run.textOf inside, inside.length) := by
  induction cells with
  | nil => rfl
  | cons cell rest ih =>
    simp only [Run.textUntil?, cutBefore?, spells_iff, ih]
    split
    · rfl
    · simp only [Option.map_map, Function.comp_def]
      congr 1
      funext cut
      cases char : cell.char <;> simp [Run.textOf, char]

/-- Cells whose text is as long as they are many all have a character. -/
theorem map_char_of_length_textOf {cells : List Cell}
    (full : cells.length ≤ (Run.textOf cells).length) :
    cells.map Cell.char = (Run.textOf cells).map some := by
  induction cells with
  | nil => rfl
  | cons cell rest ih =>
    have bound : (Run.textOf rest).length ≤ rest.length := List.length_filterMap_le _ _
    cases char : cell.char with
    | none =>
      simp only [Run.textOf, List.filterMap_cons_none char, List.length_cons] at full bound
      omega
    | some c =>
      simp only [Run.textOf, List.filterMap_cons_some char, List.length_cons] at full ⊢
      simp only [List.map_cons, char]
      rw [ih (by simpa [Run.textOf] using full), Run.textOf]

@[simp] theorem textOf_of_map_char {cells : List Cell} {text : Text}
    (same : cells.map Cell.char = text.map some) : Run.textOf cells = text := by
  have image : (cells.map Cell.char).filterMap id = (text.map some).filterMap id := by rw [same]
  simpa [List.filterMap_map, Run.textOf, Function.comp_def] using image

theorem peek_eq_iff (delimiter : Text) (cursor : Cursor) :
    cursor.peek delimiter.length = delimiter ↔ Begins Cell.char delimiter cursor.ahead := by
  rw [Cursor.peek]
  constructor
  · intro spelt
    have full : (cursor.ahead.take delimiter.length).length ≤
        (Run.textOf (cursor.ahead.take delimiter.length)).length := by
      rw [spelt]
      exact List.length_take_le _ _
    have same := map_char_of_length_textOf full
    rw [spelt] at same
    rw [Begins, ← same]
    exact (List.take_prefix _ _).map _
  · intro begins
    exact textOf_of_map_char begins.map_take

theorem seekOpening_eq (opening : Text) (passed ahead : List Cell) :
    seekOpening opening passed ahead
      = (cutBefore? Cell.char opening ahead).map fun (before, rest) =>
        ⟨before.reverse ++ passed, rest⟩ := by
  induction ahead generalizing passed with
  | nil => rfl
  | cons cell rest ih =>
    simp only [seekOpening, cutBefore?, peek_eq_iff, ih]
    split
    · rfl
    · simp [Option.map_map, Function.comp_def]

/-- The template of a placeholder that stands in front of `after` and behind the cells `passed`, the
last of which comes first. -/
def templateOf? (passed span after : List Cell) : Option Cell :=
  template? span.length ⟨passed, span ++ after⟩

/-- The cells that a value is written into. -/
def writtenCells (passed span after : List Cell) (value : Text) : List Cell :=
  ((templateOf? passed span after).map fun template => valueCells template value).getD []

/-- The template is the cell behind the placeholder if it can be, else the cell in front of it, else
the placeholder's own first cell. -/
theorem templateOf?_eq (passed after : List Cell) {span : List Cell} (nonempty : span ≠ []) :
    templateOf? passed span after =
      let first := span.head nonempty
      let last := span.getLast nonempty
      let behind := after.head?.filter fun cell => isUsable first cell && touchesBehind last cell
      let before := passed.head?.filter fun cell => isUsable first cell && touchesBefore first cell
      some ((behind <|> before).getD first) := by
  have positive := List.length_pos_iff.2 nonempty
  have firstCell : (span ++ after)[0]? = some (span.head nonempty) := by
    rw [List.getElem?_append_left positive, ← List.head?_eq_getElem?, List.head?_eq_some_head]
  have lastCell : (span ++ after)[span.length - 1]? = some (span.getLast nonempty) := by
    rw [List.getElem?_append_left (by omega), ← List.getLast?_eq_getElem?,
      List.getLast?_eq_some_getLast]
  have behindCell : (span ++ after)[span.length]? = after.head? := by
    rw [List.getElem?_append_right (Nat.le_refl _), Nat.sub_self, List.head?_eq_getElem?]
  obtain ⟨count, length⟩ : ∃ count, span.length = count + 1 := ⟨span.length - 1, by omega⟩
  rw [length] at lastCell behindCell
  rw [Nat.add_sub_cancel] at lastCell
  rw [templateOf?, template?, length]
  simp only [Cursor.cellAhead?, Cursor.current?, firstCell, lastCell, behindCell,
    Option.bind_eq_bind, Option.bind_some]
  rfl

theorem templateOf?_isSome (passed after : List Cell) {span : List Cell} (nonempty : span ≠ []) :
    ∃ template, templateOf? passed span after = some template :=
  ⟨_, templateOf?_eq passed after nonempty⟩

theorem map_char_valueCells (template : Cell) (value : Text) :
    (valueCells template value).map Cell.char = (Markup.escape value).map some := by
  rw [valueCells, List.map_map]
  rfl

theorem map_char_writtenCells (passed after : List Cell) (value : Text) {span : List Cell}
    (nonempty : span ≠ []) :
    (writtenCells passed span after value).map Cell.char = (Markup.escape value).map some := by
  obtain ⟨template, chosen⟩ := templateOf?_isSome passed after nonempty
  rw [writtenCells, chosen, Option.map_some, Option.getD_some, map_char_valueCells]

theorem length_writtenCells (passed after : List Cell) (value : Text) {span : List Cell}
    (nonempty : span ≠ []) :
    (writtenCells passed span after value).length = (Markup.escape value).length := by
  simpa using congrArg List.length (map_char_writtenCells passed after value nonempty)

/-- One round of the pass: to the end of the next placeholder, with what is then left to do, or to
the end of the row. -/
def round (markers : Markers) (tally : Tally) (cursor : Cursor) :
    Dialogue (Passed ⊕ Tally × Cursor) :=
  match seekOpening markers.opening cursor.passed cursor.ahead with
  | none => .done (.inl ⟨cursor.forward cursor.ahead.length, .ok tally⟩)
  | some start =>
    let inside := start.forward markers.opening.length
    match Run.textUntil? markers.closing inside.ahead with
    | none =>
      let offset := inside.offset + 1 - markers.opening.length
      let excerpt := markers.opening ++ inside.peek excerptLength
      .done (.inl ⟨inside, .error (.unterminatedPlaceholder offset excerpt)⟩)
    | some (text, count) =>
      .ask (Text.trim text) fun answer =>
        match answer with
        | none =>
          .done (.inr ({ tally with unresolved := tally.unresolved + 1 },
            inside.forward (count + markers.closing.length)))
        | some value =>
          let span := markers.opening.length + count + markers.closing.length
          match template? span start with
          | none => .done (.inl ⟨start, .ok tally⟩)
          | some template =>
            .done (.inr ({ tally with replaced := tally.replaced + 1 },
              (start.removeAhead span).pass (valueCells template value)))

/-- The pass goes from round to round, until nothing is left to do. -/
theorem passFrom_eq_round (markers : Markers) (tally : Tally) (cursor : Cursor) :
    passFrom markers tally cursor =
      (round markers tally cursor).bind fun
        | .inl passed => .done passed
        | .inr (tally, cursor) => passFrom markers tally cursor := by
  rw [passFrom, round]
  split
  · rename_i nothing
    rw [nothing]
    rfl
  · rename_i start seen
    rw [seen]
    dsimp only
    cases Run.textUntil? markers.closing (start.forward markers.opening.length).ahead with
    | none => rfl
    | some inside =>
      dsimp only [Dialogue.bind]
      congr 1
      funext answer
      cases answer with
      | none => rfl
      | some value =>
        dsimp only
        cases template? (markers.opening.length + inside.2 + markers.closing.length) start <;> rfl

theorem round_eq (markers : Markers) (tally : Tally) (cursor : Cursor) :
    round markers tally cursor =
      match find Cell.char markers cursor.ahead with
      | .nothing => .done (.inl ⟨cursor.forward cursor.ahead.length, .ok tally⟩)
      | .unclosed before rest =>
        let start : Cursor := ⟨before.reverse ++ cursor.passed, rest⟩
        let inside := start.forward markers.opening.length
        .done (.inl ⟨inside, .error (.unterminatedPlaceholder (start.passed.length + 1)
          (markers.opening ++ inside.peek excerptLength))⟩)
      | .placeholder before span path after =>
        .ask path fun answer =>
          match answer with
          | none =>
            .done (.inr ({ tally with unresolved := tally.unresolved + 1 },
              ⟨span.reverse ++ (before.reverse ++ cursor.passed), after⟩))
          | some value =>
            let passed := before.reverse ++ cursor.passed
            .done (.inr ({ tally with replaced := tally.replaced + 1 },
              ⟨(writtenCells passed span after value).reverse ++ passed, after⟩)) := by
  have sought := seekOpening_eq markers.opening cursor.passed cursor.ahead
  rw [round]
  cases found : find Cell.char markers cursor.ahead with
  | nothing =>
    rw [cutBefore?_of_find_nothing found] at sought
    split
    · rfl
    · simp_all
  | unclosed before rest =>
    obtain ⟨openingCut, closingCut⟩ := cutBefore?_of_find_unclosed found
    have bound := (firstAt_of_cutBefore? openingCut).begins.length_le
    rw [openingCut, Option.map_some] at sought
    split
    · simp_all
    · rename_i start seen
      obtain rfl : start = ⟨before.reverse ++ cursor.passed, rest⟩ := by simp_all
      simp only [Cursor.forward, textUntil?_eq, closingCut, Option.map_none]
      -- The reported number is taken behind the delimiter and corrected by its length.
      congr 5
      simp only [Cursor.offset, List.length_append, List.length_reverse, List.length_take]
      omega
  | placeholder before span path after =>
    obtain ⟨inside, closed, openingCut, closingCut, rfl, spelt⟩ :=
      cutBefore?_of_find_placeholder found
    have length :
        markers.opening.length + inside.length + markers.closing.length = span.length := by
      simpa [Nat.add_assoc] using (congrArg List.length spelt).symm
    have nonempty := span_ne_nil found
    rw [openingCut, Option.map_some] at sought
    split
    · simp_all
    · rename_i start seen
      obtain rfl : start = ⟨before.reverse ++ cursor.passed, span ++ after⟩ := by simp_all
      simp only [Cursor.forward, textUntil?_eq, closingCut, Option.map_some]
      congr 1
      funext answer
      cases answer with
      | none =>
        have reached : (((span ++ after).drop markers.opening.length).take
              (inside.length + markers.closing.length)).reverse
            ++ ((span ++ after).take markers.opening.length).reverse = span.reverse := by
          rw [← List.reverse_append, ← List.take_add, ← Nat.add_assoc, length, List.take_left]
        dsimp only
        rw [← List.append_assoc, reached, List.drop_drop, ← Nat.add_assoc, length,
          List.drop_left]
      | some value =>
        obtain ⟨template, chosen⟩ :=
          templateOf?_isSome (before.reverse ++ cursor.passed) after nonempty
        simp only [length, writtenCells, chosen, Option.map_some, Option.getD_some]
        rw [templateOf?] at chosen
        simp only [chosen, Cursor.pass, Cursor.removeAhead, List.drop_left]

/-- One step of the pass: to the end of the next placeholder, or to the end of the row. -/
theorem passFrom_eq (markers : Markers) (tally : Tally) (cursor : Cursor) :
    passFrom markers tally cursor =
      match find Cell.char markers cursor.ahead with
      | .nothing => .done ⟨cursor.forward cursor.ahead.length, .ok tally⟩
      | .unclosed before rest =>
        let start : Cursor := ⟨before.reverse ++ cursor.passed, rest⟩
        let inside := start.forward markers.opening.length
        .done ⟨inside, .error (.unterminatedPlaceholder (start.passed.length + 1)
          (markers.opening ++ inside.peek excerptLength))⟩
      | .placeholder before span path after =>
        .ask path fun answer =>
          match answer with
          | none =>
            passFrom markers { tally with unresolved := tally.unresolved + 1 }
              ⟨span.reverse ++ (before.reverse ++ cursor.passed), after⟩
          | some value =>
            let passed := before.reverse ++ cursor.passed
            passFrom markers { tally with replaced := tally.replaced + 1 }
              ⟨(writtenCells passed span after value).reverse ++ passed, after⟩ := by
  rw [passFrom_eq_round, round_eq]
  cases find Cell.char markers cursor.ahead with
  | nothing => rfl
  | unclosed before rest => rfl
  | placeholder before span path after =>
    rw [Dialogue.bind]
    congr 1
    funext answer
    cases answer <;> rfl

/-- A stretch of a row of cells with what a pass makes of it. -/
inductive Piece where
  /-- Cells that stay as they are. -/
  | kept (cells : List Cell)
  /-- A placeholder and the cells that its value is written into. -/
  | replaced (span : List Cell) (value : Text) (written : List Cell)

namespace Piece

def source : Piece → List Cell
  | kept cells => cells
  | replaced span _ _ => span

def result : Piece → List Cell
  | kept cells => cells
  | replaced _ _ written => written

def isReplaced : Piece → Bool
  | kept _ => false
  | replaced _ _ _ => true

end Piece

/-- The pieces of a scanned row behind the cells `passed`, the last of which comes first. -/
def Scan.pieces (passed : List Cell) : Scan Cell → List Piece
  | finished rest => [.kept rest]
  | unterminated before rest => [.kept (before ++ rest)]
  | unresolved before span _ next =>
    .kept (before ++ span) :: next.pieces (span.reverse ++ (before.reverse ++ passed))
  | replaced before span _ value next =>
    let reached := before.reverse ++ passed
    let written := writtenCells reached span next.source value
    .kept before :: .replaced span value written :: next.pieces (written.reverse ++ reached)

theorem source_pieces (passed : List Cell) (scanned : Scan Cell) :
    (scanned.pieces passed).flatMap Piece.source = scanned.source := by
  induction scanned generalizing passed with
  | finished rest => simp [Scan.pieces, Piece.source, Scan.source]
  | unterminated before rest => simp [Scan.pieces, Piece.source, Scan.source]
  | unresolved before span path next ih => simp [Scan.pieces, Piece.source, Scan.source, ih]
  | replaced before span path value next ih => simp [Scan.pieces, Piece.source, Scan.source, ih]

theorem countP_isReplaced_pieces (passed : List Cell) (scanned : Scan Cell) :
    (scanned.pieces passed).countP Piece.isReplaced = scanned.tally.replaced := by
  induction scanned generalizing passed with
  | finished rest => rfl
  | unterminated before rest => rfl
  | unresolved before span path next ih => simp [Scan.pieces, Piece.isReplaced, Scan.tally, ih]
  | replaced before span path value next ih =>
    rw [Scan.pieces, List.countP_cons_of_neg (by simp [Piece.isReplaced]),
      List.countP_cons_of_pos rfl, ih]
    rfl

/-- A value is written where its placeholder stood: behind what the pieces in front leave, and in
front of the cells of the pieces behind. -/
theorem written_eq_writtenCells {passed : List Cell} {scanned : Scan Cell} {front back : List Piece}
    {span written : List Cell} {value : Text}
    (split : scanned.pieces passed = front ++ .replaced span value written :: back) :
    written = writtenCells ((front.flatMap Piece.result).reverse ++ passed) span
      (back.flatMap Piece.source) value := by
  induction scanned generalizing passed front with
  | finished rest => cases front <;> simp [Scan.pieces] at split
  | unterminated before rest => cases front <;> simp [Scan.pieces] at split
  | unresolved before own path next ih =>
    cases front with
    | nil => simp [Scan.pieces] at split
    | cons piece front =>
      obtain ⟨rfl, rest⟩ := List.cons.inj split
      simpa [Piece.result] using ih rest
  | replaced before own path answer next ih =>
    cases front with
    | nil => simp [Scan.pieces] at split
    | cons piece front =>
      obtain ⟨rfl, rest⟩ := List.cons.inj split
      cases front with
      | nil =>
        obtain ⟨same, rfl⟩ := List.cons.inj rest
        obtain ⟨rfl, rfl, rfl⟩ := Piece.replaced.inj same
        simp [Piece.result, source_pieces]
      | cons piece front =>
        obtain ⟨rfl, others⟩ := List.cons.inj rest
        simpa [Piece.result] using ih others

section

variable (markers : Markers) (resolve : Text → Option Text)

theorem cells_passFrom (tally : Tally) (passed units : List Cell) :
    ((passFrom markers tally ⟨passed, units⟩).run resolve).cursor.cells
      = passed.reverse
        ++ ((scan Cell.char markers resolve units).pieces passed).flatMap Piece.result := by
  fun_induction scan Cell.char markers resolve units generalizing passed tally with
  | case1 units found =>
    rw [passFrom_eq, found]
    simp [Scan.pieces, Piece.result, Cursor.cells, Cursor.forward]
  | case2 units before rest found =>
    rw [passFrom_eq, found]
    simp [Scan.pieces, Piece.result, Cursor.cells, Cursor.forward]
  | case3 units before span path after found missing ih =>
    rw [passFrom_eq, found, Dialogue.run_ask, missing]
    simp [Scan.pieces, Piece.result, ih]
  | case4 units before span path after found value present ih =>
    rw [passFrom_eq, found, Dialogue.run_ask, present]
    simp [Scan.pieces, Piece.result, ih, source_scan]

/-- The pieces leave the characters that the scan leaves. -/
theorem map_char_pieces (passed units : List Cell) :
    (((scan Cell.char markers resolve units).pieces passed).flatMap Piece.result).map Cell.char
      = (scan Cell.char markers resolve units).units Cell.char := by
  fun_induction scan Cell.char markers resolve units generalizing passed with
  | case1 units found => simp [Scan.pieces, Piece.result, Scan.units]
  | case2 units before rest found => simp [Scan.pieces, Piece.result, Scan.units]
  | case3 units before span path after found missing ih =>
    simp [Scan.pieces, Piece.result, Scan.units, ih]
  | case4 units before span path after found value present ih =>
    simp [Scan.pieces, Piece.result, Scan.units, ih,
      map_char_writtenCells _ _ _ (span_ne_nil found)]

theorem outcome_passFrom (tally : Tally) (passed units : List Cell) :
    ((passFrom markers tally ⟨passed, units⟩).run resolve).outcome =
      let scanned := scan Cell.char markers resolve units
      match scanned.unterminated? with
      | none => .ok ⟨tally.replaced + scanned.tally.replaced,
          tally.unresolved + scanned.tally.unresolved⟩
      | some (number, rest) => .error (.unterminatedPlaceholder (passed.length + number)
          (markers.opening ++
            Run.textOf ((rest.drop markers.opening.length).take excerptLength))) := by
  fun_induction scan Cell.char markers resolve units generalizing passed tally with
  | case1 units found =>
    rw [passFrom_eq, found]
    simp [Scan.unterminated?, Scan.tally]
  | case2 units before rest found =>
    rw [passFrom_eq, found]
    simp only [Dialogue.run_done, Scan.unterminated?, Cursor.peek, Cursor.forward,
      List.length_append, List.length_reverse]
    congr 2
    omega
  | case3 units before span path after found missing ih =>
    rw [passFrom_eq, found, Dialogue.run_ask, missing]
    dsimp only
    rw [ih]
    simp only [Scan.unterminated?, Scan.tally]
    cases (scan Cell.char markers resolve after).unterminated? with
    | none =>
      simp only [Option.map_none]
      congr 2
      omega
    | some ending =>
      simp only [Option.map_some, List.length_append, List.length_reverse]
      congr 2
      omega
  | case4 units before span path after found value present ih =>
    have length := length_writtenCells (before.reverse ++ passed) after value (span_ne_nil found)
    rw [passFrom_eq, found, Dialogue.run_ask, present]
    dsimp only
    rw [ih]
    simp only [Scan.unterminated?, Scan.tally]
    cases (scan Cell.char markers resolve after).unterminated? with
    | none =>
      simp only [Option.map_none]
      congr 2
      omega
    | some ending =>
      simp only [Option.map_some, List.length_append, List.length_reverse, length]
      congr 2
      omega

theorem asked_passFrom (tally : Tally) (passed units : List Cell) :
    (passFrom markers tally ⟨passed, units⟩).asked resolve
      = (scan Cell.char markers resolve units).asked := by
  fun_induction scan Cell.char markers resolve units generalizing passed tally with
  | case1 units found => rw [passFrom_eq, found, Scan.asked, Dialogue.asked_done]
  | case2 units before rest found => rw [passFrom_eq, found, Scan.asked, Dialogue.asked_done]
  | case3 units before span path after found missing ih =>
    rw [passFrom_eq, found, Dialogue.asked_ask, missing, Scan.asked, ih]
  | case4 units before span path after found value present ih =>
    rw [passFrom_eq, found, Dialogue.asked_ask, present, Scan.asked, ih]

theorem cells_pass (cursor : Cursor) :
    ((pass markers cursor).run resolve).cursor.cells
      = ((scan Cell.char markers resolve cursor.cells).pieces []).flatMap Piece.result :=
  cells_passFrom markers resolve _ [] cursor.cells

theorem outcome_pass (cursor : Cursor) :
    ((pass markers cursor).run resolve).outcome
      = (scan Cell.char markers resolve cursor.cells).outcome Cell.char markers := by
  refine (outcome_passFrom markers resolve _ [] cursor.cells).trans ?_
  simp only [List.length_nil, Nat.zero_add]
  unfold Scan.outcome
  cases (scan Cell.char markers resolve cursor.cells).unterminated? with
  | none => rfl
  | some ending => rfl

theorem asked_pass (cursor : Cursor) :
    (pass markers cursor).asked resolve = (scan Cell.char markers resolve cursor.cells).asked :=
  asked_passFrom markers resolve _ [] cursor.cells

/-- The characters that a pass leaves depend on the characters of its cells only. -/
theorem map_char_pass (cursor : Cursor) :
    ((pass markers cursor).run resolve).cursor.cells.map Cell.char
      = (scan id markers resolve (cursor.cells.map Cell.char)).units id := by
  rw [cells_pass, map_char_pieces, scan_map, Scan.units_map]
  rfl

/-- How a pass ends depends on the characters of its cells only. -/
theorem outcome_pass_map_char (cursor : Cursor) :
    ((pass markers cursor).run resolve).outcome
      = (scan id markers resolve (cursor.cells.map Cell.char)).outcome id markers := by
  rw [outcome_pass, scan_map, Scan.outcome_map]
  rfl

/-- Filling the placeholders of a row of cells is one scan of its characters, wherever the position
is at first: the same characters and runs without text are left, the same placeholders are counted,
and the same paths are asked for. The pass fails exactly when the scan meets an opening delimiter
that is never closed. -/
theorem pass_scans (cursor : Cursor) :
    let passed := (pass markers cursor).run resolve
    let scanned := scan id markers resolve (cursor.cells.map Cell.char)
    passed.cursor.cells.map Cell.char = scanned.units id ∧
      (pass markers cursor).asked resolve = scanned.asked ∧
      passed.outcome = scanned.outcome id markers := by
  intro passed scanned
  have asked : (pass markers cursor).asked resolve = scanned.asked := by
    rw [asked_pass]
    show (scan Cell.char markers resolve cursor.cells).asked
      = (scan id markers resolve (cursor.cells.map Cell.char)).asked
    rw [scan_map, Scan.asked_map]
    rfl
  exact ⟨map_char_pass markers resolve cursor, asked, outcome_pass_map_char markers resolve cursor⟩

end

end MailMerge.Fill
