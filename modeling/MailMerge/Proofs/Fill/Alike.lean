import MailMerge.Proofs.Fill.Filled

set_option autoImplicit false

namespace MailMerge.Fill

open Run (Cell Origin)

/-- Two ways to answer that find the same paths, with a value that is not empty for each. -/
structure Alike (first second : Text → Option Text) : Prop where
  found : ∀ path, (first path).isSome = (second path).isSome
  first_ne : ∀ path, first path ≠ some []
  second_ne : ∀ path, second path ≠ some []

namespace Scan

variable {α : Type}

/-- Two scans that differ in the values only. -/
inductive SameButValues : Scan α → Scan α → Prop
  | finished (rest : List α) : SameButValues (finished rest) (finished rest)
  | unterminated (before rest : List α) :
      SameButValues (unterminated before rest) (unterminated before rest)
  | unresolved (before span : List α) (path : Text) {first second : Scan α}
      (next : SameButValues first second) :
      SameButValues (unresolved before span path first) (unresolved before span path second)
  | replaced (before : List α) {span : List α} (path : Text) {value other : Text}
      {first second : Scan α} (nonempty : span ≠ []) (filled : value ≠ [])
      (otherFilled : other ≠ []) (next : SameButValues first second) :
      SameButValues (replaced before span path value first)
        (replaced before span path other second)

variable {first second : Scan α}

theorem SameButValues.source_eq (same : SameButValues first second) :
    first.source = second.source := by
  induction same with
  | finished rest => rfl
  | unterminated before rest => rfl
  | unresolved before span path next ih => rw [source, ih, source]
  | replaced before path nonempty filled otherFilled next ih => rw [source, ih, source]

theorem SameButValues.asked_eq (same : SameButValues first second) :
    first.asked = second.asked := by
  induction same with
  | finished rest => rfl
  | unterminated before rest => rfl
  | unresolved before span path next ih => rw [asked, ih, asked]
  | replaced before path nonempty filled otherFilled next ih => rw [asked, ih, asked]

theorem SameButValues.tally_eq (same : SameButValues first second) :
    first.tally = second.tally := by
  induction same with
  | finished rest => rfl
  | unterminated before rest => rfl
  | unresolved before span path next ih => rw [tally, ih, tally]
  | replaced before path nonempty filled otherFilled next ih => rw [tally, ih, tally]

theorem SameButValues.isSome_unterminated?_eq (same : SameButValues first second) :
    first.unterminated?.isSome = second.unterminated?.isSome := by
  induction same with
  | finished rest => rfl
  | unterminated before rest => rfl
  | unresolved before span path next ih => simpa [unterminated?] using ih
  | replaced before path nonempty filled otherFilled next ih => simpa [unterminated?] using ih

/-- Both scans fail, or both end with the same counts. -/
theorem SameButValues.outcome_cases (same : SameButValues first second)
    (char : α → Option Char) (markers : Markers) :
    (∃ tally, first.outcome char markers = .ok tally ∧ second.outcome char markers = .ok tally) ∨
      ∃ error other, first.outcome char markers = .error error ∧
        second.outcome char markers = .error other := by
  have ends := same.isSome_unterminated?_eq
  unfold outcome
  cases unclosed : first.unterminated? with
  | none =>
    rw [unclosed, Option.isSome_none, eq_comm, Option.isSome_eq_false_iff,
      Option.isNone_iff_eq_none] at ends
    rw [ends]
    exact Or.inl ⟨first.tally, rfl, by rw [same.tally_eq]⟩
  | some ending =>
    rw [unclosed, Option.isSome_some, eq_comm, Option.isSome_iff_exists] at ends
    obtain ⟨other, otherUnclosed⟩ := ends
    rw [otherUnclosed]
    exact Or.inr ⟨_, _, rfl, rfl⟩

end Scan

theorem sameButValues_scan {α : Type} {char : α → Option Char} {markers : Markers}
    {first second : Text → Option Text} (alike : Alike first second) (units : List α) :
    Scan.SameButValues (scan char markers first units) (scan char markers second units) := by
  fun_induction scan char markers first units with
  | case1 units found =>
    rw [scan_nothing found]
    exact .finished units
  | case2 units before rest found =>
    rw [scan_unclosed found]
    exact .unterminated before rest
  | case3 units before span path after found missing ih =>
    have otherMissing : second path = none := by
      have same := alike.found path
      rw [missing, Option.isSome_none] at same
      exact Option.isNone_iff_eq_none.1 (Option.isSome_eq_false_iff.1 same.symm)
    rw [scan_unresolved found otherMissing]
    exact .unresolved before span path ih
  | case4 units before span path after found value present ih =>
    obtain ⟨other, otherPresent⟩ : ∃ other, second path = some other := by
      have same := alike.found path
      rw [present, Option.isSome_some] at same
      exact Option.isSome_iff_exists.1 same.symm
    have filled : value ≠ [] := fun empty => alike.first_ne path (empty ▸ present)
    have otherFilled : other ≠ [] := fun empty => alike.second_ne path (empty ▸ otherPresent)
    rw [scan_replaced found otherPresent]
    exact .replaced before path (span_ne_nil found) filled otherFilled ih

/-- All that the choice of a template looks at in a cell. -/
structure Look where
  isText : Bool
  origin : Origin
  opensRun : Bool
  closesRun : Bool

/-- What a cell looks like without its character. -/
def lookOf (cell : Cell) : Look :=
  ⟨cell.char.isSome, cell.origin, cell.opensRun, cell.closesRun⟩

theorem fits_before_eq_of_lookOf {cell other : Cell} (same : lookOf cell = lookOf other)
    (first : Cell) :
    (isUsable first cell && touchesBefore first cell)
      = (isUsable first other && touchesBefore first other) := by
  obtain ⟨isText, origin, _, closes⟩ := Look.mk.inj same
  rw [isUsable, isUsable, touchesBefore, touchesBefore, isText, origin, closes]

theorem map_lookOf_filter {fits : Cell → Bool}
    (blind : ∀ cell other, lookOf cell = lookOf other → fits cell = fits other)
    {cell other : Option Cell} (same : cell.map lookOf = other.map lookOf) :
    (cell.filter fits).map lookOf = (other.filter fits).map lookOf := by
  cases cell with
  | none =>
    cases other with
    | none => rfl
    | some other => cases same
  | some cell =>
    cases other with
    | none => cases same
    | some other =>
      have look := Option.some.inj same
      rw [Option.filter_some, Option.filter_some, blind cell other look]
      split
      · exact same
      · rfl

/-- The template looks the same whatever characters stand in front of the placeholder. -/
theorem map_lookOf_templateOf? {passed other : List Cell} (after : List Cell) {span : List Cell}
    (nonempty : span ≠ []) (same : passed.head?.map lookOf = other.head?.map lookOf) :
    (templateOf? passed span after).map lookOf = (templateOf? other span after).map lookOf := by
  have before := map_lookOf_filter
    (fun cell other look => fits_before_eq_of_lookOf look (span.head nonempty)) same
  rw [templateOf?_eq passed after nonempty, templateOf?_eq other after nonempty]
  dsimp only
  cases after.head?.filter fun cell =>
      isUsable (span.head nonempty) cell && touchesBehind (span.getLast nonempty) cell with
  | some cell => rfl
  | none =>
    have chosen := congrArg (fun look => some (look.getD (lookOf (span.head nonempty)))) before
    rw [Option.getD_map, Option.getD_map] at chosen
    exact chosen

theorem writtenCells_ne_nil (passed after : List Cell) {span : List Cell} (nonempty : span ≠ [])
    {value : Text} (filled : value ≠ []) : writtenCells passed span after value ≠ [] := by
  intro none
  have length := length_writtenCells passed after value nonempty
  obtain ⟨c, rest, rfl⟩ := List.exists_cons_of_ne_nil filled
  have atLeast : (Markup.escape (c :: rest)).length ≠ 0 := by
    rw [Markup.escape_eq_flatMap, List.flatMap_cons, List.length_append]
    unfold Markup.escapeChar
    split <;> (try split) <;> (try split) <;> simp
  rw [none] at length
  exact atLeast length.symm

theorem lookOf_of_mem_writtenCells {passed span after : List Cell} {value : Text} {cell : Cell}
    {template : Cell} (chosen : templateOf? passed span after = some template)
    (member : cell ∈ writtenCells passed span after value) :
    lookOf cell = ⟨true, template.origin, false, false⟩ := by
  rw [writtenCells, chosen, Option.map_some, Option.getD_some, valueCells] at member
  obtain ⟨c, _, rfl⟩ := List.mem_map.1 member
  rfl

/-- The cells of two values for one placeholder all look the same. -/
theorem exists_lookOf_writtenCells {passed other : List Cell} (after : List Cell) {span : List Cell}
    (nonempty : span ≠ []) (same : passed.head?.map lookOf = other.head?.map lookOf)
    (value otherValue : Text) :
    ∃ look, (∀ cell, cell ∈ writtenCells passed span after value → lookOf cell = look) ∧
      ∀ cell, cell ∈ writtenCells other span after otherValue → lookOf cell = look := by
  obtain ⟨template, chosen⟩ := templateOf?_isSome passed after nonempty
  obtain ⟨otherTemplate, otherChosen⟩ := templateOf?_isSome other after nonempty
  have looks := map_lookOf_templateOf? after nonempty same
  rw [chosen, otherChosen] at looks
  have origin : template.origin = otherTemplate.origin :=
    (Look.mk.inj (Option.some.inj looks)).2.1
  refine ⟨⟨true, template.origin, false, false⟩, ?_, ?_⟩
  · intro cell member
    exact lookOf_of_mem_writtenCells chosen member
  · intro cell member
    rw [origin]
    exact lookOf_of_mem_writtenCells otherChosen member

/-- Two pieces of which one holds another value, in cells that look the same. -/
inductive Piece.SameButValue : Piece → Piece → Prop
  | kept (cells : List Cell) : SameButValue (kept cells) (kept cells)
  | replaced {span written other : List Cell} {value otherValue : Text} {look : Look}
      (filled : written ≠ []) (otherFilled : other ≠ [])
      (looks : ∀ cell, cell ∈ written → lookOf cell = look)
      (otherLooks : ∀ cell, cell ∈ other → lookOf cell = look) :
      SameButValue (replaced span value written) (replaced span otherValue other)

theorem map_lookOf_head?_reverse_append {written passed : List Cell} {look : Look}
    (filled : written ≠ []) (looks : ∀ cell, cell ∈ written → lookOf cell = look) :
    (written.reverse ++ passed).head?.map lookOf = some look := by
  have nonempty : written.reverse ≠ [] := by simpa using filled
  have first := looks _ (List.mem_reverse.1 (List.head_mem nonempty))
  rw [List.head?_append, List.head?_eq_some_head nonempty, Option.some_or, Option.map_some, first]

theorem map_lookOf_head?_append {passed other : List Cell} (front : List Cell)
    (same : passed.head?.map lookOf = other.head?.map lookOf) :
    (front ++ passed).head?.map lookOf = (front ++ other).head?.map lookOf := by
  cases front with
  | nil => exact same
  | cons cell front => rfl

theorem forall₂_pieces {first second : Scan Cell} (scans : Scan.SameButValues first second)
    {passed other : List Cell} (same : passed.head?.map lookOf = other.head?.map lookOf) :
    List.Forall₂ Piece.SameButValue (first.pieces passed) (second.pieces other) := by
  induction scans generalizing passed other with
  | finished rest => exact .cons (.kept rest) .nil
  | unterminated before rest => exact .cons (.kept _) .nil
  | unresolved before span path next ih =>
    exact .cons (.kept _) (ih (map_lookOf_head?_append _ (map_lookOf_head?_append _ same)))
  | @replaced before span path value otherValue first second nonempty filled otherFilled next ih =>
    have reached := map_lookOf_head?_append before.reverse same
    obtain ⟨look, looks, otherLooks⟩ :=
      exists_lookOf_writtenCells second.source nonempty reached value otherValue
    have written := writtenCells_ne_nil (before.reverse ++ passed) second.source nonempty filled
    have otherWritten :=
      writtenCells_ne_nil (before.reverse ++ other) second.source nonempty otherFilled
    rw [Scan.pieces, Scan.pieces, next.source_eq]
    -- The next placeholder may have the last cell of a value in front of it.
    refine .cons (.kept before) (.cons (.replaced written otherWritten looks otherLooks) (ih ?_))
    rw [map_lookOf_head?_reverse_append written looks,
      map_lookOf_head?_reverse_append otherWritten otherLooks]

/-- Two rows whose cells come from the same places. -/
def SameOrigins (cells other : List Cell) : Prop :=
  ∀ origin, (∃ cell, cell ∈ cells ∧ cell.origin = origin) ↔
    ∃ cell, cell ∈ other ∧ cell.origin = origin

theorem Piece.SameButValue.sameOrigins {first second : Piece} (same : SameButValue first second) :
    SameOrigins first.result second.result := by
  cases same with
  | kept cells => exact fun origin => Iff.rfl
  | @replaced span written other value otherValue look filled otherFilled looks otherLooks =>
    have origins : ∀ {cells : List Cell}, cells ≠ [] → (∀ cell, cell ∈ cells → lookOf cell = look) →
        ∀ origin, (∃ cell, cell ∈ cells ∧ cell.origin = origin) ↔ look.origin = origin := by
      intro cells nonempty looks origin
      constructor
      · rintro ⟨cell, member, rfl⟩
        exact (congrArg Look.origin (looks cell member)).symm
      · rintro rfl
        obtain ⟨cell, rest, rfl⟩ := List.exists_cons_of_ne_nil nonempty
        exact ⟨cell, by simp, congrArg Look.origin (looks cell (by simp))⟩
    intro origin
    exact (origins filled looks origin).trans (origins otherFilled otherLooks origin).symm

theorem sameOrigins_flatMap {pieces others : List Piece}
    (same : List.Forall₂ Piece.SameButValue pieces others) :
    SameOrigins (pieces.flatMap Piece.result) (others.flatMap Piece.result) := by
  induction same with
  | nil => exact fun origin => Iff.rfl
  | cons first rest ih =>
    intro origin
    simp only [List.flatMap_cons, List.mem_append, or_and_right, exists_or]
    rw [first.sameOrigins origin, ih origin]

end MailMerge.Fill
