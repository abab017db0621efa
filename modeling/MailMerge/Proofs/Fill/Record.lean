import MailMerge.Proofs.Fill.Pieces

set_option autoImplicit false

namespace MailMerge.Fill

open Run (Cell Cursor)

/-- The paths that are asked for, each with its answer, when the answers come from something that
each question may change. -/
def Dialogue.record {α σ : Type} (resolve : σ → Text → Option Text × σ) (state : σ) :
    Dialogue α → List (Text × Option Text)
  | done _ => []
  | ask path reply =>
    let (answer, state) := resolve state path
    (path, answer) :: (reply answer).record resolve state

namespace Scan

variable {α : Type}

/-- The paths that the scan asks for, each with its answer. -/
def record : Scan α → List (Text × Option Text)
  | finished _ => []
  | unterminated _ _ => []
  | unresolved _ _ path next => (path, none) :: next.record
  | replaced _ _ path value next => (path, some value) :: next.record

/-- Every step of the scan is what the units from there on hold first. -/
def Finds (char : α → Option Char) (markers : Markers) : Scan α → Prop
  | finished rest => find char markers rest = .nothing
  | unterminated before rest => find char markers (before ++ rest) = .unclosed before rest
  | unresolved before span path next =>
    find char markers (before ++ (span ++ next.source))
        = .placeholder before span path next.source ∧
      next.Finds char markers
  | replaced before span path _ next =>
    find char markers (before ++ (span ++ next.source))
        = .placeholder before span path next.source ∧
      next.Finds char markers

/-- The row and the position that a pass leaves which starts behind the cells `passed`, the last of
which comes first. -/
def left (markers : Markers) (passed : List Cell) : Scan Cell → Cursor
  | finished rest => ⟨rest.reverse ++ passed, []⟩
  | unterminated before rest =>
    Cursor.forward markers.opening.length ⟨before.reverse ++ passed, rest⟩
  | unresolved before span _ next => next.left markers (span.reverse ++ (before.reverse ++ passed))
  | replaced before span _ value next =>
    let reached := before.reverse ++ passed
    next.left markers ((writtenCells reached span next.source value).reverse ++ reached)

end Scan

/-- A scan of a row for a pass, with the pass's questions, answers and end. -/
structure ScanOf (markers : Markers) (passed units : List Cell)
    (record : List (Text × Option Text)) (cursor : Cursor) (scanned : Scan Cell) : Prop where
  source : scanned.source = units
  finds : scanned.Finds Cell.char markers
  record : scanned.record = record
  left : scanned.left markers passed = cursor

section

variable {σ : Type} (markers : Markers) (resolve : σ → Text → Option Text × σ)

theorem exists_scanOf_passFrom (state : σ) (tally : Tally) (passed units : List Cell) :
    let work := passFrom markers tally ⟨passed, units⟩
    ∃ scanned, ScanOf markers passed units (work.record resolve state)
      (work.runWith resolve state).1.cursor scanned := by
  rw [passFrom_eq]
  dsimp only
  cases found : find Cell.char markers units with
  | nothing =>
    refine ⟨.finished units, rfl, found, rfl, ?_⟩
    simp [Scan.left, Dialogue.runWith, Cursor.forward]
  | unclosed before rest =>
    obtain ⟨openingCut, _⟩ := cutBefore?_of_find_unclosed found
    have split := (firstAt_of_cutBefore? openingCut).append
    exact ⟨.unterminated before rest, split.symm, by rwa [Scan.Finds, ← split], rfl, rfl⟩
  | placeholder before span path after =>
    have split := append_of_find found
    have shorter := length_after_lt found
    simp only [Dialogue.record, Dialogue.runWith]
    obtain ⟨answer, state', answered⟩ : ∃ answer state', resolve state path = (answer, state') :=
      ⟨_, _, rfl⟩
    rw [answered]
    cases answer with
    | none =>
      obtain ⟨next, source, finds, record, left⟩ := exists_scanOf_passFrom state'
        { tally with unresolved := tally.unresolved + 1 }
        (span.reverse ++ (before.reverse ++ passed)) after
      refine ⟨.unresolved before span path next, ?_, ⟨?_, finds⟩, ?_, left⟩
      · rw [Scan.source, source, split]
      · rw [source, ← split, found]
      · rw [Scan.record, record]
    | some value =>
      obtain ⟨next, source, finds, record, left⟩ := exists_scanOf_passFrom state'
        { tally with replaced := tally.replaced + 1 }
        ((writtenCells (before.reverse ++ passed) span after value).reverse
          ++ (before.reverse ++ passed)) after
      refine ⟨.replaced before span path value next, ?_, ⟨?_, finds⟩, ?_, ?_⟩
      · rw [Scan.source, source, split]
      · rw [source, ← split, found]
      · rw [Scan.record, record]
      · rw [Scan.left, source, left]
termination_by units.length
decreasing_by all_goals exact shorter

/-- Whatever answers a pass, it scans all cells of its row once, in order. -/
theorem exists_scanOf_pass (state : σ) (cursor : Cursor) :
    let work := pass markers cursor
    ∃ scanned, ScanOf markers [] cursor.cells (work.record resolve state)
      (work.runWith resolve state).1.cursor scanned :=
  exists_scanOf_passFrom markers resolve state ⟨0, 0⟩ [] cursor.cells

end

end MailMerge.Fill
