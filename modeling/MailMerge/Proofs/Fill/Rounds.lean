import MailMerge.Fill.Processor
import MailMerge.Proofs.Fill.Record
import Mathlib.Data.List.Basic

set_option autoImplicit false

namespace MailMerge.Fill

open Run (Cell Cursor)

/-- The rounds of a pass, at most `fuel` of them; no result if the pass is not at its end then. -/
def rounds (markers : Markers) : Nat → Tally → Cursor → Dialogue (Option Passed)
  | 0, _, _ => .done none
  | fuel + 1, tally, cursor =>
    (round markers tally cursor).bind fun
      | .inl passed => .done (some passed)
      | .inr (tally, cursor) => rounds markers fuel tally cursor

namespace Scan

variable {α : Type}

/-- The placeholders that the scan asks about. -/
def spans : Scan α → List (List α)
  | finished _ => []
  | unterminated _ _ => []
  | unresolved _ span _ next => span :: next.spans
  | replaced _ span _ _ next => span :: next.spans

theorem length_spans (scanned : Scan α) : scanned.spans.length = scanned.record.length := by
  induction scanned with
  | finished rest => rfl
  | unterminated before rest => rfl
  | unresolved before span path next ih => exact congrArg (· + 1) ih
  | replaced before span path value next ih => exact congrArg (· + 1) ih

/-- The placeholders lie one behind the other in the row. -/
theorem flatten_spans_sublist (scanned : Scan α) :
    scanned.spans.flatten.Sublist scanned.source := by
  induction scanned with
  | finished rest => exact List.nil_sublist rest
  | unterminated before rest => exact List.nil_sublist _
  | unresolved before span path next ih =>
    exact (ih.append_left span).trans (List.sublist_append_right before _)
  | replaced before span path value next ih =>
    exact (ih.append_left span).trans (List.sublist_append_right before _)

theorem length_delimiters_le_of_mem_spans {char : α → Option Char} {markers : Markers}
    {scanned : Scan α} (finds : scanned.Finds char markers) {span : List α}
    (member : span ∈ scanned.spans) :
    markers.opening.length + markers.closing.length ≤ span.length := by
  induction scanned with
  | finished rest => cases member
  | unterminated before rest => cases member
  | unresolved before own path next ih =>
    rcases List.mem_cons.1 member with rfl | later
    · exact length_delimiters_le finds.1
    · exact ih finds.2 later
  | replaced before own path value next ih =>
    rcases List.mem_cons.1 member with rfl | later
    · exact length_delimiters_le finds.1
    · exact ih finds.2 later

end Scan

theorem length_mul_le_length_flatten {α : Type} {spans : List (List α)} {least : Nat}
    (long : ∀ span, span ∈ spans → least ≤ span.length) :
    spans.length * least ≤ spans.flatten.length := by
  induction spans with
  | nil => simp
  | cons span spans ih =>
    obtain ⟨first, others⟩ := List.forall_mem_cons.1 long
    have rest := ih others
    rw [List.length_cons, Nat.succ_mul, List.flatten_cons, List.length_append]
    omega

section

variable (markers : Markers)

theorem length_delimiters_pos : 0 < markers.opening.length + markers.closing.length :=
  Nat.add_pos_left (List.length_pos_iff.2 markers.opening_ne) _

/-- Enough rounds are the whole pass: each of them takes the cells of one placeholder from those
ahead. -/
theorem rounds_eq (fuel : Nat) (tally : Tally) (passed units : List Cell)
    (enough : units.length / (markers.opening.length + markers.closing.length) < fuel) :
    rounds markers fuel tally ⟨passed, units⟩
      = (passFrom markers tally ⟨passed, units⟩).bind fun passed => .done (some passed) := by
  induction fuel generalizing tally passed units with
  | zero => exact absurd enough (Nat.not_lt_zero _)
  | succ fuel ih =>
    rw [rounds, round_eq, passFrom_eq]
    dsimp only
    cases found : find Cell.char markers units with
    | nothing => rfl
    | unclosed before rest => rfl
    | placeholder before span path after =>
      have fewer : after.length / (markers.opening.length + markers.closing.length) < fuel := by
        have long := length_delimiters_le found
        have length := congrArg List.length (append_of_find found)
        rw [List.length_append, List.length_append] at length
        have room : after.length + (markers.opening.length + markers.closing.length)
            ≤ units.length := by omega
        have divided :=
          Nat.div_le_div_right (c := markers.opening.length + markers.closing.length) room
        rw [Nat.add_div_right _ (length_delimiters_pos markers)] at divided
        omega
      dsimp only [Dialogue.bind]
      congr 1
      funext answer
      cases answer with
      | none => exact ih _ _ after fewer
      | some value => exact ih _ _ after fewer

end

/-- Whatever answers it, even with new placeholders, a pass comes to its end within a bounded
number of rounds, and asks at most as often as placeholders fit into the row. Each question is
about its own stretch of the cells that the row began with. -/
theorem pass_ends {σ : Type} (markers : Markers) (cursor : Cursor)
    (resolve : σ → Text → Option Text × σ) (state : σ) :
    let work := pass markers cursor
    let most := cursor.cells.length / (markers.opening.length + markers.closing.length)
    rounds markers (most + 1) ⟨0, 0⟩ cursor.rewind = work.bind (fun passed => .done (some passed)) ∧
      (work.record resolve state).length ≤ most ∧
      ∃ scanned : Scan Cell, scanned.source = cursor.cells ∧
        scanned.Finds Cell.char markers ∧ scanned.record = work.record resolve state ∧
        scanned.spans.length = (work.record resolve state).length ∧
        scanned.spans.flatten.Sublist cursor.cells ∧
        ∀ span, span ∈ scanned.spans →
          markers.opening.length + markers.closing.length ≤ span.length := by
  intro work most
  obtain ⟨scanned, source, finds, record, _⟩ := exists_scanOf_pass markers resolve state cursor
  have count := scanned.length_spans
  rw [record] at count
  have sublist := scanned.flatten_spans_sublist
  rw [source] at sublist
  have long : ∀ span, span ∈ scanned.spans →
      markers.opening.length + markers.closing.length ≤ span.length := fun _ member =>
    Scan.length_delimiters_le_of_mem_spans finds member
  refine ⟨rounds_eq markers _ _ [] cursor.cells (Nat.lt_succ_self most), ?_,
    scanned, source, finds, record, count, sublist, long⟩
  rw [← count]
  have total := Nat.le_trans (length_mul_le_length_flatten long) sublist.length_le
  exact (Nat.le_div_iff_mul_le (length_delimiters_pos markers)).2 total

/-- Every value is a placeholder itself. -/
theorem pass_ends_on_new_placeholders :
    let row := Run.cellsOfText ⟨0, 0, some 0⟩ false false
      ['{', '{', 'x', '}', '}', '{', '{', 'y', '}', '}']
    let work := pass Processor.standardMarkers (Cursor.ofCells row)
    let answer (count : Nat) (_ : Text) := (some ['{', '{', 'z', '}', '}'], count + 1)
    (work.record answer 0).map Prod.fst = [['x'], ['y']] ∧
      Run.textOf (work.runWith answer 0).1.cursor.cells
        = ['{', '{', 'z', '}', '}', '{', '{', 'z', '}', '}'] ∧
      (work.record answer 0).length ≤ row.length / 4 := by
  refine ⟨by cbv, by cbv, ?_⟩
  exact (pass_ends Processor.standardMarkers _ (fun (count : Nat) _ =>
    (some ['{', '{', 'z', '}', '}'], count + 1)) 0).2.1

end MailMerge.Fill
