import Mathlib.Data.List.Induction
import MailMerge.Proofs.Run.Links
import MailMerge.Proofs.Run.Row

set_option autoImplicit false

namespace MailMerge.Run

variable {linked : Linked} {row : Row} {passed ahead : List Nat}

namespace Linked

/-- What an operation tells about linked slots, and the slots that it leaves. -/
def apply : Op → Linked → Answer × Linked
  | .push cell, linked => (.nothing, linked.push cell)
  | .advance, linked =>
    match linked.advance? with
    | none => (.cell none, linked)
    | some moved => (.cell moved.current?, moved)
  | .retreat, linked => (.cell linked.retreat.current?, linked.retreat)
  | .rewind, linked => (.nothing, linked.rewind)
  | .seek n, linked => (.nothing, linked.seek n)
  | .removeAhead n, linked =>
    let (count, shorter) := linked.removeAhead n
    (.count count, shorter)
  | .insertBefore cell, linked => (.nothing, linked.insertBefore cell)
  | .insertAfter cell, linked => (.nothing, linked.insertAfter cell)

/-- The links show a row: they run through the slots in `passed` and `ahead`, which hold its cells
up to the current one and behind it, and the position is on the last slot in `passed`. -/
structure Shows (linked : Linked) (row : Row) (passed ahead : List Nat) : Prop where
  links : linked.Links (passed ++ ahead)
  current : linked.current = passed.getLast?
  passed : passed.map linked.cellAt? = row.passed.map some
  ahead : ahead.map linked.cellAt? = row.ahead.map some

/-- Linked slots and a row tell the same when they are asked. -/
structure Agrees (linked : Linked) (row : Row) : Prop where
  cells : linked.cells = row.cells
  length : linked.length = row.cells.length
  offset : linked.offset = row.position
  text : linked.text = textOf row.cells
  current? : linked.current? = row.current?
  cellAhead? : ∀ k, linked.cellAhead? k = row.cellAhead? k
  peek : ∀ k, linked.peek k = row.peek k
  textUntil? : ∀ delimiter, linked.textUntil? delimiter = row.textUntil? delimiter

/-- Following the links from a place on yields slots with these cells, and then the end. -/
inductive Reads (linked : Linked) : Option Nat → List Cell → Prop where
  | nil {place : Option Nat} (next : linked.nextOf place = none) : Reads linked place []
  | cons {place : Option Nat} {index : Nat} {cell : Cell} {cells : List Cell}
      (next : linked.nextOf place = some index) (held : linked.cellAt? index = some cell)
      (rest : Reads linked (some index) cells) : Reads linked place (cell :: cells)

theorem Links.reads {front behind : List Nat} {cells : List Cell}
    (links : linked.Links (front ++ behind))
    (held : behind.map linked.cellAt? = cells.map some) : linked.Reads front.getLast? cells := by
  have next := links.forward front behind rfl
  induction behind generalizing front cells with
  | nil =>
    obtain rfl : cells = [] := List.map_eq_nil_iff.1 held.symm
    exact .nil next
  | cons index behind ih =>
    obtain ⟨cell, rest, rfl, here, held⟩ := List.map_eq_cons_iff.1 held.symm
    have further : linked.Links (front ++ [index] ++ behind) := by simpa using links
    have reads := ih further held.symm (further.forward _ _ rfl)
    rw [List.getLast?_concat] at reads
    exact .cons next here.symm reads

namespace Reads

variable {place : Option Nat} {cells : List Cell}

theorem textFrom (reads : linked.Reads place cells) (k : Nat) :
    linked.textFrom k place = textOf (cells.take k) := by
  induction reads generalizing k with
  | nil next => cases k <;> simp [Linked.textFrom, next, textOf]
  | cons next held rest ih =>
    cases k with
    | zero => rfl
    | succ k => simp only [Linked.textFrom, next, held, ih, Option.bind_some, List.take_succ_cons,
        textOf_cons]

theorem cellsFrom (reads : linked.Reads place cells) {fuel : Nat} (enough : cells.length ≤ fuel) :
    linked.cellsFrom fuel place = cells := by
  induction reads generalizing fuel with
  | nil next => cases fuel <;> simp [Linked.cellsFrom, next]
  | cons next held rest ih =>
    obtain ⟨fuel, rfl⟩ := Nat.exists_eq_add_one_of_ne_zero (Nat.ne_zero_of_lt enough)
    simp only [Linked.cellsFrom, next, held, ih (Nat.le_of_succ_le_succ enough),
      Option.toList_some, List.singleton_append]

theorem spellsAt (reads : linked.Reads place cells) (text : Text) :
    linked.spellsAt text (linked.nextOf place) = spells text cells := by
  induction reads generalizing text with
  | nil next => cases text <;> simp [Linked.spellsAt, spells, next]
  | cons next held rest ih =>
    cases text with
    | nil => simp [Linked.spellsAt, spells]
    | cons c text => simp only [Linked.spellsAt, spells, next, held, ih, Option.bind_some]

theorem textUntilFrom? (reads : linked.Reads place cells) (delimiter : Text) {fuel : Nat}
    (enough : cells.length ≤ fuel) :
    linked.textUntilFrom? delimiter fuel place = Run.textUntil? delimiter cells := by
  induction reads generalizing fuel with
  | nil next => cases fuel <;> simp [Linked.textUntilFrom?, Run.textUntil?, next]
  | cons next held rest ih =>
    obtain ⟨fuel, rfl⟩ := Nat.exists_eq_add_one_of_ne_zero (Nat.ne_zero_of_lt enough)
    have spelt := (Reads.cons next held rest).spellsAt delimiter
    rw [next] at spelt
    simp only [Linked.textUntilFrom?, Run.textUntil?, next, held, spelt,
      ih (Nat.le_of_succ_le_succ enough), Option.bind_some]

theorem cellAhead (reads : linked.Reads place cells) (k : Nat) :
    (if (linked.walk (k + 1) place).2 = k + 1
      then (linked.walk (k + 1) place).1.bind linked.cellAt? else none) = cells[k]? := by
  induction reads generalizing k with
  | nil next => simp [Linked.walk, next]
  | cons next held rest ih =>
    cases k with
    | zero => simp [Linked.walk, next, held]
    | succ k =>
      rw [List.getElem?_cons_succ, ← ih k, Linked.walk, next]
      simp only [Nat.add_right_cancel_iff]

end Reads

namespace Shows

theorem empty : Linked.empty.Shows (.ofCells []) [] [] where
  links :=
    { nodup := List.nodup_nil
      slot := fun _ member => absurd member List.not_mem_nil
      forward := fun front behind cut => by
        obtain ⟨rfl, rfl⟩ := List.append_eq_nil_iff.1 cut.symm
        rfl
      backward := fun front behind cut => by
        obtain ⟨rfl, rfl⟩ := List.append_eq_nil_iff.1 cut.symm
        rfl
      length := rfl }
  current := rfl
  passed := rfl
  ahead := rfl

theorem push (shows : linked.Shows row passed ahead) (cell : Cell) :
    (linked.push cell).Shows (row.push cell) passed (ahead ++ [linked.slots.size]) := by
  have links := shows.links
  have whole : passed ++ ahead ++ [] = passed ++ ahead := List.append_nil _
  have last : linked.last = (passed ++ ahead).getLast? := links.backward _ [] whole.symm
  rw [Linked.push, last]
  constructor
  · have grown := Links.insertBetween (whole.symm ▸ links) cell
    rw [List.append_nil, List.append_assoc] at grown
    exact grown
  · rw [current_insertBetween, shows.current]
  · rw [links.map_cellAt?_insertBetween (List.subset_append_left _ _), shows.passed,
      Row.passed_push]
  · rw [List.map_append, links.map_cellAt?_insertBetween (List.subset_append_right _ _),
      shows.ahead, Row.ahead_push, List.map_append, List.map_singleton,
      List.map_singleton, cellAt?_insertBetween_self]

theorem insertAfter (shows : linked.Shows row passed ahead) (cell : Cell) :
    (linked.insertAfter cell).Shows (row.insertAfter cell) passed (linked.slots.size :: ahead) := by
  have links := shows.links
  rw [Linked.insertAfter, shows.current, links.forward passed ahead rfl]
  constructor
  · simpa using links.insertBetween cell
  · rw [current_insertBetween, shows.current]
  · rw [links.map_cellAt?_insertBetween (List.subset_append_left _ _), shows.passed,
      Row.passed_insertAfter]
  · rw [List.map_cons, links.map_cellAt?_insertBetween (List.subset_append_right _ _),
      shows.ahead, Row.ahead_insertAfter, cellAt?_insertBetween_self, List.map_cons]

theorem insertBefore (shows : linked.Shows row passed ahead) (cell : Cell) :
    ∃ passed ahead, (linked.insertBefore cell).Shows (row.insertBefore cell) passed ahead := by
  have links := shows.links
  rcases List.eq_nil_or_concat passed with rfl | ⟨front, index, rfl⟩
  · have anchor : row.passed = [] := List.map_eq_nil_iff.1 shows.passed.symm
    have current : linked.current = none := shows.current
    rw [Row.insertBefore_anchor anchor cell, Linked.insertBefore, current]
    exact ⟨_, _, shows.insertAfter cell⟩
  · rw [List.concat_eq_append] at shows links
    have current := shows.current
    rw [List.getLast?_concat] at current
    have cells := shows.passed
    rw [List.map_append] at cells
    obtain ⟨before, rest, cut, held, here⟩ := List.map_eq_append_iff.1 cells.symm
    obtain ⟨under, rfl, same⟩ := List.map_eq_singleton_iff.1 here
    obtain ⟨passedAfter, aheadAfter⟩ := Row.insertBefore_cell cut cell
    rw [List.append_assoc] at links
    have previous : linked.previousOf (some index) = front.getLast? :=
      links.backward front ([index] ++ ahead) rfl
    refine ⟨front ++ [linked.slots.size, index], ahead, ?_⟩
    rw [Linked.insertBefore, current]
    simp only [previous]
    constructor
    · simpa using links.insertBetween cell
    · rw [current_insertBetween, current, List.getLast?_append_cons]
      rfl
    · rw [passedAfter, List.map_append, List.map_append, held,
        links.map_cellAt?_insertBetween (List.subset_append_left _ _)]
      simp only [List.map_cons, List.map_nil, same, cellAt?_insertBetween_self,
        links.cellAt?_insertBetween (by simp : index ∈ front ++ ([index] ++ ahead))]
    · have behind : ahead ⊆ front ++ ([index] ++ ahead) := by simp
      rw [links.map_cellAt?_insertBetween behind, shows.ahead, aheadAfter]

theorem removeAhead (shows : linked.Shows row passed ahead) (n : Nat) :
    (linked.removeAhead n).2.Shows (row.removeAhead n) passed (ahead.drop n) := by
  have same : (linked.removeAhead n).2.current = linked.current ∧
      (linked.removeAhead n).2.cellAt? = linked.cellAt? := by
    rw [removeAhead_eq shows.links shows.current]
    split
    · exact ⟨rfl, rfl⟩
    · exact ⟨current_join _, funext (cellAt?_join _)⟩
  exact
    { links := shows.links.removeAhead shows.current n
      current := same.1.trans shows.current
      passed := by rw [same.2, shows.passed, Row.passed_removeAhead]
      ahead := by
        rw [same.2, List.map_drop, shows.ahead, Row.ahead_removeAhead, List.map_drop] }

theorem length_passed (shows : linked.Shows row passed ahead) : passed.length = row.position := by
  rw [← row.length_passed]
  simpa only [List.length_map] using congrArg List.length shows.passed

theorem length_ahead (shows : linked.Shows row passed ahead) :
    ahead.length = row.ahead.length := by
  simpa only [List.length_map] using congrArg List.length shows.ahead

theorem cells (shows : linked.Shows row passed ahead) :
    (passed ++ ahead).map linked.cellAt? = row.cells.map some := by
  rw [List.map_append, shows.passed, shows.ahead, ← List.map_append, row.passed_append_ahead]

theorem count_removeAhead (shows : linked.Shows row passed ahead) (n : Nat) :
    (linked.removeAhead n).1 = min n row.ahead.length := by
  rw [removeAhead_eq shows.links shows.current, List.length_take, shows.length_ahead]

/-- The same slots, cut elsewhere, show the same cells with another position. -/
theorem move (shows : linked.Shows row passed ahead) {moved : Row} {front behind : List Nat}
    (same : moved.cells = row.cells) (cut : passed ++ ahead = front ++ behind)
    (position : front.length = moved.position) :
    ({ linked with current := front.getLast? } : Linked).Shows moved front behind := by
  have cells := shows.cells
  rw [← same] at cells
  have front_eq : front = (passed ++ ahead).take moved.position := by
    rw [cut, List.take_left' position]
  have behind_eq : behind = (passed ++ ahead).drop moved.position := by
    rw [cut, List.drop_left' position]
  exact
    { links := cut ▸ shows.links.withCurrent _
      current := rfl
      passed := by
        change front.map linked.cellAt? = _
        rw [front_eq, List.map_take, cells, Row.passed, List.map_take]
      ahead := by
        change behind.map linked.cellAt? = _
        rw [behind_eq, List.map_drop, cells, Row.ahead, List.map_drop] }

theorem rewind (shows : linked.Shows row passed ahead) :
    linked.rewind.Shows row.rewind [] (passed ++ ahead) := by
  change ({ linked with current := ([] : List Nat).getLast? } : Linked).Shows _ _ _
  exact shows.move rfl rfl rfl

theorem seek (shows : linked.Shows row passed ahead) (n : Int) :
    ∃ passed ahead, (linked.seek n).Shows (row.seek n) passed ahead := by
  have passedLength := shows.length_passed
  have aheadLength := shows.length_ahead
  have within := row.within
  rw [Row.length_ahead] at aheadLength
  cases n with
  | ofNat n =>
    refine ⟨passed ++ ahead.take n, ahead.drop n, ?_⟩
    simp only [Linked.seek, shows.current, shows.links.walk n]
    refine shows.move rfl ?_ ?_
    · rw [List.append_assoc, List.take_append_drop]
    · rw [List.length_append, List.length_take]
      exact Eq.trans (by omega) (Row.position_seek n).symm
  | negSucc n =>
    refine ⟨passed.take (passed.length - (n + 1)),
      passed.drop (passed.length - (n + 1)) ++ ahead, ?_⟩
    simp only [Linked.seek, shows.current, shows.links.walkBack (n + 1)]
    refine shows.move rfl ?_ ?_
    · rw [← List.append_assoc, List.take_append_drop]
    · rw [List.length_take]
      exact Eq.trans (by omega) (Row.position_seek_neg (n + 1)).symm

theorem current?_eq (shows : linked.Shows row passed ahead) : linked.current? = row.current? := by
  have last := congrArg List.getLast? shows.passed
  rw [List.getLast?_map, List.getLast?_map] at last
  calc linked.current?
      = passed.getLast?.bind linked.cellAt? := by rw [Linked.current?, shows.current]
    _ = (passed.getLast?.map linked.cellAt?).bind id := by
      rw [Option.bind_map, Function.id_comp]
    _ = (row.passed.getLast?.map some).bind id := by rw [last]
    _ = row.passed.getLast? := by
      rw [Option.bind_map, Function.id_comp, Option.bind_fun_some]
    _ = row.current? := row.current?_eq.symm

theorem agrees (shows : linked.Shows row passed ahead) : linked.Agrees row := by
  have links := shows.links
  have slots := links.length_le_slots
  have passedLength := shows.length_passed
  have aheadLength := shows.length_ahead
  have wholeLength := congrArg List.length shows.cells
  rw [List.length_map, List.length_map] at wholeLength
  rw [List.length_append] at slots
  have whole : linked.Links ([] ++ (passed ++ ahead)) := links
  have all : linked.Reads none row.cells := whole.reads shows.cells
  have behind : linked.Reads linked.current row.ahead := by
    rw [shows.current]
    exact links.reads shows.ahead
  have cells : linked.cells = row.cells := by
    refine all.cellsFrom ?_
    rwa [← wholeLength, List.length_append]
  exact
    { cells
      length := by rw [links.length, wholeLength]
      offset := by
        rw [offset, shows.current, links.depth (by omega), passedLength]
      text := by rw [Linked.text, cells]
      current? := shows.current?_eq
      cellAhead? := fun k => by
        cases k with
        | zero => exact shows.current?_eq
        | succ k => rw [Row.cellAhead?_succ, ← behind.cellAhead k, Linked.cellAhead?]
      peek := fun k => behind.textFrom k
      textUntil? := fun delimiter => by
        rw [Row.textUntil?_eq, Linked.textUntil?, behind.textUntilFrom? delimiter (by omega)] }

end Shows

theorem apply_advance (linked : Linked) :
    linked.apply .advance = (.cell (linked.cellAhead? 1), linked.seek 1) := by
  have seek : linked.seek 1 = { linked with current := (linked.walk 1 linked.current).1 } := rfl
  rw [apply, advance?, cellAhead?, seek]
  cases next : linked.nextOf linked.current with
  | none => simp [walk, next]
  | some index => simp [walk, next, Linked.current?, cellAt?]

theorem apply_retreat (linked : Linked) :
    linked.apply .retreat = (.cell (linked.seek (-1)).current?, linked.seek (-1)) := by
  have same : linked.retreat = linked.seek (-1) := by
    change { linked with current := linked.previousOf linked.current }
      = { linked with current := linked.walkBack 1 linked.current }
    cases linked.current <;> rfl
  rw [apply, same]

/-- One operation tells the same about linked slots and a row that they show, and the slots then
show the row that it leaves. -/
theorem Shows.apply (shows : linked.Shows row passed ahead) (op : Op) :
    (linked.apply op).1 = (row.apply op).1 ∧
      ∃ passed ahead, (linked.apply op).2.Shows (row.apply op).2 passed ahead := by
  cases op with
  | push cell => exact ⟨rfl, _, _, shows.push cell⟩
  | advance =>
    rw [apply_advance]
    exact ⟨congrArg Answer.cell (shows.agrees.cellAhead? 1), shows.seek 1⟩
  | retreat =>
    rw [apply_retreat]
    obtain ⟨_, _, moved⟩ := shows.seek (-1)
    exact ⟨congrArg Answer.cell moved.current?_eq, _, _, moved⟩
  | rewind => exact ⟨rfl, _, _, shows.rewind⟩
  | seek n => exact ⟨rfl, shows.seek n⟩
  | removeAhead n =>
    exact ⟨congrArg Answer.count (shows.count_removeAhead n), _, _, shows.removeAhead n⟩
  | insertBefore cell => exact ⟨rfl, shows.insertBefore cell⟩
  | insertAfter cell => exact ⟨rfl, _, _, shows.insertAfter cell⟩

theorem Shows.runAll (shows : linked.Shows row passed ahead) (ops : List Op) :
    (runAll Linked.apply ops linked).1 = (runAll Row.apply ops row).1 ∧
      ∃ passed ahead,
        (runAll Linked.apply ops linked).2.Shows (runAll Row.apply ops row).2 passed ahead := by
  induction ops generalizing linked row passed ahead with
  | nil => exact ⟨rfl, passed, ahead, shows⟩
  | cons op ops ih =>
    obtain ⟨answer, _, _, next⟩ := shows.apply op
    obtain ⟨answers, final⟩ := ih next
    exact ⟨congrArg₂ List.cons answer answers, final⟩

theorem shows_ofCells (cells : List Cell) :
    ∃ passed ahead, (ofCells cells).Shows (.ofCells cells) passed ahead := by
  induction cells using List.reverseRecOn with
  | nil => exact ⟨[], [], Shows.empty⟩
  | append_singleton cells cell ih =>
    obtain ⟨_, _, shows⟩ := ih
    rw [ofCells, List.foldl_concat]
    exact ⟨_, _, shows.push cell⟩

/-- Any operations, from any cells on, tell the same about linked slots as about a list of cells
with a position. The links that are left show the list that is left: forward and backward they run
through the slots of its cells only, and the position is on one of these or on the anchor. -/
theorem runAll_ofCells (cells : List Cell) (ops : List Op) :
    let (answers, linked) := Run.runAll Linked.apply ops (ofCells cells)
    let (expected, row) := Run.runAll Row.apply ops (.ofCells cells)
    answers = expected ∧ (∃ passed ahead, linked.Shows row passed ahead) ∧ linked.Agrees row := by
  obtain ⟨_, _, start⟩ := shows_ofCells cells
  obtain ⟨answers, passed, ahead, shows⟩ := start.runAll ops
  exact ⟨answers, ⟨passed, ahead, shows⟩, shows.agrees⟩

end Linked

end MailMerge.Run
