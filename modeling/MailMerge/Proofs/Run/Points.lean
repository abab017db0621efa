import MailMerge.Proofs.Run.LinkedRow

set_option autoImplicit false

namespace MailMerge.Run

section

variable {σ : Type}

/-- The states in front of, between and behind operations. -/
def points (apply : Op → σ → Answer × σ) : List Op → σ → List σ
  | [], state => [state]
  | op :: ops, state => state :: points apply ops (apply op state).2

theorem runAll_append (apply : Op → σ → Answer × σ) (front behind : List Op) (state : σ) :
    (runAll apply (front ++ behind) state).2
      = (runAll apply behind (runAll apply front state).2).2 := by
  induction front generalizing state with
  | nil => rfl
  | cons op front ih => exact ih (apply op state).2

theorem runAll_mem_points (apply : Op → σ → Answer × σ) (ops : List Op) (state : σ) :
    (runAll apply ops state).2 ∈ points apply ops state := by
  induction ops generalizing state with
  | nil => exact List.mem_singleton_self state
  | cons op ops ih => exact List.mem_cons_of_mem state (ih (apply op state).2)

/-- The points of two runs, one after the other. -/
theorem mem_points_append {apply : Op → σ → Answer × σ} {front behind : List Op} {state point : σ} :
    point ∈ points apply (front ++ behind) state ↔
      point ∈ points apply front state ∨
        point ∈ points apply behind (runAll apply front state).2 := by
  induction front generalizing state with
  | nil =>
    -- The state between the runs is a point of both.
    have first : state ∈ points apply behind state := by
      cases behind <;> exact List.mem_cons_self
    simp only [List.nil_append, points, runAll, List.mem_singleton]
    exact ⟨Or.inr, fun either => either.elim (fun same => same ▸ first) id⟩
  | cons op front ih =>
    rw [List.cons_append, points, points, List.mem_cons, List.mem_cons, ih, or_assoc]
    rfl

end

/-- At every point the linked slots show the row that the same operations lead to. -/
theorem Linked.Shows.exists_point {linked : Linked} {row : Row} {passed ahead : List Nat}
    (shows : linked.Shows row passed ahead) {ops : List Op} {point : Linked}
    (member : point ∈ points Linked.apply ops linked) :
    ∃ other, other ∈ points Row.apply ops row ∧ ∃ passed ahead, point.Shows other passed ahead := by
  induction ops generalizing linked row passed ahead with
  | nil =>
    obtain rfl := List.mem_singleton.1 member
    exact ⟨row, List.mem_singleton_self row, passed, ahead, shows⟩
  | cons op ops ih =>
    rcases List.mem_cons.1 member with rfl | later
    · exact ⟨row, List.mem_cons_self, passed, ahead, shows⟩
    · obtain ⟨_, _, _, next⟩ := shows.apply op
      obtain ⟨other, inside, shown⟩ := ih next later
      exact ⟨other, List.mem_cons_of_mem _ inside, shown⟩

namespace Row

/-- The row of two lists of cells, with the position between them. -/
def cut (front behind : List Cell) : Row :=
  ⟨front ++ behind, front.length, by rw [List.length_append]; exact Nat.le_add_right _ _⟩

theorem eq_of_cells_position {row other : Row} (cells : row.cells = other.cells)
    (position : row.position = other.position) : row = other := by
  cases row
  cases other
  dsimp only at cells position
  subst cells position
  rfl

theorem seek_cut (front moved behind : List Cell) :
    (cut front (moved ++ behind)).seek moved.length = cut (front ++ moved) behind := by
  apply eq_of_cells_position
  · exact (List.append_assoc front moved behind).symm
  · rw [position_seek]
    simp only [cut, List.length_append]
    omega

theorem seek_neg_cut (front moved behind : List Cell) :
    (cut (front ++ moved) behind).seek (-moved.length) = cut front (moved ++ behind) := by
  apply eq_of_cells_position
  · exact List.append_assoc front moved behind
  · rw [position_seek_neg]
    simp only [cut, List.length_append]
    omega

/-- Behind the last cell the position stays. -/
theorem seek_cut_end (cells : List Cell) (n : Nat) : (cut cells []).seek n = cut cells [] := by
  apply eq_of_cells_position
  · rfl
  · rw [position_seek]
    simp only [cut, List.append_nil]
    omega

theorem passed_cut (front behind : List Cell) : (cut front behind).passed = front :=
  List.take_left

theorem ahead_cut (front behind : List Cell) : (cut front behind).ahead = behind :=
  List.drop_left

theorem insertAfter_cut (front behind : List Cell) (cell : Cell) :
    (cut front behind).insertAfter cell = cut front (cell :: behind) := by
  apply eq_of_cells_position
  · change (cut front behind).passed ++ cell :: (cut front behind).ahead = front ++ cell :: behind
    rw [passed_cut, ahead_cut]
  · rfl

theorem removeAhead_cut (front gone behind : List Cell) :
    (cut front (gone ++ behind)).removeAhead gone.length = cut front behind := by
  apply eq_of_cells_position
  · change (cut front (gone ++ behind)).passed
      ++ (cut front (gone ++ behind)).ahead.drop gone.length = front ++ behind
    rw [passed_cut, ahead_cut, List.drop_left]
  · rfl

end Row

/-- Does an operation change nothing but the position? -/
def Op.isMove : Op → Bool
  | advance | retreat | rewind | seek _ => true
  | push _ | removeAhead _ | insertBefore _ | insertAfter _ => false

namespace Row

theorem cells_apply_of_isMove {op : Op} (move : op.isMove = true) (row : Row) :
    (row.apply op).2.cells = row.cells := by
  cases op <;> first | rfl | cases move

theorem cells_of_mem_points {ops : List Op} (moves : ∀ op, op ∈ ops → op.isMove = true)
    {row point : Row} (member : point ∈ points apply ops row) : point.cells = row.cells := by
  induction ops generalizing row with
  | nil => rw [List.mem_singleton.1 member]
  | cons op ops ih =>
    obtain ⟨first, rest⟩ := List.forall_mem_cons.1 moves
    rcases List.mem_cons.1 member with rfl | later
    · rfl
    · exact (ih rest later).trans (cells_apply_of_isMove first row)

theorem runAll_advance_cut (front moved behind : List Cell) :
    (runAll apply (List.replicate moved.length .advance) (cut front (moved ++ behind))).2
      = cut (front ++ moved) behind := by
  induction moved generalizing front with
  | nil => rw [List.append_nil]; rfl
  | cons cell moved ih =>
    have step :
        (cut front (cell :: moved ++ behind)).seek 1 = cut (front ++ [cell]) (moved ++ behind) :=
      seek_cut front [cell] (moved ++ behind)
    change (runAll apply _ ((cut front (cell :: moved ++ behind)).seek 1)).2 = _
    rw [step, ih, List.append_assoc]
    rfl

end Row

/-- Cells put behind the position, each of them passed at once. -/
def writing (cells : List Cell) : List Op := cells.flatMap fun cell => [.insertAfter cell, .advance]

namespace Row

theorem writeStep_cut (front behind : List Cell) (cell : Cell) :
    ((cut front behind).insertAfter cell).seek 1 = cut (front ++ [cell]) behind := by
  rw [insertAfter_cut]
  exact seek_cut front [cell] behind

theorem runAll_writing_cut (front written behind : List Cell) :
    (runAll apply (writing written) (cut front behind)).2 = cut (front ++ written) behind := by
  induction written generalizing front with
  | nil => rw [List.append_nil]; rfl
  | cons cell written ih =>
    change (runAll apply (writing written) (((cut front behind).insertAfter cell).seek 1)).2 = _
    rw [writeStep_cut, ih, List.append_assoc]
    rfl

/-- While cells are written, the row holds the first ones of them. -/
theorem sublist_of_mem_points_writing {front written behind : List Cell} {point : Row}
    (member : point ∈ points apply (writing written) (cut front behind)) :
    point.cells.Sublist (front ++ written ++ behind) := by
  induction written generalizing front with
  | nil =>
    rw [List.mem_singleton.1 member, List.append_nil]
    exact List.Sublist.refl _
  | cons cell written ih =>
    have parts : front ++ (cell :: written) ++ behind = front ++ [cell] ++ (written ++ behind) := by
      simp only [List.append_assoc, List.cons_append, List.nil_append]
    rcases List.mem_cons.1 member with rfl | later
    · rw [List.append_assoc]
      exact (List.sublist_append_right _ behind).append_left front
    rcases List.mem_cons.1 later with rfl | later
    · change ((cut front behind).insertAfter cell).cells.Sublist _
      rw [insertAfter_cut, parts, List.append_assoc]
      exact ((List.sublist_append_right written behind).cons_cons cell).append_left front
    · have rest : point ∈ points apply (writing written)
          (((cut front behind).insertAfter cell).seek 1) := later
      rw [writeStep_cut] at rest
      have inside := ih rest
      rwa [List.append_assoc, ← parts] at inside

end Row

end MailMerge.Run
