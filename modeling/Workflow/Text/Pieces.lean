set_option autoImplicit false

namespace Workflow.Text

/-- The pieces between the marks, empty ones included; there is always a first one. -/
def pieces (mark : Char) : List Char → List (List Char)
  | [] => [[]]
  | c :: cs =>
    if c = mark then [] :: pieces mark cs
    else
      match pieces mark cs with
      | [] => [[c]]
      | piece :: rest => (c :: piece) :: rest

theorem exists_pieces (mark : Char) (cs : List Char) :
    ∃ rest, pieces mark cs = cs.takeWhile (· ≠ mark) :: rest := by
  induction cs with
  | nil => exact ⟨[], rfl⟩
  | cons c cs ih =>
    obtain ⟨rest, hrest⟩ := ih
    by_cases h : c = mark
    · exact ⟨pieces mark cs, by simp [pieces, h]⟩
    · exact ⟨rest, by simp [pieces, h, hrest]⟩

theorem pieces_append {mark : Char} {piece : List Char} (h : mark ∉ piece) (cs : List Char) :
    pieces mark (piece ++ mark :: cs) = piece :: pieces mark cs := by
  induction piece with
  | nil => simp [pieces]
  | cons c piece ih =>
    rw [List.mem_cons, not_or] at h
    simp [pieces, Ne.symm h.1, ih h.2]

end Workflow.Text
