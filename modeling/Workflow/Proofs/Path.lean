import Workflow.Path

set_option autoImplicit false

namespace Workflow

theorem Text.pieces_append_cons (mark : Char) (front back : List Char) :
    pieces mark (front ++ mark :: back) = pieces mark front ++ pieces mark back := by
  induction front with
  | nil => simp [pieces]
  | cons c front ih =>
    by_cases h : c = mark
    · simp [pieces, h, ih]
    · obtain ⟨rest, hfront⟩ := exists_pieces mark front
      simp [pieces, h, ih, hfront]

theorem Path.segments_append (front back : String) :
    segments (front ++ "." ++ back) = segments front ++ segments back := by
  have hmark : (front ++ "." ++ back).toList = front.toList ++ '.' :: back.toList := by
    simp [String.toList_append]
  rw [segments, hmark, Text.pieces_append_cons, List.filter_append, List.map_append]
  rfl

namespace Json

/-- Segment after segment is a walk along the first part and then along the second. -/
theorem lookup?_append (value : Json) (front back : String) :
    value.lookup? (front ++ "." ++ back) =
      match value.lookup? front with
      | some found => found.lookup? back
      | none => none := by
  rw [lookup?, Path.segments_append, List.foldlM_append]
  cases h : value.lookup? front <;> rw [lookup?] at h <;> rw [h] <;> rfl

example : (ofFields [("items", .array [.null, .string "b"])]).lookup? (".items." ++ "." ++ "+1.") =
    some (.string "b") := rfl

end Json

end Workflow
