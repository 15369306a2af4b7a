/-!
# Dotted paths

A path is written as its segments joined by dots. Every text is a path: the empty text has one empty
segment, and dots side by side, in front or at the end leave empty segments between them.
-/

namespace PathQuery.Path

def segments (path : String) : List String :=
  (path.toList.splitOn '.').map String.ofList

def join (segments : List String) : String := ".".intercalate segments

theorem segments_ne_nil (path : String) : segments path ≠ [] := by
  simp [segments]

/-- A path is made of its segments. -/
theorem join_segments (path : String) : join (segments path) = path := by
  rw [join, segments, ← String.toList_inj, String.toList_intercalate]
  simp

end PathQuery.Path
