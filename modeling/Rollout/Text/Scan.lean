/-!
# Scanning a text

Readers take a run of characters off the front of a text. What is left is never longer.
-/

namespace Rollout.Text

/-- What is left after a scan is no longer than the text. -/
theorem length_dropWhile_le (p : Char → Bool) (cs : List Char) :
    (cs.dropWhile p).length ≤ cs.length :=
  (List.dropWhile_sublist p).length_le

/-- Taking a run that is not empty leaves less. -/
theorem length_dropWhile_lt {p : Char → Bool} {cs : List Char} (h : cs.takeWhile p ≠ []) :
    (cs.dropWhile p).length < cs.length := by
  have hlength := congrArg List.length (List.takeWhile_append_dropWhile (p := p) (l := cs))
  rw [List.length_append] at hlength
  have := List.length_pos_iff.mpr h
  omega

end Rollout.Text
