/-
Trimming.

A trimmed text neither starts nor ends with a blank, so a second trimming changes
nothing (`trim_trim`).
-/
import BuildDesk.Text.Blank
import Mathlib.Data.List.DropRight

namespace BuildDesk.Text

theorem dropRight_eq_rdropWhile (p : Char → Bool) (s : List Char) :
    dropRight p s = s.rdropWhile p := rfl

/-- What starts with no blank still does so without the blanks at its end. -/
theorem dropWhile_dropRight_dropWhile (p : Char → Bool) (s : List Char) :
    (dropRight p (s.dropWhile p)).dropWhile p = dropRight p (s.dropWhile p) := by
  rw [dropRight_eq_rdropWhile, List.dropWhile_eq_self_iff]
  intro hpos
  have hbegin := List.rdropWhile_prefix p (l := s.dropWhile p)
  have hlong : 0 < (s.dropWhile p).length := lt_of_lt_of_le hpos hbegin.length_le
  rw [hbegin.getElem hpos]
  exact List.dropWhile_get_zero_not p s hlong

theorem trimChars_trimChars (s : List Char) : trimChars (trimChars s) = trimChars s := by
  unfold trimChars
  rw [dropWhile_dropRight_dropWhile]
  exact List.rdropWhile_idempotent _ _

theorem trim_empty : trim "" = "" := rfl

theorem trim_trim (s : String) : trim (trim s) = trim s := by
  unfold trim
  rw [String.toList_ofList, trimChars_trimChars]

end BuildDesk.Text
