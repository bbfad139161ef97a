/-
Likeness of two search texts, for typing errors.

The words of two texts are compared as sets.  What they share counts in full, and
what is left over on either side is compared by the number of insertions and
deletions that turn one into the other, as a part of the combined lengths.

Main definitions:
* `commonLength` — the length of a longest common subsequence;
* `edits` — insertions and deletions between two texts;
* `alike` — at least 85 parts of 100 agree.
-/
import BuildDesk.Text.Words

namespace BuildDesk.Search

/-- The next row of the table of common subsequence lengths: `diagonal` and `left`
are the neighbours in the row before and in this row. -/
def nextRow (c : Char) (diagonal left : Nat) : List Char → List Nat → List Nat
  | d :: rest, up :: above =>
    let here := if c == d then diagonal + 1 else max left up
    here :: nextRow c up here rest above
  | _, _ => []

/-- The length of a longest common subsequence. -/
def commonLength (s t : List Char) : Nat :=
  let last := s.foldl (fun row c => nextRow c 0 0 t row) (List.replicate t.length 0)
  last.getLast?.getD 0

/-- The insertions and deletions that turn one text into the other. -/
def edits (s t : List Char) : Nat := s.length + t.length - 2 * commonLength s t

/-- The words of a search text, in order, each once. -/
def wordSet (s : String) : List String := (Text.tokens s).eraseDups.mergeSort (· ≤ ·)

/-- The least share of agreement, in parts of 100. -/
def leastAgreement : Nat := 85

/-- At most `d` of `n` parts differ. -/
def within (d n : Nat) : Bool := 100 * d ≤ (100 - leastAgreement) * n

/-- Two search texts are alike. -/
def alike (s t : String) : Bool :=
  let a := wordSet s
  let b := wordSet t
  let shared := a.filter b.contains
  let onlyA := a.filter fun w => !b.contains w
  let onlyB := b.filter fun w => !a.contains w
  if a.isEmpty || b.isEmpty then false
  else if !shared.isEmpty && (onlyA.isEmpty || onlyB.isEmpty) then true
  else
    let restA := (" ".intercalate onlyA).toList
    let restB := (" ".intercalate onlyB).toList
    let common := (" ".intercalate shared).length
    let gap := if 0 < common then 1 else 0
    within (edits restA restB) ((common + gap + restA.length) + (common + gap + restB.length))
      || (0 < common
        && (within (gap + restA.length) (common + common + gap + restA.length)
          || within (gap + restB.length) (common + common + gap + restB.length)))

end BuildDesk.Search
