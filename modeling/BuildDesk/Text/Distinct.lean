/-
Lists of names without repetitions.

Names that agree in lower case count as one; the first spelling stays and the
order of first occurrences is kept.

Main definitions:
* `distinct` — one pass that remembers the lower-case names seen;
* `without` — a list of names less every spelling of one.
-/
import BuildDesk.Text.Case

namespace BuildDesk.Text

/-- The names whose lower case is neither in `seen` nor repeated. -/
def distinctFrom (seen : List String) : List String → List String
  | [] => []
  | name :: rest =>
    if lower name ∈ seen then distinctFrom seen rest
    else name :: distinctFrom (lower name :: seen) rest

/-- The first spelling of every name, in order. -/
def distinct (names : List String) : List String := distinctFrom [] names

/-- The names that differ from the given one. -/
def without (name : String) (names : List String) : List String :=
  names.filter fun other => !sameName other name

end BuildDesk.Text
