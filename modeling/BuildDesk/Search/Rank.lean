/-
Ranking jobs for a search.

A job is scored by its name and by its full name, both in search form, and the
better score counts: 100 for the very text, 80 for a beginning, 60 for an
occurrence less a penalty for further words, up to 40 for shared words, and 22
for a text that is merely alike.  Every word of the search has to begin a word of
the name, or else only likeness counts.

Main definitions:
* `frequency`, `weight` — how common a word is among the names, and what that makes
  it weigh;
* `score` — the score of one text;
* `Ranked`, `rank` — the jobs with a positive score, the best first.
-/
import BuildDesk.Fault
import BuildDesk.Job
import BuildDesk.Number.Decompose
import BuildDesk.Search.Similarity
import BuildDesk.Settings
import BuildDesk.Text.Order

namespace BuildDesk.Search

/-- Every word of a search begins some word of a name; a search without words
has none. -/
def coversAll (words : List String) (names : List String) : Bool :=
  !words.isEmpty && words.all fun w => names.any fun n => Text.beginsWith w n

/-- The words of every name of a list of jobs. -/
abbrev Population := List (List String)

/-- The words of the names of jobs. -/
def population (jobs : List Job) : Population :=
  jobs.map fun job => Text.tokens (Text.searchForm job.name)

/-- The share of names with a word in them, none for a word in no name. -/
def frequency (names : Population) (word : String) : Option Float :=
  let count := (names.filter fun ws => ws.contains word).length
  if count == 0 then none else some (Float.ofNat count / Float.ofNat (max names.length 1))

/-- The weight of a word: rare words weigh more. -/
def weight (names : Population) (word : String) : Float := 1.1 - (frequency names word).getD 0.5

/-- The score for shared words: the weight of the words of the search that the
text has, as a part of the weight of all, times forty. -/
def overlapScore (names : Population) (query text : List String) : Nat :=
  let (shared, all) := query.foldl (fun (shared, all) w =>
    let x := weight names w
    (if text.contains w then shared + x else shared, all + x)) ((0.0 : Float), (0.0 : Float))
  if shared == 0.0 then 0 else (Number.nearest (shared / all * 40.0)).toNat

/-- The score for an occurrence, less a penalty for every further word of the name. -/
def occurrenceScore (betterExists : Bool) (wordCount partCount : Nat) : Nat :=
  if partCount ≤ wordCount then 60
  else
    let further := partCount - wordCount
    if betterExists then 60 - further * (if wordCount == 1 then 10 else 20)
    else max 25 (60 - further * (if wordCount == 1 then 4 else 8))

/-- The score of a text without regard to likeness. -/
def exactScore (names : Population) (betterExists : Bool) (query text : String) : Nat :=
  let words := Text.tokens query
  let parts := Text.pieces text
  if query == "" || text == "" then 0
  else if !words.isEmpty && !coversAll words parts then 0
  else if text == query then 100
  else if Text.beginsWith query text then 80
  else if Text.occursIn query text then
    occurrenceScore betterExists (Text.pieces query).length parts.length
  else if words.isEmpty then 0
  else overlapScore names words parts

/-- Shorter searches are not corrected. -/
def leastCorrected : Nat := 4

/-- The score of a text that is merely alike. -/
def likenessScore (query text : String) : Nat :=
  if query.length < leastCorrected then 0 else if alike query text then 22 else 0

/-- The score of a text. -/
def score (names : Population) (betterExists : Bool) (query text : String) : Nat :=
  let exact := exactScore names betterExists query text
  if exact == 0 then likenessScore query text else exact

/-- The texts by which a job is found, in search form. -/
def textsOf (job : Job) : Except Fault (List String) :=
  let names := if job.name == "" then [] else [Text.searchForm job.name]
  match job.fullName.present? with
  | none => .ok names
  | some (.str full) => .ok (names ++ [Text.searchForm full])
  | some _ => .error .noAttribute

/-- A job with its score. -/
structure Ranked where
  job : Job
  score : Nat

/-- The better matches come first; of equals the one with the shorter display name,
and then the alphabetically first. -/
def Ranked.le (a b : Ranked) : Bool :=
  let nameA := a.job.displayName.text
  let nameB := b.job.displayName.text
  if a.score != b.score then b.score < a.score
  else if nameA.length != nameB.length then nameA.length < nameB.length
  else Text.noLater nameA nameB

/-- Some text is the search or begins with it. -/
def betterMatch (query : String) (texts : List (List String)) : Bool :=
  texts.any fun ts => ts.any fun t => t == query || Text.beginsWith query t

/-- The best score of the texts of a job. -/
def bestScore (names : Population) (betterExists : Bool) (query : String)
    (texts : List String) : Nat :=
  texts.foldl (fun best t => max best (score names betterExists query t)) 0

/-- The jobs with a positive score, the best first. -/
def rank (query : String) (jobs : List Job) : Except Fault (List Ranked) := do
  let texts ← jobs.mapM textsOf
  let form := Text.searchForm query
  let better := betterMatch form texts
  let names := population jobs
  let scored := (jobs.zip texts).map fun (job, ts) => ⟨job, bestScore names better form ts⟩
  pure ((scored.filter fun m => 0 < m.score).mergeSort Ranked.le)

end BuildDesk.Search
