/-
The folder of the job file.

The folder holds the job file and, while a new version is being written, a
scratch file.  A new version is written to the scratch file first and then takes
the place of the job file, so the job file is never half written; when it cannot
take its place, the scratch file is removed and the folder is as before.

Main definitions:
* `Entry`, `Folder` — what stands under the name of a file, and the folder;
* `Folder.replace` — the new version in place of the old one;
* `Folder.names` — the names in the folder.
-/

namespace BuildDesk

/-- What stands under a name: nothing, a file that is UTF-8, one that is not, or
a directory. -/
inductive Entry
  | absent
  | text (content : String)
  | binary
  | directory
  deriving DecidableEq

/-- A text stands in a file; where there is no text, there is no file. -/
def Entry.ofText? : Option String → Entry
  | some content => .text content
  | none => .absent

instance : Coe (Option String) Entry := ⟨Entry.ofText?⟩

/-- The folder of the job file. -/
structure Folder where
  /-- The folder exists or can be made. -/
  reachable : Bool := true
  jobs : Entry := .absent
  scratch : Option String := none

namespace Folder

/-- The name of the job file. -/
def jobsName : String := "jobs.json"

/-- The name of the scratch file. -/
def scratchName : String := ".jobs_scratch.tmp"

/-- The names in the folder, in order. -/
def names (f : Folder) : List String :=
  (match f.scratch with
    | some _ => [scratchName]
    | none => [])
  ++ (match f.jobs with
    | .absent => []
    | _ => [jobsName])

/-- Writes the scratch file. -/
def writeScratch (f : Folder) (content : String) : Folder := { f with scratch := some content }

/-- Removes the scratch file. -/
def dropScratch (f : Folder) : Folder := { f with scratch := none }

/-- Moves the scratch file over the job file, which a directory prevents. -/
def promote (f : Folder) : Option Folder :=
  match f.scratch, f.jobs with
  | some _, .directory => none
  | some content, _ => some { f with jobs := .text content, scratch := none }
  | none, _ => none

/-- A new version of the job file; the second part says whether it took its place. -/
def replace (f : Folder) (content : String) : Folder × Bool :=
  let written := f.writeScratch content
  match written.promote with
  | some moved => (moved, true)
  | none => (written.dropScratch, false)

end Folder
end BuildDesk
