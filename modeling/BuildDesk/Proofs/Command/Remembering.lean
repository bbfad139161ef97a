/-
Recording a build.

What is recorded of a build is its branch, if it has one, and then its job; each is a change to
the job file, and a file that cannot be written is no reason to fail.

* `recording` — the two changes;
* `remember_of_storage` — they may fail for want of a file that can be written;
* `Writable` — what is recorded can be written to the file;
* `remember_of_stands` — what both changes make of a roster that stands in the job file.
-/
import BuildDesk.Command.Action
import BuildDesk.Proofs.Roster.Recorded

namespace BuildDesk.Command

open Desk
open Roster (withJob withBranch)

variable {settings : Settings} {job : String} {branch : Option String} {r : Roster}
variable {s s' : Session}

/-- The changes to the job file by which a build is recorded. -/
def recording (settings : Settings) (job : String) (branch : Option String) : Desk Unit := do
  if let some branch := given branch then Branches.record settings job branch
  Recent.record settings job

/-- A build is recorded by recording its branch, if there is one, and then its job. -/
theorem remember_yields {s₁ s₂ : Session} (hnone : given branch = none → s₁ = s)
    (hbranch : ∀ b, given branch = some b → (Branches.record settings job b).Yields s () s₁)
    (hrecent : (Recent.record settings job).Yields s₁ () s₂) :
    (remember settings job branch).Yields s () s₂ := by
  refine yields_tryCatch.mpr (.inl ?_)
  rcases hgiven : given branch with _ | b
  · obtain rfl := hnone hgiven
    exact hrecent
  · exact yields_bind.mpr ⟨(), s₁, hbranch b hgiven, hrecent⟩

theorem given_eq_some {b : String} : given branch = some b ↔ branch = some b ∧ b ≠ "" := by
  rw [given, Option.filter_eq_some_iff, bne_iff_ne]

/-- What is recorded of a build in a roster can be written to the job file. -/
structure Writable (job : String) (branch : Option String) (r : Roster) : Prop where
  ofJob : Text.Encodable (Text.trim job)
  ofBranch : ∀ b, branch = some b → (r.find? job).isSome = true → Text.Encodable (Text.trim b)

/-- Recording a branch, if there is one, changes the roster to one that is read back once. -/
theorem branch_of_stands (h : r.Stands s.folder) (hours : r.belongsTo settings = true)
    (hwrite : Writable job branch r) :
    ∃ s₁ n, (given branch = none → s₁ = s) ∧
      (∀ b, given branch = some b → (Branches.record settings job b).Yields s () s₁) ∧
      (Roster.reread^[n] (withBranch job branch r)).Stands s₁.folder := by
  rcases Roster.withBranch_cases job branch r with hidle | ⟨b, found, rfl, hname, hfound⟩
  · -- nothing is written, so nothing is read back either
    refine ⟨s, 0, fun _ => rfl, fun b hb => ?_, ?_⟩
    · have hout := h.outcome_record hours job b
      rwa [if_pos (hidle b (given_eq_some.mp hb).1)] at hout
    · rw [Roster.withBranch_of_idle hidle]
      exact h
  · have hb : b ≠ "" := fun hempty => hname (by rw [hempty]; rfl)
    have henc := hwrite.ofBranch b rfl (hfound ▸ rfl)
    refine ⟨(Roster.changeBranches job (Branches.push (Text.trim b)) r).kept s, 1,
      fun hnone => ?_, fun b' hb' => ?_, ?_⟩
    · cases hnone.symm.trans (given_eq_some.mpr ⟨rfl, hb⟩)
    · obtain rfl := Option.some.inj (given_eq_some.mp hb').1
      have hout := h.outcome_record hours job b
      rwa [if_neg (by simp [hname, hfound]), if_pos henc] at hout
    · rw [Roster.withBranch_of_known hname hfound]
      exact .kept h.reachable (Roster.storable_recorded h.storable henc)

/-- Recording a job that is used changes the roster to one that is read back once. -/
theorem recent_of_stands (h : r.Stands s.folder) (hours : r.belongsTo settings = true)
    (hjob : Text.Encodable (Text.trim job)) :
    ∃ s₁ n, (Recent.record settings job).Yields s () s₁ ∧
      (Roster.reread^[n] (withJob job r)).Stands s₁.folder := by
  have hout := h.outcome_recordRecent hours job
  by_cases hblank : Text.trim job = ""
  · rw [if_pos hblank] at hout
    refine ⟨s, 0, hout, ?_⟩
    rw [withJob, if_pos hblank]
    exact h
  · rw [if_neg hblank, if_pos hjob] at hout
    refine ⟨_, 1, hout, ?_⟩
    rw [withJob, if_neg hblank]
    exact .kept h.reachable (Roster.storable_useJob h.storable hjob)

/-- Recording a build in a roster that stands in the job file makes both changes. -/
theorem remember_of_stands (h : r.Stands s.folder) (hours : r.belongsTo settings = true)
    (hwrite : Writable job branch r) :
    ∃ s' n, (remember settings job branch).Yields s () s' ∧
      (Roster.reread^[n] (withJob job (withBranch job branch r))).Stands s'.folder := by
  obtain ⟨s₁, n, hnone, hsome, hstands⟩ := branch_of_stands h hours hwrite
  have hours₁ : (Roster.reread^[n] (withBranch job branch r)).belongsTo settings = true := by
    rw [Roster.belongsTo_iterate_reread,
      Roster.belongsTo_congr (Roster.withBranch_parts job branch r).2]
    exact hours
  -- the second change is made to what was read back of the first, and commutes with the reading
  obtain ⟨s', n', hrecent, hstands'⟩ := recent_of_stands hstands hours₁ hwrite.ofJob
  refine ⟨s', n' + n, remember_yields hnone hsome hrecent, ?_⟩
  rwa [Function.iterate_add_apply, ← Roster.withJob_iterate_reread]

end BuildDesk.Command
