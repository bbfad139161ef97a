/-
The job file is written as a whole or not at all.

Five calls write the job file: one that saves a roster, those that record and forget a branch, the
one that records the use of a job, and the one that lists the jobs anew.  Each of them first comes
to a draft, the roster that is to be written, without touching the folder, and then writes the
draft if there is one (`run_eq`).  Writing goes by way of a scratch file that takes the place
of the job file.  It either does, or the scratch file is removed again, so that the folder is as it
was.

* `Folder.IsWritable`, `outcome_save` — where the job file can be replaced, and what saving a
  roster comes to there and elsewhere;
* `Writer`, `Writer.run`, `Writer.draft` — the calls that write the job file, and the rosters that
  they write;
* `all_or_nothing` — what a call does to the folder;
* `never_half_written` — what any number of calls do to it.
-/
import BuildDesk.Proofs.Roster.Relisting

namespace BuildDesk

/-! ### One replacement -/

namespace Folder

variable {f : Folder}

/-- The job file can be replaced: the folder can be made, and no directory stands in its place. -/
def IsWritable (f : Folder) : Prop := f.reachable = true ∧ f.jobs ≠ .directory

theorem dropScratch_eq_self (h : f.scratch = none) : f.dropScratch = f := by
  rw [dropScratch, ← h]

/-- The job file is all there is when there is one and no scratch file. -/
theorem names_of_text {content : String} (h : f.jobs = .text content) (hclean : f.scratch = none) :
    f.names = [jobsName] := by
  rw [names, h, hclean]
  rfl

end Folder

namespace Roster

variable {r : Roster} {s s₁ s' : Session} {settings : Settings}

/-- A roster is saved where the job file can be replaced.  Elsewhere, and when a text cannot be
encoded, the session stays as it is. -/
theorem outcome_save (r : Roster) (hclean : s.folder.scratch = none) :
    (s.folder.IsWritable → Text.Encodable r.document → (save r).outcome s = (.ok (), r.kept s)) ∧
    (¬ s.folder.IsWritable → Text.Encodable r.document →
      (save r).outcome s = (.error .storage, s)) ∧
    (¬ Text.Encodable r.document → ∃ f, (save r).outcome s = (.error f, s)) := by
  refine ⟨fun hwritable henc => ?_, fun hnot henc => ?_, fun henc => ?_⟩
  · exact (save_yields henc).mpr ⟨hwritable.1, hwritable.2, rfl⟩
  · unfold save
    rw [Desk.outcome_get_bind]
    by_cases hreach : s.folder.reachable = true
    · have hdir : s.folder.jobs = .directory := by
        by_contra hfile
        exact hnot ⟨hreach, hfile⟩
      have hsame : s.folder.replace r.document = (s.folder, false) := by
        rw [replace_of_directory hdir, Folder.dropScratch_eq_self hclean]
      rw [Text.Encodable] at henc
      simp only [hreach, henc, hsame]
      rfl
    · rw [Bool.not_eq_true] at hreach
      simp only [hreach]
      rfl
  · rw [Text.Encodable, Bool.not_eq_true] at henc
    unfold save
    simp only [Desk.outcome_get_bind, henc]
    by_cases hreach : s.folder.reachable = true
    · simp only [hreach]
      exact ⟨_, rfl⟩
    · rw [Bool.not_eq_true] at hreach
      simp only [hreach]
      exact ⟨_, rfl⟩

/-! ### The calls that write -/

/-- A call that writes the job file. -/
inductive Writer
  | save (r : Roster)
  | record (settings : Settings) (url branch : String)
  | forget (settings : Settings) (url branch : String)
  | use (settings : Settings) (url : String)
  | refresh (server : Server)

/-- A roster that is changed when it is the one of the settings. -/
def revised (settings : Settings) (change : Roster → Option Roster) : Desk (Option Roster) := do
  return (← loadFor settings).bind change

/-- Writes a draft, if there is one. -/
def write : Option Roster → Desk Unit
  | some r => Roster.save r
  | none => pure ()

namespace Writer

/-- The call, whatever it returns. -/
def run : Writer → Desk Unit
  | save r => Roster.save r
  | record settings url branch => Branches.record settings url branch
  | forget settings url branch => do
    let _ ← Branches.forget settings url branch
  | use settings url => Recent.record settings url
  | refresh server => do
    let _ ← Roster.refresh server

/-- The roster that a call is going to write; nothing when it writes none. -/
def draft : Writer → Desk (Option Roster)
  | save r => pure (some r)
  | record settings url branch =>
    let name := Text.trim branch
    if name == "" then pure none else revised settings (Branches.recorded url name)
  | forget settings url branch =>
    let name := Text.trim branch
    if name == "" || Branches.isDefault name then pure none
    else revised settings (Branches.forgotten url name)
  | use settings url =>
    let address := Text.trim url
    if address == "" then pure none else revised settings fun r => some (useJob address r)
  | refresh server => do
    let jobs ← server.listJobs
    let older ← loadFor server.settings
    let blank ← Desk.ofExcept (fresh server.settings (← get).now jobs)
    return some (inherit older blank)

end Writer

/-- Changing the roster in the job file is to draft the change and to write it. -/
theorem revise_eq (settings : Settings) (change : Roster → Option Roster) :
    (do let _ ← revise settings change) = revised settings change >>= write := by
  rw [revise, revised, bind_assoc, bind_assoc]
  refine bind_congr fun found => ?_
  cases found with
  | none => simp [write]
  | some r =>
    cases hchange : change r with
    | none => simp [hchange, write]
    | some changed => simp [hchange, write]

/-- **A call drafts and then writes.** -/
theorem run_eq (op : Writer) : op.run = op.draft >>= write := by
  cases op with
  | save r => simp [Writer.run, Writer.draft, write]
  | record settings url branch =>
    by_cases hblank : Text.trim branch = ""
    · simp [Writer.run, Writer.draft, Branches.record, hblank, write]
    · rw [Writer.run, Writer.draft, Branches.record, if_pos (bne_iff_ne.mpr hblank),
        if_neg (mt beq_iff_eq.mp hblank)]
      exact revise_eq _ _
  | forget settings url branch =>
    rw [Writer.run, Writer.draft, Branches.forget]
    split
    · simp [write]
    · exact revise_eq _ _
  | use settings url =>
    by_cases hblank : Text.trim url = ""
    · simp [Writer.run, Writer.draft, Recent.record, hblank, write]
    · rw [Writer.run, Writer.draft, Recent.record, if_pos (bne_iff_ne.mpr hblank),
        if_neg (mt beq_iff_eq.mp hblank)]
      exact revise_eq _ _
  | refresh server =>
    rw [Writer.run, Writer.draft, refresh]
    simp [write]

/-! ### What a call does to the folder -/

theorem keepsFolder_loadFor (settings : Settings) : (loadFor settings).KeepsFolder := by
  refine Desk.keepsFolder_bind (fun _ => rfl) fun found => ?_
  cases found with
  | none => exact Desk.keepsFolder_pure _
  | some r => exact Desk.keepsFolder_pure _

theorem keepsFolder_revised (settings : Settings) (change : Roster → Option Roster) :
    (revised settings change).KeepsFolder :=
  Desk.keepsFolder_bind (keepsFolder_loadFor settings) fun _ => Desk.keepsFolder_pure _

/-- A draft does not touch the folder. -/
theorem keepsFolder_draft (op : Writer) : op.draft.KeepsFolder := by
  cases op with
  | save r => exact Desk.keepsFolder_pure _
  | record settings url branch | forget settings url branch | use settings url =>
    rw [Writer.draft]
    split
    · exact Desk.keepsFolder_pure _
    · exact keepsFolder_revised _ _
  | refresh server =>
    refine Desk.keepsFolder_bind server.keepsFolder_listJobs fun jobs => ?_
    refine Desk.keepsFolder_bind (keepsFolder_loadFor _) fun older => ?_
    refine Desk.keepsFolder_get fun s => ?_
    exact Desk.keepsFolder_bind (Desk.keepsFolder_ofExcept _) (fun _ => Desk.keepsFolder_pure _) s

variable {op : Writer}

/-- With a draft a call goes on as saving it does. -/
theorem outcome_run_of_draft (h : op.draft.Yields s (some r) s₁) :
    op.run.outcome s = (save r).outcome s₁ := by
  rw [run_eq, Desk.outcome_bind, h]
  rfl

/-- A call leaves the folder as it is, unless it puts the document of its draft in the place of the
job file. -/
theorem folder_of_run (op : Writer) (hclean : s.folder.scratch = none) :
    (op.run.outcome s).2.folder = s.folder ∨ ∃ r s₁, op.draft.Yields s (some r) s₁ ∧
      Text.Encodable r.document ∧
      (op.run.outcome s).2.folder = { s.folder with jobs := .text r.document } := by
  have hkeeps := keepsFolder_draft op s
  rcases hdraft : op.draft.outcome s with ⟨f | _ | r, s₁⟩
  · rw [hdraft] at hkeeps
    rw [run_eq, Desk.outcome_bind, hdraft]
    exact .inl hkeeps
  · rw [hdraft] at hkeeps
    rw [run_eq, Desk.outcome_bind, hdraft]
    exact .inl hkeeps
  · rw [hdraft] at hkeeps
    obtain ⟨hsaves, hrefuses, hfails⟩ := outcome_save (s := s₁) r (hkeeps ▸ hclean)
    rw [outcome_run_of_draft hdraft]
    by_cases henc : Text.Encodable r.document
    · by_cases hwritable : s₁.folder.IsWritable
      · refine .inr ⟨r, s₁, hdraft, henc, ?_⟩
        rw [hsaves hwritable henc, kept]
        dsimp only at hkeeps ⊢
        rw [hkeeps, hclean]
      · rw [hrefuses hwritable henc]
        exact .inl hkeeps
    · obtain ⟨f, hf⟩ := hfails henc
      rw [hf]
      exact .inl hkeeps

/-- **All or nothing.**  A call that gets as far as writing puts the whole document of its roster
in the place of the job file, or ends with a refused file operation and leaves the folder as it was:
the one where the folder can be made and no directory stands in the place of the job file, and the
other where not.  A roster with a text that cannot be encoded is not written, and a call that has
nothing to write leaves the folder alone.  Whatever happens, no scratch file is left. -/
theorem all_or_nothing (op : Writer) (s : Session) (hclean : s.folder.scratch = none) :
    (∀ r s₁, op.draft.Yields s (some r) s₁ → Text.Encodable r.document →
      (s.folder.IsWritable → ∃ s', op.run.Yields s () s' ∧ s'.folder.jobs = .text r.document ∧
        s'.folder.names = [Folder.jobsName]) ∧
      (¬ s.folder.IsWritable → ∃ s', op.run.Fails s .storage s' ∧ s'.folder = s.folder)) ∧
    (∀ r s₁, op.draft.Yields s (some r) s₁ → ¬ Text.Encodable r.document →
      ∃ f s', op.run.Fails s f s' ∧ s'.folder = s.folder) ∧
    ((∀ r s₁, ¬ op.draft.Yields s (some r) s₁) → (op.run.outcome s).2.folder = s.folder) ∧
    (op.run.outcome s).2.folder.scratch = none := by
  -- a draft keeps the folder, so that the one that is written to is the one at the start
  refine ⟨fun r s₁ hdraft henc => ?_, fun r s₁ hdraft henc => ?_, fun hnone => ?_, ?_⟩
  · have hkeeps := (keepsFolder_draft op).of_yields hdraft
    obtain ⟨hsaves, hrefuses, -⟩ := outcome_save (s := s₁) r (hkeeps ▸ hclean)
    rw [← hkeeps]
    refine ⟨fun hwritable => ⟨r.kept s₁, ?_, rfl, Folder.names_of_text rfl rfl⟩,
      fun hnot => ⟨s₁, ?_, rfl⟩⟩
    · exact (outcome_run_of_draft hdraft).trans (hsaves hwritable henc)
    · exact (outcome_run_of_draft hdraft).trans (hrefuses hnot henc)
  · have hkeeps := (keepsFolder_draft op).of_yields hdraft
    obtain ⟨-, -, hfails⟩ := outcome_save (s := s₁) r (hkeeps ▸ hclean)
    obtain ⟨f, hf⟩ := hfails henc
    exact ⟨f, s₁, (outcome_run_of_draft hdraft).trans hf, hkeeps⟩
  · rcases folder_of_run op hclean with hsame | ⟨r, s₁, hdraft, -⟩
    · exact hsame
    · exact absurd hdraft (hnone r s₁)
  · rcases folder_of_run op hclean with hsame | ⟨r, s₁, -, -, hnew⟩
    · rw [hsame, hclean]
    · rw [hnew]
      exact hclean

/-- A branch is recorded in the file of one job, and a roster is not saved over a directory. -/
theorem recorded_and_refused :
    (∃ s', (Writer.record someSettings "u" "dev").run.Yields (oneJob.kept {}) () s' ∧
      s'.folder.jobs = .text (oneJobWith ["dev"]).document ∧
      s'.folder.names = [Folder.jobsName]) ∧
    ∃ s', (Writer.save oneJob).run.Fails { folder := { jobs := .directory } } .storage s' ∧
      s'.folder = { jobs := .directory } := by
  have hdev : (oneJobWith ["dev"]).Storable :=
    storable_oneJobWith (List.forall_mem_cons.mpr ⟨by decide, List.forall_mem_nil _⟩)
  have hdraft : (Writer.record someSettings "u" "dev").draft.Yields (oneJob.kept {})
      (some (oneJobWith ["dev"])) (oneJob.kept {}) := by
    rw [Writer.draft, if_neg (by decide), revised, Desk.Yields, Desk.outcome_bind,
      stands_oneJob.isRead.outcome_loadFor rfl]
    rfl
  obtain ⟨hrecord, -⟩ := all_or_nothing (.record someSettings "u" "dev") (oneJob.kept {}) rfl
  obtain ⟨hsave, -⟩ := all_or_nothing (.save oneJob) { folder := { jobs := .directory } } rfl
  exact ⟨(hrecord _ _ hdraft hdev.isEncodable).1 ⟨rfl, Entry.noConfusion⟩,
    (hsave oneJob _ rfl storable_oneJob.isEncodable).2 fun hwritable => hwritable.2 rfl⟩

/-! ### Any number of calls -/

/-- Calls one after another, whatever becomes of them. -/
def runAll : List Writer → Session → Session
  | [], s => s
  | op :: rest, s => runAll rest (op.run.outcome s).2

/-- **Never half written.**  After any number of calls no scratch file is left, and the job file
is as it was at the start or holds the whole document of a roster. -/
theorem never_half_written (ops : List Writer) (hclean : s.folder.scratch = none) :
    (runAll ops s).folder.scratch = none ∧ ((runAll ops s).folder.jobs = s.folder.jobs ∨
      ∃ r : Roster, (runAll ops s).folder.jobs = .text r.document ∧ Text.Encodable r.document) := by
  induction ops generalizing s with
  | nil => exact ⟨hclean, .inl rfl⟩
  | cons op rest ih =>
    rw [runAll]
    rcases folder_of_run op hclean with hsame | ⟨r, s₁, -, henc, hnew⟩
    · obtain ⟨hscratch, hjobs⟩ := ih (s := (op.run.outcome s).2) (hsame ▸ hclean)
      exact ⟨hscratch, hjobs.imp_left fun h => h.trans (by rw [hsame])⟩
    · obtain ⟨hscratch, hjobs⟩ := ih (s := (op.run.outcome s).2) (hnew ▸ hclean)
      refine ⟨hscratch, .inr ?_⟩
      rcases hjobs with hjobs | hjobs
      · exact ⟨r, hjobs.trans (by rw [hnew]), henc⟩
      · exact hjobs

end Roster
end BuildDesk
