/-
Where the chosen job comes from.

A run takes up the address that was wished for, or that of a job it was given, or that of a job
used lately, and no other, and it shows the job as what is known under that address
(`traced_kept`).  An answer that names another address chooses nothing.
-/
import BuildDesk.Proofs.Prepare.Turn
import BuildDesk.Proofs.Search.Found

namespace BuildDesk.Flow.Prepare

/-- The address was wished for, or a job has it, or a job used lately. -/
def IsKnown (wished : Option String) (c : Context) (url : String) : Prop :=
  wished = some url ∨ (∃ job ∈ c.jobs, job.url = url) ∨ ∃ job ∈ c.recent, job.url = url

/-- Where a chosen job comes from: its address, and what it is shown as. -/
inductive Origin (wished : Option String) (c : Context) : String → Json → Prop
  /-- The address was wished for; a job may have it. -/
  | wished {url : String} (hurl : wished = some url) : Origin wished c url (Job.labelOf c.jobs url)
  /-- It is a job that the run was given. -/
  | listed {job : Job} (hjob : job ∈ c.jobs) : Origin wished c job.url job.displayName
  /-- It was used lately, and no job that the run was given has its address. -/
  | recent {job : RecentJob} (hjob : job ∈ c.recent) (hnone : Job.find? c.jobs job.url = none) :
    Origin wished c job.url job.label

/-- In this state the job is still to be found. -/
def Spot.finds : Spot → Bool
  | entry | recentMenu | search _ | results _ => true
  | _ => false

/-- A job is chosen where a turn leads. -/
def Goal.hasJob : Goal → Bool
  | next p => !p.finds
  | out outcome => outcome == .complete

/-- The jobs found are jobs of the run, and a chosen job has an origin. -/
structure Traced (wished : Option String) (c : Context) (goal : Goal) : Prop where
  candidates : ∀ job ∈ c.candidates, job ∈ c.jobs
  origin : goal.hasJob = true → ∃ url label, c.url = some url ∧ c.label = some label ∧
    Origin wished c url label

variable {wished : Option String} {c c' : Context} {p : Spot} {goal : Goal}
variable {address : String} {shown : Json}

theorem Origin.of_sameGround (h : Origin wished c address shown) (hground : SameGround c c') :
    Origin wished c' address shown := by
  obtain ⟨-, hjobs, hrecent, -⟩ := hground
  cases h with
  | wished hurl => exact hjobs ▸ .wished hurl
  | listed hjob => exact .listed (hjobs.symm ▸ hjob)
  | recent hjob hnone => exact .recent (hrecent.symm ▸ hjob) (hjobs.symm ▸ hnone)

theorem Origin.isKnown (h : Origin wished c address shown) : IsKnown wished c address := by
  cases h with
  | wished hurl => exact .inl hurl
  | listed hjob => exact .inr (.inl ⟨_, hjob, rfl⟩)
  | recent hjob => exact .inr (.inr ⟨_, hjob, rfl⟩)

/-- The address of a chosen job is known. -/
theorem Traced.url (h : Traced wished c goal) (hjob : goal.hasJob = true) :
    ∃ url, c.url = some url ∧ IsKnown wished c url := by
  obtain ⟨url, label, hurl, -, horigin⟩ := h.origin hjob
  exact ⟨url, hurl, horigin.isKnown⟩

theorem hasJob_of_back (hback : p.back? = some goal) (h : goal.hasJob = true) :
    (Goal.next p).hasJob = true := by
  rcases p with _ | _ | ⟨_ | _⟩ | _ | _ | _ | _ | _ | _ | _ | _ | _ | _ | _ | _ <;>
    cases hback <;> first | rfl | exact h

/-- The chosen job is the one that it is chosen as. -/
theorem traced_select (h : Origin wished c address shown) (query : String) :
    Traced wished { c.select address shown with query := query, candidates := [] } goal where
  candidates := by
    intro job hjob
    exact absurd hjob List.not_mem_nil
  origin := by
    intro _
    obtain ⟨hsettings, hjobs, hrecent, hparam⟩ := sameGround_select (c := c) address shown
    exact ⟨address, shown, rfl, rfl, h.of_sameGround ⟨hsettings, hjobs, hrecent, hparam⟩⟩

/-- A job used lately is shown as the job with its address, if the run was given one. -/
theorem origin_of_recent {job : RecentJob} (hjob : job ∈ c.recent) :
    Origin wished c job.url (recentLabel c job) := by
  unfold recentLabel
  rcases hlisted : Job.find? c.jobs job.url with _ | listed
  · exact .recent hjob hlisted
  · unfold Job.find? at hlisted
    have haddress : listed.url = job.url := by simpa using List.find?_some hlisted
    exact haddress ▸ .listed (List.mem_of_find?_eq_some hlisted)

/-- **Every turn keeps where the job comes from.** -/
theorem traced_kept : Kept (Traced wished) := by
  intro p answer c event goal c' h hp
  cases h with
  | esc hback => exact ⟨hp.candidates, fun hjob => hp.origin (hasJob_of_back hback hjob)⟩
  | showRecent | searchFirst | searchAll | searchAgain | resultsAgain | needJob =>
    exact ⟨hp.candidates, nofun⟩
  | pickRecent hjob => exact traced_select (origin_of_recent (List.mem_of_find?_eq_some hjob)) ""
  | @searchOne way v c job hfound =>
    have hmem := Search.mem_of_resolve hfound job List.mem_cons_self
    exact traced_select (c := { c with query := typed v }) (.listed hmem) _
  | searchSeveral hfound => exact ⟨Search.mem_of_resolve hfound, nofun⟩
  | pickResult hjob =>
    exact traced_select (.listed (hp.candidates _ (List.mem_of_find?_eq_some hjob))) _
  | more hwhere | enough hwhere =>
    rcases hwhere with rfl | rfl <;> exact ⟨hp.candidates, fun _ => (hp.origin rfl)⟩
  | _ =>
    -- the rest of the turns leaves the job as it is, and what the run was given
    refine ⟨hp.candidates, fun _ => ?_⟩
    obtain ⟨url, label, hurl, hlabel, horigin⟩ := hp.origin rfl
    exact ⟨url, label, hurl, hlabel, horigin.of_sameGround ⟨rfl, rfl, rfl, rfl⟩⟩

end BuildDesk.Flow.Prepare
