/-
Computations with ordinary faults.

Whatever a server replies and whatever stands in a file, what the program makes of it ends
well or in an ordinary fault: it is neither at a loss about a flow nor out of the steps of
a loop.  This is kept by putting computations one after another (`ordinary_bind`), so it holds

* of reaching into replies, and of all that is read there (`Server.ordinary_lastBuild`,
  `Server.ordinary_build`, `Server.ordinary_jobsIn`, …);
* of searches (`Search.ordinary_resolve`, `Search.ordinary_filter`);
* of reports and of the texts of questions (`Report.ordinary_details`,
  `Settings.ordinary_addressed`);
* of reading the job file (`Roster.ordinary_ofFolder`).
-/
import BuildDesk.Proofs.Session.Fair
import BuildDesk.Report.Status
import BuildDesk.Roster.Refresh
import BuildDesk.Search.Resolve

namespace BuildDesk

variable {α β : Type}

theorem ordinary_ok (a : α) : IsOrdinary (.ok a : Except Fault α) := nofun

theorem ordinary_error {f : Fault} (h : f.isOrdinary = true) :
    IsOrdinary (.error f : Except Fault α) := by
  rintro g ⟨⟩
  exact h

theorem ordinary_bind {e : Except Fault α} {next : α → Except Fault β} (h : IsOrdinary e)
    (hnext : ∀ a, IsOrdinary (next a)) : IsOrdinary (e >>= next) := by
  rcases e with f | a
  · exact ordinary_error (h f rfl)
  · exact hnext a

theorem ordinary_map {e : Except Fault α} (f : α → β) (h : IsOrdinary e) :
    IsOrdinary (e.map f) := by
  rcases e with f | a
  · exact ordinary_error (h f rfl)
  · exact ordinary_ok _

/-- What is missing is an ordinary fault. -/
theorem ordinary_elim {f : Fault} (h : f.isOrdinary = true) (found : Option α) :
    IsOrdinary (found.elim (.error f) .ok : Except Fault α) := by
  cases found with
  | none => exact ordinary_error h
  | some a => exact ordinary_ok a

theorem ordinary_mapM (items : List α) {f : α → Except Fault β} (h : ∀ a, IsOrdinary (f a)) :
    IsOrdinary (items.mapM f) := by
  induction items with
  | nil =>
    rw [List.mapM_nil]
    exact ordinary_ok _
  | cons a rest ih =>
    rw [List.mapM_cons]
    exact ordinary_bind (h a) fun _ => ordinary_bind ih fun _ => ordinary_ok _

/-! ### Replies -/

namespace Server

theorem ordinary_member (v : Json) (name : String) : IsOrdinary (member v name) := by
  unfold member
  split
  · exact ordinary_ok _
  · exact ordinary_error rfl

theorem ordinary_demand (v : Json) (name : String) : IsOrdinary (demand v name) := by
  unfold demand
  split
  · exact ordinary_elim rfl _
  · exact ordinary_error rfl

theorem ordinary_items (v : Json) : IsOrdinary (items v) := by
  unfold items
  split
  · exact ordinary_ok _
  · split
    · exact ordinary_ok _
    · exact ordinary_ok _
    · exact ordinary_ok _
    · exact ordinary_error rfl

theorem ordinary_join (url : Json) (path : String) : IsOrdinary (join url path) := by
  unfold join
  split
  · exact ordinary_ok _
  · exact ordinary_error rfl

theorem ordinary_jsonOf (reply : Reply) : IsOrdinary (jsonOf reply) := by
  unfold jsonOf
  split
  · exact ordinary_ok _
  · split
    · exact ordinary_ok _
    · exact ordinary_error rfl
    · exact ordinary_error rfl
    · exact ordinary_error rfl

theorem ordinary_isFailure (status : Json) : IsOrdinary (isFailure status) := by
  unfold isFailure
  split
  · exact ordinary_error rfl
  · exact ordinary_ok _

theorem ordinary_crumbOf (reply : Json) : IsOrdinary (crumbOf reply) := by
  refine ordinary_bind (ordinary_demand _ _) fun field => ?_
  refine ordinary_bind (ordinary_demand _ _) fun crumb => ?_
  split
  · exact ordinary_ok _
  · exact ordinary_error rfl

theorem ordinary_parameterOf (entry : Json) : IsOrdinary (parameterOf entry) := by
  refine ordinary_bind (ordinary_member _ _) fun name => ?_
  split
  · exact ordinary_ok _
  · exact ordinary_bind (ordinary_member _ _) fun _ => ordinary_ok _

theorem ordinary_actionParameters (action : Json) : IsOrdinary (actionParameters action) := by
  unfold actionParameters
  split
  · refine ordinary_bind (ordinary_member _ _) fun v => ?_
    refine ordinary_bind (ordinary_items v) fun entries => ?_
    exact ordinary_bind (ordinary_mapM entries ordinary_parameterOf) fun _ => ordinary_ok _
  · exact ordinary_ok _

theorem ordinary_parametersOf (actions : Json) : IsOrdinary (parametersOf actions) := by
  refine ordinary_bind (ordinary_items actions) fun items => ?_
  exact ordinary_bind (ordinary_mapM items ordinary_actionParameters) fun _ => ordinary_ok _

theorem ordinary_actionValue (actions : Json) (name : String) :
    IsOrdinary (actionValue actions name) :=
  ordinary_bind (ordinary_items actions) fun _ => ordinary_ok _

theorem ordinary_firstNamed (entries : List Json) : IsOrdinary (firstNamed entries) := by
  induction entries with
  | nil => exact ordinary_ok _
  | cons entry rest ih =>
    refine ordinary_bind (ordinary_member _ _) fun name => ?_
    split
    · exact ordinary_ok _
    · exact ih

theorem ordinary_revisionBranch (revision : Json) : IsOrdinary (revisionBranch revision) := by
  unfold revisionBranch
  split
  · refine ordinary_bind (ordinary_member _ _) fun v => ?_
    exact ordinary_bind (ordinary_items v) ordinary_firstNamed
  · exact ordinary_ok _

theorem ordinary_branchOf (actions : Json) (parameters : List Parameter) :
    IsOrdinary (branchOf actions parameters) := by
  refine ordinary_bind (ordinary_actionValue _ _) fun revision => ?_
  refine ordinary_bind (ordinary_revisionBranch revision) fun name => ?_
  split
  · exact ordinary_ok _
  · exact ordinary_ok _

theorem ordinary_lastBuild (reply : Json) : IsOrdinary (LastBuild.ofReply reply) := by
  refine ordinary_bind (ordinary_member _ _) fun last => ?_
  split
  · exact ordinary_ok _
  · refine ordinary_bind (ordinary_member _ _) fun actions => ?_
    refine ordinary_bind (ordinary_parametersOf actions) fun parameters => ?_
    refine ordinary_bind (ordinary_actionValue _ _) fun _ => ?_
    exact ordinary_bind (ordinary_branchOf actions parameters) fun _ => ordinary_ok _

theorem ordinary_build (asked reply : Json) : IsOrdinary (Build.ofReply asked reply) := by
  refine ordinary_bind (ordinary_member _ _) fun _ => ?_
  exact ordinary_bind (ordinary_parametersOf _) fun _ => ordinary_ok _

mutual

theorem ordinary_jobsIn (listing : Json) : IsOrdinary (jobsIn listing) := by
  match listing with
  | .list entries => exact ordinary_jobsOfEntries entries
  | .bool true => exact ordinary_error rfl
  | .bool false => exact ordinary_ok _
  | .int n =>
    rw [jobsIn]
    split
    · exact ordinary_error rfl
    · exact ordinary_ok _
  | .float x =>
    rw [jobsIn]
    split
    · exact ordinary_error rfl
    · exact ordinary_ok _
  | .null => exact ordinary_ok _
  | .str _ => exact ordinary_ok _
  | .object _ => exact ordinary_ok _

theorem ordinary_jobsOfEntries (entries : List Json) : IsOrdinary (jobsOfEntries entries) := by
  match entries with
  | [] => exact ordinary_ok _
  | entry :: rest =>
    rw [jobsOfEntries]
    exact ordinary_bind (ordinary_jobsOfEntry entry) fun _ =>
      ordinary_bind (ordinary_jobsOfEntries rest) fun _ => ordinary_ok _

theorem ordinary_jobsOfEntry (entry : Json) : IsOrdinary (jobsOfEntry entry) := by
  match entry with
  | .object members =>
    rw [jobsOfEntry]
    rcases hfolder : folderJobs members with _ | jobs
    · exact ordinary_ok _
    · exact ordinary_folderJobs members jobs hfolder
  | .list _ => exact ordinary_ok _
  | .bool _ => exact ordinary_ok _
  | .int _ => exact ordinary_ok _
  | .float _ => exact ordinary_ok _
  | .null => exact ordinary_ok _
  | .str _ => exact ordinary_ok _

theorem ordinary_folderJobs (members : List (String × Json)) (jobs : Except Fault (List Job))
    (h : folderJobs members = some jobs) : IsOrdinary jobs := by
  match members with
  | [] => cases h
  | (name, value) :: rest =>
    rw [folderJobs] at h
    split at h
    · split at h
      · cases h
      · exact Option.some.inj h ▸ ordinary_jobsIn value
    · exact ordinary_folderJobs rest jobs h

end

end Server

/-! ### Searches -/

namespace Order

variable {below : α → α → Except Fault Bool}

theorem ordinary_goOn (h : ∀ x y, IsOrdinary (below x y)) (falling : Bool) (x : α)
    (rest : List α) : IsOrdinary (goOn below falling x rest) := by
  induction rest generalizing x with
  | nil => exact ordinary_ok _
  | cons y rest ih =>
    refine ordinary_bind (h y x) fun _ => ?_
    split
    · exact ordinary_bind (ih y) fun _ => ordinary_ok _
    · exact ordinary_ok _

theorem ordinary_place (h : ∀ x y, IsOrdinary (below x y)) (x : α) (sorted : Array α)
    (low high : Nat) : IsOrdinary (place below x sorted low high) := by
  fun_induction place below x sorted low high with
  | case1 low high hlt middle hnone => exact ordinary_ok _
  | case2 low high hlt middle y hy ihlow ihhigh =>
    refine ordinary_bind (h x y) fun isBelow => ?_
    cases isBelow with
    | true => exact ihlow
    | false => exact ihhigh
  | case3 low high hge => exact ordinary_ok _

theorem ordinary_insertAll (h : ∀ x y, IsOrdinary (below x y)) (sorted : Array α)
    (rest : List α) : IsOrdinary (insertAll below sorted rest) := by
  induction rest generalizing sorted with
  | nil => exact ordinary_ok _
  | cons x rest ih => exact ordinary_bind (ordinary_place h x sorted 0 _) fun _ => ih _

theorem ordinary_sort (h : ∀ x y, IsOrdinary (below x y)) (items : List α) :
    IsOrdinary (sort below items) := by
  unfold sort
  split
  · refine ordinary_bind (h _ _) fun falling => ?_
    refine ordinary_bind (ordinary_goOn h falling _ _) fun _ => ?_
    exact ordinary_bind (ordinary_insertAll h _ _) fun _ => ordinary_ok _
  · exact ordinary_ok _

end Order

namespace Search

theorem ordinary_textsOf (job : Job) : IsOrdinary (textsOf job) := by
  unfold textsOf
  dsimp only
  split
  · exact ordinary_ok _
  · exact ordinary_ok _
  · exact ordinary_error rfl

theorem ordinary_rank (query : String) (jobs : List Job) : IsOrdinary (rank query jobs) :=
  ordinary_bind (ordinary_mapM jobs ordinary_textsOf) fun _ => ordinary_ok _

theorem ordinary_resolve (query : String) (jobs : List Job) : IsOrdinary (resolve query jobs) := by
  unfold resolve
  dsimp only
  split
  · exact ordinary_bind (ordinary_error rfl) fun _ => ordinary_bind (ordinary_rank _ _) fun _ => by
      split
      · exact ordinary_error rfl
      · split
        · exact ordinary_error rfl
        · exact ordinary_ok _
  · refine ordinary_bind (ordinary_rank _ _) fun ranked => ?_
    split
    · exact ordinary_error rfl
    · split
      · exact ordinary_error rfl
      · exact ordinary_ok _

theorem ordinary_filter (jobs : List Job) (search : String) : IsOrdinary (filter jobs search) := by
  unfold filter
  split
  · unfold sortByName
    split
    · exact ordinary_ok _
    · exact Order.ordinary_sort (fun x y => ordinary_elim rfl _) jobs
  · exact ordinary_map _ (ordinary_rank search jobs)

theorem ordinary_unique (query : String) (jobs : List Job) : IsOrdinary (unique query jobs) := by
  unfold unique
  split
  · exact ordinary_ok _
  · split
    · exact ordinary_error rfl
    · exact ordinary_error rfl

end Search

/-! ### Reports and questions -/

namespace Report

theorem isOrdinary_ofUndated (undated : Calendar.Undated) :
    (Fault.ofUndated undated).isOrdinary = true := by
  cases undated <;> rfl

theorem ordinary_duration (q : Quantity) : IsOrdinary (duration q) := by
  unfold duration
  split
  · exact ordinary_ok _
  · split
    · exact ordinary_error rfl
    · split
      · split
        · exact ordinary_error rfl
        · exact ordinary_error rfl
      · exact ordinary_ok _

theorem ordinary_localTime (millis : Quantity) : IsOrdinary (localTime millis) := by
  unfold localTime
  dsimp only
  split
  · exact ordinary_error rfl
  · split
    · exact ordinary_error rfl
    · split
      · exact ordinary_ok _
      · exact ordinary_error (isOrdinary_ofUndated _)

theorem ordinary_quantity (v : Json) : IsOrdinary (quantity v) := ordinary_elim rfl _

theorem ordinary_since (start now : Quantity) : IsOrdinary (since start now) := by
  unfold since
  split
  · exact ordinary_ok _
  · split
    · exact ordinary_ok _
    · exact ordinary_error rfl

theorem ordinary_elapsed (last : Server.LastBuild) (now : Quantity) :
    IsOrdinary (elapsed last now) := by
  unfold elapsed
  split
  · refine ordinary_bind (ordinary_quantity _) fun start => ?_
    dsimp only
    split
    · exact ordinary_since _ _
    · exact ordinary_quantity _
  · exact ordinary_quantity _

theorem ordinary_startedPart (last : Server.LastBuild) : IsOrdinary (startedPart last) := by
  unfold startedPart
  split
  · exact ordinary_ok _
  · refine ordinary_bind (ordinary_quantity _) fun millis => ?_
    exact ordinary_bind (ordinary_localTime millis) fun _ => ordinary_ok _

theorem ordinary_queuePart (last : Server.LastBuild) : IsOrdinary (queuePart last) := by
  unfold queuePart
  split
  · exact ordinary_ok _
  · refine ordinary_bind (ordinary_quantity _) fun time => ?_
    exact ordinary_bind (ordinary_duration time) fun _ => ordinary_ok _

theorem ordinary_elapsedPart (last : Server.LastBuild) (now : Quantity) :
    IsOrdinary (elapsedPart last now) := by
  refine ordinary_bind (ordinary_elapsed last now) fun time => ?_
  dsimp only
  split
  · exact ordinary_ok _
  · refine ordinary_bind (ordinary_duration time) fun shown => ?_
    split
    · exact ordinary_ok _
    · refine ordinary_bind (ordinary_quantity _) fun estimate => ?_
      exact ordinary_bind (ordinary_duration estimate) fun _ => ordinary_ok _

theorem ordinary_details (last : Server.LastBuild) (url : Json) (now : Quantity) :
    IsOrdinary (details last url now) := by
  refine ordinary_bind (ordinary_startedPart last) fun _ => ?_
  refine ordinary_bind (ordinary_queuePart last) fun _ => ?_
  exact ordinary_bind (ordinary_elapsedPart last now) fun _ => ordinary_ok _

end Report

namespace Settings

theorem ordinary_profileLabel (profile : Json) : IsOrdinary (profileLabel profile) := by
  unfold profileLabel
  split
  · exact ordinary_ok _
  · exact ordinary_error rfl

theorem ordinary_addressed (settings : Settings) (lang : Lang) (question : String) :
    IsOrdinary (settings.addressed lang question) :=
  ordinary_bind (ordinary_bind (ordinary_profileLabel _) fun _ => ordinary_ok _) fun _ =>
    ordinary_ok _

end Settings

/-! ### The job file -/

namespace Roster

theorem ordinary_ofFolder (f : Folder) : IsOrdinary (ofFolder f) := by
  unfold ofFolder
  split
  · exact ordinary_error rfl
  · split
    · exact ordinary_ok _
    · exact ordinary_ok _
    · exact ordinary_error rfl
    · unfold ofText?
      split
      · exact ordinary_ok _
      · exact ordinary_ok _
      · exact ordinary_error rfl
      · exact ordinary_error rfl

theorem ordinary_fresh (settings : Settings) (now : Int) (jobs : List Job) :
    IsOrdinary (fresh settings now jobs) := by
  unfold fresh
  split
  · exact ordinary_ok _
  · exact ordinary_error (Report.isOrdinary_ofUndated _)

end Roster
end BuildDesk
