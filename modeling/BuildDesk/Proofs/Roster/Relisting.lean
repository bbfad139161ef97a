/-
Listing the jobs anew.

The jobs that the server lists take the place of those in the job file.  Each of them gets the
history that the file has for its address, and the jobs used lately are carried over, when
the roster in the file is about the server and the user of the settings; of another roster
nothing is kept.  What was listed is read before the file is touched, and a listing that fails
leaves the file alone.

* `outcome_refresh`, `outcome_refresh_of_file`, `refresh_fails` — what listing the jobs anew
  comes to;
* `inherits`, `reread_job` — the roster that is written, and what is read back;
* `refresh_keeps` — nothing that is remembered of the jobs listed is lost.
-/
import BuildDesk.Proofs.Roster.Change
import BuildDesk.Proofs.Server.Listed
import BuildDesk.Roster.Refresh

namespace BuildDesk.Roster

variable {r older blank : Roster} {found : Option Roster} {s s₁ : Session} {server : Server}
variable {jobs : List Job} {job : Job}

/-! ### What is remembered -/

theorem remember_eq (hnew : job.branches = []) (older : Roster) :
    older.remember job = { job with branches := (older.history? job.url).getD [] } := by
  rw [remember, history?]
  cases older.find? job.url with
  | none =>
    obtain ⟨name, url, fullName, branches⟩ := job
    obtain rfl : branches = [] := hnew
    rfl
  | some known =>
    dsimp only [Option.map_some, Option.getD_some]
    split
    · rename_i hempty
      obtain ⟨name, url, fullName, branches⟩ := job
      obtain rfl : branches = [] := hnew
      rw [List.isEmpty_iff.mp hempty]
    · rfl

theorem isShaped_remember (h : job.IsShaped) : (older.remember job).IsShaped := by
  unfold remember
  split
  · split
    · exact h
    · exact h
  · exact h

theorem shaped_inherit (h : ∀ job ∈ r.jobs, job.IsShaped) :
    ∀ job ∈ (inherit found r).jobs, job.IsShaped := by
  cases found with
  | none => exact h
  | some older => exact List.forall_mem_map.mpr fun job hjob => isShaped_remember (h job hjob)

/-- A text of a job that is carried over stands in the job listed, or in the older roster. -/
theorem mentions_of_remember {text : String} (h : (older.remember job).Mentions text) :
    job.Mentions text ∨ older.Mentions text := by
  rw [remember] at h
  split at h
  · rename_i known hknown
    split at h
    · exact .inl h
    · rcases h with hname | hurl | hfull | hbranch
      · exact .inl (.inl hname)
      · exact .inl (.inr (.inl hurl))
      · exact .inl (.inr (.inr (.inl hfull)))
      · exact .inr (.inr (.inl
          ⟨known, List.mem_of_find?_eq_some hknown, .inr (.inr (.inr hbranch))⟩))
  · exact .inl h

/-- What is put together of rosters that can be written can be written. -/
theorem storable_inherit (hblank : blank.Storable)
    (hfound : ∀ older, found = some older → older.Storable) : (inherit found blank).Storable := by
  rcases found with _ | older
  · exact hblank
  · have holder := hfound older rfl
    refine ⟨?_, shaped_inherit hblank.shaped⟩
    rintro text (hhead | ⟨job, hjob, htext⟩ | hrecent)
    · exact hblank.encodable text (.inl hhead)
    · obtain ⟨listed, hlisted, rfl⟩ := List.mem_map.mp hjob
      rcases mentions_of_remember htext with htext | htext
      · exact hblank.encodable text (.inr (.inl ⟨listed, hlisted, htext⟩))
      · exact holder.encodable text htext
    · exact holder.encodable text (.inr (.inr hrecent))

/-! ### The roster that is written -/

/-- A listing that fails ends the refresh. -/
theorem refresh_fails {f : Fault} (h : server.listJobs.Fails s f s₁) :
    (refresh server).Fails s f s₁ ∧ s₁.folder = s.folder := by
  refine ⟨Desk.fails_bind.mpr (.inl h), ?_⟩
  have hkeeps := server.keepsFolder_listJobs s
  rwa [h] at hkeeps

/-- After a listing, a refresh writes the roster of the jobs listed, with what the one in the job
file remembers; a clock that shows no date ends it. -/
theorem outcome_refresh (hlist : server.listJobs.Yields s jobs s₁)
    (hread : ofFolder s₁.folder = .ok found) :
    (refresh server).outcome s = match fresh server.settings s₁.now jobs with
      | .error f => (.error f, s₁)
      | .ok blank =>
        let r := inherit (found.filter (·.belongsTo server.settings)) blank
        (save r >>= fun _ => pure r.jobs : Desk (List Job)).outcome s₁ := by
  rw [refresh, Desk.outcome_bind, hlist]
  dsimp only
  rw [Desk.outcome_bind, outcome_loadFor_of hread]
  dsimp only
  rw [Desk.outcome_get_bind]
  rcases fresh server.settings s₁.now jobs with f | blank
  · rfl
  · rfl

/-- The roster is written, unless one of its texts cannot be encoded. -/
theorem outcome_refresh_of_file (hlist : server.listJobs.Yields s jobs s₁)
    (hread : ofFolder s₁.folder = .ok found)
    (hfresh : fresh server.settings s₁.now jobs = .ok blank)
    (hr : inherit (found.filter (·.belongsTo server.settings)) blank = r)
    (hfile : s₁.folder.jobs ≠ .directory) :
    (refresh server).outcome s = if Text.isEncodable r.document then (.ok r.jobs, r.kept s₁)
      else (.error .notEncodable, s₁) := by
  rw [outcome_refresh hlist hread, hfresh]
  dsimp only
  rw [hr, Desk.outcome_bind, outcome_save_of_file _ (reachable_of_ok hread) hfile]
  by_cases henc : Text.isEncodable r.document = true
  · rw [if_pos henc, if_pos henc]
    rfl
  · rw [if_neg henc, if_neg henc]

/-- A directory in the place of the job file stays there. -/
theorem refresh_fails_of_directory (hlist : server.listJobs.Yields s jobs s₁)
    (hread : ofFolder s₁.folder = .ok found)
    (hfresh : fresh server.settings s₁.now jobs = .ok blank)
    (hdir : s₁.folder.jobs = .directory) :
    ∃ f s₂, (refresh server).Fails s f s₂ ∧ s₂.folder.jobs = .directory := by
  obtain ⟨f, s₂, hfails, hsame⟩ := save_fails_of_directory
    (inherit (found.filter (·.belongsTo server.settings)) blank) (reachable_of_ok hread) hdir
  refine ⟨f, s₂, ?_, hsame⟩
  rw [Desk.Fails, outcome_refresh hlist hread, hfresh]
  exact Desk.fails_bind.mpr (.inl hfails)

/-- The jobs that are written are those of a fresh roster, with the histories that are
remembered. -/
structure Inherits (settings : Settings) (older : Option Roster) (jobs : List Job)
    (r : Roster) : Prop where
  hours : r.belongsTo settings = true
  listed : r.jobs.map (fun job => (job.name, job.url, job.fullName))
    = jobs.map fun job => (job.name, job.url, job.fullName)
  known : ∀ old, older = some old → old.belongsTo settings = true → r.recent = old.recent
    ∧ ∀ job ∈ r.jobs, job.branches = (old.history? job.url).getD []
  other : (∀ old, older = some old → old.belongsTo settings = false) → r.recent = []
    ∧ ∀ job ∈ r.jobs, job.branches = []

theorem inherits {settings : Settings} {now : Int} (hfresh : fresh settings now jobs = .ok blank)
    (hnew : ∀ job ∈ jobs, job.branches = []) (older : Option Roster) :
    Inherits settings older jobs (inherit (older.filter (·.belongsTo settings)) blank) := by
  obtain ⟨stamp, rfl⟩ := fresh_eq hfresh
  have hblank : Inherits settings none jobs ⟨settings.url, settings.user, stamp, jobs, []⟩ := {
    hours := belongsTo_self settings stamp jobs []
    listed := rfl
    known := nofun
    other := fun _ => ⟨rfl, hnew⟩ }
  rcases older with _ | old
  · exact hblank
  · rw [Option.filter_some]
    by_cases hours : old.belongsTo settings = true
    · rw [if_pos hours]
      refine ⟨belongsTo_self settings stamp _ _, ?_, ?_, fun hother => ?_⟩
      · rw [inherit, List.map_map]
        refine List.map_congr_left fun job hjob => ?_
        rw [Function.comp_apply, remember_eq (hnew job hjob)]
      · rintro old' ⟨⟩ -
        refine ⟨rfl, List.forall_mem_map.mpr fun job hjob => ?_⟩
        rw [remember_eq (hnew job hjob)]
      · rw [hother old rfl] at hours
        cases hours
    · rw [if_neg hours]
      refine ⟨hblank.hours, hblank.listed, ?_, fun _ => hblank.other nofun⟩
      rintro old' ⟨⟩ hours'
      exact absurd hours' hours

/-! ### What is read back -/

/-- A full name that is a text, or none, is read back as it is. -/
theorem reread_job (htext : job.fullName = .null ∨ ∃ t, job.fullName = .str t)
    (hplain : job.fullName.orElse .null = job.fullName) : job.reread = job := by
  have hback : job.fullName.reread = job.fullName := by
    rcases htext with hnone | ⟨t, hname⟩
    · rw [hnone]
      rfl
    · rw [hname]
      rfl
  rw [Job.reread, hplain, hback, hplain]

theorem reread_eq (h : ∀ job ∈ r.jobs, job.reread = job) : r.reread = r := by
  rw [reread, List.map_congr_left h, List.map_id']

theorem isShaped_job (htext : job.fullName = .null ∨ ∃ t, job.fullName = .str t) :
    job.IsShaped := by
  unfold Job.IsShaped
  rcases htext with hnone | ⟨t, hname⟩
  · rw [hnone]
    exact .null
  · rw [hname]
    exact .str

/-- What is said of full names one by one may be said of the jobs that are written. -/
theorem Inherits.forall_fullName {settings : Settings} {older : Option Roster}
    (h : Inherits settings older jobs r) {P : Json → Prop} (hP : ∀ job ∈ jobs, P job.fullName) :
    ∀ job ∈ r.jobs, P job.fullName := by
  intro job hjob
  have hmem : (job.name, job.url, job.fullName) ∈
      jobs.map fun job => (job.name, job.url, job.fullName) :=
    h.listed ▸ List.mem_map_of_mem (f := fun job : Job => (job.name, job.url, job.fullName)) hjob
  obtain ⟨listed, hlisted, heq⟩ := List.mem_map.mp hmem
  have hname : listed.fullName = job.fullName := congrArg (fun t => t.2.2) heq
  exact hname ▸ hP listed hlisted

/-- **Listing the jobs anew loses nothing.**  A listing that fails leaves the job file as it
is.  Let a listing succeed, with full names that are texts or missing, in a folder that can be
written to; let the job file be read as a roster or as none, and let the clock show a date.
Then a roster of the settings comes of it that has the jobs listed, in their order.  If the
roster from before is one of the settings, each job has the history of the first job at its
address there, and the jobs used lately are the same; otherwise there are no histories and no
jobs used lately.  The jobs of this roster are given back, and it is what the job file is read
as afterwards; but when one of its texts cannot be encoded, the fault says so, and the job file
stays as it is, and a directory in its place is not replaced. -/
theorem refresh_keeps (server : Server) (s s₁ : Session) :
    (∀ f, server.listJobs.Fails s f s₁ →
      (refresh server).Fails s f s₁ ∧ s₁.folder = s.folder)
    ∧ ∀ jobs older blank, server.listJobs.Yields s jobs s₁ →
      (∀ job ∈ jobs, job.fullName = .null ∨ ∃ t, job.fullName = .str t) →
      load.Yields s older s → fresh server.settings s₁.now jobs = .ok blank →
      ∃ r : Roster, Inherits server.settings older jobs r ∧ r.fetchedAt = blank.fetchedAt
        ∧ (s.folder.jobs ≠ .directory → Text.isEncodable r.document = true →
          (refresh server).Yields s r.jobs (r.kept s₁)
            ∧ load.Yields (r.kept s₁) (some r) (r.kept s₁))
        ∧ (s.folder.jobs ≠ .directory → Text.isEncodable r.document = false →
          (refresh server).Fails s .notEncodable s₁ ∧ s₁.folder = s.folder)
        ∧ (s.folder.jobs = .directory →
          ∃ f s₂, (refresh server).Fails s f s₂ ∧ s₂.folder.jobs = .directory) := by
  refine ⟨fun f h => refresh_fails h, ?_⟩
  intro jobs older blank hlist htexts hload hfresh
  have hfolder : s₁.folder = s.folder := by
    have hkeeps := server.keepsFolder_listJobs s
    rwa [hlist] at hkeeps
  have hread : ofFolder s₁.folder = .ok older := hfolder ▸ (load_yields.mp hload).1
  have hplain := Server.plain_of_listJobs hlist
  have hinherits := inherits hfresh (fun job hjob => (hplain job hjob).1) older
  refine ⟨_, hinherits, ?_, fun hfile henc => ?_, fun hfile henc => ?_, fun hdir => ?_⟩
  · cases older.filter (·.belongsTo server.settings) with
    | none => rfl
    | some old => rfl
  · have hrefresh := outcome_refresh_of_file hlist hread hfresh rfl (hfolder ▸ hfile)
    rw [if_pos henc] at hrefresh
    refine ⟨hrefresh, ?_⟩
    have htexts' := hinherits.forall_fullName
      (P := fun name => name = .null ∨ ∃ t, name = .str t) htexts
    have hplain' := hinherits.forall_fullName
      (P := fun name => name.orElse .null = name) fun job hjob => (hplain job hjob).2
    have hback := IsRead.kept (reachable_of_ok hread) fun job hjob =>
      isShaped_job (htexts' job hjob)
    rw [reread_eq fun job hjob => reread_job (htexts' job hjob) (hplain' job hjob)] at hback
    exact outcome_load_of hback
  · have hrefresh := outcome_refresh_of_file hlist hread hfresh rfl (hfolder ▸ hfile)
    rw [if_neg (by rw [henc]; exact Bool.false_ne_true)] at hrefresh
    exact ⟨hrefresh, hfolder⟩
  · exact refresh_fails_of_directory hlist hread hfresh (hfolder ▸ hdir)

/-! ### One job that is still there -/

/-- A session in which the server lists some entries, on a folder. -/
def listing (entries : List Json) (f : Folder) : Session where
  responses := [.reply { body := .json (.object [("jobs", .list entries)]) } 0.0]
  folder := f

/-- The server of the settings of one user. -/
def someServer : Server := ⟨someSettings, .int 10⟩

/-- A roster with one branch recorded. -/
def oneBranch : Roster := oneJobWith ["dev"]

theorem storable_oneBranch : oneBranch.Storable := storable_oneJobWith (by decide)

theorem isRead_oneBranch : oneBranch.IsRead (oneBranch.kept {}).folder :=
  isRead_oneJobWith (by decide)

/-- Two jobs: the one that is known, under a full name, and another. -/
def twoJobs : List Job := [⟨"b", "u", .str "team/b", []⟩, ⟨"c", "x", .null, []⟩]

/-- The fresh roster of two jobs, as of the beginning of 1970. -/
def freshTwo : Roster := { oneJob with jobs := twoJobs }

theorem storable_freshTwo : freshTwo.Storable := Keepable.storable {
  encodable := by decide
  named := List.forall_mem_cons.mpr ⟨.inr ⟨"team/b", by decide, rfl⟩,
    List.forall_mem_cons.mpr ⟨.inl rfl, List.forall_mem_nil _⟩⟩ }

/-- The session in which the two jobs are listed. -/
def listingTwo : Session := listing [
  .object [("name", .str "b"), ("url", .str "u"), ("fullName", .str "team/b")],
  .object [("name", .str "c"), ("url", .str "x")]] (oneBranch.kept {}).folder

theorem listJobs_two : someServer.listJobs.Yields listingTwo twoJobs
    (someServer.listJobs.outcome listingTwo).2 := by
  rfl

/-- The job that is known keeps its branch, and the other one has none. -/
theorem refresh_keeps_branch :
    let s₁ := (someServer.listJobs.outcome listingTwo).2
    ∃ r : Roster, (refresh someServer).Yields listingTwo r.jobs (r.kept s₁)
      ∧ load.Yields (r.kept s₁) (some r) (r.kept s₁)
      ∧ r.jobs.map Job.branches = [["dev"], []] := by
  intro s₁
  have htexts : ∀ job ∈ twoJobs, job.fullName = .null ∨ ∃ t, job.fullName = .str t :=
    List.forall_mem_cons.mpr ⟨.inr ⟨_, rfl⟩, List.forall_mem_cons.mpr ⟨.inl rfl,
      List.forall_mem_nil _⟩⟩
  have hload : load.Yields listingTwo (some oneBranch) listingTwo :=
    outcome_load_of isRead_oneBranch
  have hnow : s₁.now = 0 := by rfl
  have hfresh : fresh someServer.settings s₁.now twoJobs = .ok freshTwo := by
    rw [hnow]
    rfl
  obtain ⟨r, hinherits, -, hwritten, hrefused, -⟩ := (refresh_keeps someServer listingTwo s₁).2
    twoJobs (some oneBranch) freshTwo listJobs_two htexts hload hfresh
  -- the texts of both rosters can be written
  have henc : Text.isEncodable r.document = true := by
    cases henc : Text.isEncodable r.document with
    | true => rfl
    | false =>
      have hstore : (inherit (some oneBranch) freshTwo).Storable :=
        storable_inherit storable_freshTwo fun _ h => Option.some.inj h ▸ storable_oneBranch
      have hdone := outcome_refresh_of_file
        (show someServer.listJobs.Yields _ _ s₁ from listJobs_two)
        (show ofFolder s₁.folder = .ok (some oneBranch) from isRead_oneBranch) hfresh rfl
        Entry.noConfusion
      rw [Option.filter_some, if_pos (show oneBranch.belongsTo someServer.settings = true from rfl),
        if_pos hstore.isEncodable] at hdone
      cases hdone.symm.trans (hrefused Entry.noConfusion henc).1
  obtain ⟨hrefresh, hback⟩ := hwritten Entry.noConfusion henc
  refine ⟨r, hrefresh, hback, ?_⟩
  have hurls : r.jobs.map Job.url = ["u", "x"] := by
    have hlisted := congrArg (List.map fun t : String × String × Json => t.2.1) hinherits.listed
    rwa [List.map_map, List.map_map] at hlisted
  calc r.jobs.map Job.branches
      = r.jobs.map ((fun url => (oneBranch.history? url).getD []) ∘ Job.url) :=
        List.map_congr_left (hinherits.known oneBranch rfl rfl).2
    _ = ["u", "x"].map fun url => (oneBranch.history? url).getD [] := by
        rw [← List.map_map, hurls]
    _ = [["dev"], []] := rfl

/-- A job is listed whose name no file can hold.  The listing succeeds, and nothing is
written. -/
theorem not_relisted_unwritable :
    let s := listing [.object [("name", .str Text.loneHalf), ("url", .str "u")]] {}
    let s₁ := (someServer.listJobs.outcome s).2
    someServer.listJobs.Yields s [⟨Text.loneHalf, "u", .null, []⟩] s₁
      ∧ s.folder.reachable = true ∧ s.folder.jobs = .absent ∧ load.Yields s none s
      ∧ (refresh someServer).Fails s .notEncodable s₁ ∧ s₁.folder.jobs = .absent := by
  intro s s₁
  have hlist : someServer.listJobs.Yields s [⟨Text.loneHalf, "u", .null, []⟩] s₁ := by rfl
  have hread : ofFolder s.folder = .ok none := rfl
  have hfolder : s₁.folder = s.folder := rfl
  let blank : Roster := { oneJob with jobs := [⟨Text.loneHalf, "u", .null, []⟩] }
  have hnow : s₁.now = 0 := by rfl
  have hfresh : fresh someServer.settings s₁.now [⟨Text.loneHalf, "u", .null, []⟩] = .ok blank := by
    rw [hnow]
    rfl
  have hshaped : ∀ job ∈ blank.jobs, job.IsShaped :=
    List.forall_mem_cons.mpr ⟨.null, List.forall_mem_nil _⟩
  have henc : ¬ Text.isEncodable blank.document = true := by
    intro henc
    have hhalf := (isEncodable_document_iff hshaped).mp henc Text.loneHalf
      (.inr (.inl ⟨_, List.mem_cons_self, .inl rfl⟩))
    exact absurd hhalf (by decide)
  have hrefresh := outcome_refresh_of_file hlist (hfolder ▸ hread) hfresh rfl Entry.noConfusion
  rw [Option.filter_none, inherit, if_neg henc] at hrefresh
  exact ⟨hlist, rfl, rfl, outcome_load_of hread, hrefresh, rfl⟩

end BuildDesk.Roster
