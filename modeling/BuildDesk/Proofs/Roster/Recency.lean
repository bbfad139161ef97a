/-
The jobs that the job file remembers as used lately.

Four kinds of calls write the job file: a job is used, a branch is recorded or forgotten, and
the jobs are listed anew.  Only the first is about the jobs used lately; the others have to
carry them over, and a listing replaces all jobs around them.  So the addresses depend on
the jobs used alone, and what they are shown as on the jobs listed last.

* `Turn`, `folderAfter` — calls, each in a session of its own on the folder that the one
  before has left;
* `Holds` — the invariant: a roster of the settings stands in the folder, with given
  addresses;
* `holds_folder` — what one turn does to it;
* `load_after_turns` — after any turns the fifteen addresses used latest are there.

As with branches, an address with half of a surrogate pair cannot be written: using it is
refused (`not_used_unwritable`).
-/
import BuildDesk.Proofs.Roster.Histories
import BuildDesk.Proofs.Roster.Relisting

namespace BuildDesk

/-! ### Listing the jobs anew -/

namespace Roster

variable {r r' : Roster} {s s' : Session} {settings : Settings}

/-- Listing the jobs anew leaves the file alone, or puts a roster there with the same
addresses of jobs used lately. -/
theorem Stands.after_refresh {server : Server} (h : r.Stands s.folder)
    (hours : r.belongsTo server.settings = true) (hreplies : s.IsShaped) :
    ∃ r' : Roster, r'.Stands ((refresh server).outcome s).2.folder
      ∧ r'.belongsTo server.settings = true ∧ r'.recent = r.recent := by
  rcases hlist : server.listJobs.outcome s with ⟨fault | jobs, s₁⟩
  · obtain ⟨hrefresh, hfolder⟩ := refresh_fails hlist
    rw [hrefresh]
    exact ⟨r, hfolder ▸ h, hours, rfl⟩
  · have hfolder : (server.listJobs.outcome s).2.folder = s.folder := server.keepsFolder_listJobs s
    rw [hlist] at hfolder
    have hstands : r.Stands s₁.folder := hfolder ▸ h
    rcases hfresh : fresh server.settings s₁.now jobs with fault | blank
    · -- the clock shows no date
      rw [outcome_refresh hlist hstands.isRead, hfresh]
      exact ⟨r, hstands, hours, rfl⟩
    · rw [outcome_refresh_of_file hlist hstands.isRead hfresh rfl hstands.isRead.not_directory,
        Option.filter_some, if_pos hours]
      obtain ⟨stamp, rfl⟩ := fresh_eq hfresh
      -- a text that was listed may be one that no file holds
      split
      · rename_i henc
        have hshaped : ∀ job ∈ (inherit (some r)
            ⟨server.settings.url, server.settings.user, stamp, jobs, []⟩).jobs, job.IsShaped :=
          shaped_inherit (Server.isShaped_of_listJobs hreplies hlist)
        have hstore := (⟨(isEncodable_document_iff hshaped).mp henc, hshaped⟩ : Storable _)
        exact ⟨_, .kept hstands.reachable hstore, belongsTo_self _ _ _ _, rfl⟩
      · exact ⟨r, hstands, hours, rfl⟩

end Roster

namespace Recent

/-! ### Calls in turn -/

/-- A call that writes the job file. -/
inductive Call
  | use (url : String)
  | branch (call : Branches.Call)
  | list (server : Server)

/-- The call on the job file. -/
def Call.run (settings : Settings) : Call → Desk Unit
  | use url => record settings url
  | branch call => do let _ ← call.run settings
  | list server => do let _ ← Roster.refresh server

/-- The address that a call moves to the front, if it does. -/
def Call.used? (writable : String → Bool) : Call → Option String
  | use url =>
    if Text.trim url ≠ "" ∧ writable (Text.trim url) then some (Text.trim url) else none
  | branch _ => none
  | list _ => none

/-- A call in a session of its own, which brings the clock, the replies of the server and
all else but the folder. -/
structure Turn where
  call : Call
  session : Session := {}

/-- The folder after a turn, whatever the call comes to. -/
def Turn.folder (settings : Settings) (f : Folder) (turn : Turn) : Folder :=
  ((turn.call.run settings).outcome { turn.session with folder := f }).2.folder

/-- The folder after turns, each on what the one before has left. -/
def folderAfter (settings : Settings) (f : Folder) (turns : List Turn) : Folder :=
  turns.foldl (Turn.folder settings) f

/-- A listing asks the server of the settings, and the replies are ones that can be sent. -/
def Turn.Fits (settings : Settings) (turn : Turn) : Prop :=
  match turn.call with
  | .list server => server.settings = settings ∧ turn.session.IsShaped
  | _ => True

/-- The addresses that turns move to the front, in order. -/
def used (writable : String → Bool) (turns : List Turn) : List String :=
  turns.filterMap fun turn => turn.call.used? writable

/-- A tidy list has nothing to be cleaned when an address comes to its front. -/
theorem push_eq {recent : List String} (h : Text.IsTidy recent) {name : String}
    (htrim : Text.trim name = name) (hname : name ≠ "") :
    push name recent = (name :: Text.without name recent).take 15 := by
  rw [push, h.filter_trim, Text.distinct_of_nodup (h.cons_without htrim hname).nodup]
  rfl

theorem list_eq {recent : List String} (h : Text.IsTidy recent) : list recent = recent := by
  rw [list, h.map_trim, h.filter_proper, Text.distinct_of_nodup h.nodup]

/-! ### What the folder holds -/

variable {settings : Settings} {f : Folder} {recent mentions : List String}

/-- In the folder stands a roster of the settings, with the given addresses of jobs used
lately. -/
def Holds (settings : Settings) (recent : List String) (f : Folder) : Prop :=
  ∃ r : Roster, r.Stands f ∧ r.belongsTo settings = true ∧ r.recent = recent

/-- What comes after a call does not matter to the folder when it yields nothing else. -/
theorem folder_discard {α : Type} (part : Desk α) (s : Session) :
    ((do let _ ← part : Desk Unit).outcome s).2.folder = (part.outcome s).2.folder :=
  Desk.folder_bind part (fun _ => Desk.keepsFolder_pure _) s

theorem holds_record (h : Holds settings (Text.latest 15 mentions) f)
    (htidy : Text.IsTidy (Text.latest 15 mentions)) (url : String) (session : Session) :
    Holds settings (Text.latest 15 (mentions ++ (Call.used? Text.isEncodable (.use url)).toList))
      (Turn.folder settings f ⟨.use url, session⟩) := by
  obtain ⟨r, hstands, hours, hrecent⟩ := h
  have hkept : Holds settings (Text.latest 15 mentions) f := ⟨r, hstands, hours, hrecent⟩
  rw [Turn.folder, Call.run, hstands.outcome_recordRecent hours, Call.used?]
  by_cases hblank : Text.trim url = ""
  · rw [if_pos hblank, if_neg (by simp [hblank]), Option.toList_none, List.append_nil]
    exact hkept
  · rw [if_neg hblank]
    by_cases henc : Text.isEncodable (Text.trim url) = true
    · rw [if_pos henc, if_pos ⟨hblank, henc⟩, Option.toList_some]
      refine ⟨(Roster.useJob (Text.trim url) r).reread, .kept hstands.reachable ?_, hours, ?_⟩
      · exact Roster.storable_useJob hstands.storable henc
      · show push (Text.trim url) r.recent = _
        rw [hrecent, push_eq htidy (Text.trim_trim url) hblank, Text.latest_concat]
    · rw [if_neg henc, if_neg (fun h => henc h.2), Option.toList_none, List.append_nil]
      exact hkept

theorem holds_branch (h : Holds settings recent f) (call : Branches.Call) (session : Session) :
    Holds settings recent (Turn.folder settings f ⟨.branch call, session⟩) := by
  obtain ⟨r, hstands, hours, hrecent⟩ := h
  have hkept : Holds settings recent f := ⟨r, hstands, hours, hrecent⟩
  rw [Turn.folder, Call.run, folder_discard]
  cases call with
  | record url branch =>
    rw [Branches.Call.run, Desk.folder_bind _ fun _ => Desk.keepsFolder_pure _,
      hstands.outcome_record hours]
    split
    · exact hkept
    · split
      · rename_i henc
        exact ⟨_, .kept hstands.reachable (Roster.storable_recorded hstands.storable henc),
          hours, hrecent⟩
      · exact hkept
  | forget url branch =>
    rw [Branches.Call.run, Desk.folder_bind _ fun _ => Desk.keepsFolder_pure _,
      hstands.outcome_forget hours]
    split
    · exact hkept
    · split
      · exact ⟨_, .kept hstands.reachable (Roster.storable_forgotten hstands.storable _),
          hours, hrecent⟩
      · exact hkept

theorem holds_list (h : Holds settings recent f) {server : Server} {session : Session}
    (hfits : Turn.Fits settings ⟨.list server, session⟩) :
    Holds settings recent (Turn.folder settings f ⟨.list server, session⟩) := by
  obtain ⟨r, hstands, hours, rfl⟩ := h
  obtain ⟨rfl, hreplies⟩ := hfits
  rw [Turn.folder, Call.run, folder_discard]
  exact hstands.after_refresh hours hreplies

/-- One turn moves an address to the front when it uses a job, and else leaves the
addresses as they are. -/
theorem holds_folder (h : Holds settings (Text.latest 15 mentions) f)
    (htidy : Text.IsTidy (Text.latest 15 mentions)) {turn : Turn} (hfits : turn.Fits settings) :
    Holds settings (Text.latest 15 (mentions ++ (turn.call.used? Text.isEncodable).toList))
      (turn.folder settings f) := by
  obtain ⟨call, session⟩ := turn
  cases call with
  | use url => exact holds_record h htidy url session
  | branch call =>
    rw [Call.used?, Option.toList_none, List.append_nil]
    exact holds_branch h call session
  | list server =>
    rw [Call.used?, Option.toList_none, List.append_nil]
    exact holds_list h hfits

theorem used?_proper {writable : String → Bool} {call : Call} {name : String}
    (h : call.used? writable = some name) : Text.trim name = name ∧ name ≠ "" := by
  cases call with
  | use url =>
    rw [Call.used?] at h
    split at h
    · rename_i hproper
      obtain rfl := Option.some.inj h
      exact ⟨Text.trim_trim url, hproper.1⟩
    · cases h
  | branch call => cases h
  | list server => cases h

/-- Any turns leave the addresses used latest. -/
theorem holds_folderAfter {turns : List Turn} (h : Holds settings (Text.latest 15 mentions) f)
    (hproper : ∀ name ∈ mentions, Text.trim name = name ∧ name ≠ "")
    (hfits : ∀ turn ∈ turns, turn.Fits settings) :
    Holds settings (Text.latest 15 (mentions ++ used Text.isEncodable turns))
      (folderAfter settings f turns) := by
  -- a turn leaves another folder, and may be one more mention
  induction turns generalizing mentions f with
  | nil =>
    rw [used, List.filterMap_nil, List.append_nil]
    exact h
  | cons turn rest ih =>
    obtain ⟨hturn, hrest⟩ := List.forall_mem_cons.mp hfits
    have hused : used Text.isEncodable (turn :: rest)
        = (turn.call.used? Text.isEncodable).toList ++ used Text.isEncodable rest := by
      rw [used, List.filterMap_cons]
      cases turn.call.used? Text.isEncodable with
      | none => rfl
      | some name => rfl
    rw [hused, ← List.append_assoc, folderAfter, List.foldl_cons]
    refine ih (holds_folder h (Text.isTidy_latest 15 hproper) hturn) (fun name hname => ?_) hrest
    rcases List.mem_append.mp hname with hname | hname
    · exact hproper name hname
    · exact used?_proper (Option.mem_toList.mp hname)

/-! ### The jobs used lately -/

/-- What the job file says about the jobs used lately, when their addresses are tidy. -/
theorem load_yields {r : Roster} {s : Session} (h : r.Stands s.folder)
    (hours : r.belongsTo settings = true) (htidy : Text.IsTidy r.recent) :
    (Recent.load settings).Yields s
      (r.recent.map fun url => ⟨url, ((r.find? url).map Job.displayName).getD (.str url)⟩) s := by
  have hlabel : ∀ url, Job.labelOf r.jobs url
      = ((r.find? url).map Job.displayName).getD (.str url) := by
    intro url
    rw [Job.labelOf, Roster.find?]
    cases Job.find? r.jobs url with
    | none => rfl
    | some job => rfl
  have hload : (Recent.load settings).Yields s
      ((list r.recent).map fun url => ⟨url, Job.labelOf r.jobs url⟩) s := by
    refine Desk.yields_bind.mpr ⟨some r, s, h.outcome_loadFor hours, ?_⟩
    exact Desk.yields_pure.mpr ⟨rfl, rfl⟩
  simp only [list_eq htidy, hlabel] at hload
  exact hload

/-- **The jobs used lately.**  Let the job file hold a fresh roster, and let any turns follow
in which jobs are used, branches are recorded and forgotten, and the jobs are listed anew.
Then the jobs used lately are the fifteen addresses that were used latest, the last one
first, each as it was spelled last and no two of them the same up to case; each is shown by
the display name of the first job with exactly that address in the job file, or by the
address itself when there is none.  The next use of a job is refused just when its address
has half of a surrogate pair, and such a use counts as none. -/
theorem load_after_turns {settings : Settings} {now : Int} {jobs : List Job} {r : Roster}
    (hfresh : Roster.fresh settings now jobs = .ok r) (hshaped : ∀ job ∈ jobs, job.IsShaped)
    {s₀ s₁ : Session} (hsaved : (Roster.save r).Yields s₀ () s₁)
    {turns : List Turn} (hfits : ∀ turn ∈ turns, turn.Fits settings)
    {s : Session} (hfolder : s.folder = folderAfter settings s₁.folder turns) :
    ((Text.latest 15 (used Text.isEncodable turns)).map Text.lower).Nodup
      ∧ (∃ r', Roster.load.Yields s (some r') s
        ∧ (Recent.load settings).Yields s
          ((Text.latest 15 (used Text.isEncodable turns)).map fun url =>
            ⟨url, ((r'.find? url).map Job.displayName).getD (.str url)⟩) s)
      ∧ ∀ url, ((record settings url).outcome s).1 =
        if Text.trim url = "" ∨ Text.isEncodable (Text.trim url) then .ok ()
        else .error .notEncodable := by
  obtain ⟨stamp, rfl⟩ := Roster.fresh_eq hfresh
  have hstart : Holds settings (Text.latest 15 []) s₁.folder :=
    ⟨_, Roster.stands_of_save hshaped hsaved, Roster.belongsTo_self _ _ _ _, rfl⟩
  have hproper : ∀ name ∈ used Text.isEncodable turns, Text.trim name = name ∧ name ≠ "" := by
    intro name hname
    obtain ⟨turn, -, hused⟩ := List.mem_filterMap.mp hname
    exact used?_proper hused
  have htidy := Text.isTidy_latest 15 hproper
  obtain ⟨r', hstands, hours, hrecent⟩ :=
    holds_folderAfter hstart (List.forall_mem_nil _) hfits
  rw [← hfolder] at hstands
  rw [List.nil_append] at hrecent
  refine ⟨htidy.nodup, ⟨r', hstands.outcome_load, ?_⟩, fun url => ?_⟩
  · have hload := load_yields hstands hours (hrecent ▸ htidy)
    rwa [hrecent] at hload
  · rw [hstands.outcome_recordRecent hours]
    by_cases hblank : Text.trim url = ""
    · rw [if_pos hblank, if_pos (.inl hblank)]
    · by_cases henc : Text.isEncodable (Text.trim url) = true
      · rw [if_neg hblank, if_pos henc, if_pos (.inr henc)]
      · rw [if_neg hblank, if_neg henc, if_neg (by simp [hblank, henc])]

/-! ### Turns about one job -/

/-- A session at a folder. -/
def atFolder (f : Folder) : Session := { folder := f }

theorem folder_atFolder (f : Folder) : (atFolder f).folder = f := rfl

/-- A session in which the server lists one job, at the address `x`. -/
def listingAnew : Session where
  responses := [.reply { body := .json (.object
    [("jobs", .list [.object [("name", .str "b"), ("url", .str "x")]])]) } 0.0]

theorem fits_listingAnew : Turn.Fits Roster.someSettings
    ⟨.list ⟨Roster.someSettings, .int 10⟩, listingAnew⟩ := by
  have hentry : Json.Shaped (Json.mostNested - 2)
      (.object [("name", .str "b"), ("url", .str "x")]) := by
    refine .object (show ["name", "url"].Nodup by decide) ?_
    exact List.forall_mem_cons.mpr ⟨.str, List.forall_mem_cons.mpr ⟨.str, List.forall_mem_nil _⟩⟩
  refine ⟨rfl, fun reply seconds hreply v hbody => ?_⟩
  obtain ⟨rfl, -⟩ := Response.reply.inj (List.mem_singleton.mp hreply)
  obtain rfl := Body.json.inj hbody
  refine .object (show ["jobs"].Nodup by decide) (List.forall_mem_singleton.mpr ?_)
  exact .list (List.forall_mem_singleton.mpr hentry)

/-- Two jobs are used, and the first of them again after a branch was recorded for it and the
server was asked for its jobs. -/
theorem load_after_listing_anew :
    let turns : List Turn := [⟨.use " u ", {}⟩, ⟨.use "x", {}⟩,
      ⟨.branch (.record "u" "dev"), {}⟩,
      ⟨.list ⟨Roster.someSettings, .int 10⟩, listingAnew⟩, ⟨.use "U", {}⟩]
    let s := atFolder (folderAfter Roster.someSettings (Roster.oneJob.kept {}).folder turns)
    (∀ turn ∈ turns, turn.Fits Roster.someSettings)
      ∧ ∃ found, (Recent.load Roster.someSettings).Yields s found s
        ∧ found.map RecentJob.url = ["U", "x"] := by
  intro turns s
  have hfits : ∀ turn ∈ turns, turn.Fits Roster.someSettings := by
    simp only [turns, List.forall_mem_cons]
    exact ⟨trivial, trivial, trivial, fits_listingAnew, trivial, List.forall_mem_nil _⟩
  have hfolder :
      s.folder = folderAfter Roster.someSettings (Roster.oneJob.kept {}).folder turns :=
    folder_atFolder _
  obtain ⟨-, ⟨r', -, hload⟩, -⟩ := load_after_turns Roster.fresh_oneJob
    Roster.isShaped_oneJob Roster.save_oneJob hfits hfolder
  refine ⟨hfits, _, hload, ?_⟩
  rw [List.map_map]
  show (Text.latest 15 (used Text.isEncodable turns)).map (fun url => url) = _
  rw [List.map_id']
  decide +kernel

/-- If every address could be written, the job used would be found.  The job file refuses
it, and no job was used. -/
theorem not_used_unwritable :
    let turns : List Turn := [⟨.use Text.loneHalf, {}⟩]
    let s := atFolder (folderAfter Roster.someSettings (Roster.oneJob.kept {}).folder turns)
    Roster.fresh Roster.someSettings 0 Roster.oneJob.jobs = .ok Roster.oneJob
      ∧ (Roster.save Roster.oneJob).Yields {} () (Roster.oneJob.kept {})
      ∧ (∀ turn ∈ turns, turn.Fits Roster.someSettings)
      ∧ Text.latest 15 (used (fun _ => true) turns) = [Text.loneHalf]
      ∧ (Recent.load Roster.someSettings).Yields s [] s := by
  intro turns s
  have hours : Roster.oneJob.belongsTo Roster.someSettings = true := rfl
  have hfits : ∀ turn ∈ turns, turn.Fits Roster.someSettings :=
    List.forall_mem_cons.mpr ⟨trivial, List.forall_mem_nil _⟩
  have hstart : Holds Roster.someSettings (Text.latest 15 []) (Roster.oneJob.kept {}).folder :=
    ⟨Roster.oneJob, Roster.stands_oneJob, hours, rfl⟩
  obtain ⟨r', hstands', hours', hrecent⟩ :=
    holds_folderAfter hstart (List.forall_mem_nil _) hfits
  have hnone : r'.recent = [] := hrecent.trans (by decide +kernel)
  rw [← folder_atFolder (folderAfter _ _ _)] at hstands'
  have hload := load_yields hstands' hours' (hnone ▸ Text.isTidy_nil)
  rw [hnone] at hload
  exact ⟨Roster.fresh_oneJob, Roster.save_oneJob, hfits, by decide +kernel, hload⟩

end Recent
end BuildDesk
