/-
A build of a job that is given by its address.

Where nothing is asked and the address is known, the job file serves for a label and takes a
record of the build.  This file says what the command comes to, whatever stands in the folder:

* `outcome_build_of_reads` — the job file can be read, or there is none: the build is queued as
  it is from any other folder, and what follows is recorded and printed;
* `outcome_build_of_unread` — the job file cannot be read: nothing is sent;
* `Serves` — the file can be read and the build can be recorded;
* `build_by_address_alike` — folders that serve make no difference but for the printed line, and
  of the others none lets the build through.

A folder serves when it has no job file, or one that holds no roster or another user's
(`serves_of_none`), and when its roster, the address and the branch can be written
(`serves_of_stands`).
-/
import BuildDesk.Proofs.Aside.Commands
import BuildDesk.Proofs.Command.Reliable
import BuildDesk.Proofs.Command.Remembering
import BuildDesk.Proofs.Server.Traffic

namespace BuildDesk

/-! ### Alike but for a label -/

/-- The event without the text of a printed line. -/
def Event.bare : Event → Event
  | .out _ => .out ""
  | e => e

/-- The sessions differ in their folders and in the texts of printed lines at most. -/
structure Session.Alike (s t : Session) : Prop where
  rest : t = { s with folder := t.folder, log := t.log }
  log : s.log.map Event.bare = t.log.map Event.bare

namespace Session.Alike

variable {s t : Session}

theorem folders (s : Session) (f g : Folder) :
    ({ s with folder := f } : Session).Alike { s with folder := g } := ⟨rfl, rfl⟩

theorem print (h : s.Alike t) (text text' : String) :
    ({ s with log := .out text :: s.log } : Session).Alike
      { t with log := .out text' :: t.log } := by
  refine ⟨?_, by rw [List.map_cons, List.map_cons, h.log]; rfl⟩
  have hrest := h.rest
  rw [hrest]

theorem request?_bare (e : Event) : e.bare.request? = e.request? := by
  cases e <;> rfl

/-- Sessions that are alike have sent the same requests. -/
theorem requests_eq (h : s.Alike t) : s.requests = t.requests := by
  have hbare : ∀ log : List Event, log.reverse.filterMap Event.request? =
      (log.map Event.bare).reverse.filterMap Event.request? := by
    intro log
    rw [← List.map_reverse, List.filterMap_map]
    exact congrArg (List.filterMap · log.reverse) (funext fun e => (request?_bare e).symm)
  calc s.requests = (s.log.map Event.bare).reverse.filterMap Event.request? := hbare _
    _ = (t.log.map Event.bare).reverse.filterMap Event.request? := by rw [h.log]
    _ = t.requests := (hbare _).symm

end Session.Alike

namespace Command

open Desk Console BuildDesk.Flow

variable {server : Server} {o : BuildOptions} {url : String} {s : Session} {f g : Folder}
variable {settings : Settings} {branch : Option String}

/-! ### The build and its request -/

/-- The branch that is built, and recorded. -/
def BuildOptions.built (o : BuildOptions) : Option String :=
  if o.defaultBranch then none else o.branchName

/-- The build of a job, which is shown as a label, that the options describe. -/
def BuildOptions.order (o : BuildOptions) (settings : Settings) (job : String) (label : Json) :
    Order where
  job := job
  label := label
  params := o.built.toList.map fun b => (o.parameter settings, b)
  branch := o.built

/-- What is done before the job file plays any part but that of a label: the options are
checked, and the build is queued. -/
def dispatch (server : Server) (o : BuildOptions) (job : String) : Desk Json := do
  o.check
  server.trigger (.str job) (o.order server.settings job .null).data

/-! ### A job file that can be read, and one that cannot -/

theorem not_complaint_of_ofFolder {e : Fault} (h : Roster.ofFolder f = .error e)
    (c : Complaint) : e ≠ .complaint c := by
  rintro rfl
  unfold Roster.ofFolder at h
  split at h
  · cases h
  · split at h
    · cases h
    · cases h
    · cases h
    · unfold Roster.ofText? at h
      split at h
      · cases h
      · cases h
      · cases h
      · cases h

/-- With an address the jobs are those that the job file holds for the settings; it is no error
when it holds none. -/
theorem outcome_jobsFor_of_reads (server : Server) {found : Option Roster}
    (hurl : given o.wish.url = some url) (h : Roster.ofFolder s.folder = .ok found) :
    ∃ jobs, (jobsFor server false false o.wish.url).outcome s = (.ok jobs, s) := by
  have hload : Roster.load.outcome s = (.ok found, s) := congrArg (·, s) h
  rw [jobsFor, hurl, if_pos Option.isSome_some, rescue, outcome_tryCatch, Roster.jobsOf,
    if_neg Bool.false_ne_true, outcome_bind, hload]
  rcases hours : found.filter (·.belongsTo server.settings) with _ | r
  · simp only [hours]
    exact ⟨[], rfl⟩
  · simp only [hours]
    exact ⟨r.jobs, rfl⟩

theorem outcome_jobsFor_of_unread {e : Fault} (hurl : given o.wish.url = some url)
    (h : Roster.ofFolder s.folder = .error e) :
    (jobsFor server false false o.wish.url).outcome s = (.error e, s) := by
  have hload : Roster.load.outcome s = (.error e, s) := congrArg (·, s) h
  have hother := not_complaint_of_ofFolder h
  rw [jobsFor, hurl, if_pos Option.isSome_some, rescue, outcome_tryCatch, Roster.jobsOf,
    if_neg Bool.false_ne_true, outcome_bind, hload]
  cases e with
  | complaint c => exact absurd rfl (hother c)
  | _ => rfl

theorem outcome_single (hurl : given o.wish.url = some url) (jobs : List Job) (s : Session) :
    (o.wish.single jobs).outcome s = (.ok (url, Job.labelOf jobs url), s) := by
  rw [Wish.single, hurl]
  rfl

/-- A build at once, when the job file can be read. -/
theorem outcome_buildAtOnce (server : Server) {found : Option Roster}
    (hurl : given o.wish.url = some url) (h : Roster.ofFolder s.folder = .ok found) :
    ∃ label, (buildAtOnce server o).outcome s = (do
      let _ ← (o.order server.settings url label).place server
      pure { triggered := true } : Desk Built).outcome s := by
  obtain ⟨jobs, hjobs⟩ := outcome_jobsFor_of_reads server hurl h
  refine ⟨Job.labelOf jobs url, ?_⟩
  rw [buildAtOnce, outcome_bind, hjobs]
  dsimp only
  rw [outcome_bind, outcome_single hurl]
  rfl

theorem build_of_once {interactive : Bool} (honce : o.nonInteractive = true) :
    build server interactive o = o.check >>= fun _ => buildAtOnce server o := by
  unfold build
  rw [honce]
  rfl

/-- A build of a job that is given by its address, when the job file can be read: the options
are checked and the build is queued, whatever the folder is, and what follows is recorded in
the folder. -/
theorem outcome_build_of_reads (server : Server) (interactive : Bool) {found : Option Roster}
    (honce : o.nonInteractive = true) (hurl : given o.wish.url = some url)
    (h : Roster.ofFolder f = .ok found) (s : Session) :
    ∃ label, (build server interactive o).outcome { s with folder := f } =
      match (dispatch server o url).outcome s with
      | (.ok queue, s₁) => (do
          let _ ← (o.order server.settings url label).finish server queue
          pure { triggered := true } : Desk Built).outcome { s₁ with folder := f }
      | (.error e, s₁) => (.error e, { s₁ with folder := f }) := by
  have hover : o.check.Overlooks (fun _ => f) [] := o.overlooks_check
  have hcheck := hover.outcome_folder s
  rw [build_of_once honce, outcome_bind, hcheck, dispatch, outcome_bind]
  rcases o.check.outcome s with ⟨e | _, s₁⟩
  · exact ⟨.null, rfl⟩
  · have hreads : Roster.ofFolder ({ s₁ with folder := f } : Session).folder = .ok found := h
    obtain ⟨label, hlabel⟩ := outcome_buildAtOnce server hurl hreads
    refine ⟨label, hlabel.trans ?_⟩
    have hasks : (server.trigger (.str url) (o.order server.settings url .null).data).Overlooks
      (fun _ => f) [] := Server.overlooks_trigger _ _ _
    have hqueue := hasks.outcome_folder s₁
    -- what is queued does not depend on the label
    have hsame : server.trigger (.str (o.order server.settings url label).job)
        (o.order server.settings url label).data =
      server.trigger (.str url) (o.order server.settings url .null).data := rfl
    rw [place_eq, outcome_bind, outcome_bind, hsame, hqueue]
    dsimp only
    rcases (server.trigger (.str url) (o.order server.settings url .null).data).outcome s₁
      with ⟨e | queue, s₂⟩
    · rfl
    · exact (outcome_bind _ _ _).symm

/-- When the job file cannot be read, that is the fault of the build, unless the options are to
blame; in either case nothing was done. -/
theorem outcome_build_of_unread {interactive : Bool} {e : Fault}
    (honce : o.nonInteractive = true) (hurl : given o.wish.url = some url)
    (h : Roster.ofFolder f = .error e) :
    (build server interactive o).outcome { s with folder := f } =
      match o.check.outcome s with
      | (.ok _, s₁) => (.error e, { s₁ with folder := f })
      | (.error e', s₁) => (.error e', { s₁ with folder := f }) := by
  have hover : o.check.Overlooks (fun _ => f) [] := o.overlooks_check
  have hcheck := hover.outcome_folder s
  rw [build_of_once honce, outcome_bind, hcheck]
  rcases o.check.outcome s with ⟨e' | _, s₁⟩
  · rfl
  · have hunread : Roster.ofFolder ({ s₁ with folder := f } : Session).folder = .error e := h
    dsimp only
    rw [buildAtOnce, outcome_bind, outcome_jobsFor_of_unread hurl hunread]

/-! ### Folders that serve -/

/-- The folder is no obstacle to a build: the job file can be read, or there is none, and the
build can be recorded. -/
structure Serves (settings : Settings) (job : String) (branch : Option String) (f : Folder) :
    Prop where
  reads : ∃ found, Roster.ofFolder f = .ok found
  records : ∃ s, (remember settings job branch).Yields { folder := f } () s

theorem Serves.outcome_remember (h : Serves settings url branch s.folder) :
    ∃ g, (remember settings url branch).outcome s = (.ok (), { s with folder := g }) := by
  obtain ⟨s₁, hs₁⟩ := h.records
  obtain ⟨work, hwork⟩ := onFolder_remember settings url branch
  have hdone : (work s.folder).1 = .ok () :=
    congrArg Prod.fst ((hwork { folder := s.folder }).symm.trans hs₁)
  exact ⟨(work s.folder).2, by rw [hwork, hdone]⟩

/-- Where recording does not fail, a line is all that follows. -/
theorem outcome_finish {order : Order} (queue : Json)
    (h : Serves server.settings order.job order.branch s.folder) :
    ∃ g text, (order.finish server queue).outcome s =
      (.ok queue, { s with folder := g, log := .out text :: s.log }) := by
  obtain ⟨g, hg⟩ := h.outcome_remember
  refine ⟨g, ?_⟩
  rw [Order.finish, outcome_bind, hg]
  dsimp only
  rcases queue.present? with _ | address
  · exact ⟨_, rfl⟩
  · exact ⟨_, rfl⟩

/-- What a build comes to from a folder that serves. -/
theorem outcome_build_of_serves (interactive : Bool) (honce : o.nonInteractive = true)
    (hurl : given o.wish.url = some url) (h : Serves server.settings url o.built f)
    (s : Session) :
    ∃ g text, (build server interactive o).outcome { s with folder := f } =
      match (dispatch server o url).outcome s with
      | (.ok _, s₁) =>
        (.ok { triggered := true }, { s₁ with folder := g, log := .out text :: s₁.log })
      | (.error e, s₁) => (.error e, { s₁ with folder := f }) := by
  obtain ⟨found, hfound⟩ := h.reads
  obtain ⟨label, hbuild⟩ :=
    outcome_build_of_reads server interactive honce hurl hfound s
  rw [hbuild]
  rcases (dispatch server o url).outcome s with ⟨e | queue, s₁⟩
  · exact ⟨f, "", rfl⟩
  · have hserves : Serves server.settings (o.order server.settings url label).job
        (o.order server.settings url label).branch ({ s₁ with folder := f } : Session).folder := h
    obtain ⟨g, text, hfinish⟩ := outcome_finish queue hserves
    refine ⟨g, text, ?_⟩
    dsimp only
    rw [outcome_bind, hfinish]
    rfl

/-- A build that comes to its end started from a folder that serves. -/
theorem serves_of_yields {interactive : Bool} {built : Built} {s' : Session}
    (honce : o.nonInteractive = true) (hurl : given o.wish.url = some url)
    (h : (build server interactive o).Yields { s with folder := f } built s') :
    Serves server.settings url o.built f := by
  unfold Desk.Yields at h
  rcases hfound : Roster.ofFolder f with e | found
  · rw [outcome_build_of_unread honce hurl hfound] at h
    rcases hcheck : o.check.outcome s with ⟨e' | _, s₁⟩
    · rw [hcheck] at h
      cases h
    · rw [hcheck] at h
      cases h
  · refine ⟨⟨found, hfound⟩, ?_⟩
    obtain ⟨label, hbuild⟩ :=
      outcome_build_of_reads server interactive honce hurl hfound s
    rw [hbuild] at h
    rcases hdispatch : (dispatch server o url).outcome s with ⟨e | queue, s₁⟩
    · rw [hdispatch] at h
      cases h
    · rw [hdispatch] at h
      obtain ⟨_, s₂, hfinish, -⟩ := yields_bind.mp h
      obtain ⟨_, s₃, hremember, -⟩ := yields_bind.mp hfinish
      obtain ⟨work, hwork⟩ := onFolder_remember server.settings url o.built
      have hdone : (work f).1 = .ok () :=
        congrArg Prod.fst ((hwork { s₁ with folder := f }).symm.trans hremember)
      exact ⟨{ folder := (work f).2 }, (hwork { folder := f }).trans (by rw [hdone])⟩

/-- A folder without a roster of the settings serves. -/
theorem serves_of_none {found : Option Roster} (h : Roster.ofFolder f = .ok found)
    (hours : found.filter (·.belongsTo settings) = none) : Serves settings url branch f := by
  have hrevise : ∀ change, (Roster.revise settings change).outcome { folder := f } =
      (.ok false, { folder := f }) := fun change => Roster.outcome_revise_of_none h hours change
  refine ⟨⟨found, h⟩, { folder := f }, remember_yields (fun _ => rfl) (fun b _ => ?_) ?_⟩
  · unfold Branches.record
    dsimp only
    split
    · exact yields_bind.mpr ⟨false, _, hrevise _, rfl⟩
    · rfl
  · unfold Recent.record
    dsimp only
    split
    · exact yields_bind.mpr ⟨false, _, hrevise _, rfl⟩
    · rfl

/-- A roster that stands in the job file serves, with an address and a branch that can be
written. -/
theorem serves_of_stands {r : Roster} (h : r.Stands f) (hours : r.belongsTo settings = true)
    (hwrite : Writable url branch r) : Serves settings url branch f := by
  have hstands : r.Stands ({ folder := f } : Session).folder := h
  obtain ⟨s', -, hremember, -⟩ := remember_of_stands hstands hours hwrite
  exact ⟨⟨some r, congrArg Prod.fst hstands.outcome_load⟩, s', hremember⟩

/-! ### Any two folders -/

/-- **The folder has no say in a build by address.**  Where nothing is asked and the address is
known, the command comes to the same from any two folders that serve: it sends the same
requests, and all else is alike but for the printed line.  Of the folders that do not serve
none lets a build through that comes to its end without a job file. -/
theorem build_by_address_alike (server : Server) (interactive : Bool) {o : BuildOptions}
    {url : String} (honce : o.nonInteractive = true) (hurl : given o.wish.url = some url)
    (s : Session) :
    (∀ f g, Serves server.settings url o.built f → Serves server.settings url o.built g →
      ∃ result s₁ s₂,
        (build server interactive o).outcome { s with folder := f } = (result, s₁) ∧
        (build server interactive o).outcome { s with folder := g } = (result, s₂) ∧
        s₁.Alike s₂ ∧ s₁.requests = s₂.requests) ∧
    ∀ built s₁, (build server interactive o).Yields { s with folder := {} } built s₁ →
      ∀ f, Serves server.settings url o.built f ↔
        ∃ s₂, (build server interactive o).Yields { s with folder := f } built s₂ := by
  have halike : ∀ f g, Serves server.settings url o.built f →
      Serves server.settings url o.built g → ∃ result s₁ s₂,
        (build server interactive o).outcome { s with folder := f } = (result, s₁) ∧
        (build server interactive o).outcome { s with folder := g } = (result, s₂) ∧
        s₁.Alike s₂ := by
    intro f g hf hg
    obtain ⟨f', text, hbuild⟩ :=
      outcome_build_of_serves interactive honce hurl hf s
    obtain ⟨g', text', hbuild'⟩ :=
      outcome_build_of_serves interactive honce hurl hg s
    rw [hbuild, hbuild']
    rcases (dispatch server o url).outcome s with ⟨e | queue, s₁⟩
    · exact ⟨_, _, _, rfl, rfl, .folders s₁ f g⟩
    · exact ⟨_, _, _, rfl, rfl, (Session.Alike.folders s₁ f' g').print text text'⟩
  refine ⟨fun f g hf hg => ?_, fun built s₁ hbuilt f => ⟨fun hf => ?_, ?_⟩⟩
  · obtain ⟨result, s₁, s₂, h₁, h₂, h⟩ := halike f g hf hg
    exact ⟨result, s₁, s₂, h₁, h₂, h, h.requests_eq⟩
  · obtain ⟨result, s₁', s₂, h₁, h₂, -⟩ := halike {} f (serves_of_yields honce hurl hbuilt) hf
    obtain rfl : Except.ok built = result := congrArg Prod.fst (hbuilt.symm.trans h₁)
    exact ⟨s₂, h₂⟩
  · rintro ⟨s₂, hbuilt'⟩
    exact serves_of_yields honce hurl hbuilt'

/-- The job is named by its address, a branch is given, and nothing is asked. -/
def atOnce : BuildOptions where
  wish := { url := some "http://ci/job/app/" }
  branch := some "main"
  nonInteractive := true

/-- The server queues one build. -/
def queuesOne : Session where
  responses := [.reply { status := .int 201 } 0.0]

/-- Neither a missing job file nor a directory in its place stands in the way of a build. -/
theorem build_by_address_without_file :
    atOnce.nonInteractive = true ∧ given atOnce.wish.url = some "http://ci/job/app/" ∧
    ∃ result s₁ s₂,
      (build plainServer false atOnce).outcome { queuesOne with folder := {} } = (result, s₁) ∧
      (build plainServer false atOnce).outcome
        { queuesOne with folder := { jobs := .directory } } = (result, s₂) ∧
      s₁.Alike s₂ ∧ s₁.requests = s₂.requests ∧ s₁.requests.length = 1 := by
  have hserves : ∀ f : Folder, Roster.ofFolder f = .ok none →
      Serves plainServer.settings "http://ci/job/app/" atOnce.built f := fun f h =>
    serves_of_none h rfl
  obtain ⟨result, s₁, s₂, h₁, h₂, halike, hrequests⟩ :=
    (build_by_address_alike plainServer false (o := atOnce) rfl (by rfl) queuesOne).1 {}
      { jobs := .directory } (hserves _ rfl) (hserves _ rfl)
  have hone : ((build plainServer false atOnce).outcome
      { queuesOne with folder := {} }).2.requests.length = 1 := by decide +kernel
  rw [h₁] at hone
  exact ⟨rfl, by rfl, result, s₁, s₂, h₁, h₂, halike, hrequests, hone⟩

/-- A job file of the settings with a job whose name no file can hold. -/
def unwritable : Folder where
  jobs := .text ("\x7b\"jenkinsUrl\": \"http://ci\", \"user\": \"u\", \"fetchedAt\": \"\", "
    ++ "\"jobs\": [\x7b\"name\": \"\\ud800\", \"url\": \"\"\x7d]\x7d")

/-- The result of the build, if it comes to its end, and the number of its requests. -/
def resultFrom (f : Folder) : Option Built × Nat :=
  let run := (build plainServer false atOnce).outcome { queuesOne with folder := f }
  (run.1.toOption, run.2.requests.length)

/-- Without a job file a build comes to its end.  From a job file that is no text, and from a
folder that cannot be made, nothing is sent; where the record cannot be written, the build is
queued and yet the command fails. -/
theorem folder_stops_build :
    resultFrom {} = (some { triggered := true }, 1) ∧
    resultFrom { jobs := .binary } = (none, 0) ∧
    resultFrom { reachable := false } = (none, 0) ∧
    resultFrom unwritable = (none, 1) :=
  ⟨by decide +kernel, by decide +kernel, by decide +kernel, by decide +kernel⟩

end Command
end BuildDesk
