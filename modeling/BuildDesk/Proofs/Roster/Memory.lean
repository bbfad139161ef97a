/-
What calls leave alone in the job file.

The job file remembers branches for its jobs, and the jobs used lately.  Every call about them
reads the whole file, and one that has something to write writes the whole file again.  So that
nothing else is lost rests on two things: that a document is read as the roster it was written
for, and that a call changes no more of the roster than its own part.

* `Memory.Call`, `runAll` — the five calls, and calls one after another;
* `Roster.changeFirst_split`, `Roster.keepable_iff` — which job a changed roster differs in,
  and which rosters come back as they were;
* `Call.Changes`, `Call.Leaves` — the part of the roster that is a call's own, and the calls
  that have nothing to write;
* `runAll_of_foreign`, `remembers_run` — calls about another server or user do nothing, and
  what one call does to a roster of the settings;
* `memory_of_calls` — the same for a call after any calls.
-/
import BuildDesk.Proofs.Roster.Offered
import BuildDesk.Proofs.Roster.Recency

namespace BuildDesk

namespace Roster

variable {r : Roster} {s : Session} {settings : Settings} {url : String}

/-! ### Rosters that come back as they were -/

/-- A job changed in its place among the others. -/
theorem changeFirst_split {jobs : List Job} {job : Job} (f : Job → Job)
    (h : Job.find? jobs url = some job) :
    ∃ front back, jobs = front ++ job :: back ∧ (∀ other ∈ front, other.url ≠ url) ∧
      job.url = url ∧ changeFirst url f jobs = front ++ f job :: back := by
  induction jobs with
  | nil => cases h
  | cons first rest ih =>
    rw [Job.find?, List.find?_cons] at h
    rw [changeFirst]
    split at h
    · rename_i hfirst
      obtain rfl := Option.some.inj h
      rw [if_pos hfirst]
      exact ⟨[], rest, rfl, List.forall_mem_nil _, beq_iff_eq.mp hfirst, rfl⟩
    · rename_i hfirst
      obtain ⟨front, back, rfl, hfront, hurl, hchanged⟩ := ih h
      rw [hfirst, if_neg Bool.false_ne_true, hchanged]
      refine ⟨first :: front, back, rfl, List.forall_mem_cons.mpr ⟨?_, hfront⟩, hurl, rfl⟩
      exact fun heq => by simp [heq] at hfirst

/-- What the job file keeps as it is: texts that can be encoded, and no full names but texts
with something in them. -/
theorem keepable_iff : r.Keepable ↔ r.Storable ∧ ∀ job ∈ r.jobs, job.IsNamed := by
  refine ⟨fun h => ⟨h.storable, h.named⟩, fun ⟨h, hnamed⟩ => ⟨fun text htext => ?_, hnamed⟩⟩
  refine h.encodable text ?_
  rcases List.mem_append.mp htext with hhead | hrecent
  · rcases List.mem_append.mp hhead with hhead | hjobs
    · exact .inl hhead
    · obtain ⟨job, hjob, htext⟩ := List.mem_flatMap.mp hjobs
      refine .inr (.inl ⟨job, hjob, ?_⟩)
      rcases List.mem_append.mp htext with hhead | hbranch
      · rcases List.mem_append.mp hhead with hhead | hfull
        · rcases List.mem_cons.mp hhead with hname | hurl
          · exact .inl hname
          · exact .inr (.inl (List.mem_singleton.mp hurl))
        · rcases hnamed job hjob with hnone | ⟨full, hproper, hname⟩
          · rw [hnone] at hfull
            cases hfull
          · rw [hname] at hfull
            obtain rfl := List.mem_singleton.mp hfull
            refine .inr (.inr (.inl ⟨?_, hname ▸ .str⟩))
            rw [hname]
            exact bne_iff_ne.mpr hproper
      · exact .inr (.inr (.inr hbranch))
  · exact .inr (.inr hrecent)

theorem Keepable.reread_eq (h : r.Keepable) : r.reread = r :=
  Option.some.inj (Except.ok.inj
    ((ofText?_reread h.storable.shaped).symm.trans (ofText?_document h)))

theorem named_changeBranches (h : ∀ job ∈ r.jobs, job.IsNamed) (g : List String → List String) :
    ∀ job ∈ (changeBranches url g r).jobs, job.IsNamed := by
  intro job hjob
  rcases mem_changeFirst hjob with hjob | ⟨old, hold, rfl⟩
  · exact h job hjob
  · exact h old hold

end Roster

namespace Memory

open Roster (changeBranches useJob)

/-- A call about what the job file remembers. -/
inductive Call
  | branch (call : Branches.Call)
  | use (url : String)
  | history (url : String)
  | recent

/-- What a call gives: a removal says whether there was something to remove, and the calls
that look into the file give what they found. -/
inductive Answer
  | done (removed : Option Bool)
  | branches (names : List String)
  | jobs (found : List RecentJob)

namespace Call

/-- The call on the job file. -/
def run (settings : Settings) : Call → Desk Answer
  | branch call => .done <$> call.run settings
  | use url => do
    Recent.record settings url
    pure (.done none)
  | history url => .branches <$> Branches.history settings url
  | recent => .jobs <$> Recent.load settings

/-- What a call gives when the job file is about another server or user. -/
def idle : Call → Answer
  | branch call => .done call.idle
  | use _ => .done none
  | history _ => .branches []
  | recent => .jobs []

/-- The part of the roster that a call may change: the branches of the first job with its
address, the jobs used lately, or nothing. -/
def Changes (r r' : Roster) : Call → Prop
  | branch call => r' = r ∨ ∃ front job back names, r.jobs = front ++ job :: back ∧
      (∀ other ∈ front, other.url ≠ call.url) ∧ job.url = call.url ∧
      r' = { r with jobs := front ++ { job with branches := names } :: back }
  | use _ => ∃ recent, r' = { r with recent }
  | history _ | recent => r' = r

/-- The call has nothing to write: a name or an address is blank, no job has the address, there
was nothing to remove, or the call only looks into the file. -/
def Leaves (r : Roster) (answer : Except Fault Answer) : Call → Prop
  | branch (.record url name) => Text.trim name = "" ∨ r.find? url = none
  | branch (.forget url _) => r.find? url = none ∨ answer = .ok (.done (some false))
  | use url => Text.trim url = ""
  | history _ | recent => True

end Call

/-- Calls one after another, whatever becomes of them: each with its answer, and the session
that they leave. -/
def runAll (settings : Settings) : List Call → Session →
    List (Call × Except Fault Answer) × Session
  | [], s => ([], s)
  | call :: rest, s =>
    let done := (call.run settings).outcome s
    let others := runAll settings rest done.2
    ((call, done.1) :: others.1, others.2)

variable {settings : Settings} {r r' : Roster} {s s' : Session} {call : Call}

/-! ### A roster of others -/

/-- A call gives what its part of the program gives. -/
theorem outcome_map {α β : Type} (g : α → β) (part : Desk α) (s : Session) :
    (g <$> part).outcome s = match part.outcome s with
      | (.ok a, s₁) => (.ok (g a), s₁)
      | (.error f, s₁) => (.error f, s₁) := by
  rw [← bind_pure_comp, Desk.outcome_bind]
  rfl

section Foreign

variable {found : Option Roster}

theorem outcome_use_of_foreign (h : Roster.ofFolder s.folder = .ok found)
    (hforeign : found.filter (·.belongsTo settings) = none) (url : String) :
    (Recent.record settings url).outcome s = (.ok (), s) := by
  unfold Recent.record
  dsimp only
  split
  · rw [Desk.outcome_bind, Roster.outcome_revise_of_none h hforeign]
    rfl
  · rfl

theorem outcome_branch_of_foreign (h : Roster.ofFolder s.folder = .ok found)
    (hforeign : found.filter (·.belongsTo settings) = none) (call : Branches.Call) :
    (call.run settings).outcome s = (.ok call.idle, s) := by
  cases call with
  | record url branch =>
    have hrecord : (Branches.record settings url branch).outcome s = (.ok (), s) := by
      unfold Branches.record
      dsimp only
      split
      · rw [Desk.outcome_bind, Roster.outcome_revise_of_none h hforeign]
        rfl
      · rfl
    rw [Branches.Call.run, Desk.outcome_bind, hrecord]
    rfl
  | forget url branch =>
    have hforget : (Branches.forget settings url branch).outcome s = (.ok false, s) := by
      unfold Branches.forget
      dsimp only
      split
      · rfl
      · exact Roster.outcome_revise_of_none h hforeign _
    rw [Branches.Call.run, Desk.outcome_bind, hforget]
    rfl

/-- Without a roster of the settings a call does nothing. -/
theorem outcome_run_of_foreign (h : Roster.ofFolder s.folder = .ok found)
    (hforeign : found.filter (·.belongsTo settings) = none) (call : Call) :
    (call.run settings).outcome s = (.ok call.idle, s) := by
  cases call with
  | branch call => rw [Call.run, outcome_map, outcome_branch_of_foreign h hforeign]; rfl
  | use url => rw [Call.run, Desk.outcome_bind, outcome_use_of_foreign h hforeign]; rfl
  | history url =>
    rw [Call.run, outcome_map, Branches.outcome_history, h]
    dsimp only [Except.map, Branches.storedFor]
    rw [hforeign]
    rfl
  | recent =>
    rw [Call.run, outcome_map, Recent.load, Desk.outcome_bind, Roster.outcome_loadFor_of h,
      hforeign]
    rfl

theorem runAll_of_foreign (h : Roster.ofFolder s.folder = .ok found)
    (hforeign : found.filter (·.belongsTo settings) = none) (calls : List Call) :
    runAll settings calls s = (calls.map fun call => (call, .ok call.idle), s) := by
  induction calls with
  | nil => rfl
  | cons call rest ih =>
    rw [runAll, outcome_run_of_foreign h hforeign]
    dsimp only
    rw [ih]
    rfl

end Foreign

/-! ### A roster of the settings -/

/-- The job file is read as the roster, which is one of the settings and comes back as it
is when it is written. -/
structure Remembers (settings : Settings) (r : Roster) (s : Session) : Prop where
  read : r.IsRead s.folder
  keepable : r.Keepable
  ours : r.belongsTo settings = true

namespace Remembers

theorem stands (h : Remembers settings r s) : r.Stands s.folder where
  storable := h.keepable.storable
  reachable := h.read.reachable
  read := (Roster.isRead_iff.mp h.read).2

/-- A changed roster that is written is remembered as it is. -/
theorem kept (h : Remembers settings r s) (hstore : r'.Storable)
    (hnamed : ∀ job ∈ r'.jobs, job.IsNamed) (hours : r'.belongsTo settings = true) :
    Remembers settings r' (r'.kept s) where
  read := by
    have hkeep : r'.Keepable := Roster.keepable_iff.mpr ⟨hstore, hnamed⟩
    have hread := Roster.IsRead.kept h.read.reachable hstore.shaped
    rwa [hkeep.reread_eq] at hread
  keepable := Roster.keepable_iff.mpr ⟨hstore, hnamed⟩
  ours := hours

theorem changeBranches (h : Remembers settings r s) {url : String}
    {g : List String → List String} (hstore : (changeBranches url g r).Storable) :
    Remembers settings (Roster.changeBranches url g r) ((Roster.changeBranches url g r).kept s) :=
  h.kept hstore (Roster.named_changeBranches h.keepable.named g) h.ours

end Remembers

/-- A history that is changed is the one of the first job with the address. -/
theorem changes_branches (call : Branches.Call) {job : Job}
    (hfound : r.find? call.url = some job) (g : List String → List String) :
    (Call.branch call).Changes r (changeBranches call.url g r) := by
  obtain ⟨front, back, hjobs, hfront, hurl, hchanged⟩ :=
    Roster.changeFirst_split (fun job => { job with branches := g job.branches }) hfound
  refine .inr ⟨front, job, back, g job.branches, hjobs, hfront, hurl, ?_⟩
  rw [changeBranches, hchanged]

theorem changes_self (r : Roster) (call : Call) : call.Changes r r := by
  cases call with
  | branch call => exact .inl rfl
  | use url => exact ⟨r.recent, rfl⟩
  | history | recent => exact rfl

/-- What is left of one call: a roster that is remembered, in which no more was changed than the
call's own part, and the same session when there was nothing to write. -/
def Does (settings : Settings) (call : Call) (r : Roster) (s : Session)
    (done : Except Fault Answer × Session) : Prop :=
  ∃ r', Remembers settings r' done.2 ∧ call.Changes r r' ∧ (call.Leaves r done.1 → done.2 = s)

theorem does_nothing (h : Remembers settings r s) (call : Call) (answer : Except Fault Answer) :
    Does settings call r s (answer, s) := ⟨r, h, changes_self r call, fun _ => rfl⟩

theorem does_record (h : Remembers settings r s) (url name : String) :
    Does settings (.branch (.record url name)) r s
      (((Call.branch (.record url name)).run settings).outcome s) := by
  rw [Call.run, outcome_map, Branches.Call.run, Desk.outcome_bind, h.stands.outcome_record h.ours]
  by_cases hidle : Text.trim name = "" ∨ r.find? url = none
  · rw [if_pos hidle]
    exact does_nothing h _ _
  · rw [if_neg hidle]
    obtain ⟨job, hfound⟩ := Option.ne_none_iff_exists'.mp fun hnone => hidle (.inr hnone)
    by_cases henc : Text.isEncodable (Text.trim name) = true
    · rw [if_pos henc]
      refine ⟨_, h.changeBranches (Roster.storable_recorded h.keepable.storable henc),
        changes_branches (.record url name) hfound _, ?_⟩
      exact fun hleaves => absurd hleaves hidle
    · -- a document that cannot be encoded is not written
      rw [if_neg henc]
      exact does_nothing h _ _

theorem does_forget (h : Remembers settings r s) (url name : String) :
    Does settings (.branch (.forget url name)) r s
      (((Call.branch (.forget url name)).run settings).outcome s) := by
  rw [Call.run, outcome_map, Branches.Call.run, Desk.outcome_bind, h.stands.outcome_forget h.ours]
  by_cases hskip : Text.trim name = "" ∨ Branches.isDefault (Text.trim name) = true
  · rw [if_pos hskip]
    exact does_nothing h _ _
  · rw [if_neg hskip]
    by_cases hany : ((r.find? url).any fun job =>
        job.branches.any (Text.sameName · (Text.trim name))) = true
    · rw [if_pos hany]
      obtain ⟨job, hfound, -⟩ := (Option.any_eq_true _ _).mp hany
      refine ⟨_, h.changeBranches (Roster.storable_forgotten h.keepable.storable _),
        changes_branches (.forget url name) hfound _, ?_⟩
      -- the job is known, and the answer is that the branch was removed
      rintro (hnone | hfalse)
      · cases hfound.symm.trans hnone
      · cases hfalse
    · rw [if_neg hany]
      exact does_nothing h _ _

theorem does_use (h : Remembers settings r s) (url : String) :
    Does settings (.use url) r s (((Call.use url).run settings).outcome s) := by
  rw [Call.run, Desk.outcome_bind, h.stands.outcome_recordRecent h.ours]
  by_cases hblank : Text.trim url = ""
  · rw [if_pos hblank]
    exact does_nothing h _ _
  · rw [if_neg hblank]
    by_cases henc : Text.isEncodable (Text.trim url) = true
    · rw [if_pos henc]
      refine ⟨useJob (Text.trim url) r, h.kept ?_ h.keepable.named h.ours, ⟨_, rfl⟩, ?_⟩
      · exact Roster.storable_useJob h.keepable.storable henc
      · exact fun hleaves => absurd hleaves hblank
    · rw [if_neg henc]
      exact does_nothing h _ _

/-- What one call does to a roster of the settings. -/
theorem does_run (h : Remembers settings r s) (call : Call) :
    Does settings call r s ((call.run settings).outcome s) := by
  cases call with
  | branch call =>
    cases call with
    | record url name => exact does_record h url name
    | forget url name => exact does_forget h url name
  | use url => exact does_use h url
  | history url =>
    rw [Call.run, outcome_map, Branches.history_yields h.read h.ours url]
    exact does_nothing h _ _
  | recent =>
    rw [Call.run, outcome_map, Recent.load, Desk.outcome_bind, h.read.outcome_loadFor h.ours]
    exact does_nothing h _ _

/-! ### Any calls -/

/-- The roster without the branches of its jobs and without the jobs used lately. -/
def outline (r : Roster) : Roster :=
  { r with jobs := r.jobs.map ({ · with branches := [] }), recent := [] }

theorem outline_of_changes (h : call.Changes r r') : outline r' = outline r := by
  cases call with
  | branch call =>
    rcases h with rfl | ⟨front, job, back, names, hjobs, -, -, rfl⟩
    · rfl
    · rw [outline, outline, hjobs, List.map_append, List.map_append, List.map_cons, List.map_cons]
  | use url =>
    obtain ⟨recent, rfl⟩ := h
    rfl
  | history | recent => rw [show r' = r from h]

/-- After any calls a roster of the settings is remembered, with the same outline. -/
theorem remembers_runAll (h : Remembers settings r s) (calls : List Call) :
    ∃ r', Remembers settings r' (runAll settings calls s).2 ∧ outline r' = outline r := by
  induction calls generalizing r s with
  | nil => exact ⟨r, h, rfl⟩
  | cons call rest ih =>
    obtain ⟨r₁, h₁, hchanges, -⟩ := does_run h call
    obtain ⟨r', h', houtline⟩ := ih h₁
    exact ⟨r', h', houtline.trans (outline_of_changes hchanges)⟩

theorem Remembers.load_yields (h : Remembers settings r s) :
    Roster.load.Yields s (some r) s := Roster.load_yields.mpr ⟨h.read, rfl⟩

/-- **What calls leave alone in the job file.**  Let the job file be read as a roster whose full
names are missing or texts, and whose texts can be encoded.  When it is about another server or
another user, any calls leave everything as it is, and find nothing.  When it is about the
settings, then after any calls a roster is read with the same server, user and time and the same
jobs, but for their branches and the jobs used lately, and each further call changes of it no
more than its own part: a call about a branch the branches of the first job with its address,
the use of a job the jobs used lately, and looking into the file nothing.  A call that has
nothing to write leaves the file alone. -/
theorem memory_of_calls (settings : Settings) {r : Roster} {s : Session}
    (hload : Roster.load.Yields s (some r) s) (hr : r.Keepable) (calls : List Call) :
    (r.belongsTo settings = false →
      runAll settings calls s = (calls.map fun call => (call, .ok call.idle), s)) ∧
    (r.belongsTo settings = true → ∀ call : Call,
      let s₁ := (runAll settings calls s).2
      let done := (call.run settings).outcome s₁
      ∃ r₁ r₂, Roster.load.Yields s₁ (some r₁) s₁ ∧ outline r₁ = outline r ∧
        Roster.load.Yields done.2 (some r₂) done.2 ∧ call.Changes r₁ r₂ ∧
        (call.Leaves r₁ done.1 → done.2 = s₁)) := by
  have hread : r.IsRead s.folder := (Roster.load_yields.mp hload).1
  refine ⟨fun hforeign => ?_, fun hours call => ?_⟩
  · refine runAll_of_foreign hread ?_ calls
    rw [Option.filter_some, hforeign, if_neg Bool.false_ne_true]
  · obtain ⟨r₁, h₁, houtline⟩ := remembers_runAll ⟨hread, hr, hours⟩ calls
    obtain ⟨r₂, h₂, hchanges, hleaves⟩ := does_run h₁ call
    exact ⟨r₁, r₂, h₁.load_yields, houtline, h₂.load_yields, hchanges, hleaves⟩

/-- Calls about the job of the sample, another address and a job that was used. -/
def sampleCalls : List Call :=
  [.branch (.record "u" " dev "), .use "v", .branch (.forget "u" "MAIN"), .recent]

/-- Another user finds nothing in the job file and leaves it alone.  The user of the roster uses
a job once more, which changes nothing but the jobs used lately, and recording a blank name
then leaves the file alone. -/
theorem memory_of_sample :
    let s := Roster.sample.kept {}
    let s₁ := (runAll Roster.someSettings sampleCalls s).2
    Roster.load.Yields s (some Roster.sample) s ∧ Roster.sample.Keepable ∧
      runAll { Roster.someSettings with user := "lee" } sampleCalls s =
        (sampleCalls.map fun call => (call, .ok call.idle), s) ∧
      (∃ r₁ r₂ recent, Roster.load.Yields s₁ (some r₁) s₁ ∧ outline r₁ = outline Roster.sample ∧
        Roster.load.Yields (((Call.use "v").run Roster.someSettings).outcome s₁).2 (some r₂)
          (((Call.use "v").run Roster.someSettings).outcome s₁).2 ∧
        r₂ = { r₁ with recent }) ∧
      (((Call.branch (.record "u" " ")).run Roster.someSettings).outcome s₁).2 = s₁ := by
  intro s s₁
  have hload := Roster.roundTrip_sample.2
  obtain ⟨hforeign, -⟩ := memory_of_calls { Roster.someSettings with user := "lee" } hload
    Roster.keepable_sample sampleCalls
  obtain ⟨-, hours⟩ := memory_of_calls Roster.someSettings hload Roster.keepable_sample sampleCalls
  obtain ⟨r₁, r₂, hload₁, houtline, hload₂, ⟨recent, hchanges⟩, -⟩ := hours rfl (.use "v")
  obtain ⟨_, _, -, -, -, -, hleaves⟩ := hours rfl (.branch (.record "u" " "))
  exact ⟨hload, Roster.keepable_sample, hforeign rfl,
    ⟨r₁, r₂, recent, hload₁, houtline, hload₂, hchanges⟩, hleaves (.inl (by decide))⟩

end Memory
end BuildDesk
