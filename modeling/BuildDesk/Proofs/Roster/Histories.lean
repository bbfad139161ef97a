/-
The branches that the job file remembers for each job.

A history is a list of names to the front of which a name moves when it is recorded.  This
file says what the histories in a job file are after any calls that record and forget
branches, for jobs that are known and jobs that are not: each history is what the calls for
its own job make of an empty one, as if there were no file and no other jobs.

* `Call`, `runAll` — the calls, made one after another on the job file;
* `Call.on`, `historyAfter`, `answersTo` — the reference: what calls make of one history,
  and what they report;
* `answers_run` — one call on the file does what the reference says;
* `histories_of_calls` — so do any number of calls;
* `historyAfter_of_records` — without removals a history holds the ten names recorded
  latest.

The reference leaves open which names can be written.  For a job file these are the names
without half of a surrogate pair: recording another one is refused, and the file stays as it
is (`not_recorded_unwritable`).
-/
import BuildDesk.Proofs.Roster.Change

namespace BuildDesk.Branches

/-- A call that records a branch for the job with an address, or forgets it. -/
inductive Call
  | record (url branch : String)
  | forget (url branch : String)

/-- What becomes of a call: a recording reports nothing, a removal whether the branch was
there. -/
abbrev Answer := Except Fault (Option Bool)

/-- What recording a name makes of a history, and what it reports: the name moves to the
front, every other spelling of it goes, and ten names are kept.  A name of which `writable`
is not true is refused. -/
def recordIn (writable : String → Bool) (name : String) (history : List String) :
    List String × Answer :=
  if name = "" then (history, .ok none)
  else if writable name then
    ((name :: history.filter fun b => Text.lower b != Text.lower name).take 10, .ok none)
  else (history, .error .notEncodable)

/-- What forgetting a name makes of a history, and what it reports: every spelling of it
goes, if there are any. -/
def forgetIn (name : String) (history : List String) : List String × Answer :=
  if name = "" then (history, .ok (some false))
  else
    (history.filter fun b => Text.lower b != Text.lower name,
      .ok (some (history.any fun b => Text.lower b == Text.lower name)))

namespace Call

/-- The address of the job that the call is about. -/
def url : Call → String
  | record url _ => url
  | forget url _ => url

/-- The call records a branch. -/
def IsRecord : Call → Prop
  | record .. => True
  | forget .. => False

/-- The call does not record one of the branches that are offered anyway. -/
def IsOwn : Call → Prop
  | record _ branch => isDefault (Text.trim branch) = false
  | forget .. => True

instance (call : Call) : Decidable call.IsOwn :=
  match call with
  | record _ branch => inferInstanceAs (Decidable (isDefault (Text.trim branch) = false))
  | forget .. => isTrue trivial

/-- The call on the job file. -/
def run (settings : Settings) : Call → Desk (Option Bool)
  | record url branch => do
    Branches.record settings url branch
    pure none
  | forget url branch => do
    let removed ← Branches.forget settings url branch
    pure (some removed)

/-- What a call reports that finds nothing to do. -/
def idle : Call → Option Bool
  | record .. => none
  | forget .. => some false

/-- What a call makes of the history of its job, and what it reports. -/
def on (writable : String → Bool) (history : List String) : Call → List String × Answer
  | record _ branch => recordIn writable (Text.trim branch) history
  | forget _ branch => forgetIn (Text.trim branch) history

/-- The name that a call records, if it records one. -/
def recorded? (writable : String → Bool) : Call → Option String
  | record _ branch =>
    if Text.trim branch ≠ "" ∧ writable (Text.trim branch) then some (Text.trim branch) else none
  | forget .. => none

end Call

/-- Calls made one after another on the job file, whatever becomes of them: the session that
they leave, and each call with its answer. -/
def runAll (settings : Settings) : List Call → Session → Session × List (Call × Answer)
  | [], s => (s, [])
  | call :: rest, s =>
    let done := (call.run settings).outcome s
    let others := runAll settings rest done.2
    (others.1, (call, done.1) :: others.2)

/-- A history after calls for its job. -/
def historyAfter (writable : String → Bool) (history : List String) (calls : List Call) :
    List String :=
  calls.foldl (fun history call => (call.on writable history).1) history

/-- What calls for one job report. -/
def answersTo (writable : String → Bool) : List String → List Call → List Answer
  | _, [] => []
  | history, call :: rest =>
    (call.on writable history).2 :: answersTo writable (call.on writable history).1 rest

/-- The calls for the job with an address. -/
def callsFor (url : String) (calls : List Call) : List Call := calls.filter (·.url == url)

/-- The answers to the calls for the job with an address. -/
def answersFor (url : String) (log : List (Call × Answer)) : List Answer :=
  (log.filter (·.1.url == url)).map (·.2)

/-! ### One history -/

/-- What a history holds: tidy names, none of them offered anyway. -/
structure IsHistory (names : List String) : Prop where
  tidy : Text.IsTidy names
  own : ∀ name ∈ names, isDefault name = false

theorem isHistory_nil : IsHistory [] := ⟨Text.isTidy_nil, List.forall_mem_nil _⟩

theorem isDefault_congr {a b : String} (h : Text.lower a = Text.lower b) :
    isDefault a = isDefault b := by
  rw [isDefault, isDefault, h]

variable {writable : String → Bool} {name : String} {history : List String} {call : Call}

theorem recordIn_blank : recordIn writable "" history = (history, .ok none) := rfl

theorem recordIn_of_writable (hname : name ≠ "") (h : writable name = true) :
    recordIn writable name history = ((name :: Text.without name history).take 10, .ok none) := by
  rw [recordIn, if_neg hname, if_pos h]
  rfl

theorem recordIn_of_unwritable (hname : name ≠ "") (h : ¬ writable name = true) :
    recordIn writable name history = (history, .error .notEncodable) := by
  rw [recordIn, if_neg hname, if_neg h]

theorem forgetIn_blank : forgetIn "" history = (history, .ok (some false)) := rfl

theorem forgetIn_of_proper (hname : name ≠ "") : forgetIn name history
    = (Text.without name history, .ok (some (history.any (Text.sameName · name)))) :=
  if_neg hname

theorem IsHistory.without (h : IsHistory history) (name : String) :
    IsHistory (Text.without name history) :=
  ⟨h.tidy.without name, fun b hb => h.own b (Text.mem_without.mp hb).1⟩

/-- A property of histories is kept by recording a name when it is kept by moving the name to
the front. -/
theorem recordIn_keeps {P : List String → Prop} (h : P history)
    (hfront : name ≠ "" → P ((name :: Text.without name history).take 10)) :
    P (recordIn writable name history).1 := by
  by_cases hname : name = ""
  · rw [hname, recordIn_blank]
    exact h
  · by_cases hwritable : writable name = true
    · rw [recordIn_of_writable hname hwritable]
      exact hfront hname
    · rw [recordIn_of_unwritable hname hwritable]
      exact h

theorem IsHistory.record (h : IsHistory history) (htrim : Text.trim name = name)
    (hown : isDefault name = false) : IsHistory (recordIn writable name history).1 := by
  refine recordIn_keeps h fun hname => ⟨h.tidy.toFront htrim hname 10, fun b hb => ?_⟩
  rcases List.mem_cons.mp (List.mem_of_mem_take hb) with rfl | hb
  · exact hown
  · exact (h.without name).own b hb

theorem IsHistory.forget (h : IsHistory history) (name : String) :
    IsHistory (forgetIn name history).1 := by
  by_cases hname : name = ""
  · rw [hname, forgetIn_blank]
    exact h
  · rw [forgetIn_of_proper hname]
    exact h.without name

theorem IsHistory.on (h : IsHistory history) (hcall : call.IsOwn) :
    IsHistory (call.on writable history).1 := by
  cases call with
  | record url branch => exact h.record (Text.trim_trim branch) hcall
  | forget url branch => exact h.forget _

/-- A tidy history has nothing to be cleaned. -/
theorem cleaned_eq (h : Text.IsTidy history) : cleaned history = history := by
  rw [cleaned, h.map_trim, h.filter_proper]

theorem push_eq (h : Text.IsTidy history) (name : String) :
    push name history = (name :: Text.without name history).take 10 := by
  rw [push, cleaned_eq h]
  rfl

/-- No name that is offered anyway is found in a history. -/
theorem IsHistory.any_default (h : IsHistory history) {name : String}
    (hname : isDefault name = true) : history.any (Text.sameName · name) = false := by
  rw [List.any_eq_false]
  intro b hb hsame
  rw [isDefault_congr (Text.sameName_iff.mp hsame).symm, h.own b hb] at hname
  cases hname

/-- Without removals a history holds the ten names that were recorded latest. -/
theorem historyAfter_of_records {calls : List Call} (h : ∀ call ∈ calls, call.IsRecord)
    (mentions : List String) : historyAfter writable (Text.latest 10 mentions) calls
      = Text.latest 10 (mentions ++ calls.filterMap (Call.recorded? writable)) := by
  -- the mentions so far are left open: every recording adds one to them
  induction calls generalizing mentions with
  | nil => rw [List.filterMap_nil, List.append_nil]; rfl
  | cons call rest ih =>
    have hrest := ih fun call hcall => h call (List.mem_cons_of_mem _ hcall)
    cases call with
    | forget url branch => exact (h _ List.mem_cons_self).elim
    | record url branch =>
      rw [historyAfter, List.foldl_cons, ← historyAfter]
      by_cases hname : Text.trim branch ≠ "" ∧ writable (Text.trim branch) = true
      · have hstep : (Call.on writable (Text.latest 10 mentions) (.record url branch)).1
            = Text.latest 10 (mentions ++ [Text.trim branch]) := by
          rw [Text.latest_concat, Call.on, recordIn_of_writable hname.1 hname.2]
        have hrecorded : Call.recorded? writable (.record url branch) = some (Text.trim branch) :=
          if_pos hname
        rw [hstep, hrest, List.filterMap_cons_some hrecorded, List.append_assoc,
          List.singleton_append]
      · have hstep : (Call.on writable (Text.latest 10 mentions) (.record url branch)).1
            = Text.latest 10 mentions := by
          rw [Call.on]
          by_cases hblank : Text.trim branch = ""
          · rw [hblank, recordIn_blank]
          · rw [recordIn_of_unwritable hblank fun h => hname ⟨hblank, h⟩]
        have hrecorded : Call.recorded? writable (.record url branch) = none := if_neg hname
        rw [hstep, hrest, List.filterMap_cons_none hrecorded]

/-! ### One call on the job file -/

/-- The histories of jobs, by their addresses. -/
abbrev Histories := String → Option (List String)

/-- Every history has the property. -/
def Each (P : List String → Prop) (h : Histories) : Prop :=
  ∀ url history, h url = some history → P history

/-- The histories are those of tidy names. -/
def AreHistories (h : Histories) : Prop := ∀ url history, h url = some history → IsHistory history

/-- The histories after a call. -/
def Call.after (call : Call) (h : Histories) : Histories := fun url => (h url).map fun history =>
  if url = call.url then (call.on Text.isEncodable history).1 else history

/-- What a call reports about histories. -/
def Call.answer (call : Call) (h : Histories) : Answer :=
  match h call.url with
  | none => .ok call.idle
  | some history => (call.on Text.isEncodable history).2

theorem Each.after {P : List String → Prop} {h : Histories} (hall : Each P h)
    (hkept : ∀ history, P history → P (call.on Text.isEncodable history).1) :
    Each P (call.after h) := by
  intro url history hhistory
  obtain ⟨old, hold, rfl⟩ := Option.map_eq_some_iff.mp hhistory
  split
  · exact hkept old (hall url old hold)
  · exact hall url old hold

section OnFile

variable {settings : Settings} {r : Roster} {s : Session}

/-- A call has an answer and leaves a roster of the settings in the job file; the answer and
the histories are as `call` says for the roster `r` from before. -/
def Answers (settings : Settings) (call : Call) (r : Roster) (done : Answer × Session) : Prop :=
  done.1 = call.answer r.history? ∧ ∃ r' : Roster, r'.Stands done.2.folder
    ∧ r'.belongsTo settings = true ∧ r'.history? = call.after r.history?

/-- A call that does nothing to the history found may leave the file alone. -/
theorem answers_unchanged (h : r.Stands s.folder) (hours : r.belongsTo settings = true)
    {answer : Answer} (hnone : r.history? call.url = none → answer = .ok call.idle)
    (hsome : ∀ history, r.history? call.url = some history →
      call.on Text.isEncodable history = (history, answer)) :
    Answers settings call r (answer, s) := by
  refine ⟨?_, r, h, hours, funext fun url => ?_⟩
  · rw [Call.answer]
    rcases hfound : r.history? call.url with _ | history
    · exact hnone hfound
    · dsimp only
      rw [hsome history hfound]
  · rw [Call.after]
    rcases hfound : r.history? url with _ | history
    · rfl
    · by_cases hurl : url = call.url
      · rw [Option.map_some, if_pos hurl, hsome history (hurl ▸ hfound)]
      · rw [Option.map_some, if_neg hurl]

/-- A call that changes the history found writes the changed roster. -/
theorem answers_changed (h : r.Stands s.folder) (hours : r.belongsTo settings = true)
    {answer : Answer} {history : List String} (hfound : r.history? call.url = some history)
    {g : List String → List String} (hstore : (Roster.changeBranches call.url g r).Storable)
    (hon : call.on Text.isEncodable history = (g history, answer)) :
    Answers settings call r (answer, (Roster.changeBranches call.url g r).kept s) := by
  refine ⟨?_, _, .kept h.reachable hstore, hours, ?_⟩
  · rw [Call.answer, hfound]
    dsimp only
    rw [hon]
  · funext url
    rw [Roster.history?_reread, Roster.history?_changeBranches, Call.after]
    by_cases hurl : url = call.url
    · rw [hurl, hfound, Option.map_some, Option.map_some, if_pos rfl, if_pos rfl, hon]
    · simp only [if_neg hurl]

/-- Recording a branch on the job file does what the reference says. -/
theorem answers_record (h : r.Stands s.folder) (hours : r.belongsTo settings = true)
    (htidy : Each Text.IsTidy r.history?) (url branch : String) :
    Answers settings (.record url branch) r
      (((Call.record url branch).run settings).outcome s) := by
  rw [Call.run, Desk.outcome_bind, h.outcome_record hours]
  by_cases hblank : Text.trim branch = ""
  · rw [if_pos (.inl hblank)]
    refine answers_unchanged h hours (fun _ => rfl) fun history _ => ?_
    rw [Call.on, hblank, recordIn_blank]
  · rcases hfound : r.find? url with _ | job
    · have hnone : r.history? url = none := Roster.history?_eq_none.mpr hfound
      rw [if_pos (.inr rfl)]
      refine answers_unchanged h hours (fun _ => rfl) fun history hhistory => ?_
      cases hnone.symm.trans hhistory
    · have hsome : r.history? url = some job.branches := Roster.history?_of_find? hfound
      rw [if_neg (by simp [hblank])]
      by_cases henc : Text.isEncodable (Text.trim branch) = true
      · -- the file cleans the history first, and a tidy one is clean
        rw [if_pos henc]
        refine answers_changed h hours (show r.history? (Call.record url branch).url = _ from hsome)
          (Roster.storable_recorded h.storable henc) ?_
        rw [Call.on, recordIn_of_writable hblank henc, push_eq (htidy url _ hsome)]
      · rw [if_neg henc]
        refine answers_unchanged h hours (fun hnone => ?_) fun history _ => ?_
        · cases hsome.symm.trans hnone
        · rw [Call.on, recordIn_of_unwritable hblank henc]

/-- Forgetting a branch on the job file does what the reference says. -/
theorem answers_forget (h : r.Stands s.folder) (hours : r.belongsTo settings = true)
    (htidy : AreHistories r.history?) (url branch : String) :
    Answers settings (.forget url branch) r
      (((Call.forget url branch).run settings).outcome s) := by
  rw [Call.run, Desk.outcome_bind, h.outcome_forget hours]
  by_cases hblank : Text.trim branch = ""
  · rw [if_pos (.inl hblank)]
    refine answers_unchanged h hours (fun _ => rfl) fun history _ => ?_
    rw [Call.on, hblank, forgetIn_blank]
  · -- the histories have no default branch, so the guard against removing one is idle
    have hunchanged : ∀ history : List String,
        history.any (Text.sameName · (Text.trim branch)) = false →
        Call.on Text.isEncodable history (.forget url branch) = (history, .ok (some false)) := by
      intro history hany
      have hall : ∀ b ∈ history, Text.lower b ≠ Text.lower (Text.trim branch) := by
        intro b hb heq
        exact List.any_eq_false.mp hany b hb (Text.sameName_iff.mpr heq)
      rw [Call.on, forgetIn_of_proper hblank, hany, Text.without_of_forall hall]
    by_cases hdefault : isDefault (Text.trim branch) = true
    · rw [if_pos (.inr hdefault)]
      refine answers_unchanged h hours (fun _ => rfl) fun history hhistory => ?_
      exact hunchanged history ((htidy url history hhistory).any_default hdefault)
    · rw [if_neg (by simp [hblank, hdefault])]
      rcases hfound : r.find? url with _ | job
      · have hnone : r.history? url = none := Roster.history?_eq_none.mpr hfound
        refine answers_unchanged h hours (fun _ => rfl) fun history hhistory => ?_
        cases hnone.symm.trans hhistory
      · have hsome : r.history? url = some job.branches := Roster.history?_of_find? hfound
        cases hany : job.branches.any (Text.sameName · (Text.trim branch)) with
        | false =>
          rw [Option.any_some, hany]
          refine answers_unchanged h hours (fun _ => rfl) fun history hhistory => ?_
          obtain rfl := Option.some.inj (hsome.symm.trans hhistory)
          exact hunchanged job.branches hany
        | true =>
          rw [Option.any_some, hany]
          refine answers_changed h hours
            (show r.history? (Call.forget url branch).url = _ from hsome)
            (Roster.storable_forgotten h.storable _) ?_
          rw [Call.on, forgetIn_of_proper hblank, hany]

/-- One call on the job file does what the reference says. -/
theorem answers_run (h : r.Stands s.folder) (hours : r.belongsTo settings = true)
    (htidy : AreHistories r.history?) (call : Call) :
    Answers settings call r ((call.run settings).outcome s) := by
  cases call with
  | record url branch =>
    exact answers_record h hours (fun url history hfound => (htidy url history hfound).tidy) url
      branch
  | forget url branch => exact answers_forget h hours htidy url branch

/-! ### Any calls -/

/-- For one job, the history `before` has become what the calls for that job make of it, and
the log has the answers to them.  Calls for a job that is not known do nothing. -/
def Follows (before after : Option (List String)) (calls : List Call) (log : List (Call × Answer))
    (url : String) : Prop :=
  (before = none →
    after = none ∧ ∀ done ∈ log, done.1.url = url → done.2 = .ok done.1.idle)
  ∧ ∀ history, before = some history →
    after = some (historyAfter Text.isEncodable history (callsFor url calls))
    ∧ answersFor url log = answersTo Text.isEncodable history (callsFor url calls)

theorem follows_nil (history : Option (List String)) (url : String) :
    Follows history history [] [] url :=
  ⟨fun h => ⟨h, List.forall_mem_nil _⟩, fun _ h => ⟨h, rfl⟩⟩

/-- One call goes before others. -/
theorem Follows.cons {h : Histories} {after : Option (List String)} {calls : List Call}
    {log : List (Call × Answer)} {url : String}
    (hrest : Follows (call.after h url) after calls log url) :
    Follows (h url) after (call :: calls) ((call, call.answer h) :: log) url := by
  by_cases hurl : call.url = url
  · -- the call is for this job, whose history it changes before the others do
    have hcalls : callsFor url (call :: calls) = call :: callsFor url calls := by
      simp [callsFor, hurl]
    have hlog : answersFor url ((call, call.answer h) :: log)
        = call.answer h :: answersFor url log := by
      simp [answersFor, hurl]
    refine ⟨fun hnone => ?_, fun history hhistory => ?_⟩
    · obtain ⟨hgone, hlater⟩ := hrest.1 (by rw [Call.after, hnone]; rfl)
      refine ⟨hgone, List.forall_mem_cons.mpr ⟨fun _ => ?_, hlater⟩⟩
      show call.answer h = _
      rw [Call.answer, hurl, hnone]
    · have hchanged : call.after h url = some (call.on Text.isEncodable history).1 := by
        rw [Call.after, hhistory, Option.map_some, if_pos hurl.symm]
      obtain ⟨hfound, hanswers⟩ := hrest.2 _ hchanged
      rw [hcalls, hlog, hanswers, answersTo]
      refine ⟨hfound, ?_⟩
      rw [Call.answer, hurl, hhistory]
  · -- the call is for another job, so this history is as before
    have hcalls : callsFor url (call :: calls) = callsFor url calls := by
      simp [callsFor, hurl]
    have hlog : answersFor url ((call, call.answer h) :: log) = answersFor url log := by
      simp [answersFor, hurl]
    have hsame : call.after h url = h url := by
      rw [Call.after]
      simp only [if_neg (Ne.symm hurl), Option.map_id']
    rw [hsame] at hrest
    refine ⟨fun hnone => ?_, fun history hhistory => ?_⟩
    · obtain ⟨hgone, hlater⟩ := hrest.1 hnone
      exact ⟨hgone, List.forall_mem_cons.mpr ⟨fun heq => absurd heq hurl, hlater⟩⟩
    · rw [hcalls, hlog]
      exact hrest.2 history hhistory

/-- Calls on the job file do what the reference says, for each job apart, when each of them does
and a property of the histories that is needed for it is kept. -/
theorem follows_of_kept {P : List String → Prop} {calls : List Call} (h : r.Stands s.folder)
    (hours : r.belongsTo settings = true) (hall : Each P r.history?)
    (hanswers : ∀ call ∈ calls, ∀ (r : Roster) (s : Session), r.Stands s.folder →
      r.belongsTo settings = true → Each P r.history? →
      Answers settings call r ((call.run settings).outcome s))
    (hkept : ∀ call ∈ calls, ∀ history, P history → P (call.on Text.isEncodable history).1) :
    ∃ r' : Roster, r'.Stands (runAll settings calls s).1.folder ∧ r'.belongsTo settings = true
      ∧ Each P r'.history? ∧ ∀ url,
        Follows (r.history? url) (r'.history? url) calls (runAll settings calls s).2 url := by
  -- a call leaves another roster in another session, of which the same is known
  induction calls generalizing r s with
  | nil => exact ⟨r, h, hours, hall, fun url => follows_nil _ url⟩
  | cons call rest ih =>
    obtain ⟨hanswersCall, hanswersRest⟩ := List.forall_mem_cons.mp hanswers
    obtain ⟨hkeptCall, hkeptRest⟩ := List.forall_mem_cons.mp hkept
    obtain ⟨hanswer, r₁, hstands, hours', hhistories⟩ := hanswersCall r s h hours hall
    have hall' : Each P r₁.history? := hhistories ▸ hall.after hkeptCall
    obtain ⟨r', hstands', hours'', hall'', hfollows⟩ :=
      ih hstands hours' hall' hanswersRest hkeptRest
    refine ⟨r', hstands', hours'', hall'', fun url => ?_⟩
    have hlater := hfollows url
    rw [hhistories] at hlater
    rw [runAll, hanswer]
    exact hlater.cons

theorem follows_runAll {calls : List Call} (h : r.Stands s.folder)
    (hours : r.belongsTo settings = true) (htidy : AreHistories r.history?)
    (hcalls : ∀ call ∈ calls, call.IsOwn) :
    ∃ r' : Roster, r'.Stands (runAll settings calls s).1.folder ∧ AreHistories r'.history?
      ∧ ∀ url, Follows (r.history? url) (r'.history? url) calls
        (runAll settings calls s).2 url := by
  obtain ⟨r', hstands, -, htidy', hfollows⟩ := follows_of_kept h hours htidy
    (fun call _ _ _ hr hrs htidy => answers_run hr hrs htidy call)
    (fun call hcall history hhistory => hhistory.on (hcalls call hcall))
  exact ⟨r', hstands, htidy', hfollows⟩

end OnFile

/-- **The histories in the job file.**  Let the job file hold a fresh roster without a
history, and let any calls follow that record branches which are not offered anyway, or that
forget branches.  Then the job file holds a roster in which each job known has the history
that the calls for it alone make of an empty one, and these calls are answered accordingly;
calls for a job that is not known do nothing.  The names of a history are trimmed, not
empty, and no two of them are the same up to case.  When the calls for a job only record,
its history has the ten names that were recorded latest, each as it was spelled last.

A name with half of a surrogate pair is refused, so it counts as not recorded. -/
theorem histories_of_calls {settings : Settings} {now : Int} {jobs : List Job} {r : Roster}
    (hfresh : Roster.fresh settings now jobs = .ok r)
    (hshaped : ∀ job ∈ jobs, job.IsShaped) (hnone : ∀ job ∈ jobs, job.branches = [])
    {s₀ s : Session} (hsaved : (Roster.save r).Yields s₀ () s)
    {calls : List Call} (hcalls : ∀ call ∈ calls, call.IsOwn) :
    ∃ r', Roster.load.Yields (runAll settings calls s).1 (some r') (runAll settings calls s).1
      ∧ (∀ url, r.find? url = none → r'.find? url = none
        ∧ ∀ done ∈ (runAll settings calls s).2, done.1.url = url → done.2 = .ok done.1.idle)
      ∧ ∀ url job, r.find? url = some job → ∃ job', r'.find? url = some job'
        ∧ job'.branches = historyAfter Text.isEncodable [] (callsFor url calls)
        ∧ answersFor url (runAll settings calls s).2
          = answersTo Text.isEncodable [] (callsFor url calls)
        ∧ (job'.branches.map Text.lower).Nodup
        ∧ (∀ name ∈ job'.branches, Text.trim name = name ∧ name ≠ "")
        ∧ ((∀ call ∈ callsFor url calls, call.IsRecord) → job'.branches = Text.latest 10
          ((callsFor url calls).filterMap (Call.recorded? Text.isEncodable))) := by
  obtain ⟨stamp, rfl⟩ := Roster.fresh_eq hfresh
  have hstands := Roster.stands_of_save hshaped hsaved
  have hbranches : ∀ url job, Job.find? jobs url = some job → job.branches = [] :=
    fun url job h => hnone job (List.mem_of_find?_eq_some h)
  have htidy : AreHistories (Roster.history? ⟨settings.url, settings.user, stamp, jobs, []⟩) := by
    intro url history hhistory
    obtain ⟨job, hjob, rfl⟩ := Option.map_eq_some_iff.mp hhistory
    rw [hbranches url job hjob]
    exact isHistory_nil
  rw [← Roster.history?_reread] at htidy
  obtain ⟨r', hstands', htidy', hfollows⟩ :=
    follows_runAll hstands (Roster.belongsTo_self settings stamp _ _) htidy hcalls
  rw [Roster.history?_reread] at hfollows
  refine ⟨r', hstands'.outcome_load, fun url hunknown => ?_, fun url job hjob => ?_⟩
  · obtain ⟨hgone, hidle⟩ := (hfollows url).1 (Roster.history?_eq_none.mpr hunknown)
    exact ⟨Roster.history?_eq_none.mp hgone, hidle⟩
  · have hempty := Roster.history?_of_find? hjob
    rw [hbranches url job hjob] at hempty
    obtain ⟨hhistory, hanswers⟩ := (hfollows url).2 _ hempty
    obtain ⟨job', hjob', hkept⟩ := Option.map_eq_some_iff.mp hhistory
    have hproper : IsHistory job'.branches := htidy' url _ (Roster.history?_of_find? hjob')
    refine ⟨job', hjob', hkept, hanswers, hproper.tidy.nodup, fun name hname => ?_,
      fun hrecords => ?_⟩
    · exact ⟨hproper.tidy.trimmed name hname, hproper.tidy.proper name hname⟩
    · exact hkept.trans (historyAfter_of_records hrecords [])

/-! ### Calls about one job -/

/-- Two spellings are recorded, and another name comes and goes. -/
theorem histories_of_two_spellings :
    let calls := [Call.record "u" " Main ", .record "v" "x", .record "u" "dev",
      .record "u" "main", .forget "u" "DEV"]
    let left := runAll Roster.someSettings calls (Roster.oneJob.kept {})
    (∀ call ∈ calls, call.IsOwn)
      ∧ (∃ r', Roster.load.Yields left.1 (some r') left.1
        ∧ ∃ job, r'.find? "u" = some job ∧ job.branches = ["main"])
      ∧ answersFor "u" left.2 = [.ok none, .ok none, .ok none, .ok (some true)] := by
  intro calls left
  have hcalls : ∀ call ∈ calls, call.IsOwn := by decide
  obtain ⟨r', hload, -, hknown⟩ := histories_of_calls Roster.fresh_oneJob
    Roster.isShaped_oneJob (List.forall_mem_cons.mpr ⟨rfl, List.forall_mem_nil _⟩)
    Roster.save_oneJob hcalls
  obtain ⟨job, hjob, hbranches, hanswers, -⟩ := hknown "u" _ rfl
  refine ⟨hcalls, ⟨r', hload, job, hjob, hbranches.trans ?_⟩, hanswers.trans ?_⟩
  · decide
  · rfl

/-- If every name could be written, recording this one would put it into the history.  The
job file refuses it, and the history stays empty. -/
theorem not_recorded_unwritable :
    let calls := [Call.record "u" Text.loneHalf]
    let left := runAll Roster.someSettings calls (Roster.oneJob.kept {})
    Roster.fresh Roster.someSettings 0 Roster.oneJob.jobs = .ok Roster.oneJob
      ∧ (Roster.save Roster.oneJob).Yields {} () (Roster.oneJob.kept {})
      ∧ (∀ call ∈ calls, call.IsOwn)
      ∧ historyAfter (fun _ => true) [] (callsFor "u" calls) = [Text.loneHalf]
      ∧ answersFor "u" left.2 = [.error .notEncodable]
      ∧ ∃ r', Roster.load.Yields left.1 (some r') left.1
        ∧ ∃ job, r'.find? "u" = some job ∧ job.branches = [] := by
  intro calls left
  have hcalls : ∀ call ∈ calls, call.IsOwn := by decide
  have htidy : AreHistories Roster.oneJob.history? := by
    intro url history hhistory
    obtain ⟨job, hjob, rfl⟩ := Option.map_eq_some_iff.mp hhistory
    have hmem : job ∈ Roster.oneJob.jobs :=
      List.mem_of_find?_eq_some (show Roster.oneJob.jobs.find? (·.url == url) = some job from hjob)
    rw [List.mem_singleton.mp hmem]
    exact isHistory_nil
  have hours : Roster.oneJob.belongsTo Roster.someSettings = true := rfl
  obtain ⟨r', hstands', -, hfollows⟩ := follows_runAll Roster.stands_oneJob hours htidy hcalls
  obtain ⟨hhistory, hanswers⟩ := (hfollows "u").2 [] rfl
  obtain ⟨job, hjob, hkept⟩ := Option.map_eq_some_iff.mp hhistory
  refine ⟨Roster.fresh_oneJob, Roster.save_oneJob, hcalls, by decide, hanswers.trans ?_, r',
    hstands'.outcome_load, job, hjob, hkept.trans ?_⟩
  · rfl
  · decide

end BuildDesk.Branches
