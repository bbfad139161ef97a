/-
Runs where nobody can be asked.

Without a way to ask, a command shows no prompt.  Most commands do no more than look then, and the
others post one request at most:

* `IsLook`, `Silent` — requests that read and list nothing, and courses without prompts;
* `Once` — a course with one post of a kind, or with none when the run fails;
* `courses_place`, `courses_cancelAlone` — the parts that post;
* `Wish.Unsettled` — the job is not given, or it is searched for and not found, or several are;
* `unattended_runs` — the commands.
-/
import BuildDesk.Proofs.Command.Stopping

namespace BuildDesk.Command

open Desk Console BuildDesk.Flow Moment

variable {α β : Type} {server : Server} {wish : Wish}

/-! ### Silent courses -/

/-- The request reads, and does not list the jobs. -/
def IsLook (r : Request) : Prop := r.method = "GET" ∧ isListing r = false

/-- The request reads. -/
def IsGet (r : Request) : Prop := r.method = "GET"

/-- Nobody is asked anything, and all requests are of a kind. -/
def Silent (kind : Request → Prop) (c : List Moment) : Prop :=
  (∀ prompt answer, .asked prompt answer ∉ c) ∧ ∀ x, .sent x ∈ c → kind x.request

section
variable {kind : Request → Prop} {c c' : List Moment}

theorem silent_nil : Silent kind [] := ⟨nofun, nofun⟩

theorem silent_append (h : Silent kind c) (h' : Silent kind c') : Silent kind (c ++ c') := by
  refine ⟨fun prompt answer hm => ?_, fun x hx => ?_⟩
  · exact (List.mem_append.mp hm).elim (h.1 prompt answer) (h'.1 prompt answer)
  · exact (List.mem_append.mp hx).elim (h.2 x) (h'.2 x)

theorem silent_did (e : Event) : Silent kind [.did e] := ⟨by simp, by simp⟩

theorem silent_sent {r : Request} {response : Option Response} (h : kind r) :
    Silent kind [.sent ⟨r, response⟩] := by
  refine ⟨by simp, fun x hx => ?_⟩
  obtain rfl := sent.inj (List.mem_singleton.mp hx)
  exact h

end

instance : Reading (Silent IsLook) where
  nil := silent_nil
  append := silent_append
  mere _ := silent_did _
  reads hmethod hlisting := silent_sent ⟨hmethod, hlisting⟩

instance : Listing (Silent IsGet) where
  nil := silent_nil
  append := silent_append
  mere _ := silent_did _
  reads hmethod _ := silent_sent hmethod
  lists hmethod := silent_sent hmethod

/-! ### One post -/

/-- One request of a kind is sent among looks, or none when the run fails. -/
inductive Once (kind : Request → Prop) : Except Fault α → List Moment → Prop
  | none {f c} (h : Silent IsLook c) : Once kind (.error f) c
  | one {result front r response back} (hfront : Silent IsLook front) (hkind : kind r)
      (hback : Silent IsLook back) : Once kind result (front ++ .sent ⟨r, response⟩ :: back)

section
variable {kind : Request → Prop}

/-- A call that changes something sends its request once. -/
theorem Once.of_changes {address : Except Fault String} {data : List (String × Json)}
    {value : Reply → α} {result : Except Fault α} {c : List Moment}
    (hkind : ∀ {r : Request}, r.method = "POST" → address = .ok r.url → kind r)
    (h : Server.Changes server address data value result c) : Once kind result c := by
  cases h with
  | unsent hcrumbs => exact .none (of_crumbs hcrumbs)
  | failed hcrumbs hmethod haddress =>
    exact .one (of_crumbs hcrumbs) (hkind hmethod haddress) silent_nil
  | served hcrumbs hmethod haddress =>
    exact .one (of_crumbs hcrumbs) (hkind hmethod haddress) silent_nil

/-- What only looks may come before a post. -/
theorem courses_once_after {part : Desk α} {next : α → Desk β}
    (h : part.Courses fun _ c => Silent IsLook c) (hnext : ∀ a, (next a).Courses (Once kind)) :
    (part >>= next).Courses (Once kind) := by
  refine courses_bind h hnext (fun hc => .none hc) fun {a r c c'} hc hc' => ?_
  cases hc' with
  | none hlook => exact .none (silent_append hc hlook)
  | one hfront hkind hback =>
    rw [← List.append_assoc]
    exact .one (silent_append hc hfront) hkind hback

/-- What only looks may come behind a post. -/
theorem courses_once_before {part : Desk α} {next : α → Desk β}
    (h : part.Courses (Once kind)) (hnext : ∀ a, (next a).Courses fun _ c => Silent IsLook c) :
    (part >>= next).Courses (Once kind) := by
  refine courses_bind h hnext (fun {f c} hc => ?_) fun {a r c c'} hc hc' => ?_
  · cases hc with
    | none hlook => exact .none hlook
    | one hfront hkind hback => exact .one hfront hkind hback
  · cases hc with
    | one hfront hkind hback =>
      rw [List.append_assoc, List.cons_append]
      exact .one hfront hkind (silent_append hback hc')

end

/-- What is echoed takes the courses of its kind. -/
theorem courses_of_echoes {P : List Moment → Prop} {Q : α → β → Prop} {part : Desk α}
    {part' : Desk β} (h : Echoes P Q part part') : part.Courses fun _ c => P c := h.runs

/-! ### The parts that post -/

theorem courses_place (server : Server) (order : Order) :
    (order.place server).Courses (Once Event.IsTrigger) := by
  have hsent : (server.trigger (.str order.job) order.data).Courses (Once Event.IsTrigger) :=
    (server.courses_trigger _ _).mono fun hc => .of_changes (fun {r} hmethod haddress => ?_) hc
  · exact courses_once_before hsent fun queue =>
      courses_of_echoes (carries_noteQueued server.settings order queue)
  · refine ⟨hmethod, order.job, ?_⟩
    unfold Server.triggerAddress at haddress
    split at haddress
    · exact .inl (Except.ok.inj haddress).symm
    · exact .inr (Except.ok.inj haddress).symm

/-- A build is stopped without a question. -/
theorem courses_cancelAlone (server : Server) (job : String) (label : Json) :
    (cancel server job label none).Courses (Once IsStop) := by
  refine courses_once_after ((courses_runningBuild server job label).mono fun hc => hc.1)
    fun last => ?_
  have hsent : (server.stop last.url).Courses (Once IsStop) :=
    (server.courses_stop _).mono fun hc => .of_changes (fun {r} hmethod haddress => ?_) hc
  · exact (courses_once_before hsent fun _ => courses_told _ _ :
      (server.stop last.url >>= fun _ => _).Courses _)
  · refine ⟨hmethod, ?_⟩
    cases hurl : last.url with
    | str url =>
      rw [hurl] at haddress
      exact ⟨url, (Except.ok.inj haddress).symm⟩
    | _ => rw [hurl] at haddress; cases haddress

theorem courses_rerunLastFailed (server : Server) (job : String) (label : Json) :
    (rerunLastFailed server job label).Courses (Once Event.IsTrigger) := by
  refine courses_once_after (courses_of_echoes (Server.carries_lastFailed _ _)) fun last => ?_
  cases last with
  | none => exact fun s => Session.runs_of_eq (.none silent_nil) rfl rfl rfl
  | some build =>
    refine courses_once_after (courses_of_echoes (echoes_say _ _)) fun text => ?_
    refine courses_once_after (courses_of_echoes (echoes_printOk text text)) fun _ => ?_
    exact courses_once_before (courses_place _ _) fun _ => courses_of_echoes (carries_pure _)

/-! ### The job that is meant -/

/-- The wish settles on no job: the job is not given at all, or it is searched for and cannot be
found, or not just one is found. -/
inductive Wish.Unsettled (server : Server) (wish : Wish) (s : Session) : Prop
  | missing (hsearch : given wish.search = none) (hurl : given wish.url = none)
  | unmatched {search jobs s' f} (hsearch : given wish.search = some search)
      (hurl : given wish.url = none)
      (hjobs : (jobsFor server false false wish.url).Yields s jobs s')
      (hfound : Search.resolve search jobs = .error f)
  | ambiguous {search jobs s' found} (hsearch : given wish.search = some search)
      (hurl : given wish.url = none)
      (hjobs : (jobsFor server false false wish.url).Yields s jobs s')
      (hfound : Search.resolve search jobs = .ok found) (hmany : found.length ≠ 1)

theorem length_of_unique {query : String} {jobs : List Job} {job : Job}
    (h : Search.unique query jobs = .ok job) : jobs.length = 1 := by
  unfold Search.unique at h
  split at h
  · rfl
  · split at h <;> cases h

/-- Where one job is settled on, the wish settles on it. -/
theorem not_unsettled {jobs : List Job} {target : String × Json} {s s₁ s₂ : Session}
    (hgiven : (given wish.search).isSome = true ∨ (given wish.url).isSome = true)
    (hjobs : (jobsFor server false false wish.url).Yields s jobs s₁)
    (hsingle : (wish.single jobs).Yields s₁ target s₂) : ¬ wish.Unsettled server s := by
  have hsearched : ∀ {search}, given wish.search = some search → given wish.url = none →
      ∃ found, Search.resolve search jobs = .ok found ∧ found.length = 1 := by
    intro search hsearch hurl
    have hgetD : wish.search.getD "" = search := by
      cases hs : wish.search with
      | none => rw [hs] at hsearch; cases hsearch
      | some text =>
        rw [hs] at hsearch
        exact (Option.filter_eq_some_iff.mp hsearch).1 ▸ rfl
    unfold Wish.single at hsingle
    rw [hurl] at hsingle
    obtain ⟨job, s', hjob, -⟩ := yields_bind.mp hsingle
    obtain ⟨found, hfound, hunique⟩ := Server.exists_of_bind_eq_ok (yields_ofExcept.mp hjob).1
    exact ⟨found, hgetD ▸ hfound, length_of_unique hunique⟩
  intro h
  cases h with
  | missing hsearch hurl => rw [hsearch, hurl] at hgiven; simp at hgiven
  | unmatched hsearch hurl hjobs' hfound =>
    obtain ⟨rfl, -⟩ := hjobs.unique hjobs'
    obtain ⟨found, hfound', -⟩ := hsearched hsearch hurl
    rw [hfound] at hfound'
    cases hfound'
  | ambiguous hsearch hurl hjobs' hfound hmany =>
    obtain ⟨rfl, -⟩ := hjobs.unique hjobs'
    obtain ⟨found', hfound', hone⟩ := hsearched hsearch hurl
    obtain rfl := Except.ok.inj (hfound.symm.trans hfound')
    exact hmany hone

/-! ### The commands -/

/-- A job has to be given. -/
theorem Wish.given_of_demand {s s' : Session} {u : Unit} (h : wish.demand.Yields s u s') :
    s' = s ∧ ((given wish.search).isSome = true ∨ (given wish.url).isSome = true) := by
  unfold Wish.demand at h
  split at h
  · cases h
  · rename_i hgiven
    refine ⟨(yields_pure.mp h).2, ?_⟩
    simpa [Option.isNone_iff_eq_none, Option.isSome_iff_ne_none, imp_iff_not_or] using hgiven

theorem Wish.session_of_check {s s' : Session} {u : Unit} (h : wish.check.Yields s u s') :
    s' = s := by
  unfold Wish.check at h
  split at h
  · cases h
  · exact (yields_pure.mp h).2

/-- Where nobody can be asked, the options of a build have to give a job. -/
theorem BuildOptions.given_of_check {o : BuildOptions} {s s' : Session} {u : Unit}
    (hsilent : o.nonInteractive = true) (h : o.check.Yields s u s') :
    s' = s ∧ ((given o.wish.search).isSome = true ∨ (given o.wish.url).isSome = true) := by
  unfold BuildOptions.check at h
  obtain ⟨_, s₁, hcheck, hrest⟩ := yields_bind.mp h
  obtain rfl := Wish.session_of_check hcheck
  have hlast : ∀ {t t' : Session} {u : Unit}, (do
      o.wish.demand
      if o.branchName.isNone && !o.defaultBranch then
        Desk.refuse .missingBranch [] (some .missingBranchHint) : Desk Unit).Yields t u t' →
      t' = t ∧ ((given o.wish.search).isSome = true ∨ (given o.wish.url).isSome = true) := by
    intro t t' u hu
    obtain ⟨_, t₁, hdemand, hbranch⟩ := yields_bind.mp hu
    obtain ⟨rfl, hgiven⟩ := Wish.given_of_demand hdemand
    split at hbranch
    · cases hbranch
    · exact ⟨(yields_pure.mp hbranch).2, hgiven⟩
  dsimp only at hrest
  split at hrest
  · cases hrest
  · split at hrest
    · split at hrest
      · cases hrest
      · exact hlast hrest
    · exact hlast hrest

/-- A job that is settled on without asking was settled on by the wish. -/
theorem Wish.not_unsettled_of_target {target : Option (String × Json)} {s s' : Session}
    (h : (wish.target server false).Yields s target s') : ¬ wish.Unsettled server s := by
  obtain ⟨_, s₁, hcheck, hrest⟩ := yields_bind.mp h
  obtain ⟨_, s₂, hdemand, hrest⟩ := yields_bind.mp hrest
  obtain ⟨jobs, s₃, hjobs, hrest⟩ := yields_bind.mp hrest
  obtain ⟨job, s₄, hsingle, -⟩ := yields_bind.mp hrest
  obtain rfl := Wish.session_of_check hcheck
  obtain ⟨rfl, hgiven⟩ := Wish.given_of_demand hdemand
  exact not_unsettled hgiven hjobs hsingle

/-- A command on an unsettled job does not get beyond looking for it. -/
theorem looks_of_unsettled {target : Desk α} {next : α → Desk β} {s : Session}
    (hlooks : target.Courses fun _ c => Silent IsLook c)
    (h : ∀ a s', ¬ target.Yields s a s') :
    s.Runs (Silent IsLook) ((target >>= next).outcome s).2 := by
  have hruns := hlooks s
  rw [outcome_bind]
  generalize hout : target.outcome s = out at hruns ⊢
  obtain ⟨f | a, s₁⟩ := out
  · exact hruns
  · exact absurd hout (h a s₁)

/-- Where nobody can be asked, a job is settled on or the run fails. -/
theorem Wish.target_ne_none {s s' : Session} : ¬ (wish.target server false).Yields s none s' := by
  intro h
  obtain ⟨_, s₁, -, hrest⟩ := yields_bind.mp h
  obtain ⟨_, s₂, -, hrest⟩ := yields_bind.mp hrest
  obtain ⟨_, s₃, -, hrest⟩ := yields_bind.mp hrest
  obtain ⟨job, s₄, -, hpure⟩ := yields_bind.mp hrest
  cases (yields_pure.mp hpure).1

/-- What is done about a job that is settled on without asking. -/
theorem courses_aboutTarget {kind : Request → Prop} {part : String → Json → Desk ActionResult}
    (wish : Wish) (h : ∀ job label, (part job label).Courses (Once kind)) :
    (do if let some (job, label) ← wish.target server false then
          let _ ← part job label : Desk Unit).Courses (Once kind) := by
  have htarget : (wish.target server false).Courses fun r c => Silent IsLook c ∧ r ≠ .ok none := by
    refine fun s => (courses_of_echoes wish.carries_targetAlone s).mono
      fun c hc => ⟨hc, fun hr => ?_⟩
    exact Wish.target_ne_none (Prod.ext hr rfl)
  refine courses_bind htarget (N := fun found r c => found ≠ none → Once kind r c)
    (fun found => ?_) (fun hc => .none hc.1) ?_
  · cases found with
    | none => exact courses_pure (absurd rfl)
    | some target =>
      refine Courses.mono ?_ fun hc _ => hc
      exact courses_once_before (h target.1 target.2) fun _ => courses_of_echoes (carries_pure _)
  · rintro found r c c' ⟨hc, hfound⟩ hc'
    cases hc' (fun hnone => hfound (hnone ▸ rfl)) with
    | none hlook => exact .none (silent_append hc hlook)
    | one hfront hkind hback =>
      rw [← List.append_assoc]
      exact .one (silent_append hc hfront) hkind hback

theorem courses_buildAtOnce (server : Server) (interactive : Bool) {o : BuildOptions}
    (hsilent : o.nonInteractive = true) :
    (build server interactive o).Courses (Once Event.IsTrigger) := by
  unfold build
  rw [if_pos hsilent]
  refine courses_once_after (courses_of_echoes o.carries_check) fun _ => ?_
  refine courses_once_after (courses_of_echoes (carries_jobsAlone _)) fun jobs => ?_
  refine courses_once_after (courses_of_echoes (o.wish.carries_single jobs)) fun ⟨job, label⟩ => ?_
  exact courses_once_before (courses_place _ _) fun _ => courses_of_echoes (carries_pure _)

theorem looks_of_unsettled_build (server : Server) (interactive : Bool) {o : BuildOptions}
    (hsilent : o.nonInteractive = true) {s : Session} (h : o.wish.Unsettled server s) :
    s.Runs (Silent IsLook) ((build server interactive o).outcome s).2 := by
  have hlooks : (do
      o.check
      o.wish.single (← jobsFor server false false o.wish.url) : Desk (String × Json)).Courses
        fun _ c => Silent IsLook c :=
    courses_of_echoes (carries_bind o.carries_check fun _ =>
      carries_bind (carries_jobsAlone _) fun _ => o.wish.carries_single _)
  have hfails : ∀ target s', ¬ (do
      o.check
      o.wish.single (← jobsFor server false false o.wish.url) :
        Desk (String × Json)).Yields s target s' := by
    intro target s' hyields
    obtain ⟨_, s₁, hcheck, hrest⟩ := yields_bind.mp hyields
    obtain ⟨jobs, s₂, hjobs, hsingle⟩ := yields_bind.mp hrest
    obtain ⟨rfl, hgiven⟩ := BuildOptions.given_of_check hsilent hcheck
    exact not_unsettled hgiven hjobs hsingle h
  have hatOnce : build server interactive o = (do o.check; buildAtOnce server o) := by
    unfold build
    rw [if_pos hsilent]
  obtain ⟨rest, hbuild⟩ : ∃ rest : String × Json → Desk Built, build server interactive o =
      (do o.check; o.wish.single (← jobsFor server false false o.wish.url)) >>= rest :=
    ⟨_, hatOnce.trans ((bind_assoc _ _ _).trans (bind_congr fun _ => bind_assoc _ _ _)).symm⟩
  rw [hbuild]
  exact looks_of_unsettled hlooks hfails

/-- **Runs where nobody can be asked** show no prompt.  Listing, status, waiting and logs send
requests that read, and the jobs are listed anew only when that is wished for.  A build, its
repetition and its stop post once, and a run that posts nothing fails; and nothing is posted when
the wish settles on no job. -/
theorem unattended_runs (server : Server) (s : Session) :
    (∀ search, Silent IsLook (s.course ((list server false false search).outcome s).2)) ∧
    (∀ search, Silent IsGet (s.course ((list server false true search).outcome s).2)) ∧
    (∀ interactive wish,
      Silent IsLook (s.course ((status server interactive true wish).outcome s).2)) ∧
    (∀ w interval limit,
      Silent IsLook (s.course ((waitFor server false w interval limit).outcome s).2)) ∧
    (∀ w, Silent IsLook (s.course ((log server false w).outcome s).2)) ∧
    (∀ interactive o, o.nonInteractive = true →
      Once Event.IsTrigger ((build server interactive o).outcome s).1
        (s.course ((build server interactive o).outcome s).2) ∧
      (o.wish.Unsettled server s →
        Silent IsLook (s.course ((build server interactive o).outcome s).2))) ∧
    ∀ wish,
      (Once IsStop ((stop server false wish).outcome s).1
        (s.course ((stop server false wish).outcome s).2) ∧
      Once Event.IsTrigger ((rerun server false wish).outcome s).1
        (s.course ((rerun server false wish).outcome s).2)) ∧
      (wish.Unsettled server s →
        Silent IsLook (s.course ((stop server false wish).outcome s).2) ∧
        Silent IsLook (s.course ((rerun server false wish).outcome s).2)) := by
  refine ⟨fun search => ?_, fun search => ?_, fun interactive wish => ?_,
    fun w interval limit => ?_, fun w => ?_, fun interactive o hsilent => ⟨?_, fun h => ?_⟩,
    fun wish => ⟨⟨?_, ?_⟩, fun h => ?_⟩⟩
  · have hlist : (list server false false search).Carries (Silent IsLook) :=
      carries_listAlone search (by simp)
    exact (hlist.runs s).course
  · have hlist : (list server false true search).Carries (Silent IsGet) :=
      carries_listAlone search fun _ => Roster.carries_refresh server
    exact (hlist.runs s).course
  · exact ((carries_statusAlone interactive wish).runs s).course
  · exact ((carries_waitFor w.wish.carries_targetAlone interval limit).runs s).course
  · exact ((carries_log w.wish.carries_targetAlone).runs s).course
  · exact (courses_buildAtOnce server interactive hsilent s).course
  · exact (looks_of_unsettled_build server interactive hsilent h).course
  · exact (courses_aboutTarget wish (courses_cancelAlone server) s).course
  · exact (courses_aboutTarget wish (courses_rerunLastFailed server) s).course
  · have htarget : (wish.target server false).Carries (Silent IsLook) := wish.carries_targetAlone
    have hlooks := courses_of_echoes htarget
    have hfails : ∀ target s', ¬ (wish.target server false).Yields s target s' :=
      fun target s' hyields => Wish.not_unsettled_of_target hyields h
    exact ⟨(looks_of_unsettled hlooks hfails).course, (looks_of_unsettled hlooks hfails).course⟩

/-- A build of a given job without parameters, where nobody can be asked. -/
def givenAlone : BuildOptions where
  wish := { url := some "http://ci/job/app" }
  defaultBranch := true
  nonInteractive := true

/-- The server queues a build. -/
def queuing : Session where
  responses := [.reply { headers := [("Location", .str "http://ci/queue/1/")] } 0.0]

/-- A build of a given job posts once and ends well; without a job nothing is posted. -/
theorem unattended_runs_given_and_missing :
    (∃ built, ((build plainServer false givenAlone).outcome queuing).1 = .ok built ∧
      Once Event.IsTrigger (.ok built : Except Fault Built)
        (queuing.course ((build plainServer false givenAlone).outcome queuing).2)) ∧
    ({} : Wish).Unsettled plainServer queuing ∧
    Silent IsLook (queuing.course ((stop plainServer false {}).outcome queuing).2) := by
  obtain ⟨-, -, -, -, -, hbuild, hothers⟩ := unattended_runs plainServer queuing
  have hok : ((build plainServer false givenAlone).outcome queuing).1 =
      .ok { triggered := true } := by
    with_unfolding_all rfl
  have hunsettled : ({} : Wish).Unsettled plainServer queuing := .missing rfl rfl
  refine ⟨⟨_, hok, ?_⟩, hunsettled, ((hothers {}).2 hunsettled).1⟩
  have honce := (hbuild false givenAlone rfl).1
  rwa [hok] at honce

end BuildDesk.Command
