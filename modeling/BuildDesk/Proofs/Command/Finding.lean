/-
Three ways to a job.

A search for a job is settled in three places: in the flow that asks for it, before that flow
when the search is an option, and in commands that may not ask.  They are written apart, but
all follow the same decision: one job is taken, several are left to choose from, and none is
something to report.

* `submitSearch_of_found`, `preset_of_found` — what the flow and the option make of jobs;
* `submitSearch_of_none`, `preset_of_none` — what they make of a search without any;
* `single_yields`, `single_fails`, `decided_cases` — what a command does that may not ask;
* `searches_agree` — the three compared.
-/
import BuildDesk.Command.Target
import BuildDesk.Proofs.Outcome
import BuildDesk.Proofs.Roster.Standing
import BuildDesk.Proofs.Search.Tiers

namespace BuildDesk.Command

open BuildDesk.Flow

variable {ctx : Prepare.Context} {query : String} {jobs found : List Job}

/-- A search as a wish. -/
def searchFor (query : String) : Wish := { search := some query }

/-- The context that knows what is searched for. -/
def searching (query : String) (ctx : Prepare.Context) : Prepare.Context :=
  { ctx with query := Text.trim query }

/-- The complaint that no jobs match. -/
def noneFound (query : String) : Complaint := .noJobsMatch (Text.trim query)

/-- A search without a match can be mended: its message says so by its beginning. -/
theorem isRetryable_noneFound (query : String) : (noneFound query).isRetryable = true := by
  have hmessage : (noneFound query).message = "No jobs match \"" ++ Text.trim query ++ "\"." := rfl
  have hquote : "No jobs match \"" = "No jobs match " ++ "\"" := rfl
  rw [Complaint.isRetryable, hmessage, hquote, String.append_assoc, String.append_assoc,
    Text.beginsWith_append, Bool.or_true]

/-- A complaint is printed without fail, and only the log changes. -/
theorem exists_printComplaint (c : Complaint) (s : Session) :
    ∃ s', (Console.printComplaint c).Yields s () s' := by
  have hhints : ∀ (hints : List String) (s : Session),
      ∃ s', (hints.forM Console.printHint).Yields s () s' := by
    intro hints
    induction hints with
    | nil => exact fun s => ⟨s, rfl⟩
    | cons hint rest ih =>
      intro s
      obtain ⟨s', hrest⟩ := ih { s with log := _ :: s.log }
      exact ⟨s', Desk.yields_bind.mpr ⟨(), _, Desk.yields_emit.mpr rfl, hrest⟩⟩
  obtain ⟨s', h⟩ := hhints c.hints { s with log := _ :: s.log }
  exact ⟨s', Desk.yields_bind.mpr ⟨(), _, Desk.yields_emit.mpr rfl, h⟩⟩

theorem ne_empty_of_trim (hquery : Text.trim query ≠ "") : query ≠ "" := by
  rintro rfl
  exact hquery Text.trim_empty

theorem given_url (query : String) : given (searchFor query).url = none := rfl

theorem given_search (hquery : Text.trim query ≠ "") :
    given (searchFor query).search = some query := by
  rw [searchFor, given, Option.filter_some, if_pos]
  exact bne_iff_ne.mpr (ne_empty_of_trim hquery)

/-! ### A search in the flow -/

/-- What is typed is searched for, unless it is blank. -/
theorem submitSearch_yields (hquery : Text.trim query ≠ "") {ctx' : Prepare.Context}
    {s s' : Session} {event : Json} :
    (Prepare.submitSearch (.str query)).Yields ctx s event ctx' s' ↔
      (Prepare.search (Text.trim query)).Yields (searching query ctx) s event ctx' s' := by
  have htyped : typed (.str query) = Text.trim query := rfl
  have hdemanded : Prepare.demanded "search:retry" .jobNameRequired .jobNameRequiredHint
      (.str query) = none := if_pos (bne_iff_ne.mpr hquery)
  unfold Prepare.submitSearch
  rw [Step.yields_change_bind, hdemanded, htyped]
  rfl

theorem submitSearch_of_found (hquery : Text.trim query ≠ "") (s : Session)
    (hfound : Search.resolve query ctx.jobs = .ok found) :
    (Prepare.submitSearch (.str query)).Yields ctx s
      (.str (Prepare.takeFound (searching query ctx) found).1)
      (Prepare.takeFound (searching query ctx) found).2 s := by
  have hsearch : Search.resolve (Text.trim query) (searching query ctx).jobs = .ok found :=
    (Search.resolve_trim query ctx.jobs).trans hfound
  rw [submitSearch_yields hquery, Prepare.search, Step.yields_context_bind]
  simp only [hsearch]
  exact Step.yields_change_bind.mpr (Step.yields_pure.mpr ⟨rfl, rfl, rfl⟩)

theorem submitSearch_of_none (hquery : Text.trim query ≠ "") {s s' : Session}
    (hfound : Search.resolve query ctx.jobs = .error (.complaint (noneFound query)))
    (hprint : (Console.printComplaint (noneFound query)).Yields s () s') :
    (Prepare.submitSearch (.str query)).Yields ctx s (.str "search:retry")
      (searching query ctx) s' := by
  have hsearch : Search.resolve (Text.trim query) (searching query ctx).jobs
      = .error (.complaint (noneFound query)) :=
    (Search.resolve_trim query ctx.jobs).trans hfound
  rw [submitSearch_yields hquery, Prepare.search, Step.yields_context_bind]
  simp only [hsearch, isRetryable_noneFound, if_true]
  refine Step.yields_bind.mpr ⟨(), _, s', Step.yields_ofDesk.mpr ⟨hprint, rfl⟩, ?_⟩
  exact Step.yields_pure.mpr ⟨rfl, rfl, rfl⟩

/-! ### A search as an option -/

theorem preset_of_found (hquery : Text.trim query ≠ "") (s : Session)
    (hfound : Search.resolve query ctx.jobs = .ok found) :
    ((searchFor query).preset ctx).Yields s
      (Wish.takeFound (searching query ctx) found) s := by
  unfold Wish.preset
  simp only [given_search hquery, given_url, hfound]
  exact Desk.yields_pure.mpr ⟨rfl, rfl⟩

theorem preset_of_none (hquery : Text.trim query ≠ "") {s s' : Session}
    (hfound : Search.resolve query ctx.jobs = .error (.complaint (noneFound query)))
    (hprint : (Console.printComplaint (noneFound query)).Yields s () s') :
    ((searchFor query).preset ctx).Yields s (none, searching query ctx) s' := by
  unfold Wish.preset
  simp only [given_search hquery, given_url, hfound, isRetryable_noneFound, if_true]
  exact Desk.yields_bind.mpr ⟨(), s', hprint, Desk.yields_pure.mpr ⟨rfl, rfl⟩⟩

/-! ### A search where nobody can be asked -/

/-- The one job that a search finds, or why there is none. -/
def decided (query : String) (jobs : List Job) : Except Fault Job :=
  Search.resolve query jobs >>= Search.unique query

/-- A command that may not ask needs one job. -/
theorem single_yields {target : String × Json} {s s' : Session} :
    ((searchFor query).single jobs).Yields s target s' ↔
      ∃ job, decided query jobs = .ok job ∧ target = (job.url, job.displayName) ∧ s' = s := by
  unfold Wish.single
  simp only [given_url]
  rw [Desk.yields_bind]
  constructor
  · rintro ⟨job, s₁, hfound, htarget⟩
    obtain ⟨hjob, rfl⟩ := Desk.yields_ofExcept.mp hfound
    exact ⟨job, hjob, Desk.yields_pure.mp htarget⟩
  · rintro ⟨job, hjob, htarget, hsession⟩
    exact ⟨job, s, Desk.yields_ofExcept.mpr ⟨hjob, rfl⟩, Desk.yields_pure.mpr ⟨htarget, hsession⟩⟩

theorem single_fails {f : Fault} {s s' : Session} :
    ((searchFor query).single jobs).Fails s f s' ↔ decided query jobs = .error f ∧ s' = s := by
  unfold Wish.single
  simp only [given_url]
  rw [Desk.fails_bind]
  constructor
  · rintro (hfails | ⟨job, s₁, -, hpure⟩)
    · exact Desk.fails_ofExcept.mp hfails
    · exact absurd hpure Desk.fails_pure
  · exact fun h => .inl (Desk.fails_ofExcept.mpr h)

theorem asString?_displayName {job : Job} (h : job.HasTextName) :
    job.displayName.asString? = some job.displayName.text := by
  rw [Job.displayName, Json.orElse]
  rcases h with hnull | ⟨full, hname⟩
  · rw [hnull]
    rfl
  · rw [hname]
    split
    · rfl
    · rfl

theorem mapM_displayName (hnames : ∀ job ∈ found, job.HasTextName) :
    found.mapM (fun job => job.displayName.asString?)
      = some (found.map fun job => job.displayName.text) := by
  induction found with
  | nil => rfl
  | cons job rest ih =>
    obtain ⟨hjob, hrest⟩ := List.forall_mem_cons.mp hnames
    rw [List.mapM_cons, asString?_displayName hjob, ih hrest]
    rfl

/-- Several jobs are an error that names all of them. -/
theorem unique_of_several {first second : Job} {rest : List Job}
    (hnames : ∀ job ∈ first :: second :: rest, job.HasTextName) :
    Search.unique query (first :: second :: rest) = .error (.complaint (.ambiguous (Text.trim query)
      ((first :: second :: rest).map fun job => job.displayName.text))) := by
  unfold Search.unique
  simp only [mapM_displayName hnames]

/-- What jobs that are found mean for a command that may not ask. -/
theorem decided_cases (hnames : ∀ job ∈ found, job.HasTextName) (hsome : found ≠ [])
    (hfound : Search.resolve query jobs = .ok found) :
    (∃ job, found = [job] ∧ decided query jobs = .ok job)
      ∨ (∃ first second rest, found = first :: second :: rest)
        ∧ decided query jobs = .error (.complaint (.ambiguous (Text.trim query)
          (found.map fun job => job.displayName.text))) := by
  rw [decided, hfound]
  rcases found with _ | ⟨job, _ | ⟨second, rest⟩⟩
  · exact absurd rfl hsome
  · exact .inl ⟨job, rfl, rfl⟩
  · exact .inr ⟨⟨job, second, rest, rfl⟩, unique_of_several hnames⟩

/-! ### The three ways compared -/

/-- Two contexts agree on the search, on what it found, and on the job that is chosen. -/
structure SameFinding (c d : Prepare.Context) : Prop where
  query : c.query = d.query
  candidates : c.candidates = d.candidates
  url : c.url = d.url
  label : c.label = d.label

/-- Flow and option take up the same. -/
theorem sameFinding_takeFound {c : Prepare.Context} (hfresh : c.candidates = [])
    (found : List Job) :
    SameFinding (Prepare.takeFound c found).2 (Wish.takeFound c found).2 := by
  rcases found with _ | ⟨job, _ | ⟨second, rest⟩⟩
  · exact ⟨rfl, rfl, rfl, rfl⟩
  · have hquery : (c.selectJob job).query = c.query := by
      rw [Prepare.Context.selectJob, Prepare.Context.select]
      split
      · rfl
      · rfl
    exact ⟨hquery, hfresh.symm, rfl, rfl⟩
  · exact ⟨rfl, rfl, rfl, rfl⟩

theorem query_takeFound (c : Prepare.Context) (found : List Job) :
    (Wish.takeFound c found).2.query = c.query := by
  unfold Wish.takeFound
  split
  · rfl
  · rfl

/-- **Three ways to a job.**  Let a search be made that is not blank, among jobs with names
that are texts, and by a run that has no candidates yet.  The flow that asks for the search
never fails, and it is right with the option and with the command that may not ask:

* it takes a job at once, if and only if the option does, if and only if the command finds
  its job, and all three take the same address and label;
* it lets the user choose, if and only if the option does, if and only if the command fails
  because there are several, which are the candidates of both;
* it asks again, if and only if the option has nothing to begin with, if and only if the
  command fails because no jobs match; both print that complaint, and they print nothing else.

In any case flow and option know the same afterwards. -/
theorem searches_agree (hfresh : ctx.candidates = [])
    (hnames : ∀ job ∈ ctx.jobs, job.HasTextName) (hquery : Text.trim query ≠ "") (s : Session) :
    ∃ event start ctx₁ ctx₂ s',
      (Prepare.submitSearch (.str query)).Yields ctx s (.str event) ctx₁ s'
      ∧ ((searchFor query).preset ctx).Yields s (start, ctx₂) s'
      ∧ SameFinding ctx₁ ctx₂ ∧ ctx₁.query = Text.trim query
      ∧ ((event = "search:auto" ↔ start = some "prepare_branch")
        ∧ (event = "search:auto" ↔
          ∃ target, ((searchFor query).single ctx.jobs).Yields s target s)
        ∧ ∀ target, ((searchFor query).single ctx.jobs).Yields s target s →
          ctx₁.url = some target.1 ∧ ctx₁.label = some target.2)
      ∧ ((event = "search:candidates" ↔ start = some "results_direct")
        ∧ (event = "search:candidates" ↔ ∃ names, ((searchFor query).single ctx.jobs).Fails s
          (.complaint (.ambiguous (Text.trim query) names)) s)
        ∧ ∀ names, ((searchFor query).single ctx.jobs).Fails s
            (.complaint (.ambiguous (Text.trim query) names)) s →
          ctx₁.candidates ≠ [] ∧ names = ctx₁.candidates.map fun job => job.displayName.text)
      ∧ ((event = "search:retry" ↔ start = none)
        ∧ (event = "search:retry" ↔ ((searchFor query).single ctx.jobs).Fails s
          (.complaint (.noJobsMatch (Text.trim query))) s)
        ∧ (event = "search:retry" →
          (Console.printComplaint (.noJobsMatch (Text.trim query))).Yields s () s')
        ∧ (event ≠ "search:retry" → s' = s)) := by
  simp only [single_yields, single_fails]
  rcases Search.resolve_cases hnames hquery with ⟨found, hsome, hfound⟩ | hnone
  · have hsubmit := submitSearch_of_found hquery s hfound
    have hpreset := preset_of_found hquery s hfound
    have hempty : (searching query ctx).candidates = [] := hfresh
    have hsame := sameFinding_takeFound hempty found
    have hasked := hsame.query.trans (query_takeFound (searching query ctx) found)
    have hlisted : ∀ job ∈ found, job.HasTextName :=
      fun job hjob => hnames job (Search.mem_of_resolve hfound job hjob)
    rcases decided_cases hlisted hsome hfound with
      ⟨job, rfl, hone⟩ | ⟨⟨first, second, rest, rfl⟩, hmany⟩
    · -- one job is taken by all of them
      refine ⟨"search:auto", some "prepare_branch", _, _, s, hsubmit, hpreset, hsame, hasked, ?_⟩
      have hchosen : (Prepare.takeFound (searching query ctx) [job]).2.url = some job.url
          ∧ (Prepare.takeFound (searching query ctx) [job]).2.label = some job.displayName :=
        ⟨rfl, rfl⟩
      simp [hone, hchosen]
    · -- several jobs are left to choose from
      refine ⟨"search:candidates", some "results_direct", _, _, s, hsubmit, hpreset, hsame,
        hasked, ?_⟩
      have hkept : (Prepare.takeFound (searching query ctx) (first :: second :: rest)).2.candidates
          = first :: second :: rest := rfl
      simp [hmany, hkept]
  · -- none is reported, by the flow and the option in print
    obtain ⟨s', hprint⟩ := exists_printComplaint (noneFound query) s
    have hsubmit := submitSearch_of_none hquery hnone hprint
    have hpreset := preset_of_none hquery hnone hprint
    have herror : decided query ctx.jobs
        = .error (.complaint (.noJobsMatch (Text.trim query))) := by
      rw [decided, hnone]
      rfl
    refine ⟨"search:retry", none, _, _, s', hsubmit, hpreset, ⟨rfl, rfl, rfl, rfl⟩, rfl, ?_⟩
    simpa [herror, noneFound] using hprint

/-- A name typed with blanks and capitals leads to its job in all three ways. -/
theorem searches_agree_on_one_job :
    let ctx : Prepare.Context := {
      settings := Roster.someSettings
      jobs := [⟨"api", "u", .null, []⟩, ⟨"web", "v", .str "shop/web", []⟩] }
    ctx.candidates = [] ∧ (∀ job ∈ ctx.jobs, job.HasTextName) ∧ Text.trim " API " ≠ ""
      ∧ ((searchFor " API ").single ctx.jobs).Yields {} ("u", .str "api") {}
      ∧ ∃ ctx₁ ctx₂ s',
        (Prepare.submitSearch (.str " API ")).Yields ctx {} (.str "search:auto") ctx₁ s'
        ∧ ((searchFor " API ").preset ctx).Yields {} (some "prepare_branch", ctx₂) s'
        ∧ ctx₁.url = some "u" ∧ ctx₂.url = some "u" := by
  intro ctx
  have hnames : ∀ job ∈ ctx.jobs, job.HasTextName := by
    simp only [ctx, List.forall_mem_cons]
    exact ⟨.inl rfl, .inr ⟨_, rfl⟩, List.forall_mem_nil _⟩
  have hquery : Text.trim " API " ≠ "" := by decide
  have hresolve : Search.resolve " API " ctx.jobs = .ok [⟨"api", "u", .null, []⟩] := by
    have hshare : Search.SharesBounded (Text.searchForm " API ") ctx.jobs := by
      unfold Search.SharesBounded
      decide +kernel
    rw [Search.resolve_of_exact hnames (by decide +kernel) hshare (by decide +kernel)]
    exact congrArg (fun l => Except.ok (List.take 10 l)) (List.mergeSort_singleton _)
  have hsingle : ((searchFor " API ").single ctx.jobs).Yields {} ("u", .str "api") {} := by
    refine single_yields.mpr ⟨⟨"api", "u", .null, []⟩, ?_, rfl, rfl⟩
    rw [decided, hresolve]
    rfl
  obtain ⟨event, start, ctx₁, ctx₂, s', hsubmit, hpreset, hsame, -, ⟨hstart, hfound, hjob⟩, -⟩ :=
    searches_agree (show ctx.candidates = [] from rfl) hnames hquery {}
  obtain rfl := hfound.mpr ⟨_, hsingle⟩
  obtain rfl := hstart.mp rfl
  have hurl : ctx₁.url = some "u" := (hjob _ hsingle).1
  exact ⟨rfl, hnames, hquery, hsingle, ctx₁, ctx₂, s', hsubmit, hpreset, hurl,
    hsame.url.symm.trans hurl⟩

end BuildDesk.Command
