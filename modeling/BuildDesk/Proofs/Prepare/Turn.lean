/-
What one visit of the preparing flow can do.

The flow has seventeen states.  `Spot` names them, `Goal` is where a visit leads, and
`Turn` lists everything a visit can do: from which state, with which answer, under
which condition, by which event, and what becomes of the context.

* `takes_answered` — a state with a prompt is left by `esc`, or by the event of its handler;
* `turn_of_moves` — a move of the flow is one of these turns, and it uses up the answer
  of the turn;
* `Kept` — what every turn keeps holds wherever a run comes (`Kept.holdsAt_of_reaches`)
  and where it ends (`Kept.of_ends`).

What is said about the runs of the flow rests on this list alone; the handlers are
opened here and nowhere else.
-/
import BuildDesk.Flow.Prepare.Table
import BuildDesk.Proofs.Flow.Handler
import BuildDesk.Proofs.Flow.Reach
import Mathlib.Data.List.Nodup

namespace BuildDesk.Flow.Prepare

/-! ### States -/

/-- How a search was begun. -/
inductive Way
  | recent
  | direct
  deriving DecidableEq, Repr

/-- The states of the flow. -/
inductive Spot
  | entry
  | recentMenu
  | search (way : Way)
  | results (way : Way)
  | branchMode
  | prepareBranch
  | branchSelect
  | branchRemove
  | branchRemoveApply
  | branchEntry
  | customConfirm
  | customKey
  | customValue
  | customMore
  | customCancel
  deriving DecidableEq, Repr

namespace Spot

/-- The name of a state in the table. -/
def name : Spot → String
  | entry => "entry"
  | recentMenu => "recent_menu"
  | search .recent => "search_from_recent"
  | search .direct => "search_direct"
  | results .recent => "results_from_recent"
  | results .direct => "results_direct"
  | branchMode => "branch_mode"
  | prepareBranch => "prepare_branch"
  | branchSelect => "branch_select"
  | branchRemove => "branch_remove"
  | branchRemoveApply => "branch_remove_apply"
  | branchEntry => "branch_entry"
  | customConfirm => "custom_confirm"
  | customKey => "custom_key"
  | customValue => "custom_value"
  | customMore => "custom_more"
  | customCancel => "custom_cancel"

/-- The entry of a state in the table. -/
def state : Spot → State Context
  | entry => Prepare.entry
  | recentMenu => Prepare.recentMenu
  | search .recent => searchFromRecent
  | search .direct => searchDirect
  | results way => Prepare.results (search way).name
  | branchMode => pickMode
  | prepareBranch => prepare
  | branchSelect => pickBranch
  | branchRemove => pickRemoval
  | branchRemoveApply => applyRemoval
  | branchEntry => typeBranch
  | customConfirm => askCustom
  | customKey => typeKey
  | customValue => typeValue
  | customMore => askMore
  | customCancel => cancelCustom

/-- The states in the order of the table. -/
def all : List Spot :=
  [entry, recentMenu, search .recent, search .direct, results .recent, results .direct,
    branchMode, prepareBranch, branchSelect, branchRemove, branchRemoveApply, branchEntry,
    customConfirm, customKey, customValue, customMore, customCancel]

theorem mem_all (p : Spot) : p ∈ all := by
  rcases p with _ | _ | ⟨_ | _⟩ | ⟨_ | _⟩ <;> decide

/-- What holds of the states one by one holds of all. -/
theorem forall_of_all {P : Spot → Prop} (h : ∀ p ∈ all, P p) (p : Spot) : P p := h p (mem_all p)

theorem state?_name (p : Spot) : table.state? p.name = some p.state := by
  rcases p with _ | _ | ⟨_ | _⟩ | ⟨_ | _⟩ <;> rfl

/-- The table has no other states. -/
theorem exists_of_state? {word : String} {state : State Context}
    (h : table.state? word = some state) : ∃ p : Spot, p.name = word := by
  have hmem := List.mem_map_of_mem (f := Prod.fst) (mem_states_of_state? h)
  have hnames : table.states.map Prod.fst = all.map name := rfl
  rw [hnames] at hmem
  obtain ⟨p, -, hp⟩ := List.mem_map.mp hmem
  exact ⟨p, hp⟩

theorem not_reserved (p : Spot) : Outcome.ofWord? p.name = none := by
  rcases p with _ | _ | ⟨_ | _⟩ | ⟨_ | _⟩ <;> rfl

theorem name_injective : Function.Injective name := by
  intro p q h
  have hnames : (all.map name).Nodup := by decide +kernel
  exact List.inj_on_of_nodup_map hnames (mem_all p) (mem_all q) h

end Spot

/-- Where a visit leads: to a state, or out of the flow. -/
inductive Goal
  | next (p : Spot)
  | out (outcome : Outcome)
  deriving DecidableEq, Repr

/-- The word for a goal in the table. -/
def Goal.word : Goal → String
  | next p => p.name
  | out outcome => outcome.word

theorem Goal.eq_next_of_word {goal : Goal} (h : Outcome.ofWord? goal.word = none) :
    ∃ p, goal = .next p := by
  cases goal with
  | next p => exact ⟨p, rfl⟩
  | out outcome => simp [Goal.word, Outcome.ofWord?_word] at h

theorem Goal.eq_out_of_word {goal : Goal} {outcome : Outcome}
    (h : Outcome.ofWord? goal.word = some outcome) : goal = .out outcome := by
  cases goal with
  | next p => simp [Goal.word, Spot.not_reserved] at h
  | out other => simpa [Goal.word, Outcome.ofWord?_word] using h

/-- Where a prompt that is cancelled leads. -/
def Spot.back? : Spot → Option Goal
  | recentMenu => some (.out .exitCommand)
  | search .recent => some (.next recentMenu)
  | search .direct => some (.out .exitCommand)
  | results way => some (.next (search way))
  | branchMode => some (.next entry)
  | branchSelect => some (.next branchMode)
  | branchRemove => some (.next branchSelect)
  | branchEntry => some (.next branchMode)
  | customConfirm => some (.out .complete)
  | customKey => some (.next customCancel)
  | customValue => some (.next customKey)
  | customMore => some (.next customCancel)
  | entry | prepareBranch | branchRemoveApply | customCancel => none

/-! ### Turns -/

/-- A state, an answer and a context; the event and the goal; and the context after. -/
inductive Turn : Spot → Option Json → Context → String → Goal → Context → Prop
  | esc {p goal v c} (hback : p.back? = some goal) (hnull : v.isNull = true) :
    Turn p (some v) c "esc" goal c
  | showRecent {c} (hrecent : c.recent.isEmpty = false) :
    Turn .entry none c "show_recent" (.next .recentMenu) c
  | searchFirst {c} (hrecent : c.recent.isEmpty = true) :
    Turn .entry none c "search_direct" (.next (.search .direct)) c
  | searchAll {v c} : Turn .recentMenu (some v) c "select:search_all" (.next (.search .recent)) c
  | pickRecent {v c job} (hjob : c.recent.find? (·.url == v.text) = some job) :
    Turn .recentMenu (some v) c "select:recent" (.next .prepareBranch)
      { c.select job.url (recentLabel c job) with query := "", candidates := [] }
  | searchAgain {way v c} :
    Turn (.search way) (some v) c "search:retry" (.next (.search way)) { c with query := typed v }
  | searchOne {way v c job} (hfound : Search.resolve (typed v) c.jobs = .ok [job]) :
    Turn (.search way) (some v) c "search:auto" (.next .prepareBranch)
      { ({ c with query := typed v }.selectJob job) with candidates := [] }
  | searchSeveral {way v c jobs} (hfound : Search.resolve (typed v) c.jobs = .ok jobs) :
    Turn (.search way) (some v) c "search:candidates" (.next (.results way))
      { c with query := typed v, candidates := jobs }
  | resultsAgain {way v c} (hjob : Job.find? c.candidates v.text = none) :
    Turn (.results way) (some v) c "select:search_again" (.next (.search way)) c
  | pickResult {way v c job} (hjob : Job.find? c.candidates v.text = some job) :
    Turn (.results way) (some v) c "select:job" (.next .prepareBranch)
      { c.selectJob job with candidates := [] }
  | modeWithout {v c} :
    Turn .branchMode (some v) c "mode:without_params" (.out .complete)
      { c with modeAsked := true, mode := some .without, branch := none, customParams := [] }
  | modeCustom {v c} :
    Turn .branchMode (some v) c "mode:with_custom" (.next .customKey)
      { c with modeAsked := true, mode := some .custom, branch := none }
  | modeBranch {v c} :
    Turn .branchMode (some v) c "mode:with_branch" (.next .prepareBranch)
      { c with modeAsked := true, mode := some .branch }
  | ready {c} (hneed : need c = .nothing) :
    Turn .prepareBranch none c "branch:ready" (.out .complete)
      { c with
        branch := if Text.trim c.branchText == "" then none else some (Text.trim c.branchText) }
  | needKey {c} (hneed : need c = .key) :
    Turn .prepareBranch none c "custom:key" (.next .customKey) c
  | needJob {c} (hneed : need c = .job) :
    Turn .prepareBranch none c "branch:error" (.next .entry) c
  | needMode {c} (hneed : need c = .mode) :
    Turn .prepareBranch none c "branch:mode" (.next .branchMode) { c with modeAsked := true }
  | offer {c choices removable} (hneed : need c = .branch) (hsome : choices.isEmpty = false) :
    Turn .prepareBranch none c "branch:select" (.next .branchSelect)
      { c with branchChoices := Text.distinct choices, removable := Text.distinct removable }
  | offerNone {c choices removable} (hneed : need c = .branch) (hnone : choices.isEmpty = true) :
    Turn .prepareBranch none c "branch:entry" (.next .branchEntry)
      { c with branchChoices := Text.distinct choices, removable := Text.distinct removable }
  | otherBranch {v c} : Turn .branchSelect (some v) c "branch:entry" (.next .branchEntry) c
  | someRemoval {v c} (hsome : c.removable.isEmpty = false) :
    Turn .branchSelect (some v) c "branch:remove" (.next .branchRemove) c
  | pickBranch {v c} (hname : Text.trim v.text ≠ "") :
    Turn .branchSelect (some v) c "branch:selected" (.next .customConfirm)
      { c with branch := some (Text.trim v.text) }
  | noRemoval {v c} :
    Turn .branchRemove (some v) c "remove:selected" (.next .branchRemoveApply) c
  | pickRemoval {v c} (hname : Text.trim v.text ≠ "") :
    Turn .branchRemove (some v) c "remove:selected" (.next .branchRemoveApply)
      { c with pendingRemoval := some (Text.trim v.text) }
  | keepBranch {c} :
    Turn .branchRemoveApply none c "remove:done" (.next .branchSelect)
      { c with pendingRemoval := none }
  | removeBranch {c branch} :
    Turn .branchRemoveApply none c "remove:done" (.next .branchSelect)
      (withoutBranch branch { c with pendingRemoval := none })
  | branchAgain {v c} : Turn .branchEntry (some v) c "branch:retry" (.next .branchEntry) c
  | typeBranch {v c} (hname : typed v ≠ "") :
    Turn .branchEntry (some v) c "branch:selected" (.next .customConfirm)
      { c with branch := some (typed v) }
  | more {p v c} (hp : p = .customConfirm ∨ p = .customMore) :
    Turn p (some v) c "confirm:yes" (.next .customKey) c
  | enough {p v c} (hp : p = .customConfirm ∨ p = .customMore) :
    Turn p (some v) c "confirm:no" (.out .complete) c
  | keyAgain {v c} : Turn .customKey (some v) c "param:key_retry" (.next .customKey) c
  | typeKey {v c} (hname : typed v ≠ "") (hnew : Text.lower (typed v) ∉ c.taken) :
    Turn .customKey (some v) c "param:key_ready" (.next .customValue)
      { c with pendingKey := some (typed v) }
  | valueAgain {v c} (hkey : c.pendingKey.getD "" = "") :
    Turn .customValue (some v) c "param:value_retry" (.next .customKey) c
  | typeValue {v c key} (hkey : c.pendingKey = some key) (hname : key ≠ "") :
    Turn .customValue (some v) c "param:added" (.next .customMore)
      { c with customParams := Json.put c.customParams key (typed v), pendingKey := none }
  | cancelDone {c} (hgiven : c.customParams ≠ [] ∨ c.branchText ≠ "") :
    Turn .customCancel none c "custom:done" (.out .complete) { c with pendingKey := none }
  | cancelMode {c} (hparams : c.customParams = []) (hbranch : c.branchText = "") :
    Turn .customCancel none c "custom:mode" (.next .branchMode)
      { c with pendingKey := none, mode := none }

/-- The state is left by a turn with this event. -/
def Takes (p : Spot) (answer : Option Json) (c : Context) (event : Json) (c' : Context) : Prop :=
  ∃ word goal, event = .str word ∧ Turn p answer c word goal c' ∧
    p.state.target? word = some goal.word

variable {p : Spot} {answer : Option Json} {v : Json} {event : Json} {c c' : Context}
variable {s s' : Session}

theorem target?_esc {goal : Goal} (hback : p.back? = some goal) :
    p.state.target? "esc" = some goal.word := by
  rcases p with _ | _ | ⟨_ | _⟩ | ⟨_ | _⟩ <;> cases hback <;> rfl

theorem takes_esc {goal : Goal} (hback : p.back? = some goal) (hnull : v.isNull = true) :
    Takes p (some v) c (.str "esc") c :=
  ⟨"esc", goal, rfl, .esc hback hnull, target?_esc hback⟩

/-- A state is left by a turn, which uses up its answer. -/
def Visits (p : Spot) (c : Context) (s : Session) (event : Json) (c' : Context) (s' : Session) :
    Prop :=
  ∃ answer, Takes p answer c event c' ∧ s.answers = answer.toList.map .value ++ s'.answers

/-- A state with a prompt is left by `esc`, or by the event of its handler. -/
theorem visits_answered {prompt : Prompt Context} {handler : String} {h : Handler Context}
    {goal : Goal} (henter : p.state.onEnter = none) (hprompt : p.state.prompt = some prompt)
    (hselect : p.state.onSelect = some handler) (hfind : handlers.find? handler = some h)
    (hback : p.back? = some goal)
    (htakes : ∀ v s₁, (h.run (some v)).Yields c s₁ event c' s' →
      Takes p (some v) c event c' ∧ s'.answers = s₁.answers)
    (hyields : (eventAt table handlers p.name p.state).Yields c s event c' s') :
    Visits p c s event c' s' := by
  obtain ⟨v, s₁, hanswers, -, ⟨hnull, rfl, rfl, rfl⟩ | ⟨-, hrun⟩⟩ :=
    eventAt_answered henter hprompt hselect hfind hyields
  · exact ⟨some v, takes_esc hback hnull, hanswers⟩
  · obtain ⟨htakes, hsame⟩ := htakes v s₁ hrun
    exact ⟨some v, htakes, by rw [hanswers, hsame]; rfl⟩

/-- A question with no handler is left by `esc`, or by a yes or a no. -/
theorem visits_confirm {message initial : Projection Context Json} {goal : Goal}
    (hp : p = .customConfirm ∨ p = .customMore) (henter : p.state.onEnter = none)
    (hprompt : p.state.prompt = some (.confirm message initial))
    (hselect : p.state.onSelect = none) (hback : p.back? = some goal)
    (hyields : (eventAt table handlers p.name p.state).Yields c s event c' s') :
    Visits p c s event c' s' := by
  obtain ⟨v, s₁, hanswers, -, ⟨hnull, rfl, rfl, rfl⟩ | ⟨-, hrun⟩⟩ :=
    eventAt_unanswered henter hprompt hselect hyields
  · exact ⟨some v, takes_esc hback hnull, hanswers⟩
  · obtain ⟨rfl, rfl, rfl⟩ := Step.yields_pure.mp hrun
    refine ⟨some v, ?_, hanswers⟩
    cases v.truthy with
    | true =>
      refine ⟨_, _, rfl, .more hp, ?_⟩
      rcases hp with rfl | rfl <;> rfl
    | false =>
      refine ⟨_, _, rfl, .enough hp, ?_⟩
      rcases hp with rfl | rfl <;> rfl

/-! ### Finding the job -/

theorem visits_entry (h : (eventAt table handlers Spot.entry.name Prepare.entry).Yields
    c s event c' s') : Visits .entry c s event c' s' := by
  obtain ⟨hevent, hc, rfl⟩ := yields_ofChange.mp h
  refine ⟨none, ?_, rfl⟩
  rw [hevent, hc]
  simp only [enter]
  cases hrecent : c.recent.isEmpty with
  | true => exact ⟨_, _, rfl, .searchFirst hrecent, rfl⟩
  | false => exact ⟨_, _, rfl, .showRecent hrecent, rfl⟩

theorem takes_selectRecent (h : (Handler.run (.settling noRecent (.ofChange
    (some ["select:search_all", "select:recent"]) selectRecent)) (some v)).Yields
      c s event c' s') : Takes .recentMenu (some v) c event c' ∧ s'.answers = s.answers := by
  rcases yields_settling rfl h with ⟨part, said, hpart, hsaid, rfl, rfl⟩ | ⟨-, h⟩
  · obtain ⟨word, hword, hgives⟩ := settled_gives hpart
    obtain ⟨rfl, hlogs⟩ := hgives _ _ _ hsaid
    obtain rfl : said = "select:search_all" := by
      rw [List.lookup_cons, List.lookup_nil] at hword
      split at hword
      · exact (Option.some.inj hword).symm
      · cases hword
    exact ⟨⟨_, _, rfl, .searchAll, rfl⟩, hlogs.answers_eq⟩
  · obtain ⟨hevent, hc, rfl⟩ := yields_ofChange.mp h
    refine ⟨?_, rfl⟩
    rw [hevent, hc]
    simp only [selectRecent, Option.getD_some]
    cases hjob : c.recent.find? (·.url == v.text) with
    | none => exact ⟨_, _, rfl, .searchAll, rfl⟩
    | some job => exact ⟨_, _, rfl, .pickRecent hjob, rfl⟩

theorem search_yields {query : String} (h : (search query).Yields c s event c' s') :
    (event = .str "search:retry" ∧ c' = c ∧ s.LogsOn s') ∨
      ∃ jobs, Search.resolve query c.jobs = .ok jobs ∧ event = .str (takeFound c jobs).1 ∧
        c' = (takeFound c jobs).2 ∧ s' = s := by
  unfold search at h
  rw [Step.yields_context_bind] at h
  rcases hfound : Search.resolve query c.jobs with f | jobs
  · cases f with
    | complaint complaint =>
      simp only [hfound] at h
      split at h
      · obtain ⟨_, _, _, hpart, hrest⟩ := Step.yields_bind.mp h
        obtain ⟨hprint, rfl⟩ := Step.yields_ofDesk.mp hpart
        obtain ⟨rfl, rfl, rfl⟩ := Step.yields_pure.mp hrest
        exact .inl ⟨rfl, rfl, Desk.onlyLogs_printComplaint _ _ _ _ hprint⟩
      · exact absurd h Step.yields_throw
    | _ =>
      simp only [hfound] at h
      exact absurd h Step.yields_throw
  · simp only [hfound] at h
    rw [Step.yields_change_bind, Step.yields_pure] at h
    exact .inr ⟨jobs, rfl, h⟩

theorem takes_submitSearch {way : Way} (h : (submitSearch v).Yields c s event c' s') :
    Takes (.search way) (some v) c event c' ∧ s'.answers = s.answers := by
  have hretry : (Spot.search way).state.target? "search:retry"
      = some (Goal.next (.search way)).word := by cases way <;> rfl
  unfold submitSearch at h
  rw [Step.yields_change_bind] at h
  rcases hdemand : demanded "search:retry" .jobNameRequired .jobNameRequiredHint v with _ | part
  · rw [hdemand] at h
    rcases search_yields h with ⟨rfl, rfl, hlogs⟩ | ⟨jobs, hfound, rfl, rfl, rfl⟩
    · exact ⟨⟨_, _, rfl, .searchAgain, hretry⟩, hlogs.answers_eq⟩
    · refine ⟨?_, rfl⟩
      unfold takeFound
      split
      · exact ⟨_, _, rfl, .searchOne hfound, by cases way <;> rfl⟩
      · exact ⟨_, _, rfl, .searchSeveral hfound, by cases way <;> rfl⟩
  · rw [hdemand] at h
    obtain ⟨said, hpart, rfl⟩ := Step.yields_map.mp h
    obtain ⟨hsaid, rfl⟩ := Step.yields_ofDesk.mp hpart
    obtain ⟨rfl, hlogs⟩ := (demanded_gives hdemand).2 _ _ _ hsaid
    exact ⟨⟨_, _, rfl, .searchAgain, hretry⟩, hlogs.answers_eq⟩

theorem takes_selectCandidate {way : Way} : Takes (.results way) (some v) c
    (.str (selectCandidate v c).1) (selectCandidate v c).2 := by
  unfold selectCandidate
  cases hjob : Job.find? c.candidates v.text with
  | none => exact ⟨_, _, rfl, .resultsAgain hjob, by cases way <;> rfl⟩
  | some job => exact ⟨_, _, rfl, .pickResult hjob, by cases way <;> rfl⟩

/-! ### Mode and branch -/

theorem takes_selectMode : Takes .branchMode (some v) c (.str (selectMode v c).1)
    (selectMode v c).2 := by
  unfold selectMode
  dsimp only
  split
  · exact ⟨_, _, rfl, .modeWithout, rfl⟩
  · split
    · exact ⟨_, _, rfl, .modeCustom, rfl⟩
    · exact ⟨_, _, rfl, .modeBranch, rfl⟩

theorem takes_prepareBranch (h : (prepareBranch v).Yields c s event c' s') :
    Takes .prepareBranch none c event c' ∧ s'.answers = s.answers := by
  unfold prepareBranch at h
  rw [Step.yields_context_bind] at h
  cases hneed : need c with
  | nothing =>
    simp only [hneed] at h
    rw [Step.yields_change_bind, Step.yields_pure] at h
    obtain ⟨rfl, rfl, rfl⟩ := h
    exact ⟨⟨_, _, rfl, .ready hneed, rfl⟩, rfl⟩
  | key =>
    simp only [hneed] at h
    obtain ⟨rfl, rfl, rfl⟩ := Step.yields_pure.mp h
    exact ⟨⟨_, _, rfl, .needKey hneed, rfl⟩, rfl⟩
  | job =>
    simp only [hneed] at h
    obtain ⟨rfl, rfl, rfl⟩ := Step.yields_pure.mp h
    exact ⟨⟨_, _, rfl, .needJob hneed, rfl⟩, rfl⟩
  | mode =>
    simp only [hneed] at h
    rw [Step.yields_change_bind, Step.yields_pure] at h
    obtain ⟨rfl, rfl, rfl⟩ := h
    exact ⟨⟨_, _, rfl, .needMode hneed, rfl⟩, rfl⟩
  | branch =>
    simp only [hneed] at h
    obtain ⟨choices, _, s₁, hpart, hrest⟩ := Step.yields_bind.mp h
    obtain ⟨hchoices, rfl⟩ := Step.yields_ofDesk.mp hpart
    rw [Step.yields_change_bind] at hrest
    obtain ⟨removable, _, s₂, hpart, hrest⟩ := Step.yields_bind.mp hrest
    obtain ⟨hremovable, rfl⟩ := Step.yields_ofDesk.mp hpart
    rw [Step.yields_change_bind, Step.yields_pure] at hrest
    obtain ⟨rfl, rfl, rfl⟩ := hrest
    -- the job file is read twice, and neither reading takes an answer
    have hsame := ((Branches.onFolder_history _ _).answers_eq hremovable).trans
      ((Branches.onFolder_offered _ _).answers_eq hchoices)
    refine ⟨?_, hsame⟩
    cases hempty : choices.isEmpty with
    | true => exact ⟨_, _, rfl, .offerNone hneed hempty, rfl⟩
    | false => exact ⟨_, _, rfl, .offer hneed hempty, rfl⟩

theorem takes_selectBranch (h : (Handler.run (.settling noBranch (.ofChange
    (some ["branch:remove", "branch:entry", "branch:selected"]) selectBranch)) (some v)).Yields
      c s event c' s') : Takes .branchSelect (some v) c event c' ∧ s'.answers = s.answers := by
  rcases yields_settling rfl h with ⟨part, said, hpart, hsaid, rfl, rfl⟩ | ⟨hnone, h⟩
  · unfold noBranch at hpart
    split at hpart
    · obtain rfl := Option.some.inj hpart
      obtain ⟨rfl, rfl⟩ := Desk.yields_pure.mp hsaid
      exact ⟨⟨_, _, rfl, .otherBranch, rfl⟩, rfl⟩
    · cases hpart
  · obtain ⟨hevent, hc, rfl⟩ := yields_ofChange.mp h
    refine ⟨?_, rfl⟩
    rw [hevent, hc]
    simp only [selectBranch, Option.getD_some]
    split
    · cases hempty : c.removable.isEmpty with
      | true => exact ⟨_, _, rfl, .otherBranch, rfl⟩
      | false => exact ⟨_, _, rfl, .someRemoval hempty, rfl⟩
    · -- a blank name settles the event at once, so this one is not blank
      have hname : Text.trim v.text ≠ "" := by
        intro hblank
        simp [noBranch, hblank] at hnone
      exact ⟨_, _, rfl, .pickBranch hname, rfl⟩

theorem takes_selectRemoval (h : (Handler.run (.settling noRemoval (.ofChange
    (some ["remove:selected"]) selectRemoval)) (some v)).Yields c s event c' s') :
    Takes .branchRemove (some v) c event c' ∧ s'.answers = s.answers := by
  rcases yields_settling rfl h with ⟨part, said, hpart, hsaid, rfl, rfl⟩ | ⟨hnone, h⟩
  · unfold noRemoval at hpart
    split at hpart
    · obtain rfl := Option.some.inj hpart
      obtain ⟨rfl, rfl⟩ := Desk.yields_pure.mp hsaid
      exact ⟨⟨_, _, rfl, .noRemoval, rfl⟩, rfl⟩
    · cases hpart
  · obtain ⟨rfl, rfl, rfl⟩ := yields_ofChange.mp h
    have hname : Text.trim v.text ≠ "" := by
      intro hblank
      simp [noRemoval, hblank] at hnone
    exact ⟨⟨_, _, rfl, .pickRemoval hname, rfl⟩, rfl⟩

theorem onlyLogs_reportRemoved (branch : String) : Desk.OnlyLogs (do
    Console.printOk (← Desk.say Dialog.branchRemoved [("branch", .str branch)])) :=
  Desk.onlyLogs_bind (Desk.onlyLogs_say _ _) fun _ => Desk.onlyLogs_printOk _

theorem takes_remove (h : (remove v).Yields c s event c' s') :
    Takes .branchRemoveApply none c event c' ∧ s'.answers = s.answers := by
  unfold remove at h
  rw [Step.yields_context_bind, Step.yields_change_bind] at h
  split at h
  · dsimp only at h
    obtain ⟨removed, _, s₁, hpart, hrest⟩ := Step.yields_bind.mp h
    obtain ⟨hforget, rfl⟩ := Step.yields_ofDesk.mp hpart
    have hsame := (Branches.onFolder_forget _ _ _).answers_eq hforget
    cases removed with
    | true =>
      rw [if_pos rfl, Step.yields_change_bind] at hrest
      obtain ⟨_, _, s₂, hpart, hend⟩ := Step.yields_bind.mp hrest
      obtain ⟨hprint, rfl⟩ := Step.yields_ofDesk.mp hpart
      obtain ⟨rfl, rfl, rfl⟩ := Step.yields_pure.mp hend
      have hlogs := onlyLogs_reportRemoved _ _ _ _ hprint
      exact ⟨⟨_, _, rfl, .removeBranch, rfl⟩, hlogs.answers_eq.trans hsame⟩
    | false =>
      rw [if_neg Bool.false_ne_true] at hrest
      obtain ⟨rfl, rfl, rfl⟩ := Step.yields_pure.mp hrest
      exact ⟨⟨_, _, rfl, .keepBranch, rfl⟩, hsame⟩
  · obtain ⟨rfl, rfl, rfl⟩ := Step.yields_pure.mp h
    exact ⟨⟨_, _, rfl, .keepBranch, rfl⟩, rfl⟩

theorem takes_submitBranch (h : (Handler.run (.settling branchDemanded (.ofChange
    (some ["branch:retry", "branch:selected"]) submitBranch)) (some v)).Yields c s event c' s') :
    Takes .branchEntry (some v) c event c' ∧ s'.answers = s.answers := by
  rcases yields_settling rfl h with ⟨part, said, hpart, hsaid, rfl, rfl⟩ | ⟨hnone, h⟩
  · obtain ⟨rfl, hlogs⟩ := (demanded_gives hpart).2 _ _ _ hsaid
    exact ⟨⟨_, _, rfl, .branchAgain, rfl⟩, hlogs.answers_eq⟩
  · obtain ⟨rfl, rfl, rfl⟩ := yields_ofChange.mp h
    exact ⟨⟨_, _, rfl, .typeBranch (typed_ne_of_demanded hnone), rfl⟩, rfl⟩

/-! ### Parameters of one's own -/

theorem onlyLogs_reportTaken (key : String) : Desk.OnlyLogs (do
    Console.printError (← Desk.say Dialog.paramAlreadySet [("param", .str key)])
    Console.printHint (← Desk.say Dialog.paramAlreadySetHint [])) := by
  refine Desk.onlyLogs_bind (Desk.onlyLogs_say _ _) fun _ => ?_
  refine Desk.onlyLogs_bind (Desk.onlyLogs_printError _) fun _ => ?_
  exact Desk.onlyLogs_bind (Desk.onlyLogs_say _ _) fun _ => Desk.onlyLogs_printHint _

theorem takes_submitKey (h : (Handler.run (.settling keyDemanded (.ofStep
    (some ["param:key_retry", "param:key_ready"]) submitKey)) (some v)).Yields c s event c' s') :
    Takes .customKey (some v) c event c' ∧ s'.answers = s.answers := by
  rcases yields_settling rfl h with ⟨part, said, hpart, hsaid, rfl, rfl⟩ | ⟨hnone, h⟩
  · obtain ⟨rfl, hlogs⟩ := (demanded_gives hpart).2 _ _ _ hsaid
    exact ⟨⟨_, _, rfl, .keyAgain, rfl⟩, hlogs.answers_eq⟩
  · rw [yields_ofStep] at h
    unfold submitKey at h
    dsimp only [Option.getD_some] at h
    rw [Step.yields_context_bind] at h
    split at h
    · obtain ⟨_, _, s₁, hpart, hrest⟩ := Step.yields_bind.mp h
      obtain ⟨hprint, rfl⟩ := Step.yields_ofDesk.mp hpart
      obtain ⟨rfl, rfl, rfl⟩ := Step.yields_pure.mp hrest
      have hlogs := onlyLogs_reportTaken _ _ _ _ hprint
      exact ⟨⟨_, _, rfl, .keyAgain, rfl⟩, hlogs.answers_eq⟩
    · rename_i hnew
      rw [Step.yields_change_bind, Step.yields_pure] at h
      obtain ⟨rfl, rfl, rfl⟩ := h
      have hnew : Text.lower (typed v) ∉ c.taken := by simpa using hnew
      exact ⟨⟨_, _, rfl, .typeKey (typed_ne_of_demanded hnone) hnew, rfl⟩, rfl⟩

theorem takes_submitValue : Takes .customValue (some v) c (.str (submitValue v c).1)
    (submitValue v c).2 := by
  unfold submitValue
  dsimp only
  split
  · rename_i hblank
    exact ⟨_, _, rfl, .valueAgain (by simpa using hblank), rfl⟩
  · rename_i hname
    cases hkey : c.pendingKey with
    | none => simp [hkey] at hname
    | some key =>
      rw [hkey] at hname
      exact ⟨_, _, rfl, .typeValue hkey (by simpa using hname), rfl⟩

theorem takes_cancelKey : Takes .customCancel none c (.str (cancelKey v c).1)
    (cancelKey v c).2 := by
  unfold cancelKey
  dsimp only
  split
  · rename_i hgiven
    refine ⟨_, _, rfl, .cancelDone ?_, rfl⟩
    simpa [Context.branchText] using hgiven
  · rename_i hnothing
    obtain ⟨hparams, hbranch⟩ : c.customParams = [] ∧ c.branchText = "" := by
      simpa [Context.branchText] using hnothing
    exact ⟨_, _, rfl, .cancelMode hparams hbranch, rfl⟩

/-! ### Whole visits -/

/-- Whatever leaves a state is one of its turns. -/
theorem visits_of_yields (p : Spot)
    (h : (eventAt table handlers p.name p.state).Yields c s event c' s') :
    Visits p c s event c' s' := by
  cases p with
  | entry => exact visits_entry h
  | recentMenu =>
    exact visits_answered rfl rfl rfl rfl rfl (fun _ _ hrun => takes_selectRecent hrun) h
  | search way =>
    cases way with
    | recent | direct =>
      refine visits_answered rfl rfl rfl rfl rfl (fun v s₁ hrun => ?_) h
      rw [yields_ofStep] at hrun
      exact takes_submitSearch hrun
  | results way =>
    refine visits_answered rfl rfl rfl rfl rfl (fun v s₁ hrun => ?_) h
    obtain ⟨rfl, rfl, rfl⟩ := yields_ofChange.mp hrun
    exact ⟨takes_selectCandidate, rfl⟩
  | branchMode =>
    refine visits_answered rfl rfl rfl rfl rfl (fun v s₁ hrun => ?_) h
    obtain ⟨rfl, rfl, rfl⟩ := yields_ofChange.mp hrun
    exact ⟨takes_selectMode, rfl⟩
  | prepareBranch =>
    obtain ⟨htakes, hsame⟩ := takes_prepareBranch (v := .null) h
    exact ⟨none, htakes, hsame.symm⟩
  | branchSelect =>
    exact visits_answered rfl rfl rfl rfl rfl (fun _ _ hrun => takes_selectBranch hrun) h
  | branchRemove =>
    exact visits_answered rfl rfl rfl rfl rfl (fun _ _ hrun => takes_selectRemoval hrun) h
  | branchRemoveApply =>
    obtain ⟨htakes, hsame⟩ := takes_remove (v := .null) h
    exact ⟨none, htakes, hsame.symm⟩
  | branchEntry =>
    exact visits_answered rfl rfl rfl rfl rfl (fun _ _ hrun => takes_submitBranch hrun) h
  | customConfirm => exact visits_confirm (.inl rfl) rfl rfl rfl rfl h
  | customKey =>
    exact visits_answered rfl rfl rfl rfl rfl (fun _ _ hrun => takes_submitKey hrun) h
  | customValue =>
    refine visits_answered rfl rfl rfl rfl rfl (fun v s₁ hrun => ?_) h
    obtain ⟨rfl, rfl, rfl⟩ := yields_ofChange.mp hrun
    exact ⟨takes_submitValue, rfl⟩
  | customMore => exact visits_confirm (.inr rfl) rfl rfl rfl rfl h
  | customCancel =>
    obtain ⟨rfl, rfl, rfl⟩ := yields_ofChange.mp h
    exact ⟨none, takes_cancelKey, rfl⟩

/-- **Everything a move of the flow can do.** -/
theorem turn_of_moves {a b : Position Context} {event : String}
    (h : Moves table handlers a event b) :
    ∃ p answer goal, p.name = a.state ∧ goal.word = b.state ∧
      Turn p answer a.ctx event goal b.ctx ∧
      a.session.answers = answer.toList.map .value ++ b.session.answers := by
  obtain ⟨state, s, hstate, htarget, hevent, hsession⟩ := h
  obtain ⟨p, hp⟩ := Spot.exists_of_state? hstate
  rw [← hp, p.state?_name] at hstate
  obtain rfl := Option.some.inj hstate
  rw [← hp] at hevent
  obtain ⟨answer, ⟨word, goal, hword, hturn, hgoal⟩, hanswers⟩ := visits_of_yields p hevent
  obtain rfl := Json.str.inj hword
  refine ⟨p, answer, goal, hp, ?_, hturn, ?_⟩
  · exact Option.some.inj (hgoal.symm.trans htarget)
  · rw [hanswers, hsession]

/-! ### What no turn changes -/

/-- The server, the jobs and the parameter of the branch are the same. -/
structure SameGround (c c' : Context) : Prop where
  settings : c'.settings = c.settings
  jobs : c'.jobs = c.jobs
  recent : c'.recent = c.recent
  branchParam : c'.branchParam = c.branchParam

theorem SameGround.refl (c : Context) : SameGround c c := ⟨rfl, rfl, rfl, rfl⟩

theorem SameGround.trans {c₁ c₂ c₃ : Context} (h₁ : SameGround c₁ c₂) (h₂ : SameGround c₂ c₃) :
    SameGround c₁ c₃ :=
  ⟨h₂.settings.trans h₁.settings, h₂.jobs.trans h₁.jobs, h₂.recent.trans h₁.recent,
    h₂.branchParam.trans h₁.branchParam⟩

theorem SameGround.symm (h : SameGround c c') : SameGround c' c :=
  ⟨h.settings.symm, h.jobs.symm, h.recent.symm, h.branchParam.symm⟩

theorem sameGround_select (url : String) (label : Json) : SameGround c (c.select url label) := by
  unfold Context.select
  cases c.modeAsked <;> exact ⟨rfl, rfl, rfl, rfl⟩

theorem sameGround_of_turn {word : String} {goal : Goal} (h : Turn p answer c word goal c') :
    SameGround c c' := by
  cases h with
  | @pickRecent v c job =>
    have hselect := sameGround_select (c := c) job.url (recentLabel c job)
    exact ⟨hselect.settings, hselect.jobs, hselect.recent, hselect.branchParam⟩
  | @searchOne way v c job =>
    have hselect := sameGround_select (c := { c with query := typed v }) job.url job.displayName
    exact ⟨hselect.settings, hselect.jobs, hselect.recent, hselect.branchParam⟩
  | @pickResult way v c job =>
    have hselect := sameGround_select (c := c) job.url job.displayName
    exact ⟨hselect.settings, hselect.jobs, hselect.recent, hselect.branchParam⟩
  | _ => exact ⟨rfl, rfl, rfl, rfl⟩

/-! ### What every turn keeps -/

/-- A property of contexts and goals that holds where a turn leads when it holds where the
turn starts. -/
def Kept (P : Context → Goal → Prop) : Prop :=
  ∀ p answer c word goal c', Turn p answer c word goal c' → P c (.next p) → P c' goal

/-- The property holds at a position of a run. -/
def HoldsAt (P : Context → Goal → Prop) (a : Position Context) : Prop :=
  ∃ goal : Goal, goal.word = a.state ∧ P a.ctx goal

variable {P : Context → Goal → Prop} {a b : Position Context} {word : String}

theorem HoldsAt.spot (h : HoldsAt P a) {p : Spot} (hp : p.name = a.state) : P a.ctx (.next p) := by
  obtain ⟨goal, hgoal, hP⟩ := h
  -- the words of outcomes are no names of states, so the goal is the state
  have hword : goal.word = p.name := hgoal.trans hp.symm
  obtain ⟨q, rfl⟩ := Goal.eq_next_of_word (by rw [hword, p.not_reserved])
  obtain rfl := Spot.name_injective hword
  exact hP

theorem Kept.holdsAt_of_moves (hkept : Kept P) (h : Moves table handlers a word b)
    (ha : HoldsAt P a) : HoldsAt P b := by
  obtain ⟨p, answer, goal, hp, hgoal, hturn, -⟩ := turn_of_moves h
  exact ⟨goal, hgoal, hkept _ _ _ _ _ _ hturn (ha.spot hp)⟩

theorem Kept.holdsAt_of_reaches (hkept : Kept P) (h : Reaches table handlers a b)
    (ha : HoldsAt P a) : HoldsAt P b := by
  refine h.invariant (P := HoldsAt P) ha ?_
  rintro x y hx ⟨⟨word, hmoves⟩, -⟩
  exact hkept.holdsAt_of_moves hmoves hx

theorem Kept.of_ends (hkept : Kept P) {outcome : Outcome} (h : Ends table handlers a outcome b)
    (ha : HoldsAt P a) : P b.ctx (.out outcome) := by
  obtain ⟨⟨word, hmoves⟩, hout⟩ := h
  obtain ⟨goal, hgoal, hP⟩ := hkept.holdsAt_of_moves hmoves ha
  rw [← hgoal] at hout
  obtain rfl := Goal.eq_out_of_word hout
  exact hP

/-- A run that starts in a state comes to states. -/
theorem exists_spot_of_reaches (h : Reaches table handlers a b)
    (ha : ∃ p : Spot, p.name = a.state) : ∃ p : Spot, p.name = b.state := by
  refine h.invariant (P := fun x => ∃ p : Spot, p.name = x.state) ha ?_
  rintro x y - ⟨⟨word, hmoves⟩, hout⟩
  obtain ⟨p, answer, goal, -, hgoal, -⟩ := turn_of_moves hmoves
  rw [← hgoal] at hout
  obtain ⟨q, rfl⟩ := Goal.eq_next_of_word hout
  exact ⟨q, hgoal⟩

theorem sameGround_of_moves (h : Moves table handlers a word b) : SameGround a.ctx b.ctx := by
  obtain ⟨p, answer, goal, -, -, hturn, -⟩ := turn_of_moves h
  exact sameGround_of_turn hturn

theorem sameGround_of_reaches (h : Reaches table handlers a b) : SameGround a.ctx b.ctx := by
  refine h.invariant (P := fun x => SameGround a.ctx x.ctx) (.refl _) ?_
  rintro x y hx ⟨⟨word, hmoves⟩, -⟩
  exact hx.trans (sameGround_of_moves hmoves)

end BuildDesk.Flow.Prepare
