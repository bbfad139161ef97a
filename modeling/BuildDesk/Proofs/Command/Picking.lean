/-
Picking a job.

The commands about builds that there are already ask for the job alone.  They do so by the flow that
prepares a build, in the mode in which no inputs are wanted, and most of that flow is then out of
reach: a job that is chosen completes the run at once.

* `Definition.CancelledAtRoot` — a prompt with nothing before it is cancelled;
* `Prepare.IsIdle`, `isIdle_of_holds` — in the mode without inputs the run stays with the job;
* `picking`, `Wish.pickFrom`, `Wish.ComesTo` — picking a job, and where the run comes;
* `pickFrom_yields`, `pickFrom_fails` — what is picked where the run ends, and why it may fail;
* `picking_asks_for_job` — so nothing but the job is asked for, and it is shown as what is known
  of it.
-/
import BuildDesk.Command.Target
import BuildDesk.Proofs.Command.Departure
import BuildDesk.Proofs.Command.Shape
import BuildDesk.Proofs.Flow.Shown

namespace BuildDesk

namespace Flow

section

variable {κ : Type} {d : Definition κ} {r : Registry κ} {a b : Position κ} {event : String}

/-- The state is a root of the flow. -/
def Definition.isRoot (d : Definition κ) (name : String) : Bool :=
  (d.state? name).any fun state => state.root

/-- A prompt at a root of the flow is cancelled. -/
def Definition.CancelledAtRoot (d : Definition κ) (r : Registry κ) (a : Position κ) : Prop :=
  d.isRoot a.state = true ∧ d.asks a.state = true ∧
    ∃ v, v.isNull = true ∧ Takes d r a a.state v

/-- A prompt that is cancelled is left by `esc`. -/
theorem eq_esc_of_moves {v : Json} (h : Moves d r a event b) (hasks : d.asks a.state = true)
    (hanswers : a.Answers v) (hnull : v.isNull = true) : event = "esc" := by
  obtain ⟨state, prompt, hstate, henter, hprompt⟩ := exists_of_asks hasks
  obtain ⟨state', s, hstate', -, hevent, -⟩ := h
  obtain rfl := Option.some.inj (hstate.symm.trans hstate')
  rw [eventAt_prompt henter hprompt] at hevent
  obtain ⟨w, s₁, hw, -, ⟨-, hesc, -⟩ | ⟨hsome, -⟩⟩ := promptEvent_yields hevent
  · exact Json.str.inj hesc
  · rw [hanswers.unique ⟨_, hw⟩, hsome] at hnull
    cases hnull

end

namespace Prepare

variable {p : Spot} {start : Inputs} {c : Context} {a b : Position Context} {outcome : Outcome}
variable {s : Session}

theorem returns : table.Returns handlers :=
  returns_of_shallow checked shallow ordinary (sound (E := Event.IsAny)).isTame

/-- The prompts that find the job. -/
def finding : List String :=
  ["recent_menu", "search_from_recent", "search_direct", "results_from_recent", "results_direct"]

theorem mem_finding_of_begins :
    ∀ p : Spot, p.begins = true → table.asks p.name = true → p.name ∈ finding :=
  Spot.forall_of_all (by decide)

/-- The roots of the flow are where a prompt that is cancelled leads out of the command. -/
theorem isRoot_name :
    ∀ p : Spot, table.isRoot p.name = true ↔ p.back? = some (.out .exitCommand) :=
  Spot.forall_of_all (by decide)

/-! ### Without inputs -/

/-- The run is where the job is found, or where a found job is prepared, and its inputs are those
of the start. -/
structure IsIdle (start : Inputs) (a : Position Context) : Prop where
  spot : ∃ p : Spot, p.name = a.state ∧ p.begins = true
  inputs : a.ctx.inputs = start

/-- Where no inputs are wanted from the start, nothing is opened or filled. -/
theorem isIdle_of_holds (hstart : start.mode = some .without) (hp : p.name = a.state)
    (h : Holds start a.ctx p) : IsIdle start a := by
  -- what is open or filled started with no mode at all
  have hopen : ∀ {now : Inputs}, ¬ Open start now := fun ho => by
    rw [ho.start] at hstart
    cases hstart
  have hfilled : ¬ Filled start a.ctx := fun hf => by
    rw [hf.start] at hstart
    cases hstart
  cases p with
  | entry | recentMenu | search | results => exact ⟨⟨_, hp, rfl⟩, h.resolve_right hopen⟩
  | prepareBranch => exact ⟨⟨_, hp, rfl⟩, h.resolve_right fun h => hopen h.1⟩
  | branchMode => exact absurd h hopen
  | branchSelect | branchRemove | branchEntry | branchRemoveApply => exact absurd h.1 hopen
  | customConfirm | customValue | customMore => exact absurd h.1 hfilled
  | customKey | customCancel => exact absurd h hfilled

theorem IsIdle.mem_finding (h : IsIdle start a) (hasks : table.asks a.state = true) :
    a.state ∈ finding := by
  obtain ⟨p, hp, hbegins⟩ := h.spot
  rw [← hp] at hasks ⊢
  exact mem_finding_of_begins p hbegins hasks

theorem IsIdle.need (hstart : start.mode = some .without) (h : IsIdle start a) :
    need a.ctx = .nothing := by
  have hmode : a.ctx.mode = some .without := (congrArg Inputs.mode h.inputs).trans hstart
  exact need_eq_nothing_iff.mpr (.inl hmode)

/-- A job that is chosen completes the run. -/
theorem exists_ends_of_ready (hneed : need a.ctx = .nothing) (hat : a.state = "prepare_branch") :
    ∃ b, Ends table handlers a .complete b := by
  have hstate : table.state? a.state = some prepare := by
    rw [hat]
    rfl
  have hevent : (eventAt table handlers a.state prepare).Yields a.ctx a.session
      (.str "branch:ready") { a.ctx with
        branch := if Text.trim a.ctx.branchText == "" then none
          else some (Text.trim a.ctx.branchText) } a.session := by
    rw [eventAt_router rfl rfl]
    show (prepareBranch .null).Yields _ _ _ _ _
    unfold prepareBranch
    rw [Step.yields_context_bind, hneed]
    exact Step.yields_change_bind.mpr (Step.yields_pure.mpr ⟨rfl, rfl, rfl⟩)
  obtain ⟨b, hmove, hto, -⟩ := exists_move Outcome.complete.word hstate rfl hevent
  exact ⟨b, ⟨_, hmove⟩, by rw [hto, Outcome.ofWord?_word]⟩

/-- The beginning leads on. -/
theorem exists_moves_of_entry (hat : a.state = "entry") :
    ∃ event b, Moves table handlers a event b := by
  have hstate : table.state? a.state = some entry := by
    rw [hat]
    rfl
  have hevent : (eventAt table handlers a.state entry).Yields a.ctx a.session
      (.str (enter .null a.ctx).1) a.ctx a.session := by
    rw [eventAt_router rfl rfl]
    exact yields_ofChange.mpr ⟨rfl, rfl, rfl⟩
  have htarget : ∃ target, entry.target? (enter .null a.ctx).1 = some target := by
    unfold enter
    cases a.ctx.recent.isEmpty with
    | true => exact ⟨"search_direct", rfl⟩
    | false => exact ⟨"recent_menu", rfl⟩
  obtain ⟨target, htarget⟩ := htarget
  obtain ⟨b, hmove, -⟩ := exists_move target hstate htarget hevent
  exact ⟨_, b, hmove⟩

/-- Only a prompt can fail. -/
theorem IsIdle.asks_of_fails {f : Fault} {c : Context} (hstart : start.mode = some .without)
    (h : IsIdle start a) (hfails : (visit table handlers a.state).Fails a.ctx a.session f c s) :
    table.asks a.state = true := by
  obtain ⟨p, hp, hbegins⟩ := h.spot
  cases p with
  | entry =>
    obtain ⟨event, b, hmove⟩ := exists_moves_of_entry hp.symm
    exact absurd hmove (stops_of_fails hfails b event)
  | prepareBranch =>
    obtain ⟨b, ⟨event, hmove⟩, -⟩ := exists_ends_of_ready (h.need hstart) hp.symm
    exact absurd hmove (stops_of_fails hfails b event)
  -- the other states ask something
  | recentMenu => exact hp ▸ asks_of_back (p := .recentMenu) rfl
  | search way => cases way <;> exact hp ▸ asks_of_back rfl
  | results way => exact hp ▸ asks_of_back rfl
  | _ => cases hbegins

/-- Cancelling at a root leads out of the command. -/
theorem exists_ends_of_root (h : table.CancelledAtRoot handlers a) :
    ∃ b, Ends table handlers a .exitCommand b := by
  obtain ⟨hroot, hasks, v, hnull, -, hanswers, event, b, hmove⟩ := h
  obtain rfl := eq_esc_of_moves hmove hasks hanswers hnull
  obtain ⟨state, s, hstate, htarget, -⟩ := id hmove
  obtain ⟨p, hp⟩ := Spot.exists_of_state? hstate
  rw [← hp] at hroot hstate
  obtain rfl := Option.some.inj (p.state?_name.symm.trans hstate)
  have hto := Option.some.inj ((target?_esc ((isRoot_name p).mp hroot)).symm.trans htarget)
  exact ⟨b, ⟨_, hmove⟩, by rw [← hto, Goal.word, Outcome.ofWord?_word]⟩

/-- Where the job is found or prepared, two turns leave the flow. -/
theorem Turn.cases_of_out {answer : Option Json} {c c' : Context} {event : String}
    (hbegins : p.begins = true) (h : Turn p answer c event (.out outcome) c') :
    outcome = .exitCommand ∧ c' = c ∧ p.back? = some (.out .exitCommand) ∧
        (∃ v, answer = some v ∧ v.isNull = true) ∨
      outcome = .complete ∧ p = .prepareBranch ∧ c' = { c with
        branch := if Text.trim c.branchText == "" then none
          else some (Text.trim c.branchText) } := by
  cases h with
  | @esc _ _ v _ hback hnull =>
    obtain rfl : outcome = .exitCommand := by
      rcases p with _ | _ | ⟨_ | _⟩ | _ | _ | _ | _ | _ | _ | _ | _ | _ | _ | _ <;>
        cases hback <;> first | rfl | cases hbegins
    exact .inl ⟨rfl, rfl, hback, v, rfl, hnull⟩
  | ready => exact .inr ⟨rfl, rfl, rfl⟩
  | modeWithout | cancelDone => cases hbegins
  | enough hwhere => rcases hwhere with rfl | rfl <;> cases hbegins

/-- The run ends where the user cancels at a root, or where a job is chosen, and leaves the context
as it is. -/
theorem IsIdle.cases_of_ends (hfresh : start.IsFresh) (h : IsIdle start a)
    (hends : Ends table handlers a outcome b) : b.ctx = a.ctx ∧
      (outcome = .exitCommand ∧ table.CancelledAtRoot handlers a ∨
        outcome = .complete ∧ a.state = "prepare_branch") := by
  obtain ⟨⟨event, hmove⟩, hout⟩ := hends
  obtain ⟨q, hq, hbegins⟩ := h.spot
  obtain ⟨p, answer, goal, hp, hgoal, hturn, hanswers⟩ := turn_of_moves hmove
  obtain rfl := Spot.name_injective (hp.trans hq.symm)
  rw [← hgoal] at hout
  obtain rfl := Goal.eq_out_of_word hout
  rcases hturn.cases_of_out hbegins with ⟨rfl, hctx, hback, v, rfl, hnull⟩ | ⟨rfl, rfl, hctx⟩
  · refine ⟨hctx, .inl ⟨rfl, ?_, ?_, v, hnull, rfl, ⟨_, hanswers⟩, event, b, hmove⟩⟩
    · exact hp ▸ (isRoot_name p).mpr hback
    · exact hp ▸ asks_of_back hback
  · exact ⟨hctx.trans (settled_of_ready hfresh h.inputs), .inr ⟨rfl, hp.symm⟩⟩

end Prepare
end Flow

namespace Command

open BuildDesk.Flow

/-- What is known before a job is picked: no inputs are wanted. -/
def picking (settings : Settings) (jobs : List Job) (recent : List RecentJob) : Prepare.Context :=
  { settings, jobs, recent, mode := some .without }

/-- Picks the job from what is known. -/
def Wish.pickFrom (wish : Wish) (ctx : Prepare.Context) : Desk (Option (String × Json)) := do
  let found ← wish.prepare ctx
  pure (found.bind chosen)

/-- The run comes to a position: it begins as the wish demands, and goes on from there. -/
def Wish.ComesTo (wish : Wish) (ctx : Prepare.Context) (s : Session)
    (a : Position Prepare.Context) : Prop :=
  ∃ start c s₁, (wish.preset ctx).Yields s (start, c) s₁ ∧
    Reaches Prepare.table Prepare.handlers
      (Prepare.table.startAt (Prepare.table.startState start) c s₁) a

section

variable {wish : Wish} {settings : Settings} {jobs : List Job} {recent : List RecentJob}
variable {ctx : Prepare.Context} {s s' : Session} {a : Position Prepare.Context}
variable {picked : Option (String × Json)} {f : Fault}

/-! ### What is picked -/

/-- What is picked is what the run has chosen where it is complete. -/
theorem pickFrom_yields : (wish.pickFrom ctx).Yields s picked s' ↔
    ∃ a b outcome, wish.ComesTo ctx s a ∧ Ends Prepare.table Prepare.handlers a outcome b ∧
      b.session = s' ∧ picked = if outcome == .complete then Wish.chosen b.ctx else none := by
  have hchosen : ∀ (outcome : Outcome) (c : Prepare.Context),
      (if outcome == .complete && (Wish.chosen c).isSome then some c else none).bind Wish.chosen =
        if outcome == .complete then Wish.chosen c else none := by
    intro outcome c
    cases hcomplete : outcome == .complete with
    | false => rfl
    | true =>
      rcases hsome : Wish.chosen c with _ | found
      · rfl
      · exact hsome
  constructor
  · intro h
    obtain ⟨found, s₂, hprepare, hend⟩ := Desk.yields_bind.mp h
    obtain ⟨rfl, rfl⟩ := Desk.yields_pure.mp hend
    obtain ⟨⟨start, c⟩, s₁, hpreset, hrest⟩ := Desk.yields_bind.mp hprepare
    obtain ⟨⟨ending, c'⟩, s₃, hrun, hend⟩ := Desk.yields_bind.mp hrest
    obtain ⟨rfl, rfl⟩ := Desk.yields_pure.mp hend
    obtain ⟨a, b, hreach, -, hends, rfl, rfl⟩ := reaches_of_run (runOn_yields.mp hrun)
    exact ⟨a, b, ending.outcome, ⟨start, c, s₁, hpreset, hreach⟩, hends, rfl, hchosen _ _⟩
  · rintro ⟨a, b, outcome, ⟨start, c, s₁, hpreset, hreach⟩, hends, rfl, rfl⟩
    -- a run has one end, so this is the one that it comes to
    have hrun := runOn_yields.mpr (run_of_ends Prepare.returns start hreach hends)
    refine Desk.yields_bind.mpr ⟨_, b.session, Desk.yields_bind.mpr ⟨(start, c), s₁, hpreset,
      Desk.yields_bind.mpr ⟨_, b.session, hrun, Desk.yields_pure.mpr ⟨rfl, rfl⟩⟩⟩, ?_⟩
    exact Desk.yields_pure.mpr ⟨(hchosen outcome b.ctx).symm, rfl⟩

/-- Picking fails when the wish cannot be taken up, or a visit of the run fails. -/
theorem pickFrom_fails (h : (wish.pickFrom ctx).Fails s f s') : (wish.preset ctx).Fails s f s' ∨
    ∃ a c, wish.ComesTo ctx s a ∧
      (visit Prepare.table Prepare.handlers a.state).Fails a.ctx a.session f c s' := by
  rcases Desk.fails_bind.mp h with hprepare | ⟨found, s₂, -, hend⟩
  · rcases Desk.fails_bind.mp hprepare with hpreset | ⟨⟨start, c⟩, s₁, hpreset, hrest⟩
    · exact .inl hpreset
    · rcases Desk.fails_bind.mp hrest with hrun | ⟨_, s₃, -, hend⟩
      · obtain ⟨c', hrun⟩ := runOn_fails.mp hrun
        obtain ⟨a, hreach, hvisit⟩ := reaches_of_run_fails Prepare.returns.1
          (Prepare.returns.2 _ _ _ _ _ _ hrun) hrun
        exact .inr ⟨a, c', ⟨start, c, s₁, hpreset, hreach⟩, hvisit⟩
      · exact absurd hend Desk.fails_pure
  · exact absurd hend Desk.fails_pure

/-! ### Where the run comes -/

theorem isFresh_picking : (picking settings jobs recent).inputs.IsFresh :=
  ⟨rfl, rfl, rfl, rfl, rfl, rfl, nofun, .inl rfl, .inr ⟨rfl, rfl, rfl⟩⟩

/-- Wherever the run comes, no inputs are given, and a chosen job has an origin. -/
theorem idle_of_comesTo (h : wish.ComesTo (picking settings jobs recent) s a) :
    Prepare.IsIdle (picking settings jobs recent).inputs a ∧
      Prepare.SameGround (picking settings jobs recent) a.ctx ∧
      Prepare.HoldsAt (Prepare.Traced (given wish.url)) a := by
  obtain ⟨start, c, s₁, hpreset, hreach⟩ := h
  obtain ⟨p, hstart, hbegins, hinputs, hground, htraced⟩ := preset_yields rfl hpreset
  rw [hstart] at hreach
  have hfresh : c.inputs.IsFresh := hinputs ▸ isFresh_picking
  obtain ⟨q, hq⟩ := Prepare.exists_spot_of_reaches hreach ⟨p, rfl⟩
  have hholds := (Prepare.holds_of_reaches hfresh hbegins hreach).spot hq
  refine ⟨?_, hground.trans (Prepare.sameGround_of_reaches hreach),
    Prepare.traced_kept.holdsAt_of_reaches hreach ⟨.next p, rfl, htraced⟩⟩
  rw [← hinputs]
  exact Prepare.isIdle_of_holds (by rw [hinputs]; rfl) hq hholds

/-- Where a found job is prepared, it is chosen, and it has an origin. -/
theorem exists_origin (h : wish.ComesTo (picking settings jobs recent) s a)
    (hat : a.state = "prepare_branch") : ∃ url label, a.ctx.url = some url ∧
      a.ctx.label = some label ∧
      Prepare.Origin (given wish.url) (picking settings jobs recent) url label := by
  obtain ⟨-, hground, htraced⟩ := idle_of_comesTo h
  obtain ⟨url, label, hurl, hlabel, horigin⟩ :=
    (htraced.spot (p := .prepareBranch) hat.symm).origin rfl
  exact ⟨url, label, hurl, hlabel, horigin.of_sameGround hground.symm⟩

theorem chosen_eq {url : String} {label : Json} {c : Prepare.Context} (hurl : c.url = some url)
    (hlabel : c.label = some label) :
    Wish.chosen c = if url = "" then none else some (url, label.orElse (.str url)) := by
  unfold Wish.chosen
  rw [hurl, hlabel]
  by_cases hempty : url = ""
  · rw [if_pos hempty, hempty]
    rfl
  · have hgiven : given (some url) = some url := Option.filter_eq_some_iff.mpr ⟨rfl, by simpa⟩
    rw [if_neg hempty, hgiven]
    rfl

/-- The run ends where the user cancels at a root, and nothing is chosen, or where the chosen job
is prepared. -/
theorem cases_of_comesTo {b : Position Prepare.Context} {outcome : Outcome}
    (h : wish.ComesTo (picking settings jobs recent) s a)
    (hends : Ends Prepare.table Prepare.handlers a outcome b) :
    (if outcome == .complete then Wish.chosen b.ctx else none) = none ∧
        Prepare.table.CancelledAtRoot Prepare.handlers a ∨
      ∃ url label, a.state = "prepare_branch" ∧ a.ctx.url = some url ∧
        Prepare.Origin (given wish.url) (picking settings jobs recent) url label ∧
        (if outcome == .complete then Wish.chosen b.ctx else none) =
          if url = "" then none else some (url, label.orElse (.str url)) := by
  obtain ⟨hctx, ⟨rfl, hroot⟩ | ⟨rfl, hat⟩⟩ :=
    (idle_of_comesTo h).1.cases_of_ends isFresh_picking hends
  · exact .inl ⟨rfl, hroot⟩
  · obtain ⟨url, label, hurl, hlabel, horigin⟩ := exists_origin h hat
    rw [← hctx] at hlabel
    exact .inr ⟨url, label, hat, hurl, horigin, chosen_eq (hctx ▸ hurl) hlabel⟩

/-! ### The whole -/

/-- No job is picked just when the user cancels at a root, or chooses a job without address. -/
theorem pickFrom_yields_none :
    (∃ s', (wish.pickFrom (picking settings jobs recent)).Yields s none s') ↔
      ∃ a, wish.ComesTo (picking settings jobs recent) s a ∧
        (Prepare.table.CancelledAtRoot Prepare.handlers a ∨
          a.state = "prepare_branch" ∧ a.ctx.url = some "") := by
  constructor
  · rintro ⟨s', hyields⟩
    obtain ⟨a, b, outcome, h, hends, -, hnone⟩ := pickFrom_yields.mp hyields
    obtain ⟨-, hroot⟩ | ⟨url, label, hat, hurl, -, hchosen⟩ := cases_of_comesTo h hends
    · exact ⟨a, h, .inl hroot⟩
    · have hempty : url = "" := by
        by_contra hnamed
        rw [if_neg hnamed] at hchosen
        cases hnone.trans hchosen
      exact ⟨a, h, .inr ⟨hat, hempty ▸ hurl⟩⟩
  · rintro ⟨a, h, hroot | ⟨hat, hempty⟩⟩
    · obtain ⟨b, hends⟩ := Prepare.exists_ends_of_root hroot
      exact ⟨_, pickFrom_yields.mpr ⟨a, b, _, h, hends, rfl, rfl⟩⟩
    · obtain ⟨hidle, -⟩ := idle_of_comesTo h
      obtain ⟨b, hends⟩ := Prepare.exists_ends_of_ready (hidle.need rfl) hat
      obtain ⟨url, label, hurl, hlabel, -⟩ := exists_origin h hat
      obtain rfl := Option.some.inj (hurl.symm.trans hempty)
      have hctx := (hidle.cases_of_ends isFresh_picking hends).1
      have hnone : Wish.chosen b.ctx = none := hctx ▸ chosen_eq hempty hlabel
      exact ⟨_, pickFrom_yields.mpr ⟨a, b, _, h, hends, rfl, hnone.symm⟩⟩

/-- A job that is picked has an origin, and is shown as its address where there is no text. -/
theorem origin_of_pickFrom {url : String} {label : Json}
    (hyields : (wish.pickFrom (picking settings jobs recent)).Yields s (some (url, label)) s') :
    url ≠ "" ∧ ∃ shown, Prepare.Origin (given wish.url) (picking settings jobs recent) url shown ∧
      label = shown.orElse (.str url) := by
  obtain ⟨a, b, outcome, h, hends, -, hsome⟩ := pickFrom_yields.mp hyields
  obtain ⟨hnone, -⟩ | ⟨chosen, shown, -, -, horigin, hchosen⟩ := cases_of_comesTo h hends
  · cases hsome.trans hnone
  · by_cases hempty : chosen = ""
    · rw [if_pos hempty] at hchosen
      cases hsome.trans hchosen
    · rw [if_neg hempty] at hchosen
      obtain ⟨rfl, rfl⟩ := Prod.mk.inj (Option.some.inj (hsome.trans hchosen))
      exact ⟨hempty, shown, horigin, rfl⟩

end

/-- How a job is picked from what is known. -/
structure Wish.PicksJob (wish : Wish) (ctx : Prepare.Context) (s : Session) : Prop where
  /-- Nothing but the job is asked for. -/
  asks : ∀ a, wish.ComesTo ctx s a → Prepare.table.asks a.state = true →
    a.state ∈ Prepare.finding
  /-- No inputs are given on the way, or where the run ends. -/
  inputs : ∀ a, wish.ComesTo ctx s a → a.ctx.inputs = { mode := some .without } ∧
    ∀ outcome b, Ends Prepare.table Prepare.handlers a outcome b →
      b.ctx.inputs = { mode := some .without }
  leaves : (∃ s', (wish.pickFrom ctx).Yields s none s') ↔ ∃ a, wish.ComesTo ctx s a ∧
    (Prepare.table.CancelledAtRoot Prepare.handlers a ∨
      a.state = "prepare_branch" ∧ a.ctx.url = some "")
  picks : ∀ url label s', (wish.pickFrom ctx).Yields s (some (url, label)) s' → url ≠ "" ∧
    ∃ shown, Prepare.Origin (given wish.url) ctx url shown ∧ label = shown.orElse (.str url)
  /-- Only a search in the wish or a prompt can fail. -/
  fails : ∀ f s', (wish.pickFrom ctx).Fails s f s' → (wish.preset ctx).Fails s f s' ∨
    ∃ a c, wish.ComesTo ctx s a ∧ a.state ∈ Prepare.finding ∧
      (visit Prepare.table Prepare.handlers a.state).Fails a.ctx a.session f c s'

/-- **Nothing but the job is asked for.**  Whatever jobs there are, whatever was used lately,
whatever was wished for and however the user answers, picking a job shows only the prompts that
find one, and no inputs are ever given.  No job is picked just when the user cancels a prompt with
nothing before it, or when the chosen job has no address.  A job that is picked was wished for,
given or used lately.  It is shown as a job that has its address; where none has, as what it was
shown as among those used lately, if it was chosen there; and otherwise, or where that is no text,
as its address. -/
theorem picking_asks_for_job (wish : Wish) (settings : Settings) (jobs : List Job) :
    (wish.pick settings jobs = do
      let recent ← Recent.load settings
      wish.pickFrom (picking settings jobs recent)) ∧
    ∀ recent s, wish.PicksJob (picking settings jobs recent) s := by
  refine ⟨rfl, fun recent s => ?_⟩
  have hidle : ∀ {a}, wish.ComesTo (picking settings jobs recent) s a →
      Prepare.IsIdle (picking settings jobs recent).inputs a := fun h => (idle_of_comesTo h).1
  exact {
    asks := fun a h hasks => (hidle h).mem_finding hasks
    inputs := fun a h => ⟨(hidle h).inputs, fun outcome b hends => by
      rw [((hidle h).cases_of_ends isFresh_picking hends).1]
      exact (hidle h).inputs⟩
    leaves := pickFrom_yields_none
    picks := fun url label s' hyields => origin_of_pickFrom hyields
    fails := fun f s' hfails => (pickFrom_fails hfails).imp_right fun ⟨a, c, h, hvisit⟩ =>
      ⟨a, c, h, (hidle h).mem_finding ((hidle h).asks_of_fails rfl hvisit), hvisit⟩ }

/-- A job is given. -/
def oneGiven : List Job := [{ name := "a", url := "http://ci/job/a" }]

/-- Another was used lately. -/
def oneLately : List RecentJob := [⟨"http://ci/job/b", .str "b"⟩]

/-- The user turns to all jobs, goes back, and picks the job that was used lately. -/
def backToRecent : Session where
  answers := [.value (.str searchAll), .value .null, .value (.str "http://ci/job/b")]

/-- The job that was used lately is picked, and shown as it was then. -/
theorem picking_asks_for_recent_job :
    Wish.PicksJob {} (picking plainServer.settings oneGiven oneLately) backToRecent ∧
      ((Wish.pickFrom {} (picking plainServer.settings oneGiven oneLately)).outcome
        backToRecent).1 = .ok (some ("http://ci/job/b", .str "b")) := by
  refine ⟨(picking_asks_for_job {} plainServer.settings oneGiven).2 oneLately backToRecent, ?_⟩
  with_unfolding_all rfl

/-- A job without a name. -/
def nameless : Job := { name := "", url := "http://ci/job/a" }

/-- A job without a name is shown as its address, and not as the nothing that it is listed as.  An
address that was wished for is shown as it is where no job has it, and not as the job with that
address that was used lately. -/
theorem not_shown_as_listed :
    nameless.displayName = .str "" ∧
      ((Wish.pick { url := some nameless.url } plainServer.settings [nameless]).outcome {}).1 =
        .ok (some (nameless.url, .str nameless.url)) ∧
      ((Wish.pickFrom { url := some "http://ci/job/b" }
        (picking plainServer.settings oneGiven oneLately)).outcome {}).1 =
          .ok (some ("http://ci/job/b", .str "http://ci/job/b")) := by
  refine ⟨by rfl, ?_, ?_⟩
  · with_unfolding_all rfl
  · with_unfolding_all rfl

end Command
end BuildDesk
