/-
Browsing performs what was chosen.

The chosen job and the chosen action stay in the context of browsing, also where it starts anew
with the jobs, and the choices that are no job leave them as they are.  This file says that nothing
is ever performed on what is left there: an action is performed right after it was chosen, on the
job that was picked last.

* `Browse.Turn`, `turn_of_moves` — what a move does, state by state;
* `Past` — the positions that the loop came by;
* `Browse.Chooses`, `Browse.latest` — a choice of an action, and the job picked last;
* `Browse.Calls`, `Browse.IsIdle` — a visit performs an action once, or nothing;
* `Browse.Remembers`, `remembers_of_past` — what the context holds of the past;
* `browsing_performs_choices` — so every action performed is one that was chosen, and each choice
  is performed;
* `search_in_menu_leads_to_jobs` — the one choice in the menu that is neither an action nor the way
  out.
-/
import BuildDesk.Proofs.Command.Browsing
import BuildDesk.Proofs.Command.Departure
import BuildDesk.Proofs.Flow.Shown

namespace BuildDesk

namespace Flow.Browse

variable {perform : String → Job → Desk Json} {a b : Position Context} {event : String}
variable {s s' : Session} {v : Json}

/-! ### One move -/

/-- The actions of the menu. -/
def actions : List String := ["build", "status", "watch", "logs", "cancel", "rerun"]

/-- An answer among the jobs that picks none, and ends browsing at the root. -/
def PicksNone (jobs : List Job) (v : Json) : Prop :=
  v.isNull = true ∨ v.text = searchAgain ∨ v.text ≠ leave ∧ Job.find? jobs v.text = none

/-- What a move does, state by state. -/
inductive Turn (perform : String → Job → Desk Json) (a b : Position Context) : Prop
  | abandons {v : Json} (hat : a.state = home)
      (hanswers : a.session.answers = .value v :: b.session.answers)
      (hnone : PicksNone a.ctx.jobs v) (hto : b.state = Outcome.root.word) (hctx : b.ctx = a.ctx)
  | quits {v : Json} (hat : a.state = home)
      (hanswers : a.session.answers = .value v :: b.session.answers) (htext : v.text = leave)
      (hto : b.state = Outcome.exitCommand.word) (hctx : b.ctx = a.ctx)
  | picks {v : Json} {job : Job} (hat : a.state = home)
      (hanswers : a.session.answers = .value v :: b.session.answers) (hsome : v.isNull = false)
      (hfound : Job.find? a.ctx.jobs v.text = some job) (hto : b.state = "action_menu")
      (hctx : b.ctx = { a.ctx with job := some job })
  | turnsBack {v : Json} (hat : a.state = "action_menu")
      (hanswers : a.session.answers = .value v :: b.session.answers) (hnull : v.isNull = true)
      (hto : b.state = home) (hctx : b.ctx = a.ctx)
  | chooses {v : Json} (hat : a.state = "action_menu")
      (hanswers : a.session.answers = .value v :: b.session.answers) (hsome : v.isNull = false)
      (haction : v.text ∈ actions) (hto : b.state = "run_action")
      (hctx : b.ctx = { a.ctx with action := some v.text })
  | searches {v : Json} (hat : a.state = "action_menu")
      (hanswers : a.session.answers = .value v :: b.session.answers) (htext : v.text = "search")
      (hto : b.state = Outcome.root.word) (hctx : b.ctx = { a.ctx with action := some v.text })
  | leaves {v : Json} (hat : a.state = "action_menu")
      (hanswers : a.session.answers = .value v :: b.session.answers) (htext : v.text = "exit")
      (hto : b.state = Outcome.exitCommand.word)
      (hctx : b.ctx = { a.ctx with action := some v.text })
  | acts {word : String} {t : Session} (hat : a.state = "run_action")
      (hyields : (runAction perform).Yields a.ctx a.session (.str word) b.ctx t)
      (hto : b.state ∈ ["action_menu", Outcome.root.word, Outcome.exitCommand.word])
      (hctx : b.ctx = a.ctx)

/-- A job is picked, or none. -/
theorem turn_of_home {t : Session} (hat : a.state = home)
    (htarget : pickJob.target? event = some b.state)
    (hevent : (eventAt table (handlers perform) home pickJob).Yields a.ctx a.session (.str event)
      b.ctx t) (hsession : b.session.answers = t.answers) : Turn perform a b := by
  obtain ⟨v, s₁, hanswers, -, ⟨hnull, hesc, hctx, rfl⟩ | ⟨hsome, hrun⟩⟩ :=
    eventAt_answered rfl rfl rfl rfl hevent
  · obtain rfl := Json.str.inj hesc
    rw [← hsession] at hanswers
    exact .abandons hat hanswers (.inl hnull) (Option.some.inj htarget).symm hctx
  · rcases yields_settling rfl hrun with ⟨part, said, hpart, hsaid, hword, hctx⟩ | ⟨hgoes, hchange⟩
    · obtain ⟨word, hlookup, hgives⟩ := settled_gives hpart
      obtain ⟨rfl, hlogs⟩ := hgives _ _ _ hsaid
      obtain rfl := Json.str.inj hword
      rw [← hlogs.answers_eq, ← hsession] at hanswers
      have hsettled := mem_of_lookup hlookup
      simp only [Option.getD_some, List.mem_cons, List.not_mem_nil, or_false,
        Prod.mk.injEq] at hsettled
      rcases hsettled with ⟨htext, rfl⟩ | ⟨htext, rfl⟩
      · exact .abandons hat hanswers (.inr (.inl htext)) (Option.some.inj htarget).symm hctx
      · exact .quits hat hanswers htext (Option.some.inj htarget).symm hctx
    · obtain ⟨hword, hctx, rfl⟩ := yields_ofChange.mp hchange
      obtain rfl := Json.str.inj hword
      rw [← hsession] at hanswers
      have hstays : v.text ≠ leave := by
        intro htext
        rw [noJob, settled, Option.getD_some, htext] at hgoes
        cases hgoes
      rw [Option.getD_some, selectJob] at hctx htarget
      rcases hfound : Job.find? a.ctx.jobs v.text with _ | job
      · rw [hfound] at hctx htarget
        exact .abandons hat hanswers (.inr (.inr ⟨hstays, hfound⟩)) (Option.some.inj htarget).symm
          hctx
      · rw [hfound] at hctx htarget
        exact .picks hat hanswers hsome hfound (Option.some.inj htarget).symm hctx

/-- The menu is left, or leads to the action that was chosen. -/
theorem turn_of_menu {t : Session} (hat : a.state = "action_menu")
    (htarget : pickAction.target? event = some b.state)
    (hevent : (eventAt table (handlers perform) "action_menu" pickAction).Yields a.ctx a.session
      (.str event) b.ctx t) (hsession : b.session.answers = t.answers) : Turn perform a b := by
  obtain ⟨v, s₁, hanswers, -, ⟨hnull, hesc, hctx, rfl⟩ | ⟨hsome, hrun⟩⟩ :=
    eventAt_answered rfl rfl rfl rfl hevent
  · obtain rfl := Json.str.inj hesc
    rw [← hsession] at hanswers
    exact .turnsBack hat hanswers hnull (Option.some.inj htarget).symm hctx
  · rcases yields_settling rfl hrun with ⟨part, said, hpart, hsaid, hword, -⟩ | ⟨-, hchange⟩
    · -- the one answer that is settled at once has no transition here
      obtain ⟨-, hgives⟩ := leaving_gives hpart
      obtain ⟨rfl, -⟩ := hgives _ _ _ hsaid
      obtain rfl := Json.str.inj hword
      cases htarget
    · obtain ⟨hword, hctx, rfl⟩ := yields_ofChange.mp hchange
      obtain rfl := Json.str.inj hword
      rw [← hsession] at hanswers
      have hall : ∀ entry ∈ pickAction.transitions, entry.1 = "esc" ∨
          entry = (selected "search", Outcome.root.word) ∨
          entry = (selected "exit", Outcome.exitCommand.word) ∨
          ∃ action ∈ actions, entry = (selected action, "run_action") := by
        decide
      rcases hall _ (mem_of_lookup htarget) with hesc | hsearch | hexit | ⟨action, hmem, haction⟩
      · have hhead := head_selected v.text
        rw [show selected v.text = "esc" from hesc] at hhead
        exact absurd hhead (by decide)
      · obtain ⟨hword, hto⟩ := Prod.mk.inj hsearch
        exact .searches hat hanswers (selected_inj hword) hto hctx
      · obtain ⟨hword, hto⟩ := Prod.mk.inj hexit
        exact .leaves hat hanswers (selected_inj hword) hto hctx
      · obtain ⟨hword, hto⟩ := Prod.mk.inj haction
        exact .chooses hat hanswers hsome (selected_inj hword ▸ hmem) hto hctx

theorem ctx_of_runAction {ctx ctx' : Context} {v : Json}
    (h : (runAction perform).Yields ctx s v ctx' s') : ctx' = ctx := by
  unfold runAction at h
  rw [Step.yields_context_bind] at h
  split at h
  · split at h
    · exact (Step.yields_pure.mp h).2.1
    · exact (Step.yields_ofDesk.mp h).2
  · exact (Step.yields_pure.mp h).2.1

/-- What a move does is one of these. -/
theorem turn_of_moves (h : Moves table (handlers perform) a event b) : Turn perform a b := by
  obtain ⟨state, t, hstate, htarget, hevent, hsession⟩ := h
  have hanswers : b.session.answers = t.answers := by rw [hsession]
  have hmem := mem_states_of_state? hstate
  simp only [table, List.mem_cons, List.not_mem_nil, or_false, Prod.mk.injEq] at hmem
  rcases hmem with ⟨hat, rfl⟩ | ⟨hat, rfl⟩ | ⟨hat, rfl⟩
  · rw [hat] at hevent
    exact turn_of_home hat htarget hevent hanswers
  · rw [hat] at hevent
    exact turn_of_menu hat htarget hevent hanswers
  · rw [eventAt_router rfl rfl] at hevent
    have hall : ∀ entry ∈ Browse.perform.transitions,
        entry.2 ∈ ["action_menu", Outcome.root.word, Outcome.exitCommand.word] := by decide
    exact .acts hat hevent (hall _ (mem_of_lookup htarget)) (ctx_of_runAction hevent)

/-- No move changes the jobs to pick from, or the server. -/
theorem Turn.ground (h : Turn perform a b) :
    b.ctx.jobs = a.ctx.jobs ∧ b.ctx.settings = a.ctx.settings := by
  cases h with
  | abandons _ _ _ _ hctx | quits _ _ _ _ hctx | picks _ _ _ _ _ hctx | turnsBack _ _ _ _ hctx
  | chooses _ _ _ _ _ hctx | searches _ _ _ _ hctx | leaves _ _ _ _ hctx | acts _ _ _ hctx =>
    rw [hctx]
    exact ⟨rfl, rfl⟩

/-- What leads to the root from the jobs picks none of them. -/
theorem Turn.picksNone (h : Turn perform a b) (hat : a.state = home)
    (hto : b.state = Outcome.root.word) : ∃ v, a.Answers v ∧ PicksNone a.ctx.jobs v := by
  cases h with
  | abandons _ hanswers hnone => exact ⟨_, ⟨_, hanswers⟩, hnone⟩
  | quits _ _ _ hto' | picks _ _ _ _ hto' => exact absurd (hto.symm.trans hto') (by decide)
  | turnsBack hat' | chooses hat' | searches hat' | leaves hat' | acts hat' =>
    exact absurd (hat.symm.trans hat') (by decide)

/-! ### What performs an action -/

/-- The user chooses an action in the menu. -/
structure Chooses (a : Position Context) (v : Json) : Prop where
  state : a.state = "action_menu"
  answers : a.Answers v
  isSome : v.isNull = false
  action : v.text ∈ actions

/-- The visit performs the action on the job, once: whatever way there is to perform actions, the
visit is what that comes to, with its result followed. -/
def Calls (a : Position Context) (action : String) (job : Job) : Prop :=
  ∀ perform, (visit table (handlers perform) a.state).outcome a.ctx a.session =
    ((Step.ofDesk (perform action job) : Step Context Json) >>=
      follow table a.state Browse.perform).outcome a.ctx a.session

/-- The visit performs nothing: it is the same whatever way there is to perform actions. -/
def IsIdle (a : Position Context) : Prop :=
  ∀ perform perform', (visit table (handlers perform) a.state).outcome a.ctx a.session =
    (visit table (handlers perform') a.state).outcome a.ctx a.session

theorem isIdle_of_ne (h : a.state ≠ "run_action") : IsIdle a := by
  intro perform perform'
  unfold visit
  rcases hstate : table.state? a.state with _ | state
  · rfl
  · have hmem := mem_states_of_state? hstate
    simp only [table, List.mem_cons, List.not_mem_nil, or_false, Prod.mk.injEq] at hmem
    -- the handlers of the two prompts are the same in both registries
    rcases hmem with ⟨-, rfl⟩ | ⟨-, rfl⟩ | ⟨hat, -⟩
    · rfl
    · rfl
    · exact absurd hat h

theorem ne_empty_of_actions {action : String} (h : action ∈ actions) : action ≠ "" := by
  rintro rfl
  exact absurd h (by decide)

/-- Where a job and an action were chosen, the action is performed on the job. -/
theorem outcome_runAction {ctx : Context} {action : String} {job : Job}
    (hjob : ctx.job = some job) (haction : ctx.action = some action) (hnamed : action ≠ "") :
    (runAction perform).outcome ctx s =
      (Step.ofDesk (perform action job) : Step Context Json).outcome ctx s := by
  obtain ⟨settings, jobs, chosen, act⟩ := ctx
  obtain rfl : chosen = some job := hjob
  obtain rfl : act = some action := haction
  have hrun : (runAction perform).outcome ⟨settings, jobs, some job, some action⟩ s =
      ((if action == "" then pure (.str ActionResult.error.word)
        else Step.ofDesk (perform action job)) : Step Context Json).outcome
          ⟨settings, jobs, some job, some action⟩ s := rfl
  rw [hrun, if_neg fun h => hnamed (beq_iff_eq.mp h)]

theorem calls_of_chosen {action : String} {job : Job} (hat : a.state = "run_action")
    (hjob : a.ctx.job = some job) (haction : a.ctx.action = some action) (hnamed : action ≠ "") :
    Calls a action job := by
  intro perform
  have hstate : table.state? a.state = some Browse.perform := by rw [hat]; rfl
  have hevent : eventAt table (handlers perform) a.state Browse.perform = runAction perform := by
    rw [eventAt_router rfl rfl]
    rfl
  unfold visit
  rw [hstate]
  dsimp only
  rw [Step.outcome_bind, Step.outcome_bind, hevent, outcome_runAction hjob haction hnamed]

/-! ### What the loop came by -/

/-- The loop came by these positions before it came to this one, the latest first. -/
inductive Past (perform : String → Job → Desk Json) (start : Position Context) :
    List (Position Context) → Position Context → Prop
  | start : Past perform start [] start
  | step {before : List (Position Context)} {a b : Position Context}
      (past : Past perform start before a) (goes : Goes table (handlers perform) home a b) :
      Past perform start (a :: before) b

variable {start : Position Context} {before : List (Position Context)} {jobs : List Job}

theorem exists_past (h : Relation.ReflTransGen (Goes table (handlers perform) home) start a) :
    ∃ before, Past perform start before a := by
  induction h with
  | refl => exact ⟨[], .start⟩
  | tail _ hgoes ih =>
    obtain ⟨before, hpast⟩ := ih
    exact ⟨_, .step hpast hgoes⟩

/-- The job that is named at the position: one among the jobs is asked for there, and the answer is
the address of a job, the first with it. -/
def named (jobs : List Job) (a : Position Context) : Option Job :=
  match a.state == home, a.session.answers with
  | true, .value v :: _ => if v.isNull then none else Job.find? jobs v.text
  | _, _ => none

/-- The job that was named last. -/
def latest (jobs : List Job) (before : List (Position Context)) : Option Job :=
  before.findSome? (named jobs)

theorem named_of_home {rest : List Answer} (hat : a.state = home)
    (hanswers : a.session.answers = .value v :: rest) (hsome : v.isNull = false) :
    named jobs a = Job.find? jobs v.text := by
  unfold named
  rw [hat, hanswers, beq_self_eq_true]
  dsimp only
  rw [hsome, if_neg Bool.false_ne_true]

theorem named_of_away (haway : a.state ≠ home) : named jobs a = none := by
  unfold named
  rw [beq_false_of_ne haway]

theorem latest_of_away (haway : a.state ≠ home) :
    latest jobs (a :: before) = latest jobs before := by
  rw [latest, List.findSome?_cons, named_of_away haway]
  rfl

/-- What the context holds of the past: the jobs, away from them the one that was named last, and
where an action is performed, the choice right before. -/
structure Remembers (jobs : List Job) (before : List (Position Context)) (a : Position Context) :
    Prop where
  among : a.ctx.jobs = jobs
  job : a.state ≠ home → ∃ job, a.ctx.job = some job ∧ latest jobs before = some job
  action : a.state = "run_action" → ∃ m earlier v, before = m :: earlier ∧ Chooses m v ∧
    a.ctx.action = some v.text

theorem home_ne : home ≠ "run_action" := by decide

/-- A move keeps what is remembered. -/
theorem Turn.remembers (h : Turn perform a b) (hin : Outcome.ofWord? b.state = none)
    (hpast : Remembers jobs before a) : Remembers jobs (a :: before) b := by
  have hjobs : b.ctx.jobs = jobs := h.ground.1.trans hpast.among
  have hkept : a.state ≠ home → b.ctx.job = a.ctx.job →
      ∃ job, b.ctx.job = some job ∧ latest jobs (a :: before) = some job := by
    intro haway hsame
    obtain ⟨job, hjob, hlatest⟩ := hpast.job haway
    exact ⟨job, hsame.trans hjob, (latest_of_away haway).trans hlatest⟩
  have hout : ∀ {outcome : Outcome}, b.state ≠ outcome.word := fun hto => by
    rw [hto, Outcome.ofWord?_word] at hin
    cases hin
  have hnone : ∀ {name : String}, b.state = name → name ≠ "run_action" → b.state = "run_action" →
      ∃ m earlier v, a :: before = m :: earlier ∧ Chooses m v ∧ b.ctx.action = some v.text :=
    fun hto hne hat => absurd (hto.symm.trans hat) hne
  cases h with
  | abandons _ _ _ hto | quits _ _ _ hto | searches _ _ _ hto | leaves _ _ _ hto =>
    exact absurd hto hout
  | @picks v job hat hanswers hsome hfound hto hctx =>
    refine ⟨hjobs, fun _ => ⟨job, by rw [hctx], ?_⟩, hnone hto (by decide)⟩
    have hnamed : named jobs a = some job := by
      rw [named_of_home hat hanswers hsome, ← hpast.among, hfound]
    rw [latest, List.findSome?_cons, hnamed]
  | turnsBack _ _ _ hto hctx =>
    exact ⟨hjobs, fun haway => absurd hto haway, hnone hto (by decide)⟩
  | @chooses v hat hanswers hsome haction hto hctx =>
    refine ⟨hjobs, fun _ => hkept (by rw [hat]; decide) (by rw [hctx]), fun _ => ?_⟩
    exact ⟨a, before, v, rfl, ⟨hat, ⟨_, hanswers⟩, hsome, haction⟩, by rw [hctx]⟩
  | acts hat _ hto hctx =>
    refine ⟨hjobs, fun _ => hkept (by rw [hat]; decide) (by rw [hctx]), fun hto' => ?_⟩
    rw [hto'] at hto
    exact absurd hto (by decide)

/-- **Wherever browsing comes, its context remembers the past.** -/
theorem remembers_of_past {ctx : Context} (h : Past perform (table.startAt home ctx s) before a) :
    Remembers ctx.jobs before a := by
  induction h with
  | start => exact ⟨rfl, fun haway => absurd rfl haway, fun hat => absurd hat home_ne⟩
  | @step before a b _ hgoes ih =>
    rcases hgoes with ⟨⟨event, hmove⟩, hin⟩ | ⟨c, ⟨⟨event, hmove⟩, -⟩, -, rfl⟩
    · exact (turn_of_moves hmove).remembers hin ih
    · -- browsing starts anew with the jobs, where neither a job nor an action need be chosen
      have hjobs : c.ctx.jobs = ctx.jobs := (turn_of_moves hmove).ground.1.trans ih.among
      exact ⟨hjobs, fun haway => absurd rfl haway, fun hat => absurd hat home_ne⟩

/-! ### Choices in the menu -/

/-- An answer in the menu that is no way out leads where the table says. -/
theorem exists_goes_of_menu (perform : String → Job → Desk Json) (target : String)
    {rest : List Answer} (hat : a.state = "action_menu") (hnamed : a.ctx.settings.IsNamed)
    (hanswers : a.session.answers = .value v :: rest) (hsome : v.isNull = false)
    (hstays : v.text ≠ done)
    (htarget : pickAction.target? (selected v.text) = some target) :
    ∃ b, Moves table (handlers perform) a (selected v.text) b ∧ b.state = target ∧
      b.ctx = { a.ctx with action := some v.text } ∧ b.session.answers = rest := by
  have hstate : table.state? a.state = some pickAction := by rw [hat]; rfl
  have hnamed : (Addressed.settings a.ctx).IsNamed := hnamed
  have hshows := (namesServer _ (mem_states_of_state? hstate) _ rfl).shows hnamed
  have hrun : ∀ t, ((Handler.settling leaving (.ofChange none selectAction)).run (some v)).Yields
      a.ctx t (.str (selected v.text)) { a.ctx with action := some v.text } t := by
    intro t
    have hgoes : leaving v = none := by
      rw [leaving, settled, List.lookup_cons, beq_false_of_ne hstays, List.lookup_nil]
      rfl
    rw [run_settling rfl hgoes]
    exact yields_ofChange.mpr ⟨rfl, rfl, rfl⟩
  obtain ⟨t, ht, hevent⟩ := exists_eventAt table (handlers perform) a.state pickAction rfl rfl
    rfl rfl hshows hanswers hsome hrun
  obtain ⟨b, hmove, hto, hctx, hsession⟩ := exists_move target hstate htarget hevent
  exact ⟨b, hmove, hto, hctx, by rw [hsession, ← ht]⟩

theorem ne_done_of_actions {action : String} (h : action ∈ actions) : action ≠ done := by
  rintro rfl
  exact absurd h (by decide)

/-- A chosen action is performed next. -/
theorem exists_goes_of_chooses (perform : String → Job → Desk Json) (h : Chooses a v)
    (hnamed : a.ctx.settings.IsNamed) :
    ∃ b, Goes table (handlers perform) home a b ∧ b.state = "run_action" := by
  obtain ⟨rest, hanswers⟩ := h.answers
  have hall : ∀ action ∈ actions, pickAction.target? (selected action) = some "run_action" := by
    decide
  obtain ⟨b, hmove, hto, -⟩ := exists_goes_of_menu perform _ h.state hnamed hanswers h.isSome
    (ne_done_of_actions h.action) (hall _ h.action)
  exact ⟨b, .inl ⟨⟨_, hmove⟩, by rw [hto]; rfl⟩, hto⟩

/-- A position of browsing does its part: an action is performed just where it was chosen right
before, on the job that was named last; elsewhere nothing is performed; and where the user chooses
an action, the one next position performs it. -/
structure Attends (perform : String → Job → Desk Json) (jobs : List Job)
    (before : List (Position Context)) (a : Position Context) : Prop where
  performs : a.state = "run_action" → ∃ m earlier v job, before = m :: earlier ∧ Chooses m v ∧
    latest jobs before = some job ∧ Calls a v.text job
  idle : a.state ≠ "run_action" → IsIdle a
  performed : ∀ v, Chooses a v → a.ctx.settings.IsNamed →
    ∃ b, (∀ c, Goes table (handlers perform) home a c ↔ c = b) ∧ b.state = "run_action"

theorem attends_of_past {ctx : Context} (h : Past perform (table.startAt home ctx s) before a) :
    Attends perform ctx.jobs before a where
  performs hat := by
    have hpast := remembers_of_past h
    obtain ⟨m, earlier, v, hbefore, hchooses, haction⟩ := hpast.action hat
    obtain ⟨job, hjob, hlatest⟩ := hpast.job (by rw [hat]; decide)
    exact ⟨m, earlier, v, job, hbefore, hchooses, hlatest,
      calls_of_chosen hat hjob haction (ne_empty_of_actions hchooses.action)⟩
  idle := isIdle_of_ne
  performed v hchooses hnamed := by
    obtain ⟨b, hgoes, hto⟩ := exists_goes_of_chooses perform hchooses hnamed
    exact ⟨b, fun c => ⟨fun hc => hc.unique hgoes, fun hc => hc ▸ hgoes⟩, hto⟩

end Flow.Browse

namespace Command

open BuildDesk.Flow

variable {perform : String → Job → Desk Json} {ctx : Browse.Context} {s s' : Session}

/-- Browsing is its positions, one after another, up to where the last visit ends it, or fails. -/
def IsVisited (perform : String → Job → Desk Json) (ctx : Browse.Context) (s : Session) : Prop :=
  ∃ before a, Browse.Past perform (Browse.table.startAt Browse.home ctx s) before a ∧
    ((∃ outcome c, Stays Browse.table (Browse.handlers perform) Browse.home a outcome c ∧
        (browseWith perform ctx).Yields s (outcome == .exitCommand) c.session) ∨
      ∃ f ctx' s', (visit Browse.table (Browse.handlers perform) a.state).Fails a.ctx a.session f
        ctx' s' ∧ (browseWith perform ctx).Fails s f s')

theorem isVisited (htame : ∀ action job, (perform action job).Tame) : IsVisited perform ctx s := by
  have hnamed : Browse.home ≠ "" := by decide
  have hloop : (browseWith perform ctx).outcome s =
      (Browse.table.loop (Browse.handlers perform) Browse.home (s.answers.length + 1) ctx none >>=
        fun outcome => pure (outcome == .exitCommand)).outcome s := rfl
  rcases hout : (Browse.table.loop (Browse.handlers perform) Browse.home (s.answers.length + 1)
    ctx none).outcome s with ⟨f | outcome, s'⟩
  · have hf : f ≠ .stalled := loop_ne_stalled (Browse.returns htame) (Browse.isTame_handlers htame)
      hnamed rfl rfl (Nat.lt_succ_self _) hout
    obtain ⟨a, ctx', hgoes, hfails⟩ := fails_of_loop hnamed (Browse.returns htame) hf hout
    obtain ⟨before, hpast⟩ := Browse.exists_past hgoes
    refine ⟨before, a, hpast, .inr ⟨f, ctx', s', hfails, ?_⟩⟩
    unfold Desk.Fails
    rw [hloop]
    exact Desk.fails_bind.mpr (.inl hout)
  · obtain ⟨a, c, hgoes, hstays, rfl⟩ := stays_of_loop hnamed hout
    obtain ⟨before, hpast⟩ := Browse.exists_past hgoes
    refine ⟨before, a, hpast, .inl ⟨outcome, c, hstays, ?_⟩⟩
    unfold Desk.Yields
    rw [hloop]
    exact Desk.yields_bind.mpr ⟨outcome, c.session, hout, Desk.yields_pure.mpr ⟨rfl, rfl⟩⟩

/-- **Browsing performs what was chosen.**  Whatever jobs were found, whatever is answered and
whatever actions come to, wherever browsing comes, also after it started anew: an action is
performed just after it was chosen in the menu, once, on the first job with the address that was
named last; each choice of an action is performed; and nothing else is.  Browsing is its visits,
one after another, so this is all that is performed. -/
theorem browsing_performs_choices :
    (∀ (perform : String → Job → Desk Json) (ctx : Browse.Context) (s : Session),
      (∀ before a, Browse.Past perform (Browse.table.startAt Browse.home ctx s) before a →
        Browse.Attends perform ctx.jobs before a) ∧
      ((∀ action job, (perform action job).Tame) → IsVisited perform ctx s)) ∧
    ∀ (server : Server) (found jobs : List Job) (s : Session),
      browse server found jobs =
          browseWith (performing server jobs) { settings := server.settings, jobs := found } ∧
        IsVisited (performing server jobs) { settings := server.settings, jobs := found } s :=
  ⟨fun _ _ _ => ⟨fun _ _ hpast => Browse.attends_of_past hpast, isVisited⟩,
    fun server found jobs _ =>
      ⟨browse_eq server found jobs, isVisited (tame_performing server jobs)⟩⟩

/-- The user picks the job, chooses an action, and leaves when asked for a job again. -/
theorem browsing_performs_status :
    (∃ before a, Browse.Past toRoot (Browse.table.startAt Browse.home oneFound leavesAfterwards)
        before a ∧ a.state = "run_action" ∧ Browse.Attends toRoot oneFound.jobs before a) ∧
      (∀ action job, (toRoot action job).Tame) ∧ IsVisited toRoot oneFound leavesAfterwards := by
  have htame : ∀ action job, (toRoot action job).Tame := fun _ _ =>
    (Desk.isFair_pure (E := Event.IsAny) _).tame
  obtain ⟨before, a, hpast, hat⟩ : ∃ before a, Browse.Past toRoot
      (Browse.table.startAt Browse.home oneFound leavesAfterwards) before a ∧
        a.state = "run_action" :=
    ⟨_, _, .step (.step .start
      (.inl (leads_of_outcome rfl rfl))) (.inl (leads_of_outcome rfl rfl)), rfl⟩
  have hall := browsing_performs_choices.1 toRoot oneFound leavesAfterwards
  exact ⟨⟨before, a, hpast, hat, hall.1 before a hpast⟩, htame, hall.2 htame⟩

/-! ### Back to the search -/

/-- Browsing is left for another search where a job is asked for: the prompt is cancelled, or its
answer is no job. -/
def EndsAtHome (perform : String → Job → Desk Json) (ctx : Browse.Context) (s s' : Session) :
    Prop :=
  ∃ a c v, Relation.ReflTransGen (Goes Browse.table (Browse.handlers perform) Browse.home)
      (Browse.table.startAt Browse.home ctx s) a ∧
    Stays Browse.table (Browse.handlers perform) Browse.home a .root c ∧ c.session = s' ∧
    a.state = Browse.home ∧ a.Answers v ∧ Browse.PicksNone ctx.jobs v

theorem endsAtHome_of_yields (h : (browseWith perform ctx).Yields s false s') :
    EndsAtHome perform ctx s s' := by
  obtain ⟨outcome, s₁, hloop, hpure⟩ := Desk.yields_bind.mp (Desk.yields_get_bind.mp h)
  obtain ⟨hfalse, rfl⟩ := Desk.yields_pure.mp hpure
  obtain ⟨a, c, hgoes, hstays, hsession⟩ := stays_of_loop (by decide) hloop
  have houtcome : outcome = .root := by
    rcases Browse.outcome_of_ends hstays.1 with rfl | rfl
    · cases hfalse
    · rfl
  subst houtcome
  obtain ⟨before, hpast⟩ := Browse.exists_past hgoes
  have hjobs := (Browse.remembers_of_past hpast).among
  have hat := hstays.2 rfl
  obtain ⟨⟨event, hmove⟩, hout⟩ := id hstays.1
  obtain ⟨v, hanswer, hnone⟩ :=
    (Browse.turn_of_moves hmove).picksNone hat (Outcome.word_of_ofWord? hout)
  exact ⟨a, c, v, hgoes, hstays, hsession, hat, hanswer, hjobs ▸ hnone⟩

/-- The entry of the menu that goes back to the search does not end browsing: it starts anew with
the choice of a job among the same ones.  Browsing ends for another search only where a job is asked
for. -/
structure SearchesAtHome (perform : String → Job → Desk Json) (ctx : Browse.Context) (s : Session) :
    Prop where
  menu : ∀ a v, Relation.ReflTransGen (Goes Browse.table (Browse.handlers perform) Browse.home)
      (Browse.table.startAt Browse.home ctx s) a →
    a.state = "action_menu" → a.Answers v → v.text = "search" → a.ctx.settings.IsNamed →
    ∃ b, (∀ c, Goes Browse.table (Browse.handlers perform) Browse.home a c ↔ c = b) ∧
      (∀ outcome c, ¬ Stays Browse.table (Browse.handlers perform) Browse.home a outcome c) ∧
      b.state = Browse.home ∧ b.ctx = { a.ctx with action := some "search" } ∧
      b.ctx.jobs = ctx.jobs ∧ a.session.answers = .value v :: b.session.answers
  ends : ∀ s', (browseWith perform ctx).Yields s false s' → EndsAtHome perform ctx s s'

theorem searchesAtHome (perform : String → Job → Desk Json) (ctx : Browse.Context) (s : Session) :
    SearchesAtHome perform ctx s := by
  refine ⟨fun a v hgoes hat ⟨rest, hanswers⟩ htext hnamed => ?_, fun s' => endsAtHome_of_yields⟩
  have hsome : v.isNull = false := by
    cases v with
    | null => exact absurd htext (by decide)
    | _ => rfl
  obtain ⟨c, hmove, hto, hctx, hrest⟩ := Browse.exists_goes_of_menu perform Outcome.root.word
    hat hnamed hanswers hsome (by rw [htext]; decide) (by rw [htext]; decide)
  -- the move leads to the root from away from the jobs, so browsing starts anew with them
  have hout : Outcome.ofWord? c.state = some .root := by rw [hto, Outcome.ofWord?_word]
  have haway : a.state ≠ Browse.home := by rw [hat]; decide
  have hanew : Goes Browse.table (Browse.handlers perform) Browse.home a
      (Browse.table.startAt Browse.home c.ctx c.session) :=
    .inr ⟨c, ⟨⟨_, hmove⟩, hout⟩, haway, rfl⟩
  obtain ⟨before, hpast⟩ := Browse.exists_past hgoes
  have hjobs := (Browse.remembers_of_past hpast).among
  refine ⟨_, fun c => ⟨fun hc => hc.unique hanew, fun hc => hc ▸ hanew⟩, ?_, rfl, ?_, ?_, ?_⟩
  · rintro outcome c' ⟨⟨⟨event, hmove'⟩, hout'⟩, hroot⟩
    obtain rfl := (hmove.unique hmove').2
    rw [hout] at hout'
    exact haway (hroot (Option.some.inj hout').symm)
  · rw [← htext]
    exact hctx
  · show c.ctx.jobs = ctx.jobs
    rw [hctx]
    exact hjobs
  · exact hanswers.trans (congrArg _ hrest.symm)

/-- **The search in the menu leads to the jobs.**  Whatever jobs were found, however browsing came
to the menu of one and whatever actions come to, the entry that goes back to the search leads to the
choice of a job, and not to another search. -/
theorem search_in_menu_leads_to_jobs (server : Server) (found jobs : List Job) (s : Session) :
    browse server found jobs =
        browseWith (performing server jobs) { settings := server.settings, jobs := found } ∧
      ∀ (perform : String → Job → Desk Json) (ctx : Browse.Context), SearchesAtHome perform ctx s :=
  ⟨browse_eq server found jobs, fun perform ctx => searchesAtHome perform ctx s⟩

/-- The user picks the job, goes back to the search, and leaves. -/
def backToSearch : Session where
  answers := [.value (.str "http://ci/job/a"), .value (.str "search"), .value (.str leave)]

/-- Who goes back to the search is asked for a job again. -/
theorem search_in_menu_of_one_job :
    ∃ a b, Relation.ReflTransGen (Goes Browse.table (Browse.handlers toRoot) Browse.home)
        (Browse.table.startAt Browse.home oneFound backToSearch) a ∧
      a.state = "action_menu" ∧ a.Answers (.str "search") ∧ a.ctx.settings.IsNamed ∧
      Goes Browse.table (Browse.handlers toRoot) Browse.home a b ∧ b.state = Browse.home ∧
      b.ctx.jobs = oneFound.jobs := by
  obtain ⟨a, hgoes, hat, hanswer, hnamed⟩ : ∃ a,
      Relation.ReflTransGen (Goes Browse.table (Browse.handlers toRoot) Browse.home)
        (Browse.table.startAt Browse.home oneFound backToSearch) a ∧
      a.state = "action_menu" ∧ a.Answers (.str "search") ∧ a.ctx.settings.IsNamed :=
    ⟨_, .single (.inl (leads_of_outcome rfl rfl)), rfl,
      ⟨_, by rfl⟩, Settings.isNamed_of_text (.inl (by rfl))⟩
  have hall := (search_in_menu_leads_to_jobs plainServer oneFound.jobs oneFound.jobs backToSearch).2
  obtain ⟨b, hb, -, hto, -, hjobs, -⟩ :=
    (hall toRoot oneFound).menu a _ hgoes hat hanswer rfl hnamed
  exact ⟨a, b, hgoes, hat, hanswer, hnamed, (hb b).mpr rfl, hto, hjobs⟩

/-- Browsing is not over when the user goes back to the search: the third answer is taken, by which
the user leaves the command. -/
theorem not_ended_by_search :
    ((browse plainServer oneFound.jobs oneFound.jobs).outcome backToSearch).1 = .ok true ∧
      ((browse plainServer oneFound.jobs oneFound.jobs).outcome backToSearch).2.answers = [] := by
  constructor
  · with_unfolding_all rfl
  · with_unfolding_all rfl

end Command
end BuildDesk
