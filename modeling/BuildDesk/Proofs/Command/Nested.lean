/-
Builds inside of browsing.

A build that is chosen while browsing runs two flows inside of a third: it is prepared and followed
up, and then browsing goes on.  What the build comes to passes through two codes, that of the
command and that of menu actions, before browsing follows it.

* `nested`, `Prepared`, `Abandons`, `Follows` — such a build, and the stages that it goes through;
* `Session.begun` — how often a preparation was begun; `begun_nested` — a nested build begins one
  at most;
* `yields_of_abandons`, `yields_of_runsTo`, `cases_of_nested` — what the build comes to;
* `Demands`, `GoesOn` — where browsing should go on, and where it does;
* `Resumes`, `Building.resumes` — that these are the same;
* `nested_builds_resume` — how follow-ups end, and what that means for browsing.
-/
import BuildDesk.Proofs.Command.Acting
import BuildDesk.Proofs.Command.Finding
import BuildDesk.Proofs.Command.Triggers

namespace BuildDesk

/-- A preparation of a build begins. -/
def Event.isBegin : Event → Bool
  | .start flow _ => flow == Flow.Prepare.table.id
  | _ => false

/-- How often the preparation of a build was begun. -/
def Session.begun (s : Session) : Nat := s.log.countP Event.isBegin

theorem Event.not_isBegin {e : Event} (h : e.IsQuiet) : ¬ e.isBegin = true := by
  cases e with
  | start flow state => exact fun hbegin => h (beq_iff_eq.mp hbegin)
  | _ => exact Bool.false_ne_true

theorem Session.begun_of_since {E : Event → Prop} {s s' : Session}
    (hE : ∀ {e}, E e → ¬ e.isBegin = true) (h : s.Since E s') : s'.begun = s.begun := by
  obtain ⟨news, hlog, hnews⟩ := h.log
  have hnone : news.countP Event.isBegin = 0 :=
    List.countP_eq_zero.mpr fun e he => hE (hnews e he)
  rw [begun, hlog, List.countP_append, hnone, Nat.zero_add, begun]

theorem Session.begun_of_quiet {s s' : Session} (h : s.Since Event.IsQuiet s') :
    s'.begun = s.begun := begun_of_since Event.not_isBegin h

namespace Command

open Desk BuildDesk.Flow

variable {server : Server} {param : String} {order : Order} {jobs : List Job} {job : String}
variable {s s₁ s' : Session}

/-! ### What begins a preparation -/

theorem BeginsOnce.begun_eq (h : BeginsOnce s s') : s'.begun = s.begun + 1 := by
  obtain ⟨s₁, start, hbefore, hafter⟩ := h
  rw [Session.begun_of_quiet hafter, ← Session.begun_of_quiet hbefore]
  exact List.countP_cons_of_pos (beq_self_eq_true _)

theorem begun_place (server : Server) (order : Order) (s : Session) :
    ((order.place server).outcome s).2.begun = s.begun := by
  obtain ⟨agreed, hagreed, -⟩ := does_place server "" order s
  rcases (effect_of_place server order s hagreed).asks with ⟨-, hquiet⟩ |
    ⟨s₁, r, hbefore, -, hafter⟩
  · exact Session.begun_of_quiet hquiet
  · have hsent : s₁.Since (fun e => ¬ e.isBegin = true) ((exchange r).outcome s₁).2 :=
      (isFair_exchange (E := fun e => ¬ e.isBegin = true) Bool.false_ne_true s₁ 0).since
    rw [Session.begun_of_quiet hafter, Session.begun_of_since id hsent,
      Session.begun_of_quiet hbefore]

/-- Only deeds that prepare a build begin a preparation. -/
theorem Did.begun_eq {deeds : List Deed} (h : Did server param s deeds s')
    (hnone : ∀ o found, .prepared o found ∉ deeds) : s'.begun = s.begun := by
  induction h with
  | quiet hquiet => exact Session.begun_of_quiet hquiet
  | deed hquiet hdoes _ ih =>
    rw [ih fun o found hmem => hnone o found (List.mem_cons_of_mem _ hmem),
      ← Session.begun_of_quiet hquiet]
    cases hdoes with
    | prepares _ _ => exact absurd List.mem_cons_self (hnone _ _)
    | abandons _ _ => exact absurd List.mem_cons_self (hnone _ _)
    | wishes => rfl
    | places _ => exact begun_place _ _ _

theorem Again.not_prepared {deeds : List Deed} (h : Again order deeds) (o : BuildOptions)
    (found : Option Order) : .prepared o found ∉ deeds := by
  induction h with
  | none => exact List.not_mem_nil
  | once _ ih => simpa using ih

/-- A build with its follow-up begins no preparation. -/
theorem begun_follow (server : Server) (order : Order) (returns : Bool) (s : Session) :
    ((follow server order returns).outcome s).2.begun = s.begun := by
  obtain ⟨agreed, more, hmore, hdid, -⟩ := did_follow server "" order returns s
  exact hdid.begun_eq fun o found hmem => by
    rcases List.mem_cons.mp hmem with hplaced | hrest
    · cases hplaced
    · exact hmore.not_prepared o found hrest

/-- A preparation begins once at most. -/
theorem begun_prepare (wish : Wish) (ctx : Prepare.Context) (hnone : ctx.candidates = [])
    (s : Session) : ((wish.prepare ctx).outcome s).2.begun ≤ s.begun + 1 := by
  rcases begins_of_prepare wish ctx hnone s with ⟨f, -, hquiet⟩ | hbegins
  · rw [Session.begun_of_quiet hquiet]
    exact Nat.le_succ _
  · exact Nat.le_of_eq hbegins.begun_eq

/-- What a part and what comes after it begin is what they begin together. -/
theorem begun_bind {α β : Type} {part : Desk α} {next : α → Desk β} {n m : Nat}
    (h : (part.outcome s).2.begun ≤ s.begun + n)
    (hnext : ∀ a s₁, part.Yields s a s₁ → ((next a).outcome s₁).2.begun ≤ s₁.begun + m) :
    ((part >>= next).outcome s).2.begun ≤ s.begun + (n + m) := by
  rw [outcome_bind]
  rcases hpart : part.outcome s with ⟨f | a, s₁⟩
  · rw [hpart] at h
    exact Nat.le_trans h (by omega)
  · rw [hpart] at h
    have hrest := hnext a s₁ hpart
    dsimp only at h ⊢
    omega

/-! ### A nested build -/

/-- The options of a build that is chosen while browsing. -/
def nested (job : String) (jobs : List Job) : BuildOptions where
  wish := { url := some job }
  returns := true
  jobs := some jobs

/-- The preparation of the nested build comes to an end. -/
def Prepared (server : Server) (jobs : List Job) (job : String) (s : Session)
    (found : Option Prepare.Context) (s' : Session) : Prop :=
  ∃ recent s₁, (Recent.load server.settings).Yields s recent s₁ ∧
    ((nested job jobs).wish.prepare ((nested job jobs).context server.settings
      ((nested job jobs).parameter server.settings) jobs recent)).Yields s₁ found s'

/-- The nested build is abandoned before it is placed. -/
def Abandons (server : Server) (jobs : List Job) (job : String) (s : Session) : Prop :=
  ∃ found s', Prepared server jobs job s found s' ∧ found.bind Wish.chosen = none

/-- The nested build is placed, and its follow-up begins with a context and a session. -/
def Follows (server : Server) (jobs : List Job) (job : String) (s : Session) (order : Order)
    (ctx : FollowUp.Context) (s' : Session) : Prop :=
  ∃ c url label s₁, Prepared server jobs job s (some c) s₁ ∧ Wish.chosen c = some (url, label) ∧
    order = orderOf c url label ∧ (place server order).Yields
      { settings := server.settings, label, returns := true } s₁ () ctx s'

/-- A nested build is one round of the loop. -/
theorem outcome_nested (server : Server) (jobs : List Job) (job : String) (s : Session) :
    (build server true (nested job jobs)).outcome s =
      (rounds server ((nested job jobs).parameter server.settings) (s.answers.length + 1)
        (nested job jobs) jobs {}).outcome s := rfl

/-! ### What the actions of a follow-up find out -/

/-- However the part ends, it may have found out where the build is; the rest of the context stays
as it is. -/
def Finds {α : Type} (part : Step FollowUp.Context α) : Prop :=
  ∀ ctx s, ∃ build, (part.outcome ctx s).1.2 = { ctx with build }

section

variable {α β : Type} {part : Step FollowUp.Context α}

theorem finds_pure (a : α) : Finds (pure a : Step FollowUp.Context α) :=
  fun ctx _ => ⟨ctx.build, rfl⟩

theorem finds_throw (f : Fault) : Finds (throw f : Step FollowUp.Context α) :=
  fun ctx _ => ⟨ctx.build, rfl⟩

theorem finds_ofDesk (part : Desk α) : Finds (Step.ofDesk part) := fun ctx _ => ⟨ctx.build, rfl⟩

theorem finds_change {build : FollowUp.Context → FollowUp.Whereabouts} :
    Finds (Step.change fun ctx => { ctx with build := build ctx }) := fun ctx _ => ⟨build ctx, rfl⟩

theorem finds_bind {next : α → Step FollowUp.Context β} (h : Finds part)
    (hnext : ∀ a, Finds (next a)) : Finds (part >>= next) := by
  intro ctx s
  obtain ⟨build, hpart⟩ := h ctx s
  rw [Step.outcome_bind]
  rcases hout : part.outcome ctx s with ⟨⟨f | a, ctx₁⟩, s₁⟩
  · exact ⟨build, by rw [hout] at hpart; exact hpart⟩
  · rw [hout] at hpart
    obtain rfl : ctx₁ = { ctx with build } := hpart
    exact hnext a _ s₁

theorem finds_context {next : FollowUp.Context → Step FollowUp.Context β}
    (hnext : ∀ ctx, Finds (next ctx)) : Finds (Step.context >>= next) :=
  fun ctx s => hnext ctx ctx s

theorem finds_tryCatch {handle : Fault → Step FollowUp.Context α} (h : Finds part)
    (hhandle : ∀ f, Finds (handle f)) : Finds (tryCatch part handle) := by
  intro ctx s
  obtain ⟨build, hpart⟩ := h ctx s
  rw [Step.outcome_tryCatch]
  rcases hout : part.outcome ctx s with ⟨⟨f | a, ctx₁⟩, s₁⟩
  · rw [hout] at hpart
    obtain rfl : ctx₁ = { ctx with build } := hpart
    exact hhandle f _ s₁
  · exact ⟨build, by rw [hout] at hpart; exact hpart⟩

end

theorem finds_place (server : Server) (order : Order) : Finds (place server order) :=
  finds_bind (finds_ofDesk _) fun _ => finds_change

theorem finds_buildUrl (server : Server) : Finds (buildUrl server) := by
  refine finds_context fun ctx => ?_
  dsimp only
  split
  · exact finds_bind (finds_ofDesk _) fun _ => finds_bind finds_change fun _ => finds_pure _
  · exact finds_pure _

theorem finds_act (server : Server) (order : Order) (action : String) :
    Finds (act server order action) := by
  unfold act
  split
  · exact finds_bind (finds_buildUrl _) fun _ => finds_context fun _ => finds_ofDesk _
  · split
    · exact finds_bind (finds_buildUrl _) fun _ => finds_ofDesk _
    · split
      · exact finds_ofDesk _
      · split
        · exact finds_bind (finds_place _ _) fun _ => finds_pure _
        · exact finds_ofDesk _

theorem finds_perform (server : Server) (order : Order) (action : String) :
    Finds (perform server order action) := by
  refine finds_tryCatch (finds_act _ _ _) fun f => ?_
  cases f with
  | complaint c =>
    dsimp only
    split
    · exact finds_throw _
    · exact finds_bind (finds_ofDesk _) fun _ => finds_pure _
  | _ => exact finds_throw _

/-- The way in which the actions of a follow-up are performed. -/
def following (server : Server) (order : Order) (action : String) : Step FollowUp.Context Json := do
  return .str (← perform server order action).word

theorem tame_following (server : Server) (order : Order) (action : String) :
    (following server order action).Tame := (isFair_performing (isFair_act _ _ _)).tame

theorem onlyFinds_following (server : Server) (order : Order) :
    FollowUp.OnlyFinds (following server order) := by
  intro action ctx s v ctx' s' h
  obtain ⟨build, hctx⟩ :=
    finds_bind (finds_perform server order action) (fun result => finds_pure (Json.str result.word))
      ctx s
  exact ⟨build, by rw [← hctx]; exact (congrArg (fun out => out.1.2) h).symm⟩

/-! ### What a nested build comes to -/

/-- A build that was abandoned has triggered nothing. -/
theorem yields_of_abandons (h : Abandons server jobs job s) :
    ∃ s', (build server true (nested job jobs)).Yields s {} s' := by
  obtain ⟨found, s', ⟨recent, s₁, hload, hprepare⟩, hnone⟩ := h
  refine ⟨s', ?_⟩
  unfold Desk.Yields
  rw [outcome_nested, rounds_succ]
  refine yields_bind.mpr ⟨recent, s₁, hload, yields_bind.mpr ⟨found, s', hprepare, ?_⟩⟩
  cases found with
  | none => rfl
  | some c =>
    rw [Option.bind_some] at hnone
    simp only [Option.bind_some, hnone]
    rfl

variable {ctx : FollowUp.Context} {outcome : Outcome}

/-- A follow-up is in a larger run when its build is. -/
theorem returns_of_place {ctx₀ : FollowUp.Context}
    (h : (place server order).Yields ctx₀ s () ctx s') : ctx.returns = ctx₀.returns := by
  obtain ⟨build, hctx⟩ := finds_place server order ctx₀ s
  rw [h] at hctx
  obtain rfl : ctx = { ctx₀ with build } := hctx
  rfl

theorem Follows.returns (h : Follows server jobs job s order ctx s') : ctx.returns = true := by
  obtain ⟨c, url, label, s₁, -, -, -, hplace⟩ := h
  exact returns_of_place hplace

/-- In a larger run no further build follows. -/
theorem ne_again_of_runsTo (hreturns : ctx.returns = true)
    (hrun : FollowUp.RunsTo (following server order) ctx s outcome) : outcome ≠ .again := by
  rintro rfl
  have honly := (FollowUp.endsNested (tame_following server order)
    (onlyFinds_following server order) hreturns).only _ hrun
  exact absurd honly (by decide)

theorem onward_eq {k : Nat} {o : BuildOptions} {sofar : Built} {ending : Ending}
    (h : ending.outcome ≠ .again) :
    onward server param k o jobs sofar ending = pure (builtAfter ending o.returns) := by
  unfold onward
  rw [if_neg fun hagain => h (beq_iff_eq.mp hagain)]

/-- A build that was followed up tells what its follow-up came to. -/
theorem yields_of_runsTo (h : Follows server jobs job s order ctx s₁)
    (hrun : FollowUp.RunsTo (following server order) ctx s₁ outcome) :
    ∃ state s', (build server true (nested job jobs)).Yields s (builtAfter ⟨outcome, state⟩ true)
      s' := by
  have hagain := ne_again_of_runsTo h.returns hrun
  obtain ⟨c, url, label, s₂, ⟨recent, s₃, hload, hprepare⟩, hchosen, rfl, hplace⟩ := h
  obtain ⟨state, ctx', s', hrun⟩ := hrun
  refine ⟨state, s', ?_⟩
  unfold Desk.Yields
  rw [outcome_nested, rounds_succ]
  refine yields_bind.mpr ⟨recent, s₃, hload, yields_bind.mpr ⟨some c, s₂, hprepare, ?_⟩⟩
  simp only [Option.bind_some, hchosen]
  have hfollow : (follow server (orderOf c url label) true).Yields s₂ ⟨outcome, state⟩ s' := by
    have hall : (placeAndFollow server (orderOf c url label)).Yields
        { settings := server.settings, label := (orderOf c url label).label, returns := true } s₂
        ⟨outcome, state⟩ ctx' s' := Step.yields_bind.mpr ⟨(), ctx, s₁, hplace, hrun⟩
    unfold Desk.Yields
    unfold Step.Yields at hall
    rw [outcome_follow, hall]
  exact yields_bind.mpr ⟨_, s', hfollow, by rw [onward_eq hagain]; rfl⟩

/-- A build with its follow-up is placed, and then followed up. -/
theorem runsTo_of_follow {ending : Ending} (h : (follow server order true).Yields s ending s') :
    ∃ ctx s₁, (place server order).Yields
        { settings := server.settings, label := order.label, returns := true } s () ctx s₁ ∧
      FollowUp.RunsTo (following server order) ctx s₁ ending.outcome := by
  unfold Desk.Yields at h
  rw [outcome_follow] at h
  rcases hall : (placeAndFollow server order).outcome
    { settings := server.settings, label := order.label, returns := true } s
    with ⟨⟨result, ctx'⟩, s₁⟩
  rw [hall] at h
  obtain rfl : result = .ok ending := congrArg Prod.fst h
  obtain ⟨_, ctx, s₂, hplace, hrun⟩ := Step.yields_bind.mp hall
  exact ⟨ctx, s₂, hplace, _, _, _, hrun⟩

theorem ne_again_of_follow {ending : Ending} (h : (follow server order true).Yields s ending s') :
    ending.outcome ≠ .again := by
  obtain ⟨ctx, s₁, hplace, hruns⟩ := runsTo_of_follow h
  exact ne_again_of_runsTo (returns_of_place hplace) hruns

/-- A nested build that comes back was abandoned or followed up. -/
theorem cases_of_nested {built : Built}
    (h : (build server true (nested job jobs)).Yields s built s') :
    Abandons server jobs job s ∧ built = {} ∨
      ∃ order ctx s₁ ending, Follows server jobs job s order ctx s₁ ∧
        FollowUp.RunsTo (following server order) ctx s₁ ending.outcome ∧
        built = builtAfter ending true := by
  unfold Desk.Yields at h
  rw [outcome_nested, rounds_succ] at h
  obtain ⟨recent, s₁, hload, h⟩ := yields_bind.mp h
  obtain ⟨found, s₂, hprepare, h⟩ := yields_bind.mp h
  have hprepared : Prepared server jobs job s found s₂ := ⟨recent, s₁, hload, hprepare⟩
  rcases found with _ | c
  · exact .inl ⟨⟨none, s₂, hprepared, rfl⟩, (yields_pure.mp h).1⟩
  rcases hchosen : Wish.chosen c with _ | ⟨url, label⟩
  · simp only [Option.bind_some, hchosen] at h
    exact .inl ⟨⟨some c, s₂, hprepared, hchosen⟩, (yields_pure.mp h).1⟩
  · simp only [Option.bind_some, hchosen] at h
    obtain ⟨ending, s₃, hfollow, h⟩ := yields_bind.mp h
    obtain ⟨ctx, s₄, hplace, hruns⟩ := runsTo_of_follow hfollow
    rw [onward_eq (ne_again_of_follow hfollow)] at h
    exact .inr ⟨_, ctx, s₄, ending, ⟨c, url, label, s₂, hprepared, hchosen, rfl, hplace⟩, hruns,
      (yields_pure.mp h).1⟩

/-- A nested build begins one preparation at most. -/
theorem begun_nested (server : Server) (jobs : List Job) (job : String) (s : Session) :
    ((build server true (nested job jobs)).outcome s).2.begun ≤ s.begun + 1 := by
  rw [outcome_nested, rounds_succ]
  have hload : ((Recent.load server.settings).outcome s).2.begun ≤ s.begun + 0 :=
    Nat.le_of_eq (Session.begun_of_quiet (Recent.isFair_load _ s 0).since)
  refine begun_bind (m := 1) hload fun recent s₁ _ => ?_
  refine begun_bind (m := 0) (begun_prepare _ _ rfl s₁) fun found s₂ _ => ?_
  split
  · -- In a larger run no build follows this one, so the loop of builds has one round.
    refine begun_bind (n := 0) (m := 0) (Nat.le_of_eq (begun_follow _ _ _ _)) ?_
    intro ending s₃ hfollow
    rw [onward_eq (ne_again_of_follow hfollow)]
    exact Nat.le_refl _
  · exact Nat.le_refl _

/-! ### The way back into browsing -/

theorem actOn_build (server : Server) (job : String) (label : Json) (jobs : List Job) :
    actOn server job label (some jobs) "build" =
      (do return (← build server true (nested job jobs)).asAction) := rfl

section

variable {found : Job}

/-- What a nested build comes to is what its menu learns. -/
theorem performs_of_yields {built : Built}
    (h : (build server true (nested found.url jobs)).Yields s built s') :
    (performing server jobs "build" found).Yields s (.str built.asAction.word) s' := by
  have hact : (actOn server found.url found.displayName (some jobs) "build").Yields s
      built.asAction s' := by
    rw [actOn_build]
    exact yields_bind.mpr ⟨built, s', h, rfl⟩
  exact yields_bind.mpr ⟨_, s', yields_tryCatch.mpr (.inl hact), rfl⟩

/-- A nested build that complains has failed, as its menu learns. -/
theorem performs_of_complaint {c : Complaint} (hflow : c.isFlow = false)
    (h : (build server true (nested found.url jobs)).Fails s (.complaint c) s₁) :
    ∃ s', (performing server jobs "build" found).Yields s (.str ActionResult.error.word) s' := by
  have hact : (actOn server found.url found.displayName (some jobs) "build").Fails s
      (.complaint c) s₁ := by
    rw [actOn_build]
    exact fails_bind.mpr (.inl h)
  obtain ⟨s', hprinted⟩ := exists_printComplaint c s₁
  refine ⟨s', yields_bind.mpr ⟨.error, s', yields_tryCatch.mpr (.inr ⟨_, s₁, hact, ?_⟩), rfl⟩⟩
  dsimp only
  rw [hflow, if_neg Bool.false_ne_true]
  exact yields_bind.mpr ⟨(), s', hprinted, rfl⟩

end

/-- Where browsing goes on from a position: there and nowhere else, with its context as it was. -/
def GoesOn (server : Server) (jobs : List Job) (a : Position Browse.Context) (name : String) :
    Prop :=
  ∃ b, (∀ c, Goes Browse.table (Browse.handlers (performing server jobs)) Browse.home a c ↔
    c = b) ∧ b.state = name ∧ b.ctx = a.ctx

section

variable {a b : Position Browse.Context} {found : Job} {word : String}

theorem goesOn_of_goes
    (h : Goes Browse.table (Browse.handlers (performing server jobs)) Browse.home a b)
    (hctx : b.ctx = a.ctx) : GoesOn server jobs a b.state :=
  ⟨b, fun _ => ⟨fun hc => hc.unique h, fun hc => hc ▸ h⟩, rfl, hctx⟩

/-- The position is one where the nested build is performed. -/
structure Building (a : Position Browse.Context) (found : Job) : Prop where
  state : a.state = "run_action"
  action : a.ctx.action = some "build"
  job : a.ctx.job = some found

theorem Building.state? (h : Building a found) :
    Browse.table.state? a.state = some Browse.perform := by
  rw [h.state]
  rfl

/-- The event of the position is the result of the nested build. -/
theorem Building.outcome_eventAt (h : Building a found) :
    (eventAt Browse.table (Browse.handlers (performing server jobs)) a.state
      Browse.perform).outcome a.ctx a.session =
        ((((performing server jobs "build" found).outcome a.session).1, a.ctx),
          ((performing server jobs "build" found).outcome a.session).2) := by
  obtain ⟨name, ⟨settings, picked, job, action⟩, s⟩ := a
  obtain ⟨-, haction, hjob⟩ := h
  obtain rfl : action = some "build" := haction
  obtain rfl : job = some found := hjob
  rw [eventAt_router rfl rfl, ← Step.outcome_ofDesk]
  rfl

/-- The menu follows the result of the nested build. -/
theorem Building.exists_move (h : Building a found) (target : String)
    (hyields : (performing server jobs "build" found).Yields a.session (.str word) s')
    (htarget : Browse.perform.target? word = some target) :
    ∃ b, Moves Browse.table (Browse.handlers (performing server jobs)) a word b ∧
      b.state = target ∧ b.ctx = a.ctx := by
  have hevent : (eventAt Browse.table (Browse.handlers (performing server jobs)) a.state
      Browse.perform).Yields a.ctx a.session (.str word) a.ctx s' := by
    unfold Step.Yields
    rw [h.outcome_eventAt, hyields]
  obtain ⟨b, hmove, hto, hctx, -⟩ := Flow.exists_move target h.state? htarget hevent
  exact ⟨b, hmove, hto, hctx⟩

/-- After a nested build that went well the menu of the job comes back. -/
theorem Building.goesOn_menu (h : Building a found)
    (hyields : (performing server jobs "build" found).Yields a.session
      (.str ActionResult.ok.word) s') : GoesOn server jobs a "action_menu" := by
  obtain ⟨b, hmove, hto, hctx⟩ := h.exists_move "action_menu" hyields rfl
  rw [← hto]
  exact goesOn_of_goes (.inl ⟨⟨_, hmove⟩, by rw [hto]; rfl⟩) hctx

/-- After one that did not, the jobs come back. -/
theorem Building.goesOn_home (h : Building a found) (hword : word ∈ FollowUp.failures)
    (hyields : (performing server jobs "build" found).Yields a.session (.str word) s') :
    GoesOn server jobs a Browse.home := by
  have hall : ∀ word ∈ FollowUp.failures,
      Browse.perform.target? word = some Outcome.root.word := by decide
  obtain ⟨b, hmove, hto, hctx⟩ := h.exists_move _ hyields (hall word hword)
  have haway : a.state ≠ Browse.home := by rw [h.state]; decide
  exact goesOn_of_goes (.inr ⟨b, ⟨⟨_, hmove⟩, by rw [hto, Outcome.ofWord?_word]⟩, haway, rfl⟩) hctx

/-- After one that ends the command browsing is over. -/
theorem Building.stays (h : Building a found)
    (hyields : (performing server jobs "build" found).Yields a.session
      (.str ActionResult.exit.word) s') :
    ∃ b, Stays Browse.table (Browse.handlers (performing server jobs)) Browse.home a
      .exitCommand b := by
  obtain ⟨b, hmove, hto, -⟩ := h.exists_move Outcome.exitCommand.word hyields rfl
  exact ⟨b, ⟨⟨_, hmove⟩, by rw [hto, Outcome.ofWord?_word]⟩, nofun⟩

end

/-! ### The chosen job -/

/-- Away from the jobs a job is chosen. -/
def HasJob (a : Position Browse.Context) : Prop :=
  a.state = Browse.home ∨ ∃ job, a.ctx.job = some job

section

variable {perform : String → Job → Desk Json} {a : Position Browse.Context}

/-- Wherever browsing comes, a job is chosen away from the jobs. -/
theorem hasJob_of_goes {ctx : Browse.Context}
    (h : Relation.ReflTransGen (Goes Browse.table (Browse.handlers perform) Browse.home)
      (Browse.table.startAt Browse.home ctx s) a) : HasJob a := by
  obtain ⟨before, hpast⟩ := Browse.exists_past h
  by_cases hat : a.state = Browse.home
  · exact .inl hat
  · obtain ⟨job, hjob, -⟩ := (Browse.remembers_of_past hpast).job hat
    exact .inr ⟨job, hjob⟩

end

/-! ### Where browsing goes on -/

/-- What became of a nested build demands that browsing goes on in a state: with the menu of the
job when the build was abandoned or its follow-up left, and with the jobs when the last action of
the follow-up did not end well or the build complained. -/
inductive Demands (server : Server) (jobs : List Job) (job : String) (s : Session) : String → Prop
  | abandoned (habandons : Abandons server jobs job s) : Demands server jobs job s "action_menu"
  | left {order : Order} {ctx : FollowUp.Context} {s' : Session}
      (hfollows : Follows server jobs job s order ctx s')
      (hleaves : FollowUp.Leaves (following server order) (FollowUp.begins ctx s')) :
      Demands server jobs job s "action_menu"
  | failed {order : Order} {ctx : FollowUp.Context} {s' : Session} {word : String}
      (hfollows : Follows server jobs job s order ctx s') (hword : word ∈ FollowUp.failures)
      (hlast : FollowUp.LastReturned (following server order) (FollowUp.begins ctx s') word) :
      Demands server jobs job s Browse.home
  | complained {c : Complaint} {s' : Session}
      (hfails : (build server true (nested job jobs)).Fails s (.complaint c) s')
      (hflow : c.isFlow = false) : Demands server jobs job s Browse.home

/-- Browsing takes up a nested build where it should: the build begins one preparation at most,
browsing goes on just where the build demands, and it is over when the last action of the
follow-up ends the command. -/
structure Resumes (server : Server) (jobs : List Job) (a : Position Browse.Context) (found : Job) :
    Prop where
  once : ((visit Browse.table (Browse.handlers (performing server jobs)) a.state).outcome a.ctx
    a.session).2.begun ≤ a.session.begun + 1
  goesOn : ∀ name, GoesOn server jobs a name ↔ Demands server jobs found.url a.session name
  exits : ∀ order ctx s', Follows server jobs found.url a.session order ctx s' →
    FollowUp.LastReturned (following server order) (FollowUp.begins ctx s')
      ActionResult.exit.word →
    ∃ b, Stays Browse.table (Browse.handlers (performing server jobs)) Browse.home a
      .exitCommand b

section

variable {a : Position Browse.Context} {found : Job}

/-- What the menu prints about a build that complains begins nothing. -/
theorem begun_performing (server : Server) (jobs : List Job) (found : Job) (s : Session) :
    ((performing server jobs "build" found).outcome s).2.begun ≤ s.begun + 1 := by
  have hact : ((actOn server found.url found.displayName (some jobs) "build").outcome s).2.begun ≤
      s.begun + 1 := by
    rw [actOn_build]
    exact begun_bind (m := 0) (begun_nested server jobs found.url s) fun _ _ _ => Nat.le_refl _
  refine begun_bind (m := 0) ?_ fun _ _ _ => Nat.le_refl _
  unfold performOn asMenuAction
  rw [outcome_tryCatch]
  rcases hout : (actOn server found.url found.displayName (some jobs) "build").outcome s
    with ⟨f | result, s₁⟩
  · rw [hout] at hact
    cases f with
    | complaint c =>
      dsimp only
      split
      · exact hact
      · have hprint : ((Console.printComplaint c).outcome s₁).2.begun = s₁.begun :=
          Session.begun_of_quiet (Console.isFair_printComplaint c s₁ 0).since
        exact Nat.le_trans (begun_bind (n := 0) (m := 0) (Nat.le_of_eq hprint)
          fun _ _ _ => Nat.le_refl _) hact
    | _ => exact hact
  · rw [hout] at hact
    exact hact

/-- Following an event begins nothing. -/
theorem begun_follow_event {d : Definition Browse.Context} {name : String}
    {state : State Browse.Context} (event : Json) (ctx : Browse.Context) (s : Session) :
    ((Flow.follow d name state event).outcome ctx s).2.begun = s.begun := by
  rcases hout : (Flow.follow d name state event).outcome ctx s with ⟨⟨f | target, ctx'⟩, s'⟩
  · exact congrArg Session.begun (follow_fails_keeps hout)
  · obtain ⟨word, -, -, -, rfl⟩ := follow_yields.mp hout
    rfl

/-- The visit begins what the nested build begins. -/
theorem Building.begun_visit (h : Building a found) :
    ((visit Browse.table (Browse.handlers (performing server jobs)) a.state).outcome a.ctx
      a.session).2.begun ≤ a.session.begun + 1 := by
  have hbegun := begun_performing server jobs found a.session
  unfold visit
  rw [h.state?]
  dsimp only
  rw [Step.outcome_bind, h.outcome_eventAt]
  rcases hout : (performing server jobs "build" found).outcome a.session with ⟨f | event, s₁⟩
  · rw [hout] at hbegun
    exact hbegun
  · rw [hout] at hbegun
    exact Nat.le_trans (Nat.le_of_eq (begun_follow_event event _ _)) hbegun

theorem performs_of_runsTo {outcome : Outcome} {ctx : FollowUp.Context}
    (hfollows : Follows server jobs found.url s order ctx s₁)
    (hruns : FollowUp.RunsTo (following server order) ctx s₁ outcome) :
    ∃ state s', (performing server jobs "build" found).Yields s
      (.str (builtAfter ⟨outcome, state⟩ true).asAction.word) s' := by
  obtain ⟨state, s', hyields⟩ := yields_of_runsTo hfollows hruns
  exact ⟨state, s', performs_of_yields hyields⟩

/-- The follow-up of a nested build ends as one in a larger run. -/
theorem Follows.endsNested {ctx : FollowUp.Context}
    (h : Follows server jobs job s order ctx s₁) :
    FollowUp.EndsNested (following server order) ctx s₁ :=
  FollowUp.endsNested (tame_following server order) (onlyFinds_following server order) h.returns

/-- Browsing goes on where the nested build demands. -/
theorem Building.goesOn_of_demands {name : String} (h : Building a found)
    (hdemands : Demands server jobs found.url a.session name) : GoesOn server jobs a name := by
  cases hdemands with
  | abandoned habandons =>
    obtain ⟨s', hyields⟩ := yields_of_abandons habandons
    exact h.goesOn_menu (performs_of_yields hyields)
  | left hfollows hleaves =>
    obtain ⟨state, s', hyields⟩ :=
      performs_of_runsTo hfollows (hfollows.endsNested.back.mpr hleaves)
    exact h.goesOn_menu hyields
  | failed hfollows hword hlast =>
    obtain ⟨state, s', hyields⟩ :=
      performs_of_runsTo hfollows (hfollows.endsNested.toRoot.mpr ⟨_, hword, hlast⟩)
    have hroot : ActionResult.root.word ∈ FollowUp.failures := by decide
    exact h.goesOn_home hroot hyields
  | complained hfails hflow =>
    obtain ⟨s', hyields⟩ := performs_of_complaint hflow hfails
    have herror : ActionResult.error.word ∈ FollowUp.failures := by decide
    exact h.goesOn_home herror hyields

/-- A result of the menu is that of the nested build, or the build has complained. -/
theorem cases_of_performing {event : Json}
    (h : (performing server jobs "build" found).Yields s event s') :
    (∃ built s₁, (build server true (nested found.url jobs)).Yields s built s₁ ∧
      event = .str built.asAction.word) ∨
    ∃ c s₁, (build server true (nested found.url jobs)).Fails s (.complaint c) s₁ ∧
      c.isFlow = false ∧ event = .str ActionResult.error.word := by
  obtain ⟨result, s₁, hperform, hend⟩ := yields_bind.mp h
  obtain ⟨rfl, rfl⟩ := yields_pure.mp hend
  rcases yields_tryCatch.mp hperform with hact | ⟨f, s₂, hact, hhandle⟩
  · rw [actOn_build] at hact
    obtain ⟨built, s₂, hbuild, hresult⟩ := yields_bind.mp hact
    obtain ⟨rfl, -⟩ := yields_pure.mp hresult
    exact .inl ⟨built, s₂, hbuild, rfl⟩
  · rw [actOn_build] at hact
    cases f with
    | complaint c =>
      dsimp only at hhandle
      cases hflow : c.isFlow with
      | true =>
        rw [hflow, if_pos rfl] at hhandle
        exact absurd hhandle yields_throw
      | false =>
        rw [hflow, if_neg Bool.false_ne_true] at hhandle
        obtain ⟨_, s₃, -, hresult⟩ := yields_bind.mp hhandle
        obtain ⟨rfl, -⟩ := yields_pure.mp hresult
        refine .inr ⟨c, s₂, ?_, hflow, rfl⟩
        rcases fails_bind.mp hact with hbuild | ⟨built, s₄, -, hresult⟩
        · exact hbuild
        · exact absurd hresult fails_pure
    | _ => exact absurd hhandle yields_throw

/-- Where the loop goes on is where the move leads, or home. -/
theorem state_of_goes {d : Definition Browse.Context} {r : Registry Browse.Context} {home : String}
    {event : String} {b c : Position Browse.Context} (hmove : Moves d r a event c)
    (h : Goes d r home a b) :
    Outcome.ofWord? c.state = none ∧ b.state = c.state ∨
      c.state = Outcome.root.word ∧ b.state = home := by
  rcases h with ⟨⟨event', hb⟩, hin⟩ | ⟨c', ⟨⟨event', hc⟩, hout⟩, -, rfl⟩
  · obtain rfl := (hmove.unique hb).2
    exact .inl ⟨hin, rfl⟩
  · obtain rfl := (hmove.unique hc).2
    exact .inr ⟨Outcome.word_of_ofWord? hout, rfl⟩

/-- Where the loop goes on, the nested build has come to something. -/
theorem Building.exists_event {b : Position Browse.Context} (h : Building a found)
    (hgoes : Goes Browse.table (Browse.handlers (performing server jobs)) Browse.home a b) :
    ∃ event s', (performing server jobs "build" found).Yields a.session event s' := by
  obtain ⟨event, c, state, s', hstate, -, hevent, -⟩ : ∃ event c,
      Moves Browse.table (Browse.handlers (performing server jobs)) a event c := by
    rcases hgoes with ⟨⟨event, hmove⟩, -⟩ | ⟨c, ⟨⟨event, hmove⟩, -⟩, -⟩
    · exact ⟨event, b, hmove⟩
    · exact ⟨event, c, hmove⟩
  obtain rfl := Option.some.inj (h.state?.symm.trans hstate)
  unfold Step.Yields at hevent
  rw [h.outcome_eventAt] at hevent
  obtain ⟨hresult, rfl⟩ := Prod.mk.inj hevent
  exact ⟨.str event, _, Prod.ext (Prod.mk.inj hresult).1 rfl⟩

/-- Browsing goes on with the menu after a build that went well, with the jobs after one that did
not, and not at all after one that ends the command. -/
theorem Building.state_of_goes {b : Position Browse.Context} {result : ActionResult}
    (h : Building a found) (hgoes : Goes Browse.table (Browse.handlers (performing server jobs))
      Browse.home a b)
    (hyields : (performing server jobs "build" found).Yields a.session (.str result.word) s') :
    result = .ok ∧ b.state = "action_menu" ∨
      result ≠ .ok ∧ result ≠ .exit ∧ b.state = Browse.home := by
  have htarget : ∃ target, Browse.perform.target? result.word = some target := by
    cases result
    all_goals exact ⟨_, rfl⟩
  obtain ⟨target, htarget⟩ := htarget
  obtain ⟨c, hmove, hto, -⟩ := h.exists_move target hyields htarget
  have hstate := Command.state_of_goes hmove hgoes
  rw [hto] at hstate
  have hmenu : Outcome.ofWord? "action_menu" = none := rfl
  have hroot : Outcome.ofWord? "root" = some .root := rfl
  have hexit : Outcome.ofWord? "exit_command" = some .exitCommand := rfl
  cases result
  case exit =>
    obtain rfl := Option.some.inj htarget
    simp [hexit, Outcome.word] at hstate
  all_goals
    obtain rfl := Option.some.inj htarget
    simpa [hmenu, hroot, Outcome.word] using hstate

/-- A nested build that comes back demands the jobs when it asks for the root, and the menu
otherwise, unless it ends the command. -/
theorem demands_of_yields {built : Built}
    (h : (build server true (nested job jobs)).Yields s built s') (hexit : built.toExit = false) :
    Demands server jobs job s (if built.toRoot then Browse.home else "action_menu") := by
  rcases cases_of_nested h with ⟨habandons, rfl⟩ |
    ⟨order, ctx, s₁, ⟨outcome, state⟩, hfollows, hruns, rfl⟩
  · exact .abandoned habandons
  · have hends := hfollows.endsNested
    have honly := hends.only _ hruns
    simp only [List.mem_cons, List.not_mem_nil, or_false] at honly
    rcases honly with rfl | rfl | rfl
    · exact .left hfollows (hends.back.mp hruns)
    · obtain ⟨word, hword, hlast⟩ := hends.toRoot.mp hruns
      exact .failed hfollows hword hlast
    · cases hexit

/-- Where browsing goes on is what the nested build demands. -/
theorem Building.demands_of_goesOn {name : String} (h : Building a found)
    (hgoesOn : GoesOn server jobs a name) : Demands server jobs found.url a.session name := by
  obtain ⟨b, honly, hname, -⟩ := hgoesOn
  have hgoes := (honly b).mpr rfl
  obtain ⟨event, s₁, hyields⟩ := h.exists_event hgoes
  rcases cases_of_performing hyields with ⟨built, s₂, hbuild, rfl⟩ | ⟨c, s₂, hfails, hflow, rfl⟩
  · -- The result of the build is told apart by where browsing was seen to go on.
    have hstate := h.state_of_goes hgoes hyields
    rw [hname] at hstate
    have hdemands := demands_of_yields hbuild
    obtain ⟨triggered, toRoot, toExit⟩ := built
    cases toExit with
    | true => simp [Built.asAction] at hstate
    | false =>
      cases toRoot with
      | true =>
        obtain ⟨-, -, rfl⟩ := hstate.resolve_left fun hok => nomatch hok.1
        exact hdemands rfl
      | false =>
        obtain ⟨-, rfl⟩ := hstate.resolve_right fun hnot => hnot.1 rfl
        exact hdemands rfl
  · have hstate := h.state_of_goes hgoes hyields
    rw [hname] at hstate
    obtain ⟨-, -, rfl⟩ := hstate.resolve_left fun hok => nomatch hok.1
    exact .complained hfails hflow

/-- Browsing takes up a nested build where it should. -/
theorem Building.resumes (h : Building a found) : Resumes server jobs a found where
  once := h.begun_visit
  goesOn _ := ⟨h.demands_of_goesOn, h.goesOn_of_demands⟩
  exits order ctx s' hfollows hlast := by
    obtain ⟨state, s₁, hyields⟩ :=
      performs_of_runsTo hfollows (hfollows.endsNested.toExit.mpr hlast)
    exact h.stays hyields

end

/-- A session of browsing comes by its positions to where it ends. -/
theorem stays_of_browse {found : List Job} {wanted : Bool}
    (h : (browse server found jobs).Yields s wanted s') :
    ∃ a outcome b,
      Relation.ReflTransGen (Goes Browse.table (Browse.handlers (performing server jobs))
        Browse.home) (Browse.table.startAt Browse.home
          { settings := server.settings, jobs := found } s) a ∧
      Stays Browse.table (Browse.handlers (performing server jobs)) Browse.home a outcome b ∧
      b.session = s' ∧ wanted = (outcome == .exitCommand) := by
  rw [browse_eq] at h
  obtain ⟨outcome, s₁, hloop, hend⟩ := yields_bind.mp (yields_get_bind.mp h)
  obtain ⟨rfl, rfl⟩ := yields_pure.mp hend
  obtain ⟨a, b, hgoes, hstays, hsession⟩ := stays_of_loop (by decide) hloop
  exact ⟨a, outcome, b, hgoes, hstays, hsession, rfl⟩

/-- **Nested builds resume at the right place.**  In a larger run a follow-up never asks for
another build; it goes back when the user leaves its menu, to the root when its last action did
not end well, and out when its last action ends the command.  In a run of its own it is repeated
when the user agrees, and otherwise the command ends.  So a build that is chosen while browsing
begins one preparation at most, and browsing goes on with the menu of the same job when the build
was abandoned or its follow-up left, and with the jobs when an action of the follow-up did not end
well or the build complained; a session of browsing goes on in this way until it ends.  An action
of a follow-up comes back, takes what it is answered from the script, and may find out where the
build is. -/
theorem nested_builds_resume :
    (∀ perform : String → Step FollowUp.Context Json, (∀ action, (perform action).Tame) →
      FollowUp.OnlyFinds perform → ∀ ctx s,
        (ctx.returns = true → FollowUp.EndsNested perform ctx s) ∧
        (ctx.returns = false → FollowUp.EndsAlone perform ctx s)) ∧
    (∀ (server : Server) (jobs : List Job) (ctx : Browse.Context) (s : Session)
      (a : Position Browse.Context),
      Relation.ReflTransGen (Goes Browse.table (Browse.handlers (performing server jobs))
        Browse.home) (Browse.table.startAt Browse.home ctx s) a →
      a.state = "run_action" → a.ctx.action = some "build" →
      ∃ found, a.ctx.job = some found ∧ Resumes server jobs a found) ∧
    ∀ (server : Server) (found jobs : List Job) (s s' : Session) (wanted : Bool),
      (browse server found jobs).Yields s wanted s' → ∃ a outcome b,
        Relation.ReflTransGen (Goes Browse.table (Browse.handlers (performing server jobs))
          Browse.home) (Browse.table.startAt Browse.home
            { settings := server.settings, jobs := found } s) a ∧
        Stays Browse.table (Browse.handlers (performing server jobs)) Browse.home a outcome b ∧
        b.session = s' ∧ wanted = (outcome == .exitCommand) := by
  refine ⟨fun perform htame hfinds ctx s => ⟨FollowUp.endsNested htame hfinds,
    FollowUp.endsAlone htame hfinds⟩, fun server jobs ctx s a hgoes hstate haction => ?_,
    fun server found jobs s s' wanted => stays_of_browse⟩
  obtain ⟨found, hjob⟩ := (hasJob_of_goes hgoes).resolve_left (by rw [hstate]; decide)
  exact ⟨found, hjob, Building.resumes ⟨hstate, haction, hjob⟩⟩

/-! ### A build while browsing -/

/-- The one job that was found. -/
def onlyJob : Job := { name := "a", url := "http://ci/job/a" }

/-- A session in which these are the answers and replies that are left. -/
def leftWith (rest : List Answer) (responses : List Response) (log : List Event) : Session where
  answers := rest
  responses := responses
  log := log

/-- The user picks the job and a build. -/
def picks (rest : List Answer) (responses : List Response) : Session :=
  leftWith (.value (.str onlyJob.url) :: .value (.str "build") :: rest) responses []

/-- Two moves lead from the jobs to the build. -/
theorem building_of_picks (rest : List Answer) (responses : List Response) :
    ∃ a log, Relation.ReflTransGen
        (Goes Browse.table (Browse.handlers (performing plainServer [])) Browse.home)
        (Browse.table.startAt Browse.home oneFound (picks rest responses)) a ∧
      Building a onlyJob ∧ a.session = leftWith rest responses log :=
  ⟨_, _, .tail (.tail .refl (.inl ⟨⟨_, moves_of_outcome rfl rfl rfl⟩, rfl⟩))
    (.inl ⟨⟨_, moves_of_outcome rfl rfl rfl⟩, rfl⟩), ⟨rfl, rfl, rfl⟩, rfl⟩

/-- What the nested build comes to. -/
def resultOf (rest : List Answer) (responses : List Response) (log : List Event) :
    Except Fault Built :=
  ((build plainServer true (nested onlyJob.url [])).outcome (leftWith rest responses log)).1

/-- It does not depend on the log. -/
theorem resultOf_eq (rest : List Answer) (responses : List Response) (log : List Event) :
    resultOf rest responses log = resultOf rest responses [] := by
  have hblind : (build plainServer true (nested onlyJob.url [])).Overlooks id log :=
    overlooks_buildCommand _ _ _
  have haside : leftWith rest responses log = (leftWith rest responses []).aside id log := rfl
  unfold resultOf
  rw [haside, hblind]

/-- What the nested build demands, by what it comes to. -/
def demandOf : Except Fault Built → Option String
  | .ok built =>
    if built.toExit then none else some (if built.toRoot then Browse.home else "action_menu")
  | .error (.complaint c) => if c.isFlow then none else some Browse.home
  | .error _ => none

theorem demands_of_resultOf {rest : List Answer} {responses : List Response} {name : String}
    (h : demandOf (resultOf rest responses []) = some name) (log : List Event) :
    Demands plainServer [] onlyJob.url (leftWith rest responses log) name := by
  rw [← resultOf_eq rest responses log] at h
  unfold resultOf at h
  rcases hout : (build plainServer true (nested onlyJob.url [])).outcome
    (leftWith rest responses log) with ⟨f | built, s'⟩
  · rw [hout] at h
    cases f with
    | complaint c =>
      cases hflow : c.isFlow with
      | true => simp [demandOf, hflow] at h
      | false =>
        obtain rfl : Browse.home = name := by simpa [demandOf, hflow] using h
        exact .complained hout hflow
    | _ => cases h
  · rw [hout] at h
    cases hexit : built.toExit with
    | true => simp [demandOf, hexit] at h
    | false =>
      have hdemands := demands_of_yields hout hexit
      simp only [demandOf, hexit, Bool.false_eq_true, if_false, Option.some.injEq] at h
      exact h ▸ hdemands

/-- The server queues the build. -/
def queues : Response := .reply { headers := [("Location", .str "http://ci/queue/1/")] } 0.0

/-- Whatever is chosen, watching is stopped. -/
def stopsWatching (_ : String) : Step FollowUp.Context Json :=
  pure (.str ActionResult.watchCancelled.word)

/-- What a follow-up knows at first, in a larger run or in a run of its own. -/
def justPlaced (returns : Bool) : FollowUp.Context where
  settings := plainServer.settings
  label := .str "a"
  returns := returns

theorem runsTo_of_outcome {perform : String → Step FollowUp.Context Json} {ctx : FollowUp.Context}
    {outcome : Outcome}
    (h : ((FollowUp.table.run (FollowUp.handlers perform) none).outcome ctx s).1.1.toOption.map
      Ending.outcome = some outcome) : FollowUp.RunsTo perform ctx s outcome := by
  rcases hrun : (FollowUp.table.run (FollowUp.handlers perform) none).outcome ctx s
    with ⟨⟨f | ⟨outcome', state⟩, ctx'⟩, s'⟩
  · rw [hrun] at h
    cases h
  · rw [hrun] at h
    obtain rfl := Option.some.inj h
    exact ⟨state, ctx', s', hrun⟩

/-- A follow-up whose watching is stopped, and one after which the user agrees to build again.
Then builds that the user picks while browsing: one that is abandoned, one whose follow-up is left,
one whose follow-up stops watching, and one that the server refuses; and a session of browsing. -/
theorem nested_builds_resume_at_menu_and_jobs :
    (∀ action, (stopsWatching action).Tame) ∧ FollowUp.OnlyFinds stopsWatching ∧
    (∃ word ∈ FollowUp.failures, FollowUp.LastReturned stopsWatching
      (FollowUp.begins (justPlaced true) { answers := [.value (.str "watch")] }) word) ∧
    FollowUp.Agrees stopsWatching (FollowUp.begins (justPlaced false)
      { answers := [.value (.str done), .value (.bool true)] }) ∧
    (∀ picked ∈ [([.value .null, .value .null], [], "action_menu"),
        ([.value (.str withoutParams), .value (.str done)], [queues], "action_menu"),
        ([.value (.str withoutParams), .value (.str "watch")],
          [queues, .reply {} 0.0, .interrupt 0.0], Browse.home),
        ([.value (.str withoutParams)], [.reply { status := .int 500 } 0.0], Browse.home)],
      ∃ a, Relation.ReflTransGen
          (Goes Browse.table (Browse.handlers (performing plainServer [])) Browse.home)
          (Browse.table.startAt Browse.home oneFound (picks picked.1 picked.2.1)) a ∧
        a.ctx.job = some onlyJob ∧ GoesOn plainServer [] a picked.2.2) ∧
    ∃ a outcome b, Relation.ReflTransGen
        (Goes Browse.table (Browse.handlers (performing plainServer [])) Browse.home)
        (Browse.table.startAt Browse.home oneFound
          (picks [.value .null, .value .null, .value .null, .value .null] [])) a ∧
      Stays Browse.table (Browse.handlers (performing plainServer [])) Browse.home a outcome b ∧
      outcome ≠ .exitCommand := by
  have htame : ∀ action, (stopsWatching action).Tame := fun _ => Step.tame_pure _
  have hfinds : FollowUp.OnlyFinds stopsWatching := fun h =>
    ⟨_, (Step.yields_pure.mp h).2.1⟩
  have hends := nested_builds_resume.1 stopsWatching htame hfinds
  refine ⟨htame, hfinds, ?_, ?_, fun picked hpicked => ?_, ?_⟩
  · have hroot : FollowUp.RunsTo stopsWatching (justPlaced true)
        { answers := [.value (.str "watch")] } .returnToCallerRoot :=
      runsTo_of_outcome (by decide +kernel)
    exact ((hends _ _).1 rfl).toRoot.mp hroot
  · have hagain : FollowUp.RunsTo stopsWatching (justPlaced false)
        { answers := [.value (.str done), .value (.bool true)] } .again :=
      runsTo_of_outcome (by decide +kernel)
    exact ((hends _ _).2 rfl).again.mp hagain
  · have hdemand : demandOf (resultOf picked.1 picked.2.1 []) = some picked.2.2 := by
      simp only [List.mem_cons, List.not_mem_nil, or_false] at hpicked
      rcases hpicked with rfl | rfl | rfl | rfl
      all_goals decide +kernel
    obtain ⟨a, log, hgoes, hbuilding, hsession⟩ := building_of_picks picked.1 picked.2.1
    obtain ⟨found, hjob, hresumes⟩ := nested_builds_resume.2.1 plainServer [] oneFound _ a hgoes
      hbuilding.state hbuilding.action
    obtain rfl := Option.some.inj (hbuilding.job.symm.trans hjob)
    refine ⟨a, hgoes, hjob, (hresumes.goesOn _).mpr ?_⟩
    rw [hsession]
    exact demands_of_resultOf hdemand log
  · have hfalse : ((browse plainServer oneFound.jobs []).outcome
        (picks [.value .null, .value .null, .value .null, .value .null] [])).1.toOption =
          some false := by decide +kernel
    rcases hbrowse : (browse plainServer oneFound.jobs []).outcome
      (picks [.value .null, .value .null, .value .null, .value .null] []) with ⟨f | wanted, s'⟩
    · rw [hbrowse] at hfalse
      cases hfalse
    · rw [hbrowse] at hfalse
      obtain rfl := Option.some.inj hfalse
      obtain ⟨a, outcome, b, hgoes, hstays, -, hwanted⟩ :=
        nested_builds_resume.2.2 plainServer oneFound.jobs [] _ s' false hbrowse
      refine ⟨a, outcome, b, hgoes, hstays, ?_⟩
      rintro rfl
      cases hwanted

end Command
end BuildDesk
