/-
Builds are placed as they were confirmed.

The command prepares a build, places it and follows up on it, and in the end it may begin again.
Its loop runs two flows in turn, and the follow-up places the build once more whenever the user
wishes so.  Whatever is answered and whatever the server replies:

* `did_eventAt`, `did_visit`, `did_go` — in a follow-up, each wish to build again is followed at
  once by placing the order of the build, and nothing else is placed;
* `did_follow` — a build with its follow-up places its order, and then once for each wish;
* `Builds`, `builds_rounds` — the loop does what `Exact` says, and tells whether a build was queued;
* `builds_what_was_confirmed` — the command places exactly the builds that were prepared and
  wished for, and says whether any was queued.
-/
import BuildDesk.Proofs.Command.Deeds
import BuildDesk.Proofs.Command.Reliable

namespace BuildDesk.Command

open Desk BuildDesk.Flow

variable {server : Server} {param : String} {o : BuildOptions} {order : Order} {agreed : Bool}
variable {deeds : List Deed} {s s₁ s' : Session} {name : String}
variable {ctx ctx' : FollowUp.Context}

/-! ### A visit of the follow-up -/

/-- The wish that the user has voiced and that is yet to be seen to. -/
def pendingWish (name : String) (ctx : FollowUp.Context) : List Deed :=
  if name = "run_action" ∧ ctx.action = some "rerun" then [.wished] else []

/-- The menu gives the event of a choice, and keeps the choice. -/
theorem event_of_pickAction {event : Json}
    (h : (eventAt FollowUp.table (followUps server order) "action_menu" FollowUp.pickAction).Yields
      ctx s event ctx' s') :
    event = .str "esc" ∨ event = .str done ∨
      ∃ value, event = .str (selected value) ∧ ctx'.action = some value := by
  obtain ⟨v, s₁, -, -, ⟨-, rfl, -, -⟩ | ⟨-, hrun⟩⟩ := eventAt_answered rfl rfl rfl rfl h
  · exact .inl rfl
  · rcases yields_settling rfl hrun with ⟨part, said, hpart, hsaid, rfl, -⟩ | ⟨-, hchange⟩
    · obtain ⟨rfl, -⟩ := (leaving_gives hpart).2 _ _ _ hsaid
      exact .inr (.inl rfl)
    · obtain ⟨rfl, rfl, -⟩ := yields_ofChange.mp hchange
      exact .inr (.inr ⟨_, rfl, rfl⟩)

/-- A move of the follow-up voices the wish to build again, or it leaves none to be seen to. -/
theorem wish_of_moves {a b : Position FollowUp.Context} {word : String}
    (h : Moves FollowUp.table (followUps server order) a word b) :
    (a.state = "action_menu" ∧ word = selected "rerun" ∧ b.state = "run_action" ∧
      b.ctx.action = some "rerun") ∨
    word ≠ selected "rerun" ∧ pendingWish b.state b.ctx = [] := by
  obtain ⟨state, s, hstate, htarget, hevent, -⟩ := h
  have hmem := mem_states_of_state? hstate
  simp only [FollowUp.table, List.mem_cons, List.not_mem_nil, or_false, Prod.mk.injEq] at hmem
  -- no state but the menu leads to an action, and none but it knows the word
  have hother : (∀ entry ∈ state.transitions, entry.1 ≠ selected "rerun" ∧ entry.2 ≠ "run_action") →
      word ≠ selected "rerun" ∧ pendingWish b.state b.ctx = [] := by
    intro hall
    have hthis := hall (word, b.state) (mem_of_lookup htarget)
    exact ⟨hthis.1, if_neg fun hpending => hthis.2 hpending.1⟩
  rcases hmem with ⟨hname, rfl⟩ | ⟨-, rfl⟩ | ⟨-, rfl⟩ | ⟨-, rfl⟩ | ⟨-, rfl⟩
  · rw [hname] at hevent
    rcases event_of_pickAction hevent with hword | hword | ⟨value, hword, haction⟩
    · obtain rfl := Json.str.inj hword
      have hb : "after_menu" = b.state := Option.some.inj htarget
      exact .inr ⟨by decide, if_neg fun hpending => absurd (hb.trans hpending.1) (by decide)⟩
    · obtain rfl := Json.str.inj hword
      have hb : "after_menu" = b.state := Option.some.inj htarget
      exact .inr ⟨by decide, if_neg fun hpending => absurd (hb.trans hpending.1) (by decide)⟩
    · obtain rfl := Json.str.inj hword
      by_cases hvalue : value = "rerun"
      · subst hvalue
        have hb : "run_action" = b.state := Option.some.inj htarget
        exact .inl ⟨hname, rfl, hb.symm, haction⟩
      · refine .inr ⟨fun hword => hvalue (selected_inj hword), if_neg fun hpending => ?_⟩
        exact hvalue (Option.some.inj (haction.symm.trans hpending.2))
  · exact .inr (hother (by decide))
  · exact .inr (hother (by decide))
  · exact .inr (hother (by decide))
  · exact .inr (hother (by decide))

/-- With no wish to be seen to, the event of a state is quiet. -/
theorem fairAt_eventAt_followUp {state : State FollowUp.Context}
    (hstate : FollowUp.table.state? name = some state) (hnone : pendingWish name ctx = []) :
    Step.FairAt Event.IsQuiet (eventAt FollowUp.table (followUps server order) name state)
      ctx s := by
  have hmem := mem_states_of_state? hstate
  -- no other state calls the handler that performs the action
  have hruns : ∀ handler, state.onEnter = some handler ∨ state.onSelect = some handler →
      handler = "build_post.run_action" → name = "run_action" := by
    rintro handler hcalled rfl
    simp only [FollowUp.table, List.mem_cons, List.not_mem_nil, or_false, Prod.mk.injEq] at hmem
    rcases hmem with ⟨rfl, rfl⟩ | ⟨rfl, rfl⟩ | ⟨rfl, rfl⟩ | ⟨rfl, rfl⟩ | ⟨rfl, rfl⟩
    · exact absurd hcalled (by decide)
    · rfl
    · exact absurd hcalled (by decide)
    · exact absurd hcalled (by decide)
    · exact absurd hcalled (by decide)
  refine fairAt_eventAt (fit_of_problems (FollowUp.checked _) hstate) (FollowUp.ordinary _ hmem) ?_
  intro handler h hcalled hfind value s
  refine FollowUp.fairAt_handlers hfind (fun hrun action haction => ?_) value
  refine isFair_performing (isFair_act_of_ne server order ?_)
  rintro rfl
  rw [pendingWish, if_pos ⟨hruns handler hcalled hrun, haction⟩] at hnone
  cases hnone

/-- Placing an order inside of the follow-up does to the session what placing it does. -/
theorem session_of_place (server : Server) (order : Order) (ctx : FollowUp.Context) (s : Session) :
    ((place server order).outcome ctx s).2 = ((order.place server).outcome s).2 := by
  unfold place
  rw [Step.outcome_bind, Step.outcome_ofDesk]
  rcases (order.place server).outcome s with ⟨f | queue, s₁⟩
  · rfl
  · rfl

/-- An order is placed, and the server agrees or it does not. -/
theorem does_place (server : Server) (param : String) (order : Order) (s : Session) :
    ∃ agreed : Bool, (agreed = true ↔ order.Agrees server s) ∧
      Does server param s (.placed order agreed) ((order.place server).outcome s).2 := by
  by_cases h : order.Agrees server s
  · have hagreed : true = true ↔ order.Agrees server s := iff_of_true rfl h
    exact ⟨true, hagreed, .places hagreed⟩
  · have hagreed : false = true ↔ order.Agrees server s := iff_of_false Bool.false_ne_true h
    exact ⟨false, hagreed, .places hagreed⟩

/-- Building again places the order, and then its complaints are seen to. -/
theorem since_of_rerun (server : Server) (order : Order) (ctx : FollowUp.Context) (s : Session) :
    ((order.place server).outcome s).2.Since Event.IsQuiet
      ((perform server order "rerun").outcome ctx s).2 := by
  have hact : ((act server order "rerun").outcome ctx s).2 =
      ((place server order).outcome ctx s).2 := by
    show ((place server order >>= fun _ => pure ActionResult.ok).outcome ctx s).2 = _
    rw [Step.outcome_bind]
    rcases (place server order).outcome ctx s with ⟨⟨f | _, ctx₁⟩, s₁⟩
    · rfl
    · rfl
  rw [← session_of_place server order ctx s, ← hact]
  refine Step.since_of_tryCatch (fun f => ?_) ctx s
  cases f with
  | complaint c =>
    dsimp only
    split
    · exact .inl rfl
    · exact .inr (Step.isFair_bind (Step.isFair_ofDesk (Console.isFair_printComplaint c))
        fun _ => Step.isFair_pure _)
  | _ => exact .inl rfl

/-- Before its event a state sees to the wish that is pending, by placing the order. -/
theorem did_eventAt (server : Server) (param : String) (order : Order)
    {state : State FollowUp.Context} (hstate : FollowUp.table.state? name = some state)
    (ctx : FollowUp.Context) (s : Session) :
    ∃ deeds, Again order (pendingWish name ctx ++ deeds) ∧ Did server param s deeds
      ((eventAt FollowUp.table (followUps server order) name state).outcome ctx s).2 := by
  by_cases hpending : name = "run_action" ∧ ctx.action = some "rerun"
  · obtain ⟨rfl, haction⟩ := hpending
    obtain rfl : FollowUp.perform = state := Option.some.inj hstate
    obtain ⟨agreed, -, hplaces⟩ := does_place server param order s
    have hrun : (eventAt FollowUp.table (followUps server order) "run_action"
        FollowUp.perform).outcome ctx s = (perform server order "rerun" >>= fun result =>
          pure (Json.str result.word)).outcome ctx s := by
      rw [eventAt_router rfl rfl]
      cases ctx
      obtain rfl := haction
      rfl
    refine ⟨[.placed order agreed], ?_, .single hplaces (.quiet ?_)⟩
    · rw [pendingWish, if_pos ⟨rfl, haction⟩]
      exact .once .none
    · rw [hrun, Step.outcome_bind]
      have hsince := since_of_rerun server order ctx s
      generalize (perform server order "rerun").outcome ctx s = result at hsince
      obtain ⟨⟨f | a, ctx₁⟩, s₁⟩ := result
      · exact hsince
      · exact hsince
  · have hnone : pendingWish name ctx = [] := if_neg hpending
    refine ⟨[], by rw [hnone]; exact .none, .quiet ?_⟩
    exact (fairAt_eventAt_followUp hstate hnone 0).since

/-- After the event of a state a visit logs where it leads, which may be a wish. -/
theorem did_visit {state : State FollowUp.Context}
    (hstate : FollowUp.table.state? name = some state) (hdid : Did server param s deeds
      ((eventAt FollowUp.table (followUps server order) name state).outcome ctx s).2) :
    (∀ f ctx' s', (visit FollowUp.table (followUps server order) name).Fails ctx s f ctx' s' →
      Did server param s deeds s') ∧
    ∀ target ctx' s', (visit FollowUp.table (followUps server order) name).Yields
      ctx s target ctx' s' → Did server param s (deeds ++ pendingWish target ctx') s' := by
  constructor
  · intro f ctx' s' hfails
    simp only [visit, hstate] at hfails
    rcases Step.fails_bind.mp hfails with hevent | ⟨event, ctx₁, s₁, hevent, hfollow⟩
    · rwa [hevent] at hdid
    · obtain rfl := follow_fails_keeps hfollow
      rwa [hevent] at hdid
  · intro target ctx' s' hyields
    obtain ⟨word, hmove⟩ := visit_yields.mp hyields
    have hwish := wish_of_moves hmove
    obtain ⟨state', s₁, hstate', htarget, hevent, hs'⟩ := hmove
    obtain rfl := Option.some.inj (hstate.symm.trans hstate')
    rw [hevent] at hdid
    dsimp only at hwish hs'
    subst hs'
    refine hdid.trans ?_
    rcases hwish with ⟨rfl, rfl, rfl, haction⟩ | ⟨hword, hnone⟩
    · rw [pendingWish, if_pos ⟨rfl, haction⟩]
      exact .single .wishes (.quiet (.refl _))
    · rw [hnone]
      exact .quiet (Session.since_of_event (fun hstep => hword hstep.2) rfl)

/-! ### A follow-up -/

/-- A follow-up places the order once for each wish, from a position where a wish may be
pending on. -/
theorem did_go (server : Server) (param : String) (order : Order) {visits most : Nat}
    (hknown : (FollowUp.table.state? name).isSome = true)
    (hwithin : Within FollowUp.table most ⟨name, ctx, s⟩) (hvisits : most < visits) :
    ∃ deeds, Again order (pendingWish name ctx ++ deeds) ∧ Did server param s deeds
      ((FollowUp.table.go (followUps server order) visits name).outcome ctx s).2 := by
  have hsound := followUp_sound server order
  -- A wish is voiced by one visit and seen to by the next, so what the induction carries along
  -- is the wish that is pending; the visits suffice, so it never ends between the two.
  induction visits generalizing name ctx s most with
  | zero => exact absurd hvisits (Nat.not_lt_zero _)
  | succ visits ih =>
    obtain ⟨state, hstate⟩ := Option.isSome_iff_exists.mp hknown
    obtain ⟨deeds, hagain, hevent⟩ := did_eventAt server param order hstate ctx s
    obtain ⟨hfailed, hled⟩ := did_visit hstate hevent
    unfold Definition.go
    rw [Step.outcome_bind]
    rcases hvisit : (visit FollowUp.table (followUps server order) name).outcome ctx s with
      ⟨⟨f | target, ctx₁⟩, s₁⟩
    · exact ⟨deeds, hagain, hfailed f ctx₁ s₁ hvisit⟩
    · have hdid := hled target ctx₁ s₁ hvisit
      obtain ⟨event, hmove⟩ := visit_yields.mp hvisit
      obtain ⟨fewer, hfewer, hwithin⟩ := hwithin.next hsound.shallow hsound.isTame hmove
      dsimp only
      split
      · -- no flow ends in an action
        rename_i outcome hout
        have hnone : pendingWish target ctx₁ = [] := if_neg fun hpending => by
          rw [hpending.1] at hout
          cases hout
        rw [hnone, List.append_nil] at hdid
        exact ⟨deeds, hagain, hdid⟩
      · rename_i hinside
        have hknown := state?_of_leads hsound.checked ⟨⟨event, hmove⟩, hinside⟩
        obtain ⟨more, hmore, hrest⟩ := ih hknown hwithin (by omega)
        refine ⟨(deeds ++ pendingWish target ctx₁) ++ more, ?_, hdid.trans hrest⟩
        have hall := hagain.append hmore
        simpa only [List.append_assoc] using hall

/-- A build with its follow-up places the order, and then once for each wish. -/
theorem did_follow (server : Server) (param : String) (order : Order) (returns : Bool)
    (s : Session) :
    ∃ agreed more, Again order more ∧
      Did server param s (.placed order agreed :: more)
        ((follow server order returns).outcome s).2 ∧
      ∀ ending s', (follow server order returns).Yields s ending s' → agreed = true := by
  obtain ⟨agreed, hagreed, hplaces⟩ := does_place server param order s
  unfold Desk.Yields
  rw [outcome_follow]
  generalize ({ settings := server.settings, label := order.label, returns } :
    FollowUp.Context) = ctx
  have hleft := session_of_place server order ctx s
  unfold placeAndFollow
  rw [Step.outcome_bind]
  rcases hplace : (place server order).outcome ctx s with ⟨⟨f | _, ctx₁⟩, s₁⟩
  · rw [hplace] at hleft
    dsimp only at hleft
    subst hleft
    refine ⟨agreed, [], .none, .single hplaces (.quiet (.refl _)), ?_⟩
    intro ending s' h
    cases h
  · rw [hplace] at hleft
    dsimp only at hleft
    subst hleft
    -- the build was queued, and the run goes on from its start
    have hqueued : agreed = true := by
      obtain ⟨queue, ctx₂, s₂, hplaced, -⟩ := Step.yields_bind.mp hplace
      exact hagreed.mpr (agrees_of_place (Step.yields_ofDesk.mp hplaced).1)
    dsimp only
    rw [(followUp_sound server order).outcome_run]
    obtain ⟨more, hmore, hrest⟩ := did_go server param order rfl
      (within_start FollowUp.shallow ⟨"action_menu", ctx₁, _⟩) (Nat.lt_succ_self _)
    have hother : ∀ state, (Event.start FollowUp.table.id state).IsQuiet :=
      fun _ (h : FollowUp.table.id = Prepare.table.id) => absurd h (by decide)
    exact ⟨agreed, more, hmore,
      .single hplaces (hrest.after (Session.since_of_event (hother _) rfl)), fun _ _ _ => hqueued⟩

/-! ### The loop -/

/-- From the session the part does what `o` asks for, and it says whether a build was queued. -/
def Builds (server : Server) (param : String) (o : BuildOptions) (sofar : Built)
    (part : Desk Built) (s : Session) : Prop :=
  ∃ deeds, Did server param s deeds (part.outcome s).2 ∧ Exact o deeds ∧
    ∀ built s', part.Yields s built s' →
      (built.triggered = true ↔ sofar.triggered = true ∨ ∃ order, .placed order true ∈ deeds)

namespace Builds

variable {α : Type} {sofar : Built}

theorem of_fails {part : Desk Built} {f : Fault} (hfails : part.Fails s f s')
    (hdid : Did server param s deeds s') (hexact : Exact o deeds) :
    Builds server param o sofar part s := by
  refine ⟨deeds, ?_, hexact, fun built s₁ hyields => ?_⟩
  · rwa [hfails]
  · exact absurd (hfails.symm.trans hyields) (by simp)

/-- What comes before has no part in it. -/
theorem after_quiet {part : Desk α} {next : α → Desk Built} (h : part.IsFair Event.IsQuiet)
    (hnext : ∀ a s₁, part.Yields s a s₁ → Builds server param o sofar (next a) s₁) :
    Builds server param o sofar (part >>= next) s := by
  have hsince := (h s 0).since
  rcases hpart : part.outcome s with ⟨f | a, s₁⟩
  · rw [hpart] at hsince
    exact .of_fails (fails_bind.mpr (.inl hpart)) (.quiet hsince) .nothing
  · rw [hpart] at hsince
    obtain ⟨deeds, hdid, hexact, htells⟩ := hnext a s₁ hpart
    have hout : (part >>= next).outcome s = (next a).outcome s₁ := by rw [outcome_bind, hpart]
    refine ⟨deeds, hout ▸ hdid.after hsince, hexact, fun built s' hyields => ?_⟩
    exact htells built s' (hout.symm.trans hyields)

/-- When there is nothing to build, that is all. -/
theorem of_nothing {part : Desk Built} (hprepared : Does server param s (.prepared o none) s₁)
    (hyields : part.Yields s sofar s₁) : Builds server param o sofar part s := by
  refine ⟨[.prepared o none], hyields ▸ .single hprepared (.quiet (.refl _)), .left, ?_⟩
  intro built s' hother
  obtain ⟨rfl, -⟩ := hyields.unique hother
  simp

/-- A build that was prepared is placed and followed up, and then comes the rest. -/
theorem of_order {part : Desk Built} {rest : Ending → Desk Built} {queued : Built}
    (hprepared : Does server param s (.prepared o (some order)) s₁)
    (hout : part.outcome s = (follow server order o.returns >>= rest).outcome s₁)
    (hqueued : queued.triggered = true)
    (hrest : ∀ ending s₂, (follow server order o.returns).Yields s₁ ending s₂ →
      Builds server param o.again queued (rest ending) s₂) :
    Builds server param o sofar part s := by
  obtain ⟨agreed, more, hmore, hfollowed, hagreed⟩ := did_follow server param order o.returns s₁
  rcases hfollow : (follow server order o.returns).outcome s₁ with ⟨f | ending, s₂⟩
  · rw [hfollow] at hfollowed
    have hexact : Exact o (.prepared o (some order) :: .placed order agreed :: (more ++ [])) :=
      .built hmore .nothing
    rw [List.append_nil] at hexact
    exact .of_fails (hout.trans (fails_bind.mpr (.inl hfollow))) (.single hprepared hfollowed)
      hexact
  · rw [hfollow] at hfollowed
    obtain rfl := hagreed ending s₂ hfollow
    obtain ⟨deeds, hdid, hexact, htells⟩ := hrest ending s₂ hfollow
    have hrun : part.outcome s = (rest ending).outcome s₂ := by
      rw [hout, outcome_bind, hfollow]
    refine ⟨.prepared o (some order) :: .placed order true :: (more ++ deeds), ?_,
      .built hmore hexact, ?_⟩
    · rw [hrun]
      exact .single hprepared (hfollowed.trans hdid)
    intro built s' hyields
    have htrue : built.triggered = true :=
      (htells built s' (hrun.symm.trans hyields)).mpr (.inl hqueued)
    exact iff_of_true htrue (.inr ⟨order, by simp⟩)

end Builds

/-- What a round goes on with when its follow-up has ended. -/
def onward (server : Server) (param : String) (k : Nat) (o : BuildOptions) (jobs : List Job)
    (sofar : Built) (ending : Ending) : Desk Built := do
  if ending.outcome == .again then
    let jobs ← if jobs.isEmpty then jobsFor server true false none else pure jobs
    rounds server param k o.again jobs { sofar with triggered := true }
  else pure (builtAfter ending o.returns)

/-- A round prepares a build, and follows it up when there is one. -/
theorem rounds_succ (server : Server) (param : String) (k : Nat) (o : BuildOptions)
    (jobs : List Job) (sofar : Built) :
    rounds server param (k + 1) o jobs sofar = (do
      let recent ← Recent.load server.settings
      let found ← o.wish.prepare (o.context server.settings param jobs recent)
      match found, found.bind Wish.chosen with
      | some ctx, some (url, label) =>
        follow server (orderOf ctx url label) o.returns >>= onward server param k o jobs sofar
      | _, _ => pure sofar) := rfl

/-- A loop of builds does what the options of its rounds ask for. -/
theorem builds_rounds (server : Server) (param : String) (k : Nat) (o : BuildOptions)
    (jobs : List Job) (sofar : Built) (s : Session) :
    Builds server param o sofar (rounds server param k o jobs sofar) s := by
  -- Every round but the last goes on with `o.again`, as `Exact` has it.
  induction k generalizing o jobs sofar s with
  | zero => exact .of_fails (fails_throw.mpr ⟨rfl, rfl⟩) (.quiet (.refl s)) .nothing
  | succ k ih =>
    have honward : ∀ ending s, Builds server param o.again { sofar with triggered := true }
        (onward server param k o jobs sofar ending) s := by
      intro ending s
      unfold onward
      split
      · dsimp only
        split
        · exact .after_quiet (isFair_jobsFor _ _ _ _) fun _ _ _ => ih _ _ _ _
        · exact ih _ _ _ _
      · exact ⟨[], .quiet (.refl s), .nothing, fun built s' h => by
          obtain ⟨rfl, -⟩ := yields_pure.mp h
          simp [builtAfter]⟩
    rw [rounds_succ]
    refine .after_quiet (Recent.isFair_load _) fun recent s₁ _ => ?_
    rcases hprepare : (o.wish.prepare (o.context server.settings param jobs recent)).outcome s₁
      with ⟨f | found, s₂⟩
    · obtain ⟨deeds, hdid, hexact, -⟩ := did_of_prepare_fails hprepare
      exact .of_fails (fails_bind.mpr (.inl hprepare)) hdid hexact
    · have hprepared := does_prepare hprepare
      rcases found with _ | c
      · exact .of_nothing hprepared (yields_bind.mpr ⟨none, s₂, hprepare, rfl⟩)
      · rw [Option.bind_some] at hprepared
        rcases hchosen : Wish.chosen c with _ | ⟨url, label⟩
        · rw [hchosen] at hprepared
          refine .of_nothing hprepared (yields_bind.mpr ⟨some c, s₂, hprepare, ?_⟩)
          simp only [Option.bind_some, hchosen]
          rfl
        · rw [hchosen] at hprepared
          have hqueued : ({ sofar with triggered := true } : Built).triggered = true := rfl
          refine .of_order hprepared ?_ hqueued fun ending s₃ _ => honward ending s₃
          rw [outcome_bind, hprepare]
          simp only [Option.bind_some, hchosen]

/-! ### The command -/

theorem builds_build (server : Server) (interactive : Bool) {o : BuildOptions}
    (h : o.nonInteractive = false) (s : Session) :
    Builds server (o.parameter server.settings) o {} (build server interactive o) s := by
  have hrounds : ∀ jobs s, Builds server (o.parameter server.settings) o {} (do
      rounds server (o.parameter server.settings) ((← get).answers.length + 1) o jobs {}) s :=
    fun jobs s => builds_rounds server _ (s.answers.length + 1) o jobs {} s
  refine .after_quiet o.isFair_check fun _ s₁ _ => ?_
  dsimp only
  rw [h, if_neg Bool.false_ne_true]
  split
  · exact .after_quiet (isFair_refuse _ _ _) fun _ _ hrefused => by cases hrefused
  · split
    · exact .after_quiet (isFair_pure _) fun _ _ _ => hrounds _ _
    · exact .after_quiet (isFair_jobsFor _ _ _ _) fun _ _ _ => hrounds _ _

/-- **A command builds what was confirmed.**  Whatever is answered and whatever the server
replies, the orders that the command places are those that were prepared, each at once, and
once more for each wish in its follow-up; and it says whether any of them was queued.  An order
that was prepared is the job, the parameters and the branch that a complete preparation leaves,
and placing it sends them to the server and records them. -/
theorem builds_what_was_confirmed (server : Server) (interactive : Bool) (o : BuildOptions)
    (h : o.nonInteractive = false) (s : Session) :
    (∃ deeds, Did server (o.parameter server.settings) s deeds
        ((build server interactive o).outcome s).2 ∧ Exact o deeds ∧
      ∀ built s', (build server interactive o).Yields s built s' →
        (built.triggered = true ↔ ∃ order, .placed order true ∈ deeds)) ∧
    (∀ s₁ wanted order s₂,
      Does server (o.parameter server.settings) s₁ (.prepared wanted (some order)) s₂ →
      ∃ jobs recent ending c, wanted.wish.Prepares
        (wanted.context server.settings (o.parameter server.settings) jobs recent) s₁ ending c s₂ ∧
          ending.outcome = .complete ∧ order.ConfirmedBy c) ∧
    ∀ s₁ order agreed s₂, Does server (o.parameter server.settings) s₁ (.placed order agreed) s₂ →
      (agreed = true ↔ order.Agrees server s₁) ∧ order.Effect server agreed s₁ s₂ := by
  obtain ⟨deeds, hdid, hexact, htells⟩ := builds_build server interactive h s
  refine ⟨⟨deeds, hdid, hexact, fun built s' hyields => ?_⟩,
    fun _ _ _ _ => confirmed_of_prepared, ?_⟩
  · rw [htells built s' hyields]
    exact or_iff_right Bool.false_ne_true
  · intro s₁ order agreed s₂ hdoes
    cases hdoes with
    | places hagreed => exact ⟨hagreed, effect_of_place server order s₁ hagreed⟩

/-- The user wants a build without parameters, and the same once more. -/
def wishedOnce : Session where
  answers := [.value (.str withoutParams), .value (.str "rerun"), .value (.str done),
    .value (.bool false)]
  responses := [.reply { headers := [("Location", .str "http://ci/queue/1/")] } 0.0,
    .reply { headers := [("Location", .str "http://ci/queue/2/")] } 0.0]

/-- Two builds of a job that was given by its address, and one of them was queued at least. -/
theorem builds_given_address :
    byAddress.nonInteractive = false ∧ ∃ built s' deeds,
      (build plainServer true byAddress).Yields wishedOnce built s' ∧
      Did plainServer "BRANCH" wishedOnce deeds s' ∧ Exact byAddress deeds ∧
      ∃ order, .placed order true ∈ deeds := by
  have hresult : ((build plainServer true byAddress).outcome wishedOnce).1.toOption =
      some { triggered := true } := by decide +kernel
  rcases hout : (build plainServer true byAddress).outcome wishedOnce with ⟨f | built, s'⟩
  · rw [hout] at hresult
    cases hresult
  · rw [hout] at hresult
    obtain rfl := Option.some.inj hresult
    obtain ⟨⟨deeds, hdid, hexact, htells⟩, -⟩ :=
      builds_what_was_confirmed plainServer true byAddress rfl wishedOnce
    rw [hout] at hdid
    exact ⟨rfl, _, s', deeds, hout, hdid, hexact, (htells _ s' hout).mp rfl⟩

end BuildDesk.Command
