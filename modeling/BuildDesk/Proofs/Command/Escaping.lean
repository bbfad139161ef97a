/-
Cancelling gets the user out.

Whoever cancels every prompt leaves a flow soon, whichever prompt it begins with and whatever is
known by then.  No action is performed on the way: the four flows come to the same whatever way
there is to perform actions.  In the flow that prepares a build the way out leads to a build only
when inputs were given before.

* `Definition.IsEscapable` — from every prompt of the flow the user gets out;
* `Browse.escapable`, `Review.escapable`, `FollowUp.escapable` — three of the flows;
* `Prepare.Leaves`, `leaves_of_back` — the way back in the fourth, prompt by prompt;
* `Prepare.IsCollected`, `isCollected_of_holds` — what is given by the time of a prompt;
* `cancelling_gets_out` — all of it together.
-/
import BuildDesk.Proofs.Flow.Cancelled
import BuildDesk.Proofs.Prepare.Inputs

namespace BuildDesk.Flow

/-- The most prompts that are shown to a user who cancels them all. -/
abbrev patience : Nat := 4

/-- Whoever cancels every prompt gets out of the flow, whichever prompt it begins with; where the
server cannot be named, nothing can be asked at all.  Either way what happens is the same in all
registries. -/
structure Definition.IsEscapable {κ ι : Type} [Addressed κ] (d : Definition κ)
    (r : ι → Registry κ) : Prop where
  out : ∀ name ctx, d.asks name = true → (Addressed.settings ctx).IsNamed →
    d.LetsGo r patience name ctx fun _ => True
  unnamed : ∀ name ctx f, d.asks name = true →
    Settings.profileLabel (Addressed.settings ctx).profile = .error f → d.Balks r name ctx f

section

variable {κ ι : Type} {d : Definition κ} {r : ι → Registry κ}

theorem ne_empty_of_asks {name : String} (hempty : d.asks "" = false)
    (h : d.asks name = true) : name ≠ "" := by
  rintro rfl
  rw [hempty] at h
  cases h

/-- The user gets out when there is a short way back from every prompt. -/
theorem isEscapable_of_cancels [Addressed κ] (hchecked : ∀ i, problems d (some (r i)) = [])
    (hnames : d.NamesServer) (hempty : d.asks "" = false)
    (hout : ∀ name ctx, d.asks name = true → (Addressed.settings ctx).IsNamed →
      ∃ visits n ending ctx', visits ≤ 3 * patience + 3 ∧ n ≤ patience ∧
        Cancels d r visits n name ctx ending ctx') : d.IsEscapable r where
  out name ctx hasks hnamed := by
    obtain ⟨visits, n, ending, ctx', hvisits, hn, hcancels⟩ := hout name ctx hasks hnamed
    exact letsGo_of_cancels hchecked (ne_empty_of_asks hempty hasks) hcancels hvisits hn trivial
  unnamed _ _ _ hasks hunnamed :=
    balks_of_unnamed hchecked hnames (ne_empty_of_asks hempty hasks) hasks hunnamed

end

/-! ### Browsing -/

namespace Browse

variable {ctx : Context}

theorem cancels_home (hnamed : ctx.settings.IsNamed) :
    Cancels table handlers 1 1 "select_job" ctx ⟨.root, "select_job"⟩ ctx :=
  .out (back_of_prompt namesServer hnamed rfl rfl rfl rfl)

theorem cancels_menu (hnamed : ctx.settings.IsNamed) :
    Cancels table handlers 2 2 "action_menu" ctx ⟨.root, "select_job"⟩ ctx :=
  .next (back_of_prompt namesServer hnamed rfl rfl rfl rfl) rfl (cancels_home hnamed)

theorem escapable : table.IsEscapable handlers := by
  refine isEscapable_of_cancels checked namesServer rfl fun name ctx hasks hnamed => ?_
  obtain ⟨state, prompt, hstate, henter, -⟩ := exists_of_asks hasks
  have hmem := mem_states_of_state? hstate
  simp only [table, List.mem_cons, List.not_mem_nil, or_false, Prod.mk.injEq] at hmem
  rcases hmem with ⟨rfl, rfl⟩ | ⟨rfl, rfl⟩ | ⟨rfl, rfl⟩
  · exact ⟨1, 1, _, _, by decide, by decide, cancels_home hnamed⟩
  · exact ⟨2, 2, _, _, by decide, by decide, cancels_menu hnamed⟩
  · cases henter

end Browse

/-! ### Reviewing -/

namespace Review

variable {ctx : Context}

theorem cancels_question (hnamed : ctx.settings.IsNamed) :
    Cancels table handlers 1 1 "again_confirm" ctx ⟨.exitCommand, "again_confirm"⟩ ctx :=
  .out (back_of_prompt namesServer hnamed rfl rfl rfl rfl)

theorem cancels_menu (hnamed : ctx.settings.IsNamed) :
    Cancels table handlers 2 2 "action_menu" ctx ⟨.exitCommand, "again_confirm"⟩ ctx :=
  .next (back_of_prompt namesServer hnamed rfl rfl rfl rfl) rfl (cancels_question hnamed)

theorem escapable : table.IsEscapable handlers := by
  refine isEscapable_of_cancels checked namesServer rfl fun name ctx hasks hnamed => ?_
  obtain ⟨state, prompt, hstate, henter, -⟩ := exists_of_asks hasks
  have hmem := mem_states_of_state? hstate
  simp only [table, List.mem_cons, List.not_mem_nil, or_false, Prod.mk.injEq] at hmem
  rcases hmem with ⟨rfl, rfl⟩ | ⟨rfl, rfl⟩ | ⟨rfl, rfl⟩
  · exact ⟨2, 2, _, _, by decide, by decide, cancels_menu hnamed⟩
  · cases henter
  · exact ⟨1, 1, _, _, by decide, by decide, cancels_question hnamed⟩

end Review

/-! ### Following up -/

namespace FollowUp

variable {ctx : Context}

theorem cancels_question (hnamed : ctx.settings.IsNamed) :
    Cancels table handlers 1 1 "repeat_confirm" ctx ⟨.exitCommand, "repeat_confirm"⟩ ctx :=
  .out (back_of_prompt namesServer hnamed rfl rfl rfl rfl)

/-- Behind the menu the larger run goes on, or the user is asked whether to build again. -/
theorem exists_cancels_menu (hnamed : ctx.settings.IsNamed) : ∃ visits n ending,
    visits ≤ 3 * patience + 3 ∧ n ≤ patience ∧
      Cancels table handlers visits n "action_menu" ctx ending ctx := by
  have hfirst : Back table handlers "action_menu" ctx 1 "after_menu" ctx :=
    back_of_prompt namesServer hnamed rfl rfl rfl rfl
  have hafter : ∀ target, leaveMenu.target? (afterMenu .null ctx).1 = some target →
      Back table handlers "after_menu" ctx 0 target ctx := fun target htarget =>
    .pass afterMenu rfl rfl (fun _ => rfl) htarget
  cases hreturns : ctx.returns with
  | true =>
    have hback := hafter Outcome.returnToCaller.word (by rw [afterMenu, hreturns]; rfl)
    exact ⟨2, 1, _, by decide, by decide, .next hfirst rfl (.out hback)⟩
  | false =>
    have hback := hafter "repeat_confirm" (by rw [afterMenu, hreturns]; rfl)
    exact ⟨3, 2, _, by decide, by decide,
      .next hfirst rfl (.next hback rfl (cancels_question hnamed))⟩

theorem escapable : table.IsEscapable handlers := by
  refine isEscapable_of_cancels checked namesServer rfl fun name ctx hasks hnamed => ?_
  obtain ⟨state, prompt, hstate, henter, -⟩ := exists_of_asks hasks
  have hmem := mem_states_of_state? hstate
  simp only [table, List.mem_cons, List.not_mem_nil, or_false, Prod.mk.injEq] at hmem
  rcases hmem with ⟨rfl, rfl⟩ | ⟨rfl, rfl⟩ | ⟨rfl, rfl⟩ | ⟨rfl, rfl⟩ | ⟨rfl, rfl⟩
  · obtain ⟨visits, n, ending, hvisits, hn, hcancels⟩ := exists_cancels_menu hnamed
    exact ⟨visits, n, ending, _, hvisits, hn, hcancels⟩
  · cases henter
  · cases henter
  · cases henter
  · exact ⟨1, 1, _, _, by decide, by decide, cancels_question hnamed⟩

end FollowUp

/-! ### Preparing a build -/

namespace Prepare

variable {p q : Spot} {goal : Goal} {c : Context} {outcome : Outcome} {visits n : Nat}

/-- The flow has no actions, so its registry is the only one. -/
def registry (_ : Unit) : Registry Context := handlers

/-- Whoever cancels every prompt leaves the flow from the state with the outcome, after so many
visits and prompts. -/
def Leaves (visits n : Nat) (p : Spot) (c : Context) (outcome : Outcome) : Prop :=
  ∃ state c', Cancels table registry visits n p.name c ⟨outcome, state⟩ c'

/-- A prompt that is cancelled leads back. -/
theorem back_of_back? (hnamed : c.settings.IsNamed) (hback : p.back? = some goal) :
    Back table registry p.name c 1 goal.word c := by
  obtain ⟨state, prompt, hstate, henter, hprompt⟩ := exists_of_asks (asks_of_back hback)
  obtain rfl := Option.some.inj (p.state?_name.symm.trans hstate)
  exact back_of_prompt namesServer hnamed hstate henter hprompt (target?_esc hback)

theorem leaves_next (hnamed : c.settings.IsNamed) (hback : p.back? = some (.next q))
    (h : Leaves visits n q c outcome) : Leaves (visits + 1) (1 + n) p c outcome := by
  obtain ⟨state, c', hcancels⟩ := h
  exact ⟨state, c', .next (back_of_back? hnamed hback) q.not_reserved hcancels⟩

theorem leaves_out (hnamed : c.settings.IsNamed) (hback : p.back? = some (.out outcome)) :
    Leaves 1 1 p c outcome :=
  ⟨_, _, .out (back_of_back? hnamed hback)⟩

/-- The flow is left from its beginning, whether jobs were used lately or not. -/
theorem leaves_entry (hnamed : c.settings.IsNamed) : Leaves 2 1 .entry c .exitCommand := by
  have hpass : ∀ q : Spot, Prepare.entry.target? (enter .null c).1 = some q.name →
      Back table registry Spot.entry.name c 0 q.name c := fun q htarget =>
    .pass enter rfl rfl (fun _ => rfl) htarget
  cases hrecent : c.recent.isEmpty with
  | true =>
    obtain ⟨state, c', hcancels⟩ := leaves_out (p := .search .direct) hnamed rfl
    exact ⟨state, c', .next (hpass (.search .direct) (by rw [enter, hrecent]; rfl)) rfl hcancels⟩
  | false =>
    obtain ⟨state, c', hcancels⟩ := leaves_out (p := .recentMenu) hnamed rfl
    exact ⟨state, c', .next (hpass .recentMenu (by rw [enter, hrecent]; rfl)) rfl hcancels⟩

theorem leaves_branchMode (hnamed : c.settings.IsNamed) :
    Leaves 3 2 .branchMode c .exitCommand :=
  leaves_next hnamed rfl (leaves_entry hnamed)

/-- A branch or a parameter was given. -/
def IsCollected (c : Context) : Prop := c.branchText ≠ "" ∨ c.customParams ≠ []

/-- Giving up on a further parameter completes a build whose inputs are given, and leads back
otherwise. -/
theorem leaves_customCancel (hnamed : c.settings.IsNamed) :
    IsCollected c ∧ Leaves 1 0 .customCancel c .complete ∨
      Leaves 4 2 .customCancel c .exitCommand := by
  have hpass : ∀ goal : Goal, Prepare.cancelCustom.target? (cancelKey .null c).1 = some goal.word →
      Back table registry Spot.customCancel.name c 0 goal.word (cancelKey .null c).2 :=
    fun goal htarget => .pass cancelKey rfl rfl (fun _ => rfl) htarget
  by_cases hgiven : (!c.customParams.isEmpty || c.branchText != "") = true
  · have hchange : cancelKey .null c = ("custom:done", { c with pendingKey := none }) :=
      if_pos hgiven
    refine .inl ⟨?_, _, _, .out (hpass (.out .complete) (by rw [hchange]; rfl))⟩
    simpa [IsCollected, or_comm] using hgiven
  · have hchange : cancelKey .null c =
        ("custom:mode", { c with pendingKey := none, mode := none }) := if_neg hgiven
    have hsettings : (cancelKey .null c).2.settings = c.settings := by rw [hchange]
    obtain ⟨state, c', hcancels⟩ :=
      leaves_branchMode (c := (cancelKey .null c).2) (hsettings ▸ hnamed)
    exact .inr ⟨state, c', .next (hpass (.next .branchMode) (by rw [hchange]; rfl)) rfl hcancels⟩

/-- Whoever cancels every prompt gets out, after so many visits and prompts at most; the run is
complete only where that is granted. -/
def GetsOut (visits n : Nat) (p : Spot) (c : Context) (granted : Prop) : Prop :=
  ∃ v m outcome, v ≤ visits ∧ m ≤ n ∧ Leaves v m p c outcome ∧
    (outcome = .exitCommand ∨ outcome = .complete ∧ granted)

variable {granted granted' : Prop}

theorem Leaves.getsOut (h : Leaves visits n p c .exitCommand) : GetsOut visits n p c granted :=
  ⟨visits, n, _, Nat.le_refl _, Nat.le_refl _, h, .inl rfl⟩

theorem GetsOut.mono {visits' n' : Nat} (h : GetsOut visits n p c granted)
    (hvisits : visits ≤ visits') (hn : n ≤ n') : GetsOut visits' n' p c granted := by
  obtain ⟨v, m, outcome, hv, hm, hleaves⟩ := h
  exact ⟨v, m, outcome, Nat.le_trans hv hvisits, Nat.le_trans hm hn, hleaves⟩

theorem GetsOut.imp (h : GetsOut visits n p c granted) (himp : granted → granted') :
    GetsOut visits n p c granted' := by
  obtain ⟨v, m, outcome, hv, hm, hleaves, hout⟩ := h
  exact ⟨v, m, outcome, hv, hm, hleaves, hout.imp_right fun h => ⟨h.1, himp h.2⟩⟩

theorem GetsOut.before (h : GetsOut visits n q c granted) (hnamed : c.settings.IsNamed)
    (hback : p.back? = some (.next q)) : GetsOut (visits + 1) (n + 1) p c granted := by
  obtain ⟨v, m, outcome, hv, hm, hleaves, hout⟩ := h
  exact ⟨v + 1, 1 + m, outcome, by omega, by omega, leaves_next hnamed hback hleaves, hout⟩

theorem getsOut_customCancel (hnamed : c.settings.IsNamed) :
    GetsOut 4 2 .customCancel c (IsCollected c) := by
  rcases leaves_customCancel hnamed with ⟨hgiven, hdone⟩ | hmode
  · exact ⟨1, 0, _, by decide, by decide, hdone, .inr ⟨rfl, hgiven⟩⟩
  · exact hmode.getsOut

/-- **From every prompt the user gets out.**  The run is complete only when the prompt is the
question for further parameters, which asks once a branch is given, or when inputs are given. -/
theorem getsOut_of_back (hnamed : c.settings.IsNamed) (hback : p.back? = some goal) :
    GetsOut 6 patience p c (p = .customConfirm ∨ IsCollected c) := by
  -- The ways back run together in three places: the choice of the mode, giving up on a further
  -- parameter, and the search.
  have hmenu : ∀ {granted}, GetsOut 3 2 .branchMode c granted := (leaves_branchMode hnamed).getsOut
  have hselect : ∀ {granted}, GetsOut 4 3 .branchSelect c granted := hmenu.before hnamed rfl
  have hcancel : GetsOut 4 2 .customCancel c (p = .customConfirm ∨ IsCollected c) :=
    (getsOut_customCancel hnamed).imp .inr
  have hkey : GetsOut 5 3 .customKey c (p = .customConfirm ∨ IsCollected c) :=
    hcancel.before hnamed rfl
  have hsearch : ∀ way {granted}, GetsOut 2 2 (.search way) c granted := by
    intro way granted
    cases way with
    | recent => exact (leaves_out hnamed rfl).getsOut.before (q := .recentMenu) hnamed rfl
    | direct => exact (leaves_out hnamed rfl).getsOut.mono (by decide) (by decide)
  cases p with
  | entry | prepareBranch | branchRemoveApply | customCancel => cases hback
  | recentMenu => exact (leaves_out hnamed rfl).getsOut.mono (by decide) (by decide)
  | search way => exact (hsearch way).mono (by decide) (by decide)
  | results way => exact ((hsearch way).before hnamed rfl).mono (by decide) (by decide)
  | branchMode => exact hmenu.mono (by decide) (by decide)
  | branchSelect => exact hselect.mono (by decide) (by decide)
  | branchEntry => exact (hmenu.before hnamed rfl).mono (by decide) (by decide)
  | branchRemove => exact (hselect.before hnamed rfl).mono (by decide) (by decide)
  | customConfirm =>
    exact ⟨1, 1, _, by decide, by decide, leaves_out hnamed rfl, .inr ⟨rfl, .inl rfl⟩⟩
  | customKey => exact hkey.mono (by decide) (by decide)
  | customMore => exact (hcancel.before hnamed rfl).mono (by decide) (by decide)
  | customValue => exact hkey.before hnamed rfl

theorem GetsOut.letsGo (h : GetsOut visits n p c granted) (hvisits : visits ≤ 3 * patience + 3)
    (hn : n ≤ patience) : table.LetsGo registry patience p.name c fun outcome =>
      outcome = .exitCommand ∨ outcome = .complete ∧ granted := by
  obtain ⟨v, m, outcome, hv, hm, ⟨state, c', hcancels⟩, hout⟩ := h
  have hnamed : p.name ≠ "" :=
    Spot.forall_of_all (P := fun p => p.name ≠ "") (by decide) p
  exact letsGo_of_cancels (fun _ => checked) hnamed hcancels (Nat.le_trans hv hvisits)
    (Nat.le_trans hm hn) hout

theorem escapable : table.IsEscapable registry := by
  refine isEscapable_of_cancels (fun _ => checked) namesServer rfl fun name ctx hasks hnamed => ?_
  obtain ⟨p, goal, rfl, hback⟩ := exists_back_of_asks hasks
  obtain ⟨v, m, outcome, hv, hm, ⟨state, c', hcancels⟩, -⟩ := getsOut_of_back hnamed hback
  exact ⟨v, m, _, c', Nat.le_trans hv (by decide), hm, hcancels⟩

/-- Where further parameters are asked for, a branch is given. -/
theorem isCollected_of_holds {start : Inputs} (h : Holds start c .customConfirm) :
    IsCollected c := by
  obtain ⟨hfilled, hmode⟩ := h
  rcases hfilled.source with ⟨-, b, hb, hproper⟩ | ⟨hcustom, -⟩
  · exact .inl (by rw [branchText_of_some hb]; exact hproper.1)
  · simp [hmode] at hcustom

/-- From where a run comes that starts with fresh inputs, cancelling leads to a build only when
inputs were given. -/
theorem letsGo_of_reaches {s : Session} {a : Position Context} (hfresh : c.inputs.IsFresh)
    (hbegins : p.begins = true) (h : Reaches table handlers ⟨p.name, c, s⟩ a)
    (hasks : table.asks a.state = true) (hnamed : a.ctx.settings.IsNamed) :
    table.LetsGo registry patience a.state a.ctx fun outcome =>
      outcome = .exitCommand ∨ outcome = .complete ∧ IsCollected a.ctx := by
  obtain ⟨q, goal, hq, hback⟩ := exists_back_of_asks hasks
  have hgiven : q = .customConfirm ∨ IsCollected a.ctx → IsCollected a.ctx := by
    rintro (rfl | hcollected)
    · exact isCollected_of_holds ((holds_of_reaches hfresh hbegins h).spot hq)
    · exact hcollected
  rw [← hq]
  exact ((getsOut_of_back hnamed hback).imp hgiven).letsGo (by decide) (Nat.le_refl _)

end Prepare

/-- **Cancelling gets the user out.**  In each of the four flows whoever cancels every prompt
comes to an end after four prompts at most, whichever prompt the run starts with and whatever its
context knows, and what happens is the same whatever way there is to perform actions: none is
performed.  Where the context has a profile without a name, the first prompt fails, before it is
shown.  And where a run comes that prepares a build from fresh inputs, cancelling leads to a build
only when a branch or a parameter was given, and else out of the command. -/
theorem cancelling_gets_out :
    Browse.table.IsEscapable Browse.handlers ∧ Prepare.table.IsEscapable Prepare.registry ∧
      FollowUp.table.IsEscapable FollowUp.handlers ∧ Review.table.IsEscapable Review.handlers ∧
      ∀ (p : Prepare.Spot) (c : Prepare.Context) (s : Session) (a : Position Prepare.Context),
        c.inputs.IsFresh → p.begins = true →
        Reaches Prepare.table Prepare.handlers ⟨p.name, c, s⟩ a →
        Prepare.table.asks a.state = true → a.ctx.settings.IsNamed →
        Prepare.table.LetsGo Prepare.registry patience a.state a.ctx fun outcome =>
          outcome = .exitCommand ∨ outcome = .complete ∧ Prepare.IsCollected a.ctx :=
  ⟨Browse.escapable, Prepare.escapable, FollowUp.escapable, Review.escapable,
    fun _ _ _ _ hfresh hbegins hreach hasks hnamed =>
      Prepare.letsGo_of_reaches hfresh hbegins hreach hasks hnamed⟩

/-- The job of a build is known, and nothing else. -/
def jobKnown : Prepare.Context where
  settings := { url := "http://ci", user := "", token := "" }
  jobs := []
  url := some "http://ci/job/a"

/-- The user types one parameter of their own. -/
def typesOne : Session where
  answers := [.value (.str withCustom), .value (.str "KEY"), .value (.str "1")]

/-- Who has typed a parameter and then cancels gets a build. -/
theorem cancelling_after_one_parameter : ∃ a : Position Prepare.Context,
    jobKnown.inputs.IsFresh ∧
    Reaches Prepare.table Prepare.handlers ⟨"prepare_branch", jobKnown, typesOne⟩ a ∧
    a.state = "custom_more" ∧ a.ctx.customParams = [("KEY", "1")] ∧
    Prepare.table.LetsGo Prepare.registry patience a.state a.ctx fun outcome =>
      outcome = .exitCommand ∨ outcome = .complete ∧ Prepare.IsCollected a.ctx := by
  have hfresh : jobKnown.inputs.IsFresh := Prepare.isFresh_empty
  obtain ⟨a, hreach, hat, hparams⟩ : ∃ a : Position Prepare.Context,
      Reaches Prepare.table Prepare.handlers ⟨"prepare_branch", jobKnown, typesOne⟩ a ∧
      a.state = "custom_more" ∧ a.ctx.customParams = [("KEY", "1")] :=
    ⟨_, .head (leads_of_outcome rfl rfl) (.head (leads_of_outcome rfl rfl)
      (.head (leads_of_outcome rfl rfl) (.single (leads_of_outcome rfl rfl)))), rfl, by rfl⟩
  have hsettings : a.ctx.settings = jobKnown.settings :=
    (Prepare.sameGround_of_reaches hreach).settings
  have hnamed : a.ctx.settings.IsNamed := hsettings ▸ Settings.isNamed_of_text (.inl rfl)
  exact ⟨a, hfresh, hreach, hat, hparams, cancelling_gets_out.2.2.2.2 .prepareBranch jobKnown
    typesOne a hfresh rfl hreach (by rw [hat]; rfl) hnamed⟩

end BuildDesk.Flow
