/-
How a follow-up ends.

A follow-up starts at its menu and comes back to it after each action that went well.  How it ends
is settled by what happened last: the menu was left, or an action came to something else.  In a
larger run that is all; otherwise the user is asked whether to build again, and the answer decides.

* `Definition.ComesTo`, `comesTo_iff` — a run ends with an outcome;
* `FollowUp.Turn`, `turn_of_moves` — what a move does, state by state;
* `FollowUp.Leaves`, `LastReturned`, `Agrees` — the menu is left, the last action comes to a
  result, and the user agrees to build again;
* `FollowUp.EndsNested`, `endsNested` — the ends of a follow-up in a larger run;
* `FollowUp.EndsAlone`, `endsAlone` — the ends of one that is a run of its own.
-/
import BuildDesk.Proofs.Command.Reliable
import BuildDesk.Proofs.Flow.Handler
import BuildDesk.Proofs.Flow.Homing

namespace BuildDesk.Flow

section

variable {κ : Type} {d : Definition κ} {r : Registry κ} {a b c : Position κ}
variable {outcome : Outcome} {ctx : κ} {s : Session}

/-! ### Where a run comes -/

/-- From the position the run ends with the outcome. -/
def Definition.ComesTo (d : Definition κ) (r : Registry κ) (a : Position κ)
    (outcome : Outcome) : Prop :=
  ∃ b c, Reaches d r a b ∧ Ends d r b outcome c

/-- The run of a checked flow ends with an outcome when it comes to it. -/
theorem comesTo_iff (hd : d.Returns r) {start : Option String} :
    (∃ state ctx' s', (d.run r start).Yields ctx s ⟨outcome, state⟩ ctx' s') ↔
      d.ComesTo r (d.startAt (d.startState start) ctx s) outcome := by
  constructor
  · rintro ⟨state, ctx', s', hrun⟩
    obtain ⟨a, b, hreach, -, hends, -⟩ := reaches_of_run hrun
    exact ⟨a, b, hreach, hends⟩
  · rintro ⟨a, b, hreach, hends⟩
    exact ⟨_, _, _, run_of_ends hd start hreach hends⟩

/-- The first answer of the script is this one. -/
def Position.Answers (a : Position κ) (v : Json) : Prop :=
  ∃ rest, a.session.answers = .value v :: rest

theorem Position.Answers.unique {v w : Json} (h : a.Answers v) (h' : a.Answers w) : v = w := by
  obtain ⟨rest, hv⟩ := h
  obtain ⟨rest', hw⟩ := h'
  rw [hv] at hw
  exact Answer.value.inj (List.cons.inj hw).1

/-- In the state with a name the answer is taken. -/
def Takes (d : Definition κ) (r : Registry κ) (a : Position κ) (name : String) (v : Json) : Prop :=
  a.state = name ∧ a.Answers v ∧ ∃ event b, Moves d r a event b

/-- An event with a transition for it is a move. -/
theorem exists_move {state : State κ} {event : String} (target : String) {ctx : κ} {t : Session}
    (hstate : d.state? a.state = some state) (htarget : state.target? event = some target)
    (hevent : (eventAt d r a.state state).Yields a.ctx a.session (.str event) ctx t) :
    ∃ b, Moves d r a event b ∧ b.state = target ∧ b.ctx = ctx ∧
      b.session = { t with log := .step d.id a.state event target :: t.log } :=
  ⟨⟨target, ctx, _⟩, ⟨state, t, hstate, htarget, hevent, rfl⟩, rfl, rfl, rfl⟩

/-- What is come to in one move or more is come to from the next position. -/
theorem reaches_of_trans (h : Leads d r a b) (h' : Relation.TransGen (Leads d r) a c) :
    Reaches d r b c := by
  obtain ⟨b', hfirst, hrest⟩ := Relation.TransGen.head'_iff.mp h'
  obtain rfl := h.unique hfirst
  exact hrest

end

namespace FollowUp

variable {perform : String → Step Context Json} {a b p : Position Context} {ctx : Context}
variable {s : Session} {event word : String}

/-! ### One move -/

/-- The answer leaves the menu: its last entry, or none. -/
def IsLeaving (v : Json) : Prop := v.isNull = true ∨ v.text = done

/-- The results of actions that did not end well. -/
def failures : List String :=
  [ActionResult.watchCancelled.word, ActionResult.error.word, ActionResult.root.word]

/-- An action may find out where the build is; the rest of the context stays as it is. -/
def OnlyFinds (perform : String → Step Context Json) : Prop :=
  ∀ {action ctx s v ctx' s'}, (perform action).Yields ctx s v ctx' s' →
    ∃ build, ctx' = { ctx with build }

/-- What a move does, state by state. -/
inductive Turn (perform : String → Step Context Json) (a b : Position Context) : Prop
  | leaves {v : Json} (hat : a.state = "action_menu") (hanswer : a.Answers v)
      (hleaving : IsLeaving v) (hto : b.state = "after_menu") (hctx : b.ctx = a.ctx)
  | chooses {v : Json} (hat : a.state = "action_menu") (hanswer : a.Answers v)
      (hstaying : ¬ IsLeaving v) (hnamed : v.text ≠ "") (hto : b.state = "run_action")
      (hctx : b.ctx = { a.ctx with action := some v.text })
  | acts {s : Session} (hat : a.state = "run_action") (hto : b.state = "action_menu")
      (hyields : (runAction perform).Yields a.ctx a.session (.str ActionResult.ok.word) b.ctx s)
  | fails {word : String} {s : Session} (hat : a.state = "run_action") (hword : word ∈ failures)
      (hto : b.state = "after_root")
      (hyields : (runAction perform).Yields a.ctx a.session (.str word) b.ctx s)
  | quits {s : Session} (hat : a.state = "run_action") (hto : b.state = Outcome.exitCommand.word)
      (hyields : (runAction perform).Yields a.ctx a.session (.str ActionResult.exit.word) b.ctx s)
  | goesBack (hat : a.state = "after_menu") (hreturns : a.ctx.returns = true)
      (hto : b.state = Outcome.returnToCaller.word) (hctx : b.ctx = a.ctx)
  | goesToRoot (hat : a.state = "after_root") (hreturns : a.ctx.returns = true)
      (hto : b.state = Outcome.returnToCallerRoot.word) (hctx : b.ctx = a.ctx)
  | asks (hat : a.state = "after_menu" ∨ a.state = "after_root") (hreturns : a.ctx.returns = false)
      (hto : b.state = "repeat_confirm") (hctx : b.ctx = a.ctx)
  | agrees {v : Json} (hat : a.state = "repeat_confirm") (hanswer : a.Answers v)
      (hyes : v.truthy = true) (hto : b.state = Outcome.again.word) (hctx : b.ctx = a.ctx)
  | declines {v : Json} (hat : a.state = "repeat_confirm") (hanswer : a.Answers v)
      (hno : v.truthy = false) (hto : b.state = Outcome.exitCommand.word) (hctx : b.ctx = a.ctx)

/-- The menu is left, or leads to the action that was chosen. -/
theorem turn_of_menu {t : Session} (hat : a.state = "action_menu")
    (htarget : pickAction.target? event = some b.state)
    (hevent : (eventAt table (handlers perform) "action_menu" pickAction).Yields a.ctx a.session
      (.str event) b.ctx t) : Turn perform a b := by
  obtain ⟨v, s₁, hanswers, -, ⟨hnull, hesc, hctx, -⟩ | ⟨hsome, hrun⟩⟩ :=
    eventAt_answered rfl rfl rfl rfl hevent
  · obtain rfl := Json.str.inj hesc
    exact .leaves hat ⟨_, hanswers⟩ (.inl hnull) (Option.some.inj htarget).symm hctx
  · rcases yields_settling rfl hrun with ⟨part, said, hpart, hsaid, hword, hctx⟩ | ⟨hgoes, hchange⟩
    · obtain ⟨htext, hgives⟩ := leaving_gives hpart
      obtain ⟨rfl, -⟩ := hgives _ _ _ hsaid
      obtain rfl := Json.str.inj hword
      exact .leaves hat ⟨_, hanswers⟩ (.inr htext) (Option.some.inj htarget).symm hctx
    · obtain ⟨hword, hctx, -⟩ := yields_ofChange.mp hchange
      obtain rfl := Json.str.inj hword
      have hstaying : ¬ IsLeaving v := by
        rintro (hnull | htext)
        · rw [hsome] at hnull
          cases hnull
        · rw [leaving, settled, Option.getD_some, htext] at hgoes
          cases hgoes
      -- the two ways out of the menu are no choices of an action
      have hall : ∀ entry ∈ pickAction.transitions, entry.1.toList.head? = some 's' →
          entry.1 ≠ selected "" ∧ entry.2 = "run_action" := by decide
      obtain ⟨hnamed, hto⟩ := hall _ (mem_of_lookup htarget) (head_selected _)
      refine .chooses hat ⟨_, hanswers⟩ hstaying (fun hnone => hnamed ?_) hto hctx
      exact congrArg selected hnone

/-- What follows the result of an action. -/
theorem turn_of_action {t : Session} (hat : a.state = "run_action")
    (htarget : FollowUp.perform.target? word = some b.state)
    (hyields : (runAction perform).Yields a.ctx a.session (.str word) b.ctx t) :
    Turn perform a b := by
  have hmem := mem_of_lookup htarget
  simp only [FollowUp.perform, List.mem_cons, List.not_mem_nil, or_false, Prod.mk.injEq] at hmem
  rcases hmem with ⟨rfl, hto⟩ | ⟨rfl, hto⟩ | ⟨rfl, hto⟩ | ⟨rfl, hto⟩ | ⟨rfl, hto⟩
  · exact .acts hat hto hyields
  · exact .fails hat (by decide) hto hyields
  · exact .fails hat (by decide) hto hyields
  · exact .fails hat (by decide) hto hyields
  · exact .quits hat hto hyields

theorem not_truthy_of_isNull {v : Json} (h : v.isNull = true) : v.truthy = false := by
  cases v with
  | null => rfl
  | _ => cases h

theorem yields_confirming {v event : Json} {ctx' : Context} {t : Session}
    (h : (Handler.confirming.run (some v)).Yields ctx s event ctx' t) :
    event = .str (confirmed v) ∧ ctx' = ctx := by
  obtain ⟨hpart, hctx⟩ := Step.yields_ofDesk.mp h
  obtain ⟨said, hsaid, rfl⟩ := Desk.yields_map.mp hpart
  obtain ⟨rfl, -⟩ := Desk.yields_pure.mp hsaid
  exact ⟨rfl, hctx⟩

/-- The user agrees to build again, or the run ends. -/
theorem turn_of_question {t : Session} (hat : a.state = "repeat_confirm")
    (htarget : askAnother.target? event = some b.state)
    (hevent : (eventAt table (handlers perform) "repeat_confirm" askAnother).Yields a.ctx a.session
      (.str event) b.ctx t) : Turn perform a b := by
  obtain ⟨v, s₁, hanswers, -, ⟨hnull, hesc, hctx, -⟩ | ⟨-, hrun⟩⟩ :=
    eventAt_answered rfl rfl rfl rfl hevent
  · obtain rfl := Json.str.inj hesc
    exact .declines hat ⟨_, hanswers⟩ (not_truthy_of_isNull hnull) (Option.some.inj htarget).symm
      hctx
  · obtain ⟨hword, hctx⟩ := yields_confirming hrun
    obtain rfl := Json.str.inj hword
    cases hv : v.truthy with
    | true =>
      rw [confirmed, hv] at htarget
      exact .agrees hat ⟨_, hanswers⟩ hv (Option.some.inj htarget).symm hctx
    | false =>
      rw [confirmed, hv] at htarget
      exact .declines hat ⟨_, hanswers⟩ hv (Option.some.inj htarget).symm hctx

/-- What a move does is one of these. -/
theorem turn_of_moves (h : Moves table (handlers perform) a event b) : Turn perform a b := by
  obtain ⟨state, t, hstate, htarget, hevent, -⟩ := h
  have hmem := mem_states_of_state? hstate
  simp only [table, List.mem_cons, List.not_mem_nil, or_false, Prod.mk.injEq] at hmem
  rcases hmem with ⟨hat, rfl⟩ | ⟨hat, rfl⟩ | ⟨hat, rfl⟩ | ⟨hat, rfl⟩ | ⟨hat, rfl⟩
  · rw [hat] at hevent
    exact turn_of_menu hat htarget hevent
  · rw [eventAt_router rfl rfl] at hevent
    exact turn_of_action hat htarget hevent
  · rw [eventAt_router rfl rfl] at hevent
    obtain ⟨hword, hctx, -⟩ := yields_ofChange.mp hevent
    obtain rfl := Json.str.inj hword
    cases hreturns : a.ctx.returns with
    | true =>
      rw [afterMenu, hreturns] at htarget
      exact .goesBack hat hreturns (Option.some.inj htarget).symm hctx
    | false =>
      rw [afterMenu, hreturns] at htarget
      exact .asks (.inl hat) hreturns (Option.some.inj htarget).symm hctx
  · rw [eventAt_router rfl rfl] at hevent
    obtain ⟨hword, hctx, -⟩ := yields_ofChange.mp hevent
    obtain rfl := Json.str.inj hword
    cases hreturns : a.ctx.returns with
    | true =>
      rw [afterRoot, hreturns] at htarget
      exact .goesToRoot hat hreturns (Option.some.inj htarget).symm hctx
    | false =>
      rw [afterRoot, hreturns] at htarget
      exact .asks (.inr hat) hreturns (Option.some.inj htarget).symm hctx
  · rw [hat] at hevent
    exact turn_of_question hat htarget hevent

/-! ### All moves of a run -/

/-- In a run of its own or a larger one, the context says which of them it is, and an action is
performed only when one was chosen. -/
structure Knows (returns : Bool) (a : Position Context) : Prop where
  returns : a.ctx.returns = returns
  action : a.state = "run_action" → ∃ action, a.ctx.action = some action ∧ action ≠ ""

theorem knows_start (hstart : p.state = "action_menu") : Knows p.ctx.returns p where
  returns := rfl
  action hat := absurd (hstart.symm.trans hat) (by decide)

/-- Where an action was chosen, it is performed. -/
theorem yields_runAction {action : String} {ctx' : Context} {v : Json} {t : Session}
    (haction : ctx.action = some action) (hnamed : action ≠ "") :
    (runAction perform).Yields ctx s v ctx' t ↔ (perform action).Yields ctx s v ctx' t := by
  unfold runAction
  rw [Step.yields_context_bind, haction]
  dsimp only
  rw [if_neg fun h => hnamed (beq_iff_eq.mp h)]

theorem Turn.knows (hfinds : OnlyFinds perform) {returns : Bool} (h : Turn perform a b)
    (hknows : Knows returns a) : Knows returns b := by
  have hkept : ∀ {word t}, a.state = "run_action" →
      (runAction perform).Yields a.ctx a.session (.str word) b.ctx t → b.ctx.returns = returns := by
    intro word t hat hyields
    obtain ⟨action, haction, hnamed⟩ := hknows.action hat
    obtain ⟨build, hctx⟩ := hfinds ((yields_runAction haction hnamed).mp hyields)
    rw [hctx, ← hknows.returns]
  have haway : ∀ {name}, b.state = name → name ≠ "run_action" → b.state = "run_action" →
      ∃ action, b.ctx.action = some action ∧ action ≠ "" :=
    fun hto hne hat => absurd (hto.symm.trans hat) hne
  cases h with
  | chooses _ _ _ hnamed _ hctx =>
    exact ⟨by rw [hctx]; exact hknows.returns, fun _ => ⟨_, by rw [hctx], hnamed⟩⟩
  | acts hat hto hyields => exact ⟨hkept hat hyields, haway hto (by decide)⟩
  | fails hat _ hto hyields => exact ⟨hkept hat hyields, haway hto (by decide)⟩
  | quits hat hto hyields => exact ⟨hkept hat hyields, haway hto (by decide)⟩
  | leaves _ _ _ hto hctx | goesBack _ _ hto hctx | goesToRoot _ _ hto hctx | asks _ _ hto hctx
  | agrees _ _ _ hto hctx | declines _ _ _ hto hctx =>
    exact ⟨by rw [hctx]; exact hknows.returns, haway hto (by decide)⟩

theorem knows_of_reaches (hfinds : OnlyFinds perform) (hstart : p.state = "action_menu")
    (h : Reaches table (handlers perform) p a) : Knows p.ctx.returns a :=
  h.invariant (knows_start hstart) fun _ _ hknows ⟨⟨_, hmove⟩, _⟩ =>
    (turn_of_moves hmove).knows hfinds hknows

/-! ### What happened last -/

/-- The user leaves the menu. -/
def Leaves (perform : String → Step Context Json) (p : Position Context) : Prop :=
  ∃ a v, Reaches table (handlers perform) p a ∧
    Takes table (handlers perform) a "action_menu" v ∧ IsLeaving v

/-- The user agrees to build again. -/
def Agrees (perform : String → Step Context Json) (p : Position Context) : Prop :=
  ∃ a v, Reaches table (handlers perform) p a ∧
    Takes table (handlers perform) a "repeat_confirm" v ∧ v.truthy = true

/-- The chosen action comes to a result. -/
def ActsTo (perform : String → Step Context Json) (a : Position Context) (word : String) : Prop :=
  a.state = "run_action" ∧ ∃ action ctx s, a.ctx.action = some action ∧
    (perform action).Yields a.ctx a.session (.str word) ctx s

/-- The last action comes to a result. -/
def LastReturned (perform : String → Step Context Json) (p : Position Context)
    (word : String) : Prop :=
  ∃ a, Reaches table (handlers perform) p a ∧ ActsTo perform a word ∧
    ∀ c, Relation.TransGen (Leads table (handlers perform)) a c → c.state ≠ "run_action"

/-- Where a follow-up begins. -/
def begins (ctx : Context) (s : Session) : Position Context := table.startAt table.initial ctx s

/-- The follow-up ends with the outcome. -/
def RunsTo (perform : String → Step Context Json) (ctx : Context) (s : Session)
    (outcome : Outcome) : Prop :=
  ∃ state ctx' s', (table.run (handlers perform) none).Yields ctx s ⟨outcome, state⟩ ctx' s'

/-- A follow-up in a larger run: nobody is asked whether to build again, and what happened last
settles where the larger run goes on. -/
structure EndsNested (perform : String → Step Context Json) (ctx : Context) (s : Session) :
    Prop where
  unasked : ∀ a, Reaches table (handlers perform) (begins ctx s) a → a.state ≠ "repeat_confirm"
  back : RunsTo perform ctx s .returnToCaller ↔ Leaves perform (begins ctx s)
  toRoot : RunsTo perform ctx s .returnToCallerRoot ↔
    ∃ word ∈ failures, LastReturned perform (begins ctx s) word
  toExit : RunsTo perform ctx s .exitCommand ↔
    LastReturned perform (begins ctx s) ActionResult.exit.word
  only : ∀ outcome, RunsTo perform ctx s outcome →
    outcome ∈ [.returnToCaller, .returnToCallerRoot, .exitCommand]

/-- A follow-up that is a run of its own: it is repeated when the user agrees to build again,
and otherwise the command ends. -/
structure EndsAlone (perform : String → Step Context Json) (ctx : Context) (s : Session) :
    Prop where
  again : RunsTo perform ctx s .again ↔ Agrees perform (begins ctx s)
  only : ∀ outcome, RunsTo perform ctx s outcome → outcome ≠ .again → outcome = .exitCommand

theorem Knows.actsTo {returns : Bool} {ctx' : Context} {t : Session} (hknows : Knows returns a)
    (hat : a.state = "run_action")
    (hyields : (runAction perform).Yields a.ctx a.session (.str word) ctx' t) :
    ActsTo perform a word := by
  obtain ⟨action, haction, hnamed⟩ := hknows.action hat
  exact ⟨hat, action, ctx', t, haction, (yields_runAction haction hnamed).mp hyields⟩

/-- The result of the action is followed. -/
theorem exists_move_of_actsTo {returns : Bool} (target : String) (hknows : Knows returns a)
    (h : ActsTo perform a word) (htarget : FollowUp.perform.target? word = some target) :
    ∃ b, Moves table (handlers perform) a word b ∧ b.state = target := by
  obtain ⟨hat, action, ctx', t, haction, hyields⟩ := h
  obtain ⟨named, hsame, hnamed⟩ := hknows.action hat
  obtain rfl := Option.some.inj (haction.symm.trans hsame)
  have hstate : table.state? a.state = some FollowUp.perform := by rw [hat]; rfl
  have hevent : (eventAt table (handlers perform) a.state FollowUp.perform).Yields a.ctx a.session
      (.str word) ctx' t := by
    rw [eventAt_router rfl rfl]
    exact (yields_runAction haction hnamed).mpr hyields
  obtain ⟨b, hmove, hto, -⟩ := exists_move target hstate htarget hevent
  exact ⟨b, hmove, hto⟩

/-- A state that only tells the way ends the run when it tells the way out. -/
theorem ends_of_change {state : State Context} {handler : String} {emits : Option (List String)}
    {change : Json → Context → String × Context} {outcome : Outcome}
    (hstate : table.state? a.state = some state) (henter : state.onEnter = some handler)
    (hfind : (handlers perform).find? handler = some (.ofChange emits change))
    (hchange : change .null a.ctx = (word, a.ctx))
    (htarget : state.target? word = some outcome.word) :
    ∃ b, Ends table (handlers perform) a outcome b := by
  have hevent : (eventAt table (handlers perform) a.state state).Yields a.ctx a.session
      (.str word) a.ctx a.session := by
    rw [eventAt_router henter hfind]
    refine yields_ofChange.mpr ⟨?_, ?_, rfl⟩
    · rw [Option.getD_none, hchange]
    · rw [Option.getD_none, hchange]
  obtain ⟨b, hmove, hto, -⟩ := exists_move outcome.word hstate htarget hevent
  exact ⟨b, ⟨_, hmove⟩, by rw [hto, Outcome.ofWord?_word]⟩

theorem ends_of_after_menu (perform : String → Step Context Json)
    (hat : a.state = "after_menu") (hreturns : a.ctx.returns = true) :
    ∃ b, Ends table (handlers perform) a .returnToCaller b := by
  have hstate : table.state? a.state = some leaveMenu := by rw [hat]; rfl
  exact ends_of_change hstate rfl rfl (by rw [afterMenu, hreturns, if_pos rfl]) rfl

theorem ends_of_after_root (perform : String → Step Context Json)
    (hat : a.state = "after_root") (hreturns : a.ctx.returns = true) :
    ∃ b, Ends table (handlers perform) a .returnToCallerRoot b := by
  have hstate : table.state? a.state = some leaveAction := by rw [hat]; rfl
  exact ends_of_change hstate rfl rfl (by rw [afterRoot, hreturns, if_pos rfl]) rfl

/-! ### Where a move comes from -/

theorem turn_of_leads (h : Leads table (handlers perform) a b) : Turn perform a b :=
  turn_of_moves h.1.choose_spec

theorem turn_of_ends {outcome : Outcome} (h : Ends table (handlers perform) a outcome b) :
    Turn perform a b ∧ b.state = outcome.word :=
  ⟨turn_of_moves h.1.choose_spec, Outcome.word_of_ofWord? h.2⟩

/-- Wherever a run is but at its start, a move led there. -/
theorem exists_leads (h : Reaches table (handlers perform) p a) (hne : p.state ≠ a.state) :
    ∃ c, Reaches table (handlers perform) p c ∧ Leads table (handlers perform) c a := by
  rcases Relation.ReflTransGen.cases_tail h with rfl | hlast
  · exact absurd rfl hne
  · exact hlast

/-- Behind the menu and its actions a run does not come back to them. -/
theorem away_of_reaches (h : Reaches table (handlers perform) a b)
    (hat : a.state ∈ ["after_menu", "after_root", "repeat_confirm"]) :
    b.state ∈ ["after_menu", "after_root", "repeat_confirm"] := by
  refine h.invariant (P := fun c => c.state ∈ ["after_menu", "after_root", "repeat_confirm"]) hat
    fun x y hx hlead => ?_
  have hin := hlead.2
  cases turn_of_leads hlead
  all_goals simp_all [Outcome.ofWord?_word]

/-! ### In a larger run -/

section

variable (hfinds : OnlyFinds perform) (hstart : p.state = "action_menu")
include hfinds hstart

theorem unasked (hreturns : p.ctx.returns = true) (h : Reaches table (handlers perform) p a) :
    a.state ≠ "repeat_confirm" := by
  intro hat
  obtain ⟨c, hreach, hlead⟩ := exists_leads h (by rw [hstart, hat]; decide)
  have hknows := knows_of_reaches hfinds hstart hreach
  cases turn_of_leads hlead
  case asks hno _ _ =>
    rw [hknows.returns, hreturns] at hno
    cases hno
  all_goals simp_all [Outcome.word]

/-- The way back is by leaving the menu. -/
theorem comesTo_back_iff (hreturns : p.ctx.returns = true) :
    table.ComesTo (handlers perform) p .returnToCaller ↔ Leaves perform p := by
  constructor
  · rintro ⟨a, b, hreach, hends⟩
    obtain ⟨hturn, hto⟩ := turn_of_ends hends
    -- Only one state leads back, and to it only the menu leads.
    have hat : a.state = "after_menu" := by
      cases hturn
      case goesBack hat _ _ _ => exact hat
      all_goals simp_all [Outcome.word]
    obtain ⟨c, hbefore, hlead⟩ := exists_leads hreach (by rw [hstart, hat]; decide)
    obtain ⟨event, hmove⟩ := hlead.1
    cases turn_of_moves hmove
    case leaves v hmenu hanswer hleaving _ _ =>
      exact ⟨c, v, hbefore, ⟨hmenu, hanswer, event, a, hmove⟩, hleaving⟩
    all_goals simp_all [Outcome.word]
  · rintro ⟨c, v, hreach, ⟨hmenu, hanswer, event, a, hmove⟩, hleaving⟩
    have hto : a.state = "after_menu" := by
      cases turn_of_moves hmove
      case leaves hto _ => exact hto
      case chooses w _ hother hstaying _ _ _ =>
        exact absurd (hanswer.unique hother ▸ hleaving) hstaying
      all_goals simp_all
    have hafter : Reaches table (handlers perform) p a :=
      hreach.tail ⟨⟨event, hmove⟩, by rw [hto]; rfl⟩
    obtain ⟨b, hends⟩ := ends_of_after_menu perform hto
      ((knows_of_reaches hfinds hstart hafter).returns.trans hreturns)
    exact ⟨a, b, hafter, hends⟩

/-- The way back to the root is by an action that did not end well. -/
theorem comesTo_root_iff (hreturns : p.ctx.returns = true) :
    table.ComesTo (handlers perform) p .returnToCallerRoot ↔
      ∃ word ∈ failures, LastReturned perform p word := by
  constructor
  · rintro ⟨a, b, hreach, hends⟩
    obtain ⟨hturn, hto⟩ := turn_of_ends hends
    have hat : a.state = "after_root" := by
      cases hturn
      case goesToRoot hat _ _ _ => exact hat
      all_goals simp_all [Outcome.word]
    obtain ⟨c, hbefore, hlead⟩ := exists_leads hreach (by rw [hstart, hat]; decide)
    have hknows := knows_of_reaches hfinds hstart hbefore
    cases turn_of_leads hlead
    case fails word t hrun hword _ hyields =>
      refine ⟨word, hword, c, hbefore, hknows.actsTo hrun hyields, fun x htrans hx => ?_⟩
      -- It was the last action, since nothing leads from there to the menu again.
      have haway := away_of_reaches (reaches_of_trans hlead htrans) (by rw [hat]; decide)
      rw [hx] at haway
      exact absurd haway (by decide)
    all_goals simp_all [Outcome.word]
  · rintro ⟨word, hword, c, hreach, hacts, -⟩
    have hall : ∀ word ∈ failures, FollowUp.perform.target? word = some "after_root" := by decide
    obtain ⟨a, hmove, hto⟩ :=
      exists_move_of_actsTo _ (knows_of_reaches hfinds hstart hreach) hacts (hall word hword)
    have hafter : Reaches table (handlers perform) p a :=
      hreach.tail ⟨⟨word, hmove⟩, by rw [hto]; rfl⟩
    obtain ⟨b, hends⟩ := ends_of_after_root perform hto
      ((knows_of_reaches hfinds hstart hafter).returns.trans hreturns)
    exact ⟨a, b, hafter, hends⟩

/-- The way out is by an action that ends the command. -/
theorem comesTo_exit_iff (hreturns : p.ctx.returns = true) :
    table.ComesTo (handlers perform) p .exitCommand ↔
      LastReturned perform p ActionResult.exit.word := by
  constructor
  · rintro ⟨a, b, hreach, hends⟩
    obtain ⟨hturn, hto⟩ := turn_of_ends hends
    have hknows := knows_of_reaches hfinds hstart hreach
    have hasked := unasked hfinds hstart hreturns hreach
    cases hturn
    case quits t hrun _ hyields =>
      refine ⟨a, hreach, hknows.actsTo hrun hyields, fun x htrans => ?_⟩
      obtain ⟨c, hlead, -⟩ := Relation.TransGen.head'_iff.mp htrans
      exact absurd hlead (hends.stops c)
    all_goals simp_all [Outcome.word]
  · rintro ⟨a, hreach, hacts, -⟩
    obtain ⟨b, hmove, hto⟩ := exists_move_of_actsTo Outcome.exitCommand.word
      (knows_of_reaches hfinds hstart hreach) hacts rfl
    exact ⟨a, b, hreach, ⟨_, hmove⟩, by rw [hto, Outcome.ofWord?_word]⟩

theorem outcome_of_nested (hreturns : p.ctx.returns = true) {outcome : Outcome}
    (h : table.ComesTo (handlers perform) p outcome) :
    outcome ∈ [.returnToCaller, .returnToCallerRoot, .exitCommand] := by
  obtain ⟨a, b, hreach, hends⟩ := h
  obtain ⟨hturn, hto⟩ := turn_of_ends hends
  have hasked := unasked hfinds hstart hreturns hreach
  cases hturn
  all_goals cases outcome
  all_goals simp_all [Outcome.word]

end

/-! ### In a run of its own -/

/-- What is repeated is what the user agrees to. -/
theorem comesTo_again_iff :
    table.ComesTo (handlers perform) p .again ↔ Agrees perform p := by
  constructor
  · rintro ⟨a, b, hreach, ⟨event, hmove⟩, hout⟩
    have hto := Outcome.word_of_ofWord? hout
    cases turn_of_moves hmove
    case agrees v hat hanswer hyes _ _ =>
      exact ⟨a, v, hreach, ⟨hat, hanswer, event, b, hmove⟩, hyes⟩
    all_goals simp_all [Outcome.word]
  · rintro ⟨a, v, hreach, ⟨hat, hanswer, event, b, hmove⟩, hyes⟩
    have hto : b.state = Outcome.again.word := by
      cases turn_of_moves hmove
      case agrees hto _ => exact hto
      case declines w _ hother hno _ _ =>
        rw [hanswer.unique hother, hno] at hyes
        cases hyes
      all_goals simp_all
    exact ⟨a, b, hreach, ⟨event, hmove⟩, by rw [hto, Outcome.ofWord?_word]⟩

theorem outcome_of_alone (hfinds : OnlyFinds perform) (hstart : p.state = "action_menu")
    (hreturns : p.ctx.returns = false) {outcome : Outcome}
    (h : table.ComesTo (handlers perform) p outcome) (hother : outcome ≠ .again) :
    outcome = .exitCommand := by
  obtain ⟨a, b, hreach, hends⟩ := h
  obtain ⟨hturn, hto⟩ := turn_of_ends hends
  have hknows := (knows_of_reaches hfinds hstart hreach).returns
  cases hturn
  all_goals cases outcome
  all_goals simp_all [Outcome.word]

/-! ### The run -/

/-- The follow-up comes to an end when its actions do. -/
theorem returns (htame : ∀ action, (perform action).Tame) : table.Returns (handlers perform) :=
  returns_of_shallow (checked perform) shallow ordinary (isTame_handlers htame)

section

variable (htame : ∀ action, (perform action).Tame) (hfinds : OnlyFinds perform)
include htame

theorem runsTo_iff {outcome : Outcome} : RunsTo perform ctx s outcome ↔
    table.ComesTo (handlers perform) (begins ctx s) outcome :=
  comesTo_iff (returns htame)

include hfinds

/-- A follow-up in a larger run ends as what happened last demands. -/
theorem endsNested (hreturns : ctx.returns = true) : EndsNested perform ctx s where
  unasked _ h := unasked hfinds rfl hreturns h
  back := (runsTo_iff htame).trans (comesTo_back_iff hfinds rfl hreturns)
  toRoot := (runsTo_iff htame).trans (comesTo_root_iff hfinds rfl hreturns)
  toExit := (runsTo_iff htame).trans (comesTo_exit_iff hfinds rfl hreturns)
  only _ h := outcome_of_nested hfinds rfl hreturns ((runsTo_iff htame).mp h)

/-- A follow-up that is a run of its own ends as the answer to its question demands. -/
theorem endsAlone (hreturns : ctx.returns = false) : EndsAlone perform ctx s where
  again := (runsTo_iff htame).trans comesTo_again_iff
  only _ h := outcome_of_alone hfinds rfl hreturns ((runsTo_iff htame).mp h)

end

end FollowUp
end BuildDesk.Flow
