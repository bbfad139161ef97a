/-
What has happened since.

A run only adds to the log of its session and only takes from its script, one answer for
each prompt that it shows.  This file makes that a relation between an earlier and a later
session, and says from it whether the user kept to what was offered:

* `Session.Since` — the later session comes of the earlier one, by events of a given kind;
* `Session.prompts` — what the user was asked in between, in order;
* `Session.Obeys` — the answers in between are such as the prompts allow: a menu is answered
  by one of its options, or cancelled;
* `Since.trans`, `Since.obeys_split` — both go through a session in the middle.

The kinds of events that matter are those that hold at least of all quiet events
(`Event.IsQuiet`): the events that neither trigger a build nor begin to prepare one, nor
wish for the same build once more.
-/
import BuildDesk.Flow.FollowUp
import BuildDesk.Flow.Prepare.Table
import BuildDesk.Server.Access

namespace BuildDesk

/-! ### Prompts and answers -/

namespace Event

/-- The event asks the user for something. -/
def isPrompt : Event → Bool
  | select .. | confirm .. | text .. => true
  | _ => false

/-- A menu allows the values of its options, and to be cancelled; other prompts allow
anything. -/
def Allows : Event → Answer → Prop
  | select _ options, .value v => v.isNull = true ∨ ∃ option ∈ options, option.1 = v
  | _, _ => True

/-- The answer is a text that the menu offers, or no answer at all. -/
def isAllowed : Event → Answer → Bool
  | select _ options, .value v => v.isNull || v.asString?.any fun text =>
      options.any fun option => option.1.asString? == some text
  | _, _ => true

theorem allows_of_isAllowed {prompt : Event} {answer : Answer}
    (h : prompt.isAllowed answer = true) : prompt.Allows answer := by
  have hstr : ∀ {v : Json} {text : String}, v.asString? = some text → v = .str text := by
    intro v text hv
    cases v with
    | str _ => exact congrArg Json.str (Option.some.inj hv)
    | _ => cases hv
  cases prompt with
  | select message options =>
    cases answer with
    | value v =>
      rcases Bool.or_eq_true_iff.mp h with hnull | hsome
      · exact .inl hnull
      · obtain ⟨text, hv, hoffered⟩ := (Option.any_eq_true _ _).mp hsome
        obtain ⟨option, hmem, heq⟩ := List.any_eq_true.mp hoffered
        exact .inr ⟨option, hmem, (hstr (beq_iff_eq.mp heq)).trans (hstr hv).symm⟩
    | interrupt => exact trivial
  | _ => exact trivial

/-- The request queues a build. -/
def IsTrigger (r : Request) : Prop :=
  r.method = "POST" ∧ ∃ job, r.url = Server.joinText job "build" ∨
    r.url = Server.joinText job "buildWithParameters"

/-- The event neither queues a build nor begins to prepare one, nor is it the wish to follow
a build up by the same build. -/
def IsQuiet : Event → Prop
  | http r => ¬ IsTrigger r
  | start flow _ => flow ≠ Flow.Prepare.table.id
  | step flow _ event _ => ¬ (flow = Flow.FollowUp.table.id ∧ event = Flow.selected "rerun")
  | _ => True

/-- Whatever happens. -/
def IsAny (_ : Event) : Prop := True

/-- Events of the kind may happen whenever nothing in particular does. -/
class Common (E : Event → Prop) : Prop where
  quiet : ∀ {e}, e.IsQuiet → E e

instance : Common IsQuiet := ⟨id⟩

instance : Common IsAny := ⟨fun _ => trivial⟩

theorem Common.prompt {E : Event → Prop} [Common E] {e : Event} (h : e.isPrompt = true) : E e := by
  cases e with
  | select | confirm | text => exact Common.quiet (by trivial)
  | _ => cases h

end Event

namespace Session

/-! ### Between two sessions -/

/-- What the log of the later session has more. -/
def news (s s' : Session) : List Event := s'.log.take (s'.log.length - s.log.length)

/-- What the user was asked since, in order. -/
def prompts (s s' : Session) : List Event := ((s.news s').filter Event.isPrompt).reverse

/-- Each prompt since was given an answer that it allows. -/
def Obeys (s s' : Session) : Prop := ∀ pair ∈ (s.prompts s').zip s.answers, pair.1.Allows pair.2

theorem obeys_of_all {s s' : Session}
    (h : ((s.prompts s').zip s.answers).all (fun pair => pair.1.isAllowed pair.2) = true) :
    s.Obeys s' :=
  fun pair hpair => Event.allows_of_isAllowed (List.all_eq_true.mp h pair hpair)

/-- The later session comes of the earlier one by events that `E` holds of.  Each prompt
took an answer as long as there were any, and replies were taken in order. -/
structure Since (E : Event → Prop) (s s' : Session) : Prop where
  log : ∃ news, s'.log = news ++ s.log ∧ ∀ e ∈ news, E e
  answers : s'.answers = s.answers.drop (s.prompts s').length
  responses : s'.responses <:+ s.responses

variable {E E' : Event → Prop} {s s₁ s₂ : Session} {new new' : List Event}

theorem prompts_of_log (h : s₁.log = new ++ s.log) :
    s.prompts s₁ = (new.filter Event.isPrompt).reverse := by
  rw [prompts, news, h, List.length_append, Nat.add_sub_cancel, List.take_left]

theorem prompts_append (h : s₁.log = new ++ s.log) (h' : s₂.log = new' ++ s₁.log) :
    s.prompts s₂ = s.prompts s₁ ++ s₁.prompts s₂ := by
  have htwo : s₂.log = (new' ++ new) ++ s.log := by rw [h', h, List.append_assoc]
  rw [prompts_of_log h, prompts_of_log h', prompts_of_log htwo, List.filter_append,
    List.reverse_append]

/-- One prompt was shown. -/
theorem prompts_of_event {e : Event} (h : s₁.log = e :: s.log) (hprompt : e.isPrompt = true) :
    s.prompts s₁ = [e] := by
  have hlog : s₁.log = [e] ++ s.log := h
  rw [prompts_of_log hlog, List.filter_cons_of_pos hprompt]
  rfl

/-- Nothing was asked and no answer was taken. -/
theorem since_of_log (hlog : s₁.log = new ++ s.log) (hnew : ∀ e ∈ new, E e ∧ e.isPrompt = false)
    (hanswers : s₁.answers = s.answers) (hresponses : s₁.responses <:+ s.responses) :
    s.Since E s₁ where
  log := ⟨new, hlog, fun e he => (hnew e he).1⟩
  answers := by
    have hnone : new.filter Event.isPrompt = [] :=
      List.filter_eq_nil_iff.mpr fun e he => by simp [(hnew e he).2]
    rw [prompts_of_log hlog, hnone]
    exact hanswers
  responses := hresponses

/-- One event happened. -/
theorem since_of_event {e : Event} (hE : E e) (hprompt : e.isPrompt = false) :
    s.Since E { s with log := e :: s.log } := by
  have hlog : e :: s.log = [e] ++ s.log := rfl
  exact since_of_log hlog (fun _ he => List.mem_singleton.mp he ▸ ⟨hE, hprompt⟩) rfl
    (List.suffix_refl _)

/-- Nothing happened, but replies were taken. -/
theorem since_of_replies (hlog : s₁.log = s.log) (hanswers : s₁.answers = s.answers)
    (hresponses : s₁.responses <:+ s.responses) : s.Since E s₁ := by
  have hnone : s₁.log = [] ++ s.log := hlog
  exact since_of_log hnone (fun _ he => absurd he List.not_mem_nil) hanswers hresponses

/-- What the first prompts are asked is asked among all. -/
theorem mem_zip_of_left {first second : List Event} {answers : List Answer}
    {pair : Event × Answer} (h : pair ∈ first.zip answers) :
    pair ∈ (first ++ second).zip answers := by
  induction first generalizing answers with
  | nil => exact absurd h List.not_mem_nil
  | cons p first ih =>
    rcases answers with _ | ⟨a, answers⟩
    · exact absurd h List.not_mem_nil
    · exact (List.mem_cons.mp h).elim (fun heq => heq ▸ List.mem_cons_self)
        fun hrest => List.mem_cons_of_mem _ (ih hrest)

/-- What later prompts are asked is asked among all, after as many answers as there were
prompts before. -/
theorem mem_zip_of_right {first second : List Event} {answers : List Answer}
    {pair : Event × Answer} (h : pair ∈ second.zip (answers.drop first.length)) :
    pair ∈ (first ++ second).zip answers := by
  induction first generalizing answers with
  | nil => exact h
  | cons p first ih =>
    rcases answers with _ | ⟨a, answers⟩
    · rw [List.drop_nil, List.zip_nil_right] at h
      exact absurd h List.not_mem_nil
    · exact List.mem_cons_of_mem _ (ih h)

namespace Since

theorem refl (s : Session) : s.Since E s := since_of_replies rfl rfl (List.suffix_refl _)

theorem prompts_eq (h : s.Since E s₁) (h' : s₁.Since E' s₂) :
    s.prompts s₂ = s.prompts s₁ ++ s₁.prompts s₂ := by
  obtain ⟨new, hlog, -⟩ := h.log
  obtain ⟨new', hlog', -⟩ := h'.log
  exact prompts_append hlog hlog'

theorem trans (h : s.Since E s₁) (h' : s₁.Since E s₂) : s.Since E s₂ where
  log := by
    obtain ⟨new, hlog, hnew⟩ := h.log
    obtain ⟨new', hlog', hnew'⟩ := h'.log
    refine ⟨new' ++ new, by rw [hlog', hlog, List.append_assoc], fun e he => ?_⟩
    exact (List.mem_append.mp he).elim (hnew' e) (hnew e)
  answers := by
    rw [h'.answers, h.answers, List.drop_drop, h.prompts_eq h', List.length_append]
  responses := h'.responses.trans h.responses

theorem answers_le (h : s.Since E s₁) : s₁.answers.length ≤ s.answers.length := by
  rw [h.answers, List.length_drop]
  exact Nat.sub_le _ _

theorem responses_le (h : s.Since E s₁) : s₁.responses.length ≤ s.responses.length :=
  h.responses.length_le

/-- Who keeps to what is offered does so before a session in the middle and after it. -/
theorem obeys_split (h : s.Since E s₁) (h' : s₁.Since E' s₂) (hobeys : s.Obeys s₂) :
    s.Obeys s₁ ∧ s₁.Obeys s₂ := by
  unfold Obeys at *
  rw [h.prompts_eq h'] at hobeys
  rw [h.answers]
  exact ⟨fun pair hpair => hobeys pair (mem_zip_of_left hpair),
    fun pair hpair => hobeys pair (mem_zip_of_right hpair)⟩

end Since
end Session
end BuildDesk
