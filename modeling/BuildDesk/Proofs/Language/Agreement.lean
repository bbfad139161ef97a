/-
The language changes words only.

A session may be held in either language.  The runs of a command from both send the same requests,
show the same prompts but for their texts, leave the same job file, and come to the same end:

* `Question`, `Event.question?` — what a prompt asks, apart from its words;
* `DifferInWords` — two runs that differ in words only;
* `differInWords_of_carries` — what carries over differs in words only;
* `language_changes_words_only` — the commands, by themselves and with their settings.
-/
import BuildDesk.CommandLine.Run
import BuildDesk.Proofs.Language.Commands

namespace BuildDesk

/-! ### Runs that differ in words -/

/-- What a prompt asks, apart from its words: its kind, the values of its options, and what is
preset. -/
inductive Question
  | select (values : List Json)
  | confirm (initial : Json)
  | text (initial : Json)

/-- What an event asks, when it is a prompt. -/
def Event.question? : Event → Option Question
  | .select _ options => some (.select (options.map Prod.fst))
  | .confirm _ initial => some (.confirm initial)
  | .text _ _ initial => some (.text initial)
  | _ => none

theorem Event.question?_mute (e : Event) : e.mute.question? = e.question? := by
  cases e with
  | select message options => simp [mute, question?]
  | _ => rfl

theorem Event.request?_mute (e : Event) : e.mute.request? = e.request? := by
  cases e <;> rfl

/-- What is told of events that are put in words is told of those that are not. -/
theorem filterMap_of_mute {β : Type} {f : Event → Option β} (hf : ∀ e : Event, f e.mute = f e)
    {s t : Session} (h : s.mute = t.mute) :
    s.log.reverse.filterMap f = t.log.reverse.filterMap f := by
  have hmuted : ∀ u : Session, u.mute.log.reverse.filterMap f = u.log.reverse.filterMap f := by
    intro u
    show (u.log.map Event.mute).reverse.filterMap f = _
    rw [← List.map_reverse, List.filterMap_map]
    exact List.filterMap_congr fun e _ => hf e
  rw [← hmuted s, h, hmuted t]

/-- The session in a language. -/
def Session.inLanguage (s : Session) (lang : Lang) : Session := { s with lang }

/-- What two runs come to, with the sessions that they leave, differs in words only. -/
structure DifferInWords {α : Type} (left right : Except Fault α × Session) : Prop where
  /-- The same requests were sent. -/
  requests : left.2.requests = right.2.requests
  /-- The same was asked. -/
  questions : left.2.log.reverse.filterMap Event.question? =
    right.2.log.reverse.filterMap Event.question?
  /-- All else that is logged is the same as well, but for words. -/
  events : left.2.log.map Event.mute = right.2.log.map Event.mute
  /-- The job file is the same. -/
  folder : left.2.folder = right.2.folder
  /-- The results are the same, or the faults are, but for words. -/
  ending : Related Eq left.1 right.1

namespace Desk

variable {α : Type} {part : Desk α}

theorem differInWords_of_carries (h : part.Carries Moment.Any) (s : Session) (lang lang' : Lang) :
    DifferInWords (part.outcome (s.inLanguage lang)) (part.outcome (s.inLanguage lang')) := by
  obtain ⟨-, hresults, hsessions⟩ := h (s.inLanguage lang) (s.inLanguage lang') rfl
  exact ⟨filterMap_of_mute Event.request?_mute hsessions,
    filterMap_of_mute Event.question?_mute hsessions,
    congrArg Session.log hsessions,
    Session.same Session.folder (fun _ => rfl) hsessions, hresults⟩

end Desk

/-! ### The commands with their settings -/

namespace CommandLine

open Desk Console BuildDesk.Command

/-- Stopping a build carries over, whether anybody is asked or not. -/
theorem carries_stop_any (server : Server) (interactive : Bool) (wish : Wish) :
    (stop server interactive wish).Carries Moment.Any :=
  carries_stop wish fun _ _ _ => carries_cancelBy server _ _ nofun

theorem carries_perform (server : Server) (interactive : Bool) (command : Command) :
    (command.perform server interactive).Carries Moment.Any := by
  cases command with
  | list => exact carries_bind (carries_list _ _ _) fun _ => carries_pure _
  | build => exact carries_bind (carries_build _ _) fun _ => carries_pure _
  | status => exact carries_bind (carries_status _ _ _) fun _ => carries_pure _
  | wait =>
    exact carries_bind (carries_waitFor (Wish.carries_target _ _) _ _) fun _ => carries_pure _
  | logs => exact carries_bind (carries_log (Wish.carries_target _ _)) fun _ => carries_pure _
  | cancel => exact carries_bind (carries_stop_any _ _ _) fun _ => carries_pure _
  | rerun => exact carries_bind (carries_rerun _ _) fun _ => carries_pure _

theorem carries_execute (env : Environment) (file : Entry) (nonInteractive : Bool)
    (command : Command) : (execute env file nonInteractive command).Carries Moment.Any := by
  refine echoes_tryCatch ?_ fun f g hfg => ?_
  · exact carries_bind (carries_ofExcept _) fun _ => carries_perform _ _ _
  · cases f with
    | complaint c =>
      obtain ⟨c', rfl⟩ := Fault.exists_complaint_of_mute hfg
      exact echoes_bind (echoes_printComplaint hfg) fun _ _ _ => carries_pure _
    | interrupted =>
      obtain rfl := Fault.eq_of_mute rfl hfg
      refine echoes_bind (echoes_say _ _) fun a b hab => ?_
      obtain ⟨lang, lang', rfl, rfl⟩ := hab
      exact echoes_bind (echoes_printMarkupError (tagging_said_plain (by decide) _ _))
        fun _ _ _ => carries_pure _
    | _ =>
      obtain rfl := Fault.eq_of_mute rfl hfg
      exact carries_throw _

end CommandLine

/-! ### The commands -/

namespace Command

/-- **The language changes words only.**  Whatever its options are, a command does the same in
both languages, from any session: with any job file, clock, answers, responses and interruptions.
So it is when the settings are read first, the complaints are shown and an exit code is given. -/
theorem language_changes_words_only (server : Server) (s : Session) (lang lang' : Lang) :
    (∀ interactive anew search,
      DifferInWords ((list server interactive anew search).outcome (s.inLanguage lang))
        ((list server interactive anew search).outcome (s.inLanguage lang'))) ∧
    (∀ interactive o, DifferInWords ((build server interactive o).outcome (s.inLanguage lang))
      ((build server interactive o).outcome (s.inLanguage lang'))) ∧
    (∀ interactive nonInteractive wish,
      DifferInWords ((status server interactive nonInteractive wish).outcome (s.inLanguage lang))
        ((status server interactive nonInteractive wish).outcome (s.inLanguage lang'))) ∧
    (∀ interactive w interval limit,
      DifferInWords ((waitFor server interactive w interval limit).outcome (s.inLanguage lang))
        ((waitFor server interactive w interval limit).outcome (s.inLanguage lang'))) ∧
    (∀ interactive w, DifferInWords ((log server interactive w).outcome (s.inLanguage lang))
      ((log server interactive w).outcome (s.inLanguage lang'))) ∧
    (∀ interactive wish, DifferInWords ((stop server interactive wish).outcome (s.inLanguage lang))
      ((stop server interactive wish).outcome (s.inLanguage lang'))) ∧
    (∀ interactive wish, DifferInWords ((rerun server interactive wish).outcome (s.inLanguage lang))
      ((rerun server interactive wish).outcome (s.inLanguage lang'))) ∧
    ∀ env file nonInteractive command, DifferInWords
      ((CommandLine.execute env file nonInteractive command).outcome (s.inLanguage lang))
      ((CommandLine.execute env file nonInteractive command).outcome (s.inLanguage lang')) := by
  refine ⟨fun _ _ _ => ?_, fun _ _ => ?_, fun _ _ _ => ?_, fun _ _ _ _ => ?_, fun _ _ => ?_,
    fun _ _ => ?_, fun _ _ => ?_, fun _ _ _ _ => ?_⟩
  · exact Desk.differInWords_of_carries (carries_list _ _ _) s lang lang'
  · exact Desk.differInWords_of_carries (carries_build _ _) s lang lang'
  · exact Desk.differInWords_of_carries (carries_status _ _ _) s lang lang'
  · exact Desk.differInWords_of_carries (carries_waitFor (Wish.carries_target _ _) _ _) s lang lang'
  · exact Desk.differInWords_of_carries (carries_log (Wish.carries_target _ _)) s lang lang'
  · exact Desk.differInWords_of_carries (CommandLine.carries_stop_any _ _ _) s lang lang'
  · exact Desk.differInWords_of_carries (carries_rerun _ _) s lang lang'
  · exact Desk.differInWords_of_carries (CommandLine.carries_execute _ _ _ _) s lang lang'

end Command
end BuildDesk
