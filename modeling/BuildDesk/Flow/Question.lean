/-
Questions of flows.

The prompts of the built-in flows name the server they are about, and their texts
are messages in the language of the session.  Options that are neither jobs nor
branches have values that no address and no branch is likely to have.

Main definitions:
* `searchAgain`, `leave`, … — the values of such options;
* `Addressed` — contexts that know their server;
* `question`, `menu`, `jobChoices` — texts and options of prompts;
* `Handler.ofChange`, `Handler.ofStep` — handlers from what they do;
* `Handler.settling` — a handler with answers that need no context.
-/
import BuildDesk.Flow.Basic
import BuildDesk.Job
import BuildDesk.Settings

namespace BuildDesk.Flow

/-- Search once more. -/
def searchAgain : String := "__jenkins_cli_search_again__"

/-- Leave the program. -/
def leave : String := "__jenkins_cli_exit__"

/-- Search among all jobs instead of those used lately. -/
def searchAll : String := "__jenkins_cli_search_all__"

/-- Type a branch that is not offered. -/
def customBranch : String := "__jenkins_cli_custom_branch__"

/-- Remove a branch from those offered. -/
def removeBranch : String := "__jenkins_cli_remove_branch__"

/-- Build with a branch. -/
def withBranch : String := "__jenkins_cli_build_with_params__"

/-- Build with parameters of one's own. -/
def withCustom : String := "__jenkins_cli_build_with_custom_params__"

/-- Build without parameters. -/
def withoutParams : String := "__jenkins_cli_build_without_params__"

/-- Leave a menu; also the event that this is. -/
def done : String := "done"

/-- Contexts that know the server they are about. -/
class Addressed (κ : Type) where
  settings : κ → Settings

section
variable {κ : Type}

/-- A message followed by the server that it is about. -/
def addressed [Addressed κ] (text : Lang → κ → String) : Projection κ Json := fun lang ctx =>
  ((Addressed.settings ctx).addressed lang (text lang ctx)).map .str

/-- A message without arguments, followed by the server. -/
def question [Addressed κ] (d : Dialog) : Projection κ Json :=
  addressed fun lang _ => Phrase.say lang d []

/-- A message without arguments. -/
def hint (d : Dialog) : Projection κ Json := fun lang _ => .ok (.str (Phrase.say lang d []))

/-- A fixed part of a prompt. -/
def fixed (v : Json) : Projection κ Json := fun _ _ => .ok v

/-- An option with a message as its label. -/
def choice (lang : Lang) (value : String) (d : Dialog) : Choice :=
  (.str value, .str (Phrase.say lang d []))

/-- Options with messages as their labels. -/
def menu (entries : List (String × Dialog)) : Projection κ (List Choice) := fun lang _ =>
  .ok (entries.map fun (value, d) => choice lang value d)

end

/-- An option for each job: its address, shown as its display name. -/
def jobChoices (jobs : List Job) : List Choice :=
  jobs.map fun job => (.str job.url, job.displayName)

/-- An option for each text. -/
def textChoices (texts : List String) : List Choice :=
  texts.map fun text => (.str text, .str text)

/-- What was typed, empty for nothing, without blanks around it. -/
def typed (value : Json) : String :=
  Text.trim (if value.isNull then "" else value.text)

/-- The event that stands for the option with a value. -/
def selected (value : String) : String := "select:" ++ value

/-- The event that stands for a yes or a no. -/
def confirmed (value : Json) : String := if value.truthy then "confirm:yes" else "confirm:no"

/-- What some answers settle at once: an event for each of them. -/
def settled (events : List (String × String)) (value : Json) : Option (Desk String) :=
  (events.lookup value.text).map pure

/-- The wish to leave a menu is settled at once. -/
def leaving : Json → Option (Desk String) := settled [(done, done)]

namespace Handler

variable {κ : Type}

/-- A handler from a part of a run that takes an answer, null when there is none. -/
def ofStep (emits : Option (List String)) (part : Json → Step κ Json) : Handler κ where
  emits := emits
  otherwise value := part (value.getD .null)

/-- A handler that needs nothing but the context: it gives an event and a context. -/
def ofChange (emits : Option (List String)) (change : Json → κ → String × κ) : Handler κ :=
  ofStep emits fun value => do
    let (event, ctx) := change value (← Step.context)
    Step.change fun _ => ctx
    pure (.str event)

/-- A handler with answers that settle the event at once. -/
def settling (atOnce : Json → Option (Desk String)) (h : Handler κ) : Handler κ :=
  { h with atOnce := atOnce }

/-- Takes the answer to a question; it is settled at once. -/
def confirming : Handler κ where
  emits := some ["confirm:yes", "confirm:no"]
  atOnce value := some (pure (confirmed value))
  otherwise value := pure (.str (confirmed (value.getD .null)))

end Handler
end BuildDesk.Flow
