/-
What a terminal shows of a run.

Texts and tables are shown as they are printed, prompts with their choices.  Requests,
pauses and the steps of a flow leave no trace on the terminal.

Main definitions:
* `Line` — a line and where it is shown;
* `linesOf`, `transcript` — the lines of one event and of a whole run.
-/
import BuildDesk.Session

namespace BuildDesk.Console

/-- Where a line is shown. -/
inductive Stream
  | out
  | err
  deriving DecidableEq, Repr

/-- A line of a terminal. -/
structure Line where
  stream : Stream
  text : String
  deriving DecidableEq, Repr

/-- A line of what is printed. -/
def Line.out (text : String) : Line := ⟨.out, text⟩

/-- A row of a table. -/
def rowLine (cells : List String) : Line := .out ("  " ++ " | ".intercalate cells)

/-- A horizontal rule with a title, which may be empty. -/
def ruleText (title : String) : String :=
  if title == "" then "----" else "---- " ++ title ++ " ----"

/-- The lines of an event. -/
def linesOf : Event → List Line
  | .out text => [.out text]
  | .err text => [⟨.err, text⟩]
  | .table title header rows => .out title :: rowLine header :: rows.map rowLine
  | .rule title => [.out (ruleText title)]
  | .status text => [.out text]
  | .select message options =>
    .out ("? " ++ message.text) :: options.map fun (_, label) => rowLine [label.text]
  | .confirm message _ => [.out ("? " ++ message.text)]
  | .text message _ _ => [.out ("? " ++ message.text)]
  | .http _ | .sleep _ | .start .. | .step .. | .action .. | .handler .. => []

/-- The lines of a run in the order in which they appear. -/
def transcript (s : Session) : List Line := s.log.reverse.flatMap linesOf

end BuildDesk.Console
