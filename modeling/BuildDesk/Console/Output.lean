/-
Output on the console.

Results go to the standard output, diagnostics to the error output.  Texts that
come with a label are escaped, so they show as they are; other texts are marked
up unless said otherwise.

Main definitions:
* `printOk`, `printError`, `printHint`, `printWarning` — labelled lines;
* `printPlain`, `printMarkup` — other texts;
* `printComplaint` — an error and its hints;
* `printTable`, `printRule`, `showStatus`.
-/
import BuildDesk.Console.Markup
import BuildDesk.Session
import BuildDesk.Text.Width

namespace BuildDesk.Console

/-- A line of text as it appears: tabs become spaces. -/
def line (s : String) : String := Text.expandTabs s

/-- Prints a result. -/
def printOk (text : String) : Desk Unit :=
  Desk.emit (.out (line (shown ("[green]OK:[/green] " ++ escape text))))

/-- Prints an error. -/
def printError (text : String) : Desk Unit :=
  Desk.emit (.err (line (shown ("[red]ERROR:[/red] " ++ escape text))))

/-- Prints what can be done about an error. -/
def printHint (text : String) : Desk Unit :=
  Desk.emit (.err (line (shown ("[yellow]HINT:[/yellow] " ++ escape text))))

/-- Prints a warning. -/
def printWarning (text : String) : Desk Unit :=
  Desk.emit (.err (line (shown ("[yellow]! " ++ escape text ++ "[/yellow]"))))

/-- Prints a text without markup. -/
def printPlain (text : String) : Desk Unit := Desk.emit (.out (line (visible text)))

/-- The text of a marked-up text, as a step of a run. -/
def rendered (text : String) : Desk String :=
  match render text with
  | .ok shown => pure shown
  | .error .badTag => throw .badMarkup
  | .error .badNumber => throw .badValue

/-- Prints a marked-up text. -/
def printMarkup (text : String) : Desk Unit := do
  Desk.emit (.out (line (← rendered text)))

/-- Prints a marked-up text on the error output. -/
def printMarkupError (text : String) : Desk Unit := do
  Desk.emit (.err (line (← rendered text)))

/-- The message of an error as it is printed. -/
def messageOrElse (message : String) : String :=
  if message == "" then "Unexpected error." else message

/-- Prints a complaint with its hints. -/
def printComplaint (c : Complaint) : Desk Unit := do
  printError (messageOrElse (if c.message == "" then c.text else c.message))
  c.hints.forM printHint

/-- Texts with empty ones behind them, up to a number of texts. -/
def padded (count : Nat) (cells : List String) : List String :=
  cells ++ List.replicate (count - cells.length) ""

/-- Prints a table with a title.  Title and header are marked up.  A row with more cells
than there are columns adds columns without a heading, and cells that are missing are
empty. -/
def printTable (title : String) (header : List String) (rows : List (List String)) :
    Desk Unit := do
  let count := rows.foldl (fun n row => max n row.length) header.length
  let title ← rendered title
  let header ← header.mapM rendered
  Desk.emit (.table title (padded count header) (rows.map fun row =>
    padded count (row.map fun cell => shown (escape cell))))

/-- Prints a line across, with a marked-up title or none. -/
def printRule (title : String) : Desk Unit := do
  Desk.emit (.rule (← rendered title))

/-- Shows a marked-up text while something is waited for. -/
def showStatus (text : String) : Desk Unit := do
  Desk.emit (.status (← rendered text))

end BuildDesk.Console
