/-
Catalogues of messages in the languages of the program.

A message is looked up by its key, in the language asked for and otherwise in
English; a key without a message stands for itself.  Arguments fill the template
unless they do not suit it: a template that cannot be filled is shown as it is.

Main definitions:
* `Phrase` — the messages of the program, with `Phrase.key` and `Phrase.wording`;
* `Phrase.say` — a message in a language with its arguments;
* `Catalog`, `Catalog.say` — messages under any keys, as further groups of
  messages are registered.
-/
import BuildDesk.Message.Dialog
import BuildDesk.Message.Notice
import BuildDesk.Message.Template
import BuildDesk.Text.Order
import BuildDesk.Text.Words

namespace BuildDesk

/-- The messages of the program. -/
inductive Phrase
  | notice (n : Notice)
  | dialog (d : Dialog)
  deriving DecidableEq, Repr

instance : Coe Notice Phrase := ⟨.notice⟩
instance : Coe Dialog Phrase := ⟨.dialog⟩

/-- Named arguments of a message. -/
abbrev Arguments := List (String × Json)

/-- A template with this problem is shown as it is: it misses an argument or is
malformed. -/
def Template.Problem.isForgiven : Template.Problem → Bool
  | .missing | .outOfRange | .malformed => true
  | .noAttribute | .wrongKind | .tooLarge | .tooLong => false

/-- A template with its arguments filled in.  Without arguments nothing is filled, and
problems that are not forgiven are reported. -/
def Template.fillSoftly (template : String) (args : Arguments) :
    Except Template.Problem String :=
  if args.isEmpty then .ok template
  else match Template.fill template args with
    | .ok text => .ok text
    | .error p => if p.isForgiven then .ok template else .error p

namespace Phrase

/-- The group and the entry of a message. -/
def entry : Phrase → String × Wording.Entry
  | notice n => ("cli", n.entry)
  | dialog d => ("flow", d.entry)

/-- The key of a message. -/
def key (p : Phrase) : String := p.entry.1 ++ "." ++ p.entry.2.key

/-- The wording of a message in a language. -/
def wording (p : Phrase) (lang : Lang) : Wording := p.entry.2.wording lang

/-- All messages of the program. -/
def all : List Phrase := Notice.all.map notice ++ Dialog.all.map dialog

/-- A message in a language, with its arguments filled in. -/
def say (lang : Lang) (p : Phrase) (args : Arguments) : String :=
  let template := (p.wording lang).template
  match Template.fillSoftly template args with
  | .ok text => text
  | .error _ => template

end Phrase

/-- Messages under their keys: for each a record with a template for every language
code. -/
abbrev Catalog := List (String × Json)

namespace Catalog

/-- The catalogue of the program's own messages. -/
def standard : Catalog :=
  Phrase.all.map fun p =>
    (p.key, .object [("ko", (p.wording .ko).template), ("en", (p.wording .en).template)])

/-- The catalogue with the messages of a group added or replaced. -/
def register (catalog : Catalog) (group : String) (messages : List (String × Json)) :
    Catalog :=
  messages.foldl (fun done (key, texts) => Json.put done (group ++ "." ++ key) texts) catalog

/-- The keys of a catalogue that begin with a given text. -/
def keys (catalog : Catalog) (start : String) : List String :=
  ((catalog.map (·.1)).filter (Text.beginsWith start)).mergeSort Text.noLater

/-- The template in a record of texts: in the language, in English, or else the key. -/
def template (texts : List (String × Json)) (key : String) (lang : Lang) : Json :=
  match (texts.lookup lang.code).getD .null with
  | .null => (texts.lookup Lang.en.code).getD (.str key)
  | text => text

/-- The names that say which message is meant; no argument may have one of them. -/
def reserved : List String := ["key", "lang"]

/-- The message under a key, with its arguments filled in.  A key without a message
stands for itself; only a template that is a text can be filled. -/
def say (catalog : Catalog) (key : String) (lang : Lang) (args : Arguments) :
    Except Template.Problem Json :=
  if args.any fun (name, _) => reserved.contains name then .error .wrongKind
  else match (catalog.lookup key).getD .null with
    | .null => .ok (.str key)
    | .object texts =>
      match template texts key lang with
      | .str text => (Template.fillSoftly text args).map .str
      | other => if args.isEmpty then .ok other else .error .noAttribute
    | _ => .error .noAttribute

end Catalog
end BuildDesk
