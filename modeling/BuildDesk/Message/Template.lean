/-
Templates: texts with fields between braces.

A doubled brace stands for the brace itself.  A field names an argument and may
go on to one of its items, ask for the quoted form, and lay the result out in a
given width.  A template is scanned from the left, and its parts are filled in
that order, so of two problems the one further left is met.

Main definitions:
* `Template.Part`, `Template.scan` — the parts of a template;
* `Template.follow` — the way from an argument to what a field names;
* `Template.fill` — the text with all fields filled.
-/
import BuildDesk.Message.Facet
import BuildDesk.Message.Layout

namespace BuildDesk.Template

/-- The inside of a field: what names the value, the conversion asked for, and
the layout. -/
structure Field where
  path : List Char
  conversion : Option Char
  layout : List Char
  deriving DecidableEq, Repr

/-- A part of a template. -/
inductive Part
  | char (c : Char)
  | field (f : Field)
  | broken
  deriving DecidableEq, Repr

/-- Where in a template the scanner stands.  The characters of a field's name and
layout are kept in reverse. -/
inductive Place
  | plain
  | name (path : List Char) (inBrackets : Bool)
  | conversion (path : List Char)
  | converted (path : List Char) (c : Char)
  | layout (path : List Char) (conversion : Option Char) (depth : Nat) (spec : List Char)

/-- The parts of a template from a place on. -/
def scan : Place → List Char → List Part
  | .plain, [] => []
  | .plain, c :: rest =>
    if c == '\x7b' then
      match rest with
      | [] => [.broken]
      | d :: more => if d == '\x7b' then .char c :: scan .plain more else scan (.name [] false) (d :: more)
    else if c == '\x7d' then
      match rest with
      | [] => [.broken]
      | d :: more => if d == '\x7d' then .char c :: scan .plain more else [.broken]
    else .char c :: scan .plain rest
  | .name path inBrackets, c :: rest =>
    if inBrackets then scan (.name (c :: path) (c != ']')) rest
    else if c == '\x7b' then [.broken]
    else if c == '\x7d' then .field ⟨path.reverse, none, []⟩ :: scan .plain rest
    else if c == ':' then scan (.layout path none 1 []) rest
    else if c == '!' then scan (.conversion path) rest
    else scan (.name (c :: path) (c == '[')) rest
  | .conversion path, c :: rest => scan (.converted path c) rest
  | .converted path c, d :: rest =>
    if d == '\x7d' then .field ⟨path.reverse, some c, []⟩ :: scan .plain rest
    else if d == ':' then scan (.layout path (some c) 1 []) rest
    else [.broken]
  | .layout path conversion depth spec, c :: rest =>
    if c == '\x7b' then scan (.layout path conversion (depth + 1) (c :: spec)) rest
    else if c == '\x7d' then
      if depth ≤ 1 then .field ⟨path.reverse, conversion, spec.reverse⟩ :: scan .plain rest
      else scan (.layout path conversion (depth - 1) (c :: spec)) rest
    else scan (.layout path conversion depth (c :: spec)) rest
  | _, [] => [.broken]

/-- The parts of a template. -/
def parts (template : String) : List Part := scan .plain template.toList

/-- The characters before a point or an opening bracket, and what follows them. -/
def splitName (path : List Char) : List Char × List Char :=
  (path.takeWhile fun c => c != '.' && c != '[', path.dropWhile fun c => c != '.' && c != '[')

/-- The position that a text names, when it consists of digits.  A number too large for
a position at its start makes a text malformed. -/
def position (s : List Char) : Except Problem (Option Nat) :=
  match Layout.number? s with
  | none => .error .malformed
  | some (i, rest) => .ok (if rest.isEmpty then i else none)

/-- Follows a path from one thing to the next.  Every step takes at least one
character, so `fuel` above the length suffices. -/
def follow : Nat → Facet → List Char → Except Problem Facet
  | _, f, [] => .ok f
  | fuel + 1, f, '.' :: path => do
    let (name, rest) := splitName path
    if name.isEmpty then .error .malformed
    else follow fuel (← (f.attribute? (String.ofList name)).elim (.error .noAttribute) .ok) rest
  | fuel + 1, f, '[' :: path => do
    let key := path.takeWhile (· != ']')
    match path.dropWhile (· != ']') with
    | [] => .error .malformed
    | _ :: rest =>
      let i ← position key
      if key.isEmpty then .error .malformed
      else follow fuel (← f.item (String.ofList key) i) rest
  | _, _, _ => .error .malformed

/-- What a field names. -/
def Field.facet (f : Field) (args : List (String × Json)) : Except Problem Facet := do
  let (name, path) := splitName f.path
  if name.isEmpty || (← position name).isSome then .error .outOfRange
  else match args.lookup (String.ofList name) with
    | none => .error .missing
    | some v => follow (path.length + 1) (.value v) path

/-- A text in ASCII: every other character is written as an escape. -/
def asciiForm (s : String) : String :=
  String.ofList (s.toList.flatMap fun c =>
    if c.toNat < 128 then [c]
    else if c.toNat < 0x100 then '\\' :: 'x' :: Text.hex 2 c.toNat
    else if c.toNat < 0x10000 then '\\' :: 'u' :: Text.hex 4 c.toNat
    else '\\' :: 'U' :: Text.hex 8 c.toNat)

/-- What a field names, after the conversion asked for. -/
def convert (f : Facet) : Option Char → Except Problem Facet
  | none => .ok f
  | some c =>
    if c == 's' then .ok (.ofText f.text)
    else if c == 'r' then .ok (.ofText f.inside)
    else if c == 'a' then .ok (.ofText (asciiForm f.inside))
    else .error .malformed

/-- A misfit of a layout as a problem of the template. -/
def Problem.ofMisfit : Layout.Misfit → Problem
  | .malformed => .malformed
  | .tooLarge => .tooLarge
  | .tooLong => .tooLong

/-- Lays out what a field names. -/
def layOut (f : Facet) (spec : List Char) : Except Problem String :=
  if spec.isEmpty then .ok f.text
  else match f with
    | .value (.str s) => (Layout.ofText spec s).mapError .ofMisfit
    | .value (.int n) => (Layout.ofInt spec n).mapError .ofMisfit
    | .value (.bool b) => (Layout.ofInt spec (if b then 1 else 0)).mapError .ofMisfit
    | .value (.float x) => (Layout.ofFloat spec x).mapError .ofMisfit
    | _ => .error .wrongKind

/-- A layout with the fields inside it filled. -/
def fillLayout (args : List (String × Json)) (spec : List Char) : Except Problem (List Char) :=
  if !spec.contains '\x7b' then .ok spec
  else (scan .plain spec).foldlM (fun done part =>
    match part with
    | .char c => .ok (done ++ [c])
    | .broken => .error .malformed
    | .field f => do
      let v ← convert (← f.facet args) f.conversion
      if f.layout.contains '\x7b' then .error .malformed
      else pure (done ++ (← layOut v f.layout).toList)) []

/-- The text of one part. -/
def fillPart (args : List (String × Json)) : Part → Except Problem String
  | .char c => .ok c.toString
  | .broken => .error .malformed
  | .field f => do
    let shown ← convert (← f.facet args) f.conversion
    layOut shown (← fillLayout args f.layout)

/-- The text of a list of parts. -/
def fillParts (args : List (String × Json)) : List Part → Except Problem String
  | [] => .ok ""
  | part :: rest => do
    let head ← fillPart args part
    let tail ← fillParts args rest
    pure (head ++ tail)

/-- The text of a template with all fields filled. -/
def fill (template : String) (args : List (String × Json)) : Except Problem String :=
  fillParts args (parts template)

end BuildDesk.Template
