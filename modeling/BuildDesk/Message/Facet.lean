/-
What a path in a template leads to.

A path starts at an argument and goes on to attributes and items.  An attribute of a
value may be a value again, its kind, or one of the methods and slots of that kind,
taken together with the value; a kind has attributes of its own and shows its methods
and slots by themselves.  Only values of a list, a text or a record have items, and so
has a list of kinds.

Main definitions:
* `Template.Problem` — why a template cannot be filled;
* `Facet` — what a path leads to, with `Facet.kindOf`, `Facet.text` and `Facet.inside`;
* `Facet.attribute?`, `Facet.item` — one step further.
-/
import BuildDesk.Json.Display
import BuildDesk.Message.Kind
import BuildDesk.Text.Digit

namespace BuildDesk

/-- Why a template cannot be filled. -/
inductive Template.Problem
  /-- No argument has the name. -/
  | missing
  /-- A position was asked for that is not there. -/
  | outOfRange
  /-- The template or a layout is malformed. -/
  | malformed
  /-- A value has no parts of that name. -/
  | noAttribute
  /-- A value of this kind cannot be laid out or entered. -/
  | wrongKind
  /-- A number is beyond what a layout can show. -/
  | tooLarge
  /-- A text is longer than the memory holds. -/
  | tooLong
  deriving DecidableEq, Repr

/-- What a path leads to. -/
inductive Facet
  | value (v : Json)
  | kind (k : Kind)
  | kinds (ks : List Kind)
  /-- A method, slot or attribute by itself. -/
  | part (role : Kind.Role) (owner : Kind) (name : String)
  /-- A method or slot together with what it belongs to. -/
  | bound (role : Kind.Role) (owner : Kind) (name : String) (self : Facet)

namespace Facet

/-- The kind of what a path leads to. -/
def kindOf : Facet → Kind
  | value v => .ofJson v
  | kind _ => .kind
  | kinds _ => .tuple
  | part .slot _ _ => .slotOfKind
  | part .attribute _ _ => .attributeOfKind
  | part _ _ _ => .methodOfKind
  | bound .slot _ _ _ => .wrapper
  | bound _ _ _ _ => .method

/-- The text of a kind. -/
def kindText (k : Kind) : String := "<class '" ++ k.name ++ "'>"

/-- The text of something that only stands for itself. -/
def inside : Facet → String
  | value v => v.inside
  | kind k => kindText k
  | kinds [k] => "(" ++ kindText k ++ ",)"
  | kinds ks => "(" ++ ", ".intercalate (ks.map kindText) ++ ")"
  | part .slot k name => "<slot wrapper '" ++ name ++ "' of '" ++ k.name ++ "' objects>"
  | part .attribute k name => "<attribute '" ++ name ++ "' of '" ++ k.name ++ "' objects>"
  | part _ k name => "<method '" ++ name ++ "' of '" ++ k.name ++ "' objects>"
  | bound .slot _ name self =>
    "<method-wrapper '" ++ name ++ "' of " ++ self.kindOf.name ++ " object at 0x0>"
  | bound _ _ name self =>
    "<built-in method " ++ name ++ " of " ++ self.kindOf.name ++ " object at 0x0>"

/-- What a path leads to as people read it. -/
def text : Facet → String
  | value v => v.text
  | f => f.inside

/-- A text as something that a path leads to. -/
def ofText (s : String) : Facet := value (.str s)

/-- The attributes of numbers that are numbers again. -/
def numberAttribute (v : Json) (name : String) : Json :=
  let whole (n : Int) : Json :=
    .int (if name == "denominator" then 1 else if name == "imag" then 0 else n)
  match v with
  | .bool b => whole (if b then 1 else 0)
  | .int n => whole n
  | .float x => .float (if name == "imag" then 0.0 else x)
  | other => other

/-- The text that describes a kind, as a value. -/
def about (k : Kind) : Facet := value ((k.about?.map Json.str).getD .null)

/-- Values of these kinds have no method of the name, although their ancestors have. -/
def isWithdrawn (k : Kind) (name : String) : Bool :=
  name == "__hash__" && (k == .list || k == .record)

/-- A method that belongs to a kind itself. -/
def shared (k owner : Kind) (name : String) : Facet :=
  bound .shared owner name (.kind (if name == "__new__" then owner else k))

/-- What the kind of something gives it under a name. -/
def inherited? (f : Facet) (name : String) : Option Facet :=
  (f.kindOf.owner? name).map fun (owner, role) =>
    match role, f with
    | .attribute, value v => value (numberAttribute v name)
    | .shared, _ => shared f.kindOf owner name
    | _, _ => bound role owner name f

/-- What a kind shows of itself. -/
def ofKind? (k : Kind) (name : String) : Option Facet :=
  match name with
  | "__name__" | "__qualname__" => some (ofText k.name)
  | "__module__" => some (ofText "builtins")
  | "__doc__" => some (about k)
  | "__mro__" => some (kinds k.ancestors)
  | "__bases__" => some (kinds k.base?.toList)
  | "__base__" => some ((k.base?.map kind).getD (value .null))
  | _ =>
    if isWithdrawn k name then some (value .null)
    else (k.owner? name).map fun (owner, role) =>
      match role with
      | .shared => shared k owner name
      | _ => part role owner name

/-- What a part shows of itself. -/
def ofPart? (owner : Kind) (name asked : String) : Option Facet :=
  match asked with
  | "__name__" => some (ofText name)
  | "__qualname__" => some (ofText (owner.name ++ "." ++ name))
  | "__objclass__" => some (kind owner)
  | _ => none

/-- What a part together with what it belongs to shows of itself. -/
def ofBound? (role : Kind.Role) (owner : Kind) (name : String) (self : Facet)
    (asked : String) : Option Facet :=
  let holder : Kind := match self with
    | kind k => k
    | f => f.kindOf
  match asked, role with
  | "__self__", _ => some self
  | "__objclass__", .slot | "__name__", _ | "__qualname__", .slot => ofPart? owner name asked
  | "__qualname__", _ => ofPart? holder name asked
  | "__module__", .method | "__module__", .shared => some (value .null)
  | _, _ => none

/-- What something shows of itself under a name. -/
def own? (f : Facet) (name : String) : Option Facet :=
  match f with
  | value v =>
    if name == "__doc__" then some (about (.ofJson v))
    else if isWithdrawn (.ofJson v) name then some (value .null) else none
  | kind k => ofKind? k name
  | kinds _ => if name == "__doc__" then some (about .tuple) else none
  | part _ owner own => ofPart? owner own name
  | bound role owner own self => ofBound? role owner own self name

/-- The attribute of a name. -/
def attribute? (f : Facet) (name : String) : Option Facet :=
  if name == "__class__" then some (kind f.kindOf)
  else (f.own? name).or (f.inherited? name)

/-- The item under a key, which is a position where it consists of digits. -/
def item (f : Facet) (key : String) (position : Option Nat) : Except Template.Problem Facet :=
  let at? (items : List Facet) : Except Template.Problem Facet :=
    match position with
    | some i => (items[i]?).elim (.error .outOfRange) .ok
    | none => .error .wrongKind
  match f with
  | value (.list items) => at? (items.map value)
  | value (.str s) => at? (s.toList.map fun c => ofText c.toString)
  | value (.object members) =>
    if position.isSome then .error .missing
    else (members.lookup key).elim (.error .missing) fun v => .ok (value v)
  | kinds ks => at? (ks.map kind)
  | _ => .error .wrongKind

end Facet
end BuildDesk
