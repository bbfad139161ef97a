/-
Reaching into replies.

A reply may be any JSON value.  Each access says what kind of value it needs and
faults on any other: members need an object, items something that is made of
items, addresses a text.

Main definitions:
* `member` — a member of an object, null when it is missing;
* `items` — the items of a list, nothing for a value that counts as absent;
* `join` — an address with a path behind it.
-/
import BuildDesk.Fault

namespace BuildDesk.Server

/-- A member of an object; null when the object lacks it. -/
def member (v : Json) (name : String) : Except Fault Json :=
  match v with
  | .object members => .ok ((members.lookup name).getD .null)
  | _ => .error .noAttribute

/-- A member of an object that has to be there. -/
def demand (v : Json) (name : String) : Except Fault Json :=
  match v with
  | .object members => (members.lookup name).elim (.error .noMember) .ok
  | _ => .error .wrongKind

/-- The items of a value: those of a list, the names of an object, the characters
of a text.  A value that counts as absent has none. -/
def items (v : Json) : Except Fault (List Json) :=
  if !v.truthy then .ok []
  else match v with
    | .list xs => .ok xs
    | .object members => .ok (members.map fun (name, _) => .str name)
    | .str s => .ok (s.toList.map fun c => .str c.toString)
    | _ => .error .wrongKind

/-- An address and a path with one slash between them. -/
def joinText (url path : String) : String :=
  Text.trimRight '/' url ++ "/" ++ Text.trimLeft '/' path

/-- An address and a path; the address has to be text. -/
def join (url : Json) (path : String) : Except Fault String :=
  match url with
  | .str s => .ok (joinText s path)
  | _ => .error .noAttribute

end BuildDesk.Server
