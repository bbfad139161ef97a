/-
JSON values.

A value keeps what a document says: whole numbers and doubles are told apart,
and an object keeps its members in the order of their first mention.  Settings,
server replies and prompt answers are such values, and most of their fields may
hold any of them.

Main definitions:
* `Json` — the values;
* `Json.field?`, `Json.items`, `Json.members` — access;
* `Json.truthy` — the test whether a value counts as present;
* `Json.put` — one member set, in place if it is there.
-/

namespace BuildDesk

/-- A JSON value. -/
inductive Json
  | null
  | bool (b : Bool)
  | int (n : Int)
  | float (x : Float)
  | str (s : String)
  | list (items : List Json)
  | object (members : List (String × Json))
  deriving Inhabited

namespace Json

instance : Coe String Json := ⟨str⟩

/-- A value counts as present unless it is null, false, zero or empty. -/
def truthy : Json → Bool
  | null => false
  | bool b => b
  | int n => n != 0
  | float x => x != 0
  | str s => s != ""
  | list items => !items.isEmpty
  | object members => !members.isEmpty

/-- The value itself when it counts as present, and another one otherwise. -/
def orElse (v w : Json) : Json := if v.truthy then v else w

/-- The value when it counts as present. -/
def present? (v : Json) : Option Json := if v.truthy then some v else none

/-- The text of a string value. -/
def asString? : Json → Option String
  | str s => some s
  | _ => none

/-- The number of a whole number. -/
def asInt? : Json → Option Int
  | int n => some n
  | _ => none

/-- The items of a list; none in anything else. -/
def items : Json → List Json
  | list xs => xs
  | _ => []

/-- The members of an object; none in anything else. -/
def members : Json → List (String × Json)
  | object ms => ms
  | _ => []

/-- The value is this very text. -/
def isText (v : Json) (s : String) : Bool :=
  match v with
  | str t => t == s
  | _ => false

/-- The value is null. -/
def isNull : Json → Bool
  | null => true
  | _ => false

/-- Null for nothing. -/
def ofOption : Option Json → Json
  | some v => v
  | none => null

/-- Sets one entry of an ordered list of entries: in place when the name is
there, at the end when it is new. -/
def put {α : Type} (entries : List (String × α)) (name : String) (value : α) :
    List (String × α) :=
  match entries with
  | [] => [(name, value)]
  | (other, old) :: rest =>
    if other == name then (other, value) :: rest else (other, old) :: put rest name value

/-- Entries in order of first mention, each with the value mentioned last. -/
def ofEntries {α : Type} (entries : List (String × α)) : List (String × α) :=
  entries.foldl (fun done (name, value) => put done name value) []

/-- The member of an object with the given name. -/
def field? (v : Json) (name : String) : Option Json :=
  match v with
  | object members => members.lookup name
  | _ => none

/-- The member of an object with the given name, null when there is none. -/
def field (v : Json) (name : String) : Json := (v.field? name).getD null

end Json
end BuildDesk
