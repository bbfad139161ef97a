/-
Lower and upper case of whole texts.

Both follow the full Unicode mappings: a character may turn into several, and
the capital sigma at the end of a word gets the final form ς.  Two texts that
are equal after `lower` count as the same name everywhere in this library.

Main definitions:
* `lower`, `upper` — the mapped text;
* `sameName` — equality up to case.
-/
import BuildDesk.Text.CaseTable

namespace BuildDesk.Text

/-- Membership of a code point in a range table. -/
def inRanges (table : List (Nat × Nat)) (n : Nat) : Bool :=
  table.any fun (first, last) => first ≤ n && n ≤ last

/-- The image of a character under a shift table; characters without a row
stay as they are. -/
def shifted (table : List (Nat × Nat × Nat × Int)) (c : Char) : Char :=
  match table.find? fun (first, last, stride, _) =>
      first ≤ c.toNat && c.toNat ≤ last && (c.toNat - first) % stride == 0 with
  | some (_, _, _, offset) => Char.ofNat (c.toNat + offset).toNat
  | none => c

/-- Cased characters that case mapping does not look through. -/
def isCased (c : Char) : Bool :=
  if c.toNat < 128 then c.isAlpha else inRanges casedRanges c.toNat

/-- Characters that case mapping looks through, such as the apostrophe. -/
def isCaseIgnorable (c : Char) : Bool :=
  if c.toNat < 128 then c == '\'' || c == '.' || c == ':' || c == '^' || c.toNat == 0x60
  else inRanges ignorableRanges c.toNat

/-- The lower case of one character outside any context. -/
def lowerChar (c : Char) : List Char :=
  if c.toNat < 128 then [c.toLower]
  else if c.toNat == 0x130 then ['i', Char.ofNat 0x307]
  else [shifted lowerShifts c]

/-- A sigma ends its word when no cased character follows. -/
def endsWord (rest : List Char) : Bool :=
  match rest.dropWhile isCaseIgnorable with
  | [] => true
  | c :: _ => !isCased c

/-- The lower case of a list of characters; `inWord` says whether the nearest
character before it that counts is cased. -/
def lowerChars (inWord : Bool) : List Char → List Char
  | [] => []
  | c :: rest =>
    let here := if c == 'Σ' then [if inWord && endsWord rest then 'ς' else 'σ'] else lowerChar c
    here ++ lowerChars (if isCaseIgnorable c then inWord else isCased c) rest

/-- The lower case of a text. -/
def lower (s : String) : String := String.ofList (lowerChars false s.toList)

/-- The upper case of one character. -/
def upperChar (c : Char) : List Char :=
  if c.toNat < 128 then [c.toUpper]
  else match upperSpellings.lookup c.toNat with
    | some spelling => spelling.map Char.ofNat
    | none => [shifted upperShifts c]

/-- The upper case of a text. -/
def upper (s : String) : String := String.ofList (s.toList.flatMap upperChar)

/-- Two texts name the same thing when they agree in lower case. -/
def sameName (s t : String) : Bool := lower s == lower t

end BuildDesk.Text
