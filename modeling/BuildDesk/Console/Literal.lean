/-
Values written out in a text.

A literal is a number, a quoted text, one of a few words, or a tuple, set or record of
literals between brackets.  A number may have a sign, and a real number may be followed
by an imaginary one.  Members of sets and keys of records have to be of a lasting kind,
so they are no sets or records and hold none.  Only whether a text is a literal matters
here, so values are not built.

Main definitions:
* `Shape` — what has to be known of a value that was read;
* `number?`, `strings?`, `word?` — the plain literals;
* `Expect`, `read` — literals with all that may stand in them;
* `isLiteral` — the texts that are literals.
-/
import BuildDesk.Text.Digit
import BuildDesk.Text.Letter

namespace BuildDesk.Console.Literal

/-- What has to be known of a value that was read. -/
inductive Shape
  /-- A real number without a sign. -/
  | real
  /-- An imaginary number without a sign. -/
  | imaginary
  /-- A real number with a sign. -/
  | signed
  /-- Any other value that can be a member of a set. -/
  | lasting
  /-- A value that cannot be a member of a set. -/
  | fleeting
  deriving DecidableEq, Repr

/-- A value and what follows it. -/
abbrev Reading := Option (Shape × List Char)

/-! ### Numbers -/

/-- Digits with single underscores between them, without these, and what follows. -/
def digits (isDigit : Char → Bool) : List Char → List Char × List Char
  | [] => ([], [])
  | [c] => if isDigit c then ([c], []) else ([], [c])
  | c :: d :: rest =>
    if isDigit c then
      let (more, left) :=
        if d == '_' && (rest.head?.any isDigit) then digits isDigit rest
        else digits isDigit (d :: rest)
      (c :: more, left)
    else ([], c :: d :: rest)

/-- Skips an exponent when one stands there. -/
def skipExponent (s : List Char) : List Char :=
  match s with
  | e :: rest =>
    let unsigned := match rest with
      | sign :: more => if sign == '+' || sign == '-' then more else rest
      | [] => []
    if (e == 'e' || e == 'E') && (unsigned.head?.any Char.isDigit) then
      (digits Char.isDigit unsigned).2
    else s
  | [] => []

/-- The base that a letter behind a zero stands for, as its digits. -/
def baseDigits? (mark : Char) : Option (Char → Bool) :=
  if mark == 'x' || mark == 'X' then
    some fun c => c.isDigit || ('a' ≤ c && c ≤ 'f') || ('A' ≤ c && c ≤ 'F')
  else if mark == 'o' || mark == 'O' then some fun c => '0' ≤ c && c ≤ '7'
  else if mark == 'b' || mark == 'B' then some fun c => c == '0' || c == '1'
  else none

/-- Digits of a whole number in base ten: no zero stands before another digit. -/
def isWhole (ds : List Char) : Bool :=
  !ds.isEmpty && ds.length ≤ Text.maxDigits && (ds.head? != some '0' || ds.all (· == '0'))

/-- A number in base ten, and what follows it. -/
def decimal? (s : List Char) : Reading :=
  let (whole, rest) := digits Char.isDigit s
  let (pointed, fraction, rest) := match rest with
    | '.' :: more =>
      let (fraction, left) := digits Char.isDigit more
      (true, fraction, left)
    | _ => (false, [], rest)
  let left := skipExponent rest
  if whole.isEmpty && fraction.isEmpty then none
  else match left with
    | 'j' :: left | 'J' :: left => some (.imaginary, left)
    | _ =>
      if pointed || left.length < rest.length || isWhole whole then some (.real, left) else none

/-- A number, and what follows it, which does not go on like a name. -/
def number? (s : List Char) : Reading := do
  let (shape, rest) ← match s with
    | '0' :: mark :: more =>
      match baseDigits? mark with
      | some isDigit =>
        let (ds, left) := digits isDigit (if more.head? == some '_' then more.drop 1 else more)
        if ds.isEmpty then none else some (.real, left)
      | none => decimal? s
    | _ => decimal? s
  if rest.head?.any Text.isNameChar then none else pure (shape, rest)

/-! ### Quoted texts -/

/-- How a quoted text is read. -/
structure Quoting where
  /-- Backslashes escape nothing but the quote. -/
  isRaw : Bool
  /-- Only ASCII is allowed. -/
  isBytes : Bool
  quote : Char
  /-- The text stands between three quotes on each side. -/
  isLong : Bool

/-- A number of hexadecimal digits stands there; they stay below a bound. -/
def hexBelow (count bound : Nat) (s : List Char) : Bool :=
  let ds := s.take count
  let value (c : Char) : Nat :=
    if c.isDigit then c.toNat - 48 else (c.toLower.toNat - 97) + 10
  ds.length == count
    && ds.all (fun c => c.isDigit || ('a' ≤ c.toLower && c.toLower ≤ 'f'))
    && ds.foldl (fun n c => n * 16 + value c) 0 < bound

/-- What follows a backslash is no broken escape.  Characters have no names here. -/
def isEscape (q : Quoting) (c : Char) (rest : List Char) : Bool :=
  if q.isRaw then true
  else if c == 'x' then hexBelow 2 256 rest
  else if q.isBytes then true
  else if c == 'u' then hexBelow 4 0x10000 rest
  else if c == 'U' then hexBelow 8 0x110000 rest
  else c != 'N'

/-- What follows the end of a quoted text. -/
def closeQuote? (q : Quoting) : List Char → Option (List Char)
  | [] => none
  | '\\' :: c :: rest =>
    if (q.isBytes && 128 ≤ c.toNat) || !isEscape q c rest then none else closeQuote? q rest
  | c :: rest =>
    if c == q.quote && (!q.isLong || rest.take 2 == [c, c]) then
      some (if q.isLong then rest.drop 2 else rest)
    else if (q.isBytes && 128 ≤ c.toNat) || (!q.isLong && (c == '\n' || c == '\r')) then none
    else closeQuote? q rest

/-- Letters in front of a quote, as whether the text is raw and whether it is bytes. -/
def quoteMarks : List (String × Bool × Bool) := [
  ("", false, false), ("u", false, false), ("r", true, false), ("b", false, true),
  ("br", true, true), ("rb", true, true)]

/-- A quoted text, as whether it is bytes, and what follows it. -/
def string? (s : List Char) : Option (Bool × List Char) := do
  let mark := s.takeWhile Char.isAlpha
  let (isRaw, isBytes) ← quoteMarks.lookup (String.ofList (mark.map Char.toLower))
  match s.drop mark.length with
  | quote :: rest =>
    if quote != '"' && quote != '\'' then none
    else
      let isLong := rest.take 2 == [quote, quote]
      let left ← closeQuote? { isRaw, isBytes, quote, isLong } (if isLong then rest.drop 2 else rest)
      pure (isBytes, left)
  | [] => none

/-! ### Words -/

/-- One of the words that are values, and what follows it. -/
def word? (s : List Char) : Reading :=
  let word := s.takeWhile Text.isNameChar
  if ["True", "False", "None"].contains (String.ofList word) then
    some (.lasting, s.drop word.length)
  else match s with
    | '.' :: '.' :: '.' :: rest => some (.lasting, rest)
    | _ => none

/-! ### All literals -/

/-- Skips what may stand between the parts of a literal; line ends only inside of
brackets.  Of a comment `inComment` says that it goes on. -/
def skip (inside inComment : Bool) : List Char → List Char
  | [] => []
  | '\\' :: '\n' :: rest => if inComment then '\\' :: '\n' :: rest else skip inside false rest
  | c :: rest =>
    let isEnd := c == '\n' || c == '\r'
    if isEnd then if inside then skip inside false rest else c :: rest
    else if inComment || c == '#' then skip inside true rest
    else if c == ' ' || c == '\t' || c == '\x0c' then skip inside false rest
    else c :: rest

/-- The most brackets that stand inside each other. -/
def deepest : Nat := 200

/-- What is read next. -/
inductive Expect
  /-- A value, perhaps with a sign or followed by an imaginary number. -/
  | value
  /-- A value without a sign. -/
  | plain
  /-- Further quoted texts, all of them bytes or none. -/
  | strings (isBytes : Bool)
  /-- The rest of a tuple, of which values were read. -/
  | tuple (shape : Shape)
  /-- The rest of a set. -/
  | set
  /-- The rest of a record. -/
  | record

/-- The shape of a tuple with a further member. -/
def Shape.joined (shape member : Shape) : Shape :=
  if shape == .fleeting || member == .fleeting then .fleeting else .lasting

/-- Reads what is expected within `depth` brackets.  Every step but a few in a row takes a
character, so a `fuel` of some times the length suffices. -/
def read : Nat → Nat → Expect → List Char → Reading
  | 0, _, _, _ => none
  | fuel + 1, depth, expect, s =>
    let inside := 0 < depth
    let s := skip inside false s
    match expect with
    | .value => do
      let (shape, rest) ← match s with
        | '+' :: rest | '-' :: rest =>
          match read fuel depth .plain rest with
          | some (.real, rest) => some (.signed, rest)
          | some (.imaginary, rest) => some (.lasting, rest)
          | _ => none
        | _ => read fuel depth .plain s
      match skip inside false rest with
      | '+' :: more | '-' :: more =>
        match shape, read fuel depth .plain more with
        | .real, some (.imaginary, rest) | .signed, some (.imaginary, rest) =>
          pure (.lasting, rest)
        | _, _ => none
      | rest => pure (shape, rest)
    | .plain =>
      match s with
      | '(' :: rest =>
        if deepest ≤ depth then none
        else match skip true false rest with
          | ')' :: rest => some (.lasting, rest)
          | rest => do
            let (shape, rest) ← read fuel (depth + 1) .value rest
            match skip true false rest with
            | ')' :: rest => pure (shape, rest)
            | ',' :: rest => read fuel (depth + 1) (.tuple (Shape.lasting.joined shape)) rest
            | _ => none
      | '\x7b' :: rest =>
        if deepest ≤ depth then none
        else match skip true false rest with
          | '\x7d' :: rest => some (.fleeting, rest)
          | rest => do
            let (shape, rest) ← read fuel (depth + 1) .value rest
            if shape == .fleeting then none
            else match skip true false rest with
              | ':' :: rest => do
                let (_, rest) ← read fuel (depth + 1) .value rest
                read fuel (depth + 1) .record rest
              | rest => read fuel (depth + 1) .set rest
      | 's' :: 'e' :: 't' :: rest =>
        match skip inside false rest with
        | '(' :: rest =>
          match skip true false rest with
          | ')' :: rest => some (.fleeting, rest)
          | _ => none
        | _ => none
      | _ =>
        match string? s with
        | some (isBytes, rest) => read fuel depth (.strings isBytes) rest
        | none => (number? s).or (word? s)
    | .strings isBytes =>
      match string? s with
      | some (bytes, rest) => if bytes == isBytes then read fuel depth (.strings isBytes) rest else none
      | none => some (.lasting, s)
    | .tuple shape =>
      match s with
      | ')' :: rest => some (shape, rest)
      | _ => do
        let (member, rest) ← read fuel depth .value s
        match skip inside false rest with
        | ',' :: rest => read fuel depth (.tuple (shape.joined member)) rest
        | ')' :: rest => pure (shape.joined member, rest)
        | _ => none
    | .set =>
      match s with
      | '\x7d' :: rest => some (.fleeting, rest)
      | ',' :: rest =>
        match skip inside false rest with
        | '\x7d' :: rest => some (.fleeting, rest)
        | rest => do
          let (member, rest) ← read fuel depth .value rest
          if member == .fleeting then none else read fuel depth .set rest
      | _ => none
    | .record =>
      match s with
      | '\x7d' :: rest => some (.fleeting, rest)
      | ',' :: rest =>
        match skip inside false rest with
        | '\x7d' :: rest => some (.fleeting, rest)
        | rest => do
          let (key, rest) ← read fuel depth .value rest
          if key == .fleeting then none
          else match skip inside false rest with
            | ':' :: rest => do
              let (_, rest) ← read fuel depth .value rest
              read fuel depth .record rest
            | _ => none
      | _ => none

/-- Values with commas between them and perhaps one behind them, up to the end. -/
def areValues : Nat → List Char → Bool
  | 0, _ => false
  | fuel + 1, s =>
    match read (8 * s.length + 8) 0 .value s with
    | none => false
    | some (_, rest) =>
      match skip false false rest with
      | [] => true
      | ',' :: rest => (skip false false rest).isEmpty || areValues fuel rest
      | _ => false

/-- The text is a literal, or several with commas between them. -/
def isLiteral (s : List Char) : Bool :=
  Text.isEncodable (String.ofList s) && !s.contains (Char.ofNat 0) && areValues (s.length + 1) s

end BuildDesk.Console.Literal
