/-
Blank characters and trimming.

Blank are the space characters of Unicode together with the ASCII separators
U+001C to U+001F.  Trimming takes blanks off both ends, so a trimmed text
neither starts nor ends with one and a second trimming changes nothing.

Main definitions:
* `isBlank` — the blank characters;
* `trim`, `trimRight` — a text without its outer blanks;
* `squash` — every run of blanks becomes one space.
-/

namespace BuildDesk.Text

/-- The blank characters. -/
def isBlank (c : Char) : Bool :=
  let n := c.toNat
  n == 0x20 || (9 ≤ n && n ≤ 13) || (0x1C ≤ n && n ≤ 0x1F) || n == 0x85 || n == 0xA0
    || n == 0x1680 || (0x2000 ≤ n && n ≤ 0x200A) || n == 0x2028 || n == 0x2029
    || n == 0x202F || n == 0x205F || n == 0x3000

/-- The characters before which only members of `p` stand at the end. -/
def dropRight (p : Char → Bool) (s : List Char) : List Char :=
  (s.reverse.dropWhile p).reverse

/-- A list of characters without its outer blanks. -/
def trimChars (s : List Char) : List Char := dropRight isBlank (s.dropWhile isBlank)

/-- A text without its outer blanks. -/
def trim (s : String) : String := String.ofList (trimChars s.toList)

/-- A text without the given character at its end. -/
def trimRight (c : Char) (s : String) : String := String.ofList (dropRight (· == c) s.toList)

/-- A text without the given character at its start. -/
def trimLeft (c : Char) (s : String) : String := String.ofList (s.toList.dropWhile (· == c))

/-- Replaces every run of blanks by one space; `inRun` says that the run has begun. -/
def squashChars (inRun : Bool) : List Char → List Char
  | [] => []
  | c :: rest =>
    if isBlank c then
      if inRun then squashChars true rest else ' ' :: squashChars true rest
    else c :: squashChars false rest

/-- A text in which every run of blanks is one space. -/
def squash (s : String) : String := String.ofList (squashChars false s.toList)

/-- A text with nothing but blanks, or nothing at all. -/
def isVoid (s : String) : Bool := s.toList.all isBlank

theorem isBlank_of_isWhitespace {c : Char} (h : c.isWhitespace = true) : isBlank c = true := by
  simp only [Char.isWhitespace, Bool.or_eq_true, decide_eq_true_eq] at h
  rcases h with ((rfl | rfl) | rfl) | rfl <;> decide

end BuildDesk.Text
