/-
Addresses of servers.

An address is taken apart at its first colon and at the slashes after it.  What
stands between `//` and the next `/`, `?` or `#` is the host, with what is written
around its name: a user and an at sign before it, a colon and a port after it.  Where
there are brackets the name must be an address of version 6 or later that fills them,
and no character of the host may stand for one of the characters that separate the
parts of an address.

Main definitions:
* `Url.Parts`, `Url.split` — scheme and host of an address;
* `Url.normalize` — the address of a server as it is kept: http or https, with a
  host, without blanks around it and without slashes at its end.
-/
import BuildDesk.Fault
import BuildDesk.Json.Reader

namespace BuildDesk.Url

/-- What is looked at in an address. -/
structure Parts where
  scheme : String
  host : String
  deriving DecidableEq, Repr

/-- The characters of a scheme. -/
def isSchemeChar (c : Char) : Bool := c.isAlphanum || c == '+' || c == '-' || c == '.'

/-- Cuts a scheme off: letters, digits and signs up to the first colon, a letter first. -/
def splitScheme (s : List Char) : List Char × List Char :=
  let head := s.takeWhile (· != ':')
  match s.dropWhile (· != ':') with
  | ':' :: rest =>
    match head with
    | c :: _ =>
      if c.isAlpha && head.all isSchemeChar then (head.map Char.toLower, rest) else ([], s)
    | [] => ([], s)
  | _ => ([], s)

/-- The host at the head of what follows a scheme; empty when no `//` stands there. -/
def hostOf : List Char → List Char
  | '/' :: '/' :: rest => rest.takeWhile fun c => c != '/' && c != '?' && c != '#'
  | _ => []

/-- The four numbers of an address of version 4. -/
def isVersion4 (s : List Char) : Bool :=
  let octets := Text.cut '.' s
  octets.length == 4 && octets.all fun o =>
    !o.isEmpty && o.length ≤ 3 && o.all Json.isDigit && (o.length == 1 || o.head? != some '0')
      && Json.natOf o ≤ 255

/-- A group of an address of version 6. -/
def isGroup (s : List Char) : Bool :=
  !s.isEmpty && s.length ≤ 4 && s.all fun c => (Json.hexValue? c).isSome

/-- Groups with the one gap in them that stands for as many zero groups as are missing. -/
def areGroups (groups : List (List Char)) : Bool :=
  let inner := (groups.drop 1).dropLast
  match inner.findIdx? List.isEmpty with
  | none => groups.length == 8 && groups.all isGroup
  | some i =>
    let front := groups.take (i + 1)
    let back := groups.drop (i + 2)
    let front := if front == [[]] then [] else front
    let back := if back == [[]] then [] else back
    front.all isGroup && back.all isGroup && front.length + back.length < 8

/-- An address of version 6, with or without a zone after a percent sign. -/
def isVersion6 (s : List Char) : Bool :=
  let zone := (s.dropWhile (· != '%')).drop 1
  let zoned := s.contains '%'
  let groups := Text.cut ':' (s.takeWhile (· != '%'))
  let groups := match groups.reverse with
    | last :: front => if isVersion4 last then front.reverse ++ [['0'], ['0']] else groups
    | [] => groups
  (!zoned || (!zone.isEmpty && !zone.contains '%')) && 3 ≤ groups.length && areGroups groups

/-- An address of a later version: `v`, a version, a point and more. -/
def isLaterVersion (s : List Char) : Bool :=
  match s with
  | 'v' :: rest =>
    let version := rest.takeWhile fun c => (Json.hexValue? c).isSome
    match rest.dropWhile fun c => (Json.hexValue? c).isSome with
    | '.' :: more => !version.isEmpty && !more.isEmpty
    | _ => false
  | _ => false

/-- What follows the last at sign; everything when there is none. -/
def afterUser (host : List Char) : List Char := (host.reverse.takeWhile (· != '@')).reverse

/-- The name of a host without a port.  A name between brackets has nothing before the
opening one and at most a port behind the closing one. -/
def nameOf? (host : List Char) : Option (List Char) :=
  match afterUser host with
  | '[' :: rest =>
    let port := (rest.dropWhile (· != ']')).drop 1
    if port.isEmpty || port.head? == some ':' then some (rest.takeWhile (· != ']')) else none
  | bare => if bare.contains '[' then none else some (bare.takeWhile (· != ':'))

/-- The name of a host is an address of version 6 or later. -/
def isAddress (name : List Char) : Bool :=
  if name.head? == some 'v' then isLaterVersion name else isVersion6 name

/-- Brackets in a host are balanced and go with an address. -/
def bracketsFit (host : List Char) : Bool :=
  if host.contains '[' && host.contains ']' then (nameOf? host).any isAddress
  else !host.contains '[' && !host.contains ']'

/-- Characters whose compatibility form holds one of the separators of an address. -/
def disguised : List Nat := [
  0x2047, 0x2048, 0x2049, 0x2100, 0x2101, 0x2105, 0x2106, 0x2A74, 0xFE13, 0xFE16, 0xFE55, 0xFE56,
  0xFE5F, 0xFE6B, 0xFF03, 0xFF0F, 0xFF1A, 0xFF1F, 0xFF20]

/-- The scheme and the host of an address; nothing when the host is malformed. -/
def split (s : String) : Option Parts :=
  let front := s.toList.dropWhile fun c => c.toNat ≤ 32
  let cleaned := front.filter fun c => c != '\t' && c != '\n' && c != '\r'
  let (scheme, rest) := splitScheme cleaned
  let host := hostOf rest
  if bracketsFit host && !host.any (fun c => disguised.contains c.toNat) then
    some ⟨String.ofList scheme, String.ofList host⟩
  else none

/-- The address of a server as it is kept. -/
def normalize (address : String) : Except Fault String :=
  let trimmed := Text.trim address
  match split trimmed with
  | none => .error .badValue
  | some parts =>
    if parts.scheme == "" || parts.host == "" then .error (.complaint (.setting .notAbsolute))
    else if parts.scheme != "http" && parts.scheme != "https" then
      .error (.complaint (.setting .wrongScheme))
    else .ok (Text.trimRight '/' trimmed)

end BuildDesk.Url
