/-
Reading what was written.

A document is read from the left, one value after another, and whatever stands behind a
value is left for the next reader.  So the statement that is proved by induction on a value
lets other characters follow it (`Json.Reads`), as long as a number in front of them ends
there.  With nothing behind it, the reader gives the value back, but for its doubles:

* `readString_escapedChar` — the text between the quotes of a written string is the string;
* `readItems_document`, `readMembers_document` — lists and objects, when their parts are
  read back;
* `Shaped.reads`, `read_shaped` — every value that a text can hold;
* `read_document` — values made of texts, lists and objects are read back as they were.
-/
import BuildDesk.Json.Printer
import BuildDesk.Json.Reader
import BuildDesk.Proofs.Json.Entries
import BuildDesk.Proofs.Json.Numeral

namespace BuildDesk.Json

/-! ### Strings -/

/-- The characters are read as the single character `c` of a string. -/
def SpellsOut (chars : List Char) (c : Char) : Prop :=
  ∀ rest, readString none (chars ++ rest) = before [c] (readString none rest)

theorem spellsOut_short {c e : Char} (h : shortEscape? c = some e) : SpellsOut ['\\', e] c := by
  intro rest
  unfold shortEscape? at h
  split at h
  · cases h; rfl
  · cases h; rfl
  · cases h; rfl
  · cases h; rfl
  · cases h; rfl
  · split at h
    · rename_i h8
      have hc : c = Char.ofNat 8 := by rw [← Char.ofNat_toNat c, eq_of_beq h8]
      cases h; subst hc; rfl
    · split at h
      · rename_i h12
        have hc : c = Char.ofNat 12 := by rw [← Char.ofNat_toNat c, eq_of_beq h12]
        cases h; subst hc; rfl
      · cases h

/-- Four digits spell out every code below U+0020. -/
theorem hex_of_control : ∀ n < 32,
    Text.hex 4 n = ['0', '0', Nat.digitChar (n / 16), Nat.digitChar (n % 16)]
      ∧ unit? '0' '0' (Nat.digitChar (n / 16)) (Nat.digitChar (n % 16)) = some n := by
  decide +kernel

theorem spellsOut_unit {c : Char} (h : c.toNat < 32) : SpellsOut (unitEscape c.toNat) c := by
  intro rest
  obtain ⟨hhex, hunit⟩ := hex_of_control c.toNat h
  have hhigh : ¬ 0xD800 ≤ c.toNat := by omega
  have hlow : ¬ 0xDC00 ≤ c.toNat := by omega
  rw [unitEscape, hhex, List.cons_append, List.cons_append, readString.eq_def]
  simp [hunit, hhigh, hlow]

theorem spellsOut_self {c : Char} (hquote : c ≠ '"') (hslash : c ≠ '\\')
    (h : ¬ c.toNat < 32) : SpellsOut [c] c := by
  intro rest
  show readString none (c :: rest) = _
  rw [readString]
  · simp [hslash, h, unpaired]
  all_goals simp_all

theorem spellsOut_escapedChar (c : Char) : SpellsOut (escapedChar c) c := by
  unfold escapedChar
  split
  · exact spellsOut_short ‹_›
  · rename_i hnone
    split
    · exact spellsOut_unit ‹_›
    · refine spellsOut_self ?_ ?_ ‹_›
      · rintro rfl; cases hnone
      · rintro rfl; cases hnone

/-- What stands between the quotes of a written string is read as that string. -/
theorem readString_escapedChar (chars rest : List Char) :
    readString none (chars.flatMap escapedChar ++ '"' :: rest) = .ok (chars, rest) := by
  induction chars with
  | nil => rfl
  | cons c chars ih =>
    rw [List.flatMap_cons, List.append_assoc, spellsOut_escapedChar c, ih]
    rfl

theorem escapedString_append (s : String) (rest : List Char) :
    escapedString s ++ rest = '"' :: (s.toList.flatMap escapedChar ++ '"' :: rest) := by
  rw [escapedString, List.append_assoc, List.cons_append, List.singleton_append]

/-! ### White space -/

theorem skip_newLine (depth : Nat) (s : List Char) : skip (newLine depth ++ s) = skip s := by
  have hspaces : ∀ n, skip (List.replicate n ' ' ++ s) = skip s := by
    intro n
    induction n with
    | zero => rfl
    | succ n ih => exact ih
  exact hspaces (2 * depth)

theorem skip_of_not_space {c : Char} (s : List Char) (h : isSpace c = false) :
    skip (c :: s) = c :: s := by
  rw [skip, List.dropWhile_cons_of_neg (by rw [h]; decide)]

/-! ### Values -/

/-- Values as a text can hold them: at most `n` lists and objects stand inside each other, the
members of an object have different names, and whole numbers are not too long. -/
inductive Shaped : Nat → Json → Prop
  | null {n : Nat} : Shaped n .null
  | bool {n : Nat} {b : Bool} : Shaped n (.bool b)
  | int {n : Nat} {k : Int} (h : (Nat.toDigits 10 k.natAbs).length ≤ Text.maxDigits) :
    Shaped n (.int k)
  | float {n : Nat} {x : Float} : Shaped n (.float x)
  | str {n : Nat} {s : String} : Shaped n (.str s)
  | list {n : Nat} {items : List Json} (h : ∀ v ∈ items, Shaped n v) :
    Shaped (n + 1) (.list items)
  | object {n : Nat} {members : List (String × Json)} (names : (members.map Prod.fst).Nodup)
    (h : ∀ m ∈ members, Shaped n m.2) : Shaped (n + 1) (.object members)

mutual

/-- What a value is read back as.  Only its doubles may be others. -/
def reread : Json → Json
  | float x => float (rereadFloat x)
  | list items => list (rereadItems items)
  | object members => object (rereadMembers members)
  | v => v

/-- What the items of a list are read back as. -/
def rereadItems : List Json → List Json
  | [] => []
  | item :: items => reread item :: rereadItems items

/-- What the members of an object are read back as. -/
def rereadMembers : List (String × Json) → List (String × Json)
  | [] => []
  | (name, value) :: members => (name, reread value) :: rereadMembers members

end

theorem rereadItems_eq (items : List Json) : rereadItems items = items.map reread := by
  induction items with
  | nil => rfl
  | cons item items ih => rw [rereadItems, ih, List.map_cons]

theorem rereadMembers_eq (members : List (String × Json)) :
    rereadMembers members = members.map fun m => (m.1, m.2.reread) := by
  induction members with
  | nil => rfl
  | cons member members ih => rw [rereadMembers, ih, List.map_cons]

theorem reread_texts (texts : List String) :
    (list (texts.map .str)).reread = .list (texts.map .str) := by
  rw [reread, rereadItems_eq, List.map_map]
  rfl

/-- Deeper values may hold what others hold. -/
theorem Shaped.mono {n m : Nat} {v : Json} (h : Shaped n v) (hle : n ≤ m) : Shaped m v := by
  induction h generalizing m with
  | null => exact .null
  | bool => exact .bool
  | int hlength => exact .int hlength
  | float => exact .float
  | str => exact .str
  | list _ ih =>
    obtain ⟨k, rfl⟩ : ∃ k, m = k + 1 := ⟨m - 1, by omega⟩
    exact .list fun v hv => ih v hv (Nat.le_of_succ_le_succ hle)
  | object names _ ih =>
    obtain ⟨k, rfl⟩ : ∃ k, m = k + 1 := ⟨m - 1, by omega⟩
    exact .object names fun v hv => ih v hv (Nat.le_of_succ_le_succ hle)

theorem Shaped.reread {n : Nat} {v : Json} (h : Shaped n v) : Shaped n v.reread := by
  induction h with
  | null => exact .null
  | bool => exact .bool
  | int hlength => exact .int hlength
  | float => exact .float
  | str => exact .str
  | list _ ih =>
    rw [Json.reread, rereadItems_eq]
    exact .list (List.forall_mem_map.mpr ih)
  | object names _ ih =>
    rw [Json.reread, rereadMembers_eq]
    exact .object (by rwa [List.map_map]) (List.forall_mem_map.mpr ih)

theorem Shaped.orElse {n : Nat} {v : Json} (h : Shaped n v) : Shaped n (v.orElse .null) := by
  rw [Json.orElse]
  split
  · exact h
  · exact .null

/-- The document of a value is read, wherever it stands, and what follows it is left.  A reader
that may go down `n` levels and may take as many steps as the document has characters is good
enough. -/
def Reads (n : Nat) (v : Json) : Prop :=
  ∀ fuel room depth rest, n ≤ room → (documentChars depth v).length ≤ fuel → EndsNumber rest →
    readValue fuel room (documentChars depth v ++ rest) = .ok (v.reread, rest)

/-- What begins the document of a value: no white space, and no closing bracket. -/
def BeginsValue (chars : List Char) : Prop :=
  ∃ c rest, chars = c :: rest ∧ isSpace c = false ∧ c ≠ ']'

theorem BeginsScalar.exists_head {chars : List Char} (h : BeginsScalar chars) :
    ∃ c rest, chars = c :: rest
      ∧ ∀ d, isDigit d = false → d ∉ ['-', 'n', 't', 'f', 'N', 'I'] → c ≠ d := by
  obtain ⟨c, rest, rfl, hc⟩ := h
  refine ⟨c, rest, rfl, ?_⟩
  rintro d hd hnot rfl
  rcases hc with hc | hc
  · rw [hd] at hc
    cases hc
  · exact hnot hc

theorem BeginsScalar.beginsValue {chars : List Char} (h : BeginsScalar chars) :
    BeginsValue chars := by
  obtain ⟨c, rest, rfl, hne⟩ := h.exists_head
  refine ⟨c, rest, rfl, ?_, hne _ (by decide) (by decide)⟩
  simp only [isSpace, Bool.or_eq_false_iff, beq_eq_false_iff_ne]
  exact ⟨⟨⟨hne _ (by decide) (by decide), hne _ (by decide) (by decide)⟩,
    hne _ (by decide) (by decide)⟩, hne _ (by decide) (by decide)⟩

/-- Something that is no white space stands at the head of a document. -/
theorem beginsValue_document (v : Json) (depth : Nat) : BeginsValue (documentChars depth v) := by
  cases v with
  | null => exact ⟨_, _, rfl, by decide, by decide⟩
  | bool b => cases b <;> exact ⟨_, _, rfl, by decide, by decide⟩
  | int n => exact (beginsScalar_toString n).beginsValue
  | float x => exact (beginsScalar_floatText x).beginsValue
  | str s =>
    exact ⟨_, _, by rw [documentChars, escapedString, List.cons_append], by decide, by decide⟩
  | list items =>
    cases items with
    | nil => exact ⟨_, _, rfl, by decide, by decide⟩
    | cons item items => exact ⟨_, _, rfl, by decide, by decide⟩
  | object members =>
    cases members with
    | nil => exact ⟨_, _, rfl, by decide, by decide⟩
    | cons member members => exact ⟨_, _, rfl, by decide, by decide⟩

/-- White space before a document is skipped, and nothing of the document. -/
theorem skip_document (v : Json) (before depth : Nat) (rest : List Char) :
    skip (newLine before ++ (documentChars depth v ++ rest)) = documentChars depth v ++ rest := by
  obtain ⟨c, chars, hchars, hc, -⟩ := beginsValue_document v depth
  rw [skip_newLine, hchars, List.cons_append, skip_of_not_space _ hc]

theorem endsNumber_cons {c : Char} {rest : List Char}
    (h : isDigit c = false ∧ c ≠ '.' ∧ c ≠ 'e' ∧ c ≠ 'E') : EndsNumber (c :: rest) := by
  intro d hd
  obtain rfl := Option.some.inj hd
  exact h

theorem endsNumber_newLine (depth : Nat) (rest : List Char) :
    EndsNumber (newLine depth ++ rest) := endsNumber_cons (by decide)

theorem endsNumber_items (depth outer : Nat) (items : List Json) (rest : List Char) :
    EndsNumber (documentItems depth items ++ (newLine outer ++ rest)) := by
  cases items with
  | nil => exact endsNumber_newLine outer rest
  | cons item items =>
    rw [documentItems, List.cons_append]
    exact endsNumber_cons (by decide)

theorem endsNumber_members (depth outer : Nat) (members : List (String × Json))
    (rest : List Char) :
    EndsNumber (documentMembers depth members ++ (newLine outer ++ rest)) := by
  cases members with
  | nil => exact endsNumber_newLine outer rest
  | cons member members =>
    rw [documentMembers]
    exact endsNumber_cons (by decide)

/-- A value that begins as a scalar is read as one. -/
theorem readValue_scalar {chars : List Char} (h : BeginsScalar chars) (fuel room : Nat)
    (rest : List Char) :
    readValue (fuel + 1) room (chars ++ rest) = readScalar (chars ++ rest) := by
  obtain ⟨c, chars, rfl, hne⟩ := h.exists_head
  have hother : ∀ d, isDigit d = false → d ∉ ['-', 'n', 't', 'f', 'N', 'I'] →
      ∀ after, c :: chars ++ rest = d :: after → False :=
    fun d hd hnot after heq => hne d hd hnot (List.cons.inj heq).1
  rw [readValue]
  all_goals exact hother _ (by decide) (by decide)

/-- A scalar is read when the reader of scalars takes it for what it is read back as. -/
theorem reads_scalar {n : Nat} {v : Json} {chars : List Char}
    (hchars : ∀ depth, documentChars depth v = chars) (hbegins : BeginsScalar chars)
    (hread : ∀ rest, EndsNumber rest → readScalar (chars ++ rest) = .ok (v.reread, rest)) :
    Reads n v := by
  intro fuel room depth rest _ hfuel hrest
  rw [hchars] at hfuel ⊢
  rcases fuel with _ | fuel
  · obtain ⟨c, rest, rfl, -⟩ := hbegins
    exact absurd hfuel (Nat.not_succ_le_zero _)
  · rw [readValue_scalar hbegins, hread rest hrest]

theorem reads_str (n : Nat) (s : String) : Reads n (.str s) := by
  intro fuel room depth rest _ hfuel _
  rw [documentChars] at hfuel ⊢
  rcases fuel with _ | fuel
  · exact absurd hfuel (Nat.not_succ_le_zero _)
  · rw [escapedString_append, readValue, readString_escapedChar]
    exact congrArg (fun s => Except.ok (str s, rest)) String.ofList_toList

section

variable {n fuel room : Nat}

/-- The items of a list are read, up to and with its closing bracket, when each of them is. -/
theorem readItems_document {items : List Json} {item : Json}
    (hreads : ∀ v ∈ item :: items, Reads n v)
    (hroom : n ≤ room) (outer depth : Nat) (rest : List Char)
    (hfuel : (documentChars depth item).length + (documentItems depth items).length < fuel) :
    readItems fuel room (documentChars depth item ++ (documentItems depth items
      ++ (newLine outer ++ ']' :: rest))) = .ok ((item :: items).map reread, rest) := by
  -- A reader of one item less needs less fuel, since the comma is taken.
  induction items generalizing item fuel with
  | nil =>
    rcases fuel with _ | fuel
    · exact absurd hfuel (Nat.not_lt_zero _)
    · rw [readItems, hreads item List.mem_cons_self fuel room depth _ hroom (by omega)
        (endsNumber_items depth outer [] _)]
      dsimp only
      rw [documentItems, List.nil_append, skip_newLine, skip_of_not_space _ (by decide)]
      rfl
  | cons next items ih =>
    have hends := endsNumber_items depth outer (next :: items) (']' :: rest)
    rw [documentItems] at hfuel hends ⊢
    simp only [List.cons_append, List.append_assoc, List.length_cons, List.length_append]
      at hfuel hends ⊢
    rcases fuel with _ | fuel
    · exact absurd hfuel (Nat.not_lt_zero _)
    · rw [readItems, hreads item List.mem_cons_self fuel room depth _ hroom (by omega) hends]
      dsimp only
      rw [skip_of_not_space _ (by decide)]
      show Except.map _ (readItems fuel room (skip _)) = _
      rw [skip_document, ih (fun v hv => hreads v (List.mem_cons_of_mem _ hv)) (by omega)]
      rfl

/-- The last member of an object is read when its value is. -/
theorem readMembers_last {name : String} {value : Json} (hreads : Reads n value)
    (hroom : n ≤ room) (depth : Nat) {rest after : List Char} (hends : EndsNumber rest)
    (hfuel : (documentChars depth value).length ≤ fuel) (hnext : skip rest = '\x7d' :: after) :
    readMembers (fuel + 1) room (escapedString name ++ ':' :: ' ' :: (documentChars depth value
      ++ rest)) = .ok ([(name, value.reread)], after) := by
  have hspace : skip (' ' :: (documentChars depth value ++ rest))
      = documentChars depth value ++ rest := skip_document value 0 depth rest
  have hcolon : ∀ s, skip (':' :: s) = ':' :: s := fun s => skip_of_not_space s (by decide)
  rw [escapedString_append, readMembers, readString_escapedChar]
  simp only [hcolon, hspace, hreads fuel room depth _ hroom hfuel hends, hnext,
    String.ofList_toList]

/-- A member is read when its value is, and after a comma the others are read. -/
theorem readMembers_more {name : String} {value : Json} (hreads : Reads n value)
    (hroom : n ≤ room) (depth : Nat) {rest after : List Char} (hends : EndsNumber rest)
    (hfuel : (documentChars depth value).length ≤ fuel) (hnext : skip rest = ',' :: after) :
    readMembers (fuel + 1) room (escapedString name ++ ':' :: ' ' :: (documentChars depth value
      ++ rest)) = (readMembers fuel room (skip after)).map
        fun others => ((name, value.reread) :: others.1, others.2) := by
  have hspace : skip (' ' :: (documentChars depth value ++ rest))
      = documentChars depth value ++ rest := skip_document value 0 depth rest
  have hcolon : ∀ s, skip (':' :: s) = ':' :: s := fun s => skip_of_not_space s (by decide)
  rw [escapedString_append, readMembers, readString_escapedChar]
  simp only [hcolon, hspace, hreads fuel room depth _ hroom hfuel hends, hnext,
    String.ofList_toList]

/-- The members of an object are read, up to and with its closing brace, when each of their
values is. -/
theorem readMembers_document {members : List (String × Json)} {name : String} {value : Json}
    (hreads : ∀ m ∈ (name, value) :: members, Reads n m.2)
    (hroom : n ≤ room) (outer depth : Nat) (rest : List Char)
    (hfuel : (documentChars depth value).length + (documentMembers depth members).length < fuel) :
    readMembers fuel room (escapedString name ++ ':' :: ' ' :: (documentChars depth value
      ++ (documentMembers depth members ++ (newLine outer ++ '\x7d' :: rest))))
      = .ok (((name, value) :: members).map fun m => (m.1, m.2.reread), rest) := by
  have hread : Reads n value := hreads _ List.mem_cons_self
  induction members generalizing name value fuel with
  | nil =>
    rcases fuel with _ | fuel
    · exact absurd hfuel (Nat.not_lt_zero _)
    · refine readMembers_last hread hroom depth (endsNumber_members depth outer [] _) (by omega) ?_
      rw [documentMembers, List.nil_append, skip_newLine, skip_of_not_space _ (by decide)]
  | cons next members ih =>
    obtain ⟨nextName, nextValue⟩ := next
    have hends := endsNumber_members depth outer ((nextName, nextValue) :: members) ('\x7d' :: rest)
    rw [documentMembers] at hfuel hends ⊢
    simp only [List.cons_append, List.append_assoc, List.length_cons, List.length_append,
      List.nil_append] at hfuel hends ⊢
    rcases fuel with _ | fuel
    · exact absurd hfuel (Nat.not_lt_zero _)
    · have hname : ∀ s, skip (escapedString nextName ++ s) = escapedString nextName ++ s :=
        fun s => skip_of_not_space _ (by decide)
      rw [readMembers_more hread hroom depth hends (by omega) (skip_of_not_space _ (by decide)),
        skip_newLine, hname, ih (fun m hm => hreads m (List.mem_cons_of_mem _ hm)) (by omega)
        (hreads (nextName, nextValue) (by simp))]
      rfl

/-- A list is read when its items are: what stands after its bracket is no closing bracket,
unless the list is empty. -/
theorem reads_list {items : List Json} (hreads : ∀ v ∈ items, Reads n v) :
    Reads (n + 1) (.list items) := by
  intro fuel room depth rest hroom hfuel _
  rcases room with _ | room
  · exact absurd hroom (Nat.not_succ_le_zero _)
  rw [reread, rereadItems_eq]
  rcases items with _ | ⟨item, items⟩
  · rw [documentChars] at hfuel ⊢
    rcases fuel with _ | fuel
    · exact absurd hfuel (Nat.not_succ_le_zero _)
    · rfl
  · rw [documentChars] at hfuel ⊢
    simp only [List.cons_append, List.append_assoc, List.length_cons, List.length_append,
      List.nil_append] at hfuel ⊢
    rcases fuel with _ | fuel
    · exact absurd hfuel (Nat.not_succ_le_zero _)
    · have henough : (documentChars (depth + 1) item).length
          + (documentItems (depth + 1) items).length < fuel := by omega
      have hread := readItems_document hreads (Nat.le_of_succ_le_succ hroom)
        depth (depth + 1) rest henough
      obtain ⟨c, chars, hchars, -, hc⟩ := beginsValue_document item (depth + 1)
      rw [readValue, skip_document]
      rw [hchars] at hread ⊢
      simp only [List.cons_append, Nat.add_sub_cancel] at hread ⊢
      rw [if_neg (by simp)]
      split
      · rename_i h
        exact absurd (List.cons.inj h).1 hc
      · rw [hread]
        rfl

/-- An object is read when the values of its members are, since no two members have the same
name. -/
theorem reads_object {members : List (String × Json)} (names : (members.map Prod.fst).Nodup)
    (hreads : ∀ m ∈ members, Reads n m.2) : Reads (n + 1) (.object members) := by
  have hentries : ofEntries (members.map fun m => (m.1, m.2.reread))
      = members.map fun m => (m.1, m.2.reread) := by
    refine foldl_put_of_new _ [] ?_
    rwa [List.nil_append, List.map_map]
  intro fuel room depth rest hroom hfuel _
  rcases room with _ | room
  · exact absurd hroom (Nat.not_succ_le_zero _)
  rw [reread, rereadMembers_eq]
  rcases members with _ | ⟨⟨name, value⟩, members⟩
  · rw [documentChars] at hfuel ⊢
    rcases fuel with _ | fuel
    · exact absurd hfuel (Nat.not_succ_le_zero _)
    · rfl
  · rw [documentChars] at hfuel ⊢
    simp only [List.cons_append, List.append_assoc, List.length_cons, List.length_append,
      List.nil_append] at hfuel ⊢
    rcases fuel with _ | fuel
    · exact absurd hfuel (Nat.not_succ_le_zero _)
    · have henough : (documentChars (depth + 1) value).length
          + (documentMembers (depth + 1) members).length < fuel := by omega
      have hread := readMembers_document hreads (Nat.le_of_succ_le_succ hroom)
        depth (depth + 1) rest henough
      have hname : ∀ s, skip (escapedString name ++ s) = escapedString name ++ s :=
        fun s => skip_of_not_space _ (by decide)
      rw [readValue, skip_newLine, hname]
      rw [escapedString_append] at hread ⊢
      show Except.map _ (readMembers fuel room _) = _
      rw [hread]
      exact congrArg (fun members => Except.ok (object members, rest)) hentries

end

/-- The document of every value that a text can hold is read. -/
theorem Shaped.reads {n : Nat} {v : Json} (h : Shaped n v) : Reads n v := by
  induction h with
  | null => exact reads_scalar (fun _ => rfl) ⟨_, _, rfl, .inr (by decide)⟩ fun _ _ => rfl
  | @bool _ b =>
    cases b with
    | false => exact reads_scalar (fun _ => rfl) ⟨_, _, rfl, .inr (by decide)⟩ fun _ _ => rfl
    | true => exact reads_scalar (fun _ => rfl) ⟨_, _, rfl, .inr (by decide)⟩ fun _ _ => rfl
  | int h =>
    exact reads_scalar (fun _ => rfl) (beginsScalar_toString _) fun _ hrest =>
      readScalar_int h hrest
  | @float _ x =>
    exact reads_scalar (fun _ => rfl) (beginsScalar_floatText x) fun _ => readScalar_float x
  | str => exact reads_str _ _
  | list _ ih => exact reads_list ih
  | object names _ ih => exact reads_object names ih

/-- **Reading what was written.**  A value that a text can hold, and of which not too many
parts stand inside each other, is read back from its document, but for its doubles. -/
theorem read_shaped {n : Nat} {v : Json} (h : Shaped n v) (hdepth : n ≤ mostNested) :
    read v.document = .ok v.reread := by
  obtain ⟨c, chars, hchars, hc, -⟩ := beginsValue_document v 0
  have hskip : skip (documentChars 0 v) = documentChars 0 v := by
    rw [hchars]
    exact skip_of_not_space _ hc
  have hread := h.reads (2 * v.document.length + 2) mostNested 0 [] hdepth
    (by rw [document, String.length_ofList]; omega) endsNumber_nil
  rw [List.append_nil] at hread
  rw [read, document, String.toList_ofList, hskip]
  rw [document] at hread
  rw [hread]
  rfl

/-! ### Values without numbers -/

/-- Values made of texts that `ok` holds of, of lists, and of objects whose members have
different names; at most `n` lists and objects stand inside each other. -/
inductive Textual (ok : String → Prop) : Nat → Json → Prop
  | str {n : Nat} {s : String} (h : ok s) : Textual ok n (.str s)
  | list {n : Nat} {items : List Json} (h : ∀ v ∈ items, Textual ok n v) :
    Textual ok (n + 1) (.list items)
  | object {n : Nat} {members : List (String × Json)} (names : (members.map Prod.fst).Nodup)
    (hnames : ∀ m ∈ members, ok m.1) (h : ∀ m ∈ members, Textual ok n m.2) :
    Textual ok (n + 1) (.object members)

theorem Textual.shaped {ok : String → Prop} {n : Nat} {v : Json} (h : Textual ok n v) :
    Shaped n v := by
  induction h with
  | str => exact .str
  | list _ ih => exact .list ih
  | object names _ _ ih => exact .object names ih

theorem Textual.reread_eq {ok : String → Prop} {n : Nat} {v : Json} (h : Textual ok n v) :
    v.reread = v := by
  induction h with
  | str => rfl
  | list _ ih => rw [reread, rereadItems_eq, List.map_congr_left ih, List.map_id']
  | @object _ members _ _ _ ih =>
    have hmembers : members.map (fun m => (m.1, m.2.reread)) = members.map fun m => m :=
      List.map_congr_left fun m hm => by rw [ih m hm]
    rw [reread, rereadMembers_eq, hmembers, List.map_id']

/-- Values made of texts, lists and objects are read back as they were. -/
theorem read_document {ok : String → Prop} {n : Nat} {v : Json} (h : Textual ok n v)
    (hdepth : n ≤ mostNested) : read v.document = .ok v := by
  rw [read_shaped h.shaped hdepth, h.reread_eq]

end BuildDesk.Json
