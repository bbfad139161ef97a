/-
What a document spells out.

Escaping changes quotes, slashes and control characters only, so all other characters of
the texts of a value stand in its document as they are.  In particular a document can be
encoded exactly when all texts of its value can (`isEncodable_document_iff`): one with half of
a surrogate pair in one of them cannot.
-/
import BuildDesk.Proofs.Json.RoundTrip

namespace BuildDesk.Json

/-- The text stands somewhere in the value, perhaps as the name of a member. -/
inductive Mentions (text : String) : Json → Prop
  | str : Mentions text (.str text)
  | item {items : List Json} {v : Json} (hv : v ∈ items) (h : Mentions text v) :
    Mentions text (.list items)
  | name {members : List (String × Json)} {value : Json} (hm : (text, value) ∈ members) :
    Mentions text (.object members)
  | member {members : List (String × Json)} {m : String × Json} (hm : m ∈ members)
    (h : Mentions text m.2) : Mentions text (.object members)

theorem mentions_texts {text : String} {texts : List String} (h : text ∈ texts) :
    Mentions text (.list (texts.map .str)) :=
  .item (List.mem_map_of_mem h) .str

theorem mem_of_mentions_texts {text : String} {texts : List String}
    (h : Mentions text (.list (texts.map .str))) : text ∈ texts := by
  cases h with
  | item hv h =>
    obtain ⟨other, hother, rfl⟩ := List.mem_map.mp hv
    cases h
    exact hother

/-- Reading a value back does not bring in a text. -/
theorem mentions_of_reread {text : String} {n : Nat} {v : Json} (hv : Shaped n v)
    (h : Mentions text v.reread) : Mentions text v := by
  induction hv with
  | null | bool | int | str => exact h
  | float => cases h
  | list _ ih =>
    rw [reread, rereadItems_eq] at h
    cases h with
    | item hw h =>
      obtain ⟨v, hv, rfl⟩ := List.mem_map.mp hw
      exact .item hv (ih v hv h)
  | object _ _ ih =>
    rw [reread, rereadMembers_eq] at h
    cases h with
    | name hm =>
      obtain ⟨⟨name, value⟩, hmember, heq⟩ := List.mem_map.mp hm
      obtain ⟨rfl, -⟩ := Prod.mk.inj heq
      exact .name hmember
    | member hw h =>
      obtain ⟨m, hm, rfl⟩ := List.mem_map.mp hw
      exact .member hm (ih m hm h)

/-- A value of texts mentions texts that `ok` holds of. -/
theorem Textual.ok_of_mentions {ok : String → Prop} {n : Nat} {v : Json} (hv : Textual ok n v)
    {text : String} (h : Mentions text v) : ok text := by
  induction hv with
  | str hok =>
    cases h
    exact hok
  | list _ ih =>
    cases h with
    | item hw h => exact ih _ hw h
  | object _ hnames _ ih =>
    cases h with
    | name hm => exact hnames _ hm
    | member hm h => exact ih _ hm h

/-! ### Documents that can be encoded -/

/-- No half of a surrogate pair stands alone among the characters. -/
def IsWhole (chars : List Char) : Prop := ∀ c ∈ chars, (Text.half? c).isNone

theorem isWhole_nil : IsWhole [] := List.forall_mem_nil _

theorem isWhole_append {s t : List Char} : IsWhole (s ++ t) ↔ IsWhole s ∧ IsWhole t :=
  List.forall_mem_append

theorem isWhole_cons {c : Char} {s : List Char} :
    IsWhole (c :: s) ↔ (Text.half? c).isNone ∧ IsWhole s := List.forall_mem_cons

/-- A character of ASCII stands for itself. -/
theorem half?_of_ascii {c : Char} (h : c.toNat < 128) : (Text.half? c).isNone := by
  have hout : ¬ 0xFB800 ≤ c.toNat := by omega
  simp [Text.half?, hout]

theorem isWhole_of_ascii {s : List Char} (h : s.all fun c => decide (c.toNat < 128)) :
    IsWhole s :=
  fun c hc => half?_of_ascii (of_decide_eq_true (List.all_eq_true.mp h c hc))

theorem isWhole_newLine (depth : Nat) : IsWhole (newLine depth) := by
  refine isWhole_cons.mpr ⟨by decide, fun c hc => ?_⟩
  rw [List.eq_of_mem_replicate hc]
  decide

theorem isWhole_unitEscape {n : Nat} (h : n < 32) : IsWhole (unitEscape n) := by
  have hall : ∀ n < 32, (unitEscape n).all (fun c => (Text.half? c).isNone) = true := by
    decide +kernel
  exact fun c hc => List.all_eq_true.mp (hall n h) c hc

theorem shortEscape?_ascii {c e : Char} (h : shortEscape? c = some e) : e.toNat < 128 := by
  unfold shortEscape? at h
  split at h
  · cases h; decide
  · cases h; decide
  · cases h; decide
  · cases h; decide
  · cases h; decide
  · split at h
    · cases h; decide
    · split at h
      · cases h; decide
      · cases h

theorem isWhole_escapedChar {c : Char} (h : (Text.half? c).isNone) : IsWhole (escapedChar c) := by
  unfold escapedChar
  split
  · rename_i e he
    have hshort := half?_of_ascii (shortEscape?_ascii he)
    exact isWhole_cons.mpr ⟨by decide, isWhole_cons.mpr ⟨hshort, isWhole_nil⟩⟩
  · split
    · rename_i hcontrol
      exact isWhole_unitEscape hcontrol
    · exact isWhole_cons.mpr ⟨h, by simp [IsWhole]⟩

theorem isWhole_escapedString {s : String} (h : Text.isEncodable s) :
    IsWhole (escapedString s) := by
  have hall : ∀ c ∈ s.toList, (Text.half? c).isNone := List.all_eq_true.mp h
  rw [escapedString, List.cons_append, isWhole_cons, isWhole_append]
  refine ⟨by decide, fun c hc => ?_, isWhole_of_ascii (by decide)⟩
  obtain ⟨d, hd, hc⟩ := List.mem_flatMap.mp hc
  exact isWhole_escapedChar (hall d hd) c hc

theorem isWhole_documentItems {items : List Json}
    (h : ∀ v ∈ items, ∀ depth, IsWhole (documentChars depth v)) (depth : Nat) :
    IsWhole (documentItems depth items) := by
  induction items with
  | nil => exact isWhole_nil
  | cons item items ih =>
    rw [documentItems, List.cons_append, List.cons_append, isWhole_cons, isWhole_append,
      isWhole_append]
    exact ⟨by decide, ⟨isWhole_newLine depth, h item List.mem_cons_self depth⟩,
      ih fun v hv => h v (List.mem_cons_of_mem _ hv)⟩

theorem isWhole_member {name : String} {value : Json} (hname : Text.isEncodable name)
    {depth : Nat} (hvalue : IsWhole (documentChars depth value)) :
    IsWhole (newLine depth ++ escapedString name ++ [':', ' '] ++ documentChars depth value) := by
  simp only [isWhole_append]
  exact ⟨⟨⟨isWhole_newLine depth, isWhole_escapedString hname⟩, isWhole_of_ascii (by decide)⟩,
    hvalue⟩

theorem isWhole_documentMembers {members : List (String × Json)}
    (hnames : ∀ m ∈ members, Text.isEncodable m.1)
    (h : ∀ m ∈ members, ∀ depth, IsWhole (documentChars depth m.2)) (depth : Nat) :
    IsWhole (documentMembers depth members) := by
  induction members with
  | nil => exact isWhole_nil
  | cons member members ih =>
    simp only [documentMembers, List.cons_append]
    rw [isWhole_cons, isWhole_append]
    exact ⟨by decide, isWhole_member (hnames _ List.mem_cons_self) (h _ List.mem_cons_self depth),
      ih (fun m hm => hnames m (List.mem_cons_of_mem _ hm))
        fun m hm => h m (List.mem_cons_of_mem _ hm)⟩

theorem isWhole_scalar {chars : List Char} (h : ∀ c ∈ chars, c.toNat < 128) : IsWhole chars :=
  fun c hc => half?_of_ascii (h c hc)

/-- A document has no halves of surrogate pairs when the texts of its value have none. -/
theorem Shaped.isWhole {n : Nat} {v : Json} (h : Shaped n v)
    (htexts : ∀ text, Mentions text v → Text.isEncodable text) :
    ∀ depth, IsWhole (documentChars depth v) := by
  induction h with
  | null => exact fun _ => isWhole_of_ascii (show "null".toList.all _ = true by decide)
  | @bool _ b =>
    cases b with
    | false => exact fun _ => isWhole_of_ascii (show "false".toList.all _ = true by decide)
    | true => exact fun _ => isWhole_of_ascii (show "true".toList.all _ = true by decide)
  | @int _ k => exact fun _ => isWhole_scalar (ascii_toString k)
  | @float _ x => exact fun _ => isWhole_scalar (ascii_floatText x)
  | str =>
    intro depth
    rw [documentChars]
    exact isWhole_escapedString (htexts _ .str)
  | @list n items _ ih =>
    intro depth
    have hitems : ∀ v ∈ items, ∀ depth, IsWhole (documentChars depth v) :=
      fun v hv => ih v hv fun text h => htexts text (.item hv h)
    rcases items with _ | ⟨item, items⟩
    · rw [documentChars]
      exact isWhole_of_ascii (by decide)
    · simp only [documentChars, List.cons_append, isWhole_cons, isWhole_append]
      exact ⟨by decide, ⟨⟨⟨isWhole_newLine _, hitems item List.mem_cons_self _⟩,
        isWhole_documentItems (fun v hv => hitems v (List.mem_cons_of_mem _ hv)) _⟩,
        isWhole_newLine _⟩, by decide, isWhole_nil⟩
  | @object n members _ _ ih =>
    intro depth
    have hnames : ∀ m ∈ members, Text.isEncodable m.1 := fun m hm => htexts m.1 (.name hm)
    have hvalues : ∀ m ∈ members, ∀ depth, IsWhole (documentChars depth m.2) :=
      fun m hm => ih m hm fun text h => htexts text (.member hm h)
    rcases members with _ | ⟨member, members⟩
    · rw [documentChars]
      exact isWhole_of_ascii (by decide)
    · have hmember := isWhole_member (hnames _ List.mem_cons_self)
        (hvalues member List.mem_cons_self (depth + 1))
      simp only [documentChars, List.cons_append]
      rw [isWhole_cons, isWhole_append, isWhole_append, isWhole_append]
      exact ⟨by decide, ⟨⟨hmember, isWhole_documentMembers
        (fun m hm => hnames m (List.mem_cons_of_mem _ hm))
        (fun m hm => hvalues m (List.mem_cons_of_mem _ hm)) _⟩, isWhole_newLine _⟩,
        isWhole_of_ascii (by decide)⟩

/-! ### Texts in a document -/

/-- The half of a surrogate pair has no escape. -/
theorem mem_escapedChar_of_half {c : Char} (h : (Text.half? c).isSome) : c ∈ escapedChar c := by
  -- all characters with an escape are ASCII, and halves are not
  have hlarge : ¬ c.toNat < 128 := by
    intro hsmall
    have hnone := half?_of_ascii hsmall
    rw [Option.isNone_iff_eq_none] at hnone
    rw [hnone] at h
    cases h
  have hshort : shortEscape? c = none := by
    unfold shortEscape?
    split
    · exact absurd (by decide) hlarge
    · exact absurd (by decide) hlarge
    · exact absurd (by decide) hlarge
    · exact absurd (by decide) hlarge
    · exact absurd (by decide) hlarge
    · have h8 : (c.toNat == 8) = false := beq_false_of_ne (by omega)
      have h12 : (c.toNat == 12) = false := beq_false_of_ne (by omega)
      simp [h8, h12]
  have hcontrol : ¬ c.toNat < 32 := by omega
  rw [escapedChar, hshort]
  dsimp only
  rw [if_neg hcontrol]
  exact List.mem_singleton.mpr rfl

variable {c : Char}

variable {c : Char}

theorem mem_escapedString_of_half {s : String} (hc : c ∈ s.toList) (h : (Text.half? c).isSome) :
    c ∈ escapedString s := by
  have hspelled : c ∈ s.toList.flatMap escapedChar :=
    List.mem_flatMap.mpr ⟨c, hc, mem_escapedChar_of_half h⟩
  rw [escapedString]
  exact List.mem_append_left _ (List.mem_cons_of_mem _ hspelled)

theorem mem_documentItems {items : List Json} {v : Json} (hv : v ∈ items) {depth : Nat}
    (h : c ∈ documentChars depth v) : c ∈ documentItems depth items := by
  induction items with
  | nil => exact absurd hv List.not_mem_nil
  | cons item items ih =>
    rw [documentItems]
    rcases List.mem_cons.mp hv with rfl | hv
    · exact List.mem_append_left _ (List.mem_append_right _ h)
    · exact List.mem_append_right _ (ih hv)

theorem mem_documentMembers {members : List (String × Json)} {m : String × Json}
    (hm : m ∈ members) {depth : Nat} (h : c ∈ escapedString m.1 ∨ c ∈ documentChars depth m.2) :
    c ∈ documentMembers depth members := by
  induction members with
  | nil => exact absurd hm List.not_mem_nil
  | cons member members ih =>
    obtain ⟨name, value⟩ := member
    rw [documentMembers]
    rcases List.mem_cons.mp hm with rfl | hm
    · simp only [List.cons_append, List.mem_cons, List.mem_append]
      rcases h with h | h
      · exact .inr (.inl (.inl (.inl (.inr h))))
      · exact .inr (.inl (.inr h))
    · exact List.mem_append_right _ (ih hm)

/-- The characters of the names and the values of an object stand in its document. -/
theorem mem_document_object {members : List (String × Json)} {m : String × Json}
    (hm : m ∈ members) {depth : Nat}
    (h : c ∈ escapedString m.1 ∨ c ∈ documentChars (depth + 1) m.2) :
    c ∈ documentChars depth (.object members) := by
  rcases members with _ | ⟨⟨name, value⟩, rest⟩
  · exact absurd hm List.not_mem_nil
  · simp only [documentChars, List.cons_append, List.mem_cons, List.mem_append]
    rcases List.mem_cons.mp hm with rfl | hm
    · rcases h with h | h
      · exact .inr (.inl (.inl (.inl (.inl (.inl (.inr h))))))
      · exact .inr (.inl (.inl (.inl (.inr h))))
    · exact .inr (.inl (.inl (.inr (mem_documentMembers hm h))))

/-- Halves of surrogate pairs stand in a document as they stand in its texts. -/
theorem Mentions.mem_document {text : String} {v : Json} (h : Mentions text v)
    (hc : c ∈ text.toList) (hhalf : (Text.half? c).isSome) :
    ∀ depth, c ∈ documentChars depth v := by
  -- by induction on where the text stands, at any depth of indentation
  induction h with
  | str =>
    intro depth
    rw [documentChars]
    exact mem_escapedString_of_half hc hhalf
  | @item items v hv _ ih =>
    intro depth
    rcases items with _ | ⟨first, rest⟩
    · exact absurd hv List.not_mem_nil
    · have hitem : c ∈ documentChars (depth + 1) first ∨ c ∈ documentItems (depth + 1) rest := by
        rcases List.mem_cons.mp hv with rfl | hv
        · exact .inl (ih _)
        · exact .inr (mem_documentItems hv (ih _))
      simp only [documentChars, List.cons_append, List.mem_cons, List.mem_append]
      rcases hitem with h | h
      · exact .inr (.inl (.inl (.inl (.inr h))))
      · exact .inr (.inl (.inl (.inr h)))
  | name hm =>
    exact fun depth => mem_document_object hm (.inl (mem_escapedString_of_half hc hhalf))
  | member hm _ ih => exact fun depth => mem_document_object hm (.inr (ih _))

/-- A document can be encoded exactly when all texts of its value can. -/
theorem isEncodable_document_iff {n : Nat} {v : Json} (h : Shaped n v) :
    Text.isEncodable v.document = true
      ↔ ∀ text, Mentions text v → Text.isEncodable text = true := by
  rw [Text.isEncodable, document, String.toList_ofList, List.all_eq_true]
  constructor
  · intro hdoc text htext
    refine List.all_eq_true.mpr fun c hc => ?_
    rcases hhalf : Text.half? c with _ | half
    · rfl
    · have hstands : c ∈ documentChars 0 v :=
        htext.mem_document hc (by rw [hhalf]; rfl) 0
      have hwhole := hdoc c hstands
      rw [hhalf] at hwhole
      cases hwhole
  · intro htexts
    exact h.isWhole htexts 0

/-- The document of texts that can be encoded can be encoded. -/
theorem isEncodable_document {n : Nat} {v : Json}
    (h : Textual (fun s => Text.isEncodable s) n v) : Text.isEncodable v.document :=
  (isEncodable_document_iff h.shaped).mpr fun _ => h.ok_of_mentions

end BuildDesk.Json
