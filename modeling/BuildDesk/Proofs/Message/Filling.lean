/-
Messages with their arguments.

The program's own wordings keep to plain text without braces and to slots with simple names.
For such a wording the template scanner gives back what the wording was made of, so filling the
template is filling the wording:

* `Fragment.isSound`, `Wording.isSound` — such wordings; `Phrase.isSound_wording` — every message
  of the program has them, in both languages, by the characters of its fragments
  (`Wording.SpelledOut`);
* `Template.scan_plain`, `Template.scan_slot` — the scanner on a fragment;
* `Template.fill_template`, `Phrase.fillSoftly_eq` — the template is filled as the wording is;
* `Phrase.say_eq` — a message whose arguments are there says its wording with every slot replaced
  by the text of its argument, whatever that text is.
-/
import BuildDesk.Message.Catalog
import Mathlib.Data.List.TakeWhile

namespace BuildDesk

/-! ### Sound wordings -/

/-- The character means something to the template scanner inside of a slot. -/
def Template.isSign (c : Char) : Bool := ['\x7b', '\x7d', '.', '[', '!', ':'].contains c

/-- Plain text holds no brace, and the name of a slot is a name and neither a path nor a
position. -/
def Fragment.isSound : Fragment → Bool
  | .plain text => text.toList.all fun c => c != '\x7b' && c != '\x7d'
  | .named name => !name.toList.isEmpty && name.toList.all fun c =>
      !Template.isSign c && !Text.isDigit c

/-- All fragments are sound. -/
def Wording.isSound (w : Wording) : Bool := w.all Fragment.isSound

/-- A wording without slots is its own template. -/
theorem Wording.template_of_slots {w : Wording} (h : w.slots = []) (value : String → String) :
    w.template = w.fill value := by
  induction w with
  | nil => rfl
  | cons f w ih =>
    cases f with
    | plain text =>
      simpa [Wording.template, Wording.fill, Wording.fragmentTemplate] using
        congrArg (text ++ ·) (ih h)
    | named name => cases h

/-- Sound wordings whose texts are given by their characters, which need not be decoded then from
the bytes of the texts.  The names of slots are words in small letters. -/
inductive Wording.SpelledOut : Wording → Prop
  | nil : SpelledOut []
  | plain {text : List Char} {w : Wording}
      (h : (text.all fun c => c != '\x7b' && c != '\x7d') = true) (hw : SpelledOut w) :
      SpelledOut (.plain (String.ofList text) :: w)
  | named {name : List Char} {w : Wording} (h : name.isEmpty = false)
      (hname : (name.all fun c => 97 ≤ c.toNat && c.toNat < 97 + 26) = true) (hw : SpelledOut w) :
      SpelledOut (slot (String.ofList name) :: w)

theorem Template.isName_smallLetter : ∀ n < 26,
    (!isSign (Char.ofNat (97 + n)) && !Text.isDigit (Char.ofNat (97 + n))) = true := by
  decide

theorem Wording.SpelledOut.isSound {w : Wording} (h : SpelledOut w) : w.isSound = true := by
  induction h with
  | nil => rfl
  | plain h hw ih =>
    rw [Wording.isSound, List.all_cons, Bool.and_eq_true, Fragment.isSound, String.toList_ofList]
    exact ⟨h, ih⟩
  | named h hname hw ih =>
    rw [Wording.isSound, List.all_cons, Bool.and_eq_true, slot, Fragment.isSound,
      String.toList_ofList, h]
    refine ⟨List.all_eq_true.mpr fun c hc => ?_, ih⟩
    have hletter := List.all_eq_true.mp hname c hc
    simp only [Bool.and_eq_true, decide_eq_true_eq] at hletter
    have hsmall := Template.isName_smallLetter (c.toNat - 97) (by omega)
    rwa [Nat.add_sub_cancel' hletter.1, Char.ofNat_toNat] at hsmall

theorem Notice.spelledOut_wording (n : Notice) (lang : Lang) :
    Wording.SpelledOut (Phrase.wording (.notice n) lang) := by
  cases n <;> cases lang <;> repeat' first
    | exact .nil
    | exact rfl
    | refine .plain ?_ ?_
    | refine .named ?_ ?_ ?_

theorem Dialog.spelledOut_wording (d : Dialog) (lang : Lang) :
    Wording.SpelledOut (Phrase.wording (.dialog d) lang) := by
  cases d <;> cases lang <;> repeat' first
    | exact .nil
    | exact rfl
    | refine .plain ?_ ?_
    | refine .named ?_ ?_ ?_

/-- The messages of the program have sound wordings. -/
theorem Phrase.isSound_wording (p : Phrase) (lang : Lang) : (p.wording lang).isSound = true := by
  cases p with
  | notice n => exact (n.spelledOut_wording lang).isSound
  | dialog d => exact (d.spelledOut_wording lang).isSound

namespace Template

/-! ### Scanning -/

theorem scan_char {c : Char} (rest : List Char) (hopen : c ≠ '\x7b') (hclose : c ≠ '\x7d') :
    scan .plain (c :: rest) = .char c :: scan .plain rest := by
  cases rest with
  | nil => simp [scan, hopen, hclose]
  | cons d rest => simp [scan, hopen, hclose]

/-- Text without braces is scanned character by character. -/
theorem scan_plain (text rest : List Char) (h : ∀ c ∈ text, c ≠ '\x7b' ∧ c ≠ '\x7d') :
    scan .plain (text ++ rest) = text.map .char ++ scan .plain rest := by
  induction text with
  | nil => rfl
  | cons c text ih =>
    obtain ⟨hopen, hclose⟩ := h c List.mem_cons_self
    have hrest := ih fun d hd => h d (List.mem_cons_of_mem _ hd)
    rw [List.cons_append, scan_char _ hopen hclose, hrest]
    rfl

theorem ne_of_not_isSign {c : Char} (h : isSign c = false) :
    c ≠ '\x7b' ∧ c ≠ '\x7d' ∧ c ≠ '.' ∧ c ≠ '[' ∧ c ≠ '!' ∧ c ≠ ':' := by
  simpa [isSign] using h

/-- The rest of a slot's name is kept until the brace that closes it. -/
theorem scan_name (name rest path : List Char) (h : ∀ c ∈ name, isSign c = false) :
    scan (.name path false) (name ++ '\x7d' :: rest)
      = .field ⟨path.reverse ++ name, none, []⟩ :: scan .plain rest := by
  induction name generalizing path with
  | nil => simp [scan]
  | cons c name ih =>
    obtain ⟨hopen, hclose, -, hbracket, hmark, hcolon⟩ :=
      ne_of_not_isSign (h c List.mem_cons_self)
    have hrest := ih (c :: path) fun d hd => h d (List.mem_cons_of_mem _ hd)
    have hplain : (c == '[') = false := beq_eq_false_iff_ne.mpr hbracket
    simp [scan, hopen, hclose, hplain, hmark, hcolon, hrest]

/-- A slot is scanned as a field of that name. -/
theorem scan_slot (name rest : List Char) (hname : name ≠ []) (h : ∀ c ∈ name, isSign c = false) :
    scan .plain ('\x7b' :: name ++ '\x7d' :: rest)
      = .field ⟨name, none, []⟩ :: scan .plain rest := by
  obtain ⟨c, more, rfl⟩ := List.exists_cons_of_ne_nil hname
  have hc := (ne_of_not_isSign (h c List.mem_cons_self)).1
  have hscan := scan_name (c :: more) rest [] h
  simpa [scan, hc] using hscan

/-! ### Filling -/

/-- Parts that are characters stand for themselves. -/
theorem fillParts_chars (args : List (String × Json)) (text : List Char) (rest : List Part) :
    fillParts args (text.map .char ++ rest)
      = (fillParts args rest).map fun tail => String.ofList text ++ tail := by
  induction text with
  | nil =>
    rw [List.map_nil, List.nil_append]
    cases fillParts args rest with
    | ok tail => simp [Except.map]
    | error p => rfl
  | cons c text ih =>
    rw [List.map_cons, List.cons_append, fillParts, ih]
    cases fillParts args rest with
    | ok tail =>
      have htext : c.toString ++ (String.ofList text ++ tail) =
          String.ofList (c :: text) ++ tail := by
        rw [String.ofList_cons, String.append_assoc]
        rfl
      exact congrArg Except.ok htext
    | error p => rfl

/-- A simple name is no path. -/
theorem splitName_of_simple {name : List Char} (h : ∀ c ∈ name, isSign c = false) :
    splitName name = (name, []) := by
  have hall : ∀ c ∈ name, (c != '.' && c != '[') = true := by
    intro c hc
    obtain ⟨-, -, hpoint, hbracket, -⟩ := ne_of_not_isSign (h c hc)
    simp [hpoint, hbracket]
  rw [splitName, List.takeWhile_eq_self_iff.mpr hall, List.dropWhile_eq_nil_iff.mpr hall]

/-- A simple name is no position. -/
theorem position_of_simple {name : List Char} (hname : name ≠ [])
    (h : ∀ c ∈ name, Text.isDigit c = false) : position name = .ok none := by
  obtain ⟨c, more, rfl⟩ := List.exists_cons_of_ne_nil hname
  have hdigits : (c :: more).takeWhile Text.isDigit = [] := by
    rw [List.takeWhile_cons, h c List.mem_cons_self]
    rfl
  simp [position, Layout.number?, hdigits]

/-- A field with a simple name shows the text of its argument. -/
theorem fillPart_slot {args : List (String × Json)} {name : String} {v : Json}
    (hsound : (Fragment.named name).isSound = true) (hv : args.lookup name = some v) :
    fillPart args (.field ⟨name.toList, none, []⟩) = .ok v.text := by
  simp only [Fragment.isSound, Bool.and_eq_true, Bool.not_eq_true', List.isEmpty_eq_false_iff,
    List.all_eq_true] at hsound
  obtain ⟨hname, hall⟩ := hsound
  have hsigns := splitName_of_simple fun c hc => (hall c hc).1
  have hposition := position_of_simple hname fun c hc => (hall c hc).2
  have hfacet : Field.facet ⟨name.toList, none, []⟩ args = .ok (.value v) := by
    simp [Field.facet, hsigns, hposition, hname, hv, follow, bind, Except.bind]
  simp only [fillPart, hfacet, fillLayout, convert, layOut, bind, Except.bind]
  rfl

theorem toList_template (w : Wording) :
    w.template.toList = w.flatMap fun f => (Wording.fragmentTemplate f).toList := by
  induction w with
  | nil => rfl
  | cons f w ih =>
    rw [List.flatMap_cons, ← ih]
    simp [Wording.template]

/-- **Filling a template.**  The template of a sound wording is filled as the wording is, when
each slot has its argument. -/
theorem fill_template {args : List (String × Json)} (value : String → String) {w : Wording}
    (hsound : w.isSound = true)
    (hargs : ∀ name ∈ w.slots, ∃ v, args.lookup name = some v ∧ v.text = value name) :
    fill w.template args = .ok (w.fill value) := by
  unfold fill parts
  rw [toList_template]
  induction w with
  | nil => rfl
  | cons f w ih =>
    obtain ⟨hf, hw⟩ : f.isSound = true ∧ Wording.isSound w = true := by
      simpa [Wording.isSound] using hsound
    rw [List.flatMap_cons]
    cases f with
    | plain text =>
      have hrest := ih hw hargs
      have hplain : ∀ c ∈ text.toList, c ≠ '\x7b' ∧ c ≠ '\x7d' := by
        simpa [Fragment.isSound] using hf
      rw [Wording.fragmentTemplate, scan_plain _ _ hplain, fillParts_chars, hrest]
      simp [Except.map, Wording.fill]
    | named name =>
      have hrest := ih hw fun other hother => hargs other (List.mem_cons_of_mem _ hother)
      obtain ⟨v, hv, hvalue⟩ := hargs name List.mem_cons_self
      have hname : name.toList ≠ [] ∧ ∀ c ∈ name.toList, isSign c = false := by
        simp only [Fragment.isSound, Bool.and_eq_true, Bool.not_eq_true',
          List.isEmpty_eq_false_iff, List.all_eq_true] at hf
        exact ⟨hf.1, fun c hc => (hf.2 c hc).1⟩
      have hshape : (Wording.fragmentTemplate (.named name)).toList ++
          w.flatMap (fun f => (Wording.fragmentTemplate f).toList) =
          '\x7b' :: name.toList ++ '\x7d' :: w.flatMap fun f =>
            (Wording.fragmentTemplate f).toList := by
        simp [Wording.fragmentTemplate]
      rw [hshape, scan_slot _ _ hname.1 hname.2, fillParts, fillPart_slot hf hv, hrest, hvalue]
      simp [Wording.fill, bind, Except.bind, pure, Except.pure]

end Template

/-- The template of a message, with its arguments, comes to the wording with every slot replaced by
the text of its argument. -/
theorem Phrase.fillSoftly_eq {p : Phrase} {lang : Lang} {args : Arguments}
    (value : String → String) (hargs : ∀ name ∈ (p.wording lang).slots,
      ∃ v, args.lookup name = some v ∧ v.text = value name) :
    Template.fillSoftly (p.wording lang).template args = .ok ((p.wording lang).fill value) := by
  have hfill := Template.fill_template value (p.isSound_wording lang) hargs
  cases args with
  | nil =>
    -- without arguments the template itself is said, and it has no slots
    have hnone : (p.wording lang).slots = [] := List.eq_nil_iff_forall_not_mem.mpr
      fun name hname => by obtain ⟨v, hv, -⟩ := hargs name hname; cases hv
    exact congrArg Except.ok (Wording.template_of_slots hnone value)
  | cons arg args =>
    simp only [Template.fillSoftly, List.isEmpty_cons, Bool.false_eq_true, if_false, hfill]

/-- **What a message says.**  It is its wording with every slot replaced by the text of its
argument. -/
theorem Phrase.say_eq {p : Phrase} {lang : Lang} {args : Arguments} (value : String → String)
    (hargs : ∀ name ∈ (p.wording lang).slots,
      ∃ v, args.lookup name = some v ∧ v.text = value name) :
    p.say lang args = (p.wording lang).fill value := by
  rw [Phrase.say, Phrase.fillSoftly_eq value hargs]

end BuildDesk
