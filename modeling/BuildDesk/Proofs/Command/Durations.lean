/-
Durations that the user gives.

A duration is a number of digits, of any script, and perhaps the name of a unit, in either case.
The shape also lets a letter through that only looks like an s, and the number may be longer than
numbers are read, or larger than any double.  These are the three ways in which reading a duration
fails other than by a complaint; every other text that is no duration of some length is complained
about (`patience_settles`).

* `Names`, `IsLookalike` — what may stand behind the digits;
* `worth` — a number of units in seconds, and `worth_pos`;
* `IsDuration` — a text with the shape of a duration;
* `reading` — what is read off the digits and the letters;
* `patience_settles` — what is made of any text.
-/
import BuildDesk.Command.Operate
import BuildDesk.Proofs.Number.Positive
import BuildDesk.Proofs.Outcome
import BuildDesk.Proofs.Text.Spelling

namespace BuildDesk.Command

open Text (isDigit natOfDigits natOfDigits? maxDigits)

/-! ### Units -/

/-- The name of a unit in lower case. -/
def TimeUnit.name : TimeUnit → String
  | .millisecond => "ms"
  | .second => "s"
  | .minute => "m"
  | .hour => "h"

/-- The letters name the unit, in either case; without any letters milliseconds are meant. -/
def Names (letters : List Char) (unit : TimeUnit) : Prop :=
  letters.map Char.toLower = unit.name.toList ∨ letters = [] ∧ unit = .millisecond

/-- The letters look like the name of a unit, but with a long s for its last letter. -/
def IsLookalike (letters : List Char) : Prop :=
  letters = ['\u017f'] ∨ letters = ['m', '\u017f'] ∨ letters = ['M', '\u017f']

/-- The seconds in a number of units; there are none when the number of milliseconds has no
nearest double. -/
def worth (n : Nat) : TimeUnit → Option Quantity
  | .millisecond => (Quantity.whole n).toFloat?.map fun x => .real (x * 0.001)
  | .second => some (.whole n)
  | .minute => some (.whole (n * 60))
  | .hour => some (.whole (n * 3600))

theorem inSeconds_eq (n : Nat) (unit : TimeUnit) :
    inSeconds n unit = (worth n unit).elim (.error .tooLarge) .ok := by
  cases unit with
  | millisecond =>
    unfold inSeconds worth Quantity.toFloat?
    dsimp only
    split <;> rfl
  | _ => rfl

theorem worth_millisecond_eq_none_iff {n : Nat} :
    worth n .millisecond = none ↔ (Number.scaled n 0).isInf = true := by
  unfold worth Quantity.toFloat?
  dsimp only
  rw [Option.map_eq_none_iff, ite_eq_left_iff]
  simp

/-- Some units last longer than zero. -/
theorem worth_pos {n : Nat} {unit : TimeUnit} {q : Quantity} (hn : 0 < n)
    (h : worth n unit = some q) : q.isPositive = true := by
  cases unit with
  | millisecond =>
    obtain ⟨x, hx, rfl⟩ := Option.map_eq_some_iff.mp h
    unfold Quantity.toFloat? at hx
    dsimp only at hx
    split at hx
    · cases hx
    · obtain rfl := Option.some.inj hx
      exact decide_eq_true (Number.thousandth_pos hn)
  | _ =>
    obtain rfl := Option.some.inj h
    refine decide_eq_true ?_
    omega

/-! ### Shapes -/

theorem capital_eq : ∀ n < 26, (Char.ofNat (65 + n)).toLower.toUpper = Char.ofNat (65 + n) := by
  decide

/-- What is a letter in lower case was that letter, in one case or the other. -/
theorem eq_or_eq_toUpper {c d : Char} (h : c.toLower = d) : c = d ∨ c = d.toUpper := by
  by_cases hc : 'A'.val ≤ c.val ∧ c.val ≤ 'Z'.val
  · have hA : 65 ≤ c.toNat := UInt32.le_iff_toNat_le.mp hc.1
    have hZ : c.toNat ≤ 90 := UInt32.le_iff_toNat_le.mp hc.2
    have hn := capital_eq (c.toNat - 65) (by omega)
    rw [Nat.add_sub_cancel' hA, Char.ofNat_toNat] at hn
    exact .inr (by rw [← h, hn])
  · exact .inl (by rwa [Char.toLower, dif_neg hc] at h)

/-- The ways to write a unit. -/
def spellings : TimeUnit → List (List Char)
  | .millisecond => [[], ['m', 's'], ['m', 'S'], ['M', 's'], ['M', 'S']]
  | .second => [['s'], ['S']]
  | .minute => [['m'], ['M']]
  | .hour => [['h'], ['H']]

theorem Names.mem_spellings {letters : List Char} {unit : TimeUnit} (h : Names letters unit) :
    letters ∈ spellings unit := by
  rcases h with h | ⟨rfl, rfl⟩
  · cases unit with
    | millisecond =>
      obtain ⟨c, rest, rfl, hc, h⟩ := List.map_eq_cons_iff.mp h
      obtain ⟨d, rfl, hd⟩ := List.map_eq_singleton_iff.mp h
      rcases eq_or_eq_toUpper hc with rfl | rfl <;> rcases eq_or_eq_toUpper hd with rfl | rfl <;>
        decide
    | _ =>
      obtain ⟨c, rfl, hc⟩ := List.map_eq_singleton_iff.mp h
      rcases eq_or_eq_toUpper hc with rfl | rfl <;> decide
  · decide

theorem unitOf_of_names {letters : List Char} {unit : TimeUnit} (h : Names letters unit) :
    unitOf (String.ofList letters) = .ok unit := by
  have h := h.mem_spellings
  cases unit <;> simp only [spellings, List.mem_cons, List.not_mem_nil, or_false] at h
  case millisecond => rcases h with rfl | rfl | rfl | rfl | rfl <;> rfl
  all_goals rcases h with rfl | rfl <;> rfl

theorem unitOf_of_isLookalike {letters : List Char} (h : IsLookalike letters) :
    unitOf (String.ofList letters) = .error .noMember := by
  rcases h with rfl | rfl | rfl <;> rfl

/-- What may stand behind the digits is a unit or looks like one. -/
theorem isUnitShaped_iff {letters : List Char} :
    isUnitShaped letters = true ↔ (∃ unit, Names letters unit) ∨ IsLookalike letters := by
  constructor
  · intro h
    match letters with
    | [] => exact .inl ⟨.millisecond, .inr ⟨rfl, rfl⟩⟩
    | [c] =>
      have hc : c ∈ ['m', 's', 'h', 'M', 'S', 'H', '\u017f'] := List.contains_iff_mem.mp h
      simp only [List.mem_cons, List.not_mem_nil, or_false] at hc
      rcases hc with rfl | rfl | rfl | rfl | rfl | rfl | rfl
      · exact .inl ⟨.minute, .inl rfl⟩
      · exact .inl ⟨.second, .inl rfl⟩
      · exact .inl ⟨.hour, .inl rfl⟩
      · exact .inl ⟨.minute, .inl rfl⟩
      · exact .inl ⟨.second, .inl rfl⟩
      · exact .inl ⟨.hour, .inl rfl⟩
      · exact .inr (.inl rfl)
    | [c, d] =>
      obtain ⟨hc, hd⟩ := Bool.and_eq_true_iff.mp h
      have hc : c ∈ ['m', 'M'] := List.contains_iff_mem.mp hc
      have hd : d ∈ ['s', 'S', '\u017f'] := List.contains_iff_mem.mp hd
      simp only [List.mem_cons, List.not_mem_nil, or_false] at hc hd
      rcases hc with rfl | rfl
      · rcases hd with rfl | rfl | rfl
        · exact .inl ⟨.millisecond, .inl rfl⟩
        · exact .inl ⟨.millisecond, .inl rfl⟩
        · exact .inr (.inr (.inl rfl))
      · rcases hd with rfl | rfl | rfl
        · exact .inl ⟨.millisecond, .inl rfl⟩
        · exact .inl ⟨.millisecond, .inl rfl⟩
        · exact .inr (.inr (.inr rfl))
  · rintro (⟨unit, h⟩ | rfl | rfl | rfl)
    · have shaped : ∀ letters ∈ spellings unit, isUnitShaped letters = true := by
        cases unit <;> decide
      exact shaped letters h.mem_spellings
    all_goals rfl

/-- A text with the shape of a duration. -/
structure IsDuration (text : String) (digits letters : List Char) : Prop where
  split : text.toList = digits ++ letters
  nonempty : digits ≠ []
  areDigits : ∀ c ∈ digits, isDigit c = true
  shape : (∃ unit, Names letters unit) ∨ IsLookalike letters

namespace IsDuration

variable {text : String} {digits letters : List Char}

/-- The digits end where the letters begin. -/
theorem isDigit_letters (h : IsDuration text digits letters) :
    ∀ c ∈ letters, isDigit c = false := by
  have hall : (letters.all fun c => !isDigit c) = true := by
    rcases h.shape with ⟨unit, hu⟩ | rfl | rfl | rfl
    · have other : ((spellings unit).all (·.all fun c => !isDigit c)) = true := by
        cases unit <;> decide
      exact List.all_eq_true.mp other letters hu.mem_spellings
    all_goals decide
  simpa using hall

theorem takeWhile_eq (h : IsDuration text digits letters) :
    text.toList.takeWhile isDigit = digits := by
  rw [h.split, List.takeWhile_append_of_pos h.areDigits]
  cases letters with
  | nil => simp
  | cons c rest => simp [h.isDigit_letters c]

theorem dropWhile_eq (h : IsDuration text digits letters) :
    text.toList.dropWhile isDigit = letters := by
  have whole : digits ++ text.toList.dropWhile isDigit = digits ++ letters := by
    rw [← h.split, ← h.takeWhile_eq, List.takeWhile_append_dropWhile]
  exact List.append_cancel_left whole

end IsDuration

/-! ### Reading -/

section

variable (value : Option String) (option : String) (standard : Option Quantity) (s : Session)

theorem outcome_ofExcept_some (e : Except Fault Quantity) (s : Session) :
    (do return some (← Desk.ofExcept e) : Desk (Option Quantity)).outcome s =
      (e.map some, s) := by
  cases e <;> rfl

/-- The complaint about a text that is no duration. -/
def unusable : Fault :=
  .complaint (.spoken s.lang .invalidDuration
    [("option", .str option), ("value", .str (Text.trim (value.getD "")))]
    (some .invalidDurationHint))

/-- What is read off the digits and the letters behind them. -/
def reading (digits letters : List Char) : Except Fault Quantity := do
  let n ← countOf digits
  if n = 0 then throw (unusable value option s)
  else inSeconds n (← unitOf (String.ofList letters))

theorem outcome_patience_of_blank (h : Text.trim (value.getD "") = "") :
    (patience value option standard).outcome s = (.ok standard, s) := by
  unfold patience
  rw [h]
  rfl

theorem outcome_patience_of_not (hb : Text.trim (value.getD "") ≠ "")
    (h : ∀ digits letters, ¬ IsDuration (Text.trim (value.getD "")) digits letters) :
    (patience value option standard).outcome s = (.error (unusable value option s), s) := by
  unfold patience unusable
  generalize Text.trim (value.getD "") = text at h hb ⊢
  have hn : (text.toList.takeWhile isDigit).isEmpty
      || !isUnitShaped (text.toList.dropWhile isDigit) := by
    by_contra hn
    simp only [Bool.or_eq_true, Bool.not_eq_true', not_or, Bool.not_eq_true,
      Bool.not_eq_false] at hn
    exact h _ _ ⟨List.takeWhile_append_dropWhile.symm, by simpa using hn.1,
      List.all_eq_true.mp List.all_takeWhile, isUnitShaped_iff.mp hn.2⟩
  rw [if_neg (by simpa using hb), if_pos hn]
  rfl

theorem outcome_patience_of_isDuration {digits letters : List Char}
    (h : IsDuration (Text.trim (value.getD "")) digits letters) :
    (patience value option standard).outcome s =
      ((reading value option s digits letters).map some, s) := by
  unfold patience reading unusable
  generalize Text.trim (value.getD "") = text at h ⊢
  have hb : text ≠ "" := by
    rintro rfl
    exact h.nonempty (List.append_eq_nil_iff.mp h.split.symm).1
  have hn : ¬ (digits.isEmpty || !isUnitShaped letters) := by
    simp [h.nonempty, isUnitShaped_iff.mpr h.shape]
  rw [if_neg (by simpa using hb), h.takeWhile_eq, h.dropWhile_eq, if_neg hn]
  -- both sides refuse a zero by the same test, which only reduces on a number of known form
  cases countOf digits with
  | error f => rfl
  | ok n =>
    cases n with
    | zero => rfl
    | succ n => exact outcome_ofExcept_some _ s

theorem countOf_of_isDuration {text : String} {digits letters : List Char}
    (h : IsDuration text digits letters) :
    countOf digits =
      if maxDigits < digits.length then .error .badValue else .ok (natOfDigits 0 digits) := by
  have hd : ¬ (digits.isEmpty || !digits.all isDigit) := by
    simp [h.nonempty, List.all_eq_true.mpr h.areDigits]
  unfold countOf natOfDigits?
  rw [if_neg hd]
  by_cases hl : maxDigits < digits.length
  · rw [if_pos hl, if_pos hl]
  · rw [if_neg hl, if_neg hl]

theorem reading_eq {text : String} {digits letters : List Char}
    (h : IsDuration text digits letters) :
    reading value option s digits letters =
      if maxDigits < digits.length then .error .badValue
      else if natOfDigits 0 digits = 0 then .error (unusable value option s)
      else (unitOf (String.ofList letters)).bind (inSeconds (natOfDigits 0 digits)) := by
  rw [reading, countOf_of_isDuration h]
  by_cases hl : maxDigits < digits.length
  · rw [if_pos hl, if_pos hl]
    rfl
  · rw [if_neg hl, if_neg hl]
    rfl

/-- A text is either blank, or complained about because it is no duration or none of any length,
or read, or it is a duration with too many digits, with a letter that only looks like an s, or
with more milliseconds than any double.  A text that is read gives the value of its digits in its
unit, and that is positive.  Nothing else happens in the session. -/
theorem patience_settles :
    let text := Text.trim (value.getD "")
    let read := patience value option standard
    let refused := unusable value option s
    (text = "" → read.Yields s standard s) ∧
    (text ≠ "" → (∀ digits letters, ¬ IsDuration text digits letters) → read.Fails s refused s) ∧
    ∀ digits letters, IsDuration text digits letters →
      (maxDigits < digits.length → read.Fails s .badValue s) ∧
      (digits.length ≤ maxDigits →
        let n := natOfDigits 0 digits
        (n = 0 → read.Fails s refused s) ∧
        (0 < n → IsLookalike letters → read.Fails s .noMember s) ∧
        ∀ unit, 0 < n → Names letters unit →
          (worth n unit = none → read.Fails s .tooLarge s) ∧
          ∀ q, worth n unit = some q → q.isPositive = true ∧ read.Yields s (some q) s) := by
  refine ⟨outcome_patience_of_blank value option standard s,
    outcome_patience_of_not value option standard s, fun digits letters h => ?_⟩
  have read := outcome_patience_of_isDuration value option standard s h
  rw [reading_eq value option s h] at read
  constructor
  · intro hl
    rw [if_pos hl] at read
    exact read
  intro hl
  rw [if_neg (by omega)] at read
  intro n
  -- a number that is zero is refused before its unit is looked up
  refine ⟨fun hz => ?_, fun hn hs => ?_, fun unit hn hu => ?_⟩
  · rw [if_pos hz] at read
    exact read
  · rw [if_neg (by omega), unitOf_of_isLookalike hs] at read
    exact read
  · rw [if_neg (by omega), unitOf_of_names hu, Except.bind, inSeconds_eq] at read
    refine ⟨fun hw => ?_, fun q hw => ⟨worth_pos hn hw, ?_⟩⟩
    · rw [hw] at read
      exact read
    · rw [hw] at read
      exact read

end

/-- Five seconds, written with a capital and blanks around them. -/
theorem isDuration_five : IsDuration (Text.trim ((some " 5S ").getD "")) ['5'] ['S'] where
  split := by decide
  nonempty := by decide
  areDigits := List.forall_mem_singleton.mpr (by decide)
  shape := .inl ⟨.second, .inl rfl⟩

/-- Five, with a letter that only looks like an s. -/
theorem isDuration_five_long : IsDuration (Text.trim ((some "5\u017f").getD "")) ['5']
    ['\u017f'] where
  split := by decide
  nonempty := by decide
  areDigits := List.forall_mem_singleton.mpr (by decide)
  shape := .inr (.inl rfl)

/-- A one and so many zeros. -/
def oneAndZeros (k : Nat) : List Char := '1' :: List.replicate k '0'

theorem length_oneAndZeros (k : Nat) : (oneAndZeros k).length = k + 1 := by
  rw [oneAndZeros, List.length_cons, List.length_replicate]

theorem digit_of_mem_oneAndZeros {k : Nat} : ∀ c ∈ oneAndZeros k,
    isDigit c = true ∧ Text.isBlank c = false := by
  intro c hc
  rcases List.mem_cons.mp hc with rfl | hc
  · decide
  · rw [List.eq_of_mem_replicate hc]
    decide

/-- A one and zeros behind it, in milliseconds. -/
theorem isDuration_oneAndZeros (k : Nat) :
    IsDuration (Text.trim ((some (String.ofList (oneAndZeros k))).getD "")) (oneAndZeros k) [] where
  split := by
    have trimmed : Text.trim (String.ofList (oneAndZeros k)) = String.ofList (oneAndZeros k) := by
      rw [Text.trim_eq_self_iff, String.toList_ofList, Text.trimChars_eq_self_iff]
      constructor
      · intro h
        obtain ⟨c, hc, hb⟩ := Option.map_eq_some_iff.mp h
        have hd := digit_of_mem_oneAndZeros c (List.mem_of_head? hc)
        exact Bool.false_ne_true (hd.2.symm.trans hb)
      · intro h
        obtain ⟨c, hc, hb⟩ := Option.map_eq_some_iff.mp h
        have hd := digit_of_mem_oneAndZeros c (List.mem_of_getLast? hc)
        exact Bool.false_ne_true (hd.2.symm.trans hb)
    rw [Option.getD_some, trimmed, String.toList_ofList, List.append_nil]
  nonempty := List.cons_ne_nil _ _
  areDigits := fun c hc => (digit_of_mem_oneAndZeros c hc).1
  shape := .inl ⟨.millisecond, .inr ⟨rfl, rfl⟩⟩

/-- Five seconds are read; when the s is long, no unit is found; a one with 309 zeros has no
nearest double, and one with 4300 zeros has too many digits. -/
theorem five_read_and_three_unread :
    (patience (some " 5S ") "timeout" none).Yields {} (some (.whole 5)) {} ∧
      (patience (some "5\u017f") "timeout" none).Fails {} .noMember {} ∧
      (patience (some (String.ofList (oneAndZeros 309))) "timeout" none).Fails {} .tooLarge {} ∧
      (patience (some (String.ofList (oneAndZeros 4300))) "timeout" none).Fails {} .badValue
        {} := by
  have hread := ((patience_settles (some " 5S ") "timeout" none {}).2.2 _ _ isDuration_five).2
    (by decide)
  have hlong := ((patience_settles (some "5\u017f") "timeout" none {}).2.2 _ _
    isDuration_five_long).2 (by decide)
  have hlarge := ((patience_settles _ "timeout" none {}).2.2 _ _ (isDuration_oneAndZeros 309)).2
    (by rw [length_oneAndZeros]; decide)
  have hmany := ((patience_settles _ "timeout" none {}).2.2 _ _ (isDuration_oneAndZeros 4300)).1
    (by rw [length_oneAndZeros]; decide)
  have heavy : worth (natOfDigits 0 (oneAndZeros 309)) .millisecond = none := by
    rw [worth_millisecond_eq_none_iff]
    decide +kernel
  exact ⟨((hread.2.2 .second (by decide) (.inl rfl)).2 _ rfl).2,
    hlong.2.1 (by decide) (.inl rfl),
    (hlarge.2.2 .millisecond (by decide +kernel) (.inr ⟨rfl, rfl⟩)).1 heavy, hmany⟩

/-- A text may fail to be read other than by a complaint. -/
theorem not_always_complaint : ¬ ∀ (value : Option String) (option : String)
    (standard : Option Quantity) (s : Session),
    (∃ q, (patience value option standard).Yields s q s) ∨
      ∃ c, (patience value option standard).Fails s (.complaint c) s := by
  intro h
  have hlong := outcome_patience_of_isDuration _ "timeout" none {} isDuration_five_long
  rcases h (some "5\u017f") "timeout" none {} with ⟨q, hq⟩ | ⟨c, hc⟩
  · cases hlong.symm.trans hq
  · cases hlong.symm.trans hc

end BuildDesk.Command
