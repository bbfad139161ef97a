/-
Numbers as they are written and read.

A whole number is written with its digits, and is read as the same number.  The text of a
double has a point or an exponent, or is a word; the reader takes it for a double again, and
takes all of it.  Which double that is does not matter here: only a full name that is no text may
have one inside.

* `IsDecimal` — a whole part with a fraction, an exponent or both;
* `isDecimal_shortest` — the digits of a double are written so;
* `readScalar_int`, `readScalar_float` — what the reader makes of a number.
-/
import BuildDesk.Json.Printer
import BuildDesk.Json.Reader
import Mathlib.Data.List.DropRight

namespace BuildDesk.Json

/-! ### Digits -/

/-- Digits, at least one. -/
structure IsDigits (s : List Char) : Prop where
  proper : s ≠ []
  digits : ∀ c ∈ s, isDigit c = true

/-- No digit stands at the head. -/
def NoDigit (rest : List Char) : Prop := ∀ c ∈ rest.head?, isDigit c = false

/-- A number that stands before these characters ends there. -/
def EndsNumber (rest : List Char) : Prop :=
  ∀ c ∈ rest.head?, isDigit c = false ∧ c ≠ '.' ∧ c ≠ 'e' ∧ c ≠ 'E'

theorem endsNumber_nil : EndsNumber [] := by simp [EndsNumber]

theorem EndsNumber.noDigit {rest : List Char} (h : EndsNumber rest) : NoDigit rest :=
  fun c hc => (h c hc).1

theorem noDigit_cons {c : Char} {rest : List Char} (h : isDigit c = false) :
    NoDigit (c :: rest) := by
  intro d hd
  obtain rfl := Option.some.inj hd
  exact h

theorem takeWhile_digits {digits rest : List Char} (h : ∀ c ∈ digits, isDigit c = true)
    (hrest : NoDigit rest) : (digits ++ rest).takeWhile isDigit = digits := by
  rw [List.takeWhile_append_of_pos h]
  cases rest with
  | nil => rw [List.takeWhile_nil, List.append_nil]
  | cons c rest => rw [List.takeWhile_cons_of_neg (by simp [hrest c rfl]), List.append_nil]

theorem dropWhile_digits {digits rest : List Char} (h : ∀ c ∈ digits, isDigit c = true)
    (hrest : NoDigit rest) : (digits ++ rest).dropWhile isDigit = rest := by
  rw [List.dropWhile_append_of_pos h]
  cases rest with
  | nil => rw [List.dropWhile_nil]
  | cons c rest => rw [List.dropWhile_cons_of_neg (by simp [hrest c rfl])]

theorem isDigits_toDigits (n : Nat) : IsDigits (Nat.toDigits 10 n) where
  proper := Nat.toDigits_ne_nil
  digits := fun _ hc => Nat.isDigit_of_mem_toDigits (by decide) (by decide) hc

theorem isDigits_zero : IsDigits ['0'] :=
  ⟨List.cons_ne_nil _ _, List.forall_mem_singleton.mpr rfl⟩

/-! ### Parts of a number -/

/-- A single zero, or digits with no zero at the front. -/
def IsWholePart (s : List Char) : Prop :=
  s = ['0'] ∨ ∃ c digits, s = c :: digits ∧ c ≠ '0' ∧ IsDigits s

/-- Nothing, or a point with digits. -/
def IsFraction (s : List Char) : Prop := s = [] ∨ ∃ digits, s = '.' :: digits ∧ IsDigits digits

/-- Nothing, or an exponent with a sign. -/
def IsExponent (s : List Char) : Prop :=
  s = [] ∨ ∃ sign digits, s = 'e' :: sign :: digits ∧ (sign = '+' ∨ sign = '-') ∧ IsDigits digits

/-- A whole part with a fraction, an exponent or both. -/
def IsDecimal (s : List Char) : Prop :=
  ∃ whole fraction exponent, s = whole ++ (fraction ++ exponent) ∧ IsWholePart whole
    ∧ IsFraction fraction ∧ IsExponent exponent ∧ (fraction ≠ [] ∨ exponent ≠ [])

theorem IsWholePart.digits {s : List Char} (h : IsWholePart s) : IsDigits s := by
  rcases h with rfl | ⟨c, digits, -, -, hdigits⟩
  · exact isDigits_zero
  · exact hdigits

theorem isWholePart_toDigits (n : Nat) : IsWholePart (Nat.toDigits 10 n) := by
  -- the digit in front is that of `n / 10`, as long as there is one
  induction n using Nat.strongRecOn with
  | ind n ih =>
    by_cases hzero : n = 0
    · rw [hzero]
      exact .inl rfl
    · right
      by_cases hsmall : n < 10
      · have hfront : ∀ k < 10, k ≠ 0 → Nat.digitChar k ≠ '0' := by decide
        refine ⟨n.digitChar, [], Nat.toDigits_of_lt_base hsmall, hfront n hsmall hzero, ?_⟩
        exact isDigits_toDigits n
      · have hsplit := Nat.toDigits_of_base_le (b := 10) (by decide) (Nat.le_of_not_lt hsmall)
        rcases ih (n / 10) (by omega) with hfront | ⟨c, digits, hfront, hc, -⟩
        · have hback := Nat.ofDigitChars_ten_toDigits (n := n / 10)
          rw [hfront] at hback
          have hpos : n / 10 ≠ 0 := by omega
          exact absurd hback.symm hpos
        · refine ⟨c, digits ++ [(n % 10).digitChar], ?_, hc, isDigits_toDigits n⟩
          rw [hsplit, hfront, List.cons_append]

theorem wholePart_append {whole rest : List Char} (h : IsWholePart whole) (hrest : NoDigit rest) :
    wholePart (whole ++ rest) = some (whole, rest) := by
  rcases h with rfl | ⟨c, digits, rfl, hc, hdigits⟩
  · rfl
  · rw [wholePart]
    · rw [takeWhile_digits hdigits.digits hrest, dropWhile_digits hdigits.digits hrest]
      rfl
    · intro rest' heq
      exact hc (List.cons.inj heq).1

/-- Neither a digit nor a point stands at the head. -/
def EndsFraction (rest : List Char) : Prop := ∀ c ∈ rest.head?, isDigit c = false ∧ c ≠ '.'

theorem EndsNumber.endsFraction {rest : List Char} (h : EndsNumber rest) : EndsFraction rest :=
  fun c hc => ⟨(h c hc).1, (h c hc).2.1⟩

theorem EndsFraction.noDigit {rest : List Char} (h : EndsFraction rest) : NoDigit rest :=
  fun c hc => (h c hc).1

/-- What is read of a fraction does not depend on what follows it. -/
theorem IsFraction.read {s : List Char} (h : IsFraction s) :
    ∃ digits, (digits = [] ↔ s = []) ∧
      ∀ rest, EndsFraction rest → fractionPart (s ++ rest) = (digits, rest) := by
  rcases h with rfl | ⟨digits, rfl, hdigits⟩
  · refine ⟨[], iff_of_true rfl rfl, fun rest hrest => ?_⟩
    rw [List.nil_append]
    unfold fractionPart
    split
    · exact absurd rfl (hrest '.' rfl).2
    · rfl
  · refine ⟨digits, iff_of_false hdigits.proper (List.cons_ne_nil _ _), fun rest hrest => ?_⟩
    rw [List.cons_append, fractionPart]
    simp only [takeWhile_digits hdigits.digits hrest.noDigit,
      dropWhile_digits hdigits.digits hrest.noDigit, List.isEmpty_iff, hdigits.proper, if_false]

/-- What is read of an exponent does not depend on what follows it. -/
theorem IsExponent.read {s : List Char} (h : IsExponent s) :
    ∃ e, (e = none ↔ s = []) ∧ ∀ rest, EndsNumber rest → exponentPart (s ++ rest) = (e, rest) := by
  rcases h with rfl | ⟨sign, digits, rfl, hsign, hdigits⟩
  · refine ⟨none, iff_of_true rfl rfl, fun rest hrest => ?_⟩
    cases rest with
    | nil => rfl
    | cons c rest =>
      obtain ⟨-, -, hlow, hhigh⟩ := hrest c rfl
      simp [exponentPart, hlow, hhigh]
  · refine ⟨some (if sign = '-' then -(natOf digits : Int) else natOf digits),
      iff_of_false (Option.some_ne_none _) (List.cons_ne_nil _ _), fun rest hrest => ?_⟩
    have htaken := takeWhile_digits hdigits.digits hrest.noDigit
    have hleft := dropWhile_digits hdigits.digits hrest.noDigit
    rcases hsign with rfl | rfl
    · simp [exponentPart, htaken, hleft, hdigits.proper]
    · simp [exponentPart, htaken, hleft, hdigits.proper]

theorem IsExponent.endsFraction {s rest : List Char} (h : IsExponent s) (hrest : EndsNumber rest) :
    EndsFraction (s ++ rest) := by
  rcases h with rfl | ⟨sign, digits, rfl, -, -⟩
  · exact hrest.endsFraction
  · intro c hc
    obtain rfl := Option.some.inj hc
    decide

theorem IsFraction.noDigit {s rest : List Char} (h : IsFraction s) (hrest : NoDigit rest) :
    NoDigit (s ++ rest) := by
  rcases h with rfl | ⟨digits, rfl, -⟩
  · exact hrest
  · exact noDigit_cons (by decide)

/-! ### Numbers after their sign -/

theorem readNumber_whole {whole rest : List Char} (h : IsWholePart whole)
    (hlength : whole.length ≤ Text.maxDigits) (hrest : EndsNumber rest) (negative : Bool) :
    readNumber negative (whole ++ rest)
      = .ok (.int (if negative then -(natOf whole : Int) else natOf whole), rest) := by
  obtain ⟨digits, hdigits, hfraction⟩ := IsFraction.read (.inl rfl)
  obtain ⟨e, he, hexponent⟩ := IsExponent.read (.inl rfl)
  obtain rfl := hdigits.mpr rfl
  obtain rfl := he.mpr rfl
  have hpoint : fractionPart rest = ([], rest) := hfraction rest hrest.endsFraction
  have hletter : exponentPart rest = (none, rest) := hexponent rest hrest
  rw [readNumber, wholePart_append h hrest.noDigit]
  dsimp only
  rw [hpoint]
  dsimp only
  rw [hletter]
  simp only [List.isEmpty_nil, Option.isNone_none, Bool.and_self, if_true,
    if_neg (Nat.not_lt.mpr hlength)]

/-- A number with a fraction or an exponent is read as one and the same double, whatever
follows it. -/
theorem readNumber_decimal {s : List Char} (h : IsDecimal s) (negative : Bool) :
    ∃ y, ∀ rest, EndsNumber rest → readNumber negative (s ++ rest) = .ok (.float y, rest) := by
  obtain ⟨whole, fraction, exponent, rfl, hwhole, hfraction, hexponent, hsome⟩ := h
  obtain ⟨digits, hdigits, hreadFraction⟩ := hfraction.read
  obtain ⟨e, he, hreadExponent⟩ := hexponent.read
  have hfloat : (digits.isEmpty && e.isNone) = false := by
    rw [Bool.and_eq_false_iff, ← Bool.not_eq_true, ← Bool.not_eq_true, List.isEmpty_iff,
      Option.isNone_iff_eq_none, hdigits, he]
    exact hsome
  refine ⟨floatOf negative (whole ++ digits) (e.getD 0 - digits.length), fun rest hrest => ?_⟩
  have hends := hexponent.endsFraction hrest
  rw [List.append_assoc, List.append_assoc, readNumber,
    wholePart_append hwhole (hfraction.noDigit hends.noDigit)]
  dsimp only
  rw [hreadFraction _ hends]
  dsimp only
  rw [hreadExponent _ hrest, hfloat]
  rfl

/-! ### Numbers as they are written -/

theorem dropZeros_eq (digits : List Char) :
    Number.dropZeros digits = digits.rdropWhile (· == '0') := rfl

/-- The shortest digits of a double: none for a zero, and else no zero in front. -/
theorem digits_shortest (p : Number.Parts) :
    ((Number.shortest p).digits = [] ∧ (Number.shortest p).point = 1)
      ∨ ∃ c rest, (Number.shortest p).digits = c :: rest ∧ c ≠ '0'
        ∧ ∀ d ∈ c :: rest, isDigit d = true := by
  have hdigits : ∀ n : Nat, n ≠ 0 → ∃ c rest, Number.dropZeros (Nat.toDigits 10 n) = c :: rest
      ∧ c ≠ '0' ∧ ∀ d ∈ c :: rest, isDigit d = true := by
    intro n hn
    rcases isWholePart_toDigits n with hzero | ⟨c, rest, hsplit, hc, hall⟩
    · have hback := Nat.ofDigitChars_ten_toDigits (n := n)
      rw [hzero] at hback
      exact absurd hback.symm hn
    · rw [hsplit] at hall ⊢
      have hpre : Number.dropZeros (c :: rest) <+: c :: rest := List.rdropWhile_prefix _ _
      rcases hleft : Number.dropZeros (c :: rest) with _ | ⟨d, kept⟩
      · rw [dropZeros_eq, List.rdropWhile_eq_nil_iff] at hleft
        exact absurd (beq_iff_eq.mp (hleft c List.mem_cons_self)) hc
      · rw [hleft, List.cons_prefix_cons] at hpre
        obtain ⟨rfl, hkept⟩ := hpre
        refine ⟨d, kept, rfl, hc, fun e hmem => hall.digits e ?_⟩
        rcases List.mem_cons.mp hmem with rfl | hmem
        · exact List.mem_cons_self
        · exact List.mem_cons_of_mem _ (hkept.subset hmem)
  unfold Number.shortest
  dsimp only
  generalize htried : (List.range 17).findSome? _ = tried
  rcases tried with _ | ⟨n, scale⟩
  · -- no grid has a hit
    generalize (Number.interval p).value / (Number.interval p).den = n
    by_cases hn : n = 0
    · rw [hn]
      exact .inl ⟨rfl, rfl⟩
    · exact .inr (hdigits n hn)
  · -- a hit is a positive number
    obtain ⟨k, -, hk⟩ := List.exists_of_findSome?_eq_some htried
    obtain ⟨m, hhit, heq⟩ := Option.map_eq_some_iff.mp hk
    obtain ⟨rfl, -⟩ := Prod.mk.inj heq
    have hpos := List.find?_some hhit
    rw [Bool.and_eq_true, decide_eq_true_eq] at hpos
    exact .inr (hdigits m (by omega))

theorem isDecimal_zero : IsDecimal ['0', '.', '0'] :=
  ⟨['0'], ['.', '0'], [], rfl, .inl rfl, .inr ⟨['0'], rfl, isDigits_zero⟩, .inl rfl,
    .inl (List.cons_ne_nil _ _)⟩

/-- A decimal of such digits has a fraction or an exponent. -/
theorem isDecimal_text {d : Number.Decimal} (h : (d.digits = [] ∧ d.point = 1)
    ∨ ∃ c rest, d.digits = c :: rest ∧ c ≠ '0' ∧ ∀ e ∈ c :: rest, isDigit e = true) :
    IsDecimal d.text := by
  obtain ⟨digits, point⟩ := d
  dsimp only at h
  rcases h with ⟨rfl, rfl⟩ | ⟨c, rest, rfl, hc, hdigits⟩
  · exact isDecimal_zero
  · have hzeros : ∀ n, ∀ e ∈ List.replicate n '0', isDigit e = true := by
      intro n e he
      rw [List.eq_of_mem_replicate he]
      decide
    unfold Number.Decimal.text
    dsimp only
    split
    · split
      · -- all digits stand behind the point
        refine ⟨['0'], '.' :: (List.replicate (-point).toNat '0' ++ c :: rest), [], ?_, .inl rfl,
          .inr ⟨_, rfl, by simp, ?_⟩, .inl rfl, .inl (List.cons_ne_nil _ _)⟩
        · simp
        · exact fun e he => (List.mem_append.mp he).elim (hzeros _ e) (hdigits e)
      · -- the point stands among the digits, or behind them
        rename_i hpoint
        obtain ⟨k, hk⟩ : ∃ k, point.toNat = k + 1 := ⟨point.toNat - 1, by omega⟩
        rw [hk, List.take_succ_cons, List.drop_succ_cons]
        have hwhole : ∀ n, IsWholePart (c :: rest.take k ++ List.replicate n '0') := by
          intro n
          refine .inr ⟨c, rest.take k ++ List.replicate n '0', rfl, hc, List.cons_ne_nil _ _, ?_⟩
          intro e he
          rcases List.mem_append.mp he with he | he
          · refine hdigits e ?_
            rcases List.mem_cons.mp he with rfl | he
            · exact List.mem_cons_self
            · exact List.mem_cons_of_mem _ (List.mem_of_mem_take he)
          · exact hzeros _ e he
        refine ⟨_, _, [], by rw [List.append_nil], hwhole _, .inr ⟨_, rfl, ?_⟩, .inl rfl,
          .inl (List.cons_ne_nil _ _)⟩
        split
        · exact isDigits_zero
        · rename_i hleft
          refine ⟨by rwa [List.isEmpty_iff] at hleft, fun e he => hdigits e ?_⟩
          exact List.mem_cons_of_mem _ (List.mem_of_mem_drop he)
    · -- one digit, the others behind the point, and the exponent
      refine ⟨[c], if rest.isEmpty then [] else '.' :: rest, 'e' :: Number.exponentText (point - 1),
        rfl, .inr ⟨c, [], rfl, hc, List.cons_ne_nil _ _, ?_⟩, ?_, .inr ?_,
        .inr (List.cons_ne_nil _ _)⟩
      · exact fun e he => hdigits e (List.mem_singleton.mp he ▸ List.mem_cons_self)
      · split
        · exact .inl rfl
        · rename_i hleft
          exact .inr ⟨rest, rfl, by rwa [List.isEmpty_iff] at hleft,
            fun e he => hdigits e (List.mem_cons_of_mem _ he)⟩
      · have hpower := isDigits_toDigits (point - 1).natAbs
        have hpadded : IsDigits ('0' :: Nat.toDigits 10 (point - 1).natAbs) :=
          ⟨List.cons_ne_nil _ _, List.forall_mem_cons.mpr ⟨by decide, hpower.digits⟩⟩
        refine ⟨_, _, rfl, ?_, ?_⟩
        · split
          · exact .inr rfl
          · exact .inl rfl
        · split
          · exact hpadded
          · exact hpower

/-- The text of a double that is a number: a decimal, with a sign when it is negative. -/
theorem format_finite {x : Float} (hnan : x.isNaN = false) (hinf : x.isInf = false) :
    ∃ size, IsDecimal size ∧ ((Number.format x).toList = size
      ∨ (Number.format x).toList = '-' :: size) := by
  refine ⟨if (Number.parts x).significand == 0 then ['0', '.', '0']
    else (Number.shortest (Number.parts x)).text, ?_, ?_⟩
  · split
    · exact isDecimal_zero
    · exact isDecimal_text (digits_shortest _)
  · unfold Number.format
    simp only [hnan, hinf, Bool.false_eq_true, if_false, String.toList_ofList]
    split
    · exact .inr rfl
    · exact .inl rfl

/-! ### Scalars -/

theorem after?_of_ne {c d : Char} (h : c ≠ d) (word s : List Char) :
    after? (c :: word) (d :: s) = none := by
  have hhead : (c == d) = false := beq_false_of_ne h
  simp [after?, List.isPrefixOf, hhead]

/-- What begins with none of the words is a number. -/
theorem readScalar_of_words {s : List Char}
    (h : ∀ word ∈ ["null", "true", "false", "NaN", "Infinity", "-Infinity"],
      after? word.toList s = none) :
    readScalar s = if s.head? = some '-' then readNumber true s.tail else readNumber false s := by
  simp only [List.forall_mem_cons] at h
  obtain ⟨hnull, htrue, hfalse, hnan, hinf, hminus, -⟩ := h
  unfold readScalar
  simp only [List.findSome?_cons, List.findSome?_nil, hnull, htrue, hfalse, hnan, hinf, hminus,
    Option.map_none]
  split
  · rfl
  · rename_i hsign
    rw [if_neg]
    intro hhead
    obtain ⟨rest, hrest⟩ := List.head?_eq_some_iff.mp hhead
    exact hsign rest hrest

/-- A digit at the head begins a number. -/
theorem readScalar_digit {c : Char} (h : isDigit c = true) (s : List Char) :
    readScalar (c :: s) = readNumber false (c :: s) := by
  have hne : ∀ d, isDigit d = false → d ≠ c := by
    rintro d hd rfl
    rw [h] at hd
    cases hd
  have hsign : ¬ (c :: s).head? = some '-' := fun hhead =>
    hne '-' (by decide) (Option.some.inj hhead).symm
  rw [readScalar_of_words, if_neg hsign]
  intro word hword
  simp only [List.mem_cons, List.not_mem_nil, or_false] at hword
  rcases hword with rfl | rfl | rfl | rfl | rfl | rfl
  all_goals exact after?_of_ne (hne _ (by decide)) _ _

/-- A digit after a sign begins a number too. -/
theorem readScalar_minus {c : Char} (h : isDigit c = true) (s : List Char) :
    readScalar ('-' :: c :: s) = readNumber true (c :: s) := by
  have hletter : ('I' == c) = false := by
    refine beq_false_of_ne ?_
    rintro rfl
    exact absurd h (by decide)
  have hinf : after? ('-' :: 'I' :: "nfinity".toList) ('-' :: c :: s) = none := by
    simp only [after?, List.isPrefixOf, hletter, Bool.false_and, Bool.and_false,
      Bool.false_eq_true, if_false]
  rw [readScalar_of_words, if_pos List.head?_cons]
  · rfl
  · intro word hword
    simp only [List.mem_cons, List.not_mem_nil, or_false] at hword
    rcases hword with rfl | rfl | rfl | rfl | rfl | rfl
    case inr.inr.inr.inr.inr => exact hinf
    all_goals exact after?_of_ne (by decide) _ _

theorem IsDecimal.head {s : List Char} (h : IsDecimal s) :
    ∃ c chars, s = c :: chars ∧ isDigit c = true := by
  obtain ⟨whole, fraction, exponent, rfl, hwhole, -⟩ := h
  obtain ⟨hproper, hdigits⟩ := hwhole.digits
  cases whole with
  | nil => exact absurd rfl hproper
  | cons c whole => exact ⟨c, _, rfl, hdigits c List.mem_cons_self⟩

/-- The double that is read from the text of a double. -/
def rereadFloat (x : Float) : Float :=
  match readScalar (floatText x).toList with
  | .ok (.float y, _) => y
  | _ => x

/-- The text of a double is read as a double, up to its end. -/
theorem readScalar_float (x : Float) {rest : List Char} (hrest : EndsNumber rest) :
    readScalar ((floatText x).toList ++ rest) = .ok (.float (rereadFloat x), rest) := by
  have hread : ∃ y, ∀ rest, EndsNumber rest →
      readScalar ((floatText x).toList ++ rest) = .ok (.float y, rest) := by
    unfold floatText
    split
    · exact ⟨_, fun rest _ => rfl⟩
    · split
      · split
        · exact ⟨_, fun rest _ => rfl⟩
        · exact ⟨_, fun rest _ => rfl⟩
      · rename_i hnan hinf
        rw [Bool.not_eq_true] at hnan hinf
        obtain ⟨size, hsize, htext⟩ := format_finite hnan hinf
        obtain ⟨c, chars, hchars, hc⟩ := hsize.head
        rcases htext with htext | htext
        · obtain ⟨y, hy⟩ := readNumber_decimal hsize false
          refine ⟨y, fun rest hrest => ?_⟩
          rw [htext, hchars, List.cons_append, readScalar_digit hc, ← hy rest hrest, hchars]
          rfl
        · obtain ⟨y, hy⟩ := readNumber_decimal hsize true
          refine ⟨y, fun rest hrest => ?_⟩
          rw [htext, hchars, List.cons_append, List.cons_append, readScalar_minus hc,
            ← hy rest hrest, hchars]
          rfl
  obtain ⟨y, hy⟩ := hread
  have halone := hy [] endsNumber_nil
  rw [List.append_nil] at halone
  -- the equation that unfolds `rereadFloat` takes long to prove
  have hsame : rereadFloat x = y := by
    delta rereadFloat
    rw [halone]
  rw [hy rest hrest, hsame]

theorem natOf_toDigits (n : Nat) : natOf (Nat.toDigits 10 n) = n := by
  show Nat.ofDigitChars 10 (Nat.toDigits 10 n) 0 = n
  exact Nat.ofDigitChars_ten_toDigits

/-- The digits of a whole number. -/
theorem toList_toString (n : Int) : (toString n).toList
    = if 0 ≤ n then Nat.toDigits 10 n.natAbs else '-' :: Nat.toDigits 10 n.natAbs := by
  cases n with
  | ofNat k =>
    rw [if_pos (show 0 ≤ Int.ofNat k from Int.natCast_nonneg k)]
    show (Nat.repr k).toList = Nat.toDigits 10 k
    rw [Nat.repr_eq_ofList_toDigits, String.toList_ofList]
  | negSucc k =>
    rw [if_neg (by omega)]
    show ("-" ++ Nat.repr (k + 1)).toList = '-' :: Nat.toDigits 10 (k + 1)
    rw [Nat.repr_eq_ofList_toDigits, String.toList_append, String.toList_ofList,
      String.toList_ofList]
    rfl

/-- A whole number with few digits is read back. -/
theorem readScalar_int {n : Int} (h : (Nat.toDigits 10 n.natAbs).length ≤ Text.maxDigits)
    {rest : List Char} (hrest : EndsNumber rest) :
    readScalar ((toString n).toList ++ rest) = .ok (.int n, rest) := by
  have hwhole := isWholePart_toDigits n.natAbs
  obtain ⟨hproper, hdigits⟩ := hwhole.digits
  have hnumber := fun negative => readNumber_whole hwhole h hrest negative
  rw [natOf_toDigits] at hnumber
  rcases hsplit : Nat.toDigits 10 n.natAbs with _ | ⟨c, chars⟩
  · exact absurd hsplit hproper
  · rw [hsplit] at hnumber hdigits
    have hc := hdigits c List.mem_cons_self
    rw [toList_toString, hsplit]
    by_cases hn : 0 ≤ n
    · have hback : (n.natAbs : Int) = n := Int.natAbs_of_nonneg hn
      rw [if_pos hn, List.cons_append, readScalar_digit hc, ← List.cons_append, hnumber,
        if_neg Bool.false_ne_true, hback]
    · have hback : -(n.natAbs : Int) = n := by omega
      rw [if_neg hn, List.cons_append, List.cons_append, readScalar_minus hc, ← List.cons_append,
        hnumber, if_pos rfl, hback]

/-! ### Characters of numbers -/

theorem ascii_of_isDigit {c : Char} (h : isDigit c = true) : c.toNat < 128 := by
  have hrange : c.toNat ≤ '9'.toNat := (Char.isDigit_iff_toNat.mp h).2
  have hnine : '9'.toNat = 57 := rfl
  omega

theorem IsDecimal.ascii {s : List Char} (h : IsDecimal s) : ∀ c ∈ s, c.toNat < 128 := by
  obtain ⟨whole, fraction, exponent, rfl, hwhole, hfraction, hexponent, -⟩ := h
  have hdigits : ∀ {t : List Char}, IsDigits t → ∀ c ∈ t, c.toNat < 128 :=
    fun ht c hc => ascii_of_isDigit (ht.digits c hc)
  refine List.forall_mem_append.mpr ⟨hdigits hwhole.digits, List.forall_mem_append.mpr ⟨?_, ?_⟩⟩
  · rcases hfraction with rfl | ⟨digits, rfl, hpart⟩
    · exact List.forall_mem_nil _
    · exact List.forall_mem_cons.mpr ⟨by decide, hdigits hpart⟩
  · rcases hexponent with rfl | ⟨sign, digits, rfl, hsign, hpart⟩
    · exact List.forall_mem_nil _
    · refine List.forall_mem_cons.mpr ⟨by decide, List.forall_mem_cons.mpr ⟨?_, hdigits hpart⟩⟩
      rcases hsign with rfl | rfl
      · decide
      · decide

theorem ascii_of_all {s : List Char} (h : s.all (·.toNat < 128) = true) :
    ∀ c ∈ s, c.toNat < 128 :=
  fun c hc => of_decide_eq_true (List.all_eq_true.mp h c hc)

theorem ascii_floatText (x : Float) : ∀ c ∈ (floatText x).toList, c.toNat < 128 := by
  unfold floatText
  split
  · exact ascii_of_all (by decide)
  · split
    · split
      · exact ascii_of_all (by decide)
      · exact ascii_of_all (by decide)
    · rename_i hnan hinf
      rw [Bool.not_eq_true] at hnan hinf
      obtain ⟨size, hsize, htext | htext⟩ := format_finite hnan hinf
      · rw [htext]
        exact hsize.ascii
      · rw [htext]
        exact List.forall_mem_cons.mpr ⟨by decide, hsize.ascii⟩

theorem ascii_toString (n : Int) : ∀ c ∈ (toString n).toList, c.toNat < 128 := by
  have hdigits : ∀ c ∈ Nat.toDigits 10 n.natAbs, c.toNat < 128 :=
    fun c hc => ascii_of_isDigit ((isDigits_toDigits _).digits c hc)
  rw [toList_toString]
  split
  · exact hdigits
  · exact List.forall_mem_cons.mpr ⟨by decide, hdigits⟩

/-- What begins a value that is neither a string nor made of others: a digit, a sign or the
first letter of a word. -/
def BeginsScalar (s : List Char) : Prop :=
  ∃ c chars, s = c :: chars ∧ (isDigit c = true ∨ c ∈ ['-', 'n', 't', 'f', 'N', 'I'])

theorem beginsScalar_floatText (x : Float) : BeginsScalar (floatText x).toList := by
  unfold floatText
  split
  · exact ⟨_, _, rfl, .inr (by decide)⟩
  · split
    · split
      · exact ⟨_, _, rfl, .inr (by decide)⟩
      · exact ⟨_, _, rfl, .inr (by decide)⟩
    · rename_i hnan hinf
      rw [Bool.not_eq_true] at hnan hinf
      obtain ⟨size, hsize, htext | htext⟩ := format_finite hnan hinf
      · obtain ⟨c, chars, hchars, hc⟩ := hsize.head
        exact ⟨c, chars, htext.trans hchars, .inl hc⟩
      · exact ⟨_, _, htext, .inr (by decide)⟩

theorem beginsScalar_toString (n : Int) : BeginsScalar (toString n).toList := by
  obtain ⟨hproper, hdigits⟩ := isDigits_toDigits n.natAbs
  rw [toList_toString]
  split
  · cases hsplit : Nat.toDigits 10 n.natAbs with
    | nil => exact absurd hsplit hproper
    | cons c chars => exact ⟨c, chars, rfl, .inl (hdigits c (hsplit ▸ List.mem_cons_self))⟩
  · exact ⟨_, _, rfl, .inr (by decide)⟩

end BuildDesk.Json
