/-
The order of texts.

Texts are compared character by character, and a character by its code.  A stand-in has the
code of the half that it stands for, so it comes before many characters of lower planes.

Main definitions:
* `code`, `codes` — the code of a character, and those of a text;
* `isBefore`, `noLater` — one text stands before another, or not behind it.
-/
import BuildDesk.Text.Surrogate

namespace BuildDesk.Text

/-- The code of a character; that of the half that it stands in for. -/
def code (c : Char) : Nat := (half? c).getD c.toNat

/-- The codes of the characters of a text. -/
def codes (s : String) : List Nat := s.toList.map code

/-- One list of codes does not stand behind another: at the first difference it has the lower
code, or it ends there. -/
def codesNoLater : List Nat → List Nat → Bool
  | [], _ => true
  | _ :: _, [] => false
  | m :: ms, n :: ns => m < n || (m == n && codesNoLater ms ns)

/-- One text does not stand behind another. -/
def noLater (s t : String) : Bool := codesNoLater (codes s) (codes t)

/-- One text stands before another. -/
def isBefore (s t : String) : Bool := !noLater t s

theorem code_of_half {c : Char} {n : Nat} (h : half? c = some n) :
    code c = n ∧ c.toNat = n + halfShift ∧ 0xD800 ≤ n ∧ n < 0xE000 := by
  have hcode : code c = n := by
    rw [code, h]
    rfl
  refine ⟨hcode, ?_⟩
  unfold half? at h
  split at h
  · rename_i hrange
    rw [Bool.and_eq_true, decide_eq_true_eq, decide_eq_true_eq] at hrange
    have hn : c.toNat - halfShift = n := Option.some.inj h
    unfold halfShift at hn ⊢
    omega
  · cases h

theorem code_of_whole {c : Char} (h : half? c = none) : code c = c.toNat := by
  rw [code, h]
  rfl

/-- No character has the code of a half, so codes tell all characters apart. -/
theorem code_injective {c d : Char} (h : code c = code d) : c = d := by
  have hvalid : ∀ c : Char, c.toNat < 0xD800 ∨ 0xE000 ≤ c.toNat := by
    intro c
    rcases c.valid with hlow | hhigh
    · exact .inl hlow
    · exact .inr (Nat.succ_le_of_lt hhigh.1)
  have hnat : c.toNat = d.toNat := by
    -- a half against a whole character: its code is one that no character has
    rcases hc : half? c with _ | n <;> rcases hd : half? d with _ | m
    · rw [← code_of_whole hc, ← code_of_whole hd, h]
    · obtain ⟨hcode, -, hlow, hhigh⟩ := code_of_half hd
      have hwhole := hvalid c
      rw [code_of_whole hc, hcode] at h
      omega
    · obtain ⟨hcode, -, hlow, hhigh⟩ := code_of_half hc
      have hwhole := hvalid d
      rw [code_of_whole hd, hcode] at h
      omega
    · obtain ⟨hcode, hshift, -⟩ := code_of_half hc
      obtain ⟨hcode', hshift', -⟩ := code_of_half hd
      rw [hshift, hshift', ← hcode, ← hcode', h]
  exact Char.toNat_inj.mp hnat

theorem codes_injective {s t : String} (h : codes s = codes t) : s = t :=
  String.toList_inj.mp (List.map_inj_right (fun _ _ => code_injective) |>.mp h)

theorem codesNoLater_cons {m n : Nat} {ms ns : List Nat} :
    codesNoLater (m :: ms) (n :: ns) = true ↔ m < n ∨ m = n ∧ codesNoLater ms ns = true := by
  rw [codesNoLater, Bool.or_eq_true, Bool.and_eq_true, decide_eq_true_eq, beq_iff_eq]

theorem codesNoLater_trans {k m n : List Nat} (h : codesNoLater k m = true)
    (h' : codesNoLater m n = true) : codesNoLater k n = true := by
  induction k generalizing m n with
  | nil => rfl
  | cons a k ih =>
    cases m with
    | nil => cases h
    | cons b m =>
      cases n with
      | nil => cases h'
      | cons c n =>
        rw [codesNoLater_cons] at h h' ⊢
        rcases h with hlt | ⟨rfl, h⟩
        · -- the first two differ here, and the third is no lower than the second
          exact .inl (by omega)
        · exact h'.imp_right fun ⟨heq, h'⟩ => ⟨heq, ih h h'⟩

theorem codesNoLater_total (m n : List Nat) :
    codesNoLater m n = true ∨ codesNoLater n m = true := by
  induction m generalizing n with
  | nil => exact .inl rfl
  | cons a m ih =>
    cases n with
    | nil => exact .inr rfl
    | cons b n =>
      rw [codesNoLater_cons, codesNoLater_cons]
      rcases Nat.lt_trichotomy a b with hlt | rfl | hlt
      · exact .inl (.inl hlt)
      · exact (ih n).imp (fun h => .inr ⟨rfl, h⟩) fun h => .inr ⟨rfl, h⟩
      · exact .inr (.inl hlt)

theorem codesNoLater_antisymm {m n : List Nat} (h : codesNoLater m n = true)
    (h' : codesNoLater n m = true) : m = n := by
  induction m generalizing n with
  | nil =>
    cases n with
    | nil => rfl
    | cons b n => cases h'
  | cons a m ih =>
    cases n with
    | nil => cases h
    | cons b n =>
      rw [codesNoLater_cons] at h h'
      rcases h with hlt | ⟨rfl, h⟩
      · rcases h' with hlt' | ⟨heq, -⟩ <;> omega
      · rw [ih h (h'.resolve_left (Nat.lt_irrefl _)).2]

theorem noLater_trans {s t u : String} (h : noLater s t = true) (h' : noLater t u = true) :
    noLater s u = true := codesNoLater_trans h h'

theorem noLater_total (s t : String) : noLater s t = true ∨ noLater t s = true :=
  codesNoLater_total _ _

theorem noLater_antisymm {s t : String} (h : noLater s t = true) (h' : noLater t s = true) :
    s = t := codes_injective (codesNoLater_antisymm h h')

end BuildDesk.Text
