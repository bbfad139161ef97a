/-
What all spellings of a name share.

Two spellings of a name differ in case alone.  Case mapping turns no other character into a
blank and no blank into another character, so when one spelling has no blanks around it, none
has (`trim_eq_of_lower_eq`).  It leaves the stand-ins for halves of surrogate pairs alone, so
when the lower case of a text can be encoded, the text can (`encodable_of_lower`).
-/
import BuildDesk.Proofs.Text.SearchForm
import BuildDesk.Text.Surrogate

namespace BuildDesk.Text

/-! ### Trimmed texts -/

theorem dropWhile_eq_self_iff_head (p : Char → Bool) (s : List Char) :
    s.dropWhile p = s ↔ s.head?.map p ≠ some true := by
  cases s with
  | nil => simp
  | cons c rest =>
    by_cases hc : p c = true
    · -- the list loses its first character
      have hshort : (rest.dropWhile p).length < (c :: rest).length :=
        Nat.lt_succ_of_le (List.dropWhile_sublist p).length_le
      rw [List.dropWhile_cons_of_pos hc]
      simp only [List.head?_cons, Option.map_some, hc, ne_eq, not_true_eq_false, iff_false]
      exact fun heq => absurd (congrArg List.length heq) hshort.ne
    · rw [List.dropWhile_cons_of_neg hc]
      simp [hc]

theorem dropRight_eq_self_iff_getLast (p : Char → Bool) (s : List Char) :
    dropRight p s = s ↔ s.getLast?.map p ≠ some true := by
  rw [dropRight, List.reverse_eq_iff, dropWhile_eq_self_iff_head, List.head?_reverse]

/-- A text is trimmed when it neither starts nor ends with a blank. -/
theorem trimChars_eq_self_iff (s : List Char) : trimChars s = s ↔
    s.head?.map isBlank ≠ some true ∧ s.getLast?.map isBlank ≠ some true := by
  rw [← dropWhile_eq_self_iff_head, ← dropRight_eq_self_iff_getLast]
  constructor
  · intro h
    have hlong : s.length ≤ (s.dropWhile isBlank).length := by
      conv_lhs => rw [← h, trimChars, dropRight_eq_rdropWhile]
      exact (List.rdropWhile_prefix isBlank _).length_le
    have hwhole : s.dropWhile isBlank = s := (List.dropWhile_suffix isBlank).eq_of_length_le hlong
    refine ⟨hwhole, ?_⟩
    rwa [trimChars, hwhole] at h
  · rintro ⟨hbegin, hend⟩
    rw [trimChars, hbegin, hend]

theorem trim_eq_self_iff (s : String) : trim s = s ↔ trimChars s.toList = s.toList := by
  rw [trim, ← String.toList_inj, String.toList_ofList]

/-! ### Blanks in lower case -/

/-- No row of the table starts from a blank or leads to one. -/
theorem lowerShifts_avoid_blanks : ∀ row ∈ lowerShifts, ∀ n ∈ blankCodes,
    ¬ (row.1 ≤ n ∧ n ≤ row.2.1)
      ∧ ¬ ((row.1 : Int) ≤ n - row.2.2.2 ∧ (n : Int) - row.2.2.2 ≤ row.2.1) := by
  decide +kernel

theorem isBlank_ascii : ∀ n < 128,
    isBlank (Char.ofNat n).toLower = isBlank (Char.ofNat n) := by
  decide +kernel

/-- A code point that is none of a character stands for the first character. -/
theorem toNat_ofNat (n : Nat) : (Char.ofNat n).toNat = if n.isValidChar then n else 0 := by
  by_cases h : n.isValidChar
  · rw [Char.ofNat, dif_pos h, if_pos h]
    rfl
  · rw [Char.ofNat, dif_neg h, if_neg h]
    rfl

theorem isBlank_shifted (c : Char) : isBlank (shifted lowerShifts c) = isBlank c := by
  unfold shifted
  split
  · rename_i first last stride offset hrow
    have hmem := List.mem_of_find?_eq_some hrow
    have hin := List.find?_some hrow
    simp only [Bool.and_eq_true, decide_eq_true_eq] at hin
    have hrow := lowerShifts_avoid_blanks _ hmem
    have hfrom : isBlank c = false := by
      rw [← Bool.not_eq_true]
      exact fun hblank => (hrow _ (mem_blankCodes hblank)).1 hin.1
    rw [hfrom, ← Bool.not_eq_true]
    intro hblank
    have hcode := mem_blankCodes hblank
    have hto := (hrow _ hcode).2
    have hpos : ∀ n ∈ blankCodes, n ≠ 0 := by decide
    have hne := hpos _ hcode
    rw [toNat_ofNat] at hto hne
    split at hne
    · rename_i hvalid
      rw [if_pos hvalid] at hto
      dsimp only at hto hne
      omega
    · exact hne rfl
  · rfl

theorem isBlank_of_mem_lowerChar {c d : Char} (h : d ∈ lowerChar c) : isBlank d = isBlank c := by
  unfold lowerChar at h
  split at h
  · rename_i hascii
    rw [List.mem_singleton.mp h]
    have hc := isBlank_ascii c.toNat hascii
    rwa [Char.ofNat_toNat] at hc
  · split at h
    · rename_i hdotted
      have hc : c = Char.ofNat 0x130 := by
        rw [← beq_iff_eq.mp hdotted, Char.ofNat_toNat]
      have hall : ∀ d ∈ ['i', Char.ofNat 0x307], isBlank d = isBlank (Char.ofNat 0x130) :=
        List.forall_mem_cons.mpr ⟨by decide, List.forall_mem_singleton.mpr (by decide)⟩
      exact hc ▸ hall d h
    · rw [List.mem_singleton.mp h, isBlank_shifted]

/-- The lower case of a text is that of its first character, then that of the rest. -/
theorem lowerChars_cons (inWord : Bool) (c : Char) (rest : List Char) : ∃ here inWord',
    lowerChars inWord (c :: rest) = here ++ lowerChars inWord' rest ∧ here ≠ []
      ∧ ∀ d ∈ here, isBlank d = isBlank c := by
  rw [lowerChars]
  by_cases hc : c = 'Σ'
  · have hsigma : ∀ b : Bool, isBlank (if b then 'ς' else 'σ') = isBlank 'Σ' := by decide
    refine ⟨_, _, rfl, ?_, ?_⟩
    · rw [if_pos (beq_iff_eq.mpr hc)]
      exact List.cons_ne_nil _ _
    · rw [if_pos (beq_iff_eq.mpr hc), hc]
      exact List.forall_mem_singleton.mpr (hsigma _)
  · refine ⟨_, _, rfl, ?_, ?_⟩
    · rw [if_neg (by rwa [beq_iff_eq]), lowerChar]
      split
      · exact List.cons_ne_nil _ _
      · split
        · exact List.cons_ne_nil _ _
        · exact List.cons_ne_nil _ _
    · rw [if_neg (by rwa [beq_iff_eq])]
      exact fun d hd => isBlank_of_mem_lowerChar hd

theorem head_lowerChars (inWord : Bool) (s : List Char) :
    (lowerChars inWord s).head?.map isBlank = s.head?.map isBlank := by
  cases s with
  | nil => rfl
  | cons c rest =>
    obtain ⟨here, inWord', heq, hne, hblank⟩ := lowerChars_cons inWord c rest
    obtain ⟨d, more, rfl⟩ := List.exists_cons_of_ne_nil hne
    rw [heq, List.cons_append, List.head?_cons, List.head?_cons, Option.map_some, Option.map_some,
      hblank d List.mem_cons_self]

theorem getLast_lowerChars (inWord : Bool) (s : List Char) :
    (lowerChars inWord s).getLast?.map isBlank = s.getLast?.map isBlank := by
  induction s generalizing inWord with
  | nil => rfl
  | cons c rest ih =>
    obtain ⟨here, inWord', heq, hne, hblank⟩ := lowerChars_cons inWord c rest
    have hlast : here.getLast?.map isBlank = some (isBlank c) := by
      rw [List.getLast?_eq_some_getLast hne, Option.map_some, hblank _ (List.getLast_mem hne)]
    rw [heq, List.getLast?_append, Option.map_or, ih inWord', hlast, ← List.singleton_append,
      List.getLast?_append, Option.map_or]
    rfl

theorem lowerChars_of_lower_eq {s t : String} (h : lower s = lower t) :
    lowerChars false s.toList = lowerChars false t.toList := by
  rw [lower, lower, ← String.toList_inj, String.toList_ofList, String.toList_ofList] at h
  exact h

/-- A spelling has blanks around it when every spelling of the same name has. -/
theorem trim_eq_of_lower_eq {s t : String} (h : lower s = lower t) (ht : trim t = t) :
    trim s = s := by
  have hchars := lowerChars_of_lower_eq h
  rw [trim_eq_self_iff, trimChars_eq_self_iff] at ht ⊢
  rw [← head_lowerChars false s.toList, ← getLast_lowerChars false s.toList, hchars,
    head_lowerChars, getLast_lowerChars]
  exact ht

/-- Only the empty text is a spelling of the empty name. -/
theorem eq_empty_of_lower_eq {s : String} (h : lower "" = lower s) : s = "" := by
  have hchars : lowerChars false s.toList = [] := (lowerChars_of_lower_eq h).symm
  have hhead := head_lowerChars false s.toList
  rw [hchars, List.head?_nil, Option.map_none] at hhead
  rw [← String.toList_eq_nil_iff, ← List.head?_eq_none_iff]
  exact Option.map_eq_none_iff.mp hhead.symm

/-! ### Halves of surrogate pairs in lower case -/

/-- A character after all rows of a table stays as it is. -/
theorem shifted_eq_self {table : List (Nat × Nat × Nat × Int)} {c : Char}
    (h : ∀ row ∈ table, row.2.1 < c.toNat) : shifted table c = c := by
  unfold shifted
  split
  · rename_i first last stride offset hrow
    have hlast : last < c.toNat := h _ (List.mem_of_find?_eq_some hrow)
    have hin := List.find?_some hrow
    simp only [Bool.and_eq_true, decide_eq_true_eq] at hin
    omega
  · rfl

theorem lowerChar_half {c : Char} (h : (half? c).isSome = true) : lowerChar c = [c] := by
  have hhigh : 0xFB800 ≤ c.toNat := by
    unfold half? at h
    split at h
    · rename_i hrange
      rw [Bool.and_eq_true, decide_eq_true_eq] at hrange
      exact hrange.1
    · cases h
  have hrows : ∀ row ∈ lowerShifts, row.2.1 < 0xFB800 := by decide +kernel
  have hstays : shifted lowerShifts c = c :=
    shifted_eq_self fun row hrow => (hrows row hrow).trans_le hhigh
  rw [lowerChar, if_neg (by omega), if_neg (by rw [beq_iff_eq]; omega), hstays]

theorem mem_lowerChars_of_half {c : Char} (h : (half? c).isSome = true) {s : List Char}
    (hc : c ∈ s) (inWord : Bool) : c ∈ lowerChars inWord s := by
  induction s generalizing inWord with
  | nil => exact absurd hc List.not_mem_nil
  | cons d rest ih =>
    rw [lowerChars, List.mem_append]
    rcases List.mem_cons.mp hc with rfl | hc
    · refine .inl ?_
      have hsigma : ¬ (c == 'Σ') = true := by
        rw [beq_iff_eq]
        rintro rfl
        exact absurd h (by decide)
      rw [if_neg hsigma, lowerChar_half h]
      exact List.mem_singleton_self c
    · exact .inr (ih hc _)

/-- A text can be encoded when its lower case can. -/
theorem encodable_of_lower {s : String} (h : isEncodable (lower s) = true) :
    isEncodable s = true := by
  refine List.all_eq_true.mpr fun c hc => ?_
  rw [Option.isNone_iff_eq_none, ← Option.not_isSome_iff_eq_none]
  intro hhalf
  have hlower : c ∈ (lower s).toList := by
    rw [lower, String.toList_ofList]
    exact mem_lowerChars_of_half hhalf hc false
  have hnone := List.all_eq_true.mp h c hlower
  rw [Option.isNone_iff_eq_none] at hnone
  rw [hnone] at hhalf
  cases hhalf

end BuildDesk.Text
