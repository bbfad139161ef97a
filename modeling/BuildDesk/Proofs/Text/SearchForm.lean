/-
Search forms and the pieces of texts.

A search form depends on nothing but the word characters of the lower-case text, and on
where other characters stand between them.  So blanks around a text leave no trace in it
(`searchForm_trim`), although a sigma is made lower case by what stands next to it: both
lower-case sigmas are no word characters.

When one text begins another, each piece of it begins a piece of the other
(`pieces_of_beginsWith`).  So a name is found by its own beginning, word for word.
-/
import BuildDesk.Proofs.Text.Trim
import BuildDesk.Text.Words

namespace BuildDesk.Text

/-! ### Characters that leave no trace -/

/-- The lower case of a character, where a sigma does not see what is around it. -/
def plainLower (c : Char) : List Char := if c == 'Σ' then ['σ'] else lowerChar c

/-- There are no word characters. -/
def IsGap (s : List Char) : Prop := ∀ c ∈ s, isWordChar c = false

/-- The code points of blanks. -/
def blankCodes : List Nat :=
  [0x20, 9, 10, 11, 12, 13, 0x1C, 0x1D, 0x1E, 0x1F, 0x85, 0xA0, 0x1680, 0x2000, 0x2001, 0x2002,
    0x2003, 0x2004, 0x2005, 0x2006, 0x2007, 0x2008, 0x2009, 0x200A, 0x2028, 0x2029, 0x202F,
    0x205F, 0x3000]

theorem mem_blankCodes {c : Char} (h : isBlank c = true) : c.toNat ∈ blankCodes := by
  simp only [isBlank, Bool.or_eq_true, Bool.and_eq_true, beq_iff_eq, decide_eq_true_eq] at h
  simp only [blankCodes, List.mem_cons, List.not_mem_nil, or_false]
  omega

/-- No blank is a letter in lower case. -/
theorem isGap_plainLower {c : Char} (h : isBlank c = true) : IsGap (plainLower c) := by
  have hall : (blankCodes.all fun n =>
      (plainLower (Char.ofNat n)).all fun d => !isWordChar d) = true := by
    decide +kernel
  have hc := List.all_eq_true.mp hall c.toNat (mem_blankCodes h)
  rw [Char.ofNat_toNat] at hc
  intro d hd
  exact Bool.not_eq_true' _ ▸ List.all_eq_true.mp hc d hd

theorem isGap_flatMap {s : List Char} (h : ∀ c ∈ s, isBlank c = true) :
    IsGap (s.flatMap plainLower) := by
  intro d hd
  obtain ⟨c, hc, hd⟩ := List.mem_flatMap.mp hd
  exact isGap_plainLower (h c hc) d hd

/-! ### Spacing out -/

theorem spaceOut_gap {c : Char} (h : isWordChar c = false) (inGap : Bool) (rest : List Char) :
    spaceOut inGap (c :: rest) = (if inGap then [] else [' ']) ++ spaceOut true rest := by
  rw [spaceOut, h]
  cases inGap with
  | false => rfl
  | true => rfl

theorem spaceOut_word {c : Char} (h : isWordChar c = true) (inGap : Bool) (rest : List Char) :
    spaceOut inGap (c :: rest) = c :: spaceOut false rest := if_pos h

theorem spaceOut_append_congr {t t' : List Char} (h : ∀ inGap, spaceOut inGap t = spaceOut inGap t')
    (s : List Char) (inGap : Bool) : spaceOut inGap (s ++ t) = spaceOut inGap (s ++ t') := by
  induction s generalizing inGap with
  | nil => exact h inGap
  | cons c rest ih =>
    rw [List.cons_append, List.cons_append]
    cases hc : isWordChar c with
    | false => rw [spaceOut_gap hc, spaceOut_gap hc, ih]
    | true => rw [spaceOut_word hc, spaceOut_word hc, ih]

/-- What stands around a sigma does not show. -/
theorem spaceOut_lowerChars (s : List Char) (inGap inWord : Bool) :
    spaceOut inGap (lowerChars inWord s) = spaceOut inGap (s.flatMap plainLower) := by
  induction s generalizing inGap inWord with
  | nil => rfl
  | cons c rest ih =>
    rw [lowerChars, List.flatMap_cons]
    by_cases hc : c = 'Σ'
    · -- either lower-case sigma counts as a gap
      have hsigma : ∀ b : Bool, isWordChar (if b then 'ς' else 'σ') = false := by decide
      have hplain_gap : isWordChar 'σ' = false := hsigma false
      have hplain : plainLower c = ['σ'] := by
        rw [hc]
        rfl
      rw [hplain, if_pos (beq_iff_eq.mpr hc), List.singleton_append, List.singleton_append,
        spaceOut_gap (hsigma _), spaceOut_gap hplain_gap, ih]
    · have hplain : plainLower c = lowerChar c := if_neg (by rwa [beq_iff_eq])
      rw [hplain, if_neg (by rwa [beq_iff_eq])]
      exact spaceOut_append_congr (fun inGap => ih inGap _) _ _

/-! ### Trimming -/

theorem isBlank_space : isBlank ' ' = true := rfl

theorem trimChars_cons {c : Char} (h : isBlank c = true) (s : List Char) :
    trimChars (c :: s) = trimChars s := by
  rw [trimChars, List.dropWhile_cons_of_pos h, trimChars]

theorem trimChars_concat {c : Char} (h : isBlank c = true) (s : List Char) :
    trimChars (s ++ [c]) = trimChars s := by
  rw [trimChars, trimChars, List.dropWhile_append]
  split
  · rename_i hempty
    rw [List.dropWhile_cons_of_pos h, List.isEmpty_iff.mp hempty, List.dropWhile_nil]
  · rw [dropRight_eq_rdropWhile, List.rdropWhile_concat_pos _ _ _ h, dropRight_eq_rdropWhile]

/-- A text is what is left of it by trimming, between blanks. -/
theorem eq_append_trimChars (s : List Char) : ∃ before after,
    s = before ++ (trimChars s ++ after) ∧ (∀ c ∈ before, isBlank c = true)
      ∧ ∀ c ∈ after, isBlank c = true := by
  refine ⟨s.takeWhile isBlank, (s.dropWhile isBlank).rtakeWhile isBlank, ?_, ?_, ?_⟩
  · have hback : trimChars s ++ (s.dropWhile isBlank).rtakeWhile isBlank = s.dropWhile isBlank := by
      rw [trimChars, dropRight, List.rtakeWhile, ← List.reverse_append,
        List.takeWhile_append_dropWhile, List.reverse_reverse]
    rw [hback, List.takeWhile_append_dropWhile]
  · exact fun c hc => List.mem_takeWhile_imp hc
  · exact fun c hc => List.mem_rtakeWhile_imp hc

theorem trimChars_spaceOut (s : List Char) (inGap : Bool) :
    trimChars (spaceOut inGap s) = trimChars (spaceOut false s) := by
  cases inGap with
  | false => rfl
  | true =>
    cases s with
    | nil => rfl
    | cons c rest =>
      cases hc : isWordChar c with
      | false =>
        rw [spaceOut_gap hc, spaceOut_gap hc]
        exact (trimChars_cons isBlank_space _).symm
      | true => rw [spaceOut_word hc, spaceOut_word hc]

theorem trimChars_spaceOut_before {gap : List Char} (h : IsGap gap) (s : List Char) (inGap : Bool) :
    trimChars (spaceOut inGap (gap ++ s)) = trimChars (spaceOut false s) := by
  induction gap generalizing inGap with
  | nil => exact trimChars_spaceOut s inGap
  | cons c rest ih =>
    obtain ⟨hc, hrest⟩ := List.forall_mem_cons.mp h
    rw [List.cons_append, spaceOut_gap hc, ← ih hrest true]
    cases inGap with
    | false => exact trimChars_cons isBlank_space _
    | true => rfl

theorem spaceOut_true_of_gap {gap : List Char} (h : IsGap gap) : spaceOut true gap = [] := by
  induction gap with
  | nil => rfl
  | cons c rest ih =>
    obtain ⟨hc, hrest⟩ := List.forall_mem_cons.mp h
    rw [spaceOut_gap hc, ih hrest]
    rfl

/-- A gap at the end shows as one space at most. -/
theorem spaceOut_append_gap {gap : List Char} (h : IsGap gap) (s : List Char) (inGap : Bool) :
    spaceOut inGap (s ++ gap) = spaceOut inGap s
      ∨ spaceOut inGap (s ++ gap) = spaceOut inGap s ++ [' '] := by
  induction s generalizing inGap with
  | nil =>
    cases gap with
    | nil => exact .inl rfl
    | cons c rest =>
      obtain ⟨hc, hrest⟩ := List.forall_mem_cons.mp h
      rw [List.nil_append, spaceOut_gap hc, spaceOut_true_of_gap hrest]
      cases inGap with
      | false => exact .inr rfl
      | true => exact .inl rfl
  | cons c rest ih =>
    rw [List.cons_append]
    cases hc : isWordChar c with
    | false =>
      rw [spaceOut_gap hc, spaceOut_gap hc, List.append_assoc]
      exact (ih true).imp (congrArg _) (congrArg _)
    | true =>
      rw [spaceOut_word hc, spaceOut_word hc, List.cons_append]
      exact (ih false).imp (congrArg _) (congrArg _)

theorem trimChars_spaceOut_after {gap : List Char} (h : IsGap gap) (s : List Char) (inGap : Bool) :
    trimChars (spaceOut inGap (s ++ gap)) = trimChars (spaceOut inGap s) := by
  rcases spaceOut_append_gap h s inGap with heq | heq
  · rw [heq]
  · rw [heq, trimChars_concat isBlank_space]

/-- Blanks around a text leave no trace in its search form. -/
theorem searchForm_trim (s : String) : searchForm (trim s) = searchForm s := by
  obtain ⟨before, after, hs, hbefore, hafter⟩ := eq_append_trimChars s.toList
  have hmiddle : trimChars (spaceOut false (s.toList.flatMap plainLower))
      = trimChars (spaceOut false ((trimChars s.toList).flatMap plainLower)) := by
    conv_lhs => rw [hs, List.flatMap_append, List.flatMap_append]
    rw [trimChars_spaceOut_before (isGap_flatMap hbefore),
      trimChars_spaceOut_after (isGap_flatMap hafter)]
  rw [searchForm, searchForm, lower, lower, trim, String.toList_ofList, String.toList_ofList,
    String.toList_ofList, spaceOut_lowerChars, spaceOut_lowerChars, hmiddle]

theorem searchForm_empty : searchForm "" = "" := rfl

/-- A search with words in it is not blank. -/
theorem trim_ne_empty {s : String} (h : searchForm s ≠ "") : trim s ≠ "" := by
  intro htrim
  rw [← searchForm_trim, htrim] at h
  exact h searchForm_empty

/-! ### Pieces -/

theorem beginsWith_iff {s t : String} : beginsWith s t = true ↔ s.toList <+: t.toList :=
  List.isPrefixOf_iff_prefix

theorem beginsWith_self (s : String) : beginsWith s s = true :=
  beginsWith_iff.mpr (List.prefix_refl _)

theorem beginsWith_append (s t : String) : beginsWith s (s ++ t) = true := by
  rw [beginsWith_iff, String.toList_append]
  exact List.prefix_append _ _

/-- Only an empty text begins the empty one. -/
theorem ne_empty_of_beginsWith {s t : String} (hs : s ≠ "") (h : beginsWith s t = true) :
    t ≠ "" := by
  rintro rfl
  have hnil : s.toList = [] := List.prefix_nil.mp (beginsWith_iff.mp h)
  exact hs (String.toList_eq_nil_iff.mp hnil)

theorem exists_cut (sep : Char) (s : List Char) : ∃ first more, cut sep s = first :: more := by
  cases s with
  | nil => exact ⟨_, _, rfl⟩
  | cons c rest =>
    rw [cut]
    split
    · exact ⟨_, _, rfl⟩
    · split
      · exact ⟨_, _, rfl⟩
      · exact ⟨_, _, rfl⟩

/-- The first piece of a beginning begins the first piece of the whole, and the others are
pieces of the whole but for the last, which begins one. -/
theorem cut_append (sep : Char) (s t : List Char) : ∃ first more first' more',
    cut sep s = first :: more ∧ cut sep (s ++ t) = first' :: more' ∧ first <+: first'
      ∧ ∀ piece ∈ more, ∃ whole ∈ more', piece <+: whole := by
  -- the first piece is kept apart, since the next character may still belong to it
  induction s with
  | nil =>
    obtain ⟨first', more', hcut⟩ := exists_cut sep t
    exact ⟨[], [], first', more', rfl, hcut, List.nil_prefix, List.forall_mem_nil _⟩
  | cons c rest ih =>
    obtain ⟨first, more, first', more', hs, ht, hfirst, hmore⟩ := ih
    rw [List.cons_append, cut, cut, hs, ht]
    by_cases hc : (c == sep) = true
    · rw [if_pos hc, if_pos hc]
      refine ⟨[], first :: more, [], first' :: more', rfl, rfl, List.nil_prefix, ?_⟩
      refine List.forall_mem_cons.mpr ⟨⟨first', List.mem_cons_self, hfirst⟩, fun piece hpiece => ?_⟩
      obtain ⟨whole, hwhole, hprefix⟩ := hmore piece hpiece
      exact ⟨whole, List.mem_cons_of_mem _ hwhole, hprefix⟩
    · rw [if_neg hc, if_neg hc]
      exact ⟨c :: first, more, c :: first', more', rfl, rfl,
        List.cons_prefix_cons.mpr ⟨rfl, hfirst⟩, hmore⟩

/-- Each piece of a beginning begins a piece of the whole. -/
theorem pieces_of_beginsWith {s t : String} (h : beginsWith s t = true) :
    ∀ piece ∈ pieces s, ∃ whole ∈ pieces t, beginsWith piece whole = true := by
  obtain ⟨rest, hrest⟩ := beginsWith_iff.mp h
  obtain ⟨first, more, first', more', hs, ht, hfirst, hmore⟩ := cut_append ' ' s.toList rest
  rw [hrest] at ht
  rw [pieces, pieces, hs, ht]
  intro piece hpiece
  obtain ⟨chars, hchars, rfl⟩ := List.mem_map.mp hpiece
  have hwhole : ∃ whole ∈ first' :: more', chars <+: whole := by
    rcases List.mem_cons.mp hchars with rfl | hchars
    · exact ⟨first', List.mem_cons_self, hfirst⟩
    · obtain ⟨whole, hwhole, hprefix⟩ := hmore chars hchars
      exact ⟨whole, List.mem_cons_of_mem _ hwhole, hprefix⟩
  obtain ⟨whole, hwhole, hprefix⟩ := hwhole
  refine ⟨_, List.mem_map_of_mem hwhole, beginsWith_iff.mpr ?_⟩
  rwa [String.toList_ofList, String.toList_ofList]

end BuildDesk.Text
