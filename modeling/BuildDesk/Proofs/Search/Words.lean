/-
The words of a search.

A search form is the words of the lower-case text with single spaces between them
(`searchForm_eq_intercalate`), and the words are the maximal runs of word characters, all of
them and in order (`exists_areRuns`).  So a search form gives back its words, whether it is cut
at its spaces (`tokens_eq_words`) or read once more (`words_searchForm`), and everything that
scoring takes from it, its pieces among them, is made of whole words (`tokens_searchForm`).

Proofs go word by word (`word_induction`): a text is empty, or begins with a character outside
words, or with a whole word.

* `IsWord`, `StartsOutside` — whole words, and what stands behind one;
* `IsRun`, `AreRuns` — the places of the maximal runs of a text;
* `IsSingleSpaced` — no space at an end or beside another one.
-/
import BuildDesk.Proofs.Text.SearchForm
import BuildDesk.Search.Rank

namespace BuildDesk.Text

variable {c : Char} {w s rest : List Char} {ws : List (List Char)}

/-! ### Reading word by word -/

/-- Some characters, all of which belong to words. -/
structure IsWord (w : List Char) : Prop where
  ne_nil : w ≠ []
  all : ∀ c ∈ w, isWordChar c = true

/-- The text does not begin with a word character, so a word before it ends there. -/
def StartsOutside (s : List Char) : Prop := ∀ c ∈ s.head?, isWordChar c = false

theorem startsOutside_dropWhile (s : List Char) : StartsOutside (s.dropWhile isWordChar) := by
  intro c hc
  have hhead := List.head?_dropWhile_not isWordChar s
  rw [Option.mem_def.mp hc] at hhead
  exact hhead

/-- A text is empty, or it begins with a character outside words or with a whole word. -/
@[elab_as_elim]
theorem word_induction {motive : List Char → Prop} (nil : motive [])
    (gap : ∀ c rest, isWordChar c = false → motive rest → motive (c :: rest))
    (word : ∀ w rest, IsWord w → StartsOutside rest → motive rest → motive (w ++ rest))
    (s : List Char) : motive s := by
  induction hlen : s.length using Nat.strong_induction_on generalizing s with
  | _ n ih =>
    cases s with
    | nil => exact nil
    | cons c rest =>
      rw [List.length_cons] at hlen
      cases hc : isWordChar c with
      | false => exact gap c rest hc (ih rest.length (by omega) rest rfl)
      | true =>
        -- the whole word is taken at once, so that no word character follows it
        have hshort : (rest.dropWhile isWordChar).length ≤ rest.length :=
          (List.dropWhile_suffix isWordChar).length_le
        have hword : IsWord (c :: rest.takeWhile isWordChar) := {
          ne_nil := List.cons_ne_nil _ _
          all := List.forall_mem_cons.mpr ⟨hc, fun d hd => List.mem_takeWhile_imp hd⟩ }
        have hwhole := word _ _ hword (startsOutside_dropWhile rest)
          (ih _ (by omega) (rest.dropWhile isWordChar) rfl)
        rwa [List.cons_append, List.takeWhile_append_dropWhile] at hwhole

theorem runs_gap (h : isWordChar c = false) (rest : List Char) : runs (c :: rest) = runs rest := by
  rw [runs.eq_def]
  exact if_neg (ne_true_of_eq_false h)

theorem runs_append (hw : IsWord w) (hrest : StartsOutside rest) :
    runs (w ++ rest) = w :: runs rest := by
  obtain ⟨hne, hall⟩ := hw
  induction w with
  | nil => exact absurd rfl hne
  | cons c more ih =>
    obtain ⟨hc, hmore⟩ := List.forall_mem_cons.mp hall
    cases more with
    | nil =>
      -- the last character of the word; what follows is no part of it
      rw [List.singleton_append, runs.eq_def]
      dsimp only
      rw [if_pos hc]
      cases rest with
      | nil => rfl
      | cons d later =>
        have hd : isWordChar d = false := hrest d rfl
        cases runs (d :: later) with
        | nil => rfl
        | cons run others => exact if_neg (ne_true_of_eq_false hd)
    | cons d more =>
      have hd : isWordChar d = true := hmore d List.mem_cons_self
      have hruns := ih (List.cons_ne_nil _ _) hmore
      rw [List.cons_append] at hruns
      rw [List.cons_append, List.cons_append, runs.eq_def]
      dsimp only
      rw [if_pos hc, hruns]
      exact if_pos hd

theorem isWord_of_mem_runs (s : List Char) : ∀ w ∈ runs s, IsWord w := by
  induction s using word_induction with
  | nil => exact List.forall_mem_nil _
  | gap c rest hc ih => rwa [runs_gap hc]
  | word w rest hw hrest ih =>
    rw [runs_append hw hrest]
    exact List.forall_mem_cons.mpr ⟨hw, ih⟩

/-! ### Words with spaces between them -/

theorem isWordChar_space : isWordChar ' ' = false := by decide

theorem intercalate_ne_nil (h : ∀ w ∈ ws, IsWord w) (hne : ws ≠ []) :
    [' '].intercalate ws ≠ [] := by
  obtain ⟨w, more, rfl⟩ := List.exists_cons_of_ne_nil hne
  have hw := (h w List.mem_cons_self).ne_nil
  cases more with
  | nil => rwa [List.intercalate_singleton]
  | cons w' more =>
    rw [List.intercalate_cons_cons]
    simp

theorem runs_intercalate (h : ∀ w ∈ ws, IsWord w) : runs ([' '].intercalate ws) = ws := by
  induction ws with
  | nil => rfl
  | cons w more ih =>
    obtain ⟨hw, hmore⟩ := List.forall_mem_cons.mp h
    cases more with
    | nil =>
      have hend : runs (w ++ []) = w :: runs [] :=
        runs_append hw fun c hc => absurd hc (Option.not_mem_none c)
      rw [List.append_nil] at hend
      rwa [List.intercalate_singleton]
    | cons w' more =>
      have hspace : StartsOutside (' ' :: [' '].intercalate (w' :: more)) := by
        rintro c hc
        obtain rfl := Option.some.inj hc
        exact isWordChar_space
      rw [List.intercalate_cons_cons, List.append_assoc, List.singleton_append,
        runs_append hw hspace, runs_gap isWordChar_space, ih hmore]

theorem cut_eq_splitOn (sep : Char) (s : List Char) : cut sep s = s.splitOn sep := by
  induction s with
  | nil => rfl
  | cons c rest ih =>
    obtain ⟨first, more, hcut⟩ := exists_cut sep rest
    rw [hcut] at ih
    rw [cut, hcut, List.splitOn, List.splitOnP_cons_eq_if_modifyHead, ← List.splitOn, ← ih]
    rfl

/-- Words are cut apart at the spaces between them. -/
theorem cut_intercalate (h : ∀ w ∈ ws, IsWord w) (hne : ws ≠ []) :
    cut ' ' ([' '].intercalate ws) = ws := by
  have hspace : ∀ w ∈ ws, ' ' ∉ w := by
    intro w hw hmem
    exact absurd ((h w hw).all _ hmem) (ne_true_of_eq_false isWordChar_space)
  rw [cut_eq_splitOn, List.splitOn_intercalate _ hspace hne]

theorem cut_append_cons (sep : Char) (s t : List Char) :
    cut sep (s ++ sep :: t) = cut sep s ++ cut sep t := by
  rw [cut_eq_splitOn, cut_eq_splitOn, cut_eq_splitOn]
  exact List.splitOnP_append_cons s t (beq_self_eq_true sep)

/-- No space stands at the start, at the end or beside another one. -/
structure IsSingleSpaced (s : List Char) : Prop where
  start : ¬ [' '] <+: s
  finish : ¬ [' '] <:+ s
  inside : ¬ [' ', ' '] <:+: s

/-- Where a space is out of place, an empty piece is cut off. -/
theorem isSingleSpaced_of_cut (h : [] ∉ cut ' ' s) : IsSingleSpaced s := by
  have hempty : [] ∈ cut ' ' [] := List.mem_singleton_self []
  refine ⟨?_, ?_, ?_⟩
  · rintro ⟨after, rfl⟩
    exact h List.mem_cons_self
  · rintro ⟨before, rfl⟩
    refine h ?_
    rw [cut_append_cons]
    exact List.mem_append_right _ hempty
  · rintro ⟨before, after, rfl⟩
    refine h ?_
    have hcut := cut_append_cons ' ' before (' ' :: after)
    rw [List.append_assoc]
    refine hcut ▸ List.mem_append_right _ ?_
    exact List.mem_cons_self

theorem isSingleSpaced_intercalate (h : ∀ w ∈ ws, IsWord w) :
    IsSingleSpaced ([' '].intercalate ws) := by
  by_cases hne : ws = []
  · subst hne
    exact ⟨by simp, by simp, by simp⟩
  · refine isSingleSpaced_of_cut fun hnil => ?_
    rw [cut_intercalate h hne] at hnil
    exact (h _ hnil).ne_nil rfl

/-! ### Search forms -/

theorem dropRight_cons (p : Char → Bool) (c : Char) (s : List Char) :
    dropRight p (c :: s) =
      if p c = true ∧ dropRight p s = [] then [] else c :: dropRight p s := by
  have happend : dropRight p (c :: s) = ((s.reverse ++ [c]).dropWhile p).reverse := by
    rw [dropRight, List.reverse_cons]
  rw [happend, List.dropWhile_append]
  cases hrest : s.reverse.dropWhile p with
  | nil =>
    have hnil : dropRight p s = [] := by rw [dropRight, hrest, List.reverse_nil]
    by_cases hc : p c = true
    · simp [hnil, hc]
    · simp [hnil, hc]
  | cons d rest =>
    have hsome : dropRight p s = (d :: rest).reverse := by rw [dropRight, hrest]
    simp [hsome]

theorem toNat_of_isWordChar (h : isWordChar c = true) :
    (97 ≤ c.toNat ∧ c.toNat ≤ 122) ∨ (48 ≤ c.toNat ∧ c.toNat ≤ 57) := by
  simpa [isWordChar, Char.le_def, UInt32.le_iff_toNat_le] using h

theorem not_isBlank_of_isWordChar (h : isWordChar c = true) : isBlank c = false := by
  by_contra hblank
  have hc := mem_blankCodes (eq_true_of_ne_false hblank)
  have hword := toNat_of_isWordChar h
  simp only [blankCodes, List.mem_cons, List.not_mem_nil, or_false] at hc
  omega

theorem dropWhile_spaceOut_true (s : List Char) :
    (spaceOut true s).dropWhile isBlank = spaceOut true s := by
  induction s with
  | nil => rfl
  | cons c rest ih =>
    cases hc : isWordChar c with
    | true =>
      rw [spaceOut_word hc]
      exact List.dropWhile_cons_of_neg (ne_true_of_eq_false (not_isBlank_of_isWordChar hc))
    | false =>
      rw [spaceOut_gap hc]
      exact ih

theorem spaceOut_append_word (hw : ∀ c ∈ w, isWordChar c = true) (rest : List Char) :
    spaceOut false (w ++ rest) = w ++ spaceOut false rest := by
  induction w with
  | nil => rfl
  | cons c more ih =>
    obtain ⟨hc, hmore⟩ := List.forall_mem_cons.mp hw
    rw [List.cons_append, spaceOut_word hc, ih hmore, List.cons_append]

theorem dropRight_append_word (hw : ∀ c ∈ w, isWordChar c = true) (s : List Char) :
    dropRight isBlank (w ++ s) = w ++ dropRight isBlank s := by
  induction w with
  | nil => rfl
  | cons c more ih =>
    obtain ⟨hc, hmore⟩ := List.forall_mem_cons.mp hw
    rw [List.cons_append, dropRight_cons, if_neg, ih hmore, List.cons_append]
    rw [not_isBlank_of_isWordChar hc]
    exact fun h => Bool.false_ne_true h.1

/-- A gap behind a word shows as a space when another word follows. -/
theorem dropRight_spaceOut_of_outside (h : StartsOutside rest) :
    dropRight isBlank (spaceOut false rest) =
      if dropRight isBlank (spaceOut true rest) = [] then []
      else ' ' :: dropRight isBlank (spaceOut true rest) := by
  cases rest with
  | nil => rfl
  | cons c later =>
    have hc : isWordChar c = false := h c rfl
    rw [spaceOut_gap hc, spaceOut_gap hc]
    show dropRight isBlank (' ' :: spaceOut true later) = _
    rw [dropRight_cons]
    simp [isBlank_space]

/-- What is left of a spaced-out text without its outer blanks are its words. -/
theorem dropRight_spaceOut (s : List Char) :
    dropRight isBlank (spaceOut true s) = [' '].intercalate (runs s) := by
  induction s using word_induction with
  | nil => rfl
  | gap c rest hc ih =>
    rw [spaceOut_gap hc, runs_gap hc]
    exact ih
  | word w rest hw hrest ih =>
    obtain ⟨c, more, rfl⟩ := List.exists_cons_of_ne_nil hw.ne_nil
    have hbegin : spaceOut true ((c :: more) ++ rest) = spaceOut false ((c :: more) ++ rest) := by
      rw [List.cons_append, spaceOut_word (hw.all c List.mem_cons_self),
        spaceOut_word (hw.all c List.mem_cons_self)]
    rw [hbegin, spaceOut_append_word hw.all, dropRight_append_word hw.all,
      dropRight_spaceOut_of_outside hrest, ih, runs_append hw hrest]
    by_cases hnone : runs rest = []
    · rw [hnone]
      simp
    · rw [if_neg (intercalate_ne_nil (isWord_of_mem_runs rest) hnone)]
      obtain ⟨w', later, hrun⟩ := List.exists_cons_of_ne_nil hnone
      rw [hrun, List.intercalate_cons_cons, List.append_assoc, List.singleton_append]

theorem toList_searchForm (s : String) :
    (searchForm s).toList = [' '].intercalate (runs (lower s).toList) := by
  rw [searchForm, String.toList_ofList, ← trimChars_spaceOut _ true, trimChars,
    dropWhile_spaceOut_true, dropRight_spaceOut]

theorem toList_words (s : String) : (words s).map String.toList = runs (lower s).toList := by
  rw [words, List.map_map]
  exact List.map_id'' (fun run => String.toList_ofList) _

/-- A search form is the words of the text with single spaces between them. -/
theorem searchForm_eq_intercalate (s : String) : searchForm s = " ".intercalate (words s) := by
  rw [← String.toList_inj, toList_searchForm, String.toList_intercalate, toList_words]
  rfl

theorem isWord_of_mem_words (s : String) : ∀ w ∈ words s, IsWord w.toList := by
  intro w hw
  refine isWord_of_mem_runs (lower s).toList _ ?_
  rw [← toList_words]
  exact List.mem_map_of_mem hw

theorem pieces_searchForm {s : String} (h : words s ≠ []) : pieces (searchForm s) = words s := by
  have hne : runs (lower s).toList ≠ [] := by
    rw [← toList_words]
    exact fun hnil => h (List.map_eq_nil_iff.mp hnil)
  rw [pieces, toList_searchForm, cut_intercalate (isWord_of_mem_runs _) hne, words]

/-- A search form cut at its spaces gives the words of the text. -/
theorem tokens_eq_words (s : String) : tokens (searchForm s) = words s := by
  by_cases h : words s = []
  · rw [searchForm_eq_intercalate, h]
    rfl
  · rw [tokens, pieces_searchForm h, List.filter_eq_self]
    intro w hw
    rw [bne_iff_ne]
    rintro rfl
    exact (isWord_of_mem_words s _ hw).ne_nil rfl

/-- No piece of a search form is empty: its pieces are its words. -/
theorem tokens_searchForm {s : String} (h : searchForm s ≠ "") :
    tokens (searchForm s) = pieces (searchForm s) := by
  have hwords : words s ≠ [] := by
    rintro hnil
    rw [searchForm_eq_intercalate, hnil] at h
    exact h rfl
  rw [tokens_eq_words, pieces_searchForm hwords]

/-! ### Search forms read once more -/

theorem toLower_of_isWordChar :
    ∀ n < 128, isWordChar (Char.ofNat n) = true → (Char.ofNat n).toLower = Char.ofNat n := by
  decide +kernel

/-- Word characters and spaces are in lower case already. -/
theorem lowerChars_eq_self (h : ∀ c ∈ s, isWordChar c = true ∨ c = ' ') (inWord : Bool) :
    lowerChars inWord s = s := by
  induction s generalizing inWord with
  | nil => rfl
  | cons c rest ih =>
    obtain ⟨hc, hrest⟩ := List.forall_mem_cons.mp h
    have hascii : c.toNat < 128 := by
      rcases hc with hc | rfl
      · have := toNat_of_isWordChar hc
        omega
      · decide
    have hlower : c.toLower = c := by
      rcases hc with hc | rfl
      · rw [← Char.ofNat_toNat c] at hc ⊢
        exact toLower_of_isWordChar _ hascii hc
      · decide
    have hsigma : ¬ (c == 'Σ') = true := by
      rw [beq_iff_eq]
      rintro rfl
      exact absurd hascii (by decide)
    rw [lowerChars, if_neg hsigma, lowerChar, if_pos hascii, hlower, ih hrest,
      List.singleton_append]

theorem mem_intercalate_space (h : c ∈ [' '].intercalate ws) : c = ' ' ∨ ∃ w ∈ ws, c ∈ w := by
  induction ws with
  | nil => cases h
  | cons w more ih =>
    cases more with
    | nil =>
      rw [List.intercalate_singleton] at h
      exact .inr ⟨w, List.mem_cons_self, h⟩
    | cons w' more =>
      rw [List.intercalate_cons_cons, List.append_assoc, List.singleton_append, List.mem_append,
        List.mem_cons] at h
      rcases h with hw | hspace | hmore
      · exact .inr ⟨w, List.mem_cons_self, hw⟩
      · exact .inl hspace
      · exact (ih hmore).imp_right fun ⟨v, hv, hc⟩ => ⟨v, List.mem_cons_of_mem _ hv, hc⟩

theorem lower_searchForm (s : String) : lower (searchForm s) = searchForm s := by
  have hplain : ∀ c ∈ (searchForm s).toList, isWordChar c = true ∨ c = ' ' := by
    intro c hc
    rw [toList_searchForm] at hc
    rcases mem_intercalate_space hc with hspace | ⟨w, hw, hmem⟩
    · exact .inr hspace
    · exact .inl ((isWord_of_mem_runs _ w hw).all c hmem)
  rw [lower, lowerChars_eq_self hplain, String.ofList_toList]

/-- The words of a search form are those of the text. -/
theorem words_searchForm (s : String) : words (searchForm s) = words s := by
  rw [words, lower_searchForm, toList_searchForm, runs_intercalate (isWord_of_mem_runs _), words]

theorem searchForm_searchForm (s : String) : searchForm (searchForm s) = searchForm s := by
  rw [searchForm_eq_intercalate (searchForm s), words_searchForm, ← searchForm_eq_intercalate]

/-! ### Places of words -/

/-- A word character stands at the place. -/
def isWordAt (s : List Char) (place : ℕ) : Bool := s[place]?.any isWordChar

/-- From the first place up to the stop there are word characters only, and there is none
next to them on either side. -/
structure IsRun (s : List Char) (first stop : ℕ) : Prop where
  first_lt : first < stop
  all : ∀ k, first ≤ k → k < stop → isWordAt s k = true
  before : ∀ k, k + 1 = first → isWordAt s k = false
  behind : isWordAt s stop = false

/-- The places of all runs of a text, in order. -/
structure AreRuns (s : List Char) (places : List (ℕ × ℕ)) : Prop where
  pairwise : places.Pairwise fun a b => a.2 < b.1
  mem_iff : ∀ first stop, (first, stop) ∈ places ↔ IsRun s first stop

/-- A place in what stands behind `n` characters. -/
def pushed (n : ℕ) (place : ℕ × ℕ) : ℕ × ℕ := (n + place.1, n + place.2)

theorem isWordAt_append (w rest : List Char) (k : ℕ) :
    isWordAt (w ++ rest) (w.length + k) = isWordAt rest k := by
  rw [isWordAt, List.getElem?_append_right (Nat.le_add_right _ _), Nat.add_sub_cancel_left,
    isWordAt]

theorem isWordAt_append_left {k : ℕ} (h : k < w.length) :
    isWordAt (w ++ rest) k = isWordAt w k := by
  rw [isWordAt, List.getElem?_append_left h, isWordAt]

theorem StartsOutside.isWordAt_zero (h : StartsOutside s) : isWordAt s 0 = false := by
  cases s with
  | nil => rfl
  | cons c rest => exact h c rfl

theorem IsWord.isWordAt (h : IsWord w) {k : ℕ} (hk : k < w.length) : isWordAt w k = true := by
  rw [Text.isWordAt, List.getElem?_eq_getElem hk]
  exact h.all _ (List.getElem_mem hk)

/-- Runs behind some characters are those of what follows, when no run goes across. -/
theorem isRun_append {first stop : ℕ}
    (h : ∀ k, k + 1 = w.length → isWordAt w k = true → isWordAt rest 0 = false) :
    IsRun (w ++ rest) (w.length + first) (w.length + stop) ↔ IsRun rest first stop := by
  constructor
  · intro hrun
    refine ⟨by have := hrun.first_lt; omega, fun k hk hstop => ?_, fun k hk => ?_, ?_⟩
    · rw [← isWordAt_append w rest k]
      exact hrun.all _ (by omega) (by omega)
    · rw [← isWordAt_append w rest k]
      exact hrun.before _ (by omega)
    · rw [← isWordAt_append w rest stop]
      exact hrun.behind
  · intro hrun
    refine ⟨by have := hrun.first_lt; omega, fun k hk hstop => ?_, fun k hk => ?_, ?_⟩
    · obtain ⟨k, rfl⟩ := Nat.exists_eq_add_of_le (show w.length ≤ k by omega)
      rw [isWordAt_append]
      exact hrun.all k (by omega) (by omega)
    · by_cases hlen : w.length ≤ k
      · obtain ⟨k, rfl⟩ := Nat.exists_eq_add_of_le hlen
        rw [isWordAt_append]
        exact hrun.before k (by omega)
      · -- the run begins where the characters before it end
        have hfirst : first = 0 := by omega
        rw [isWordAt_append_left (by omega), ← Bool.not_eq_true]
        intro hword
        have hnone := h k (by omega) hword
        rw [hrun.all 0 (by omega) (hfirst ▸ hrun.first_lt)] at hnone
        cases hnone
    · rw [isWordAt_append]
      exact hrun.behind

variable {places : List (ℕ × ℕ)}

theorem AreRuns.mem_map_pushed (hplaces : AreRuns rest places)
    (h : ∀ k, k + 1 = w.length → isWordAt w k = true → isWordAt rest 0 = false)
    (first stop : ℕ) : (first, stop) ∈ places.map (pushed w.length) ↔
      w.length ≤ first ∧ IsRun (w ++ rest) first stop := by
  constructor
  · intro hmem
    obtain ⟨⟨i, j⟩, hplace, heq⟩ := List.mem_map.mp hmem
    obtain ⟨rfl, rfl⟩ := Prod.mk.inj heq
    exact ⟨Nat.le_add_right _ _, (isRun_append h).mpr ((hplaces.mem_iff i j).mp hplace)⟩
  · rintro ⟨hfirst, hrun⟩
    obtain ⟨i, rfl⟩ := Nat.exists_eq_add_of_le hfirst
    obtain ⟨j, rfl⟩ := Nat.exists_eq_add_of_le (hfirst.trans hrun.first_lt.le)
    exact List.mem_map.mpr ⟨(i, j), (hplaces.mem_iff i j).mpr ((isRun_append h).mp hrun), rfl⟩

theorem AreRuns.pairwise_pushed (hplaces : AreRuns rest places) (n : ℕ) :
    (places.map (pushed n)).Pairwise fun a b => a.2 < b.1 :=
  List.pairwise_map.mpr (hplaces.pairwise.imp fun h => Nat.add_lt_add_left h n)

/-- A character outside words moves the runs by one place. -/
theorem AreRuns.gap (hplaces : AreRuns rest places) (hc : isWordChar c = false) :
    AreRuns (c :: rest) (places.map (pushed 1)) where
  pairwise := hplaces.pairwise_pushed 1
  mem_iff := fun first stop => by
    have hacross : ∀ k, k + 1 = [c].length → isWordAt [c] k = true → isWordAt rest 0 = false := by
      intro k hk hword
      obtain rfl : k = 0 := by simpa using hk
      exact absurd (hc.symm.trans hword) Bool.false_ne_true
    have hmem := hplaces.mem_map_pushed hacross first stop
    rw [List.singleton_append] at hmem
    refine hmem.trans (and_iff_right_of_imp fun hrun => ?_)
    refine Nat.pos_of_ne_zero fun hzero => ?_
    have hword : isWordChar c = true := hrun.all 0 (by omega) (hzero ▸ hrun.first_lt)
    exact absurd (hc.symm.trans hword) Bool.false_ne_true

/-- A run that begins within the first word is that word. -/
theorem isRun_first_word (hw : IsWord w) (hrest : StartsOutside rest) {first stop : ℕ}
    (h : first < w.length) :
    IsRun (w ++ rest) first stop ↔ first = 0 ∧ stop = w.length := by
  have hstop : isWordAt (w ++ rest) w.length = false := by
    rw [← Nat.add_zero w.length, isWordAt_append, hrest.isWordAt_zero]
  have hinside : ∀ k < w.length, isWordAt (w ++ rest) k = true := by
    intro k hk
    rw [isWordAt_append_left hk, hw.isWordAt hk]
  constructor
  · intro hrun
    refine ⟨?_, ?_⟩
    · by_contra hfirst
      have hbefore := hrun.before (first - 1) (by omega)
      rw [hinside _ (by omega)] at hbefore
      cases hbefore
    · rcases lt_trichotomy stop w.length with hlt | heq | hgt
      · have hbehind := hrun.behind
        rw [hinside stop hlt] at hbehind
        cases hbehind
      · exact heq
      · have hall := hrun.all w.length h.le hgt
        rw [hstop] at hall
        cases hall
  · rintro ⟨rfl, rfl⟩
    exact ⟨h, fun k _ hk => hinside k hk, fun k hk => absurd hk (Nat.succ_ne_zero k), hstop⟩

/-- A word in front is one more run. -/
theorem AreRuns.word (hplaces : AreRuns rest places) (hw : IsWord w)
    (hrest : StartsOutside rest) :
    AreRuns (w ++ rest) ((0, w.length) :: places.map (pushed w.length)) where
  pairwise := by
    refine List.pairwise_cons.mpr ⟨?_, hplaces.pairwise_pushed _⟩
    intro place hmem
    obtain ⟨⟨i, j⟩, hplace, rfl⟩ := List.mem_map.mp hmem
    have hrun := (hplaces.mem_iff i j).mp hplace
    have hpos : i ≠ 0 := by
      rintro rfl
      have hword := hrun.all 0 le_rfl hrun.first_lt
      rw [hrest.isWordAt_zero] at hword
      cases hword
    show w.length < w.length + i
    omega
  mem_iff := fun first stop => by
    rw [List.mem_cons, hplaces.mem_map_pushed (fun _ _ _ => hrest.isWordAt_zero), Prod.mk.injEq]
    by_cases hfirst : first < w.length
    · rw [isRun_first_word hw hrest hfirst]
      exact or_iff_left fun h => absurd h.1 (by omega)
    · have hpos : 0 < w.length := List.length_pos_iff.mpr hw.ne_nil
      rw [or_iff_right fun h => by omega]
      exact and_iff_right (by omega)

/-- The runs of a text are what stands at their places, all of them and in order. -/
theorem exists_areRuns (s : List Char) : ∃ places, AreRuns s places
    ∧ runs s = places.map fun place => s.extract place.1 place.2 := by
  have hpushed : ∀ (w rest : List Char) (places : List (ℕ × ℕ)),
      (places.map (pushed w.length)).map (fun p => (w ++ rest).extract p.1 p.2)
        = places.map fun p => rest.extract p.1 p.2 := by
    intro w rest places
    rw [List.map_map]
    refine List.map_congr_left fun p _ => ?_
    rw [Function.comp_apply, pushed, List.extract_eq_take_drop, List.extract_eq_take_drop,
      List.drop_length_add_append, Nat.add_sub_add_left]
  induction s using word_induction with
  | nil =>
    refine ⟨[], ⟨List.Pairwise.nil, fun first stop => ?_⟩, rfl⟩
    refine (iff_false_left List.not_mem_nil).mpr fun hrun => ?_
    have hword := hrun.all first le_rfl hrun.first_lt
    cases hword
  | gap c rest hc ih =>
    obtain ⟨places, hplaces, hruns⟩ := ih
    refine ⟨_, hplaces.gap hc, ?_⟩
    rw [runs_gap hc, hruns]
    exact (hpushed [c] rest places).symm
  | word w rest hw hrest ih =>
    obtain ⟨places, hplaces, hruns⟩ := ih
    refine ⟨_, hplaces.word hw hrest, ?_⟩
    rw [runs_append hw hrest, hruns, List.map_cons, hpushed, List.extract_eq_take_drop,
      Nat.sub_zero, List.drop_zero, List.take_left]

/-- The words of a text are what stands at the places of the runs in its lower case. -/
theorem exists_places_words (s : String) : ∃ places, AreRuns (lower s).toList places
    ∧ words s = places.map fun place =>
        String.ofList ((lower s).toList.extract place.1 place.2) := by
  obtain ⟨places, hplaces, hruns⟩ := exists_areRuns (lower s).toList
  refine ⟨places, hplaces, ?_⟩
  rw [words, hruns, List.map_map]
  rfl

end BuildDesk.Text

namespace BuildDesk.Search

open Text (searchForm trim words tokens)

/-- Blanks around a search make no difference to it. -/
theorem rank_trim (query : String) (jobs : List Job) : rank (trim query) jobs = rank query jobs := by
  rw [rank, rank, Text.searchForm_trim]

/-- **A search form is the words of a text.**  The words are the maximal runs of the characters
a to z and 0 to 9 in the lower-case text, all of them and in order, and the search form is
these words with single spaces between them.  So no space stands at its start, at its end or
beside another one; cutting it at its spaces gives the words, and joining those gives it
back; its own search form is itself; and neither a search form nor a ranking changes when the
blanks around a text are taken off. -/
theorem search_form_is_its_words (s : String) :
    (∃ places, Text.AreRuns (Text.lower s).toList places
      ∧ words s = places.map fun place =>
          String.ofList ((Text.lower s).toList.extract place.1 place.2))
    ∧ searchForm s = " ".intercalate (words s)
    ∧ Text.IsSingleSpaced (searchForm s).toList
    ∧ tokens (searchForm s) = words s
    ∧ " ".intercalate (tokens (searchForm s)) = searchForm s
    ∧ searchForm (searchForm s) = searchForm s
    ∧ searchForm (trim s) = searchForm s
    ∧ ∀ jobs, rank (trim s) jobs = rank s jobs := by
  have hwords := Text.searchForm_eq_intercalate s
  have htokens := Text.tokens_eq_words s
  refine ⟨Text.exists_places_words s, hwords, ?_, htokens, ?_, Text.searchForm_searchForm s,
    Text.searchForm_trim s, rank_trim s⟩
  · rw [Text.toList_searchForm]
    exact Text.isSingleSpaced_intercalate (Text.isWord_of_mem_runs _)
  · rw [htokens, hwords]

end BuildDesk.Search
