/-
Names with further words.

A search may stand inside a name, behind its beginning.  Such a name loses points for each word
that it has beyond those of the search, and more of them where some name is the search or begins
with it.  By itself this never helps a name with more words (`occurrenceScore_antitone`).  But a
name that has no points left counts as one in which the search does not stand at all, and is
scored once more, by likeness: and a name with all the words of the search is as alike to it as
can be.  So a name with many further words may come before one with few
(`further_words_help_iff`):

* `IsInside` — the search stands inside a name and all of its words begin words there;
* `lost` — the points that a name loses where there is a better match;
* `scoreAmong_of_isInside` — the score of a job by such a name;
* `IsOvertaken` — just when the job with more words has the higher score.
-/
import BuildDesk.Proofs.Search.Head
import BuildDesk.Proofs.Search.Words

namespace BuildDesk

/-- The job goes by its name alone. -/
def Job.HasNameOnly (job : Job) : Prop := job.fullName.truthy = false

namespace Search

open Text (beginsWith occursIn pieces searchForm tokens)

/-- The search stands inside the text, but not at its beginning, and every word of it begins a
word of the text. -/
structure IsInside (form text : String) : Prop where
  occurs : occursIn form text = true
  notFirst : ¬ beginsWith form text = true
  covers : ∀ w ∈ tokens form, ∃ n ∈ tokens text, beginsWith w n = true

/-- Some name of a job is the search or begins with it. -/
def HasBetter (form : String) (jobs : List Job) : Prop :=
  ∃ job ∈ jobs, ∃ text ∈ foundBy job, beginsWith form text = true

/-- The points that a text loses for its further words where there is a better match. -/
def lost (form text : String) : Nat :=
  ((tokens text).length - (tokens form).length) * if (tokens form).length = 1 then 10 else 20

/-- The text is so like the search that it may be a typing error. -/
def IsLike (form text : String) : Prop := 4 ≤ form.length ∧ alike form text = true

/-- The second text gets more points than the first: there is a better match, the second text has
no points left for the search inside it but is like it, and to the first are left less points than
a text gets for that, or none, and then it is not like the search. -/
structure IsOvertaken (form : String) (jobs : List Job) (first second : String) : Prop where
  better : HasBetter form jobs
  spent : 60 ≤ lost form second
  like : IsLike form second
  behind : 38 < lost form first
  unlike : 60 ≤ lost form first → ¬ IsLike form first

variable {jobs : List Job} {names : Population} {form text query : String} {better : Bool}

/-! ### Points -/

/-- What the penalty leaves. -/
theorem occurrenceScore_eq (better : Bool) (wordCount partCount : Nat) :
    occurrenceScore better wordCount partCount =
      if better then 60 - (partCount - wordCount) * (if wordCount = 1 then 10 else 20)
      else max 25 (60 - (partCount - wordCount) * (if wordCount = 1 then 4 else 8)) := by
  unfold occurrenceScore
  by_cases hfew : partCount ≤ wordCount
  · rw [if_pos hfew, Nat.sub_eq_zero_of_le hfew]
    cases better <;> simp
  · rw [if_neg hfew]
    simp only [beq_iff_eq]

/-- Further words cost points and never bring any. -/
theorem occurrenceScore_antitone (better : Bool) (wordCount : Nat) :
    Antitone (occurrenceScore better wordCount) := by
  intro m n hmn
  rw [occurrenceScore_eq, occurrenceScore_eq]
  have hcost (k : Nat) : 60 - (n - wordCount) * k ≤ 60 - (m - wordCount) * k :=
    Nat.sub_le_sub_left (Nat.mul_le_mul_right k (Nat.sub_le_sub_right hmn wordCount)) 60
  split
  · exact hcost _
  · exact max_le_max_left 25 (hcost _)

instance : Decidable (IsLike form text) := inferInstanceAs (Decidable (_ ∧ _))

theorem likenessScore_eq (form text : String) :
    likenessScore form text = if IsLike form text then 22 else 0 := by
  unfold likenessScore leastCorrected
  by_cases hshort : form.length < 4
  · rw [if_pos hshort, if_neg fun h : IsLike form text => absurd h.1 (by omega)]
  · have hlong : IsLike form text ↔ alike form text = true := and_iff_right (Nat.not_lt.mp hshort)
    rw [if_neg hshort]
    simp only [hlong]

theorem lost_mono {first second : String} (h : (tokens first).length ≤ (tokens second).length) :
    lost form first ≤ lost form second :=
  Nat.mul_le_mul_right _ (Nat.sub_le_sub_right h _)

/-- A text with the search inside it has the points that the penalty leaves, or those for likeness
when none are left. -/
theorem score_of_isInside (hform : form ≠ "") (hwords : tokens form = pieces form)
    (hparts : tokens text = pieces text) (h : IsInside form text) :
    score names better form text =
      let inside := occurrenceScore better (tokens form).length (tokens text).length
      if inside = 0 then likenessScore form text else inside := by
  have hempty : ¬ text = "" := by
    rintro rfl
    -- only the empty search stands in the empty text
    have hnil : form.toList.isEmpty = true := h.occurs
    exact hform (String.toList_eq_nil_iff.mp (List.isEmpty_iff.mp hnil))
  have hother : ¬ text = form := by
    rintro rfl
    exact h.notFirst (Text.beginsWith_self _)
  have hcovers : (!(tokens form).isEmpty && !coversAll (tokens form) (pieces text)) = false := by
    cases hnone : (tokens form).isEmpty with
    | true => rfl
    | false =>
      have hall :
          (tokens form).all (fun w => (pieces text).any fun n => beginsWith w n) = true := by
        refine List.all_eq_true.mpr fun w hw => List.any_eq_true.mpr ?_
        exact hparts ▸ h.covers w hw
      rw [coversAll, hnone, hall]
      rfl
  have hexact : exactScore names better form text
      = occurrenceScore better (tokens form).length (tokens text).length := by
    rw [hwords, hparts]
    unfold exactScore
    simp only [hcovers, hform, hempty, hother, h.notFirst, h.occurs, beq_iff_eq, Bool.or_eq_true,
      Bool.false_eq_true, or_self, if_false, if_true]
  rw [score, hexact]
  simp only [beq_iff_eq]

/-! ### Likeness -/

theorem mem_wordSet {w : String} : w ∈ wordSet text ↔ w ∈ tokens text := by
  rw [wordSet, List.mem_mergeSort, List.mem_eraseDups]

/-- A text with all the words of a search is as like it as can be, whatever further words it has. -/
theorem alike_of_subset (hsome : tokens form ≠ []) (h : tokens form ⊆ tokens text) :
    alike form text = true := by
  obtain ⟨w, hw⟩ := List.exists_mem_of_ne_nil _ hsome
  have hform : (wordSet form).isEmpty = false :=
    List.isEmpty_eq_false_iff_exists_mem.mpr ⟨w, mem_wordSet.mpr hw⟩
  have htext : (wordSet text).isEmpty = false :=
    List.isEmpty_eq_false_iff_exists_mem.mpr ⟨w, mem_wordSet.mpr (h hw)⟩
  have hshared : ((wordSet form).filter (wordSet text).contains).isEmpty = false := by
    refine List.isEmpty_eq_false_iff_exists_mem.mpr ⟨w, List.mem_filter.mpr ?_⟩
    exact ⟨mem_wordSet.mpr hw, List.contains_iff_mem.mpr (mem_wordSet.mpr (h hw))⟩
  have honly : ((wordSet form).filter fun w => !(wordSet text).contains w).isEmpty = true := by
    rw [List.isEmpty_iff, List.filter_eq_nil_iff]
    intro v hv hno
    rw [Bool.not_eq_true', List.contains_eq_mem, decide_eq_false_iff_not] at hno
    exact hno (mem_wordSet.mpr (h (mem_wordSet.mp hv)))
  unfold alike
  simp only [hform, htext, hshared, honly, Bool.or_self, Bool.false_eq_true, if_false,
    Bool.not_false, Bool.true_or, Bool.and_self, if_true]

/-! ### Jobs -/

theorem betterMatch_iff : betterMatch form (jobs.map foundBy) = true ↔ HasBetter form jobs := by
  unfold betterMatch HasBetter
  rw [List.any_map, List.any_eq_true]
  refine exists_congr fun job => and_congr_right fun _ => ?_
  rw [Function.comp_apply, List.any_eq_true]
  refine exists_congr fun text => and_congr_right fun _ => ?_
  rw [Bool.or_eq_true, beq_iff_eq]
  constructor
  · rintro (rfl | hbegins)
    · exact Text.beginsWith_self _
    · exact hbegins
  · exact .inr

/-- A job without a full name is found by its name. -/
theorem foundBy_of_nameOnly {job : Job} (htext : job.HasTextName) (honly : job.HasNameOnly)
    (hname : job.name ≠ "") : foundBy job = [searchForm job.name] := by
  have hfull : job.fullName.asString?.toList.filter (· != "") = [] := by
    rcases htext with hnull | ⟨full, hstr⟩
    · rw [hnull]
      rfl
    · rw [Job.HasNameOnly, hstr] at honly
      obtain rfl : full = "" := by simpa [Json.truthy] using honly
      rw [hstr]
      rfl
  rw [foundBy, List.filter_cons_of_pos (by simpa using hname), hfull]
  rfl

/-- The score of a job with the search inside its name. -/
theorem scoreAmong_of_isInside {job : Job} (htext : job.HasTextName) (honly : job.HasNameOnly)
    (h : IsInside (searchForm query) (searchForm job.name)) :
    scoreAmong (searchForm query) jobs job =
      let inside := occurrenceScore (betterMatch (searchForm query) (jobs.map foundBy))
        (tokens (searchForm query)).length (tokens (searchForm job.name)).length
      if inside = 0 then likenessScore (searchForm query) (searchForm job.name) else inside := by
  have hform : searchForm query ≠ "" := by
    intro hempty
    -- every text begins with the empty one
    refine h.notFirst ?_
    rw [hempty]
    rfl
  have hfull : searchForm job.name ≠ "" := by
    intro hempty
    have hnil : (searchForm query).toList.isEmpty = true := by
      have := h.occurs
      rwa [hempty] at this
    exact hform (String.toList_eq_nil_iff.mp (List.isEmpty_iff.mp hnil))
  have hname : job.name ≠ "" := by
    intro hempty
    rw [hempty] at hfull
    exact hfull Text.searchForm_empty
  rw [scoreAmong, foundBy_of_nameOnly htext honly hname, bestScore, List.foldl_cons, List.foldl_nil,
    Nat.zero_max, score_of_isInside hform (Text.tokens_searchForm hform)
    (Text.tokens_searchForm hfull) h]

section

variable {job : Job} (htext : job.HasTextName) (honly : job.HasNameOnly)
  (h : IsInside (searchForm query) (searchForm job.name))
include htext honly h

/-- Where there is a better match a name may have no points left, and then likeness counts. -/
theorem scoreAmong_of_better (hbetter : HasBetter (searchForm query) jobs) :
    scoreAmong (searchForm query) jobs job =
      if 60 ≤ lost (searchForm query) (searchForm job.name) then
        if IsLike (searchForm query) (searchForm job.name) then 22 else 0
      else 60 - lost (searchForm query) (searchForm job.name) := by
  rw [scoreAmong_of_isInside htext honly h, betterMatch_iff.mpr hbetter, occurrenceScore_eq,
    if_pos rfl, ← lost, likenessScore_eq]
  simp only [Nat.sub_eq_zero_iff_le]

/-- Without a better match every name has points left. -/
theorem scoreAmong_of_not_better (hbetter : ¬ HasBetter (searchForm query) jobs) :
    scoreAmong (searchForm query) jobs job =
      occurrenceScore false (tokens (searchForm query)).length
        (tokens (searchForm job.name)).length := by
  have hleft : ¬ occurrenceScore false (tokens (searchForm query)).length
      (tokens (searchForm job.name)).length = 0 := by
    rw [occurrenceScore_eq, if_neg Bool.false_ne_true]
    omega
  rw [scoreAmong_of_isInside htext honly h,
    eq_false_of_ne_true fun hmatch => hbetter (betterMatch_iff.mp hmatch)]
  exact if_neg hleft

end

/-! ### Two jobs -/

section

variable {first second : Job} (h : ∀ job ∈ jobs, job.HasTextName)
  (hfirst : first ∈ jobs) (hsecond : second ∈ jobs)
  (honly : first.HasNameOnly) (honly' : second.HasNameOnly)
  (hin : IsInside (searchForm query) (searchForm first.name))
  (hin' : IsInside (searchForm query) (searchForm second.name))
  (hmore : (tokens (searchForm first.name)).length < (tokens (searchForm second.name)).length)
include h hfirst hsecond honly honly' hin hin' hmore

theorem scoreAmong_lt_iff :
    scoreAmong (searchForm query) jobs first < scoreAmong (searchForm query) jobs second ↔
      IsOvertaken (searchForm query) jobs (searchForm first.name) (searchForm second.name) := by
  have htext := h first hfirst
  have htext' := h second hsecond
  by_cases hbetter : HasBetter (searchForm query) jobs
  · have hlost : lost (searchForm query) (searchForm first.name) ≤
        lost (searchForm query) (searchForm second.name) := lost_mono hmore.le
    rw [scoreAmong_of_better htext honly hin hbetter,
      scoreAmong_of_better htext' honly' hin' hbetter]
    constructor
    · intro hlt
      -- the second has no points left, or it would have less than the first
      have hspent : 60 ≤ lost (searchForm query) (searchForm second.name) := by
        by_contra hleft
        rw [if_neg hleft, if_neg (by omega)] at hlt
        omega
      rw [if_pos hspent] at hlt
      have hlike : IsLike (searchForm query) (searchForm second.name) := by
        by_contra hunlike
        rw [if_neg hunlike] at hlt
        omega
      rw [if_pos hlike] at hlt
      refine ⟨hbetter, hspent, hlike, ?_, fun hnone hlike' => ?_⟩
      · by_contra hahead
        rw [if_neg (by omega)] at hlt
        omega
      · rw [if_pos hnone, if_pos hlike'] at hlt
        omega
    · rintro ⟨-, hspent, hlike, hbehind, hunlike⟩
      rw [if_pos hspent, if_pos hlike]
      by_cases hnone : 60 ≤ lost (searchForm query) (searchForm first.name)
      · rw [if_pos hnone, if_neg (hunlike hnone)]
        omega
      · rw [if_neg hnone]
        omega
  · rw [scoreAmong_of_not_better htext honly hin hbetter,
      scoreAmong_of_not_better htext' honly' hin' hbetter]
    refine iff_of_false (Nat.not_lt.mpr ?_) fun hover => hbetter hover.better
    exact occurrenceScore_antitone false _ hmore.le

/-- **When further words help.**  Take two jobs that go by their names alone, the second with more
words, where the search stands inside both names and all of its words begin words there.  Then the
second gets more points in the ranking just when it overtakes the first; and it is listed without
the first just when it does so and the first has lost more than 40 points. -/
theorem further_words_help_iff :
    (∃ ranked, rank query jobs = .ok ranked ∧ ∀ m, m ∈ ranked ↔
      m.job ∈ jobs ∧ m.score = scoreAmong (searchForm query) jobs m.job ∧ 0 < m.score)
    ∧ (scoreAmong (searchForm query) jobs first < scoreAmong (searchForm query) jobs second ↔
      IsOvertaken (searchForm query) jobs (searchForm first.name) (searchForm second.name))
    ∧ ∃ matched, filter jobs query = .ok matched ∧ (second ∈ matched ∧ first ∉ matched ↔
      IsOvertaken (searchForm query) jobs (searchForm first.name) (searchForm second.name)
        ∧ 40 < lost (searchForm query) (searchForm first.name)) := by
  have hlt := scoreAmong_lt_iff h hfirst hsecond honly honly' hin hin' hmore
  have hquery : query ≠ "" := by
    rintro rfl
    exact hin.notFirst rfl
  have hfilter : filter jobs query = .ok (listed (searchForm query) jobs) := by
    rw [filter, if_neg (by simpa using hquery), rank_eq h]
    rfl
  refine ⟨⟨_, rank_eq h query, fun m => mem_ranking⟩, hlt, _, hfilter, ?_⟩
  rw [mem_listed, mem_listed, ← hlt]
  constructor
  · rintro ⟨⟨-, hlisted⟩, hdropped⟩
    have hlow : scoreAmong (searchForm query) jobs first < 20 := by
      by_contra hhigh
      exact hdropped ⟨hfirst, by omega⟩
    have hless : scoreAmong (searchForm query) jobs first
        < scoreAmong (searchForm query) jobs second := by omega
    rw [scoreAmong_of_better (h first hfirst) honly hin (hlt.mp hless).better] at hlow
    refine ⟨hless, ?_⟩
    split at hlow
    · omega
    · omega
  · rintro ⟨hless, hlost⟩
    have hover := hlt.mp hless
    have hscore := scoreAmong_of_better (h first hfirst) honly hin hover.better
    have hscore' := scoreAmong_of_better (h second hsecond) honly' hin' hover.better
    rw [if_pos hover.spent, if_pos hover.like] at hscore'
    refine ⟨⟨hsecond, by omega⟩, fun hkept => ?_⟩
    have hlisted := hkept.2
    rw [hscore] at hlisted
    by_cases hnone : 60 ≤ lost (searchForm query) (searchForm first.name)
    · rw [if_pos hnone, if_neg (hover.unlike hnone)] at hlisted
      omega
    · rw [if_neg hnone] at hlisted
      omega

end

/-! ### A sixth further word -/

/-- A name with five words around the search. -/
def fewWords : Job := ⟨"a deploy b c d e", "v", .null, []⟩

/-- A name with six words around the search. -/
def manyWords : Job := ⟨"a deploy b c d e f", "w", .null, []⟩

/-- The two names, and the search itself as the name of another job. -/
def namesAround : List Job := [⟨"deploy", "u", .null, []⟩, fewWords, manyWords]

theorem hasTextName_of_namesAround : ∀ job ∈ namesAround, job.HasTextName := by
  simp only [namesAround, List.forall_mem_cons]
  exact ⟨.inl rfl, .inl rfl, .inl rfl, List.forall_mem_nil _⟩

theorem isInside_fewWords : IsInside (searchForm "deploy") (searchForm fewWords.name) where
  occurs := by decide
  notFirst := by decide
  covers := by decide

theorem isInside_manyWords : IsInside (searchForm "deploy") (searchForm manyWords.name) where
  occurs := by decide
  notFirst := by decide
  covers := by decide

/-- The sixth word takes the last points away, but not the likeness. -/
theorem isOvertaken_fewWords : IsOvertaken (searchForm "deploy") namesAround
    (searchForm fewWords.name) (searchForm manyWords.name) where
  better := ⟨_, .head _, "deploy", by decide, by decide +kernel⟩
  spent := by decide
  like := ⟨by decide, alike_of_subset (by decide +kernel) (by decide +kernel)⟩
  behind := by decide
  unlike := by decide

/-- The name with the sixth word is listed, and the one with five words is not. -/
theorem further_words_help_sixth :
    (∀ job ∈ namesAround, job.HasTextName) ∧ fewWords ∈ namesAround ∧ manyWords ∈ namesAround
      ∧ fewWords.HasNameOnly ∧ manyWords.HasNameOnly
      ∧ IsInside (searchForm "deploy") (searchForm fewWords.name)
      ∧ IsInside (searchForm "deploy") (searchForm manyWords.name)
      ∧ (tokens (searchForm fewWords.name)).length < (tokens (searchForm manyWords.name)).length
      ∧ ∃ matched, filter namesAround "deploy" = .ok matched ∧ manyWords ∈ matched
        ∧ fewWords ∉ matched := by
  have hfirst : fewWords ∈ namesAround := .tail _ (.head _)
  have hsecond : manyWords ∈ namesAround := .tail _ (.tail _ (.head _))
  have hmore : (tokens (searchForm fewWords.name)).length
      < (tokens (searchForm manyWords.name)).length := by decide
  obtain ⟨-, -, matched, hmatched, hlisted⟩ := further_words_help_iff hasTextName_of_namesAround
    hfirst hsecond rfl rfl isInside_fewWords isInside_manyWords hmore
  have hlost : 40 < lost (searchForm "deploy") (searchForm fewWords.name) := by decide
  exact ⟨hasTextName_of_namesAround, hfirst, hsecond, rfl, rfl, isInside_fewWords,
    isInside_manyWords, hmore, matched, hmatched, hlisted.mpr ⟨isOvertaken_fewWords, hlost⟩⟩

/-- It is not so that further words never bring points. -/
theorem not_ordered_by_words : ¬ ∀ (query : String) (jobs : List Job) (first second : Job),
    (∀ job ∈ jobs, job.HasTextName) → first ∈ jobs → second ∈ jobs →
    first.HasNameOnly → second.HasNameOnly →
    IsInside (searchForm query) (searchForm first.name) →
    IsInside (searchForm query) (searchForm second.name) →
    (tokens (searchForm first.name)).length < (tokens (searchForm second.name)).length →
    scoreAmong (searchForm query) jobs second ≤ scoreAmong (searchForm query) jobs first := by
  intro h
  have hfirst : fewWords ∈ namesAround := .tail _ (.head _)
  have hsecond : manyWords ∈ namesAround := .tail _ (.tail _ (.head _))
  have hmore : (tokens (searchForm fewWords.name)).length
      < (tokens (searchForm manyWords.name)).length := by decide
  have hle := h "deploy" namesAround fewWords manyWords hasTextName_of_namesAround hfirst hsecond
    rfl rfl isInside_fewWords isInside_manyWords hmore
  have hlt := (scoreAmong_lt_iff hasTextName_of_namesAround hfirst hsecond rfl rfl
    isInside_fewWords isInside_manyWords hmore).mpr isOvertaken_fewWords
  exact Nat.not_lt.mpr hle hlt

end Search
end BuildDesk
