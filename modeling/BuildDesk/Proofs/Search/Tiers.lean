/-
Searches for the whole of a name, and for its beginning.

A name that is the very search scores 100, one that begins with it 80, and everything else
at most 60 (`score_of_beginsWith`, `score_le`), whatever other jobs there are and however
common the words of the search are among them.  The gap is wider than what counts as about
as good, so each of the two kinds is found alone:

* `resolve_of_exact` — jobs that are called as the search says are found, and no others;
* `resolve_of_beginning` — without these, the jobs with a name that begins so;
* `resolve_by_tier` — both, and that a name that one job has leads to that job alone.

Of the arithmetic with doubles only one thing counts: the score for shared words is forty at
most (`SharesBounded`).
-/
import BuildDesk.Proofs.Search.Ranking

namespace BuildDesk.Search

open Text

/-! ### One text -/

section OneText

variable {names : Population} {better : Bool} {query text : String}

/-- A text that begins with a search has all of its words. -/
theorem coversAll_of_beginsWith (h : beginsWith query text = true) :
    (!(tokens query).isEmpty && !coversAll (tokens query) (pieces text)) = false := by
  cases hwords : (tokens query).isEmpty with
  | true => rfl
  | false =>
    have hall : (tokens query).all (fun w => (pieces text).any fun n => beginsWith w n) = true := by
      refine List.all_eq_true.mpr fun w hw => List.any_eq_true.mpr ?_
      exact pieces_of_beginsWith h w (List.mem_filter.mp hw).1
    rw [coversAll, hwords, hall]
    rfl

/-- The very search scores 100, and another text that begins with it 80. -/
theorem score_of_beginsWith (hquery : query ≠ "") (h : beginsWith query text = true) :
    score names better query text = if text = query then 100 else 80 := by
  have htext : text ≠ "" := ne_empty_of_beginsWith hquery h
  have hexact : exactScore names better query text = if text = query then 100 else 80 := by
    unfold exactScore
    simp only [coversAll_of_beginsWith h, h, hquery, htext, beq_iff_eq, Bool.or_eq_true,
      Bool.false_eq_true, or_self, if_false, if_true]
  rw [score, hexact]
  by_cases heq : text = query
  · rw [if_pos heq]
    rfl
  · rw [if_neg heq]
    rfl

theorem occurrenceScore_le (better : Bool) (wordCount partCount : Nat) :
    occurrenceScore better wordCount partCount ≤ 60 := by
  unfold occurrenceScore
  split
  · omega
  · dsimp only
    split
    · exact Nat.sub_le _ _
    · omega

theorem likenessScore_le (query text : String) : likenessScore query text ≤ 22 := by
  unfold likenessScore
  split
  · omega
  · split
    · omega
    · omega

/-- A text that does not begin with the search scores 60 at most. -/
theorem score_le (h : ¬ beginsWith query text = true)
    (hshare : overlapScore names (tokens query) (pieces text) ≤ 40) :
    score names better query text ≤ 60 := by
  -- the branches for the very search and for its beginning are out of reach
  have hne : ¬ text = query := by
    rintro rfl
    exact h (beginsWith_self text)
  have hexact : exactScore names better query text ≤ 60 := by
    unfold exactScore
    simp only [h, hne, beq_iff_eq, Bool.false_eq_true, if_false]
    split
    · omega
    · split
      · omega
      · split
        · exact occurrenceScore_le _ _ _
        · split
          · omega
          · omega
  rw [score]
  have hlike := likenessScore_le query text
  split
  · omega
  · exact hexact

end OneText

/-! ### One job -/

theorem bestScore_le_iff {names : Population} {better : Bool} {query : String}
    {texts : List String} {k : Nat} :
    bestScore names better query texts ≤ k ↔ ∀ t ∈ texts, score names better query t ≤ k := by
  -- the best so far is left open, where the fold begins with 0
  have hfrom : ∀ (ts : List String) (start : Nat),
      ts.foldl (fun best t => max best (score names better query t)) start ≤ k ↔
        start ≤ k ∧ ∀ t ∈ ts, score names better query t ≤ k := by
    intro ts
    induction ts with
    | nil => simp
    | cons t rest ih =>
      intro start
      rw [List.foldl_cons, ih, List.forall_mem_cons, Nat.max_le, and_assoc]
  rw [bestScore, hfrom]
  simp

/-- The score for shared words is forty at most.  This is all that a search has to rely on
of the arithmetic with doubles. -/
def SharesBounded (form : String) (jobs : List Job) : Prop :=
  ∀ job ∈ jobs, ∀ text ∈ job.forms,
    overlapScore (population jobs) (tokens form) (pieces text) ≤ 40

section OneJob

variable {form : String} {jobs : List Job} {job : Job}

/-- A job with the very search among its names scores 100. -/
theorem scoreAmong_of_mem (hform : form ≠ "") (hshare : SharesBounded form jobs) (hjob : job ∈ jobs)
    (h : form ∈ job.forms) : scoreAmong form jobs job = 100 := by
  refine Nat.le_antisymm (bestScore_le_iff.mpr fun text htext => ?_) ?_
  · by_cases hbegins : beginsWith form text = true
    · rw [score_of_beginsWith hform hbegins]
      split
      · omega
      · omega
    · have hle : score (population jobs) (betterMatch form (jobs.map foundBy)) form text ≤ 60 :=
        score_le hbegins (hshare job hjob text (foundBy_subset job htext))
      omega
  · have hle := bestScore_le_iff.mp (Nat.le_refl (scoreAmong form jobs job)) form
      ((mem_foundBy_iff hform).mpr h)
    rwa [score_of_beginsWith hform (beginsWith_self form), if_pos rfl] at hle

/-- Another job scores 80 at most. -/
theorem scoreAmong_le_of_not_mem (hform : form ≠ "") (hshare : SharesBounded form jobs)
    (hjob : job ∈ jobs) (h : form ∉ job.forms) : scoreAmong form jobs job ≤ 80 := by
  refine bestScore_le_iff.mpr fun text htext => ?_
  have hmem : text ∈ job.forms := foundBy_subset job htext
  by_cases hbegins : beginsWith form text = true
  · rw [score_of_beginsWith hform hbegins, if_neg]
    rintro rfl
    exact h hmem
  · have hle : score (population jobs) (betterMatch form (jobs.map foundBy)) form text ≤ 60 :=
      score_le hbegins (hshare job hjob text hmem)
    omega

/-- A job with a name that begins with the search scores 80, unless it has the search itself. -/
theorem scoreAmong_of_begins (hform : form ≠ "") (hshare : SharesBounded form jobs)
    (hjob : job ∈ jobs) (h : form ∉ job.forms)
    (hbegins : ∃ text ∈ job.forms, beginsWith form text = true) :
    scoreAmong form jobs job = 80 := by
  refine Nat.le_antisymm (scoreAmong_le_of_not_mem hform hshare hjob h) ?_
  obtain ⟨text, htext, hbegins⟩ := hbegins
  have hfound : text ∈ foundBy job :=
    (mem_foundBy_iff (ne_empty_of_beginsWith hform hbegins)).mpr htext
  have hne : ¬ text = form := by
    rintro rfl
    exact h htext
  have hle := bestScore_le_iff.mp (Nat.le_refl (scoreAmong form jobs job)) text hfound
  rwa [score_of_beginsWith hform hbegins, if_neg hne] at hle

/-- A job of which no name begins with the search scores 60 at most. -/
theorem scoreAmong_le (hshare : SharesBounded form jobs) (hjob : job ∈ jobs)
    (h : ¬ ∃ text ∈ job.forms, beginsWith form text = true) : scoreAmong form jobs job ≤ 60 := by
  refine bestScore_le_iff.mpr fun text htext => ?_
  have hmem : text ∈ job.forms := foundBy_subset job htext
  exact score_le (fun hbegins => h ⟨text, hmem, hbegins⟩) (hshare job hjob text hmem)

end OneJob

/-! ### The two kinds of matches -/

section Tiers

variable {jobs : List Job} {query : String}

/-- The jobs that are called as the search says are found, and no others. -/
theorem resolve_of_exact (h : ∀ job ∈ jobs, job.HasTextName) (hform : searchForm query ≠ "")
    (hshare : SharesBounded (searchForm query) jobs)
    (hsome : ∃ job ∈ jobs, searchForm query ∈ job.forms) :
    resolve query jobs = .ok (((jobs.filter fun job =>
      job.forms.contains (searchForm query)).mergeSort shownBefore).take 10) := by
  refine resolve_of_top h (trim_ne_empty hform) (show 20 ≤ 100 by omega) ?_
    (fun job hjob hmem => ?_) fun job hjob hmem => ?_
  · obtain ⟨job, hjob, hmem⟩ := hsome
    exact ⟨job, hjob, List.contains_iff_mem.mpr hmem⟩
  · exact scoreAmong_of_mem hform hshare hjob (List.contains_iff_mem.mp hmem)
  · have hle := scoreAmong_le_of_not_mem hform hshare hjob fun h =>
      hmem (List.contains_iff_mem.mpr h)
    omega

/-- When no job is called as the search says, the jobs with a name that begins so are found,
and no others. -/
theorem resolve_of_beginning (h : ∀ job ∈ jobs, job.HasTextName) (hform : searchForm query ≠ "")
    (hshare : SharesBounded (searchForm query) jobs)
    (hnone : ∀ job ∈ jobs, searchForm query ∉ job.forms)
    (hsome : ∃ job ∈ jobs, ∃ text ∈ job.forms, beginsWith (searchForm query) text = true) :
    resolve query jobs = .ok (((jobs.filter fun job =>
      job.forms.any (beginsWith (searchForm query))).mergeSort shownBefore).take 10) := by
  refine resolve_of_top h (trim_ne_empty hform) (show 20 ≤ 80 by omega) ?_
    (fun job hjob hbegins => ?_) fun job hjob hbegins => ?_
  · obtain ⟨job, hjob, hbegins⟩ := hsome
    exact ⟨job, hjob, List.any_eq_true.mpr hbegins⟩
  · exact scoreAmong_of_begins hform hshare hjob (hnone job hjob) (List.any_eq_true.mp hbegins)
  · have hle := scoreAmong_le hshare hjob fun h => hbegins (List.any_eq_true.mpr h)
    omega

/-- **Whole names and their beginnings.**  A search with words in it finds the jobs that have
it for a name or a full name, when there are any; and else the jobs with a name that begins
with it, when there are any.  They are listed by the length of the display name and then by
the display name, ten of them at most.  So a name that only one job has leads to that job
alone, whatever other jobs there are. -/
theorem resolve_by_tier (h : ∀ job ∈ jobs, job.HasTextName) (hform : searchForm query ≠ "")
    (hshare : SharesBounded (searchForm query) jobs) :
    ((∃ job ∈ jobs, searchForm query ∈ job.forms) →
      resolve query jobs = .ok (((jobs.filter fun job =>
        job.forms.contains (searchForm query)).mergeSort shownBefore).take 10))
    ∧ ((∀ job ∈ jobs, searchForm query ∉ job.forms) →
      (∃ job ∈ jobs, ∃ text ∈ job.forms, beginsWith (searchForm query) text = true) →
      resolve query jobs = .ok (((jobs.filter fun job =>
        job.forms.any (beginsWith (searchForm query))).mergeSort shownBefore).take 10))
    ∧ ∀ before job after, jobs = before ++ job :: after → searchForm query ∈ job.forms →
      (∀ other ∈ before ++ after, searchForm query ∉ other.forms) →
      resolve query jobs = .ok [job] := by
  refine ⟨resolve_of_exact h hform hshare, resolve_of_beginning h hform hshare, ?_⟩
  intro before job after hjobs hmem hothers
  have hsome : ∃ job ∈ jobs, searchForm query ∈ job.forms := by
    refine ⟨job, ?_, hmem⟩
    rw [hjobs]
    exact List.mem_append_right _ List.mem_cons_self
  have hout : ∀ l : List Job, (∀ other ∈ l, searchForm query ∉ other.forms) →
      l.filter (fun other => other.forms.contains (searchForm query)) = [] := by
    intro l hl
    refine List.filter_eq_nil_iff.mpr fun other hother hcontains => ?_
    exact hl other hother (List.contains_iff_mem.mp hcontains)
  have halone : jobs.filter (fun job => job.forms.contains (searchForm query)) = [job] := by
    obtain ⟨hbefore, hafter⟩ := List.forall_mem_append.mp hothers
    have hhere : (job :: after).filter (fun job => job.forms.contains (searchForm query))
        = job :: after.filter fun job => job.forms.contains (searchForm query) :=
      List.filter_cons_of_pos (List.contains_iff_mem.mpr hmem)
    rw [hjobs, List.filter_append, hout before hbefore, hhere, hout after hafter]
    rfl
  rw [resolve_of_exact h hform hshare hsome, halone, List.mergeSort_singleton]
  rfl

/-- A name typed in full leads to its job, although two other names begin with it. -/
theorem resolve_whole_name :
    let jobs : List Job := [⟨"deploy-api-v2", "v", .null, []⟩, ⟨"Deploy API", "u", .null, []⟩,
      ⟨"site", "w", .str "deploy/api/site", []⟩]
    (∀ job ∈ jobs, job.HasTextName) ∧ searchForm " deploy_api " ≠ ""
      ∧ SharesBounded (searchForm " deploy_api ") jobs
      ∧ resolve " deploy_api " jobs = .ok [⟨"Deploy API", "u", .null, []⟩] := by
  intro jobs
  have hnames : ∀ job ∈ jobs, job.HasTextName := by
    simp only [jobs, List.forall_mem_cons]
    exact ⟨.inl rfl, .inl rfl, .inr ⟨_, rfl⟩, List.forall_mem_nil _⟩
  have hform : searchForm " deploy_api " ≠ "" := by decide +kernel
  have hshare : SharesBounded (searchForm " deploy_api ") jobs := by
    unfold SharesBounded
    decide +kernel
  obtain ⟨-, -, halone⟩ := resolve_by_tier hnames hform hshare
  refine ⟨hnames, hform, hshare, halone [_] _ [_] rfl ?_ ?_⟩
  · decide +kernel
  · decide +kernel

end Tiers

end BuildDesk.Search
