/-
What a search finds, and what it lists.

A search is asked in two ways.  Where a job is needed, it finds the jobs that it may mean; and
where jobs are listed, it gives all of its matches.  Both are cut from one ranking, the first at
a distance from the best score and after ten jobs, the second at a fixed score.  Since a ranking
falls from its first score to its last, a cut at a score leaves a head of it
(`filter_isPrefix`), so what is found are the first of the jobs that are listed
(`finds_head_of_listed`):

* `filter_eq` — the jobs that are listed;
* `closest` — the jobs that may be meant, before only ten of them are taken;
* `filter_isClose_perm` — the close matches among the jobs, whatever their order.
-/
import BuildDesk.Proofs.Search.Orderless

namespace BuildDesk.Search

variable {form query : String} {jobs : List Job} {best : Ranked} {others : List Ranked}

/-! ### Cuts -/

/-- Where a property passes from each element to those before it, the elements with the property
are a head of the list. -/
theorem filter_isPrefix {α : Type} {p : α → Bool} {l : List α}
    (h : l.Pairwise fun a b => p b = true → p a = true) : l.filter p <+: l := by
  induction l with
  | nil => exact List.prefix_rfl
  | cons a rest ih =>
    obtain ⟨hfirst, hrest⟩ := List.pairwise_cons.mp h
    by_cases ha : p a = true
    · rw [List.filter_cons_of_pos ha]
      exact List.cons_prefix_cons.mpr ⟨rfl, ih hrest⟩
    · -- behind an element without the property there is none with it
      have hnone : rest.filter p = [] :=
        List.filter_eq_nil_iff.mpr fun b hb hp => ha (hfirst b hb hp)
      rw [List.filter_cons_of_neg ha, hnone]
      exact List.nil_prefix

theorem isClose_iff {top : Nat} {m : Ranked} :
    isClose top m = true ↔ 20 ≤ m.score ∧ top ≤ m.score + 10 := by
  rw [isClose, isMatch, Bool.and_eq_true, decide_eq_true_eq, decide_eq_true_eq,
    Settings.minScore, Settings.ambiguityGap]
  omega

theorem isMatch_iff {m : Ranked} : isMatch m = true ↔ 20 ≤ m.score := by
  rw [isMatch, decide_eq_true_eq, Settings.minScore]
  omega

/-! ### What is listed -/

/-- The jobs that are listed for a search that is not empty. -/
def listed (form : String) (jobs : List Job) : List Job :=
  ((ranking form jobs).filter isMatch).map (·.job)

theorem filter_eq (h : ∀ job ∈ jobs, job.HasTextName) (hquery : Text.trim query ≠ "") :
    filter jobs (Text.trim query) = .ok (listed (Text.searchForm query) jobs) := by
  rw [filter, if_neg (by simpa using hquery), rank_eq h, Text.searchForm_trim]
  rfl

/-- Every job with 20 points or more is listed. -/
theorem mem_listed {job : Job} :
    job ∈ listed form jobs ↔ job ∈ jobs ∧ 20 ≤ scoreAmong form jobs job := by
  rw [listed, List.mem_map]
  constructor
  · rintro ⟨m, hm, rfl⟩
    obtain ⟨hranked, hmatch⟩ := List.mem_filter.mp hm
    obtain ⟨hjob, hscore, -⟩ := mem_ranking.mp hranked
    exact ⟨hjob, hscore ▸ isMatch_iff.mp hmatch⟩
  · rintro ⟨hjob, hscore⟩
    have hranked : (⟨job, scoreAmong form jobs job⟩ : Ranked) ∈ ranking form jobs :=
      mem_ranking.mpr ⟨hjob, rfl, show 0 < scoreAmong form jobs job by omega⟩
    exact ⟨_, List.mem_filter.mpr ⟨hranked, isMatch_iff.mpr hscore⟩, rfl⟩

/-- The jobs that a search may mean when the best of them has the score `top`. -/
def closest (top : Nat) (form : String) (jobs : List Job) : List Job :=
  ((ranking form jobs).filter (isClose top)).map (·.job)

/-- The jobs that may be meant are a head of those that are listed. -/
theorem closest_isPrefix (top : Nat) (form : String) (jobs : List Job) :
    closest top form jobs <+: listed form jobs := by
  have hclose : (ranking form jobs).filter (isClose top)
      = ((ranking form jobs).filter isMatch).filter (isClose top) := by
    rw [List.filter_filter]
    refine List.filter_congr fun m _ => ?_
    rw [Bool.eq_iff_iff, Bool.and_eq_true, isClose_iff, isMatch_iff]
    omega
  rw [closest, hclose]
  refine (filter_isPrefix ?_).map _
  -- scores fall, so what stands before a close match is close as well
  refine ((pairwise_ranking form jobs).filter _).imp fun {a b} hab hb => ?_
  rw [isClose_iff] at hb ⊢
  omega

theorem closest_eq_filter (top : Nat) (form : String) (jobs : List Job) :
    closest top form jobs
      = (listed form jobs).filter fun job => top ≤ scoreAmong form jobs job + 10 := by
  rw [closest, listed, List.filter_map, List.filter_filter]
  congr 1
  refine List.filter_congr fun m hm => ?_
  obtain ⟨-, hscore, -⟩ := mem_ranking.mp hm
  rw [Bool.eq_iff_iff, Bool.and_eq_true, isClose_iff, isMatch_iff, Function.comp_apply,
    decide_eq_true_eq, ← hscore]
  omega

/-- The jobs that may be meant are those with a score close to the best, in some order. -/
theorem closest_perm (top : Nat) (form : String) (jobs : List Job) :
    (closest top form jobs).Perm (jobs.filter fun job =>
      20 ≤ scoreAmong form jobs job && top ≤ scoreAmong form jobs job + 10) := by
  have hjobs : ((scored form jobs).filter (isClose top)).map Ranked.job
      = jobs.filter fun job => 20 ≤ scoreAmong form jobs job
        && top ≤ scoreAmong form jobs job + 10 := by
    rw [scored, List.filter_map, List.map_map]
    refine (List.map_id' _).trans (List.filter_congr fun job _ => ?_)
    rw [Bool.eq_iff_iff, Function.comp_apply, isClose_iff, Bool.and_eq_true, decide_eq_true_eq,
      decide_eq_true_eq]
  have hpositive : ((scored form jobs).filter fun m => 0 < m.score).filter (isClose top)
      = (scored form jobs).filter (isClose top) := by
    rw [List.filter_filter]
    refine List.filter_congr fun m _ => ?_
    rw [Bool.eq_iff_iff, Bool.and_eq_true, isClose_iff, decide_eq_true_eq]
    omega
  rw [← hjobs, ← hpositive]
  exact ((ranking_perm_scored form jobs).filter _).map _

/-! ### What is found -/

/-- The best score that a job of the list has. -/
def IsBestScore (form : String) (jobs : List Job) (top : Nat) : Prop :=
  (∃ job ∈ jobs, scoreAmong form jobs job = top) ∧ ∀ job ∈ jobs, scoreAmong form jobs job ≤ top

/-- A ranking begins with the best score. -/
theorem isBestScore_of_ranking (h : ranking form jobs = best :: others) :
    IsBestScore form jobs best.score := by
  have hbest : best ∈ ranking form jobs := h ▸ List.mem_cons_self
  obtain ⟨hjob, hscore, -⟩ := mem_ranking.mp hbest
  refine ⟨⟨best.job, hjob, hscore.symm⟩, ?_⟩
  intro job hjob
  by_cases hpos : 0 < scoreAmong form jobs job
  · have hmem : (⟨job, scoreAmong form jobs job⟩ : Ranked) ∈ ranking form jobs :=
      mem_ranking.mpr ⟨hjob, rfl, hpos⟩
    exact score_le_best h (h ▸ hmem)
  · omega

/-- Nothing is listed when the best is no match. -/
theorem listed_eq_nil_iff (h : ranking form jobs = best :: others) :
    listed form jobs = [] ↔ ¬ isMatch best = true := by
  rw [listed, List.map_eq_nil_iff, List.filter_eq_nil_iff, h]
  constructor
  · intro hnone
    exact hnone best List.mem_cons_self
  · intro hbest m hm hmatch
    have hle := score_le_best h hm
    rw [isMatch_iff] at hbest hmatch
    omega

theorem resolve_of_listed_nil (h : ∀ job ∈ jobs, job.HasTextName) (hquery : Text.trim query ≠ "")
    (hnone : listed (Text.searchForm query) jobs = []) :
    resolve query jobs = .error (.complaint (.noJobsMatch (Text.trim query))) := by
  rw [resolve_eq h hquery]
  rcases hranking : ranking (Text.searchForm query) jobs with _ | ⟨best, others⟩
  · rfl
  · exact if_neg ((listed_eq_nil_iff hranking).mp hnone)

/-- When something is listed, the first ten jobs are found that may be meant. -/
theorem resolve_of_listed (h : ∀ job ∈ jobs, job.HasTextName) (hquery : Text.trim query ≠ "")
    (hsome : listed (Text.searchForm query) jobs ≠ []) :
    ∃ top, IsBestScore (Text.searchForm query) jobs top
      ∧ closest top (Text.searchForm query) jobs ≠ []
      ∧ resolve query jobs = .ok ((closest top (Text.searchForm query) jobs).take 10) := by
  rw [resolve_eq h hquery]
  rcases hranking : ranking (Text.searchForm query) jobs with _ | ⟨best, others⟩
  · refine absurd ?_ hsome
    rw [listed, hranking]
    rfl
  · have hmatch : isMatch best = true := by
      by_contra hbest
      exact hsome ((listed_eq_nil_iff hranking).mpr hbest)
    refine ⟨best.score, isBestScore_of_ranking hranking, ?_, ?_⟩
    · -- the best match is close to itself
      have hclose : isClose best.score best = true := by
        rw [isClose_iff]
        rw [isMatch_iff] at hmatch
        omega
      rw [closest, hranking, List.filter_cons_of_pos hclose, List.map_cons]
      exact List.cons_ne_nil _ _
    · rw [closest, hranking]
      exact if_pos hmatch

/-- When one job alone may be meant, no other job of the list comes close to it. -/
theorem far_of_alone {top : Nat} {job other : Job} {before after : List Job}
    (halone : (closest top form jobs).take 10 = [job]) (hjobs : jobs = before ++ job :: after)
    (hother : other ∈ before ++ after) :
    scoreAmong form jobs other < 20 ∨ scoreAmong form jobs other + 10 < top := by
  have hone : closest top form jobs = [job] := by
    have hlength := congrArg List.length halone
    rw [List.length_take, List.length_singleton] at hlength
    rw [← halone, List.take_of_length_le (by omega)]
  -- the close ones among the jobs are this one, and it is one of them where it stands
  have hclose := List.perm_singleton.mp (hone ▸ closest_perm top form jobs).symm
  generalize hp : (fun job => decide (20 ≤ scoreAmong form jobs job)
    && decide (top ≤ scoreAmong form jobs job + 10)) = p at hclose
  have hjob : p job = true := (List.mem_filter.mp (hclose ▸ List.mem_singleton_self job)).2
  rw [hjobs, List.filter_append, List.filter_cons_of_pos hjob] at hclose
  have hnone : (before ++ after).filter p = [] := by
    have hlength := congrArg List.length hclose
    rw [List.length_append, List.length_cons, List.length_singleton] at hlength
    rw [List.filter_append]
    exact List.eq_nil_of_length_eq_zero (by rw [List.length_append]; omega)
  have hfar := List.filter_eq_nil_iff.mp hnone other hother
  subst hp
  rw [Bool.and_eq_true, decide_eq_true_eq, decide_eq_true_eq] at hfar
  omega

/-! ### Both ways to search -/

/-- The message of a search that finds nothing. -/
theorem beginsWith_noJobsMatch (text : String) :
    Text.beginsWith "No jobs match " (Complaint.noJobsMatch text).message = true := by
  have hmessage : (Complaint.noJobsMatch text).message
      = "No jobs match " ++ ("\"" ++ text ++ "\".") := by
    rw [← String.append_assoc, ← String.append_assoc]
    rfl
  rw [hmessage]
  exact Text.beginsWith_append _ _

/-- **What a search finds is the head of what it lists.**  For jobs with names that are texts a
search for a job complains that a name is required just when it is blank, and that no jobs match
just when no match is listed for it.  Else it finds jobs: the first ten of the listed ones that
come within ten points of the best score.  When it finds a single job, every other job of the
list has less than 20 points or is more than ten points behind. -/
theorem finds_head_of_listed (h : ∀ job ∈ jobs, job.HasTextName) (query : String) :
    ((∃ c, resolve query jobs = .error (.complaint c) ∧ c.message = "Job name is required.")
      ↔ Text.trim query = "")
    ∧ (Text.trim query ≠ "" → ∃ matched, filter jobs (Text.trim query) = .ok matched
      ∧ ((∃ c, resolve query jobs = .error (.complaint c)
          ∧ Text.beginsWith "No jobs match " c.message = true) ↔ matched = [])
      ∧ (matched ≠ [] → ∃ found top, resolve query jobs = .ok found
        ∧ found ≠ [] ∧ found <+: matched ∧ found.length ≤ 10
        ∧ IsBestScore (Text.searchForm query) jobs top
        ∧ found = (matched.filter fun job =>
            top ≤ scoreAmong (Text.searchForm query) jobs job + 10).take 10
        ∧ ∀ job before after, found = [job] → jobs = before ++ job :: after →
          ∀ other ∈ before ++ after, scoreAmong (Text.searchForm query) jobs other < 20
            ∨ scoreAmong (Text.searchForm query) jobs other + 10 < top)) := by
  have hblank : Text.trim query = "" →
      resolve query jobs = .error (.complaint .jobNameRequired) := by
    intro hquery
    rw [resolve, hquery]
    rfl
  constructor
  · constructor
    · rintro ⟨c, hfails, hmessage⟩
      by_contra hquery
      rcases resolve_cases h hquery with ⟨found, -, hfound⟩ | hnone
      · cases hfound.symm.trans hfails
      · cases hnone.symm.trans hfails
        have hbegins := beginsWith_noJobsMatch (Text.trim query)
        rw [hmessage] at hbegins
        exact absurd hbegins (by decide)
    · intro hquery
      exact ⟨_, hblank hquery, rfl⟩
  · intro hquery
    refine ⟨_, filter_eq h hquery, ?_, ?_⟩
    · constructor
      · rintro ⟨c, hfails, -⟩
        by_contra hsome
        obtain ⟨top, -, -, hfound⟩ := resolve_of_listed h hquery hsome
        cases hfound.symm.trans hfails
      · intro hnone
        exact ⟨_, resolve_of_listed_nil h hquery hnone, beginsWith_noJobsMatch _⟩
    · intro hsome
      obtain ⟨top, htop, hclose, hfound⟩ := resolve_of_listed h hquery hsome
      refine ⟨_, top, hfound, ?_, ?_, List.length_take_le _ _, htop, ?_, ?_⟩
      · simpa using hclose
      · exact (List.take_prefix _ _).trans (closest_isPrefix _ _ _)
      · rw [closest_eq_filter]
      · intro job before after halone hjobs other hother
        exact far_of_alone halone hjobs hother

/-- A name that two others contain: there are matches, and what is found is a head of them. -/
theorem finds_head_of_three :
    let jobs : List Job := [⟨"web-api", "u", .null, []⟩, ⟨"team", "v", .str "my web api", []⟩,
      ⟨"web", "w", .null, []⟩]
    (∀ job ∈ jobs, job.HasTextName) ∧ Text.trim " web" ≠ ""
      ∧ ∃ matched found, filter jobs (Text.trim " web") = .ok matched ∧ matched ≠ []
        ∧ resolve " web" jobs = .ok found ∧ found ≠ [] ∧ found <+: matched := by
  intro jobs
  have hnames : ∀ job ∈ jobs, job.HasTextName := by
    simp only [jobs, List.forall_mem_cons]
    exact ⟨.inl rfl, .inr ⟨_, rfl⟩, .inl rfl, List.forall_mem_nil _⟩
  have hquery : Text.trim " web" ≠ "" := by decide +kernel
  have hweb : ⟨"web", "w", .null, []⟩ ∈ listed (Text.searchForm " web") jobs :=
    mem_listed.mpr ⟨by simp [jobs], by decide +kernel⟩
  obtain ⟨matched, hmatched, -, hfinds⟩ := (finds_head_of_listed hnames " web").2 hquery
  have hlisted : matched = listed (Text.searchForm " web") jobs :=
    Except.ok.inj (hmatched.symm.trans (filter_eq hnames hquery))
  have hsome : matched ≠ [] := hlisted ▸ List.ne_nil_of_mem hweb
  obtain ⟨found, -, hfound, hne, hhead, -⟩ := hfinds hsome
  exact ⟨hnames, hquery, matched, found, hmatched, hsome, hfound, hne, hhead⟩

end BuildDesk.Search
