/-
How a search ranks jobs.

For jobs with names that are texts a search can only fail by finding nothing, and what it
finds is a part of a ranking: the jobs with a positive score, the best first
(`resolve_eq`, `resolve_cases`).

Ranking is sorting, and a search takes the close matches out of the sorted list.  Since the
sort is stable it makes no difference whether they are taken out before or after
(`filter_mergeSort`), so the matches of one score stand in the order of their shown names
(`resolve_of_top`).
-/
import BuildDesk.Proofs.Search.Found
import BuildDesk.Proofs.Text.SearchForm
import Mathlib.Data.String.Basic

namespace BuildDesk

/-- The job has no full name, or a text for one, which may be empty. -/
def Job.HasTextName (job : Job) : Prop := job.fullName = .null ∨ ∃ s, job.fullName = .str s

/-- The names of a job in search form: its name, and its full name if it has one. -/
def Job.forms (job : Job) : List String :=
  (job.name :: job.fullName.asString?.toList).map Text.searchForm

namespace Search

/-! ### Sorting -/

section Sorting

variable {α : Type} {le : α → α → Bool}

/-- A list is cut in one way into a part with a property and a part without it. -/
theorem append_cancel_of_forall {f : α → Bool} {k₁ k₂ l₁ l₂ : List α} (h : k₁ ++ k₂ = l₁ ++ l₂)
    (hk₁ : ∀ a ∈ k₁, f a = true) (hk₂ : ∀ a ∈ k₂, f a = false)
    (hl₁ : ∀ a ∈ l₁, f a = true) (hl₂ : ∀ a ∈ l₂, f a = false) : k₁ = l₁ ∧ k₂ = l₂ := by
  have htake : ∀ {m₁ m₂ : List α}, (∀ a ∈ m₁, f a = true) → (∀ a ∈ m₂, f a = false) →
      (m₁ ++ m₂).takeWhile f = m₁ := by
    intro m₁ m₂ h₁ h₂
    rw [List.takeWhile_append_of_pos h₁]
    cases m₂ with
    | nil => rw [List.takeWhile_nil, List.append_nil]
    | cons a rest =>
      rw [List.takeWhile_cons_of_neg (by simp [h₂ a List.mem_cons_self]), List.append_nil]
  have hfirst : k₁ = l₁ := by rw [← htake hk₁ hk₂, h, htake hl₁ hl₂]
  rw [hfirst] at h
  exact ⟨hfirst, List.append_cancel_left h⟩

/-- Taking elements out of a list and sorting it may change places. -/
theorem filter_mergeSort (trans : ∀ a b c, le a b = true → le b c = true → le a c = true)
    (total : ∀ a b, (le a b || le b a) = true) (p : α → Bool) (l : List α) :
    (l.mergeSort le).filter p = (l.filter p).mergeSort le := by
  induction l with
  | nil => rw [List.mergeSort_nil, List.filter_nil, List.mergeSort_nil]
  | cons a rest ih =>
    obtain ⟨before, after, hcons, hrest, hbefore⟩ := List.mergeSort_cons trans total a rest
    rw [hrest, List.filter_append] at ih
    rw [hcons, List.filter_append]
    by_cases ha : p a = true
    · rw [List.filter_cons_of_pos ha, List.filter_cons_of_pos ha]
      obtain ⟨before', after', hcons', hrest', hbefore'⟩ :=
        List.mergeSort_cons trans total a (rest.filter p)
      have hsorted : ∀ {l₁ l₂ : List α} {l : List α}, l.mergeSort le = l₁ ++ a :: l₂ →
          ∀ b ∈ l₂, (!le a b) = false := by
        intro l₁ l₂ l hl b hb
        have hpairs := List.pairwise_mergeSort trans total l
        rw [hl, List.pairwise_append, List.pairwise_cons] at hpairs
        rw [hpairs.2.1.1 b hb, Bool.not_true]
      -- both lists are cut where the elements begin that may stand behind `a`
      obtain ⟨hfirst, hlast⟩ := append_cancel_of_forall (f := fun b => !le a b)
        (ih.trans hrest')
        (fun b hb => hbefore b (List.mem_filter.mp hb).1)
        (fun b hb => hsorted hcons b (List.mem_filter.mp hb).1)
        hbefore' (hsorted hcons')
      rw [hcons', hfirst, hlast]
    · rw [List.filter_cons_of_neg ha, List.filter_cons_of_neg ha, ih]

end Sorting

/-! ### Names that are searched -/

/-- The texts by which a job is found: its names in search form, those apart that are empty. -/
def foundBy (job : Job) : List String :=
  ((job.name :: job.fullName.asString?.toList).filter (· != "")).map Text.searchForm

theorem mem_foundBy_iff {job : Job} {text : String} (htext : text ≠ "") :
    text ∈ foundBy job ↔ text ∈ job.forms := by
  rw [foundBy, Job.forms, List.mem_map, List.mem_map]
  constructor
  · rintro ⟨name, hname, rfl⟩
    exact ⟨name, (List.mem_filter.mp hname).1, rfl⟩
  · rintro ⟨name, hname, rfl⟩
    refine ⟨name, List.mem_filter.mpr ⟨hname, ?_⟩, rfl⟩
    rw [bne_iff_ne]
    rintro rfl
    exact htext rfl

theorem foundBy_subset (job : Job) : foundBy job ⊆ job.forms :=
  List.map_subset _ (List.filter_sublist.subset)

theorem textsOf_eq {job : Job} (h : job.HasTextName) : textsOf job = .ok (foundBy job) := by
  rw [textsOf, foundBy]
  rcases h with hnull | ⟨full, hname⟩
  · rw [hnull]
    by_cases hjob : job.name = ""
    · simp [Json.present?, Json.truthy, Json.asString?, hjob]
    · simp [Json.present?, Json.truthy, Json.asString?, hjob]
  · rw [hname]
    by_cases hjob : job.name = "" <;> by_cases hfull : full = ""
    all_goals simp [Json.present?, Json.truthy, Json.asString?, hjob, hfull]

theorem mapM_textsOf {jobs : List Job} (h : ∀ job ∈ jobs, job.HasTextName) :
    jobs.mapM textsOf = .ok (jobs.map foundBy) := by
  induction jobs with
  | nil => rfl
  | cons job rest ih =>
    obtain ⟨hjob, hrest⟩ := List.forall_mem_cons.mp h
    rw [List.mapM_cons, textsOf_eq hjob, ih hrest]
    rfl

/-! ### The ranking -/

/-- The score of a job among others. -/
def scoreAmong (form : String) (jobs : List Job) (job : Job) : Nat :=
  bestScore (population jobs) (betterMatch form (jobs.map foundBy)) form (foundBy job)

/-- The jobs with their scores. -/
def scored (form : String) (jobs : List Job) : List Ranked :=
  jobs.map fun job => ⟨job, scoreAmong form jobs job⟩

/-- The jobs with a positive score, the best first. -/
def ranking (form : String) (jobs : List Job) : List Ranked :=
  ((scored form jobs).filter fun m => 0 < m.score).mergeSort Ranked.le

theorem rank_eq {jobs : List Job} (h : ∀ job ∈ jobs, job.HasTextName) (query : String) :
    rank query jobs = .ok (ranking (Text.searchForm query) jobs) := by
  rw [rank, mapM_textsOf h]
  show Except.ok ((((jobs.zip (jobs.map foundBy)).map _).filter _).mergeSort _) = _
  rw [← List.map_prod_left_eq_zip, List.map_map]
  rfl

theorem mem_ranking {form : String} {jobs : List Job} {m : Ranked} :
    m ∈ ranking form jobs ↔
      m.job ∈ jobs ∧ m.score = scoreAmong form jobs m.job ∧ 0 < m.score := by
  rw [ranking, List.mem_mergeSort, List.mem_filter, scored, List.mem_map, decide_eq_true_eq]
  constructor
  · rintro ⟨⟨job, hjob, rfl⟩, hpos⟩
    exact ⟨hjob, rfl, hpos⟩
  · rintro ⟨hjob, hscore, hpos⟩
    exact ⟨⟨m.job, hjob, by rw [← hscore]⟩, hpos⟩

/-- What a search finds is taken from the ranking. -/
theorem resolve_eq {jobs : List Job} (h : ∀ job ∈ jobs, job.HasTextName) {query : String}
    (hquery : Text.trim query ≠ "") : resolve query jobs =
      match ranking (Text.searchForm query) jobs with
      | [] => .error (.complaint (.noJobsMatch (Text.trim query)))
      | best :: others =>
        if isMatch best then
          .ok ((((best :: others).filter (isClose best.score)).map (·.job)).take 10)
        else .error (.complaint (.noJobsMatch (Text.trim query))) := by
  rw [resolve, rank_eq h, Text.searchForm_trim]
  simp only [bind, Except.bind, beq_iff_eq, hquery, if_false]
  rcases ranking (Text.searchForm query) jobs with _ | ⟨best, others⟩
  · rfl
  · by_cases hmatch : isMatch best = true
    · simp only [hmatch]
      rfl
    · simp only [hmatch]
      rfl

theorem resolve_trim (query : String) (jobs : List Job) :
    resolve (Text.trim query) jobs = resolve query jobs := by
  rw [resolve, resolve, Text.trim_trim]

/-- A search of jobs with names that are texts finds some of them or says that none match. -/
theorem resolve_cases {jobs : List Job} (h : ∀ job ∈ jobs, job.HasTextName) {query : String}
    (hquery : Text.trim query ≠ "") : (∃ found, found ≠ [] ∧ resolve query jobs = .ok found)
      ∨ resolve query jobs = .error (.complaint (.noJobsMatch (Text.trim query))) := by
  rw [resolve_eq h hquery]
  rcases ranking (Text.searchForm query) jobs with _ | ⟨best, others⟩
  · exact .inr rfl
  · by_cases hmatch : isMatch best = true
    · -- the best match is as good as itself
      have hclose : isClose best.score best = true := by
        rw [isClose, hmatch, Bool.true_and, decide_eq_true_eq, Int.sub_self]
        decide
      refine .inl ⟨_, ?_, if_pos hmatch⟩
      rw [List.filter_cons_of_pos hclose, List.map_cons, List.take_succ_cons]
      exact List.cons_ne_nil _ _
    · exact .inr (if_neg hmatch)

/-! ### The order of names -/

/-- The order in which equally good matches are listed: by the length of the display name, and
then by the display name. -/
def shownBefore (a b : Job) : Bool :=
  decide (a.displayName.text.length < b.displayName.text.length
    ∨ a.displayName.text.length = b.displayName.text.length
      ∧ Text.noLater a.displayName.text b.displayName.text = true)

theorem Ranked.le_iff (a b : Ranked) : a.le b = true ↔
    b.score < a.score ∨ b.score = a.score ∧ shownBefore a.job b.job = true := by
  rw [Ranked.le, shownBefore, decide_eq_true_eq]
  by_cases hscore : a.score = b.score
  · by_cases hlength : a.job.displayName.text.length = b.job.displayName.text.length
    · simp [hscore, hlength]
    · simp [hscore, hlength]
  · have hne : ¬ b.score = a.score := fun h => hscore h.symm
    simp [hscore, hne]

theorem Ranked.le_trans (a b c : Ranked) (hab : a.le b = true) (hbc : b.le c = true) :
    a.le c = true := by
  rw [le_iff, shownBefore, decide_eq_true_eq] at *
  rcases hab with hab | ⟨hab, hnames⟩
  · rcases hbc with hbc | ⟨hbc, -⟩
    · exact .inl (by omega)
    · exact .inl (by omega)
  · rcases hbc with hbc | ⟨hbc, hnames'⟩
    · exact .inl (by omega)
    · refine .inr ⟨by omega, ?_⟩
      rcases hnames with hlength | ⟨hlength, hle⟩
      · exact .inl (by omega)
      · rcases hnames' with hlength' | ⟨hlength', hle'⟩
        · exact .inl (by omega)
        · exact .inr ⟨by omega, Text.noLater_trans hle hle'⟩

theorem Ranked.le_total (a b : Ranked) : (a.le b || b.le a) = true := by
  rw [Bool.or_eq_true, le_iff, le_iff, shownBefore, shownBefore, decide_eq_true_eq,
    decide_eq_true_eq]
  rcases Text.noLater_total a.job.displayName.text b.job.displayName.text with hle | hle
  · simp only [hle, and_true]
    omega
  · simp only [hle, and_true]
    omega

/-! ### The best matches -/

/-- The ranking begins with a best match. -/
theorem score_le_best {form : String} {jobs : List Job} {best m : Ranked} {others : List Ranked}
    (h : ranking form jobs = best :: others) (hm : m ∈ best :: others) : m.score ≤ best.score := by
  have hsorted : (ranking form jobs).Pairwise fun a b => a.le b = true :=
    List.pairwise_mergeSort Ranked.le_trans Ranked.le_total _
  rw [h, List.pairwise_cons] at hsorted
  rcases List.mem_cons.mp hm with rfl | hm
  · exact Nat.le_refl _
  · have hle := (Ranked.le_iff best m).mp (hsorted.1 m hm)
    omega

/-- Matches of one score, taken from the ranking, stand in the order of their shown names. -/
theorem filter_ranking {form : String} {jobs : List Job} {top : Nat} {p : Ranked → Bool}
    (h : ∀ m ∈ scored form jobs, (p m && decide (0 < m.score)) = (m.score == top)) :
    ((ranking form jobs).filter p).map Ranked.job
      = (jobs.filter fun job => scoreAmong form jobs job == top).mergeSort shownBefore := by
  have horder : ∀ a ∈ (scored form jobs).filter (·.score == top),
      ∀ b ∈ (scored form jobs).filter (·.score == top), a.le b = shownBefore a.job b.job := by
    intro a ha b hb
    have hscore : a.score = b.score :=
      (beq_iff_eq.mp (List.mem_filter.mp ha).2).trans (beq_iff_eq.mp (List.mem_filter.mp hb).2).symm
    rw [Bool.eq_iff_iff, Ranked.le_iff, hscore]
    simp
  rw [ranking, filter_mergeSort Ranked.le_trans Ranked.le_total, List.filter_filter,
    List.filter_congr h, List.map_mergeSort horder, scored, List.filter_map, List.map_map]
  congr 1
  exact List.map_id _

/-- Where no score comes close to `top`, the close matches are those with that score. -/
theorem isClose_iff_of_gap {form : String} {jobs : List Job} {top : Nat} (htop : 20 ≤ top)
    (hgap : ∀ job ∈ jobs, scoreAmong form jobs job = top ∨ scoreAmong form jobs job + 20 ≤ top) :
    ∀ m ∈ scored form jobs, (isClose top m && decide (0 < m.score)) = (m.score == top) := by
  intro m hm
  obtain ⟨job, hjob, rfl⟩ := List.mem_map.mp hm
  rw [Bool.eq_iff_iff, Bool.and_eq_true, isClose, isMatch, Bool.and_eq_true,
    decide_eq_true_eq, decide_eq_true_eq, decide_eq_true_eq, beq_iff_eq, Settings.minScore,
    Settings.ambiguityGap]
  have hgap' := hgap job hjob
  dsimp only
  omega

/-- When some jobs have the score `top` and none of the others comes close to it, the search
finds these jobs. -/
theorem resolve_of_top {jobs : List Job} (h : ∀ job ∈ jobs, job.HasTextName) {query : String}
    (hquery : Text.trim query ≠ "") {top : Nat} (htop : 20 ≤ top) {p : Job → Bool}
    (hsome : ∃ job ∈ jobs, p job = true)
    (hmatch : ∀ job ∈ jobs, p job = true → scoreAmong (Text.searchForm query) jobs job = top)
    (hrest : ∀ job ∈ jobs, ¬ p job = true →
      scoreAmong (Text.searchForm query) jobs job + 20 ≤ top) :
    resolve query jobs = .ok (((jobs.filter p).mergeSort shownBefore).take 10) := by
  have hgap : ∀ job ∈ jobs, scoreAmong (Text.searchForm query) jobs job = top
      ∨ scoreAmong (Text.searchForm query) jobs job + 20 ≤ top := by
    intro job hjob
    by_cases hp : p job = true
    · exact .inl (hmatch job hjob hp)
    · exact .inr (hrest job hjob hp)
  have hfilter : (jobs.filter fun job => scoreAmong (Text.searchForm query) jobs job == top)
      = jobs.filter p := by
    refine List.filter_congr fun job hjob => ?_
    rw [Bool.eq_iff_iff, beq_iff_eq]
    by_cases hp : p job = true
    · exact iff_of_true (hmatch job hjob hp) hp
    · have hle := hrest job hjob hp
      exact iff_of_false (by omega) hp
  obtain ⟨job, hjob, hp⟩ := hsome
  have hmem : (⟨job, top⟩ : Ranked) ∈ ranking (Text.searchForm query) jobs :=
    mem_ranking.mpr ⟨hjob, (hmatch job hjob hp).symm, show 0 < top by omega⟩
  rw [resolve_eq h hquery]
  rcases hranking : ranking (Text.searchForm query) jobs with _ | ⟨best, others⟩
  · rw [hranking] at hmem
    cases hmem
  · -- the first of the ranking has the score `top`
    have hbest : best.score = top := by
      have hlisted : best ∈ ranking (Text.searchForm query) jobs := hranking ▸ List.mem_cons_self
      obtain ⟨hjob', hscore', -⟩ := mem_ranking.mp hlisted
      have hgap' := hgap best.job hjob'
      have hle : top ≤ best.score := score_le_best hranking (hranking ▸ hmem)
      omega
    have hshown : isMatch best = true := by
      rw [isMatch, decide_eq_true_eq, hbest, Settings.minScore]
      omega
    dsimp only
    rw [if_pos hshown, hbest, ← hranking, filter_ranking (isClose_iff_of_gap htop hgap), hfilter]

end Search
end BuildDesk
