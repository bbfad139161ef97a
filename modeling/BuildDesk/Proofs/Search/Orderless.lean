/-
Rankings and the order of the jobs.

The score of a job depends on the jobs around it: on how common the words of the search are
among their names, and on whether some name is the search or begins with it.  Both are counted
over all names, so they are the same in whatever order the jobs are listed, and so is every
score (`scoreAmong_perm`).  Sorting does the rest: a ranking holds every job with a positive
score once for each time that it is listed (`ranking_perm_scored`), the best first
(`pairwise_ranking`), and since equally good jobs with different names are never left as they
came, scores and names stand in it in one order only (`key_ranking_perm`).
-/
import BuildDesk.Proofs.Search.Ranking

namespace BuildDesk.Search

variable {form query : String} {jobs jobs' : List Job}

/-! ### Scores -/

section Scores

variable {names names' : Population}

/-- How common a word is does not depend on the order of the names. -/
theorem weight_perm (h : names.Perm names') : weight names = weight names' := by
  funext word
  rw [weight, weight, frequency, frequency, (h.filter _).length_eq, h.length_eq]

theorem score_perm (h : names.Perm names') : score names = score names' := by
  funext better query text
  rw [score, score, exactScore, exactScore, overlapScore, overlapScore, weight_perm h]

theorem bestScore_perm (h : names.Perm names') : bestScore names = bestScore names' := by
  funext better query texts
  rw [bestScore, bestScore, score_perm h]

end Scores

theorem betterMatch_perm {texts texts' : List (List String)} (h : texts.Perm texts') :
    betterMatch form texts = betterMatch form texts' := h.any_eq

/-- The jobs around a job count in any order. -/
theorem scoreAmong_perm (h : jobs.Perm jobs') (job : Job) :
    scoreAmong form jobs job = scoreAmong form jobs' job := by
  have hnames : (population jobs).Perm (population jobs') := h.map _
  rw [scoreAmong, scoreAmong, bestScore_perm hnames, betterMatch_perm (h.map foundBy)]

/-! ### The ranking -/

/-- Every job with a positive score is ranked, as often as it is listed. -/
theorem ranking_perm_scored (form : String) (jobs : List Job) :
    (ranking form jobs).Perm ((scored form jobs).filter fun m => 0 < m.score) :=
  List.mergeSort_perm _ _

/-- The best comes first, and of equally good jobs the one with the shorter name. -/
theorem pairwise_ranking (form : String) (jobs : List Job) :
    (ranking form jobs).Pairwise fun a b => b.score < a.score
      ∨ b.score = a.score ∧ shownBefore a.job b.job = true :=
  (List.pairwise_mergeSort Ranked.le_trans Ranked.le_total _).imp (Ranked.le_iff _ _).mp

theorem scored_perm (h : jobs.Perm jobs') : (scored form jobs).Perm (scored form jobs') := by
  have hmap : scored form jobs' = jobs'.map fun job => ⟨job, scoreAmong form jobs job⟩ :=
    List.map_congr_left fun job _ => by rw [scoreAmong_perm h]
  rw [hmap]
  exact h.map _

theorem ranking_perm (h : jobs.Perm jobs') : (ranking form jobs).Perm (ranking form jobs') :=
  (ranking_perm_scored form jobs).trans
    (((scored_perm h).filter _).trans (ranking_perm_scored form jobs').symm)

/-! ### Scores and names -/

theorem displayName_eq {job : Job} (h : job.HasTextName) :
    job.displayName = .str job.displayName.text := by
  have hname : ∀ name, job.displayName = .str name → job.displayName = .str job.displayName.text :=
    fun name hname => by rw [hname]; rfl
  rcases h with hnull | ⟨full, hfull⟩
  · exact hname job.name (by rw [Job.displayName, hnull]; rfl)
  · by_cases hempty : full = ""
    · exact hname job.name (by simp [Job.displayName, hfull, hempty, Json.orElse, Json.truthy])
    · exact hname full (by simp [Job.displayName, hfull, hempty, Json.orElse, Json.truthy])

/-- What is seen of a ranked job. -/
def Ranked.key (m : Ranked) : Nat × Json := (m.score, m.job.displayName)

/-- The order of what is seen: by the score, by the length of the name, and by the name. -/
def keyLe (p q : Nat × Json) : Prop :=
  q.1 < p.1 ∨ q.1 = p.1 ∧ (p.2.text.length < q.2.text.length
    ∨ p.2.text.length = q.2.text.length ∧ Text.noLater p.2.text q.2.text = true)

theorem Ranked.keyLe_key (a b : Ranked) : keyLe a.key b.key ↔
    b.score < a.score ∨ b.score = a.score ∧ shownBefore a.job b.job = true := by
  rw [shownBefore, decide_eq_true_eq]
  rfl

/-- Of two different scores or names one comes first. -/
theorem keyLe_antisymm {p q : Nat × Json} (h : keyLe p q) (h' : keyLe q p) :
    p.1 = q.1 ∧ p.2.text = q.2.text := by
  rcases h with hlt | ⟨hscore, h⟩
  · rcases h' with hlt' | ⟨hscore', -⟩ <;> omega
  · refine ⟨hscore.symm, ?_⟩
    rcases h' with hlt' | ⟨-, h'⟩
    · omega
    · rcases h with hlt | ⟨hlength, hle⟩ <;> rcases h' with hlt' | ⟨hlength', hle'⟩
      · omega
      · omega
      · omega
      · exact Text.noLater_antisymm hle hle'

/-- Scores and names are ranked in one order, whatever the order of the jobs. -/
theorem key_ranking_perm (hnames : ∀ job ∈ jobs, job.HasTextName) (h : jobs.Perm jobs') :
    (ranking form jobs').map Ranked.key = (ranking form jobs).map Ranked.key := by
  have hsorted : ∀ jobs, ((ranking form jobs).map Ranked.key).Pairwise keyLe := fun jobs =>
    List.pairwise_map.mpr ((pairwise_ranking form jobs).imp (Ranked.keyLe_key _ _).mpr)
  -- both are sorted and hold the same, so it is enough that no two of them are left undecided
  refine List.Perm.eq_of_pairwise ?_ (hsorted jobs') (hsorted jobs) ((ranking_perm h.symm).map _)
  intro p q hp hq hpq hqp
  obtain ⟨m, hm, rfl⟩ := List.mem_map.mp hp
  obtain ⟨m', hm', rfl⟩ := List.mem_map.mp hq
  obtain ⟨hscore, htext⟩ := keyLe_antisymm hpq hqp
  have hname := displayName_eq (hnames _ (h.mem_iff.mpr (mem_ranking.mp hm).1))
  have hname' := displayName_eq (hnames _ (mem_ranking.mp hm').1)
  refine Prod.ext hscore ?_
  show m.job.displayName = m'.job.displayName
  rw [hname, hname']
  exact congrArg Json.str htext

/-! ### Searches -/

/-- **A ranking leaves nothing out and does not depend on the order of the jobs.**  For jobs
with names that are texts a search ranks each of them that has a positive score, as often as
it is listed, and nothing else: by the score, of equal ones by the length of the display name,
and then by the display name.  When the jobs are listed in another order, each has the same
score as before, and the same scores and display names stand in the same order. -/
theorem rank_of_any_order (h : ∀ job ∈ jobs, job.HasTextName) (query : String) :
    ∃ ranked, rank query jobs = .ok ranked
      ∧ ranked.Perm ((jobs.map fun job =>
          ⟨job, scoreAmong (Text.searchForm query) jobs job⟩).filter fun m => 0 < m.score)
      ∧ ranked.Pairwise (fun a b => b.score < a.score ∨ b.score = a.score
          ∧ (a.job.displayName.text.length < b.job.displayName.text.length
            ∨ a.job.displayName.text.length = b.job.displayName.text.length
              ∧ Text.noLater a.job.displayName.text b.job.displayName.text = true))
      ∧ ∀ jobs', jobs.Perm jobs' → ∃ ranked', rank query jobs' = .ok ranked'
          ∧ (∀ job, scoreAmong (Text.searchForm query) jobs' job
            = scoreAmong (Text.searchForm query) jobs job)
          ∧ ranked'.map (fun m => (m.score, m.job.displayName))
            = ranked.map fun m => (m.score, m.job.displayName) := by
  refine ⟨ranking (Text.searchForm query) jobs, rank_eq h query, ranking_perm_scored _ _,
    (pairwise_ranking _ _).imp (Ranked.keyLe_key _ _).mpr, ?_⟩
  intro jobs' hperm
  have hnames : ∀ job ∈ jobs', job.HasTextName := fun job hjob => h job (hperm.mem_iff.mpr hjob)
  exact ⟨ranking (Text.searchForm query) jobs', rank_eq hnames query,
    fun job => (scoreAmong_perm hperm job).symm, key_ranking_perm h hperm⟩

/-- Two jobs of one name and a third one, listed forwards and backwards. -/
theorem rank_of_two_orders :
    let jobs : List Job := [⟨"web", "u", .str "team/web", []⟩, ⟨"team/web", "v", .null, []⟩,
      ⟨"web-api", "w", .str "", []⟩]
    (∀ job ∈ jobs, job.HasTextName)
      ∧ ∃ ranked ranked', rank "team web" jobs = .ok ranked
        ∧ rank "team web" jobs.reverse = .ok ranked'
        ∧ ranked'.map (fun m => (m.score, m.job.displayName))
          = ranked.map fun m => (m.score, m.job.displayName) := by
  intro jobs
  have hnames : ∀ job ∈ jobs, job.HasTextName := by
    simp only [jobs, List.forall_mem_cons]
    exact ⟨.inr ⟨_, rfl⟩, .inl rfl, .inr ⟨_, rfl⟩, List.forall_mem_nil _⟩
  obtain ⟨ranked, hranked, -, -, hany⟩ := rank_of_any_order hnames "team web"
  obtain ⟨ranked', hranked', -, hsame⟩ := hany jobs.reverse (List.reverse_perm jobs).symm
  exact ⟨hnames, ranked, ranked', hranked, hranked', hsame⟩

end BuildDesk.Search
