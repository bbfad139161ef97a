/-
What a search finds.

A search gives jobs of the list that it searches, and no others (`mem_of_resolve`).
-/
import BuildDesk.Search.Resolve

namespace BuildDesk.Search

theorem mem_of_rank {query : String} {jobs : List Job} {ranked : List Ranked}
    (h : rank query jobs = .ok ranked) : ∀ m ∈ ranked, m.job ∈ jobs := by
  intro m hm
  unfold rank at h
  rcases htexts : jobs.mapM textsOf with f | texts
  · rw [htexts] at h
    cases h
  · rw [htexts] at h
    obtain rfl := Except.ok.inj h
    simp only [List.mem_mergeSort, List.mem_filter, List.mem_map] at hm
    obtain ⟨⟨⟨job, ts⟩, hpair, rfl⟩, -⟩ := hm
    exact (List.of_mem_zip hpair).1

theorem mem_of_resolve {query : String} {jobs found : List Job}
    (h : resolve query jobs = .ok found) : ∀ job ∈ found, job ∈ jobs := by
  intro job hjob
  unfold resolve at h
  dsimp only at h
  split at h
  · cases h
  · rcases hrank : rank (Text.trim query) jobs with f | ranked
    · rw [hrank] at h
      cases h
    · rw [hrank] at h
      dsimp only [bind, Except.bind] at h
      rcases ranked with _ | ⟨best, others⟩
      · cases h
      · by_cases hmatch : isMatch best = true
        · simp only [hmatch] at h
          obtain rfl := Except.ok.inj h
          obtain ⟨m, hm, rfl⟩ := List.mem_map.mp (List.mem_of_mem_take hjob)
          exact mem_of_rank hrank m (List.mem_filter.mp hm).1
        · simp only [hmatch] at h
          cases h

end BuildDesk.Search
