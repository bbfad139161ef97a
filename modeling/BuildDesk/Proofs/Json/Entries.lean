/-
Setting entries.

Setting an entry changes it in place when its name is there.  When the name is new the
entry goes to the end, so setting entries with new names one after another appends them
(`foldl_put_of_new`).  In any case no two entries have the same name (`nodup_ofEntries`).
-/
import BuildDesk.Json.Basic

namespace BuildDesk.Json

variable {α : Type}

theorem put_of_new {entries : List (String × α)} {name : String} (value : α)
    (h : name ∉ entries.map Prod.fst) : put entries name value = entries ++ [(name, value)] := by
  induction entries with
  | nil => rfl
  | cons entry rest ih =>
    obtain ⟨other, old⟩ := entry
    rw [List.map_cons, List.mem_cons, not_or] at h
    have hne : (other == name) = false := beq_eq_false_iff_ne.mpr (Ne.symm h.1)
    rw [put, hne, ih h.2]
    rfl

theorem foldl_put_of_new (entries done : List (String × α))
    (h : ((done ++ entries).map Prod.fst).Nodup) :
    entries.foldl (fun done (name, value) => put done name value) done = done ++ entries := by
  induction entries generalizing done with
  | nil => simp
  | cons entry rest ih =>
    obtain ⟨name, value⟩ := entry
    have hnew : name ∉ done.map Prod.fst := by
      rw [List.map_append, List.map_cons, List.nodup_append] at h
      intro hmem
      exact h.2.2 _ hmem _ List.mem_cons_self rfl
    have hput : (match (name, value) with | (name, value) => put done name value)
        = done ++ [(name, value)] := put_of_new value hnew
    rw [List.foldl_cons, hput, ih]
    · rw [List.append_assoc, List.singleton_append]
    · rwa [List.append_assoc, List.singleton_append]

theorem mem_put {entries : List (String × α)} {name : String} {value : α} {e : String × α}
    (h : e ∈ put entries name value) : e = (name, value) ∨ e ∈ entries := by
  induction entries with
  | nil => exact .inl (List.mem_singleton.mp h)
  | cons entry rest ih =>
    obtain ⟨other, old⟩ := entry
    rw [put] at h
    split at h
    · rename_i hsame
      rw [← beq_iff_eq.mp hsame]
      exact (List.mem_cons.mp h).imp_right (List.mem_cons_of_mem _)
    · rcases List.mem_cons.mp h with rfl | h
      · exact .inr List.mem_cons_self
      · exact (ih h).imp_right (List.mem_cons_of_mem _)

theorem nodup_put {entries : List (String × α)} (name : String) (value : α)
    (h : (entries.map Prod.fst).Nodup) : ((put entries name value).map Prod.fst).Nodup := by
  induction entries with
  | nil => exact List.nodup_cons.mpr ⟨List.not_mem_nil, List.nodup_nil⟩
  | cons entry rest ih =>
    obtain ⟨other, old⟩ := entry
    rw [List.map_cons, List.nodup_cons] at h
    rw [put]
    split
    · rw [List.map_cons, List.nodup_cons]
      exact h
    · rename_i hother
      rw [beq_iff_eq] at hother
      rw [List.map_cons, List.nodup_cons]
      refine ⟨fun hmem => ?_, ih h.2⟩
      obtain ⟨e, he, hname⟩ := List.mem_map.mp hmem
      rcases mem_put he with rfl | he
      · exact hother hname.symm
      · exact h.1 (List.mem_map.mpr ⟨e, he, hname⟩)

/-- Entries that are set one after another keep what holds of the list of entries. -/
theorem ofEntries_induction {P : List (String × α) → Prop} (hnil : P [])
    {entries : List (String × α)}
    (hput : ∀ done, ∀ e ∈ entries, P done → P (put done e.1 e.2)) : P (ofEntries entries) := by
  have hfold : ∀ done, P done →
      P (entries.foldl (fun done (name, value) => put done name value) done) := by
    induction entries with
    | nil => exact fun _ h => h
    | cons entry rest ih =>
      intro done h
      rw [List.foldl_cons]
      exact ih (fun done e he => hput done e (List.mem_cons_of_mem _ he)) _
        (hput done entry List.mem_cons_self h)
  exact hfold [] hnil

theorem nodup_ofEntries (entries : List (String × α)) :
    ((ofEntries entries).map Prod.fst).Nodup :=
  ofEntries_induction (P := fun done => (done.map Prod.fst).Nodup) List.nodup_nil
    fun _ e _ h => nodup_put e.1 e.2 h

theorem mem_ofEntries {entries : List (String × α)} {e : String × α} (h : e ∈ ofEntries entries) :
    e ∈ entries := by
  have hall : ∀ d ∈ ofEntries entries, d ∈ entries := by
    refine ofEntries_induction (P := fun done => ∀ d ∈ done, d ∈ entries) (List.forall_mem_nil _) ?_
    intro done e he h d hd
    rcases mem_put hd with rfl | hd
    · exact he
    · exact h d hd
  exact hall e h

end BuildDesk.Json
