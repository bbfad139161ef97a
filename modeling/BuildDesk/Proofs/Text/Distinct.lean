/-
Lists of names without repetitions.

`distinct` keeps the first spelling of every name and `without` drops every spelling of one.
The two can be done in either order (`distinct_without`): taking a name out of a list does not
bring up another spelling of a name that is kept.

* `nodup_distinct`, `mem_map_distinct` — no name is kept twice, and each in some spelling;
* `distinctFrom_cons_seen` — a name that counts as seen is as good as taken out;
* `distinct_of_nodup`, `without_of_forall` — lists that stay as they are;
* `distinct_append` — a list that goes on adds the names that are new;
* `distinct_picks_first_spellings` — which places of the list are kept, and the laws of
  doing so.
-/
import BuildDesk.Text.Distinct
import Mathlib.Data.List.FinRange
import Mathlib.Data.List.Nodup

namespace BuildDesk.Text

variable {name b : String} {names seen seen' : List String}

theorem sameName_iff {s t : String} : sameName s t = true ↔ lower s = lower t := beq_iff_eq

/-! ### Taking a name out -/

theorem mem_without : b ∈ without name names ↔ b ∈ names ∧ lower b ≠ lower name := by
  rw [without, List.mem_filter, Bool.not_eq_true', ← Bool.not_eq_true, sameName_iff]

/-- A name of which there is no spelling in a list need not be taken out. -/
theorem without_of_forall (h : ∀ b ∈ names, lower b ≠ lower name) : without name names = names := by
  refine List.filter_eq_self.mpr fun b hb => ?_
  rw [Bool.not_eq_true', ← Bool.not_eq_true, sameName_iff]
  exact h b hb

theorem without_cons_of_eq (h : lower b = lower name) :
    without name (b :: names) = without name names := by
  simp [without, sameName, h]

theorem without_cons_of_ne (h : lower b ≠ lower name) :
    without name (b :: names) = b :: without name names := by
  simp [without, sameName, h]

theorem without_append (name : String) (names others : List String) :
    without name (names ++ others) = without name names ++ without name others :=
  List.filter_append ..

/-! ### First spellings -/

theorem distinctFrom_subset (seen names : List String) : distinctFrom seen names ⊆ names := by
  induction names generalizing seen with
  | nil => exact List.Subset.refl _
  | cons name rest ih =>
    rw [distinctFrom]
    split
    · exact fun b hb => List.mem_cons_of_mem _ (ih _ hb)
    · exact List.cons_subset_cons _ (ih _)

theorem distinctFrom_of_nodup (h : (names.map lower).Nodup)
    (hseen : ∀ name ∈ names, lower name ∉ seen) : distinctFrom seen names = names := by
  -- `seen` is left open: it grows by the name in front
  induction names generalizing seen with
  | nil => rfl
  | cons name rest ih =>
    rw [List.map_cons, List.nodup_cons] at h
    rw [distinctFrom, if_neg (hseen name List.mem_cons_self), ih h.2]
    intro other hother hmem
    rcases List.mem_cons.mp hmem with heq | hmem
    · exact h.1 (heq ▸ List.mem_map_of_mem hother)
    · exact hseen other (List.mem_cons_of_mem _ hother) hmem

theorem distinct_of_nodup (h : (names.map lower).Nodup) : distinct names = names :=
  distinctFrom_of_nodup h fun _ _ => List.not_mem_nil

/-- The names kept are those not seen before, each in some spelling. -/
theorem mem_map_distinctFrom {key : String} :
    key ∈ (distinctFrom seen names).map lower ↔ key ∈ names.map lower ∧ key ∉ seen := by
  induction names generalizing seen with
  | nil => simp [distinctFrom]
  | cons name rest ih =>
    rw [distinctFrom]
    by_cases hname : lower name ∈ seen
    · rw [if_pos hname, ih, List.map_cons, List.mem_cons]
      refine ⟨fun h => ⟨.inr h.1, h.2⟩, fun ⟨hkey, hseen⟩ => ⟨hkey.resolve_left ?_, hseen⟩⟩
      rintro rfl
      exact hseen hname
    · rw [if_neg hname, List.map_cons, List.mem_cons, ih, List.map_cons, List.mem_cons,
        List.mem_cons, not_or]
      by_cases hkey : key = lower name
      · simp [hkey, hname]
      · simp [hkey]

theorem mem_map_distinct {key : String} :
    key ∈ (distinct names).map lower ↔ key ∈ names.map lower := by
  rw [distinct, mem_map_distinctFrom]
  exact and_iff_left List.not_mem_nil

theorem nodup_distinctFrom (seen names : List String) :
    ((distinctFrom seen names).map lower).Nodup := by
  induction names generalizing seen with
  | nil => exact List.nodup_nil
  | cons name rest ih =>
    rw [distinctFrom]
    split
    · exact ih seen
    · rw [List.map_cons, List.nodup_cons, mem_map_distinctFrom]
      exact ⟨fun h => h.2 List.mem_cons_self, ih _⟩

theorem nodup_distinct (names : List String) : ((distinct names).map lower).Nodup :=
  nodup_distinctFrom [] names

/-! ### First spellings without a name -/

/-- When one more name counts as seen, it is taken out of what is kept. -/
theorem distinctFrom_cons_seen (h : ∀ key, key ∈ seen' ↔ key = lower name ∨ key ∈ seen) :
    distinctFrom seen' names = without name (distinctFrom seen names) := by
  -- `seen'` need not begin with the name, since more is seen on the way
  induction names generalizing seen seen' with
  | nil => rfl
  | cons other rest ih =>
    rw [distinctFrom, distinctFrom]
    by_cases hother : lower other ∈ seen
    · rw [if_pos hother, if_pos ((h _).mpr (.inr hother)), ih h]
    · have hgrown : ∀ key, key ∈ lower other :: seen' ↔
          key = lower name ∨ key ∈ lower other :: seen := by
        intro key
        rw [List.mem_cons, List.mem_cons, h]
        tauto
      rw [if_neg hother]
      by_cases hsame : lower other = lower name
      · rw [if_pos ((h _).mpr (.inl hsame)), without_cons_of_eq hsame]
        refine ih fun key => ?_
        rw [h, List.mem_cons, hsame]
        tauto
      · have hnew : lower other ∉ seen' := fun hmem => ((h _).mp hmem).elim hsame hother
        rw [if_neg hnew, without_cons_of_ne hsame, ih hgrown]

theorem distinctFrom_without (name : String) (seen names : List String) :
    distinctFrom seen (without name names) = without name (distinctFrom seen names) := by
  induction names generalizing seen with
  | nil => rfl
  | cons other rest ih =>
    rw [distinctFrom]
    by_cases hsame : lower other = lower name
    · rw [without_cons_of_eq hsame, ih]
      split
      · rfl
      · -- the name is seen from here on, and it is taken out of the rest as well
        have hrest : distinctFrom (lower other :: seen) rest
            = without name (distinctFrom seen rest) :=
          distinctFrom_cons_seen fun key => by rw [List.mem_cons, hsame]
        rw [without_cons_of_eq hsame, hrest]
        exact (without_of_forall fun b hb => (mem_without.mp hb).2).symm
    · rw [without_cons_of_ne hsame, distinctFrom]
      split
      · rw [ih]
      · rw [ih, without_cons_of_ne hsame]

/-- A name may be taken out before the first spellings are kept, or after. -/
theorem distinct_without (name : String) (names : List String) :
    distinct (without name names) = without name (distinct names) :=
  distinctFrom_without name [] names

/-- The first name is kept, and no other spelling of it. -/
theorem distinct_cons (name : String) (rest : List String) :
    distinct (name :: rest) = name :: without name (distinct rest) := by
  have hrest : distinctFrom [lower name] rest = without name (distinct rest) :=
    distinctFrom_cons_seen fun key => by rw [List.mem_cons]
  rw [distinct, distinctFrom, if_neg List.not_mem_nil, hrest]

/-! ### Lists that go on -/

/-- Of some names, those that differ from all given ones. -/
def newTo (known names : List String) : List String :=
  names.filter fun b => !known.any (sameName b)

theorem newTo_nil (names : List String) : newTo [] names = names :=
  List.filter_eq_self.mpr fun _ _ => rfl

theorem newTo_cons (name : String) (known names : List String) :
    newTo (name :: known) names = without name (newTo known names) := by
  simp only [newTo, without, List.filter_filter, List.any_cons, Bool.not_or]

theorem newTo_newTo (known names : List String) :
    newTo known (newTo known names) = newTo known names :=
  List.filter_eq_self.mpr fun _ hb => (List.mem_filter.mp hb).2

/-- A list that goes on adds the names that are new. -/
theorem distinct_append (names others : List String) :
    distinct (names ++ others) = distinct names ++ newTo names (distinct others) := by
  induction names with
  | nil => exact (newTo_nil _).symm
  | cons name rest ih =>
    rw [List.cons_append, distinct_cons, ih, without_append, distinct_cons, newTo_cons,
      List.cons_append]

/-- Nothing is lost by keeping the new names only. -/
theorem distinct_append_newTo (names others : List String) :
    distinct (names ++ newTo names (distinct others)) = distinct (names ++ others) := by
  have hnodup : ((newTo names (distinct others)).map lower).Nodup :=
    (nodup_distinct others).sublist (List.filter_sublist.map lower)
  rw [distinct_append, distinct_append, distinct_of_nodup hnodup, newTo_newTo]

/-! ### Places of first spellings -/

/-- No name before this place is the same. -/
def IsFirstSpelling (names : List String) (i : Fin names.length) : Prop :=
  ∀ j < i, lower names[j] ≠ lower names[i]

instance (names : List String) : DecidablePred (IsFirstSpelling names) := fun i =>
  inferInstanceAs (Decidable (∀ j < i, lower names[j] ≠ lower names[i]))

/-- The places of first spellings, in order. -/
def firstPlaces (names : List String) : List (Fin names.length) :=
  (List.finRange names.length).filter fun i => IsFirstSpelling names i

theorem isFirstSpelling_zero (name : String) (rest : List String) :
    IsFirstSpelling (name :: rest) (0 : Fin (rest.length + 1)) :=
  fun _ hj => absurd hj (Fin.not_lt_zero _)

theorem isFirstSpelling_succ {name : String} {rest : List String} {i : Fin rest.length} :
    IsFirstSpelling (name :: rest) i.succ ↔
      IsFirstSpelling rest i ∧ lower rest[i] ≠ lower name := by
  constructor
  · intro h
    exact ⟨fun j hj => h j.succ (Fin.succ_lt_succ_iff.mpr hj),
      (h (0 : Fin (rest.length + 1)) (Fin.succ_pos i)).symm⟩
  · rintro ⟨hrest, hname⟩ j hj
    cases j using Fin.cases with
    | zero => exact hname.symm
    | succ j => exact hrest j (Fin.succ_lt_succ_iff.mp hj)

/-- Behind the first place are those of the rest, without the other spellings of the first
name. -/
theorem firstPlaces_cons (name : String) (rest : List String) : firstPlaces (name :: rest)
    = (0 : Fin (rest.length + 1))
      :: ((firstPlaces rest).filter fun i => !sameName rest[i] name).map Fin.succ := by
  have hplaces : List.finRange (name :: rest).length
      = (0 : Fin (rest.length + 1)) :: (List.finRange rest.length).map Fin.succ :=
    List.finRange_succ
  rw [firstPlaces, hplaces, List.filter_cons_of_pos, List.filter_map, firstPlaces,
    List.filter_filter]
  · refine congrArg _ (congrArg _ (List.filter_congr fun i _ => ?_))
    rw [Bool.eq_iff_iff, Function.comp_apply, decide_eq_true_iff, isFirstSpelling_succ, and_comm,
      Bool.and_eq_true, decide_eq_true_iff, Bool.not_eq_true', ← Bool.not_eq_true, sameName_iff]
  · exact decide_eq_true (isFirstSpelling_zero name rest)

/-- The names kept are those at the places of first spellings. -/
theorem distinct_eq_map (names : List String) :
    distinct names = (firstPlaces names).map names.get := by
  induction names with
  | nil => rfl
  | cons name rest ih =>
    rw [distinct_cons, ih, firstPlaces_cons, List.map_cons, List.map_map, without,
      List.filter_map]
    rfl

/-- **First spellings.**  The names that are kept are those at the places before which no
name is the same, in the order of the list.  So no two of them are the same, each name of the
list is kept in some spelling, and doing it once more changes nothing.  When a list goes on,
the names are added that are new; what else there is in the further names, known names and
repetitions, makes no difference. -/
theorem distinct_picks_first_spellings (names : List String) :
    distinct names = (firstPlaces names).map names.get
    ∧ (distinct names).Sublist names
    ∧ (distinct names).Pairwise (fun a b => lower a ≠ lower b)
    ∧ (∀ name ∈ names, ∃ kept ∈ distinct names, lower kept = lower name)
    ∧ distinct (distinct names) = distinct names
    ∧ ∀ others,
        distinct (names ++ others) = distinct names ++ newTo names (distinct others)
        ∧ distinct (names ++ newTo names (distinct others)) = distinct (names ++ others) := by
  have hplaces := distinct_eq_map names
  refine ⟨hplaces, ?_, List.pairwise_map.mp (nodup_distinct names), fun name hname => ?_,
    distinct_of_nodup (nodup_distinct names),
    fun others => ⟨distinct_append names others, distinct_append_newTo names others⟩⟩
  · have hsublist : ((firstPlaces names).map names.get).Sublist
        ((List.finRange names.length).map names.get) := List.filter_sublist.map names.get
    rwa [← hplaces, List.map_get_finRange] at hsublist
  · exact List.mem_map.mp (mem_map_distinct.mpr (List.mem_map_of_mem hname))

end BuildDesk.Text
