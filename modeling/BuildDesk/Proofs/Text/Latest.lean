/-
What a bounded list of names remembers.

A name that is mentioned moves to the front of the list, whatever its spelling was
before, and the list is cut to a length.  So at any time the list holds the names
mentioned latest, each in the spelling of its last mention (`latest_concat`): what the
cut has dropped would not have come back without being mentioned again.

* `IsTidy` — names without outer blanks, none of them empty, no two the same up to
  case; kept by `IsTidy.toFront` and `IsTidy.without`;
* `lastMentions`, `latest` — the names of a list of mentions, the latest first.
-/
import BuildDesk.Proofs.Text.Distinct
import BuildDesk.Proofs.Text.Trim

namespace BuildDesk.Text

/-! ### Tidy lists -/

/-- Names as a history holds them: without outer blanks, not empty, and no two the same
up to case. -/
structure IsTidy (names : List String) : Prop where
  nodup : (names.map lower).Nodup
  trimmed : ∀ name ∈ names, trim name = name
  proper : ∀ name ∈ names, name ≠ ""

theorem isTidy_nil : IsTidy [] where
  nodup := List.nodup_nil
  trimmed := List.forall_mem_nil _
  proper := List.forall_mem_nil _

theorem IsTidy.sublist {short long : List String} (h : IsTidy long) (hsub : short.Sublist long) :
    IsTidy short where
  nodup := h.nodup.sublist (hsub.map lower)
  trimmed := fun name hname => h.trimmed name (hsub.subset hname)
  proper := fun name hname => h.proper name (hsub.subset hname)

theorem IsTidy.without {names : List String} (h : IsTidy names) (name : String) :
    IsTidy (without name names) := h.sublist List.filter_sublist

theorem IsTidy.cons_without {names : List String} (h : IsTidy names) {name : String}
    (htrim : trim name = name) (hname : name ≠ "") : IsTidy (name :: Text.without name names) where
  nodup := by
    rw [List.map_cons, List.nodup_cons]
    refine ⟨fun hmem => ?_, (h.without name).nodup⟩
    obtain ⟨b, hb, hlower⟩ := List.mem_map.mp hmem
    exact (mem_without.mp hb).2 hlower
  trimmed := List.forall_mem_cons.mpr ⟨htrim, (h.without name).trimmed⟩
  proper := List.forall_mem_cons.mpr ⟨hname, (h.without name).proper⟩

/-- A name moved to the front of a tidy list, and the list cut to a length. -/
theorem IsTidy.toFront {names : List String} (h : IsTidy names) {name : String}
    (htrim : trim name = name) (hname : name ≠ "") (n : Nat) :
    IsTidy ((name :: Text.without name names).take n) :=
  (h.cons_without htrim hname).sublist (List.take_sublist _ _)

/-- What is trimmed stays as it is when it is trimmed. -/
theorem IsTidy.map_trim {names : List String} (h : IsTidy names) : names.map trim = names := by
  rw [List.map_congr_left h.trimmed, List.map_id']

/-- No name is left out for being blank. -/
theorem IsTidy.filter_trim {names : List String} (h : IsTidy names) :
    (names.filter fun name => trim name != "") = names := by
  refine List.filter_eq_self.mpr fun name hname => ?_
  rw [h.trimmed name hname]
  exact bne_iff_ne.mpr (h.proper name hname)

theorem IsTidy.filter_proper {names : List String} (h : IsTidy names) :
    names.filter (· != "") = names :=
  List.filter_eq_self.mpr fun name hname => bne_iff_ne.mpr (h.proper name hname)

/-! ### Names mentioned latest -/

/-- The names of a list of mentions, the one mentioned last first.  A mention counts when
none of the same name comes after it. -/
def lastMentions : List String → List String
  | [] => []
  | name :: later =>
    if later.any (sameName name) then lastMentions later else lastMentions later ++ [name]

/-- The `n` names mentioned latest, the last one first. -/
def latest (n : Nat) (mentions : List String) : List String := (lastMentions mentions).take n

theorem lastMentions_subset (mentions : List String) : lastMentions mentions ⊆ mentions := by
  induction mentions with
  | nil => exact List.Subset.refl _
  | cons name later ih =>
    rw [lastMentions]
    split
    · exact fun b hb => List.mem_cons_of_mem _ (ih hb)
    · intro b hb
      rcases List.mem_append.mp hb with hb | hb
      · exact List.mem_cons_of_mem _ (ih hb)
      · exact List.mem_singleton.mp hb ▸ List.mem_cons_self

/-- One more mention moves its name to the front. -/
theorem lastMentions_concat (mentions : List String) (name : String) :
    lastMentions (mentions ++ [name]) = name :: without name (lastMentions mentions) := by
  induction mentions with
  | nil => rfl
  | cons other later ih =>
    rw [List.cons_append, lastMentions, lastMentions, List.any_append, List.any_cons, List.any_nil,
      Bool.or_false, ih]
    by_cases hlater : later.any (sameName other) = true
    · rw [hlater, Bool.true_or, if_pos rfl, if_pos rfl]
    · rw [Bool.not_eq_true] at hlater
      rw [hlater, Bool.false_or, if_neg Bool.false_ne_true]
      -- the mention before counts no longer when it is of the same name
      by_cases hsame : sameName other name = true
      · simp [without, List.filter_append, hsame]
      · simp [without, List.filter_append, hsame]

theorem take_without_take {name : String} {names : List String} (h : (names.map lower).Nodup)
    (n : Nat) : (without name (names.take (n + 1))).take n = (without name names).take n := by
  induction names generalizing n with
  | nil => rw [List.take_nil]
  | cons other rest ih =>
    rw [List.map_cons, List.nodup_cons] at h
    rw [List.take_succ_cons]
    by_cases hsame : lower other = lower name
    · -- the name is found here, so neither list has it further down
      have hrest : ∀ b ∈ rest, lower b ≠ lower name := by
        intro b hb heq
        exact h.1 (hsame.trans heq.symm ▸ List.mem_map_of_mem hb)
      rw [without_cons_of_eq hsame, without_cons_of_eq hsame, without_of_forall hrest,
        without_of_forall fun b hb => hrest b (List.mem_of_mem_take hb), List.take_take, min_self]
    · rw [without_cons_of_ne hsame, without_cons_of_ne hsame]
      cases n with
      | zero => rw [List.take_zero, List.take_zero]
      | succ n => rw [List.take_succ_cons, List.take_succ_cons, ih h.2]

theorem nodup_lastMentions (mentions : List String) :
    ((lastMentions mentions).map lower).Nodup := by
  induction mentions with
  | nil => exact List.nodup_nil
  | cons name later ih =>
    rw [lastMentions]
    split
    · exact ih
    · -- the name goes to the end only because no later mention is of it
      rename_i hlater
      rw [List.map_append, List.map_singleton, List.nodup_append]
      refine ⟨ih, List.pairwise_singleton _ _, ?_⟩
      rintro key hkey other hother rfl
      obtain ⟨b, hb, hlower⟩ := List.mem_map.mp hkey
      rw [List.mem_singleton.mp hother] at hlower
      exact hlater (List.any_eq_true.mpr
        ⟨b, lastMentions_subset later hb, sameName_iff.mpr hlower.symm⟩)

theorem isTidy_latest {mentions : List String} (n : Nat)
    (h : ∀ name ∈ mentions, trim name = name ∧ name ≠ "") : IsTidy (latest n mentions) := by
  have hall : IsTidy (lastMentions mentions) := {
    nodup := nodup_lastMentions mentions
    trimmed := fun name hname => (h name (lastMentions_subset mentions hname)).1
    proper := fun name hname => (h name (lastMentions_subset mentions hname)).2 }
  exact hall.sublist (List.take_sublist _ _)

/-- A bounded list to the front of which each name moves that is mentioned holds the names
mentioned latest: the cut never drops a name that would matter later. -/
theorem latest_concat (n : Nat) (mentions : List String) (name : String) :
    latest n (mentions ++ [name]) = (name :: without name (latest n mentions)).take n := by
  rw [latest, lastMentions_concat, latest]
  cases n with
  | zero => rw [List.take_zero, List.take_zero]
  | succ n =>
    rw [List.take_succ_cons, List.take_succ_cons,
      take_without_take (nodup_lastMentions mentions)]

end BuildDesk.Text
