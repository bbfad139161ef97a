/-
What the calls that record and forget do to the roster in the job file.

Each call reads the roster, changes one part of it and writes it back.  With a roster that
stands in the job file the whole call comes to one of few endings, and this file says to
which (`Stands.outcome_record`, `Stands.outcome_forget`, `Stands.outcome_recordRecent`).  The
one fault that remains is a name with half of a surrogate pair, which cannot be written;
then the file is left alone.  Forgetting takes no more than a roster that is read, since it may
be such a name that is forgotten (`IsRead.outcome_forget`).

* `find?_changeFirst` — changing the first job with an address leaves the others alone;
* `history?_changeBranches` — so one history changes, and reading back changes none;
* `Storable.changeBranches`, `storable_recorded`, `storable_forgotten`, `storable_useJob` —
  the changed roster can be written.
-/
import BuildDesk.Proofs.Roster.Standing
import BuildDesk.Proofs.Text.Latest
import BuildDesk.Roster.Branches
import BuildDesk.Roster.Recent

namespace BuildDesk

/-! ### Texts that can be encoded -/

theorem Text.encodable_of_subset {s t : String} (h : Text.Encodable t)
    (hsub : s.toList ⊆ t.toList) : Text.Encodable s := by
  refine List.all_eq_true.mpr fun c hc => ?_
  exact List.all_eq_true.mp h c (hsub hc)

theorem Text.encodable_trim {s : String} (h : Text.Encodable s) : Text.Encodable (trim s) := by
  refine encodable_of_subset h ?_
  rw [trim, String.toList_ofList, trimChars, dropRight_eq_rdropWhile]
  exact List.Subset.trans (List.rdropWhile_prefix isBlank _).subset
    (List.dropWhile_sublist _).subset

/-! ### Changing one job -/

namespace Roster

section ChangeFirst

variable {url : String} {f : Job → Job} {jobs : List Job}

theorem mem_changeFirst {job : Job} (h : job ∈ changeFirst url f jobs) :
    job ∈ jobs ∨ ∃ old ∈ jobs, job = f old := by
  induction jobs with
  | nil => exact .inl h
  | cons first rest ih =>
    rw [changeFirst] at h
    split at h
    · rcases List.mem_cons.mp h with rfl | h
      · exact .inr ⟨first, List.mem_cons_self, rfl⟩
      · exact .inl (List.mem_cons_of_mem _ h)
    · rcases List.mem_cons.mp h with rfl | h
      · exact .inl List.mem_cons_self
      · rcases ih h with h | ⟨old, hold, heq⟩
        · exact .inl (List.mem_cons_of_mem _ h)
        · exact .inr ⟨old, List.mem_cons_of_mem _ hold, heq⟩

theorem changeFirst_mem {job : Job} (h : Job.find? jobs url = some job) :
    f job ∈ changeFirst url f jobs := by
  induction jobs with
  | nil => cases h
  | cons first rest ih =>
    rw [changeFirst]
    rw [Job.find?, List.find?_cons] at h
    split at h
    · rename_i hfirst
      rw [if_pos hfirst, Option.some.inj h]
      exact List.mem_cons_self
    · rename_i hfirst
      rw [hfirst]
      exact List.mem_cons_of_mem _ (ih h)

/-- Two changes that agree on the job found are the same. -/
theorem changeFirst_congr {g : Job → Job}
    (h : ∀ job, Job.find? jobs url = some job → f job = g job) :
    changeFirst url f jobs = changeFirst url g jobs := by
  induction jobs with
  | nil => rfl
  | cons first rest ih =>
    rw [changeFirst, changeFirst]
    rw [Job.find?, List.find?_cons] at h
    split
    · rename_i hfirst
      rw [hfirst] at h
      rw [h first rfl]
    · rename_i hfirst
      rw [Bool.not_eq_true] at hfirst
      rw [hfirst] at h
      rw [ih h]

/-- The job found at the address is the changed one, and other addresses lead to the same
jobs as before. -/
theorem find?_changeFirst (hf : ∀ job, (f job).url = job.url) (other : String) :
    Job.find? (changeFirst url f jobs) other
      = (Job.find? jobs other).map fun job => if other = url then f job else job := by
  unfold Job.find?
  induction jobs with
  | nil => rfl
  | cons first rest ih =>
    rw [changeFirst]
    by_cases hfirst : first.url = url
    · rw [if_pos (beq_iff_eq.mpr hfirst), List.find?_cons, List.find?_cons, hf]
      by_cases hother : first.url = other
      · rw [beq_iff_eq.mpr hother, ← hother, ← hfirst]
        simp
      · -- a job at another address is looked for, and the rest is as before
        have hne : ¬ other = url := fun h => hother (hfirst.trans h.symm)
        rw [beq_false_of_ne hother]
        simp [hne]
    · rw [if_neg (by rwa [beq_iff_eq]), List.find?_cons, List.find?_cons, ih]
      by_cases hother : first.url = other
      · have hne : ¬ other = url := hother ▸ hfirst
        rw [beq_iff_eq.mpr hother]
        simp [hne]
      · rw [beq_false_of_ne hother]

end ChangeFirst

/-- The roster with the history of one job changed. -/
def changeBranches (url : String) (g : List String → List String) (r : Roster) : Roster :=
  { r with jobs := changeFirst url (fun job => { job with branches := g job.branches }) r.jobs }

variable {r r' : Roster} {s s' : Session} {settings : Settings} {url branch : String}

theorem find?_changeBranches (g : List String → List String) (other : String) :
    (changeBranches url g r).find? other = (r.find? other).map fun job =>
      if other = url then { job with branches := g job.branches } else job :=
  find?_changeFirst (f := fun job => { job with branches := g job.branches }) (fun _ => rfl) other

/-- The history of the first job with an address. -/
def history? (r : Roster) (url : String) : Option (List String) := (r.find? url).map Job.branches

theorem history?_of_find? {job : Job} (h : r.find? url = some job) :
    r.history? url = some job.branches := by
  rw [history?, h]
  rfl

theorem history?_eq_nil (h : ∀ job ∈ r.jobs, job.branches = []) {history : List String}
    (hhistory : r.history? url = some history) : history = [] := by
  obtain ⟨job, hjob, rfl⟩ := Option.map_eq_some_iff.mp hhistory
  exact h job (List.mem_of_find?_eq_some hjob)

theorem history?_eq_none : r.history? url = none ↔ r.find? url = none := Option.map_eq_none_iff

theorem history?_reread (r : Roster) : r.reread.history? = r.history? := by
  funext url
  rw [history?, find?_reread, Option.map_map]
  rfl

theorem history?_changeBranches (g : List String → List String) (other : String) :
    (changeBranches url g r).history? other
      = (r.history? other).map fun history => if other = url then g history else history := by
  rw [history?, find?_changeBranches, history?, Option.map_map, Option.map_map]
  refine congrArg (fun f => (r.find? other).map f) (funext fun job => ?_)
  by_cases hother : other = url
  · simp [hother]
  · simp [hother]

theorem shaped_changeBranches (h : ∀ job ∈ r.jobs, job.IsShaped)
    (g : List String → List String) : ∀ job ∈ (changeBranches url g r).jobs, job.IsShaped := by
  intro job hjob
  rcases mem_changeFirst hjob with hjob | ⟨old, hold, rfl⟩
  · exact h job hjob
  · exact h old hold

theorem Storable.encodable_branch (h : r.Storable) {job : Job} (hjob : job ∈ r.jobs) {b : String}
    (hb : b ∈ job.branches) : Text.Encodable b :=
  h.encodable b (.inr (.inl ⟨job, hjob, .inr (.inr (.inr hb))⟩))

/-- A history may become any list of names that can be encoded. -/
theorem Storable.changeBranches (h : r.Storable) {g : List String → List String}
    (hg : ∀ job ∈ r.jobs, ∀ b ∈ g job.branches, Text.Encodable b) :
    (changeBranches url g r).Storable where
  encodable := by
    rintro text (hhead | ⟨job, hjob, htext⟩ | hrecent)
    · exact h.encodable text (.inl hhead)
    · rcases mem_changeFirst hjob with hjob | ⟨old, hold, rfl⟩
      · exact h.encodable text (.inr (.inl ⟨job, hjob, htext⟩))
      · rcases htext with hname | hurl | hfull | hbranch
        · exact h.encodable text (.inr (.inl ⟨old, hold, .inl hname⟩))
        · exact h.encodable text (.inr (.inl ⟨old, hold, .inr (.inl hurl)⟩))
        · exact h.encodable text (.inr (.inl ⟨old, hold, .inr (.inr (.inl hfull))⟩))
        · exact hg old hold text hbranch
    · exact h.encodable text (.inr (.inr hrecent))
  shaped := shaped_changeBranches h.shaped g

/-! ### Branches -/

theorem mem_push {name b : String} {history : List String} (h : b ∈ Branches.push name history) :
    b = name ∨ ∃ old ∈ history, b = Text.trim old := by
  rcases List.mem_cons.mp (List.mem_of_mem_take h) with rfl | h
  · exact .inl rfl
  · have hclean := (List.mem_filter.mp (Text.mem_without.mp h).1).1
    obtain ⟨old, hold, rfl⟩ := List.mem_map.mp hclean
    exact .inr ⟨old, hold, rfl⟩

theorem recorded_eq {name : String} : Branches.recorded url name r = (r.find? url).map fun _ =>
    changeBranches url (Branches.push name) r := rfl

theorem storable_recorded (h : r.Storable) {name : String} (hname : Text.Encodable name) :
    (changeBranches url (Branches.push name) r).Storable := by
  refine h.changeBranches fun job hjob b hb => ?_
  rcases mem_push hb with rfl | ⟨old, hold, rfl⟩
  · exact hname
  · exact Text.encodable_trim (h.encodable_branch hjob hold)

/-- A recorded name stands in the document. -/
theorem isEncodable_recorded (h : r.Storable) {name : String} {job : Job}
    (hfound : r.find? url = some job) :
    Text.isEncodable (changeBranches url (Branches.push name) r).document
      = Text.isEncodable name := by
  rw [Bool.eq_iff_iff]
  constructor
  · intro hdoc
    refine (isEncodable_document_iff (shaped_changeBranches h.shaped _)).mp hdoc name ?_
    -- the name is the first of the history that is written
    exact .inr (.inl ⟨_, changeFirst_mem hfound, .inr (.inr (.inr List.mem_cons_self))⟩)
  · intro hname
    exact (storable_recorded h hname).isEncodable

/-- Recording a branch: blank names and unknown jobs do nothing, and a name that cannot be
encoded is refused. -/
theorem Stands.outcome_record (h : r.Stands s.folder) (hours : r.belongsTo settings = true)
    (url branch : String) : (Branches.record settings url branch).outcome s =
      if Text.trim branch = "" ∨ r.find? url = none then (.ok (), s)
      else if Text.isEncodable (Text.trim branch) then
        (.ok (), (changeBranches url (Branches.push (Text.trim branch)) r).kept s)
      else (.error .notEncodable, s) := by
  unfold Branches.record
  by_cases hblank : Text.trim branch = ""
  · simp only [hblank]
    rfl
  · simp only [bne_iff_ne, ne_eq, hblank, not_false_eq_true, if_true, false_or]
    rw [Desk.outcome_bind, h.isRead.outcome_revise hours, recorded_eq]
    rcases hfound : r.find? url with _ | job
    · rfl
    · dsimp only [Option.map_some]
      rw [isEncodable_recorded h.storable hfound]
      by_cases henc : Text.isEncodable (Text.trim branch) = true
      · rw [if_pos henc, if_pos henc]
        rfl
      · rw [if_neg henc, if_neg henc]
        rfl

theorem storable_forgotten (h : r.Storable) (name : String) :
    (changeBranches url (Text.without name) r).Storable :=
  h.changeBranches fun _ hjob _ hb => h.encodable_branch hjob (Text.mem_without.mp hb).1

/-- What is left of a history without a name is as long as before when the name was not
there. -/
theorem length_without_eq {name : String} {history : List String} :
    (Text.without name history).length = history.length
      ↔ history.any (Text.sameName · name) = false := by
  rw [Text.without, List.length_filter_eq_length_iff, List.any_eq_false]
  simp only [Bool.not_eq_true', Bool.not_eq_true]

/-- A branch is forgotten when the job found has a spelling of it. -/
theorem forgotten_eq {name : String} : Branches.forgotten url name r =
    if (r.find? url).any fun job => job.branches.any (Text.sameName · name) then
      some (changeBranches url (Text.without name) r)
    else none := by
  unfold Branches.forgotten
  rcases hfound : r.find? url with _ | job
  · rfl
  · -- the history that is shortened is that of the job found, which is the one changed
    have hsame : changeFirst url (fun j => { j with branches := Text.without name job.branches })
        r.jobs = (changeBranches url (Text.without name) r).jobs := by
      refine changeFirst_congr fun found h => ?_
      rw [Option.some.inj (h.symm.trans hfound)]
    simp only [hsame, Option.any_some, beq_iff_eq]
    by_cases hany : job.branches.any (Text.sameName · name) = true
    · rw [if_pos hany, if_neg fun hlength => ?_]
      · rfl
      · rw [length_without_eq.mp hlength] at hany
        cases hany
    · rw [if_neg hany, if_pos (length_without_eq.mpr (Bool.not_eq_true _ ▸ hany))]

/-- Forgetting a branch: it is written when the job has a spelling of it, unless a text that
is left in the roster cannot be encoded. -/
theorem IsRead.outcome_forget (h : r.IsRead s.folder) (hours : r.belongsTo settings = true)
    (url branch : String) : (Branches.forget settings url branch).outcome s =
      if Text.trim branch = "" ∨ Branches.isDefault (Text.trim branch) = true then (.ok false, s)
      else if (r.find? url).any fun job => job.branches.any (Text.sameName · (Text.trim branch))
      then
        if Text.isEncodable (changeBranches url (Text.without (Text.trim branch)) r).document then
          (.ok true, (changeBranches url (Text.without (Text.trim branch)) r).kept s)
        else (.error .notEncodable, s)
      else (.ok false, s) := by
  unfold Branches.forget
  by_cases hskip : Text.trim branch = "" ∨ Branches.isDefault (Text.trim branch) = true
  · simp only [hskip, if_true, Bool.or_eq_true, beq_iff_eq]
    rfl
  · simp only [hskip, if_false, Bool.or_eq_true, beq_iff_eq]
    rw [h.outcome_revise hours, forgotten_eq]
    by_cases hany : ((r.find? url).any fun job =>
        job.branches.any (Text.sameName · (Text.trim branch))) = true
    · rw [if_pos hany, if_pos hany]
    · rw [if_neg hany, if_neg hany]

/-- What forgetting came to: nothing, or a name that is no default branch is taken out of the
history of the job. -/
theorem forget_yields {removed : Bool}
    (h : (Branches.forget settings url branch).Yields s removed s') : removed = false ∧ s' = s ∨
      removed = true ∧ Branches.isDefault (Text.trim branch) = false ∧ ∃ r : Roster,
        r.IsRead s.folder ∧ r.belongsTo settings = true ∧
          s' = (changeBranches url (Text.without (Text.trim branch)) r).kept s := by
  unfold Branches.forget at h
  dsimp only at h
  split at h
  · exact .inl (Desk.yields_pure.mp h)
  · rename_i hskip
    rcases revise_yields h with hsame | ⟨hdone, r, r', hread, hours, hchange, rfl⟩
    · exact .inl hsame
    · rw [forgotten_eq] at hchange
      split at hchange
      · obtain rfl := Option.some.inj hchange
        exact .inr ⟨hdone, by simp_all, r, hread, hours, rfl⟩
      · cases hchange

theorem Stands.outcome_forget (h : r.Stands s.folder) (hours : r.belongsTo settings = true)
    (url branch : String) : (Branches.forget settings url branch).outcome s =
      if Text.trim branch = "" ∨ Branches.isDefault (Text.trim branch) = true then (.ok false, s)
      else if (r.find? url).any fun job => job.branches.any (Text.sameName · (Text.trim branch))
      then (.ok true, (changeBranches url (Text.without (Text.trim branch)) r).kept s)
      else (.ok false, s) := by
  rw [h.isRead.outcome_forget hours, if_pos (storable_forgotten h.storable _).isEncodable]

/-! ### Jobs used lately -/

/-- The roster with an address moved to the front of the jobs used lately. -/
def useJob (name : String) (r : Roster) : Roster := { r with recent := Recent.push name r.recent }

theorem mem_recentPush {name b : String} {recent : List String} (h : b ∈ Recent.push name recent) :
    b = name ∨ b ∈ recent := by
  rcases List.mem_cons.mp (Text.distinctFrom_subset _ _ (List.mem_of_mem_take h)) with rfl | h
  · exact .inl rfl
  · exact .inr (List.mem_filter.mp (Text.mem_without.mp h).1).1

theorem recentPush_eq (name : String) (recent : List String) :
    ∃ rest, Recent.push name recent = name :: rest := by
  rw [Recent.push, Text.distinct, Text.distinctFrom, if_neg List.not_mem_nil]
  exact ⟨_, List.take_succ_cons⟩

theorem storable_useJob (h : r.Storable) {name : String} (hname : Text.Encodable name) :
    (useJob name r).Storable where
  encodable := by
    rintro text (hhead | hjob | hrecent)
    · exact h.encodable text (.inl hhead)
    · exact h.encodable text (.inr (.inl hjob))
    · rcases mem_recentPush hrecent with rfl | hrecent
      · exact hname
      · exact h.encodable text (.inr (.inr hrecent))
  shaped := h.shaped

/-- Recording a job that was used: a blank address does nothing, and one that cannot be
encoded is refused. -/
theorem Stands.outcome_recordRecent (h : r.Stands s.folder) (hours : r.belongsTo settings = true)
    (url : String) : (Recent.record settings url).outcome s =
      if Text.trim url = "" then (.ok (), s)
      else if Text.isEncodable (Text.trim url) then
        (.ok (), (useJob (Text.trim url) r).kept s)
      else (.error .notEncodable, s) := by
  unfold Recent.record
  by_cases hblank : Text.trim url = ""
  · simp only [hblank]
    rfl
  · simp only [bne_iff_ne, ne_eq, hblank, not_false_eq_true, if_true, if_false]
    show (revise settings (some ∘ useJob (Text.trim url)) >>= fun _ => pure ()).outcome s = _
    rw [Desk.outcome_bind, h.isRead.outcome_revise hours, Function.comp_apply]
    dsimp only
    by_cases henc : Text.isEncodable (Text.trim url) = true
    · rw [if_pos (storable_useJob h.storable henc).isEncodable, if_pos henc]
      rfl
    · -- the address stands in the document
      have hdoc : ¬ Text.isEncodable (useJob (Text.trim url) r).document = true := by
        intro hdoc
        have hmem : (useJob (Text.trim url) r).Mentions (Text.trim url) := by
          obtain ⟨rest, hrest⟩ := recentPush_eq (Text.trim url) r.recent
          refine .inr (.inr ?_)
          rw [useJob, hrest]
          exact List.mem_cons_self
        have hshaped : ∀ job ∈ (useJob (Text.trim url) r).jobs, job.IsShaped := h.storable.shaped
        exact henc ((isEncodable_document_iff hshaped).mp hdoc _ hmem)
      rw [if_neg hdoc, if_neg henc]

/-! ### A roster of one job with a history -/

/-- The roster of one job, with branches recorded. -/
def oneJobWith (history : List String) : Roster := changeBranches "u" (fun _ => history) oneJob

theorem storable_oneJobWith {history : List String} (h : ∀ b ∈ history, Text.Encodable b) :
    (oneJobWith history).Storable := storable_oneJob.changeBranches fun _ _ => h

theorem isRead_oneJobWith {history : List String} (h : ∀ b ∈ history, Text.Encodable b) :
    (oneJobWith history).IsRead ((oneJobWith history).kept {}).folder :=
  .kept rfl (storable_oneJobWith h).shaped

end Roster
end BuildDesk
