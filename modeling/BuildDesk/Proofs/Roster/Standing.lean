/-
The roster that stands in the job file.

A change to the roster in the job file is written, unless one of the new texts cannot be
encoded; then the file stays as it is and the fault says so (`IsRead.outcome_revise`).  That
takes no more than a file that is read as a roster (`Roster.IsRead`).  A roster stands in a
folder when it can be written as well (`Roster.Stands`).

* `outcome_load_of`, `outcome_save_of_file`, `save_fails_of_directory`, `outcome_revise_of_none`,
  `revise_yields` — what reading, writing and changing come to;
* `IsRead.shaped`, `IsRead.kept`, `Stands.kept`, `stands_of_save` — what was read can be
  written and read again, and what was written stands in the folder, as it is read back.
-/
import BuildDesk.Proofs.Json.Shape
import BuildDesk.Proofs.Roster.Reread

namespace BuildDesk

namespace Roster

variable {r r' : Roster} {s s' : Session} {settings : Settings}

/-- A fresh roster is about the server and the user of the settings, and has no jobs that
were used. -/
theorem fresh_eq {settings : Settings} {now : Int} {jobs : List Job} {r : Roster}
    (h : fresh settings now jobs = .ok r) :
    ∃ stamp, r = ⟨settings.url, settings.user, stamp, jobs, []⟩ := by
  unfold fresh at h
  split at h
  · exact ⟨_, (Except.ok.inj h).symm⟩
  · cases h

theorem belongsTo_self (settings : Settings) (stamp : String) (jobs : List Job)
    (recent : List String) :
    belongsTo ⟨settings.url, settings.user, stamp, jobs, recent⟩ settings = true := by
  simp [belongsTo]

/-! ### The job file as it is read -/

/-- The job file is read as the roster. -/
def IsRead (r : Roster) (f : Folder) : Prop := ofFolder f = .ok (some r)

theorem isRead_iff {f : Folder} : r.IsRead f ↔
    f.reachable = true ∧ ∃ text, f.jobs = .text text ∧ ofText? text = .ok (some r) := by
  unfold IsRead ofFolder
  cases hreach : f.reachable with
  | false => simp
  | true => cases f.jobs <;> simp

theorem IsRead.unique {f : Folder} (h : r.IsRead f) (h' : r'.IsRead f) : r = r' :=
  Option.some.inj (Except.ok.inj (h.symm.trans h'))

theorem IsRead.reachable {f : Folder} (h : r.IsRead f) : f.reachable = true := (isRead_iff.mp h).1

theorem IsRead.not_directory {f : Folder} (h : r.IsRead f) : f.jobs ≠ .directory := by
  obtain ⟨-, text, hfile, -⟩ := isRead_iff.mp h
  rw [hfile]
  exact Entry.noConfusion

/-- The full names in a record leave room for the lists and objects around them. -/
theorem shaped_ofJson? {n : Nat} {v : Json} (hv : Json.Shaped (n + 3) v)
    (h : ofJson? v = some r) : ∀ job ∈ r.jobs, Json.Shaped n job.fullName := by
  unfold ofJson? at h
  split at h
  · rename_i server user fetchedAt jobs hserver huser hfetched hjobs
    obtain rfl := Option.some.inj h
    have hlist : Json.Shaped (n + 2) (.list jobs) := hjobs ▸ hv.field "jobs"
    cases hlist with
    | list hitems =>
      intro job hjob
      obtain ⟨members, hmembers, rfl⟩ := List.mem_map.mp hjob
      obtain ⟨item, hitem, hobject⟩ := List.mem_filterMap.mp hmembers
      cases item with
      | object m =>
        obtain rfl := Option.some.inj hobject
        cases hitems _ hitem with
        | object _ hvalues => exact (Json.shaped_lookup hvalues _).orElse
      | _ => cases hobject
  · cases h

/-- What was read can be read again once it is written. -/
theorem IsRead.shaped {f : Folder} (h : r.IsRead f) : ∀ job ∈ r.jobs, job.IsShaped := by
  obtain ⟨-, text, -, hread⟩ := isRead_iff.mp h
  unfold ofText? at hread
  split at hread
  · rename_i v hv
    have hshaped : Json.Shaped (Json.mostNested - 3 + 3) v := Json.shaped_of_read hv
    exact shaped_ofJson? hshaped (Except.ok.inj hread)
  · cases hread
  · cases hread
  · cases hread

/-- A roster that is written is read back. -/
theorem IsRead.kept (hreach : s.folder.reachable = true) (h : ∀ job ∈ r.jobs, job.IsShaped) :
    r.reread.IsRead (r.kept s).folder :=
  isRead_iff.mpr ⟨hreach, r.document, rfl, ofText?_reread h⟩

theorem reachable_of_ok {found : Option Roster} {f : Folder} (h : ofFolder f = .ok found) :
    f.reachable = true := by
  cases hreach : f.reachable with
  | true => rfl
  | false => simp [ofFolder, hreach] at h

theorem outcome_load_of {found : Option Roster} (h : ofFolder s.folder = .ok found) :
    load.outcome s = (.ok found, s) := load_yields.mpr ⟨h, rfl⟩

theorem outcome_loadFor_of {found : Option Roster} (h : ofFolder s.folder = .ok found) :
    (loadFor settings).outcome s = (.ok (found.filter (·.belongsTo settings)), s) := by
  rw [loadFor, Desk.outcome_bind, outcome_load_of h]
  cases found with
  | none => rfl
  | some r =>
    rw [Option.filter_some]
    rfl

theorem IsRead.outcome_loadFor (h : r.IsRead s.folder) (hours : r.belongsTo settings = true) :
    (loadFor settings).outcome s = (.ok (some r), s) := by
  rw [outcome_loadFor_of h, Option.filter_some, if_pos hours]

theorem outcome_save_of_file (r : Roster) (hreach : s.folder.reachable = true)
    (hfile : s.folder.jobs ≠ .directory) :
    (save r).outcome s = if Text.isEncodable r.document then (.ok (), r.kept s)
      else (.error .notEncodable, s) := by
  by_cases henc : Text.isEncodable r.document = true
  · rw [if_pos henc]
    exact (save_yields henc).mpr ⟨hreach, hfile, rfl⟩
  · rw [if_neg henc, save, Desk.outcome_get_bind]
    rw [Bool.not_eq_true] at henc
    simp only [hreach, henc]
    rfl

/-- A directory in the place of the job file is not replaced. -/
theorem save_fails_of_directory (r : Roster) (hreach : s.folder.reachable = true)
    (hdir : s.folder.jobs = .directory) :
    ∃ f s', (save r).Fails s f s' ∧ s'.folder.jobs = .directory := by
  unfold save Desk.Fails
  simp only [Desk.outcome_get_bind, hreach]
  by_cases henc : Text.isEncodable r.document = true
  · simp only [henc, replace_of_directory hdir]
    exact ⟨_, _, rfl, hdir⟩
  · rw [Bool.not_eq_true] at henc
    simp only [henc]
    exact ⟨_, _, rfl, hdir⟩

/-- Without a roster of the settings there is nothing to change. -/
theorem outcome_revise_of_none {found : Option Roster} (h : ofFolder s.folder = .ok found)
    (hours : found.filter (·.belongsTo settings) = none) (change : Roster → Option Roster) :
    (revise settings change).outcome s = (.ok false, s) := by
  rw [revise, Desk.outcome_bind, outcome_loadFor_of h, hours]
  rfl

/-- A change is written when its texts can be encoded, and else leaves the file as it is; so
does a change that has nothing to write. -/
theorem IsRead.outcome_revise (h : r.IsRead s.folder) (hours : r.belongsTo settings = true)
    (change : Roster → Option Roster) : (revise settings change).outcome s =
      match change r with
      | none => (.ok false, s)
      | some r' => if Text.isEncodable r'.document then (.ok true, r'.kept s)
        else (.error .notEncodable, s) := by
  rw [revise, Desk.outcome_bind, h.outcome_loadFor hours]
  dsimp only
  rcases change r with _ | r'
  · rfl
  · dsimp only
    rw [Desk.outcome_bind, outcome_save_of_file r' h.reachable h.not_directory]
    by_cases henc : Text.isEncodable r'.document = true
    · rw [if_pos henc, if_pos henc]
      rfl
    · rw [if_neg henc, if_neg henc]

/-- What a change came to: nothing, or the roster of the settings has been changed. -/
theorem revise_yields {change : Roster → Option Roster} {done : Bool}
    (h : (revise settings change).Yields s done s') : done = false ∧ s' = s ∨
      done = true ∧ ∃ r r', r.IsRead s.folder ∧ r.belongsTo settings = true ∧
        change r = some r' ∧ s' = r'.kept s := by
  obtain ⟨found, hread⟩ : ∃ found, ofFolder s.folder = .ok found := by
    obtain ⟨_, _, hloadFor, -⟩ := Desk.yields_bind.mp h
    obtain ⟨found, _, hload, -⟩ := Desk.yields_bind.mp hloadFor
    exact ⟨found, (load_yields.mp hload).1⟩
  have hout : (revise settings change).outcome s = (.ok done, s') := h
  rcases hfilter : found.filter (·.belongsTo settings) with _ | r
  · rw [outcome_revise_of_none hread hfilter] at hout
    obtain ⟨hdone, rfl⟩ := Prod.mk.inj hout
    exact .inl ⟨(Except.ok.inj hdone).symm, rfl⟩
  · obtain ⟨rfl, hours⟩ := Option.filter_eq_some_iff.mp hfilter
    have hread : r.IsRead s.folder := hread
    rw [hread.outcome_revise hours] at hout
    rcases hchange : change r with _ | r'
    · rw [hchange] at hout
      obtain ⟨hdone, rfl⟩ := Prod.mk.inj hout
      exact .inl ⟨(Except.ok.inj hdone).symm, rfl⟩
    · rw [hchange] at hout
      dsimp only at hout
      split at hout
      · obtain ⟨hdone, rfl⟩ := Prod.mk.inj hout
        exact .inr ⟨(Except.ok.inj hdone).symm, r, r', hread, hours, hchange, rfl⟩
      · cases hout

/-! ### Rosters that can be written -/

/-- The roster stands in the job file, and it can be written. -/
structure Stands (r : Roster) (f : Folder) : Prop where
  storable : r.Storable
  reachable : f.reachable = true
  read : ∃ text, f.jobs = .text text ∧ ofText? text = .ok (some r)

theorem Stands.isRead {f : Folder} (h : r.Stands f) : r.IsRead f :=
  isRead_iff.mpr ⟨h.reachable, h.read⟩

/-- What was written stands in the job file, as it is read back. -/
theorem Stands.kept (hreach : s.folder.reachable = true) (h : r.Storable) :
    r.reread.Stands (r.kept s).folder :=
  ⟨h.reread, hreach, r.document, rfl, ofText?_reread h.shaped⟩

theorem Stands.outcome_load (h : r.Stands s.folder) : load.outcome s = (.ok (some r), s) :=
  outcome_load_of h.isRead

theorem Stands.outcome_loadFor (h : r.Stands s.folder) (hours : r.belongsTo settings = true) :
    (loadFor settings).outcome s = (.ok (some r), s) := h.isRead.outcome_loadFor hours

/-- What was written without fail stands in the job file, as it is read back. -/
theorem stands_of_save (hshaped : ∀ job ∈ r.jobs, job.IsShaped)
    (h : (save r).Yields s () s') : r.reread.Stands s'.folder := by
  by_cases henc : Text.isEncodable r.document = true
  · obtain ⟨hreach, -, rfl⟩ := (save_yields henc).mp h
    exact .kept hreach ⟨(isEncodable_document_iff hshaped).mp henc, hshaped⟩
  · -- nothing is written that cannot be encoded
    exfalso
    rw [Bool.not_eq_true] at henc
    unfold save at h
    rw [Desk.yields_get_bind] at h
    by_cases hreach : s.folder.reachable = true
    · simp [hreach, henc] at h
    · simp [hreach] at h

/-! ### A roster of one job -/

/-- The settings of one user. -/
def someSettings : Settings where
  url := "ci"
  user := "kim"
  token := "t"

/-- A fresh roster of one job, as of the beginning of 1970. -/
def oneJob : Roster where
  server := "ci"
  user := "kim"
  fetchedAt := "1970-01-01T00:00:00+00:00"
  jobs := [⟨"a", "u", .null, []⟩]

theorem fresh_oneJob : fresh someSettings 0 oneJob.jobs = .ok oneJob := by
  rfl

theorem isShaped_oneJob : ∀ job ∈ oneJob.jobs, job.IsShaped :=
  List.forall_mem_cons.mpr ⟨.null, List.forall_mem_nil _⟩

theorem storable_oneJob : oneJob.Storable := Keepable.storable {
  encodable := by decide
  named := List.forall_mem_cons.mpr ⟨.inl rfl, List.forall_mem_nil _⟩ }

theorem save_oneJob : (save oneJob).Yields {} () (oneJob.kept {}) :=
  (save_yields storable_oneJob.isEncodable).mpr ⟨rfl, Entry.noConfusion, rfl⟩

theorem stands_oneJob : oneJob.Stands (oneJob.kept {}).folder :=
  stands_of_save isShaped_oneJob save_oneJob

end Roster

/-- A name with half of a surrogate pair that stands alone. -/
def Text.loneHalf : String := String.ofList [ofHalf 0xD800]

end BuildDesk
