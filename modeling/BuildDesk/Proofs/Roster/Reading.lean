/-
What may stand in the job file.

The job file may hold anything.  A missing file, a directory in its place, a text that is no
JSON and a JSON value that is no record of a roster all count as no roster.  Three things are
not caught and end the call: bytes that are no UTF-8, a number with too many digits, and a
value that is nested too deep.

A roster that is read has texts for everything but the full names of its jobs.  A full name is
taken as it stands in the file, as long as it does not count as absent, and nothing asks whether
it is a text.  Ranking jobs does ask, and fails just when one of them is none.

* `Unreadable`, `load_fails_iff`, `recent_fails_iff` — the files that cannot be read, and the
  jobs used lately in them;
* `Json.HasPlainNames`, `named_iff` — the records whose full names are texts or absent;
* `rank_ok_iff`, `filter_ok` — what can be ranked and listed;
* `reading_of_reachable` — the whole, for any content of the job file.
-/
import BuildDesk.Proofs.Roster.Change
import BuildDesk.Proofs.Search.Ranking

namespace BuildDesk

/-- The full names of the jobs in a record are texts, or count as absent. -/
def Json.HasPlainNames (v : Json) : Prop :=
  ∀ members, .object members ∈ (v.field "jobs").items →
    let name := (members.lookup "fullName").getD .null
    name.truthy = false ∨ ∃ text, name = .str text

/-! ### Names that are texts -/

namespace Job

/-- A full name that is read is missing or does not count as absent. -/
theorem fullName_ofMembers (members : List (String × Json)) :
    (ofMembers members).fullName = .null ∨ (ofMembers members).fullName.truthy = true := by
  rw [ofMembers, Json.orElse]
  split
  · rename_i htruthy
    exact .inr htruthy
  · exact .inl rfl

theorem isNamed_ofMembers {members : List (String × Json)} :
    (ofMembers members).IsNamed ↔ ((members.lookup "fullName").getD .null).truthy = false ∨
      ∃ text, (members.lookup "fullName").getD .null = .str text := by
  rw [IsNamed, ofMembers]
  dsimp only
  generalize (members.lookup "fullName").getD .null = name
  rw [Json.orElse]
  by_cases htruthy : name.truthy = true
  · rw [if_pos htruthy, htruthy]
    constructor
    · rintro (rfl | ⟨text, -, rfl⟩)
      · cases htruthy
      · exact .inr ⟨text, rfl⟩
    · rintro (hfalse | ⟨text, rfl⟩)
      · cases hfalse
      · exact .inr ⟨text, bne_iff_ne.mp htruthy, rfl⟩
  · rw [if_neg htruthy]
    exact ⟨fun _ => .inl (Bool.not_eq_true _ ▸ htruthy), fun _ => .inl rfl⟩

/-- A job is shown by a text when its full name is one or is missing. -/
theorem displayName_eq_str {job : Job}
    (h : job.fullName = .null ∨ job.fullName.truthy = true) :
    (∃ text, job.displayName = .str text) ↔ job.IsNamed := by
  rw [displayName, IsNamed, Json.orElse]
  rcases h with hnull | htruthy
  · rw [hnull]
    exact ⟨fun _ => .inl rfl, fun _ => ⟨job.name, rfl⟩⟩
  · rw [if_pos htruthy]
    constructor
    · rintro ⟨text, htext⟩
      rw [htext] at htruthy
      exact .inr ⟨text, bne_iff_ne.mp htruthy, htext⟩
    · rintro (hnull | ⟨text, -, htext⟩)
      · rw [hnull] at htruthy
        cases htruthy
      · exact ⟨text, htext⟩

theorem IsNamed.hasTextName {job : Job} (h : job.IsNamed) : job.HasTextName :=
  h.imp_right fun ⟨text, _, htext⟩ => ⟨text, htext⟩

end Job

namespace Search

theorem exists_mapM_ok {α β ε : Type} {f : α → Except ε β} {l : List α} :
    (∃ results, l.mapM f = .ok results) ↔ ∀ a ∈ l, ∃ b, f a = .ok b := by
  induction l with
  | nil => simp [pure, Except.pure]
  | cons a rest ih =>
    rw [List.mapM_cons, List.forall_mem_cons, ← ih]
    cases f a with
    | error e => simp [bind, Except.bind]
    | ok b =>
      cases rest.mapM f with
      | error e => simp [bind, Except.bind]
      | ok bs => simp [bind, Except.bind, pure, Except.pure]

theorem exists_textsOf_ok {job : Job} (h : job.fullName = .null ∨ job.fullName.truthy = true) :
    (∃ texts, textsOf job = .ok texts) ↔ job.IsNamed := by
  constructor
  · rintro ⟨texts, htexts⟩
    rcases h with hnull | htruthy
    · exact .inl hnull
    · rw [textsOf, Json.present?, if_pos htruthy] at htexts
      cases hname : job.fullName with
      | str text =>
        rw [hname] at htruthy
        exact .inr ⟨text, bne_iff_ne.mp htruthy, hname⟩
      | _ => rw [hname] at htexts; cases htexts
  · exact fun hnamed => ⟨_, textsOf_eq hnamed.hasTextName⟩

/-- Jobs as they are read can be ranked just when all full names are texts or missing. -/
theorem rank_ok_iff {jobs : List Job}
    (h : ∀ job ∈ jobs, job.fullName = .null ∨ job.fullName.truthy = true) (query : String) :
    (∃ ranked, rank query jobs = .ok ranked) ↔ ∀ job ∈ jobs, job.IsNamed := by
  have hall : (∀ job ∈ jobs, job.IsNamed) ↔ ∃ texts, jobs.mapM textsOf = .ok texts := by
    rw [exists_mapM_ok]
    exact forall₂_congr fun job hjob => (exists_textsOf_ok (h job hjob)).symm
  -- the texts of all jobs are taken before any is compared, so nothing later fails
  rw [hall, rank]
  cases jobs.mapM textsOf with
  | error fault => simp [bind, Except.bind]
  | ok texts => simp [bind, Except.bind, pure, Except.pure]

/-- Jobs whose full names are texts or missing can be listed. -/
theorem filter_ok {jobs : List Job} (h : ∀ job ∈ jobs, job.IsNamed) (search : String) :
    ∃ found, filter jobs search = .ok found := by
  have htext : ∀ job ∈ jobs, job.HasTextName := fun job hjob => (h job hjob).hasTextName
  rw [filter]
  split
  · have hshown : jobs.all (fun job => job.displayName.asString?.isSome) = true := by
      refine List.all_eq_true.mpr fun job hjob => ?_
      rcases h job hjob with hnull | ⟨text, hproper, hname⟩
      · rw [Job.displayName, hnull]
        rfl
      · have htruthy : (Json.str text).truthy = true := bne_iff_ne.mpr hproper
        rw [Job.displayName, hname, Json.orElse, if_pos htruthy]
        rfl
    rw [sortByName, if_pos hshown]
    exact ⟨_, rfl⟩
  · rw [rank_eq htext]
    exact ⟨_, rfl⟩

end Search

/-! ### The job file -/

namespace Roster

/-- What stands in the place of the job file cannot be read, and why. -/
inductive Unreadable : Entry → Fault → Prop
  | binary : Unreadable .binary .notText
  | digits {text : String} (h : Json.read text = .error .tooManyDigits) :
      Unreadable (.text text) .badValue
  | deep {text : String} (h : Json.read text = .error .tooDeep) : Unreadable (.text text) .tooDeep

variable {r : Roster} {s s' : Session} {settings : Settings} {f : Fault}

theorem ofText?_eq_error {text : String} :
    ofText? text = .error f ↔ Unreadable (.text text) f := by
  rw [ofText?]
  constructor
  · intro h
    split at h
    · cases h
    · cases h
    · next hread => exact Except.error.inj h ▸ .digits hread
    · next hread => exact Except.error.inj h ▸ .deep hread
  · rintro (_ | hread | hread)
    · rw [hread]
    · rw [hread]

theorem ofFolder_eq_error (hreach : s.folder.reachable = true) :
    ofFolder s.folder = .error f ↔ Unreadable s.folder.jobs f := by
  rw [ofFolder, hreach]
  cases s.folder.jobs with
  | absent | directory =>
    constructor
    · intro h
      cases h
    · intro h
      cases h
  | binary =>
    constructor
    · intro h
      exact Except.error.inj h ▸ .binary
    · intro h
      cases h
      rfl
  | text text => exact ofText?_eq_error

/-- Reading fails just when the file cannot be read. -/
theorem load_fails_iff (hreach : s.folder.reachable = true) :
    load.Fails s f s' ↔ Unreadable s.folder.jobs f ∧ s' = s := by
  rw [← ofFolder_eq_error hreach]
  show (ofFolder s.folder, s) = (.error f, s') ↔ _
  rw [Prod.mk.injEq, eq_comm (a := s)]

/-- Looking for the jobs used lately fails just when the file cannot be read. -/
theorem recent_fails_iff (hreach : s.folder.reachable = true) :
    (Recent.load settings).Fails s f s' ↔ Unreadable s.folder.jobs f ∧ s' = s := by
  rw [← ofFolder_eq_error hreach]
  -- what comes after the file was read cannot fail
  have hloadFor : (Recent.load settings).Fails s f s' ↔ (loadFor settings).Fails s f s' := by
    rw [Recent.load, Desk.fails_bind]
    refine or_iff_left ?_
    rintro ⟨found, s₁, -, hlater⟩
    cases found with
    | none => exact Desk.fails_pure hlater
    | some r => exact Desk.fails_pure hlater
  have hload : (loadFor settings).Fails s f s' ↔ load.Fails s f s' := by
    rw [loadFor, Desk.fails_bind]
    refine or_iff_left ?_
    rintro ⟨found, s₁, -, hlater⟩
    cases found with
    | none => exact Desk.fails_pure hlater
    | some r => exact Desk.fails_pure hlater
  rw [hloadFor, hload, load_fails_iff hreach, ofFolder_eq_error hreach]

/-- The jobs of a roster are those of the entries of its record that are objects. -/
theorem jobs_of_ofJson? {v : Json} (h : ofJson? v = some r) :
    r.jobs = ((v.field "jobs").items.filterMap membersOf?).map Job.ofMembers := by
  unfold ofJson? at h
  split at h
  · next hjobs =>
    obtain rfl := Option.some.inj h
    rw [hjobs]
    rfl
  · cases h

theorem mem_membersOf? {items : List Json} {members : List (String × Json)} :
    members ∈ items.filterMap membersOf? ↔ .object members ∈ items := by
  rw [List.mem_filterMap]
  constructor
  · rintro ⟨item, hitem, hmembers⟩
    cases item with
    | object found => exact Option.some.inj hmembers ▸ hitem
    | _ => cases hmembers
  · exact fun h => ⟨_, h, rfl⟩

/-- The full names in a record are texts or absent just when those of the roster are texts or
missing. -/
theorem named_iff {v : Json} (h : ofJson? v = some r) :
    (∀ job ∈ r.jobs, job.IsNamed) ↔ v.HasPlainNames := by
  rw [jobs_of_ofJson? h, List.forall_mem_map]
  exact forall_congr' fun members => imp_congr mem_membersOf? Job.isNamed_ofMembers

theorem fullName_of_ofJson? {v : Json} (h : ofJson? v = some r) :
    ∀ job ∈ r.jobs, job.fullName = .null ∨ job.fullName.truthy = true := by
  rw [jobs_of_ofJson? h, List.forall_mem_map]
  exact fun members _ => Job.fullName_ofMembers members

/-- A roster that is read is that of the record in the file. -/
theorem record_of_load (h : load.Yields s (some r) s') : s' = s ∧ ∃ text v,
    s.folder.jobs = .text text ∧ Json.read text = .ok v ∧ ofJson? v = some r := by
  obtain ⟨hread, rfl⟩ := load_yields.mp h
  obtain ⟨-, text, hfile, htext⟩ := isRead_iff.mp hread
  refine ⟨rfl, text, ?_⟩
  rw [ofText?] at htext
  split at htext
  · next v hv => exact ⟨v, hfile, hv, Except.ok.inj htext⟩
  · cases htext
  · cases htext
  · cases htext

/-- **What may stand in the job file.**  In a folder that can be made, reading the job file and
looking for the jobs used lately fail just when there stand bytes that are no UTF-8, a number
with too many digits or a value that is nested too deep; nothing is changed.  A roster that is
read is that of the record in the file, and each full name in it is missing or taken as it
stands there.  It is a text just when the job is shown by a text.  The jobs can be ranked for a
search just when all full names are texts or missing, which is so just when those in the record
are texts or absent; then the jobs can be listed as well. -/
theorem reading_of_reachable {s : Session} (hreach : s.folder.reachable = true) :
    (∀ f s', load.Fails s f s' ↔ Unreadable s.folder.jobs f ∧ s' = s) ∧
    (∀ settings f s', (Recent.load settings).Fails s f s' ↔
      Unreadable s.folder.jobs f ∧ s' = s) ∧
    ∀ r s', load.Yields s (some r) s' → s' = s ∧
      (∃ text v, s.folder.jobs = .text text ∧ Json.read text = .ok v ∧ ofJson? v = some r ∧
        ((∀ job ∈ r.jobs, job.IsNamed) ↔ v.HasPlainNames)) ∧
      (∀ job ∈ r.jobs, job.fullName = .null ∨ job.fullName.truthy = true) ∧
      (∀ job ∈ r.jobs, (∃ text, job.displayName = .str text) ↔ job.IsNamed) ∧
      (∀ query, (∃ ranked, Search.rank query r.jobs = .ok ranked) ↔
        ∀ job ∈ r.jobs, job.IsNamed) ∧
      ((∀ job ∈ r.jobs, job.IsNamed) →
        ∀ search, ∃ found, Search.filter r.jobs search = .ok found) := by
  refine ⟨fun f s' => load_fails_iff hreach, fun settings f s' => recent_fails_iff hreach,
    fun r s' hload => ?_⟩
  obtain ⟨rfl, text, v, hfile, hv, hrecord⟩ := record_of_load hload
  have hnames := fullName_of_ofJson? hrecord
  exact ⟨rfl, ⟨text, v, hfile, hv, hrecord, named_iff hrecord⟩, hnames,
    fun job hjob => Job.displayName_eq_str (hnames job hjob), Search.rank_ok_iff hnames,
    Search.filter_ok⟩

/-- The sample is read from the job file, and its jobs can be ranked and listed. -/
theorem reading_of_sample :
    (sample.kept {}).folder.reachable = true ∧
      load.Yields (sample.kept {}) (some sample) (sample.kept {}) ∧
      (∃ ranked, Search.rank "b" sample.jobs = .ok ranked) ∧
      ∃ found, Search.filter sample.jobs "" = .ok found := by
  obtain ⟨-, -, hread⟩ := reading_of_reachable (s := sample.kept {}) rfl
  have hload := roundTrip_sample.2
  obtain ⟨-, -, -, -, hrank, hfilter⟩ := hread _ _ hload
  have hnamed := keepable_sample.named
  exact ⟨rfl, hload, (hrank "b").mpr hnamed, hfilter hnamed ""⟩

/-- The roster of one job, with a number for its full name. -/
def numbered : Roster := { oneJob with jobs := [⟨"a", "u", .int 5, []⟩] }

/-- Bytes that are no UTF-8 end the reading.  A full name that is a number is read as it
stands, the job is shown by it, and the jobs cannot be ranked. -/
theorem unreadable_binary :
    (∃ s : Session, s.folder.reachable = true ∧ s.folder.jobs = .binary ∧
      load.Fails s .notText s) ∧
    ∃ s : Session, s.folder.reachable = true ∧ s.folder.jobs = .text numbered.document ∧
      load.Yields s (some numbered) s ∧ numbered.jobs.map Job.displayName = [.int 5] ∧
      Search.rank "a" numbered.jobs = .error .noAttribute := by
  refine ⟨⟨{ folder := { jobs := .binary } }, rfl, rfl, rfl⟩, numbered.kept {}, rfl, rfl, ?_⟩
  have hshaped : ∀ job ∈ numbered.jobs, job.IsShaped :=
    List.forall_mem_cons.mpr ⟨.int (by decide), List.forall_mem_nil _⟩
  refine ⟨load_yields.mpr ⟨?_, rfl⟩, rfl, rfl⟩
  exact IsRead.kept rfl hshaped

end Roster
end BuildDesk
