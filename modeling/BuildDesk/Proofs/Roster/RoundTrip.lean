/-
The job file keeps what is written to it.

A roster is written as a document that leaves out what a job does not have, and is read by
taking from a record what has the right kind.  The two meet in `Roster.ofJson?_toJson`: the
record of a roster holds that roster.  Together with the round trip of documents it follows
that a job file, once written, holds the roster that was written, down to the order of its
jobs and branches (`Roster.roundTrip`).

What cannot come back is excluded by `Roster.Keepable`: a full name that is neither missing
nor a text with something in it, and a text with half of a surrogate pair, which no file holds.
-/
import BuildDesk.Proofs.Json.Mentions
import BuildDesk.Proofs.Outcome
import BuildDesk.Roster.Basic

namespace BuildDesk

/-- Texts that a file can hold. -/
abbrev Text.Encodable (s : String) : Prop := Text.isEncodable s = true

/-! ### Jobs -/

namespace Job

/-- All texts of a job. -/
def texts (job : Job) : List String :=
  [job.name, job.url] ++ job.fullName.asString?.toList ++ job.branches

/-- The job has no full name, or one that is a text with something in it. -/
def IsNamed (job : Job) : Prop := job.fullName = .null ∨ ∃ s, s ≠ "" ∧ job.fullName = .str s

theorem textsOf_map_str (texts : List String) : textsOf (.list (texts.map .str)) = texts := by
  rw [textsOf, List.filterMap_map]
  exact List.filterMap_some

/-- The record of a job holds that job. -/
theorem ofMembers_toJson {job : Job} (h : job.IsNamed) : ofMembers job.toJson.members = job := by
  obtain ⟨name, url, fullName, branches⟩ := job
  have hbranches : textsOf (.list (branches.map .str)) = branches := textsOf_map_str branches
  rcases h with hnone | ⟨full, hfull, hname⟩
  · obtain rfl : fullName = .null := hnone
    rcases branches with _ | ⟨branch, branches⟩
    · rfl
    · exact congrArg (mk name url .null) hbranches
  · obtain rfl : fullName = .str full := hname
    have hpresent : (Json.str full).truthy = true := bne_iff_ne.mpr hfull
    have hkept : (Json.str full).orElse .null = .str full := if_pos hpresent
    rcases branches with _ | ⟨branch, branches⟩
    · simp [toJson, hpresent, hkept, ofMembers, memberText, Json.members, List.lookup_cons,
        List.lookup_nil, Json.text, textsOf]
    · rw [List.map_cons] at hbranches
      simp [toJson, hpresent, hkept, ofMembers, memberText, Json.members, List.lookup_cons,
        Json.text, hbranches]

/-- The names in the record of a job. -/
theorem names_toJson (job : Job) : (job.toJson.members.map Prod.fst).Sublist
    ["name", "url", "fullName", "branches"] := by
  unfold toJson
  cases job.fullName.truthy <;> cases job.branches.isEmpty <;>
    simp only [Json.members, Bool.false_eq_true, if_true, if_false, List.append_nil,
      List.cons_append, List.nil_append, List.map_cons, List.map_nil] <;> decide

/-- What stands in the record of a job. -/
theorem mem_toJson {job : Job} {m : String × Json} (h : m ∈ job.toJson.members) :
    m.2 = .str job.name ∨ m.2 = .str job.url ∨ (m.2 = job.fullName ∧ job.fullName.truthy)
      ∨ m.2 = .list (job.branches.map .str) := by
  rw [toJson, Json.members] at h
  rcases List.mem_append.mp h with h | h
  · rcases List.mem_append.mp h with h | h
    · simp only [List.mem_cons, List.not_mem_nil, or_false] at h
      rcases h with rfl | rfl
      · exact .inl rfl
      · exact .inr (.inl rfl)
    · split at h
      · rename_i hfull
        rw [List.mem_singleton.mp h]
        exact .inr (.inr (.inl ⟨rfl, hfull⟩))
      · exact absurd h List.not_mem_nil
  · split at h
    · exact absurd h List.not_mem_nil
    · rw [List.mem_singleton.mp h]
      exact .inr (.inr (.inr rfl))

end Job

theorem Json.textual_texts {n : Nat} {texts : List String}
    (h : ∀ text ∈ texts, Text.Encodable text) :
    Json.Textual Text.Encodable (n + 1) (.list (texts.map .str)) := by
  refine .list fun v hv => ?_
  obtain ⟨text, htext, rfl⟩ := List.mem_map.mp hv
  exact .str (h text htext)

/-- The record of a job is made of texts and a list of texts. -/
theorem Job.textual_toJson {job : Job} (h : job.IsNamed)
    (htexts : ∀ text ∈ job.texts, Text.Encodable text) :
    Json.Textual Text.Encodable 2 job.toJson := by
  have hnames := job.names_toJson
  refine .object (hnames.nodup (by decide)) (fun m hm => ?_) fun m hm => ?_
  · have hall : ∀ name ∈ ["name", "url", "fullName", "branches"], Text.Encodable name := by decide
    exact hall _ (hnames.subset (List.mem_map_of_mem hm))
  · rcases mem_toJson hm with hv | hv | ⟨hv, hfull⟩ | hv
    · rw [hv]
      exact .str (htexts _ (by simp [texts]))
    · rw [hv]
      exact .str (htexts _ (by simp [texts]))
    · rcases h with hnone | ⟨full, -, hname⟩
      · rw [hnone] at hfull
        cases hfull
      · rw [hv, hname]
        exact .str (htexts _ (by simp [texts, hname, Json.asString?]))
    · rw [hv]
      exact Json.textual_texts fun text h => htexts _ (by simp [texts, h])

/-! ### Rosters -/

namespace Roster

/-- All texts of a roster. -/
def texts (r : Roster) : List String :=
  [r.server, r.user, r.fetchedAt] ++ r.jobs.flatMap Job.texts ++ r.recent

/-- Rosters that the job file keeps: their texts can be encoded, and a full name is missing
or a text with something in it. -/
structure Keepable (r : Roster) : Prop where
  encodable : ∀ text ∈ r.texts, Text.Encodable text
  named : ∀ job ∈ r.jobs, job.IsNamed

/-- The records of jobs hold those jobs, in their order. -/
theorem ofMembers_records {jobs : List Job} (h : ∀ job ∈ jobs, job.IsNamed) :
    ((jobs.map Job.toJson).filterMap membersOf?).map Job.ofMembers = jobs := by
  induction jobs with
  | nil => rfl
  | cons job jobs ih =>
    have hjob : membersOf? job.toJson = some job.toJson.members := rfl
    rw [List.map_cons, List.filterMap_cons_some hjob, List.map_cons,
      Job.ofMembers_toJson (h job List.mem_cons_self),
      ih fun j hj => h j (List.mem_cons_of_mem _ hj)]

/-- The record of a roster holds that roster. -/
theorem ofJson?_toJson {r : Roster} (h : ∀ job ∈ r.jobs, job.IsNamed) :
    ofJson? r.toJson = some r := by
  show some (Roster.mk r.server r.user r.fetchedAt
    (((r.jobs.map Job.toJson).filterMap membersOf?).map Job.ofMembers)
    (Job.textsOf (.list (r.recent.map .str)))) = some r
  rw [ofMembers_records h, Job.textsOf_map_str]

/-- The record of a roster is made of texts, lists and objects. -/
theorem textual_toJson {r : Roster} (h : r.Keepable) : Json.Textual Text.Encodable 4 r.toJson := by
  have htext : ∀ text ∈ r.texts, Text.Encodable text := h.encodable
  simp only [texts, List.mem_append, List.mem_cons, List.not_mem_nil, or_false,
    List.mem_flatMap] at htext
  have hjobs : ∀ v ∈ r.jobs.map Job.toJson, Json.Textual Text.Encodable 2 v := by
    intro v hv
    obtain ⟨job, hjob, rfl⟩ := List.mem_map.mp hv
    exact Job.textual_toJson (h.named job hjob)
      fun text ht => htext text (.inl (.inr ⟨job, hjob, ht⟩))
  refine .object (show ["jenkinsUrl", "user", "fetchedAt", "jobs", "recentJobs"].Nodup by decide)
    ?_ ?_
  · intro m hm
    have hall : ∀ name ∈ ["jenkinsUrl", "user", "fetchedAt", "jobs", "recentJobs"],
        Text.Encodable name := by decide
    exact hall m.1 (List.mem_map_of_mem hm)
  · simp only [List.forall_mem_cons]
    exact ⟨.str (htext _ (by simp)), .str (htext _ (by simp)), .str (htext _ (by simp)),
      .list hjobs, Json.textual_texts fun text ht => htext text (.inr ht), List.forall_mem_nil _⟩

theorem read_document {r : Roster} (h : r.Keepable) : Json.read r.document = .ok r.toJson :=
  Json.read_document (textual_toJson h) (by decide)

theorem ofText?_document {r : Roster} (h : r.Keepable) : ofText? r.document = .ok (some r) := by
  rw [ofText?, read_document h, ← ofJson?_toJson h.named]

/-! ### The job file -/

/-- The session with the document of a roster in its job file. -/
def kept (r : Roster) (s : Session) : Session :=
  { s with folder := { s.folder with jobs := .text r.document, scratch := none } }

/-- Where a directory stands in the place of the job file, only the scratch file is removed. -/
theorem replace_of_directory {f : Folder} (h : f.jobs = .directory) (content : String) :
    f.replace content = (f.dropScratch, false) := by
  simp [Folder.replace, Folder.promote, Folder.writeScratch, Folder.dropScratch, h]

theorem replace_of_not_directory {f : Folder} (h : f.jobs ≠ .directory) (content : String) :
    f.replace content = ({ f with jobs := .text content, scratch := none }, true) := by
  cases hjobs : f.jobs with
  | directory => exact absurd hjobs h
  | absent | text _ | binary => simp [Folder.replace, Folder.promote, Folder.writeScratch, hjobs]

/-- A roster whose document can be encoded is written unless the folder cannot be made or a
directory stands in the place of the job file. -/
theorem save_yields {r : Roster} (henc : Text.Encodable r.document) {s s' : Session} :
    (save r).Yields s () s' ↔
      s.folder.reachable = true ∧ s.folder.jobs ≠ .directory ∧ s' = r.kept s := by
  rw [save, Desk.yields_get_bind]
  by_cases hreach : s.folder.reachable = true
  · by_cases hfile : s.folder.jobs = .directory
    · simp [hreach, henc, hfile, replace_of_directory hfile, Desk.yields_bind]
    · simp [hreach, henc, hfile, replace_of_not_directory hfile, kept]
  · simp [hreach]

theorem load_yields {found : Option Roster} {s s' : Session} :
    load.Yields s found s' ↔ ofFolder s.folder = .ok found ∧ s' = s := by
  show (ofFolder s.folder, s) = (.ok found, s') ↔ _
  rw [Prod.mk.injEq, eq_comm (a := s)]

/-- A roster comes out of a file, in a folder that can be made. -/
theorem file_of_load {r : Roster} {s : Session} (h : load.Yields s (some r) s) :
    s.folder.reachable = true ∧ s.folder.jobs ≠ .directory := by
  have hfolder := (load_yields.mp h).1
  unfold ofFolder at hfolder
  split at hfolder
  · cases hfolder
  · rename_i hreach
    refine ⟨by simpa using hreach, fun hfile => ?_⟩
    rw [hfile] at hfolder
    cases hfolder

theorem load_kept {r : Roster} (hr : r.Keepable) {s : Session}
    (hreach : s.folder.reachable = true) :
    load.Yields (r.kept s) (some r) (r.kept s) := by
  refine load_yields.mpr ⟨?_, rfl⟩
  show (if !s.folder.reachable then .error .storage else ofText? r.document) = _
  rw [hreach, ofText?_document hr]
  rfl

/-- Reads the job file and writes it again. -/
def rewrite : Desk Unit := do
  match ← load with
  | some r => save r
  | none => pure ()

/-- **The job file keeps what is written to it.**  Writing a roster puts its document into the
job file and changes nothing else; the document is read as the record of the roster, and
reading the job file gives the same roster again.  So a file that is read as a roster has
the form of a document once it is rewritten, and rewriting it again changes nothing. -/
theorem roundTrip {r : Roster} (hr : r.Keepable) (s : Session) :
    (∀ s', (save r).Yields s () s' ↔
      s.folder.reachable = true ∧ s.folder.jobs ≠ .directory ∧ s' = r.kept s)
    ∧ Json.read r.document = .ok r.toJson
    ∧ (∀ s', (save r).Yields s () s' → load.Yields s' (some r) s')
    ∧ (load.Yields s (some r) s →
      rewrite.Yields s () (r.kept s) ∧ rewrite.Yields (r.kept s) () (r.kept s)) := by
  have henc : Text.Encodable r.document := Json.isEncodable_document (textual_toJson hr)
  have hrewrite : ∀ s, load.Yields s (some r) s → rewrite.Yields s () (r.kept s) := by
    intro s h
    obtain ⟨hreach, hfile⟩ := file_of_load h
    exact Desk.yields_bind.mpr ⟨some r, s, h, (save_yields henc).mpr ⟨hreach, hfile, rfl⟩⟩
  refine ⟨fun s' => save_yields henc, read_document hr, fun s' h => ?_, fun h => ?_⟩
  · obtain ⟨hreach, -, rfl⟩ := (save_yields henc).mp h
    exact load_kept hr hreach
  · exact ⟨hrewrite s h, hrewrite (r.kept s) (load_kept hr (file_of_load h).1)⟩

/-- A roster of one job, with a full name that has to be escaped. -/
def sample : Roster where
  server := "ci"
  user := "kim"
  fetchedAt := "now"
  jobs := [⟨"a", "u", .str "b \"é\"\t", ["main", "x"]⟩]
  recent := []

theorem keepable_sample : sample.Keepable where
  encodable := by decide
  named := by
    intro job hjob
    rw [List.mem_singleton.mp hjob]
    exact .inr ⟨_, by decide, rfl⟩

/-- The roster is written to an empty folder and read from there. -/
theorem roundTrip_sample :
    (save sample).Yields {} () (sample.kept {})
      ∧ load.Yields (sample.kept {}) (some sample) (sample.kept {}) := by
  obtain ⟨hsave, -, hload, -⟩ := roundTrip keepable_sample {}
  have h : (save sample).Yields {} () (sample.kept {}) := (hsave _).mpr ⟨rfl, by decide, rfl⟩
  exact ⟨h, hload _ h⟩

example : sample.document = String.intercalate "\n" [
    "\x7b",
    "  \"jenkinsUrl\": \"ci\",",
    "  \"user\": \"kim\",",
    "  \"fetchedAt\": \"now\",",
    "  \"jobs\": [",
    "    \x7b",
    "      \"name\": \"a\",",
    "      \"url\": \"u\",",
    "      \"fullName\": \"b \\\"é\\\"\\t\",",
    "      \"branches\": [",
    "        \"main\",",
    "        \"x\"",
    "      ]",
    "    \x7d",
    "  ],",
    "  \"recentJobs\": []",
    "\x7d"] := by decide +kernel

end Roster
end BuildDesk
