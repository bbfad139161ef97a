/-
Rosters as they are read back.

A full name comes from the server and need not be a text.  Whatever value it is, the job file
gives it back but for the doubles inside of it, and but for a name that counts as absent
(`Job.reread`).  All else of a roster comes back as it was:

* `ofJson?_reread`, `ofText?_reread` — what the record and the document of a roster are read as;
* `isEncodable_document_iff` — a document can be encoded when all texts of its roster can;
* `Storable` — rosters that can be written and are read back, which reading back keeps.
-/
import BuildDesk.Proofs.Roster.RoundTrip

namespace BuildDesk

/-! ### Jobs as they are read back -/

namespace Job

/-- The full name is a value that a text can hold, as deep inside of it as a full name is. -/
def IsShaped (job : Job) : Prop := Json.Shaped (Json.mostNested - 3) job.fullName

/-- The job as it is read back. -/
def reread (job : Job) : Job :=
  { job with fullName := (job.fullName.orElse .null).reread.orElse .null }

/-- A text of the job, perhaps one inside of its full name. -/
def Mentions (text : String) (job : Job) : Prop :=
  text = job.name ∨ text = job.url
    ∨ (job.fullName.truthy = true ∧ Json.Mentions text job.fullName) ∨ text ∈ job.branches

/-- The members of the record of a job, as they are read back. -/
theorem members_reread (job : Job) : job.toJson.reread.members
    = [("name", .str job.name), ("url", .str job.url)]
      ++ (if job.fullName.truthy then [("fullName", job.fullName.reread)] else [])
      ++ (if job.branches.isEmpty then [] else [("branches", .list (job.branches.map .str))]) := by
  rw [toJson, Json.reread, Json.rereadMembers_eq, List.map_append, List.map_append,
    apply_ite (List.map _), apply_ite (List.map _)]
  simp only [List.map_cons, List.map_nil, Json.reread_texts]
  rfl

/-- The record of a job is read back as a record of the job that is read back. -/
theorem ofMembers_reread (job : Job) : ofMembers job.toJson.reread.members = job.reread := by
  rw [members_reread]
  obtain ⟨name, url, fullName, branches⟩ := job
  have hback : textsOf (.list (branches.map .str)) = branches := textsOf_map_str branches
  have hname : (if fullName.truthy then fullName.reread else .null)
      = (fullName.orElse .null).reread := by
    rw [Json.orElse]
    split
    · rfl
    · rfl
  have hkept : (if fullName.truthy then fullName.reread else .null).orElse .null
      = (fullName.orElse .null).reread.orElse .null := congrArg (·.orElse .null) hname
  dsimp only
  cases hfull : fullName.truthy with
  | false =>
    rw [hfull] at hkept
    cases hb : branches with
    | nil => exact congrArg (mk name url · []) hkept
    | cons b rest =>
      rw [hb] at hback
      exact congrArg₂ (mk name url) hkept hback
  | true =>
    rw [hfull] at hkept
    cases hb : branches with
    | nil => exact congrArg (mk name url · []) hkept
    | cons b rest =>
      rw [hb] at hback
      exact congrArg₂ (mk name url) hkept hback

theorem shaped_toJson {job : Job} (h : job.IsShaped) :
    Json.Shaped (Json.mostNested - 2) job.toJson := by
  refine .object (job.names_toJson.nodup (by decide)) fun m hm => ?_
  rcases mem_toJson hm with hv | hv | ⟨hv, -⟩ | hv
  · exact hv ▸ .str
  · exact hv ▸ .str
  · exact hv ▸ h
  · rw [hv]
    refine .list fun v hmem => ?_
    obtain ⟨branch, -, rfl⟩ := List.mem_map.mp hmem
    exact .str

theorem isShaped_reread {job : Job} (h : job.IsShaped) : job.reread.IsShaped := by
  have hname : Json.Shaped (Json.mostNested - 3) (job.fullName.orElse .null) := h.orElse
  exact hname.reread.orElse

/-- The texts of a job stand in its record. -/
theorem Mentions.toJson {text : String} {job : Job} (h : job.Mentions text) :
    Json.Mentions text job.toJson := by
  have hmember : ∀ m, m ∈ job.toJson.members → Json.Mentions text m.2 →
      Json.Mentions text job.toJson := fun _ hm hv => .member hm hv
  rcases h with rfl | rfl | ⟨hfull, hname⟩ | hbranch
  · exact hmember ("name", .str job.name) (by simp [Job.toJson, Json.members]) .str
  · exact hmember ("url", .str job.url) (by simp [Job.toJson, Json.members]) .str
  · refine hmember ("fullName", job.fullName) ?_ hname
    simp [Job.toJson, Json.members, hfull]
  · have hsome : job.branches.isEmpty = false := by
      cases hb : job.branches with
      | nil => simp [hb] at hbranch
      | cons => rfl
    refine hmember ("branches", .list (job.branches.map .str)) ?_ (Json.mentions_texts hbranch)
    simp [Job.toJson, Json.members, hsome]

/-- Besides the texts of a job only the names of members stand in its record. -/
theorem mentions_of_toJson {text : String} {job : Job} (h : Json.Mentions text job.toJson) :
    job.Mentions text ∨ text ∈ ["name", "url", "fullName", "branches"] := by
  cases h with
  | name hm => exact .inr (job.names_toJson.subset (List.mem_map_of_mem hm))
  | member hm h =>
    left
    rcases mem_toJson hm with hv | hv | ⟨hv, hfull⟩ | hv
    · rw [hv] at h
      cases h
      exact .inl rfl
    · rw [hv] at h
      cases h
      exact .inr (.inl rfl)
    · exact .inr (.inr (.inl ⟨hfull, hv ▸ h⟩))
    · rw [hv] at h
      exact .inr (.inr (.inr (Json.mem_of_mentions_texts h)))

/-- Reading a job back does not bring in a text. -/
theorem mentions_of_reread {text : String} {job : Job} (hjob : job.IsShaped)
    (h : job.reread.Mentions text) : job.Mentions text := by
  refine h.imp_right fun h => h.imp_right fun h => h.imp_left fun ⟨_, hname⟩ => ?_
  have hnull : ¬ Json.Mentions text .null := fun h => nomatch h
  have hkept : ∀ {v : Json}, Json.Mentions text (v.orElse .null) →
      v.truthy = true ∧ Json.Mentions text v := by
    intro v hv
    rw [Json.orElse] at hv
    split at hv
    · rename_i htruthy
      exact ⟨htruthy, hv⟩
    · exact absurd hv hnull
  have hshaped : Json.Shaped (Json.mostNested - 3) (job.fullName.orElse .null) := hjob.orElse
  exact hkept (Json.mentions_of_reread hshaped (hkept hname).2)

/-- Of a full name that is a text nothing else stands in the job. -/
theorem mem_texts {text : String} {job : Job} (hnamed : job.IsNamed) (h : job.Mentions text) :
    text ∈ job.texts := by
  rcases h with rfl | rfl | ⟨hfull, hname⟩ | hbranch
  · simp [texts]
  · simp [texts]
  · rcases hnamed with hnone | ⟨name, -, hstr⟩
    · rw [hnone] at hfull
      cases hfull
    · rw [hstr] at hname
      cases hname
      simp [texts, hstr, Json.asString?]
  · exact List.mem_append_right _ hbranch

end Job

namespace Roster

/-- The roster as it is read back. -/
def reread (r : Roster) : Roster := { r with jobs := r.jobs.map Job.reread }

/-- A text of the roster, perhaps one inside of a full name. -/
def Mentions (text : String) (r : Roster) : Prop :=
  text ∈ [r.server, r.user, r.fetchedAt] ∨ (∃ job ∈ r.jobs, job.Mentions text) ∨ text ∈ r.recent

/-- Rosters that can be written and are read back: their texts can be encoded, and their full
names are values that a text can hold. -/
structure Storable (r : Roster) : Prop where
  encodable : ∀ text, r.Mentions text → Text.Encodable text
  shaped : ∀ job ∈ r.jobs, job.IsShaped

variable {r r' : Roster} {s s' : Session} {settings : Settings}

theorem shaped_toJson (h : ∀ job ∈ r.jobs, job.IsShaped) :
    Json.Shaped Json.mostNested r.toJson := by
  have htexts : ∀ texts : List String,
      Json.Shaped (Json.mostNested - 1) (.list (texts.map .str)) := fun texts =>
    .list (List.forall_mem_map.mpr fun _ _ => .str)
  refine .object (show ["jenkinsUrl", "user", "fetchedAt", "jobs", "recentJobs"].Nodup by decide) ?_
  simp only [List.forall_mem_cons]
  refine ⟨.str, .str, .str, .list (List.forall_mem_map.mpr fun job hjob => ?_), htexts r.recent,
    List.forall_mem_nil _⟩
  exact Job.shaped_toJson (h job hjob)

/-- The record of a roster is read back as a record of the roster that is read back. -/
theorem ofJson?_reread (r : Roster) : ofJson? r.toJson.reread = some r.reread := by
  have hjobs : ((Json.rereadItems (r.jobs.map Job.toJson)).filterMap membersOf?).map Job.ofMembers
      = r.jobs.map Job.reread := by
    have hmembers : membersOf? ∘ Json.reread ∘ Job.toJson
        = some ∘ fun job => job.toJson.reread.members := rfl
    rw [Json.rereadItems_eq, List.map_map, List.filterMap_map, hmembers, List.filterMap_eq_map,
      List.map_map]
    exact List.map_congr_left fun job _ => job.ofMembers_reread
  have hrecent : Job.textsOf ((Json.list (r.recent.map .str)).reread) = r.recent := by
    rw [Json.reread_texts, Job.textsOf_map_str]
  show some (Roster.mk r.server r.user r.fetchedAt
    (((Json.rereadItems (r.jobs.map Job.toJson)).filterMap membersOf?).map Job.ofMembers)
    (Job.textsOf ((Json.list (r.recent.map .str)).reread))) = _
  rw [hjobs, hrecent]
  rfl

/-- The document of a roster is read as the roster that is read back. -/
theorem ofText?_reread (h : ∀ job ∈ r.jobs, job.IsShaped) :
    ofText? r.document = .ok (some r.reread) := by
  rw [ofText?, document, Json.read_shaped (shaped_toJson h) (Nat.le_refl _), ← ofJson?_reread]

/-- The texts of a roster stand in its record. -/
theorem Mentions.toJson {text : String} (h : r.Mentions text) : Json.Mentions text r.toJson := by
  have hmember : ∀ m, m ∈ r.toJson.members → Json.Mentions text m.2 →
      Json.Mentions text r.toJson := fun _ hm hv => .member hm hv
  simp only [Mentions, List.mem_cons, List.not_mem_nil, or_false] at h
  rcases h with (rfl | rfl | rfl) | ⟨job, hjob, htext⟩ | hrecent
  · exact hmember ("jenkinsUrl", .str r.server) (by simp [Roster.toJson, Json.members]) .str
  · exact hmember ("user", .str r.user) (by simp [Roster.toJson, Json.members]) .str
  · exact hmember ("fetchedAt", .str r.fetchedAt) (by simp [Roster.toJson, Json.members]) .str
  · exact hmember ("jobs", .list (r.jobs.map Job.toJson)) (by simp [Roster.toJson, Json.members])
      (.item (List.mem_map_of_mem hjob) htext.toJson)
  · exact hmember ("recentJobs", .list (r.recent.map .str))
      (by simp [Roster.toJson, Json.members]) (Json.mentions_texts hrecent)

/-- Besides the texts of a roster only names of members stand in its record. -/
theorem mentions_of_toJson {text : String} (h : Json.Mentions text r.toJson) :
    r.Mentions text ∨ text ∈ ["jenkinsUrl", "user", "fetchedAt", "jobs", "recentJobs", "name",
      "url", "fullName", "branches"] := by
  have hmember : ∀ {m : String × Json}, m ∈ r.toJson.members → m = ("jenkinsUrl", .str r.server)
      ∨ m = ("user", .str r.user) ∨ m = ("fetchedAt", .str r.fetchedAt)
      ∨ m = ("jobs", .list (r.jobs.map Job.toJson))
      ∨ m = ("recentJobs", .list (r.recent.map .str)) := by
    intro m hm
    simpa [Roster.toJson, Json.members] using hm
  cases h with
  | name hm => rcases hmember hm with h | h | h | h | h <;> cases h <;> simp
  | member hm h =>
    rcases hmember hm with rfl | rfl | rfl | rfl | rfl
    · cases h
      exact .inl (.inl (by simp))
    · cases h
      exact .inl (.inl (by simp))
    · cases h
      exact .inl (.inl (by simp))
    · cases h with
      | item hv h =>
        obtain ⟨job, hjob, rfl⟩ := List.mem_map.mp hv
        rcases Job.mentions_of_toJson h with h | h
        · exact .inl (.inr (.inl ⟨job, hjob, h⟩))
        · exact .inr (List.mem_append_right ["jenkinsUrl", "user", "fetchedAt", "jobs",
            "recentJobs"] h)
    · exact .inl (.inr (.inr (Json.mem_of_mentions_texts h)))

/-- A document can be encoded exactly when all texts of its roster can. -/
theorem isEncodable_document_iff (h : ∀ job ∈ r.jobs, job.IsShaped) :
    Text.Encodable r.document ↔ ∀ text, r.Mentions text → Text.Encodable text := by
  have hjson := Json.isEncodable_document_iff (shaped_toJson h)
  refine hjson.trans ⟨fun hall text htext => hall text htext.toJson, fun hall text htext => ?_⟩
  rcases mentions_of_toJson htext with htext | hname
  · exact hall text htext
  · have hnames : ∀ name ∈ ["jenkinsUrl", "user", "fetchedAt", "jobs", "recentJobs", "name", "url",
        "fullName", "branches"], Text.Encodable name := by decide
    exact hnames text hname

theorem Storable.isEncodable (h : r.Storable) : Text.isEncodable r.document = true :=
  (isEncodable_document_iff h.shaped).mpr h.encodable

theorem Storable.reread (h : r.Storable) : r.reread.Storable where
  encodable := by
    rintro text (hhead | ⟨job, hjob, htext⟩ | hrecent)
    · exact h.encodable text (.inl hhead)
    · obtain ⟨old, hold, rfl⟩ := List.mem_map.mp hjob
      exact h.encodable text
        (.inr (.inl ⟨old, hold, Job.mentions_of_reread (h.shaped old hold) htext⟩))
    · exact h.encodable text (.inr (.inr hrecent))
  shaped := List.forall_mem_map.mpr fun job hjob => Job.isShaped_reread (h.shaped job hjob)

/-- What the job file keeps as it is can be written and read back. -/
theorem Keepable.storable (h : r.Keepable) : r.Storable where
  encodable := by
    rintro text (hhead | ⟨job, hjob, htext⟩ | hrecent)
    · exact h.encodable text (List.mem_append_left _ (List.mem_append_left _ hhead))
    · refine h.encodable text (List.mem_append_left _ (List.mem_append_right _ ?_))
      exact List.mem_flatMap.mpr ⟨job, hjob, Job.mem_texts (h.named job hjob) htext⟩
    · exact h.encodable text (List.mem_append_right _ hrecent)
  shaped := by
    intro job hjob
    unfold Job.IsShaped
    rcases h.named job hjob with hnone | ⟨name, -, hname⟩
    · rw [hnone]
      exact .null
    · rw [hname]
      exact .str

theorem find?_reread (r : Roster) (url : String) :
    r.reread.find? url = (r.find? url).map Job.reread := by
  show (r.jobs.map Job.reread).find? _ = (r.jobs.find? _).map Job.reread
  rw [List.find?_map]
  rfl

end Roster
end BuildDesk
