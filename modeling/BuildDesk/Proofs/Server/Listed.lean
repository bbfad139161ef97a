/-
The jobs that a server lists.

A full name stands inside of an entry, the entry in a list, and the list in the reply.  The
replies are values that a text can hold, so a full name is one too, and it leaves room for
three lists and objects around it: exactly those that the job file puts there.
-/
import BuildDesk.Proofs.Frame
import BuildDesk.Proofs.Json.Shape
import BuildDesk.Proofs.Roster.Reread

namespace BuildDesk

/-- The body of the reply is a text, or a value that a text can hold. -/
def Reply.IsShaped (reply : Reply) : Prop :=
  ∀ v, reply.body = .json v → Json.Shaped Json.mostNested v

/-- The replies of the session have bodies that can be sent. -/
def Session.IsShaped (s : Session) : Prop :=
  ∀ reply seconds, .reply reply seconds ∈ s.responses → reply.IsShaped

namespace Server

/-! ### Entries and folders -/

theorem exists_of_bind_eq_ok {α β : Type} {e : Except Fault α} {next : α → Except Fault β} {b : β}
    (h : (e >>= next) = .ok b) : ∃ a, e = .ok a ∧ next a = .ok b := by
  cases e with
  | error f => cases h
  | ok a => exact ⟨a, rfl, h⟩

/-- A property of listings that is handed down, as one of entries and one of their parts, to
the listings of folders, and that gives a property of the jobs. -/
structure HandsDown (listing entry part : Json → Prop) (P : Job → Prop) : Prop where
  entries : ∀ {entries}, listing (.list entries) → ∀ e ∈ entries, entry e
  parts : ∀ {members}, entry (.object members) → ∀ m ∈ members, part m.2
  folder : ∀ {v}, part v → listing v
  leaf : ∀ {members}, (∀ m ∈ members, part m.2) → ∀ job ∈ leaf members, P job

section HandsDown

variable {listing entry part : Json → Prop} {P : Job → Prop}

mutual

theorem HandsDown.jobsIn (h : HandsDown listing entry part P) (v : Json) {jobs : List Job}
    (hv : listing v) (hjobs : jobsIn v = .ok jobs) : ∀ job ∈ jobs, P job := by
  match v with
  | .list entries => exact h.jobsOfEntries entries (h.entries hv) hjobs
  | .bool true => cases hjobs
  | .bool false | .null | .str _ | .object _ =>
    cases hjobs
    exact List.forall_mem_nil _
  | .int k =>
    rw [Server.jobsIn] at hjobs
    split at hjobs
    · cases hjobs
    · cases hjobs
      exact List.forall_mem_nil _
  | .float x =>
    rw [Server.jobsIn] at hjobs
    split at hjobs
    · cases hjobs
    · cases hjobs
      exact List.forall_mem_nil _

theorem HandsDown.jobsOfEntries (h : HandsDown listing entry part P) (entries : List Json)
    {jobs : List Job} (hentries : ∀ e ∈ entries, entry e)
    (hjobs : jobsOfEntries entries = .ok jobs) : ∀ job ∈ jobs, P job := by
  match entries with
  | [] =>
    cases hjobs
    exact List.forall_mem_nil _
  | e :: rest =>
    obtain ⟨hentry, hrest⟩ := List.forall_mem_cons.mp hentries
    rw [Server.jobsOfEntries] at hjobs
    obtain ⟨here, hhere, hjobs⟩ := exists_of_bind_eq_ok hjobs
    obtain ⟨others, hothers, hjobs⟩ := exists_of_bind_eq_ok hjobs
    cases hjobs
    intro job hjob
    rcases List.mem_append.mp hjob with hjob | hjob
    · exact h.jobsOfEntry e hentry hhere job hjob
    · exact h.jobsOfEntries rest hrest hothers job hjob

theorem HandsDown.jobsOfEntry (h : HandsDown listing entry part P) (e : Json) {jobs : List Job}
    (he : entry e) (hjobs : jobsOfEntry e = .ok jobs) : ∀ job ∈ jobs, P job := by
  match e with
  | .object members =>
    rw [Server.jobsOfEntry] at hjobs
    rcases hfolder : Server.folderJobs members with _ | inside
    · rw [hfolder] at hjobs
      cases hjobs
      exact h.leaf (h.parts he)
    · rw [hfolder] at hjobs
      obtain rfl : inside = .ok jobs := hjobs
      exact h.folderJobs members (h.parts he) hfolder
  | .list _ | .bool _ | .int _ | .float _ | .null | .str _ =>
    cases hjobs
    exact List.forall_mem_nil _

theorem HandsDown.folderJobs (h : HandsDown listing entry part P)
    (members : List (String × Json)) {jobs : List Job} (hparts : ∀ m ∈ members, part m.2)
    (hjobs : folderJobs members = some (.ok jobs)) : ∀ job ∈ jobs, P job := by
  match members with
  | [] => cases hjobs
  | (name, value) :: rest =>
    obtain ⟨hvalue, hrest⟩ := List.forall_mem_cons.mp hparts
    rw [Server.folderJobs] at hjobs
    split at hjobs
    · split at hjobs
      · cases hjobs
      · exact h.jobsIn value (h.folder hvalue) (Option.some.inj hjobs)
    · exact h.folderJobs rest hrest hjobs

end

end HandsDown

/-- The jobs of a listing can be as deep as the listing is around them. -/
theorem handsDown_shaped (n : Nat) : HandsDown (Json.Shaped (n + 2)) (Json.Shaped (n + 1))
    (Json.Shaped n) fun job => Json.Shaped n job.fullName where
  entries := by
    rintro entries ⟨⟩
    assumption
  parts := by
    rintro members ⟨⟩
    assumption
  -- a folder is deeper than its entry has to be
  folder := fun h => h.mono (Nat.le_add_right n 2)
  leaf := by
    intro members h
    unfold leaf
    dsimp only
    split
    · exact List.forall_mem_cons.mpr ⟨(Json.shaped_lookup h _).orElse, List.forall_mem_nil _⟩
    · exact List.forall_mem_nil _

/-- A job that is listed has no history, and no full name that counts as absent. -/
theorem handsDown_plain : HandsDown (fun _ => True) (fun _ => True) (fun _ => True)
    fun job => job.branches = [] ∧ job.fullName.orElse .null = job.fullName where
  entries := fun _ _ _ => trivial
  parts := fun _ _ _ => trivial
  folder := fun _ => trivial
  leaf := by
    intro members _
    unfold leaf
    dsimp only
    split
    · refine List.forall_mem_cons.mpr ⟨⟨rfl, ?_⟩, List.forall_mem_nil _⟩
      exact Json.orElse_orElse _ _
    · exact List.forall_mem_nil _

/-! ### Replies -/

open Desk

variable {s s' : Session} {n : Nat}

theorem shaped_jsonOf {reply : Reply} {v : Json} (hreply : reply.IsShaped)
    (h : jsonOf reply = .ok v) : Json.Shaped Json.mostNested v := by
  unfold jsonOf at h
  split at h
  · rename_i body hbody
    cases h
    exact hreply _ hbody
  · split at h
    · rename_i hread
      cases h
      exact Json.shaped_of_read hread
    · cases h
    · cases h
    · cases h

theorem shaped_member {v w : Json} {name : String} (hv : Json.Shaped (n + 1) v)
    (h : member v name = .ok w) : Json.Shaped n w := by
  unfold member at h
  split at h
  · cases h
    cases hv with
    | object _ hmembers => exact Json.shaped_lookup hmembers name
  · cases h

theorem isShaped_of_exchange {r : Request} {reply : Reply} (hs : s.IsShaped)
    (h : (exchange r).Yields s reply s') : reply.IsShaped := by
  obtain ⟨served, s₁, hserved, h⟩ := yields_bind.mp h
  obtain ⟨seconds, rest, hresponses, -⟩ := yields_exchange.mp hserved
  obtain ⟨failed, s₂, -, h⟩ := yields_bind.mp h
  split at h
  · exact absurd h yields_throw
  · obtain ⟨rfl, -⟩ := yields_pure.mp h
    exact hs reply seconds (hresponses ▸ List.mem_cons_self)

theorem shaped_of_fetchJson {server : Server} {url v : Json} {tree : Option String}
    (hs : s.IsShaped) (h : (server.fetchJson url tree).Yields s v s') :
    Json.Shaped Json.mostNested v := by
  obtain ⟨address, s₁, haddress, hfetch⟩ := yields_bind.mp h
  obtain ⟨-, rfl⟩ := yields_ofExcept.mp haddress
  obtain ⟨reply, s₂, hreply, hjson⟩ := yields_bind.mp hfetch
  exact shaped_jsonOf (isShaped_of_exchange hs hreply) (yields_ofExcept.mp hjson).1

/-- The full names of the jobs that are listed can be written to the job file and read back. -/
theorem isShaped_of_listJobs {server : Server} {jobs : List Job} (hs : s.IsShaped)
    (h : server.listJobs.Yields s jobs s') : ∀ job ∈ jobs, job.IsShaped := by
  obtain ⟨data, s₁, hdata, h⟩ := yields_bind.mp h
  obtain ⟨listing, hlisting, hjobs⟩ := exists_of_bind_eq_ok (yields_ofExcept.mp h).1
  have hroom : Json.Shaped (Json.mostNested - 3 + 2 + 1) data := shaped_of_fetchJson hs hdata
  exact (handsDown_shaped _).jobsIn listing (shaped_member hroom hlisting) hjobs

/-- The jobs that are listed are new ones. -/
theorem plain_of_listJobs {server : Server} {jobs : List Job}
    (h : server.listJobs.Yields s jobs s') :
    ∀ job ∈ jobs, job.branches = [] ∧ job.fullName.orElse .null = job.fullName := by
  obtain ⟨data, s₁, -, h⟩ := yields_bind.mp h
  obtain ⟨listing, -, hjobs⟩ := exists_of_bind_eq_ok (yields_ofExcept.mp h).1
  exact handsDown_plain.jobsIn listing trivial hjobs

/-- Listing does not touch the folder. -/
theorem keepsFolder_listJobs (server : Server) : server.listJobs.KeepsFolder := by
  refine keepsFolder_bind ?_ fun _ => keepsFolder_ofExcept _
  refine keepsFolder_bind (keepsFolder_ofExcept _) fun address => ?_
  exact keepsFolder_bind (keepsFolder_exchange _) fun reply => keepsFolder_ofExcept _

end Server
end BuildDesk
