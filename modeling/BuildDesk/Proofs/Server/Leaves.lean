/-
The leaves of a listing.

An entry of a listing either is a folder, with entries of its own, or it is none, and then it may
be a job.  So a listing has a tree below it, and every entry of the tree stands at a place: the
numbers that lead to it, one for each folder on the way and one for the entry.  Places in their
lexicographic order are the order of the document.

* `StandsAt` — the entry at a place, behind folders only;
* `IsLeaf` — the entries that are jobs;
* `AreLeaves` — some places and entries are those of all leaves, in order;
* `comesToLeaves_jobsIn` — opening all folders of a listing comes to the jobs of its leaves;
* `listJobs_leaves` — and so a server lists just the leaves of the reply.
-/
import BuildDesk.Proofs.Server.Reported

namespace BuildDesk

namespace Json

/-- The value is null, as one that is absent, or a list. -/
def IsNullOrList (v : Json) : Prop := v = .null ∨ ∃ entries, v = .list entries

theorem isNull_iff {v : Json} : v.isNull = true ↔ v = .null := by
  cases v with
  | null => exact iff_of_true rfl rfl
  | _ => exact iff_of_false Bool.noConfusion nofun

theorem sizeOf_lookup {members : List (String × Json)} {name : String} {v : Json}
    (h : members.lookup name = some v) : sizeOf v < sizeOf members := by
  induction members with
  | nil => cases h
  | cons m rest ih =>
    obtain ⟨other, w⟩ := m
    rw [List.lookup_cons] at h
    simp only [List.cons.sizeOf_spec, Prod.mk.sizeOf_spec]
    split at h
    · obtain rfl := Option.some.inj h
      omega
    · have := ih h
      omega

/-- What an entry has inside is smaller than a list that the entry is in. -/
theorem sizeOf_inside {entries inside : List Json} {entry : Json} {name : String}
    (hentry : entry ∈ entries) (hinside : entry.field name = .list inside) :
    sizeOf inside < sizeOf entries := by
  have hlist := List.sizeOf_lt_of_mem hentry
  cases entry with
  | object members =>
    have hlookup : members.lookup name = some (.list inside) := by
      rw [field, field?, Option.getD_eq_iff] at hinside
      rcases hinside with hlookup | ⟨-, hnull⟩
      · exact hlookup
      · cases hnull
    have hmember := sizeOf_lookup hlookup
    simp only [list.sizeOf_spec, object.sizeOf_spec] at hmember hlist
    omega
  | _ => cases hinside

/-- Induction over folders: what holds of a list of entries, if it holds of the lists inside of
them, holds of every list. -/
theorem folder_induction {P : List Json → Prop} (name : String)
    (h : ∀ entries, (∀ entry ∈ entries, ∀ inside, entry.field name = .list inside → P inside) →
      P entries) (entries : List Json) : P entries :=
  h entries fun _ hentry inside hinside =>
    have := sizeOf_inside hentry hinside
    folder_induction name h inside
termination_by sizeOf entries

end Json

namespace Server

open Desk
open Json (IsNullOrList)

/-- A list of entries has the entry at the place, behind folders only. -/
inductive StandsAt : List Json → List Nat → Json → Prop
  | entry {entries : List Json} {n : Nat} {entry : Json} (h : entries[n]? = some entry) :
    StandsAt entries [n] entry
  | inside {entries inside : List Json} {n : Nat} {folder entry : Json} {place : List Nat}
    (h : entries[n]? = some folder) (hfolder : folder.field "jobs" = .list inside)
    (hentry : StandsAt inside place entry) : StandsAt entries (n :: place) entry

/-- The entry is a job: an object that is no folder and has a name and an address. -/
structure IsLeaf (entry : Json) : Prop where
  object : entry.IsObject
  noFolder : entry.field "jobs" = .null
  named : (entry.field "name").truthy = true
  located : (entry.field "url").truthy = true

/-- The job that an entry tells of. -/
def jobOf (entry : Json) : Job where
  name := (entry.field "name").text
  url := (entry.field "url").text
  fullName := (entry.field "fullName").orElse .null
  branches := []

/-- The pairs are the leaves that stand at places, each one once and in the order of the places. -/
structure AreLeaves (stands : List Nat → Json → Prop) (found : List (List Nat × Json)) : Prop where
  inOrder : found.Pairwise fun a b => a.1 < b.1
  mem_iff : ∀ place entry, (place, entry) ∈ found ↔ stands place entry ∧ IsLeaf entry

/-- The computation comes to the jobs of all leaves that stand at places, in order. -/
def ComesToLeaves (stands : List Nat → Json → Prop) (e : Except Fault (List Job)) : Prop :=
  ∃ found, AreLeaves stands found ∧ e = .ok (found.map fun p => jobOf p.2)

/-- The listing is null or a list, and so are the jobs of every entry of it. -/
structure IsNested (listing : Json) : Prop where
  outer : listing.IsNullOrList
  inner : ∀ place entry, StandsAt listing.items place entry → (entry.field "jobs").IsNullOrList

variable {entries before after : List Json} {entry : Json} {place : List Nat}

/-! ### Opening folders -/

theorem folderJobs_eq (members : List (String × Json)) : folderJobs members =
    (members.lookup "jobs").bind fun v => if v.isNull then none else some (jobsIn v) := by
  induction members with
  | nil => rfl
  | cons m rest ih =>
    obtain ⟨name, value⟩ := m
    rw [folderJobs, List.lookup_cons]
    by_cases hname : name = "jobs"
    · rw [hname, if_pos (beq_self_eq_true _), beq_self_eq_true]
      rfl
    · have hother : ("jobs" == name) = false := beq_false_of_ne (Ne.symm hname)
      rw [if_neg (by simpa using hname), hother, ih]

theorem jobsOfEntry_of_folder {inside : List Json} (h : entry.field "jobs" = .list inside) :
    jobsOfEntry entry = jobsOfEntries inside := by
  cases entry with
  | object members =>
    have hlookup : members.lookup "jobs" = some (.list inside) := by
      rw [Json.field, Json.field?, Option.getD_eq_iff] at h
      rcases h with hlookup | ⟨-, hnull⟩
      · exact hlookup
      · cases hnull
    rw [jobsOfEntry, folderJobs_eq, hlookup]
    rfl
  | _ => cases h

theorem jobsOfEntry_of_null (h : entry.field "jobs" = .null) :
    jobsOfEntry entry = .ok (if (entry.field "url").truthy && (entry.field "name").truthy
      then [jobOf entry] else []) := by
  cases entry with
  | object members =>
    have hnone : folderJobs members = none := by
      rw [folderJobs_eq, Option.bind_eq_none_iff]
      intro v hv
      rw [Json.field, Json.field?, hv] at h
      exact if_pos (Json.isNull_iff.mpr h)
    rw [jobsOfEntry, hnone]
    rfl
  | _ => rfl

/-- Opening the folders of a list and then those of another one is opening those of both. -/
theorem jobsOfEntries_append (before after : List Json) : jobsOfEntries (before ++ after) =
    (do return (← jobsOfEntries before) ++ (← jobsOfEntries after)) := by
  induction before with
  | nil =>
    rw [List.nil_append, jobsOfEntries]
    exact (bind_pure _).symm
  | cons entry rest ih =>
    rw [List.cons_append, jobsOfEntries, jobsOfEntries, ih]
    simp only [bind_assoc, pure_bind, List.append_assoc]

/-! ### Places -/

/-- The entry at a place that starts from an entry: this one itself, or one inside of it. -/
def StandsBelow (top : Json) (place : List Nat) (entry : Json) : Prop :=
  place = [] ∧ entry = top ∨
    ∃ inside, top.field "jobs" = .list inside ∧ StandsAt inside place entry

theorem standsAt_iff : StandsAt entries place entry ↔
    ∃ n top rest, entries[n]? = some top ∧ place = n :: rest ∧ StandsBelow top rest entry := by
  constructor
  · intro h
    cases h with
    | entry h => exact ⟨_, _, [], h, rfl, .inl ⟨rfl, rfl⟩⟩
    | inside h hfolder hentry => exact ⟨_, _, _, h, rfl, .inr ⟨_, hfolder, hentry⟩⟩
  · rintro ⟨n, top, rest, htop, rfl, ⟨rfl, rfl⟩ | ⟨inside, hfolder, hentry⟩⟩
    · exact .entry htop
    · exact .inside htop hfolder hentry

theorem not_standsAt_nil : ¬ StandsAt [] place entry := by
  rw [standsAt_iff]
  rintro ⟨n, top, rest, htop, -⟩
  cases htop

/-- An entry at the end is the one with the highest number. -/
theorem standsAt_concat {last : Json} : StandsAt (before ++ [last]) place entry ↔
    StandsAt before place entry ∨
      ∃ rest, place = before.length :: rest ∧ StandsBelow last rest entry := by
  simp only [standsAt_iff, List.getElem?_append]
  constructor
  · rintro ⟨n, top, rest, htop, hplace, hbelow⟩
    split at htop
    · exact .inl ⟨n, top, rest, htop, hplace, hbelow⟩
    · rw [List.getElem?_singleton] at htop
      split at htop
      · obtain rfl : n = before.length := by omega
        obtain rfl := Option.some.inj htop
        exact .inr ⟨rest, hplace, hbelow⟩
      · cases htop
  · rintro (⟨n, top, rest, htop, hplace, hbelow⟩ | ⟨rest, hplace, hbelow⟩)
    · have hn := (List.getElem?_eq_some_iff.mp htop).1
      exact ⟨n, top, rest, by rw [if_pos hn, htop], hplace, hbelow⟩
    · refine ⟨before.length, last, rest, ?_, hplace, hbelow⟩
      rw [if_neg (Nat.lt_irrefl _), Nat.sub_self]
      rfl

/-- Below an entry that is no folder there is only itself. -/
theorem standsBelow_of_null {top : Json} (h : top.field "jobs" = .null) :
    StandsBelow top place entry ↔ place = [] ∧ entry = top := by
  refine or_iff_left ?_
  rintro ⟨inside, hinside, -⟩
  cases h.symm.trans hinside

/-- The leaves below a folder are those inside of it. -/
theorem standsBelow_of_folder {top : Json} {inside : List Json}
    (h : top.field "jobs" = .list inside) :
    StandsBelow top place entry ∧ IsLeaf entry ↔ StandsAt inside place entry ∧ IsLeaf entry := by
  constructor
  · rintro ⟨⟨-, rfl⟩ | ⟨other, hother, hentry⟩, hleaf⟩
    · cases hleaf.noFolder.symm.trans h
    · obtain rfl := Json.list.inj (hother.symm.trans h)
      exact ⟨hentry, hleaf⟩
  · exact fun ⟨hentry, hleaf⟩ => ⟨.inr ⟨inside, h, hentry⟩, hleaf⟩

/-! ### Leaves -/

theorem isLeaf_iff (h : entry.field "jobs" = .null) : IsLeaf entry ↔
    ((entry.field "url").truthy && (entry.field "name").truthy) = true := by
  rw [Bool.and_eq_true]
  refine ⟨fun hleaf => ⟨hleaf.located, hleaf.named⟩, fun ⟨hurl, hname⟩ => ?_⟩
  have hobject : entry.IsObject := by
    cases entry with
    | object members => exact ⟨members, rfl⟩
    | _ => cases hname
  exact ⟨hobject, h, hname, hurl⟩

/-- The leaves of a list, with those below one more entry behind it. -/
theorem AreLeaves.concat {last : Json} {found found' : List (List Nat × Json)}
    (h : AreLeaves (StandsAt before) found) (h' : AreLeaves (StandsBelow last) found') :
    AreLeaves (StandsAt (before ++ [last]))
      (found ++ found'.map fun p => (before.length :: p.1, p.2)) where
  inOrder := by
    refine List.pairwise_append.mpr ⟨h.inOrder, ?_, ?_⟩
    · rw [List.pairwise_map]
      exact h'.inOrder.imp fun hlt => List.cons_lt_cons_self.mpr hlt
    · rintro ⟨place, entry⟩ hp q hq
      obtain ⟨p', -, rfl⟩ := List.mem_map.mp hq
      -- the number of an entry is less than how many there are
      obtain ⟨n, top, rest, htop, rfl, -⟩ := standsAt_iff.mp ((h.mem_iff _ _).mp hp).1
      exact List.cons_lt_cons_iff.mpr (.inl (List.getElem?_eq_some_iff.mp htop).1)
  mem_iff := by
    intro place entry
    rw [List.mem_append, h.mem_iff, standsAt_concat, or_and_right]
    refine or_congr_right ?_
    rw [List.mem_map]
    constructor
    · rintro ⟨⟨rest, e⟩, hmem, heq⟩
      obtain ⟨rfl, rfl⟩ := Prod.mk.inj heq
      obtain ⟨hbelow, hleaf⟩ := (h'.mem_iff _ _).mp hmem
      exact ⟨⟨rest, rfl, hbelow⟩, hleaf⟩
    · rintro ⟨⟨rest, rfl, hbelow⟩, hleaf⟩
      exact ⟨(rest, entry), (h'.mem_iff _ _).mpr ⟨hbelow, hleaf⟩, rfl⟩

/-- The jobs of an entry are those of the leaves below it, if this is so of what it has inside. -/
theorem comesToLeaves_entry (hjobs : (entry.field "jobs").IsNullOrList)
    (hinside : ∀ inside, entry.field "jobs" = .list inside →
      ComesToLeaves (StandsAt inside) (jobsOfEntries inside)) :
    ComesToLeaves (StandsBelow entry) (jobsOfEntry entry) := by
  rcases hjobs with hnull | ⟨inside, hfolder⟩
  · rw [jobsOfEntry_of_null hnull]
    by_cases hleaf : IsLeaf entry
    · rw [if_pos ((isLeaf_iff hnull).mp hleaf)]
      refine ⟨[([], entry)], ⟨List.pairwise_singleton _ _, fun place e => ?_⟩, rfl⟩
      rw [List.mem_singleton, Prod.mk.injEq, standsBelow_of_null hnull]
      exact ⟨fun ⟨hplace, he⟩ => ⟨⟨hplace, he⟩, he ▸ hleaf⟩, And.left⟩
    · rw [if_neg fun h => hleaf ((isLeaf_iff hnull).mpr h)]
      refine ⟨[], ⟨.nil, fun place e => iff_of_false List.not_mem_nil ?_⟩, rfl⟩
      rw [standsBelow_of_null hnull]
      rintro ⟨⟨-, rfl⟩, h⟩
      exact hleaf h
  · obtain ⟨found, hfound, hflat⟩ := hinside inside hfolder
    refine ⟨found, ⟨hfound.inOrder, fun place e => ?_⟩, ?_⟩
    · rw [standsBelow_of_folder hfolder, hfound.mem_iff]
    · rw [jobsOfEntry_of_folder hfolder, hflat]

theorem ComesToLeaves.concat {last : Json}
    (h : ComesToLeaves (StandsAt before) (jobsOfEntries before))
    (h' : ComesToLeaves (StandsBelow last) (jobsOfEntry last)) :
    ComesToLeaves (StandsAt (before ++ [last])) (jobsOfEntries (before ++ [last])) := by
  obtain ⟨found, hfound, hflat⟩ := h
  obtain ⟨found', hfound', hflat'⟩ := h'
  refine ⟨_, hfound.concat hfound', ?_⟩
  have hlast : jobsOfEntries [last] = .ok (found'.map fun p => jobOf p.2) := by
    rw [jobsOfEntries, hflat', jobsOfEntries]
    exact congrArg Except.ok (List.append_nil _)
  rw [jobsOfEntries_append, hflat, hlast, List.map_append, List.map_map]
  rfl

theorem comesToLeaves_entries (entries : List Json)
    (h : ∀ place entry, StandsAt entries place entry → (entry.field "jobs").IsNullOrList) :
    ComesToLeaves (StandsAt entries) (jobsOfEntries entries) := by
  induction entries using Json.folder_induction "jobs" with
  | h entries hfolders =>
  -- within the list the entries come one by one at its end, so that their numbers stay
  induction entries using List.reverseRecOn with
  | nil =>
    refine ⟨[], ⟨.nil, fun place entry => iff_of_false List.not_mem_nil ?_⟩, rfl⟩
    exact fun hleaf => not_standsAt_nil hleaf.1
  | append_singleton before last ih =>
    have hbelow (place : List Nat) (entry : Json) (hentry : StandsBelow last place entry) :
        (entry.field "jobs").IsNullOrList :=
      h _ entry (standsAt_concat.mpr (.inr ⟨place, rfl, hentry⟩))
    have hlast : ComesToLeaves (StandsBelow last) (jobsOfEntry last) := by
      refine comesToLeaves_entry (hbelow [] last (.inl ⟨rfl, rfl⟩)) fun inside hinside => ?_
      have hmem : last ∈ before ++ [last] := List.mem_append_right _ (List.mem_singleton_self _)
      exact hfolders last hmem inside hinside fun place entry hentry =>
        hbelow place entry (.inr ⟨inside, hinside, hentry⟩)
    refine ComesToLeaves.concat (ih (fun entry hentry => ?_) fun place entry hentry => ?_) hlast
    · exact hfolders entry (List.mem_append_left _ hentry)
    · exact h place entry (standsAt_concat.mpr (.inl hentry))

/-- Opening all folders of a listing comes to the jobs of its leaves. -/
theorem comesToLeaves_jobsIn {listing : Json} (h : IsNested listing) :
    ComesToLeaves (StandsAt listing.items) (jobsIn listing) := by
  have hentries := comesToLeaves_entries listing.items h.inner
  obtain rfl | ⟨entries, rfl⟩ := h.outer
  · exact hentries
  · exact hentries

/-! ### Nested listings -/

theorem isNested_null : IsNested .null where
  outer := .inl rfl
  inner _ _ h := absurd h not_standsAt_nil

theorem isNested_list : IsNested (.list entries) ↔
    ∀ entry ∈ entries, IsNested (entry.field "jobs") := by
  constructor
  · intro h entry hentry
    obtain ⟨n, hn⟩ := List.getElem?_of_mem hentry
    refine ⟨h.inner _ entry (.entry hn), fun place e he => ?_⟩
    obtain hnull | ⟨inside, hinside⟩ := h.inner _ entry (.entry hn)
    · rw [hnull] at he
      exact absurd he not_standsAt_nil
    · rw [hinside] at he
      exact h.inner _ e (.inside hn hinside he)
  · refine fun h => ⟨.inr ⟨entries, rfl⟩, fun place e he => ?_⟩
    cases he with
    | entry hn => exact (h _ (List.mem_of_getElem? hn)).outer
    | inside hn hinside he =>
      have hinner := (h _ (List.mem_of_getElem? hn)).inner
      rw [hinside] at hinner
      exact hinner _ e he

/-! ### Servers -/

/-- What a listing comes to, when the server replies with JSON. -/
theorem result_listJobs (server : Server) {s : Session} {reply : Reply} {seconds : Float}
    {data : Json} (hresponse : s.responses.head? = some (.reply reply seconds))
    (hserved : isFailure reply.status = .ok false) (hdata : jsonOf reply = .ok data)
    (hobject : data.IsObject) :
    (server.listJobs.outcome s).1 = jobsIn (data.field "jobs") := by
  have hfetch : ((server.fetchJson (.str server.settings.url) (some jobsTree)).outcome s).1
      = .ok data := by
    refine Eq.trans (result_fetch_bind (joinText server.settings.url "api/json")
      [("tree", .str jobsTree)] jsonOf s) ?_
    rw [hresponse, answerTo, served, hserved]
    exact hdata
  obtain ⟨members, rfl⟩ := hobject
  rw [listJobs, result_bind_ofExcept, hfetch]
  rfl

/-- **A server lists the leaves of the reply.**  Whatever JSON object a reply holds, if its jobs
are null or a list, and so are those of the entries at any depth: the jobs that come of it are
those of its leaves, each one once and in the order of the document, and nothing is sent but the
one request.  And the jobs of two lists of entries, one behind the other, are those of the first
and then those of the second. -/
theorem listJobs_leaves (server : Server) {s : Session} {reply : Reply} {seconds : Float}
    {data : Json} (hresponse : s.responses.head? = some (.reply reply seconds))
    (hserved : isFailure reply.status = .ok false) (hdata : jsonOf reply = .ok data)
    (hobject : data.IsObject) (hnested : IsNested (data.field "jobs")) :
    (∃ found, AreLeaves (StandsAt (data.field "jobs").items) found ∧
      server.listJobs.Yields s (found.map fun p => jobOf p.2)
        (sessionAfter (Call.listJobs.request? server) s))
    ∧ ∀ before after, jobsIn (.list (before ++ after)) =
        (do return (← jobsIn (.list before)) ++ (← jobsIn (.list after))) := by
  obtain ⟨found, hfound, hflat⟩ := comesToLeaves_jobsIn hnested
  refine ⟨⟨found, hfound, Prod.ext ?_ ?_⟩, jobsOfEntries_append⟩
  · rw [server.result_listJobs hresponse hserved hdata hobject, hflat]
  · exact (session_bind _ (fun _ => isStill_ofExcept _) s).trans (server.session_fetchJson _ _ s)

/-- A listing with a job, a folder with another one, and entries that are no jobs. -/
def mixedListing : Json := .list [
  .object [("name", .str "api"), ("url", .str "u/api")],
  .null,
  .object [("name", .str "team"), ("url", .str "u/team"), ("jobs", .list [
    .object [("name", .str ""), ("url", .str "u/nameless")],
    .object [("name", .str "web"), ("url", .str "u/web"), ("jobs", .null),
      ("fullName", .str "team/web")]])],
  .object [("name", .str "empty"), ("url", .str "u/empty"), ("jobs", .list [])]]

theorem isNested_mixedListing : IsNested mixedListing := by
  have hteam : ∀ entry ∈ [
      Json.object [("name", .str ""), ("url", .str "u/nameless")],
      .object [("name", .str "web"), ("url", .str "u/web"), ("jobs", .null),
        ("fullName", .str "team/web")]], IsNested (entry.field "jobs") :=
    List.forall_mem_cons.mpr ⟨isNested_null, List.forall_mem_cons.mpr ⟨isNested_null,
      List.forall_mem_nil _⟩⟩
  refine isNested_list.mpr (List.forall_mem_cons.mpr ⟨isNested_null, List.forall_mem_cons.mpr
    ⟨isNested_null, List.forall_mem_cons.mpr ⟨isNested_list.mpr hteam, ?_⟩⟩⟩)
  exact List.forall_mem_cons.mpr ⟨isNested_list.mpr (List.forall_mem_nil _), List.forall_mem_nil _⟩

/-- A session in which the server lists them. -/
def listsMixed : Session where
  responses := [.reply { body := .json (.object [("jobs", mixedListing)]) } 0]

/-- A server that asks for no crumbs. -/
def someHost : Server := ⟨{ url := "http://ci", user := "u", token := "t" }, .int 5⟩

/-- Of the mixed listing the server lists the two jobs. -/
theorem listJobs_mixed : IsNested mixedListing ∧ ∃ found,
    AreLeaves (StandsAt mixedListing.items) found
    ∧ (found.map fun p => jobOf p.2) =
      [⟨"api", "u/api", .null, []⟩, ⟨"web", "u/web", .str "team/web", []⟩]
    ∧ someHost.listJobs.Yields listsMixed (found.map fun p => jobOf p.2)
      (sessionAfter (Call.listJobs.request? someHost) listsMixed) := by
  have hdata : jsonOf { body := .json (.object [("jobs", mixedListing)]) } =
      .ok (.object [("jobs", mixedListing)]) := rfl
  obtain ⟨⟨found, hfound, hyields⟩, -⟩ := listJobs_leaves someHost (s := listsMixed) rfl rfl hdata
    ⟨_, rfl⟩ isNested_mixedListing
  have hlists : someHost.listJobs.Yields listsMixed
      [⟨"api", "u/api", .null, []⟩, ⟨"web", "u/web", .str "team/web", []⟩]
      (someHost.listJobs.outcome listsMixed).2 := rfl
  exact ⟨isNested_mixedListing, found, hfound, (hyields.unique hlists).1, hyields⟩

end Server
end BuildDesk
