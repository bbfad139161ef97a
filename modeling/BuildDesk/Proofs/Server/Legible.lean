/-
Replies that can be read.

A reply may be any JSON value, and each reading of one has a shape of its own that the value
needs.  `ReadsWhen` says of a computation that it comes to a value when a condition holds, and
otherwise to a fault of misreading, and it is kept by putting computations one after another
(`readsWhen_bind`, `readsWhen_mapM`).  So every reading has its shape:

* `GoesThrough`, `goesThrough_items` — what going through a value comes to;
* `IsParameters`, `IsActions`, `IsBranches`, `IsLastBuild` — what a report on a build needs;
* `IsListing` — what a listing of jobs needs, folders within folders;
* `IsCrumb` — what names a header;
* `readsWhen_lastBuild`, `readsWhen_build`, `readsWhen_jobsIn`, `readsWhen_crumbOf` — just what
  has the shape is read.
-/
import BuildDesk.Server.Client

namespace BuildDesk

variable {α β : Type}

/-- The faults of replies that are misread: a body that is no JSON, a value of a kind that
cannot be worked with, or a member that is missing. -/
inductive Fault.IsMisread : Fault → Prop
  | notJson : IsMisread .notJson
  | badValue : IsMisread .badValue
  | tooDeep : IsMisread .tooDeep
  | noMember : IsMisread .noMember
  | noAttribute : IsMisread .noAttribute
  | wrongKind : IsMisread .wrongKind

/-- The computation comes to a value when the condition holds, and else it misreads something. -/
def ReadsWhen (e : Except Fault α) (p : Prop) : Prop :=
  match e with
  | .ok _ => p
  | .error f => ¬ p ∧ f.IsMisread

section ReadsWhen

variable {e : Except Fault α} {p q : Prop}

theorem readsWhen_ok {a : α} (h : p) : ReadsWhen (.ok a : Except Fault α) p := h

theorem readsWhen_error {f : Fault} (hf : f.IsMisread) (h : ¬ p) :
    ReadsWhen (.error f : Except Fault α) p := ⟨h, hf⟩

theorem ReadsWhen.congr (h : ReadsWhen e p) (hpq : p ↔ q) : ReadsWhen e q := by
  rwa [propext hpq] at h

theorem ReadsWhen.iff (h : ReadsWhen e p) : (∃ a, e = .ok a) ↔ p := by
  cases e with
  | ok a => exact ⟨fun _ => h, fun _ => ⟨a, rfl⟩⟩
  | error f =>
    refine ⟨?_, fun hp => absurd hp h.1⟩
    rintro ⟨a, ⟨⟩⟩

/-- What goes on from a value has a condition of its own. -/
theorem readsWhen_bind {next : α → Except Fault β} (h : ReadsWhen e p)
    (hnext : ∀ a, e = .ok a → ReadsWhen (next a) q) : ReadsWhen (e >>= next) (p ∧ q) := by
  cases e with
  | ok a => exact (hnext a rfl).congr (and_iff_right h).symm
  | error f => exact ⟨fun hpq => h.1 hpq.1, h.2⟩

theorem readsWhen_bind_exists {next : α → Except Fault β} {q : α → Prop} (h : ReadsWhen e p)
    (hnext : ∀ a, e = .ok a → ReadsWhen (next a) (q a)) :
    ReadsWhen (e >>= next) (∃ a, e = .ok a ∧ q a) := by
  cases e with
  | ok a =>
    refine (hnext a rfl).congr ⟨fun hq => ⟨a, rfl, hq⟩, ?_⟩
    rintro ⟨_, ⟨⟩, hq⟩
    exact hq
  | error f => exact ⟨nofun, h.2⟩

/-- Nothing that goes on from a value is misread. -/
theorem readsWhen_map {next : α → Except Fault β} (h : ReadsWhen e p)
    (hnext : ∀ a, ∃ b, next a = .ok b) : ReadsWhen (e >>= next) p := by
  cases e with
  | ok a =>
    obtain ⟨b, hb⟩ := hnext a
    show ReadsWhen (next a) p
    rw [hb]
    exact h
  | error f => exact h

theorem readsWhen_mapM {items : List α} {f : α → Except Fault β} {p : α → Prop}
    (h : ∀ a ∈ items, ReadsWhen (f a) (p a)) : ReadsWhen (items.mapM f) (∀ a ∈ items, p a) := by
  induction items with
  | nil => exact readsWhen_ok fun _ h => nomatch h
  | cons a rest ih =>
    obtain ⟨ha, hrest⟩ := List.forall_mem_cons.mp h
    rw [List.mapM_cons]
    refine (readsWhen_bind ha fun b _ => ?_).congr List.forall_mem_cons.symm
    exact readsWhen_map (ih hrest) fun bs => ⟨_, rfl⟩

end ReadsWhen

namespace Json

/-- The value is an object. -/
def IsObject (v : Json) : Prop := ∃ members, v = .object members

/-- The value can be gone through: a list, or an object or a text in the place of one, or a
value that counts as absent. -/
def IsSeries (v : Json) : Prop :=
  v.truthy = false ∨ (∃ items, v = .list items) ∨ v.IsObject ∨ ∃ text, v = .str text

/-- What counts as absent has no items. -/
theorem items_of_falsy {v : Json} (h : v.truthy = false) : v.items = [] := by
  cases v with
  | list entries => simpa [truthy, items] using h
  | _ => rfl

theorem items_of_texts {v : Json} (h : v.IsObject ∨ ∃ text, v = .str text) : v.items = [] := by
  obtain ⟨members, rfl⟩ | ⟨text, rfl⟩ := h <;> rfl

end Json

namespace Server

open Json (IsObject IsSeries)

/-! ### Access -/

theorem readsWhen_member (v : Json) (name : String) : ReadsWhen (member v name) v.IsObject := by
  cases v with
  | object members => exact readsWhen_ok ⟨members, rfl⟩
  | _ => exact readsWhen_error .noAttribute (by rintro ⟨members, ⟨⟩⟩)

theorem eq_field_of_member {v w : Json} {name : String} (h : member v name = .ok w) :
    w = v.field name := by
  cases v with
  | object members => exact (Except.ok.inj h).symm
  | _ => cases h

/-- What going through a value comes to: the items of a list, nothing for what counts as absent,
and texts for any other series. -/
inductive GoesThrough : Json → Except Fault (List Json) → Prop
  | absent {v : Json} (hfalsy : v.truthy = false) : GoesThrough v (.ok [])
  | list (entries : List Json) : GoesThrough (.list entries) (.ok entries)
  | texts {v : Json} (htruthy : v.truthy = true) (hseries : v.IsObject ∨ ∃ text, v = .str text)
      (first : String) (rest : List String) :
      GoesThrough v (.ok (.str first :: rest.map .str))
  | nothing {v : Json} (hno : ¬ v.IsSeries) : GoesThrough v (.error .wrongKind)

theorem goesThrough_items (v : Json) : GoesThrough v (items v) := by
  unfold items
  cases htruthy : v.truthy with
  | false => exact .absent htruthy
  | true =>
    have hno (hlist : ∀ entries, v ≠ .list entries) (hobject : ∀ members, v ≠ .object members)
        (hstr : ∀ text, v ≠ .str text) : ¬ v.IsSeries := by
      rintro (hfalsy | ⟨entries, h⟩ | ⟨members, h⟩ | ⟨text, h⟩)
      · cases htruthy.symm.trans hfalsy
      · exact hlist entries h
      · exact hobject members h
      · exact hstr text h
    cases v with
    | list entries => exact .list entries
    | object members =>
      obtain _ | ⟨⟨name, value⟩, rest⟩ := members
      · cases htruthy
      · have h := GoesThrough.texts htruthy (.inl ⟨_, rfl⟩) name (rest.map (·.1))
        rwa [List.map_map] at h
    | str text =>
      rcases htext : text.toList with _ | ⟨c, rest⟩
      · rw [String.toList_eq_nil_iff] at htext
        rw [htext] at htruthy
        cases htruthy
      · have h := GoesThrough.texts htruthy (.inr ⟨_, rfl⟩) c.toString (rest.map (·.toString))
        rw [List.map_map] at h
        show GoesThrough (.str text) (.ok (text.toList.map fun c => .str c.toString))
        rw [htext]
        exact h
    | _ => exact .nothing (hno nofun nofun nofun)

theorem readsWhen_items (v : Json) : ReadsWhen (items v) v.IsSeries := by
  have h := goesThrough_items v
  generalize items v = found at h ⊢
  cases h with
  | absent hfalsy => exact readsWhen_ok (.inl hfalsy)
  | list entries => exact readsWhen_ok (.inr (.inl ⟨entries, rfl⟩))
  | texts htruthy hseries => exact readsWhen_ok (.inr (.inr hseries))
  | nothing hno => exact readsWhen_error .wrongKind hno

/-- What takes no texts reads the items of lists only. -/
theorem readsWhen_items_bind {next : List Json → Except Fault α} {p : List Json → Prop} (v : Json)
    (hnext : ∀ entries, ReadsWhen (next entries) (p entries)) (hnil : p [])
    (htexts : ∀ (text : String) rest, ¬ p (.str text :: rest)) :
    ReadsWhen (items v >>= next) (v.truthy = false ∨ ∃ entries, v = .list entries ∧ p entries) := by
  have h := goesThrough_items v
  generalize items v = found at h ⊢
  cases h with
  | absent hfalsy => exact (hnext []).congr ⟨fun _ => .inl hfalsy, fun _ => hnil⟩
  | list entries =>
    refine (hnext entries).congr ⟨fun hp => .inr ⟨entries, rfl, hp⟩, ?_⟩
    rintro (hfalsy | ⟨_, ⟨⟩, hp⟩)
    · obtain rfl : entries = [] := Json.items_of_falsy hfalsy
      exact hnil
    · exact hp
  | texts htruthy hseries first rest =>
    refine (hnext _).congr ⟨fun hp => absurd hp (htexts first _), ?_⟩
    rintro (hfalsy | ⟨entries, rfl, -⟩)
    · cases htruthy.symm.trans hfalsy
    · -- a list is neither an object nor a text
      obtain ⟨members, ⟨⟩⟩ | ⟨text, ⟨⟩⟩ := hseries
  | nothing hno =>
    refine readsWhen_error .wrongKind fun h => hno ?_
    rcases h with hfalsy | ⟨entries, hv, -⟩
    · exact .inl hfalsy
    · exact .inr (.inl ⟨entries, hv⟩)

/-- What makes nothing of texts reads any series, and of a list it reads all items. -/
theorem readsWhen_items_mapM {f : Json → Except Fault β} {p : Json → Prop} (v : Json)
    (hf : ∀ item, ReadsWhen (f item) (p item)) (htexts : ∀ text : String, p (.str text)) :
    ReadsWhen (items v >>= List.mapM f) (v.IsSeries ∧ ∀ item ∈ v.items, p item) := by
  have hall (found : List Json) : ReadsWhen (found.mapM f) (∀ item ∈ found, p item) :=
    readsWhen_mapM fun item _ => hf item
  have h := goesThrough_items v
  generalize hfound : items v = found at h ⊢
  cases h with
  | absent hfalsy =>
    refine (hall []).congr ⟨fun _ => ⟨.inl hfalsy, ?_⟩, fun _ => List.forall_mem_nil _⟩
    rw [Json.items_of_falsy hfalsy]
    exact List.forall_mem_nil _
  | list entries =>
    exact (hall entries).congr ⟨fun hp => ⟨.inr (.inl ⟨entries, rfl⟩), hp⟩, And.right⟩
  | texts htruthy hseries first rest =>
    refine (hall _).congr ⟨fun _ => ⟨.inr (.inr hseries), ?_⟩, fun _ => ?_⟩
    · rw [Json.items_of_texts hseries]
      exact List.forall_mem_nil _
    · simpa using ⟨htexts first, fun text _ => htexts text⟩
  | nothing hno => exact readsWhen_error .wrongKind fun h => hno h.1

/-! ### Reports on builds -/

/-- The value has parameters of an action: it counts as absent, or it is a list of objects. -/
def IsParameters (v : Json) : Prop :=
  v.truthy = false ∨ ∃ entries, v = .list entries ∧ ∀ entry ∈ entries, entry.IsObject

/-- The value has actions: it can be gone through, and the objects in it have parameters. -/
def IsActions (v : Json) : Prop :=
  v.IsSeries ∧ ∀ action ∈ v.items, action.IsObject → IsParameters (action.field "parameters")

/-- The entries are objects up to the first one with a name. -/
def ObjectsToName (entries : List Json) : Prop :=
  ∀ before entry after, entries = before ++ entry :: after →
    (∀ e ∈ before, (e.field "name").truthy = false) → entry.IsObject

/-- The value has branches: it counts as absent, or it is a list of objects up to the first one
with a name. -/
def IsBranches (v : Json) : Prop :=
  v.truthy = false ∨ ∃ entries, v = .list entries ∧ ObjectsToName entries

/-- The first value of a name among the actions. -/
def amongActions (actions : Json) (name : String) : Json :=
  (actions.items.findSome? (·.field? name)).getD .null

/-- The value is no last build, or one whose actions and branches can be read. -/
def IsLastBuild (v : Json) : Prop :=
  v.truthy = false ∨ v.IsObject ∧ IsActions (v.field "actions") ∧
    ((amongActions (v.field "actions") "lastBuiltRevision").IsObject →
      IsBranches ((amongActions (v.field "actions") "lastBuiltRevision").field "branch"))

theorem not_isObject_of_text (text : String) : ¬ (Json.str text).IsObject := by
  rintro ⟨members, ⟨⟩⟩

theorem readsWhen_parameterOf (entry : Json) : ReadsWhen (parameterOf entry) entry.IsObject := by
  cases entry with
  | object members =>
    -- of an object every member can be read
    unfold parameterOf
    simp only [member, bind, Except.bind]
    split
    · exact readsWhen_ok ⟨members, rfl⟩
    · exact readsWhen_ok ⟨members, rfl⟩
  | _ => exact readsWhen_error .noAttribute (by rintro ⟨members, ⟨⟩⟩)

theorem readsWhen_actionParameters (action : Json) : ReadsWhen (actionParameters action)
    (action.IsObject → IsParameters (action.field "parameters")) := by
  cases action with
  | object members =>
    have hentries (entries : List Json) : ReadsWhen
        (do pure ((← entries.mapM parameterOf).filterMap id)) (∀ entry ∈ entries, entry.IsObject) :=
      readsWhen_map (readsWhen_mapM fun entry _ => readsWhen_parameterOf entry) fun _ => ⟨_, rfl⟩
    refine (readsWhen_items_bind (Json.field (.object members) "parameters") hentries
      (List.forall_mem_nil _) fun text rest h => ?_).congr (imp_iff_right ⟨members, rfl⟩).symm
    exact not_isObject_of_text text (h _ (.head _))
  | _ => exact readsWhen_ok (by rintro ⟨members, ⟨⟩⟩)

theorem readsWhen_parametersOf (actions : Json) :
    ReadsWhen (parametersOf actions) (IsActions actions) := by
  unfold parametersOf
  rw [← bind_assoc]
  refine readsWhen_map (readsWhen_items_mapM actions readsWhen_actionParameters ?_)
    fun _ => ⟨_, rfl⟩
  exact fun text h => absurd h (not_isObject_of_text text)

/-- What is found among the actions is found among the items of a list. -/
theorem actionValue_eq {actions : Json} (name : String) (h : actions.IsSeries) :
    actionValue actions name = pure (amongActions actions name) := by
  have hitems := goesThrough_items actions
  unfold actionValue amongActions
  generalize items actions = found at hitems ⊢
  cases hitems with
  | absent hfalsy =>
    rw [Json.items_of_falsy hfalsy]
    rfl
  | list entries => rfl
  | texts htruthy hseries first rest =>
    -- a text has no members, so nothing is found among texts
    have hnone : (rest.map Json.str).findSome? (·.field? name) = none := by
      simp [List.findSome?_eq_none_iff, Json.field?]
    show Except.ok (((rest.map Json.str).findSome? (·.field? name)).getD .null) = _
    rw [hnone, Json.items_of_texts hseries]
    rfl
  | nothing hno => exact absurd h hno

theorem objectsToName_cons {entry : Json} {rest : List Json} : ObjectsToName (entry :: rest) ↔
    entry.IsObject ∧ ((entry.field "name").truthy = false → ObjectsToName rest) := by
  constructor
  · intro h
    refine ⟨h [] entry rest rfl (List.forall_mem_nil _), ?_⟩
    intro hname before e after hrest hbefore
    have hsplit : entry :: rest = (entry :: before) ++ e :: after := by rw [hrest]; rfl
    exact h _ e after hsplit (List.forall_mem_cons.mpr ⟨hname, hbefore⟩)
  · rintro ⟨hentry, hrest⟩ before e after h hbefore
    rcases before with _ | ⟨b, before⟩
    · obtain ⟨rfl, -⟩ := List.cons.inj h
      exact hentry
    · obtain ⟨rfl, hsplit⟩ := List.cons.inj h
      obtain ⟨hname, hbefore⟩ := List.forall_mem_cons.mp hbefore
      exact hrest hname before e after hsplit hbefore

theorem readsWhen_firstNamed (entries : List Json) :
    ReadsWhen (firstNamed entries) (ObjectsToName entries) := by
  induction entries with
  | nil => exact readsWhen_ok fun before entry after h => by simp at h
  | cons entry rest ih =>
    refine (readsWhen_bind (readsWhen_member entry "name") fun name hname => ?_).congr
      objectsToName_cons.symm
    rw [eq_field_of_member hname]
    cases (entry.field "name").truthy with
    | true => exact readsWhen_ok nofun
    | false => exact ih.congr (imp_iff_right rfl).symm

theorem readsWhen_revisionBranch (revision : Json) : ReadsWhen (revisionBranch revision)
    (revision.IsObject → IsBranches (revision.field "branch")) := by
  cases revision with
  | object members =>
    refine (readsWhen_items_bind (Json.field (.object members) "branch") readsWhen_firstNamed
      (fun before entry after h => by simp at h) fun text rest h => ?_).congr
      (imp_iff_right ⟨members, rfl⟩).symm
    exact not_isObject_of_text text (objectsToName_cons.mp h).1
  | _ => exact readsWhen_ok (by rintro ⟨members, ⟨⟩⟩)

theorem readsWhen_branchOf {actions : Json} (parameters : List Parameter)
    (hseries : actions.IsSeries) : ReadsWhen (branchOf actions parameters)
      ((amongActions actions "lastBuiltRevision").IsObject →
        IsBranches ((amongActions actions "lastBuiltRevision").field "branch")) := by
  unfold branchOf
  rw [actionValue_eq _ hseries, pure_bind]
  refine readsWhen_map (readsWhen_revisionBranch _) fun branch => ?_
  cases branch <;> exact ⟨_, rfl⟩

/-- The last build of a job is read of an object that tells of none, or of one that can be
read. -/
theorem readsWhen_lastBuild (reply : Json) : ReadsWhen (LastBuild.ofReply reply)
    (reply.IsObject ∧ IsLastBuild (reply.field "lastBuild")) := by
  refine readsWhen_bind (readsWhen_member reply "lastBuild") fun last hlast => ?_
  rw [← eq_field_of_member hlast]
  cases htruthy : last.truthy with
  | false => exact readsWhen_ok (.inl htruthy)
  | true =>
    have hpresent : ¬ last.truthy = false := by
      rw [htruthy]
      exact Bool.noConfusion
    refine ReadsWhen.congr (readsWhen_bind (readsWhen_member last "actions")
      fun actions hactions => ?_) (or_iff_right hpresent).symm
    rw [← eq_field_of_member hactions]
    refine readsWhen_bind (readsWhen_parametersOf actions) fun parameters hparameters => ?_
    have hseries : actions.IsSeries :=
      ((readsWhen_parametersOf actions).iff.mp ⟨parameters, hparameters⟩).1
    rw [actionValue_eq _ hseries, pure_bind]
    exact readsWhen_map (readsWhen_branchOf parameters hseries) fun branch => ⟨_, rfl⟩

/-- A build is read of an object with actions that can be read. -/
theorem readsWhen_build (asked reply : Json) : ReadsWhen (Build.ofReply asked reply)
    (reply.IsObject ∧ IsActions (reply.field "actions")) :=
  readsWhen_bind (readsWhen_member reply "number") fun _ _ =>
    readsWhen_map (readsWhen_parametersOf _) fun _ => ⟨_, rfl⟩

/-! ### Listings of jobs -/

/-- The value is a listing: it counts as absent, or a text or an object stands in the place of
one, or it is a list in which the jobs of every folder are a listing. -/
inductive IsListing : Json → Prop
  | absent {v : Json} (hfalsy : v.truthy = false) : IsListing v
  | object (members : List (String × Json)) : IsListing (.object members)
  | str (text : String) : IsListing (.str text)
  | list {entries : List Json} (hfolders : ∀ members, .object members ∈ entries →
      ∀ jobs, members.lookup "jobs" = some jobs → IsListing jobs) : IsListing (.list entries)

/-- The jobs of the entry are a listing, if it is a folder. -/
def HasListing (entry : Json) : Prop :=
  ∀ members, entry = .object members → ∀ jobs, members.lookup "jobs" = some jobs → IsListing jobs

theorem isListing_list {entries : List Json} :
    IsListing (.list entries) ↔ ∀ entry ∈ entries, HasListing entry := by
  constructor
  · intro h entry hentry members hmembers
    cases h with
    | absent hfalsy =>
      obtain rfl : entries = [] := Json.items_of_falsy hfalsy
      cases hentry
    | list hfolders => exact hfolders members (hmembers ▸ hentry)
  · exact fun h => .list fun members hmem => h _ hmem members rfl

-- The recursion goes from a value to its entries, to one entry, and along the members of that to
-- its own jobs, and so does the induction.
mutual

theorem readsWhen_jobsIn (v : Json) : ReadsWhen (jobsIn v) (IsListing v) := by
  match v with
  | .list entries => exact (readsWhen_jobsOfEntries entries).congr isListing_list.symm
  | .bool true => exact readsWhen_error .wrongKind (by rintro ⟨⟨⟩⟩)
  | .bool false | .null => exact readsWhen_ok (.absent rfl)
  | .str text => exact readsWhen_ok (.str text)
  | .object members => exact readsWhen_ok (.object members)
  | .int n =>
    rw [jobsIn]
    split <;> rename_i hnumber
    · refine readsWhen_error .wrongKind ?_
      rintro ⟨hfalsy⟩
      cases hnumber.symm.trans hfalsy
    · exact readsWhen_ok (.absent (eq_false_of_ne_true hnumber))
  | .float x =>
    rw [jobsIn]
    split <;> rename_i hnumber
    · refine readsWhen_error .wrongKind ?_
      rintro ⟨hfalsy⟩
      cases hnumber.symm.trans hfalsy
    · exact readsWhen_ok (.absent (eq_false_of_ne_true hnumber))

theorem readsWhen_jobsOfEntries (entries : List Json) :
    ReadsWhen (jobsOfEntries entries) (∀ entry ∈ entries, HasListing entry) := by
  match entries with
  | [] => exact readsWhen_ok (List.forall_mem_nil _)
  | entry :: rest =>
    rw [jobsOfEntries]
    refine (readsWhen_bind (readsWhen_jobsOfEntry entry) fun here _ => ?_).congr
      List.forall_mem_cons.symm
    exact readsWhen_map (readsWhen_jobsOfEntries rest) fun others => ⟨_, rfl⟩

theorem readsWhen_jobsOfEntry (entry : Json) :
    ReadsWhen (jobsOfEntry entry) (HasListing entry) := by
  match entry with
  | .object members =>
    refine (readsWhen_folderJobs members (leaf members)).congr ⟨?_, fun h => h members rfl⟩
    rintro h _ ⟨⟩
    exact h
  | .list _ | .bool _ | .int _ | .float _ | .null | .str _ =>
    exact readsWhen_ok (by rintro members ⟨⟩)

theorem readsWhen_folderJobs (members : List (String × Json)) (jobs : List Job) :
    ReadsWhen ((folderJobs members).getD (.ok jobs))
      (∀ inside, members.lookup "jobs" = some inside → IsListing inside) := by
  match members with
  | [] => exact readsWhen_ok nofun
  | (name, value) :: rest =>
    by_cases hname : name = "jobs"
    · rw [folderJobs, hname, if_pos (beq_self_eq_true _), List.lookup_cons_self]
      -- an entry with a null for its jobs is no folder, and a null is a listing of none
      cases hnull : value.isNull with
      | true =>
        refine readsWhen_ok ?_
        rintro _ ⟨⟩
        exact .absent (by cases value with | null => rfl | _ => cases hnull)
      | false =>
        refine (readsWhen_jobsIn value).congr ⟨?_, fun h => h value rfl⟩
        rintro h _ ⟨⟩
        exact h
    · have hother : ("jobs" == name) = false := beq_false_of_ne (Ne.symm hname)
      rw [folderJobs, if_neg (by simpa using hname), List.lookup_cons, hother]
      exact readsWhen_folderJobs rest jobs

end

/-! ### Crumbs -/

/-- The value names a header, and its content. -/
def IsCrumb (v : Json) : Prop :=
  (∃ field, v.field? "crumbRequestField" = some field ∧ isName field = true) ∧
    ∃ content, v.field? "crumb" = some content

theorem demand_eq_ok_iff {v w : Json} {name : String} :
    demand v name = .ok w ↔ v.field? name = some w := by
  cases v with
  | object members =>
    rw [demand, Json.field?]
    cases members.lookup name <;> simp
  | _ => simp [demand, Json.field?]

theorem readsWhen_demand (v : Json) (name : String) :
    ReadsWhen (demand v name) (∃ w, v.field? name = some w) := by
  cases v with
  | object members =>
    rw [demand, Json.field?]
    cases members.lookup name with
    | some w => exact readsWhen_ok ⟨w, rfl⟩
    | none => exact readsWhen_error .noMember (by rintro ⟨w, ⟨⟩⟩)
  | _ => exact readsWhen_error .wrongKind (by rintro ⟨w, ⟨⟩⟩)

theorem readsWhen_crumbOf (v : Json) : ReadsWhen (crumbOf v) (IsCrumb v) := by
  have hread : ReadsWhen (crumbOf v) (∃ field, demand v "crumbRequestField" = .ok field ∧
      ∃ content, demand v "crumb" = .ok content ∧ isName field = true) := by
    refine readsWhen_bind_exists (readsWhen_demand v "crumbRequestField") fun field _ => ?_
    refine readsWhen_bind_exists (readsWhen_demand v "crumb") fun content _ => ?_
    cases isName field with
    | true => exact readsWhen_ok rfl
    | false => exact readsWhen_error .wrongKind Bool.noConfusion
  refine hread.congr ⟨?_, ?_⟩
  · rintro ⟨field, hfield, content, hcontent, hname⟩
    exact ⟨⟨field, demand_eq_ok_iff.mp hfield, hname⟩, content, demand_eq_ok_iff.mp hcontent⟩
  · rintro ⟨⟨field, hfield, hname⟩, content, hcontent⟩
    exact ⟨field, demand_eq_ok_iff.mpr hfield, content, demand_eq_ok_iff.mpr hcontent, hname⟩

/-! ### Bodies -/

theorem readsWhen_jsonOf (reply : Reply) :
    ReadsWhen (jsonOf reply) (∃ v, jsonOf reply = .ok v) := by
  unfold jsonOf
  cases reply.body with
  | json v => exact readsWhen_ok ⟨v, rfl⟩
  | text s =>
    dsimp only
    cases Json.read s with
    | ok v => exact readsWhen_ok ⟨v, rfl⟩
    | error problem =>
      cases problem with
      | malformed => exact readsWhen_error .notJson nofun
      | tooManyDigits => exact readsWhen_error .badValue nofun
      | tooDeep => exact readsWhen_error .tooDeep nofun

end Server
end BuildDesk
