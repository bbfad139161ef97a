/-
Default branches in the histories of jobs.

The branches that are offered anyway are recorded like any others.  They take a place among the
ten names of a history, although they are left out of what is offered for removal:

* `stands_of_records` — after any recordings a history has the ten names recorded latest,
  default branches among them;
* `without_default` — a default branch taken out of a history makes no difference to what may
  be removed;
* `removable_push_default` — so one that is recorded may cost the oldest names their place, and
  changes nothing else of it;
* `defaults_stored` — recording one more is no different; it costs the oldest of ten names
  its place.
-/
import BuildDesk.Proofs.Roster.Offered

namespace BuildDesk.Branches

variable {settings : Settings} {r : Roster} {s : Session} {url name : String}
variable {stored : List String}

/-- The names that calls record for a job. -/
def recordedFor (url : String) (calls : List Call) : List String :=
  (callsFor url calls).filterMap (Call.recorded? Text.isEncodable)

/-- The names that are not offered anyway. -/
def ownOf (stored : List String) : List String := stored.filter fun b => !isDefault b

/-! ### Tidy histories with default branches -/

theorem IsRecord.tidy {call : Call} (hcall : call.IsRecord) {history : List String}
    (h : Text.IsTidy history) : Text.IsTidy (call.on Text.isEncodable history).1 := by
  cases call with
  | record url branch =>
    exact recordIn_keeps h fun hname => h.toFront (Text.trim_trim branch) hname 10
  | forget url branch => exact hcall.elim

theorem removable_eq (h : Text.IsTidy stored) : removable stored = ownOf stored := by
  rw [removable, cleaned_eq h]
  exact Text.distinct_of_nodup (h.sublist List.filter_sublist).nodup

/-- A default branch is none of those that may be removed, however it is spelled. -/
theorem without_default (hname : isDefault name = true) (stored : List String) :
    ownOf (Text.without name stored) = ownOf stored := by
  rw [ownOf, ownOf, Text.without, List.filter_filter]
  refine List.filter_congr fun b _ => ?_
  cases hown : isDefault b with
  | true => rfl
  | false =>
    rw [Bool.not_false, Bool.true_and, Bool.not_eq_true', ← Bool.not_eq_true, Text.sameName_iff]
    intro hsame
    rw [isDefault_congr hsame, hname] at hown
    cases hown

theorem ownOf_toFront (hname : isDefault name = true) (stored : List String) :
    ownOf ((name :: Text.without name stored).take 10)
      = ownOf ((Text.without name stored).take 9) := by
  rw [List.take_succ_cons, ownOf, List.filter_cons_of_neg (by rw [hname]; exact Bool.false_ne_true)]
  rfl

/-- Where there is room for a default branch nothing is lost. -/
theorem ownOf_roomy (hname : isDefault name = true) (hlength : stored.length ≤ 10)
    (hroom : stored.length < 10 ∨ ∃ b ∈ stored, Text.sameName b name = true) :
    ownOf ((Text.without name stored).take 9) = ownOf stored := by
  have hshort : (Text.without name stored).length ≤ 9 := by
    rcases hroom with hfew | ⟨b, hb, hsame⟩
    · exact (List.length_filter_le _ _).trans (Nat.le_of_lt_succ hfew)
    · have hless : (Text.without name stored).length < stored.length :=
        List.length_filter_lt_length_iff_exists.mpr ⟨b, hb, by rw [hsame]; exact Bool.false_ne_true⟩
      omega
  rw [List.take_of_length_le hshort, without_default hname]

/-- Ten names that are none of a default branch lose the oldest one to it. -/
theorem ownOf_full (hlength : stored.length = 10)
    (hnone : ∀ b ∈ stored, ¬ Text.sameName b name = true) :
    ownOf ((Text.without name stored).take 9) = ownOf stored.dropLast := by
  rw [Text.without_of_forall fun b hb hlower => hnone b hb (Text.sameName_iff.mpr hlower),
    List.dropLast_eq_take, hlength]

/-- A default branch can be written, whatever its spelling. -/
theorem isEncodable_default (hname : isDefault name = true) : Text.isEncodable name = true := by
  have hall : ∀ key ∈ Settings.defaultBranches.map Text.lower, Text.isEncodable key = true := by
    decide
  exact Text.encodable_of_lower (hall _ (List.contains_iff_mem.mp hname))

theorem isDefault_empty : isDefault "" = false := by decide

/-- After recordings the history of a job has the ten names recorded latest for it. -/
theorem stands_of_records {now : Int} {jobs : List Job}
    (hfresh : Roster.fresh settings now jobs = .ok r)
    (hshaped : ∀ job ∈ jobs, job.IsShaped) (hnone : ∀ job ∈ jobs, job.branches = [])
    {s₀ : Session} (hsaved : (Roster.save r).Yields s₀ () s)
    {calls : List Call} (hcalls : ∀ call ∈ calls, call.IsRecord) {job : Job}
    (hjob : r.find? url = some job) :
    ∃ r' : Roster, r'.Stands (runAll settings calls s).1.folder ∧ r'.belongsTo settings = true
      ∧ Each Text.IsTidy r'.history?
      ∧ r'.history? url = some (Text.latest 10 (recordedFor url calls)) := by
  obtain ⟨stamp, rfl⟩ := Roster.fresh_eq hfresh
  have htidy : Each Text.IsTidy
      (Roster.history? ⟨settings.url, settings.user, stamp, jobs, []⟩) := by
    intro url history hhistory
    rw [Roster.history?_eq_nil hnone hhistory]
    exact Text.isTidy_nil
  have hstands := Roster.stands_of_save hshaped hsaved
  rw [← Roster.history?_reread] at htidy
  obtain ⟨r', hstands', hours, htidy', hfollows⟩ := follows_of_kept hstands
    (Roster.belongsTo_self settings stamp _ _) htidy
    (fun call hcall r s hr hrs hall => by
      cases call with
      | record url branch => exact answers_record hr hrs hall url branch
      | forget url branch => exact (hcalls _ hcall).elim)
    (fun call hcall history hhistory => IsRecord.tidy (hcalls call hcall) hhistory)
  have hknown := Roster.history?_of_find? hjob
  rw [Roster.history?_eq_nil hnone hknown, ← Roster.history?_reread] at hknown
  refine ⟨r', hstands', hours, htidy', ((hfollows url).2 [] hknown).1.trans ?_⟩
  have hrecords : ∀ call ∈ callsFor url calls, call.IsRecord := fun call hcall =>
    hcalls call (List.mem_filter.mp hcall).1
  exact congrArg some (historyAfter_of_records hrecords [])

/-- Recording a default branch once more puts it to the front of ten. -/
theorem record_default (h : r.Stands s.folder) (hours : r.belongsTo settings = true)
    (htidy : Each Text.IsTidy r.history?) (hstored : r.history? url = some stored)
    {branch : String} (hdefault : isDefault (Text.trim branch) = true) :
    ∃ s', (record settings url branch).Yields s () s'
      ∧ (∃ r' : Roster, Roster.load.Yields s' (some r') s' ∧ r'.history? url
        = some ((Text.trim branch :: Text.without (Text.trim branch) stored).take 10))
      ∧ (history settings url).Yields s'
        (ownOf ((Text.without (Text.trim branch) stored).take 9)) s' := by
  have hproper : Text.trim branch ≠ "" := by
    intro hempty
    rw [hempty, isDefault_empty] at hdefault
    cases hdefault
  have henc := isEncodable_default hdefault
  obtain ⟨job, hjob, rfl⟩ := Option.map_eq_some_iff.mp hstored
  have hrecord := h.outcome_record hours url branch
  rw [if_neg (by simp [hproper, hjob]), if_pos henc] at hrecord
  have hstorable : (Roster.changeBranches url (push (Text.trim branch)) r).Storable :=
    Roster.storable_recorded h.storable henc
  have hstands := Roster.Stands.kept h.reachable hstorable
  have hhistory : (Roster.changeBranches url (push (Text.trim branch)) r).reread.history? url
      = some ((Text.trim branch :: Text.without (Text.trim branch) job.branches).take 10) := by
    rw [Roster.history?_reread, Roster.history?_changeBranches, hstored, Option.map_some,
      if_pos rfl, push_eq (htidy url _ hstored)]
  refine ⟨_, hrecord, ⟨_, hstands.outcome_load, hhistory⟩, ?_⟩
  have hshown := history_yields hstands.isRead hours url
  rwa [hhistory, Option.getD_some,
    removable_eq ((htidy url _ hstored).toFront (Text.trim_trim branch) hproper 10),
    ownOf_toFront hdefault] at hshown

/-- **Default branches are stored like others.**  Let the job file hold a fresh roster without a
history, and let any calls follow that record branches.  Then each job known has the ten names
recorded latest for it, default branches among them, and those of them that are no default
branches are offered for removal.  A default branch that is recorded next never fails to be
stored: it comes to the front of the ten.  The branches offered for removal stay as they are
when it was among the ten before or when there were fewer; otherwise the oldest of the ten is
given up for it. -/
theorem defaults_stored {now : Int} {jobs : List Job}
    (hfresh : Roster.fresh settings now jobs = .ok r) (hshaped : ∀ job ∈ jobs, job.IsShaped)
    (hnone : ∀ job ∈ jobs, job.branches = []) {s₀ s₁ : Session}
    (hsaved : (Roster.save r).Yields s₀ () s₁) {calls : List Call}
    (hcalls : ∀ call ∈ calls, call.IsRecord) (hs : s = (runAll settings calls s₁).1)
    {job : Job} (hjob : r.find? url = some job)
    (hstored : stored = Text.latest 10 (recordedFor url calls)) :
    (∃ r' : Roster, Roster.load.Yields s (some r') s ∧ r'.history? url = some stored)
      ∧ (history settings url).Yields s (ownOf stored) s
      ∧ ∀ branch, isDefault (Text.trim branch) = true →
        ∃ s', (record settings url branch).Yields s () s'
          ∧ (∃ r' : Roster, Roster.load.Yields s' (some r') s' ∧ r'.history? url
            = some ((Text.trim branch :: Text.without (Text.trim branch) stored).take 10))
          ∧ (stored.length < 10 ∨ (∃ b ∈ stored, Text.sameName b (Text.trim branch) = true) →
            (history settings url).Yields s' (ownOf stored) s')
          ∧ (stored.length = 10 → (∀ b ∈ stored, ¬ Text.sameName b (Text.trim branch) = true) →
            (history settings url).Yields s' (ownOf stored.dropLast) s') := by
  obtain ⟨r', hstands, hours, htidy, hhistory⟩ :=
    stands_of_records hfresh hshaped hnone hsaved hcalls hjob
  rw [← hs] at hstands
  rw [← hstored] at hhistory
  have hlength : stored.length ≤ 10 := by
    rw [hstored]
    exact List.length_take_le 10 _
  refine ⟨⟨r', hstands.outcome_load, hhistory⟩, ?_, fun branch hdefault => ?_⟩
  · have hshown := history_yields hstands.isRead hours url
    rwa [hhistory, Option.getD_some, removable_eq (htidy url _ hhistory)] at hshown
  · obtain ⟨s', hrecord, hkept, hshown⟩ := record_default hstands hours htidy hhistory hdefault
    refine ⟨s', hrecord, hkept, fun hroom => ?_, fun hfull hnew => ?_⟩
    · rwa [ownOf_roomy hdefault hlength hroom] at hshown
    · rwa [ownOf_full hfull hnew] at hshown

/-! ### Ten branches and a default one -/

/-- Ten branches are recorded one after another. -/
def tenRecords : List Call := (List.range 10).map fun n => .record "u" (toString n)

theorem isRecord_tenRecords : ∀ call ∈ tenRecords, call.IsRecord :=
  List.forall_mem_map.mpr fun _ _ => trivial

/-- The eleventh is a default branch, and the first one is no longer offered. -/
theorem defaults_stored_full :
    let s := (runAll Roster.someSettings tenRecords (Roster.oneJob.kept {})).1
    (history Roster.someSettings "u").Yields s ["9", "8", "7", "6", "5", "4", "3", "2", "1", "0"] s
      ∧ ∃ s', (record Roster.someSettings "u" " Master ").Yields s () s'
        ∧ (history Roster.someSettings "u").Yields s'
          ["9", "8", "7", "6", "5", "4", "3", "2", "1"] s' := by
  intro s
  have hten : Text.latest 10 (recordedFor "u" tenRecords)
      = ["9", "8", "7", "6", "5", "4", "3", "2", "1", "0"] := by decide
  have hall : ownOf ["9", "8", "7", "6", "5", "4", "3", "2", "1", "0"]
      = ["9", "8", "7", "6", "5", "4", "3", "2", "1", "0"] := by decide
  have hnew : ∀ b ∈ ["9", "8", "7", "6", "5", "4", "3", "2", "1", "0"],
      ¬ Text.sameName b (Text.trim " Master ") = true := by decide
  obtain ⟨-, hbefore, hrecord⟩ := defaults_stored Roster.fresh_oneJob Roster.isShaped_oneJob
    (List.forall_mem_cons.mpr ⟨rfl, List.forall_mem_nil _⟩) Roster.save_oneJob
    isRecord_tenRecords (s := s) rfl (show Roster.oneJob.find? "u" = some _ from rfl) hten.symm
  obtain ⟨s', hdone, -, -, hafter⟩ := hrecord " Master " (by decide)
  have hleft : ownOf (["9", "8", "7", "6", "5", "4", "3", "2", "1", "0"] : List String).dropLast
      = ["9", "8", "7", "6", "5", "4", "3", "2", "1"] := by decide
  rw [hall] at hbefore
  exact ⟨hbefore, s', hdone, hleft ▸ hafter rfl hnew⟩

/-- A default branch that is recorded is stored. -/
theorem stored_default :
    let s := (runAll Roster.someSettings [.record "u" "master"] (Roster.oneJob.kept {})).1
    isDefault "master" = true ∧ ∃ r' : Roster, Roster.load.Yields s (some r') s
      ∧ r'.history? "u" = some ["master"] := by
  intro s
  have hcalls : ∀ call ∈ [Call.record "u" "master"], call.IsRecord :=
    List.forall_mem_singleton.mpr trivial
  obtain ⟨r', hstands, -, -, hhistory⟩ := stands_of_records Roster.fresh_oneJob
    Roster.isShaped_oneJob (List.forall_mem_cons.mpr ⟨rfl, List.forall_mem_nil _⟩)
    Roster.save_oneJob hcalls (show Roster.oneJob.find? "u" = some _ from rfl)
  have hlatest : Text.latest 10 (recordedFor "u" [.record "u" "master"]) = ["master"] := by
    decide
  exact ⟨by decide, r', hstands.outcome_load, hhistory.trans (congrArg some hlatest)⟩

end BuildDesk.Branches
