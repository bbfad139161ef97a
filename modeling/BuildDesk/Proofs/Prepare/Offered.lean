/-
The branches that are offered while a build is prepared.

A run reads the branches of the chosen job once, and goes on with lists of its own.  When a
branch is removed, the names that are offered are left out of the lists and the names that are
stored are left out of the job file.  As long as no name is stored with blanks around it, that
comes to the same, so the lists are at any time what the job file gives:

* `folder_of_yields` — two states use the job file, and the others keep it;
* `Current`, `IsTrimmed` — the lists are what the job file gives, and its names have no blanks
  around them;
* `current_of_prepareBranch`, `current_of_remove`, `current_of_turn` — the lists are read, they
  are shortened with the job file, and they are left alone;
* `offered_of_reaches` — wherever a run offers branches.
-/
import BuildDesk.Proofs.Aside.Flows
import BuildDesk.Proofs.Prepare.Turn
import BuildDesk.Proofs.Roster.Offered

namespace BuildDesk.Flow.Prepare

open Roster (changeBranches)

variable {c c' : Context} {s s' : Session} {p q : Spot} {answer : Option Json} {v event : Json}
variable {word url b : String} {r : Roster} {f : Folder}

/-! ### States that use the job file -/

/-- The branches are read in this state, or one of them is removed. -/
def Spot.usesFile : Spot → Bool
  | prepareBranch | branchRemoveApply => true
  | _ => false

theorem Spot.not_mem_fileHandlers {handler : String} (hfile : p.usesFile = false)
    (h : p.state.onEnter = some handler ∨ p.state.onSelect = some handler) :
    handler ∉ fileHandlers := by
  rcases p with _ | _ | ⟨_ | _⟩ | _ | _ | _ | _ | _ | _ | _ | _ | _ | _ | _ | _ <;>
    first | exact absurd hfile (by decide) | (rcases h with h | h <;> cases h <;> decide)

/-- The other states keep the folder. -/
theorem folder_of_yields (hfile : p.usesFile = false)
    (h : (eventAt table handlers p.name p.state).Yields c s event c' s') :
    s'.folder = s.folder := by
  refine Step.folder_of_overlooks (fun f => ?_) h
  refine overlooks_eventAt_of_named fun hnamed hfind => overlooks_handler (fun hmem => ?_) hfind
  exact absurd hmem (Spot.not_mem_fileHandlers hfile hnamed)

/-! ### The job file -/

/-- No branch is stored with blanks around its name. -/
def IsTrimmed (f : Folder) : Prop :=
  ∀ r : Roster, r.IsRead f → ∀ url, ∀ b ∈ (r.history? url).getD [], Text.trim b = b

theorem isTrimmed_of_jobs (h : ∀ r : Roster, r.IsRead f → ∀ job ∈ r.jobs, ∀ b ∈ job.branches,
    Text.trim b = b) : IsTrimmed f := by
  intro r hread url b hb
  rw [Roster.history?] at hb
  rcases hjob : r.find? url with _ | job
  · rw [hjob] at hb
    cases hb
  · rw [hjob] at hb
    exact h r hread job (List.mem_of_find?_eq_some hjob) b hb

theorem IsTrimmed.removed (h : IsTrimmed s.folder) (hread : r.IsRead s.folder) (url b : String) :
    IsTrimmed ((changeBranches url (Text.without b) r).kept s).folder := by
  intro r' hread' other name hname
  obtain rfl := (Branches.isRead_removed hread url b).unique hread'
  refine h r hread other name ?_
  rw [Roster.history?_reread, Roster.history?_changeBranches] at hname
  rcases hstored : r.history? other with _ | stored
  · rw [hstored] at hname
    cases hname
  · rw [hstored, Option.map_some, Option.getD_some] at hname
    rw [Option.getD_some]
    split at hname
    · exact (Text.mem_without.mp hname).1
    · exact hname

/-! ### The lists of a run -/

/-- The lists of the context are what the job file gives for the chosen job. -/
def Current (c : Context) (f : Folder) : Prop :=
  ∃ found, Roster.ofFolder f = .ok found
    ∧ c.removable = Branches.removable (Branches.storedFor c.settings c.address found)
    ∧ c.branchChoices = c.removable ++ Settings.defaultBranches

namespace Current

theorem history (h : Current c s.folder) :
    (Branches.history c.settings c.address).Yields s c.removable s := by
  obtain ⟨found, hfound, hremovable, -⟩ := h
  exact Branches.yields_history.mpr ⟨found, hfound, hremovable, rfl⟩

theorem offered (h : Current c s.folder) :
    (Branches.offered c.settings c.address).Yields s c.branchChoices s := by
  obtain ⟨found, hfound, hremovable, hchoices⟩ := h
  exact Branches.yields_offered.mpr ⟨found, hfound, hremovable ▸ hchoices, rfl⟩

theorem choices (h : Current c f) : c.branchChoices = c.removable ++ Settings.defaultBranches := by
  obtain ⟨-, -, -, hchoices⟩ := h
  exact hchoices

theorem nodup (h : Current c f) : (c.branchChoices.map Text.lower).Nodup := by
  obtain ⟨found, -, hremovable, hchoices⟩ := h
  rw [hchoices, hremovable]
  exact Branches.nodup_withDefaults (Branches.isHistory_removable _)

/-- The lists are shortened as the history in the job file is. -/
theorem removed (h : Current c s.folder) (htrimmed : IsTrimmed s.folder)
    (hread : r.IsRead s.folder) (hours : r.belongsTo c.settings = true) (hb : Text.trim b = b)
    (hown : Branches.isDefault b = false) : Current (withoutBranch b c)
      ((changeBranches c.address (Text.without b) r).kept s).folder := by
  obtain ⟨found, hfound, hremovable, hchoices⟩ := h
  obtain rfl : some r = found := Except.ok.inj (Eq.trans (Eq.symm hread) hfound)
  refine ⟨_, Branches.isRead_removed hread c.address b, ?_, ?_⟩
  · show Text.without b c.removable = Branches.removable (Branches.storedFor c.settings c.address _)
    have hsame : (changeBranches c.address (Text.without b) r).reread.belongsTo c.settings = true :=
      hours
    have hstored := htrimmed r hread c.address
    rw [hremovable, Branches.storedFor_some hours, Branches.storedFor_some hsame,
      Branches.getD_history?_removed,
      Branches.removable_without hb (Branches.isUnpadded_of_trimmed hstored b)]
  · show Text.without b c.branchChoices = Text.without b c.removable ++ Settings.defaultBranches
    -- the branch is none of the default ones, so these are all left
    have hdefaults : Text.without b Settings.defaultBranches = Settings.defaultBranches := by
      refine Text.without_of_forall fun name hname hsame => ?_
      have hdefault : Branches.isDefault b = true :=
        List.contains_iff_mem.mpr (hsame ▸ List.mem_map_of_mem hname)
      rw [hown] at hdefault
      cases hdefault
    rw [hchoices, Text.without_append, hdefaults]

end Current

/-! ### One visit -/

/-- Reading the branches makes the lists current, and leaves the session as it is. -/
theorem current_of_prepareBranch (h : (prepareBranch v).Yields c s event c' s') :
    s' = s ∧ (event = .str "branch:select" → Current c' s.folder) := by
  unfold prepareBranch at h
  rw [Step.yields_context_bind] at h
  cases hneed : need c with
  | nothing | mode =>
    simp only [hneed] at h
    rw [Step.yields_change_bind, Step.yields_pure] at h
    obtain ⟨rfl, -, rfl⟩ := h
    exact ⟨rfl, by simp⟩
  | key | job =>
    simp only [hneed] at h
    obtain ⟨rfl, -, rfl⟩ := Step.yields_pure.mp h
    exact ⟨rfl, by simp⟩
  | branch =>
    simp only [hneed] at h
    obtain ⟨choices, _, s₁, hpart, hrest⟩ := Step.yields_bind.mp h
    obtain ⟨hoffered, rfl⟩ := Step.yields_ofDesk.mp hpart
    rw [Step.yields_change_bind] at hrest
    obtain ⟨removable, _, s₂, hpart, hrest⟩ := Step.yields_bind.mp hrest
    obtain ⟨hhistory, rfl⟩ := Step.yields_ofDesk.mp hpart
    rw [Step.yields_change_bind, Step.yields_pure] at hrest
    obtain ⟨rfl, rfl, rfl⟩ := hrest
    obtain ⟨found, hfound, rfl, rfl⟩ := Branches.yields_offered.mp hoffered
    obtain ⟨found', hfound', rfl, rfl⟩ := Branches.yields_history.mp hhistory
    obtain rfl := Except.ok.inj (hfound.symm.trans hfound')
    -- neither list has a name twice
    have hlist := Branches.isHistory_removable
    refine ⟨rfl, fun _ => ⟨found, hfound, Text.distinct_of_nodup (hlist _).tidy.nodup, ?_⟩⟩
    show Text.distinct _ = Text.distinct _ ++ _
    rw [Text.distinct_of_nodup (Branches.nodup_withDefaults (hlist _)),
      Text.distinct_of_nodup (hlist _).tidy.nodup]

/-- Removing a branch keeps the lists current, also when there is nothing to remove. -/
theorem current_of_remove (htrimmed : IsTrimmed s.folder) (hcurrent : Current c s.folder)
    (h : (remove v).Yields c s event c' s') : IsTrimmed s'.folder ∧ Current c' s'.folder := by
  unfold remove at h
  rw [Step.yields_context_bind, Step.yields_change_bind] at h
  split at h
  · dsimp only at h
    obtain ⟨removed, _, s₁, hpart, hrest⟩ := Step.yields_bind.mp h
    obtain ⟨hforget, rfl⟩ := Step.yields_ofDesk.mp hpart
    rcases Roster.forget_yields hforget with ⟨rfl, rfl⟩ | ⟨rfl, hown, r, hread, hours, rfl⟩
    · rw [if_neg Bool.false_ne_true] at hrest
      obtain ⟨rfl, rfl, rfl⟩ := Step.yields_pure.mp hrest
      exact ⟨htrimmed, hcurrent⟩
    · rw [if_pos rfl, Step.yields_change_bind] at hrest
      obtain ⟨_, _, s₂, hpart, hend⟩ := Step.yields_bind.mp hrest
      obtain ⟨hprint, rfl⟩ := Step.yields_ofDesk.mp hpart
      obtain ⟨rfl, rfl, rfl⟩ := Step.yields_pure.mp hend
      have hlogs := onlyLogs_reportRemoved _ _ _ _ hprint
      rw [hlogs.folder_eq]
      rw [Text.trim_trim] at hown ⊢
      exact ⟨htrimmed.removed hread _ _,
        Current.removed (c := { c with pendingRemoval := none }) hcurrent htrimmed hread hours
          (Text.trim_trim _) hown⟩
  · obtain ⟨rfl, rfl, rfl⟩ := Step.yields_pure.mp h
    exact ⟨htrimmed, hcurrent⟩

/-- In this state branches are offered, or one of them is about to be removed. -/
def Spot.offers : Spot → Bool
  | branchSelect | branchRemove | branchRemoveApply => true
  | _ => false

/-- A turn without the job file that leads to where branches are offered comes from there, and
leaves the lists and the chosen job alone. -/
theorem current_of_turn (hfile : p.usesFile = false) (h : Turn p answer c word (.next q) c')
    (hq : q.offers = true) : p.offers = true ∧ (Current c f → Current c' f) := by
  cases h with
  | esc hback =>
    refine ⟨?_, id⟩
    rcases p with _ | _ | ⟨_ | _⟩ | _ | _ | _ | _ | _ | _ | _ | _ | _ | _ | _ | _ <;>
      cases hback <;> first | rfl | cases hq
  | someRemoval | noRemoval | pickRemoval => exact ⟨rfl, id⟩
  | offer | keepBranch | removeBranch => cases hfile
  | _ => cases hq

/-- There is one way to where branches are offered when they have been read. -/
theorem eq_select_of_turn (h : Turn .prepareBranch answer c word (.next q) c')
    (hq : q.offers = true) : word = "branch:select" := by
  cases h with
  | offer => rfl
  | esc hback => cases hback
  | _ => cases hq

/-! ### Whole runs -/

variable {a d : Position Context}

/-- The names in the job file have no blanks around them, and where branches are offered the
lists are current. -/
def Tracks (a : Position Context) : Prop :=
  IsTrimmed a.session.folder ∧
    ∀ q : Spot, q.name = a.state → q.offers = true → Current a.ctx a.session.folder

theorem Tracks.of_moves {event : String} (ha : Tracks a) (h : Moves table handlers a event d) :
    Tracks d := by
  obtain ⟨state, s, hstate, htarget, hyields, hsession⟩ := h
  obtain ⟨p, hp⟩ := Spot.exists_of_state? hstate
  rw [← hp, p.state?_name] at hstate
  obtain rfl := Option.some.inj hstate
  rw [← hp] at hyields
  obtain ⟨answer, ⟨word, goal, hword, hturn, hgoal⟩, -⟩ := visits_of_yields p hyields
  obtain rfl := Json.str.inj hword
  have hnext : ∀ q : Spot, q.name = d.state → goal = .next q := by
    intro q hq
    have hsame : goal.word = q.name := (Option.some.inj (hgoal.symm.trans htarget)).trans hq.symm
    obtain ⟨q', rfl⟩ := Goal.eq_next_of_word (by rw [hsame, q.not_reserved])
    rw [Spot.name_injective hsame]
  have hfolder : d.session.folder = s.folder := by rw [hsession]
  rw [Tracks, hfolder]
  by_cases hfile : p.usesFile = false
  · -- the folder is kept, and so are the lists where they count
    rw [folder_of_yields hfile hyields]
    refine ⟨ha.1, fun q hq hoffers => ?_⟩
    obtain rfl := hnext q hq
    obtain ⟨hfrom, hcurrent⟩ := current_of_turn (f := a.session.folder) hfile hturn hoffers
    exact hcurrent (ha.2 p hp hfrom)
  · cases p with
    | prepareBranch =>
      obtain ⟨rfl, hcurrent⟩ := current_of_prepareBranch (v := .null) hyields
      refine ⟨ha.1, fun q hq hoffers => hcurrent ?_⟩
      obtain rfl := hnext q hq
      rw [eq_select_of_turn hturn hoffers]
    | branchRemoveApply =>
      obtain ⟨htrimmed, hcurrent⟩ :=
        current_of_remove (v := .null) ha.1 (ha.2 .branchRemoveApply hp rfl) hyields
      exact ⟨htrimmed, fun _ _ _ => hcurrent⟩
    | _ => exact absurd rfl hfile

/-- **The branches that are offered are those of the job file.**  Let a run start before any
branches are offered, when no branch is stored with blanks around its name.  Whenever it asks
for the branch, whatever was answered and removed before, the lists are what reading the job
file gives at that moment for the chosen job: the branches that may be removed, and those that
are offered.  These are the ones that may be removed, and then the default ones, no two of them
equal in lower case. -/
theorem offered_of_reaches {c₀ : Context} {s₀ : Session} (hstart : p.offers = false)
    (htrimmed : ∀ r, Roster.load.Yields s₀ (some r) s₀ → ∀ job ∈ r.jobs, ∀ b ∈ job.branches,
      Text.trim b = b)
    (h : Reaches table handlers ⟨p.name, c₀, s₀⟩ a)
    (hasks : a.state = Spot.branchSelect.name) :
    (Branches.offered c₀.settings a.ctx.address).Yields a.session a.ctx.branchChoices a.session
      ∧ (Branches.history c₀.settings a.ctx.address).Yields a.session a.ctx.removable a.session
      ∧ a.ctx.branchChoices = a.ctx.removable ++ Settings.defaultBranches
      ∧ (a.ctx.branchChoices.map Text.lower).Nodup := by
  have hbegins : Tracks ⟨p.name, c₀, s₀⟩ := by
    refine ⟨isTrimmed_of_jobs fun r hread => htrimmed r (Roster.outcome_load_of hread), ?_⟩
    intro q hq hoffers
    rw [Spot.name_injective hq, hstart] at hoffers
    cases hoffers
  have htracks : Tracks a :=
    h.invariant hbegins fun _ _ hx hlead => hlead.1.elim fun _ hmoves => hx.of_moves hmoves
  have hcurrent := htracks.2 .branchSelect hasks.symm rfl
  rw [← (sameGround_of_reaches h).settings]
  exact ⟨hcurrent.offered, hcurrent.history, hcurrent.choices, hcurrent.nodup⟩

/-! ### One removal -/

/-- With branches for the chosen job the run asks for the branch. -/
theorem prepareBranch_offers {choices removable : List String} (hneed : need c = .branch)
    (hoffered : (Branches.offered c.settings c.address).Yields s choices s)
    (hhistory : (Branches.history c.settings c.address).Yields s removable s)
    (hsome : choices.isEmpty = false) : (prepareBranch v).Yields c s (.str "branch:select")
      { c with
        branchChoices := Text.distinct choices, removable := Text.distinct removable } s := by
  unfold prepareBranch
  rw [Step.yields_context_bind, hneed]
  refine Step.yields_bind.mpr ⟨choices, c, s, Step.yields_ofDesk.mpr ⟨hoffered, rfl⟩, ?_⟩
  rw [Step.yields_change_bind]
  refine Step.yields_bind.mpr ⟨removable, _, s, Step.yields_ofDesk.mpr ⟨hhistory, rfl⟩, ?_⟩
  rw [Step.yields_change_bind, Step.yields_pure, hsome]
  exact ⟨rfl, rfl, rfl⟩

/-- A branch that is found in the job file is removed. -/
theorem remove_removes (haddress : c.address ≠ "")
    (hb : Text.trim (c.pendingRemoval.getD "") = b) (hproper : b ≠ "")
    (hforget : (Branches.forget c.settings c.address b).Yields s true s') :
    ∃ s₁, (remove v).Yields c s (.str "remove:done")
      (withoutBranch b { c with pendingRemoval := none }) s₁ := by
  obtain ⟨s₁, hreport⟩ : ∃ s₁, (do
      Console.printOk (← Desk.say Dialog.branchRemoved [("branch", .str b)]) : Desk Unit).Yields
        s' () s₁ := ⟨_, rfl⟩
  unfold remove
  simp only [Step.yields_context_bind, Step.yields_change_bind, hb]
  rw [if_pos (by simp [haddress, hproper])]
  refine ⟨s₁, Step.yields_bind.mpr ⟨true, _, s', Step.yields_ofDesk.mpr ⟨hforget, rfl⟩, ?_⟩⟩
  rw [if_pos rfl, Step.yields_change_bind]
  exact Step.yields_bind.mpr ⟨(), _, s₁, Step.yields_ofDesk.mpr ⟨hreport, rfl⟩,
    Step.yields_pure.mpr ⟨rfl, rfl, rfl⟩⟩

/-- The job "u" is chosen, and a branch is asked for. -/
def choosing : Context where
  settings := Roster.someSettings
  jobs := []
  url := some "u"
  mode := some .branch

/-- The context in which branches of the job are offered. -/
def offering (names : List String) : Context :=
  { choosing with branchChoices := names ++ Settings.defaultBranches, removable := names }

/-- A user picks a branch to remove, in another spelling. -/
def removing (f : Folder) : Session where
  answers := [.value (.str removeBranch), .value (.str " DEV ")]
  folder := f

/-- A roster with two branches of the job. -/
def twoBranches : Roster := Roster.oneJobWith ["dev", "x"]

theorem storable_twoBranches : twoBranches.Storable := Roster.storable_oneJobWith (by decide)

theorem isRead_twoBranches : twoBranches.IsRead (twoBranches.kept {}).folder :=
  Roster.isRead_oneJobWith (by decide)

theorem address_choosing : choosing.address = "u" := by decide

theorem offersTwo (hread : twoBranches.IsRead s.folder) : (prepareBranch .null).Yields choosing s
    (.str "branch:select") (offering ["dev", "x"]) s := by
  have hneed : need choosing = .branch := by
    unfold need
    rw [address_choosing]
    rfl
  have hlist : Branches.removable ((twoBranches.history? "u").getD []) = ["dev", "x"] := by
    decide
  have hours : twoBranches.belongsTo choosing.settings = true := rfl
  have hoffered := Branches.offered_yields hread hours "u"
  have hhistory := Branches.history_yields hread hours "u"
  rw [hlist, ← address_choosing] at hoffered hhistory
  exact prepareBranch_offers hneed hoffered hhistory rfl

theorem removesOne (hread : twoBranches.IsRead s.folder) : ∃ s', (remove .null).Yields
    { offering ["dev", "x"] with pendingRemoval := some "DEV" } s (.str "remove:done")
      (offering ["x"]) s' := by
  have hforget := Branches.outcome_forget_proper (b := "DEV") hread
    (show twoBranches.belongsTo choosing.settings = true from rfl)
    (show twoBranches.history? "u" = some ["dev", "x"] from rfl)
    (by decide) (by decide) (by decide +kernel)
  have hany : (["dev", "x"].any (Text.sameName · "DEV")) = true := by decide
  rw [if_pos hany, if_pos (Roster.storable_forgotten storable_twoBranches "DEV").isEncodable]
    at hforget
  have hleft : withoutBranch "DEV" (offering ["dev", "x"]) = offering ["x"] := by
    have hnames : Text.without "DEV" ["dev", "x"] = ["x"] := by decide
    have hchoices : Text.without "DEV" (["dev", "x"] ++ Settings.defaultBranches)
        = ["x"] ++ Settings.defaultBranches := by decide
    unfold withoutBranch offering
    rw [hnames, hchoices]
  have haddress : (offering ["dev", "x"]).address = "u" := address_choosing
  have hremove := remove_removes (v := .null) (b := "DEV") (s := s)
    (c := { offering ["dev", "x"] with pendingRemoval := some "DEV" })
    (haddress.trans_ne (by decide)) (by decide) (by decide) (haddress.symm ▸ hforget)
  exact hleft ▸ hremove

/-- The branch that is picked is removed, and branches are offered again. -/
theorem reaches_offering : ∃ s : Session, Reaches table handlers
    ⟨Spot.prepareBranch.name, choosing, removing (twoBranches.kept {}).folder⟩
      ⟨Spot.branchSelect.name, offering ["x"], s⟩ := by
  -- the job file is left closed, it is looked at by its lemmas alone
  generalize hfolder : (twoBranches.kept {}).folder = f
  have hread : twoBranches.IsRead f := hfolder ▸ isRead_twoBranches
  have hoffers : (eventAt table handlers Spot.prepareBranch.name prepare).outcome choosing
      (removing f) = ((.ok (.str "branch:select"), offering ["dev", "x"]), removing f) :=
    offersTwo hread
  obtain ⟨s, hkept, hreach⟩ : ∃ s : Session, s.folder = f ∧ Reaches table handlers
      ⟨Spot.prepareBranch.name, choosing, removing f⟩ ⟨Spot.branchRemoveApply.name,
        { offering ["dev", "x"] with pendingRemoval := some "DEV" }, s⟩ :=
    ⟨_, rfl, .head ⟨⟨_, moves_of_outcome (Spot.state?_name .prepareBranch) hoffers rfl⟩, rfl⟩
      (.head (leads_of_outcome rfl rfl) (.single (leads_of_outcome rfl rfl)))⟩
  obtain ⟨s', hremoves⟩ := removesOne (s := s) (hkept.symm ▸ hread)
  have hremoves : (eventAt table handlers Spot.branchRemoveApply.name applyRemoval).outcome
      { offering ["dev", "x"] with pendingRemoval := some "DEV" } s
        = ((.ok (.str "remove:done"), offering ["x"]), s') := hremoves
  exact ⟨_, hreach.tail
    ⟨⟨_, moves_of_outcome (Spot.state?_name .branchRemoveApply) hremoves rfl⟩, rfl⟩⟩

/-- A branch is removed, and then the other one is offered. -/
theorem offered_after_removal : ∃ a, Reaches table handlers
      ⟨Spot.prepareBranch.name, choosing, removing (twoBranches.kept {}).folder⟩ a
    ∧ a.state = Spot.branchSelect.name ∧ a.ctx.removable = ["x"]
    ∧ (Branches.offered Roster.someSettings "u").Yields a.session
      ["x", "development", "staging", "master"] a.session := by
  obtain ⟨s, hreach⟩ := reaches_offering
  have htrimmed : ∀ r, Roster.load.Yields (removing (twoBranches.kept {}).folder) (some r)
      (removing (twoBranches.kept {}).folder) → ∀ job ∈ r.jobs, ∀ b ∈ job.branches,
        Text.trim b = b := by
    intro r hload
    obtain rfl : twoBranches = r := isRead_twoBranches.unique (Roster.load_yields.mp hload).1
    have hnames : ∀ b ∈ ["dev", "x"], Text.trim b = b := by decide
    exact List.forall_mem_cons.mpr ⟨hnames, List.forall_mem_nil _⟩
  have hlists := offered_of_reaches (p := .prepareBranch) rfl htrimmed hreach rfl
  have haddress : (offering ["x"]).address = "u" := address_choosing
  rw [haddress] at hlists
  exact ⟨_, hreach, rfl, rfl, hlists.1⟩

end BuildDesk.Flow.Prepare
