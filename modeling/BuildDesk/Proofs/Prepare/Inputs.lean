/-
The inputs of a build while the preparing flow gathers them.

A run starts with inputs that are fixed, or with none.  `Holds` says for each state of
the flow what the inputs are there: as at the start, or open, once the mode was asked
for and nothing else is given, or filled, when there is a branch or the mode of one's
own parameters.

* `inputs_select` — choosing a job brings back the inputs of the start;
* `arrives_kept` — every turn keeps what holds, and when it leaves the flow, the run is
  cancelled or the inputs are settled;
* `holds_of_reaches` — so it holds wherever a run comes.
-/
import BuildDesk.Proofs.Json.Entries
import BuildDesk.Proofs.Prepare.Turn

namespace BuildDesk.Flow.Prepare

/-- What a context knows about the inputs of the build. -/
@[ext]
structure Inputs where
  branch : Option String := none
  customParams : List (String × String) := []
  defaultBranch : Bool := false
  mode : Option Mode := none
  modeAsked : Bool := false
  branchChoices : List String := []
  removable : List String := []
  pendingKey : Option String := none
  pendingRemoval : Option String := none

/-- The inputs in a context. -/
def Context.inputs (c : Context) : Inputs where
  branch := c.branch
  customParams := c.customParams
  defaultBranch := c.defaultBranch
  mode := c.mode
  modeAsked := c.modeAsked
  branchChoices := c.branchChoices
  removable := c.removable
  pendingKey := c.pendingKey
  pendingRemoval := c.pendingRemoval

/-- A text that is not empty and has no blanks around it. -/
def IsProper (text : String) : Prop := text ≠ "" ∧ Text.trim text = text

/-- Inputs that a run starts with: nothing was asked for, and fixed is a proper branch,
or that the default branch is built, or that no inputs are wanted, or nothing. -/
structure Inputs.IsFresh (i : Inputs) : Prop where
  params : i.customParams = []
  asked : i.modeAsked = false
  choices : i.branchChoices = []
  removable : i.removable = []
  key : i.pendingKey = none
  removal : i.pendingRemoval = none
  branch : ∀ b, i.branch = some b → IsProper b
  single : i.branch = none ∨ i.defaultBranch = false
  mode : i.mode = none ∨ i.mode = some .without ∧ i.branch = none ∧ i.defaultBranch = false

/-- A run may start with nothing. -/
theorem isFresh_empty : ({} : Inputs).IsFresh where
  params := rfl
  asked := rfl
  choices := rfl
  removable := rfl
  key := rfl
  removal := rfl
  branch := nofun
  single := .inl rfl
  mode := .inl rfl

/-- The mode was asked for, and nothing else is given. -/
structure Open (start now : Inputs) : Prop where
  start : start = {}
  asked : now.modeAsked = true
  branch : now.branch = none
  params : now.customParams = []
  default : now.defaultBranch = false
  removal : now.pendingRemoval = none

/-- There is a branch, or the mode of one's own parameters; the names of parameters are
proper, and no two of them are taken for one. -/
structure Filled (start : Inputs) (c : Context) : Prop where
  start : start = {}
  asked : c.modeAsked = true
  default : c.defaultBranch = false
  removal : c.pendingRemoval = none
  source : (c.mode = some .branch ∧ ∃ b, c.branch = some b ∧ IsProper b) ∨
    c.mode = some .custom ∧ c.branch = none
  keys : ∀ key ∈ c.customParams.map Prod.fst, IsProper key
  distinct : c.taken.Nodup

/-- The name is proper and not taken. -/
def IsNew (c : Context) (key : String) : Prop := IsProper key ∧ Text.lower key ∉ c.taken

/-- What the inputs are in a state. -/
def Holds (start : Inputs) (c : Context) : Spot → Prop
  | .entry | .recentMenu | .search _ | .results _ => c.inputs = start ∨ Open start c.inputs
  | .prepareBranch => c.inputs = start ∨ Open start c.inputs ∧ c.mode = some .branch
  | .branchMode => Open start c.inputs
  | .branchSelect | .branchRemove | .branchEntry =>
    Open start c.inputs ∧ c.mode = some .branch
  | .branchRemoveApply =>
    Open start { c.inputs with pendingRemoval := none } ∧ c.mode = some .branch
  | .customConfirm => Filled start c ∧ c.mode = some .branch
  | .customKey | .customCancel => Filled start c
  | .customValue => Filled start c ∧ ∃ key, c.pendingKey = some key ∧ IsNew c key
  | .customMore => Filled start c ∧ c.customParams ≠ []

/-- What the inputs are when a run is complete. -/
inductive Settled (start : Inputs) (c : Context) : Prop
  | fixed (hinputs : c.inputs = start) (hneed : need c = .nothing)
  | without (hstart : start = {}) (hdefault : c.defaultBranch = false)
      (hmode : c.mode = some .without) (hbranch : c.branch = none)
      (hparams : c.customParams = [])
  | filled (hfilled : Filled start c) (hgiven : c.branch ≠ none ∨ c.customParams ≠ [])

/-- What the inputs are where a turn leads.  The flow is left in two ways only. -/
def Arrives (start : Inputs) (c : Context) : Goal → Prop
  | .next p => Holds start c p
  | .out outcome => outcome = .complete ∧ Settled start c ∨ outcome = .exitCommand

variable {start : Inputs} {c c' : Context} {p : Spot} {goal : Goal} {answer : Option Json}
variable {event : String}

/-! ### Choosing a job -/

/-- **Choosing a job brings back the inputs of the start.** -/
theorem inputs_select (hfresh : start.IsFresh) (h : c.inputs = start ∨ Open start c.inputs)
    (url : String) (label : Json) : (c.select url label).inputs = start := by
  unfold Context.select
  rcases h with rfl | h
  · have hasked : c.modeAsked = false := hfresh.asked
    rw [hasked]
    rfl
  · have hasked : c.modeAsked = true := h.asked
    -- what is not forgotten here was not given yet: the default branch and a removal
    rw [hasked, if_pos rfl, h.start]
    have hdefault : c.defaultBranch = false := h.default
    have hremoval : c.pendingRemoval = none := h.removal
    ext1 <;> first | rfl | assumption

/-! ### What is needed next -/

theorem branchText_of_some {b : String} (h : c.branch = some b) : c.branchText = b := by
  rw [Context.branchText, h]
  rfl

theorem branchText_of_none (h : c.branch = none) : c.branchText = "" := by
  rw [Context.branchText, h]
  rfl

theorem branch_eq_none_of_trim (hfresh : start.IsFresh) (h : c.inputs = start)
    (hblank : Text.trim c.branchText = "") : c.branch = none := by
  rcases hbranch : c.branch with _ | b
  · rfl
  · obtain ⟨hne, htrim⟩ := hfresh.branch b (by rw [← h]; exact hbranch)
    rw [branchText_of_some hbranch, htrim] at hblank
    exact absurd hblank hne

/-- No inputs are wanted, or they are given. -/
def Context.IsGiven (c : Context) : Prop :=
  c.mode = some .without ∨ c.defaultBranch = true ∨ Text.trim c.branchText ≠ ""

/-- What is known of a context that needs something, or nothing. -/
inductive Needs (c : Context) : Need → Prop
  | nothing (hgiven : c.IsGiven) : Needs c .nothing
  | key (hmissing : ¬ c.IsGiven) (hmode : c.mode = some .custom) : Needs c .key
  | job (hmissing : ¬ c.IsGiven) (haddress : c.address = "") : Needs c .job
  | mode (hmissing : ¬ c.IsGiven) (hasked : c.modeAsked = false) (hmode : c.mode = none) :
    Needs c .mode
  | branch (hmissing : ¬ c.IsGiven) (hmode : c.modeAsked = true ∨ c.mode ≠ none) :
    Needs c .branch

theorem needs_need (c : Context) : Needs c (need c) := by
  unfold need
  split
  · rename_i hgiven
    exact .nothing (by simpa [Context.IsGiven, or_assoc] using hgiven)
  · rename_i hmissing
    have hmissing : ¬ c.IsGiven := by simpa [Context.IsGiven, or_assoc] using hmissing
    split
    · rename_i hmode
      exact .key hmissing (by simpa using hmode)
    · split
      · rename_i haddress
        exact .job hmissing (by simpa using haddress)
      · split
        · rename_i hmode
          obtain ⟨hasked, hmode⟩ : c.modeAsked = false ∧ c.mode = none := by simpa using hmode
          exact .mode hmissing hasked hmode
        · rename_i hmode
          refine .branch hmissing ?_
          simpa only [Bool.and_eq_true, Bool.not_eq_true', beq_iff_eq, not_and_or,
            Bool.not_eq_false] using hmode

theorem need_eq_nothing_iff : need c = .nothing ↔ c.IsGiven := by
  constructor
  · intro h
    cases h ▸ needs_need c with
    | nothing hgiven => exact hgiven
  · intro hgiven
    generalize hneed : need c = n
    cases hneed ▸ needs_need c with
    | nothing => rfl
    | key hmissing | job hmissing | mode hmissing | branch hmissing =>
      exact absurd hgiven hmissing

theorem not_isGiven (hmode : c.mode ≠ some .without) (hdefault : c.defaultBranch = false)
    (hbranch : c.branch = none) : ¬ c.IsGiven := by
  rintro (hwithout | hbuilt | hnamed)
  · exact hmode hwithout
  · exact absurd (hdefault.symm.trans hbuilt) nofun
  · rw [branchText_of_none hbranch, Text.trim_empty] at hnamed
    exact hnamed rfl

/-! ### Gathering inputs -/

/-- The name of a parameter that is not taken is new as it stands. -/
theorem IsNew.not_mem {key : String} (h : IsNew c key) :
    key ∉ c.customParams.map Prod.fst := by
  intro hmem
  obtain ⟨⟨name, value⟩, hparam, rfl⟩ := List.mem_map.mp hmem
  exact h.2 (List.mem_append_left _ (List.mem_map.mpr ⟨(name, value), hparam, rfl⟩))

/-- Without parameters of one's own no two names can be alike. -/
theorem nodup_taken (h : c.customParams = []) : c.taken.Nodup := by
  rw [Context.taken, h]
  split <;> simp

theorem filled_of_no_params (hstart : start = {}) (hasked : c.modeAsked = true)
    (hdefault : c.defaultBranch = false) (hremoval : c.pendingRemoval = none)
    (hparams : c.customParams = [])
    (hsource : (c.mode = some .branch ∧ ∃ b, c.branch = some b ∧ IsProper b) ∨
      c.mode = some .custom ∧ c.branch = none) : Filled start c where
  start := hstart
  asked := hasked
  default := hdefault
  removal := hremoval
  source := hsource
  keys := by simp [hparams]
  distinct := nodup_taken hparams

/-- A new parameter goes after those that are there. -/
theorem IsNew.put {key : String} (h : IsNew c key) (value : String) :
    Json.put c.customParams key value = c.customParams ++ [(key, value)] :=
  Json.put_of_new value h.not_mem

theorem Filled.add {key : String} (h : Filled start c) (hnew : IsNew c key) (value : String) :
    Filled start { c with
      customParams := Json.put c.customParams key value, pendingKey := none } where
  start := h.start
  asked := h.asked
  default := h.default
  removal := h.removal
  source := h.source
  keys := by
    intro name hname
    rw [hnew.put, List.map_append, List.mem_append] at hname
    rcases hname with hname | hname
    · exact h.keys name hname
    · obtain rfl := List.mem_singleton.mp hname
      exact hnew.1
  distinct := by
    have hdistinct : (Text.lower key :: c.taken).Nodup :=
      List.nodup_cons.mpr ⟨hnew.2, h.distinct⟩
    unfold Context.taken at hdistinct
    unfold Context.taken
    rw [hnew.put, List.map_append, List.append_assoc]
    exact List.perm_middle.nodup_iff.mpr hdistinct

/-- With neither a branch nor a parameter the mode is as good as not chosen. -/
theorem Filled.reopen {mode : Option Mode} (h : Filled start c) (hparams : c.customParams = [])
    (hbranch : c.branchText = "") :
    Open start { c with pendingKey := none, mode := mode }.inputs where
  start := h.start
  asked := h.asked
  branch := by
    rcases h.source with ⟨-, b, hb, hproper⟩ | ⟨-, hnone⟩
    · rw [branchText_of_some hb] at hbranch
      exact absurd hbranch hproper.1
    · exact hnone
  params := hparams
  default := h.default
  removal := h.removal

/-- Asking for the mode opens inputs of which nothing is fixed. -/
theorem open_of_need_mode (hfresh : start.IsFresh) (h : c.inputs = start)
    (hneed : need c = .mode) : Open start { c with modeAsked := true }.inputs := by
  obtain ⟨hmissing, hasked, hmode⟩ : ¬ c.IsGiven ∧ c.modeAsked = false ∧ c.mode = none := by
    cases hneed ▸ needs_need c with
    | mode hmissing hasked hmode => exact ⟨hmissing, hasked, hmode⟩
  obtain ⟨-, hdefault, hblank⟩ : c.mode ≠ some .without ∧ c.defaultBranch = false ∧
      Text.trim c.branchText = "" := by
    simpa [Context.IsGiven] using hmissing
  have hbranch := branch_eq_none_of_trim hfresh h hblank
  subst h
  have hempty : c.inputs = {} := by
    ext1
    · exact hbranch
    · exact hfresh.params
    · exact hdefault
    · exact hmode
    · exact hasked
    · exact hfresh.choices
    · exact hfresh.removable
    · exact hfresh.key
    · exact hfresh.removal
  exact ⟨hempty, rfl, hbranch, hfresh.params, hdefault, hfresh.removal⟩

/-! ### One turn -/

theorem Filled.without_pending (h : Filled start c) :
    Filled start { c with pendingKey := none } :=
  ⟨h.start, h.asked, h.default, h.removal, h.source, h.keys, h.distinct⟩

theorem Filled.branch_ne_none (h : Filled start c) (hmode : c.mode = some .branch) :
    c.branch ≠ none := by
  rcases h.source with ⟨-, b, hb, -⟩ | ⟨hcustom, -⟩
  · simp [hb]
  · simp [hmode] at hcustom

/-- Nothing is needed where the inputs are as at the start; the branch stays as it is. -/
theorem settled_of_ready (hfresh : start.IsFresh) (h : c.inputs = start) :
    { c with branch := if Text.trim c.branchText == "" then none
        else some (Text.trim c.branchText) } = c := by
  rcases hbranch : c.branch with _ | b
  · have hblank : Text.trim c.branchText = "" := by
      rw [branchText_of_none hbranch, Text.trim_empty]
    simp [hblank, ← hbranch]
  · obtain ⟨hne, htrim⟩ := hfresh.branch b (by rw [← h]; exact hbranch)
    simp [branchText_of_some hbranch, htrim, hne, ← hbranch]

/-- A prompt that is cancelled leads back to where less has to be given. -/
theorem arrives_back (hback : p.back? = some goal) (hp : Holds start c p) :
    Arrives start c goal := by
  cases p with
  | entry | prepareBranch | branchRemoveApply | customCancel => cases hback
  | recentMenu =>
    cases hback
    exact .inr rfl
  | search way =>
    cases way with
    | recent =>
      cases hback
      exact hp
    | direct =>
      cases hback
      exact .inr rfl
  | results way | branchRemove | customKey =>
    cases hback
    exact hp
  | branchMode =>
    cases hback
    exact .inr hp
  | branchSelect | branchEntry | customValue | customMore =>
    cases hback
    exact hp.1
  | customConfirm =>
    cases hback
    exact .inl ⟨rfl, .filled hp.1 (.inl (hp.1.branch_ne_none hp.2))⟩

/-- **Every turn keeps what holds.** -/
theorem arrives_kept (hfresh : start.IsFresh) : Kept (Arrives start) := by
  intro p answer c event goal c' h hp
  cases h with
  | esc hback => exact arrives_back hback hp
  | showRecent | searchFirst | searchAll | searchAgain | searchSeveral | resultsAgain => exact hp
  | @pickRecent v c job => exact .inl (inputs_select hfresh hp job.url (recentLabel c job))
  | @searchOne way v c job =>
    exact .inl (inputs_select (c := { c with query := typed v }) hfresh hp job.url job.displayName)
  | @pickResult way v c job => exact .inl (inputs_select hfresh hp job.url job.displayName)
  | modeWithout => exact .inl ⟨rfl, .without hp.start hp.default rfl rfl rfl⟩
  | modeCustom =>
    exact filled_of_no_params hp.start rfl hp.default hp.removal hp.params (.inr ⟨rfl, rfl⟩)
  | modeBranch =>
    exact .inr ⟨⟨hp.start, rfl, hp.branch, hp.params, hp.default, hp.removal⟩, rfl⟩
  | @ready c hneed =>
    rcases hp with hp | ⟨hopen, hmode⟩
    · rw [settled_of_ready hfresh hp]
      exact .inl ⟨rfl, .fixed hp hneed⟩
    · -- with the mode of a branch nothing but a branch will do
      have hmissing := not_isGiven (by simp [hmode]) hopen.default hopen.branch
      exact absurd (need_eq_nothing_iff.mp hneed) hmissing
  | @needKey c hneed =>
    cases hneed ▸ needs_need c with
    | key hmissing hcustom =>
      rcases hp with rfl | ⟨-, hmode⟩
      · have hmode : c.mode = none ∨ c.mode = some .without := hfresh.mode.imp_right And.left
        simp [hcustom] at hmode
      · simp [hcustom] at hmode
  | needJob hneed => exact hp.imp_right And.left
  | @needMode c hneed =>
    rcases hp with hp | ⟨-, hmode⟩
    · exact open_of_need_mode hfresh hp hneed
    · cases hneed ▸ needs_need c with
      | mode hmissing hasked hnone => simp [hnone] at hmode
  | @offer c _ _ hneed | @offerNone c _ _ hneed =>
    rcases hp with rfl | ⟨hopen, hmode⟩
    · -- at the start a branch is asked for only after the mode, or when the mode is fixed;
      -- but the one mode that can be fixed wants no inputs
      cases hneed ▸ needs_need c with
      | branch hmissing hmode =>
        have hasked : c.modeAsked = false := hfresh.asked
        have hnone : c.mode ≠ none := hmode.resolve_left (by simp [hasked])
        have hwithout : c.mode = some .without := (hfresh.mode.resolve_left hnone).1
        exact absurd (.inl hwithout) hmissing
    · exact ⟨⟨hopen.start, hopen.asked, hopen.branch, hopen.params, hopen.default,
        hopen.removal⟩, hmode⟩
  | otherBranch | someRemoval | branchAgain | keyAgain => exact hp
  | pickBranch hname =>
    obtain ⟨hopen, hmode⟩ := hp
    refine ⟨filled_of_no_params hopen.start hopen.asked hopen.default hopen.removal
      hopen.params ?_, hmode⟩
    exact .inl ⟨hmode, _, rfl, hname, Text.trim_trim _⟩
  | noRemoval | pickRemoval | keepBranch | removeBranch =>
    obtain ⟨hopen, hmode⟩ := hp
    exact ⟨⟨hopen.start, hopen.asked, hopen.branch, hopen.params, hopen.default, rfl⟩, hmode⟩
  | typeBranch hname =>
    obtain ⟨hopen, hmode⟩ := hp
    refine ⟨filled_of_no_params hopen.start hopen.asked hopen.default hopen.removal
      hopen.params ?_, hmode⟩
    exact .inl ⟨hmode, _, rfl, hname, trim_typed _⟩
  | more hwhere =>
    rcases hwhere with rfl | rfl
    · exact hp.1
    · exact hp.1
  | enough hwhere =>
    rcases hwhere with rfl | rfl
    · exact .inl ⟨rfl, .filled hp.1 (.inl (hp.1.branch_ne_none hp.2))⟩
    · exact .inl ⟨rfl, .filled hp.1 (.inr hp.2)⟩
  | typeKey hname hnew =>
    refine ⟨⟨hp.start, hp.asked, hp.default, hp.removal, hp.source, hp.keys, hp.distinct⟩, ?_⟩
    exact ⟨_, rfl, ⟨hname, trim_typed _⟩, hnew⟩
  | valueAgain => exact hp.1
  | typeValue hkey hname =>
    obtain ⟨hfilled, key, hpending, hnew⟩ := hp
    obtain rfl := Option.some.inj (hpending.symm.trans hkey)
    refine ⟨hfilled.add hnew _, ?_⟩
    rw [hnew.put]
    exact List.append_ne_nil_of_right_ne_nil _ (List.cons_ne_nil _ _)
  | cancelDone hgiven =>
    refine .inl ⟨rfl, .filled (Filled.without_pending hp) ?_⟩
    rcases hgiven with hparams | hbranch
    · exact .inr hparams
    · exact .inl fun hnone => hbranch (branchText_of_none hnone)
  | cancelMode hparams hbranch => exact Filled.reopen hp hparams hbranch

/-! ### Whole runs -/

/-- A run may be taken up where the job is found, and where a found job is prepared. -/
def Spot.begins : Spot → Bool
  | entry | recentMenu | search _ | results _ | prepareBranch => true
  | _ => false

theorem arrives_start (hp : p.begins = true) {s : Session} :
    HoldsAt (Arrives c.inputs) ⟨p.name, c, s⟩ := by
  refine ⟨.next p, rfl, ?_⟩
  cases p with
  | entry | recentMenu | search | results | prepareBranch => exact .inl rfl
  | _ => cases hp

/-- **Wherever a run comes, the inputs are as its state demands.** -/
theorem holds_of_reaches {s : Session} {a : Position Context} (hfresh : c.inputs.IsFresh)
    (hp : p.begins = true) (h : Reaches table handlers ⟨p.name, c, s⟩ a) :
    HoldsAt (Arrives c.inputs) a :=
  (arrives_kept hfresh).holdsAt_of_reaches h (arrives_start hp)

end BuildDesk.Flow.Prepare
