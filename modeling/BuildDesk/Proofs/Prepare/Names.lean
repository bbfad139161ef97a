/-
The names of the parameters of a build.

The build server takes parameters by name, so two names that are alike would lose a
value.  While a run gathers parameters their names are proper and distinct up to case,
together with the name of the parameter that receives the branch:

* `properNames_of_holds`, `Settled.properNames` — it holds in every state, and at the end;
* `Settled.parameters_of_branch`, `parameters_of_no_branch` — so the parameters of the
  build are those that were given, each with its own value;
* `names_of_reaches` — all of it for a whole run.
-/
import BuildDesk.Proofs.Prepare.Inputs
import Mathlib.Data.List.Nodup

namespace BuildDesk.Flow.Prepare

/-- The names of the parameters that are given: those of one's own, and with a branch that
of the parameter that receives it. -/
def Context.names (c : Context) : List String :=
  c.customParams.map Prod.fst ++ c.branch.toList.map fun _ => c.branchParam

/-- Names that are proper, no two of them equal in lower case. -/
def ProperNames (names : List String) : Prop :=
  (∀ name ∈ names, IsProper name) ∧ (names.map Text.lower).Nodup

variable {start : Inputs} {c c' : Context} {p : Spot} {b : String}

theorem taken_eq_names (h : ∀ b, c.branch = some b → b ≠ "") :
    c.taken = c.names.map Text.lower := by
  unfold Context.taken Context.names
  rcases hbranch : c.branch with _ | b
  · simp [branchText_of_none hbranch, Function.comp_def]
  · simp [branchText_of_some hbranch, h b hbranch, Function.comp_def]

theorem properNames_of_no_params (hparam : IsProper c.branchParam) (h : c.customParams = []) :
    ProperNames c.names := by
  unfold Context.names
  rw [h]
  rcases c.branch with _ | b
  · simp [ProperNames]
  · simpa [ProperNames] using hparam

theorem Filled.branch_ne_empty (h : Filled start c) (hb : c.branch = some b) : b ≠ "" := by
  rcases h.source with ⟨-, b', hb', hproper⟩ | ⟨-, hnone⟩
  · obtain rfl := Option.some.inj (hb.symm.trans hb')
    exact hproper.1
  · simp [hb] at hnone

theorem Filled.properNames (hparam : IsProper c.branchParam) (h : Filled start c) :
    ProperNames c.names := by
  refine ⟨?_, ?_⟩
  · intro name hname
    rcases List.mem_append.mp hname with hname | hname
    · exact h.keys name hname
    · obtain ⟨-, -, rfl⟩ := List.mem_map.mp hname
      exact hparam
  · rw [← taken_eq_names fun b hb => h.branch_ne_empty hb]
    exact h.distinct

theorem properNames_of_holds (hfresh : start.IsFresh) (hparam : IsProper c.branchParam)
    (h : Holds start c p) : ProperNames c.names := by
  have hopen : ∀ {i : Inputs}, Open start i → i.customParams = c.customParams →
      ProperNames c.names := by
    intro i hopen hsame
    exact properNames_of_no_params hparam (hsame ▸ hopen.params)
  cases p with
  | entry | recentMenu | search | results =>
    rcases h with rfl | h
    · exact properNames_of_no_params hparam hfresh.params
    · exact hopen h rfl
  | prepareBranch =>
    rcases h with rfl | h
    · exact properNames_of_no_params hparam hfresh.params
    · exact hopen h.1 rfl
  | branchMode => exact hopen h rfl
  | branchSelect | branchRemove | branchEntry | branchRemoveApply => exact hopen h.1 rfl
  | customKey | customCancel => exact Filled.properNames hparam h
  | customConfirm | customValue | customMore => exact h.1.properNames hparam

theorem Settled.properNames (hfresh : start.IsFresh) (hparam : IsProper c.branchParam)
    (h : Settled start c) : ProperNames c.names := by
  rcases h with ⟨rfl, -⟩ | ⟨-, -, -, -, hparams⟩ | ⟨hfilled, -⟩
  · exact properNames_of_no_params hparam hfresh.params
  · exact properNames_of_no_params hparam hparams
  · exact hfilled.properNames hparam

/-! ### The parameters of the build -/

theorem parameters_of_some_branch (hb : c.branch = some b) (hne : b ≠ "")
    (hmode : c.mode ≠ some .without) (hdefault : c.defaultBranch = false)
    (hdistinct : c.taken.Nodup) : c.parameters = (c.branchParam, b) :: c.customParams := by
  -- names that differ in lower case differ, so none of them overwrites the branch
  have hnames : (c.customParams.map Prod.fst ++ [c.branchParam]).Nodup := by
    rw [taken_eq_names fun b' hb' => by simp_all] at hdistinct
    have hnodup := List.Nodup.of_map Text.lower hdistinct
    rwa [Context.names, hb] at hnodup
  have hfold := Json.foldl_put_of_new c.customParams [(c.branchParam, b)]
    (List.perm_append_comm.nodup_iff.mp (by simpa using hnames))
  unfold Context.parameters
  simpa [hmode, hdefault, branchText_of_some hb, hne] using hfold

theorem parameters_of_no_branch (hb : c.branch = none) (hdistinct : c.taken.Nodup) :
    c.parameters = c.customParams := by
  unfold Context.parameters
  split
  · rfl
  · have hnames : ((([] : List (String × String)) ++ c.customParams).map Prod.fst).Nodup := by
      rw [taken_eq_names (by simp [hb]), Context.names, hb] at hdistinct
      simpa using List.Nodup.of_map Text.lower hdistinct
    simpa [branchText_of_none hb] using Json.foldl_put_of_new c.customParams [] hnames

theorem Settled.parameters_of_branch (hfresh : start.IsFresh) (h : Settled start c)
    (hb : c.branch = some b) : c.parameters = (c.branchParam, b) :: c.customParams := by
  rcases h with ⟨rfl, -⟩ | ⟨-, -, -, hnone, -⟩ | ⟨hfilled, -⟩
  · have hne : c.branch ≠ none := by simp [hb]
    have hmode : c.mode ≠ some .without := by
      rcases hfresh.mode with hmode | ⟨-, hnone, -⟩
      · intro hwithout
        exact absurd (hmode.symm.trans hwithout) nofun
      · exact absurd hnone hne
    exact parameters_of_some_branch hb (hfresh.branch b hb).1 hmode
      (hfresh.single.resolve_left hne) (nodup_taken hfresh.params)
  · simp [hb] at hnone
  · have hmode : c.mode ≠ some .without := by
      rcases hfilled.source with ⟨hmode, -⟩ | ⟨hmode, -⟩ <;> simp [hmode]
    exact parameters_of_some_branch hb (hfilled.branch_ne_empty hb) hmode hfilled.default
      hfilled.distinct

/-! ### Whole runs -/

variable {a d : Position Context} {event : String}

/-- The name for which a value is asked goes with the names that are given. -/
theorem properNames_pending {key : String} (hparam : IsProper c.branchParam)
    (hfilled : Filled start c) (hnew : IsNew c key) : ProperNames (key :: c.names) := by
  obtain ⟨hproper, hdistinct⟩ := hfilled.properNames hparam
  refine ⟨?_, ?_⟩
  · intro name hname
    rcases List.mem_cons.mp hname with rfl | hname
    · exact hnew.1
    · exact hproper name hname
  · rw [List.map_cons]
    refine List.nodup_cons.mpr ⟨?_, hdistinct⟩
    rw [← taken_eq_names fun b hb => hfilled.branch_ne_empty hb]
    exact hnew.2

theorem eq_customValue_of_retry {answer : Option Json} {goal : Goal}
    (h : Turn p answer c "param:value_retry" goal c') : p = .customValue := by
  generalize hevent : "param:value_retry" = event at h
  cases h with
  | valueAgain => rfl
  | _ => exact absurd hevent (by decide)

/-- A value that is typed goes to the name for which it is asked. -/
theorem value_of_moves {key : String} (hstate : a.state = Spot.customValue.name)
    (hkey : a.ctx.pendingKey = some key) (hnew : IsNew a.ctx key)
    (h : Moves table handlers a event d) :
    ∃ v, a.session.answers = .value v :: d.session.answers ∧
      (event = "esc" ∧ v.isNull = true ∧ d.ctx = a.ctx ∨
        event = "param:added" ∧
          d.ctx.customParams = a.ctx.customParams ++ [(key, typed v)]) := by
  obtain ⟨p, answer, goal, hp, -, hturn, hanswers⟩ := turn_of_moves h
  obtain rfl := Spot.name_injective (hp.trans hstate)
  generalize hctx : a.ctx = c at hturn hkey hnew
  generalize hctx' : d.ctx = c' at hturn
  cases hturn with
  | @esc _ _ v _ hback hnull => exact ⟨v, hanswers, .inl ⟨rfl, hnull, rfl⟩⟩
  | valueAgain hnone =>
    -- a value is typed in vain only when no name waits for it
    rw [hkey] at hnone
    exact absurd hnone hnew.1.1
  | @typeValue v c key' hkey' =>
    obtain rfl := Option.some.inj (hkey.symm.trans hkey')
    exact ⟨v, hanswers, .inr ⟨rfl, hnew.put (typed v)⟩⟩
  | more hwhere | enough hwhere => rcases hwhere with h | h <;> cases h

/-- **No parameter is lost.**  Wherever a run comes, the names that are given are proper
and distinct up to case.  When a value is asked for, its name is a further such name,
and the value that is typed is put after those that are given.  When the run is
complete, the parameter of the branch has the branch as its value. -/
theorem names_of_reaches {c₀ : Context} (hfresh : c₀.inputs.IsFresh)
    (hparam : IsProper c₀.branchParam) (hbegins : p.begins = true) {s₀ : Session}
    (h : Reaches table handlers ⟨p.name, c₀, s₀⟩ a) :
    ProperNames a.ctx.names ∧
    (a.state = Spot.customValue.name → ∃ key, a.ctx.pendingKey = some key ∧
      ProperNames (key :: a.ctx.names) ∧
      ∀ event d, Moves table handlers a event d →
        ∃ v, a.session.answers = .value v :: d.session.answers ∧
          (event = "esc" ∧ v.isNull = true ∧ d.ctx = a.ctx ∨ event = "param:added" ∧
            d.ctx.customParams = a.ctx.customParams ++ [(key, typed v)])) ∧
    (∀ event d, Moves table handlers a event d → event ≠ "param:value_retry") ∧
    ∀ d, Ends table handlers a .complete d → ProperNames d.ctx.names ∧
      ∀ branch, d.ctx.branch = some branch →
        d.ctx.parameters.lookup c₀.branchParam = some branch := by
  have hholds := holds_of_reaches hfresh hbegins h
  have hground := sameGround_of_reaches h
  have hparam_a : IsProper a.ctx.branchParam := hground.branchParam ▸ hparam
  have hvalue : a.state = Spot.customValue.name → Filled c₀.inputs a.ctx ∧
      ∃ key, a.ctx.pendingKey = some key ∧ IsNew a.ctx key :=
    fun hstate => hholds.spot hstate.symm
  obtain ⟨q, hq⟩ := exists_spot_of_reaches h ⟨p, rfl⟩
  refine ⟨properNames_of_holds hfresh hparam_a (hholds.spot hq), ?_, ?_, ?_⟩
  · intro hstate
    obtain ⟨hfilled, key, hkey, hnew⟩ := hvalue hstate
    exact ⟨key, hkey, properNames_pending hparam_a hfilled hnew,
      fun event d hmoves => value_of_moves hstate hkey hnew hmoves⟩
  · rintro event d hmoves rfl
    have hstate : a.state = Spot.customValue.name := by
      obtain ⟨p', answer, goal, hp', -, hturn, -⟩ := turn_of_moves hmoves
      rw [← hp', eq_customValue_of_retry hturn]
    obtain ⟨-, key, hkey, hnew⟩ := hvalue hstate
    obtain ⟨v, -, ⟨hevent, -⟩ | ⟨hevent, -⟩⟩ := value_of_moves hstate hkey hnew hmoves
    · exact absurd hevent (by decide)
    · exact absurd hevent (by decide)
  · intro d hends
    have hground_d := hground.trans (sameGround_of_moves hends.1.choose_spec)
    have hparam_d : IsProper d.ctx.branchParam := hground_d.branchParam ▸ hparam
    rcases (arrives_kept hfresh).of_ends hends hholds with ⟨-, hsettled⟩ | hexit
    · refine ⟨hsettled.properNames hfresh hparam_d, ?_⟩
      intro branch hbranch
      rw [hsettled.parameters_of_branch hfresh hbranch, hground_d.branchParam,
        List.lookup_cons_self]
    · cases hexit

/-- A user types the name of a parameter and is asked for its value. -/
theorem names_of_typed_key :
    ∃ a, Reaches table handlers ⟨Spot.prepareBranch.name,
        { settings := { url := "", user := "", token := "" }, jobs := [], url := some "app" },
        { answers := [.value (.str withCustom), .value (.str " KEY ")] }⟩ a ∧
      a.state = Spot.customValue.name ∧ ∃ key, a.ctx.pendingKey = some key ∧
        ProperNames (key :: a.ctx.names) := by
  obtain ⟨a, hreach, hstate⟩ : ∃ a, Reaches table handlers ⟨Spot.prepareBranch.name,
        { settings := { url := "", user := "", token := "" }, jobs := [], url := some "app" },
        { answers := [.value (.str withCustom), .value (.str " KEY ")] }⟩ a ∧
      a.state = Spot.customValue.name :=
    ⟨_, .head (leads_of_outcome rfl rfl) (.head (leads_of_outcome rfl rfl)
      (.single (leads_of_outcome rfl rfl))), rfl⟩
  have hparam : IsProper Settings.standardBranchParam := ⟨by decide, by decide +kernel⟩
  have hnames := names_of_reaches (p := .prepareBranch) (by exact isFresh_empty) hparam rfl hreach
  obtain ⟨key, hkey, hproper, -⟩ := hnames.2.1 hstate
  exact ⟨a, hreach, hstate, key, hkey, hproper⟩

end BuildDesk.Flow.Prepare
