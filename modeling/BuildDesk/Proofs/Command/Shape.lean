/-
What a finished preparation describes.

Before a build is triggered a run gathers its job and its inputs.  However the user goes
back and forth, what comes of it has one of five shapes:

* `Shape` — the default branch, the branch of the options, no parameters, a branch that
  was asked for, or parameters of one's own;
* `preset_yields` — where a run starts, and what it knows there;
* `Wish.Prepares` — a run that gathers the job and the inputs; the command makes no other
  (`prepares_of_prepare`);
* `shape_of_run` — a run that is complete fits exactly one shape, and the job is one that
  it was given; any other run is cancelled.
-/
import BuildDesk.Command.Build
import BuildDesk.Proofs.Prepare.Names
import BuildDesk.Proofs.Prepare.Origin

namespace BuildDesk.Command

open BuildDesk.Flow BuildDesk.Flow.Prepare

variable {o : BuildOptions} {settings : Settings} {param : String} {jobs : List Job}
variable {recent : List RecentJob} {c ctx : Prepare.Context}

/-! ### The start -/

theorem ne_empty_of_given {text : Option String} {b : String} (h : given text = some b) :
    b ≠ "" := by
  obtain ⟨-, hb⟩ := Option.filter_eq_some_iff.mp h
  simpa using hb

theorem isProper_of_branchName {b : String} (h : o.branchName = some b) : IsProper b := by
  refine ⟨ne_empty_of_given h, ?_⟩
  obtain ⟨hb, -⟩ := Option.filter_eq_some_iff.mp h
  obtain ⟨name, -, rfl⟩ := Option.map_eq_some_iff.mp hb
  exact Text.trim_trim name

theorem isFresh_context (h : o.branchName = none ∨ o.defaultBranch = false) :
    (o.context settings param jobs recent).inputs.IsFresh where
  params := rfl
  asked := rfl
  choices := rfl
  removable := rfl
  key := rfl
  removal := rfl
  branch := fun _ hb => isProper_of_branchName hb
  single := h
  mode := .inl rfl

/-- What the options say about the job adds at most an address or candidates. -/
theorem preset_yields {wish : Wish} {start : Option String} {s s' : Session}
    (hnone : ctx.candidates = []) (h : (wish.preset ctx).Yields s (start, c) s') :
    ∃ p : Spot, table.startState start = p.name ∧ p.begins = true ∧ c.inputs = ctx.inputs ∧
      SameGround ctx c ∧ Traced (given wish.url) c (.next p) := by
  have hcandidates : ∀ job ∈ ctx.candidates, job ∈ ctx.jobs := by simp [hnone]
  unfold Wish.preset at h
  split at h
  · -- an address of the options is taken up as it is, whether a job has it or not
    rename_i url hurl
    obtain ⟨rfl, rfl⟩ := Prod.mk.inj (Desk.yields_pure.mp h).1
    exact ⟨.prepareBranch, rfl, rfl, rfl, ⟨rfl, rfl, rfl, rfl⟩, hcandidates,
      fun _ => ⟨url, _, rfl, rfl, .wished hurl⟩⟩
  · obtain ⟨rfl, rfl⟩ := Prod.mk.inj (Desk.yields_pure.mp h).1
    exact ⟨.entry, rfl, rfl, rfl, .refl _, hcandidates, nofun⟩
  · rename_i search _ _
    dsimp only at h
    split at h
    · rename_i found hfound
      obtain ⟨hpair, rfl⟩ := Desk.yields_pure.mp h
      unfold Wish.takeFound at hpair
      split at hpair
      · rename_i job
        obtain ⟨rfl, rfl⟩ := Prod.mk.inj hpair
        have hmem := Search.mem_of_resolve hfound job List.mem_cons_self
        exact ⟨.prepareBranch, rfl, rfl, rfl, ⟨rfl, rfl, rfl, rfl⟩, hcandidates,
          fun _ => ⟨job.url, _, rfl, rfl, .listed hmem⟩⟩
      · -- several jobs match, and the user is to choose among them
        obtain ⟨rfl, rfl⟩ := Prod.mk.inj hpair
        exact ⟨.results .direct, rfl, rfl, rfl, ⟨rfl, rfl, rfl, rfl⟩,
          Search.mem_of_resolve hfound, nofun⟩
    · -- no job matches: this is reported, and the run starts from the beginning
      split at h
      · obtain ⟨-, s₁, -, hrest⟩ := Desk.yields_bind.mp h
        obtain ⟨rfl, rfl⟩ := Prod.mk.inj (Desk.yields_pure.mp hrest).1
        exact ⟨.entry, rfl, rfl, rfl, ⟨rfl, rfl, rfl, rfl⟩, hcandidates, nofun⟩
      · exact absurd h Desk.yields_throw
    · exact absurd h Desk.yields_throw

/-! ### The run -/

/-- A run that gathers what a build needs: it begins as the wish demands, and it ends. -/
def Wish.Prepares (wish : Wish) (ctx : Prepare.Context) (s : Session) (ending : Ending)
    (c' : Prepare.Context) (s' : Session) : Prop :=
  ∃ start c s₁ visits, (wish.preset ctx).Yields s (start, c) s₁ ∧
    (Prepare.table.runFor Prepare.handlers visits start).Yields c s₁ ending c' s'

/-- What is prepared is what such a run leaves when it is complete. -/
theorem prepares_of_prepare {wish : Wish} {found : Option Prepare.Context} {s s' : Session}
    (h : (wish.prepare ctx).Yields s found s') :
    ∃ ending c', wish.Prepares ctx s ending c' s' ∧
      found = if ending.outcome == .complete && (Wish.chosen c').isSome then some c' else none := by
  obtain ⟨⟨start, c⟩, s₁, hpreset, hrest⟩ := Desk.yields_bind.mp h
  obtain ⟨⟨ending, c'⟩, s₂, hrun, hend⟩ := Desk.yields_bind.mp hrest
  obtain ⟨rfl, rfl⟩ := Desk.yields_pure.mp hend
  obtain ⟨-, hvisits⟩ := run_yields.mp (runOn_yields.mp hrun)
  exact ⟨ending, c', ⟨start, c, s₁, _, hpreset, hvisits⟩, rfl⟩

/-! ### The end -/

/-- The shapes of a finished preparation. -/
inductive Shape
  /-- The default branch is built. -/
  | byDefault
  /-- The branch of the options is built. -/
  | preset
  /-- The build has no parameters. -/
  | without
  /-- A branch was asked for. -/
  | branch
  /-- The parameters are one's own. -/
  | custom
  deriving DecidableEq, Repr

/-- What a shape means for the context and the parameters of the build. -/
def Shape.Fits (o : BuildOptions) (param : String) (c : Prepare.Context) : Shape → Prop
  | byDefault => o.defaultBranch = true ∧ c.parameters = []
  | preset => ∃ b, o.branchName = some b ∧ c.parameters = [(param, b)]
  | without => c.mode = some .without ∧ c.branch = none ∧ c.parameters = []
  | branch => c.mode = some .branch ∧ ∃ b, c.branch = some b ∧ IsProper b ∧
      c.parameters = (param, b) :: c.customParams
  | custom => c.mode = some .custom ∧ c.branch = none ∧ c.customParams ≠ [] ∧
      c.parameters = c.customParams

/-- The one shape that can fit. -/
def shapeOf (o : BuildOptions) (c : Prepare.Context) : Shape :=
  if o.defaultBranch then .byDefault
  else if o.branchName.isSome then .preset
  else match c.mode with
    | some .without => .without
    | some .custom => .custom
    | _ => .branch

/-- Inputs that are settled are those of the options, or the options fix none. -/
theorem mode_or_unfixed (h : Settled (o.context settings param jobs recent).inputs c) :
    c.mode = none ∨ o.branchName = none ∧ o.defaultBranch = false := by
  have hunfixed : (o.context settings param jobs recent).inputs = {} →
      o.branchName = none ∧ o.defaultBranch = false := fun hstart =>
    ⟨congrArg Inputs.branch hstart, congrArg Inputs.defaultBranch hstart⟩
  rcases h with ⟨hinputs, -⟩ | ⟨hstart, -⟩ | ⟨hfilled, -⟩
  · exact .inl (congrArg Inputs.mode hinputs)
  · exact .inr (hunfixed hstart)
  · exact .inr (hunfixed hfilled.start)

theorem eq_shapeOf {shape : Shape} (hoptions : o.branchName = none ∨ o.defaultBranch = false)
    (h : Settled (o.context settings param jobs recent).inputs c) (hfits : shape.Fits o param c) :
    shape = shapeOf o c := by
  have hcases := mode_or_unfixed h
  cases shape with
  | byDefault =>
    rw [shapeOf, if_pos hfits.1]
  | preset =>
    obtain ⟨b, hb, -⟩ := hfits
    have hdefault := hoptions.resolve_left (by simp [hb])
    simp [shapeOf, hb, hdefault]
  | without | branch | custom =>
    have hmode := hfits.1
    obtain ⟨hb, hdefault⟩ := hcases.resolve_left (by simp [hmode])
    simp [shapeOf, hb, hdefault, hmode]

theorem fits_of_fixed (hoptions : o.branchName = none ∨ o.defaultBranch = false)
    (hinputs : c.inputs = (o.context settings param jobs recent).inputs)
    (hneed : need c = .nothing) (hparam : c.branchParam = param) :
    (shapeOf o c).Fits o param c := by
  have hbranch : c.branch = o.branchName := congrArg Inputs.branch hinputs
  have hdefault : c.defaultBranch = o.defaultBranch := congrArg Inputs.defaultBranch hinputs
  have hmode : c.mode = none := congrArg Inputs.mode hinputs
  have hparams : c.customParams = [] := congrArg Inputs.customParams hinputs
  cases hflag : o.defaultBranch with
  | true =>
    rw [shapeOf, if_pos hflag]
    refine ⟨hflag, ?_⟩
    simp [Context.parameters, hdefault, hflag, hparams]
  | false =>
    rcases hname : o.branchName with _ | b
    · have hmissing := not_isGiven (by simp [hmode]) (hdefault.trans hflag) (hbranch.trans hname)
      exact absurd (need_eq_nothing_iff.mp hneed) hmissing
    · have hshape : shapeOf o c = .preset := by simp [shapeOf, hflag, hname]
      rw [hshape]
      refine ⟨b, hname, ?_⟩
      have hsettled : Settled (o.context settings param jobs recent).inputs c :=
        .fixed hinputs hneed
      rw [hsettled.parameters_of_branch (isFresh_context hoptions) (hbranch.trans hname),
        hparam, hparams]

theorem fits_shapeOf (hoptions : o.branchName = none ∨ o.defaultBranch = false)
    (h : Settled (o.context settings param jobs recent).inputs c) (hparam : c.branchParam = param) :
    (shapeOf o c).Fits o param c := by
  have hparameters := fun b hb => h.parameters_of_branch (b := b) (isFresh_context hoptions) hb
  have hcases := mode_or_unfixed h
  rcases h with ⟨hinputs, hneed⟩ | ⟨-, -, hmode, hbranch, hparams⟩ | ⟨hfilled, hgiven⟩
  · exact fits_of_fixed hoptions hinputs hneed hparam
  · obtain ⟨hname, hflag⟩ := hcases.resolve_left (by simp [hmode])
    have hshape : shapeOf o c = .without := by simp [shapeOf, hflag, hname, hmode]
    rw [hshape]
    refine ⟨hmode, hbranch, ?_⟩
    rw [parameters_of_no_branch hbranch (nodup_taken hparams), hparams]
  · rcases hfilled.source with ⟨hmode, b, hb, hproper⟩ | ⟨hmode, hbranch⟩
    · obtain ⟨hname, hflag⟩ := hcases.resolve_left (by simp [hmode])
      have hshape : shapeOf o c = .branch := by simp [shapeOf, hflag, hname, hmode]
      rw [hshape]
      exact ⟨hmode, b, hb, hproper, hparam ▸ hparameters b hb⟩
    · obtain ⟨hname, hflag⟩ := hcases.resolve_left (by simp [hmode])
      have hshape : shapeOf o c = .custom := by simp [shapeOf, hflag, hname, hmode]
      rw [hshape]
      exact ⟨hmode, hbranch, hgiven.resolve_left (fun hne => hne hbranch),
        parameters_of_no_branch hbranch hfilled.distinct⟩

/-- **What a run describes when it is complete.**  Whatever is answered, a run that gathers
what a build needs is complete or cancelled.  When it is complete it fits exactly one
shape, and the address of its job was wished for, or a job of the run has it.  Such are all
the runs that the command makes, and it builds with what a complete one leaves. -/
theorem shape_of_run (hoptions : o.branchName = none ∨ o.defaultBranch = false) :
    (∀ s ending c' s', o.wish.Prepares (o.context settings param jobs recent) s ending c' s' →
      (ending.outcome = .complete ∨ ending.outcome = .exitCommand) ∧
      (ending.outcome = .complete → (∃! shape : Shape, shape.Fits o param c') ∧
        ∃ url, c'.url = some url ∧ (given o.wish.url = some url ∨ (∃ job ∈ jobs, job.url = url) ∨
          ∃ job ∈ recent, job.url = url))) ∧
    ∀ s found s', (o.wish.prepare (o.context settings param jobs recent)).Yields s found s' →
      ∃ ending c', o.wish.Prepares (o.context settings param jobs recent) s ending c' s' ∧
        found = if ending.outcome == .complete && (Wish.chosen c').isSome then some c'
          else none := by
  refine ⟨?_, fun s found s' hprepare => prepares_of_prepare hprepare⟩
  rintro s ending c' s' ⟨start, c, s₁, visits, hpreset, hrun⟩
  obtain ⟨p, hstart, hbegins, hinputs, hground, htraced⟩ := preset_yields rfl hpreset
  have hfresh : c.inputs.IsFresh := hinputs ▸ isFresh_context hoptions
  simp only [Definition.runFor, Step.yields_bind, Step.yields_ofDesk, hstart] at hrun
  obtain ⟨-, _, s', ⟨-, rfl⟩, hgo⟩ := hrun
  obtain ⟨a, b, hreach, -, hends, rfl, -⟩ := go_yields hgo
  have harrives := (arrives_kept hfresh).of_ends hends (holds_of_reaches hfresh hbegins hreach)
  refine ⟨harrives.imp And.left id, ?_⟩
  intro hcomplete
  rw [hcomplete] at harrives hends
  have hsettled : Settled (o.context settings param jobs recent).inputs b.ctx := by
    rw [← hinputs]
    exact harrives.elim And.right nofun
  have hground_b := hground.trans
    ((sameGround_of_reaches hreach).trans (sameGround_of_moves hends.1.choose_spec))
  refine ⟨⟨shapeOf o b.ctx, fits_shapeOf hoptions hsettled hground_b.branchParam,
    fun shape hfits => eq_shapeOf hoptions hsettled hfits⟩, ?_⟩
  have htraced_b := traced_kept.of_ends hends
    (traced_kept.holdsAt_of_reaches hreach ⟨.next p, rfl, htraced⟩)
  obtain ⟨url, hurl, hknown⟩ := htraced_b.url rfl
  refine ⟨url, hurl, ?_⟩
  unfold IsKnown at hknown
  rwa [hground_b.jobs, hground_b.recent] at hknown

/-- The job is named by its address. -/
def byAddress : BuildOptions := { wish := { url := some "app" } }

/-- The context of a build where nothing else is known. -/
def bareContext : Prepare.Context :=
  byAddress.context { url := "", user := "", token := "" } "BRANCH" [] []

/-- The user wants parameters of their own, and gives one. -/
def oneTyped : Session where
  answers := [.value (.str withCustom), .value (.str "KEY"), .value (.str " 1 "),
    .value (.bool false)]

/-- A user names a job by its address, and gives one parameter of their own. -/
theorem shape_of_typed_parameter :
    ∃ ending c' s', byAddress.wish.Prepares bareContext oneTyped ending c' s' ∧
      ending.outcome = .complete ∧ c'.parameters = [("KEY", "1")] ∧
      (∃! shape : Shape, shape.Fits byAddress "BRANCH" c') ∧
      ∃ url, c'.url = some url ∧ (given (some "app") = some url ∨ (∃ job ∈ [], Job.url job = url) ∨
        ∃ job ∈ [], RecentJob.url job = url) := by
  obtain ⟨ending, c', s', hprepares, hcomplete, hparameters⟩ : ∃ ending c' s',
      byAddress.wish.Prepares bareContext oneTyped ending c' s' ∧
        ending.outcome = .complete ∧ c'.parameters = [("KEY", "1")] :=
    ⟨⟨.complete, "custom_more"⟩, _, _, ⟨_, _, _, 5, by rfl, by rfl⟩, rfl, by decide +kernel⟩
  obtain ⟨hshape, hurl⟩ := ((shape_of_run (o := byAddress) (.inl rfl)).1 _ _ _ _ hprepares).2
    hcomplete
  exact ⟨ending, c', s', hprepares, hcomplete, hparameters, hshape, hurl⟩

end BuildDesk.Command
