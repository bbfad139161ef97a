/-
Runs that gather the inputs of a build alike.

Once a job is chosen, a run looks at the inputs, the address of the job, the server, the
parameter of the branch and the answers, and at the job file for the branches to offer.
Two contexts are `Alike` when they agree on these.  From such contexts, with the same
folder and the same answer, two runs leave a state alike (`agreeAt_of_builds`).
-/
import BuildDesk.Proofs.Flow.Agree
import BuildDesk.Proofs.Prepare.Inputs
import BuildDesk.Proofs.Prepare.Origin

namespace BuildDesk.Flow.Prepare

/-- The same inputs, for the job with the same address on the same server. -/
structure Alike (c d : Context) : Prop where
  inputs : c.inputs = d.inputs
  address : c.address = d.address
  settings : c.settings = d.settings
  branchParam : c.branchParam = d.branchParam

/-- The context with other inputs. -/
def Context.withInputs (c : Context) (i : Inputs) : Context :=
  { c with
    branch := i.branch, customParams := i.customParams, defaultBranch := i.defaultBranch
    mode := i.mode, modeAsked := i.modeAsked, branchChoices := i.branchChoices
    removable := i.removable, pendingKey := i.pendingKey, pendingRemoval := i.pendingRemoval }

variable {c d : Context} {v : Json}

namespace Alike

theorem mode (h : Alike c d) : c.mode = d.mode := congrArg Inputs.mode h.inputs

theorem modeAsked (h : Alike c d) : c.modeAsked = d.modeAsked :=
  congrArg Inputs.modeAsked h.inputs

theorem defaultBranch (h : Alike c d) : c.defaultBranch = d.defaultBranch :=
  congrArg Inputs.defaultBranch h.inputs

theorem customParams (h : Alike c d) : c.customParams = d.customParams :=
  congrArg Inputs.customParams h.inputs

theorem removable (h : Alike c d) : c.removable = d.removable :=
  congrArg Inputs.removable h.inputs

theorem pendingKey (h : Alike c d) : c.pendingKey = d.pendingKey :=
  congrArg Inputs.pendingKey h.inputs

theorem pendingRemoval (h : Alike c d) : c.pendingRemoval = d.pendingRemoval :=
  congrArg Inputs.pendingRemoval h.inputs

theorem branchText (h : Alike c d) : c.branchText = d.branchText :=
  congrArg (fun i : Inputs => i.branch.getD "") h.inputs

theorem need (h : Alike c d) : need c = need d := by
  unfold Prepare.need
  rw [h.mode, h.defaultBranch, h.branchText, h.address, h.modeAsked]

theorem taken (h : Alike c d) : c.taken = d.taken := by
  unfold Context.taken
  rw [h.customParams, h.branchText, h.branchParam]

theorem parameters (h : Alike c d) : c.parameters = d.parameters := by
  unfold Context.parameters
  rw [h.mode, h.defaultBranch, h.branchText, h.branchParam, h.customParams]

/-- Contexts stay alike when their inputs change in the same way. -/
theorem update (h : Alike c d) (change : Inputs → Inputs) :
    Alike (c.withInputs (change c.inputs)) (d.withInputs (change d.inputs)) :=
  ⟨congrArg change h.inputs, h.address, h.settings, h.branchParam⟩

end Alike

/-! ### Handlers -/

open Step

theorem alike_selectMode (h : Alike c d) :
    (selectMode v c).1 = (selectMode v d).1 ∧ Alike (selectMode v c).2 (selectMode v d).2 := by
  unfold selectMode
  dsimp only
  split
  · exact ⟨rfl, h.update fun i =>
      { i with modeAsked := true, mode := some .without, branch := none, customParams := [] }⟩
  · split
    · exact ⟨rfl, h.update fun i =>
        { i with modeAsked := true, mode := some .custom, branch := none }⟩
    · exact ⟨rfl, h.update fun i => { i with modeAsked := true, mode := some .branch }⟩

theorem alike_selectBranch (h : Alike c d) : (selectBranch v c).1 = (selectBranch v d).1 ∧
    Alike (selectBranch v c).2 (selectBranch v d).2 := by
  unfold selectBranch
  split
  · rw [h.removable]
    exact ⟨rfl, h⟩
  · exact ⟨rfl, h.update fun i => { i with branch := some (Text.trim v.text) }⟩

theorem alike_submitValue (h : Alike c d) : (submitValue v c).1 = (submitValue v d).1 ∧
    Alike (submitValue v c).2 (submitValue v d).2 := by
  unfold submitValue
  rw [h.pendingKey]
  dsimp only
  split
  · exact ⟨rfl, h⟩
  · exact ⟨rfl, h.update fun i => { i with
      customParams := Json.put i.customParams (d.pendingKey.getD "") (typed v)
      pendingKey := none }⟩

theorem cancelKey_eq : cancelKey v c = if !c.customParams.isEmpty || c.branchText != ""
    then ("custom:done", { c with pendingKey := none })
    else ("custom:mode", { c with pendingKey := none, mode := none }) := rfl

theorem alike_cancelKey (h : Alike c d) : (cancelKey v c).1 = (cancelKey v d).1 ∧
    Alike (cancelKey v c).2 (cancelKey v d).2 := by
  have hgiven : (!c.customParams.isEmpty || c.branchText != "")
      = (!d.customParams.isEmpty || d.branchText != "") := by
    rw [h.customParams, h.branchText]
  rw [cancelKey_eq, cancelKey_eq, hgiven]
  split
  · exact ⟨rfl, h.update fun i => { i with pendingKey := none }⟩
  · exact ⟨rfl, h.update fun i => { i with pendingKey := none, mode := none }⟩

theorem agree_prepareBranch : Agree Alike (prepareBranch v) (prepareBranch v) := by
  refine agree_context fun c d h => ?_
  rw [← h.need]
  cases need c with
  | nothing =>
    rw [h.branchText]
    refine agree_bind (agree_change fun a b h => ?_) fun _ => agree_pure _
    -- which branch it is does not matter, only that both take the same
    generalize (if Text.trim d.branchText == "" then none
      else some (Text.trim d.branchText)) = branch
    exact h.update fun i => { i with branch := branch }
  | key | job => exact agree_pure _
  | mode =>
    refine agree_bind (agree_change fun c d h => ?_) fun _ => agree_pure _
    exact h.update fun i => { i with modeAsked := true }
  | branch =>
    rw [h.settings, h.address]
    refine agree_bind (agree_onFolder (Branches.onFolder_offered _ _)) fun choices => ?_
    refine agree_bind (agree_change fun c d h => ?_) fun _ => ?_
    · exact h.update fun i => { i with branchChoices := Text.distinct choices }
    refine agree_bind (agree_onFolder (Branches.onFolder_history _ _)) fun removable => ?_
    refine agree_bind (agree_change fun c d h => ?_) fun _ => agree_pure _
    exact h.update fun i => { i with removable := Text.distinct removable }

theorem agree_remove : Agree Alike (remove v) (remove v) := by
  refine agree_context fun c d h => ?_
  rw [h.pendingRemoval, h.address, h.settings]
  refine agree_bind (agree_change fun c d h => ?_) fun _ => ?_
  · exact h.update fun i => { i with pendingRemoval := none }
  split
  · dsimp only
    refine agree_bind (agree_onFolder (Branches.onFolder_forget _ _ _)) fun removed => ?_
    cases removed with
    | true =>
      rw [if_pos rfl]
      refine agree_bind (agree_change fun c d h => ?_) fun _ => ?_
      · exact h.update fun i => { i with
          removable := Text.without _ i.removable
          branchChoices := Text.without _ i.branchChoices }
      exact agree_bind (agree_onlyLogs (onlyLogs_reportRemoved _) (onlyLogs_reportRemoved _))
        fun _ => agree_pure _
    | false => exact agree_pure _
  · exact agree_pure _

theorem agree_submitKey : Agree Alike (submitKey v) (submitKey v) := by
  refine agree_context fun c d h => ?_
  rw [h.taken]
  split
  · exact agree_bind (agree_onlyLogs (onlyLogs_reportTaken _) (onlyLogs_reportTaken _))
      fun _ => agree_pure _
  · refine agree_bind (agree_change fun c d h => ?_) fun _ => agree_pure _
    exact h.update fun i => { i with pendingKey := some (typed v) }

/-! ### One visit -/

variable {p : Spot}

/-- From alike contexts two runs leave a state alike, once the job is chosen. -/
theorem agreeAt_of_builds (hp : p.finds = false) :
    AgreeAt Alike table handlers p.name p.state := by
  cases p with
  | entry | recentMenu | search | results => cases hp
  | branchMode =>
    exact agreeAt_answered rfl rfl rfl rfl fun v =>
      agree_ofChange fun _ _ h => alike_selectMode h
  | prepareBranch => exact agreeAt_router rfl rfl (agree_prepareBranch (v := .null))
  | branchSelect =>
    refine agreeAt_answered rfl rfl rfl rfl fun v => agree_settling rfl ?_ ?_
    · intro part hpart
      unfold noBranch at hpart
      split at hpart
      · exact ⟨_, Option.some.inj hpart ▸ Desk.gives_pure _⟩
      · cases hpart
    · exact agree_ofChange fun _ _ h => alike_selectBranch h
  | branchRemove =>
    refine agreeAt_answered rfl rfl rfl rfl fun v => agree_settling rfl ?_ ?_
    · intro part hpart
      unfold noRemoval at hpart
      split at hpart
      · exact ⟨_, Option.some.inj hpart ▸ Desk.gives_pure _⟩
      · cases hpart
    · exact agree_ofChange fun _ _ h => ⟨rfl, h.update fun i =>
        { i with pendingRemoval := some (Text.trim v.text) }⟩
  | branchRemoveApply => exact agreeAt_router rfl rfl (agree_remove (v := .null))
  | branchEntry =>
    refine agreeAt_answered rfl rfl rfl rfl fun v => agree_settling rfl ?_ ?_
    · exact fun part hpart => ⟨_, (demanded_gives hpart).2⟩
    · exact agree_ofChange fun _ _ h => ⟨rfl, h.update fun i =>
        { i with branch := some (typed v) }⟩
  | customConfirm => exact agreeAt_confirm rfl rfl rfl
  | customKey =>
    refine agreeAt_answered rfl rfl rfl rfl fun v => agree_settling rfl ?_ agree_submitKey
    exact fun part hpart => ⟨_, (demanded_gives hpart).2⟩
  | customValue =>
    exact agreeAt_answered rfl rfl rfl rfl fun v =>
      agree_ofChange fun _ _ h => alike_submitValue h
  | customMore => exact agreeAt_confirm rfl rfl rfl
  | customCancel =>
    exact agreeAt_router rfl rfl (agree_ofChange fun _ _ h => alike_cancelKey h)

end BuildDesk.Flow.Prepare
