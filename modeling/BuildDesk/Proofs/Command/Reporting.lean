/-
What a menu makes of the server.

A menu shows the complaints of its actions and goes on.  So it takes from a call what the call
reports: that the server is out of reach or refuses.  It does not take a reply that cannot be
read, and the run of the program ends there.

* `yields_asMenuAction`, `fails_asMenuAction` — a complaint about a call, and a stray fault;
* `run_reported_iff_clear` — what a call comes to by what it exchanges, and what a menu makes
  of it.
-/
import BuildDesk.Command.Action
import BuildDesk.Proofs.Command.Finding
import BuildDesk.Proofs.Server.Reported

namespace BuildDesk.Command

open Console BuildDesk.Flow Server

variable {action : Desk ActionResult} {s s' s'' : Session}

/-- A menu shows a complaint about a call, and learns that the action failed. -/
theorem yields_asMenuAction {c : CallFault} (h : action.Fails s (.complaint (.call c)) s')
    (hshown : (printComplaint (.call c)).Yields s' () s'') :
    Desk.Yields (asMenuAction printComplaint action) s .error s'' := by
  refine Desk.yields_tryCatch.mpr (.inr ⟨_, s', h, ?_⟩)
  exact Desk.yields_bind.mpr ⟨(), s'', hshown, Desk.yields_pure.mpr ⟨rfl, rfl⟩⟩

/-- A menu does nothing about a stray fault. -/
theorem fails_asMenuAction {f : Fault} (hstray : f.IsStray) (h : action.Fails s f s') :
    Desk.Fails (asMenuAction printComplaint action) s f s' := by
  refine Desk.fails_tryCatch.mpr ⟨f, s', h, ?_⟩
  cases hstray with
  | misread hmisread => cases hmisread <;> exact Desk.fails_throw.mpr ⟨rfl, rfl⟩
  | unanswered | interrupted => exact Desk.fails_throw.mpr ⟨rfl, rfl⟩

/-- Whatever the server makes of the requests of a call, the call comes to a value or to a
complaint about a call just when there is an address for its request and all its exchanges are
clear.  A menu shows such a complaint and goes on with a failed action, and nothing else that a
call comes to is taken by a menu. -/
theorem run_reported_iff_clear (server : Server) (call : Call) (s : Session)
    (next : Desk ActionResult) :
    let result := ((call.run server).outcome s).1
    let s' := ((call.run server).outcome s).2
    let menu : Desk ActionResult := asMenuAction printComplaint (do call.run server; next)
    (IsReported result ↔
      (call.request? server).isSome ∧ ∀ x ∈ s.sent s', call.IsClear x) ∧
    (∀ c, result = .error (.complaint (.call c)) →
      ∃ s'', (printComplaint (.call c)).Yields s' () s'' ∧ menu.Yields s .error s'') ∧
    (¬ IsReported result → ∃ f, f.IsStray ∧ result = .error f ∧ menu.Fails s f s') := by
  intro result s' menu
  have hreports := reportsWhen_run server call s
  -- where the call fails, the rest of the action is not come to
  have hfails {f : Fault} (h : result = .error f) :
      (do call.run server; next : Desk ActionResult).Fails s f s' :=
    Desk.fails_bind.mpr (.inl (Prod.ext h rfl))
  refine ⟨hreports.isReported_iff, fun c hc => ?_, fun hno => ?_⟩
  · obtain ⟨s'', hshown⟩ := exists_printComplaint (.call c) s'
    exact ⟨s'', hshown, yields_asMenuAction (hfails hc) hshown⟩
  · rcases hresult : result with f | u
    · have hstray : f.IsStray := hreports.isStray hresult hno
      exact ⟨f, hstray, rfl, fails_asMenuAction hstray (hfails hresult)⟩
    · exact absurd (.inl ⟨u, hresult⟩) hno

/-- A parameter that is no object cannot be read, though the reply is JSON. -/
example : (((Call.lastBuild guardedJob).run guarded).outcome { responses := [.reply
    { body := .json (.object [("lastBuild", .object [("actions",
      .list [.object [("parameters", .list [.null])]])])]) } 0.0] }).1 = .error .noAttribute := by
  rfl

/-- A server that replies with a page where JSON is asked for. -/
def pageInstead : Session where
  responses := [.reply { body := .text "<html>" } 0.0]

/-- The page is no complaint about a call, although the request was served. -/
theorem not_reported_of_page : ¬ ∀ (server : Server) (call : Call) (s : Session),
    (call.request? server).isSome → (∀ x ∈ s.responses, ∃ reply seconds, x = .reply reply seconds) →
      s.responses ≠ [] → IsReported ((call.run server).outcome s).1 := by
  intro h
  have hpage : (((Call.lastBuild guardedJob).run guarded).outcome pageInstead).1
      = .error .notJson := by rfl
  obtain ⟨a, hreported⟩ | ⟨c, hreported⟩ := h guarded (.lastBuild guardedJob) pageInstead rfl
    (by simp [pageInstead]) (List.cons_ne_nil _ _)
  · cases hpage.symm.trans hreported
  · cases hpage.symm.trans hreported

end BuildDesk.Command
