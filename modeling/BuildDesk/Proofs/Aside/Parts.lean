/-
The parts that commands share do not look aside.

Printing, talking to the server and asking overlook the folder and the log; what reads or
writes the job file overlooks the log.  So every action on a build has the same requests and
prompts whatever was logged before it:

* `Server.overlooks_trigger`, `Server.overlooks_build`, … — requests;
* `overlooks_remember`, `overlooks_place` — recording a build, and placing one;
* `overlooks_wait`, `overlooks_showLog`, `overlooks_cancel`, `overlooks_rerunLastFailed` — the
  actions.
-/
import BuildDesk.Proofs.Command.Placing
import BuildDesk.Proofs.Session.Aside

namespace BuildDesk

open Desk

variable {α : Type} {φ : Folder → Folder} {old : List Event}

/-! ### Printing -/

namespace Console

theorem overlooks_rendered (text : String) : (rendered text).Overlooks φ old := by
  unfold rendered
  split
  · exact overlooks_pure _
  · exact overlooks_throw _
  · exact overlooks_throw _

theorem overlooks_printOk (text : String) : (printOk text).Overlooks φ old := overlooks_emit _

theorem overlooks_printError (text : String) : (printError text).Overlooks φ old :=
  overlooks_emit _

theorem overlooks_printHint (text : String) : (printHint text).Overlooks φ old := overlooks_emit _

theorem overlooks_printWarning (text : String) : (printWarning text).Overlooks φ old :=
  overlooks_emit _

theorem overlooks_printPlain (text : String) : (printPlain text).Overlooks φ old :=
  overlooks_emit _

theorem overlooks_printMarkup (text : String) : (printMarkup text).Overlooks φ old :=
  overlooks_bind (overlooks_rendered text) fun _ => overlooks_emit _

theorem overlooks_printComplaint (c : Complaint) : (printComplaint c).Overlooks φ old :=
  overlooks_bind (overlooks_printError _) fun _ => overlooks_forM _ overlooks_printHint

theorem overlooks_printRule (title : String) : (printRule title).Overlooks φ old :=
  overlooks_bind (overlooks_rendered title) fun _ => overlooks_emit _

theorem overlooks_showStatus (text : String) : (Console.showStatus text).Overlooks φ old :=
  overlooks_bind (overlooks_rendered text) fun _ => overlooks_emit _

end Console

/-! ### Requests -/

namespace Server

theorem overlooks_exchange (r : Request) : (Server.exchange r).Overlooks φ old := by
  refine overlooks_bind (Desk.overlooks_exchange r) fun reply => ?_
  refine overlooks_bind (overlooks_ofExcept _) fun failed => ?_
  split
  · exact overlooks_complain _
  · exact overlooks_pure _

theorem overlooks_crumb (server : Server) : server.crumb.Overlooks φ old := by
  refine overlooks_get_bind (fun s => ?_) fun _ => rfl
  rcases s.crumb with _ | header
  · refine overlooks_bind (overlooks_exchange _) fun reply => ?_
    refine overlooks_bind (overlooks_ofExcept _) fun header => ?_
    exact overlooks_bind (overlooks_modify fun _ => rfl) fun _ => overlooks_pure _
  · exact overlooks_pure header

theorem overlooks_post (server : Server) (url : String) (data : List (String × Json)) :
    (server.post url data).Overlooks φ old := by
  unfold post
  split
  · exact overlooks_bind (overlooks_crumb server) fun _ => overlooks_exchange _
  · exact overlooks_exchange _

theorem overlooks_fetch (server : Server) (url : String) (params : List (String × Json)) :
    (server.fetch url params).Overlooks φ old := overlooks_exchange _

theorem overlooks_fetchJson (server : Server) (url : Json) (tree : Option String) :
    (server.fetchJson url tree).Overlooks φ old :=
  overlooks_bind (overlooks_ofExcept _) fun _ =>
    overlooks_bind (overlooks_fetch _ _ _) fun _ => overlooks_ofExcept _

theorem overlooks_listJobs (server : Server) : server.listJobs.Overlooks φ old :=
  overlooks_bind (overlooks_fetchJson _ _ _) fun _ => overlooks_ofExcept _

theorem overlooks_trigger (server : Server) (job : Json) (params : List (String × Json)) :
    (server.trigger job params).Overlooks φ old :=
  overlooks_bind (overlooks_ofExcept _) fun _ =>
    overlooks_bind (overlooks_post _ _ _) fun _ => overlooks_pure _

theorem overlooks_queuedBuild (server : Server) (queue : Json) :
    (server.queuedBuild queue).Overlooks φ old := by
  refine overlooks_bind (overlooks_fetchJson _ _ _) fun data => ?_
  refine overlooks_bind (overlooks_ofExcept _) fun withdrawn => ?_
  split
  · exact overlooks_throw_bind _ _
  · exact overlooks_bind (overlooks_ofExcept _) fun _ => overlooks_pure _

theorem overlooks_lastBuild (server : Server) (job : Json) :
    (server.lastBuild job).Overlooks φ old :=
  overlooks_bind (overlooks_fetchJson _ _ _) fun _ => overlooks_ofExcept _

theorem overlooks_build (server : Server) (url : Json) : (server.build url).Overlooks φ old :=
  overlooks_bind (overlooks_fetchJson _ _ _) fun _ => overlooks_ofExcept _

theorem overlooks_lastFailed (server : Server) (job : Json) :
    (server.lastFailed job).Overlooks φ old := by
  refine overlooks_bind (overlooks_ofExcept _) fun url => ?_
  refine overlooks_rescue (overlooks_map _ (overlooks_build _ _)) fun c => ?_
  cases c with
  | call fault =>
    dsimp only
    split
    · exact overlooks_pure _
    · exact overlooks_complain _
  | _ => exact overlooks_complain _

theorem overlooks_stop (server : Server) (url : Json) : (server.stop url).Overlooks φ old :=
  overlooks_bind (overlooks_ofExcept _) fun _ =>
    overlooks_bind (overlooks_post _ _ _) fun _ => overlooks_pure _

theorem overlooks_consoleText (server : Server) (url : Json) :
    (server.consoleText url).Overlooks φ old :=
  overlooks_bind (overlooks_ofExcept _) fun _ =>
    overlooks_bind (overlooks_fetch _ _ _) fun _ => overlooks_pure _

end Server

/-! ### The jobs -/

namespace Roster

theorem overlooks_refresh (server : Server) : (refresh server).Overlooks id old := by
  refine overlooks_bind (Server.overlooks_listJobs server) fun jobs => ?_
  refine overlooks_bind (onFolder_loadFor _).overlooks fun older => ?_
  refine overlooks_get_bind (fun s => ?_) fun _ => rfl
  refine overlooks_bind (overlooks_ofExcept _) fun r => ?_
  exact overlooks_bind (onFolder_save _).overlooks fun _ => overlooks_pure _

theorem overlooks_jobsOf (server : Server) (anew : Bool) {agree : Option (String → Desk Bool)}
    (h : ∀ ask ∈ agree, ∀ text, (ask text).Overlooks id old) :
    (jobsOf server anew agree).Overlooks id old := by
  unfold jobsOf
  split
  · exact overlooks_refresh server
  · refine overlooks_bind onFolder_load.overlooks fun found => ?_
    split
    · exact overlooks_pure _
    · dsimp only
      split
      · exact overlooks_complain _
      · rename_i ask
        refine overlooks_bind (h ask rfl _) fun agreed => ?_
        split
        · exact overlooks_refresh server
        · exact overlooks_complain _

end Roster

namespace Command

open Console BuildDesk.Flow

/-! ### Questions -/

theorem overlooks_addressed (settings : Settings) (text : String) :
    (addressed settings text).Overlooks φ old :=
  overlooks_bind overlooks_lang fun _ => overlooks_ofExcept _

theorem overlooks_confirm (settings : Settings) (text : String) (standard : Bool) :
    (confirm settings text standard).Overlooks φ old :=
  overlooks_bind (overlooks_addressed _ _) fun _ =>
    overlooks_bind (overlooks_ask _) fun _ => overlooks_pure _

theorem overlooks_jobsFor (server : Server) (interactive anew : Bool) (jobUrl : Option String) :
    (jobsFor server interactive anew jobUrl).Overlooks id old := by
  unfold jobsFor
  split
  · exact overlooks_rescue (Roster.overlooks_jobsOf _ _ nofun) fun _ => overlooks_pure _
  · refine overlooks_bind (Roster.overlooks_jobsOf _ _ ?_) fun jobs => ?_
    · intro ask hask text
      split at hask
      · obtain rfl := Option.some.inj hask
        exact overlooks_bind (overlooks_say _ _) fun _ => overlooks_confirm _ _ _
      · cases hask
    · split
      · exact overlooks_refuse_bind _ _ _ _
      · exact overlooks_pure _

theorem overlooks_showStatus (server : Server) (job label : Json) :
    (showStatus server job label).Overlooks φ old := by
  refine overlooks_bind (Server.overlooks_lastBuild server job) fun last => ?_
  split
  · refine overlooks_bind (overlooks_say _ _) fun _ => ?_
    exact overlooks_bind (overlooks_printMarkup _) fun _ => overlooks_pure _
  · refine overlooks_bind (overlooks_printPlain _) fun _ => ?_
    refine overlooks_get_bind (fun s => ?_) fun _ => rfl
    refine overlooks_bind (overlooks_ofExcept _) fun _ => ?_
    exact overlooks_bind (overlooks_printPlain _) fun _ => overlooks_pure _

/-! ### Waiting -/

theorem overlooks_isOver (pace : Pace) : pace.isOver.Overlooks φ old := by
  unfold Pace.isOver
  split
  · exact overlooks_pure _
  · exact overlooks_bind overlooks_clock fun _ => overlooks_pure _

theorem overlooks_rest (pace : Pace) : pace.rest.Overlooks φ old := by
  unfold Pace.rest
  split
  · exact overlooks_pause _
  · exact overlooks_throw _

theorem overlooks_await (pace : Pace) {look : Desk (Option α)} (hlook : look.Overlooks φ old) :
    (await pace look).Overlooks φ old := by
  refine overlooks_get_bind (fun s => ?_) fun _ => rfl
  induction s.responses.length + 1 with
  | zero => exact overlooks_throw _
  | succ looks ih =>
    refine overlooks_bind hlook fun found => ?_
    rcases found with _ | found
    · refine overlooks_bind (overlooks_isOver pace) fun isOver => ?_
      cases isOver with
      | true => exact overlooks_pure _
      | false => exact overlooks_bind (overlooks_rest pace) fun _ => ih
    · exact overlooks_pure _

theorem overlooks_lastBuildUrl (server : Server) (job : String) (label : Json) :
    (lastBuildUrl server job label).Overlooks φ old := by
  refine overlooks_bind (Server.overlooks_lastBuild _ _) fun last => ?_
  split
  · exact overlooks_refuse_bind _ _ _ _
  · exact overlooks_pure _

theorem overlooks_untilFinished (server : Server) (target : Target) (pace : Pace) :
    (untilFinished server target pace).Overlooks φ old := by
  have hlocate : (locate server target pace).Overlooks φ old := by
    unfold locate
    split
    · exact overlooks_pure _
    · exact overlooks_await pace (Server.overlooks_queuedBuild _ _)
    · exact overlooks_bind (overlooks_lastBuildUrl _ _ _) fun _ => overlooks_pure _
  refine overlooks_bind hlocate fun url => ?_
  cases url with
  | none => exact overlooks_pure _
  | some url =>
    exact overlooks_await pace
      (overlooks_bind (Server.overlooks_build _ _) fun _ => overlooks_pure _)

theorem overlooks_wait (server : Server) (target : Target) (pause limit : Option Quantity) :
    (wait server target pause limit).Overlooks φ old := by
  refine overlooks_bind overlooks_clock fun started => overlooks_tryCatch ?_ fun f => ?_
  · refine overlooks_bind (overlooks_bind (overlooks_say _ _) fun _ =>
      overlooks_bind (Console.overlooks_showStatus _) fun _ =>
        overlooks_untilFinished _ _ _) fun found => ?_
    cases found with
    | none =>
      refine overlooks_bind overlooks_clock fun _ => ?_
      refine overlooks_bind (overlooks_ofExcept _) fun _ => ?_
      refine overlooks_bind (overlooks_say _ _) fun _ => ?_
      exact overlooks_bind (overlooks_printError _) fun _ => overlooks_pure _
    | some build =>
      refine overlooks_bind (overlooks_say _ _) fun _ => ?_
      split
      · exact overlooks_bind (overlooks_printOk _) fun _ => overlooks_pure _
      · exact overlooks_bind (overlooks_printError _) fun _ => overlooks_pure _
  · cases f with
    | interrupted =>
      refine overlooks_bind (overlooks_say _ _) fun _ => ?_
      exact overlooks_bind (overlooks_printWarning _) fun _ => overlooks_pure _
    | _ => exact overlooks_throw _

/-! ### Actions -/

theorem overlooks_watch (server : Server) (target : Target) :
    (watch server target).Overlooks φ old := by
  refine overlooks_bind (overlooks_wait _ _ _ _) fun waited => ?_
  split
  · exact overlooks_pure _
  · exact overlooks_pure _

theorem overlooks_showLog (server : Server) (job : String) (label : Json) (build : Option Json) :
    (showLog server job label build).Overlooks φ old := by
  have hshow : ∀ url : Json, (do
      let text ← server.consoleText url
      printRule (← Desk.say Notice.consoleOutput [("url", url)])
      printPlain text
      printRule ""
      pure .ok : Desk ActionResult).Overlooks φ old := by
    intro url
    refine overlooks_bind (Server.overlooks_consoleText _ _) fun text => ?_
    refine overlooks_bind (overlooks_say _ _) fun _ => ?_
    refine overlooks_bind (overlooks_printRule _) fun _ => ?_
    refine overlooks_bind (overlooks_printPlain _) fun _ => ?_
    exact overlooks_bind (overlooks_printRule _) fun _ => overlooks_pure _
  unfold showLog
  split
  · exact hshow _
  · exact overlooks_bind (overlooks_lastBuildUrl _ _ _) hshow

theorem overlooks_cancel (server : Server) (job : String) (label : Json)
    {agree : Option (String → Desk Bool)} (h : ∀ ask ∈ agree, ∀ text, (ask text).Overlooks φ old) :
    (cancel server job label agree).Overlooks φ old := by
  have hrunning : (runningBuild server job label).Overlooks φ old := by
    refine overlooks_bind (Server.overlooks_lastBuild _ _) fun last => ?_
    split
    · exact overlooks_refuse_bind _ _ _ _
    · exact overlooks_pure _
  have hstop : ∀ (last : Server.LastBuild) (agreed : Bool), (do
      if agreed then
        server.stop last.url
        printOk (← Desk.say Notice.buildCancelled [("url", last.url)])
      else printOk (← Desk.say Notice.cancelSkipped [])
      pure .ok : Desk ActionResult).Overlooks φ old := by
    intro last agreed
    have hdone : ∀ text, (do printOk text; pure .ok : Desk ActionResult).Overlooks φ old :=
      fun text => overlooks_bind (overlooks_printOk text) fun _ => overlooks_pure _
    cases agreed with
    | true =>
      exact overlooks_bind (Server.overlooks_stop _ _) fun _ =>
        overlooks_bind (overlooks_say _ _) hdone
    | false => exact overlooks_bind (overlooks_say _ _) hdone
  refine overlooks_bind hrunning fun last => ?_
  split
  · exact hstop last true
  · rename_i ask
    exact overlooks_bind (overlooks_say _ _) fun text =>
      overlooks_bind (h ask rfl text) (hstop last)

/-! ### Builds -/

theorem overlooks_remember (settings : Settings) (job : String) (branch : Option String) :
    (remember settings job branch).Overlooks id old := (onFolder_remember _ _ _).overlooks

/-- What a build is told about once it was recorded. -/
theorem overlooks_tell (order : Order) (queue : Json) :
    (do
      match queue.present? with
      | some url => printOk (← Desk.say Notice.buildQueued [("url", url)])
      | none => printOk (← Desk.say Notice.buildTriggered [("label", order.label)])
      pure queue : Desk Json).Overlooks φ old := by
  split
  · exact overlooks_bind (overlooks_say _ _) fun _ =>
      overlooks_bind (overlooks_printOk _) fun _ => overlooks_pure _
  · exact overlooks_bind (overlooks_say _ _) fun _ =>
      overlooks_bind (overlooks_printOk _) fun _ => overlooks_pure _

theorem overlooks_place (order : Order) (server : Server) :
    (order.place server).Overlooks id old := by
  rw [place_eq]
  refine overlooks_bind (Server.overlooks_trigger _ _ _) fun queue => ?_
  exact overlooks_bind (overlooks_remember _ _ _) fun _ => overlooks_tell _ _

theorem overlooks_rerunLastFailed (server : Server) (job : String) (label : Json) :
    (rerunLastFailed server job label).Overlooks id old := by
  refine overlooks_bind (Server.overlooks_lastFailed _ _) fun last => ?_
  cases last with
  | none => exact overlooks_refuse _ _ _
  | some build =>
    refine overlooks_bind (overlooks_say _ _) fun _ => ?_
    refine overlooks_bind (overlooks_printOk _) fun _ => ?_
    exact overlooks_bind (overlooks_place _ _) fun _ => overlooks_pure _

/-- An action in a menu: a complaint is passed on when it is about a flow, and shown when it is
not. -/
theorem overlooks_asMenuAction {report : Complaint → Desk Unit} {action : Desk ActionResult}
    (hreport : ∀ c, (report c).Overlooks φ old) (h : action.Overlooks φ old) :
    Desk.Overlooks φ old (asMenuAction report action) := by
  refine overlooks_tryCatch h fun f => ?_
  cases f with
  | complaint c =>
    dsimp only
    split
    · exact overlooks_throw _
    · exact overlooks_bind (hreport c) fun _ => overlooks_pure _
  | _ => exact overlooks_throw _

theorem overlooks_asMenuStep {κ : Type} {report : Complaint → Flow.Step κ Unit}
    {action : Flow.Step κ ActionResult} (hreport : ∀ c, (report c).Overlooks φ old)
    (h : action.Overlooks φ old) : Flow.Step.Overlooks φ old (asMenuAction report action) := by
  refine Flow.Step.overlooks_tryCatch h fun f => ?_
  cases f with
  | complaint c =>
    dsimp only
    split
    · exact Flow.Step.overlooks_throw _
    · exact Flow.Step.overlooks_bind (hreport c) fun _ => Flow.Step.overlooks_pure _
  | _ => exact Flow.Step.overlooks_throw _

end Command
end BuildDesk
