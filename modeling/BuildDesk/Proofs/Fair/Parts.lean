/-
The parts that commands share are fair.

Printing, talking to the server, reading and writing the job file, asking, waiting: each of
these is put together from the steps of a run, so it is fair because they are.  All of them
but queuing a build are fair for quiet events as well: whatever they log, they queue no build
(`Event.not_isTrigger_stop`, `Event.not_isTrigger_get`).

A loop that waits for a build is bounded by the replies that are left.  Every look takes one of
them, so the bound is never reached (`Command.isFair_await`).
-/
import BuildDesk.Command.Action
import BuildDesk.Proofs.Ordinary

namespace BuildDesk

open Desk

variable {α : Type} {E : Event → Prop}

theorem Console.isFair_rendered (text : String) : (Console.rendered text).IsFair E := by
  unfold Console.rendered
  split
  · exact isFair_pure _
  · exact isFair_throw rfl
  · exact isFair_throw rfl

theorem Server.isFair_exchange {r : Request} (hE : E (.http r)) : (Server.exchange r).IsFair E := by
  refine isFair_bind (Desk.isFair_exchange hE) fun reply => ?_
  refine isFair_bind (isFair_ofExcept (ordinary_isFailure _)) fun failed => ?_
  split
  · exact isFair_complain rfl
  · exact isFair_pure _

/-! ### The job file -/

namespace Roster

theorem isFair_load : load.IsFair E := fun s => isFair_ofExcept (ordinary_ofFolder _) s

theorem isFair_save (r : Roster) : (save r).IsFair E := by
  refine isFair_get_bind fun s => ?_
  dsimp only
  split
  · exact isFair_throw_bind rfl _ s
  · split
    · exact isFair_throw_bind rfl _ s
    · have hkeep : (modify fun t : Session => { t with folder := (s.folder.replace r.document).1 } :
          Desk Unit).IsFair E := isFair_modify (fun _ => rfl) (fun _ => rfl) fun _ => rfl
      refine isFair_bind hkeep (fun _ => ?_) s
      split
      · exact isFair_throw rfl
      · exact isFair_pure _

theorem isFair_loadFor (settings : Settings) : (loadFor settings).IsFair E := by
  refine isFair_bind isFair_load fun found => ?_
  cases found with
  | none => exact isFair_pure _
  | some r => exact isFair_pure _

theorem isFair_revise (settings : Settings) (change : Roster → Option Roster) :
    (revise settings change).IsFair E := by
  refine isFair_bind (isFair_loadFor settings) fun found => ?_
  cases found with
  | none => exact isFair_pure _
  | some r =>
    dsimp only
    split
    · exact isFair_pure _
    · exact isFair_bind (isFair_save _) fun _ => isFair_pure _

end Roster

theorem Recent.isFair_load (settings : Settings) : (Recent.load settings).IsFair E := by
  refine isFair_bind (Roster.isFair_loadFor settings) fun found => ?_
  cases found with
  | none => exact isFair_pure _
  | some r => exact isFair_pure _

theorem Recent.isFair_record (settings : Settings) (url : String) :
    (Recent.record settings url).IsFair E := by
  unfold Recent.record
  dsimp only
  split
  · exact isFair_bind (Roster.isFair_revise _ _) fun _ => isFair_pure _
  · exact isFair_pure _

theorem Branches.isFair_record (settings : Settings) (url branch : String) :
    (Branches.record settings url branch).IsFair E := by
  unfold Branches.record
  dsimp only
  split
  · exact isFair_bind (Roster.isFair_revise _ _) fun _ => isFair_pure _
  · exact isFair_pure _

theorem Branches.isFair_history (settings : Settings) (url : String) :
    (Branches.history settings url).IsFair E := by
  refine isFair_bind (Roster.isFair_loadFor settings) fun found => ?_
  cases found with
  | none => exact isFair_pure _
  | some r =>
    dsimp only
    split
    · exact isFair_pure _
    · exact isFair_pure _

theorem Branches.isFair_offered (settings : Settings) (url : String) :
    (Branches.offered settings url).IsFair E :=
  isFair_bind (isFair_history settings url) fun _ => isFair_pure _

theorem Branches.isFair_forget (settings : Settings) (url branch : String) :
    (Branches.forget settings url branch).IsFair E := by
  unfold Branches.forget
  dsimp only
  split
  · exact isFair_pure _
  · exact Roster.isFair_revise _ _

/-! ### Menus and records -/

namespace Command

open BuildDesk.Flow

theorem isFair_addressed (settings : Settings) (text : String) :
    (addressed settings text).IsFair E :=
  isFair_bind isFair_lang fun _ => isFair_ofExcept (Settings.ordinary_addressed _ _ _)

theorem isFair_isOver (pace : Pace) : pace.isOver.IsFair E := by
  unfold Pace.isOver
  split
  · exact isFair_pure _
  · exact isFair_bind isFair_clock fun _ => isFair_pure _

theorem isFair_remember (settings : Settings) (job : String) (branch : Option String) :
    (remember settings job branch).IsFair E := by
  refine isFair_tryCatch ?_ fun f => ?_
  · split
    · exact isFair_bind (Branches.isFair_record _ _ _) fun _ => Recent.isFair_record _ _
    · exact Recent.isFair_record _ _
  · cases f with
    | storage => exact .inr (isFair_pure _)
    | _ => exact .inl rfl

/-- An action in a menu: a complaint is passed on when it is about a flow, and shown when it is
not. -/
theorem isFair_asMenuAction {report : Complaint → Desk Unit} {action : Desk ActionResult}
    (hreport : ∀ c, (report c).IsFair E) (h : action.IsFair E) :
    Desk.IsFair E (asMenuAction report action) := by
  refine isFair_tryCatch h fun f => ?_
  cases f with
  | complaint c =>
    dsimp only
    split
    · exact .inl rfl
    · exact .inr (isFair_bind (hreport c) fun _ => isFair_pure _)
  | _ => exact .inl rfl

theorem isFair_asMenuStep {κ : Type} {report : Complaint → Flow.Step κ Unit}
    {action : Flow.Step κ ActionResult} (hreport : ∀ c, (report c).IsFair E)
    (h : action.IsFair E) : Flow.Step.IsFair E (asMenuAction report action) := by
  refine Flow.Step.isFair_tryCatch h fun f => ?_
  cases f with
  | complaint c =>
    dsimp only
    split
    · exact .inl rfl
    · exact .inr (Flow.Step.isFair_bind (hreport c) fun _ => Flow.Step.isFair_pure _)
  | _ => exact .inl rfl

end Command

variable [Event.Common E]

/-! ### Printing -/

namespace Console

theorem isFair_printOk (text : String) : (printOk text).IsFair E :=
  isFair_emit (Event.Common.quiet trivial) rfl

theorem isFair_printError (text : String) : (printError text).IsFair E :=
  isFair_emit (Event.Common.quiet trivial) rfl

theorem isFair_printHint (text : String) : (printHint text).IsFair E :=
  isFair_emit (Event.Common.quiet trivial) rfl

theorem isFair_printWarning (text : String) : (printWarning text).IsFair E :=
  isFair_emit (Event.Common.quiet trivial) rfl

theorem isFair_printPlain (text : String) : (printPlain text).IsFair E :=
  isFair_emit (Event.Common.quiet trivial) rfl

theorem isFair_printMarkup (text : String) : (printMarkup text).IsFair E :=
  isFair_bind (isFair_rendered text) fun _ => isFair_emit (Event.Common.quiet trivial) rfl

theorem isFair_printComplaint (c : Complaint) : (printComplaint c).IsFair E :=
  isFair_bind (isFair_printError _) fun _ => isFair_forM _ isFair_printHint

theorem isFair_printTable (title : String) (header : List String) (rows : List (List String)) :
    (printTable title header rows).IsFair E := by
  refine isFair_bind (isFair_rendered _) fun _ => ?_
  refine isFair_bind (isFair_mapM _ isFair_rendered) fun _ => ?_
  exact isFair_emit (Event.Common.quiet trivial) rfl

theorem isFair_printRule (title : String) : (printRule title).IsFair E :=
  isFair_bind (isFair_rendered title) fun _ => isFair_emit (Event.Common.quiet trivial) rfl

theorem isFair_showStatus (text : String) : (Console.showStatus text).IsFair E :=
  isFair_bind (isFair_rendered text) fun _ => isFair_emit (Event.Common.quiet trivial) rfl

end Console

/-! ### Requests -/

namespace Event

theorem not_isTrigger_get {r : Request} (h : r.method = "GET") : ¬ IsTrigger r := by
  rintro ⟨hpost, -⟩
  rw [h] at hpost
  exact absurd hpost (by decide)

theorem getLast?_joinText (url : String) {path : String} {c : Char}
    (h : (Text.trimLeft '/' path).toList.getLast? = some c) :
    (Server.joinText url path).toList.getLast? = some c := by
  rw [Server.joinText, String.toList_append, List.getLast?_append, h]
  rfl

theorem not_isTrigger_stop (url : String) {r : Request}
    (h : r.url = Server.joinText url "stop") : ¬ IsTrigger r := by
  have hstop : r.url.toList.getLast? = some 'p' := h ▸ getLast?_joinText url rfl
  rintro ⟨-, job, hbuild | hbuild⟩
  · rw [hbuild, getLast?_joinText job (c := 'd') rfl] at hstop
    exact absurd hstop (by decide)
  · rw [hbuild, getLast?_joinText job (c := 's') rfl] at hstop
    exact absurd hstop (by decide)

end Event

namespace Server

theorem isFair_crumb (server : Server) : server.crumb.IsFair E := by
  refine isFair_get_bind fun s => ?_
  rcases hcrumb : s.crumb with _ | header
  · refine isFair_bind (isFair_exchange ?_) (fun reply => ?_) s
    · exact Event.Common.quiet (Event.not_isTrigger_get rfl)
    · refine isFair_bind (isFair_ofExcept ?_) fun header => ?_
      · exact ordinary_bind (ordinary_jsonOf reply) ordinary_crumbOf
      · have hkeep :
            (modify fun s : Session => { s with crumb := some header } : Desk Unit).IsFair E :=
          isFair_modify (fun _ => rfl) (fun _ => rfl) fun _ => rfl
        exact isFair_bind hkeep fun _ => isFair_pure _
  · exact isFair_pure header s

theorem isFair_post {server : Server} {url : String} {data : List (String × Json)}
    (hE : ∀ headers,
      E (.http { method := "POST", url, timeout := server.patience, headers, data })) :
    (server.post url data).IsFair E := by
  unfold post
  split
  · exact isFair_bind (isFair_crumb server) fun header => isFair_exchange (hE _)
  · exact isFair_exchange (hE _)

theorem isFair_fetch (server : Server) (url : String) (params : List (String × Json)) :
    (server.fetch url params).IsFair E :=
  isFair_exchange (Event.Common.quiet (Event.not_isTrigger_get rfl))

theorem isFair_fetchJson (server : Server) (url : Json) (tree : Option String) :
    (server.fetchJson url tree).IsFair E := by
  refine isFair_bind (isFair_ofExcept (ordinary_join _ _)) fun address => ?_
  exact isFair_bind (isFair_fetch _ _ _) fun reply => isFair_ofExcept (ordinary_jsonOf reply)

theorem isFair_listJobs (server : Server) : server.listJobs.IsFair E := by
  refine isFair_bind (isFair_fetchJson _ _ _) fun data => isFair_ofExcept ?_
  exact ordinary_bind (ordinary_member _ _) ordinary_jobsIn

theorem isFair_queuedBuild (server : Server) (queue : Json) :
    (server.queuedBuild queue).IsFair E := by
  refine isFair_bind (isFair_fetchJson _ _ _) fun data => ?_
  refine isFair_bind (isFair_ofExcept (ordinary_member _ _)) fun withdrawn => ?_
  split
  · exact isFair_throw_bind rfl _
  · exact isFair_bind (isFair_ofExcept (ordinary_member _ _)) fun _ => isFair_pure _

theorem isFair_lastBuild (server : Server) (job : Json) : (server.lastBuild job).IsFair E :=
  isFair_bind (isFair_fetchJson _ _ _) fun data => isFair_ofExcept (ordinary_lastBuild data)

theorem isFair_build (server : Server) (url : Json) : (server.build url).IsFair E :=
  isFair_bind (isFair_fetchJson _ _ _) fun data => isFair_ofExcept (ordinary_build url data)

/-- A build that is not found is no build; other complaints are passed on. -/
theorem isFair_lastFailed (server : Server) (job : Json) : (server.lastFailed job).IsFair E := by
  refine isFair_bind (isFair_ofExcept (ordinary_join _ _)) fun url => ?_
  refine isFair_rescue (isFair_map _ (isFair_build server _)) fun c => ?_
  cases c with
  | call fault =>
    dsimp only
    split
    · exact .inr (isFair_pure _)
    · exact .inl rfl
  | _ => exact .inl rfl

theorem isFair_stop (server : Server) (url : Json) : (server.stop url).IsFair E := by
  intro s
  refine fairAt_bind (isFair_ofExcept (ordinary_join _ _) s) fun address s₁ hjoin => ?_
  have haddress : join url "stop" = .ok address := (yields_ofExcept.mp hjoin).1
  have hquiet : ∃ text, address = joinText text "stop" := by
    unfold join at haddress
    split at haddress
    · exact ⟨_, (Except.ok.inj haddress).symm⟩
    · cases haddress
  obtain ⟨text, rfl⟩ := hquiet
  refine isFair_bind (isFair_post fun headers => ?_) (fun _ => isFair_pure _) s₁
  exact Event.Common.quiet (Event.not_isTrigger_stop text rfl)

theorem isFair_consoleText (server : Server) (url : Json) : (server.consoleText url).IsFair E := by
  refine isFair_bind (isFair_ofExcept (ordinary_join _ _)) fun address => ?_
  exact isFair_bind (isFair_fetch _ _ _) fun _ => isFair_pure _

end Server

/-! ### Listing the jobs -/

namespace Roster

theorem isFair_refresh (server : Server) : (refresh server).IsFair E := by
  refine isFair_bind (Server.isFair_listJobs server) fun jobs => ?_
  refine isFair_bind (isFair_loadFor _) fun older => isFair_get_bind fun s => ?_
  refine isFair_bind (isFair_ofExcept (ordinary_fresh _ _ _)) (fun r => ?_) s
  exact isFair_bind (isFair_save _) fun _ => isFair_pure _

theorem isFair_jobsOf (server : Server) (anew : Bool) {agree : Option (String → Desk Bool)}
    (h : ∀ ask ∈ agree, ∀ text, (ask text).IsFair E) : (jobsOf server anew agree).IsFair E := by
  have hcomplain : ∀ found : Option Roster,
      (complain (reason found) : Desk (List Job)).IsFair E := by
    intro found
    refine isFair_complain ?_
    unfold reason
    split <;> rfl
  unfold jobsOf
  split
  · exact isFair_refresh server
  · refine isFair_bind isFair_load fun found => ?_
    split
    · exact isFair_pure _
    · dsimp only
      split
      · exact hcomplain found
      · rename_i ask
        refine isFair_bind (h ask rfl _) fun agreed => ?_
        split
        · exact isFair_refresh server
        · exact hcomplain found

end Roster

namespace Command

open Console BuildDesk.Flow

/-! ### Questions -/

theorem isFair_confirm (settings : Settings) (text : String) (standard : Bool) :
    (confirm settings text standard).IsFair E := by
  refine isFair_bind (isFair_addressed _ _) fun message => ?_
  exact isFair_bind (isFair_ask rfl) fun _ => isFair_pure _

theorem isFair_agreeToRefresh (settings : Settings) (reason : String) :
    (agreeToRefresh settings reason).IsFair E :=
  isFair_bind (isFair_say _ _) fun _ => isFair_confirm _ _ _

theorem isFair_jobsFor (server : Server) (interactive anew : Bool) (jobUrl : Option String) :
    (jobsFor server interactive anew jobUrl).IsFair E := by
  unfold jobsFor
  split
  · exact isFair_rescue (Roster.isFair_jobsOf _ _ nofun) fun _ => .inr (isFair_pure _)
  · refine isFair_bind (Roster.isFair_jobsOf _ _ ?_) fun jobs => ?_
    · intro ask hask text
      split at hask
      · obtain rfl := Option.some.inj hask
        exact isFair_agreeToRefresh _ _
      · cases hask
    · split
      · exact isFair_refuse_bind _ _ _ _
      · exact isFair_pure _

theorem isFair_showStatus (server : Server) (job label : Json) :
    (showStatus server job label).IsFair E := by
  refine isFair_bind (Server.isFair_lastBuild server job) fun last => ?_
  split
  · refine isFair_bind (isFair_say _ _) fun _ => ?_
    exact isFair_bind (isFair_printMarkup _) fun _ => isFair_pure _
  · refine isFair_bind (isFair_printPlain _) fun _ => isFair_get_bind fun s => ?_
    refine isFair_bind (isFair_ofExcept (Report.ordinary_details _ _ _)) (fun _ => ?_) s
    exact isFair_bind (isFair_printPlain _) fun _ => isFair_pure _

/-! ### Waiting -/

/-- When the part ends well, it has taken a reply. -/
def TakesReply (part : Desk α) : Prop :=
  ∀ s a s', part.Yields s a s' → s'.responses.length < s.responses.length

theorem takesReply_bind {β : Type} {part : Desk α} {next : α → Desk β} (h : TakesReply part)
    (hnext : ∀ a, (next a).IsFair Event.IsAny) : TakesReply (part >>= next) := by
  intro s b s' hb
  obtain ⟨a, s₁, ha, hrest⟩ := yields_bind.mp hb
  have hlater := ((hnext a s₁ 0).since_of_yields hrest).responses_le
  exact Nat.lt_of_le_of_lt hlater (h s a s₁ ha)

theorem takesReply_after {β : Type} {part : Desk α} {next : α → Desk β}
    (h : part.IsFair Event.IsAny) (hnext : ∀ a, TakesReply (next a)) :
    TakesReply (part >>= next) := by
  intro s b s' hb
  obtain ⟨a, s₁, ha, hrest⟩ := yields_bind.mp hb
  have hearlier := ((h s 0).since_of_yields ha).responses_le
  exact Nat.lt_of_lt_of_le (hnext a s₁ b s' hrest) hearlier

theorem takesReply_exchange (r : Request) : TakesReply (Desk.exchange r) := by
  intro s reply s' h
  obtain ⟨seconds, rest, hs, rfl⟩ := yields_exchange.mp h
  rw [hs]
  exact Nat.lt_succ_self _

theorem takesReply_fetchJson (server : Server) (url : Json) (tree : Option String) :
    TakesReply (server.fetchJson url tree) := by
  refine takesReply_after (isFair_ofExcept (Server.ordinary_join _ _)) fun address => ?_
  refine takesReply_bind (takesReply_bind (takesReply_exchange _) fun reply => ?_) fun reply =>
    isFair_ofExcept (Server.ordinary_jsonOf reply)
  refine isFair_bind (isFair_ofExcept (Server.ordinary_isFailure _)) fun failed => ?_
  split
  · exact isFair_complain rfl
  · exact isFair_pure _

theorem takesReply_queuedBuild (server : Server) (queue : Json) :
    TakesReply (server.queuedBuild queue) := by
  refine takesReply_bind (takesReply_fetchJson _ _ _) fun data => ?_
  refine isFair_bind (isFair_ofExcept (Server.ordinary_member _ _)) fun withdrawn => ?_
  split
  · exact isFair_throw_bind rfl _
  · exact isFair_bind (isFair_ofExcept (Server.ordinary_member _ _)) fun _ => isFair_pure _

theorem takesReply_finished (server : Server) (url : Json) : TakesReply (finished server url) :=
  takesReply_bind (takesReply_bind (takesReply_fetchJson server url _) fun data =>
    isFair_ofExcept (Server.ordinary_build url data)) fun _ => isFair_pure _

theorem isFair_rest (pace : Pace) : pace.rest.IsFair E := by
  unfold Pace.rest
  split
  · exact isFair_pause _
  · exact isFair_throw rfl

/-- A loop with more looks than there are replies comes to an end. -/
theorem fairAt_lookFor {pace : Pace} {look : Desk (Option α)} (hlook : look.IsFair E)
    (htakes : TakesReply look) {looks : Nat} {s : Session} (hlooks : s.responses.length < looks) :
    FairAt E (lookFor pace look looks) s := by
  -- Each look takes a reply, so fewer replies than looks are left.
  induction looks generalizing s with
  | zero => exact absurd hlooks (Nat.not_lt_zero _)
  | succ looks ih =>
    refine fairAt_bind (hlook s) fun found s₁ hfound => ?_
    have hfewer : s₁.responses.length < looks :=
      Nat.lt_of_lt_of_le (htakes s found s₁ hfound) (Nat.le_of_lt_succ hlooks)
    rcases found with _ | found
    · refine fairAt_bind (isFair_isOver pace s₁) fun isOver s₂ hover => ?_
      have hover_le := ((isFair_isOver (E := E) pace s₁ 0).since_of_yields hover).responses_le
      cases isOver with
      | true => exact isFair_pure _ s₂
      | false =>
        refine fairAt_bind (isFair_rest pace s₂) fun _ s₃ hrest => ?_
        have hrest_le := ((isFair_rest (E := E) pace s₂ 0).since_of_yields hrest).responses_le
        exact ih (by omega)
    · exact isFair_pure _ s₁

theorem isFair_await {pace : Pace} {look : Desk (Option α)} (hlook : look.IsFair E)
    (htakes : TakesReply look) : (await pace look).IsFair E :=
  isFair_get_bind fun _ => fairAt_lookFor hlook htakes (Nat.lt_succ_self _)

theorem isFair_lastBuildUrl (server : Server) (job : String) (label : Json) :
    (lastBuildUrl server job label).IsFair E := by
  refine isFair_bind (Server.isFair_lastBuild _ _) fun last => ?_
  split
  · exact isFair_refuse_bind _ _ _ _
  · exact isFair_pure _

theorem isFair_locate (server : Server) (target : Target) (pace : Pace) :
    (locate server target pace).IsFair E := by
  unfold locate
  split
  · exact isFair_pure _
  · exact isFair_await (Server.isFair_queuedBuild _ _) (takesReply_queuedBuild _ _)
  · exact isFair_bind (isFair_lastBuildUrl _ _ _) fun _ => isFair_pure _

theorem isFair_untilFinished (server : Server) (target : Target) (pace : Pace) :
    (untilFinished server target pace).IsFair E := by
  refine isFair_bind (isFair_locate _ _ _) fun url => ?_
  cases url with
  | none => exact isFair_pure _
  | some url =>
    exact isFair_await (isFair_bind (Server.isFair_build _ _) fun _ => isFair_pure _)
      (takesReply_finished _ _)

/-- Reports what comes of waiting for a build. -/
def reported (watching : Desk (Option Server.Build)) (target : Target) (pace : Pace) :
    Desk Waited := do
  try
    match ← watching with
    | some build => reportFinished target.label build
    | none => reportTimeout target pace
  catch
    | .interrupted =>
      printWarning (← Desk.say Notice.watchCancelled [])
      pure (.cancelled (Json.ofOption target.build))
    | f => throw f

theorem isFair_reportFinished (label : Json) (build : Server.Build) :
    (reportFinished label build).IsFair E := by
  refine isFair_bind (isFair_say _ _) fun _ => ?_
  split
  · exact isFair_bind (isFair_printOk _) fun _ => isFair_pure _
  · exact isFair_bind (isFair_printError _) fun _ => isFair_pure _

theorem isFair_reportTimeout (target : Target) (pace : Pace) :
    (reportTimeout target pace).IsFair E := by
  refine isFair_bind isFair_clock fun _ => ?_
  refine isFair_bind (isFair_ofExcept (Report.ordinary_duration _)) fun _ => ?_
  refine isFair_bind (isFair_say _ _) fun _ => ?_
  exact isFair_bind (isFair_printError _) fun _ => isFair_pure _

/-- Waiting and reporting what it came to, if the waiting itself is fair. -/
theorem isFair_reported {watching : Desk (Option Server.Build)} (hwatching : watching.IsFair E)
    (target : Target) (pace : Pace) : (reported watching target pace).IsFair E := by
  refine isFair_tryCatch (isFair_bind hwatching fun found => ?_) fun f => ?_
  · cases found with
    | none => exact isFair_reportTimeout _ _
    | some build => exact isFair_reportFinished _ _
  · cases f with
    | interrupted =>
      refine .inr (isFair_bind (isFair_say _ _) fun _ => ?_)
      exact isFair_bind (isFair_printWarning _) fun _ => isFair_pure _
    | _ => exact .inl rfl

theorem isFair_wait (server : Server) (target : Target) (pause limit : Option Quantity) :
    (wait server target pause limit).IsFair E := by
  refine isFair_bind isFair_clock fun started => isFair_reported ?_ _ _
  exact isFair_bind (isFair_say _ _) fun _ =>
    isFair_bind (Console.isFair_showStatus _) fun _ => isFair_untilFinished _ _ _

/-! ### Actions -/

theorem isFair_watch (server : Server) (target : Target) : (watch server target).IsFair E := by
  refine isFair_bind (isFair_wait _ _ _ _) fun waited => ?_
  split
  · exact isFair_pure _
  · exact isFair_pure _

theorem isFair_showLog (server : Server) (job : String) (label : Json) (build : Option Json) :
    (showLog server job label build).IsFair E := by
  have hshow : ∀ url : Json, (do
      let text ← server.consoleText url
      printRule (← Desk.say Notice.consoleOutput [("url", url)])
      printPlain text
      printRule ""
      pure .ok : Desk ActionResult).IsFair E := by
    intro url
    refine isFair_bind (Server.isFair_consoleText _ _) fun text => ?_
    refine isFair_bind (isFair_say _ _) fun _ => isFair_bind (isFair_printRule _) fun _ => ?_
    refine isFair_bind (isFair_printPlain _) fun _ => isFair_bind (isFair_printRule _) fun _ => ?_
    exact isFair_pure _
  unfold showLog
  split
  · exact hshow _
  · exact isFair_bind (isFair_lastBuildUrl _ _ _) hshow

theorem isFair_cancel (server : Server) (job : String) (label : Json)
    {agree : Option (String → Desk Bool)} (h : ∀ ask ∈ agree, ∀ text, (ask text).IsFair E) :
    (cancel server job label agree).IsFair E := by
  have hrunning : (runningBuild server job label).IsFair E := by
    refine isFair_bind (Server.isFair_lastBuild _ _) fun last => ?_
    split
    · exact isFair_refuse_bind _ _ _ _
    · exact isFair_pure _
  have hstop : ∀ (last : Server.LastBuild) (agreed : Bool), (do
      if agreed then
        server.stop last.url
        printOk (← Desk.say Notice.buildCancelled [("url", last.url)])
      else printOk (← Desk.say Notice.cancelSkipped [])
      pure .ok : Desk ActionResult).IsFair E := by
    intro last agreed
    have hdone : ∀ text, (do printOk text; pure .ok : Desk ActionResult).IsFair E := fun text =>
      isFair_bind (isFair_printOk text) fun _ => isFair_pure _
    cases agreed with
    | true => exact isFair_bind (Server.isFair_stop _ _) fun _ => isFair_bind (isFair_say _ _) hdone
    | false => exact isFair_bind (isFair_say _ _) hdone
  refine isFair_bind hrunning fun last => ?_
  split
  · exact hstop last true
  · rename_i ask
    exact isFair_bind (isFair_say _ _) fun text => isFair_bind (h ask rfl text) (hstop last)

/-! ### Builds -/

/-- Queuing a build is fair where everything may happen. -/
theorem isFair_place (order : Order) (server : Server) :
    (order.place server).IsFair Event.IsAny := by
  have hqueue : ∀ params, (server.trigger (.str order.job) params).IsFair Event.IsAny := fun _ =>
    isFair_bind (isFair_ofExcept (Server.ordinary_join _ _)) fun _ =>
      isFair_bind (Server.isFair_post fun _ => trivial) fun _ => isFair_pure _
  refine isFair_bind (hqueue _) fun queue => ?_
  refine isFair_bind (isFair_remember _ _ _) fun _ => ?_
  have hdone : ∀ text, (do printOk text; pure queue : Desk Json).IsFair Event.IsAny := fun text =>
    isFair_bind (isFair_printOk text) fun _ => isFair_pure _
  split
  · exact isFair_bind (isFair_say _ _) hdone
  · exact isFair_bind (isFair_say _ _) hdone

theorem isFair_rerunLastFailed (server : Server) (job : String) (label : Json) :
    (rerunLastFailed server job label).IsFair Event.IsAny := by
  refine isFair_bind (Server.isFair_lastFailed _ _) fun last => ?_
  cases last with
  | none => exact isFair_refuse _ _ _
  | some build =>
    refine isFair_bind (isFair_say _ _) fun _ => isFair_bind (isFair_printOk _) fun _ => ?_
    exact isFair_bind (isFair_place _ _) fun _ => isFair_pure _

end Command
end BuildDesk
