/-
The parts that commands share carry over from one language to another.

What is printed is put in words, and whether a marked-up message can be shown depends on what it
is about and not on its words.  What is sent to the server has nothing to do with words at all.
So each part does the same in every language, and it does what its kind of course allows:

* `Console.echoes_printMarkup` — marked-up texts with the same tags;
* `Server.carries_lastBuild`, `Server.carries_trigger`, … — requests;
* `Roster.carries_jobsOf`, `carries_jobsFor` — the jobs;
* `carries_wait`, `carries_showLog`, `carries_cancel`, `carries_place` — the actions.
-/
import BuildDesk.Proofs.Command.Consent
import BuildDesk.Proofs.Command.Placing
import BuildDesk.Proofs.Console.Tags
import BuildDesk.Proofs.Session.Language
import Mathlib.Data.List.Forall2

namespace BuildDesk

open Desk Moment

variable {α : Type} {P : List Moment → Prop}

/-! ### Printing -/

namespace Console

section
variable [Simple P]

/-- A text with the same tags is shown just as well. -/
theorem echoes_rendered {text text' : String} (h : tagging text = tagging text') :
    Echoes P (fun _ _ => True) (rendered text) (rendered text') := by
  rw [← render_unit, ← render_unit] at h
  unfold rendered
  cases hleft : render text with
  | ok shown =>
    cases hright : render text' with
    | ok shown' => exact echoes_pure trivial
    | error misfit => rw [hleft, hright] at h; cases h
  | error misfit =>
    cases hright : render text' with
    | ok shown' => rw [hleft, hright] at h; cases h
    | error misfit' =>
      rw [hleft, hright] at h
      obtain rfl : misfit = misfit' := Except.error.inj h
      cases misfit <;> exact echoes_throw rfl

/-- One result in other words than another. -/
theorem echoes_out (text text' : String) : Echoes P Eq (emit (.out text)) (emit (.out text')) :=
  echoes_emit rfl rfl

/-- One diagnostic in other words than another. -/
theorem echoes_err (text text' : String) : Echoes P Eq (emit (.err text)) (emit (.err text')) :=
  echoes_emit rfl rfl

theorem echoes_printOk (text text' : String) : Echoes P Eq (printOk text) (printOk text') :=
  echoes_out _ _

theorem echoes_printError (text text' : String) :
    Echoes P Eq (printError text) (printError text') := echoes_err _ _

theorem echoes_printHint (text text' : String) : Echoes P Eq (printHint text) (printHint text') :=
  echoes_err _ _

theorem echoes_printWarning (text text' : String) :
    Echoes P Eq (printWarning text) (printWarning text') := echoes_err _ _

theorem carries_printPlain (text : String) : (printPlain text).Carries P := echoes_out _ _

theorem echoes_printMarkup {text text' : String} (h : tagging text = tagging text') :
    Echoes P Eq (printMarkup text) (printMarkup text') :=
  echoes_bind (echoes_rendered h) fun _ _ _ => echoes_out _ _

theorem echoes_printMarkupError {text text' : String} (h : tagging text = tagging text') :
    Echoes P Eq (printMarkupError text) (printMarkupError text') :=
  echoes_bind (echoes_rendered h) fun _ _ _ => echoes_err _ _

theorem echoes_printRule {title title' : String} (h : tagging title = tagging title') :
    Echoes P Eq (printRule title) (printRule title') :=
  echoes_bind (echoes_rendered h) fun _ _ _ => echoes_emit rfl rfl

theorem echoes_showStatus {text text' : String} (h : tagging text = tagging text') :
    Echoes P Eq (Console.showStatus text) (Console.showStatus text') :=
  echoes_bind (echoes_rendered h) fun _ _ _ => echoes_emit rfl rfl

/-- Texts with the same tags, one by one. -/
theorem echoes_mapM_rendered {texts texts' : List String}
    (h : List.Forall₂ (fun a b => tagging a = tagging b) texts texts') :
    Echoes P (fun a b => a.length = b.length) (texts.mapM rendered) (texts'.mapM rendered) := by
  induction h with
  | nil => exact echoes_pure rfl
  | cons hhead _ ih =>
    rw [List.mapM_cons, List.mapM_cons]
    exact echoes_bind (echoes_rendered hhead) fun _ _ _ => echoes_bind ih fun _ _ hlength =>
      echoes_pure (congrArg (· + 1) hlength)

/-- A table with the same rows, whose title and headings have the same tags. -/
theorem echoes_printTable {title title' : String} {header header' : List String}
    {rows : List (List String)} (htitle : tagging title = tagging title')
    (hheader : List.Forall₂ (fun a b => tagging a = tagging b) header header') :
    Echoes P Eq (printTable title header rows) (printTable title' header' rows) := by
  refine echoes_bind (echoes_rendered htitle) fun _ _ _ => ?_
  refine echoes_bind (echoes_mapM_rendered hheader) fun shown shown' hlength => ?_
  refine echoes_emit rfl ?_
  have hblank : ∀ (n : Nat) (cells : List String), (padded n cells).map (fun _ => "") =
      List.replicate (cells.length + (n - cells.length)) "" := fun n cells => by
    rw [padded, List.map_const', List.length_append, List.length_replicate]
  simp only [Event.mute, hblank, hlength, hheader.length_eq]

/-- Complaints that differ in words have as many hints. -/
theorem length_hints_of_mute {c c' : Complaint}
    (h : (Fault.complaint c).mute = (Fault.complaint c').mute) :
    c.hints.length = c'.hints.length := by
  have hsame : ∀ c : Complaint, ∀ d, (Fault.complaint c).mute = .complaint d →
      c.hints.length = d.hints.length := by
    intro c d hd
    cases c with
    | spoken lang message args hint =>
      obtain rfl := Fault.complaint.inj hd
      simp [Complaint.hints]
    | _ =>
      obtain rfl := Fault.complaint.inj hd
      rfl
  obtain ⟨d, hd⟩ : ∃ d, (Fault.complaint c).mute = .complaint d := by
    cases c <;> exact ⟨_, rfl⟩
  rw [hsame c d hd, hsame c' d (h ▸ hd)]

/-- Whether a complaint is about a flow has nothing to do with words. -/
theorem isFlow_of_mute {c c' : Complaint}
    (h : (Fault.complaint c).mute = (Fault.complaint c').mute) : c.isFlow = c'.isFlow := by
  have hsame : ∀ c d, (Fault.complaint c).mute = .complaint d → c.isFlow = d.isFlow := by
    intro c d hd
    cases c <;> obtain rfl := Fault.complaint.inj hd <;> rfl
  obtain ⟨d, hd⟩ : ∃ d, (Fault.complaint c).mute = .complaint d := by
    cases c <;> exact ⟨_, rfl⟩
  rw [hsame c d hd, hsame c' d (h ▸ hd)]

theorem echoes_printComplaint {c c' : Complaint}
    (h : (Fault.complaint c).mute = (Fault.complaint c').mute) :
    Echoes P Eq (printComplaint c) (printComplaint c') :=
  echoes_bind (echoes_printError _ _) fun _ _ _ =>
    echoes_forM (length_hints_of_mute h) fun _ _ => echoes_printHint _ _

theorem carries_printComplaint (c : Complaint) : (printComplaint c).Carries P :=
  echoes_printComplaint rfl

end
end Console

/-! ### Requests -/

namespace Server

theorem carries_exchange [Simple P] {r : Request} (hP : ∀ response, P [.sent ⟨r, response⟩]) :
    (Server.exchange r).Carries P := by
  refine carries_bind (Desk.carries_exchange hP) fun reply => ?_
  refine carries_bind (carries_ofExcept _) fun failed => ?_
  split
  · exact carries_complain _
  · exact carries_pure _

section
variable [Reading P]

theorem carries_crumb (server : Server) : server.crumb.Carries P := by
  refine carries_get_bind (fun s => ?_) fun s t hst => ?_
  · split
    · exact carries_pure _
    · refine carries_bind (carries_exchange fun _ => Reading.reads rfl rfl) fun reply => ?_
      refine carries_bind (carries_ofExcept _) fun header => ?_
      refine carries_bind ?_ fun _ => carries_pure _
      exact carries_modify (fun _ => rfl) (fun _ => rfl) (fun _ => rfl) fun _ => rfl
  · rw [Session.same Session.crumb (fun _ => rfl) hst]

theorem carries_post (server : Server) (url : String) (data : List (String × Json))
    (hP : ∀ {r : Request} {response}, r.method = "POST" → r.url = url → P [.sent ⟨r, response⟩]) :
    (server.post url data).Carries P := by
  unfold post
  split
  · exact carries_bind (carries_crumb server) fun _ => carries_exchange fun _ => hP rfl rfl
  · exact carries_exchange fun _ => hP rfl rfl

theorem carries_fetch (server : Server) (url : String) {params : List (String × Json)}
    (h : ∀ param ∈ params, param.2.asString? ≠ some jobsTree) :
    (server.fetch url params).Carries P := by
  refine carries_exchange fun _ => Reading.reads rfl ?_
  rw [isListing, List.any_eq_false]
  exact fun param hparam => by simpa using h param hparam

theorem carries_fetchJson (server : Server) (url : Json) {tree : Option String}
    (h : tree ≠ some jobsTree) : (server.fetchJson url tree).Carries P := by
  refine carries_bind (carries_ofExcept _) fun address => ?_
  refine carries_bind (carries_fetch server address fun param hparam => ?_)
    fun _ => carries_ofExcept _
  obtain ⟨text, htext, rfl⟩ := List.mem_map.mp hparam
  intro hsame
  exact h ((Option.mem_toList.mp htext).trans (congrArg some (Option.some.inj hsame)))

theorem carries_queuedBuild (server : Server) (queue : Json) :
    (server.queuedBuild queue).Carries P := by
  refine carries_bind (carries_fetchJson _ _ nofun) fun data => ?_
  refine carries_bind (carries_ofExcept _) fun withdrawn => ?_
  split
  · exact carries_throw_bind _ _
  · exact carries_bind (carries_ofExcept _) fun _ => carries_pure _

theorem carries_lastBuild (server : Server) (job : Json) : (server.lastBuild job).Carries P :=
  carries_bind (carries_fetchJson _ _ (by decide)) fun _ => carries_ofExcept _

theorem carries_build (server : Server) (url : Json) : (server.build url).Carries P :=
  carries_bind (carries_fetchJson _ _ (by decide)) fun _ => carries_ofExcept _

theorem carries_lastFailed (server : Server) (job : Json) : (server.lastFailed job).Carries P := by
  refine carries_bind (carries_ofExcept _) fun url => ?_
  refine carries_rescue (carries_map _ (carries_build _ _)) fun c c' hcc' => ?_
  have hspoken : ∀ {d d' : Complaint}, (Fault.complaint d).mute = (Fault.complaint d').mute →
      Echoes P Eq (complain d : Desk (Option Build)) (complain d') := fun h => echoes_throw h
  cases c with
  | call fault =>
    obtain rfl : Complaint.call fault = c' := by
      cases c' with
      | spoken => cases hcc'
      | _ => exact Fault.complaint.inj hcc'
    dsimp only
    split
    · exact carries_pure _
    · exact carries_complain _
  | _ =>
    cases c' with
    | call => cases hcc'
    | _ => exact hspoken hcc'

theorem carries_consoleText (server : Server) (url : Json) : (server.consoleText url).Carries P :=
  carries_bind (carries_ofExcept _) fun _ =>
    carries_bind (carries_fetch _ _ nofun) fun _ => carries_pure _

end

/-- All jobs are asked for. -/
theorem carries_listJobs [Listing P] (server : Server) : server.listJobs.Carries P := by
  refine carries_bind ?_ fun _ => carries_ofExcept _
  refine carries_bind (carries_ofExcept _) fun address => ?_
  exact carries_bind (carries_exchange fun _ => Listing.lists rfl) fun _ => carries_ofExcept _

/-- A request that queues a build. -/
theorem carries_trigger [Reading P] (server : Server) (job : String)
    (params : List (String × Json))
    (hP : ∀ {r : Request} {response}, Event.IsTrigger r → P [.sent ⟨r, response⟩]) :
    (server.trigger (.str job) params).Carries P := by
  have hpost : ∀ path, path = "build" ∨ path = "buildWithParameters" → (do
      let reply ← server.post (joinText job path) params
      pure (headerOf reply "Location") : Desk Json).Carries P := by
    refine fun path hpath => carries_bind (carries_post server _ _ fun hmethod hurl => ?_)
      fun _ => carries_pure _
    refine hP ⟨hmethod, job, ?_⟩
    rcases hpath with rfl | rfl
    · exact .inl hurl
    · exact .inr hurl
  refine hpost _ ?_
  split
  · exact .inl rfl
  · exact .inr rfl

end Server

/-! ### The jobs -/

namespace Roster

theorem carries_refresh [Listing P] (server : Server) : (refresh server).Carries P := by
  refine carries_bind (Server.carries_listJobs server) fun jobs => ?_
  refine carries_bind (carries_onFolder (onFolder_loadFor _)) fun older => ?_
  refine carries_get_bind (fun s => ?_) fun s t hst => ?_
  · refine carries_bind (carries_ofExcept _) fun r => ?_
    exact carries_bind (carries_onFolder (onFolder_save _)) fun _ => carries_pure _
  · rw [Session.same Session.now (fun _ => rfl) hst]

/-- The jobs are listed when that is wanted, and when the user agrees to it. -/
theorem carries_jobsOf [Simple P] (server : Server) (anew : Bool)
    {agree : Option (String → Desk Bool)}
    (hlist : anew = true ∨ agree.isSome = true → (refresh server).Carries P)
    (h : ∀ ask ∈ agree, ∀ text, (ask text).Carries P) : (jobsOf server anew agree).Carries P := by
  unfold jobsOf
  split
  · rename_i hanew
    exact hlist (.inl hanew)
  · refine carries_bind (carries_onFolder onFolder_load) fun found => ?_
    split
    · exact carries_pure _
    · dsimp only
      split
      · exact carries_complain _
      · rename_i ask
        refine carries_bind (h ask rfl _) fun agreed => ?_
        split
        · exact hlist (.inr rfl)
        · exact carries_complain _

end Roster

namespace Command

open Console BuildDesk.Flow

/-! ### Questions -/

/-- Whether the server can be named has nothing to do with words. -/
theorem echoes_addressed [Simple P] (settings : Settings) (text text' : String) :
    Echoes P (fun _ _ => True) (addressed settings text) (addressed settings text') := by
  refine echoes_bind echoes_lang fun lang lang' _ => ?_
  have hnamed : ∀ lang text, settings.addressed lang text = settings.target.map fun target =>
      Phrase.say lang Dialog.targetSuffix [("message", .str text), ("target", .str target)] := by
    intro lang text
    rw [Settings.addressed]
    cases settings.target <;> rfl
  rw [hnamed, hnamed]
  cases settings.target with
  | error f => exact echoes_throw rfl
  | ok target => exact echoes_pure trivial

theorem echoes_confirm [Simple P] (settings : Settings) (text text' : String) (standard : Bool)
    (hP : ∀ {prompt : Event} {answer}, prompt.isPrompt = true → P [.asked prompt answer]) :
    Echoes P Eq (confirm settings text standard) (confirm settings text' standard) :=
  echoes_bind (echoes_addressed settings text text') fun _ _ _ =>
    echoes_bind (echoes_ask rfl rfl fun _ => hP rfl) fun _ _ h => h ▸ carries_pure _

/-- The jobs are listed when that is wanted, and when somebody can be asked and agrees to it. -/
theorem carries_jobsFor [Simple P] (server : Server) (interactive anew : Bool)
    (jobUrl : Option String)
    (hlist : anew = true ∨ interactive = true → (Roster.refresh server).Carries P)
    (hP : interactive = true →
      ∀ {prompt : Event} {answer}, prompt.isPrompt = true → P [.asked prompt answer]) :
    (jobsFor server interactive anew jobUrl).Carries P := by
  unfold jobsFor
  split
  · refine carries_rescue (Roster.carries_jobsOf _ _ ?_ nofun) fun _ _ _ => carries_pure _
    exact fun h => hlist (.inl (h.resolve_right nofun))
  · refine carries_bind (Roster.carries_jobsOf _ _ (fun h => hlist (h.imp_right ?_)) ?_)
      fun jobs => ?_
    · cases interactive with
      | true => exact fun _ => rfl
      | false => exact nofun
    · intro ask hask text
      split at hask
      · rename_i hinteractive
        obtain rfl := Option.some.inj hask
        exact carries_say_bind fun _ _ => echoes_confirm _ _ _ _ (hP hinteractive)
      · cases hask
    · split
      · exact carries_refuse_bind _ _ _ _
      · exact carries_pure _

/-! ### Reading about builds -/

section
variable [Reading P]

/-- Messages about one thing that are shown as marked-up texts, with the slot for that thing. -/
def markedUp : List (Notice × String) :=
  [(.noBuilds, "label"), (.watchWaiting, "label"), (.consoleOutput, "url"), (.jobsTitle, "count")]

theorem wording_of_markedUp {message : Notice} {name : String} (h : (message, name) ∈ markedUp)
    (lang : Lang) : ((message : Phrase).wording lang).isInert = true ∧
      ((message : Phrase).wording lang).slots = [name] := by
  simp only [markedUp, List.mem_cons, List.not_mem_nil, or_false, Prod.mk.injEq] at h
  rcases h with ⟨rfl, rfl⟩ | ⟨rfl, rfl⟩ | ⟨rfl, rfl⟩ | ⟨rfl, rfl⟩ <;> cases lang <;> decide

/-- The tags of a message about one thing are those of that thing, in every language. -/
theorem tagging_said {message : Notice} {name : String} (h : (message, name) ∈ markedUp)
    (v : Json) (lang lang' : Lang) : tagging (Phrase.say lang message [(name, v)]) =
      tagging (Phrase.say lang' message [(name, v)]) := by
  have hwording := wording_of_markedUp h
  have hlookup : List.lookup name [(name, v)] = some v := by simp
  rw [Phrase.tagging_say (hwording lang).1 (hwording lang).2 hlookup,
    Phrase.tagging_say (hwording lang').1 (hwording lang').2 hlookup]

/-- A message without slots has no tags, in any language. -/
theorem tagging_said_plain {message : Notice}
    (h : message ∈ [Notice.noJobsToShow, .columnJob, .columnUrl, .aborted]) (lang lang' : Lang) :
    tagging (Phrase.say lang message []) = tagging (Phrase.say lang' message []) := by
  have hwording : ∀ lang, ((message : Phrase).wording lang).isInert = true ∧
      ((message : Phrase).wording lang).slots = [] := by
    simp only [List.mem_cons, List.not_mem_nil, or_false] at h
    intro lang
    rcases h with rfl | rfl | rfl | rfl <;> cases lang <;> decide
  rw [Phrase.tagging_say_plain (hwording lang).1 (hwording lang).2,
    Phrase.tagging_say_plain (hwording lang').1 (hwording lang').2]

theorem carries_showStatus (server : Server) (job label : Json) :
    (showStatus server job label).Carries P := by
  refine carries_bind (Server.carries_lastBuild server job) fun last => ?_
  split
  · refine echoes_bind (echoes_say _ _) fun a b hab => ?_
    obtain ⟨lang, lang', rfl, rfl⟩ := hab
    exact echoes_bind (echoes_printMarkup (tagging_said (by decide) _ _ _)) fun _ _ _ =>
      carries_pure _
  · refine carries_bind (carries_printPlain _) fun _ => ?_
    refine carries_get_bind (fun s => ?_) fun s t hst => ?_
    · exact carries_bind (carries_ofExcept _) fun _ =>
        carries_bind (carries_printPlain _) fun _ => carries_pure _
    · rw [Session.same Session.now (fun _ => rfl) hst]

end

/-! ### Waiting -/

section
variable [Simple P]

theorem carries_isOver (pace : Pace) : pace.isOver.Carries P := by
  unfold Pace.isOver
  split
  · exact carries_pure _
  · exact carries_bind carries_clock fun _ => carries_pure _

theorem carries_rest (pace : Pace) : pace.rest.Carries P := by
  unfold Pace.rest
  split
  · exact carries_pause _
  · exact carries_throw _

theorem carries_await (pace : Pace) {look : Desk (Option α)} (hlook : look.Carries P) :
    (await pace look).Carries P := by
  refine carries_get_bind (fun s => ?_) fun s t hst => ?_
  · induction s.responses.length + 1 with
    | zero => exact carries_throw _
    | succ looks ih =>
      refine carries_bind hlook fun found => ?_
      rcases found with _ | found
      · refine carries_bind (carries_isOver pace) fun isOver => ?_
        cases isOver with
        | true => exact carries_pure _
        | false => exact carries_bind (carries_rest pace) fun _ => ih
      · exact carries_pure _
  · rw [Session.same Session.responses (fun _ => rfl) hst]

theorem carries_reportFinished (label : Json) (build : Server.Build) :
    (reportFinished label build).Carries P := by
  refine carries_say_bind fun _ _ => ?_
  split
  · exact echoes_bind (echoes_printOk _ _) fun _ _ _ => carries_pure _
  · exact echoes_bind (echoes_printError _ _) fun _ _ _ => carries_pure _

theorem carries_reportTimeout (target : Target) (pace : Pace) :
    (reportTimeout target pace).Carries P := by
  refine carries_bind carries_clock fun _ => carries_bind (carries_ofExcept _) fun _ => ?_
  exact carries_say_bind fun _ _ => echoes_bind (echoes_printError _ _) fun _ _ _ =>
    carries_pure _

end

section
variable [Reading P]

theorem carries_lastBuildUrl (server : Server) (job : String) (label : Json) :
    (lastBuildUrl server job label).Carries P := by
  refine carries_bind (Server.carries_lastBuild _ _) fun last => ?_
  split
  · exact carries_refuse_bind _ _ _ _
  · exact carries_pure _

theorem carries_untilFinished (server : Server) (target : Target) (pace : Pace) :
    (untilFinished server target pace).Carries P := by
  have hlocate : (locate server target pace).Carries P := by
    unfold locate
    split
    · exact carries_pure _
    · exact carries_await pace (Server.carries_queuedBuild _ _)
    · exact carries_bind (carries_lastBuildUrl _ _ _) fun _ => carries_pure _
  refine carries_bind hlocate fun url => ?_
  cases url with
  | none => exact carries_pure _
  | some url =>
    exact carries_await pace (carries_bind (Server.carries_build _ _) fun _ => carries_pure _)

theorem carries_watchClosely (server : Server) (target : Target) (pace : Pace) :
    (watchClosely server target pace).Carries P := by
  refine echoes_bind (echoes_say _ _) fun a b hab => ?_
  obtain ⟨lang, lang', rfl, rfl⟩ := hab
  exact echoes_bind (Console.echoes_showStatus (tagging_said (by decide) _ _ _)) fun _ _ _ =>
    carries_untilFinished _ _ _

theorem carries_wait (server : Server) (target : Target) (pause limit : Option Quantity) :
    (wait server target pause limit).Carries P := by
  refine carries_bind carries_clock fun started => echoes_tryCatch ?_ fun f g hfg => ?_
  · refine carries_bind (carries_watchClosely _ _ _) fun found => ?_
    cases found with
    | none => exact carries_reportTimeout _ _
    | some build => exact carries_reportFinished _ _
  · cases f with
    | interrupted =>
      obtain rfl := Fault.eq_of_mute rfl hfg
      exact carries_say_bind fun _ _ => echoes_bind (echoes_printWarning _ _) fun _ _ _ =>
        carries_pure _
    | complaint c =>
      obtain ⟨c', rfl⟩ := Fault.exists_complaint_of_mute hfg
      exact echoes_throw hfg
    | _ =>
      obtain rfl := Fault.eq_of_mute rfl hfg
      exact carries_throw _

theorem carries_watch (server : Server) (target : Target) : (watch server target).Carries P := by
  refine carries_bind (carries_wait _ _ _ _) fun waited => ?_
  split
  · exact carries_pure _
  · exact carries_pure _

theorem carries_showLog (server : Server) (job : String) (label : Json) (build : Option Json) :
    (showLog server job label build).Carries P := by
  have hshow : ∀ url : Json, (do
      let text ← server.consoleText url
      printRule (← Desk.say Notice.consoleOutput [("url", url)])
      printPlain text
      printRule ""
      pure .ok : Desk ActionResult).Carries P := by
    intro url
    refine carries_bind (Server.carries_consoleText _ _) fun text => ?_
    refine echoes_bind (echoes_say _ _) fun a b hab => ?_
    obtain ⟨lang, lang', rfl, rfl⟩ := hab
    refine echoes_bind (echoes_printRule (tagging_said (by decide) _ _ _)) fun _ _ _ => ?_
    refine carries_bind (carries_printPlain _) fun _ => ?_
    exact carries_bind (echoes_printRule rfl) fun _ => carries_pure _
  unfold showLog
  split
  · exact hshow _
  · exact carries_bind (carries_lastBuildUrl _ _ _) hshow

end

/-! ### Builds -/

/-- Stopping a build carries over as the question does. -/
theorem carries_cancelBy (server : Server) (job : String) (label : Json)
    {agree : Option (String → Desk Bool)}
    (h : ∀ ask ∈ agree, ∀ text text', Echoes Moment.Any Eq (ask text) (ask text')) :
    (cancel server job label agree).Carries Moment.Any := by
  have hrunning : (runningBuild server job label).Carries Moment.Any := by
    refine carries_bind (Server.carries_lastBuild _ _) fun last => ?_
    split
    · exact carries_refuse_bind _ _ _ _
    · exact carries_pure _
  have hstop : ∀ (last : Server.LastBuild) (agreed : Bool), (do
      if agreed then
        server.stop last.url
        printOk (← Desk.say Notice.buildCancelled [("url", last.url)])
      else printOk (← Desk.say Notice.cancelSkipped [])
      pure .ok : Desk ActionResult).Carries Moment.Any := by
    intro last agreed
    have hdone : ∀ text text', Echoes Moment.Any Eq
        (do printOk text; pure .ok : Desk ActionResult) (do printOk text'; pure .ok) :=
      fun text text' => echoes_bind (echoes_printOk text text') fun _ _ _ => carries_pure _
    cases agreed with
    | true =>
      refine carries_bind ?_ fun _ => carries_say_bind hdone
      exact carries_bind (carries_ofExcept _) fun url =>
        carries_bind (Server.carries_post server url [] fun _ _ => trivial) fun _ => carries_pure _
    | false => exact carries_say_bind hdone
  refine carries_bind hrunning fun last => ?_
  split
  · exact hstop last true
  · rename_i ask
    exact carries_say_bind fun text text' =>
      echoes_bind (h ask rfl text text') fun _ _ hagreed => hagreed ▸ hstop last _

/-- A build is stopped with consent. -/
theorem carries_cancel [Reading P] (server : Server) [Stopping server P] (job : String)
    (label : Json) (standard : Bool) : (cancel server job label
      (some fun text => confirm server.settings text standard)).Carries P := by
  refine echoes_of_runs (carries_cancelBy server job label ?_) (courses_cancel job label standard)
  rintro ask ⟨⟩ text text'
  exact echoes_confirm _ _ _ _ fun _ => trivial

theorem carries_remember [Simple P] (settings : Settings) (job : String)
    (branch : Option String) : (remember settings job branch).Carries P :=
  carries_onFolder (onFolder_remember _ _ _)

/-- A build that was queued is recorded and told of. -/
theorem carries_noteQueued [Simple P] (settings : Settings) (order : Order) (queue : Json) :
    (do
      remember settings order.job order.branch
      match queue.present? with
      | some url => printOk (← Desk.say Notice.buildQueued [("url", url)])
      | none => printOk (← Desk.say Notice.buildTriggered [("label", order.label)])
      pure queue : Desk Json).Carries P := by
  refine carries_bind (carries_remember _ _ _) fun _ => ?_
  split
  · exact carries_say_bind fun _ _ => echoes_bind (echoes_printOk _ _) fun _ _ _ => carries_pure _
  · exact carries_say_bind fun _ _ => echoes_bind (echoes_printOk _ _) fun _ _ _ => carries_pure _

theorem carries_place [Reading P] (server : Server) (order : Order)
    (hP : ∀ {r : Request} {response}, Event.IsTrigger r → P [.sent ⟨r, response⟩]) :
    (order.place server).Carries P :=
  carries_bind (Server.carries_trigger server _ _ hP) (carries_noteQueued _ order)

theorem carries_rerunLastFailed [Reading P] (server : Server) (job : String) (label : Json)
    (hP : ∀ {r : Request} {response}, Event.IsTrigger r → P [.sent ⟨r, response⟩]) :
    (rerunLastFailed server job label).Carries P := by
  refine carries_bind (Server.carries_lastFailed _ _) fun last => ?_
  cases last with
  | none => exact carries_refuse _ _ _
  | some build =>
    refine carries_say_bind fun _ _ => echoes_bind (echoes_printOk _ _) fun _ _ _ => ?_
    exact carries_bind (carries_place _ _ hP) fun _ => carries_pure _

/-! ### Menus -/

/-- An action in a menu: a complaint is passed on when it is about a flow, and shown when it is
not. -/
theorem carries_asMenuAction [Simple P] {action : Desk ActionResult} (h : action.Carries P) :
    Desk.Carries P (asMenuAction printComplaint action) := by
  refine echoes_tryCatch h fun f g hfg => ?_
  cases f with
  | complaint c =>
    obtain ⟨c', rfl⟩ := Fault.exists_complaint_of_mute hfg
    have hflow := isFlow_of_mute hfg
    dsimp only
    rw [hflow]
    split
    · exact echoes_throw hfg
    · exact echoes_bind (echoes_printComplaint hfg) fun _ _ _ => carries_pure _
  | _ =>
    obtain rfl := Fault.eq_of_mute rfl hfg
    exact carries_throw _

theorem carries_asMenuStep [Simple P] {κ : Type} {action : Flow.Step κ ActionResult}
    (h : action.Carries P) : Flow.Step.Carries P
      (asMenuAction (fun c => Flow.Step.ofDesk (printComplaint c)) action) := by
  refine Flow.Step.echoes_tryCatch h fun f g hfg => ?_
  cases f with
  | complaint c =>
    obtain ⟨c', rfl⟩ := Fault.exists_complaint_of_mute hfg
    have hflow := isFlow_of_mute hfg
    dsimp only
    rw [hflow]
    split
    · exact Flow.Step.echoes_throw hfg
    · exact Flow.Step.echoes_bind (Flow.Step.echoes_ofDesk (echoes_printComplaint hfg))
        fun _ _ _ => Flow.Step.carries_pure _
  | _ =>
    obtain rfl := Fault.eq_of_mute rfl hfg
    exact Flow.Step.carries_throw _

end Command
end BuildDesk
