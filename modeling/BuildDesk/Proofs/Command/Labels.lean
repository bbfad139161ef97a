/-
Labels and addresses on the console.

Three messages name a job or a build that the server named, and are shown as marked-up texts: that
a job has no builds, that a build is waited for, and whose log follows.  So tags in a label or an
address are taken for tags of the message.  Those that do not fit end the operation before
anything is shown (`ShowsMarkedUp.misfits`), and those that do are missing in what is shown
(`ShowsMarkedUp.shows`).  The label or address is there as it is just when it has no tag and no
escaped bracket (`ShowsMarkedUp.literal_iff`).

* `about` — a message about one thing;
* `showsMarkedUp` — showing such a message, whatever comes before and after it;
* `labels_taken_for_markup` — the three operations.
-/
import BuildDesk.Proofs.Console.Showing
import BuildDesk.Proofs.Language.Parts

namespace BuildDesk

open Console Desk

variable {α : Type}

/-- The fault that tags that do not fit end in. -/
def Console.Misfit.fault : Misfit → Fault
  | .badTag => .badMarkup
  | .badNumber => .badValue

namespace Command

/-- A message about one thing. -/
def about (lang : Lang) (message : Notice) (name text : String) : String :=
  Phrase.say lang message [(name, .str text)]

/-- From a session the operation comes to `s₁` and shows a message about a text there, which it
takes for marked-up text, and then it goes on with the rest. -/
structure ShowsMarkedUp (op : Desk α) (s s₁ : Session) (event : String → Event)
    (message : String → String) (text : String) (rest : Desk α) : Prop where
  misfits : ∀ m, render text = .error m → op.Fails s m.fault s₁
  shows : ∀ shown, render text = .ok shown → op.outcome s =
    rest.outcome { s₁ with log := event (visible (message shown)) :: s₁.log }
  literal_iff : (∃ new, (op.outcome s).2.log = new ++ event (visible (message text)) :: s₁.log) ↔
    ¬ HasTag text.toList ∧ ¬ HasEscape text.toList

/-! ### One message -/

section

variable {lang : Lang} {message : Notice} {name text : String}

theorem outcome_rendered_bind (text : String) (next : String → Desk α) (s : Session) :
    (rendered text >>= next).outcome s = match render text with
      | .ok shown => (next shown).outcome s
      | .error m => (.error m.fault, s) := by
  unfold rendered
  cases render text with
  | ok shown => rfl
  | error m => cases m <;> rfl

/-- A message about one thing frames it. -/
theorem exists_frame (h : (message, name) ∈ markedUp) (lang : Lang) :
    ∃ before after : String, isInert before.toList = true ∧ isInert after.toList = true ∧
      ∀ v : Json, Phrase.say lang message [(name, v)] = before ++ v.text ++ after := by
  obtain ⟨hinert, hslots⟩ := wording_of_markedUp h lang
  obtain ⟨before, after, hbefore, hafter, hsay⟩ := Phrase.say_frame hinert hslots
  exact ⟨before, after, hbefore, hafter, fun v => hsay v _ List.lookup_cons_self⟩

/-- A message about a value is one about its text. -/
theorem say_eq_about (h : (message, name) ∈ markedUp) (lang : Lang) (v : Json) :
    Phrase.say lang message [(name, v)] = about lang message name v.text := by
  obtain ⟨before, after, -, -, hsay⟩ := exists_frame h lang
  exact (hsay v).trans (hsay (.str v.text)).symm

/-- A message about one thing shows as one about what that shows as. -/
theorem render_about (h : (message, name) ∈ markedUp) :
    render (about lang message name text) =
      (render text).map fun shown => visible (about lang message name shown) := by
  obtain ⟨before, after, hbefore, hafter, hsay⟩ := exists_frame h lang
  have habout (t : String) : about lang message name t = before ++ t ++ after := hsay (.str t)
  rw [habout, render_frame _ hbefore hafter]
  cases hrender : render text with
  | error m => simp only [Except.map]
  | ok shown =>
    have hvisible : visible (about lang message name shown)
        = visible before ++ shown ++ visible after := by
      rw [habout, visible_append, visible_append, visible_of_render hrender]
    simp only [Except.map, hvisible]

/-- The hidden characters of what a message is about make no difference. -/
theorem visible_about (h : (message, name) ∈ markedUp) (lang : Lang) (text : String) :
    visible (about lang message name (visible text)) = visible (about lang message name text) := by
  obtain ⟨before, after, -, -, hsay⟩ := exists_frame h lang
  have habout (t : String) : about lang message name t = before ++ t ++ after := hsay (.str t)
  simp only [habout, visible_append, visible_visible]

/-- Which marks a message has is up to what it is about. -/
theorem marks_about (h : (message, name) ∈ markedUp) (lang : Lang) : ∃ n, ∀ t : String,
    marks (visible (about lang message name t)).toList = n + marks t.toList := by
  obtain ⟨before, after, -, -, hsay⟩ := exists_frame h lang
  refine ⟨marks before.toList + marks after.toList, fun t => ?_⟩
  have habout : about lang message name t = before ++ t ++ after := hsay (.str t)
  rw [marks_visible, habout, String.toList_append, String.toList_append, marks_append, marks_append]
  omega

/-- **Showing a message about one thing** as marked-up text, whatever comes before and after it. -/
theorem showsMarkedUp {op rest : Desk α} {s s₁ : Session} {event : String → Event}
    (hmessage : (message, name) ∈ markedUp)
    (hop : op.outcome s = (rendered (about s₁.lang message name text) >>= fun shown => do
      emit (event shown)
      rest).outcome s₁)
    (hevent : ∀ a b, event a = event b → marks a.toList = marks b.toList)
    (hrest : rest.IsFair Event.IsAny) :
    ShowsMarkedUp op s s₁ event (about s₁.lang message name) text rest := by
  have hmisfits : ∀ m, render text = .error m → op.Fails s m.fault s₁ := by
    intro m hm
    refine hop.trans ?_
    rw [outcome_rendered_bind, render_about hmessage, hm]
    rfl
  have hshows : ∀ shown, render text = .ok shown → op.outcome s = rest.outcome
      { s₁ with log := event (visible (about s₁.lang message name shown)) :: s₁.log } := by
    intro shown hshown
    rw [hop, outcome_rendered_bind, render_about hmessage, hshown]
    rfl
  have hlog : ∀ s₂, ∃ new, (rest.outcome s₂).2.log = new ++ s₂.log := fun s₂ =>
    have ⟨new, hnew, _⟩ := (hrest s₂ 0).since.log
    ⟨new, hnew⟩
  refine ⟨hmisfits, hshows, ?_, fun ⟨htag, hescape⟩ => ?_⟩
  · rintro ⟨new, hnew⟩
    cases hrender : render text with
    | error m =>
      -- nothing is shown when the tags do not fit
      rw [hmisfits m hrender] at hnew
      have hlength := congrArg List.length hnew
      simp at hlength
      omega
    | ok shown =>
      obtain ⟨more, hmore⟩ := hlog
        { s₁ with log := event (visible (about s₁.lang message name shown)) :: s₁.log }
      rw [hshows shown hrender, hmore] at hnew
      obtain ⟨-, htail⟩ := List.append_inj' hnew (by simp only [List.length_cons])
      obtain ⟨n, hn⟩ := marks_about hmessage s₁.lang
      have hmarks := hevent _ _ (List.cons.inj htail).1
      rw [hn, hn] at hmarks
      rw [← not_or]
      intro hno
      have hlt := marks_render_lt hrender hno
      omega
  · have hshown := hshows _ (render_literal htag hescape)
    obtain ⟨new, hnew⟩ := hlog { s₁ with
      log := event (visible (about s₁.lang message name (visible text))) :: s₁.log }
    refine ⟨new, ?_⟩
    rw [hshown, hnew, visible_about hmessage]

end

theorem outcome_say_bind (p : Phrase) (args : Arguments) (next : String → Desk α) (s : Session) :
    (Desk.say p args >>= next).outcome s = (next (Phrase.say s.lang p args)).outcome s := rfl

theorem outcome_emit_bind (e : Event) (next : Unit → Desk α) (s : Session) :
    (emit e >>= next).outcome s = (next ()).outcome { s with log := e :: s.log } := rfl

theorem outcome_clock_bind (next : Float → Desk α) (s : Session) :
    (Desk.clock >>= next).outcome s = (next s.clock).outcome s := rfl

/-! ### Three operations -/

variable {server : Server} {s s₁ : Session}

/-- That a job has no builds is shown as marked-up text. -/
theorem showsMarkedUp_showStatus {job label : Json} {last : Server.LastBuild}
    (hlast : (server.lastBuild job).Yields s last s₁) (hnone : last.number.isNull = true) :
    ShowsMarkedUp (showStatus server job label) s s₁ (fun t => .out (line t))
      (about s₁.lang .noBuilds "label") label.text (pure .ok) := by
  refine showsMarkedUp (by decide) ?_ (fun a b h => ?_) (isFair_pure _)
  · rw [showStatus, outcome_bind, hlast]
    dsimp only
    rw [if_pos hnone, outcome_say_bind, say_eq_about (by decide), printMarkup, bind_assoc]
  · have hmarks := congrArg (fun t => marks t.toList) (Event.out.inj h)
    simpa only [marks_line] using hmarks

/-- What a wait does once it is shown. -/
def waitShown (server : Server) (target : Target) (pace : Pace) : Desk Waited :=
  reported (untilFinished server target pace) target pace

/-- Tags that do not fit are no interruption, so they end a wait at once. -/
theorem outcome_reported_bind {text : String} {watching rest : Desk (Option Server.Build)}
    (h : watching.outcome s = (Console.showStatus text >>= fun _ => rest).outcome s)
    (target : Target) (pace : Pace) :
    (reported watching target pace).outcome s = (rendered text >>= fun shown => do
      emit (.status shown)
      reported rest target pace).outcome s := by
  rw [outcome_rendered_bind, reported, outcome_tryCatch, outcome_bind, h, Console.showStatus,
    bind_assoc, outcome_rendered_bind]
  cases render text with
  | error m => cases m <;> rfl
  | ok shown =>
    dsimp only
    rw [outcome_emit_bind, outcome_emit_bind, reported, outcome_tryCatch, outcome_bind]

/-- That a build is waited for is shown as marked-up text. -/
theorem showsMarkedUp_wait (server : Server) (target : Target) (pause limit : Option Quantity)
    (s : Session) : ShowsMarkedUp (wait server target pause limit) s s .status
      (about s.lang .watchWaiting "label") target.label.text
      (waitShown server target
        { pause := pause.getD (.real Settings.pollSeconds), limit, started := s.clock }) := by
  refine showsMarkedUp (by decide) ?_ (fun a b h => ?_)
    (isFair_reported (isFair_untilFinished _ _ _) _ _)
  · let pace : Pace :=
      { pause := pause.getD (.real Settings.pollSeconds), limit, started := s.clock }
    have hwait : wait server target pause limit = Desk.clock >>= fun started =>
        let pace : Pace := { pause := pause.getD (.real Settings.pollSeconds), limit, started }
        reported (watchClosely server target pace) target pace := rfl
    have hwatch : (watchClosely server target pace).outcome s =
        (Console.showStatus (about s.lang .watchWaiting "label" target.label.text) >>= fun _ =>
          untilFinished server target pace).outcome s := by
      rw [watchClosely, outcome_say_bind, say_eq_about (by decide)]
    rw [hwait, outcome_clock_bind]
    exact outcome_reported_bind hwatch target pace
  · rw [Event.status.inj h]

/-- What a log needs: the address of the build, and its console output. -/
def logOf (server : Server) (job : String) (label : Json) (build : Option Json) :
    Desk (Json × String) := do
  let url ← match build.bind Json.present? with
    | some url => pure url
    | none => lastBuildUrl server job label
  let text ← server.consoleText url
  pure (url, text)

/-- What is shown of a log below its title. -/
def showLines (text : String) : Desk Flow.ActionResult := do
  printPlain text
  printRule ""
  pure .ok

/-- The title of a log is shown as marked-up text. -/
theorem showsMarkedUp_showLog {job text : String} {label url : Json} {build : Option Json}
    (hlog : (logOf server job label build).Yields s (url, text) s₁) :
    ShowsMarkedUp (showLog server job label build) s s₁ .rule
      (about s₁.lang .consoleOutput "url") url.text (showLines text) := by
  have hparts : showLog server job label build = logOf server job label build >>= fun x =>
      Desk.say Notice.consoleOutput [("url", x.1)] >>= fun title =>
        printRule title >>= fun _ => showLines x.2 := by
    unfold showLog logOf
    cases build.bind Json.present? <;> simp only [showLines, bind_assoc, pure_bind]
  refine showsMarkedUp (by decide) ?_ (fun a b h => ?_) ?_
  · rw [hparts, outcome_bind, hlog]
    dsimp only
    rw [outcome_say_bind, say_eq_about (by decide), printRule, bind_assoc]
  · rw [Event.rule.inj h]
  · refine isFair_bind (isFair_printPlain _) fun _ => isFair_bind (isFair_printRule _) fun _ => ?_
    exact isFair_pure _

/-- **Labels and addresses are taken for markup.**  A job without builds, a wait and a log: each is
shown by a message about a label or an address, and each takes this for marked-up text. -/
theorem labels_taken_for_markup (server : Server) (s : Session) :
    (∀ job label last s₁, (server.lastBuild job).Yields s last s₁ → last.number.isNull = true →
      ShowsMarkedUp (showStatus server job label) s s₁ (fun t => .out (line t))
        (about s₁.lang .noBuilds "label") label.text (pure .ok))
    ∧ (∀ target pause limit, ShowsMarkedUp (wait server target pause limit) s s .status
      (about s.lang .watchWaiting "label") target.label.text
      (waitShown server target
        { pause := pause.getD (.real Settings.pollSeconds), limit, started := s.clock }))
    ∧ ∀ job label build url text s₁, (logOf server job label build).Yields s (url, text) s₁ →
      ShowsMarkedUp (showLog server job label build) s s₁ .rule
        (about s₁.lang .consoleOutput "url") url.text (showLines text) :=
  ⟨fun _ _ _ _ hlast hnone => showsMarkedUp_showStatus hlast hnone,
    fun target pause limit => showsMarkedUp_wait server target pause limit s,
    fun _ _ _ _ _ _ hlog => showsMarkedUp_showLog hlog⟩

/-- A server that asks for no crumbs. -/
def calmServer : Server := ⟨{ url := "http://ci", user := "u", token := "t" }, .int 5⟩

/-- A session in which the job has no builds. -/
def repliesNone : Session where
  responses := [.reply { body := .json (.object [("lastBuild", .null)]) } 0]

/-- A session in which the log of a build is one line. -/
def repliesLine : Session := { responses := [.reply { body := .text "hello" } 0] }

/-- A name with what looks like a closing tag. -/
def slashed : Json := .str "a[/]"

theorem render_slashed : render slashed.text = .error .badTag := by
  have htokens : tokens slashed.text.toList = "a".toList.map .char ++ [.tag 0 ['/']] := by
    decide
  rw [render, htokens, showTokens_chars]
  rfl

theorem lastBuild_none : (calmServer.lastBuild (.str "u")).Yields repliesNone {}
    ((calmServer.lastBuild (.str "u")).outcome repliesNone).2 := by
  have hvalue : ((calmServer.lastBuild (.str "u")).outcome repliesNone).1 = .ok {} := rfl
  exact Prod.ext hvalue rfl

theorem logOf_slashed : (logOf calmServer "u" "a" (some slashed)).Yields repliesLine
    (slashed, "hello") ((logOf calmServer "u" "a" (some slashed)).outcome repliesLine).2 := by
  have hvalue : ((logOf calmServer "u" "a" (some slashed)).outcome repliesLine).1 =
      .ok (slashed, "hello") := rfl
  exact Prod.ext hvalue rfl

/-- A job with such a name has no status, and a build with such an address no log. -/
theorem no_status_and_no_log : (∃ s₁, (calmServer.lastBuild (.str "u")).Yields repliesNone {} s₁ ∧
      (showStatus calmServer (.str "u") slashed).Fails repliesNone .badMarkup s₁)
    ∧ ∃ s₁, (logOf calmServer "u" "a" (some slashed)).Yields repliesLine (slashed, "hello") s₁ ∧
      (showLog calmServer "u" "a" (some slashed)).Fails repliesLine .badMarkup s₁ := by
  have hstatus := (labels_taken_for_markup calmServer repliesNone).1 (.str "u") slashed {} _
    lastBuild_none rfl
  have hlog := (labels_taken_for_markup calmServer repliesLine).2.2 _ _ _ _ _ _ logOf_slashed
  exact ⟨⟨_, lastBuild_none, hstatus.misfits _ render_slashed⟩,
    ⟨_, logOf_slashed, hlog.misfits _ render_slashed⟩⟩

/-- It is not so that labels and addresses are always shown as they are. -/
theorem not_always_literal : ¬ ((∀ (server : Server) (s s₁ : Session) (job label : Json)
      (last : Server.LastBuild), (server.lastBuild job).Yields s last s₁ →
      last.number.isNull = true → ∃ new, ((showStatus server job label).outcome s).2.log =
        new ++ .out (line (visible (about s₁.lang .noBuilds "label" label.text))) :: s₁.log)
    ∧ (∀ (server : Server) (s : Session) (target : Target) (pause limit : Option Quantity),
      ∃ new, ((wait server target pause limit).outcome s).2.log =
        new ++ .status (visible (about s.lang .watchWaiting "label" target.label.text)) :: s.log)
    ∧ ∀ (server : Server) (s s₁ : Session) (job text : String) (label url : Json)
      (build : Option Json), (logOf server job label build).Yields s (url, text) s₁ →
      ∃ new, ((showLog server job label build).outcome s).2.log =
        new ++ .rule (visible (about s₁.lang .consoleOutput "url" url.text)) :: s₁.log) := by
  rintro ⟨-, -, hlogs⟩
  have hplain := (showsMarkedUp_showLog logOf_slashed).literal_iff.mp
    (hlogs _ _ _ _ _ _ _ _ logOf_slashed)
  cases render_slashed.symm.trans (render_eq_visible_iff.mpr hplain)

end Command
end BuildDesk
