/-
Choosing another job.

A user may go back from the inputs of a build to the choice of the job, as often as they
like.  Nothing that was given for an earlier job is left then:

* `prepares_of_selection` — by each event that chooses a job the inputs are those of the
  start of the run;
* `asks_mode` — so the mode is asked for again, unless inputs are fixed;
* `alike_of_completes` — the way from a chosen job to the end looks at nothing before it;
* `exists_lastChoice` — a completed run that starts without a job chooses one last;
* `reselection` — all of it for a whole run.
-/
import BuildDesk.Proofs.Prepare.Alike

namespace BuildDesk.Flow.Prepare

/-- The events that choose a job. -/
def selections : List String := ["select:recent", "search:auto", "select:job"]

variable {start : Inputs} {c c' d : Context} {p : Spot} {goal : Goal} {answer : Option Json}
variable {event : String}

/-! ### Choosing -/

/-- A job is chosen where it is to be found, and its inputs are looked at next. -/
theorem selects (hfresh : start.IsFresh) (h : Turn p answer c event goal c')
    (hevent : event ∈ selections) (hp : Arrives start c (.next p)) :
    c'.inputs = start ∧ goal = .next .prepareBranch := by
  cases h with
  | @pickRecent v c job =>
    exact ⟨inputs_select hfresh hp job.url (recentLabel c job), rfl⟩
  | @searchOne way v c job =>
    exact ⟨inputs_select (c := { c with query := typed v }) hfresh hp job.url job.displayName, rfl⟩
  | @pickResult way v c job =>
    exact ⟨inputs_select hfresh hp job.url job.displayName, rfl⟩
  | _ => exact absurd hevent (by decide)

/-- A job is there because it was there before, or by a choice. -/
theorem hasJob_of_turn (h : Turn p answer c event goal c') (hgoal : goal.hasJob = true) :
    p.finds = false ∨ event ∈ selections ∧ goal = .next .prepareBranch := by
  cases h with
  | esc hback => exact .inl (by simpa [Goal.hasJob] using hasJob_of_back hback hgoal)
  | showRecent | searchFirst | searchAll | searchAgain | searchSeveral | resultsAgain | needJob =>
    cases hgoal
  | pickRecent | searchOne | pickResult => exact .inr ⟨by decide, rfl⟩
  | more hwhere | enough hwhere => exact .inl (by rcases hwhere with rfl | rfl <;> rfl)
  | _ => exact .inl rfl

/-- A state takes an answer, unless it is a router. -/
def Spot.asks : Spot → Bool
  | entry | prepareBranch | branchRemoveApply | customCancel => false
  | _ => true

theorem Spot.asks_of_onEnter (h : p.state.onEnter = none) : p.asks = true := by
  cases p with
  | entry | prepareBranch | branchRemoveApply | customCancel => cases h
  | _ => rfl

theorem isSome_answer (h : Turn p answer c event goal c') : answer.isSome = p.asks := by
  cases h with
  | esc hback =>
    cases p with
    | entry | prepareBranch | branchRemoveApply | customCancel => cases hback
    | _ => rfl
  | more hwhere | enough hwhere => rcases hwhere with rfl | rfl <;> rfl
  | _ => rfl

/-! ### From a chosen job to the end -/

/-- From a position a run is completed without another choice of the job.  It takes
answers on the way, and leaves a context. -/
inductive Completes : Position Context → List Answer → Context → Prop
  | now {a b event taken} (hmoves : Moves table handlers a event b)
      (hout : Outcome.ofWord? b.state = some .complete)
      (hanswers : a.session.answers = taken ++ b.session.answers) : Completes a taken b.ctx
  | later {a b event taken rest final} (hmoves : Moves table handlers a event b)
      (hin : Outcome.ofWord? b.state = none) (hsame : event ∉ selections)
      (hanswers : a.session.answers = taken ++ b.session.answers)
      (hrest : Completes b rest final) : Completes a (taken ++ rest) final

variable {a b a' b' : Position Context} {event' : String} {taken taken' : List Answer}

/-- Only a run that has its job can be completed without choosing one. -/
theorem finds_of_completes {answers : List Answer} {final : Context}
    (h : Completes a answers final) : ∀ p : Spot, p.name = a.state → p.finds = false := by
  induction h with
  | now hmoves hout =>
    intro p hp
    obtain ⟨p', answer, goal, hp', hgoal, hturn, -⟩ := turn_of_moves hmoves
    obtain rfl := Spot.name_injective (hp.trans hp'.symm)
    rw [← hgoal] at hout
    obtain rfl := Goal.eq_out_of_word hout
    exact (hasJob_of_turn hturn rfl).resolve_right nofun
  | later hmoves hin hsame hanswers hrest ih =>
    intro p hp
    obtain ⟨p', answer, goal, hp', hgoal, hturn, -⟩ := turn_of_moves hmoves
    obtain rfl := Spot.name_injective (hp.trans hp'.symm)
    rw [← hgoal] at hin
    obtain ⟨q, rfl⟩ := Goal.eq_next_of_word hin
    have hjob : (Goal.next q).hasJob = true := by
      rw [Goal.hasJob, ih q hgoal]
      rfl
    exact (hasJob_of_turn hturn hjob).resolve_right fun h => hsame h.1

/-- The state settles how many answers a move takes. -/
theorem length_taken (h : Moves table handlers a event b) (hp : p.name = a.state)
    (hanswers : a.session.answers = taken ++ b.session.answers) :
    taken.length = if p.asks then 1 else 0 := by
  obtain ⟨p', answer, goal, hp', -, hturn, htaken⟩ := turn_of_moves h
  obtain rfl := Spot.name_injective (hp.trans hp'.symm)
  obtain rfl := List.append_cancel_right (hanswers.symm.trans htaken)
  rw [← isSome_answer hturn]
  cases answer <;> rfl

/-- Two moves from alike positions, with the same answer, are alike. -/
theorem alike_of_moves (hp : p.name = a.state) (hfinds : p.finds = false)
    (hstate : a.state = a'.state) (halike : Alike a.ctx a'.ctx)
    (hfolder : a.session.folder = a'.session.folder)
    (hhead : p.asks = true → a.session.answers.head? = a'.session.answers.head?)
    (h : Moves table handlers a event b) (h' : Moves table handlers a' event' b') :
    event = event' ∧ b.state = b'.state ∧ Alike b.ctx b'.ctx ∧
      b.session.folder = b'.session.folder := by
  obtain ⟨state, s, hs, htarget, hyields, hb⟩ := h
  obtain ⟨state', s', hs', htarget', hyields', hb'⟩ := h'
  rw [← hp, p.state?_name] at hs
  rw [← hstate, ← hp, p.state?_name] at hs'
  obtain rfl := Option.some.inj hs
  obtain rfl := Option.some.inj hs'
  rw [← hp] at hyields
  rw [← hstate, ← hp] at hyields'
  obtain ⟨hevent, hctx, hfolder'⟩ := agreeAt_of_builds hfinds _ _ _ _ _ _ _ _ _ _ halike hfolder
    (fun henter => hhead (Spot.asks_of_onEnter henter)) hyields hyields'
  obtain rfl := Json.str.inj hevent
  refine ⟨rfl, Option.some.inj (htarget.symm.trans htarget'), hctx, ?_⟩
  rw [hb, hb', hfolder']

/-- The answers that two alike moves take, as beginnings of the same answers, are the same. -/
theorem head_eq_of_taken (rest rest' : List Answer) (hp : p.name = a.state)
    (hstate : a.state = a'.state)
    (h : Moves table handlers a event b) (h' : Moves table handlers a' event' b')
    (hanswers : a.session.answers = taken ++ b.session.answers)
    (hanswers' : a'.session.answers = taken' ++ b'.session.answers)
    (heq : taken ++ rest = taken' ++ rest') :
    taken = taken' ∧ rest = rest' ∧
      (p.asks = true → a.session.answers.head? = a'.session.answers.head?) := by
  have hlength := length_taken h hp hanswers
  have hlength' := length_taken h' (hp.trans hstate) hanswers'
  obtain ⟨rfl, rfl⟩ := List.append_inj heq (hlength.trans hlength'.symm)
  refine ⟨rfl, rfl, ?_⟩
  intro hasks
  rw [hasks, if_pos rfl] at hlength
  obtain ⟨v, rfl⟩ := List.length_eq_one_iff.mp hlength
  rw [hanswers, hanswers']
  rfl

/-- **The way from a chosen job to the end.**  From alike positions, with the same folder
and the same answers, two runs are completed alike. -/
theorem alike_of_completes {answers answers' : List Answer} {final final' : Context}
    (h : Completes a answers final) (h' : Completes a' answers' final') (hp : p.name = a.state)
    (hanswers : answers = answers') (hstate : a.state = a'.state) (halike : Alike a.ctx a'.ctx)
    (hfolder : a.session.folder = a'.session.folder) : Alike final final' := by
  have hfinds := finds_of_completes h p hp
  -- by induction on the first run; the second is in the same state, so it leaves the flow
  -- exactly when the first does
  induction h generalizing a' answers' p with
  | @now a b event taken hmoves hout htaken =>
    cases h' with
    | @now _ b' event' taken' hmoves' hout' htaken' =>
      obtain ⟨-, -, hhead⟩ := head_eq_of_taken [] [] hp hstate hmoves hmoves'
        htaken htaken' (by rw [hanswers])
      exact (alike_of_moves hp hfinds hstate halike hfolder hhead hmoves hmoves').2.2.1
    | @later _ b' event' taken' rest' _ hmoves' hin' hsame' htaken' hrest' =>
      obtain ⟨-, -, hhead⟩ := head_eq_of_taken [] rest' hp hstate hmoves hmoves'
        htaken htaken' (by rw [List.append_nil, hanswers])
      have htarget := (alike_of_moves hp hfinds hstate halike hfolder hhead hmoves hmoves').2.1
      rw [htarget, hin'] at hout
      cases hout
  | @later a b event taken rest final hmoves hin hsame htaken hrest ih =>
    cases h' with
    | @now _ b' event' taken' hmoves' hout' htaken' =>
      obtain ⟨-, -, hhead⟩ := head_eq_of_taken rest [] hp hstate hmoves hmoves'
        htaken htaken' (by rw [hanswers, List.append_nil])
      have htarget := (alike_of_moves hp hfinds hstate halike hfolder hhead hmoves hmoves').2.1
      rw [htarget, hout'] at hin
      cases hin
    | @later _ b' event' taken' rest' _ hmoves' hin' hsame' htaken' hrest' =>
      obtain ⟨-, hrest_eq, hhead⟩ :=
        head_eq_of_taken rest rest' hp hstate hmoves hmoves' htaken htaken' hanswers
      obtain ⟨-, htarget, halike_b, hfolder_b⟩ :=
        alike_of_moves hp hfinds hstate halike hfolder hhead hmoves hmoves'
      obtain ⟨q, hq⟩ : ∃ q : Spot, q.name = b.state := by
        obtain ⟨-, -, goal, -, hgoal, -⟩ := turn_of_moves hmoves
        rw [← hgoal] at hin
        obtain ⟨q, rfl⟩ := Goal.eq_next_of_word hin
        exact ⟨q, hgoal⟩
      exact ih hrest' hq hrest_eq htarget halike_b hfolder_b (finds_of_completes hrest q hq)

/-! ### What is asked for next -/

theorem need_eq_mode (h : c.inputs = {}) (haddress : c.address ≠ "") : need c = .mode := by
  have hmode : c.mode = none := congrArg Inputs.mode h
  have hasked : c.modeAsked = false := congrArg Inputs.modeAsked h
  have hdefault : c.defaultBranch = false := congrArg Inputs.defaultBranch h
  have hbranch : c.branch = none := congrArg Inputs.branch h
  unfold need
  simp [hmode, hasked, hdefault, branchText_of_none hbranch, Text.trim_empty, haddress]

/-- When nothing is fixed, the mode is what is asked for next once a job is chosen. -/
theorem asks_mode (hstate : a.state = Spot.prepareBranch.name) (hinputs : a.ctx.inputs = {})
    (haddress : a.ctx.address ≠ "") :
    ∃ b, b.state = Spot.branchMode.name ∧ b.session.answers = a.session.answers ∧
      Moves table handlers a "branch:mode" b ∧
      ∀ event d, Moves table handlers a event d → d = b := by
  obtain ⟨name, c, s⟩ := a
  obtain rfl : name = Spot.prepareBranch.name := hstate
  have hevent : (eventAt table handlers Spot.prepareBranch.name Prepare.prepare).outcome c s
      = ((.ok (.str "branch:mode"), { c with modeAsked := true }), s) := by
    show (prepareBranch .null).Yields _ _ _ _ _
    unfold prepareBranch
    rw [Step.yields_context_bind, need_eq_mode hinputs haddress]
    exact Step.yields_pure.mpr ⟨rfl, rfl, rfl⟩
  have hmoves := moves_of_outcome (Spot.state?_name .prepareBranch) hevent rfl
  exact ⟨_, by rfl, by rfl, hmoves, fun event d h => (h.unique hmoves).2⟩

/-! ### Whole runs -/

/-- In a run from a context a job is chosen for the last time where the run is at `chosen`.
From there it takes answers and is completed with the context `final`. -/
def LastChoice (c₀ : Context) (chosen : Position Context) (answers : List Answer)
    (final : Context) : Prop :=
  ∃ (p : Spot) (s₀ : Session) (a : Position Context) (event : String),
    p.begins = true ∧ Reaches table handlers ⟨p.name, c₀, s₀⟩ a ∧ event ∈ selections ∧
      Moves table handlers a event chosen ∧ Completes chosen answers final

/-- Right after a choice the run is about to prepare the job, with the inputs of the start. -/
theorem prepares_of_selection {c₀ : Context} {s₀ : Session} (hfresh : c₀.inputs.IsFresh)
    (hbegins : p.begins = true) (h : Reaches table handlers ⟨p.name, c₀, s₀⟩ a)
    (hmoves : Moves table handlers a event b) (hevent : event ∈ selections) :
    b.state = Spot.prepareBranch.name ∧ b.ctx.inputs = c₀.inputs := by
  have hholds := holds_of_reaches hfresh hbegins h
  obtain ⟨p', answer, goal, hp', hgoal, hturn, -⟩ := turn_of_moves hmoves
  obtain ⟨hinputs, rfl⟩ := selects hfresh hturn hevent (hholds.spot hp')
  exact ⟨hgoal.symm, hinputs⟩

/-- A completed run goes on to its end without a choice, or there is a last one. -/
theorem completes_or_selects (h : Reaches table handlers a b)
    (hends : Ends table handlers b .complete b') :
    (∃ answers, Completes a answers b'.ctx) ∨ ∃ x event chosen answers,
      Reaches table handlers a x ∧ Moves table handlers x event chosen ∧ event ∈ selections ∧
        Completes chosen answers b'.ctx := by
  -- from the end: a choice is the last when no choice comes after it
  induction h using Relation.ReflTransGen.head_induction_on with
  | refl =>
    obtain ⟨⟨event, hmoves⟩, hout⟩ := hends
    obtain ⟨p, answer, goal, -, -, -, hanswers⟩ := turn_of_moves hmoves
    exact .inl ⟨_, .now hmoves hout hanswers⟩
  | @head a a₁ hlead hrest ih =>
    rcases ih with ⟨answers, hcompletes⟩ | ⟨x, event, chosen, answers, hreach, hchoice⟩
    · obtain ⟨⟨event, hmoves⟩, hin⟩ := hlead
      by_cases hevent : event ∈ selections
      · exact .inr ⟨a, event, a₁, answers, .refl, hmoves, hevent, hcompletes⟩
      · obtain ⟨p, answer, goal, -, -, -, hanswers⟩ := turn_of_moves hmoves
        exact .inl ⟨_, .later hmoves hin hevent hanswers hcompletes⟩
    · exact .inr ⟨x, event, chosen, answers, hreach.head hlead, hchoice⟩

/-- A completed run that starts without a job chooses one for a last time. -/
theorem exists_lastChoice {c₀ : Context} {s₀ : Session} {p : Spot} (hfinds : p.finds = true)
    (h : Reaches table handlers ⟨p.name, c₀, s₀⟩ a) (hends : Ends table handlers a .complete b) :
    ∃ chosen answers, LastChoice c₀ chosen answers b.ctx := by
  rcases completes_or_selects h hends with
    ⟨answers, hcompletes⟩ | ⟨x, event, chosen, answers, hreach, hmoves, hevent, hcompletes⟩
  · have hnone := finds_of_completes hcompletes p rfl
    rw [hfinds] at hnone
    cases hnone
  · have hbegins : p.begins = true := by
      cases p <;> first | rfl | cases hfinds
    exact ⟨chosen, answers, p, s₀, x, event, hbegins, hreach, hevent, hmoves, hcompletes⟩

/-- **Nothing that was given for an earlier job is left.**  By each event that chooses a job
the inputs of the build are what they were when the run started; and when nothing is fixed
and the address of the job is not blank, the mode is asked for next.  A completed run that
starts without a job chooses one for a last time.  So two runs with the same inputs at the
start build with the same parameters, whatever happened before, when they choose jobs with
the same address for the last time, with the same job file, and take the same answers from
there. -/
theorem reselection {c₀ : Context} (hfresh : c₀.inputs.IsFresh) :
    (∀ (p : Spot) s₀ a event b, p.begins = true → Reaches table handlers ⟨p.name, c₀, s₀⟩ a →
      Moves table handlers a event b → event ∈ selections →
        b.ctx.inputs = c₀.inputs ∧
        (c₀.inputs = {} → b.ctx.address ≠ "" → ∃ d, d.state = Spot.branchMode.name ∧
          d.session.answers = b.session.answers ∧ Moves table handlers b "branch:mode" d ∧
          ∀ event d', Moves table handlers b event d' → d' = d)) ∧
    (∀ (p : Spot) s₀ a b, p.finds = true → Reaches table handlers ⟨p.name, c₀, s₀⟩ a →
      Ends table handlers a .complete b → ∃ chosen answers, LastChoice c₀ chosen answers b.ctx) ∧
    ∀ (c₁ : Context) a a' answers final final', c₁.inputs = c₀.inputs →
      c₁.settings = c₀.settings → c₁.branchParam = c₀.branchParam →
      LastChoice c₀ a answers final → LastChoice c₁ a' answers final' →
      a.ctx.address = a'.ctx.address → a.session.folder = a'.session.folder →
        final.parameters = final'.parameters := by
  refine ⟨?_, fun p s₀ a b hfinds hreach hends => exists_lastChoice hfinds hreach hends, ?_⟩
  · intro p s₀ a event b hbegins hreach hmoves hevent
    obtain ⟨hstate, hinputs⟩ := prepares_of_selection hfresh hbegins hreach hmoves hevent
    refine ⟨hinputs, fun hnone haddress => ?_⟩
    exact asks_mode hstate (hinputs.trans hnone) haddress
  · rintro c₁ a a' answers final final' hinputs hsettings hparam
      ⟨p, s₀, x, event, hbegins, hreach, hevent, hmoves, hcompletes⟩
      ⟨p', s₀', x', event', hbegins', hreach', hevent', hmoves', hcompletes'⟩ haddress hfolder
    have hfresh' : c₁.inputs.IsFresh := hinputs ▸ hfresh
    obtain ⟨hstate, hsame⟩ := prepares_of_selection hfresh hbegins hreach hmoves hevent
    obtain ⟨hstate', hsame'⟩ := prepares_of_selection hfresh' hbegins' hreach' hmoves' hevent'
    have hground := (sameGround_of_reaches hreach).trans (sameGround_of_moves hmoves)
    have hground' := (sameGround_of_reaches hreach').trans (sameGround_of_moves hmoves')
    have halike : Alike a.ctx a'.ctx :=
      ⟨by rw [hsame, hsame', hinputs], haddress,
        by rw [hground.settings, hground'.settings, hsettings],
        by rw [hground.branchParam, hground'.branchParam, hparam]⟩
    exact (alike_of_completes hcompletes hcompletes' hstate.symm rfl (hstate.trans hstate'.symm)
      halike hfolder).parameters

/-- Two jobs were used lately. -/
def twoRecent : Context where
  settings := { url := "", user := "", token := "" }
  jobs := []
  recent := [⟨"app", .str "app"⟩, ⟨"lib", .str "lib"⟩]

/-- One parameter of one's own. -/
def oneParameter : List Answer :=
  [.value (.str withCustom), .value (.str "KEY"), .value (.str "1"), .value (.bool false)]

/-- The second job is chosen. -/
def secondChosen (log : List Event) : Position Context :=
  ⟨Spot.prepareBranch.name, { twoRecent with url := some "lib", label := some (.str "lib") },
    { answers := oneParameter, log := log }⟩

/-- With the second job the parameter is asked for and taken. -/
theorem completes_secondChosen (log : List Event) :
    ∃ final, Completes (secondChosen log) oneParameter final ∧
      final.parameters = [("KEY", "1")] :=
  ⟨_, @Completes.later _ _ "branch:mode" [] _ _ (moves_of_outcome rfl rfl rfl) rfl (by decide) rfl
    (@Completes.later _ _ "mode:with_custom" [_] _ _ (moves_of_outcome rfl rfl rfl) rfl
      (by decide) rfl
    (@Completes.later _ _ "param:key_ready" [_] _ _ (moves_of_outcome rfl rfl rfl) rfl
      (by decide) rfl
    (@Completes.later _ _ "param:added" [_] _ _ (moves_of_outcome rfl rfl rfl) rfl
      (by decide) rfl
    (@Completes.now _ _ "confirm:no" [_] (moves_of_outcome rfl rfl rfl) rfl rfl)))), rfl⟩

/-- A user chooses one job, goes back when the mode is asked for, and chooses another job.
The build has the parameters that it has when the second job is chosen at once. -/
theorem parameters_of_second_choice :
    ∃ a log log' final final',
      Reaches table handlers ⟨Spot.recentMenu.name, twoRecent, { answers :=
        [.value (.str "app"), .value .null, .value (.str "lib")] ++ oneParameter }⟩ a ∧
      a.ctx.modeAsked = true ∧ Moves table handlers a "select:recent" (secondChosen log) ∧
      (secondChosen log).ctx.inputs = {} ∧
      (∃ d, Moves table handlers (secondChosen log) "branch:mode" d) ∧
      LastChoice twoRecent (secondChosen log) oneParameter final ∧
      LastChoice twoRecent (secondChosen log') oneParameter final' ∧
      final'.parameters = [("KEY", "1")] ∧ final.parameters = final'.parameters := by
  obtain ⟨a, b, log, hreach, hmode, hmoves, rfl⟩ : ∃ a b log,
      Reaches table handlers ⟨Spot.recentMenu.name, twoRecent, { answers :=
        [.value (.str "app"), .value .null, .value (.str "lib")] ++ oneParameter }⟩ a ∧
      a.ctx.modeAsked = true ∧ Moves table handlers a "select:recent" b ∧ b = secondChosen log :=
    ⟨_, _, _, .head (leads_of_outcome rfl rfl) (.head (leads_of_outcome rfl rfl)
      (.head (leads_of_outcome rfl rfl) (.single (leads_of_outcome rfl rfl)))), rfl,
      moves_of_outcome rfl rfl rfl, rfl⟩
  obtain ⟨b', log', hmoves', rfl⟩ : ∃ b' log', Moves table handlers ⟨Spot.recentMenu.name,
      twoRecent, { answers := .value (.str "lib") :: oneParameter }⟩ "select:recent" b' ∧
        b' = secondChosen log' := ⟨_, _, moves_of_outcome rfl rfl rfl, rfl⟩
  obtain ⟨final, hcompletes, -⟩ := completes_secondChosen log
  obtain ⟨final', hcompletes', hparameters⟩ := completes_secondChosen log'
  have hlast : LastChoice twoRecent (secondChosen log) oneParameter final :=
    ⟨.recentMenu, _, a, "select:recent", rfl, hreach, by decide, hmoves, hcompletes⟩
  have hlast' : LastChoice twoRecent (secondChosen log') oneParameter final' :=
    ⟨.recentMenu, _, _, "select:recent", rfl, .refl, by decide, hmoves', hcompletes'⟩
  have hfresh : twoRecent.inputs.IsFresh := isFresh_empty
  obtain ⟨hselect, -, hsame⟩ := reselection hfresh
  obtain ⟨hinputs, hnext⟩ := hselect .recentMenu _ a "select:recent" _ rfl hreach hmoves (by decide)
  have haddress : Text.trim "lib" ≠ "" := by decide +kernel
  obtain ⟨d, -, -, hd, -⟩ := hnext rfl haddress
  exact ⟨a, log, log', final, final', hreach, hmode, hmoves, hinputs, ⟨d, hd⟩, hlast, hlast',
    hparameters, hsame twoRecent _ _ oneParameter final final' rfl rfl rfl hlast hlast' rfl rfl⟩

end BuildDesk.Flow.Prepare
