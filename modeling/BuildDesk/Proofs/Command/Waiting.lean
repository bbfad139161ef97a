/-
Waiting for a build keeps time.

The command waits as the loop of `Outside.wait` does, with the requests, the sleeps and the clock
of a session (`wait_eq`), and with more looks than there are replies.  So what holds of the loop
holds of the command, whatever the server answers and whatever time passes meanwhile.

* `atDesk` — a session as a wait meets it;
* `wait_eq` — the command waits as the loop does;
* `cancelled_of_disturbed` — an interrupted request or sleep ends it as cancelled;
* `Outside.KeepsTime`, `keepsTime` — what the loop comes to;
* `wait_keeps_time` — what a wait comes to, and that it does.
-/
import BuildDesk.Proofs.Command.Polling
import BuildDesk.Proofs.Command.Reliable
import BuildDesk.Proofs.Session.Undisturbed

namespace BuildDesk.Command

open Server

variable {σ τ α : Type}

/-! ### The wait of the command -/

/-- Shows what is waited for. -/
def announceWait (target : Target) : Desk Unit := do
  Console.showStatus (← Desk.say Notice.watchWaiting [("label", target.label)])

/-- Tells how long was waited in vain. -/
def tellOver (target : Target) (started : Float) : Desk Unit := do
  let passed := ((← Desk.clock) - started) * 1000.0
  let text ← Desk.ofExcept (Report.duration (.real passed))
  Console.printError (← Desk.say Notice.watchTimedOut
    [("label", target.label), ("elapsed", .str text)])

/-- Tells how a build has ended. -/
def tellResult (target : Target) (build : Build) : Desk Unit := do
  let result := build.result.orElse (.str "UNKNOWN")
  let message ← Desk.say Notice.buildFinished
    [("label", target.label), ("number", build.number), ("result", result)]
  if result.isText "SUCCESS" then Console.printOk message else Console.printError message

/-- Tells that the wait was interrupted. -/
def tellInterrupted : Desk Unit := do
  Console.printWarning (← Desk.say Notice.watchCancelled [])

/-- The pace of a wait that began at a time. -/
def paceFrom (pause limit : Option Quantity) (started : Float) : Pace :=
  { pause := pause.getD (.real Settings.pollSeconds), limit, started }

/-- A session as a wait for the target meets it. -/
def atDesk (server : Server) (target : Target) (pause limit : Option Quantity) :
    Outside Session Float where
  clock := Session.clock
  isOver started now := limit.any fun limit => limit.reachedBy (now - started)
  announce := (announceWait target).outcome
  queued queue := (server.queuedBuild queue).outcome
  last := (lastBuildUrl server target.job target.label).outcome
  build url := (server.build url).outcome
  rest := (paceFrom pause limit 0).rest.outcome
  tellFinished build := (tellResult target build).outcome
  tellTimeout started := (tellOver target started).outcome
  tellCancelled := tellInterrupted.outcome

/-- More looks than replies are left. -/
def looksLeft (s : Session) : Nat := s.responses.length + 1

section

variable {server : Server} {target : Target} {pause limit : Option Quantity} {started : Float}

theorem outcome_isOver (server : Server) (target : Target) (s : Session) :
    (paceFrom pause limit started).isOver.outcome s =
      (.ok ((atDesk server target pause limit).isOver started s.clock), s) := by
  unfold Pace.isOver paceFrom atDesk
  cases limit with
  | none => rfl
  | some limit => rfl

theorem outcome_lookFor (look : Desk (Option α)) (looks : Nat) (s : Session) :
    (lookFor (paceFrom pause limit started) look looks).outcome s =
      (atDesk server target pause limit).lookFor started look.outcome looks s := by
  induction looks generalizing s with
  | zero => rfl
  | succ looks ih =>
    rw [lookFor, Outside.lookFor, Desk.outcome_bind]
    rcases look.outcome s with ⟨f | found, s₁⟩
    · rfl
    · cases found with
      | some found => rfl
      | none =>
        dsimp only
        rw [Desk.outcome_bind, outcome_isOver server target]
        have hclock : (atDesk server target pause limit).clock s₁ = s₁.clock := rfl
        rw [hclock]
        dsimp only
        cases (atDesk server target pause limit).isOver started s₁.clock with
        | true => rfl
        | false =>
          have hrest : (paceFrom pause limit started).rest.outcome s₁ =
              (atDesk server target pause limit).rest s₁ := rfl
          rw [if_neg Bool.false_ne_true, if_neg Bool.false_ne_true, Desk.outcome_bind, hrest]
          rcases (atDesk server target pause limit).rest s₁ with ⟨f | _, s₂⟩
          · rfl
          · exact ih s₂

theorem outcome_await (server : Server) (target : Target) (look : Desk (Option α)) (s : Session) :
    (await (paceFrom pause limit started) look).outcome s =
      (atDesk server target pause limit).await looksLeft started look.outcome s :=
  outcome_lookFor look _ s

theorem outcome_locate (server : Server) (target : Target) (s : Session) :
    (locate server target (paceFrom pause limit started)).outcome s =
      (atDesk server target pause limit).locate looksLeft started target s := by
  unfold locate Outside.locate
  rcases target.build.bind Json.present? with _ | url
  · rcases target.queue.present? with _ | queue
    · have hlast : (lastBuildUrl server target.job target.label).outcome s =
          (atDesk server target pause limit).last s := rfl
      dsimp only
      rw [Desk.outcome_bind, hlast]
      rcases (atDesk server target pause limit).last s with ⟨f | url, s₁⟩
      · rfl
      · rfl
    · exact outcome_await server target _ s
  · rfl

theorem outcome_finished (url : Json) :
    (finished server url).outcome = (atDesk server target pause limit).finished url := by
  funext s
  have hbuild : (server.build url).outcome s = (atDesk server target pause limit).build url s := rfl
  rw [finished, Outside.finished, Desk.outcome_bind, hbuild]
  rcases (atDesk server target pause limit).build url s with ⟨f | build, s₁⟩
  · rfl
  · rfl

theorem outcome_watchClosely (s : Session) :
    (watchClosely server target (paceFrom pause limit started)).outcome s =
      (atDesk server target pause limit).watch looksLeft started target s := by
  have hparts : watchClosely server target (paceFrom pause limit started) =
      announceWait target >>= fun _ =>
        untilFinished server target (paceFrom pause limit started) := by
    rw [watchClosely, announceWait, bind_assoc]
  have hannounce : (announceWait target).outcome s =
      (atDesk server target pause limit).announce s := rfl
  rw [hparts, Outside.watch, Desk.outcome_bind, hannounce]
  rcases (atDesk server target pause limit).announce s with ⟨f | _, s₁⟩
  · rfl
  · dsimp only
    rw [untilFinished, Desk.outcome_bind, outcome_locate server target]
    rcases (atDesk server target pause limit).locate looksLeft started target s₁
      with ⟨f | found, s₂⟩
    · rfl
    · cases found with
      | none => rfl
      | some url =>
        dsimp only
        rw [outcome_await server target, outcome_finished]
        rfl

/-- Whatever is told, a wait comes to what it comes to, unless telling fails. -/
theorem outcome_telling (part : Desk Unit) (waited : Waited) (s : Session) :
    (part >>= fun _ => pure waited : Desk Waited).outcome s =
      Outside.told waited (part.outcome s) := by
  unfold Outside.told
  rw [Desk.outcome_bind]
  rcases part.outcome s with ⟨f | _, s₁⟩
  · rfl
  · rfl

theorem reportFinished_eq (build : Build) : reportFinished target.label build =
    tellResult target build >>= fun _ => pure (.ofBuild build) := by
  rw [reportFinished, tellResult, bind_assoc]
  congr 1
  funext message
  split
  · rfl
  · rfl

theorem reportTimeout_eq : reportTimeout target (paceFrom pause limit started) =
    tellOver target started >>= fun _ => pure (.timedOut (Json.ofOption target.build)) := by
  simp only [reportTimeout, tellOver, bind_assoc]
  rfl

/-- Telling how a build has ended does not fail. -/
theorem tellResult_succeeds (target : Target) (build : Build) (s : Session) :
    ∃ s', (tellResult target build).Yields s () s' := by
  have hsaid : ∀ message, ∃ s', (if (build.result.orElse (.str "UNKNOWN")).isText "SUCCESS"
      then Console.printOk message else Console.printError message).Yields s () s' := by
    intro message
    split
    · exact ⟨_, Desk.yields_emit.mpr rfl⟩
    · exact ⟨_, Desk.yields_emit.mpr rfl⟩
  obtain ⟨s', htold⟩ := hsaid _
  exact ⟨s', Desk.yields_bind.mpr ⟨_, s, rfl, htold⟩⟩

theorem duration_ne_interrupted (millis : Quantity) :
    Report.duration millis ≠ .error .interrupted := by
  unfold Report.duration
  split
  · exact nofun
  · split
    · exact nofun
    · split
      · split <;> exact nofun
      · exact nofun

/-- Telling that the time is up may fail, but it is not interrupted. -/
theorem tellOver_ne_interrupted (s : Session) :
    ((tellOver target started).outcome s).1 ≠ .error .interrupted := by
  intro hcut
  rcases Desk.fails_bind.mp (Desk.fails_of_outcome hcut) with hclock | ⟨now, s₁, -, h⟩
  · cases hclock
  · rcases Desk.fails_bind.mp h with htext | ⟨text, s₂, -, h⟩
    · exact duration_ne_interrupted _ (Desk.fails_ofExcept.mp htext).1
    · rcases Desk.fails_bind.mp h with hsay | ⟨message, s₃, -, h⟩
      · cases hsay
      · exact Desk.fails_emit h

/-- **The command waits as the loop does.** -/
theorem wait_eq (server : Server) (target : Target) (pause limit : Option Quantity)
    (s : Session) : (wait server target pause limit).outcome s =
      (atDesk server target pause limit).wait looksLeft target s := by
  have hclock : Desk.clock.outcome s = (.ok s.clock, s) := rfl
  have hpace : ({ pause := pause.getD (.real Settings.pollSeconds), limit, started := s.clock } :
    Pace) = paceFrom pause limit s.clock := rfl
  rw [wait, Desk.outcome_bind, hclock]
  dsimp only
  rw [hpace, Desk.outcome_tryCatch, Desk.outcome_bind, outcome_watchClosely, Outside.wait]
  have hnow : (atDesk server target pause limit).clock s = s.clock := rfl
  rw [hnow]
  rcases (atDesk server target pause limit).watch looksLeft s.clock target s with ⟨f | found, s₁⟩
  · cases f with
    | interrupted =>
      have htell : (do
          Console.printWarning (← Desk.say Notice.watchCancelled [])
          pure (.cancelled (Json.ofOption target.build)) : Desk Waited) =
        tellInterrupted >>= fun _ => pure (.cancelled (Json.ofOption target.build)) := by
        rw [tellInterrupted, bind_assoc]
      dsimp only
      rw [htell]
      exact outcome_telling _ _ s₁
    | _ => rfl
  · cases found with
    | some build =>
      obtain ⟨s', htold⟩ := tellResult_succeeds target build s₁
      have htell : (atDesk server target pause limit).conclude s.clock target
          (.ok (some build), s₁) = Outside.told (.ofBuild build) (.ok (), s') :=
        congrArg (Outside.told (.ofBuild build)) htold
      dsimp only
      rw [reportFinished_eq, outcome_telling, htold, htell]
      rfl
    | none =>
      have htell : (atDesk server target pause limit).conclude s.clock target (.ok none, s₁) =
        Outside.told (.timedOut (Json.ofOption target.build))
          ((tellOver target s.clock).outcome s₁) := rfl
      dsimp only
      rw [reportTimeout_eq, outcome_telling, htell]
      rcases hover : (tellOver target s.clock).outcome s₁ with ⟨f | _, s₂⟩
      · cases f with
        | interrupted => exact absurd (congrArg Prod.fst hover) (tellOver_ne_interrupted s₁)
        | _ => rfl
      · rfl

/-- The command does not run out of looks. -/
theorem wait_ne_stalled (s : Session) :
    ((wait server target pause limit).outcome s).1 ≠ .error .stalled := by
  intro hstalled
  have htame := (isFair_wait (E := Event.IsAny) server target pause limit).tame
  exact htame.returns (Desk.fails_of_outcome hstalled) rfl

/-! ### Interruptions -/

theorem heeds_showStatus (text : String) : (Console.showStatus text).Heeds := by
  refine Desk.heeds_bind ?_ fun _ => Desk.heeds_emit _
  unfold Console.rendered
  split
  · exact Desk.heeds_pure _
  · exact Desk.heeds_throw _
  · exact Desk.heeds_throw _

theorem heeds_rest (pace : Pace) : pace.rest.Heeds := by
  unfold Pace.rest
  split
  · exact Desk.heeds_pause _
  · exact Desk.heeds_throw _

theorem heeds_isOver (pace : Pace) : pace.isOver.Heeds := by
  unfold Pace.isOver
  split
  · exact Desk.heeds_pure _
  · exact Desk.heeds_bind Desk.heeds_clock fun _ => Desk.heeds_pure _

theorem heeds_lookFor (pace : Pace) {look : Desk (Option α)} (hlook : look.Heeds) (looks : Nat) :
    (lookFor pace look looks).Heeds := by
  induction looks with
  | zero => exact Desk.heeds_throw _
  | succ looks ih =>
    refine Desk.heeds_bind hlook fun found => ?_
    cases found with
    | some a => exact Desk.heeds_pure _
    | none =>
      refine Desk.heeds_bind (heeds_isOver pace) fun isOver => ?_
      split
      · exact Desk.heeds_pure _
      · exact Desk.heeds_bind (heeds_rest pace) fun _ => ih

theorem heeds_await (pace : Pace) {look : Desk (Option α)} (hlook : look.Heeds) :
    (await pace look).Heeds := Desk.heeds_get_bind fun _ => heeds_lookFor pace hlook _

theorem heeds_locate (server : Server) (target : Target) (pace : Pace) :
    (locate server target pace).Heeds := by
  unfold locate
  split
  · exact Desk.heeds_pure _
  · exact heeds_await pace (heeds_queuedBuild server _)
  · refine Desk.heeds_bind ?_ fun _ => Desk.heeds_pure _
    refine Desk.heeds_bind (heeds_lastBuild server _) fun last => ?_
    split
    · exact Desk.heeds_refuse_bind _ _ _ _
    · exact Desk.heeds_pure _

theorem heeds_untilFinished (server : Server) (target : Target) (pace : Pace) :
    (untilFinished server target pace).Heeds := by
  refine Desk.heeds_bind (heeds_locate server target pace) fun found => ?_
  cases found with
  | none => exact Desk.heeds_pure _
  | some url =>
    exact heeds_await pace (Desk.heeds_bind (heeds_build server url) fun _ => Desk.heeds_pure _)

theorem heeds_watchClosely (server : Server) (target : Target) (pace : Pace) :
    (watchClosely server target pace).Heeds :=
  Desk.heeds_bind (Desk.heeds_say _ _) fun _ =>
    Desk.heeds_bind (heeds_showStatus _) fun _ => heeds_untilFinished server target pace

theorem heeds_tellResult (build : Build) : (tellResult target build).Heeds := by
  refine Desk.heeds_bind (Desk.heeds_say _ _) fun _ => ?_
  split
  · exact Desk.heeds_emit _
  · exact Desk.heeds_emit _

theorem heeds_tellOver : (tellOver target started).Heeds :=
  Desk.heeds_bind Desk.heeds_clock fun _ => Desk.heeds_bind (Desk.heeds_ofExcept _) fun _ =>
    Desk.heeds_bind (Desk.heeds_say _ _) fun _ => Desk.heeds_emit _

/-- The command says how a wait has ended, and is not interrupted meanwhile. -/
theorem undisturbed_conclude {r : Except Fault (Option Build)} (s : Session)
    (hr : r ≠ .error .interrupted) :
    s.Undisturbed ((atDesk server target pause limit).conclude started target (r, s)).2 := by
  rcases r with f | found
  · have hsame : (atDesk server target pause limit).conclude started target (.error f, s) =
        (.error f, s) := by
      cases f with
      | interrupted => exact absurd rfl hr
      | _ => rfl
    rw [hsame]
    exact .refl s
  · cases found with
    | some build =>
      obtain ⟨s', htold⟩ := tellResult_succeeds target build s
      have hquiet := (heeds_tellResult build).yields htold
      have hsame : ((atDesk server target pause limit).conclude started target
          (.ok (some build), s)).2 = s' := congrArg Prod.snd htold
      rwa [hsame]
    | none =>
      have hsame : (atDesk server target pause limit).conclude started target (.ok none, s) =
        Outside.told (.timedOut (Json.ofOption target.build))
          ((tellOver target started).outcome s) := rfl
      rw [hsame]
      exact heeds_tellOver s (tellOver_ne_interrupted s)

/-- A wait in which a request or a sleep was interrupted is cancelled. -/
theorem cancelled_of_disturbed {s : Session}
    (h : ¬ s.Undisturbed ((wait server target pause limit).outcome s).2) :
    ((wait server target pause limit).outcome s).1 =
      .ok (.cancelled (Json.ofOption target.build)) := by
  have hheeds := heeds_watchClosely server target (paceFrom pause limit s.clock) s
  rw [outcome_watchClosely] at hheeds
  rcases hwatch : (atDesk server target pause limit).watch looksLeft s.clock target s with ⟨r, s₁⟩
  have hwait : (wait server target pause limit).outcome s =
      (atDesk server target pause limit).conclude s.clock target (r, s₁) :=
    (wait_eq server target pause limit s).trans
      (congrArg ((atDesk server target pause limit).conclude s.clock target) hwatch)
  rw [hwatch] at hheeds
  rw [hwait] at h ⊢
  by_cases hr : r = .error .interrupted
  · rw [hr]
    rfl
  · exact absurd ((hheeds hr).trans (undisturbed_conclude s₁ hr)) h

end

/-! ### What the loop comes to -/

/-- What a wait comes to is told to the user by what polling came to last. -/
structure Outside.KeepsTime (O : Outside σ τ) (looks : σ → Nat) (target : Target) (s : σ) :
    Prop where
  /-- A result is that of a build whose last look showed it finished. -/
  finished : ∀ result number url,
    (O.wait looks target s).1 = .ok (.finished result number url) →
    ∃ place s₁ build s₂, O.Reaches (O.clock s) target s (.build place) s₁ ∧
      O.build place s₁ = (.ok build, s₂) ∧ build.building = false ∧
      O.wait looks target s = told (.ofBuild build) (O.tellFinished build s₂)
  /-- When the time is up, the last look showed the build unfinished, and was late. -/
  timedOut : ∀ url, (O.wait looks target s).1 = .ok (.timedOut url) →
    ∃ stage s₁ s₂, O.Reaches (O.clock s) target s stage s₁ ∧ O.Shows stage s₁ s₂ ∧
      O.isOver (O.clock s) (O.clock s₂) = true ∧
      O.wait looks target s =
        told (.timedOut (Json.ofOption target.build)) (O.tellTimeout (O.clock s) s₂)
  /-- No sleep begins when the time is up: whatever it would do, the wait is the same. -/
  sleeps : ∀ rest : Part σ Unit,
    (∀ t, O.isOver (O.clock s) (O.clock t) = false → rest t = O.rest t) →
    (O.withRest rest).wait looks target s = O.wait looks target s
  /-- An interruption, wherever it cuts polling short, cancels the wait. -/
  interrupted : ∀ s₁, O.Cut (O.clock s) target s .interrupted s₁ →
    O.wait looks target s =
      told (.cancelled (Json.ofOption target.build)) (O.tellCancelled s₁)
  /-- Nothing else cancels it. -/
  cancelled : ∀ url, (O.wait looks target s).1 = .ok (.cancelled url) →
    ∃ s₁, O.Cut (O.clock s) target s .interrupted s₁

namespace Outside

variable {O : Outside σ τ} {looks : σ → Nat} {target : Target} {s : σ}

theorem told_eq_ok {waited other : Waited} {said : Except Fault Unit × σ}
    (h : (told waited said).1 = .ok other) : other = waited := by
  rcases said with ⟨f | _, s'⟩
  · cases h
  · exact (Except.ok.inj h).symm

/-- Unless it runs out of looks, a wait keeps time. -/
theorem keepsTime (h : (O.wait looks target s).1 ≠ .error .stalled) :
    O.KeepsTime looks target s := by
  rcases hwatch : O.watch looks (O.clock s) target s with ⟨r, s'⟩
  have hwait : O.wait looks target s = O.conclude (O.clock s) target (r, s') :=
    congrArg (O.conclude (O.clock s) target) hwatch
  have hr : r ≠ .error .stalled := by
    rintro rfl
    exact h (congrArg Prod.fst hwait)
  have hpolled : O.Polled (O.clock s) target s r s' := polled_of_watch hwatch hr
  refine ⟨fun result number url hres => ?_, fun url hres => ?_, fun rest => wait_rest rest,
    fun s₁ hcut => ?_, fun url hres => ?_⟩
  · rw [hwait] at hres
    cases hpolled with
    | @finished place build s₁ _ hreach hbuild hdone =>
      exact ⟨place, s₁, build, s', hreach, hbuild, hdone, hwait⟩
    | late => cases told_eq_ok hres
    | @cut f _ hcut =>
      cases f with
      | interrupted => cases told_eq_ok hres
      | _ => cases hres
  · rw [hwait] at hres
    cases hpolled with
    | finished => cases told_eq_ok hres
    | @late stage s₁ _ hreach hshows hover =>
      exact ⟨stage, s₁, s', hreach, hshows, hover, hwait⟩
    | @cut f _ hcut =>
      cases f with
      | interrupted => cases told_eq_ok hres
      | _ => cases hres
  · obtain ⟨rfl, rfl⟩ := hpolled.unique (.cut hcut)
    exact hwait
  · rw [hwait] at hres
    cases hpolled with
    | finished => cases told_eq_ok hres
    | late => cases told_eq_ok hres
    | @cut f _ hcut =>
      cases f with
      | interrupted => exact ⟨s', hcut⟩
      | _ => cases hres

end Outside

/-! ### What a wait comes to -/

theorem isText_eq_true {v : Json} {text : String} : v.isText text = true ↔ v = .str text := by
  cases v with
  | str other => exact beq_iff_eq.trans (by rw [Json.str.injEq])
  | _ => exact ⟨nofun, nofun⟩

/-- The exit code tells how a wait ended. -/
theorem exitCode_spec (waited : Waited) :
    (waited.exitCode = 124 ↔ waited.isTimedOut = true) ∧
      (waited.exitCode = 130 ↔ waited.isCancelled = true) ∧
      (waited.exitCode = 0 ↔ waited.isTimedOut = false ∧ waited.isCancelled = false ∧
        waited.result = .str "SUCCESS") ∧
      (waited.exitCode = 1 ↔ waited.isTimedOut = false ∧ waited.isCancelled = false ∧
        waited.result ≠ .str "SUCCESS") := by
  cases waited with
  | finished result number url =>
    have hiff : result.isText "SUCCESS" = true ↔ result = .str "SUCCESS" := isText_eq_true
    cases hresult : result.isText "SUCCESS" with
    | true => simp_all [Waited.exitCode, Waited.isTimedOut, Waited.isCancelled, Waited.result]
    | false => simp_all [Waited.exitCode, Waited.isTimedOut, Waited.isCancelled, Waited.result]
  | timedOut url => simp [Waited.exitCode, Waited.isTimedOut, Waited.isCancelled]
  | cancelled url => simp [Waited.exitCode, Waited.isTimedOut, Waited.isCancelled]

/-- **A wait keeps time.**  The command waits as the loop does and does not run out of looks, and
an interrupted request or sleep cancels it.  The loop, whatever it meets, ends with a finished
build only when a look showed it finished, and as late only when the last look showed the build
unfinished and the time was up; no sleep begins after that.  The exit code tells how it ended.
By a clock that goes on by the same amount with each sleep the loop ends, whatever the server
answers: with enough looks it comes to one and the same end. -/
theorem wait_keeps_time :
    (∀ (server : Server) (target : Target) (pause limit : Option Quantity) (s : Session),
      (wait server target pause limit).outcome s =
          (atDesk server target pause limit).wait looksLeft target s ∧
        (atDesk server target pause limit).KeepsTime looksLeft target s ∧
        (¬ s.Undisturbed ((wait server target pause limit).outcome s).2 →
          ((wait server target pause limit).outcome s).1 =
            .ok (.cancelled (Json.ofOption target.build)))) ∧
      (∀ {σ τ : Type} (O : Outside σ τ) (looks : σ → Nat) (target : Target) (s : σ),
        (O.wait looks target s).1 ≠ .error .stalled → O.KeepsTime looks target s) ∧
      (∀ waited : Waited,
        (waited.exitCode = 124 ↔ waited.isTimedOut = true) ∧
          (waited.exitCode = 130 ↔ waited.isCancelled = true) ∧
          (waited.exitCode = 0 ↔ waited.isTimedOut = false ∧ waited.isCancelled = false ∧
            waited.result = .str "SUCCESS") ∧
          (waited.exitCode = 1 ↔ waited.isTimedOut = false ∧ waited.isCancelled = false ∧
            waited.result ≠ .str "SUCCESS")) ∧
      ∀ {σ τ : Type} [AddCommGroup τ] [LinearOrder τ] [IsOrderedAddMonoid τ] [Archimedean τ]
        (O : Outside σ τ) (limit pause : τ), O.IsExact limit pause → 0 < pause →
        ∀ (target : Target) (s : σ), ∃ r s₁, O.Polled (O.clock s) target s r s₁ ∧
          ∃ N, ∀ looks, (∀ t, N ≤ looks t) →
            O.wait looks target s = O.conclude (O.clock s) target (r, s₁) := by
  refine ⟨fun server target pause limit s => ?_, fun O looks target s => ?_, exitCode_spec,
    fun O limit pause hexact hpause target s => ?_⟩
  · have hreturns : ((atDesk server target pause limit).wait looksLeft target s).1 ≠
        .error .stalled := by
      rw [← wait_eq]
      exact wait_ne_stalled s
    exact ⟨wait_eq server target pause limit s, Outside.keepsTime hreturns,
      cancelled_of_disturbed⟩
  · exact Outside.keepsTime
  · obtain ⟨r, s₁, hpolled⟩ := Outside.polled_of_exact hexact hpause (O.clock s) target s
    obtain ⟨N, hN⟩ := Outside.watch_of_polled hpolled
    refine ⟨r, s₁, hpolled, N, fun looks hlooks => ?_⟩
    exact congrArg (O.conclude (O.clock s) target) (hN looks hlooks)

/-- A server that builds for ever: a request takes a second and a sleep two, and a wait is over
after five. -/
def endless : Outside Int Int where
  clock s := s
  isOver started now := decide (5 ≤ now - started)
  announce s := (.ok (), s)
  queued _ s := (.ok none, s + 1)
  last s := (.ok (.str "last"), s + 1)
  build _ s := (.ok { building := true }, s + 1)
  rest s := (.ok (), s + 2)
  tellFinished _ s := (.ok (), s)
  tellTimeout _ s := (.ok (), s)
  tellCancelled s := (.ok (), s)

/-- The build at an address is waited for. -/
def buildAt : Target := { job := "job", label := .str "job", build := some (.str "build") }

/-- The first request of a wait is interrupted. -/
def interruptedAtOnce : Session := { responses := [.interrupt 0] }

theorem wait_keeps_time_endless :
    ¬ interruptedAtOnce.Undisturbed
        ((wait plainServer buildAt none none).outcome interruptedAtOnce).2 ∧
      ((wait plainServer buildAt none none).outcome interruptedAtOnce).1 =
        .ok (.cancelled (.str "build")) ∧
      (endless.wait (fun _ => 3) buildAt 0).1 ≠ .error .stalled ∧
      endless.KeepsTime (fun _ => 3) buildAt 0 ∧
      endless.IsExact 5 2 ∧ (0 : Int) < 2 ∧
      ∃ N, ∀ looks, (∀ t, N ≤ looks t) →
        endless.wait looks buildAt 0 = (.ok (.timedOut (.str "build")), 7) := by
  have htaken : ((wait plainServer buildAt none none).outcome interruptedAtOnce).2.responses = [] :=
    by decide +kernel
  have hdisturbed : ¬ interruptedAtOnce.Undisturbed
      ((wait plainServer buildAt none none).outcome interruptedAtOnce).2 := by
    intro h
    obtain ⟨taken, heq, hnone⟩ := h.replies
    rw [htaken, List.append_nil] at heq
    exact hnone 0 (heq ▸ List.mem_singleton.mpr rfl)
  have hreturns : (endless.wait (fun _ => 3) buildAt 0).1 ≠ .error .stalled := nofun
  have hexact : endless.IsExact 5 2 := by
    refine ⟨fun started now => decide_eq_true_iff, fun place s => ?_, fun url s => ?_,
      fun s s' h => ?_⟩
    · exact Int.le_add_of_nonneg_right (by decide)
    · exact Int.le_add_of_nonneg_right (by decide)
    · exact (Prod.mk.inj h).2.symm
  obtain ⟨r, s₁, -, N, hN⟩ := wait_keeps_time.2.2.2 endless 5 2 hexact (by decide) buildAt 0
  refine ⟨hdisturbed, (wait_keeps_time.1 plainServer buildAt none none interruptedAtOnce).2.2
    hdisturbed, hreturns, wait_keeps_time.2.1 endless _ buildAt 0 hreturns, hexact, by decide, ?_⟩
  -- With three looks more than enough, the loop still comes to the same end.
  have hlook : ∀ t, endless.finished (.str "build") t = (.ok none, t + 1) := fun _ => rfl
  have hlate : endless.watch (fun _ => N + 3) 0 buildAt 0 = (.ok none, 7) :=
    calc endless.lookFor 0 (endless.finished (.str "build")) (N + 3) 0
        = endless.lookFor 0 (endless.finished (.str "build")) (N + 2) 3 :=
          Outside.lookFor_again (hlook 0) rfl rfl _
      _ = endless.lookFor 0 (endless.finished (.str "build")) (N + 1) 6 :=
          Outside.lookFor_again (hlook 3) rfl rfl _
      _ = (.ok none, 7) := Outside.lookFor_late (hlook 6) rfl _
  have hend := hN (fun _ => N + 3) fun _ => Nat.le_add_right N 3
  refine ⟨N, fun looks hlooks => (hN looks hlooks).trans (hend.symm.trans ?_)⟩
  exact congrArg (endless.conclude 0 buildAt) hlate

end BuildDesk.Command
