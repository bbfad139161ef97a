/-
Polling, whatever the server answers and however time passes.

How a wait for a build goes depends on the server, on the clock and on whoever interrupts it.
Here all these are a parameter (`Outside`): requests, sleeps and the clock are whatever they
are, and the wait is the loop around them (`Outside.wait`).  The loop is given a number of
looks; what it does is said without that number:

* `Outside.Reaches` — where polling comes, one look after another, however many looks it takes;
* `Outside.Polled` — polling ends with a finished build, or because it is late, or because it is
  cut short;
* `polled_of_watch`, `watch_of_polled` — the loop comes to such an end unless it runs out of
  looks, and with enough looks it comes to any such end, so there is only one;
* `polled_of_exact` — by an exact clock there is an end, whatever the server answers.
-/
import BuildDesk.Command.Wait
import Mathlib.Algebra.Order.Archimedean.Basic
import Mathlib.Tactic.Abel

namespace BuildDesk.Command

open Server

variable {σ τ α : Type}

/-- What waiting comes to when a build has finished. -/
def Waited.ofBuild (build : Build) : Waited :=
  .finished (build.result.orElse (.str "UNKNOWN")) build.number build.url

/-- A part of a wait takes a state, comes to a value or to a fault, and leaves a state. -/
abbrev Part (σ α : Type) := σ → Except Fault α × σ

/-- What a wait meets: the clock, the server, sleeps, and the user who is told. -/
structure Outside (σ τ : Type) where
  /-- The time in a state. -/
  clock : σ → τ
  /-- A wait that began at the first time is over at the second. -/
  isOver : τ → τ → Bool
  /-- The user is told what is waited for. -/
  announce : Part σ Unit
  /-- The address of a queued build, once it runs. -/
  queued : Json → Part σ (Option Json)
  /-- The address of the last build of the job. -/
  last : Part σ Json
  /-- The build at an address. -/
  build : Json → Part σ Build
  /-- The sleep between two looks. -/
  rest : Part σ Unit
  tellFinished : Build → Part σ Unit
  /-- The user is told that the time is up, for a wait that began at a time. -/
  tellTimeout : τ → Part σ Unit
  tellCancelled : Part σ Unit

namespace Outside

variable (O : Outside σ τ) (looks : σ → Nat) (started : τ) (target : Target)

/-- Looks again and again for something, with a sleep between two looks. -/
def lookFor (look : Part σ (Option α)) : Nat → Part σ (Option α)
  | 0, s => (.error .stalled, s)
  | looks + 1, s =>
    match look s with
    | (.ok (some found), s₁) => (.ok (some found), s₁)
    | (.ok none, s₁) =>
      if O.isOver started (O.clock s₁) then (.ok none, s₁)
      else match O.rest s₁ with
        | (.ok (), s₂) => lookFor look looks s₂
        | (.error f, s₂) => (.error f, s₂)
    | (.error f, s₁) => (.error f, s₁)

/-- Looks for something until it is there or the time is up. -/
def await (look : Part σ (Option α)) : Part σ (Option α) := fun s =>
  O.lookFor started look (looks s) s

/-- The build at an address when it has finished. -/
def finished (url : Json) : Part σ (Option Build) := fun s =>
  match O.build url s with
  | (.ok build, s₁) => (.ok (if build.building then none else some build), s₁)
  | (.error f, s₁) => (.error f, s₁)

/-- The address of the build that is waited for, once it is known. -/
def locate : Part σ (Option Json) := fun s =>
  match target.build.bind Json.present?, target.queue.present? with
  | some url, _ => (.ok (some url), s)
  | none, some queue => O.await looks started (O.queued queue) s
  | none, none =>
    match O.last s with
    | (.ok url, s₁) => (.ok (some url), s₁)
    | (.error f, s₁) => (.error f, s₁)

/-- Waits for the build at the address that was found. -/
def thence : Except Fault (Option Json) × σ → Except Fault (Option Build) × σ
  | (.error f, s) => (.error f, s)
  | (.ok none, s) => (.ok none, s)
  | (.ok (some url), s) => O.await looks started (O.finished url) s

/-- Says what is waited for, and waits: the finished build, or nothing when the time is up. -/
def watch : Part σ (Option Build) := fun s =>
  match O.announce s with
  | (.error f, s₁) => (.error f, s₁)
  | (.ok (), s₁) => O.thence looks started (O.locate looks started target s₁)

/-- What a wait comes to when the user has been told. -/
def told (waited : Waited) (said : Except Fault Unit × σ) : Except Fault Waited × σ :=
  (said.1.map fun _ => waited, said.2)

/-- Tells the user how polling has ended. -/
def conclude : Except Fault (Option Build) × σ → Except Fault Waited × σ
  | (.ok (some build), s) => told (.ofBuild build) (O.tellFinished build s)
  | (.ok none, s) => told (.timedOut (Json.ofOption target.build)) (O.tellTimeout started s)
  | (.error .interrupted, s) =>
    told (.cancelled (Json.ofOption target.build)) (O.tellCancelled s)
  | (.error f, s) => (.error f, s)

/-- Waits for a build and tells the user how it ended. -/
def wait : Part σ Waited := fun s =>
  O.conclude (O.clock s) target (O.watch looks (O.clock s) target s)

/-! ### Where polling comes -/

/-- What is looked at: the place of a build in the queue, or the build at an address. -/
inductive Stage
  | queue (place : Json)
  | build (url : Json)

/-- A look shows that the build is still in the queue, or still being built. -/
def Shows : Stage → σ → σ → Prop
  | .queue place, s, s₁ => O.queued place s = (.ok none, s₁)
  | .build url, s, s₁ => ∃ build, O.build url s = (.ok build, s₁) ∧ build.building = true

/-- Polling, from a state, comes to a look in another. -/
inductive Reaches (s : σ) : Stage → σ → Prop
  | given {url : Json} {s₁ : σ} (hannounce : O.announce s = (.ok (), s₁))
      (hbuild : target.build.bind Json.present? = some url) : Reaches s (.build url) s₁
  | queue {place : Json} {s₁ : σ} (hannounce : O.announce s = (.ok (), s₁))
      (hbuild : target.build.bind Json.present? = none)
      (hqueue : target.queue.present? = some place) : Reaches s (.queue place) s₁
  | last {url : Json} {s₁ s₂ : σ} (hannounce : O.announce s = (.ok (), s₁))
      (hbuild : target.build.bind Json.present? = none) (hqueue : target.queue.present? = none)
      (hlast : O.last s₁ = (.ok url, s₂)) : Reaches s (.build url) s₂
  | begun {place url : Json} {s₁ s₂ : σ} (hreach : Reaches s (.queue place) s₁)
      (hqueued : O.queued place s₁ = (.ok (some url), s₂)) : Reaches s (.build url) s₂
  | still {stage : Stage} {s₁ s₂ s₃ : σ} (hreach : Reaches s stage s₁)
      (hshows : O.Shows stage s₁ s₂) (hover : O.isOver started (O.clock s₂) = false)
      (hrest : O.rest s₂ = (.ok (), s₃)) : Reaches s stage s₃

/-- Polling is cut short by a fault of one of its parts. -/
inductive Cut (s : σ) (f : Fault) : σ → Prop
  | announcing {s₁ : σ} (hannounce : O.announce s = (.error f, s₁)) : Cut s f s₁
  | asking {s₁ s₂ : σ} (hannounce : O.announce s = (.ok (), s₁))
      (hbuild : target.build.bind Json.present? = none) (hqueue : target.queue.present? = none)
      (hlast : O.last s₁ = (.error f, s₂)) : Cut s f s₂
  | queued {place : Json} {s₁ s₂ : σ} (hreach : O.Reaches started target s (.queue place) s₁)
      (hqueued : O.queued place s₁ = (.error f, s₂)) : Cut s f s₂
  | built {url : Json} {s₁ s₂ : σ} (hreach : O.Reaches started target s (.build url) s₁)
      (hbuild : O.build url s₁ = (.error f, s₂)) : Cut s f s₂
  | resting {stage : Stage} {s₁ s₂ s₃ : σ} (hreach : O.Reaches started target s stage s₁)
      (hshows : O.Shows stage s₁ s₂) (hover : O.isOver started (O.clock s₂) = false)
      (hrest : O.rest s₂ = (.error f, s₃)) : Cut s f s₃

/-- What polling comes to. -/
inductive Polled (s : σ) : Except Fault (Option Build) → σ → Prop
  | finished {url : Json} {build : Build} {s₁ s₂ : σ}
      (hreach : O.Reaches started target s (.build url) s₁)
      (hbuild : O.build url s₁ = (.ok build, s₂)) (hdone : build.building = false) :
      Polled s (.ok (some build)) s₂
  | late {stage : Stage} {s₁ s₂ : σ} (hreach : O.Reaches started target s stage s₁)
      (hshows : O.Shows stage s₁ s₂) (hover : O.isOver started (O.clock s₂) = true) :
      Polled s (.ok none) s₂
  | cut {f : Fault} {s₁ : σ} (hcut : O.Cut started target s f s₁) : Polled s (.error f) s₁

/-! ### The end of a loop -/

/-- The last look of a loop, and what the loop comes to. -/
inductive Stops (look : Part σ (Option α)) (s : σ) : Except Fault (Option α) → σ → Prop
  | found {a : α} {s₁ : σ} (hlook : look s = (.ok (some a), s₁)) : Stops look s (.ok (some a)) s₁
  | late {s₁ : σ} (hlook : look s = (.ok none, s₁))
      (hover : O.isOver started (O.clock s₁) = true) : Stops look s (.ok none) s₁
  | failed {f : Fault} {s₁ : σ} (hlook : look s = (.error f, s₁)) : Stops look s (.error f) s₁
  | unrested {f : Fault} {s₁ s₂ : σ} (hlook : look s = (.ok none, s₁))
      (hover : O.isOver started (O.clock s₁) = false) (hrest : O.rest s₁ = (.error f, s₂)) :
      Stops look s (.error f) s₂

/-- The property is kept from one look to the next. -/
def Kept (look : Part σ (Option α)) (P : σ → Prop) : Prop :=
  ∀ s s₁ s₂, P s → look s = (.ok none, s₁) → O.isOver started (O.clock s₁) = false →
    O.rest s₁ = (.ok (), s₂) → P s₂

section

variable {O looks started target} {look : Part σ (Option α)} {P : σ → Prop} {s s₁ s₂ s' : σ}

theorem lookFor_found {a : α} (hlook : look s = (.ok (some a), s₁)) (n : Nat) :
    O.lookFor started look (n + 1) s = (.ok (some a), s₁) := by
  rw [lookFor, hlook]

theorem lookFor_failed {f : Fault} (hlook : look s = (.error f, s₁)) (n : Nat) :
    O.lookFor started look (n + 1) s = (.error f, s₁) := by
  rw [lookFor, hlook]

theorem lookFor_late (hlook : look s = (.ok none, s₁))
    (hover : O.isOver started (O.clock s₁) = true) (n : Nat) :
    O.lookFor started look (n + 1) s = (.ok none, s₁) := by
  rw [lookFor, hlook]
  exact if_pos hover

theorem lookFor_unrested {f : Fault} (hlook : look s = (.ok none, s₁))
    (hover : O.isOver started (O.clock s₁) = false) (hrest : O.rest s₁ = (.error f, s₂)) (n : Nat) :
    O.lookFor started look (n + 1) s = (.error f, s₂) := by
  rw [lookFor, hlook]
  dsimp only
  rw [hover, if_neg Bool.false_ne_true, hrest]

theorem lookFor_again (hlook : look s = (.ok none, s₁))
    (hover : O.isOver started (O.clock s₁) = false) (hrest : O.rest s₁ = (.ok (), s₂)) (n : Nat) :
    O.lookFor started look (n + 1) s = O.lookFor started look n s₂ := by
  rw [lookFor, hlook]
  dsimp only
  rw [hover, if_neg Bool.false_ne_true, hrest]

/-- A look is the last one, or there is another one after a sleep. -/
theorem stops_or_again (O : Outside σ τ) (started : τ) (look : Part σ (Option α)) (s : σ) :
    (∃ r s', O.Stops started look s r s' ∧ ∀ n, O.lookFor started look (n + 1) s = (r, s')) ∨
      ∃ s₁ s₂, look s = (.ok none, s₁) ∧ O.isOver started (O.clock s₁) = false ∧
        O.rest s₁ = (.ok (), s₂) := by
  rcases hlook : look s with ⟨f | found, s₁⟩
  · exact .inl ⟨_, _, .failed hlook, lookFor_failed hlook⟩
  · cases found with
    | some a => exact .inl ⟨_, _, .found hlook, lookFor_found hlook⟩
    | none =>
      cases hover : O.isOver started (O.clock s₁) with
      | true => exact .inl ⟨_, _, .late hlook hover, lookFor_late hlook hover⟩
      | false =>
        rcases hrest : O.rest s₁ with ⟨f | _, s₂⟩
        · exact .inl ⟨_, _, .unrested hlook hover hrest, lookFor_unrested hlook hover hrest⟩
        · exact .inr ⟨s₁, s₂, rfl, hover, hrest⟩

/-- A loop that does not run out of looks stops, where all looks before have come. -/
theorem stops_of_lookFor (hkept : O.Kept started look P) {r : Except Fault (Option α)} (n : Nat) :
    P s → O.lookFor started look n s = (r, s') → r ≠ .error .stalled →
      ∃ s₁, P s₁ ∧ O.Stops started look s₁ r s' := by
  induction n generalizing s with
  | zero =>
    intro hP hrun hr
    exact absurd (Prod.mk.inj hrun).1.symm hr
  | succ n ih =>
    intro hP hrun hr
    rcases stops_or_again O started look s with
      ⟨r₁, s₁, hstops, heq⟩ | ⟨s₁, s₂, hlook, hover, hrest⟩
    · obtain ⟨rfl, rfl⟩ := Prod.mk.inj ((heq n).symm.trans hrun)
      exact ⟨s, hP, hstops⟩
    · rw [lookFor_again hlook hover hrest] at hrun
      exact ih (hkept s s₁ s₂ hP hlook hover hrest) hrun hr

/-- With one more look a loop stops. -/
theorem Stops.lookFor {r : Except Fault (Option α)} (h : O.Stops started look s r s') (n : Nat) :
    O.lookFor started look (n + 1) s = (r, s') := by
  cases h with
  | found hlook => exact lookFor_found hlook n
  | late hlook hover => exact lookFor_late hlook hover n
  | failed hlook => exact lookFor_failed hlook n
  | unrested hlook hover hrest => exact lookFor_unrested hlook hover hrest n

/-! ### What polling comes to -/

theorem finished_eq_none {url : Json} :
    O.finished url s = (.ok none, s₁) ↔ O.Shows (.build url) s s₁ := by
  show O.finished url s = (.ok none, s₁) ↔
    ∃ build, O.build url s = (.ok build, s₁) ∧ build.building = true
  unfold finished
  rcases O.build url s with ⟨f | build, s'⟩
  · simp
  · by_cases hbuilding : build.building = true
    · simp [hbuilding, and_comm]
    · simp [hbuilding]

theorem finished_eq_some {url : Json} {build : Build} :
    O.finished url s = (.ok (some build), s₁) ↔
      O.build url s = (.ok build, s₁) ∧ build.building = false := by
  unfold finished
  rcases O.build url s with ⟨f | other, s'⟩
  · simp
  · by_cases hbuilding : other.building = true
    · suffices ¬ ((other = build ∧ s' = s₁) ∧ build.building = false) by simpa [hbuilding]
      rintro ⟨⟨rfl, -⟩, hdone⟩
      exact Bool.noConfusion (hbuilding.symm.trans hdone)
    · suffices other = build → s' = s₁ → build.building = false by simpa [hbuilding]
      rintro rfl -
      exact Bool.not_eq_true _ ▸ hbuilding

theorem finished_eq_error {url : Json} {f : Fault} :
    O.finished url s = (.error f, s₁) ↔ O.build url s = (.error f, s₁) := by
  unfold finished
  rcases O.build url s with ⟨g | build, s'⟩
  · simp
  · simp

/-- Where polling comes in a stage is kept from one look to the next. -/
theorem kept_reaches_queue (s : σ) (place : Json) :
    O.Kept started (O.queued place) (O.Reaches started target s (.queue place)) :=
  fun _ _ _ hreach hlook hover hrest => .still hreach hlook hover hrest

theorem kept_reaches_build (s : σ) (url : Json) :
    O.Kept started (O.finished url) (O.Reaches started target s (.build url)) :=
  fun _ _ _ hreach hlook hover hrest => .still hreach (finished_eq_none.mp hlook) hover hrest

/-- What comes of a last look at a build. -/
theorem polled_of_build {url : Json} {r : Except Fault (Option Build)}
    (hreach : O.Reaches started target s (.build url) s₁)
    (hstops : O.Stops started (O.finished url) s₁ r s') : O.Polled started target s r s' := by
  cases hstops with
  | found hlook =>
    obtain ⟨hbuild, hdone⟩ := finished_eq_some.mp hlook
    exact .finished hreach hbuild hdone
  | late hlook hover => exact .late hreach (finished_eq_none.mp hlook) hover
  | failed hlook => exact .cut (.built hreach (finished_eq_error.mp hlook))
  | unrested hlook hover hrest =>
    exact .cut (.resting hreach (finished_eq_none.mp hlook) hover hrest)

/-- What comes of a last look at the queue: the build runs, or polling ends. -/
theorem polled_of_queue {place : Json} {r : Except Fault (Option Json)}
    (hreach : O.Reaches started target s (.queue place) s₁)
    (hstops : O.Stops started (O.queued place) s₁ r s') :
    (∃ url, r = .ok (some url) ∧ O.Reaches started target s (.build url) s') ∨
      (r = .ok none ∧ O.Polled started target s (.ok none) s') ∨
      ∃ f, r = .error f ∧ O.Polled started target s (.error f) s' := by
  cases hstops with
  | found hlook => exact .inl ⟨_, rfl, .begun hreach hlook⟩
  | late hlook hover => exact .inr (.inl ⟨rfl, .late hreach hlook hover⟩)
  | failed hlook => exact .inr (.inr ⟨_, rfl, .cut (.queued hreach hlook)⟩)
  | unrested hlook hover hrest =>
    exact .inr (.inr ⟨_, rfl, .cut (.resting hreach hlook hover hrest)⟩)

/-- A loop that does not run out of looks comes to an end of polling. -/
theorem polled_of_watch {r : Except Fault (Option Build)}
    (hwatch : O.watch looks started target s = (r, s')) (hr : r ≠ .error .stalled) :
    O.Polled started target s r s' := by
  have hbuilt : ∀ {url s₁}, O.Reaches started target s (.build url) s₁ →
      O.await looks started (O.finished url) s₁ = (r, s') → O.Polled started target s r s' := by
    intro url s₁ hreach hawait
    obtain ⟨s₂, hthere, hstops⟩ :=
      stops_of_lookFor (kept_reaches_build s url) _ hreach hawait hr
    exact polled_of_build hthere hstops
  unfold watch at hwatch
  rcases hannounce : O.announce s with ⟨f | _, s₁⟩
  · rw [hannounce] at hwatch
    obtain ⟨rfl, rfl⟩ := Prod.mk.inj hwatch
    exact .cut (.announcing hannounce)
  rw [hannounce] at hwatch
  dsimp only at hwatch
  unfold locate at hwatch
  rcases hbuild : target.build.bind Json.present? with _ | url
  · rcases hqueue : target.queue.present? with _ | place
    · rw [hbuild, hqueue] at hwatch
      dsimp only at hwatch
      rcases hlast : O.last s₁ with ⟨f | url, s₂⟩
      · rw [hlast] at hwatch
        obtain ⟨rfl, rfl⟩ := Prod.mk.inj hwatch
        exact .cut (.asking hannounce hbuild hqueue hlast)
      · rw [hlast] at hwatch
        exact hbuilt (.last hannounce hbuild hqueue hlast) hwatch
    · rw [hbuild, hqueue] at hwatch
      dsimp only at hwatch
      rcases hawait : O.await looks started (O.queued place) s₁ with ⟨r₁, s₂⟩
      rw [hawait] at hwatch
      have hstart : O.Reaches started target s (.queue place) s₁ := .queue hannounce hbuild hqueue
      have hr₁ : r₁ ≠ .error .stalled := by
        rintro rfl
        exact hr (Prod.mk.inj hwatch).1.symm
      obtain ⟨s₃, hthere, hstops⟩ :=
        stops_of_lookFor (kept_reaches_queue s place) _ hstart hawait hr₁
      rcases polled_of_queue hthere hstops with
        ⟨url, rfl, hreach⟩ | ⟨rfl, hpolled⟩ | ⟨f, rfl, hpolled⟩
      · exact hbuilt hreach hwatch
      · obtain ⟨rfl, rfl⟩ := Prod.mk.inj hwatch
        exact hpolled
      · obtain ⟨rfl, rfl⟩ := Prod.mk.inj hwatch
        exact hpolled
  · rw [hbuild] at hwatch
    exact hbuilt (.given hannounce hbuild) hwatch

/-- What is left of the loop at a look of a stage, with a number of looks for the stage. -/
def resume (O : Outside σ τ) (looks : σ → Nat) (started : τ) :
    Stage → Nat → Part σ (Option Build)
  | .build url, n, s => O.lookFor started (O.finished url) n s
  | .queue place, n, s => O.thence looks started (O.lookFor started (O.queued place) n s)

theorem resume_again {stage : Stage} (hshows : O.Shows stage s s₁)
    (hover : O.isOver started (O.clock s₁) = false) (hrest : O.rest s₁ = (.ok (), s₂)) (n : Nat) :
    O.resume looks started stage (n + 1) s = O.resume looks started stage n s₂ := by
  cases stage with
  | build url => exact lookFor_again (finished_eq_none.mpr hshows) hover hrest n
  | queue place => exact congrArg (O.thence looks started) (lookFor_again hshows hover hrest n)

/-- With enough looks the loop comes to where polling comes, with enough looks left. -/
theorem watch_of_reaches {stage : Stage} {o : Except Fault (Option Build) × σ}
    (hreach : O.Reaches started target s stage s₁)
    (hrest : ∃ N, ∀ looks n, (∀ t, N ≤ looks t) → N ≤ n →
      O.resume looks started stage n s₁ = o) :
    ∃ N, ∀ looks, (∀ t, N ≤ looks t) → O.watch looks started target s = o := by
  induction hreach with
  | @given url s₁ hannounce hbuild =>
    obtain ⟨N, hN⟩ := hrest
    refine ⟨N, fun looks hlooks => ?_⟩
    unfold watch locate
    rw [hannounce, hbuild]
    exact hN looks _ hlooks (hlooks s₁)
  | @queue place s₁ hannounce hbuild hqueue =>
    obtain ⟨N, hN⟩ := hrest
    refine ⟨N, fun looks hlooks => ?_⟩
    unfold watch locate
    rw [hannounce, hbuild, hqueue]
    exact hN looks _ hlooks (hlooks s₁)
  | @last url s₁ s₂ hannounce hbuild hqueue hlast =>
    obtain ⟨N, hN⟩ := hrest
    refine ⟨N, fun looks hlooks => ?_⟩
    unfold watch locate
    rw [hannounce, hbuild, hqueue]
    dsimp only
    rw [hlast]
    exact hN looks _ hlooks (hlooks s₂)
  | @begun place url s₁ s₂ hreach hqueued ih =>
    obtain ⟨N, hN⟩ := hrest
    refine ih ⟨N + 1, fun looks n hlooks hn => ?_⟩
    have hlooks' : ∀ t, N ≤ looks t := fun t => Nat.le_of_succ_le (hlooks t)
    obtain ⟨n, rfl⟩ := Nat.exists_eq_add_of_le' (Nat.le_trans (Nat.le_add_left 1 N) hn)
    have hfound : O.resume looks started (.queue place) (n + 1) s₁ =
        O.resume looks started (.build url) (looks s₂) s₂ :=
      congrArg (O.thence looks started) (lookFor_found hqueued n)
    exact hfound.trans (hN looks _ hlooks' (hlooks' s₂))
  | @still stage s₁ s₂ s₃ hreach hshows hover hslept ih =>
    obtain ⟨N, hN⟩ := hrest
    refine ih ⟨N + 1, fun looks n hlooks hn => ?_⟩
    obtain ⟨n, rfl⟩ := Nat.exists_eq_add_of_le' (Nat.le_trans (Nat.le_add_left 1 N) hn)
    rw [resume_again hshows hover hslept n]
    exact hN looks n (fun t => Nat.le_of_succ_le (hlooks t)) (Nat.le_of_succ_le_succ hn)

/-- A stage that polling comes to is the last one when its loop stops there. -/
theorem watch_of_build {url : Json} {r : Except Fault (Option Build)}
    (hreach : O.Reaches started target s (.build url) s₁)
    (hstops : O.Stops started (O.finished url) s₁ r s') :
    ∃ N, ∀ looks, (∀ t, N ≤ looks t) → O.watch looks started target s = (r, s') := by
  refine watch_of_reaches hreach ⟨1, fun looks n _ hn => ?_⟩
  obtain ⟨n, rfl⟩ := Nat.exists_eq_add_of_le' hn
  exact hstops.lookFor n

theorem watch_of_queue {place : Json} {r : Except Fault (Option Json)}
    {o : Except Fault (Option Build) × σ}
    (hreach : O.Reaches started target s (.queue place) s₁)
    (hstops : O.Stops started (O.queued place) s₁ r s')
    (hthence : ∀ looks, O.thence looks started (r, s') = o) :
    ∃ N, ∀ looks, (∀ t, N ≤ looks t) → O.watch looks started target s = o := by
  refine watch_of_reaches hreach ⟨1, fun looks n _ hn => ?_⟩
  obtain ⟨n, rfl⟩ := Nat.exists_eq_add_of_le' hn
  exact (congrArg (O.thence looks started) (hstops.lookFor n)).trans (hthence looks)

/-- With enough looks the loop comes to the end that polling comes to. -/
theorem watch_of_polled {r : Except Fault (Option Build)} (h : O.Polled started target s r s') :
    ∃ N, ∀ looks, (∀ t, N ≤ looks t) → O.watch looks started target s = (r, s') := by
  cases h with
  | finished hreach hbuild hdone =>
    exact watch_of_build hreach (.found (finished_eq_some.mpr ⟨hbuild, hdone⟩))
  | @late stage s₁ _ hreach hshows hover =>
    cases stage with
    | build url => exact watch_of_build hreach (.late (finished_eq_none.mpr hshows) hover)
    | queue place => exact watch_of_queue hreach (.late hshows hover) fun _ => rfl
  | cut hcut =>
    cases hcut with
    | announcing hannounce =>
      refine ⟨0, fun looks _ => ?_⟩
      unfold watch
      rw [hannounce]
    | asking hannounce hbuild hqueue hlast =>
      refine ⟨0, fun looks _ => ?_⟩
      unfold watch locate
      rw [hannounce, hbuild, hqueue]
      dsimp only
      rw [hlast]
      rfl
    | queued hreach hqueued => exact watch_of_queue hreach (.failed hqueued) fun _ => rfl
    | built hreach hbuild => exact watch_of_build hreach (.failed (finished_eq_error.mpr hbuild))
    | @resting stage _ _ _ hreach hshows hover hrest =>
      cases stage with
      | build url =>
        exact watch_of_build hreach (.unrested (finished_eq_none.mpr hshows) hover hrest)
      | queue place => exact watch_of_queue hreach (.unrested hshows hover hrest) fun _ => rfl

/-- There is one end of polling. -/
theorem Polled.unique {r₁ r₂ : Except Fault (Option Build)}
    (h₁ : O.Polled started target s r₁ s₁) (h₂ : O.Polled started target s r₂ s₂) :
    r₁ = r₂ ∧ s₁ = s₂ := by
  obtain ⟨N₁, hN₁⟩ := watch_of_polled h₁
  obtain ⟨N₂, hN₂⟩ := watch_of_polled h₂
  have hboth := (hN₁ (fun _ => N₁ + N₂) fun _ => Nat.le_add_right _ _).symm.trans
    (hN₂ (fun _ => N₁ + N₂) fun _ => Nat.le_add_left _ _)
  exact Prod.mk.inj hboth

/-! ### Sleeping past the end -/

/-- The same outside with another sleep. -/
def withRest (O : Outside σ τ) (rest : Part σ Unit) : Outside σ τ := { O with rest }

/-- What a sleep would do when the time is up makes no difference to a loop. -/
theorem lookFor_rest (rest : Part σ Unit)
    (hrest : ∀ t, O.isOver started (O.clock t) = false → rest t = O.rest t) (n : Nat) :
    (O.withRest rest).lookFor started look n s = O.lookFor started look n s := by
  induction n generalizing s with
  | zero => rfl
  | succ n ih =>
    rw [lookFor, lookFor]
    rcases look s with ⟨f | found, s₁⟩
    · rfl
    · cases found with
      | some a => rfl
      | none =>
        have hsame : (O.withRest rest).isOver started ((O.withRest rest).clock s₁) =
          O.isOver started (O.clock s₁) := rfl
        have hother : (O.withRest rest).rest s₁ = rest s₁ := rfl
        dsimp only
        rw [hsame, hother]
        cases hover : O.isOver started (O.clock s₁) with
        | true => rfl
        | false =>
          rw [if_neg Bool.false_ne_true, if_neg Bool.false_ne_true, hrest s₁ hover]
          rcases O.rest s₁ with ⟨f | _, s₂⟩
          · rfl
          · exact ih

/-- What a sleep would do when the time is up makes no difference to a wait. -/
theorem wait_rest (rest : Part σ Unit)
    (hrest : ∀ t, O.isOver (O.clock s) (O.clock t) = false → rest t = O.rest t) :
    (O.withRest rest).wait looks target s = O.wait looks target s := by
  have hawait : ∀ {α : Type} (look : Part σ (Option α)),
      (O.withRest rest).await looks (O.clock s) look = O.await looks (O.clock s) look :=
    fun look => funext fun t => lookFor_rest rest hrest _
  have hlocate : (O.withRest rest).locate looks (O.clock s) target =
      O.locate looks (O.clock s) target := by
    funext t
    unfold locate
    rcases target.build.bind Json.present? with _ | url
    · rcases target.queue.present? with _ | place
      · rfl
      · exact congrFun (hawait (O.queued place)) t
    · rfl
  have hthence : (O.withRest rest).thence looks (O.clock s) = O.thence looks (O.clock s) := by
    funext found
    rcases found with ⟨f | _ | url, t⟩
    · rfl
    · rfl
    · exact congrFun (hawait (O.finished url)) t
  have hclock : (O.withRest rest).clock s = O.clock s := rfl
  unfold wait watch
  rw [hclock, hlocate, hthence]
  rfl

/-! ### An exact clock -/

/-- The time goes on by the same amount with each sleep and is not turned back by a request,
and a wait is over once the time has gone on by the limit. -/
structure IsExact [AddCommGroup τ] [LinearOrder τ] (O : Outside σ τ) (limit pause : τ) : Prop where
  isOver : ∀ started now, O.isOver started now = true ↔ limit ≤ now - started
  queued : ∀ place s, O.clock s ≤ O.clock (O.queued place s).2
  build : ∀ url s, O.clock s ≤ O.clock (O.build url s).2
  rest : ∀ s s', O.rest s = (.ok (), s') → O.clock s' = O.clock s + pause

section

variable [AddCommGroup τ] [LinearOrder τ] {limit pause : τ}

theorem IsExact.finished (h : O.IsExact limit pause) (url : Json) (s : σ) :
    O.clock s ≤ O.clock (O.finished url s).2 := by
  have hsame : (O.finished url s).2 = (O.build url s).2 := by
    unfold Outside.finished
    rcases O.build url s with ⟨f | build, s'⟩
    · rfl
    · rfl
  exact hsame ▸ h.build url s

variable [IsOrderedAddMonoid τ]

/-- A loop stops when the sleeps that are left make up for the time that is left. -/
theorem stops_of_left (h : O.IsExact limit pause) (hkept : O.Kept started look P)
    (hlook : ∀ t, O.clock t ≤ O.clock (look t).2) (k : Nat) (hP : P s)
    (hleft : limit ≤ O.clock s - started + k • pause) :
    ∃ s₁ r s', P s₁ ∧ O.Stops started look s₁ r s' := by
  induction k generalizing s with
  | zero =>
    rcases stops_or_again O started look s with
      ⟨r, s', hstops, -⟩ | ⟨s₁, s₂, hnone, hover, hrest⟩
    · exact ⟨s, r, s', hP, hstops⟩
    · -- The time is up already, so there is no further look.
      have hlater : O.clock s ≤ O.clock s₁ := by
        have := hlook s
        rwa [hnone] at this
      have hlate : limit ≤ O.clock s₁ - started := by
        rw [zero_nsmul, add_zero] at hleft
        exact hleft.trans (sub_le_sub_right hlater _)
      exact absurd ((h.isOver _ _).mpr hlate) (by rw [hover]; exact Bool.false_ne_true)
  | succ k ih =>
    rcases stops_or_again O started look s with
      ⟨r, s', hstops, -⟩ | ⟨s₁, s₂, hnone, hover, hrest⟩
    · exact ⟨s, r, s', hP, hstops⟩
    · have hlater : O.clock s ≤ O.clock s₁ := by
        have := hlook s
        rwa [hnone] at this
      refine ih (hkept s s₁ s₂ hP hnone hover hrest) (hleft.trans ?_)
      rw [h.rest s₁ s₂ hrest, succ_nsmul]
      calc O.clock s - started + (k • pause + pause)
          ≤ O.clock s₁ - started + (k • pause + pause) :=
            add_le_add_left (sub_le_sub_right hlater _) _
        _ = O.clock s₁ + pause - started + k • pause := by abel

/-- A loop stops. -/
theorem stops_of_exact [Archimedean τ] (h : O.IsExact limit pause) (hpause : 0 < pause)
    (hkept : O.Kept started look P) (hlook : ∀ t, O.clock t ≤ O.clock (look t).2) (hP : P s) :
    ∃ s₁ r s', P s₁ ∧ O.Stops started look s₁ r s' := by
  obtain ⟨k, hk⟩ := Archimedean.arch (limit - (O.clock s - started)) hpause
  exact stops_of_left h hkept hlook k hP (sub_le_iff_le_add'.mp hk)

/-- By an exact clock polling comes to an end, whatever the server answers. -/
theorem polled_of_exact [Archimedean τ] (h : O.IsExact limit pause) (hpause : 0 < pause)
    (started : τ) (target : Target) (s : σ) : ∃ r s', O.Polled started target s r s' := by
  have hbuilt : ∀ {url s₁}, O.Reaches started target s (.build url) s₁ →
      ∃ r s', O.Polled started target s r s' := by
    intro url s₁ hreach
    obtain ⟨s₂, r, s', hthere, hstops⟩ :=
      stops_of_exact h hpause (kept_reaches_build s url) (h.finished url) hreach
    exact ⟨r, s', polled_of_build hthere hstops⟩
  rcases hannounce : O.announce s with ⟨f | _, s₁⟩
  · exact ⟨_, _, .cut (.announcing hannounce)⟩
  rcases hbuild : target.build.bind Json.present? with _ | url
  · rcases hqueue : target.queue.present? with _ | place
    · rcases hlast : O.last s₁ with ⟨f | url, s₂⟩
      · exact ⟨_, _, .cut (.asking hannounce hbuild hqueue hlast)⟩
      · exact hbuilt (.last hannounce hbuild hqueue hlast)
    · have hstart : O.Reaches started target s (.queue place) s₁ := .queue hannounce hbuild hqueue
      obtain ⟨s₂, r, s', hthere, hstops⟩ :=
        stops_of_exact h hpause (kept_reaches_queue s place) (h.queued place) hstart
      rcases polled_of_queue hthere hstops with ⟨url, -, hreach⟩ | ⟨-, hpolled⟩ | ⟨f, -, hpolled⟩
      · exact hbuilt hreach
      · exact ⟨_, _, hpolled⟩
      · exact ⟨_, _, hpolled⟩
  · exact hbuilt (.given hannounce hbuild)

end
end
end Outside
end BuildDesk.Command
