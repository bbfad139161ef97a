/-
Interruptions are not swallowed.

The user may interrupt a request or a sleep, and the script of a session says where.  Between
two sessions nothing was interrupted when no interruption stands among the replies that were
taken, and the sleep that is to be interrupted still lies ahead (`Session.Undisturbed`).  A part
heeds interruptions when an interruption in it is what it ends in (`Desk.Heeds`).

* `Undisturbed.trans` — nothing was interrupted when nothing was in either half;
* `heeds_bind` — heeding is kept by putting one part after another;
* `heeds_exchange`, `heeds_pause` — requests and sleeps heed interruptions;
* `Server.heeds_queuedBuild`, `Server.heeds_lastBuild`, `Server.heeds_build` — and so does what
  is asked of the server about builds.
-/
import BuildDesk.Proofs.Outcome
import BuildDesk.Server.Client

namespace BuildDesk

variable {α β : Type}

namespace Session

/-- No request and no sleep in between was interrupted. -/
structure Undisturbed (s s' : Session) : Prop where
  replies : ∃ taken, s.responses = taken ++ s'.responses ∧
    ∀ seconds, Response.interrupt seconds ∉ taken
  sleeps : 0 < s.interruptedSleep → 0 < s'.interruptedSleep

variable {s s₁ s₂ : Session}

/-- Nothing is interrupted where nothing is taken from the script. -/
theorem undisturbed_of_eq (hreplies : s₁.responses = s.responses)
    (hsleeps : s₁.interruptedSleep = s.interruptedSleep) : s.Undisturbed s₁ where
  replies := ⟨[], hreplies.symm, fun _ => List.not_mem_nil⟩
  sleeps h := hsleeps ▸ h

theorem Undisturbed.refl (s : Session) : s.Undisturbed s := undisturbed_of_eq rfl rfl

theorem Undisturbed.trans (h₁ : s.Undisturbed s₁) (h₂ : s₁.Undisturbed s₂) :
    s.Undisturbed s₂ where
  replies := by
    obtain ⟨taken₁, heq₁, hnone₁⟩ := h₁.replies
    obtain ⟨taken₂, heq₂, hnone₂⟩ := h₂.replies
    refine ⟨taken₁ ++ taken₂, by rw [heq₁, heq₂, List.append_assoc], fun seconds hmem => ?_⟩
    rcases List.mem_append.mp hmem with hmem | hmem
    · exact hnone₁ seconds hmem
    · exact hnone₂ seconds hmem
  sleeps h := h₂.sleeps (h₁.sleeps h)

end Session

namespace Desk

/-- An interruption in the part is what the part ends in. -/
def Heeds (part : Desk α) : Prop :=
  ∀ s, (part.outcome s).1 ≠ .error .interrupted → s.Undisturbed (part.outcome s).2

variable {part : Desk α} {next : α → Desk β}

theorem Heeds.yields (h : part.Heeds) {s s' : Session} {a : α} (hy : part.Yields s a s') :
    s.Undisturbed s' := by
  have hquiet := h s
  rw [hy] at hquiet
  exact hquiet nofun

theorem Heeds.fails (h : part.Heeds) {s s' : Session} {f : Fault} (hf : part.Fails s f s')
    (hne : f ≠ .interrupted) : s.Undisturbed s' := by
  have hquiet := h s
  rw [hf] at hquiet
  exact hquiet fun heq => hne (Except.error.inj heq)

/-- A part that comes to a fault fails with it. -/
theorem fails_of_outcome {s : Session} {f : Fault} (h : (part.outcome s).1 = .error f) :
    part.Fails s f (part.outcome s).2 := Prod.ext h rfl

theorem heeds_pure (a : α) : (pure a : Desk α).Heeds := fun s _ => .refl s

theorem heeds_throw (f : Fault) : (throw f : Desk α).Heeds := fun s _ => .refl s

theorem heeds_complain (c : Complaint) : (complain c : Desk α).Heeds := fun s _ => .refl s

theorem heeds_ofExcept (e : Except Fault α) : (ofExcept e).Heeds := fun s _ => .refl s

theorem heeds_bind (h : part.Heeds) (hnext : ∀ a, (next a).Heeds) : (part >>= next).Heeds := by
  intro s
  rw [outcome_bind]
  rcases hpart : part.outcome s with ⟨f | a, s₁⟩
  · intro hne
    exact h.fails hpart fun heq => hne (congrArg Except.error heq)
  · exact fun hne => (h.yields hpart).trans (hnext a s₁ hne)

/-- Nothing comes after a fault. -/
theorem heeds_throw_bind (f : Fault) (next : α → Desk β) : (throw f >>= next).Heeds :=
  fun s _ => .refl s

/-- Nothing comes after a refusal. -/
theorem heeds_refuse_bind (message : Notice) (args : Arguments) (hint : Option Notice)
    (next : α → Desk β) : (refuse message args hint >>= next).Heeds := fun s _ => .refl s

theorem heeds_get_bind {next : Session → Desk β} (hnext : ∀ s, (next s).Heeds) :
    (get >>= next : Desk β).Heeds := fun s => hnext s s

theorem heeds_emit (e : Event) : (emit e).Heeds := fun _ _ => Session.undisturbed_of_eq rfl rfl

theorem heeds_clock : clock.Heeds := fun s _ => .refl s

theorem heeds_say (p : Phrase) (args : Arguments) : (say p args).Heeds := fun s _ => .refl s

theorem heeds_exchange (r : Request) : (exchange r).Heeds := by
  intro s
  rw [outcome_exchange]
  rcases hs : s.responses with _ | ⟨_ | _ | _, rest⟩
  · exact fun _ => Session.undisturbed_of_eq hs.symm rfl
  · exact fun _ => ⟨⟨[_], hs, by simp⟩, id⟩
  · exact fun _ => ⟨⟨[_], hs, by simp⟩, id⟩
  · exact fun hne => absurd rfl hne

/-- What comes of a sleep is settled by how many sleeps come before the interrupted one. -/
theorem outcome_pause (seconds : Float) (s : Session) :
    (pause seconds).outcome s = if s.interruptedSleep == 1
      then (.error .interrupted, { s with interruptedSleep := 0, log := .sleep seconds :: s.log })
      else (.ok (), { s with
        interruptedSleep := s.interruptedSleep - 1
        clock := s.clock + seconds
        log := .sleep seconds :: s.log }) := by
  rcases s with ⟨_, _, _, _, _, _, _ | _ | left⟩
  · rfl
  · rfl
  · rfl

theorem heeds_pause (seconds : Float) : (pause seconds).Heeds := by
  intro s
  rw [outcome_pause]
  split
  · exact fun hne => absurd rfl hne
  · next hleft =>
    refine fun _ => ⟨⟨[], rfl, fun _ => List.not_mem_nil⟩, fun hpos => ?_⟩
    have hne : s.interruptedSleep ≠ 1 := fun heq => hleft (beq_iff_eq.mpr heq)
    show 0 < s.interruptedSleep - 1
    omega

end Desk

/-! ### Requests -/

namespace Server

open Desk

theorem heeds_exchange (r : Request) : (Server.exchange r).Heeds := by
  refine heeds_bind (Desk.heeds_exchange r) fun reply => heeds_bind (heeds_ofExcept _) fun _ => ?_
  split
  · exact heeds_complain _
  · exact heeds_pure _

theorem heeds_fetchJson (server : Server) (url : Json) (tree : Option String) :
    (server.fetchJson url tree).Heeds :=
  heeds_bind (heeds_ofExcept _) fun _ => heeds_bind (heeds_exchange _) fun _ => heeds_ofExcept _

theorem heeds_queuedBuild (server : Server) (queue : Json) : (server.queuedBuild queue).Heeds := by
  refine heeds_bind (heeds_fetchJson _ _ _) fun data => heeds_bind (heeds_ofExcept _) fun _ => ?_
  split
  · exact heeds_throw_bind _ _
  · exact heeds_bind (heeds_ofExcept _) fun _ => heeds_pure _

theorem heeds_lastBuild (server : Server) (job : Json) : (server.lastBuild job).Heeds :=
  heeds_bind (heeds_fetchJson _ _ _) fun _ => heeds_ofExcept _

theorem heeds_build (server : Server) (url : Json) : (server.build url).Heeds :=
  heeds_bind (heeds_fetchJson _ _ _) fun _ => heeds_ofExcept _

end Server
end BuildDesk
