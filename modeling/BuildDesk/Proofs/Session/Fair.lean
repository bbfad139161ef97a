/-
Parts of a run that can be relied on.

A part of a run is fair when all it does is add to the log and take from the script, when it
never runs out of the steps that its loops are given, and when it finds no fault with a flow
unless the user was offered something and answered with something else.  Being fair is put
together like the parts themselves:

* `Desk.isFair_bind`, `Desk.isFair_tryCatch` — one part after another, and a part with what is
  made of its faults;
* `Desk.isFair_ask`, `Desk.isFair_exchange`, … — the steps;
* `Step.isFair_bind`, … — the same inside a flow.

A loop that is given `n` rounds may stall, but not before every round has taken an answer; this
is what the number of `Desk.FairFor` counts (`Desk.fairFor_taking`), and a loop with more rounds
than there are answers is fair like everything else (`Desk.fairAt_of_enough`).
-/
import BuildDesk.Proofs.Outcome
import BuildDesk.Proofs.Session.Since
import Mathlib.Tactic.Common

namespace BuildDesk

variable {α β κ : Type} {E : Event → Prop}

/-! ### Faults -/

/-- The fault is one of a flow whose parts do not fit together. -/
def Fault.isFlow : Fault → Bool
  | .complaint c => c.isFlow
  | _ => false

/-- The fault is neither about a flow nor about a loop. -/
def Fault.isOrdinary : Fault → Bool
  | .complaint c => !c.isFlow
  | .stalled => false
  | _ => true

theorem Fault.not_isFlow {f : Fault} (h : f.isOrdinary = true) : f.isFlow = false := by
  cases f with
  | complaint c => exact Bool.not_inj h
  | _ => rfl

theorem Fault.ne_stalled {f : Fault} (h : f.isOrdinary = true) : f ≠ .stalled := by
  rintro rfl
  cases h

/-- A computation has no faults but ordinary ones. -/
def IsOrdinary (e : Except Fault α) : Prop := ∀ f, e = .error f → f.isOrdinary = true

/-! ### Outcomes -/

/-- What comes of a session, when a loop of `n` rounds may have run out of them. -/
structure Session.Fair (E : Event → Prop) (n : Nat) (s : Session) (result : Except Fault α)
    (s' : Session) : Prop where
  since : s.Since E s'
  stalls : result = .error .stalled → s'.answers.length + n ≤ s.answers.length
  blames : ∀ f, result = .error f → f.isFlow = true → ¬ s.Obeys s'

namespace Session

variable {n : Nat} {s s₁ s₂ : Session} {result : Except Fault α}

theorem Fair.ok (h : s.Since E s₁) (a : α) : s.Fair E n (.ok a) s₁ := ⟨h, nofun, nofun⟩

theorem Fair.ordinary (h : s.Since E s₁) (he : IsOrdinary result) : s.Fair E n result s₁ where
  since := h
  stalls hstalled := absurd rfl (Fault.ne_stalled (he _ hstalled))
  blames f hf hflow := by
    rw [Fault.not_isFlow (he f hf)] at hflow
    cases hflow

/-- What is fair after a fair beginning is fair from there, and the rounds that a loop still
has are counted from the answers that the beginning took. -/
theorem Fair.after {k t : Nat} (h : s.Since E s₁) (hfair : s₁.Fair E k result s₂)
    (htaken : s₁.answers.length + t ≤ s.answers.length) (hn : n ≤ k + t) :
    s.Fair E n result s₂ where
  since := h.trans hfair.since
  stalls hstalled := by
    have hrest := hfair.stalls hstalled
    omega
  blames f hf hflow hobeys :=
    hfair.blames f hf hflow (h.obeys_split hfair.since hobeys).2

theorem Fair.error {f : Fault} (h : s.Fair E n (.error f : Except Fault α) s₁) :
    s.Fair E n (.error f : Except Fault β) s₁ where
  since := h.since
  stalls hstalled := h.stalls (by rw [Except.error.inj hstalled])
  blames g hg := h.blames g (by rw [Except.error.inj hg])

end Session

namespace Desk

/-! ### Parts -/

/-- The part is fair from a session, but for a loop of `n` rounds. -/
def FairFor (E : Event → Prop) (n : Nat) (part : Desk α) (s : Session) : Prop :=
  s.Fair E n (part.outcome s).1 (part.outcome s).2

/-- The part is fair from a session. -/
def FairAt (E : Event → Prop) (part : Desk α) (s : Session) : Prop := ∀ n, FairFor E n part s

/-- The part is fair. -/
def IsFair (E : Event → Prop) (part : Desk α) : Prop := ∀ s, FairAt E part s

variable {n k t : Nat} {part : Desk α} {next : α → Desk β} {s s' : Session}

theorem FairFor.since_of_yields {a : α} (h : FairFor E n part s) (hy : part.Yields s a s') :
    s.Since E s' := by
  have hsince := h.since
  rwa [hy] at hsince

theorem FairFor.fair_of_fails {f : Fault} (h : FairFor E n part s) (hf : part.Fails s f s') :
    s.Fair E n (.error f : Except Fault α) s' := by
  unfold FairFor at h
  rwa [hf] at h

theorem fairFor_of_cases (hy : ∀ a s', part.Yields s a s' → s.Since E s')
    (hf : ∀ f s', part.Fails s f s' → s.Fair E n (.error f : Except Fault α) s') :
    FairFor E n part s := by
  unfold FairFor
  rcases hout : part.outcome s with ⟨f | a, s'⟩
  · exact hf f s' hout
  · exact .ok (hy a s' hout) a

/-- A loop without rounds stalls at once. -/
theorem fairFor_stalled (s : Session) : FairFor E 0 (throw .stalled : Desk α) s where
  since := .refl s
  stalls _ := Nat.le_refl _
  blames f hf hflow := by
    obtain rfl : Fault.stalled = f := Except.error.inj hf
    cases hflow

/-- A loop with more rounds than there are answers does not stall. -/
theorem fairAt_of_enough (h : FairFor E n part s) (hn : s.answers.length < n) :
    FairAt E part s := fun k => {
  since := h.since
  stalls := fun hstalled => by
    have := h.stalls hstalled
    omega
  blames := h.blames }

/-- One part after another: rounds of the second are counted from the answers that the first
takes. -/
theorem fairFor_bind (h : FairAt E part s)
    (hnext : ∀ a s₁, part.Yields s a s₁ → FairFor E k (next a) s₁ ∧
      s₁.answers.length + t ≤ s.answers.length) (hn : n ≤ k + t) :
    FairFor E n (part >>= next) s := by
  refine fairFor_of_cases ?_ ?_
  · intro b s' hb
    obtain ⟨a, s₁, ha, hrest⟩ := yields_bind.mp hb
    exact ((h 0).since_of_yields ha).trans ((hnext a s₁ ha).1.since_of_yields hrest)
  · intro f s' hf
    rcases fails_bind.mp hf with hpart | ⟨a, s₁, ha, hrest⟩
    · exact ((h n).fair_of_fails hpart).error
    · obtain ⟨hfair, htaken⟩ := hnext a s₁ ha
      exact .after ((h 0).since_of_yields ha) (hfair.fair_of_fails hrest) htaken hn

/-- What comes before a loop does not count for its rounds. -/
theorem fairFor_after (h : FairAt E part s)
    (hnext : ∀ a s₁, part.Yields s a s₁ → FairFor E n (next a) s₁) :
    FairFor E n (part >>= next) s :=
  fairFor_bind (k := n) (t := 0) h
    (fun a s₁ ha => ⟨hnext a s₁ ha, ((h 0).since_of_yields ha).answers_le⟩) (Nat.le_refl n)

/-- A part that takes an answer makes up for a round. -/
theorem fairFor_taking (h : FairAt E part s)
    (htakes : ∀ a s₁, part.Yields s a s₁ → s₁.answers.length + 1 ≤ s.answers.length)
    (hnext : ∀ a s₁, part.Yields s a s₁ → FairFor E n (next a) s₁) :
    FairFor E (n + 1) (part >>= next) s :=
  fairFor_bind h (fun a s₁ ha => ⟨hnext a s₁ ha, htakes a s₁ ha⟩) (Nat.le_refl _)

theorem fairAt_bind (h : FairAt E part s)
    (hnext : ∀ a s₁, part.Yields s a s₁ → FairAt E (next a) s₁) : FairAt E (part >>= next) s :=
  fun n => fairFor_after h fun a s₁ ha => hnext a s₁ ha n

theorem isFair_bind (h : part.IsFair E) (hnext : ∀ a, (next a).IsFair E) :
    (part >>= next).IsFair E :=
  fun s => fairAt_bind (h s) fun a s₁ _ => hnext a s₁

theorem isFair_pure (a : α) : (pure a : Desk α).IsFair E := fun s _ => .ok (.refl s) a

theorem isFair_map (f : α → β) (h : part.IsFair E) : (f <$> part).IsFair E := by
  rw [← bind_pure_comp]
  exact isFair_bind h fun a => isFair_pure (f a)

theorem isFair_throw {f : Fault} (h : f.isOrdinary = true) : (throw f : Desk α).IsFair E :=
  fun s _ => .ordinary (.refl s) fun _ hg => (Except.error.inj hg) ▸ h

/-- Nothing comes after a fault. -/
theorem isFair_throw_bind {f : Fault} (h : f.isOrdinary = true) (next : α → Desk β) :
    (throw f >>= next).IsFair E :=
  fun s _ => .ordinary (.refl s) fun _ hg => (Except.error.inj hg) ▸ h

theorem isFair_complain {c : Complaint} (h : c.isFlow = false) :
    (complain c : Desk α).IsFair E := isFair_throw (by simp [Fault.isOrdinary, h])

theorem isFair_ofExcept {e : Except Fault α} (h : IsOrdinary e) : (ofExcept e).IsFair E :=
  fun s _ => .ordinary (.refl s) h

/-- A part with what is made of its faults: a fault is passed on, or it is the beginning of
another part. -/
theorem isFair_tryCatch {handle : Fault → Desk α} (h : part.IsFair E)
    (hhandle : ∀ f, handle f = throw f ∨ (handle f).IsFair E) :
    (tryCatch part handle).IsFair E := by
  intro s n
  refine fairFor_of_cases ?_ ?_
  · intro a s' ha
    rcases yields_tryCatch.mp ha with hpart | ⟨f, s₁, hpart, hrest⟩
    · exact (h s 0).since_of_yields hpart
    · have hsince := ((h s 0).fair_of_fails hpart).since
      rcases hhandle f with hthrow | hother
      · rw [hthrow] at hrest
        exact absurd hrest yields_throw
      · exact hsince.trans ((hother s₁ 0).since_of_yields hrest)
  · intro g s' hg
    obtain ⟨f, s₁, hpart, hrest⟩ := fails_tryCatch.mp hg
    have hfair := (h s n).fair_of_fails hpart
    rcases hhandle f with hthrow | hother
    · rw [hthrow] at hrest
      obtain ⟨rfl, rfl⟩ := fails_throw.mp hrest
      exact hfair
    · exact .after (t := 0) hfair.since ((hother s₁ n).fair_of_fails hrest)
        hfair.since.answers_le (Nat.le_refl n)

/-! ### Steps -/

theorem isFair_get_bind {next : Session → Desk β} (h : ∀ s, FairAt E (next s) s) :
    (get >>= next : Desk β).IsFair E := fun s n => h s n

theorem isFair_modify {g : Session → Session} (hlog : ∀ s, (g s).log = s.log)
    (hanswers : ∀ s, (g s).answers = s.answers) (hresponses : ∀ s, (g s).responses = s.responses) :
    (modify g : Desk Unit).IsFair E := fun s _ =>
  .ok (Session.since_of_replies (hlog s) (hanswers s)
    (hresponses s ▸ List.suffix_refl _)) ()

theorem isFair_lang : lang.IsFair E := fun s _ => .ok (.refl s) s.lang

theorem isFair_clock : clock.IsFair E := fun s _ => .ok (.refl s) s.clock

theorem isFair_advance (seconds : Float) : (advance seconds).IsFair E :=
  isFair_modify (fun _ => rfl) (fun _ => rfl) fun _ => rfl

theorem isFair_emit {e : Event} (hE : E e) (hprompt : e.isPrompt = false) :
    (emit e).IsFair E :=
  fun _ _ => .ok (Session.since_of_event hE hprompt) ()

/-- A prompt takes one answer as long as there are any. -/
theorem isFair_ask [Event.Common E] {prompt : Event} (hprompt : prompt.isPrompt = true) :
    (ask prompt).IsFair E := by
  intro s n
  have hsince : ∀ s' : Session, s'.log = prompt :: s.log → s'.answers = s.answers.drop 1 →
      s'.responses = s.responses → s.Since E s' := by
    intro s' hlog hanswers hresponses
    refine ⟨⟨[prompt], hlog, ?_⟩, ?_, hresponses ▸ List.suffix_refl _⟩
    · exact fun e he => List.mem_singleton.mp he ▸ Event.Common.prompt hprompt
    · rw [Session.prompts_of_event hlog hprompt]
      exact hanswers
  unfold FairFor
  rw [outcome_ask]
  rcases hs : s.answers with _ | ⟨v | _, rest⟩
  · have htaken : [] = s.answers.drop 1 := by rw [hs, List.drop_nil]
    exact .ordinary (hsince { s with answers := [], log := prompt :: s.log } rfl htaken rfl)
      (by rintro f ⟨⟩; rfl)
  · have htaken : rest = s.answers.drop 1 := by rw [hs, List.drop_one, List.tail_cons]
    exact .ok (hsince { s with answers := rest, log := prompt :: s.log } rfl htaken rfl) v
  · have htaken : rest = s.answers.drop 1 := by rw [hs, List.drop_one, List.tail_cons]
    exact .ordinary (hsince { s with answers := rest, log := prompt :: s.log } rfl htaken rfl)
      (by rintro f ⟨⟩; rfl)

/-- A request takes one reply, if there is one. -/
theorem isFair_exchange {r : Request} (hE : E (.http r)) : (exchange r).IsFair E := by
  refine isFair_bind (isFair_emit hE rfl) fun _ => isFair_get_bind fun s => ?_
  rcases hs : s.responses with _ | ⟨response, rest⟩
  · exact isFair_throw rfl s
  · refine fairAt_bind (fun n => .ok ?_ ()) fun _ s₁ _ => ?_
    · exact Session.since_of_replies rfl rfl (hs ▸ List.suffix_cons _ _)
    · cases response with
      | reply reply seconds => exact isFair_bind (isFair_advance _) (fun _ => isFair_pure _) s₁
      | unreachable message seconds =>
        exact isFair_bind (isFair_advance _) (fun _ => isFair_complain rfl) s₁
      | interrupt seconds => exact isFair_bind (isFair_advance _) (fun _ => isFair_throw rfl) s₁

theorem isFair_pause [Event.Common E] (seconds : Float) : (pause seconds).IsFair E := by
  refine isFair_bind (isFair_emit (Event.Common.quiet trivial) rfl) fun _ =>
    isFair_get_bind fun s => ?_
  have hcount : (modify fun t : Session =>
      { t with interruptedSleep := s.interruptedSleep - 1 } : Desk Unit).IsFair E :=
    isFair_modify (fun _ => rfl) (fun _ => rfl) fun _ => rfl
  refine isFair_bind hcount (fun _ => ?_) s
  dsimp only
  split
  · exact isFair_bind (isFair_throw rfl) fun _ => isFair_advance _
  · exact isFair_advance _

theorem isFair_say (p : Phrase) (args : Arguments) : (say p args).IsFair E :=
  isFair_bind isFair_lang fun _ => isFair_pure _

theorem isFair_refuse (message : Notice) (args : Arguments) (hint : Option Notice) :
    (refuse message args hint : Desk α).IsFair E :=
  isFair_bind isFair_lang fun _ => isFair_complain rfl

theorem isFair_refuse_bind (message : Notice) (args : Arguments) (hint : Option Notice)
    (next : α → Desk β) : (refuse message args hint >>= next).IsFair E := by
  intro s
  exact isFair_throw_bind rfl next s

/-- A part whose complaints are seen to. -/
theorem isFair_rescue {handle : Complaint → Desk α} (h : part.IsFair E)
    (hhandle : ∀ c, handle c = throw (.complaint c) ∨ (handle c).IsFair E) :
    (rescue part handle).IsFair E := by
  refine isFair_tryCatch h fun f => ?_
  cases f with
  | complaint c => exact hhandle c
  | _ => exact .inl rfl

/-- Loops over the items of a list. -/
theorem isFair_forM (items : List α) {part : α → Desk PUnit} (h : ∀ a, (part a).IsFair E) :
    (items.forM part).IsFair E := by
  induction items with
  | nil => exact isFair_pure _
  | cons a rest ih => exact isFair_bind (h a) fun _ => ih

theorem isFair_mapM (items : List α) {part : α → Desk β} (h : ∀ a, (part a).IsFair E) :
    (items.mapM part).IsFair E := by
  induction items with
  | nil => rw [List.mapM_nil]; exact isFair_pure _
  | cons a rest ih =>
    rw [List.mapM_cons]
    exact isFair_bind (h a) fun _ => isFair_bind ih fun _ => isFair_pure _

end Desk

/-! ### Parts of flows -/

namespace Flow.Step

/-- The part is fair from a context and a session, but for a loop of `n` rounds. -/
def FairFor (E : Event → Prop) (n : Nat) (part : Step κ α) (ctx : κ) (s : Session) : Prop :=
  s.Fair E n (part.outcome ctx s).1.1 (part.outcome ctx s).2

/-- The part is fair from a context and a session. -/
def FairAt (E : Event → Prop) (part : Step κ α) (ctx : κ) (s : Session) : Prop :=
  ∀ n, FairFor E n part ctx s

/-- The part is fair. -/
def IsFair (E : Event → Prop) (part : Step κ α) : Prop := ∀ ctx s, FairAt E part ctx s

variable {part : Step κ α} {next : α → Step κ β} {ctx ctx' : κ} {s s' : Session} {n : Nat}

theorem FairFor.since_of_yields {a : α} (h : FairFor E n part ctx s)
    (hy : part.Yields ctx s a ctx' s') : s.Since E s' := by
  have hsince := h.since
  rwa [hy] at hsince

theorem FairFor.fair_of_fails {f : Fault} (h : FairFor E n part ctx s)
    (hf : part.Fails ctx s f ctx' s') : s.Fair E n (.error f : Except Fault α) s' := by
  unfold FairFor at h
  rwa [hf] at h

theorem fairFor_of_cases (hy : ∀ a ctx' s', part.Yields ctx s a ctx' s' → s.Since E s')
    (hf : ∀ f ctx' s', part.Fails ctx s f ctx' s' → s.Fair E n (.error f : Except Fault α) s') :
    FairFor E n part ctx s := by
  unfold FairFor
  rcases hout : part.outcome ctx s with ⟨⟨f | a, ctx'⟩, s'⟩
  · exact hf f ctx' s' hout
  · exact .ok (hy a ctx' s' hout) a

theorem fairAt_bind (h : FairAt E part ctx s)
    (hnext : ∀ a ctx₁ s₁, part.Yields ctx s a ctx₁ s₁ → FairAt E (next a) ctx₁ s₁) :
    FairAt E (part >>= next) ctx s := by
  intro n
  refine fairFor_of_cases ?_ ?_
  · intro b ctx' s' hb
    obtain ⟨a, ctx₁, s₁, ha, hrest⟩ := yields_bind.mp hb
    exact ((h 0).since_of_yields ha).trans ((hnext a ctx₁ s₁ ha 0).since_of_yields hrest)
  · intro f ctx' s' hf
    rcases fails_bind.mp hf with hpart | ⟨a, ctx₁, s₁, ha, hrest⟩
    · exact ((h n).fair_of_fails hpart).error
    · have hsince := (h 0).since_of_yields ha
      exact .after (t := 0) hsince ((hnext a ctx₁ s₁ ha n).fair_of_fails hrest) hsince.answers_le
        (Nat.le_refl n)

theorem isFair_bind (h : part.IsFair E) (hnext : ∀ a, (next a).IsFair E) :
    (part >>= next).IsFair E :=
  fun ctx s => fairAt_bind (h ctx s) fun a ctx₁ s₁ _ => hnext a ctx₁ s₁

theorem isFair_pure (a : α) : (pure a : Step κ α).IsFair E := fun _ s _ => .ok (.refl s) a

theorem isFair_throw {f : Fault} (h : f.isOrdinary = true) : (throw f : Step κ α).IsFair E :=
  fun _ s _ => .ordinary (.refl s) fun _ hg => (Except.error.inj hg) ▸ h

theorem isFair_map (f : α → β) (h : part.IsFair E) : (f <$> part).IsFair E := by
  rw [← bind_pure_comp]
  exact isFair_bind h fun a => isFair_pure (f a)

theorem isFair_context : (context : Step κ κ).IsFair E := fun ctx s _ => .ok (.refl s) ctx

theorem isFair_change (g : κ → κ) : (change g).IsFair E := fun _ s _ => .ok (.refl s) ()

theorem isFair_ofDesk {part : Desk α} (h : part.IsFair E) : (ofDesk part : Step κ α).IsFair E := by
  intro ctx s n
  refine fairFor_of_cases ?_ ?_
  · intro a ctx' s' ha
    exact (h s 0).since_of_yields (yields_ofDesk.mp ha).1
  · intro f ctx' s' hf
    exact (h s n).fair_of_fails (fails_ofDesk.mp hf).1

theorem isFair_tryCatch {handle : Fault → Step κ α} (h : part.IsFair E)
    (hhandle : ∀ f, handle f = throw f ∨ (handle f).IsFair E) :
    (tryCatch part handle).IsFair E := by
  intro ctx s n
  refine fairFor_of_cases ?_ ?_
  · intro a ctx' s' ha
    rcases yields_tryCatch.mp ha with hpart | ⟨f, ctx₁, s₁, hpart, hrest⟩
    · exact (h ctx s 0).since_of_yields hpart
    · have hsince := ((h ctx s 0).fair_of_fails hpart).since
      rcases hhandle f with hthrow | hother
      · rw [hthrow] at hrest
        exact absurd hrest yields_throw
      · exact hsince.trans ((hother ctx₁ s₁ 0).since_of_yields hrest)
  · intro g ctx' s' hg
    obtain ⟨f, ctx₁, s₁, hpart, hrest⟩ := fails_tryCatch.mp hg
    have hfair := (h ctx s n).fair_of_fails hpart
    rcases hhandle f with hthrow | hother
    · rw [hthrow] at hrest
      obtain ⟨rfl, rfl, rfl⟩ := fails_throw.mp hrest
      exact hfair
    · exact .after (t := 0) hfair.since ((hother ctx₁ s₁ n).fair_of_fails hrest)
        hfair.since.answers_le (Nat.le_refl n)

/-- What is made of the faults of a part comes after it. -/
theorem since_of_tryCatch {handle : Fault → Step κ α}
    (hhandle : ∀ f, handle f = throw f ∨ (handle f).IsFair E) (ctx : κ) (s : Session) :
    (part.outcome ctx s).2.Since E ((tryCatch part handle).outcome ctx s).2 := by
  rw [outcome_tryCatch]
  rcases part.outcome ctx s with ⟨⟨f | a, ctx₁⟩, s₁⟩
  · rcases hhandle f with hthrow | hother
    · dsimp only
      rw [hthrow]
      exact .refl s₁
    · exact (hother ctx₁ s₁ 0).since
  · exact .refl s₁

end Flow.Step
end BuildDesk
