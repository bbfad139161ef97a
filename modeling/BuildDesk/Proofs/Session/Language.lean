/-
Runs in two languages.

What a run logs is put in words, and so are its complaints.  Without the words, an event, a fault
or a session says what it says in every language (`Event.mute`, `Fault.mute`, `Session.mute`).  A
part of a run echoes another one when the two, run from sessions that differ in nothing but words,
come to results that are related, and leave such sessions again:

* `Desk.Echoes`, `Desk.Carries` — one part echoes another, and a part carries over: it echoes
  itself;
* `Desk.echoes_bind`, `Desk.echoes_tryCatch` — both are kept by putting parts together;
* `Desk.echoes_say`, `Desk.echoes_refuse` — what is said may differ, and a complaint does so in
  words only;
* `Desk.carries_ask`, `Desk.carries_exchange`, … — the steps;
* `Step.Echoes`, `Step.Carries` — the same inside a flow.

The part that is echoed is followed on its course as well, which is of a given kind.  Both go by
the same cases, so one walk over the parts of the commands does for both (`echoes_of_runs` puts
them together where they do not).
-/
import BuildDesk.Proofs.Session.Course
import Mathlib.Tactic.Common

namespace BuildDesk

/-! ### Without words -/

/-- The event without the words that it is put in. -/
def Event.mute : Event → Event
  | .select _ options => .select .null (options.map fun option => (option.1, .null))
  | .confirm _ initial => .confirm .null initial
  | .text _ _ initial => .text .null .null initial
  | .out _ => .out ""
  | .err _ => .err ""
  | .table _ header rows => .table "" (header.map fun _ => "") rows
  | .rule _ => .rule ""
  | .status _ => .status ""
  | e => e

/-- The fault without the language that it is told in. -/
def Fault.mute : Fault → Fault
  | .complaint (.spoken _ message args hint) => .complaint (.spoken .en message args hint)
  | f => f

/-- The session without its language and the words in its log. -/
def Session.mute (s : Session) : Session := { s with lang := .en, log := s.log.map Event.mute }

/-- The fault is a complaint. -/
def Fault.isComplaint : Fault → Bool
  | .complaint _ => true
  | _ => false

namespace Fault

variable {f g : Fault}

theorem mute_eq_self (h : f.isComplaint = false) : f.mute = f := by
  cases f with
  | complaint c => cases h
  | _ => rfl

theorem isComplaint_mute (f : Fault) : f.mute.isComplaint = f.isComplaint := by
  cases f with
  | complaint c => cases c <;> rfl
  | _ => rfl

/-- A fault that is no complaint is the same in every language. -/
theorem eq_of_mute (hf : f.isComplaint = false) (h : f.mute = g.mute) : f = g := by
  have hg : g.isComplaint = false := by rw [← isComplaint_mute, ← h, isComplaint_mute, hf]
  rw [← mute_eq_self hf, h, mute_eq_self hg]

theorem exists_complaint_of_mute {c : Complaint} (h : (complaint c).mute = g.mute) :
    ∃ c', g = .complaint c' := by
  have hg : g.isComplaint = true := by rw [← isComplaint_mute, ← h, isComplaint_mute]; rfl
  cases g with
  | complaint c' => exact ⟨c', rfl⟩
  | _ => cases hg

end Fault

/-- What has nothing to do with words is the same in sessions that differ in words only. -/
theorem Session.same {γ : Type} (field : Session → γ) (h : ∀ s : Session, field s.mute = field s)
    {s t : Session} (hst : s.mute = t.mute) : field s = field t := by
  rw [← h s, hst, h t]

variable {α α' β β' γ κ : Type} {P : List Moment → Prop}

/-- The one result is related to the other, or they are faults that differ in words only. -/
inductive Related (Q : α → β → Prop) : Except Fault α → Except Fault β → Prop
  | ok {a b} (h : Q a b) : Related Q (.ok a) (.ok b)
  | error {f g : Fault} (h : f.mute = g.mute) : Related Q (.error f) (.error g)

theorem related_refl (r : Except Fault α) : Related Eq r r := by
  cases r with
  | ok a => exact .ok rfl
  | error f => exact .error rfl

/-- What comes of two sessions that differ in words only, when the one runs as `P` says. -/
structure Session.Echo (P : List Moment → Prop) (Q : α → β → Prop) (s : Session)
    (left : Except Fault α × Session) (right : Except Fault β × Session) : Prop where
  runs : s.Runs P left.2
  results : Related Q left.1 right.1
  sessions : left.2.mute = right.2.mute

/-! ### Parts -/

namespace Desk

/-- The second part comes to what the first comes to, but for words. -/
def Echoes (P : List Moment → Prop) (Q : α → β → Prop) (part : Desk α) (part' : Desk β) : Prop :=
  ∀ s t : Session, s.mute = t.mute → s.Echo P Q (part.outcome s) (part'.outcome t)

/-- The part carries over from one language to another. -/
def Carries (P : List Moment → Prop) (part : Desk α) : Prop := Echoes P Eq part part

variable {Q : α → α' → Prop} {R : β → β' → Prop} {part : Desk α} {part' : Desk α'}
  {next : α → Desk β} {next' : α' → Desk β'}

theorem Echoes.runs (h : Echoes P Q part part') (s : Session) : s.Runs P (part.outcome s).2 :=
  (h s s rfl).runs

/-- The words and the course may be followed apart. -/
theorem echoes_of_runs {P' : List Moment → Prop} (h : Echoes P' Q part part')
    (hruns : ∀ s : Session, s.Runs P (part.outcome s).2) : Echoes P Q part part' :=
  fun s t hst => ⟨hruns s, (h s t hst).results, (h s t hst).sessions⟩

/-- The session may be looked at for what is not put in words. -/
theorem carries_get_bind {next : Session → Desk β} (hnext : ∀ s, (next s).Carries P)
    (hmute : ∀ s t : Session, s.mute = t.mute → next s = next t) :
    (get >>= next : Desk β).Carries P := by
  intro s t hst
  rw [outcome_get_bind, outcome_get_bind, hmute s t hst]
  exact hnext t s t hst

section
variable [Moment.Simple P]

theorem echoes_pure {a : α} {b : α'} (h : Q a b) :
    Echoes P Q (pure a : Desk α) (pure b : Desk α') :=
  fun s _ hst => ⟨.refl s, .ok h, hst⟩

theorem carries_pure (a : α) : (pure a : Desk α).Carries P := echoes_pure rfl

theorem echoes_throw {f g : Fault} (h : f.mute = g.mute) :
    Echoes P Q (throw f : Desk α) (throw g : Desk α') :=
  fun s _ hst => ⟨.refl s, .error h, hst⟩

theorem carries_throw (f : Fault) : (throw f : Desk α).Carries P := echoes_throw rfl

theorem carries_complain (c : Complaint) : (complain c : Desk α).Carries P := carries_throw _

theorem echoes_ofExcept {e : Except Fault α} {e' : Except Fault α'} (h : Related Q e e') :
    Echoes P Q (ofExcept e) (ofExcept e') :=
  fun s _ hst => ⟨.refl s, h, hst⟩

theorem carries_ofExcept (e : Except Fault α) : (ofExcept e).Carries P :=
  echoes_ofExcept (related_refl e)

/-- One part after another. -/
theorem echoes_bind (h : Echoes P Q part part')
    (hnext : ∀ a b, Q a b → Echoes P R (next a) (next' b)) :
    Echoes P R (part >>= next) (part' >>= next') := by
  intro s t hst
  have hecho := h s t hst
  rw [outcome_bind, outcome_bind]
  generalize part.outcome s = left at hecho ⊢
  generalize part'.outcome t = right at hecho ⊢
  obtain ⟨r, s₁⟩ := left
  obtain ⟨r', t₁⟩ := right
  obtain ⟨hruns, hresults, hsessions⟩ := hecho
  dsimp only at hresults
  cases hresults with
  | ok hab =>
    obtain ⟨hruns', hresults', hsessions'⟩ := hnext _ _ hab s₁ t₁ hsessions
    exact ⟨hruns.trans hruns', hresults', hsessions'⟩
  | error hfg => exact ⟨hruns, .error hfg, hsessions⟩

theorem carries_bind (h : part.Carries P) (hnext : ∀ a, (next a).Carries P) :
    (part >>= next).Carries P :=
  echoes_bind h fun a _ hab => hab ▸ hnext a

theorem carries_map (f : α → β) (h : part.Carries P) : (f <$> part).Carries P := by
  rw [← bind_pure_comp]
  exact carries_bind h fun a => carries_pure (f a)

/-- Nothing comes after a fault. -/
theorem carries_throw_bind (f : Fault) (next : α → Desk β) : (throw f >>= next).Carries P :=
  fun s _ hst => ⟨.refl s, .error rfl, hst⟩

/-- A part with what is made of its faults. -/
theorem echoes_tryCatch {handle : Fault → Desk α} {handle' : Fault → Desk α'}
    (h : Echoes P Q part part')
    (hhandle : ∀ f g : Fault, f.mute = g.mute → Echoes P Q (handle f) (handle' g)) :
    Echoes P Q (tryCatch part handle) (tryCatch part' handle') := by
  intro s t hst
  have hecho := h s t hst
  rw [outcome_tryCatch, outcome_tryCatch]
  generalize part.outcome s = left at hecho ⊢
  generalize part'.outcome t = right at hecho ⊢
  obtain ⟨r, s₁⟩ := left
  obtain ⟨r', t₁⟩ := right
  obtain ⟨hruns, hresults, hsessions⟩ := hecho
  dsimp only at hresults
  cases hresults with
  | ok hab => exact ⟨hruns, .ok hab, hsessions⟩
  | error hfg =>
    obtain ⟨hruns', hresults', hsessions'⟩ := hhandle _ _ hfg s₁ t₁ hsessions
    exact ⟨hruns.trans hruns', hresults', hsessions'⟩

/-- A change of the session that has nothing to do with words and script. -/
theorem carries_modify {g : Session → Session} (hmute : ∀ s : Session, (g s).mute = g s.mute)
    (hlog : ∀ s, (g s).log = s.log) (hanswers : ∀ s, (g s).answers = s.answers)
    (hresponses : ∀ s, (g s).responses = s.responses) : (modify g : Desk Unit).Carries P := by
  intro s t hst
  refine ⟨Session.runs_of_eq Moment.Simple.nil (hlog s) (hanswers s) (hresponses s), .ok rfl, ?_⟩
  show (g s).mute = (g t).mute
  rw [hmute, hmute, hst]

theorem carries_rescue {handle : Complaint → Desk α} (h : part.Carries P)
    (hhandle : ∀ c c' : Complaint, (Fault.complaint c).mute = (Fault.complaint c').mute →
      Echoes P Eq (handle c) (handle c')) : (rescue part handle).Carries P := by
  refine echoes_tryCatch h fun f g hfg => ?_
  cases f with
  | complaint c =>
    obtain ⟨c', rfl⟩ := Fault.exists_complaint_of_mute hfg
    exact hhandle c c' hfg
  | _ =>
    obtain rfl := Fault.eq_of_mute rfl hfg
    exact carries_throw _

/-! ### Loops over the items of a list -/

theorem echoes_forM {items : List α} {items' : List α'} {part : α → Desk PUnit}
    {part' : α' → Desk PUnit} (hlength : items.length = items'.length)
    (h : ∀ a b, Echoes P Eq (part a) (part' b)) :
    Echoes P Eq (items.forM part) (items'.forM part') := by
  induction items generalizing items' with
  | nil =>
    obtain rfl := List.length_eq_zero_iff.mp hlength.symm
    exact carries_pure _
  | cons a rest ih =>
    obtain ⟨b, rest', rfl⟩ := List.exists_cons_of_length_eq_add_one hlength.symm
    exact echoes_bind (h a b) fun _ _ _ => ih (Nat.succ.inj hlength)

/-! ### Steps -/

/-- The same is logged in other words. -/
theorem echoes_emit {e e' : Event} (hmere : e.isMere = true) (h : e.mute = e'.mute) :
    Echoes P Eq (emit e) (emit e') := by
  intro s t hst
  refine ⟨Session.runs_of_mere hmere (Moment.Simple.mere hmere) rfl rfl rfl, .ok rfl, ?_⟩
  have hlogged : ∀ (u : Session) (f : Event), Session.mute { u with log := f :: u.log } =
    { u.mute with log := f.mute :: u.mute.log } := fun _ _ => rfl
  show Session.mute { s with log := e :: s.log } = Session.mute { t with log := e' :: t.log }
  rw [hlogged, hlogged, hst, h]

theorem carries_emit {e : Event} (hmere : e.isMere = true) : (emit e).Carries P :=
  echoes_emit hmere rfl

theorem echoes_lang : Echoes P (fun _ _ => True) lang lang :=
  fun s _ hst => ⟨.refl s, .ok trivial, hst⟩

theorem carries_clock : clock.Carries P := fun s _ hst =>
  ⟨.refl s, .ok (Session.same Session.clock (fun _ => rfl) hst), hst⟩

theorem carries_advance (seconds : Float) : (advance seconds).Carries P :=
  carries_modify (fun _ => rfl) (fun _ => rfl) (fun _ => rfl) fun _ => rfl

/-- A message is said in one language or the other. -/
theorem echoes_say (p : Phrase) (args : Arguments) :
    Echoes P (fun a b => ∃ l l', a = p.say l args ∧ b = p.say l' args) (say p args) (say p args) :=
  fun s t hst => ⟨.refl s, .ok ⟨s.lang, t.lang, rfl, rfl⟩, hst⟩

/-- What makes nothing of a message but words carries over. -/
theorem carries_say_bind {next : String → Desk β} {p : Phrase} {args : Arguments}
    (h : ∀ a b, Echoes P Eq (next a) (next b)) : (say p args >>= next).Carries P :=
  echoes_bind (echoes_say p args) fun a b _ => h a b

theorem carries_refuse (message : Notice) (args : Arguments) (hint : Option Notice) :
    (refuse message args hint : Desk α).Carries P :=
  echoes_bind echoes_lang fun _ _ _ => echoes_throw rfl

/-- Nothing comes after a refusal. -/
theorem carries_refuse_bind (message : Notice) (args : Arguments) (hint : Option Notice)
    (next : α → Desk β) : (refuse message args hint >>= next).Carries P :=
  fun s _ hst => ⟨.refl s, .error rfl, hst⟩

theorem carries_pause (seconds : Float) : (pause seconds).Carries P := by
  refine carries_bind (carries_emit rfl) fun _ => carries_get_bind (fun s => ?_) ?_
  · refine carries_bind ?_ fun _ => ?_
    · exact carries_modify (fun _ => rfl) (fun _ => rfl) (fun _ => rfl) fun _ => rfl
    · dsimp only
      split
      · exact carries_throw_bind _ _
      · exact carries_advance _
  · intro s t hst
    have hleft := Session.same Session.interruptedSleep (fun _ => rfl) hst
    rw [hleft]

/-- What is settled by the folder is not put in words. -/
theorem carries_onFolder (h : part.OnFolder) : part.Carries P := by
  intro s t hst
  obtain ⟨work, hwork⟩ := h
  have hfolder := Session.same Session.folder (fun _ => rfl) hst
  rw [hwork, hwork, hfolder]
  refine ⟨Session.runs_of_eq Moment.Simple.nil rfl rfl rfl, related_refl _, ?_⟩
  exact congrArg (fun u : Session => { u with folder := (work t.folder).2 }) hst

end

/-- A prompt is shown in other words, and takes the same answer. -/
theorem echoes_ask {prompt prompt' : Event} (hprompt : prompt.isPrompt = true)
    (h : prompt.mute = prompt'.mute) (hP : ∀ answer, P [.asked prompt answer]) :
    Echoes P Eq (ask prompt) (ask prompt') := by
  intro s t hst
  have hanswers := Session.same Session.answers (fun _ => rfl) hst
  have htaken : ∀ rest : List Answer,
      Session.mute { s with answers := rest, log := prompt :: s.log } =
        Session.mute { t with answers := rest, log := prompt' :: t.log } := by
    intro rest
    have hlogged : ∀ (u : Session) (f : Event),
        Session.mute { u with answers := rest, log := f :: u.log } =
          { u.mute with answers := rest, log := f.mute :: u.mute.log } := fun _ _ => rfl
    rw [hlogged, hlogged, hst, h]
  have hruns : ∀ s' : Session, s'.log = prompt :: s.log → s'.answers = s.answers.tail →
      s'.responses = s.responses → s.Runs P s' := fun _ => Session.runs_of_prompt hprompt (hP _)
  rw [outcome_ask, outcome_ask, ← hanswers]
  rcases hs : s.answers with _ | ⟨v | _, rest⟩
  · exact ⟨hruns _ rfl (by rw [hs]; rfl) rfl, .error rfl, htaken []⟩
  · exact ⟨hruns _ rfl (by rw [hs]; rfl) rfl, .ok rfl, htaken rest⟩
  · exact ⟨hruns _ rfl (by rw [hs]; rfl) rfl, .error rfl, htaken rest⟩

/-- A request takes the same response. -/
theorem carries_exchange {r : Request} (hP : ∀ response, P [.sent ⟨r, response⟩]) :
    (exchange r).Carries P := by
  intro s t hst
  have hresponses := Session.same Session.responses (fun _ => rfl) hst
  have hclock := Session.same Session.clock (fun _ => rfl) hst
  have hruns : ∀ s' : Session, s'.log = .http r :: s.log → s'.answers = s.answers →
      s'.responses = s.responses.tail → s.Runs P s' := fun _ => Session.runs_of_request (hP _)
  have hsent : Session.mute { s with responses := [], log := .http r :: s.log } =
      Session.mute { t with responses := [], log := .http r :: t.log } :=
    congrArg (fun u : Session => { u with responses := [], log := .http r :: u.log }) hst
  have htaken : ∀ (seconds : Float) rest,
      Session.mute { s with clock := s.clock + seconds, responses := rest, log := .http r :: s.log }
        = Session.mute
          { t with clock := t.clock + seconds, responses := rest, log := .http r :: t.log } :=
    fun seconds rest => congrArg (fun u : Session =>
      { u with clock := u.clock + seconds, responses := rest, log := .http r :: u.log }) hst
  rw [outcome_exchange, outcome_exchange, ← hresponses]
  rcases hs : s.responses with _ | ⟨⟨reply, seconds⟩ | ⟨message, seconds⟩ | seconds, rest⟩
  · exact ⟨hruns _ rfl rfl (by rw [hs]; rfl), .error rfl, hsent⟩
  · exact ⟨hruns _ rfl rfl (by rw [hs]; rfl), .ok rfl, htaken seconds rest⟩
  · exact ⟨hruns _ rfl rfl (by rw [hs]; rfl), .error rfl, htaken seconds rest⟩
  · exact ⟨hruns _ rfl rfl (by rw [hs]; rfl), .error rfl, htaken seconds rest⟩

end Desk

/-! ### Parts of flows -/

namespace Flow.Step

/-- From any context, the second part comes to what the first comes to, but for words, and leaves
the same context. -/
def Echoes (P : List Moment → Prop) (Q : α → β → Prop) (part : Step κ α) (part' : Step κ β) :
    Prop :=
  ∀ ctx (s t : Session), s.mute = t.mute →
    s.Echo P Q ((part.outcome ctx s).1.1, (part.outcome ctx s).2)
      ((part'.outcome ctx t).1.1, (part'.outcome ctx t).2) ∧
    (part.outcome ctx s).1.2 = (part'.outcome ctx t).1.2

/-- The part carries over from one language to another. -/
def Carries (P : List Moment → Prop) (part : Step κ α) : Prop := Echoes P Eq part part

variable {Q : α → α' → Prop} {R : β → β' → Prop} {part : Step κ α} {part' : Step κ α'}
  {next : α → Step κ β} {next' : α' → Step κ β'}

theorem echoes_ofDesk {part : Desk α} {part' : Desk α'} (h : Desk.Echoes P Q part part') :
    Echoes P Q (ofDesk part : Step κ α) (ofDesk part') := by
  intro ctx s t hst
  rw [outcome_ofDesk, outcome_ofDesk]
  exact ⟨h s t hst, rfl⟩

theorem carries_ofDesk {part : Desk α} (h : part.Carries P) :
    (ofDesk part : Step κ α).Carries P := echoes_ofDesk h

/-- The session may be looked at for what is not put in words. -/
theorem carries_session_bind {next : Session → Step κ β} (hnext : ∀ s, (next s).Carries P)
    (hmute : ∀ s t : Session, s.mute = t.mute → next s = next t) :
    ((getThe Session : Step κ Session) >>= next).Carries P := by
  intro ctx s t hst
  have hlook : ∀ u : Session, ((getThe Session : Step κ Session) >>= next).outcome ctx u =
    (next u).outcome ctx u := fun _ => rfl
  rw [hlook, hlook, hmute s t hst]
  exact hnext t ctx s t hst

variable [Moment.Simple P]

theorem carries_pure (a : α) : (pure a : Step κ α).Carries P :=
  fun _ s _ hst => ⟨⟨.refl s, .ok rfl, hst⟩, rfl⟩

theorem echoes_throw {f g : Fault} (h : f.mute = g.mute) :
    Echoes P Q (throw f : Step κ α) (throw g : Step κ α') :=
  fun _ s _ hst => ⟨⟨.refl s, .error h, hst⟩, rfl⟩

theorem carries_throw (f : Fault) : (throw f : Step κ α).Carries P := echoes_throw rfl

theorem carries_context : (context : Step κ κ).Carries P :=
  fun _ s _ hst => ⟨⟨.refl s, .ok rfl, hst⟩, rfl⟩

theorem carries_change (g : κ → κ) : (change g).Carries P :=
  fun _ s _ hst => ⟨⟨.refl s, .ok rfl, hst⟩, rfl⟩

theorem echoes_bind (h : Echoes P Q part part')
    (hnext : ∀ a b, Q a b → Echoes P R (next a) (next' b)) :
    Echoes P R (part >>= next) (part' >>= next') := by
  intro ctx s t hst
  have hecho := h ctx s t hst
  rw [outcome_bind, outcome_bind]
  generalize part.outcome ctx s = left at hecho ⊢
  generalize part'.outcome ctx t = right at hecho ⊢
  obtain ⟨⟨r, ctx₁⟩, s₁⟩ := left
  obtain ⟨⟨r', ctx₂⟩, t₁⟩ := right
  obtain ⟨⟨hruns, hresults, hsessions⟩, hctx⟩ := hecho
  dsimp only at hresults hctx
  subst hctx
  cases hresults with
  | ok hab =>
    obtain ⟨⟨hruns', hresults', hsessions'⟩, hctx'⟩ := hnext _ _ hab ctx₁ s₁ t₁ hsessions
    exact ⟨⟨hruns.trans hruns', hresults', hsessions'⟩, hctx'⟩
  | error hfg => exact ⟨⟨hruns, .error hfg, hsessions⟩, rfl⟩

theorem carries_bind (h : part.Carries P) (hnext : ∀ a, (next a).Carries P) :
    (part >>= next).Carries P :=
  echoes_bind h fun a _ hab => hab ▸ hnext a

theorem carries_map (f : α → β) (h : part.Carries P) : (f <$> part).Carries P := by
  rw [← bind_pure_comp]
  exact carries_bind h fun a => carries_pure (f a)

theorem echoes_tryCatch {handle handle' : Fault → Step κ α} {part' : Step κ α}
    (h : Echoes P Eq part part')
    (hhandle : ∀ f g : Fault, f.mute = g.mute → Echoes P Eq (handle f) (handle' g)) :
    Echoes P Eq (tryCatch part handle) (tryCatch part' handle') := by
  intro ctx s t hst
  have hecho := h ctx s t hst
  rw [outcome_tryCatch, outcome_tryCatch]
  generalize part.outcome ctx s = left at hecho ⊢
  generalize part'.outcome ctx t = right at hecho ⊢
  obtain ⟨⟨r, ctx₁⟩, s₁⟩ := left
  obtain ⟨⟨r', ctx₂⟩, t₁⟩ := right
  obtain ⟨⟨hruns, hresults, hsessions⟩, hctx⟩ := hecho
  dsimp only at hresults hctx
  subst hctx
  cases hresults with
  | ok hab => exact ⟨⟨hruns, .ok hab, hsessions⟩, rfl⟩
  | error hfg =>
    obtain ⟨⟨hruns', hresults', hsessions'⟩, hctx'⟩ := hhandle _ _ hfg ctx₁ s₁ t₁ hsessions
    exact ⟨⟨hruns.trans hruns', hresults', hsessions'⟩, hctx'⟩

end Flow.Step
end BuildDesk
