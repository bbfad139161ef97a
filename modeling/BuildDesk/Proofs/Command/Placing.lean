/-
Placing an order.

A build is placed by one request, and then it is recorded in the job file.  This file says what
the whole call does, however it ends:

* `Order.Asks` — the request that queues the build: it goes to the job of the order, and its
  data are the parameters of the order;
* `Order.Effect` — the server is sent this request once at most, and once when it agrees; then
  the job file is what recording the job and the branch of the order makes of it, and else it
  stays as it is;
* `effect_of_place` — the call has this effect.

Whether the server agreed is what the request came to (`Order.Agrees`): printing and recording
come after it, and the call may fail there.
-/
import BuildDesk.Proofs.Fair.Parts
import BuildDesk.Proofs.Server.Traffic

namespace BuildDesk.Command

open Desk BuildDesk.Flow

variable {server : Server} {order : Order} {agreed : Bool} {s s' : Session}

/-- The parameters of an order as data. -/
def Order.data (order : Order) : List (String × Json) :=
  order.params.map fun (name, value) => (name, .str value)

/-- The request queues a build of the order: with its parameters when it has any, and else
without data. -/
structure Order.Asks (order : Order) (r : Request) : Prop where
  method : r.method = "POST"
  url : r.url = Server.joinText order.job
    (if order.params.isEmpty then "build" else "buildWithParameters")
  data : r.data = order.data

/-- The server queues the build. -/
def Order.Agrees (server : Server) (order : Order) (s : Session) : Prop :=
  ∃ queue s', (server.trigger (.str order.job) order.data).Yields s queue s'

/-- What placing an order does to a session. -/
structure Order.Effect (server : Server) (order : Order) (agreed : Bool) (s s' : Session) :
    Prop where
  /-- One request queues the build, unless the server is not asked at all. -/
  asks : (agreed = false ∧ s.Since Event.IsQuiet s') ∨ ∃ s₁ r, s.Since Event.IsQuiet s₁ ∧
    order.Asks r ∧ ((exchange r).outcome s₁).2.Since Event.IsQuiet s'
  /-- A build that was queued is recorded. -/
  records : s'.folder =
    if agreed then ((remember server.settings order.job order.branch).outcome s).2.folder
    else s.folder

/-! ### The request -/

/-- A post sends its request, or it fails before that for want of a crumb. -/
theorem post_cases (server : Server) (url : String) (data : List (String × Json)) (s : Session) :
    (∃ f s', (server.post url data).Fails s f s' ∧ s.Since Event.IsQuiet s' ∧
      s'.folder = s.folder) ∨
    ∃ headers s₁, s.Since Event.IsQuiet s₁ ∧ s₁.folder = s.folder ∧
      (server.post url data).outcome s = (Server.exchange
        { method := "POST", url, timeout := server.patience, headers, data }).outcome s₁ := by
  unfold Server.post
  cases server.settings.useCrumb with
  | false => exact .inr ⟨[], s, .refl s, rfl, rfl⟩
  | true =>
    have hsince := (Server.isFair_crumb (E := Event.IsQuiet) server s 0).since
    have hfolder := Server.keepsFolder_crumb server s
    rcases hcrumb : server.crumb.outcome s with ⟨f | header, s₁⟩
    · rw [hcrumb] at hsince hfolder
      exact .inl ⟨f, s₁, fails_bind.mpr (.inl hcrumb), hsince, hfolder⟩
    · rw [hcrumb] at hsince hfolder
      refine .inr ⟨[header], s₁, hsince, hfolder, ?_⟩
      show (server.crumb >>= fun header => _).outcome s = _
      rw [outcome_bind, hcrumb]
      rfl

/-- Queuing a build is a post to its job. -/
theorem outcome_trigger (server : Server) (order : Order) (s : Session) :
    (server.trigger (.str order.job) order.data).outcome s =
      ((fun reply => Server.headerOf reply "Location") <$> server.post
        (Server.joinText order.job
          (if order.params.isEmpty then "build" else "buildWithParameters"))
        order.data).outcome s := by
  have hempty : order.data.isEmpty = order.params.isEmpty := List.isEmpty_map
  unfold Server.trigger
  rw [← hempty]
  rfl

/-- The session that queuing a build leaves is that of the post. -/
theorem session_of_map {α β : Type} (f : α → β) (part : Desk α) (s : Session) :
    ((f <$> part).outcome s).2 = (part.outcome s).2 := by
  rw [← bind_pure_comp, outcome_bind]
  rcases part.outcome s with ⟨g | a, s₁⟩
  · rfl
  · rfl

/-- What comes of queuing a build: the request is sent once, or it is not sent and the build is
not queued. -/
theorem trigger_cases (server : Server) (order : Order) (s : Session) :
    ((server.trigger (.str order.job) order.data).outcome s).2.folder = s.folder ∧
    ((¬ order.Agrees server s ∧
        s.Since Event.IsQuiet ((server.trigger (.str order.job) order.data).outcome s).2) ∨
      ∃ s₁ r, s.Since Event.IsQuiet s₁ ∧ order.Asks r ∧
        ((server.trigger (.str order.job) order.data).outcome s).2 =
          ((exchange r).outcome s₁).2) := by
  unfold Order.Agrees Desk.Yields
  rw [outcome_trigger]
  rw [session_of_map]
  rcases post_cases server _ order.data s with ⟨f, s', hfails, hsince, hfolder⟩ |
    ⟨headers, s₁, hsince, hfolder, hpost⟩
  · have hleft : ((server.post _ order.data).outcome s).2 = s' := congrArg Prod.snd hfails
    rw [hleft]
    refine ⟨hfolder, .inl ⟨?_, hsince⟩⟩
    rintro ⟨queue, s₂, hyields⟩
    obtain ⟨reply, hreply, -⟩ := yields_map.mp hyields
    exact absurd (hfails.symm.trans hreply) (by simp)
  · rw [hpost]
    refine ⟨(Server.keepsFolder_exchange _ s₁).trans hfolder,
      .inr ⟨s₁, _, hsince, ⟨rfl, rfl, rfl⟩, Server.session_exchange _ s₁⟩⟩

/-! ### The whole call -/

theorem onFolder_remember (settings : Settings) (job : String) (branch : Option String) :
    (remember settings job branch).OnFolder := by
  refine onFolder_tryCatch ?_ fun f => ?_
  · split
    · exact onFolder_bind (Branches.onFolder_record _ _ _) fun _ => Recent.onFolder_record _ _
    · exact Recent.onFolder_record _ _
  · cases f with
    | storage => exact onFolder_pure _
    | _ => exact onFolder_throw _

/-- What follows the request of a call: the build is recorded, and the user is told. -/
def Order.finish (server : Server) (order : Order) (queue : Json) : Desk Json := do
  remember server.settings order.job order.branch
  match queue.present? with
  | some url => Console.printOk (← Desk.say Notice.buildQueued [("url", url)])
  | none => Console.printOk (← Desk.say Notice.buildTriggered [("label", order.label)])
  pure queue

theorem place_eq (server : Server) (order : Order) :
    order.place server = server.trigger (.str order.job) order.data >>= order.finish server := rfl

theorem isFair_finish (server : Server) (order : Order) (queue : Json) :
    (order.finish server queue).IsFair Event.IsQuiet := by
  refine isFair_bind (isFair_remember _ _ _) fun _ => ?_
  split
  · exact isFair_bind (isFair_say _ _) fun _ =>
      isFair_bind (Console.isFair_printOk _) fun _ => isFair_pure _
  · exact isFair_bind (isFair_say _ _) fun _ =>
      isFair_bind (Console.isFair_printOk _) fun _ => isFair_pure _

/-- Recording the build is all that becomes of the job file. -/
theorem folder_finish (server : Server) (order : Order) (queue : Json) (s : Session) :
    ((order.finish server queue).outcome s).2.folder =
      ((remember server.settings order.job order.branch).outcome s).2.folder := by
  refine folder_bind _ (fun _ => ?_) s
  split
  · exact fun _ => rfl
  · exact fun _ => rfl

/-- **The effect of placing an order**, however the call ends. -/
theorem effect_of_place (server : Server) (order : Order) (s : Session)
    (h : agreed = true ↔ order.Agrees server s) :
    order.Effect server agreed s ((order.place server).outcome s).2 := by
  obtain ⟨hfolder, hcases⟩ := trigger_cases server order s
  rw [place_eq, outcome_bind]
  unfold Order.Agrees Desk.Yields at h hcases
  rcases htrigger : (server.trigger (.str order.job) order.data).outcome s with ⟨f | queue, s₁⟩
  · -- the call ends here, and nothing is recorded
    rw [htrigger] at h hfolder hcases
    have hrefused : agreed = false := Bool.eq_false_iff.mpr fun hagreed => by
      obtain ⟨queue, s₂, hyields⟩ := h.mp hagreed
      cases hyields
    refine ⟨?_, by rw [hrefused]; exact hfolder⟩
    rcases hcases with ⟨-, hsince⟩ | ⟨s₂, r, hsince, hasks, hleft⟩
    · exact .inl ⟨hrefused, hsince⟩
    · exact .inr ⟨s₂, r, hsince, hasks, hleft ▸ .refl _⟩
  · rw [htrigger] at h hfolder hcases
    have hagreed : agreed = true := h.mpr ⟨queue, s₁, rfl⟩
    have hquiet := (isFair_finish server order queue s₁ 0).since
    refine ⟨?_, ?_⟩
    · rcases hcases with ⟨hnot, -⟩ | ⟨s₂, r, hsince, hasks, hleft⟩
      · exact absurd ⟨queue, s₁, rfl⟩ hnot
      · refine .inr ⟨s₂, r, hsince, hasks, ?_⟩
        rw [← hleft]
        exact hquiet
    · rw [hagreed, if_pos rfl]
      exact (folder_finish server order queue s₁).trans
        ((onFolder_remember _ _ _).folder_eq hfolder)

/-- A call that ends well was agreed to. -/
theorem agrees_of_place {queue : Json} (h : (order.place server).Yields s queue s') :
    order.Agrees server s := by
  rw [place_eq] at h
  obtain ⟨queue, s₁, htrigger, -⟩ := yields_bind.mp h
  exact ⟨queue, s₁, htrigger⟩

end BuildDesk.Command
