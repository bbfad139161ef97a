/-
What parts of a run leave alone.

A session has many components, and most parts of a run touch one or two of them.
This file names the frames that recur:

* `Session.LogsOn`, `Desk.OnlyLogs` — nothing but the log changes: messages are looked
  up and printed (`onlyLogs_printError`, `onlyLogs_printComplaint`, …);
* `Desk.OnFolder` — what the part comes to depends on the folder alone, and nothing
  but the folder changes: the job file is read and written (`onFolder_revise`,
  `Branches.onFolder_offered`, `Branches.onFolder_forget`);
* `Desk.KeepsFolder` — the folder stays as it is: the server is asked
  (`Server.keepsFolder_exchange`, `Server.keepsFolder_crumb`).

All are kept by putting parts one after another, so a part is in a frame when its
steps are.
-/
import BuildDesk.Console.Output
import BuildDesk.Proofs.Outcome
import BuildDesk.Roster.Branches
import BuildDesk.Roster.Recent
import BuildDesk.Server.Client
import Mathlib.Tactic.Common

namespace BuildDesk

variable {α β : Type}

/-- Nothing but the log has changed. -/
def Session.LogsOn (s s' : Session) : Prop := s' = { s with log := s'.log }

theorem Session.LogsOn.refl (s : Session) : s.LogsOn s := rfl

theorem Session.LogsOn.trans {s₁ s₂ s₃ : Session} (h₁ : s₁.LogsOn s₂) (h₂ : s₂.LogsOn s₃) :
    s₁.LogsOn s₃ := by
  unfold Session.LogsOn at *
  rw [h₂, h₁]

namespace Desk

/-! ### Printing -/

/-- When the part ends well, nothing but the log has changed. -/
def OnlyLogs (part : Desk α) : Prop := ∀ s a s', part.Yields s a s' → s.LogsOn s'

theorem onlyLogs_pure (a : α) : (pure a : Desk α).OnlyLogs := by
  intro s b s' h
  obtain ⟨-, rfl⟩ := yields_pure.mp h
  exact .refl _

theorem onlyLogs_bind {part : Desk α} {next : α → Desk β} (h : part.OnlyLogs)
    (hnext : ∀ a, (next a).OnlyLogs) : (part >>= next).OnlyLogs := by
  intro s b s' hb
  obtain ⟨a, s₁, hpart, hrest⟩ := yields_bind.mp hb
  exact (h s a s₁ hpart).trans (hnext a s₁ b s' hrest)

theorem onlyLogs_emit (e : Event) : (emit e).OnlyLogs := by
  intro s u s' h
  rw [yields_emit.mp h]
  exact rfl

theorem onlyLogs_say (p : Phrase) (args : Arguments) : (say p args).OnlyLogs := by
  refine onlyLogs_bind ?_ fun _ => onlyLogs_pure _
  intro s l s' h
  rw [(yields_lang.mp h).2]
  exact .refl _

theorem onlyLogs_printError (text : String) : (Console.printError text).OnlyLogs :=
  onlyLogs_emit _

theorem onlyLogs_printHint (text : String) : (Console.printHint text).OnlyLogs :=
  onlyLogs_emit _

theorem onlyLogs_printOk (text : String) : (Console.printOk text).OnlyLogs := onlyLogs_emit _

theorem onlyLogs_forM (items : List α) {part : α → Desk PUnit}
    (h : ∀ a, (part a).OnlyLogs) : (items.forM part).OnlyLogs := by
  induction items with
  | nil => exact onlyLogs_pure _
  | cons a rest ih => exact onlyLogs_bind (h a) fun _ => ih

theorem onlyLogs_printComplaint (c : Complaint) : (Console.printComplaint c).OnlyLogs :=
  onlyLogs_bind (onlyLogs_printError _) fun _ => onlyLogs_forM _ onlyLogs_printHint

/-! ### The folder -/

/-- The part looks at nothing but the folder, and changes nothing else. -/
def OnFolder (part : Desk α) : Prop :=
  ∃ work : Folder → Except Fault α × Folder,
    ∀ s, part.outcome s = ((work s.folder).1, { s with folder := (work s.folder).2 })

theorem onFolder_pure (a : α) : (pure a : Desk α).OnFolder := ⟨fun f => (.ok a, f), fun _ => rfl⟩

theorem onFolder_throw (f : Fault) : (throw f : Desk α).OnFolder :=
  ⟨fun folder => (.error f, folder), fun _ => rfl⟩

/-- Nothing comes after a fault. -/
theorem onFolder_throw_bind (f : Fault) (next : α → Desk β) : (throw f >>= next).OnFolder :=
  ⟨fun folder => (.error f, folder), fun _ => rfl⟩

theorem onFolder_bind {part : Desk α} {next : α → Desk β} (h : part.OnFolder)
    (hnext : ∀ a, (next a).OnFolder) : (part >>= next).OnFolder := by
  obtain ⟨work, hwork⟩ := h
  choose rest hrest using hnext
  refine ⟨fun f => match (work f).1 with
    | .ok a => rest a (work f).2
    | .error e => (.error e, (work f).2), fun s => ?_⟩
  rw [outcome_bind, hwork]
  dsimp only
  rcases work s.folder with ⟨a | a, f₁⟩
  · rfl
  · exact hrest a _

/-- The session may be looked at when nothing but its folder counts. -/
theorem onFolder_get {next : Session → Desk β} (hnext : ∀ s, (next s).OnFolder)
    (halike : ∀ s t : Session, s.folder = t.folder → next s = next t) :
    (get >>= next : Desk β).OnFolder := by
  choose rest hrest using hnext
  refine ⟨fun f => rest { folder := f } f, fun s => ?_⟩
  have hget : (get >>= next : Desk β).outcome s = (next s).outcome s := rfl
  rw [hget, halike s { folder := s.folder } rfl, hrest]

theorem onFolder_modify (g : Folder → Folder) :
    (modify fun s => { s with folder := g s.folder } : Desk Unit).OnFolder :=
  ⟨fun f => (.ok (), g f), fun _ => rfl⟩

theorem onFolder_ofExcept (e : Except Fault α) : (ofExcept e).OnFolder :=
  ⟨fun f => (e, f), fun _ => rfl⟩

theorem onFolder_tryCatch {part : Desk α} {handle : Fault → Desk α} (h : part.OnFolder)
    (hhandle : ∀ f, (handle f).OnFolder) : (tryCatch part handle).OnFolder := by
  obtain ⟨work, hwork⟩ := h
  choose rest hrest using hhandle
  refine ⟨fun f => match (work f).1 with
    | .ok a => (.ok a, (work f).2)
    | .error e => rest e (work f).2, fun s => ?_⟩
  rw [outcome_tryCatch, hwork]
  dsimp only
  rcases work s.folder with ⟨e | a, f₁⟩
  · exact hrest e _
  · rfl

/-- What becomes of the folder is settled by the folder. -/
theorem OnFolder.folder_eq {part : Desk α} (h : part.OnFolder) {s t : Session}
    (hf : s.folder = t.folder) : (part.outcome s).2.folder = (part.outcome t).2.folder := by
  obtain ⟨work, hwork⟩ := h
  rw [hwork, hwork, hf]

theorem OnFolder.answers_eq {part : Desk α} (h : part.OnFolder) {s s' : Session} {a : α}
    (hy : part.Yields s a s') : s'.answers = s.answers := by
  obtain ⟨work, hwork⟩ := h
  obtain ⟨-, rfl⟩ := Prod.mk.inj ((hwork s).symm.trans hy)
  rfl

/-- Two sessions with the same folder are alike for a part that looks at nothing else. -/
theorem OnFolder.alike {part : Desk α} (h : part.OnFolder) {s₁ s₁' s₂ s₂' : Session} {a b : α}
    (h₁ : part.Yields s₁ a s₁') (h₂ : part.Yields s₂ b s₂') (hf : s₁.folder = s₂.folder) :
    a = b ∧ s₁'.folder = s₂'.folder := by
  obtain ⟨work, hwork⟩ := h
  have e₁ := (hwork s₁).symm.trans h₁
  have e₂ := (hwork s₂).symm.trans h₂
  rw [hf] at e₁
  obtain ⟨ha, rfl⟩ := Prod.mk.inj e₁
  obtain ⟨hb, rfl⟩ := Prod.mk.inj e₂
  exact ⟨Except.ok.inj (ha.symm.trans hb), rfl⟩

end Desk

/-! ### The job file -/

namespace Roster

open Desk

theorem onFolder_load : load.OnFolder := by
  refine onFolder_get (fun s => onFolder_ofExcept (ofFolder s.folder)) ?_
  intro s t h
  rw [h]

theorem onFolder_save (r : Roster) : (save r).OnFolder := by
  refine onFolder_get (fun s => ?_) ?_
  · dsimp only
    split
    · exact onFolder_throw_bind _ _
    · split
      · exact onFolder_throw_bind _ _
      · refine onFolder_bind (onFolder_modify fun _ => _) fun _ => ?_
        split
        · exact onFolder_throw _
        · exact onFolder_pure _
  · intro s t h
    simp only [h]

theorem onFolder_loadFor (settings : Settings) : (loadFor settings).OnFolder := by
  refine onFolder_bind onFolder_load fun found => ?_
  cases found with
  | none => exact onFolder_pure _
  | some r => exact onFolder_pure _

theorem onFolder_revise (settings : Settings) (change : Roster → Option Roster) :
    (revise settings change).OnFolder := by
  refine onFolder_bind (onFolder_loadFor settings) fun found => ?_
  rcases found with _ | r
  · exact onFolder_pure _
  · rcases hr : change r with _ | changed
    · simp only [hr]
      exact onFolder_pure _
    · simp only [hr]
      exact onFolder_bind (onFolder_save changed) fun _ => onFolder_pure _

end Roster

namespace Branches

open Desk

theorem onFolder_history (settings : Settings) (url : String) :
    (history settings url).OnFolder := by
  refine onFolder_bind (Roster.onFolder_loadFor settings) fun found => ?_
  rcases found with _ | r
  · exact onFolder_pure _
  · rcases hr : r.find? url with _ | job
    · simp only [hr]
      exact onFolder_pure _
    · simp only [hr]
      exact onFolder_pure _

theorem onFolder_offered (settings : Settings) (url : String) :
    (offered settings url).OnFolder :=
  onFolder_bind (onFolder_history settings url) fun _ => onFolder_pure _

theorem onFolder_forget (settings : Settings) (url branch : String) :
    (forget settings url branch).OnFolder := by
  unfold forget
  dsimp only
  split
  · exact onFolder_pure _
  · exact Roster.onFolder_revise _ _

theorem onFolder_record (settings : Settings) (url branch : String) :
    (record settings url branch).OnFolder := by
  unfold record
  dsimp only
  split
  · exact onFolder_bind (Roster.onFolder_revise _ _) fun _ => onFolder_pure _
  · exact onFolder_pure _

end Branches

namespace Recent

open Desk

theorem onFolder_load (settings : Settings) : (load settings).OnFolder := by
  refine onFolder_bind (Roster.onFolder_loadFor settings) fun found => ?_
  cases found with
  | none => exact onFolder_pure _
  | some r => exact onFolder_pure _

theorem onFolder_record (settings : Settings) (url : String) :
    (record settings url).OnFolder := by
  unfold record
  dsimp only
  split
  · exact onFolder_bind (Roster.onFolder_revise _ _) fun _ => onFolder_pure _
  · exact onFolder_pure _

end Recent

/-! ### The server -/

namespace Desk

/-- The folder stays as it is. -/
def KeepsFolder (part : Desk α) : Prop := ∀ s, (part.outcome s).2.folder = s.folder

theorem KeepsFolder.of_yields {part : Desk α} (h : part.KeepsFolder) {s s' : Session} {a : α}
    (hy : part.Yields s a s') : s'.folder = s.folder := by
  have hleft := h s
  rwa [hy] at hleft

theorem KeepsFolder.of_fails {part : Desk α} (h : part.KeepsFolder) {s s' : Session} {f : Fault}
    (hf : part.Fails s f s') : s'.folder = s.folder := by
  have hleft := h s
  rwa [hf] at hleft

theorem keepsFolder_pure (a : α) : (pure a : Desk α).KeepsFolder := fun _ => rfl

theorem keepsFolder_throw (f : Fault) : (throw f : Desk α).KeepsFolder := fun _ => rfl

theorem keepsFolder_ofExcept (e : Except Fault α) : (ofExcept e).KeepsFolder := fun _ => rfl

/-- What keeps the folder may come after anything. -/
theorem folder_bind (part : Desk α) {next : α → Desk β} (hnext : ∀ a, (next a).KeepsFolder)
    (s : Session) : ((part >>= next).outcome s).2.folder = (part.outcome s).2.folder := by
  rw [outcome_bind]
  rcases part.outcome s with ⟨f | a, s₁⟩
  · rfl
  · exact hnext a s₁

theorem keepsFolder_bind {part : Desk α} {next : α → Desk β} (h : part.KeepsFolder)
    (hnext : ∀ a, (next a).KeepsFolder) : (part >>= next).KeepsFolder :=
  fun s => (folder_bind part hnext s).trans (h s)

theorem keepsFolder_get {next : Session → Desk β}
    (h : ∀ s, ((next s).outcome s).2.folder = s.folder) :
    (get >>= next : Desk β).KeepsFolder := h

theorem keepsFolder_exchange (r : Request) : (exchange r).KeepsFolder := by
  intro s
  rw [outcome_exchange]
  split
  · rfl
  · rfl
  · rfl
  · rfl

end Desk

namespace Server

open Desk

theorem keepsFolder_exchange (r : Request) : (Server.exchange r).KeepsFolder := by
  refine keepsFolder_bind (Desk.keepsFolder_exchange r) fun reply => ?_
  refine keepsFolder_bind (keepsFolder_ofExcept _) fun failed => ?_
  split
  · exact keepsFolder_throw _
  · exact keepsFolder_pure _

theorem keepsFolder_crumb (server : Server) : server.crumb.KeepsFolder := by
  refine keepsFolder_get fun s => ?_
  cases s.crumb with
  | some header => rfl
  | none =>
    refine keepsFolder_bind (keepsFolder_exchange _) (fun reply => ?_) s
    exact keepsFolder_bind (keepsFolder_ofExcept _) fun header _ => rfl

end Server
end BuildDesk
