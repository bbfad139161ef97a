/-
The branches that are offered for a job.

What is offered is read from the job file, whose histories may hold any names.  They are shown
without blanks around them, each once, and without the default branches, which follow at the
end (`outcome_history`, `outcome_offered`).  A branch is taken out by its name as it is stored,
blanks and all.  The two agree as long as no stored spelling of the branch has blanks around it
(`removable_without`); one that has them is shown but not found (`exists_of_padded`).

* `isHistory_removable`, `withDefaults_eq` — the lists that are offered;
* `forget_offered` — what comes of removing a branch that is offered for removal.
-/
import BuildDesk.Proofs.Roster.Histories
import BuildDesk.Proofs.Text.Spelling

namespace BuildDesk.Branches

open Roster (changeBranches)

variable {settings : Settings} {r : Roster} {s s' : Session} {url b : String}
variable {names stored : List String}

/-! ### What is offered for a history -/

theorem mem_removable : b ∈ removable stored →
    (∃ e ∈ stored, b = Text.trim e) ∧ b ≠ "" ∧ isDefault b = false := by
  intro h
  obtain ⟨hclean, hown⟩ := List.mem_filter.mp (Text.distinctFrom_subset _ _ h)
  obtain ⟨hstored, hproper⟩ := List.mem_filter.mp hclean
  obtain ⟨e, he, rfl⟩ := List.mem_map.mp hstored
  exact ⟨⟨e, he, rfl⟩, bne_iff_ne.mp hproper, Bool.not_eq_true' _ ▸ hown⟩

/-- Whatever is stored, the branches offered for removal are tidy, and none is offered anyway. -/
theorem isHistory_removable (stored : List String) : IsHistory (removable stored) where
  tidy := {
    nodup := Text.nodup_distinct _
    trimmed := by
      intro name hname
      obtain ⟨⟨e, -, rfl⟩, -⟩ := mem_removable hname
      exact Text.trim_trim e
    proper := fun _ hname => (mem_removable hname).2.1 }
  own := fun _ hname => (mem_removable hname).2.2

theorem nodup_withDefaults (h : IsHistory names) :
    ((names ++ Settings.defaultBranches).map Text.lower).Nodup := by
  have hdefaults : (Settings.defaultBranches.map Text.lower).Nodup := by decide
  rw [List.map_append, List.nodup_append]
  refine ⟨h.tidy.nodup, hdefaults, ?_⟩
  rintro key hkey other hother rfl
  obtain ⟨name, hname, rfl⟩ := List.mem_map.mp hkey
  have hdefault : isDefault name = true := List.contains_iff_mem.mpr hother
  rw [h.own name hname] at hdefault
  cases hdefault

/-- The default branches follow those of the history. -/
theorem withDefaults_eq (h : IsHistory names) :
    withDefaults names = names ++ Settings.defaultBranches :=
  Text.distinct_of_nodup (nodup_withDefaults h)

/-! ### What is offered for a job -/

/-- The history of a job in the roster that was found, if it is one of the settings. -/
def storedFor (settings : Settings) (url : String) (found : Option Roster) : List String :=
  ((found.filter (·.belongsTo settings)).bind (·.history? url)).getD []

theorem storedFor_some (hours : r.belongsTo settings = true) (url : String) :
    storedFor settings url (some r) = (r.history? url).getD [] := by
  rw [storedFor, Option.filter_some, if_pos hours, Option.bind_some]

/-- The branches of a job are those of its history in the job file. -/
theorem outcome_history (settings : Settings) (url : String) (s : Session) :
    (history settings url).outcome s = ((Roster.ofFolder s.folder).map fun found =>
      removable (storedFor settings url found), s) := by
  rw [history, Desk.outcome_bind]
  rcases hread : Roster.ofFolder s.folder with fault | found
  · have hload : (Roster.loadFor settings).outcome s = (.error fault, s) := by
      rw [Roster.loadFor, Desk.outcome_bind]
      have hfault : Roster.load.outcome s = (.error fault, s) := congrArg (·, s) hread
      rw [hfault]
    rw [hload]
    rfl
  · rw [Roster.outcome_loadFor_of hread]
    dsimp only [Except.map, storedFor]
    generalize found.filter (·.belongsTo settings) = ours
    rcases ours with _ | r
    · rfl
    · dsimp only [Option.bind_some]
      rw [Roster.history?]
      rcases r.find? url with _ | job
      · rfl
      · rfl

/-- The branches offered for a job are those that may be removed, and the default ones. -/
theorem outcome_offered (settings : Settings) (url : String) (s : Session) :
    (offered settings url).outcome s = ((Roster.ofFolder s.folder).map fun found =>
      removable (storedFor settings url found) ++ Settings.defaultBranches, s) := by
  rw [offered, Desk.outcome_bind, outcome_history]
  rcases Roster.ofFolder s.folder with fault | found
  · rfl
  · dsimp only [Except.map]
    rw [← withDefaults_eq (isHistory_removable _)]
    rfl

theorem yields_history : (history settings url).Yields s names s' ↔ ∃ found,
    Roster.ofFolder s.folder = .ok found ∧ names = removable (storedFor settings url found)
      ∧ s' = s := by
  rw [Desk.Yields, outcome_history]
  rcases Roster.ofFolder s.folder with fault | found
  · simp [Except.map]
  · simp [Except.map, eq_comm]

theorem yields_offered : (offered settings url).Yields s names s' ↔ ∃ found,
    Roster.ofFolder s.folder = .ok found
      ∧ names = removable (storedFor settings url found) ++ Settings.defaultBranches
      ∧ s' = s := by
  rw [Desk.Yields, outcome_offered]
  rcases Roster.ofFolder s.folder with fault | found
  · simp [Except.map]
  · simp [Except.map, eq_comm]

theorem history_yields (h : r.IsRead s.folder) (hours : r.belongsTo settings = true)
    (url : String) : (history settings url).Yields s (removable ((r.history? url).getD [])) s :=
  yields_history.mpr ⟨some r, h, by rw [storedFor_some hours], rfl⟩

theorem offered_yields (h : r.IsRead s.folder) (hours : r.belongsTo settings = true)
    (url : String) : (offered settings url).Yields s
      (removable ((r.history? url).getD []) ++ Settings.defaultBranches) s :=
  yields_offered.mpr ⟨some r, h, by rw [storedFor_some hours], rfl⟩

/-! ### Taking a branch out -/

/-- No spelling of the branch is stored with blanks around it. -/
def IsUnpadded (b : String) (stored : List String) : Prop :=
  ∀ e ∈ stored, Text.sameName (Text.trim e) b = true → Text.trim e = e

theorem isUnpadded_of_trimmed (h : ∀ e ∈ stored, Text.trim e = e) (b : String) :
    IsUnpadded b stored := fun e he _ => h e he

/-- Without stored blanks around it, a branch that is taken out is no longer offered, and the
others are offered as before. -/
theorem removable_without (hb : Text.trim b = b) (h : IsUnpadded b stored) :
    removable (Text.without b stored) = Text.without b (removable stored) := by
  -- a stored name is a spelling of the branch just when it is one without its blanks
  have hspelling : ∀ e ∈ stored,
      (!Text.sameName e b) = (!Text.sameName (Text.trim e) b) := by
    intro e he
    refine congrArg _ (Bool.eq_iff_iff.mpr ⟨fun hsame => ?_, fun hsame => ?_⟩)
    · rwa [Text.trim_eq_of_lower_eq (Text.sameName_iff.mp hsame) hb]
    · rwa [h e he hsame] at hsame
  have hkept : stored.filter (fun e => !Text.sameName e b)
      = stored.filter fun e => !Text.sameName (Text.trim e) b := List.filter_congr hspelling
  have hmap : (Text.without b stored).map Text.trim
      = Text.without b (stored.map Text.trim) := by
    rw [Text.without, Text.without, List.filter_map, hkept, Function.comp_def]
  have hcomm : ∀ (p : String → Bool) (l : List String),
      (Text.without b l).filter p = Text.without b (l.filter p) := fun p l => List.filter_comm ..
  rw [removable, removable, ← Text.distinct_without, cleaned, cleaned, hmap, hcomm, hcomm]

/-- Of a list in which names occur once, a name is taken out by itself. -/
theorem without_eq_filter (h : (names.map Text.lower).Nodup) (hb : b ∈ names) :
    Text.without b names = names.filter (· != b) := by
  refine List.filter_congr fun name hname => congrArg _ (Bool.eq_iff_iff.mpr ?_)
  rw [Text.sameName_iff, beq_iff_eq]
  exact ⟨fun hsame => List.inj_on_of_nodup_map h hname hb hsame, congrArg Text.lower⟩

/-- A spelling that is stored with blanks around it is not found, and it is offered still. -/
theorem exists_of_padded (hb : b ∈ removable stored) {e : String} (he : e ∈ stored)
    (hsame : Text.sameName (Text.trim e) b = true) (hpadded : Text.trim e ≠ e) :
    ∃ c ∈ removable (Text.without b stored), Text.sameName c b = true := by
  have hlower := Text.sameName_iff.mp hsame
  obtain ⟨-, hproper, hown⟩ := mem_removable hb
  have htrim := (isHistory_removable stored).tidy.trimmed b hb
  have hleft : e ∈ Text.without b stored := Text.mem_without.mpr
    ⟨he, fun h => hpadded (Text.trim_eq_of_lower_eq h htrim)⟩
  have hclean : Text.trim e ∈ (cleaned (Text.without b stored)).filter fun c => !isDefault c := by
    refine List.mem_filter.mpr ⟨List.mem_filter.mpr ⟨List.mem_map_of_mem hleft, ?_⟩, ?_⟩
    · exact bne_iff_ne.mpr fun hempty => hproper (Text.eq_empty_of_lower_eq (hempty ▸ hlower))
    · rw [isDefault_congr hlower, hown]
      rfl
  obtain ⟨c, hc, hkey⟩ := List.mem_map.mp
    (Text.mem_map_distinct.mpr (List.mem_map_of_mem (f := Text.lower) hclean))
  exact ⟨c, hc, Text.sameName_iff.mpr (hkey.trans hlower)⟩

/-! ### Removing what is offered -/

/-- What is left of the roster in the job file is read back with the shorter history. -/
theorem isRead_removed (h : r.IsRead s.folder) (url b : String) :
    (changeBranches url (Text.without b) r).reread.IsRead
      ((changeBranches url (Text.without b) r).kept s).folder :=
  .kept h.reachable (Roster.shaped_changeBranches h.shaped _)

theorem getD_history?_removed (r : Roster) (url b : String) :
    ((changeBranches url (Text.without b) r).reread.history? url).getD []
      = Text.without b ((r.history? url).getD []) := by
  rw [Roster.history?_reread, Roster.history?_changeBranches]
  cases r.history? url with
  | none => rfl
  | some stored => rw [Option.map_some, if_pos rfl, Option.getD_some, Option.getD_some]

/-- A name that is neither blank nor a default branch is removed when a spelling of it is
stored. -/
theorem outcome_forget_proper (h : r.IsRead s.folder) (hours : r.belongsTo settings = true)
    (hstored : r.history? url = some stored) (htrim : Text.trim b = b) (hproper : b ≠ "")
    (hown : isDefault b = false) : (forget settings url b).outcome s =
      if stored.any (Text.sameName · b) then
        if Text.isEncodable (changeBranches url (Text.without b) r).document then
          (.ok true, (changeBranches url (Text.without b) r).kept s)
        else (.error .notEncodable, s)
      else (.ok false, s) := by
  obtain ⟨job, hjob, rfl⟩ := Option.map_eq_some_iff.mp hstored
  rw [h.outcome_forget hours, htrim, hjob, Option.any_some, if_neg (by simp [hproper, hown])]

/-- A branch that is offered for removal is such a name. -/
theorem outcome_forget_offered (h : r.IsRead s.folder) (hours : r.belongsTo settings = true)
    (hstored : r.history? url = some stored) (hb : b ∈ removable stored) :
    (forget settings url b).outcome s = if stored.any (Text.sameName · b) then
        if Text.isEncodable (changeBranches url (Text.without b) r).document then
          (.ok true, (changeBranches url (Text.without b) r).kept s)
        else (.error .notEncodable, s)
      else (.ok false, s) := by
  obtain ⟨-, hproper, hown⟩ := mem_removable hb
  exact outcome_forget_proper h hours hstored ((isHistory_removable stored).tidy.trimmed b hb)
    hproper hown

/-- Without blanks around it a branch that is offered is stored as it is shown. -/
theorem any_of_unpadded (hb : b ∈ removable stored) (hplain : IsUnpadded b stored) :
    stored.any (Text.sameName · b) = true := by
  obtain ⟨⟨e, he, hspelt⟩, -⟩ := mem_removable hb
  have hself : Text.sameName (Text.trim e) b = true := by
    rw [← hspelt]
    exact Text.sameName_iff.mpr rfl
  refine List.any_eq_true.mpr ⟨e, he, ?_⟩
  rwa [hplain e he hself] at hself

/-- A branch that is removed is no longer offered, and the others are offered as before. -/
theorem offered_removed (h : r.IsRead s.folder) (hours : r.belongsTo settings = true)
    (hstored : r.history? url = some stored) (hb : b ∈ removable stored)
    (hplain : IsUnpadded b stored) :
    (history settings url).Yields ((changeBranches url (Text.without b) r).kept s)
        ((removable stored).filter (· != b)) ((changeBranches url (Text.without b) r).kept s)
      ∧ (offered settings url).Yields ((changeBranches url (Text.without b) r).kept s)
        ((removable stored).filter (· != b) ++ Settings.defaultBranches)
        ((changeBranches url (Text.without b) r).kept s) := by
  have hhistory := isHistory_removable stored
  have hleft : removable (((changeBranches url (Text.without b) r).reread.history? url).getD [])
      = (removable stored).filter (· != b) := by
    rw [getD_history?_removed, hstored, Option.getD_some,
      removable_without (hhistory.tidy.trimmed b hb) hplain,
      without_eq_filter hhistory.tidy.nodup hb]
  have hread := isRead_removed h url b
  exact ⟨hleft ▸ history_yields hread hours url, hleft ▸ offered_yields hread hours url⟩

/-- A branch that is stored with blanks around it is offered for removal afterwards, in some
spelling. -/
theorem offered_of_padded (h : r.IsRead s.folder) (hours : r.belongsTo settings = true)
    (hstored : r.history? url = some stored) (hb : b ∈ removable stored) {e : String}
    (he : e ∈ stored) (hsame : Text.sameName (Text.trim e) b = true) (hpadded : Text.trim e ≠ e)
    {removed : Bool} (hforget : (forget settings url b).Yields s removed s') :
    ∃ names', (history settings url).Yields s' names' s'
      ∧ ∃ c ∈ names', Text.sameName c b = true := by
  have hout := outcome_forget_offered h hours hstored hb
  split at hout
  · split at hout
    · obtain ⟨-, rfl⟩ := Prod.mk.inj (hout.symm.trans hforget)
      refine ⟨_, history_yields (isRead_removed h url b) hours url, ?_⟩
      rw [getD_history?_removed, hstored, Option.getD_some]
      exact exists_of_padded hb he hsame hpadded
    · cases hout.symm.trans hforget
  · obtain ⟨-, rfl⟩ := Prod.mk.inj (hout.symm.trans hforget)
    refine ⟨_, history_yields h hours url, b, ?_, Text.sameName_iff.mpr rfl⟩
    rwa [hstored, Option.getD_some]

/-- A branch that is stored with blanks around it only is not found. -/
theorem not_any_of_padded (hb : b ∈ removable stored)
    (hall : ∀ e ∈ stored, Text.sameName (Text.trim e) b = true → Text.trim e ≠ e) :
    ¬ stored.any (Text.sameName · b) = true := by
  intro hany
  obtain ⟨e, he, hsame⟩ := List.any_eq_true.mp hany
  -- what is stored as the branch would be trimmed, like the branch
  have hplain := Text.trim_eq_of_lower_eq (Text.sameName_iff.mp hsame)
    ((isHistory_removable stored).tidy.trimmed b hb)
  exact hall e he (by rwa [hplain]) hplain

/-- **Removing what is offered for removal.**  Let the job file hold a roster of the settings,
and let a branch be offered for removal.  When no spelling of it is stored with blanks around
it, removing it succeeds, and the branches that may be removed are the others, with the default
branches after them for those that are offered; only when another text in the file cannot be
encoded, the removal is refused and the file stays as it is.  When a spelling is stored with
blanks around it, a spelling is offered for removal afterwards as before; if there is no other
spelling, nothing is found and the file stays as it is. -/
theorem forget_offered (hload : Roster.load.Yields s (some r) s)
    (hours : r.belongsTo settings = true) (hnames : (history settings url).Yields s names s)
    (hb : b ∈ names) :
    ∃ stored, r.history? url = some stored
      ∧ (IsUnpadded b stored →
        (Text.isEncodable (changeBranches url (Text.without b) r).document = true →
          ∃ s', (forget settings url b).Yields s true s'
            ∧ (history settings url).Yields s' (names.filter (· != b)) s'
            ∧ (offered settings url).Yields s'
              (names.filter (· != b) ++ Settings.defaultBranches) s')
        ∧ (Text.isEncodable (changeBranches url (Text.without b) r).document = false →
          (forget settings url b).Fails s .notEncodable s))
      ∧ ∀ e ∈ stored, Text.sameName (Text.trim e) b = true → Text.trim e ≠ e →
        (∀ removed s', (forget settings url b).Yields s removed s' →
          ∃ names', (history settings url).Yields s' names' s'
            ∧ ∃ c ∈ names', Text.sameName c b = true)
        ∧ ((∀ e ∈ stored, Text.sameName (Text.trim e) b = true → Text.trim e ≠ e) →
          (forget settings url b).Yields s false s) := by
  have hread : r.IsRead s.folder := (Roster.load_yields.mp hload).1
  have hfound := ((history_yields hread hours url).unique hnames).1
  rw [← hfound] at hb ⊢
  -- nothing is offered for a job that is not known
  obtain ⟨stored, hstored⟩ : ∃ stored, r.history? url = some stored := by
    cases hnone : r.history? url with
    | none =>
      rw [hnone] at hb
      exact absurd hb List.not_mem_nil
    | some stored => exact ⟨stored, rfl⟩
  rw [hstored, Option.getD_some] at hb ⊢
  have hforget := outcome_forget_offered hread hours hstored hb
  refine ⟨stored, rfl, fun hplain => ?_, fun e he hsame hpadded => ⟨fun removed s' h => ?_,
    fun hall => ?_⟩⟩
  · rw [if_pos (any_of_unpadded hb hplain)] at hforget
    refine ⟨fun henc => ?_, fun henc => ?_⟩
    · rw [if_pos henc] at hforget
      exact ⟨_, hforget, offered_removed hread hours hstored hb hplain⟩
    · rw [if_neg (by rw [henc]; exact Bool.false_ne_true)] at hforget
      exact hforget
  · exact offered_of_padded hread hours hstored hb he hsame hpadded h
  · rw [if_neg (not_any_of_padded hb hall)] at hforget
    exact hforget

/-! ### One name with blanks around it -/

/-- A roster in which one of two branches is stored with blanks around it. -/
def paddedOnce : Roster := Roster.oneJobWith ["x", " dev "]

theorem isRead_paddedOnce : paddedOnce.IsRead (paddedOnce.kept {}).folder :=
  Roster.isRead_oneJobWith (by decide)

theorem history_paddedOnce : (history Roster.someSettings "u").Yields (paddedOnce.kept {})
    ["x", "dev"] (paddedOnce.kept {}) := by
  have hlist : removable ["x", " dev "] = ["x", "dev"] := by decide
  exact hlist ▸ history_yields isRead_paddedOnce rfl "u"

/-- The branch stored without blanks is removed, and the other is offered as before. -/
theorem forget_offered_plain :
    (history Roster.someSettings "u").Yields (paddedOnce.kept {}) ["x", "dev"] (paddedOnce.kept {})
      ∧ IsUnpadded "x" ["x", " dev "]
      ∧ ∃ s', (forget Roster.someSettings "u" "x").Yields (paddedOnce.kept {}) true s'
        ∧ (offered Roster.someSettings "u").Yields s'
          ["dev", "development", "staging", "master"] s' := by
  have hplain : IsUnpadded "x" ["x", " dev "] := by
    simp only [IsUnpadded, List.forall_mem_cons]
    exact ⟨by decide, by decide, List.forall_mem_nil _⟩
  have hload : Roster.load.Yields (paddedOnce.kept {}) (some paddedOnce) (paddedOnce.kept {}) :=
    Roster.outcome_load_of isRead_paddedOnce
  obtain ⟨stored, hstored, hremoved, -⟩ :=
    forget_offered hload rfl history_paddedOnce List.mem_cons_self
  obtain rfl : ["x", " dev "] = stored := Option.some.inj hstored
  have hstorable : (changeBranches "u" (Text.without "x") paddedOnce).Storable :=
    Roster.storable_forgotten (Roster.storable_oneJobWith (by decide)) "x"
  obtain ⟨s', hforget, -, hoffered⟩ := (hremoved hplain).1 hstorable.isEncodable
  exact ⟨history_paddedOnce, hplain, s', hforget, hoffered⟩

/-- The branch stored with blanks around it is offered for removal, and removing it finds
nothing. -/
theorem not_removed_padded :
    Roster.load.Yields (paddedOnce.kept {}) (some paddedOnce) (paddedOnce.kept {})
      ∧ paddedOnce.belongsTo Roster.someSettings = true
      ∧ (history Roster.someSettings "u").Yields (paddedOnce.kept {}) ["x", "dev"]
        (paddedOnce.kept {})
      ∧ (forget Roster.someSettings "u" "dev").Yields (paddedOnce.kept {}) false
        (paddedOnce.kept {}) := by
  have hforget := outcome_forget_proper (b := "dev") isRead_paddedOnce
    (show paddedOnce.belongsTo Roster.someSettings = true from rfl)
    (show paddedOnce.history? "u" = some ["x", " dev "] from rfl)
    (by decide) (by decide) (by decide +kernel)
  have hnone : (["x", " dev "].any (Text.sameName · "dev")) = false := by decide
  rw [if_neg (by rw [hnone]; exact Bool.false_ne_true)] at hforget
  exact ⟨Roster.outcome_load_of isRead_paddedOnce, rfl, history_paddedOnce, hforget⟩

end BuildDesk.Branches
