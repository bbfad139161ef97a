/-
Where the settings of a run come from.

A setting is what its environment variable says, or what the settings file says when the variable
is unset or empty (`Said`).  Putting them together ends in one of three ways, and each is told
from the two sources alone (`gathered_from_sources`).  The settings are what the sources give.  Or
a required setting is missing, or the address is none of a server, which is a complaint about that
setting.  Or there is something that is not provided for: a file that cannot be read, a parameter
for the branch that is no text, an address whose host is malformed.

The required settings are taken as texts, whatever the file holds for them, and so they are proper
texts in the end.  The profile is not: it is whatever the file holds.

* `Said`, `Gives` — what is said about a setting, and the text of a required one;
* `Gathered` — the settings that the sources give;
* `Refuses`, `Trips` — the complaints, and the faults that are none.
-/
import BuildDesk.Proofs.Prepare.Inputs
import BuildDesk.Proofs.Roster.Reading
import BuildDesk.Proofs.Url.Normal

namespace BuildDesk.Settings

open Flow.Prepare (IsProper)

variable {env : Environment} {entry : Entry} {file v : Json} {name key text : String}
  {setting : Required} {settings : Settings} {f : Fault}

/-! ### What the sources say -/

/-- What is said about a setting: by its variable when that is set and not empty, and else by the
settings file. -/
inductive Said (env : Environment) (file : Json) (name key : String) : Json → Prop
  | environment {text : String} (h : env.lookup name = some text) (hne : text ≠ "") :
      Said env file name key (.str text)
  | member (h : ∀ text, env.lookup name = some text → text = "") :
      Said env file name key (file.field key)

theorem choose_of_text (h : env.lookup name = some text) (hne : text ≠ "") :
    choose env file name key = .str text := by
  rw [choose, h]
  exact if_pos (bne_iff_ne.mpr hne)

theorem choose_of_nothing (h : ∀ text, env.lookup name = some text → text = "") :
    choose env file name key = file.field key := by
  rw [choose]
  cases hlookup : env.lookup name with
  | none => rfl
  | some text =>
    rw [h text hlookup]
    rfl

theorem said_iff : Said env file name key v ↔ v = choose env file name key := by
  constructor
  · rintro (⟨h, hne⟩ | h)
    · exact (choose_of_text h hne).symm
    · exact (choose_of_nothing h).symm
  · rintro rfl
    by_cases h : ∀ text, env.lookup name = some text → text = ""
    · rw [choose_of_nothing h]
      exact .member h
    · obtain ⟨text, htext, hne⟩ : ∃ text, env.lookup name = some text ∧ text ≠ "" := by
        simpa using h
      rw [choose_of_text htext hne]
      exact .environment htext hne

/-- The text that the sources give for a required setting: what is said about it is there, and as
a text it is not blank. -/
def Gives (env : Environment) (file : Json) (setting : Required) (text : String) : Prop :=
  ∃ v, Said env file setting.variable (fileKey setting) v ∧ v.truthy = true ∧
    text = Text.trim v.text ∧ text ≠ ""

/-- The parameter that receives the branch, by what is said about it. -/
inductive NamesParam : Json → String → Prop
  | text {text : String} (h : Text.trim text ≠ "") : NamesParam (.str text) (Text.trim text)
  | blank {text : String} (h : Text.trim text = "") : NamesParam (.str text) standardBranchParam
  | absent {v : Json} (h : v.truthy = false) : NamesParam v standardBranchParam

/-- The settings that the sources give. -/
structure Gathered (env : Environment) (file : Json) (settings : Settings) : Prop where
  url : ∃ text, Gives env file .url text ∧ Url.normalize text = .ok settings.url
  user : Gives env file .user settings.user
  token : Gives env file .token settings.token
  branchParam : ∃ v, Said env file "JENKINS_BRANCH_PARAM" "branchParam" v ∧
    NamesParam v settings.branchParam
  useCrumb : settings.useCrumb =
    flag (env.lookup "JENKINS_USE_CRUMB") (file.field "useCrumb").truthy
  profile : Said env file "JENKINS_PROFILE" "profileName" settings.profile

/-- The complaint about what the sources give: the first required setting that is missing, or the
address when it is none of a server. -/
inductive Refuses (env : Environment) (file : Json) : SettingFault → Prop
  | noUrl (hurl : ∀ text, ¬ Gives env file .url text) : Refuses env file (.missing .url)
  | noUser {url : String} (hurl : Gives env file .url url)
      (huser : ∀ text, ¬ Gives env file .user text) : Refuses env file (.missing .user)
  | noToken {url user : String} (hurl : Gives env file .url url) (huser : Gives env file .user user)
      (htoken : ∀ text, ¬ Gives env file .token text) : Refuses env file (.missing .token)
  | noServer {url user token param : String} {v : Json} {c : SettingFault}
      (hurl : Gives env file .url url) (huser : Gives env file .user user)
      (htoken : Gives env file .token token)
      (hsaid : Said env file "JENKINS_BRANCH_PARAM" "branchParam" v) (hparam : NamesParam v param)
      (h : Url.Rejects (Url.split url) (.complaint (.setting c))) : Refuses env file c

/-- What no complaint is made of: a parameter for the branch that is there and is no text, and an
address whose host is malformed. -/
inductive Trips (env : Environment) (file : Json) : Fault → Prop
  | branchParam {url user token : String} {v : Json}
      (hurl : Gives env file .url url) (huser : Gives env file .user user)
      (htoken : Gives env file .token token)
      (hsaid : Said env file "JENKINS_BRANCH_PARAM" "branchParam" v)
      (hthere : v.truthy = true) (hkind : ∀ text, v ≠ .str text) : Trips env file .noAttribute
  | address {url user token param : String} {v : Json}
      (hurl : Gives env file .url url) (huser : Gives env file .user user)
      (htoken : Gives env file .token token)
      (hsaid : Said env file "JENKINS_BRANCH_PARAM" "branchParam" v) (hparam : NamesParam v param)
      (h : Url.split url = none) : Trips env file .badValue

/-! ### One setting -/

theorem Gives.isProper (h : Gives env file setting text) : IsProper text := by
  obtain ⟨v, -, -, rfl, hne⟩ := h
  exact ⟨hne, Text.trim_trim _⟩

theorem gives_iff : Gives env file setting text ↔
    (choose env file setting.variable (fileKey setting)).truthy = true ∧
      text = Text.trim (choose env file setting.variable (fileKey setting)).text ∧ text ≠ "" := by
  simp only [Gives, said_iff, exists_eq_left]

theorem require_eq_ok : require env file setting = .ok text ↔ Gives env file setting text := by
  rw [gives_iff, require]
  generalize choose env file setting.variable (fileKey setting) = v
  by_cases hthere : v.truthy = true
  · rw [Json.orElse_of_truthy hthere]
    constructor
    · intro h
      split at h
      · cases h
      · next hblank =>
        obtain rfl := Except.ok.inj h
        exact ⟨hthere, rfl, mt beq_iff_eq.mpr hblank⟩
    · rintro ⟨-, rfl, hne⟩
      exact if_neg (mt beq_iff_eq.mp hne)
  · rw [Json.orElse_of_not_truthy hthere]
    exact ⟨nofun, fun h => absurd h.1 hthere⟩

/-- A required setting that is not given is a complaint about it. -/
theorem require_eq_error : require env file setting = .error f ↔
    f = .complaint (.setting (.missing setting)) ∧ ∀ text, ¬ Gives env file setting text := by
  simp only [← require_eq_ok]
  rw [require]
  split
  · exact ⟨fun h => ⟨(Except.error.inj h).symm, nofun⟩, fun h => congrArg _ h.1.symm⟩
  · exact ⟨nofun, fun h => absurd rfl (h.2 _)⟩

theorem NamesParam.isProper (h : NamesParam v name) : IsProper name := by
  have hstandard : IsProper standardBranchParam := ⟨by decide, by decide⟩
  cases h with
  | text h => exact ⟨h, Text.trim_trim _⟩
  | blank | absent => exact hstandard

theorem paramName_eq_ok : paramName v = .ok name ↔ NamesParam v name := by
  constructor
  · intro h
    by_cases hthere : v.truthy = true
    · rw [paramName, Json.orElse_of_truthy hthere] at h
      split at h
      · next text =>
        obtain rfl := Except.ok.inj h
        split
        · next hblank => exact .blank (beq_iff_eq.mp hblank)
        · next hblank => exact .text (mt beq_iff_eq.mpr hblank)
      · cases h
    · rw [paramName, Json.orElse_of_not_truthy hthere] at h
      obtain rfl := Except.ok.inj h
      exact .absent (Bool.not_eq_true _ ▸ hthere)
  · rintro (@⟨text, h⟩ | @⟨text, h⟩ | h)
    · have hthere : (Json.str text).truthy = true :=
        bne_iff_ne.mpr fun hempty => h (by rw [hempty, Text.trim_empty])
      rw [paramName, Json.orElse_of_truthy hthere]
      simp [h]
    · by_cases hthere : (Json.str text).truthy = true
      · rw [paramName, Json.orElse_of_truthy hthere]
        simp [h]
      · rw [paramName, Json.orElse_of_not_truthy hthere]
        rfl
    · rw [paramName, Json.orElse_of_not_truthy (by simp [h])]
      rfl

/-- What is no text cannot be trimmed. -/
theorem paramName_eq_error : paramName v = .error f ↔
    f = .noAttribute ∧ v.truthy = true ∧ ∀ text, v ≠ .str text := by
  by_cases hthere : v.truthy = true
  · rw [paramName, Json.orElse_of_truthy hthere]
    split
    · next text => exact ⟨nofun, fun h => absurd rfl (h.2.2 text)⟩
    · next hkind =>
      exact ⟨fun h => ⟨(Except.error.inj h).symm, hthere, hkind⟩, fun h => congrArg _ h.1.symm⟩
  · rw [paramName, Json.orElse_of_not_truthy hthere]
    exact ⟨nofun, fun h => absurd h.2.1 hthere⟩

/-! ### All settings -/

section Except

variable {α β : Type} {part : Except Fault α} {next : α → Except Fault β}

theorem bind_eq_ok {b : β} : (part >>= next) = .ok b ↔ ∃ a, part = .ok a ∧ next a = .ok b := by
  cases part with
  | error f => exact ⟨nofun, nofun⟩
  | ok a => exact ⟨fun h => ⟨a, rfl, h⟩, fun ⟨_, ha, h⟩ => Except.ok.inj ha ▸ h⟩

theorem bind_eq_error : (part >>= next) = .error f ↔
    part = .error f ∨ ∃ a, part = .ok a ∧ next a = .error f := by
  cases part with
  | error g =>
    refine ⟨fun h => .inl (congrArg _ (Except.error.inj h)), ?_⟩
    rintro (h | ⟨_, ⟨⟩, -⟩)
    exact congrArg _ (Except.error.inj h)
  | ok a =>
    refine ⟨fun h => .inr ⟨a, rfl, h⟩, ?_⟩
    rintro (⟨⟨⟩⟩ | ⟨_, ⟨⟩, h⟩)
    exact h

end Except

theorem load_eq_ok : load env file = .ok settings ↔ Gathered env file settings := by
  simp only [load, bind_eq_ok, require_eq_ok, paramName_eq_ok]
  constructor
  · rintro ⟨address, haddress, user, huser, token, htoken, param, hparam, url, hurl, hall⟩
    obtain rfl := Except.ok.inj hall
    exact {
      url := ⟨address, haddress, hurl⟩
      user := huser
      token := htoken
      branchParam := ⟨_, said_iff.mpr rfl, hparam⟩
      useCrumb := rfl
      profile := said_iff.mpr rfl }
  · intro h
    obtain ⟨address, haddress, hurl⟩ := h.url
    obtain ⟨v, hv, hparam⟩ := h.branchParam
    rw [said_iff.mp hv] at hparam
    refine ⟨address, haddress, _, h.user, _, h.token, _, hparam, _, hurl, congrArg _ ?_⟩
    rw [← h.useCrumb, ← said_iff.mp h.profile]

theorem Gives.trim (h : Gives env file setting text) : Text.trim text = text := h.isProper.2

theorem load_eq_error : load env file = .error f ↔
    Trips env file f ∨ ∃ c, f = .complaint (.setting c) ∧ Refuses env file c := by
  simp only [load, bind_eq_error, require_eq_ok, require_eq_error, paramName_eq_ok,
    paramName_eq_error, Url.normalize_eq_error_iff]
  -- one setting is asked for after the other, and the address is taken apart when all are there
  constructor
  · rintro (⟨rfl, hurl⟩ | ⟨url, hurl, ⟨rfl, huser⟩ | ⟨user, huser, ⟨rfl, htoken⟩ |
      ⟨token, htoken, ⟨rfl, hthere, hkind⟩ | ⟨param, hparam, hreject | ⟨_, _, hdone⟩⟩⟩⟩⟩)
    · exact .inr ⟨_, rfl, .noUrl hurl⟩
    · exact .inr ⟨_, rfl, .noUser hurl huser⟩
    · exact .inr ⟨_, rfl, .noToken hurl huser htoken⟩
    · exact .inl (.branchParam hurl huser htoken (said_iff.mpr rfl) hthere hkind)
    · rw [hurl.trim] at hreject
      generalize hsplit : Url.split url = parts at hreject
      cases hreject with
      | malformed => exact .inl (.address hurl huser htoken (said_iff.mpr rfl) hparam hsplit)
      | notAbsolute h =>
        exact .inr ⟨_, rfl, .noServer hurl huser htoken (said_iff.mpr rfl) hparam
          (hsplit ▸ .notAbsolute h)⟩
      | wrongScheme hscheme hhost hhttp hhttps =>
        exact .inr ⟨_, rfl, .noServer hurl huser htoken (said_iff.mpr rfl) hparam
          (hsplit ▸ .wrongScheme hscheme hhost hhttp hhttps)⟩
    · cases hdone
  · rintro (htrips | ⟨c, rfl, hrefuse⟩)
    · cases htrips with
      | branchParam hurl huser htoken hsaid hthere hkind =>
        rw [said_iff.mp hsaid] at hthere hkind
        exact .inr ⟨_, hurl, .inr ⟨_, huser, .inr ⟨_, htoken, .inl ⟨rfl, hthere, hkind⟩⟩⟩⟩
      | address hurl huser htoken hsaid hparam hsplit =>
        rw [said_iff.mp hsaid] at hparam
        refine .inr ⟨_, hurl, .inr ⟨_, huser, .inr ⟨_, htoken, .inr ⟨_, hparam, .inl ?_⟩⟩⟩⟩
        rw [hurl.trim, hsplit]
        exact .malformed
    · cases hrefuse with
      | noUrl hurl => exact .inl ⟨rfl, hurl⟩
      | noUser hurl huser => exact .inr ⟨_, hurl, .inl ⟨rfl, huser⟩⟩
      | noToken hurl huser htoken => exact .inr ⟨_, hurl, .inr ⟨_, huser, .inl ⟨rfl, htoken⟩⟩⟩
      | noServer hurl huser htoken hsaid hparam hreject =>
        rw [said_iff.mp hsaid] at hparam
        refine .inr ⟨_, hurl, .inr ⟨_, huser, .inr ⟨_, htoken, .inr ⟨_, hparam, .inl ?_⟩⟩⟩⟩
        rwa [hurl.trim]

theorem fileObject_eq_error : fileObject entry = .error f ↔ Roster.Unreadable entry f := by
  constructor
  · intro h
    cases entry with
    | absent | directory => cases h
    | binary => exact Except.error.inj h ▸ .binary
    | text text =>
      rw [fileObject] at h
      split at h
      · cases h
      · cases h
      · cases h
      · next hread => exact Except.error.inj h ▸ .digits hread
      · next hread => exact Except.error.inj h ▸ .deep hread
  · rintro (_ | hread | hread)
    · rfl
    · rw [fileObject, hread]
    · rw [fileObject, hread]

theorem gather_eq_ok : gather env entry = .ok settings ↔
    ∃ file, fileObject entry = .ok file ∧ Gathered env file settings := by
  simp only [gather, bind_eq_ok, load_eq_ok]

theorem gather_eq_error : gather env entry = .error f ↔ Roster.Unreadable entry f ∨
    ∃ file, fileObject entry = .ok file ∧
      (Trips env file f ∨ ∃ c, f = .complaint (.setting c) ∧ Refuses env file c) := by
  simp only [gather, bind_eq_error, fileObject_eq_error, load_eq_error]

/-! ### The whole -/

/-- The profile is as it is in the sources: nothing or a text, just when the variable is set and not
empty, or the file holds nothing or a text for it. -/
theorem Said.isText_iff (h : Said env file name key v) :
    (v = .null ∨ ∃ text, v = .str text) ↔ (∃ text, env.lookup name = some text ∧ text ≠ "") ∨
      file.field key = .null ∨ ∃ text, file.field key = .str text := by
  cases h with
  | environment h hne => exact ⟨fun _ => .inl ⟨_, h, hne⟩, fun _ => .inr ⟨_, rfl⟩⟩
  | member h => exact (or_iff_right fun ⟨text, htext, hne⟩ => hne (h text htext)).symm

/-- **The settings of a run.**  Whatever the environment and the settings file are, gathering the
settings gives those of the two sources, or it ends with a complaint about a required setting, or
with another fault just when the file cannot be read, or the parameter for the branch is no text,
or the host in the address is malformed.  User, token and parameter are then proper texts.  The
profile is nothing or a text unless the environment leaves it to the file and the file holds
something else. -/
theorem gathered_from_sources (env : Environment) (entry : Entry) :
    (∀ settings, gather env entry = .ok settings ↔
      ∃ file, fileObject entry = .ok file ∧ Gathered env file settings) ∧
    (∀ f, gather env entry = .error f ↔ Roster.Unreadable entry f ∨
      ∃ file, fileObject entry = .ok file ∧
        (Trips env file f ∨ ∃ c, f = .complaint (.setting c) ∧ Refuses env file c)) ∧
    ∀ file settings, fileObject entry = .ok file → gather env entry = .ok settings →
      IsProper settings.user ∧ IsProper settings.token ∧ IsProper settings.branchParam ∧
      ((settings.profile = .null ∨ ∃ text, settings.profile = .str text) ↔
        (∃ text, env.lookup "JENKINS_PROFILE" = some text ∧ text ≠ "") ∨
          file.field "profileName" = .null ∨ ∃ text, file.field "profileName" = .str text) := by
  refine ⟨fun _ => gather_eq_ok, fun _ => gather_eq_error, fun file settings hfile h => ?_⟩
  obtain ⟨found, hfound, hall⟩ := gather_eq_ok.mp h
  obtain rfl := Except.ok.inj (hfound.symm.trans hfile)
  obtain ⟨v, -, hparam⟩ := hall.branchParam
  exact ⟨hall.user.isProper, hall.token.isProper, hparam.isProper, hall.profile.isText_iff⟩

/-! ### Some sources -/

theorem fileObject_of_read {members : List (String × Json)}
    (h : Json.read text = .ok (.object members)) :
    fileObject (.text text) = .ok (.object members) := by
  rw [fileObject, h]

/-- A settings file with one member that is a whole number. -/
theorem fileObject_number (key : String) (n : Int)
    (h : (Nat.toDigits 10 n.natAbs).length ≤ Text.maxDigits) :
    fileObject (.text (Json.object [(key, .int n)]).document) = .ok (.object [(key, .int n)]) := by
  have hshaped : Json.Shaped 1 (.object [(key, .int n)]) :=
    .object (List.nodup_singleton key)
      (List.forall_mem_cons.mpr ⟨.int (n := 0) h, List.forall_mem_nil _⟩)
  exact fileObject_of_read (Json.read_shaped hshaped (by decide))

/-- A text that is not blank in the variable of a required setting is what is given. -/
theorem gives_of_lookup {said : String} (h : env.lookup setting.variable = some said)
    (htrim : Text.trim said = text) (hne : text ≠ "") : Gives env file setting text := by
  have hsaid : said ≠ "" := by
    rintro rfl
    exact hne (htrim ▸ Text.trim_empty)
  exact ⟨.str said, .environment h hsaid, bne_iff_ne.mpr hsaid, htrim.symm, hne⟩

theorem said_of_unset (h : env.lookup name = none) : Said env file name key (file.field key) := by
  refine .member fun text htext => ?_
  rw [h] at htext
  cases htext

/-- An environment with an address, a user and a token, and nothing else. -/
def given (url : String) : Environment :=
  [("JENKINS_URL", url), ("JENKINS_USER", "alice"), ("JENKINS_API_TOKEN", "t")]

theorem given_user (url : String) (file : Json) : Gives (given url) file .user "alice" :=
  gives_of_lookup rfl (by decide) (by decide)

theorem given_token (url : String) (file : Json) : Gives (given url) file .token "t" :=
  gives_of_lookup rfl (by decide) (by decide)

theorem given_url (file : Json) : Gives (given " https://h/ ") file .url "https://h/" :=
  gives_of_lookup rfl (by decide) (by decide)

theorem normalize_given : Url.normalize "https://h/" = .ok "https://h" :=
  Url.normalize_eq_ok_iff.mpr ⟨by decide, ⟨"https", "h"⟩, by decide, by decide, .inr rfl⟩

/-- What the file says about the rest is gathered with what is given. -/
theorem gathered_given (h : (file.field "branchParam").truthy = false) :
    Gathered (given " https://h/ ") file {
      url := "https://h", user := "alice", token := "t"
      useCrumb := (file.field "useCrumb").truthy, profile := file.field "profileName" } where
  url := ⟨_, given_url file, normalize_given⟩
  user := given_user _ file
  token := given_token _ file
  branchParam := ⟨_, said_of_unset rfl, .absent h⟩
  useCrumb := rfl
  profile := said_of_unset rfl

/-- Without a settings file the settings are those of the environment. -/
theorem gathered_without_file : gather (given " https://h/ ") .absent =
    .ok { url := "https://h", user := "alice", token := "t" } :=
  ((gathered_from_sources (given " https://h/ ") .absent).1 _).mpr ⟨_, rfl, gathered_given rfl⟩

/-- Not everything that stops the gathering is a complaint: not a file that is no text, a number
for the parameter, or a malformed host.  And the profile may be a number. -/
theorem not_always_complaint_or_text :
    gather (given " https://h/ ") .binary = .error .notText ∧
    (∃ text, gather (given " https://h/ ") (.text text) = .error .noAttribute) ∧
    gather (given "http://[") .absent = .error .badValue ∧
    ∃ text settings, gather (given " https://h/ ") (.text text) = .ok settings ∧
      settings.profile = .int 5 := by
  refine ⟨rfl, ⟨_, gather_eq_error.mpr (.inr ⟨_, fileObject_number "branchParam" 5 (by decide),
    .inl ?_⟩)⟩, gather_eq_error.mpr (.inr ⟨_, rfl, .inl ?_⟩), _, _,
    gather_eq_ok.mpr ⟨_, fileObject_number "profileName" 5 (by decide), gathered_given rfl⟩, rfl⟩
  · exact .branchParam (given_url _) (given_user _ _) (given_token _ _) (said_of_unset rfl)
      rfl nofun
  · have hurl : Gives (given "http://[") (.object []) .url "http://[" :=
      gives_of_lookup rfl (by decide) (by decide)
    exact .address hurl (given_user _ _) (given_token _ _) (said_of_unset rfl) (.absent rfl)
      (by decide)

end BuildDesk.Settings
