/-
Arguments stay verbatim.

What an argument says is put into a message as it is: braces and layouts in it mean nothing, and
neither do they when a message with its arguments becomes an argument of the next one, as every
question does that is shown with the server it is about.

What a message should say is read off the text that is registered for it.  Every name between
braces stands for its argument, all at once, and everything else for itself; there is one text
that comes of this (`Filled.unique`).  The messages of the program say that text
(`arguments_stay_verbatim`).

* `Filled` — a text with the names between its braces replaced;
* `Supplies` — arguments that give a text for every slot of a wording, and nothing else;
* `Phrase.key_injective`, `Catalog.lookup_standard` — every message is found under its key.
-/
import BuildDesk.Proofs.Message.Filling
import BuildDesk.Settings
import Mathlib.Data.List.Nodup

namespace BuildDesk

/-! ### Names between braces -/

namespace Template

/-- The character is no brace. -/
def IsPlain (c : Char) : Prop := c ≠ '\x7b' ∧ c ≠ '\x7d'

/-- A text, with what comes of it once every name between braces is replaced by its value. -/
inductive Filled (value : String → String) : List Char → List Char → Prop
  | nil : Filled value [] []
  | plain {c : Char} {text said : List Char} (hc : IsPlain c) (h : Filled value text said) :
      Filled value (c :: text) (c :: said)
  | slot {name text said : List Char} (hname : ∀ c ∈ name, IsPlain c)
      (h : Filled value text said) :
      Filled value ('\x7b' :: (name ++ '\x7d' :: text))
        ((value (String.ofList name)).toList ++ said)

/-- Two names that end at the first closing brace are the same, and so is what follows them. -/
theorem eq_of_closed {name name' text text' : List Char} (hname : ∀ c ∈ name, IsPlain c)
    (hname' : ∀ c ∈ name', IsPlain c) (h : name ++ '\x7d' :: text = name' ++ '\x7d' :: text') :
    name = name' ∧ text = text' := by
  induction name generalizing name' with
  | nil =>
    cases name' with
    | nil => exact ⟨rfl, (List.cons.inj h).2⟩
    | cons c name' => exact absurd (List.cons.inj h).1.symm (hname' c List.mem_cons_self).2
  | cons c name ih =>
    cases name' with
    | nil => exact absurd (List.cons.inj h).1 (hname c List.mem_cons_self).2
    | cons c' name' =>
      obtain ⟨rfl, hrest⟩ := List.cons.inj h
      obtain ⟨rfl, rfl⟩ := ih (List.forall_mem_cons.mp hname).2 (List.forall_mem_cons.mp hname').2
        hrest
      exact ⟨rfl, rfl⟩

namespace Filled

variable {value : String → String} {text said said' : List Char}

theorem unique (h : Filled value text said) (h' : Filled value text said') : said = said' := by
  induction h generalizing said' with
  | nil => cases h'; rfl
  | plain hc h ih =>
    cases h' with
    | plain _ h' => rw [ih h']
    | slot _ _ => exact absurd rfl hc.1
  | @slot name text said hname h ih =>
    generalize hwhole : '\x7b' :: (name ++ '\x7d' :: text) = whole at h'
    cases h' with
    | nil => cases hwhole
    | plain hc _ => exact absurd (List.cons.inj hwhole).1.symm hc.1
    | slot hname' h' =>
      obtain ⟨rfl, rfl⟩ := eq_of_closed hname hname' (List.cons.inj hwhole).2
      rw [ih h']

/-- Characters that are no braces stand for themselves. -/
theorem append_plain {front : List Char} (hfront : ∀ c ∈ front, IsPlain c)
    (h : Filled value text said) : Filled value (front ++ text) (front ++ said) := by
  induction front with
  | nil => exact h
  | cons c front ih =>
    obtain ⟨hc, hrest⟩ := List.forall_mem_cons.mp hfront
    exact .plain hc (ih hrest)

end Filled
end Template

open Template (IsPlain Filled)

/-- The filled wording is what comes of its template. -/
theorem Wording.filled_template (value : String → String) {w : Wording} (h : w.isSound = true) :
    Filled value w.template.toList (w.fill value).toList := by
  induction w with
  | nil => exact .nil
  | cons f w ih =>
    obtain ⟨hf, hw⟩ : f.isSound = true ∧ Wording.isSound w = true := by
      simpa [Wording.isSound] using h
    cases f with
    | plain text =>
      have hplain : ∀ c ∈ text.toList, IsPlain c := by simpa [Fragment.isSound, IsPlain] using hf
      simpa [Wording.template, Wording.fill, Wording.fragmentTemplate] using
        (ih hw).append_plain hplain
    | named name =>
      have hname : ∀ c ∈ name.toList, IsPlain c := by
        simp only [Fragment.isSound, Bool.and_eq_true, Bool.not_eq_true', List.all_eq_true] at hf
        intro c hc
        obtain ⟨hopen, hclose, -⟩ := Template.ne_of_not_isSign (hf.2 c hc).1
        exact ⟨hopen, hclose⟩
      simpa [Wording.template, Wording.fill, Wording.fragmentTemplate] using
        Filled.slot hname (ih hw)

/-! ### Messages under their keys -/

theorem Notice.mem_all (n : Notice) : n ∈ all := by cases n <;> decide

theorem Dialog.mem_all (d : Dialog) : d ∈ all := by cases d <;> decide

theorem Notice.nodup_keys : (all.map fun n => n.entry.key).Nodup := by decide +kernel

theorem Dialog.nodup_keys : (all.map fun d => d.entry.key).Nodup := by decide +kernel

namespace Phrase

theorem mem_all (p : Phrase) : p ∈ all := by
  cases p with
  | notice n => exact List.mem_append_left _ (List.mem_map_of_mem n.mem_all)
  | dialog d => exact List.mem_append_right _ (List.mem_map_of_mem d.mem_all)

/-- No two messages have the same key. -/
theorem key_injective : Function.Injective key := by
  intro p q h
  cases p with
  | notice n =>
    cases q with
    | notice m =>
      have hkey : n.entry.key = m.entry.key := (String.append_right_inj _).mp h
      rw [List.inj_on_of_nodup_map Notice.nodup_keys n.mem_all m.mem_all hkey]
    | dialog d =>
      have hhead := congrArg (fun key => key.toList.head?) h
      simp [key, entry] at hhead
  | dialog d =>
    cases q with
    | notice n =>
      have hhead := congrArg (fun key => key.toList.head?) h
      simp [key, entry] at hhead
    | dialog e =>
      have hkey : d.entry.key = e.entry.key := (String.append_right_inj _).mp h
      rw [List.inj_on_of_nodup_map Dialog.nodup_keys d.mem_all e.mem_all hkey]

/-- No slot has a name that says which message is meant. -/
theorem slots_unreserved : ∀ p ∈ all, ∀ lang ∈ [Lang.en, Lang.ko],
    ∀ name ∈ (p.wording lang).slots, Catalog.reserved.contains name = false := by
  decide +kernel

end Phrase

/-- The message of a key is found under it in both languages. -/
theorem Catalog.lookup_standard (p : Phrase) :
    Catalog.standard.lookup p.key = some (.object
      [("ko", .str (p.wording .ko).template), ("en", .str (p.wording .en).template)]) := by
  have hfound : ∀ {l : List Phrase}, p ∈ l →
      (l.map fun q => (q.key, Json.object
        [("ko", .str (q.wording .ko).template), ("en", .str (q.wording .en).template)])).lookup p.key
      = some (.object
        [("ko", .str (p.wording .ko).template), ("en", .str (p.wording .en).template)]) := by
    intro l hp
    induction l with
    | nil => cases hp
    | cons q l ih =>
      rw [List.map_cons, List.lookup_cons]
      by_cases hq : p = q
      · rw [hq, beq_self_eq_true]
      · have hother : (p.key == q.key) = false :=
          beq_eq_false_iff_ne.mpr fun h => hq (Phrase.key_injective h)
        rw [hother]
        exact ih ((List.mem_cons.mp hp).resolve_left hq)
  exact hfound p.mem_all

/-- The keys of the catalogue are those of the messages. -/
theorem Catalog.mem_keys_standard {key : String} :
    key ∈ Catalog.standard.map Prod.fst ↔ ∃ p : Phrase, p.key = key := by
  rw [Catalog.standard, List.map_map, List.mem_map]
  exact ⟨fun ⟨p, _, hp⟩ => ⟨p, hp⟩, fun ⟨p, hp⟩ => ⟨p, p.mem_all, hp⟩⟩

/-! ### What is said -/

/-- The arguments give a text for every slot of a wording, and nothing else. -/
structure Supplies (args : Arguments) (value : String → String) (w : Wording) : Prop where
  given : ∀ name ∈ w.slots, args.lookup name = some (.str (value name))
  only : ∀ arg ∈ args, arg.1 ∈ w.slots

variable {args : Arguments} {value : String → String} {p : Phrase} {lang : Lang}

theorem Supplies.fillSoftly (h : Supplies args value (p.wording lang)) :
    Template.fillSoftly (p.wording lang).template args = .ok ((p.wording lang).fill value) :=
  Phrase.fillSoftly_eq value fun name hname => ⟨_, h.given name hname, rfl⟩

theorem Supplies.say (h : Supplies args value (p.wording lang)) :
    p.say lang args = (p.wording lang).fill value := by
  rw [Phrase.say, h.fillSoftly]

/-- The catalogue says under the key of a message what the message says. -/
theorem Supplies.say_standard (h : Supplies args value (p.wording lang)) :
    Catalog.standard.say p.key lang args = .ok (.str ((p.wording lang).fill value)) := by
  have hfree : (args.any fun arg => Catalog.reserved.contains arg.1) = false := by
    rw [List.any_eq_false]
    intro arg harg
    have hlang : lang ∈ [Lang.en, Lang.ko] := by cases lang <;> decide
    exact Bool.eq_false_iff.mp (Phrase.slots_unreserved p p.mem_all lang hlang _ (h.only arg harg))
  have htemplate : Catalog.template
      [("ko", .str (p.wording .ko).template), ("en", .str (p.wording .en).template)] p.key lang =
      .str (p.wording lang).template := by
    cases lang <;> rfl
  rw [Catalog.say, if_neg (Bool.eq_false_iff.mp hfree), Catalog.lookup_standard, Option.getD_some]
  dsimp only
  rw [htemplate]
  dsimp only
  rw [h.fillSoftly]
  rfl

theorem wording_targetSuffix (lang : Lang) : Phrase.wording (.dialog .targetSuffix) lang =
    [.named "message", .plain " [", .named "target", .plain "]"] := by
  cases lang <;> rfl

/-- A question and its server are the two arguments of one message. -/
theorem say_targetSuffix (lang : Lang) (question target : String) :
    Phrase.say lang Dialog.targetSuffix [("message", .str question), ("target", .str target)] =
      question ++ " [" ++ target ++ "]" := by
  have hargs : Supplies [("message", .str question), ("target", .str target)]
      (fun name => if name = "message" then question else target)
      (Phrase.wording (.dialog .targetSuffix) lang) := by
    rw [wording_targetSuffix]
    refine ⟨?_, ?_⟩
    · simp [Wording.slots, List.lookup_cons]
    · simp [Wording.slots]
  rw [hargs.say, wording_targetSuffix]
  simp [Wording.fill, String.append_assoc]

/-- A question with the server it is about has the server behind it, in brackets. -/
theorem addressed_eq (settings : Settings) (lang : Lang) (question : String) :
    settings.addressed lang question =
      settings.target.map fun target => question ++ " [" ++ target ++ "]" := by
  rw [Settings.addressed]
  cases settings.target with
  | error f => rfl
  | ok target => exact congrArg Except.ok (say_targetSuffix lang question target)

/-- A profile that is a text, or none, can be named with the server. -/
theorem exists_target {settings : Settings}
    (h : settings.profile = .null ∨ ∃ name, settings.profile = .str name) :
    ∃ target, settings.target = .ok target := by
  have hlabel : ∃ label, Settings.profileLabel settings.profile = .ok label := by
    unfold Settings.profileLabel
    rcases h with hnone | ⟨name, hname⟩
    · rw [hnone]
      exact ⟨_, rfl⟩
    · rw [hname, Json.orElse]
      by_cases hthere : (Json.str name).truthy = true
      · rw [if_pos hthere]
        exact ⟨_, rfl⟩
      · rw [if_neg hthere]
        exact ⟨_, rfl⟩
  obtain ⟨label, hlabel⟩ := hlabel
  refine ⟨"host: " ++ Settings.host settings.url ++ " | profile: " ++ label, ?_⟩
  rw [Settings.target, hlabel]
  rfl

/-- **Arguments stay verbatim.**  The keys of the catalogue are those of the messages.  Under each
of them, in both languages, a text is registered, and with a text for every name in it the message
says what comes of that text by putting each argument in the place of its name, and nothing else.
So it is when what a message says becomes the question of a prompt: it is shown as it is, with the
server behind it in brackets. -/
theorem arguments_stay_verbatim :
    (∀ key, key ∈ Catalog.standard.map Prod.fst ↔ ∃ p : Phrase, p.key = key) ∧
    (∀ (p : Phrase) (lang : Lang), ∃ texts text,
      Catalog.standard.lookup p.key = some (.object texts) ∧
      texts.lookup lang.code = some (.str text) ∧
      ∀ args value, Supplies args value (p.wording lang) → ∃ said,
        (∀ other, Filled value text.toList other ↔ other = said.toList) ∧
        Catalog.standard.say p.key lang args = .ok (.str said) ∧ p.say lang args = said) ∧
    ∀ settings : Settings,
      (settings.profile = .null ∨ (∃ name, settings.profile = .str name) →
        ∃ target, settings.target = .ok target) ∧
      ∀ lang question, settings.addressed lang question =
        settings.target.map fun target => question ++ " [" ++ target ++ "]" := by
  refine ⟨fun _ => Catalog.mem_keys_standard, fun p lang => ?_,
    fun settings => ⟨exists_target, fun lang question => addressed_eq settings lang question⟩⟩
  refine ⟨_, (p.wording lang).template, Catalog.lookup_standard p, by cases lang <;> rfl, ?_⟩
  intro args value hargs
  have hfilled := Wording.filled_template value (p.isSound_wording lang)
  refine ⟨(p.wording lang).fill value, fun other => ⟨fun h => h.unique hfilled, ?_⟩,
    hargs.say_standard, hargs.say⟩
  rintro rfl
  exact hfilled

/-- A label that looks like a template is shown as it is, in a question and with the server behind
it. -/
theorem braces_stay_verbatim :
    let label := "\x7btarget\x7d \x7b0!r:>9\x7d \x7d\x7b"
    let question := label ++ " 작업 선택"
    Catalog.standard.say "flow.action_for" .ko [("label", .str label)] = .ok (.str question) ∧
      Settings.addressed { url := "https://ci", user := "kim", token := "t" } .ko
          (Phrase.say .ko Dialog.actionFor [("label", .str label)]) =
        .ok (question ++ " [host: ci | profile: env/direct]") := by
  intro label question
  have hsupplies : Supplies [("label", .str label)] (fun _ => label)
      (Phrase.wording (.dialog .actionFor) .ko) := by
    constructor
    · intro name hname
      rw [List.mem_singleton.mp hname]
      rfl
    · intro arg harg
      rw [List.mem_singleton.mp harg]
      exact List.mem_singleton_self _
  obtain ⟨_, _, -, -, hsays⟩ :=
    arguments_stay_verbatim.2.1 (.dialog .actionFor) .ko
  obtain ⟨said, -, hsaid, hsay⟩ := hsays _ _ hsupplies
  have hquestion : said = question := hsay.symm.trans hsupplies.say
  rw [hquestion] at hsaid hsay
  refine ⟨hsaid, ?_⟩
  rw [hsay, (arguments_stay_verbatim.2.2 _).2]
  rfl

end BuildDesk
