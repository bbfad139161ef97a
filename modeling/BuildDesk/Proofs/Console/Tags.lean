/-
Tags in marked-up texts.

Whether a marked-up text can be shown depends on its tags alone, and a text that is put between
two texts without brackets and backslashes brings all the tags that there are.  So a message with
one slot can be shown in one language just when it can be shown in every other:

* `tagging` — what the tags of a text come to, apart from what is shown; `render_unit` — the text
  is shown just when they fit;
* `tokens_frame` — a text within an inert frame is cut as it is cut by itself;
* `Phrase.tagging_say`, `Phrase.tagging_say_plain` — the tags of a message are those of its
  argument, and a message without slots has none.
-/
import BuildDesk.Console.Markup
import BuildDesk.Proofs.Message.Filling

namespace BuildDesk.Console

/-! ### What tags come to -/

/-- What the tags among tokens come to, for the tags that are open. -/
def checkTags (opened : List Opened) : List Token → Except Misfit Unit
  | [] => .ok ()
  | .char _ :: rest => checkTags opened rest
  | .tag slashes body :: rest =>
    if slashes % 2 == 1 then checkTags opened rest
    else do checkTags (← applyTag opened body) rest

/-- What the tags of a text come to. -/
def tagging (s : String) : Except Misfit Unit := checkTags [] (tokens s.toList)

theorem checkTags_chars (opened : List Opened) (text : List Char) (rest : List Token) :
    checkTags opened (text.map .char ++ rest) = checkTags opened rest := by
  induction text with
  | nil => rfl
  | cons c text ih => exact ih

theorem checkTags_append_chars (opened : List Opened) (ts : List Token) (text : List Char) :
    checkTags opened (ts ++ text.map .char) = checkTags opened ts := by
  induction ts generalizing opened with
  | nil => exact (congrArg _ (List.append_nil _).symm).trans (checkTags_chars opened text [])
  | cons t ts ih =>
    cases t with
    | char c => exact ih opened
    | tag slashes body =>
      simp only [List.cons_append, checkTags, ih]

/-- Tokens are shown just when their tags fit. -/
theorem showTokens_unit (opened : List Opened) (plain : List Char) (ts : List Token) :
    (showTokens opened plain ts).map (fun _ => ()) = checkTags opened ts := by
  induction ts generalizing opened plain with
  | nil => rfl
  | cons t ts ih =>
    cases t with
    | char c => exact ih opened (c :: plain)
    | tag slashes body =>
      have hrest : ∀ opened' (front : List Char),
          (do pure (front ++ (← showTokens opened' [] ts)) : Except Misfit _).map (fun _ => ())
            = checkTags opened' ts := by
        intro opened' front
        rw [← ih opened' []]
        cases showTokens opened' [] ts <;> rfl
      rw [showTokens, checkTags]
      by_cases hodd : slashes % 2 == 1
      · simp only [hodd, if_true]
        exact hrest opened _
      · simp only [hodd]
        cases applyTag opened body with
        | error misfit => rfl
        | ok opened' => exact hrest opened' _

/-- A text is shown just when its tags fit. -/
theorem render_unit (s : String) : (render s).map (fun _ => ()) = tagging s := by
  rw [tagging, ← showTokens_unit [] [], render]
  cases showTokens [] [] (tokens s.toList) <;> rfl

/-! ### Frames -/

/-- The text neither begins nor ends a tag, and escapes none. -/
def isInert (s : List Char) : Bool := s.all fun c => c != '[' && c != ']' && c != '\\'

variable {pre post : List Char}

theorem isInert_iff : isInert pre = true ↔ ∀ c ∈ pre, c ≠ '[' ∧ c ≠ ']' ∧ c ≠ '\\' := by
  simp [isInert, and_assoc]

theorem isInert_append (hpre : isInert pre = true) (hpost : isInert post = true) :
    isInert (pre ++ post) = true := by
  rw [isInert, List.all_append]
  exact Bool.and_eq_true_iff.mpr ⟨hpre, hpost⟩

/-- Inert text is cut into characters. -/
theorem tokensFrom_inert (h : isInert pre = true) (rest : List Char) :
    tokensFrom 0 0 (pre ++ rest) = pre.map .char ++ tokensFrom 0 0 rest := by
  rw [isInert_iff] at h
  induction pre with
  | nil => rfl
  | cons c pre ih =>
    obtain ⟨hopen, -, hslash⟩ := h c List.mem_cons_self
    have hrest := ih fun d hd => h d (List.mem_cons_of_mem _ hd)
    simp [tokensFrom, hopen, hslash, slashTokens, hrest]

/-- What a tag may hold. -/
def isInner (c : Char) : Bool := c != ']' && c != '['

theorem tagBody?_eq (s : List Char) : tagBody? s =
    match s.takeWhile isInner, s.drop (s.takeWhile isInner).length with
    | c :: _, ']' :: _ => if beginsTag c then some (s.takeWhile isInner) else none
    | _, _ => none := rfl

/-- The body of a tag is what stands before the bracket that closes it. -/
theorem tagBody?_eq_some {s body : List Char} : tagBody? s = some body ↔
    ∃ c inner rest, body = c :: inner ∧ beginsTag c = true ∧ (∀ d ∈ body, isInner d = true) ∧
      s = body ++ ']' :: rest := by
  have hsplit : s.takeWhile isInner ++ s.drop (s.takeWhile isInner).length = s := by
    obtain ⟨rest, hrest⟩ := List.takeWhile_prefix (l := s) isInner
    have hdrop := congrArg (List.drop (s.takeWhile isInner).length) hrest
    rw [List.drop_left] at hdrop
    rw [← hdrop]
    exact hrest
  constructor
  · intro h
    rw [tagBody?_eq] at h
    split at h
    · rename_i c inner rest hbody hrest
      split at h
      · rename_i hbegins
        obtain rfl := Option.some.inj h
        refine ⟨c, inner, rest, hbody, hbegins, fun d hd => List.mem_takeWhile_imp hd, ?_⟩
        rw [← hrest]
        exact hsplit.symm
      · cases h
    · cases h
  · rintro ⟨c, inner, rest, rfl, hbegins, hinner, rfl⟩
    have htake : (c :: inner ++ ']' :: rest).takeWhile isInner = c :: inner := by
      rw [List.takeWhile_append_of_pos hinner, List.takeWhile_cons]
      simp [isInner]
    rw [tagBody?_eq, htake, List.drop_left]
    exact if_pos hbegins

/-- Inert text behind a text makes no tag of it. -/
theorem tagBody?_append (s : List Char) (h : isInert post = true) :
    tagBody? (s ++ post) = tagBody? s := by
  have hpost : ']' ∉ post := fun hmem => (isInert_iff.mp h _ hmem).2.1 rfl
  refine Option.ext fun body => ?_
  rw [tagBody?_eq_some, tagBody?_eq_some]
  constructor
  · rintro ⟨c, inner, rest, hbody, hbegins, hinner, hs⟩
    -- the closing bracket stands in the text, since there is none behind it
    rcases List.append_eq_append_iff.mp hs with ⟨more, -, hmore⟩ | ⟨more, rfl, hmore⟩
    · exact absurd (hmore ▸ by simp) hpost
    · cases more with
      | nil => exact absurd (List.nil_append post ▸ hmore ▸ List.mem_cons_self) hpost
      | cons d more =>
        obtain ⟨rfl, -⟩ := List.cons.inj hmore
        exact ⟨c, inner, more, hbody, hbegins, hinner, rfl⟩
  · rintro ⟨c, inner, rest, hbody, hbegins, hinner, rfl⟩
    exact ⟨c, inner, rest ++ post, hbody, hbegins, hinner, by simp⟩

/-- Inert text behind a text adds characters to its tokens. -/
theorem tokensFrom_append (skip slashes : Nat) (s : List Char) (hskip : skip ≤ s.length)
    (h : isInert post = true) :
    tokensFrom skip slashes (s ++ post) = tokensFrom skip slashes s ++ post.map .char := by
  induction s generalizing skip slashes with
  | nil =>
    obtain rfl : skip = 0 := Nat.le_zero.mp hskip
    cases post with
    | nil => simp [tokensFrom]
    | cons c post =>
      obtain ⟨hopen, -, hslash⟩ := isInert_iff.mp h c List.mem_cons_self
      have hpost : isInert post = true :=
        isInert_iff.mpr fun d hd => isInert_iff.mp h d (List.mem_cons_of_mem _ hd)
      have hrest := tokensFrom_inert hpost []
      simp only [List.append_nil] at hrest
      simp [tokensFrom, hopen, hslash, hrest, slashTokens]
  | cons c s ih =>
    have hlength : s.length + 1 = (c :: s).length := rfl
    rw [List.cons_append, tokensFrom, tokensFrom, tagBody?_append s h]
    split
    · exact ih _ _ (by omega)
    · split
      · exact ih _ _ (Nat.zero_le _)
      · split
        · cases hbody : tagBody? s with
          | none => simp [ih 0 0 (Nat.zero_le _)]
          | some body =>
            obtain ⟨d, inner, rest, -, -, -, hs⟩ := tagBody?_eq_some.mp hbody
            have hfits : body.length + 1 ≤ s.length := by
              rw [hs, List.length_append, List.length_cons]
              omega
            simp [ih _ 0 hfits]
        · simp [ih 0 0 (Nat.zero_le _)]

/-- A text within an inert frame is cut as it is cut by itself. -/
theorem tokens_frame (s : List Char) (hpre : isInert pre = true) (hpost : isInert post = true) :
    tokens (pre ++ s ++ post) = pre.map .char ++ tokens s ++ post.map .char := by
  rw [tokens, List.append_assoc, tokensFrom_inert hpre,
    tokensFrom_append 0 0 s (Nat.zero_le _) hpost,
    List.append_assoc]
  rfl

/-- The tags of a text are not changed by an inert frame. -/
theorem tagging_frame {before after : String} (s : String) (hbefore : isInert before.toList = true)
    (hafter : isInert after.toList = true) : tagging (before ++ s ++ after) = tagging s := by
  rw [tagging, String.toList_append, String.toList_append, tokens_frame _ hbefore hafter,
    List.append_assoc, checkTags_chars, checkTags_append_chars, tagging]

/-- An inert text has no tags. -/
theorem tagging_inert {s : String} (h : isInert s.toList = true) : tagging s = .ok () := by
  have hframe := tagging_frame "" h (by decide : isInert "".toList = true)
  simpa [tagging, tokens, tokensFrom, slashTokens, checkTags] using hframe

end Console

/-! ### Messages -/

open Console

namespace Wording

/-- The plain text of the wording is inert. -/
def isInert (w : Wording) : Bool :=
  w.all fun
    | .plain text => Console.isInert text.toList
    | .named _ => true

variable {w : Wording}

theorem isInert_fill (hw : w.isInert = true) (hslots : w.slots = []) (value : String → String) :
    Console.isInert (w.fill value).toList = true := by
  induction w with
  | nil => rfl
  | cons f w ih =>
    cases f with
    | named name => cases hslots
    | plain text =>
      obtain ⟨htext, hrest⟩ : Console.isInert text.toList = true ∧ isInert w = true := by
        simpa [isInert] using hw
      have hfill : fill value (.plain text :: w) = text ++ fill value w := by simp [fill]
      rw [hfill, String.toList_append]
      exact isInert_append htext (ih hrest hslots)

/-- A wording with one slot frames the value that is put there. -/
theorem fill_frame {name : String} (hw : w.isInert = true) (hslots : w.slots = [name]) :
    ∃ before after : String, Console.isInert before.toList = true ∧
      Console.isInert after.toList = true ∧
        ∀ value, w.fill value = before ++ value name ++ after := by
  induction w with
  | nil => cases hslots
  | cons f w ih =>
    cases f with
    | plain text =>
      obtain ⟨htext, hrest⟩ : Console.isInert text.toList = true ∧ isInert w = true := by
        simpa [isInert] using hw
      obtain ⟨before, after, hbefore, hafter, heq⟩ := ih hrest hslots
      refine ⟨text ++ before, after, ?_, hafter, fun value => ?_⟩
      · rw [String.toList_append]
        exact isInert_append htext hbefore
      · have hfill : fill value (.plain text :: w) = text ++ fill value w := by simp [fill]
        rw [hfill, heq, String.append_assoc, String.append_assoc, String.append_assoc]
    | named other =>
      obtain ⟨rfl, hrest⟩ := List.cons.inj hslots
      have hw' : isInert w = true := by simpa [isInert] using hw
      refine ⟨"", template w, rfl, ?_, fun value => ?_⟩
      · rw [template_of_slots hrest id]
        exact isInert_fill hw' hrest id
      · rw [template_of_slots hrest value]
        simp [fill]

end Wording

namespace Phrase

variable {p : Phrase} {lang : Lang}

/-- A message with one slot frames the text of its argument. -/
theorem say_frame {name : String} (hinert : (p.wording lang).isInert = true)
    (hslots : (p.wording lang).slots = [name]) :
    ∃ before after : String, Console.isInert before.toList = true ∧
      Console.isInert after.toList = true ∧ ∀ (v : Json) (args : Arguments),
        args.lookup name = some v → p.say lang args = before ++ v.text ++ after := by
  obtain ⟨before, after, hbefore, hafter, hfill⟩ := Wording.fill_frame hinert hslots
  refine ⟨before, after, hbefore, hafter, fun v args hv => ?_⟩
  rw [← hfill fun _ => v.text]
  refine say_eq _ fun other hother => ⟨v, ?_, rfl⟩
  rw [hslots, List.mem_singleton] at hother
  rw [hother, hv]

/-- **The tags of a message** with one slot are those of its argument. -/
theorem tagging_say {name : String} {v : Json} {args : Arguments}
    (hinert : (p.wording lang).isInert = true) (hslots : (p.wording lang).slots = [name])
    (hv : args.lookup name = some v) : tagging (p.say lang args) = tagging v.text := by
  obtain ⟨before, after, hbefore, hafter, hsay⟩ := say_frame hinert hslots
  rw [hsay v args hv, tagging_frame _ hbefore hafter]

/-- A message without slots has no tags. -/
theorem tagging_say_plain (hinert : (p.wording lang).isInert = true)
    (hslots : (p.wording lang).slots = []) : tagging (p.say lang []) = .ok () := by
  have hsay : p.say lang [] = (p.wording lang).fill id :=
    say_eq _ fun name hname => by rw [hslots] at hname; cases hname
  rw [hsay, tagging_inert (Wording.isInert_fill hinert hslots id)]

end Phrase
end BuildDesk
