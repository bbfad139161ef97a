/-
What marked-up texts show.

A text that is put between two texts without brackets and backslashes shows as it shows by itself
(`render_frame`).  It shows as it is just when it has no tag and no escaped bracket
(`render_eq_visible_iff`): anything else of that kind takes an opening bracket or a backslash away,
and nothing ever brings one back.  So the number of these characters tells, and not even spaces
in the place of tabs can hide it (`marks_line`).

* `HasTag`, `HasEscape` — the texts that do not show as they are;
* `isPlain_tokens_iff` — a text is cut into characters just when it has no tag;
* `marks_showTokens` — a tag costs a mark.
-/
import BuildDesk.Console.Output
import BuildDesk.Proofs.Console.Tags
import BuildDesk.Proofs.Text.SearchForm

namespace BuildDesk.Console

variable {pre post s : List Char}

/-! ### Frames -/

theorem dropEscapes_cons {c : Char} (h : c ≠ '\\') (s : List Char) :
    dropEscapes (c :: s) = c :: dropEscapes s := by
  cases s with
  | nil => rfl
  | cons d rest => rw [dropEscapes, if_neg (by simp [h])]

theorem dropEscapes_inert (h : isInert pre = true) (s : List Char) :
    dropEscapes (pre ++ s) = pre ++ dropEscapes s := by
  induction pre with
  | nil => rfl
  | cons c pre ih =>
    obtain ⟨hc, hpre⟩ := List.forall_mem_cons.mp (isInert_iff.mp h)
    rw [List.cons_append, dropEscapes_cons hc.2.2, ih (isInert_iff.mpr hpre), List.cons_append]

theorem dropEscapes_append (s : List Char) (h : isInert post = true) :
    dropEscapes (s ++ post) = dropEscapes s ++ post := by
  have hpost : dropEscapes post = post := by simpa [dropEscapes] using dropEscapes_inert h []
  induction s using dropEscapes.induct with
  | case1 => exact hpost
  | case2 c =>
    cases post with
    | nil => rfl
    | cons d post =>
      have hd := (isInert_iff.mp h d List.mem_cons_self).1
      show dropEscapes (c :: d :: post) = c :: d :: post
      rw [dropEscapes, if_neg (by simp [hd]), hpost]
  | case3 c d rest hescaped ih =>
    rw [List.cons_append, List.cons_append, dropEscapes, if_pos hescaped, ih, dropEscapes,
      if_pos hescaped, List.cons_append]
  | case4 c d rest hescaped ih =>
    rw [List.cons_append, List.cons_append, dropEscapes, if_neg hescaped, ← List.cons_append, ih,
      dropEscapes, if_neg hescaped, List.cons_append]

/-- Characters in front of tokens wait for the next tag. -/
theorem showTokens_chars (opened : List Opened) (plain text : List Char) (ts : List Token) :
    showTokens opened plain (text.map .char ++ ts) =
      showTokens opened (text.reverse ++ plain) ts := by
  induction text generalizing plain with
  | nil => rfl
  | cons c text ih =>
    rw [List.map_cons, List.cons_append, showTokens, ih, List.reverse_cons, List.append_assoc]
    rfl

/-- The open tags after a tag that some backslashes stand before. -/
def openedAfter (opened : List Opened) (slashes : Nat) (body : List Char) :
    Except Misfit (List Opened) :=
  if slashes % 2 == 1 then pure opened else applyTag opened body

/-- What a tag with some backslashes before it shows as. -/
def tagText (slashes : Nat) (body : List Char) : List Char :=
  List.replicate (slashes / 2) '\\' ++ if slashes % 2 == 1 then '[' :: body ++ [']'] else []

theorem showTokens_tag (opened : List Opened) (plain : List Char) (slashes : Nat)
    (body : List Char) (ts : List Token) : showTokens opened plain (.tag slashes body :: ts) =
      openedAfter opened slashes body >>= fun opened' =>
        (showTokens opened' [] ts).map
          (dropEscapes plain.reverse ++ tagText slashes body ++ ·) := by
  have hrest (opened' : List Opened) (shown : List Char) :
      (do pure (dropEscapes plain.reverse ++ List.replicate (slashes / 2) '\\' ++ shown
        ++ (← showTokens opened' [] ts)) : Except Misfit _) = (showTokens opened' [] ts).map
          (dropEscapes plain.reverse ++ (List.replicate (slashes / 2) '\\' ++ shown) ++ ·) := by
    rw [← List.append_assoc]
    cases showTokens opened' [] ts <;> rfl
  rw [showTokens, openedAfter, tagText]
  by_cases hodd : (slashes % 2 == 1) = true
  · simp only [hodd, if_true]
    exact hrest opened _
  · simp only [hodd]
    exact bind_congr fun opened' => hrest opened' []

theorem map_map_append (e : Except Misfit (List Char)) (front front' : List Char) :
    (e.map (front ++ ·)).map (front' ++ ·) = e.map (front' ++ front ++ ·) := by
  cases e with
  | error m => rfl
  | ok shown => simp [Except.map]

theorem showTokens_before (opened : List Opened) (plain : List Char) (ts : List Token)
    (h : isInert pre = true) : showTokens opened (plain ++ pre.reverse) ts =
      (showTokens opened plain ts).map (pre ++ ·) := by
  have hdrop (plain : List Char) : dropEscapes (plain ++ pre.reverse).reverse
      = pre ++ dropEscapes plain.reverse := by
    rw [List.reverse_append, List.reverse_reverse, dropEscapes_inert h]
  induction ts generalizing plain with
  | nil => exact congrArg Except.ok (hdrop plain)
  | cons t ts ih =>
    cases t with
    | char c => exact ih (c :: plain)
    | tag slashes body =>
      rw [showTokens_tag, showTokens_tag, hdrop]
      cases openedAfter opened slashes body with
      | error m => rfl
      | ok opened' =>
        have hmap := map_map_append (showTokens opened' [] ts)
          (dropEscapes plain.reverse ++ tagText slashes body) pre
        rw [← List.append_assoc] at hmap
        exact hmap.symm

theorem showTokens_after (opened : List Opened) (plain : List Char) (ts : List Token)
    (h : isInert post = true) : showTokens opened plain (ts ++ post.map .char) =
      (showTokens opened plain ts).map (· ++ post) := by
  induction ts generalizing opened plain with
  | nil =>
    have hchars := showTokens_chars opened plain post []
    rw [List.append_nil] at hchars
    rw [List.nil_append, hchars, showTokens, showTokens, List.reverse_append,
      List.reverse_reverse, dropEscapes_append _ h]
    rfl
  | cons t ts ih =>
    cases t with
    | char c => exact ih opened (c :: plain)
    | tag slashes body =>
      rw [List.cons_append, showTokens_tag, showTokens_tag]
      cases openedAfter opened slashes body with
      | error m => rfl
      | ok opened' =>
        show (showTokens opened' [] (ts ++ post.map .char)).map _
          = ((showTokens opened' [] ts).map _).map _
        rw [ih]
        cases showTokens opened' [] ts with
        | error m => rfl
        | ok after => simp [Except.map]

theorem visible_append (s t : String) : visible (s ++ t) = visible s ++ visible t := by
  rw [visible, String.toList_append, List.filter_append, String.ofList_append]
  rfl

theorem visible_visible (s : String) : visible (visible s) = visible s := by
  rw [visible, visible, String.toList_ofList, List.filter_filter]
  simp only [Bool.and_self]

/-- What is shown has no hidden characters. -/
theorem visible_of_render {s shown : String} (h : render s = .ok shown) :
    visible shown = shown := by
  rw [render] at h
  cases htext : showTokens [] [] (tokens s.toList) with
  | error m =>
    rw [htext] at h
    cases h
  | ok text =>
    rw [htext] at h
    obtain rfl := Except.ok.inj h
    exact visible_visible _

/-- A text within an inert frame shows as it shows by itself. -/
theorem render_frame {before after : String} (s : String) (hbefore : isInert before.toList = true)
    (hafter : isInert after.toList = true) : render (before ++ s ++ after) =
      (render s).map fun shown => visible before ++ shown ++ visible after := by
  rw [render, String.toList_append, String.toList_append, tokens_frame _ hbefore hafter,
    List.append_assoc, showTokens_chars, List.append_nil, ← List.nil_append before.toList.reverse,
    showTokens_before _ _ _ hbefore, showTokens_after _ _ _ hafter, render]
  cases showTokens [] [] (tokens s.toList) with
  | error m => rfl
  | ok shown => simp [Except.map, visible_append, String.append_assoc]

/-! ### Tags and escapes -/

/-- Somewhere in the text stands a tag. -/
def HasTag (s : List Char) : Prop :=
  ∃ before c inner rest, s = before ++ '[' :: c :: inner ++ ']' :: rest ∧ beginsTag c = true ∧
    ∀ d ∈ c :: inner, isInner d = true

/-- Somewhere in the text a backslash stands before an opening bracket. -/
def HasEscape (s : List Char) : Prop := ∃ before rest, s = before ++ '\\' :: '[' :: rest

/-- No token is a tag. -/
def IsPlain (ts : List Token) : Prop := ∀ slashes body, Token.tag slashes body ∉ ts

theorem hasTag_cons {c : Char} : HasTag (c :: s) ↔
    HasTag s ∨ c = '[' ∧ ∃ body, tagBody? s = some body := by
  constructor
  · rintro ⟨before, d, inner, rest, hs, hbegins, hinner⟩
    cases before with
    | nil =>
      obtain ⟨rfl, rfl⟩ := List.cons.inj hs
      exact .inr ⟨rfl, d :: inner, tagBody?_eq_some.mpr ⟨d, inner, rest, rfl, hbegins, hinner, rfl⟩⟩
    | cons b before =>
      obtain ⟨rfl, rfl⟩ := List.cons.inj hs
      exact .inl ⟨before, d, inner, rest, rfl, hbegins, hinner⟩
  · rintro (⟨before, d, inner, rest, rfl, hbegins, hinner⟩ | ⟨rfl, body, hbody⟩)
    · exact ⟨c :: before, d, inner, rest, rfl, hbegins, hinner⟩
    · obtain ⟨d, inner, rest, rfl, hbegins, hinner, rfl⟩ := tagBody?_eq_some.mp hbody
      exact ⟨[], d, inner, rest, rfl, hbegins, hinner⟩

theorem not_hasTag_nil : ¬ HasTag [] := by
  rintro ⟨before, c, inner, rest, hs, -⟩
  simp at hs

/-- A text without tags is cut into its characters. -/
theorem tokensFrom_plain (slashes : Nat) (h : ¬ HasTag s) :
    tokensFrom 0 slashes s = slashTokens slashes ++ s.map .char := by
  induction s generalizing slashes with
  | nil => exact (List.append_nil _).symm
  | cons c s ih =>
    rw [hasTag_cons, not_or, not_and] at h
    obtain ⟨hrest, hhere⟩ := h
    rw [tokensFrom, if_neg (Nat.lt_irrefl 0)]
    split
    · rename_i hslash
      obtain rfl := eq_of_beq hslash
      rw [ih _ hrest, slashTokens, List.replicate_succ', List.append_assoc]
      rfl
    · have hplain : slashTokens slashes ++ .char c :: tokensFrom 0 0 s
          = slashTokens slashes ++ (c :: s).map .char := by
        rw [ih 0 hrest]
        rfl
      split
      · rename_i hopen
        have hnone : tagBody? s = none := by
          refine Option.eq_none_iff_forall_ne_some.mpr fun body hbody => ?_
          exact hhere (eq_of_beq hopen) ⟨body, hbody⟩
        rw [hnone]
        exact hplain
      · exact hplain

/-- A text with a tag is cut at one. -/
theorem not_isPlain_tokensFrom (slashes : Nat) (h : HasTag s) :
    ¬ IsPlain (tokensFrom 0 slashes s) := by
  induction s generalizing slashes with
  | nil => exact absurd h not_hasTag_nil
  | cons c s ih =>
    rw [tokensFrom, if_neg (Nat.lt_irrefl 0)]
    have hlater (hrest : HasTag s) :
        ¬ IsPlain (slashTokens slashes ++ .char c :: tokensFrom 0 0 s) := by
      intro hplain
      refine ih 0 hrest fun n body hmem => hplain n body ?_
      exact List.mem_append_right _ (List.mem_cons_of_mem _ hmem)
    split
    · rename_i hslash
      refine ih _ ((hasTag_cons.mp h).resolve_right ?_)
      rintro ⟨rfl, -⟩
      cases hslash
    · split
      · split
        · exact fun hplain => hplain _ _ List.mem_cons_self
        · rename_i hnone
          refine hlater ((hasTag_cons.mp h).resolve_right ?_)
          rintro ⟨-, body, hbody⟩
          cases hnone.symm.trans hbody
      · rename_i hopen
        refine hlater ((hasTag_cons.mp h).resolve_right ?_)
        rintro ⟨rfl, -⟩
        exact hopen rfl

theorem isPlain_tokens_iff : IsPlain (tokens s) ↔ ¬ HasTag s := by
  refine ⟨fun hplain htag => not_isPlain_tokensFrom 0 htag hplain, fun h n body hmem => ?_⟩
  rw [tokens, tokensFrom_plain 0 h] at hmem
  simp [slashTokens] at hmem

theorem hasEscape_cons_cons {c d : Char} : HasEscape (c :: d :: s) ↔
    c = '\\' ∧ d = '[' ∨ HasEscape (d :: s) := by
  constructor
  · rintro ⟨before, rest, hs⟩
    cases before with
    | nil =>
      obtain ⟨rfl, hrest⟩ := List.cons.inj hs
      exact .inl ⟨rfl, (List.cons.inj hrest).1⟩
    | cons b before => exact .inr ⟨before, rest, (List.cons.inj hs).2⟩
  · rintro (⟨rfl, rfl⟩ | ⟨before, rest, hs⟩)
    · exact ⟨[], s, rfl⟩
    · exact ⟨c :: before, rest, by rw [hs]; rfl⟩

theorem dropEscapes_of_not_hasEscape (h : ¬ HasEscape s) : dropEscapes s = s := by
  induction s using dropEscapes.induct with
  | case1 => rfl
  | case2 c => rfl
  | case3 c d rest hescaped ih =>
    simp only [Bool.and_eq_true, beq_iff_eq] at hescaped
    exact absurd (hasEscape_cons_cons.mpr (.inl hescaped)) h
  | case4 c d rest hescaped ih =>
    rw [dropEscapes, if_neg hescaped, ih fun hrest => h (hasEscape_cons_cons.mpr (.inr hrest))]

/-! ### Marks -/

/-- An opening bracket or a backslash. -/
def isMark (c : Char) : Bool := c == '[' || c == '\\'

/-- How many opening brackets and backslashes there are. -/
def marks (s : List Char) : Nat := s.countP isMark

/-- A token as it stands in the text. -/
def source : Token → List Char
  | .char c => [c]
  | .tag slashes body => List.replicate slashes '\\' ++ '[' :: body ++ [']']

/-- How many tokens are tags. -/
def tagCount (ts : List Token) : Nat := ts.countP fun
  | .char _ => false
  | .tag .. => true

theorem marks_append (s t : List Char) : marks (s ++ t) = marks s + marks t := List.countP_append

theorem marks_slashes (n : Nat) : marks (List.replicate n '\\') = n := by
  rw [marks, List.countP_replicate, if_pos (by decide)]

theorem marks_dropEscapes_le (s : List Char) : marks (dropEscapes s) ≤ marks s := by
  induction s using dropEscapes.induct with
  | case1 => exact Nat.le_refl _
  | case2 c => exact Nat.le_refl _
  | case3 c d rest hescaped ih =>
    rw [dropEscapes, if_pos hescaped]
    simp only [marks, List.countP_cons] at ih ⊢
    omega
  | case4 c d rest hescaped ih =>
    rw [dropEscapes, if_neg hescaped]
    simp only [marks, List.countP_cons] at ih ⊢
    omega

/-- An escape costs a mark. -/
theorem marks_dropEscapes_lt (h : HasEscape s) : marks (dropEscapes s) < marks s := by
  induction s using dropEscapes.induct with
  | case1 =>
    obtain ⟨before, rest, hs⟩ := h
    simp at hs
  | case2 c =>
    obtain ⟨before, rest, hs⟩ := h
    have hlength := congrArg List.length hs
    simp at hlength
    omega
  | case3 c d rest hescaped ih =>
    have hle := marks_dropEscapes_le rest
    rw [dropEscapes, if_pos hescaped]
    simp only [Bool.and_eq_true, beq_iff_eq] at hescaped
    obtain ⟨rfl, rfl⟩ := hescaped
    simp only [marks, List.countP_cons, isMark] at hle ⊢
    simp
    omega
  | case4 c d rest hescaped ih =>
    rw [dropEscapes, if_neg hescaped]
    simp only [Bool.and_eq_true, beq_iff_eq] at hescaped
    have hlt := ih ((hasEscape_cons_cons.mp h).resolve_left hescaped)
    simp only [marks, List.countP_cons] at hlt ⊢
    omega

/-- A tag shows as less marks than it has. -/
theorem marks_tagText_lt (slashes : Nat) (body : List Char) :
    marks (tagText slashes body) < marks (source (.tag slashes body)) := by
  have hsource : marks (source (.tag slashes body)) = slashes + (1 + marks body) := by
    rw [source, List.append_assoc, marks_append, marks_slashes]
    simp [marks, isMark]
    omega
  rw [hsource, tagText, marks_append, marks_slashes]
  split
  · rename_i hodd
    have hone : slashes % 2 = 1 := eq_of_beq hodd
    have hshown : marks ('[' :: body ++ [']']) = 1 + marks body := by
      simp [marks, isMark]
      omega
    omega
  · have hnone : marks [] = 0 := rfl
    omega

/-- Showing a text brings no marks, and every tag costs one. -/
theorem marks_showTokens {opened : List Opened} {plain shown : List Char} {ts : List Token}
    (h : showTokens opened plain ts = .ok shown) :
    marks shown + tagCount ts ≤ marks plain + marks (ts.flatMap source) := by
  induction ts generalizing opened plain shown with
  | nil =>
    obtain rfl := Except.ok.inj h
    have hle := marks_dropEscapes_le plain.reverse
    simp only [marks, List.countP_reverse, tagCount, List.countP_nil, List.flatMap_nil] at hle ⊢
    omega
  | cons t ts ih =>
    rw [List.flatMap_cons, marks_append]
    cases t with
    | char c =>
      have hrest : marks shown + tagCount ts ≤ marks (c :: plain) + marks (ts.flatMap source) :=
        ih h
      have hcount : tagCount (.char c :: ts) = tagCount ts := List.countP_cons_of_neg (by simp)
      have hplain : marks (c :: plain) = marks (source (.char c)) + marks plain :=
        marks_append [c] plain
      omega
    | tag slashes body =>
      rw [showTokens_tag] at h
      cases hopened : openedAfter opened slashes body with
      | error m =>
        rw [hopened] at h
        cases h
      | ok opened' =>
        rw [hopened] at h
        cases hafter : showTokens opened' [] ts with
        | error m =>
          have h : (showTokens opened' [] ts).map _ = .ok shown := h
          rw [hafter] at h
          cases h
        | ok after =>
          have h : (showTokens opened' [] ts).map _ = .ok shown := h
          rw [hafter] at h
          obtain rfl := Except.ok.inj h
          have hrest := ih hafter
          have hcount : tagCount (.tag slashes body :: ts) = tagCount ts + 1 :=
            List.countP_cons_of_pos rfl
          have htag := marks_tagText_lt slashes body
          have hbefore := marks_dropEscapes_le plain.reverse
          have hreverse : marks plain.reverse = marks plain := List.countP_reverse
          have hnone : marks [] = 0 := rfl
          rw [marks_append, marks_append]
          omega

theorem tagCount_pos {ts : List Token} (h : ¬ IsPlain ts) : 0 < tagCount ts := by
  simp only [IsPlain, not_forall, not_not] at h
  obtain ⟨slashes, body, hmem⟩ := h
  exact List.countP_pos_iff.mpr ⟨_, hmem, rfl⟩

/-- The tokens of a text, as they stand in it, are the text. -/
theorem flatMap_source_tokensFrom (skip slashes : Nat) (s : List Char) (hskip : skip ≤ s.length)
    (h : skip = 0 ∨ slashes = 0) : (tokensFrom skip slashes s).flatMap source =
      List.replicate slashes '\\' ++ s.drop skip := by
  have hslashes (n : Nat) : (slashTokens n).flatMap source = List.replicate n '\\' := by
    rw [slashTokens, List.flatMap_replicate]
    simp [source]
  induction s generalizing skip slashes with
  | nil => simp [tokensFrom, hslashes]
  | cons c s ih =>
    rw [tokensFrom]
    split
    · rename_i hpos
      obtain rfl : slashes = 0 := by omega
      rw [ih _ _ (by simp at hskip; omega) (.inr rfl)]
      obtain ⟨n, rfl⟩ := Nat.exists_eq_add_of_lt hpos
      simp
    · obtain rfl : skip = 0 := by omega
      have hchar : (slashTokens slashes ++ .char c :: tokensFrom 0 0 s).flatMap source
          = List.replicate slashes '\\' ++ (c :: s).drop 0 := by
        rw [List.flatMap_append, hslashes, List.flatMap_cons, ih 0 0 (Nat.zero_le _) (.inl rfl)]
        rfl
      split
      · rename_i hslash
        obtain rfl := eq_of_beq hslash
        rw [ih _ _ (Nat.zero_le _) (.inl rfl), List.replicate_succ', List.append_assoc]
        rfl
      · split
        · rename_i hopen
          obtain rfl := eq_of_beq hopen
          cases hbody : tagBody? s with
          | none => exact hchar
          | some body =>
            obtain ⟨d, inner, rest, -, -, -, rfl⟩ := tagBody?_eq_some.mp hbody
            have hlength : body.length + 1 = (body ++ [']']).length := by simp
            rw [List.flatMap_cons, ih _ _ (by simp) (.inr rfl), hlength,
              List.append_cons body ']' rest, List.drop_left]
            simp [source]
        · exact hchar

theorem flatMap_source_tokens (s : List Char) : (tokens s).flatMap source = s :=
  flatMap_source_tokensFrom 0 0 s (Nat.zero_le _) (.inl rfl)

/-! ### Texts that show as they are -/

/-- A text without tags and escaped brackets shows as it is. -/
theorem render_literal {s : String} (htag : ¬ HasTag s.toList) (hescape : ¬ HasEscape s.toList) :
    render s = .ok (visible s) := by
  have htokens : tokens s.toList = s.toList.map .char ++ [] := by
    rw [tokens, tokensFrom_plain 0 htag, List.append_nil]
    rfl
  rw [render, htokens, showTokens_chars, showTokens, List.append_nil, List.reverse_reverse,
    dropEscapes_of_not_hasEscape hescape]
  exact congrArg (Except.ok ∘ visible) String.ofList_toList

theorem marks_visible (s : String) : marks (visible s).toList = marks s.toList := by
  rw [visible, String.toList_ofList, marks, List.countP_filter]
  refine List.countP_congr fun c _ => ?_
  simp [isMark, isHidden]
  rintro (rfl | rfl) <;> decide

/-- Any other text shows with less marks than it has. -/
theorem marks_render_lt {s shown : String} (h : render s = .ok shown)
    (hno : HasTag s.toList ∨ HasEscape s.toList) : marks shown.toList < marks s.toList := by
  rw [render] at h
  cases htokens : showTokens [] [] (tokens s.toList) with
  | error m =>
    rw [htokens] at h
    cases h
  | ok text =>
    rw [htokens] at h
    obtain rfl := Except.ok.inj h
    rw [marks_visible, String.toList_ofList]
    by_cases htag : HasTag s.toList
    · have hcost := marks_showTokens htokens
      have hpos := tagCount_pos fun hplain => isPlain_tokens_iff.mp hplain htag
      have hnone : marks [] = 0 := rfl
      rw [flatMap_source_tokens] at hcost
      omega
    · have hplain : tokens s.toList = s.toList.map .char ++ [] := by
        rw [tokens, tokensFrom_plain 0 htag, List.append_nil]
        rfl
      rw [hplain, showTokens_chars, showTokens, List.append_nil, List.reverse_reverse] at htokens
      obtain rfl := Except.ok.inj htokens
      exact marks_dropEscapes_lt (hno.resolve_left htag)

/-- **A text shows as it is** just when it has no tag and no escaped bracket. -/
theorem render_eq_visible_iff {s : String} :
    render s = .ok (visible s) ↔ ¬ HasTag s.toList ∧ ¬ HasEscape s.toList := by
  refine ⟨fun h => ?_, fun ⟨htag, hescape⟩ => render_literal htag hescape⟩
  by_contra hno
  have hlt := marks_render_lt h (by tauto)
  rw [marks_visible] at hlt
  exact Nat.lt_irrefl _ hlt

/-! ### Lines -/

theorem marks_cut {sep : Char} (hsep : isMark sep = false) (s : List Char) :
    marks (Text.cut sep s).flatten = marks s := by
  induction s with
  | nil => rfl
  | cons c rest ih =>
    rw [Text.cut]
    split
    · rename_i heq
      obtain rfl := eq_of_beq heq
      have hcons : marks (c :: rest) = marks rest := List.countP_cons_of_neg (by simp [hsep])
      rw [List.flatten_cons, List.nil_append, ih, hcons]
    · obtain ⟨first, more, hcut⟩ := Text.exists_cut sep rest
      have hcons (t : List Char) : marks (c :: t) = marks [c] + marks t := marks_append [c] t
      rw [hcut, List.flatten_cons] at ih
      rw [hcut, hcons rest, ← ih]
      exact hcons _

theorem marks_joinAtStops (column : Nat) (pieces : List (List Char)) :
    marks (Text.joinAtStops column pieces) = marks pieces.flatten := by
  have hspaces (n : Nat) : marks (List.replicate n ' ') = 0 := by
    rw [marks, List.countP_replicate, if_neg (by decide)]
  induction column, pieces using Text.joinAtStops.induct with
  | case1 => rfl
  | case2 column piece => rw [List.flatten_singleton, Text.joinAtStops]
  | case3 column piece pieces hmore spaced reached gap ih =>
    rw [Text.joinAtStops.eq_3 column piece pieces hmore, marks_append, marks_append,
      marks_append, hspaces, ih, List.flatten_cons, marks_append]
    rfl

theorem marks_intercalate (lines : List (List Char)) :
    marks (['\n'].intercalate lines) = marks lines.flatten := by
  induction lines with
  | nil => rfl
  | cons l rest ih =>
    cases rest with
    | nil => simp
    | cons next rest =>
      rw [List.intercalate_cons_cons, marks_append, marks_append, ih,
        List.flatten_cons (l := l), marks_append l]
      rfl

/-- What is done to every line without changing its marks changes none of them together. -/
theorem marks_flatten_map {change : List Char → List Char}
    (h : ∀ piece, marks (change piece) = marks piece) (lines : List (List Char)) :
    marks (lines.map change).flatten = marks lines.flatten := by
  induction lines with
  | nil => rfl
  | cons l rest ih =>
    rw [List.map_cons, List.flatten_cons, List.flatten_cons, marks_append, marks_append, h, ih]

/-- Spaces in place of tabs are no marks. -/
theorem marks_line (s : String) : marks (line s).toList = marks s.toList := by
  rw [line, Text.expandTabs, String.toList_ofList, marks_intercalate,
    ← marks_cut (by decide : isMark '\n' = false) s.toList]
  refine marks_flatten_map (fun piece => ?_) _
  rw [marks_joinAtStops, marks_cut (by decide)]

end BuildDesk.Console
