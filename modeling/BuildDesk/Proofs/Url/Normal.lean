/-
Addresses of servers in their normal form.

An address is kept without the blanks around it, and then without the slashes at its end.  Those
slashes say nothing about the scheme and the host (`split_append_slashes`), so an address is taken
for what is kept of it (`normalize_eq_ok_iff`).  They may have hidden a blank, though, that is the
last character once they are gone.  So what is kept of an address is in normal form just when no
blank stands before the slashes at its end: then all spellings of the address are kept as this one,
and otherwise what was kept is not found again under the address that it is kept as
(`normal_iff_no_hidden_blank`).

* `IsServer`, `Rejects` — addresses of servers, and why other addresses are refused;
* `IsSpelling` — an address with blanks around it and slashes at its end;
* `HidesBlank` — a blank before the slashes at the end.
-/
import BuildDesk.Proofs.Text.SearchForm
import BuildDesk.Proofs.Text.Spelling
import BuildDesk.Roster.Basic

namespace BuildDesk

/-! ### Ends of texts -/

namespace Text

variable {s before after : List Char}

/-- Blanks around a text do not count when it is trimmed. -/
theorem trimChars_around (hbefore : ∀ c ∈ before, isBlank c = true)
    (hafter : ∀ c ∈ after, isBlank c = true) (s : List Char) :
    trimChars (before ++ (s ++ after)) = trimChars s := by
  induction before with
  | nil =>
    rw [List.nil_append]
    induction after using List.reverseRecOn with
    | nil => rw [List.append_nil]
    | append_singleton after c ih =>
      rw [← List.append_assoc, trimChars_concat (hafter c (by simp))]
      exact ih fun d hd => hafter d (List.mem_append_left _ hd)
  | cons c before ih =>
    obtain ⟨hc, hrest⟩ := List.forall_mem_cons.mp hbefore
    rw [List.cons_append, trimChars_cons hc, ih hrest]

/-- A text is what is left of it without a character at its end, with that character repeated. -/
theorem exists_eq_append_replicate (c : Char) (s : List Char) :
    ∃ n, s = dropRight (· == c) s ++ List.replicate n c := by
  have hback : dropRight (· == c) s ++ s.rtakeWhile (· == c) = s := by
    rw [dropRight, List.rtakeWhile, ← List.reverse_append, List.takeWhile_append_dropWhile,
      List.reverse_reverse]
  have hsame : s.rtakeWhile (· == c) = List.replicate (s.rtakeWhile (· == c)).length c :=
    List.eq_replicate_of_mem fun d hd =>
      beq_iff_eq.mp (List.mem_rtakeWhile_imp (p := (· == c)) hd)
  exact ⟨_, by rw [← hsame, hback]⟩

theorem dropRight_append_replicate (c : Char) (s : List Char) (n : Nat) :
    dropRight (· == c) (s ++ List.replicate n c) = dropRight (· == c) s := by
  induction n with
  | zero => rw [List.replicate_zero, List.append_nil]
  | succ n ih =>
    rw [List.replicate_succ', ← List.append_assoc, dropRight_eq_rdropWhile,
      List.rdropWhile_concat_pos (· == c) _ _ (beq_self_eq_true c), ← dropRight_eq_rdropWhile, ih]

theorem getLast?_dropRight_ne (c : Char) (s : List Char) :
    (dropRight (· == c) s).getLast? ≠ some c := by
  have hdone := (dropRight_eq_self_iff_getLast (· == c) _).mp
    (List.rdropWhile_idempotent (· == c) s)
  intro hlast
  rw [← dropRight_eq_rdropWhile, hlast] at hdone
  exact hdone (by simp)

theorem length_dropRight_le (p : Char → Bool) (s : List Char) :
    (dropRight p s).length ≤ s.length := by
  rw [dropRight_eq_rdropWhile]
  exact (List.rdropWhile_prefix p (l := s)).length_le

theorem length_trimChars_le (s : List Char) : (trimChars s).length ≤ s.length :=
  (length_dropRight_le _ _).trans (List.dropWhile_sublist _).length_le

end Text

namespace Url

/-! ### Slashes at the end -/

theorem splitScheme_of_colon {head : List Char} (h : ∀ c ∈ head, c ≠ ':') (rest : List Char) :
    splitScheme (head ++ ':' :: rest) =
      if head.head?.any Char.isAlpha && head.all isSchemeChar then (head.map Char.toLower, rest)
      else ([], head ++ ':' :: rest) := by
  have hall : ∀ c ∈ head, (c != ':') = true := fun c hc => bne_iff_ne.mpr (h c hc)
  have hhead : (head ++ ':' :: rest).takeWhile (· != ':') = head := by
    rw [List.takeWhile_append_of_pos hall]
    simp
  have hrest : (head ++ ':' :: rest).dropWhile (· != ':') = ':' :: rest := by
    rw [List.dropWhile_append_of_pos hall]
    simp
  unfold splitScheme
  dsimp only
  rw [hhead, hrest]
  cases head with
  | nil => rfl
  | cons c head => rfl

theorem splitScheme_of_no_colon {s : List Char} (h : ∀ c ∈ s, c ≠ ':') :
    splitScheme s = ([], s) := by
  have hnone : s.dropWhile (· != ':') = [] :=
    List.dropWhile_eq_nil_iff.mpr fun c hc => bne_iff_ne.mpr (h c hc)
  unfold splitScheme
  dsimp only
  rw [hnone]

theorem splitScheme_concat_slash (s : List Char) :
    splitScheme (s ++ ['/']) = ((splitScheme s).1, (splitScheme s).2 ++ ['/']) := by
  by_cases hcolon : ':' ∈ s
  · obtain ⟨head, rest, rfl, hhead⟩ := List.eq_append_cons_of_mem hcolon
    have hplain : ∀ c ∈ head, c ≠ ':' := fun c hc hc' => hhead (hc' ▸ hc)
    rw [List.append_assoc, List.cons_append, splitScheme_of_colon hplain,
      splitScheme_of_colon hplain]
    split <;> simp
  · have hplain : ∀ c ∈ s, c ≠ ':' := fun c hc hc' => hcolon (hc' ▸ hc)
    have hmore : ∀ c ∈ s ++ ['/'], c ≠ ':' := by
      intro c hc
      rcases List.mem_append.mp hc with hc | hc
      · exact hplain c hc
      · rw [List.mem_singleton.mp hc]
        decide
    rw [splitScheme_of_no_colon hplain, splitScheme_of_no_colon hmore]

/-- The host ends at the first slash behind it. -/
theorem hostOf_concat_slash (s : List Char) : hostOf (s ++ ['/']) = hostOf s := by
  rcases s with _ | ⟨a, _ | ⟨b, rest⟩⟩
  · rfl
  · by_cases ha : a = '/'
    · subst ha
      rfl
    · simp [hostOf, ha]
  · by_cases hab : a = '/' ∧ b = '/'
    · obtain ⟨rfl, rfl⟩ := hab
      show (rest ++ ['/']).takeWhile _ = rest.takeWhile _
      rw [List.takeWhile_append]
      split
      · rename_i hwhole
        rw [(List.takeWhile_prefix _).eq_of_length hwhole]
        simp
      · rfl
    · have hnone : ∀ more, hostOf (a :: b :: more) = [] := by
        intro more
        unfold hostOf
        split
        · rename_i heq
          simp only [List.cons.injEq] at heq
          exact absurd ⟨heq.1, heq.2.1⟩ hab
        · rfl
      rw [List.cons_append, List.cons_append, hnone, hnone]

/-- A slash more at the end says nothing about the scheme and the host. -/
theorem split_concat_slash (s : List Char) :
    split (String.ofList (s ++ ['/'])) = split (String.ofList s) := by
  have hfront : (s ++ ['/']).dropWhile (fun c => decide (c.toNat ≤ 32)) =
      s.dropWhile (fun c => decide (c.toNat ≤ 32)) ++ ['/'] := by
    rw [List.dropWhile_append]
    split
    · rename_i hempty
      rw [List.isEmpty_iff.mp hempty]
      rfl
    · rfl
  have hslash : ['/'].filter (fun c => c != '\t' && c != '\n' && c != '\r') = ['/'] := rfl
  unfold split
  rw [String.toList_ofList, String.toList_ofList, hfront]
  dsimp only
  rw [List.filter_append, hslash, splitScheme_concat_slash]
  dsimp only
  rw [hostOf_concat_slash]

theorem split_append_slashes (s : List Char) (n : Nat) :
    split (String.ofList (s ++ List.replicate n '/')) = split (String.ofList s) := by
  induction n with
  | zero => rw [List.replicate_zero, List.append_nil]
  | succ n ih => rw [List.replicate_succ', ← List.append_assoc, split_concat_slash, ih]

/-! ### What is kept of an address -/

/-- The address of a server: it has a host, and is asked by one of the two protocols. -/
def IsServer (address : String) : Prop :=
  ∃ parts, split address = some parts ∧ parts.host ≠ "" ∧
    (parts.scheme = "http" ∨ parts.scheme = "https")

/-- An address without blanks around it, and then without slashes at its end. -/
def bare (address : String) : String := Text.trimRight '/' (Text.trim address)

theorem toList_bare (address : String) :
    (bare address).toList = Text.dropRight (· == '/') (Text.trimChars address.toList) := by
  rw [bare, Text.trimRight, Text.trim, String.toList_ofList, String.toList_ofList]

theorem split_trim (address : String) : split (Text.trim address) = split (bare address) := by
  obtain ⟨n, hn⟩ := Text.exists_eq_append_replicate '/' (Text.trimChars address.toList)
  have htrim : Text.trim address =
      String.ofList ((bare address).toList ++ List.replicate n '/') := by
    rw [toList_bare, ← hn, Text.trim]
  rw [htrim, split_append_slashes, String.ofList_toList]

/-- An address is taken when the bare address is one of a server, and that is what is kept. -/
theorem normalize_eq_ok_iff {address kept : String} :
    normalize address = .ok kept ↔ kept = bare address ∧ IsServer kept := by
  unfold normalize IsServer
  dsimp only
  rw [split_trim]
  constructor
  · intro h
    split at h
    · cases h
    rename_i parts hparts
    split at h
    · cases h
    rename_i hthere
    split at h
    · cases h
    rename_i hscheme
    obtain rfl := Except.ok.inj h
    simp only [Bool.or_eq_true, beq_iff_eq, not_or] at hthere
    simp only [Bool.and_eq_true, bne_iff_ne, ne_eq, not_and_or, not_not] at hscheme
    exact ⟨rfl, parts, hparts, hthere.2, hscheme⟩
  · rintro ⟨rfl, parts, hparts, hhost, hscheme⟩
    rw [hparts]
    dsimp only
    have hthere : (parts.scheme == "" || parts.host == "") = false := by
      rw [Bool.or_eq_false_iff, beq_eq_false_iff_ne, beq_eq_false_iff_ne]
      rcases hscheme with hs | hs
      · exact ⟨by rw [hs]; decide, hhost⟩
      · exact ⟨by rw [hs]; decide, hhost⟩
    have hknown : (parts.scheme != "http" && parts.scheme != "https") = false := by
      rcases hscheme with hs | hs
      · rw [hs]; decide
      · rw [hs]; decide
    rw [hthere, hknown]
    rfl

/-- Why the address with these parts, or with a malformed host, is refused. -/
inductive Rejects : Option Parts → Fault → Prop
  | malformed : Rejects none .badValue
  | notAbsolute {parts : Parts} (h : parts.scheme = "" ∨ parts.host = "") :
      Rejects (some parts) (.complaint (.setting .notAbsolute))
  | wrongScheme {parts : Parts} (hscheme : parts.scheme ≠ "") (hhost : parts.host ≠ "")
      (hhttp : parts.scheme ≠ "http") (hhttps : parts.scheme ≠ "https") :
      Rejects (some parts) (.complaint (.setting .wrongScheme))

theorem normalize_eq_error_iff {address : String} {f : Fault} :
    normalize address = .error f ↔ Rejects (split (Text.trim address)) f := by
  unfold normalize
  dsimp only
  constructor
  · intro h
    split at h
    · next hnone =>
      rw [hnone]
      exact Except.error.inj h ▸ .malformed
    next parts hparts =>
    rw [hparts]
    split at h
    · next hmissing =>
      simp only [Bool.or_eq_true, beq_iff_eq] at hmissing
      exact Except.error.inj h ▸ .notAbsolute hmissing
    next hthere =>
    simp only [Bool.or_eq_true, beq_iff_eq, not_or] at hthere
    split at h
    · next hscheme =>
      simp only [Bool.and_eq_true, bne_iff_ne] at hscheme
      exact Except.error.inj h ▸ .wrongScheme hthere.1 hthere.2 hscheme.1 hscheme.2
    · cases h
  · generalize split (Text.trim address) = parts?
    rintro (_ | hmissing | ⟨hscheme, hhost, hhttp, hhttps⟩)
    · rfl
    · simp [hmissing]
    · simp [hscheme, hhost, hhttp, hhttps]

theorem IsServer.ne_empty {address : String} (h : IsServer address) : address.toList ≠ [] := by
  obtain ⟨parts, hparts, hhost, -⟩ := h
  intro hempty
  have hnothing : address = "" := by rw [← String.toList_inj, hempty]; rfl
  rw [hnothing] at hparts
  have hnone : split "" = some ⟨"", ""⟩ := by decide
  rw [hnone] at hparts
  exact hhost (congrArg Parts.host (Option.some.inj hparts)).symm

/-! ### Normal forms -/

/-- An address with blanks around it and slashes at its end, as many as there may be. -/
def IsSpelling (kept address : String) : Prop :=
  ∃ before n after, address.toList = before ++ (kept.toList ++ List.replicate n '/' ++ after) ∧
    (∀ c ∈ before, Text.isBlank c = true) ∧ ∀ c ∈ after, Text.isBlank c = true

/-- A blank stands before the slashes at the end of an address. -/
def HidesBlank (address : String) : Prop :=
  ∃ front c n after, address.toList = front ++ c :: (List.replicate (n + 1) '/' ++ after) ∧
    Text.isBlank c = true ∧ ∀ d ∈ after, Text.isBlank d = true

variable {address kept : String}

theorem isSpelling_bare (address : String) : IsSpelling (bare address) address := by
  obtain ⟨before, after, hsplit, hbefore, hafter⟩ := Text.eq_append_trimChars address.toList
  obtain ⟨n, hn⟩ := Text.exists_eq_append_replicate '/' (Text.trimChars address.toList)
  refine ⟨before, n, after, ?_, hbefore, hafter⟩
  rw [toList_bare, ← hn]
  exact hsplit

theorem head_bare (h : (bare address).toList ≠ []) :
    (bare address).toList.head?.map Text.isBlank ≠ some true := by
  have htrimmed := (Text.trimChars_eq_self_iff _).mp (Text.trimChars_trimChars address.toList)
  obtain ⟨n, hn⟩ := Text.exists_eq_append_replicate '/' (Text.trimChars address.toList)
  have hhead : (Text.trimChars address.toList).head? = (bare address).toList.head? := by
    rw [hn, ← toList_bare, List.head?_append_of_ne_nil _ h]
  rw [← hhead]
  exact htrimmed.1

theorem isBlank_slash : Text.isBlank '/' = false := by decide

/-- Slashes at the end are no blanks that are trimmed. -/
theorem dropRight_slashes (s : List Char) (n : Nat) :
    Text.dropRight Text.isBlank (s ++ List.replicate (n + 1) '/') =
      s ++ List.replicate (n + 1) '/' := by
  rw [Text.dropRight_eq_self_iff_getLast, List.replicate_succ', ← List.append_assoc,
    List.getLast?_concat, Option.map_some, isBlank_slash]
  decide

/-- Every spelling of an address that ends with no blank is left as that address. -/
theorem bare_of_isSpelling (hne : kept.toList ≠ [])
    (hhead : kept.toList.head?.map Text.isBlank ≠ some true)
    (hlast : kept.toList.getLast? ≠ some '/')
    (hblank : kept.toList.getLast?.map Text.isBlank ≠ some true) (h : IsSpelling kept address) :
    bare address = kept := by
  obtain ⟨before, n, after, hsplit, hbefore, hafter⟩ := h
  have hslashes : Text.trimChars (kept.toList ++ List.replicate n '/') =
      kept.toList ++ List.replicate n '/' := by
    refine (Text.trimChars_eq_self_iff _).mpr ⟨?_, ?_⟩
    · rwa [List.head?_append_of_ne_nil _ hne]
    · cases n with
      | zero => rwa [List.replicate_zero, List.append_nil]
      | succ n =>
        rw [List.replicate_succ', ← List.append_assoc, List.getLast?_concat, Option.map_some,
          isBlank_slash]
        decide
  have hself : Text.dropRight (· == '/') kept.toList = kept.toList := by
    rw [Text.dropRight_eq_self_iff_getLast]
    intro hslash
    obtain ⟨c, hc, hc'⟩ := Option.map_eq_some_iff.mp hslash
    rw [beq_iff_eq.mp hc'] at hc
    exact hlast hc
  rw [← String.toList_inj, toList_bare, hsplit, Text.trimChars_around hbefore hafter, hslashes,
    Text.dropRight_append_replicate, hself]

/-- Nothing is taken away from an address without a blank before and a slash behind it, just when
no blank is behind it either. -/
theorem bare_eq_self_iff (hne : kept.toList ≠ [])
    (hhead : kept.toList.head?.map Text.isBlank ≠ some true)
    (hlast : kept.toList.getLast? ≠ some '/') :
    bare kept = kept ↔ kept.toList.getLast?.map Text.isBlank ≠ some true := by
  constructor
  · intro h hblank
    obtain ⟨c, hc, hblank⟩ := Option.map_eq_some_iff.mp hblank
    obtain ⟨front, hfront⟩ := List.getLast?_eq_some_iff.mp hc
    -- the blank goes, so that what is left is shorter
    have hshort := (Text.length_dropRight_le (· == '/') _).trans (Text.length_trimChars_le front)
    rw [← Text.trimChars_concat hblank, ← hfront, ← toList_bare, h, hfront, List.length_append,
      List.length_singleton] at hshort
    omega
  · exact fun hblank => bare_of_isSpelling hne hhead hlast hblank
      ⟨[], 0, [], by simp, List.forall_mem_nil _, List.forall_mem_nil _⟩

/-- What is left of an address ends with a blank just when a blank was before its slashes. -/
theorem blank_at_end_iff (h : (bare address).toList ≠ []) :
    (bare address).toList.getLast?.map Text.isBlank = some true ↔ HidesBlank address := by
  constructor
  · intro hblank
    obtain ⟨c, hc, hblank⟩ := Option.map_eq_some_iff.mp hblank
    obtain ⟨front, hfront⟩ := List.getLast?_eq_some_iff.mp hc
    obtain ⟨before, after, hsplit, -, hafter⟩ := Text.eq_append_trimChars address.toList
    obtain ⟨n, hn⟩ := Text.exists_eq_append_replicate '/' (Text.trimChars address.toList)
    rw [← toList_bare, hfront] at hn
    cases n with
    | zero =>
      -- the blank would have been trimmed
      have htrimmed := (Text.trimChars_eq_self_iff _).mp (Text.trimChars_trimChars address.toList)
      rw [hn, List.replicate_zero, List.append_nil, List.getLast?_concat, Option.map_some,
        hblank] at htrimmed
      exact absurd rfl htrimmed.2
    | succ n =>
      refine ⟨before ++ front, c, n, after, ?_, hblank, hafter⟩
      rw [hsplit, hn]
      simp
  · rintro ⟨front, c, n, after, hsplit, hblank, hafter⟩
    have hplain : c ≠ '/' := by
      rintro rfl
      rw [isBlank_slash] at hblank
      cases hblank
    have htrim : Text.trimChars address.toList =
        Text.trimChars (front ++ c :: List.replicate (n + 1) '/') := by
      rw [hsplit, ← List.cons_append, ← List.append_assoc]
      exact Text.trimChars_around (List.forall_mem_nil _) hafter _
    rw [toList_bare, htrim, Text.trimChars, List.dropWhile_append] at h ⊢
    split at h
    · -- nothing but slashes would be left
      have hslashes : (List.replicate (n + 1) '/').dropWhile Text.isBlank =
          [] ++ List.replicate (n + 1) '/' :=
        List.dropWhile_cons_of_neg (by rw [isBlank_slash]; decide)
      rw [List.dropWhile_cons_of_pos hblank, hslashes, dropRight_slashes,
        Text.dropRight_append_replicate] at h
      exact absurd rfl h
    · rename_i hfront
      have hself : Text.dropRight (· == '/') (front.dropWhile Text.isBlank ++ [c]) =
          front.dropWhile Text.isBlank ++ [c] := by
        rw [Text.dropRight_eq_rdropWhile, List.rdropWhile_concat_neg]
        simpa using hplain
      rw [if_neg hfront, List.append_cons, dropRight_slashes, Text.dropRight_append_replicate,
        hself, List.getLast?_concat, Option.map_some, hblank]

/-! ### The whole -/

/-- **The normal form of an address.**  Nothing but blanks around an address and slashes at its
end is taken away; what is kept starts with no blank and ends with no slash.  It ends with a blank
just when one stood before those slashes.  If there is none, every spelling of the address is kept
as this one, the address itself among them, and a roster that is kept under it is found again under
all of them.  If there is one, what was kept is not kept as it is, and the roster is not found
under the address that it was kept under. -/
theorem normal_iff_no_hidden_blank (h : normalize address = .ok kept) :
    IsSpelling kept address ∧
    kept.toList.head?.map Text.isBlank ≠ some true ∧ kept.toList.getLast? ≠ some '/' ∧
    (kept.toList.getLast?.map Text.isBlank = some true ↔ HidesBlank address) ∧
    (normalize kept = .ok kept ↔ ¬ HidesBlank address) ∧
    (¬ HidesBlank address → ∀ other, IsSpelling kept other → normalize other = .ok kept ∧
      ∀ (r : Roster) (settings : Settings), r.server = kept → r.user = settings.user →
        normalize other = .ok settings.url → r.belongsTo settings = true) ∧
    (HidesBlank address → ∀ (r : Roster) (settings : Settings), r.server = kept →
      normalize kept = .ok settings.url → r.belongsTo settings = false) := by
  obtain ⟨rfl, hserver⟩ := normalize_eq_ok_iff.mp h
  have hne := hserver.ne_empty
  have hhead := head_bare hne
  have hlast : (bare address).toList.getLast? ≠ some '/' := by
    rw [toList_bare]
    exact Text.getLast?_dropRight_ne _ _
  have hblank := blank_at_end_iff hne
  have hself : normalize (bare address) = .ok (bare address) ↔ ¬ HidesBlank address := by
    rw [normalize_eq_ok_iff, ← hblank]
    exact ⟨fun ⟨hbare, _⟩ => (bare_eq_self_iff hne hhead hlast).mp hbare.symm,
      fun hsound => ⟨((bare_eq_self_iff hne hhead hlast).mpr hsound).symm, hserver⟩⟩
  refine ⟨isSpelling_bare address, hhead, hlast, hblank, hself, fun hsound other hother => ?_,
    fun hhidden r settings hr hsettings => ?_⟩
  · have hbare := bare_of_isSpelling hne hhead hlast (mt hblank.mp hsound) hother
    have hother : normalize other = .ok (bare address) :=
      normalize_eq_ok_iff.mpr ⟨hbare.symm, hserver⟩
    refine ⟨hother, fun r settings hr huser hsettings => ?_⟩
    have hurl : bare address = settings.url := Except.ok.inj (hother.symm.trans hsettings)
    rw [Roster.belongsTo, hr, huser, hurl]
    simp
  · have hurl : bare address ≠ settings.url := by
      intro hsame
      rw [← hsame] at hsettings
      exact hself.mp hsettings hhidden
    rw [Roster.belongsTo, hr]
    simp [hurl]

/-- A blank and a slash around an address are not kept; the address is taken for itself then. -/
theorem normal_of_padded :
    normalize " https://ci.example.com:8080/jenkins// " =
        .ok "https://ci.example.com:8080/jenkins" ∧
      normalize "https://ci.example.com:8080/jenkins" =
        .ok "https://ci.example.com:8080/jenkins" := by
  have hkept : normalize " https://ci.example.com:8080/jenkins// " =
      .ok "https://ci.example.com:8080/jenkins" :=
    normalize_eq_ok_iff.mpr ⟨by decide, ⟨"https", "ci.example.com:8080"⟩, by decide, by decide,
      .inr rfl⟩
  refine ⟨hkept, (normal_iff_no_hidden_blank hkept).2.2.2.2.1.mpr fun hhidden => ?_⟩
  have hblank := (normal_iff_no_hidden_blank hkept).2.2.2.1.mpr hhidden
  revert hblank
  decide

/-- What is kept need not be a normal form: a blank before the slashes stays at the end, and what
was kept is then kept as another address, or is none. -/
theorem not_always_normal :
    normalize "https://h/ /" = .ok "https://h/ " ∧ normalize "https://h/ " = .ok "https://h" ∧
      normalize "http:// /" = .ok "http:// " ∧
      ∃ c, normalize "http:// " = .error (.complaint (.setting c)) := by
  have hserver : ∀ address, split address = some ⟨"https", "h"⟩ → IsServer address :=
    fun _ h => ⟨_, h, by decide, .inr rfl⟩
  have hblank : split "http:// " = some ⟨"http", " "⟩ := by decide
  refine ⟨normalize_eq_ok_iff.mpr ⟨by decide, hserver _ (by decide)⟩,
    normalize_eq_ok_iff.mpr ⟨by decide, hserver _ (by decide)⟩,
    normalize_eq_ok_iff.mpr ⟨by decide, _, hblank, by decide, .inl rfl⟩, .notAbsolute, ?_⟩
  rfl

end Url
end BuildDesk
