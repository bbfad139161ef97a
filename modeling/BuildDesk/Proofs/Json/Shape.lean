/-
What a text holds.

Whatever the reader makes of a text is a value that a text can hold (`Shaped`): the reader
counts the lists and objects that it is inside of, keeps one member of a name, and refuses
whole numbers that are too long.  So what was read can be written, and read again.
-/
import BuildDesk.Proofs.Json.RoundTrip
import Mathlib.Algebra.Group.Nat.Defs

namespace BuildDesk.Json

/-! ### Members -/

theorem orElse_of_truthy {v w : Json} (h : v.truthy = true) : v.orElse w = v := if_pos h

theorem orElse_of_not_truthy {v w : Json} (h : ¬ v.truthy = true) : v.orElse w = w := if_neg h

theorem orElse_orElse (v w : Json) : (v.orElse w).orElse w = v.orElse w := by
  unfold orElse
  by_cases hv : v.truthy = true
  · rw [if_pos hv, if_pos hv]
  · rw [if_neg hv, ite_self]

theorem shaped_lookup {n : Nat} {members : List (String × Json)}
    (h : ∀ m ∈ members, Shaped n m.2) (name : String) :
    Shaped n ((members.lookup name).getD .null) := by
  cases hfind : members.lookup name with
  | none => exact .null
  | some v =>
    obtain ⟨before, after, rfl, -⟩ := List.lookup_eq_some_iff.mp hfind
    exact h (name, v) (List.mem_append_right _ List.mem_cons_self)

theorem Shaped.field {n : Nat} {v : Json} (h : Shaped (n + 1) v) (name : String) :
    Shaped n (v.field name) := by
  cases h with
  | object _ hmembers => exact shaped_lookup hmembers name
  | null | bool | int | float | str | list => exact .null

/-! ### Numbers -/

theorem natOf_lt {digits : List Char} (h : ∀ c ∈ digits, isDigit c = true) :
    natOf digits < 10 ^ digits.length := by
  have hfold : ∀ acc, digits.foldl (fun n c => 10 * n + (c.toNat - 48)) acc
      < (acc + 1) * 10 ^ digits.length := by
    induction digits with
    | nil => simp
    | cons c rest ih =>
      intro acc
      obtain ⟨hc, hrest⟩ := List.forall_mem_cons.mp h
      have hdigit : c.toNat - 48 < 10 := by
        have hrange : c.toNat ≤ '9'.toNat := (Char.isDigit_iff_toNat.mp hc).2
        have hnine : '9'.toNat = 57 := rfl
        omega
      rw [List.foldl_cons, List.length_cons, Nat.pow_succ']
      refine Nat.lt_of_lt_of_le (ih hrest _) ?_
      rw [← Nat.mul_assoc]
      exact Nat.mul_le_mul_right _ (by omega)
  have hzero := hfold 0
  rwa [Nat.zero_add, Nat.one_mul] at hzero

theorem isDigits_of_wholePart {s whole rest : List Char} (h : wholePart s = some (whole, rest)) :
    IsDigits whole := by
  unfold wholePart at h
  split at h
  · cases h
    exact isDigits_zero
  · dsimp only at h
    split at h
    · cases h
    · rename_i hsome
      cases h
      exact ⟨by rwa [List.isEmpty_iff] at hsome, fun c hc => List.mem_takeWhile_imp hc⟩

theorem shaped_of_readNumber {negative : Bool} {s rest : List Char} {v : Json} {n : Nat}
    (h : readNumber negative s = .ok (v, rest)) : Shaped n v := by
  unfold readNumber at h
  split at h
  · cases h
  · rename_i whole after hwhole
    have hdigits := isDigits_of_wholePart hwhole
    dsimp only at h
    split at h
    · split at h
      · cases h
      · rename_i hlength
        cases h
        -- as many digits are written as were read, or fewer
        have hpos : 0 < Text.maxDigits := by decide
        have hsize : natOf whole < 10 ^ Text.maxDigits :=
          Nat.lt_of_lt_of_le (natOf_lt hdigits.digits)
            (Nat.pow_le_pow_right (by decide) (Nat.le_of_not_lt hlength))
        have hwritten := (Nat.length_toDigits_le_iff (b := 10) (by decide) hpos).mpr hsize
        refine .int ?_
        split
        · rwa [Int.natAbs_neg, Int.natAbs_natCast]
        · rwa [Int.natAbs_natCast]
    · cases h
      exact .float

theorem shaped_of_readScalar {s rest : List Char} {v : Json} {n : Nat}
    (h : readScalar s = .ok (v, rest)) : Shaped n v := by
  unfold readScalar at h
  dsimp only at h
  split at h
  · rename_i read hread
    obtain ⟨⟨word, literal⟩, hmem, hfound⟩ := List.exists_of_findSome?_eq_some hread
    obtain ⟨after, -, rfl⟩ := Option.map_eq_some_iff.mp hfound
    cases h
    simp only [List.mem_cons, Prod.mk.injEq, List.not_mem_nil, or_false] at hmem
    rcases hmem with ⟨-, rfl⟩ | ⟨-, rfl⟩ | ⟨-, rfl⟩ | ⟨-, rfl⟩ | ⟨-, rfl⟩ | ⟨-, rfl⟩
    · exact .null
    · exact .bool
    · exact .bool
    · exact .float
    · exact .float
    · exact .float
  · split at h
    · exact shaped_of_readNumber h
    · exact shaped_of_readNumber h

/-! ### Values -/

/-- A result of a reader has the property. -/
def Gives {α : Type} (r : Except ReadError (α × List Char)) (P : α → Prop) : Prop :=
  ∀ a rest, r = .ok (a, rest) → P a

theorem Gives.map {α β : Type} {r : Except ReadError (α × List Char)} {P : α → Prop}
    {Q : β → Prop} (h : Gives r P) (f : α → β) (hf : ∀ a, P a → Q (f a)) :
    Gives (r.map fun (a, rest) => (f a, rest)) Q := by
  intro b rest hb
  rcases r with e | ⟨a, rest'⟩
  · cases hb
  · cases hb
    exact hf a (h a _ rfl)

theorem gives_error {α : Type} {e : ReadError} {P : α → Prop} :
    Gives (.error e : Except ReadError (α × List Char)) P := fun _ _ h => nomatch h

theorem gives_ok {α : Type} {a : α} {rest : List Char} {P : α → Prop} (h : P a) :
    Gives (.ok (a, rest)) P := by
  rintro b rest' hb
  cases hb
  exact h

/-- What is read nests no deeper than the reader may go.  A reader with more fuel calls readers
with less. -/
theorem gives_shaped (fuel : Nat) : ∀ room s,
    Gives (readValue fuel room s) (Shaped room)
      ∧ Gives (readItems fuel room s) (fun items => ∀ v ∈ items, Shaped room v)
      ∧ Gives (readMembers fuel room s) (fun members => ∀ m ∈ members, Shaped room m.2) := by
  induction fuel with
  | zero =>
    intro room s
    rw [readValue, readItems, readMembers]
    exact ⟨gives_error, gives_error, gives_error⟩
  | succ fuel ih =>
    intro room s
    refine ⟨?_, ?_, ?_⟩
    · -- a value
      unfold readValue
      split
      · rename_i rest
        have hany : Gives (readString none rest) fun _ => True := fun _ _ _ => trivial
        exact hany.map (fun chars => Json.str (String.ofList chars)) fun _ _ => .str
      · split
        · exact gives_error
        · rename_i hroom
          obtain ⟨k, rfl⟩ : ∃ k, room = k + 1 := ⟨room - 1, by simp at hroom; omega⟩
          split
          · exact gives_ok (.list (List.forall_mem_nil _))
          · exact (ih k _).2.1.map Json.list fun _ h => .list h
      · split
        · exact gives_error
        · rename_i hroom
          obtain ⟨k, rfl⟩ : ∃ k, room = k + 1 := ⟨room - 1, by simp at hroom; omega⟩
          split
          · exact gives_ok (.object List.nodup_nil (List.forall_mem_nil _))
          · refine (ih k _).2.2.map (fun members => Json.object (ofEntries members)) ?_
            intro members h
            exact .object (nodup_ofEntries members) fun m hm => h m (mem_ofEntries hm)
      · exact fun _ _ => shaped_of_readScalar
    · -- items
      unfold readItems
      split
      · exact gives_error
      · rename_i item rest hitem
        have hshaped : Shaped room item := (ih room s).1 item rest hitem
        split
        · exact gives_ok (List.forall_mem_cons.mpr ⟨hshaped, List.forall_mem_nil _⟩)
        · exact (ih room _).2.1.map (item :: ·) fun _ h => List.forall_mem_cons.mpr ⟨hshaped, h⟩
        · exact gives_error
    · -- members
      unfold readMembers
      split
      · split
        · exact gives_error
        · split
          · split
            · exact gives_error
            · rename_i value rest hvalue
              have hshaped : Shaped room value := (ih room _).1 value rest hvalue
              dsimp only
              split
              · exact gives_ok (List.forall_mem_cons.mpr ⟨hshaped, List.forall_mem_nil _⟩)
              · exact (ih room _).2.2.map (_ :: ·)
                  fun _ h => List.forall_mem_cons.mpr ⟨hshaped, h⟩
              · exact gives_error
          · exact gives_error
      · exact gives_error

/-- **What a text holds.**  Every value that is read is one that a text can hold. -/
theorem shaped_of_read {text : String} {v : Json} (h : read text = .ok v) :
    Shaped mostNested v := by
  unfold read at h
  split at h
  · cases h
  · rename_i value rest hvalue
    split at h
    · cases h
      exact (gives_shaped _ _ _).1 _ _ hvalue
    · cases h

end BuildDesk.Json
