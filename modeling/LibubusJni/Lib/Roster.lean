import Mathlib.Data.List.Perm.Basic
import Mathlib.Tactic.Basic

/-!
# Rosters

A roster is a list of entries, each with a key and a number; keys may repeat.
An answer with a key takes the first open entry with that key, and a surplus
answer takes none.  `Balanced` says how many entries of each key are taken after
a list of answers.
-/

namespace LibubusJni.Lib

universe u

variable {Key : Type u} [DecidableEq Key]

/-- The first open entry with this key. -/
def firstOpen (key : Key) (opened : List (Key × Nat)) : Option (Key × Nat) :=
  opened.find? fun entry => entry.1 = key

structure Balanced (entries opened taken : List (Key × Nat))
    (answers : List Key) : Prop where
  perm : (taken ++ opened).Perm entries
  counts : ∀ key, (taken.map Prod.fst).count key =
    min (answers.count key) ((entries.map Prod.fst).count key)

theorem count_keys_pos {key : Key} {entry : Key × Nat}
    {opened : List (Key × Nat)} (found : firstOpen key opened = some entry) :
    entry.1 = key ∧ 0 < (opened.map Prod.fst).count key := by
  have member := List.mem_of_find?_eq_some found
  have isKey : entry.1 = key := by
    simpa using List.find?_some found
  rw [← isKey]
  exact ⟨rfl, List.count_pos_iff.mpr (List.mem_map_of_mem member)⟩

theorem count_keys_zero {key : Key} {opened : List (Key × Nat)}
    (none : firstOpen key opened = none) :
    (opened.map Prod.fst).count key = 0 := by
  rw [List.count_eq_zero]
  intro member
  obtain ⟨entry, isOpen, isKey⟩ := List.mem_map.mp member
  have differs := List.find?_eq_none.mp none entry isOpen
  simp [isKey] at differs

namespace Balanced

variable {entries opened taken : List (Key × Nat)} {answers : List Key}
  {key : Key}

theorem init (entries : List (Key × Nat)) : Balanced entries entries [] [] :=
  ⟨List.Perm.refl _, fun _ => by simp⟩

theorem counts_add (balanced : Balanced entries opened taken answers)
    (key : Key) :
    (taken.map Prod.fst).count key + (opened.map Prod.fst).count key =
      (entries.map Prod.fst).count key := by
  have same := (balanced.perm.map Prod.fst).count_eq key
  rwa [List.map_append, List.count_append] at same

/-- An answer takes an entry. -/
theorem answer (balanced : Balanced entries opened taken answers)
    {entry : Key × Nat} (found : firstOpen key opened = some entry) :
    Balanced entries (opened.erase entry) (taken ++ [entry])
      (answers ++ [key]) := by
  obtain ⟨isKey, isOpen⟩ := count_keys_pos found
  have member := List.mem_of_find?_eq_some found
  refine ⟨?_, fun other => ?_⟩
  · have moved : (entry :: opened.erase entry).Perm opened :=
      (List.perm_cons_erase member).symm
    rw [List.append_assoc]
    exact (moved.append_left taken).trans balanced.perm
  · have total := balanced.counts_add other
    have before := balanced.counts other
    rw [List.map_append, List.count_append, List.count_append, List.map_cons,
      List.map_nil, isKey]
    by_cases isOther : other = key
    · subst isOther
      rw [List.count_singleton_self]
      omega
    · have noKey : [key].count other = 0 :=
        List.count_eq_zero.mpr (by simpa using isOther)
      rw [noKey]
      omega

/-- An answer finds no entry. -/
theorem surplus (balanced : Balanced entries opened taken answers)
    (none : firstOpen key opened = none) :
    Balanced entries opened taken (answers ++ [key]) := by
  have noneOpen := count_keys_zero none
  refine ⟨balanced.perm, fun other => ?_⟩
  have total := balanced.counts_add other
  have before := balanced.counts other
  rw [List.count_append]
  by_cases isOther : other = key
  · subst isOther
    rw [List.count_singleton_self]
    omega
  · have noKey : [key].count other = 0 :=
      List.count_eq_zero.mpr (by simpa using isOther)
    rw [noKey]
    omega

end Balanced

end LibubusJni.Lib
