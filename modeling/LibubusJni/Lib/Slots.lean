import Mathlib.Data.Set.Card
import Mathlib.Logic.Function.Basic

/-!
# Slots that hold at most one thing each

Finitely many slots of an arbitrary index type are occupied.  `held` counts
them; the lemmas say how filling, replacing and clearing one slot changes the
count.

Where the things can hold something themselves, `heldInside` counts what they
hold, and the last section counts both levels.
-/

namespace LibubusJni.Lib

universe u v

variable {Place : Type u} {Thing : Type v}

def occupied (slots : Place → Option Thing) : Set Place :=
  { place | (slots place).isSome }

/-- The number of occupied slots. -/
noncomputable def held (slots : Place → Option Thing) : Nat :=
  (occupied slots).ncard

theorem mem_occupied {slots : Place → Option Thing} {place : Place} :
    place ∈ occupied slots ↔ ∃ thing, slots place = some thing :=
  Option.isSome_iff_exists

theorem held_none : held (fun _ : Place => (none : Option Thing)) = 0 := by
  have empty : occupied (fun _ : Place => (none : Option Thing)) = ∅ := by
    ext place
    simp [occupied]
  rw [held, empty, Set.ncard_empty]

theorem finite_occupied_none :
    (occupied (fun _ : Place => (none : Option Thing))).Finite := by
  have empty : occupied (fun _ : Place => (none : Option Thing)) = ∅ := by
    ext place
    simp [occupied]
  rw [empty]
  exact Set.finite_empty

section Update

variable [DecidableEq Place] {slots : Place → Option Thing} {place : Place}

theorem occupied_fill (thing : Thing) :
    occupied (Function.update slots place (some thing)) =
      insert place (occupied slots) := by
  ext other
  by_cases same : other = place
  · subst same
    simp [occupied]
  · simp [occupied, same]

theorem occupied_clear :
    occupied (Function.update slots place none) =
      occupied slots \ {place} := by
  ext other
  by_cases same : other = place
  · subst same
    simp [occupied]
  · simp [occupied, same]

theorem finite_occupied_update
    (finite : (occupied slots).Finite) (content : Option Thing) :
    (occupied (Function.update slots place content)).Finite := by
  cases content with
  | none =>
      rw [occupied_clear]
      exact finite.sdiff
  | some thing =>
      rw [occupied_fill]
      exact finite.insert place

theorem held_fill
    (finite : (occupied slots).Finite) (empty : slots place = none)
    (thing : Thing) :
    held (Function.update slots place (some thing)) = held slots + 1 := by
  have outside : place ∉ occupied slots := by
    rw [mem_occupied, empty]
    rintro ⟨_, isSome⟩
    cases isSome
  rw [held, occupied_fill, Set.ncard_insert_of_notMem outside finite, held]

theorem held_replace
    {before : Thing} (isHeld : slots place = some before) (thing : Thing) :
    held (Function.update slots place (some thing)) = held slots := by
  have inside : place ∈ occupied slots := mem_occupied.mpr ⟨before, isHeld⟩
  rw [held, occupied_fill, Set.ncard_insert_of_mem inside, held]

theorem held_clear
    (finite : (occupied slots).Finite)
    {before : Thing} (isHeld : slots place = some before) :
    held (Function.update slots place none) + 1 = held slots := by
  have inside : place ∈ occupied slots := mem_occupied.mpr ⟨before, isHeld⟩
  rw [held, occupied_clear, Set.ncard_sdiff_singleton_add_one inside finite,
    held]

theorem held_clear_of_empty (empty : slots place = none) :
    held (Function.update slots place none) = held slots := by
  rw [← empty, Function.update_eq_self]

end Update

/-! ## Things that can hold something -/

/-- What the occupied slots hold inside. -/
def inside (slots : Place → Option (Option Thing)) (place : Place) :
    Option Thing :=
  (slots place).join

/-- The occupied slots, and those of them that hold something inside. -/
noncomputable def heldTotal (slots : Place → Option (Option Thing)) : Nat :=
  held slots + held (inside slots)

theorem finite_occupied_inside
    {slots : Place → Option (Option Thing)}
    (finite : (occupied slots).Finite) : (occupied (inside slots)).Finite := by
  refine finite.subset fun place isHeld => ?_
  obtain ⟨thing, isThing⟩ := mem_occupied.mp isHeld
  cases content : slots place with
  | none =>
      rw [inside, content] at isThing
      cases isThing
  | some inner =>
      exact mem_occupied.mpr ⟨inner, content⟩

section Update

variable [DecidableEq Place] {slots : Place → Option (Option Thing)}
  {place : Place}

theorem inside_update (content : Option (Option Thing)) :
    inside (Function.update slots place content) =
      Function.update (inside slots) place content.join := by
  funext other
  by_cases same : other = place
  · subst same
    simp [inside]
  · simp [inside, same]

/-- The slot is occupied and keeps what is inside. -/
theorem heldTotal_occupy (finite : (occupied slots).Finite) :
    heldTotal (Function.update slots place (some (inside slots place))) =
      heldTotal slots + if (slots place).isSome then 0 else 1 := by
  have sameInside :
      inside (Function.update slots place (some (inside slots place))) =
        inside slots := by
    rw [inside_update, Option.join_some, Function.update_eq_self]
  rw [heldTotal, heldTotal, sameInside]
  cases content : slots place with
  | none =>
      rw [held_fill finite content]
      simp only [Option.isSome_none, Bool.false_eq_true, if_false]
      omega
  | some inner =>
      rw [held_replace content]
      simp

/-- An occupied slot gets something inside. -/
theorem heldTotal_insert
    (finite : (occupied slots).Finite)
    {inner : Option Thing} (isHeld : slots place = some inner)
    (thing : Thing) :
    heldTotal (Function.update slots place (some (some thing))) =
      heldTotal slots + if inner.isSome then 0 else 1 := by
  have isInside : inside slots place = inner := by
    rw [inside, isHeld, Option.join_some]
  rw [heldTotal, heldTotal, held_replace isHeld, inside_update,
    Option.join_some]
  cases inner with
  | none =>
      rw [held_fill (finite_occupied_inside finite) isInside]
      simp only [Option.isSome_none, Bool.false_eq_true, if_false]
      omega
  | some before =>
      rw [held_replace isInside]
      simp

/-- An occupied slot is cleared with what is inside. -/
theorem heldTotal_clear
    (finite : (occupied slots).Finite)
    {inner : Option Thing} (isHeld : slots place = some inner) :
    heldTotal (Function.update slots place none) +
      ((if inner.isSome then 1 else 0) + 1) = heldTotal slots := by
  have isInside : inside slots place = inner := by
    rw [inside, isHeld, Option.join_some]
  have outer := held_clear finite isHeld
  rw [heldTotal, heldTotal, inside_update, Option.join_none]
  cases inner with
  | none =>
      rw [held_clear_of_empty isInside]
      simp only [Option.isSome_none, Bool.false_eq_true, if_false]
      omega
  | some before =>
      have cleared := held_clear (finite_occupied_inside finite) isInside
      simp only [Option.isSome_some, if_true]
      omega

end Update

end LibubusJni.Lib
