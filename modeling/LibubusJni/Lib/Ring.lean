import Mathlib.Data.List.Basic
import Mathlib.Data.List.Nodup
import Mathlib.Data.List.Perm.Basic
import Mathlib.Data.Nat.ModEq
import Mathlib.Logic.Function.Basic
import Mathlib.Tactic.Basic

/-!
# Rings of slots

An array of nullable slots with a position to take from and a position to put
at.  There is no counter: the ring is empty when the slot to take from is
empty, and full when the slot to put at is not.  `Holds` says that the slots
hold a queue without a gap; putting an empty slot makes a gap.
-/

namespace LibubusJni.Lib

universe u

/-- An array of `size` slots; `cur` is the next to take, `tail` the next to
fill. -/
structure Ring (size : Nat) (Item : Type u) where
  slots : Nat → Option Item
  cur : Nat
  tail : Nat

namespace Ring

variable {size : Nat} {Item : Type u}

/-- All slots are empty. -/
def empty : Ring size Item := ⟨fun _ => none, 0, 0⟩

/-- The item to take next. -/
def head (ring : Ring size Item) : Option Item := ring.slots ring.cur

/-- The slot to fill is taken. -/
def full (ring : Ring size Item) : Bool := (ring.slots ring.tail).isSome

/-- Write the slot to fill and move on. -/
def put (ring : Ring size Item) (item : Option Item) : Ring size Item :=
  { ring with
    slots := Function.update ring.slots ring.tail item
    tail := (ring.tail + 1) % size }

/-- Clear the slot to take from and move on. -/
def pop (ring : Ring size Item) : Ring size Item :=
  { ring with
    slots := Function.update ring.slots ring.cur none
    cur := (ring.cur + 1) % size }

/-- The items from the one to take next onwards. -/
def contents (ring : Ring size Item) : List Item :=
  (List.range size).filterMap fun offset =>
    ring.slots ((ring.cur + offset) % size)

/-- The slots hold the queue and nothing else. -/
structure Holds (ring : Ring size Item) (queue : List Item) : Prop where
  cur : ring.cur < size
  length : queue.length ≤ size
  tail : ring.tail = (ring.cur + queue.length) % size
  slots : ∀ offset < size,
    ring.slots ((ring.cur + offset) % size) = queue[offset]?

/-- Different offsets below the size are different slots. -/
theorem offset_injective
    {start first second : Nat} (firstBound : first < size)
    (secondBound : second < size)
    (same : (start + first) % size = (start + second) % size) :
    first = second := by
  have congruent : first ≡ second [MOD size] :=
    Nat.ModEq.add_left_cancel' start same
  rwa [Nat.ModEq, Nat.mod_eq_of_lt firstBound,
    Nat.mod_eq_of_lt secondBound] at congruent

/-- Looking up all offsets of a longer range gives the list back. -/
theorem filterMap_range_getElem? :
    ∀ (queue : List Item) (bound : Nat), queue.length ≤ bound →
      (List.range bound).filterMap (fun offset => queue[offset]?) = queue
  | [], bound, _ => by
      simp
  | item :: rest, 0, short => by
      simp at short
  | item :: rest, bound + 1, short => by
      rw [List.range_succ_eq_map, List.filterMap_cons, List.filterMap_map]
      simp only [List.getElem?_cons_zero]
      have shorter : rest.length ≤ bound := by simpa using short
      congr 1
      exact filterMap_range_getElem? rest bound shorter

theorem holds_empty (positive : 0 < size) :
    Holds (empty : Ring size Item) [] :=
  { cur := positive
    length := Nat.zero_le size
    tail := by simp [empty]
    slots := fun _ _ => rfl }

namespace Holds

variable {ring : Ring size Item} {queue : List Item}

theorem contents (holds : Holds ring queue) : ring.contents = queue := by
  have sameSlots : ring.contents =
      (List.range size).filterMap fun offset => queue[offset]? :=
    List.filterMap_congr fun offset member =>
      holds.slots offset (List.mem_range.mp member)
  rw [sameSlots]
  exact filterMap_range_getElem? queue size holds.length

theorem head (holds : Holds ring queue) : ring.head = queue.head? := by
  have first := holds.slots 0 (Nat.zero_lt_of_lt holds.cur)
  rw [Nat.add_zero, Nat.mod_eq_of_lt holds.cur] at first
  rw [Ring.head, first, List.head?_eq_getElem?]

theorem full_iff (holds : Holds ring queue) :
    ring.full = true ↔ queue.length = size := by
  rw [Ring.full]
  by_cases whole : queue.length = size
  · have around : ring.tail = ring.cur := by
      rw [holds.tail, whole, Nat.add_mod_right, Nat.mod_eq_of_lt holds.cur]
    have first := holds.head
    rw [Ring.head] at first
    cases queue with
    | nil =>
        have bound := holds.cur
        rw [List.length_nil] at whole
        omega
    | cons item rest =>
        rw [around, first]
        simp [whole]
  · have room : queue.length < size :=
      Nat.lt_of_le_of_ne holds.length whole
    rw [holds.tail, holds.slots _ room, List.getElem?_eq_none (Nat.le_refl _)]
    simp [whole]

theorem put (holds : Holds ring queue) (room : queue.length < size)
    (item : Item) :
    Holds (ring.put (some item)) (queue ++ [item]) := by
  refine
    { cur := holds.cur
      length := by
        rw [List.length_append]
        exact room
      tail := ?_
      slots := fun offset bound => ?_ }
  · show (ring.tail + 1) % size = (ring.cur + (queue ++ [item]).length) % size
    rw [holds.tail, Nat.mod_add_mod, List.length_append, Nat.add_assoc]
    rfl
  · show Function.update ring.slots ring.tail (some item)
      ((ring.cur + offset) % size) = (queue ++ [item])[offset]?
    by_cases last : offset = queue.length
    · rw [last, ← holds.tail, Function.update_self,
        List.getElem?_append_right (Nat.le_refl _), Nat.sub_self]
      rfl
    · rw [Function.update_of_ne, holds.slots offset bound]
      · by_cases before : offset < queue.length
        · rw [List.getElem?_append_left before]
        · rw [List.getElem?_eq_none (by omega),
            List.getElem?_eq_none
              (by rw [List.length_append, List.length_singleton]; omega)]
      · rw [holds.tail]
        exact fun same => last (offset_injective bound room same)

theorem pop {item : Item} {rest : List Item}
    (holds : Holds ring (item :: rest)) : Holds ring.pop rest := by
  have positive : 0 < size := Nat.zero_lt_of_lt holds.cur
  have bound := holds.length
  rw [List.length_cons] at bound
  refine
    { cur := Nat.mod_lt _ positive
      length := by omega
      tail := ?_
      slots := fun offset offsetBound => ?_ }
  · show ring.tail = ((ring.cur + 1) % size + rest.length) % size
    rw [holds.tail, Nat.mod_add_mod, List.length_cons, Nat.add_assoc,
      Nat.add_comm 1]
  · show Function.update ring.slots ring.cur none
      (((ring.cur + 1) % size + offset) % size) = rest[offset]?
    rw [Nat.mod_add_mod, Nat.add_assoc, Nat.add_comm 1]
    by_cases around : offset + 1 = size
    · rw [around, Nat.add_mod_right, Nat.mod_eq_of_lt holds.cur,
        Function.update_self, List.getElem?_eq_none (by omega)]
    · rw [Function.update_of_ne, holds.slots _ (by omega),
        List.getElem?_cons_succ]
      intro same
      have zero : offset + 1 = 0 := by
        apply @offset_injective size ring.cur _ _ (by omega) positive
        rw [same, Nat.add_zero, Nat.mod_eq_of_lt holds.cur]
      cases zero

end Holds

/-! ## All slots -/

/-- The items of all slots, in the order of the array. -/
def items (ring : Ring size Item) : List Item :=
  (List.range size).filterMap ring.slots

/-- Counted from the slot to take from, no filled slot follows an empty one. -/
def Gapless (ring : Ring size Item) : Prop :=
  ∀ last < size, (ring.slots ((ring.cur + last) % size)).isSome = true →
    ∀ offset < last, (ring.slots ((ring.cur + offset) % size)).isSome = true

/-- Both positions are positions of slots. -/
structure InBounds (ring : Ring size Item) : Prop where
  cur : ring.cur < size
  tail : ring.tail < size

instance (ring : Ring size Item) : Decidable ring.Gapless :=
  inferInstanceAs (Decidable (∀ last < size, _ → ∀ offset < last, _))

/-- Filling one place of a list adds one item. -/
theorem filterMap_update_perm {places : List Nat} (nodup : places.Nodup)
    {place : Nat} (member : place ∈ places) {slots : Nat → Option Item}
    (empty : slots place = none) (item : Item) :
    (places.filterMap (Function.update slots place (some item))).Perm
      (item :: places.filterMap slots) := by
  obtain ⟨front, back, isSplit⟩ := List.append_of_mem member
  subst isSplit
  have parts := List.nodup_append.mp nodup
  have notFront : ∀ other ∈ front, other ≠ place := fun other inFront =>
    parts.2.2 other inFront place List.mem_cons_self
  have notBack : ∀ other ∈ back, other ≠ place := fun other inBack same =>
    (List.nodup_cons.mp parts.2.1).1 (same ▸ inBack)
  have sameFront : front.filterMap (Function.update slots place (some item)) =
      front.filterMap slots :=
    List.filterMap_congr fun other inFront =>
      Function.update_of_ne (notFront other inFront) _ _
  have sameBack : back.filterMap (Function.update slots place (some item)) =
      back.filterMap slots :=
    List.filterMap_congr fun other inBack =>
      Function.update_of_ne (notBack other inBack) _ _
  rw [List.filterMap_append, List.filterMap_append, List.filterMap_cons,
    List.filterMap_cons, Function.update_self, empty, sameFront, sameBack]
  exact List.perm_middle

section Items

variable {ring : Ring size Item} {item : Item}

theorem items_empty : (empty : Ring size Item).items = [] :=
  List.filterMap_eq_nil_iff.mpr fun _ _ => rfl

theorem InBounds.put (bounds : ring.InBounds) (content : Option Item) :
    (ring.put content).InBounds :=
  ⟨bounds.cur, Nat.mod_lt _ (Nat.zero_lt_of_lt bounds.cur)⟩

theorem InBounds.pop (bounds : ring.InBounds) : ring.pop.InBounds :=
  ⟨Nat.mod_lt _ (Nat.zero_lt_of_lt bounds.cur), bounds.tail⟩

theorem items_put_some (bound : ring.tail < size) (notFull : ring.full = false)
    (item : Item) : (ring.put (some item)).items.Perm (item :: ring.items) :=
  filterMap_update_perm List.nodup_range (List.mem_range.mpr bound)
    (Option.isSome_eq_false_iff.mp notFull |> Option.isNone_iff_eq_none.mp) item

theorem items_put_none (notFull : ring.full = false) :
    (ring.put none).items = ring.items := by
  have empty : ring.slots ring.tail = none :=
    Option.isNone_iff_eq_none.mp (Option.isSome_eq_false_iff.mp notFull)
  rw [items, items, put, ← empty, Function.update_eq_self]

theorem items_pop (bound : ring.cur < size) (isHead : ring.head = some item) :
    ring.items.Perm (item :: ring.pop.items) := by
  have refilled : Function.update ring.pop.slots ring.cur (some item) =
      ring.slots := by
    rw [pop, Function.update_idem, ← isHead, head, Function.update_eq_self]
  have filled := filterMap_update_perm List.nodup_range
    (List.mem_range.mpr bound)
    (show ring.pop.slots ring.cur = none from Function.update_self _ _ _) item
  rw [refilled] at filled
  exact filled

theorem length_items_le (ring : Ring size Item) : ring.items.length ≤ size := by
  have short := List.length_filterMap_le ring.slots (List.range size)
  rwa [List.length_range] at short

theorem Gapless.pop (gapless : ring.Gapless) (bound : ring.cur < size) :
    ring.pop.Gapless := by
  intro last lastBound filled offset before
  have inner : ∀ step, step + 1 < size →
      ring.pop.slots ((ring.pop.cur + step) % size) =
        ring.slots ((ring.cur + (step + 1)) % size) := by
    intro step stepBound
    show Function.update ring.slots ring.cur none
      (((ring.cur + 1) % size + step) % size) = _
    rw [Nat.mod_add_mod, Nat.add_assoc, Nat.add_comm 1, Function.update_of_ne]
    intro same
    have zero : step + 1 = 0 := by
      apply @offset_injective size ring.cur _ _ stepBound (Nat.zero_lt_of_lt bound)
      rw [same, Nat.add_zero, Nat.mod_eq_of_lt bound]
    cases zero
  by_cases around : last + 1 = size
  · have isCur : (ring.pop.cur + last) % size = ring.cur := by
      show ((ring.cur + 1) % size + last) % size = ring.cur
      rw [Nat.mod_add_mod, Nat.add_assoc, Nat.add_comm 1, around,
        Nat.add_mod_right, Nat.mod_eq_of_lt bound]
    have cleared : ring.pop.slots ring.cur = none := Function.update_self _ _ _
    rw [isCur, cleared] at filled
    cases filled
  · rw [inner last (by omega)] at filled
    rw [inner offset (by omega)]
    exact gapless (last + 1) (by omega) filled (offset + 1) (by omega)

/-- Without a gap, an empty slot to take from means that all are empty. -/
theorem Gapless.items_nil (gapless : ring.Gapless) (bound : ring.cur < size)
    (isHead : ring.head = none) : ring.items = [] := by
  refine List.filterMap_eq_nil_iff.mpr fun place member => ?_
  have placeBound := List.mem_range.mp member
  have isOffset : (ring.cur + (place + size - ring.cur) % size) % size = place := by
    rw [Nat.add_mod_mod, Nat.add_sub_cancel' (by omega), Nat.add_mod_right,
      Nat.mod_eq_of_lt placeBound]
  by_contra filled
  have isFilled : (ring.slots place).isSome = true :=
    Option.isSome_iff_ne_none.mpr filled
  rw [← isOffset] at isFilled
  have offsetBound := Nat.mod_lt (place + size - ring.cur) (by omega : 0 < size)
  have firstFilled : (ring.slots ((ring.cur + 0) % size)).isSome = true := by
    rcases Nat.eq_zero_or_pos ((place + size - ring.cur) % size) with zero | positive
    · rwa [zero] at isFilled
    · exact gapless _ offsetBound isFilled 0 positive
  rw [head] at isHead
  rw [Nat.add_zero, Nat.mod_eq_of_lt bound, isHead] at firstFilled
  cases firstFilled

end Items

end Ring

end LibubusJni.Lib
