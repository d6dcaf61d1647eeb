import Mathlib.Data.List.Nodup

/-!
# Items, the lists they are on, and what counts them

Programs that link records by hand keep relations of three kinds: an item is on
the list of the one holder it names; a link is on a list at each of its two
ends; a counter in a record says how many items name it.  Each relation is
stated here over arbitrary items, with what adding and removing an item leaves
of it.
-/

namespace LibubusJni.Lib

universe u v

variable {Item : Type u} {Holder : Type v}

/-! ## One holder -/

/-- An item is on a list if and only if it is live and names the holder of the
list, and it is there once. -/
structure Held (live : List Item) (holder : Item → Option Holder)
    (lists : Holder → List Item) : Prop where
  listed : ∀ owner item,
    item ∈ lists owner ↔ item ∈ live ∧ holder item = some owner
  once : ∀ owner, (lists owner).Nodup

namespace Held

variable {live later : List Item} {holder : Item → Option Holder}
  {lists : Holder → List Item} {item : Item}

/-- Whatever holds the item lets go of it. -/
theorem remove [DecidableEq Item] (held : Held live holder lists)
    (gone : ∀ other, other ∈ later ↔ other ∈ live ∧ other ≠ item) :
    Held later holder fun owner => (lists owner).filter (· ≠ item) where
  listed owner other := by
    simp [held.listed, gone, and_right_comm]
  once owner := (held.once owner).filter _

/-- A new item that names no holder yet. -/
theorem addFree [DecidableEq Item] (held : Held live holder lists)
    (fresh : item ∉ live)
    (added : ∀ other, other ∈ later ↔ other = item ∨ other ∈ live) :
    Held later (Function.update holder item none) lists where
  listed owner other := by
    rw [held.listed, added]
    by_cases same : other = item
    · subst same
      simp [fresh]
    · simp [same]
  once := held.once

/-- A live item without a holder gets one. -/
theorem give [DecidableEq Item] [DecidableEq Holder]
    (held : Held live holder lists) (isLive : item ∈ live)
    (free : holder item = none) (owner : Holder) :
    Held live (Function.update holder item (some owner))
      (Function.update lists owner (item :: lists owner)) where
  listed other candidate := by
    by_cases sameOwner : other = owner
    · subst sameOwner
      by_cases same : candidate = item
      · subst same
        simp [isLive]
      · simp [same, held.listed]
    · by_cases same : candidate = item
      · subst same
        simp [sameOwner, Ne.symm sameOwner, held.listed, free]
      · simp [sameOwner, same, held.listed]
  once other := by
    by_cases sameOwner : other = owner
    · subst sameOwner
      have absent : item ∉ lists other := by
        simp [held.listed, free]
      simpa using ⟨absent, held.once other⟩
    · simpa [sameOwner] using held.once other

/-- A new item with its holder. -/
theorem add [DecidableEq Item] [DecidableEq Holder]
    (held : Held live holder lists) (fresh : item ∉ live)
    (added : ∀ other, other ∈ later ↔ other = item ∨ other ∈ live)
    (owner : Holder) :
    Held later (Function.update holder item (some owner))
      (Function.update lists owner (item :: lists owner)) := by
  have given := (held.addFree fresh added).give
    ((added item).mpr (Or.inl rfl)) (Function.update_self ..) owner
  rwa [Function.update_idem] at given

end Held

/-! ## Two ends -/

/-- A link is on the list of links that leave its source if and only if it is on
the list of links that enter its target. -/
structure TwoSided {Link : Type v} (live : List Item)
    (source target : Link → Item) (leaving entering : Item → List Link) :
    Prop where
  atSource : ∀ item, ∀ link ∈ leaving item,
    source link = item ∧ item ∈ live ∧ target link ∈ live ∧
      link ∈ entering (target link)
  atTarget : ∀ item, ∀ link ∈ entering item,
    target link = item ∧ item ∈ live ∧ source link ∈ live ∧
      link ∈ leaving (source link)

namespace TwoSided

variable {Link : Type v} {live later : List Item} {source target : Link → Item}
  {leaving entering : Item → List Link} {link : Link}

/-- Whatever lists a link is on, it is taken off them. -/
theorem remove [DecidableEq Link]
    (links : TwoSided live source target leaving entering) (link : Link) :
    TwoSided live source target
      (fun item => (leaving item).filter (· ≠ link))
      (fun item => (entering item).filter (· ≠ link)) where
  atSource item other onList := by
    obtain ⟨listed, kept⟩ := List.mem_filter.mp onList
    obtain ⟨own, here, there, back⟩ := links.atSource item other listed
    exact ⟨own, here, there, List.mem_filter.mpr ⟨back, kept⟩⟩
  atTarget item other onList := by
    obtain ⟨listed, kept⟩ := List.mem_filter.mp onList
    obtain ⟨own, here, there, back⟩ := links.atTarget item other listed
    exact ⟨own, here, there, List.mem_filter.mpr ⟨back, kept⟩⟩

/-- A new link between two live items. -/
theorem add [DecidableEq Item] [DecidableEq Link]
    (links : TwoSided live source target leaving entering)
    (fresh : ∀ item, link ∉ leaving item ∧ link ∉ entering item)
    {origin destination : Item} (originLive : origin ∈ live) (destinationLive : destination ∈ live) :
    TwoSided live (Function.update source link origin)
      (Function.update target link destination)
      (Function.update leaving origin (link :: leaving origin))
      (Function.update entering destination (link :: entering destination)) where
  atSource item other onList := by
    by_cases new : other = link
    · subst new
      by_cases here : item = origin
      · subst here
        simp [originLive, destinationLive]
      · rw [Function.update_of_ne here] at onList
        exact absurd onList (fresh item).1
    · have old : other ∈ leaving item := by
        by_cases here : item = origin
        · subst here
          rw [Function.update_self] at onList
          exact (List.mem_cons.mp onList).resolve_left new
        · rwa [Function.update_of_ne here] at onList
      obtain ⟨own, live, there, back⟩ := links.atSource item other old
      rw [Function.update_of_ne new, Function.update_of_ne new]
      refine ⟨own, live, there, ?_⟩
      by_cases sameEnd : target other = destination
      · rw [sameEnd, Function.update_self]
        exact List.mem_cons_of_mem _ (sameEnd ▸ back)
      · rwa [Function.update_of_ne sameEnd]
  atTarget item other onList := by
    by_cases new : other = link
    · subst new
      by_cases here : item = destination
      · subst here
        simp [originLive, destinationLive]
      · rw [Function.update_of_ne here] at onList
        exact absurd onList (fresh item).2
    · have old : other ∈ entering item := by
        by_cases here : item = destination
        · subst here
          rw [Function.update_self] at onList
          exact (List.mem_cons.mp onList).resolve_left new
        · rwa [Function.update_of_ne here] at onList
      obtain ⟨own, live, there, back⟩ := links.atTarget item other old
      rw [Function.update_of_ne new, Function.update_of_ne new]
      refine ⟨own, live, there, ?_⟩
      by_cases sameEnd : source other = origin
      · rw [sameEnd, Function.update_self]
        exact List.mem_cons_of_mem _ (sameEnd ▸ back)
      · rwa [Function.update_of_ne sameEnd]

/-- More items, with no links. -/
theorem grow (links : TwoSided live source target leaving entering)
    (more : ∀ item ∈ live, item ∈ later) :
    TwoSided later source target leaving entering where
  atSource item link onList := by
    obtain ⟨own, here, there, back⟩ := links.atSource item link onList
    exact ⟨own, more _ here, more _ there, back⟩
  atTarget item link onList := by
    obtain ⟨own, here, there, back⟩ := links.atTarget item link onList
    exact ⟨own, more _ here, more _ there, back⟩

/-- An item without links can go. -/
theorem dropItem (links : TwoSided live source target leaving entering)
    {item : Item} (noneLeaving : leaving item = [])
    (noneEntering : entering item = [])
    (gone : ∀ other, other ∈ later ↔ other ∈ live ∧ other ≠ item) :
    TwoSided later source target leaving entering where
  atSource other link onList := by
    obtain ⟨own, here, there, back⟩ := links.atSource other link onList
    refine ⟨own, (gone _).mpr ⟨here, ?_⟩, (gone _).mpr ⟨there, ?_⟩, back⟩
    · intro same
      rw [same, noneLeaving] at onList
      exact List.not_mem_nil onList
    · intro same
      rw [same, noneEntering] at back
      exact List.not_mem_nil back
  atTarget other link onList := by
    obtain ⟨own, here, there, back⟩ := links.atTarget other link onList
    refine ⟨own, (gone _).mpr ⟨here, ?_⟩, (gone _).mpr ⟨there, ?_⟩, back⟩
    · intro same
      rw [same, noneEntering] at onList
      exact List.not_mem_nil onList
    · intro same
      rw [same, noneLeaving] at back
      exact List.not_mem_nil back

end TwoSided

/-! ## Counted -/

/-- The references to a kind: its items, and one more for a kind that is held
otherwise. -/
def references {Kind : Type v} [DecidableEq Kind] (items : List Item)
    (kind : Item → Option Kind) (extra : Option Kind) (name : Kind) : Nat :=
  items.countP (fun item => kind item = some name) +
    if extra = some name then 1 else 0

/-- The live kinds are those that are referred to, as often as they count. -/
structure Counted {Kind : Type v} [DecidableEq Kind] (items : List Item)
    (kind : Item → Option Kind) (extra : Option Kind) (live : List Kind)
    (count : Kind → Nat) : Prop where
  counted : ∀ name ∈ live, count name = references items kind extra name
  used : ∀ name ∈ live, 0 < count name
  known : ∀ name, 0 < references items kind extra name → name ∈ live

namespace Counted

variable {Kind : Type v} [DecidableEq Kind] {items others : List Item}
  {kind kinds : Item → Option Kind} {extra extra' : Option Kind}
  {live later : List Kind} {count : Kind → Nat} {name : Kind}

/-- A new kind with its first reference. -/
theorem addKind (holds : Counted items kind extra live count)
    (fresh : name ∉ live)
    (added : ∀ other, other ∈ later ↔ other = name ∨ other ∈ live)
    (one : references others kinds extra' name = 1)
    (same : ∀ other, other ≠ name → references others kinds extra' other =
      references items kind extra other) :
    Counted others kinds extra' later (Function.update count name 1) where
  counted other isLive := by
    by_cases new : other = name
    · subst new
      rw [Function.update_self, one]
    · rw [Function.update_of_ne new, same other new]
      exact holds.counted other (((added other).mp isLive).resolve_left new)
  used other isLive := by
    by_cases new : other = name
    · subst new
      rw [Function.update_self]
      exact Nat.one_pos
    · rw [Function.update_of_ne new]
      exact holds.used other (((added other).mp isLive).resolve_left new)
  known other positive := by
    by_cases new : other = name
    · exact (added other).mpr (Or.inl new)
    · rw [same other new] at positive
      exact (added other).mpr (Or.inr (holds.known other positive))

/-- One more reference to a live kind. -/
theorem ref (holds : Counted items kind extra live count)
    (isLive : name ∈ live)
    (more : references others kinds extra' name =
      references items kind extra name + 1)
    (same : ∀ other, other ≠ name → references others kinds extra' other =
      references items kind extra other) :
    Counted others kinds extra' live
      (Function.update count name (count name + 1)) where
  counted other otherLive := by
    by_cases this : other = name
    · subst this
      rw [Function.update_self, more, holds.counted other otherLive]
    · rw [Function.update_of_ne this, same other this]
      exact holds.counted other otherLive
  used other otherLive := by
    by_cases this : other = name
    · subst this
      rw [Function.update_self]
      exact Nat.succ_pos _
    · rw [Function.update_of_ne this]
      exact holds.used other otherLive
  known other positive := by
    by_cases this : other = name
    · exact this ▸ isLive
    · rw [same other this] at positive
      exact holds.known other positive

/-- One reference less to a live kind, which goes with its last one. -/
theorem unref (holds : Counted items kind extra live count)
    (isLive : name ∈ live)
    (less : references others kinds extra' name + 1 =
      references items kind extra name)
    (same : ∀ other, other ≠ name → references others kinds extra' other =
      references items kind extra other) :
    Counted others kinds extra'
      (if 0 < count name - 1 then live else live.filter (· ≠ name))
      (Function.update count name (count name - 1)) := by
  have value : count name - 1 = references others kinds extra' name := by
    rw [holds.counted name isLive, ← less, Nat.add_sub_cancel]
  have kept : ∀ other, other ∈ (if 0 < count name - 1 then live else
      live.filter (· ≠ name)) ↔
        other ∈ live ∧ (other = name → 0 < count name - 1) := by
    intro other
    split
    · rename_i positive
      simp [positive]
    · rename_i none
      simp [none]
  constructor
  · intro other otherLive
    by_cases this : other = name
    · subst this
      rw [Function.update_self, value]
    · rw [Function.update_of_ne this, same other this]
      exact holds.counted other ((kept other).mp otherLive).1
  · intro other otherLive
    by_cases this : other = name
    · subst this
      rw [Function.update_self]
      exact ((kept other).mp otherLive).2 rfl
    · rw [Function.update_of_ne this]
      exact holds.used other ((kept other).mp otherLive).1
  · intro other positive
    by_cases this : other = name
    · subst this
      exact (kept other).mpr ⟨isLive, fun _ => value ▸ positive⟩
    · rw [same other this] at positive
      exact (kept other).mpr
        ⟨holds.known other positive, fun equal => absurd equal this⟩

/-- What leaves the number of references alone. -/
theorem same (holds : Counted items kind extra live count)
    (same : ∀ other, references others kinds extra' other =
      references items kind extra other) :
    Counted others kinds extra' live count where
  counted other isLive := by
    rw [same other]
    exact holds.counted other isLive
  used := holds.used
  known other positive := by
    rw [same other] at positive
    exact holds.known other positive

end Counted

/-! ### Counting references -/

section References

variable {Kind : Type v} [DecidableEq Kind] {items others : List Item}
  {kind : Item → Option Kind} {extra : Option Kind} {item : Item}
  {name : Kind}

/-- A new item in front. -/
theorem references_cons [DecidableEq Item] (own : Option Kind)
    (fresh : item ∉ items) (perm : others.Perm (item :: items)) :
    references others (Function.update kind item own) extra name =
      references items kind extra name + if own = some name then 1 else 0 := by
  have rest : items.countP
      (fun other => Function.update kind item own other = some name) =
        items.countP (fun other => kind other = some name) := by
    refine List.countP_congr fun other member => ?_
    have different : other ≠ item := fun same => fresh (same ▸ member)
    simp [different]
  rw [references, references, perm.countP_eq, List.countP_cons, rest]
  simp only [Function.update_self, decide_eq_true_eq]
  omega

/-- An item is taken out and its kind held for it. -/
theorem references_take [DecidableEq Item] (once : items.Nodup)
    (member : item ∈ items) :
    references (items.filter (· ≠ item)) kind (kind item) name =
      references items kind none name := by
  have split : items.Perm (item :: items.filter (· ≠ item)) := by
    have erased : items.filter (· ≠ item) = items.erase item := by
      rw [once.erase_eq_filter]
      refine List.filter_congr fun other _ => ?_
      by_cases same : other = item
      · simp [same]
      · simp [same]
    rw [erased]
    exact List.perm_cons_erase member
  rw [references, references, split.countP_eq, List.countP_cons]
  simp

/-- A held kind counts once more. -/
theorem references_held :
    references items kind (some name) name =
      references items kind none name + 1 := by
  simp [references]

theorem references_held_of_ne {other : Kind} (different : other ≠ name) :
    references items kind (some name) other =
      references items kind none other := by
  simp [references, Ne.symm different]

theorem references_pos_of_mem (member : item ∈ items)
    (own : kind item = some name) : 0 < references items kind extra name := by
  have positive : 0 < items.countP fun item => kind item = some name :=
    List.countP_pos_iff.mpr ⟨item, member, by simp [own]⟩
  rw [references]
  omega

end References

end LibubusJni.Lib
