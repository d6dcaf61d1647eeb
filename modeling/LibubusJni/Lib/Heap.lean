import Mathlib.Data.List.Perm.Basic
import Mathlib.Logic.Function.Basic
import Mathlib.Tactic.Basic

/-!
# Blocks of memory

A heap of numbered blocks with `malloc`, `free`, `realloc` and stores.  A number
is never used again, so a pointer to a block that was freed or moved reads
nothing.  `Owned` lists pointers each of which is the only one that may free its
block; what one owner does leaves the blocks of the others as they are.
-/

namespace LibubusJni.Lib

structure Block where
  capacity : Nat
  bytes : Nat → UInt8

structure Heap where
  block : Nat → Option Block
  next : Nat
  fresh : ∀ ptr, next ≤ ptr → block ptr = none

namespace Heap

def empty : Heap := ⟨fun _ => none, 0, fun _ _ => rfl⟩

/-- `malloc`, with the bytes that lie in the block. -/
def malloc (heap : Heap) (capacity : Nat) (bytes : Nat → UInt8) :
    Nat × Heap where
  fst := heap.next
  snd :=
    { block := Function.update heap.block heap.next (some ⟨capacity, bytes⟩)
      next := heap.next + 1
      fresh := fun other above => by
        rw [Function.update_of_ne (Nat.ne_of_gt above)]
        exact heap.fresh other (Nat.le_of_succ_le above) }

def free (heap : Heap) (ptr : Nat) : Heap where
  block := Function.update heap.block ptr none
  next := heap.next
  fresh other above := by
    by_cases isPtr : other = ptr
    · rw [isPtr, Function.update_self]
    · rw [Function.update_of_ne isPtr]
      exact heap.fresh other above

/-- A block is changed in its place. -/
def modify (heap : Heap) (ptr : Nat) (change : Block → Block) : Heap where
  block := Function.update heap.block ptr ((heap.block ptr).map change)
  next := heap.next
  fresh other above := by
    by_cases isPtr : other = ptr
    · rw [isPtr, Function.update_self, ← isPtr, heap.fresh other above,
        Option.map_none]
    · rw [Function.update_of_ne isPtr]
      exact heap.fresh other above

/-- The bytes of a block; behind a pointer to none there are zeros. -/
def bytesOf (heap : Heap) (ptr : Nat) : Nat → UInt8 :=
  match heap.block ptr with
  | none => fun _ => 0
  | some block => block.bytes

/-- `realloc`; whether the block moves is given. -/
def realloc (heap : Heap) (ptr : Option Nat) (capacity : Nat) (moves : Bool) :
    Nat × Heap :=
  match ptr with
  | none => heap.malloc capacity fun _ => 0
  | some old =>
      if moves then
        let (new, grown) := heap.malloc capacity (heap.bytesOf old)
        (new, grown.free old)
      else
        (old, heap.modify old fun block => { block with capacity := capacity })

/-- `memcpy` to the start of a block. -/
def store (heap : Heap) (ptr : Nat) (bytes : List UInt8) : Heap :=
  heap.modify ptr fun block =>
    { block with
      bytes := fun addr => (bytes[addr]?).getD (block.bytes addr) }

/-- The first bytes of a block. -/
def contents (heap : Heap) (ptr len : Nat) : List UInt8 :=
  (List.range len).map (heap.bytesOf ptr)

/-- The block begins with these bytes. -/
def Reads (heap : Heap) (ptr : Nat) (bytes : List UInt8) : Prop :=
  ∃ block, heap.block ptr = some block ∧
    ∀ index (inside : index < bytes.length), block.bytes index = bytes[index]

/-- The contents of these blocks are kept. -/
def Keeps (heap next : Heap) (ptrs : List Nat) : Prop :=
  ∀ ptr ∈ ptrs, ∀ block, heap.block ptr = some block →
    ∃ capacity, next.block ptr = some ⟨capacity, block.bytes⟩

structure Owned (heap : Heap) (ptrs : List Nat) : Prop where
  nodup : ptrs.Nodup
  live : ∀ ptr ∈ ptrs, ∃ block, heap.block ptr = some block

variable {heap next last : Heap} {ptr : Nat} {ptrs : List Nat}

theorem lt_next {block : Block} (live : heap.block ptr = some block) :
    ptr < heap.next := by
  refine Nat.lt_of_not_le fun above => ?_
  rw [heap.fresh ptr above] at live
  cases live

/-! ## What is kept -/

theorem Keeps.trans (first : heap.Keeps next ptrs)
    (second : next.Keeps last ptrs) : heap.Keeps last ptrs := by
  intro ptr member block live
  obtain ⟨capacity, kept⟩ := first ptr member block live
  obtain ⟨lastCapacity, keptAgain⟩ := second ptr member _ kept
  exact ⟨lastCapacity, keptAgain⟩

theorem Keeps.subset {fewer : List Nat} (keeps : heap.Keeps next ptrs)
    (within : fewer ⊆ ptrs) : heap.Keeps next fewer :=
  fun ptr member => keeps ptr (within member)

theorem Keeps.reads (keeps : heap.Keeps next ptrs) (member : ptr ∈ ptrs)
    {bytes : List UInt8} (reads : heap.Reads ptr bytes) :
    next.Reads ptr bytes := by
  obtain ⟨block, live, holds⟩ := reads
  obtain ⟨capacity, kept⟩ := keeps ptr member block live
  exact ⟨_, kept, holds⟩

theorem keeps_of_update {block : Option Block}
    (isNext : next.block = Function.update heap.block ptr block)
    (outside : ptr ∉ ptrs) : heap.Keeps next ptrs := by
  intro other member old live
  refine ⟨old.capacity, ?_⟩
  rw [isNext, Function.update_of_ne]
  · exact live
  · rintro rfl
    exact outside member

theorem keeps_malloc (owned : heap.Owned ptrs) (capacity : Nat)
    (bytes : Nat → UInt8) :
    heap.Keeps (heap.malloc capacity bytes).2 ptrs := by
  refine keeps_of_update rfl fun member => ?_
  obtain ⟨block, live⟩ := owned.live _ member
  exact Nat.lt_irrefl _ (lt_next live)

theorem keeps_free (outside : ptr ∉ ptrs) :
    heap.Keeps (heap.free ptr) ptrs :=
  keeps_of_update rfl outside

theorem keeps_store (outside : ptr ∉ ptrs) (bytes : List UInt8) :
    heap.Keeps (heap.store ptr bytes) ptrs :=
  keeps_of_update rfl outside

theorem reads_contents {block : Block} (live : heap.block ptr = some block)
    (len : Nat) : heap.Reads ptr (heap.contents ptr len) := by
  refine ⟨block, live, fun index inside => ?_⟩
  have isBytes : heap.bytesOf ptr = block.bytes := by
    rw [bytesOf, live]
  simp only [contents, isBytes, List.getElem_map, List.getElem_range]

/-- A copy is read as what was copied. -/
theorem reads_malloc (heap : Heap) (bytes : List UInt8) :
    (heap.malloc bytes.length fun addr => bytes.getD addr 0).2.Reads
      (heap.malloc bytes.length fun addr => bytes.getD addr 0).1 bytes := by
  refine ⟨_, Function.update_self _ _ _, fun index inside => ?_⟩
  exact (List.getD_eq_getElem?_getD).trans
    (by rw [List.getElem?_eq_getElem inside, Option.getD_some])

/-! ## Owners -/

namespace Owned

theorem perm {others : List Nat} (owned : heap.Owned ptrs)
    (same : others.Perm ptrs) : heap.Owned others :=
  ⟨same.nodup_iff.mpr owned.nodup,
    fun ptr member => owned.live ptr (same.subset member)⟩

theorem keeps (owned : heap.Owned ptrs) (kept : heap.Keeps next ptrs) :
    next.Owned ptrs := by
  refine ⟨owned.nodup, fun ptr member => ?_⟩
  obtain ⟨block, live⟩ := owned.live ptr member
  obtain ⟨capacity, isKept⟩ := kept ptr member block live
  exact ⟨_, isKept⟩

theorem malloc (owned : heap.Owned ptrs) (capacity : Nat)
    (bytes : Nat → UInt8) :
    (heap.malloc capacity bytes).2.Owned
      ((heap.malloc capacity bytes).1 :: ptrs) := by
  have others := owned.keeps (keeps_malloc owned capacity bytes)
  refine ⟨List.nodup_cons.mpr ⟨fun member => ?_, owned.nodup⟩,
    fun ptr member => ?_⟩
  · obtain ⟨block, live⟩ := owned.live _ member
    exact Nat.lt_irrefl _ (lt_next live)
  · rcases List.mem_cons.mp member with isNew | old
    · rw [isNew]
      exact ⟨_, Function.update_self _ _ _⟩
    · exact others.live ptr old

theorem store (owned : heap.Owned ptrs) (ptr : Nat) (bytes : List UInt8) :
    (heap.store ptr bytes).Owned ptrs := by
  refine ⟨owned.nodup, fun other member => ?_⟩
  obtain ⟨block, live⟩ := owned.live other member
  by_cases isPtr : other = ptr
  · subst isPtr
    exact ⟨_, (Function.update_self _ _ _).trans (congrArg _ live)⟩
  · exact ⟨block, (Function.update_of_ne isPtr _ _).trans live⟩

theorem free (owned : heap.Owned (ptr :: ptrs)) :
    (heap.free ptr).Owned ptrs := by
  obtain ⟨outside, nodup⟩ := List.nodup_cons.mp owned.nodup
  have rest : heap.Owned ptrs :=
    ⟨nodup, fun other member => owned.live other (List.mem_cons_of_mem _ member)⟩
  exact rest.keeps (keeps_free outside)

/-- The block of one owner is reallocated. -/
theorem realloc (owned : heap.Owned (ptr :: ptrs)) (capacity : Nat)
    (moves : Bool) :
    (heap.realloc (some ptr) capacity moves).2.Owned
        ((heap.realloc (some ptr) capacity moves).1 :: ptrs) ∧
      heap.Keeps (heap.realloc (some ptr) capacity moves).2 ptrs := by
  obtain ⟨outside, nodup⟩ := List.nodup_cons.mp owned.nodup
  rw [Heap.realloc]
  cases moves with
  | true =>
      have grown := owned.malloc capacity (heap.bytesOf ptr)
      refine ⟨(grown.perm (List.Perm.swap _ ptr ptrs)).free, ?_⟩
      have kept := (keeps_malloc owned capacity (heap.bytesOf ptr)).subset
        (List.subset_cons_self ptr ptrs)
      exact kept.trans (keeps_free outside)
  | false =>
      have kept : heap.Keeps (heap.modify ptr fun block =>
          { block with capacity := capacity }) ptrs :=
        keeps_of_update rfl outside
      refine ⟨⟨owned.nodup, fun other member => ?_⟩, kept⟩
      rcases List.mem_cons.mp member with isPtr | inRest
      · obtain ⟨block, live⟩ := owned.live ptr List.mem_cons_self
        rw [isPtr]
        exact ⟨{ block with capacity := capacity },
          (Function.update_self _ _ _).trans (by rw [live])⟩
      · obtain ⟨block, live⟩ := owned.live other (List.mem_cons_of_mem _ inRest)
        obtain ⟨_, isKept⟩ := kept other inRest block live
        exact ⟨_, isKept⟩

end Owned

/-! ## Custody -/

/-- Blocks that are written to, and blocks that keep the bytes put into them;
each has one owner. -/
structure Custody (heap : Heap) (working : List Nat)
    (kept : List (Nat × List UInt8)) : Prop where
  owned : heap.Owned (working ++ kept.map Prod.fst)
  reads : ∀ entry ∈ kept, heap.Reads entry.1 entry.2

namespace Custody

variable {working : List Nat} {kept : List (Nat × List UInt8)}
  {bytes : List UInt8}

theorem perm {others : List (Nat × List UInt8)}
    (custody : heap.Custody working kept) (same : others.Perm kept) :
    heap.Custody working others :=
  ⟨custody.owned.perm ((same.map Prod.fst).append_left working),
    fun entry member => custody.reads entry (same.subset member)⟩

/-- What is read is still read in a heap that keeps it. -/
theorem keeps (custody : heap.Custody working kept)
    (same : heap.Keeps next (kept.map Prod.fst)) :
    ∀ entry ∈ kept, next.Reads entry.1 entry.2 := fun entry member =>
  same.reads (List.mem_map_of_mem member) (custody.reads entry member)

/-- The bytes are copied into a new block. -/
theorem copy (custody : heap.Custody working kept) (bytes : List UInt8) :
    (heap.malloc bytes.length fun addr => bytes.getD addr 0).2.Custody working
      (((heap.malloc bytes.length fun addr => bytes.getD addr 0).1, bytes) ::
        kept) := by
  have owned := custody.owned.malloc bytes.length fun addr => bytes.getD addr 0
  have others := (keeps_malloc custody.owned bytes.length fun addr =>
    bytes.getD addr 0).subset (List.subset_append_right working _)
  refine ⟨owned.perm List.perm_middle, fun entry member => ?_⟩
  rcases List.mem_cons.mp member with isNew | old
  · rw [isNew]
    exact reads_malloc heap bytes
  · exact custody.keeps others entry old

/-- A kept block is freed. -/
theorem free (custody : heap.Custody working ((ptr, bytes) :: kept)) :
    (heap.free ptr).Custody working kept := by
  have owned := custody.owned.perm List.perm_middle.symm
  have outside := (List.nodup_cons.mp owned.nodup).1
  refine ⟨owned.free, fun entry member => ?_⟩
  have others := @keeps_free heap ptr _ fun member =>
    outside (List.mem_append_right working member)
  exact others.reads (List.mem_map_of_mem member)
    (custody.reads entry (List.mem_cons_of_mem _ member))

theorem free_reads (custody : heap.Custody working ((ptr, bytes) :: kept))
    {other : Nat} (member : other ∈ working) {otherBytes : List UInt8}
    (reads : heap.Reads other otherBytes) :
    (heap.free ptr).Reads other otherBytes := by
  have owned := custody.owned.perm List.perm_middle.symm
  have outside := (List.nodup_cons.mp owned.nodup).1
  have others := @keeps_free heap ptr _ fun member =>
    outside (List.mem_append_left _ member)
  exact others.reads member reads

/-- From now on nothing is written to the block. -/
theorem keep (custody : heap.Custody (ptr :: working) kept)
    (reads : heap.Reads ptr bytes) :
    heap.Custody working ((ptr, bytes) :: kept) := by
  refine ⟨custody.owned.perm List.perm_middle, fun entry member => ?_⟩
  rcases List.mem_cons.mp member with isNew | old
  · rw [isNew]
    exact reads
  · exact custody.reads entry old

/-- The block may be written to again. -/
theorem work (custody : heap.Custody working ((ptr, bytes) :: kept)) :
    heap.Custody (ptr :: working) kept :=
  ⟨custody.owned.perm List.perm_middle.symm, fun entry member =>
    custody.reads entry (List.mem_cons_of_mem _ member)⟩

theorem store (custody : heap.Custody (ptr :: working) kept)
    (bytes : List UInt8) : (heap.store ptr bytes).Custody (ptr :: working) kept := by
  have outside := (List.nodup_cons.mp custody.owned.nodup).1
  exact ⟨custody.owned.store ptr bytes, custody.keeps <| keeps_store (fun member =>
    outside (List.mem_append_right working member)) bytes⟩

theorem realloc (custody : heap.Custody (ptr :: working) kept)
    (capacity : Nat) (moves : Bool) :
    (heap.realloc (some ptr) capacity moves).2.Custody
      ((heap.realloc (some ptr) capacity moves).1 :: working) kept := by
  obtain ⟨owned, keeps⟩ := custody.owned.realloc capacity moves
  exact ⟨owned, custody.keeps (keeps.subset (List.subset_append_right working _))⟩

theorem malloc (custody : heap.Custody working kept) (capacity : Nat)
    (bytes : Nat → UInt8) :
    (heap.malloc capacity bytes).2.Custody
      ((heap.malloc capacity bytes).1 :: working) kept :=
  ⟨custody.owned.malloc capacity bytes, custody.keeps <|
    (keeps_malloc custody.owned capacity bytes).subset
      (List.subset_append_right working _)⟩

end Custody

/-! ## Capacities -/

/-- The block has at least this capacity. -/
def Roomy (heap : Heap) (size ptr : Nat) : Prop :=
  ∃ block, heap.block ptr = some block ∧ size ≤ block.capacity

/-- Blocks of at least one size and other blocks; each has one owner. -/
structure Rooms (heap : Heap) (size : Nat) (roomy others : List Nat) :
    Prop where
  owned : heap.Owned (roomy ++ others)
  room : ∀ ptr ∈ roomy, heap.Roomy size ptr

variable {size : Nat}

theorem roomy_of_update {block : Option Block} {other : Nat}
    (isNext : next.block = Function.update heap.block ptr block)
    (different : other ≠ ptr) (room : heap.Roomy size other) :
    next.Roomy size other := by
  obtain ⟨old, live, enough⟩ := room
  refine ⟨old, ?_, enough⟩
  rw [isNext, Function.update_of_ne different]
  exact live

theorem roomy_malloc {capacity : Nat} (bytes : Nat → UInt8)
    (enough : size ≤ capacity) :
    (heap.malloc capacity bytes).2.Roomy size
      (heap.malloc capacity bytes).1 :=
  ⟨_, Function.update_self _ _ _, enough⟩

theorem Roomy.malloc {other : Nat} (room : heap.Roomy size other)
    (capacity : Nat) (bytes : Nat → UInt8) :
    (heap.malloc capacity bytes).2.Roomy size other := by
  refine roomy_of_update rfl (fun isNew => ?_) room
  obtain ⟨block, live, _⟩ := room
  exact Nat.lt_irrefl _ (isNew ▸ lt_next live)

/-- What `realloc` returns has the capacity that was asked for. -/
theorem roomy_realloc {block : Block} (live : heap.block ptr = some block)
    {capacity : Nat} (enough : size ≤ capacity) (moves : Bool) :
    (heap.realloc (some ptr) capacity moves).2.Roomy size
      (heap.realloc (some ptr) capacity moves).1 := by
  rw [Heap.realloc]
  cases moves with
  | true =>
      refine roomy_of_update rfl ?_ (roomy_malloc (heap.bytesOf ptr) enough)
      exact (Nat.ne_of_lt (lt_next live)).symm
  | false =>
      refine ⟨{ block with capacity := capacity }, ?_, enough⟩
      exact (Function.update_self _ _ _).trans (by rw [live])

namespace Rooms

variable {roomy others : List Nat}

theorem perm {first second : List Nat} (rooms : heap.Rooms size roomy others)
    (sameFirst : first.Perm roomy) (sameSecond : second.Perm others) :
    heap.Rooms size first second :=
  ⟨rooms.owned.perm (sameFirst.append sameSecond),
    fun ptr member => rooms.room ptr (sameFirst.subset member)⟩

/-- A new block for others. -/
theorem copy (rooms : heap.Rooms size roomy others) (capacity : Nat)
    (bytes : Nat → UInt8) :
    (heap.malloc capacity bytes).2.Rooms size roomy
      ((heap.malloc capacity bytes).1 :: others) :=
  ⟨(rooms.owned.malloc capacity bytes).perm List.perm_middle,
    fun ptr member => (rooms.room ptr member).malloc capacity bytes⟩

/-- A new block that is large enough. -/
theorem malloc (rooms : heap.Rooms size roomy others) {capacity : Nat}
    (enough : size ≤ capacity) (bytes : Nat → UInt8) :
    (heap.malloc capacity bytes).2.Rooms size
      ((heap.malloc capacity bytes).1 :: roomy) others := by
  refine ⟨rooms.owned.malloc capacity bytes, fun ptr member => ?_⟩
  rcases List.mem_cons.mp member with isNew | old
  · rw [isNew]
    exact roomy_malloc bytes enough
  · exact (rooms.room ptr old).malloc capacity bytes

theorem forget (rooms : heap.Rooms size (ptr :: roomy) others) :
    heap.Rooms size roomy (ptr :: others) :=
  ⟨rooms.owned.perm List.perm_middle,
    fun other member => rooms.room other (List.mem_cons_of_mem ptr member)⟩

theorem free (rooms : heap.Rooms size roomy (ptr :: others)) :
    (heap.free ptr).Rooms size roomy others := by
  have owned := rooms.owned.perm List.perm_middle.symm
  have outside := (List.nodup_cons.mp owned.nodup).1
  refine ⟨owned.free, fun other member => ?_⟩
  refine roomy_of_update rfl ?_ (rooms.room other member)
  rintro rfl
  exact outside (List.mem_append_left others member)

theorem store (rooms : heap.Rooms size roomy others) (ptr : Nat)
    (bytes : List UInt8) : (heap.store ptr bytes).Rooms size roomy others := by
  refine ⟨rooms.owned.store ptr bytes, fun other member => ?_⟩
  have room := rooms.room other member
  by_cases isPtr : other = ptr
  · subst isPtr
    obtain ⟨block, live, enough⟩ := room
    exact ⟨_, (Function.update_self _ _ _).trans (congrArg _ live), enough⟩
  · exact roomy_of_update rfl isPtr room

theorem realloc (rooms : heap.Rooms size (ptr :: roomy) others)
    {capacity : Nat} (enough : size ≤ capacity) (moves : Bool) :
    (heap.realloc (some ptr) capacity moves).2.Rooms size
      ((heap.realloc (some ptr) capacity moves).1 :: roomy) others := by
  refine ⟨(rooms.owned.realloc capacity moves).1, fun other member => ?_⟩
  rcases List.mem_cons.mp member with isNew | old
  · obtain ⟨block, live⟩ := rooms.owned.live ptr List.mem_cons_self
    rw [isNew]
    exact roomy_realloc live enough moves
  · have room := rooms.room other (List.mem_cons_of_mem ptr old)
    have different : other ≠ ptr := by
      rintro rfl
      exact (List.nodup_cons.mp rooms.owned.nodup).1
        (List.mem_append_left others old)
    cases moves with
    | true =>
        exact roomy_of_update rfl different (room.malloc capacity _)
    | false =>
        exact roomy_of_update rfl different room

end Rooms

end Heap

end LibubusJni.Lib
