import LibubusJni.Lib.Cycle
import LibubusJni.Lib.Simulation
import LibubusJni.Libubox.List

/-!
# `list.h` in memory

The functions of `list.h` on the two fields of `struct list_head`, and that they do
to the lists what `listAdd`, `listAddTail` and `listDel` do.  A function that
follows a null pointer has no result.
-/

namespace LibubusJni.Libubox

open LibubusJni.Lib

/-- The fields of every `struct list_head`; `none` is a null pointer. -/
abbrev ListMem (Ptr : Type) := Pointers Ptr

namespace ListMem

variable {Ptr : Type} [DecidableEq Ptr]

/-! ## The functions -/

/-- `ptr->next = value`. -/
def setNext (mem : ListMem Ptr) (ptr value : Option Ptr) :
    Option (ListMem Ptr) :=
  ptr.map fun ptr => { mem with next := Function.update mem.next ptr value }

/-- `ptr->prev = value`. -/
def setPrev (mem : ListMem Ptr) (ptr value : Option Ptr) :
    Option (ListMem Ptr) :=
  ptr.map fun ptr => { mem with prev := Function.update mem.prev ptr value }

/-- `INIT_LIST_HEAD`. -/
def initListHead (mem : ListMem Ptr) (list : Ptr) : Option (ListMem Ptr) := do
  let mem ← setPrev mem (some list) (some list)
  setNext mem (some list) (some list)

/-- `list_empty`. -/
def listEmpty (mem : ListMem Ptr) (head : Ptr) : Bool :=
  mem.next head == some head

/-- `list_is_first`. -/
def listIsFirst (mem : ListMem Ptr) (list head : Ptr) : Bool :=
  mem.prev list == some head

/-- `list_is_last`. -/
def listIsLast (mem : ListMem Ptr) (list head : Ptr) : Bool :=
  mem.next list == some head

/-- `_list_del`. -/
def listUnlink (mem : ListMem Ptr) (entry : Ptr) : Option (ListMem Ptr) := do
  let mem ← setPrev mem (mem.next entry) (mem.prev entry)
  setNext mem (mem.prev entry) (mem.next entry)

/-- `list_del`. -/
def listDel (mem : ListMem Ptr) (entry : Ptr) : Option (ListMem Ptr) := do
  let mem ← listUnlink mem entry
  let mem ← setPrev mem (some entry) none
  setNext mem (some entry) none

/-- `_list_add`. -/
def listInsert (mem : ListMem Ptr) (new : Ptr) (prev next : Option Ptr) :
    Option (ListMem Ptr) := do
  let mem ← setPrev mem next (some new)
  let mem ← setNext mem (some new) next
  let mem ← setPrev mem (some new) prev
  setNext mem prev (some new)

/-- `list_del_init`. -/
def listDelInit (mem : ListMem Ptr) (entry : Ptr) : Option (ListMem Ptr) := do
  let mem ← listUnlink mem entry
  initListHead mem entry

/-- `list_add`. -/
def listAdd (mem : ListMem Ptr) (new head : Ptr) : Option (ListMem Ptr) :=
  listInsert mem new (some head) (mem.next head)

/-- `list_add_tail`. -/
def listAddTail (mem : ListMem Ptr) (new head : Ptr) : Option (ListMem Ptr) :=
  listInsert mem new (mem.prev head) (some head)

/-- `list_move`. -/
def listMove (mem : ListMem Ptr) (list head : Ptr) : Option (ListMem Ptr) := do
  let mem ← listUnlink mem list
  listAdd mem list head

/-- `list_move_tail`. -/
def listMoveTail (mem : ListMem Ptr) (entry head : Ptr) :
    Option (ListMem Ptr) := do
  let mem ← listUnlink mem entry
  listAddTail mem entry head

/-- `_list_splice`. -/
def listJoin (mem : ListMem Ptr) (list : Ptr) (prev next : Option Ptr) :
    Option (ListMem Ptr) :=
  if listEmpty mem list then some mem
  else do
    let first := mem.next list
    let last := mem.prev list
    let mem ← setPrev mem first prev
    let mem ← setNext mem prev first
    let mem ← setNext mem last next
    setPrev mem next last

/-- `list_splice`. -/
def listSplice (mem : ListMem Ptr) (list head : Ptr) : Option (ListMem Ptr) :=
  listJoin mem list (some head) (mem.next head)

/-- `list_splice_tail`. -/
def listSpliceTail (mem : ListMem Ptr) (list head : Ptr) :
    Option (ListMem Ptr) :=
  listJoin mem list (mem.prev head) (some head)

/-- `list_splice_init`. -/
def listSpliceInit (mem : ListMem Ptr) (list head : Ptr) :
    Option (ListMem Ptr) := do
  let mem ← listSplice mem list head
  initListHead mem list

/-- `list_splice_tail_init`. -/
def listSpliceTailInit (mem : ListMem Ptr) (list head : Ptr) :
    Option (ListMem Ptr) := do
  let mem ← listSpliceTail mem list head
  initListHead mem list

/-- `list_for_each`, from `p` on: the entries that it comes to. -/
def listForEach (mem : ListMem Ptr) (head : Ptr) :
    Nat → Option Ptr → Option (List Ptr)
  | 0, _ | _ + 1, none => none
  | fuel + 1, some p =>
      if p = head then some []
      else (listForEach mem head fuel (mem.next p)).map (p :: ·)

/-- `list_for_each_prev`, from `p` on. -/
def listForEachPrev (mem : ListMem Ptr) (head : Ptr) :
    Nat → Option Ptr → Option (List Ptr)
  | 0, _ | _ + 1, none => none
  | fuel + 1, some p =>
      if p = head then some []
      else (listForEachPrev mem head fuel (mem.prev p)).map (p :: ·)

/-- `list_for_each_safe`, from `p` and `n` on: what its body leaves, and the
entries that it comes to. -/
def listForEachSafe (body : ListMem Ptr → Ptr → Option (ListMem Ptr))
    (head : Ptr) :
    Nat → ListMem Ptr → Option Ptr → Option Ptr →
      Option (ListMem Ptr × List Ptr)
  | 0, _, _, _ | _ + 1, _, none, _ => none
  | fuel + 1, mem, some p, n =>
      if p = head then some (mem, [])
      else do
        let mem ← body mem p
        let n ← n
        let done ← listForEachSafe body head fuel mem (some n) (mem.next n)
        some (done.1, p :: done.2)

/-! ## What they do to the pointers -/

section Pointers

variable {mem : ListMem Ptr} {entry list head prev next first last : Ptr}

theorem initListHead_eq (mem : ListMem Ptr) (list : Ptr) :
    initListHead mem list = some (mem.join list list) :=
  rfl

theorem listUnlink_eq (isPrev : mem.prev entry = some prev)
    (isNext : mem.next entry = some next) :
    listUnlink mem entry = some (mem.join prev next) := by
  have still : Function.update mem.prev next (some prev) entry = some prev := by
    by_cases same : entry = next
    · rw [same, Function.update_self]
    · rw [Function.update_of_ne same, isPrev]
  rw [listUnlink, isPrev, isNext, setPrev, Option.map_some]
  dsimp only [bind, Option.bind]
  rw [still, isNext]
  rfl

theorem listInsert_eq (mem : ListMem Ptr) (new prev next : Ptr) :
    listInsert mem new (some prev) (some next) =
      some ((mem.join new next).join prev new) :=
  rfl

theorem listJoin_eq (filled : listEmpty mem list = false)
    (isFirst : mem.next list = some first) (isLast : mem.prev list = some last) :
    listJoin mem list (some prev) (some next) =
      some ((mem.join prev first).join last next) := by
  rw [listJoin, filled, isFirst, isLast]
  rfl

end Pointers

end ListMem

/-! ## The lists -/

/-- The heads of lists, and their entries in order. -/
structure Lists (Ptr : Type) where
  heads : List Ptr
  entries : Ptr → List Ptr

namespace Lists

variable {Ptr : Type} [DecidableEq Ptr]

/-- The pointer is in no list, or it is the head of an empty one. -/
def Idle (lists : Lists Ptr) (ptr : Ptr) : Prop :=
  ∀ head ∈ lists.heads, ptr ∈ head :: lists.entries head →
    head = ptr ∧ lists.entries head = []

instance (lists : Lists Ptr) (ptr : Ptr) : Decidable (lists.Idle ptr) :=
  inferInstanceAs (Decidable (∀ head ∈ lists.heads, _ → _))

/-- The other heads. -/
def without (lists : Lists Ptr) (ptr : Ptr) : List Ptr :=
  lists.heads.filter (· ≠ ptr)

def setEntries (lists : Lists Ptr) (head : Ptr) (entries : List Ptr) :
    Lists Ptr :=
  { lists with entries := Function.update lists.entries head entries }

/-- The pointer becomes the head of an empty list. -/
def setEmpty (lists : Lists Ptr) (ptr : Ptr) : Lists Ptr :=
  ⟨ptr :: lists.without ptr, Function.update lists.entries ptr []⟩

end Lists

/-- The calls of the functions; where the list of an entry is not an argument of
the function it stands here beside it. -/
inductive ListAction (Ptr : Type) where
  | initListHead (list : Ptr)
  | listAdd (new head : Ptr)
  | listAddTail (new head : Ptr)
  | listDel (entry source : Ptr)
  | listDelInit (entry source : Ptr)
  | listMove (entry source head : Ptr)
  | listMoveTail (entry source head : Ptr)
  | listSplice (list head : Ptr)
  | listSpliceTail (list head : Ptr)
  | listSpliceInit (list head : Ptr)
  | listSpliceTailInit (list head : Ptr)
  deriving DecidableEq, Repr

section Machines

variable {Ptr : Type} [DecidableEq Ptr]

/-- What the calls do in memory. -/
def ListMem.step (mem : ListMem Ptr) : ListAction Ptr → Option (ListMem Ptr)
  | .initListHead list => mem.initListHead list
  | .listAdd new head => mem.listAdd new head
  | .listAddTail new head => mem.listAddTail new head
  | .listDel entry _ => mem.listDel entry
  | .listDelInit entry _ => mem.listDelInit entry
  | .listMove entry _ head => mem.listMove entry head
  | .listMoveTail entry _ head => mem.listMoveTail entry head
  | .listSplice list head => mem.listSplice list head
  | .listSpliceTail list head => mem.listSpliceTail list head
  | .listSpliceInit list head => mem.listSpliceInit list head
  | .listSpliceTailInit list head => mem.listSpliceTailInit list head

/-- What the calls are for.  A pointer that is put into a list or initialised must
be in no list; only lists that are different can be spliced. -/
def Lists.step (lists : Lists Ptr) : ListAction Ptr → Option (Lists Ptr)
  | .initListHead list =>
      if lists.Idle list then some (lists.setEmpty list) else none
  | .listAdd new head =>
      if head ∈ lists.heads ∧ lists.Idle new ∧ new ≠ head then
        some ({ lists with heads := lists.without new }.setEntries head
          (listAdd new (lists.entries head)))
      else none
  | .listAddTail new head =>
      if head ∈ lists.heads ∧ lists.Idle new ∧ new ≠ head then
        some ({ lists with heads := lists.without new }.setEntries head
          (listAddTail new (lists.entries head)))
      else none
  | .listDel entry source =>
      if source ∈ lists.heads ∧ entry ∈ lists.entries source then
        some (lists.setEntries source (listDel entry (lists.entries source)))
      else none
  | .listDelInit entry source =>
      if source ∈ lists.heads ∧ entry ∈ lists.entries source then
        some ((lists.setEntries source (listDel entry
          (lists.entries source))).setEmpty entry)
      else none
  | .listMove entry source head =>
      if source ∈ lists.heads ∧ entry ∈ lists.entries source ∧
          head ∈ lists.heads then
        let lists :=
          lists.setEntries source (listDel entry (lists.entries source))
        some (lists.setEntries head (listAdd entry (lists.entries head)))
      else none
  | .listMoveTail entry source head =>
      if source ∈ lists.heads ∧ entry ∈ lists.entries source ∧
          head ∈ lists.heads then
        let lists :=
          lists.setEntries source (listDel entry (lists.entries source))
        some (lists.setEntries head (listAddTail entry (lists.entries head)))
      else none
  | .listSplice list head =>
      if list ∈ lists.heads ∧ head ∈ lists.heads ∧ list ≠ head then
        some ({ lists with heads := lists.without list }.setEntries head
          (lists.entries list ++ lists.entries head))
      else none
  | .listSpliceTail list head =>
      if list ∈ lists.heads ∧ head ∈ lists.heads ∧ list ≠ head then
        some ({ lists with heads := lists.without list }.setEntries head
          (lists.entries head ++ lists.entries list))
      else none
  | .listSpliceInit list head =>
      if list ∈ lists.heads ∧ head ∈ lists.heads ∧ list ≠ head then
        some ((lists.setEntries head
          (lists.entries list ++ lists.entries head)).setEmpty list)
      else none
  | .listSpliceTailInit list head =>
      if list ∈ lists.heads ∧ head ∈ lists.heads ∧ list ≠ head then
        some ((lists.setEntries head
          (lists.entries head ++ lists.entries list)).setEmpty list)
      else none

/-- All pointers are null. -/
def listMemory : Machine (ListMem Ptr) (ListAction Ptr) where
  init := ⟨fun _ => none, fun _ => none⟩
  step := ListMem.step

/-- No lists. -/
def listLists : Machine (Lists Ptr) (ListAction Ptr) where
  init := ⟨[], fun _ => []⟩
  step := Lists.step

end Machines

/-! ## The memory holds the lists -/

section Holds

variable {Ptr : Type} [DecidableEq Ptr] {mem : ListMem Ptr} {lists : Lists Ptr}
  {entry head list new : Ptr}

/-- Every list is a cycle from its head, and no two share a pointer. -/
def HoldsLists (mem : ListMem Ptr) (lists : Lists Ptr) : Prop :=
  Cycles mem lists.heads lists.entries

theorem mem_without {ptr other : Ptr} :
    other ∈ lists.without ptr ↔ other ∈ lists.heads ∧ other ≠ ptr := by
  simp [Lists.without]

theorem HoldsLists.forget (holds : HoldsLists mem lists) (ptr : Ptr) :
    Cycles mem (lists.without ptr) lists.entries :=
  holds.frame (fun _ member => (mem_without.mp member).1)
    fun _ _ => ⟨rfl, rfl⟩

/-- An idle pointer is in no other list. -/
theorem Lists.Idle.outside (idle : lists.Idle new) :
    Outside (lists.without new) lists.entries new := by
  intro other member inside
  obtain ⟨was, different⟩ := mem_without.mp member
  exact different (idle other was inside).1

/-- What `list_del` leaves of the list. -/
theorem listDel_middle {front back : List Ptr}
    (once : (front ++ entry :: back).Nodup) :
    listDel entry (front ++ entry :: back) = front ++ back := by
  have outside := (List.nodup_cons.mp (List.nodup_middle.mp once)).1
  rw [List.mem_append, not_or] at outside
  rw [listDel, List.filter_append, List.filter_cons_of_neg (by simp),
    List.filter_eq_self.mpr, List.filter_eq_self.mpr]
  · intro other member
    exact decide_eq_true (ne_of_mem_of_not_mem member outside.2)
  · intro other member
    exact decide_eq_true (ne_of_mem_of_not_mem member outside.1)

/-- `_list_del`. -/
theorem HoldsLists.unlink (holds : HoldsLists mem lists)
    (isHead : head ∈ lists.heads) (member : entry ∈ lists.entries head) :
    ∃ next, mem.listUnlink entry = some next ∧
      HoldsLists next
        (lists.setEntries head (listDel entry (lists.entries head))) ∧
      Outside lists.heads (Function.update lists.entries head
        (listDel entry (lists.entries head))) entry := by
  obtain ⟨front, back, place⟩ := List.append_of_mem member
  have cycle := place ▸ holds.cycle head isHead
  obtain ⟨isPrev, isNext⟩ := cycle.around
  refine ⟨_, ListMem.listUnlink_eq isPrev isNext, ?_⟩
  rw [HoldsLists, Lists.setEntries, place,
    listDel_middle (List.nodup_cons.mp cycle.once).2]
  exact holds.remove isHead place

/-- `_list_add` behind a part of a list. -/
theorem HoldsLists.insert {front back : List Ptr} (holds : HoldsLists mem lists)
    (isHead : head ∈ lists.heads) (place : lists.entries head = front ++ back)
    (outside : Outside lists.heads lists.entries new) :
    ∃ next,
      mem.listInsert new (some (lastOf head front)) (some (firstOf head back)) =
        some next ∧
      HoldsLists next (lists.setEntries head (front ++ new :: back)) :=
  ⟨_, ListMem.listInsert_eq mem new _ _, Cycles.insert holds isHead place outside⟩

/-- `list_add` of a pointer that is in no list. -/
theorem HoldsLists.add (holds : HoldsLists mem lists)
    (isHead : head ∈ lists.heads)
    (outside : Outside lists.heads lists.entries new) :
    ∃ next, mem.listAdd new head = some next ∧
      HoldsLists next
        (lists.setEntries head (listAdd new (lists.entries head))) := by
  have ends := (holds.cycle head isHead).ends
  have done := @HoldsLists.insert _ _ mem lists head new [] _ holds isHead rfl
    outside
  rw [ListMem.listAdd, ends.1]
  exact done

/-- `list_add_tail` of a pointer that is in no list. -/
theorem HoldsLists.addTail (holds : HoldsLists mem lists)
    (isHead : head ∈ lists.heads)
    (outside : Outside lists.heads lists.entries new) :
    ∃ next, mem.listAddTail new head = some next ∧
      HoldsLists next
        (lists.setEntries head (listAddTail new (lists.entries head))) := by
  have ends := (holds.cycle head isHead).ends
  have done := @HoldsLists.insert _ _ mem lists head new _ [] holds isHead
    (List.append_nil _).symm outside
  rw [ListMem.listAddTail, ends.2]
  exact done

/-- `INIT_LIST_HEAD` of a pointer that is in no other list. -/
theorem HoldsLists.init (holds : HoldsLists mem lists)
    (outside : Outside (lists.without new) lists.entries new) :
    ∃ next, mem.initListHead new = some next ∧
      HoldsLists next (lists.setEmpty new) :=
  ⟨_, ListMem.initListHead_eq mem new, (holds.forget new).reset outside⟩

/-- `_list_splice` of a list that has entries. -/
theorem HoldsLists.join {front back : List Ptr} (holds : HoldsLists mem lists)
    (isHead : head ∈ lists.heads) (isList : list ∈ lists.heads)
    (different : list ≠ head) (filled : lists.entries list ≠ [])
    (place : lists.entries head = front ++ back) :
    ∃ next,
      mem.listJoin list (some (lastOf head front)) (some (firstOf head back)) =
        some next ∧
      HoldsLists next ({ lists with heads := lists.without list }.setEntries
        head (front ++ lists.entries list ++ back)) ∧
      Outside (lists.without list) (Function.update lists.entries head
        (front ++ lists.entries list ++ back)) list := by
  obtain ⟨isNext, isPrev⟩ := (holds.cycle list isList).ends
  obtain ⟨first, rest, isEntries⟩ := List.exists_cons_of_ne_nil filled
  have isFirst : firstOf list (lists.entries list) = first := by
    rw [isEntries]
    rfl
  have notEmpty : mem.listEmpty list = false := by
    rw [ListMem.listEmpty, isNext, isFirst]
    have once := (holds.cycle list isList).once
    rw [isEntries] at once
    have notHead : first ≠ list := fun same =>
      (List.nodup_cons.mp once).1 (same ▸ List.mem_cons_self)
    simpa using notHead
  rw [isFirst] at isNext
  have isLast : (lists.entries list).getLast? =
      some (lastOf list (lists.entries list)) := by
    have ends := getLast?_cons list (lists.entries list)
    rwa [← List.singleton_append,
      List.getLast?_append_of_ne_nil _ filled] at ends
  refine ⟨_, ListMem.listJoin_eq notEmpty isNext isPrev, ?_⟩
  refine Cycles.splice holds isHead isList different place ?_ isLast
  rw [isEntries]
  rfl

/-- A head is in no list of another one. -/
theorem HoldsLists.outside_head (holds : HoldsLists mem lists)
    (isList : list ∈ lists.heads) :
    Outside (lists.without list) lists.entries list := by
  intro other member
  obtain ⟨was, different⟩ := mem_without.mp member
  exact holds.apart list isList other was different.symm list
    List.mem_cons_self

/-- `list_splice` and `list_splice_tail`: `prev` and `next` are around the place
where the entries go. -/
theorem HoldsLists.spliced {front back : List Ptr} (holds : HoldsLists mem lists)
    (isHead : head ∈ lists.heads) (isList : list ∈ lists.heads)
    (different : list ≠ head) (place : lists.entries head = front ++ back) :
    ∃ next,
      mem.listJoin list (some (lastOf head front)) (some (firstOf head back)) =
        some next ∧
      HoldsLists next ({ lists with heads := lists.without list }.setEntries
        head (front ++ lists.entries list ++ back)) ∧
      Outside (lists.without list) (Function.update lists.entries head
        (front ++ lists.entries list ++ back)) list := by
  by_cases empty : lists.entries list = []
  · have ends := (holds.cycle list isList).ends
    have isEmpty : mem.listEmpty list = true := by
      rw [ListMem.listEmpty, ends.1, empty]
      exact BEq.rfl
    have same : Function.update lists.entries head
        (front ++ lists.entries list ++ back) = lists.entries := by
      rw [empty, List.append_nil, ← place, Function.update_eq_self]
    refine ⟨mem, ?_, ?_, ?_⟩
    · rw [ListMem.listJoin, if_pos isEmpty]
    · rw [HoldsLists, Lists.setEntries, same]
      exact holds.forget list
    · rw [same]
      exact holds.outside_head isList
  · exact holds.join isHead isList different empty place

theorem HoldsLists.splice (holds : HoldsLists mem lists)
    (isHead : head ∈ lists.heads) (isList : list ∈ lists.heads)
    (different : list ≠ head) :
    ∃ next, mem.listSplice list head = some next ∧
      HoldsLists next ({ lists with heads := lists.without list }.setEntries
        head (lists.entries list ++ lists.entries head)) ∧
      Outside (lists.without list) (Function.update lists.entries head
        (lists.entries list ++ lists.entries head)) list := by
  rw [ListMem.listSplice, (holds.cycle head isHead).ends.1]
  exact @HoldsLists.spliced _ _ mem lists head list [] _ holds isHead isList
    different rfl

theorem HoldsLists.spliceTail (holds : HoldsLists mem lists)
    (isHead : head ∈ lists.heads) (isList : list ∈ lists.heads)
    (different : list ≠ head) :
    ∃ next, mem.listSpliceTail list head = some next ∧
      HoldsLists next ({ lists with heads := lists.without list }.setEntries
        head (lists.entries head ++ lists.entries list)) ∧
      Outside (lists.without list) (Function.update lists.entries head
        (lists.entries head ++ lists.entries list)) list := by
  have done := @HoldsLists.spliced _ _ mem lists head list _ [] holds isHead
    isList different (List.append_nil _).symm
  rw [List.append_nil] at done
  rw [ListMem.listSpliceTail, (holds.cycle head isHead).ends.2]
  exact done

/-- `list_del` of an entry. -/
theorem HoldsLists.del (holds : HoldsLists mem lists)
    (isHead : head ∈ lists.heads) (member : entry ∈ lists.entries head) :
    ∃ next, mem.listDel entry = some next ∧
      HoldsLists next
        (lists.setEntries head (listDel entry (lists.entries head))) := by
  obtain ⟨middle, unlinked, still, outside⟩ := holds.unlink isHead member
  let cleared : ListMem Ptr :=
    ⟨Function.update middle.next entry none,
      Function.update middle.prev entry none⟩
  have held : HoldsLists cleared
      (lists.setEntries head (listDel entry (lists.entries head))) := by
    refine still.frame (fun _ member => member) fun other inside => ?_
    have different : other ≠ entry := fun same => inside (same ▸ outside)
    exact ⟨Function.update_of_ne different ..,
      Function.update_of_ne different ..⟩
  refine ⟨cleared, ?_, held⟩
  rw [ListMem.listDel, unlinked]
  rfl

/-! ## Steps -/

/-- Every call does in memory what it is for. -/
theorem listMemory_follows :
    Machine.Follows (listMemory : Machine (ListMem Ptr) (ListAction Ptr))
      listLists HoldsLists := by
  intro mem lists action next holds taken
  cases action with
  | initListHead list =>
      obtain ⟨idle, same⟩ := Option.ite_none_right_eq_some.mp taken
      cases same
      exact holds.init idle.outside
  | listAdd new head =>
      obtain ⟨⟨isHead, idle, different⟩, same⟩ :=
        Option.ite_none_right_eq_some.mp taken
      cases same
      exact @HoldsLists.add _ _ mem { lists with heads := lists.without new }
        head new (holds.forget new) (mem_without.mpr ⟨isHead, different.symm⟩)
        idle.outside
  | listAddTail new head =>
      obtain ⟨⟨isHead, idle, different⟩, same⟩ :=
        Option.ite_none_right_eq_some.mp taken
      cases same
      exact @HoldsLists.addTail _ _ mem
        { lists with heads := lists.without new } head new (holds.forget new)
        (mem_without.mpr ⟨isHead, different.symm⟩) idle.outside
  | listDel entry source =>
      obtain ⟨⟨isHead, member⟩, same⟩ := Option.ite_none_right_eq_some.mp taken
      cases same
      exact holds.del isHead member
  | listDelInit entry source =>
      obtain ⟨⟨isHead, member⟩, same⟩ := Option.ite_none_right_eq_some.mp taken
      cases same
      obtain ⟨middle, unlinked, still, outside⟩ := holds.unlink isHead member
      obtain ⟨next, done, held⟩ := still.init fun other member =>
        outside other (mem_without.mp member).1
      refine ⟨next, ?_, held⟩
      rw [listMemory]
      dsimp only [ListMem.step]
      rw [ListMem.listDelInit, unlinked]
      exact done
  | listMove entry source head =>
      obtain ⟨⟨isSource, member, isHead⟩, same⟩ :=
        Option.ite_none_right_eq_some.mp taken
      cases same
      obtain ⟨middle, unlinked, still, outside⟩ := holds.unlink isSource member
      obtain ⟨next, done, held⟩ := still.add isHead outside
      refine ⟨next, ?_, held⟩
      rw [listMemory]
      dsimp only [ListMem.step]
      rw [ListMem.listMove, unlinked]
      exact done
  | listMoveTail entry source head =>
      obtain ⟨⟨isSource, member, isHead⟩, same⟩ :=
        Option.ite_none_right_eq_some.mp taken
      cases same
      obtain ⟨middle, unlinked, still, outside⟩ := holds.unlink isSource member
      obtain ⟨next, done, held⟩ := still.addTail isHead outside
      refine ⟨next, ?_, held⟩
      rw [listMemory]
      dsimp only [ListMem.step]
      rw [ListMem.listMoveTail, unlinked]
      exact done
  | listSplice list head =>
      obtain ⟨⟨isList, isHead, different⟩, same⟩ :=
        Option.ite_none_right_eq_some.mp taken
      cases same
      obtain ⟨next, done, held, _⟩ := holds.splice isHead isList different
      exact ⟨next, done, held⟩
  | listSpliceTail list head =>
      obtain ⟨⟨isList, isHead, different⟩, same⟩ :=
        Option.ite_none_right_eq_some.mp taken
      cases same
      obtain ⟨next, done, held, _⟩ := holds.spliceTail isHead isList different
      exact ⟨next, done, held⟩
  | listSpliceInit list head =>
      obtain ⟨⟨isList, isHead, different⟩, same⟩ :=
        Option.ite_none_right_eq_some.mp taken
      cases same
      obtain ⟨middle, done, still, outside⟩ :=
        holds.splice isHead isList different
      refine ⟨_, ?_, still.reset outside⟩
      rw [listMemory]
      dsimp only [ListMem.step]
      rw [ListMem.listSpliceInit, done]
      exact ListMem.initListHead_eq middle list
  | listSpliceTailInit list head =>
      obtain ⟨⟨isList, isHead, different⟩, same⟩ :=
        Option.ite_none_right_eq_some.mp taken
      cases same
      obtain ⟨middle, done, still, outside⟩ :=
        holds.spliceTail isHead isList different
      refine ⟨_, ?_, still.reset outside⟩
      rw [listMemory]
      dsimp only [ListMem.step]
      rw [ListMem.listSpliceTailInit, done]
      exact ListMem.initListHead_eq middle list

end Holds

/-! ## Loops -/

section Loops

variable {Ptr : Type} [DecidableEq Ptr] {mem : ListMem Ptr} {head : Ptr}
  {front back : List Ptr}

/-- What the functions that change nothing see of a list. -/
structure ReadsList (mem : ListMem Ptr) (head : Ptr) (entries : List Ptr) :
    Prop where
  empty : mem.listEmpty head = entries.isEmpty
  forth : ∀ fuel, entries.length < fuel →
    mem.listForEach head fuel (mem.next head) = some entries
  back : ∀ fuel, entries.length < fuel →
    mem.listForEachPrev head fuel (mem.prev head) = some entries.reverse
  first : ∀ entry ∈ entries,
    mem.listIsFirst entry head = true ↔ entries.head? = some entry
  last : ∀ entry ∈ entries,
    mem.listIsLast entry head = true ↔ entries.getLast? = some entry

omit [DecidableEq Ptr] in
theorem notHead_of_mem {entries : List Ptr} (cycle : Cycle mem head entries)
    {entry : Ptr} (member : entry ∈ entries) : entry ≠ head :=
  ne_of_mem_of_not_mem member (List.nodup_cons.mp cycle.once).1

theorem listForEach_from (cycle : Cycle mem head (front ++ back)) {fuel : Nat}
    (enough : back.length < fuel) :
    mem.listForEach head fuel (some (firstOf head back)) = some back := by
  induction back generalizing front fuel with
  | nil =>
      obtain ⟨less, rfl⟩ := Nat.exists_eq_add_one.mpr enough
      exact if_pos rfl
  | cons entry rest inductionHypothesis =>
      obtain ⟨less, rfl⟩ :=
        Nat.exists_eq_add_one.mpr (Nat.lt_of_le_of_lt (Nat.zero_le _) enough)
      have longer : front ++ entry :: rest = (front ++ [entry]) ++ rest := by
        rw [List.append_assoc, List.singleton_append]
      have different := notHead_of_mem cycle
        (List.mem_append_right front List.mem_cons_self)
      have further := inductionHypothesis (longer ▸ cycle)
        (Nat.lt_of_succ_lt_succ enough)
      have isEntry : firstOf head (entry :: rest) = entry := rfl
      rw [isEntry, ListMem.listForEach, if_neg different, cycle.around.2, further]
      rfl

theorem listForEachPrev_from (cycle : Cycle mem head (front ++ back))
    {fuel : Nat} (enough : front.length < fuel) :
    mem.listForEachPrev head fuel (some (lastOf head front)) =
      some front.reverse := by
  induction front using List.reverseRecOn generalizing back fuel with
  | nil =>
      obtain ⟨less, rfl⟩ := Nat.exists_eq_add_one.mpr enough
      exact if_pos rfl
  | append_singleton rest entry inductionHypothesis =>
      obtain ⟨less, rfl⟩ :=
        Nat.exists_eq_add_one.mpr (Nat.lt_of_le_of_lt (Nat.zero_le _) enough)
      have longer : rest ++ [entry] ++ back = rest ++ entry :: back := by
        rw [List.append_assoc, List.singleton_append]
      rw [longer] at cycle
      rw [List.length_append] at enough
      have different := notHead_of_mem cycle
        (List.mem_append_right rest List.mem_cons_self)
      have further := inductionHypothesis cycle
        (Nat.lt_of_succ_lt_succ enough)
      have isEntry : lastOf head (rest ++ [entry]) = entry := by
        rw [lastOf, List.getLast_cons (by simp), List.getLast_concat]
      rw [isEntry, ListMem.listForEachPrev, if_neg different, cycle.around.1,
        further, List.reverse_concat]
      rfl

theorem readsList {entries : List Ptr} (cycle : Cycle mem head entries) :
    ReadsList mem head entries where
  empty := by
    rw [ListMem.listEmpty, cycle.ends.1]
    cases entries with
    | nil =>
        exact BEq.rfl
    | cons first rest =>
        have isFirst : firstOf head (first :: rest) = first := rfl
        rw [isFirst]
        simpa using notHead_of_mem cycle List.mem_cons_self
  forth fuel enough := by
    rw [cycle.ends.1]
    exact @listForEach_from _ _ mem head [] entries cycle fuel enough
  back fuel enough := by
    rw [cycle.ends.2]
    have same : entries = entries ++ [] := (List.append_nil _).symm
    exact listForEachPrev_from (same ▸ cycle) enough
  first entry member := by
    obtain ⟨front, back, rfl⟩ := List.append_of_mem member
    rw [ListMem.listIsFirst, cycle.around.1, beq_iff_eq, Option.some_inj]
    cases front with
    | nil =>
        exact iff_of_true rfl rfl
    | cons first rest =>
        have isMember : lastOf head (first :: rest) ∈ first :: rest := by
          rw [lastOf, List.getLast_cons (List.cons_ne_nil _ _)]
          exact List.getLast_mem _
        refine iff_of_false
          (notHead_of_mem cycle (List.mem_append_left _ isMember)) ?_
        have once := cycle.once
        simp only [List.cons_append, List.nodup_cons, List.head?_cons,
          Option.some_inj] at once ⊢
        rintro rfl
        exact once.2.1 (List.mem_append_right _ List.mem_cons_self)
  last entry member := by
    obtain ⟨front, back, rfl⟩ := List.append_of_mem member
    rw [ListMem.listIsLast, cycle.around.2, beq_iff_eq, Option.some_inj]
    cases back with
    | nil =>
        exact iff_of_true rfl List.getLast?_concat
    | cons first rest =>
        refine iff_of_false (notHead_of_mem cycle (List.mem_append_right _
          (List.mem_cons_of_mem _ List.mem_cons_self))) ?_
        have once := (List.nodup_cons.mp cycle.once).2
        have notMember := (List.nodup_cons.mp
          (List.nodup_append.mp once).2.1).1
        rw [List.getLast?_append_of_ne_nil _ (List.cons_ne_nil _ _),
          ← List.singleton_append,
          List.getLast?_append_of_ne_nil _ (List.cons_ne_nil _ _)]
        exact fun isLast => notMember (List.mem_of_getLast? isLast)

end Loops

/-! ## Runs -/

section Runs

variable {Ptr : Type} [DecidableEq Ptr]

/-- In every sequence of calls that are allowed, no function follows a null
pointer, and the lists in memory are those that the calls are for, read forth and
back. -/
theorem listMemory_run {actions : List (ListAction Ptr)} {lists : Lists Ptr}
    (run : listLists.run actions = some lists) :
    ∃ mem : ListMem Ptr, listMemory.run actions = some mem ∧
      ∀ head ∈ lists.heads, ReadsList mem head (lists.entries head) := by
  obtain ⟨mem, reached, holds⟩ := listMemory_follows.run
    (Cycles.init listMemory.init fun _ => []) run
  exact ⟨mem, reached, fun head isHead => readsList (holds.cycle head isHead)⟩

/-- Three entries, the second of which is moved to another list, which is put back
in front of the first one. -/
def threeEntries : List (ListAction Nat) :=
  [.initListHead 0, .initListHead 9, .listAddTail 1 0, .listAddTail 2 0,
    .listAdd 3 0, .listMoveTail 1 0 9, .listSpliceInit 9 0, .listDel 3 0]

theorem listMemory_run_threeEntries :
    ∃ lists, listLists.run threeEntries = some lists ∧
      ∃ mem : ListMem Nat, listMemory.run threeEntries = some mem ∧
        ∀ head ∈ lists.heads, ReadsList mem head (lists.entries head) :=
  ⟨_, rfl, @listMemory_run Nat _ threeEntries _ rfl⟩

/-- The body of a loop changes the list of this head at most by taking the entry
out of it that the loop has come to. -/
def TakesAtMost (head : Ptr)
    (body : ListMem Ptr → Ptr → Option (ListMem Ptr)) : Prop :=
  ∀ mem lists entry, HoldsLists mem lists → head ∈ lists.heads →
    entry ∈ lists.entries head →
      ∃ next left, body mem entry = some next ∧ HoldsLists next left ∧
        head ∈ left.heads ∧
          (left.entries head = lists.entries head ∨
            left.entries head = listDel entry (lists.entries head))

theorem listForEachSafe_from {head : Ptr}
    {body : ListMem Ptr → Ptr → Option (ListMem Ptr)}
    (takes : TakesAtMost head body) {front back : List Ptr} {mem : ListMem Ptr}
    {lists : Lists Ptr} (holds : HoldsLists mem lists)
    (isHead : head ∈ lists.heads) (place : lists.entries head = front ++ back)
    {fuel : Nat} (enough : back.length < fuel) :
    ∃ next left,
      ListMem.listForEachSafe body head fuel mem (some (firstOf head back))
          (mem.next (firstOf head back)) = some (next, back) ∧
        HoldsLists next left ∧ head ∈ left.heads ∧
          (left.entries head).Sublist (front ++ back) := by
  induction back generalizing front mem lists fuel with
  | nil =>
      obtain ⟨less, rfl⟩ := Nat.exists_eq_add_one.mpr enough
      exact ⟨mem, lists, if_pos rfl, holds, isHead,
        place ▸ List.Sublist.refl _⟩
  | cons entry rest inductionHypothesis =>
      obtain ⟨less, rfl⟩ :=
        Nat.exists_eq_add_one.mpr (Nat.lt_of_le_of_lt (Nat.zero_le _) enough)
      have cycle := place ▸ holds.cycle head isHead
      have member : entry ∈ lists.entries head := by
        rw [place]
        exact List.mem_append_right front List.mem_cons_self
      have different := notHead_of_mem (holds.cycle head isHead) member
      obtain ⟨middle, between, done, still, stays, change⟩ :=
        takes mem lists entry holds isHead member
      -- what is left in front of the entries to come
      obtain ⟨passed, kept, shorter⟩ : ∃ passed,
          between.entries head = passed ++ rest ∧
            passed.Sublist (front ++ [entry]) := by
        rcases change with same | taken
        · refine ⟨front ++ [entry], ?_, List.Sublist.refl _⟩
          rw [same, place, List.append_assoc, List.singleton_append]
        · refine ⟨front, ?_, List.sublist_append_left front [entry]⟩
          rw [taken, place, listDel_middle (List.nodup_cons.mp cycle.once).2]
      obtain ⟨next, left, later, held, remains, sublist⟩ :=
        inductionHypothesis still stays kept (Nat.lt_of_succ_lt_succ enough)
      refine ⟨next, left, ?_, held, remains, ?_⟩
      · have isEntry : firstOf head (entry :: rest) = entry := rfl
        rw [isEntry, ListMem.listForEachSafe, if_neg different, done,
          cycle.around.2]
        dsimp only [bind, Option.bind]
        rw [later]
      · refine sublist.trans ((shorter.append_right rest).trans ?_)
        rw [List.append_assoc, List.singleton_append]

/-- A loop that may take its entry out of the list comes to all entries in their
order. -/
theorem listForEachSafe_visits {head : Ptr}
    {body : ListMem Ptr → Ptr → Option (ListMem Ptr)}
    (takes : TakesAtMost head body) {mem : ListMem Ptr} {lists : Lists Ptr}
    (holds : HoldsLists mem lists) (isHead : head ∈ lists.heads) {fuel : Nat}
    (enough : (lists.entries head).length < fuel) :
    ∃ next left,
      ListMem.listForEachSafe body head fuel mem (mem.next head)
          ((mem.next head).bind mem.next) =
        some (next, lists.entries head) ∧
      HoldsLists next left ∧ head ∈ left.heads ∧
        (left.entries head).Sublist (lists.entries head) := by
  rw [(holds.cycle head isHead).ends.1]
  exact @listForEachSafe_from _ _ head body takes [] (lists.entries head) mem
    lists holds isHead rfl fuel enough

/-- A loop that deletes the entry 2. -/
def deleteTwo (mem : ListMem Nat) (entry : Nat) : Option (ListMem Nat) :=
  if entry = 2 then mem.listDel entry else some mem

theorem listForEachSafe_visits_deleteTwo :
    ∃ mem lists, listMemory.run (threeEntries.take 5) = some mem ∧
      listLists.run (threeEntries.take 5) = some lists ∧
      ∃ next left,
        ListMem.listForEachSafe deleteTwo 0 4 mem (mem.next 0)
            ((mem.next 0).bind mem.next) = some (next, lists.entries 0) ∧
          HoldsLists next left ∧ 0 ∈ left.heads ∧
            (left.entries 0).Sublist (lists.entries 0) := by
  obtain ⟨mem, reached, holds⟩ := @Machine.Follows.run _ _ _ listMemory
    listLists HoldsLists listMemory_follows (threeEntries.take 5) _
    (Cycles.init listMemory.init fun _ => []) rfl
  refine ⟨mem, _, reached, rfl, @listForEachSafe_visits Nat _ 0 deleteTwo ?_ mem
    _ holds (by decide) 4 (by decide)⟩
  intro mem lists entry holds isHead member
  rw [deleteTwo]
  split
  · obtain ⟨next, done, held⟩ := holds.del isHead member
    exact ⟨next, _, done, held, isHead,
      Or.inr (Function.update_self 0 _ lists.entries)⟩
  · exact ⟨mem, lists, rfl, holds, isHead, Or.inl rfl⟩

end Runs

end LibubusJni.Libubox
