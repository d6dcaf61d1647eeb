import LibubusJni.Lib.Machine
import LibubusJni.Libubus.Invoke
import Mathlib.Data.List.Range

/-!
# `ubus_wrapper.c`: the objects of the application

`ubus_wrap_add_object` takes the next entry of `_ubus_objects`, has libubus
register it and sets its bit; `ubus_wrap_remove_object` clears the entry and its
bit.  The tree `ctx->objects` of the bus context holds entries by their place in
the table.  A call of `ubus_wrap_add_object` is one action, with what ubusd
answers; object messages that come in the meantime are processed behind it.

`registered` lists the identifiers ubusd has given to objects of this client;
ubusd gives none out twice.  A failed assertion ends the process, and so does a
search in the tree that meets an entry whose `avl.key` was cleared: such a
search is taken to meet it.
-/

namespace LibubusJni.Wrapper

open LibubusJni.Lib LibubusJni.Libubox LibubusJni.Libubus

/-- `MAX_OBJECTS`. -/
def maxObjects : Nat := 100

/-- `struct ubus_object`; `keyed` says that `avl.key` points to `id`. -/
structure WrapObject where
  name : Option String
  methods : List String
  id : UInt32
  keyed : Bool
  deriving DecidableEq, Repr

/-- A cleared entry. -/
def WrapObject.zero : WrapObject := ⟨none, [], 0, false⟩

/-- An INVOKE that was dispatched: the object it names, the entry that was
found, and whether the bit of the entry was set. -/
structure DispatchedInvoke where
  objid : UInt32
  entry : Option Nat
  inUse : Bool
  deriving DecidableEq, Repr

/-- The static variables of the wrapper that concern objects, and the tree. -/
structure ObjectTable where
  nobject : Nat
  useBitmap : Nat → Bool
  objects : Nat → WrapObject
  tree : List Nat
  registered : List UInt32
  dispatched : List DispatchedInvoke
  fault : Bool

/-- How ubusd answers an ADD_OBJECT. -/
inductive AddReply where
  /-- DATA with the identifier of the new object, and a STATUS of zero. -/
  | added (id : UInt32)
  /-- A STATUS only. -/
  | status (code : UInt32)
  deriving DecidableEq, Repr

inductive ObjectAction where
  /-- `ubus_wrap_add_object`; `methods` is `none` if the type does not parse. -/
  | addObject (name : String) (methods : Option (List String))
      (reply : AddReply)
  /-- `ubus_wrap_remove_object`. -/
  | removeObject (objectId : Int)
  /-- `ubus_process_obj_msg` of an INVOKE of this object. -/
  | invoke (objid : UInt32)
  deriving DecidableEq, Repr

namespace ObjectTable

/-- The key of an entry in the tree. -/
def keyOf (table : ObjectTable) (index : Nat) : UInt32 :=
  (table.objects index).id

/-- All entries in the tree have a key. -/
def keysReadable (table : ObjectTable) : Bool :=
  table.tree.all fun index => (table.objects index).keyed

/-- The registration of an entry with libubus: `ubus_add_object_cb`, whose
`avl_insert` does nothing if the key is taken. -/
def ubusAddObjectCb (table : ObjectTable) (index : Nat) (id : UInt32) :
    ObjectTable :=
  let object := { table.objects index with id := id, keyed := true }
  let filled :=
    { table with objects := Function.update table.objects index object }
  if table.keysReadable then
    { filled with
      tree :=
        (avlInsert ubusCmpId filled.keyOf index table.tree).getD table.tree }
  else { filled with fault := true }

/-- `ubus_wrap_add_object`. -/
def ubusWrapAddObject (table : ObjectTable) (name : String)
    (methods : Option (List String)) (reply : AddReply) :
    Option ObjectTable :=
  let index := table.nobject
  if index + 1 < maxObjects then
    match methods, reply with
    | some methods, .added id =>
        -- ubusd has no other object with this identifier; `ubus_add_object`
        -- reports an object without one
        if id = 0 ∨ id ∈ table.registered then none
        else
          let object :=
            { table.objects index with
              name := some name, methods := methods }
          let added := ObjectTable.ubusAddObjectCb
            { table with
              objects := Function.update table.objects index object
              registered := id :: table.registered } index id
          some
            { added with
              useBitmap := Function.update table.useBitmap index true
              nobject := table.nobject + 1 }
    | _, _ => none
  else none

/-- `ubus_wrap_remove_object`. -/
def ubusWrapRemoveObject (table : ObjectTable) (objectId : Int) :
    Option ObjectTable :=
  if objectId < table.nobject ∧ 0 ≤ objectId ∧
      table.useBitmap objectId.toNat = true then
    some
      { table with
        objects := Function.update table.objects objectId.toNat .zero
        useBitmap := Function.update table.useBitmap objectId.toNat false }
  else none

/-- The search of `ubus_process_obj_msg`. -/
def ubusProcessObjMsg (table : ObjectTable) (objid : UInt32) : ObjectTable :=
  if table.keysReadable then
    let entry := avlFind ubusCmpId table.keyOf objid table.tree
    { table with
      dispatched := table.dispatched ++
        [⟨objid, entry, (entry.map table.useBitmap).getD false⟩] }
  else { table with fault := true }

def step (table : ObjectTable) (action : ObjectAction) : Option ObjectTable :=
  if table.fault then none
  else
    match action with
    | .addObject name methods reply =>
        table.ubusWrapAddObject name methods reply
    | .removeObject objectId => table.ubusWrapRemoveObject objectId
    | .invoke objid => some (table.ubusProcessObjMsg objid)

/-- The number of entries whose bit is set. -/
def inUse (table : ObjectTable) : Nat :=
  ((List.range maxObjects).filter table.useBitmap).length

end ObjectTable

/-- The wrapper at its start. -/
def objectTable : Machine ObjectTable ObjectAction where
  init := ⟨0, fun _ => false, fun _ => .zero, [], [], [], false⟩
  step := ObjectTable.step

/-- The tree holds exactly the entries in use, so that no cleared entry is read
or found, and an entry is free while fewer than 99 objects are registered. -/
structure ObjectTable.InStep (table : ObjectTable) : Prop where
  linked : ∀ index, index ∈ table.tree ↔
    index < maxObjects ∧ table.useBitmap index = true
  noFault : table.fault = false
  found : ∀ invoke ∈ table.dispatched, invoke.entry.isSome = true →
    invoke.inUse = true
  room : table.inUse < maxObjects - 1 → table.nobject + 1 < maxObjects

/-- No object is removed. -/
def KeepsObjects (_ : ObjectTable) : ObjectAction → Prop
  | .removeObject _ => False
  | .addObject .. | .invoke _ => True

/-- What adding and removing keep: the tree holds every entry handed out, and
the entries in use have keys of their own. -/
structure ObjectInv (table : ObjectTable) : Prop where
  bound : table.nobject < maxObjects
  used : ∀ index, table.useBitmap index = true → index < table.nobject
  keyed : ∀ index, (table.objects index).keyed = true ↔
    table.useBitmap index = true
  known : ∀ index, table.useBitmap index = true →
    (table.objects index).id ∈ table.registered
  tree : table.fault = false →
    ∀ index, index ∈ table.tree ↔ index < table.nobject

section Steps

variable {table next : ObjectTable}

/-- In step, the entries in use are those handed out. -/
theorem ObjectTable.InStep.used_iff (good : table.InStep)
    (inv : ObjectInv table) (index : Nat) :
    table.useBitmap index = true ↔ index < table.nobject := by
  constructor
  · exact inv.used index
  · intro below
    exact ((good.linked index).mp
      ((inv.tree good.noFault index).mpr below)).2

theorem inUse_eq (used : ∀ index,
      table.useBitmap index = true ↔ index < table.nobject)
    (bound : table.nobject ≤ maxObjects) : table.inUse = table.nobject := by
  have split : List.range maxObjects = List.range table.nobject ++
      (List.range (maxObjects - table.nobject)).map (table.nobject + ·) := by
    rw [← List.range_add, Nat.add_sub_of_le bound]
  have first : (List.range table.nobject).filter table.useBitmap =
      List.range table.nobject := by
    refine List.filter_eq_self.mpr fun index member => ?_
    exact (used index).mpr (List.mem_range.mp member)
  have second : ((List.range (maxObjects - table.nobject)).map
      (table.nobject + ·)).filter table.useBitmap = [] := by
    refine List.filter_eq_nil_iff.mpr fun index member => ?_
    obtain ⟨offset, _, same⟩ := List.mem_map.mp member
    rw [used, ← same]
    omega
  rw [ObjectTable.inUse, split, List.filter_append, first, second,
    List.append_nil, List.length_range]

theorem ObjectTable.InStep.keysReadable (good : table.InStep)
    (inv : ObjectInv table) : table.keysReadable = true := by
  refine List.all_eq_true.mpr fun index member => ?_
  exact (inv.keyed index).mpr ((good.linked index).mp member).2

/-- `ubus_add_object_cb` fills in the entry and leaves the others alone. -/
theorem fields_ubusAddObjectCb (table : ObjectTable) (index : Nat)
    (id : UInt32) :
    (table.ubusAddObjectCb index id).objects =
        Function.update table.objects index
          { table.objects index with id := id, keyed := true } ∧
      (table.ubusAddObjectCb index id).registered = table.registered ∧
      (table.ubusAddObjectCb index id).dispatched = table.dispatched ∧
      (table.ubusAddObjectCb index id).fault =
        (table.fault || !table.keysReadable) := by
  rw [ObjectTable.ubusAddObjectCb]
  cases table.keysReadable with
  | true =>
      exact ⟨rfl, rfl, rfl, (Bool.or_false _).symm⟩
  | false =>
      exact ⟨rfl, rfl, rfl, (Bool.or_true _).symm⟩

/-- The entry goes into the tree if no entry there has its key. -/
theorem tree_ubusAddObjectCb {index : Nat} {id : UInt32}
    (readable : table.keysReadable = true) (absent : index ∉ table.tree)
    (free : ∀ other ∈ table.tree, (table.objects other).id ≠ id)
    (other : Nat) :
    other ∈ (table.ubusAddObjectCb index id).tree ↔
      other = index ∨ other ∈ table.tree := by
  rw [ObjectTable.ubusAddObjectCb]
  dsimp only
  rw [if_pos readable]
  dsimp only
  rw [avlInsert_some.mpr ⟨fun node member equal => ?_, rfl⟩,
    Option.getD_some, mem_avlInsertDup]
  have same := ubusCmpId_eq.mp equal
  have different : node ≠ index := fun isIndex => absent (isIndex ▸ member)
  rw [ObjectTable.keyOf, ObjectTable.keyOf] at same
  dsimp only at same
  rw [Function.update_self, Function.update_of_ne different] at same
  exact free node member same.symm

theorem ObjectInv.init : ObjectInv objectTable.init :=
  { bound := by decide
    used := fun _ isUsed => nomatch isUsed
    keyed := fun _ => Iff.rfl
    known := fun _ isUsed => nomatch isUsed
    tree := fun _ index => by
      exact iff_of_false List.not_mem_nil (Nat.not_lt_zero index) }

/-- While the keys can be read, a new identifier is not among them. -/
theorem ObjectInv.free (inv : ObjectInv table)
    (readable : table.keysReadable = true) {id : UInt32}
    (new : id ∉ table.registered) {index : Nat} (member : index ∈ table.tree) :
    (table.objects index).id ≠ id := by
  have keyed := List.all_eq_true.mp readable index member
  intro same
  exact new (same ▸ inv.known index ((inv.keyed index).mp keyed))

/-- `ubus_wrap_add_object` when it returns. -/
structure Adds (table : ObjectTable) (id : UInt32) (next : ObjectTable) :
    Prop where
  room : table.nobject + 1 < maxObjects
  new : id ∉ table.registered
  nobject : next.nobject = table.nobject + 1
  useBitmap : next.useBitmap =
    Function.update table.useBitmap table.nobject true
  others : ∀ index, index ≠ table.nobject →
    next.objects index = table.objects index
  own : (next.objects table.nobject).keyed = true ∧
    (next.objects table.nobject).id = id
  registered : next.registered = id :: table.registered
  dispatched : next.dispatched = table.dispatched
  fault : next.fault = (table.fault || !table.keysReadable)
  tree : table.keysReadable = true → table.nobject ∉ table.tree →
    (∀ index ∈ table.tree, (table.objects index).id ≠ id) →
      ∀ index, index ∈ next.tree ↔
        index = table.nobject ∨ index ∈ table.tree

theorem adds_ubusWrapAddObject {name : String}
    {methods : Option (List String)} {reply : AddReply}
    (taken : table.ubusWrapAddObject name methods reply = some next) :
    ∃ id, Adds table id next := by
  rw [ObjectTable.ubusWrapAddObject.eq_def] at taken
  dsimp only at taken
  split at taken
  · rename_i room
    split at taken
    · rename_i methods id
      split at taken
      · cases taken
      · rename_i fresh
        rw [not_or] at fresh
        rw [Option.some.injEq] at taken
        subst taken
        refine ⟨id, ?_⟩
        let object : WrapObject :=
          { table.objects table.nobject with
            name := some name, methods := methods }
        let filled : ObjectTable :=
          { table with
            objects := Function.update table.objects table.nobject object
            registered := id :: table.registered }
        have entry (index : Nat) :
            (filled.objects index).keyed = (table.objects index).keyed ∧
              (filled.objects index).id = (table.objects index).id := by
          by_cases isNew : index = table.nobject
          · have self : filled.objects table.nobject = object :=
              Function.update_self ..
            rw [isNew, self]
            exact ⟨rfl, rfl⟩
          · have same : filled.objects index = table.objects index :=
              Function.update_of_ne isNew ..
            rw [same]
            exact ⟨rfl, rfl⟩
        have sameKeys : filled.keysReadable = table.keysReadable := by
          rw [ObjectTable.keysReadable, ObjectTable.keysReadable]
          refine congrArg (List.all table.tree) (funext fun index => ?_)
          exact (entry index).1
        obtain ⟨objects, registered, dispatched, fault⟩ :=
          fields_ubusAddObjectCb filled table.nobject id
        exact
          { room := room
            new := fresh.2
            nobject := rfl
            useBitmap := rfl
            others := fun index different => by
              refine (congrFun objects index).trans ?_
              rw [Function.update_of_ne different]
              exact Function.update_of_ne different ..
            own := by
              have own := congrFun objects table.nobject
              rw [Function.update_self] at own
              exact ⟨congrArg WrapObject.keyed own,
                congrArg WrapObject.id own⟩
            registered := registered
            dispatched := dispatched
            fault := by
              rw [← sameKeys]
              exact fault
            tree := fun readable absent free => by
              refine tree_ubusAddObjectCb (sameKeys.trans readable) absent
                fun other member => ?_
              rw [(entry other).2]
              exact free other member }
    · cases taken
  · cases taken

theorem ObjectInv.add (inv : ObjectInv table) (alive : table.fault = false)
    {id : UInt32} (adds : Adds table id next) : ObjectInv next := by
  have bits (index : Nat) : next.useBitmap index = true ↔
      index = table.nobject ∨ table.useBitmap index = true := by
    rw [adds.useBitmap]
    by_cases isNew : index = table.nobject
    · rw [isNew, Function.update_self]
      simp
    · rw [Function.update_of_ne isNew]
      simp [isNew]
  have entries (index : Nat) (isOld : index ≠ table.nobject) :
      next.objects index = table.objects index := adds.others index isOld
  refine
    { bound := ?_
      used := fun index isUsed => ?_
      keyed := fun index => ?_
      known := fun index isUsed => ?_
      tree := fun stillAlive index => ?_ }
  · rw [adds.nobject]
    exact adds.room
  · rw [adds.nobject]
    rcases (bits index).mp isUsed with isNew | wasUsed
    · exact Nat.lt_succ_of_le (Nat.le_of_eq isNew)
    · exact Nat.lt_succ_of_lt (inv.used index wasUsed)
  · rw [bits]
    by_cases isNew : index = table.nobject
    · rw [isNew]
      exact iff_of_true adds.own.1 (Or.inl rfl)
    · rw [entries index isNew, inv.keyed]
      exact (or_iff_right isNew).symm
  · rw [adds.registered]
    by_cases isNew : index = table.nobject
    · rw [isNew, adds.own.2]
      exact List.mem_cons_self
    · rw [entries index isNew]
      exact List.mem_cons_of_mem id
        (inv.known index (((bits index).mp isUsed).resolve_left isNew))
  · rw [adds.fault, alive, Bool.false_or, Bool.not_eq_false'] at stillAlive
    have before := inv.tree alive
    have absent : table.nobject ∉ table.tree := fun member =>
      absurd ((before _).mp member) (Nat.lt_irrefl _)
    rw [adds.tree stillAlive absent
      (fun other member => inv.free stillAlive adds.new member), before,
      adds.nobject]
    omega

theorem ObjectInv.remove (inv : ObjectInv table) (index : Nat) :
    ObjectInv
      { table with
        objects := Function.update table.objects index .zero
        useBitmap := Function.update table.useBitmap index false } := by
  have bits (other : Nat) :
      Function.update table.useBitmap index false other = true ↔
        other ≠ index ∧ table.useBitmap other = true := by
    by_cases same : other = index
    · rw [same, Function.update_self]
      simp
    · rw [Function.update_of_ne same]
      simp [same]
  refine
    { bound := inv.bound
      used := fun other isUsed => inv.used other ((bits other).mp isUsed).2
      keyed := fun other => ?_
      known := fun other isUsed => ?_
      tree := inv.tree }
  · refine Iff.trans ?_ (bits other).symm
    dsimp only
    by_cases same : other = index
    · rw [same, Function.update_self]
      simp [WrapObject.zero]
    · rw [Function.update_of_ne same, inv.keyed]
      simp [same]
  · obtain ⟨different, wasUsed⟩ := (bits other).mp isUsed
    dsimp only
    rw [Function.update_of_ne different]
    exact inv.known other wasUsed

theorem ObjectInv.step (inv : ObjectInv table) {action : ObjectAction}
    (taken : table.step action = some next) : ObjectInv next := by
  rw [ObjectTable.step.eq_def] at taken
  split at taken
  · cases taken
  · rename_i alive
    have alive' : table.fault = false := eq_false_of_ne_true alive
    cases action with
    | addObject name methods reply =>
        obtain ⟨id, adds⟩ := adds_ubusWrapAddObject taken
        exact inv.add alive' adds
    | removeObject objectId =>
        dsimp only at taken
        rw [ObjectTable.ubusWrapRemoveObject] at taken
        split at taken
        · rw [Option.some.injEq] at taken
          subst taken
          exact inv.remove objectId.toNat
        · cases taken
    | invoke objid =>
        dsimp only at taken
        rw [ObjectTable.ubusProcessObjMsg, Option.some.injEq] at taken
        split at taken
        · subst taken
          exact { inv with }
        · subst taken
          exact { inv with tree := fun impossible => nomatch impossible }

theorem ObjectTable.InStep.add (good : table.InStep) (inv : ObjectInv table)
    {id : UInt32} (adds : Adds table id next) : next.InStep := by
  have readable := good.keysReadable inv
  have before := inv.tree good.noFault
  have nextInv := inv.add good.noFault adds
  have noFault : next.fault = false := by
    rw [adds.fault, good.noFault, readable]
    rfl
  have used (index : Nat) : next.useBitmap index = true ↔
      index < next.nobject := by
    rw [adds.useBitmap, adds.nobject]
    by_cases isNew : index = table.nobject
    · rw [isNew, Function.update_self]
      simp
    · rw [Function.update_of_ne isNew, good.used_iff inv]
      omega
  refine
    { linked := fun index => ?_
      noFault := noFault
      found := fun invoke member => ?_
      room := fun fewer => ?_ }
  · rw [nextInv.tree noFault, used]
    exact ⟨fun below => ⟨Nat.lt_trans below nextInv.bound, below⟩, And.right⟩
  · rw [adds.dispatched] at member
    exact good.found invoke member
  · rw [inUse_eq used (Nat.le_of_lt nextInv.bound)] at fewer
    exact Nat.add_lt_of_lt_sub fewer

theorem ObjectTable.InStep.invoke (good : table.InStep)
    (inv : ObjectInv table) (objid : UInt32) :
    (table.ubusProcessObjMsg objid).InStep := by
  rw [ObjectTable.ubusProcessObjMsg, if_pos (good.keysReadable inv)]
  refine { good with found := fun invoke member isFound => ?_ }
  rcases List.mem_append.mp member with older | newest
  · exact good.found invoke older isFound
  · rw [List.mem_singleton] at newest
    subst newest
    dsimp only at isFound ⊢
    obtain ⟨index, isIndex⟩ := Option.isSome_iff_exists.mp isFound
    have linked := (good.linked index).mp (avlFind_some isIndex).1
    rw [isIndex]
    exact linked.2

/-- A removed entry stays in the tree. -/
theorem ObjectTable.InStep.remove (good : table.InStep)
    (inv : ObjectInv table) {objectId : Int}
    (taken : table.ubusWrapRemoveObject objectId = some next) :
    ¬ next.InStep := by
  rw [ObjectTable.ubusWrapRemoveObject] at taken
  split at taken
  · rename_i isUsed
    rw [Option.some.injEq] at taken
    subst taken
    intro still
    have below := inv.used _ isUsed.2.2
    have linked := (inv.tree good.noFault _).mpr below
    have bit := ((still.linked objectId.toNat).mp linked).2
    dsimp only at bit
    rw [Function.update_self] at bit
    cases bit
  · cases taken

/-- From a state in step, exactly a removal leads to one that is not. -/
theorem ObjectTable.InStep.step_iff (good : table.InStep)
    (inv : ObjectInv table) {action : ObjectAction}
    (taken : table.step action = some next) :
    next.InStep ↔ KeepsObjects table action := by
  rw [ObjectTable.step.eq_def, good.noFault, if_neg Bool.false_ne_true]
    at taken
  cases action with
  | addObject name methods reply =>
      obtain ⟨id, adds⟩ := adds_ubusWrapAddObject taken
      exact iff_of_true (good.add inv adds) trivial
  | removeObject objectId =>
      exact iff_of_false (good.remove inv taken) id
  | invoke objid =>
      dsimp only at taken
      rw [Option.some.injEq] at taken
      subst taken
      exact iff_of_true (good.invoke inv objid) trivial

theorem ObjectTable.InStep.init : objectTable.init.InStep :=
  { linked := fun index => by
      simp [objectTable]
    noFault := rfl
    found := fun _ member => nomatch member
    room := fun _ => by decide }

end Steps

/-- In every run, the tree of the bus context and the table of the wrapper are
in step in every state, and entries can be used again, if and only if no object
is removed. -/
theorem wrapper_objectsInStep_iff
    {actions : List ObjectAction} {final : ObjectTable}
    (reached : objectTable.run actions = some final) :
    objectTable.Always ObjectTable.InStep objectTable.init actions ↔
      objectTable.Meets KeepsObjects objectTable.init actions :=
  Machine.always_iff_meets ObjectInv.init ObjectTable.InStep.init
    (fun _ _ _ inv _ taken => inv.step taken)
    (fun _ _ _ inv good taken => good.step_iff inv taken) reached

/-- Two objects are added, and the second is called. -/
def twoAdded : List ObjectAction :=
  [.addObject "a" (some ["get"]) (.added 7),
    .addObject "b" (some []) (.added 5), .invoke 5]

theorem wrapper_objectsInStep_iff_twoAdded :
    objectTable.Always ObjectTable.InStep objectTable.init twoAdded := by
  refine (@wrapper_objectsInStep_iff twoAdded _ rfl).mpr ?_
  exact Machine.Meets.cons trivial rfl
    (Machine.Meets.cons trivial rfl (Machine.Meets.cons trivial rfl trivial))

/-- An object is added and removed: its cleared entry stays in the tree, where
the next INVOKE meets it. -/
theorem wrapper_removed_staysLinked :
    ∃ removed final,
      objectTable.run
          [.addObject "a" (some ["get"]) (.added 7), .removeObject 0] =
        some removed ∧
      removed.tree = [0] ∧ removed.useBitmap 0 = false ∧
      objectTable.step removed (.invoke 7) = some final ∧
      final.fault = true ∧
      ¬ objectTable.Always ObjectTable.InStep objectTable.init
        [.addObject "a" (some ["get"]) (.added 7), .removeObject 0] := by
  refine ⟨_, _, rfl, rfl, rfl, rfl, rfl, fun always => ?_⟩
  have removed := (always.2 _ rfl).2 _ rfl
  have linked := ((Machine.Always.first removed).linked 0).mp
    (List.mem_singleton_self 0)
  cases linked.2

end LibubusJni.Wrapper
