import Mathlib.Logic.Function.Basic
import LibubusJni.Libubox.Avl
import LibubusJni.Libubox.List

/-!
# The linked structures of `ubusd_obj.h` and `ubusd_event.c`

Clients, object types, objects, subscriptions and event sources lie in memory
and refer to each other by pointer.  The five trees and the lists hold pointers
too.  An address is never used twice, so what is freed stays in memory but is
no longer reached.
-/

namespace LibubusJni.Ubusd

open LibubusJni.Libubox

/-- An address returned by `calloc`. -/
abbrev Ptr := Nat

/-- The part of `struct ubus_client` that objects have to do with. -/
structure ClientEntry where
  id : UInt32
  objects : List Ptr
  deriving DecidableEq, Repr

/-- `struct ubus_object_type`; of a method its `data`. -/
structure UbusObjectType where
  id : UInt32
  refcount : Nat
  methods : List (List UInt8)
  deriving DecidableEq, Repr

/-- `struct ubus_object` without its two counters.  `recvMsg` says whether
`recv_msg` is set. -/
structure UbusObject where
  id : UInt32
  events : List Ptr
  subscribers : List Ptr
  targetList : List Ptr
  type : Option Ptr
  path : Option (List UInt8)
  client : Option Ptr
  recvMsg : Bool
  deriving DecidableEq, Repr

/-- `struct ubus_subscription`. -/
structure UbusSubscription where
  subscriber : Ptr
  target : Ptr
  deriving DecidableEq, Repr

/-- `struct event_source`. -/
structure EventSource where
  obj : Ptr
  key : List UInt8
  isPartial : Bool
  deriving DecidableEq, Repr

/-- `ubus_cmp_id`. -/
def ubusCmpId (id1 id2 : UInt32) : Ordering :=
  if id1 < id2 then .lt else if id2 < id1 then .gt else .eq

theorem ubusCmpId_eq {id1 id2 : UInt32} :
    ubusCmpId id1 id2 = .eq ↔ id1 = id2 := by
  rw [ubusCmpId]
  split
  · rename_i less
    simp [UInt32.ne_of_lt less]
  · split
    · rename_i greater
      simp [(UInt32.ne_of_lt greater).symm]
    · rename_i notLess notGreater
      simp [UInt32.le_antisymm (UInt32.not_lt.mp notGreater)
        (UInt32.not_lt.mp notLess)]

/-- The trees, and the memory that pointers lead to. -/
structure ObjStore where
  clients : List Ptr
  objTypes : List Ptr
  objects : List Ptr
  path : List Ptr
  patterns : List Ptr
  clientAt : Ptr → ClientEntry
  typeAt : Ptr → UbusObjectType
  objectAt : Ptr → UbusObject
  subscriptionAt : Ptr → UbusSubscription
  sourceAt : Ptr → EventSource
  eventObj : Ptr
  /-- The next address that `calloc` returns. -/
  allocs : Ptr

namespace ObjStore

/-! ## Trees of identifiers -/

/-- `ubus_find_id(&clients, id)`. -/
def findClient (store : ObjStore) (id : UInt32) : Option Ptr :=
  avlFind ubusCmpId (fun cl => (store.clientAt cl).id) id store.clients

/-- `ubus_find_id(&obj_types, id)`. -/
def findType (store : ObjStore) (id : UInt32) : Option Ptr :=
  avlFind ubusCmpId (fun type => (store.typeAt type).id) id store.objTypes

/-- `ubusd_find_object`. -/
def ubusdFindObject (store : ObjStore) (id : UInt32) : Option Ptr :=
  avlFind ubusCmpId (fun obj => (store.objectAt obj).id) id store.objects

/-! ## Clients -/

/-- A client in the tree, with the identifier given to it. -/
def addClient (store : ObjStore) (id : UInt32) : ObjStore :=
  let clientAt := Function.update store.clientAt store.allocs ⟨id, []⟩
  { store with
    clients :=
      avlInsertDup ubusCmpId (fun cl => (clientAt cl).id) store.allocs
        store.clients
    clientAt := clientAt
    allocs := store.allocs + 1 }

/-- `ubus_free_id(&clients, &cl->id)`. -/
def removeClient (store : ObjStore) (cl : Ptr) : ObjStore :=
  { store with clients := avlDelete cl store.clients }

/-! ## Object types -/

/-- A type in the tree, with one reference. -/
def addType (store : ObjStore) (id : UInt32) : ObjStore :=
  let typeAt := Function.update store.typeAt store.allocs ⟨id, 1, []⟩
  { store with
    objTypes :=
      avlInsertDup ubusCmpId (fun type => (typeAt type).id) store.allocs
        store.objTypes
    typeAt := typeAt
    allocs := store.allocs + 1 }

/-- Stores to the fields of one type. -/
def modifyType (store : ObjStore) (ptr : Ptr)
    (change : UbusObjectType → UbusObjectType) : ObjStore :=
  { store with
    typeAt := Function.update store.typeAt ptr (change (store.typeAt ptr)) }

/-- `type->refcount++`. -/
def refType (store : ObjStore) (ptr : Ptr) : ObjStore :=
  store.modifyType ptr fun type => { type with refcount := type.refcount + 1 }

/-- `ubus_unref_object_type`: `if (--type->refcount > 0) return;`, else the
methods are freed and the type leaves the tree. -/
def ubusUnrefObjectType (store : ObjStore) (ptr : Ptr) : ObjStore :=
  { store.modifyType ptr fun type =>
      { type with
        refcount := type.refcount - 1
        methods := if 0 < type.refcount - 1 then type.methods else [] } with
    objTypes :=
      if 0 < (store.typeAt ptr).refcount - 1 then store.objTypes
      else avlDelete ptr store.objTypes }

/-- `ubus_create_obj_method`. -/
def ubusCreateObjMethod (store : ObjStore) (ptr : Ptr) (data : List UInt8) :
    ObjStore :=
  store.modifyType ptr fun type =>
    { type with methods := listAddTail data type.methods }

/-! ## Objects -/

/-- Stores to the fields of one object. -/
def modifyObject (store : ObjStore) (ptr : Ptr)
    (change : UbusObject → UbusObject) : ObjStore :=
  { store with
    objectAt :=
      Function.update store.objectAt ptr (change (store.objectAt ptr)) }

/-- `ubusd_create_object_internal` behind `ubus_alloc_id`. -/
def addObject (store : ObjStore) (id : UInt32) (type : Option Ptr) :
    ObjStore :=
  let objectAt := Function.update store.objectAt store.allocs
    ⟨id, [], [], [], type, none, none, false⟩
  { store with
    objects :=
      avlInsertDup ubusCmpId (fun obj => (objectAt obj).id) store.allocs
        store.objects
    objectAt := objectAt
    typeAt :=
      match type with
      | none => store.typeAt
      | some type => (store.refType type).typeAt
    allocs := store.allocs + 1 }

/-- `obj->path.key`, once `avl_insert` has taken it. -/
def addPath (store : ObjStore) (obj : Ptr) (key : List UInt8)
    (tree : List Ptr) : ObjStore :=
  { store.modifyObject obj fun object => { object with path := some key } with
    path := tree }

/-- `avl_insert(&path, &obj->path)` with this key. -/
def insertPath (store : ObjStore) (obj : Ptr) (key : List UInt8) :
    Option ObjStore :=
  (avlInsert avlStrcmp
    (fun other =>
      if other = obj then key else (store.objectAt other).path.getD [])
    obj store.path).map (store.addPath obj key)

/-- `obj->client = cl; list_add(&obj->list, &cl->objects);` -/
def setOwner (store : ObjStore) (obj cl : Ptr) : ObjStore :=
  let client := store.clientAt cl
  { store.modifyObject obj fun object => { object with client := some cl } with
    clientAt := Function.update store.clientAt cl
      { client with objects := listAdd obj client.objects } }

/-- `list_del(&obj->list)`, on whichever list the object is. -/
def unlinkObject (store : ObjStore) (obj : Ptr) : ObjStore :=
  { store with
    clientAt := fun cl =>
      let client := store.clientAt cl
      { client with objects := listDel obj client.objects } }

/-- `avl_delete(&path, &obj->path)`. -/
def removePath (store : ObjStore) (obj : Ptr) : ObjStore :=
  { store with path := avlDelete obj store.path }

/-- `ubus_free_id(&objects, &obj->id)`. -/
def removeObject (store : ObjStore) (obj : Ptr) : ObjStore :=
  { store with objects := avlDelete obj store.objects }

/-! ## Subscriptions -/

/-- A subscription on the lists of its two objects. -/
def addSubscription (store : ObjStore) (obj target : Ptr) : ObjStore :=
  let s := store.allocs
  let store :=
    { store with
      subscriptionAt := Function.update store.subscriptionAt s ⟨obj, target⟩
      allocs := s + 1 }
  (store.modifyObject target fun object =>
    { object with subscribers := listAdd s object.subscribers }).modifyObject
      obj fun object =>
        { object with targetList := listAdd s object.targetList }

/-- `list_del(&s->list); list_del(&s->target_list);`, on whichever lists the
subscription is. -/
def unlinkSubscription (store : ObjStore) (s : Ptr) : ObjStore :=
  { store with
    objectAt := fun ptr =>
      let obj := store.objectAt ptr
      { obj with
        subscribers := listDel s obj.subscribers
        targetList := listDel s obj.targetList } }

/-! ## Event sources -/

/-- An event source on the list of its object and in the tree of patterns. -/
def addSource (store : ObjStore) (obj : Ptr) (key : List UInt8)
    (isPartial : Bool) : ObjStore :=
  let ev := store.allocs
  let sourceAt := Function.update store.sourceAt ev ⟨obj, key, isPartial⟩
  { store.modifyObject obj fun object =>
      { object with events := listAdd ev object.events } with
    patterns :=
      avlInsertDup avlStrcmp (fun source => (sourceAt source).key) ev
        store.patterns
    sourceAt := sourceAt
    allocs := ev + 1 }

/-- `ubusd_delete_event_source`. -/
def ubusdDeleteEventSource (store : ObjStore) (ev : Ptr) : ObjStore :=
  { store with
    objectAt := fun ptr =>
      let obj := store.objectAt ptr
      { obj with events := listDel ev obj.events }
    patterns := avlDelete ev store.patterns }

/-- `ubusd_event_cleanup_object`. -/
def ubusdEventCleanupObject (store : ObjStore) (obj : Ptr) : ObjStore :=
  (store.objectAt obj).events.foldl ubusdDeleteEventSource store

/-! ## Fields that a change leaves alone -/

variable {store : ObjStore} {ptr other : Ptr}
  {change : UbusObject → UbusObject}
  {changeType : UbusObjectType → UbusObjectType}

@[simp]
theorem clients_modifyObject :
    (store.modifyObject ptr change).clients = store.clients := rfl

@[simp]
theorem objTypes_modifyObject :
    (store.modifyObject ptr change).objTypes = store.objTypes := rfl

@[simp]
theorem objects_modifyObject :
    (store.modifyObject ptr change).objects = store.objects := rfl

@[simp]
theorem path_modifyObject :
    (store.modifyObject ptr change).path = store.path := rfl

@[simp]
theorem patterns_modifyObject :
    (store.modifyObject ptr change).patterns = store.patterns := rfl

@[simp]
theorem clientAt_modifyObject :
    (store.modifyObject ptr change).clientAt = store.clientAt := rfl

@[simp]
theorem typeAt_modifyObject :
    (store.modifyObject ptr change).typeAt = store.typeAt := rfl

@[simp]
theorem subscriptionAt_modifyObject :
    (store.modifyObject ptr change).subscriptionAt = store.subscriptionAt := rfl

@[simp]
theorem sourceAt_modifyObject :
    (store.modifyObject ptr change).sourceAt = store.sourceAt := rfl

@[simp]
theorem eventObj_modifyObject :
    (store.modifyObject ptr change).eventObj = store.eventObj := rfl

@[simp]
theorem allocs_modifyObject :
    (store.modifyObject ptr change).allocs = store.allocs := rfl

theorem objectAt_modifyObject :
    (store.modifyObject ptr change).objectAt =
      Function.update store.objectAt ptr (change (store.objectAt ptr)) := rfl

/-- A field that a change of one object leaves alone is the same everywhere. -/
@[simp]
theorem field_modifyObject {Field : Type} {field : UbusObject → Field}
    (same : ∀ object, field (change object) = field object) :
    field ((store.modifyObject ptr change).objectAt other) =
      field (store.objectAt other) := by
  by_cases this : other = ptr
  · rw [this, objectAt_modifyObject, Function.update_self]
    exact same _
  · rw [objectAt_modifyObject, Function.update_of_ne this]

@[simp]
theorem clients_modifyType :
    (store.modifyType ptr changeType).clients = store.clients := rfl

@[simp]
theorem objTypes_modifyType :
    (store.modifyType ptr changeType).objTypes = store.objTypes := rfl

@[simp]
theorem objects_modifyType :
    (store.modifyType ptr changeType).objects = store.objects := rfl

@[simp]
theorem path_modifyType :
    (store.modifyType ptr changeType).path = store.path := rfl

@[simp]
theorem patterns_modifyType :
    (store.modifyType ptr changeType).patterns = store.patterns := rfl

@[simp]
theorem clientAt_modifyType :
    (store.modifyType ptr changeType).clientAt = store.clientAt := rfl

@[simp]
theorem objectAt_modifyType :
    (store.modifyType ptr changeType).objectAt = store.objectAt := rfl

@[simp]
theorem subscriptionAt_modifyType :
    (store.modifyType ptr changeType).subscriptionAt = store.subscriptionAt := rfl

@[simp]
theorem sourceAt_modifyType :
    (store.modifyType ptr changeType).sourceAt = store.sourceAt := rfl

@[simp]
theorem eventObj_modifyType :
    (store.modifyType ptr changeType).eventObj = store.eventObj := rfl

@[simp]
theorem allocs_modifyType :
    (store.modifyType ptr changeType).allocs = store.allocs := rfl

theorem typeAt_modifyType :
    (store.modifyType ptr changeType).typeAt =
      Function.update store.typeAt ptr (changeType (store.typeAt ptr)) := rfl

/-- A field of all types after a change of one. -/
theorem fields_modifyType {Field : Type} (field : UbusObjectType → Field) :
    (fun other => field ((store.modifyType ptr changeType).typeAt other)) =
      Function.update (fun other => field (store.typeAt other)) ptr
        (field (changeType (store.typeAt ptr))) :=
  Function.comp_update field store.typeAt ptr _

/-- A field of all objects after a change of one. -/
theorem fields_modifyObject {Field : Type} (field : UbusObject → Field) :
    (fun other => field ((store.modifyObject ptr change).objectAt other)) =
      Function.update (fun other => field (store.objectAt other)) ptr
        (field (change (store.objectAt ptr))) :=
  Function.comp_update field store.objectAt ptr _

end ObjStore

end LibubusJni.Ubusd
