import LibubusJni.Ubusd.Event

/-!
# `ubusd_obj.c`

Objects and their types, from `ubusd_create_object` to `ubusd_free_object`.
-/

namespace LibubusJni.Ubusd

open LibubusJni.Libubox

/-- The table that `ubus_parse_msg` returns. -/
abbrev AttrTable := UbusMsgAttr → Option Nat

namespace ObjStore

/-- The loop of `ubus_create_obj_type`; it leaves the type behind, or nothing if
an attribute is rejected. -/
def createMethods (bytes : List UInt8) (type : Ptr) :
    List Nat → ObjStore → ObjStore × Option Ptr
  | [], store => (store, some type)
  | pos :: rest, store =>
      let mem := memoryOf bytes
      if blobmsgCheckAttr mem pos true then
        createMethods bytes type rest
          (store.ubusCreateObjMethod type
            ((bytes.drop pos).take (blobRawLen (attrAt mem pos)).toNat))
      else (store.ubusUnrefObjectType type, none)

end ObjStore

namespace Bus

/-- `ubus_create_obj_type`. -/
def ubusCreateObjType (bus : Bus) (bytes : List UInt8) (sig : Nat) :
    Bus × Option Ptr :=
  match ubusAllocId (fun id => (bus.store.findType id).isSome) bus.urandom with
  | (none, urandom) => ({ bus with urandom := urandom }, none)
  | (some id, urandom) =>
      let made :=
        ObjStore.createMethods bytes bus.store.allocs
          (blobForEachAttr (memoryOf bytes) sig) (bus.store.addType id)
      ({ bus with urandom := urandom, store := made.1 }, made.2)

/-- `ubus_get_obj_type`. -/
def ubusGetObjType (bus : Bus) (id : UInt32) : Bus × Option Ptr :=
  match bus.store.findType id with
  | none => (bus, none)
  | some type => ({ bus with store := bus.store.refType type }, some type)

/-- The type of a new object, as `ubusd_create_object` looks for it. -/
def newObjectType (bus : Bus) (bytes : List UInt8) (attr : AttrTable) :
    Bus × Option Ptr :=
  match attr .objtype, attr .signature with
  | some objtype, _ =>
      bus.ubusGetObjType (blobGetU32 (memoryOf bytes) objtype)
  | none, some sig => bus.ubusCreateObjType bytes sig
  | none, none => (bus, none)

/-- `ubusd_create_object_internal` of an object with a new identifier. -/
def ubusdCreateObjectInternal (bus : Bus) (type : Option Ptr) :
    Bus × Option Ptr :=
  match ubusAllocId (fun id => (bus.store.ubusdFindObject id).isSome)
      bus.urandom with
  | (none, urandom) => ({ bus with urandom := urandom }, none)
  | (some id, urandom) =>
      ({ bus with
          urandom := urandom
          store := bus.store.addObject id type }, some bus.store.allocs)

/-- `if (type) ubus_unref_object_type(type);` -/
def unrefType (bus : Bus) : Option Ptr → Bus
  | none => bus
  | some type =>
      { bus with store := bus.store.ubusUnrefObjectType type }

/-- The first loop of `ubusd_free_object`. -/
def dropTargets (bus : Bus) (obj : Ptr) : Bus :=
  (bus.store.objectAt obj).targetList.foldl ubusUnsubscribe bus

/-- The second loop of `ubusd_free_object`. -/
def dropSubscribers (bus : Bus) (obj : Ptr) : Bus :=
  (bus.store.objectAt obj).subscribers.foldl ubusNotifyUnsubscribe bus

/-- `ubusd_event_cleanup_object` and the block under `if (obj->path.key)`. -/
def dropPath (bus : Bus) (obj : Ptr) : Bus :=
  let bus := { bus with store := bus.store.ubusdEventCleanupObject obj }
  if (bus.store.objectAt obj).path.isSome then
    let bus := bus.ubusdSendObjEvent obj false
    { bus with store := bus.store.removePath obj }
  else bus

/-- `ubusd_free_object`. -/
def ubusdFreeObject (bus : Bus) (obj : Ptr) : Bus :=
  let bus := ((bus.dropTargets obj).dropSubscribers obj).dropPath obj
  let bus :=
    { bus with store := (bus.store.unlinkObject obj).removeObject obj }
  bus.unrefType (bus.store.objectAt obj).type

/-- The block under `if (attr[UBUS_ATTR_OBJPATH])` of `ubusd_create_object`;
`none` is `goto free`. -/
def registerPath (bus : Bus) (bytes : List UInt8) (attr : AttrTable)
    (obj : Ptr) : Option Bus :=
  match attr .objpath with
  | none => some bus
  | some objpath =>
      match bus.store.insertPath obj (cString bytes (objpath + 4)) with
      | none => none
      | some store => some ({ bus with store := store }.ubusdSendObjEvent obj true)

/-- `ubusd_create_object`. -/
def ubusdCreateObject (bus : Bus) (cl : Ptr) (bytes : List UInt8)
    (attr : AttrTable) : Bus × Option Ptr :=
  let typed := bus.newObjectType bytes attr
  let created := typed.1.ubusdCreateObjectInternal typed.2
  let bus := created.1.unrefType typed.2
  match created.2 with
  | none => (bus, none)
  | some obj =>
      match bus.registerPath bytes attr obj with
      | none => (bus.ubusdFreeObject obj, none)
      | some bus => ({ bus with store := bus.store.setOwner obj cl }, some obj)

end Bus

end LibubusJni.Ubusd
