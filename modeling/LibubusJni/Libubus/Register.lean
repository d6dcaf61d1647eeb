import LibubusJni.Libubus.Invoke

/-!
# Registering objects: `ubus_add_object` and `ubus_remove_object`

Objects and their types lie in memory of the application and are known by their
addresses; the tree `ctx->objects` is the list of the objects linked in it.
`avl.key` of an object points to its `id`, so a new `id` is a new key.

A request is given by what decides its attributes, and a reply by the attributes
its callback reads.
-/

namespace LibubusJni.Libubus

open LibubusJni.Libubox

/-- The address of a `struct ubus_object`. -/
abbrev ObjectPtr := Nat

/-- The address of a `struct ubus_object_type`. -/
abbrev TypePtr := Nat

/-- `struct ubus_method`: its name, and the names and types of the `policy`
entries that `mask` selects. -/
structure UbusMethod where
  name : Option (List UInt8)
  policy : List (List UInt8 × UInt32)
  deriving DecidableEq, Repr

/-- `struct ubus_object_type`. -/
structure ClientType where
  id : UInt32
  methods : List UbusMethod
  deriving DecidableEq, Repr

/-- `struct ubus_object`. -/
structure ClientObject where
  name : Option (List UInt8)
  id : UInt32
  type : Option TypePtr
  deriving DecidableEq, Repr

/-- The objects of an application and the tree of its context. -/
structure ClientObjects where
  objectAt : ObjectPtr → ClientObject
  typeAt : TypePtr → ClientType
  objects : List ObjectPtr

/-- How an ADD_OBJECT names the type of its object. -/
inductive AddedType where
  /-- `UBUS_ATTR_OBJTYPE`. -/
  | objtype (id : UInt32)
  /-- `UBUS_ATTR_SIGNATURE`. -/
  | signature (methods : List UbusMethod)
  deriving DecidableEq, Repr

/-- `UBUS_ATTR_OBJPATH` and the type of an ADD_OBJECT. -/
structure AddRequest where
  path : List UInt8
  type : AddedType
  deriving DecidableEq, Repr

namespace ClientObjects

variable (client : ClientObjects)

/-- `obj->type->id = id;` -/
def setTypeId (type : TypePtr) (id : UInt32) : ClientObjects :=
  { client with
    typeAt := Function.update client.typeAt type
      { client.typeAt type with id := id } }

/-- `obj->id = id;` -/
def setObjectId (obj : ObjectPtr) (id : UInt32) : ClientObjects :=
  { client with
    objectAt := Function.update client.objectAt obj
      { client.objectAt obj with id := id } }

/-- The key of an object in the tree. -/
def keyOf (obj : ObjectPtr) : UInt32 := (client.objectAt obj).id

/-- What `ubus_add_object` puts into `b`; nothing for an object without a name
or a type. -/
def addRequest (obj : ObjectPtr) : Option AddRequest :=
  match (client.objectAt obj).name, (client.objectAt obj).type with
  | some name, some type =>
      some
        ⟨name,
          if (client.typeAt type).id ≠ 0 then
            .objtype (client.typeAt type).id
          else .signature (client.typeAt type).methods⟩
  | _, _ => none

/-- `ubus_add_object_cb` of a message with these attributes; `none` if it
writes through the missing type of the object.  What `avl_insert` returns is not
looked at. -/
def ubusAddObjectCb (obj : ObjectPtr) (objid objtype : Option UInt32) :
    Option ClientObjects :=
  match objid with
  | none => some client
  | some id =>
      let named := client.setObjectId obj id
      let typed :=
        match objtype, (client.objectAt obj).type with
        | none, _ => some named
        | some typeId, some type => some (named.setTypeId type typeId)
        | some _, none => none
      typed.map fun typed =>
        { typed with
          objects :=
            (avlInsert ubusCmpId typed.keyOf obj typed.objects).getD
              typed.objects }

/-- `ubus_remove_object_cb` of a message with these attributes. -/
def ubusRemoveObjectCb (obj : ObjectPtr) (objid objtype : Option UInt32) :
    ClientObjects :=
  match objid with
  | none => client
  | some _ =>
      let unnamed := client.setObjectId obj 0
      let untyped :=
        match objtype, (client.objectAt obj).type with
        | some _, some type => unnamed.setTypeId type 0
        | _, _ => unnamed
      { untyped with objects := avlDelete obj untyped.objects }

end ClientObjects

/-! ## What the callbacks change -/

section Callbacks

variable {client next : ClientObjects} {obj other : ObjectPtr}

/-- A SIGNATURE is sent for a named object whose type has no identifier. -/
theorem addRequest_signature {request : AddRequest}
    {methods : List UbusMethod}
    (isRequest : client.addRequest obj = some request)
    (isSignature : request.type = .signature methods) :
    ∃ name own, (client.objectAt obj).name = some name ∧
      (client.objectAt obj).type = some own ∧ (client.typeAt own).id = 0 ∧
      methods = (client.typeAt own).methods := by
  rw [ClientObjects.addRequest.eq_def] at isRequest
  split at isRequest
  · rename_i name own isName isOwn
    rw [Option.some.injEq] at isRequest
    subst isRequest
    dsimp only at isSignature
    split at isSignature
    · cases isSignature
    · rename_i noId
      refine ⟨name, own, isName, isOwn, ?_, ?_⟩
      · exact not_not.mp noId
      · exact (AddedType.signature.inj isSignature).symm
  · cases isRequest

/-- `ubus_add_object_cb` of a message with an object identifier. -/
structure AddsObject (client : ClientObjects) (obj : ObjectPtr) (id : UInt32)
    (objtype : Option UInt32) (next : ClientObjects) : Prop where
  objectAt : next.objectAt = Function.update client.objectAt obj
    { client.objectAt obj with id := id }
  typeAt : ∀ type, next.typeAt type =
    match objtype with
    | none => client.typeAt type
    | some typeId =>
        if (client.objectAt obj).type = some type then
          { client.typeAt type with id := typeId }
        else client.typeAt type
  objects : next.objects =
    (avlInsert ubusCmpId next.keyOf obj client.objects).getD client.objects

theorem addsObject_ubusAddObjectCb {id : UInt32} {objtype : Option UInt32}
    (taken : client.ubusAddObjectCb obj (some id) objtype = some next) :
    AddsObject client obj id objtype next := by
  rw [ClientObjects.ubusAddObjectCb.eq_def] at taken
  dsimp only at taken
  cases objtype with
  | none =>
      cases taken
      exact
        { objectAt := rfl
          typeAt := fun _ => rfl
          objects := rfl }
  | some typeId =>
      cases own : (client.objectAt obj).type with
      | none =>
          rw [own] at taken
          cases taken
      | some type =>
          rw [own] at taken
          cases taken
          refine
            { objectAt := rfl
              typeAt := fun other => ?_
              objects := rfl }
          dsimp only [ClientObjects.setTypeId, ClientObjects.setObjectId]
          by_cases same : other = type
          · rw [same, Function.update_self, own, if_pos rfl]
          · rw [Function.update_of_ne same, own,
              if_neg fun isType => same (Option.some.inj isType).symm]

theorem AddsObject.keyOf_self {id : UInt32} {objtype : Option UInt32}
    (adds : AddsObject client obj id objtype next) : next.keyOf obj = id := by
  rw [ClientObjects.keyOf, adds.objectAt, Function.update_self]

theorem AddsObject.objectAt_of_ne {id : UInt32} {objtype : Option UInt32}
    (adds : AddsObject client obj id objtype next) (different : other ≠ obj) :
    next.objectAt other = client.objectAt other := by
  rw [adds.objectAt, Function.update_of_ne different]

/-- Name and type of an object stay. -/
theorem AddsObject.fields {id : UInt32} {objtype : Option UInt32}
    (adds : AddsObject client obj id objtype next) (other : ObjectPtr) :
    (next.objectAt other).name = (client.objectAt other).name ∧
      (next.objectAt other).type = (client.objectAt other).type := by
  by_cases same : other = obj
  · rw [adds.objectAt, same, Function.update_self]
    exact ⟨rfl, rfl⟩
  · rw [adds.objectAt_of_ne same]
    exact ⟨rfl, rfl⟩

/-- The object is linked unless its key is taken. -/
theorem AddsObject.mem_iff {id : UInt32} {objtype : Option UInt32}
    (adds : AddsObject client obj id objtype next)
    (absent : obj ∉ client.objects) :
    other ∈ next.objects ↔ other ∈ client.objects ∨
      other = obj ∧ ∀ linked ∈ client.objects, client.keyOf linked ≠ id := by
  have keys : ∀ linked ∈ client.objects,
      (ubusCmpId (next.keyOf obj) (next.keyOf linked) = .eq ↔
        client.keyOf linked = id) := by
    intro linked member
    have different : linked ≠ obj := fun same => absent (same ▸ member)
    rw [ubusCmpId_eq, adds.keyOf_self, ClientObjects.keyOf,
      adds.objectAt_of_ne different]
    exact eq_comm
  rw [adds.objects]
  by_cases free : ∀ linked ∈ client.objects, client.keyOf linked ≠ id
  · have inserts : avlInsert ubusCmpId next.keyOf obj client.objects =
        some (avlInsertDup ubusCmpId next.keyOf obj client.objects) :=
      avlInsert_some.mpr ⟨fun linked member equal =>
        free linked member ((keys linked member).mp equal), rfl⟩
    rw [inserts, Option.getD_some, mem_avlInsertDup, or_comm]
    simp only [and_iff_left free]
  · have refused : avlInsert ubusCmpId next.keyOf obj client.objects =
        none := by
      refine avlInsert_none.mpr ?_
      by_contra noOther
      refine free fun linked member same => noOther ?_
      exact ⟨linked, member, (keys linked member).mpr same⟩
    rw [refused, Option.getD_none]
    exact (or_iff_left fun both => free both.2).symm

end Callbacks

end LibubusJni.Libubus
