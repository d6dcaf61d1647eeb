import LibubusJni.Ubusd.Handlers
import LibubusJni.Ubusd.Linked

/-!
# What a message leaves in the structures

Sending messages links nothing, so the effect of a handler on the structures is
a function of the structures alone.  `StoreMove` lists all that a message of a
client can do to them, `LinkMove` what it can do without making an object.
-/

namespace LibubusJni.Ubusd

open LibubusJni.Lib LibubusJni.Libubox

namespace Bus

variable (bus : Bus)

/-! ## Sending -/

@[simp]
theorem store_ubusMsgSend (client : Option Ptr) (hdr : UbusMsghdr)
    (data : List UInt8) :
    (bus.ubusMsgSend client hdr data).store = bus.store := by
  cases client with
  | none =>
      rfl
  | some cl =>
      rfl

@[simp]
theorem store_ubusSendMsgFromBlob (client : Option Ptr) (hdr : UbusMsghdr)
    (type : UbusMsgType) :
    (bus.ubusSendMsgFromBlob client hdr type).store = bus.store :=
  store_ubusMsgSend ..

@[simp]
theorem store_sendStatus (cl : Ptr) (ub : BusRequest) (ret : UInt32) :
    (bus.sendStatus cl ub ret).store = bus.store :=
  store_ubusMsgSend ..

@[simp]
theorem store_ubusNotifySubscription (obj : Ptr) :
    (bus.ubusNotifySubscription obj).store = bus.store :=
  store_ubusMsgSend ..

@[simp]
theorem store_sendUnsubscribe (s : Ptr) :
    (bus.sendUnsubscribe s).store = bus.store :=
  store_ubusMsgSend ..

@[simp]
theorem store_ubusdSendEventMsg (cl : Option Ptr) (obj : Ptr)
    (attrs : Option (List (List UInt8))) :
    (bus.ubusdSendEventMsg cl obj attrs).store = bus.store := by
  rw [ubusdSendEventMsg.eq_def]
  split
  · rfl
  · split
    · rfl
    · cases attrs with
      | none =>
          rfl
      | some attrs =>
          exact store_ubusMsgSend ..

@[simp]
theorem store_sendEventFrom (cl : Option Ptr) (id : List UInt8)
    (attrs : Option (List (List UInt8))) (evs : List Ptr) (matchLen : Nat) :
    (sendEventFrom cl id attrs evs matchLen bus).store = bus.store := by
  induction evs generalizing matchLen bus with
  | nil =>
      rfl
  | cons ev rest inductionHypothesis =>
      rw [sendEventFrom]
      split
      · rfl
      · split
        · rw [inductionHypothesis, store_ubusdSendEventMsg]
        · exact inductionHypothesis ..

@[simp]
theorem store_ubusdSendEvent (cl : Option Ptr) (id : List UInt8)
    (attrs : Option (List (List UInt8))) :
    (bus.ubusdSendEvent cl id attrs).store = bus.store :=
  store_sendEventFrom ..

@[simp]
theorem store_ubusdSendObjEvent (obj : Ptr) (add : Bool) :
    (bus.ubusdSendObjEvent obj add).store = bus.store :=
  store_ubusdSendEvent ..

@[simp]
theorem store_ubusdForwardInvoke (cl : Ptr) (ub : BusRequest)
    (front : List (List UInt8)) (obj : Ptr) (method : Nat) :
    (bus.ubusdForwardInvoke cl ub front obj method).store = bus.store := by
  rw [ubusdForwardInvoke]
  split
  · rfl
  · exact store_ubusMsgSend ..

@[simp]
theorem store_ubusdSendObj (cl : Ptr) (ub : BusRequest) (obj : Ptr) :
    (bus.ubusdSendObj cl ub obj).store = bus.store := by
  rw [ubusdSendObj]
  split
  · rfl
  · split
    · rfl
    · exact store_ubusMsgSend ..

@[simp]
theorem store_sendSubscribers (cl : Ptr) (ub : BusRequest) (obj : Ptr) :
    (bus.sendSubscribers cl ub obj).store = bus.store :=
  store_ubusMsgSend ..

/-! ## Subscriptions -/

@[simp]
theorem store_ubusSubscribe (obj target : Ptr) :
    (bus.ubusSubscribe obj target).store =
      bus.store.addSubscription obj target := by
  rw [ubusSubscribe]
  split
  · exact store_ubusNotifySubscription ..
  · rfl

@[simp]
theorem store_ubusUnsubscribe (s : Ptr) :
    (bus.ubusUnsubscribe s).store = bus.store.unlinkSubscription s := by
  rw [ubusUnsubscribe]
  split
  · exact store_ubusNotifySubscription ..
  · rfl

@[simp]
theorem store_ubusNotifyUnsubscribe (s : Ptr) :
    (bus.ubusNotifyUnsubscribe s).store = bus.store.unlinkSubscription s := by
  rw [ubusNotifyUnsubscribe, store_ubusUnsubscribe, store_sendUnsubscribe]

/-- A loop whose body changes the structures in a way of their own. -/
theorem store_foldl {body : Bus → Ptr → Bus}
    {change : ObjStore → Ptr → ObjStore}
    (one : ∀ bus item, (body bus item).store = change bus.store item)
    (items : List Ptr) :
    (items.foldl body bus).store = items.foldl change bus.store := by
  induction items generalizing bus with
  | nil =>
      rfl
  | cons item rest inductionHypothesis =>
      rw [List.foldl_cons, List.foldl_cons, inductionHypothesis, one]

/-- A loop whose body leaves the structures alone. -/
theorem store_foldl_same {body : Bus → Ptr → Bus}
    (one : ∀ bus item, (body bus item).store = bus.store)
    (items : List Ptr) : (items.foldl body bus).store = bus.store := by
  induction items generalizing bus with
  | nil =>
      rfl
  | cons item rest inductionHypothesis =>
      rw [List.foldl_cons, inductionHypothesis, one]

end Bus

namespace ObjStore

variable (store : ObjStore) (obj : Ptr)

/-- The first loop of `ubusd_free_object`. -/
def dropTargets : ObjStore :=
  (store.objectAt obj).targetList.foldl unlinkSubscription store

/-- The second loop of `ubusd_free_object`. -/
def dropSubscribers : ObjStore :=
  (store.objectAt obj).subscribers.foldl unlinkSubscription store

/-- The links of an object are taken down. -/
def dropLinks : ObjStore :=
  ((store.dropTargets obj).dropSubscribers obj).ubusdEventCleanupObject obj

/-- `avl_delete(&path, &obj->path)` for an object with a path. -/
def dropPath : ObjStore :=
  if (store.objectAt obj).path.isSome then store.removePath obj else store

/-- `if (type) ubus_unref_object_type(type);` -/
def unrefType : Option Ptr → ObjStore
  | none => store
  | some type => store.ubusUnrefObjectType type

/-- The end of `ubusd_free_object`. -/
def dropNode : ObjStore :=
  (((store.dropPath obj).unlinkObject obj).removeObject obj).unrefType
    (store.objectAt obj).type

/-- `ubusd_free_object`. -/
def freeObject : ObjStore := (store.dropLinks obj).dropNode obj

end ObjStore

namespace Bus

@[simp]
theorem store_unrefType (bus : Bus) (type : Option Ptr) :
    (bus.unrefType type).store = bus.store.unrefType type := by
  cases type with
  | none =>
      rfl
  | some type =>
      rfl

theorem store_dropPath (bus : Bus) (obj : Ptr) :
    (bus.dropPath obj).store =
      (bus.store.ubusdEventCleanupObject obj).dropPath obj := by
  rw [dropPath, ObjStore.dropPath]
  split
  · simp
  · rfl

theorem store_dropTargets (bus : Bus) (obj : Ptr) :
    (bus.dropTargets obj).store = bus.store.dropTargets obj :=
  store_foldl bus store_ubusUnsubscribe _

theorem store_dropSubscribers (bus : Bus) (obj : Ptr) :
    ((bus.dropTargets obj).dropSubscribers obj).store =
      (bus.store.dropTargets obj).dropSubscribers obj := by
  rw [← store_dropTargets]
  exact store_foldl _ store_ubusNotifyUnsubscribe _

theorem store_ubusdFreeObject (bus : Bus) (obj : Ptr) :
    (bus.ubusdFreeObject obj).store = bus.store.freeObject obj := by
  have path : (((bus.dropTargets obj).dropSubscribers obj).dropPath obj).store =
      (bus.store.dropLinks obj).dropPath obj := by
    rw [store_dropPath, store_dropSubscribers]
    rfl
  have type : ((bus.store.dropLinks obj).dropPath obj).objectAt =
      (bus.store.dropLinks obj).objectAt := by
    rw [ObjStore.dropPath]
    split
    · rfl
    · rfl
  rw [ubusdFreeObject, store_unrefType, path, ObjStore.freeObject,
    ObjStore.dropNode, ← type]
  rfl

end Bus

/-! ## What a message can do to the structures -/

/-- The type that a new object gets, and the structures with it. -/
inductive NewType (store : ObjStore) : ObjStore → Option Ptr → Prop where
  /-- No type is asked for, or an unknown one, or it has no identifier. -/
  | nothing : NewType store store none
  | known (type : Ptr) (live : type ∈ store.objTypes) :
      NewType store (store.refType type) (some type)
  | made (id : UInt32) (methods : List (List UInt8)) :
      NewType store
        (methods.foldl (fun made data =>
          made.ubusCreateObjMethod store.allocs data) (store.addType id))
        (some store.allocs)
  | rejected (id : UInt32) (methods : List (List UInt8)) :
      NewType store
        ((methods.foldl (fun made data =>
          made.ubusCreateObjMethod store.allocs data)
            (store.addType id)).ubusUnrefObjectType store.allocs) none

/-- An object that has no client yet. -/
inductive Young (store : ObjStore) : ObjStore → Ptr → Prop where
  | intro (typed : ObjStore) (type : Option Ptr) (id : UInt32)
      (newType : NewType store typed type)
      (free : ∀ obj ∈ typed.objects, (typed.objectAt obj).id ≠ id) :
      Young store ((typed.addObject id type).unrefType type) typed.allocs

/-- What a message of a client can do to objects and links that are there;
`watched` are the objects to which it can subscribe. -/
inductive LinkMove (cl : Ptr) (watched : Ptr → Prop) (store : ObjStore) :
    ObjStore → Prop where
  | keep : LinkMove cl watched store store
  | removed (obj : Ptr) (live : obj ∈ store.objects)
      (own : (store.objectAt obj).client = some cl) :
      LinkMove cl watched store (store.freeObject obj)
  | subscribed (obj target : Ptr) (live : obj ∈ store.objects)
      (own : (store.objectAt obj).client = some cl)
      (targetLive : target ∈ store.objects) (isWatched : watched target) :
      LinkMove cl watched store (store.addSubscription obj target)
  | unsubscribed (obj s : Ptr) (live : obj ∈ store.objects)
      (own : (store.objectAt obj).client = some cl)
      (onList : s ∈ (store.objectAt obj).targetList) :
      LinkMove cl watched store (store.unlinkSubscription s)
  | registered (obj : Ptr) (key : List UInt8) (isPartial : Bool)
      (live : obj ∈ store.objects)
      (own : (store.objectAt obj).client = some cl) :
      LinkMove cl watched store (store.addSource obj key isPartial)

/-- What the message that makes objects can do. -/
inductive MakeMove (cl : Ptr) (store : ObjStore) : ObjStore → Prop where
  /-- There is no identifier for the object. -/
  | abandoned (typed : ObjStore) (type : Option Ptr)
      (newType : NewType store typed type) :
      MakeMove cl store (typed.unrefType type)
  /-- Its path is taken. -/
  | discarded (made : ObjStore) (obj : Ptr) (young : Young store made obj) :
      MakeMove cl store (made.freeObject obj)
  | created (made : ObjStore) (obj : Ptr) (young : Young store made obj) :
      MakeMove cl store (made.setOwner obj cl)
  | createdAt (made placed : ObjStore) (obj : Ptr) (key : List UInt8)
      (young : Young store made obj)
      (inserted : made.insertPath obj key = some placed) :
      MakeMove cl store (placed.setOwner obj cl)

/-- What a message of a client can do. -/
inductive StoreMove (cl : Ptr) (watched : Ptr → Prop)
    (store next : ObjStore) : Prop where
  | link (move : LinkMove cl watched store next)
  | make (move : MakeMove cl store next)

theorem LinkMove.mono {cl : Ptr} {watched more : Ptr → Prop}
    {store next : ObjStore} (move : LinkMove cl watched store next)
    (wider : ∀ target, watched target → more target) :
    LinkMove cl more store next := by
  cases move with
  | keep =>
      exact LinkMove.keep
  | removed obj live own =>
      exact LinkMove.removed obj live own
  | subscribed obj target live own targetLive isWatched =>
      exact LinkMove.subscribed obj target live own targetLive
        (wider target isWatched)
  | unsubscribed obj s live own onList =>
      exact LinkMove.unsubscribed obj s live own onList
  | registered obj key isPartial live own =>
      exact LinkMove.registered obj key isPartial live own

theorem ubusdFindObject_some {store : ObjStore} {id : UInt32} {obj : Ptr}
    (found : store.ubusdFindObject id = some obj) :
    obj ∈ store.objects ∧ (store.objectAt obj).id = id := by
  obtain ⟨live, same⟩ := avlFind_some found
  exact ⟨live, (ubusCmpId_eq.mp same).symm⟩

theorem ubusdFindObject_none {store : ObjStore} {id : UInt32}
    (notFound : store.ubusdFindObject id = none) :
    ∀ obj ∈ store.objects, (store.objectAt obj).id ≠ id := by
  intro obj live same
  exact avlFind_none.mp notFound obj live (ubusCmpId_eq.mpr same.symm)

/-- An identifier that `ubus_alloc_id` returns was free. -/
theorem ubusAllocId_some {taken : UInt32 → Bool} {urandom rest : List UInt32}
    {id : UInt32} (allocated : ubusAllocId taken urandom = (some id, rest)) :
    taken id = false := by
  induction urandom with
  | nil =>
      rw [ubusAllocId, Prod.mk.injEq] at allocated
      exact absurd allocated.1 (Option.some_ne_none id).symm
  | cons first more inductionHypothesis =>
      rw [ubusAllocId] at allocated
      split at allocated
      · exact inductionHypothesis allocated
      · rename_i free
        rw [Prod.mk.injEq, Option.some.injEq] at allocated
        rw [← allocated.1]
        exact eq_false_of_ne_true free

/-- The loop of `ubus_create_obj_type` adds methods; if it rejects one, the type
goes. -/
theorem createMethods_cases (bytes : List UInt8) (type : Ptr) (attrs : List Nat)
    (store : ObjStore) :
    ∃ methods : List (List UInt8),
      let made := methods.foldl
        (fun made data => made.ubusCreateObjMethod type data) store
      ObjStore.createMethods bytes type attrs store = (made, some type) ∨
        ObjStore.createMethods bytes type attrs store =
          (made.ubusUnrefObjectType type, none) := by
  induction attrs generalizing store with
  | nil =>
      exact ⟨[], Or.inl rfl⟩
  | cons pos rest inductionHypothesis =>
      rw [ObjStore.createMethods]
      dsimp only
      split
      · obtain ⟨methods, outcome⟩ := inductionHypothesis
          (store.ubusCreateObjMethod type ((bytes.drop pos).take
            (blobRawLen (attrAt (memoryOf bytes) pos)).toNat))
        exact ⟨_ :: methods, outcome⟩
      · exact ⟨[], Or.inr rfl⟩

namespace Bus

variable (bus : Bus) (cl : Ptr) (bytes : List UInt8) (attr : AttrTable)

theorem newObjectType_newType :
    NewType bus.store (bus.newObjectType bytes attr).1.store
      (bus.newObjectType bytes attr).2 := by
  rw [newObjectType]
  split
  · rw [ubusGetObjType]
    split
    · exact NewType.nothing
    · rename_i type found
      exact NewType.known type (avlFind_some found).1
  · rw [ubusCreateObjType]
    split
    · exact NewType.nothing
    · rename_i id urandom allocated
      obtain ⟨methods, made | rejected⟩ := createMethods_cases bytes
        bus.store.allocs (blobForEachAttr (memoryOf bytes) _)
        (bus.store.addType id)
      · dsimp only
        rw [made]
        exact NewType.made id methods
      · dsimp only
        rw [rejected]
        exact NewType.rejected id methods
  · exact NewType.nothing

/-- `ubusd_create_object_internal` and the unref behind it. -/
theorem create_young {before : ObjStore} {type : Option Ptr} {obj : Ptr}
    (newType : NewType before bus.store type)
    (created : (bus.ubusdCreateObjectInternal type).2 = some obj) :
    Young before
      ((bus.ubusdCreateObjectInternal type).1.unrefType type).store obj := by
  rw [ubusdCreateObjectInternal] at created ⊢
  split at created
  · exact absurd created (Option.some_ne_none obj).symm
  · rename_i id urandom allocated
    rw [← Option.some.inj created, store_unrefType]
    refine Young.intro bus.store type id newType ?_
    apply ubusdFindObject_none
    exact Option.isNone_iff_eq_none.mp
      (Option.isSome_eq_false_iff.mp (ubusAllocId_some allocated))

theorem create_none {type : Option Ptr}
    (notCreated : (bus.ubusdCreateObjectInternal type).2 = none) :
    (bus.ubusdCreateObjectInternal type).1.store = bus.store := by
  rw [ubusdCreateObjectInternal] at notCreated ⊢
  split at notCreated
  · rfl
  · exact absurd notCreated (Option.some_ne_none _)

/-- The path of a young object. -/
theorem registerPath_store {obj : Ptr} {placed : Bus}
    (registered : bus.registerPath bytes attr obj = some placed) :
    placed.store = bus.store ∨
      ∃ key, bus.store.insertPath obj key = some placed.store := by
  rw [registerPath] at registered
  split at registered
  · exact Or.inl (congrArg store (Option.some.inj registered).symm)
  · split at registered
    · exact absurd registered (Option.some_ne_none placed).symm
    · rename_i objpath _ _ next inserted
      refine Or.inr ⟨cString bytes (objpath + 4), ?_⟩
      rw [← Option.some.inj registered, store_ubusdSendObjEvent]
      exact inserted

theorem createObject_move :
    MakeMove cl bus.store (bus.ubusdCreateObject cl bytes attr).1.store := by
  have newType := bus.newObjectType_newType bytes attr
  rw [ubusdCreateObject]
  split
  · rename_i notCreated
    rw [store_unrefType, create_none _ notCreated]
    exact MakeMove.abandoned _ _ newType
  · rename_i obj created
    have young := create_young _ newType created
    split
    · rw [store_ubusdFreeObject]
      exact MakeMove.discarded _ obj young
    · rename_i placed registered
      show MakeMove cl bus.store (placed.store.setOwner obj cl)
      rcases registerPath_store _ _ _ registered with same | ⟨key, inserted⟩
      · rw [same]
        exact MakeMove.created _ obj young
      · exact MakeMove.createdAt _ placed.store obj key young inserted

/-! ## Handlers -/

variable (ub : BusRequest)

theorem findObjectOf_some {attr : Nat} {obj : Ptr}
    (found : bus.findObjectOf ub attr = some obj) :
    obj ∈ bus.store.objects ∧
      (bus.store.objectAt obj).id = blobGetU32 ub.mem attr :=
  ubusdFindObject_some found

theorem handleRemoveObject_move :
    LinkMove cl (fun _ => False) bus.store (bus.ubusdHandleRemoveObject cl ub).1.store := by
  rw [ubusdHandleRemoveObject]
  dsimp only
  split
  · exact LinkMove.keep
  · split
    · exact LinkMove.keep
    · rename_i obj found
      split
      · exact LinkMove.keep
      · rename_i own
        rw [store_ubusSendMsgFromBlob, store_ubusdFreeObject]
        exact LinkMove.removed obj (bus.findObjectOf_some ub found).1
          (not_not.mp own)

theorem handleAddObject_move :
    MakeMove cl bus.store (bus.ubusdHandleAddObject cl ub).1.store := by
  have move := bus.createObject_move cl ub.bytes ub.attr
  rw [ubusdHandleAddObject]
  dsimp only
  split
  · rename_i next created
    rw [created] at move
    exact move
  · rename_i next obj created
    rw [created] at move
    split
    · exact move
    · exact move
    · exact move

theorem handleLookup_store :
    (bus.ubusdHandleLookup cl ub).1.store = bus.store := by
  rw [ubusdHandleLookup]
  dsimp only
  split
  · exact store_foldl_same _ (fun bus obj => store_ubusdSendObj bus cl ub obj) _
  · exact store_foldl_same _ (fun bus obj => store_ubusdSendObj bus cl ub obj) _

theorem allocEventPattern_move (msg : Nat) :
    LinkMove cl (fun _ => False) bus.store
      (bus.ubusdAllocEventPattern cl bytes msg).1.store := by
  rw [ubusdAllocEventPattern]
  dsimp only
  split
  · split
    · exact LinkMove.keep
    · split
      · exact LinkMove.keep
      · rename_i obj found
        split
        · exact LinkMove.keep
        · rename_i own
          exact LinkMove.registered obj _ _ (ubusdFindObject_some found).1
            (not_not.mp own)
  · exact LinkMove.keep

theorem store_ubusdForwardEvent (msg : Nat) :
    (bus.ubusdForwardEvent cl bytes msg).1.store = bus.store := by
  rw [ubusdForwardEvent]
  split
  · dsimp only
    split
    · rfl
    · exact store_ubusdSendEvent ..
  · rfl

theorem eventRecv_move (method : List UInt8) (msg : Option Nat) :
    LinkMove cl (fun _ => False) bus.store
      (bus.ubusdEventRecv cl method bytes msg).1.store := by
  rw [ubusdEventRecv.eq_def]
  split
  · split
    · exact LinkMove.keep
    · exact bus.allocEventPattern_move cl bytes _
  · split
    · split
      · exact LinkMove.keep
      · rw [store_ubusdForwardEvent]
        exact LinkMove.keep
    · exact LinkMove.keep

theorem handleInvoke_move :
    LinkMove cl (fun _ => False) bus.store (bus.ubusdHandleInvoke cl ub).1.store := by
  rw [ubusdHandleInvoke]
  dsimp only
  split
  · split
    · exact LinkMove.keep
    · split
      · split
        · exact bus.eventRecv_move cl ub.bytes _ _
        · exact LinkMove.keep
      · rw [store_ubusdForwardInvoke]
        exact LinkMove.keep
  · exact LinkMove.keep

theorem handleNotify_store :
    (bus.ubusdHandleNotify cl ub).1.store = bus.store := by
  rw [ubusdHandleNotify]
  dsimp only
  split
  · split
    · rfl
    · split
      · rfl
      · refine (store_foldl_same _
          (fun bus s => store_ubusdForwardInvoke bus cl ub _ _ _) _).trans ?_
        split
        · rfl
        · exact store_sendSubscribers ..
  · rfl

theorem handleResponse_store :
    (bus.ubusdHandleResponse cl ub).1.store = bus.store := by
  rw [ubusdHandleResponse]
  dsimp only
  split
  · rfl
  · split
    · split
      · rfl
      · split
        · rfl
        · split
          · rfl
          · exact store_ubusMsgSend ..
    · rfl

/-- The message subscribes this object of its sender to this target. -/
structure Subscribes (obj target : Ptr) : Prop where
  object : ∃ objid, ub.attr .objid = some objid ∧
    bus.findObjectOf ub objid = some obj
  own : (bus.store.objectAt obj).client = some cl
  watched : ∃ attr, ub.attr .target = some attr ∧
    bus.findObjectOf ub attr = some target
  foreign : (bus.store.objectAt target).client ≠ some cl

theorem handleAddWatch_move :
    LinkMove cl (fun target => ∃ obj, Subscribes bus cl ub obj target)
      bus.store (bus.ubusdHandleAddWatch cl ub).1.store := by
  rw [ubusdHandleAddWatch]
  split
  · rename_i objid targetAttr hasObjid hasTarget
    split
    · exact LinkMove.keep
    · rename_i obj found
      split
      · exact LinkMove.keep
      · rename_i own
        split
        · exact LinkMove.keep
        · rename_i target targetFound
          split
          · exact LinkMove.keep
          · rename_i foreign
            rw [store_ubusSubscribe]
            exact LinkMove.subscribed obj target
              (bus.findObjectOf_some ub found).1 (not_not.mp own)
              (bus.findObjectOf_some ub targetFound).1
              ⟨obj, ⟨objid, hasObjid, found⟩, not_not.mp own,
                ⟨targetAttr, hasTarget, targetFound⟩, foreign⟩
  · exact LinkMove.keep

theorem handleRemoveWatch_move :
    LinkMove cl (fun _ => False) bus.store (bus.ubusdHandleRemoveWatch cl ub).1.store := by
  rw [ubusdHandleRemoveWatch]
  dsimp only
  split
  · split
    · exact LinkMove.keep
    · rename_i obj found
      split
      · exact LinkMove.keep
      · rename_i own
        split
        · exact LinkMove.keep
        · rename_i s onList
          rw [store_ubusUnsubscribe]
          exact LinkMove.unsubscribed obj s (bus.findObjectOf_some ub found).1
            (not_not.mp own) (List.mem_of_find?_eq_some onList)
  · exact LinkMove.keep

/-- The targets to which a message subscribes. -/
def Watches (type : UbusMsgType) (target : Ptr) : Prop :=
  type = .subscribe ∧ ∃ obj, Subscribes bus cl ub obj target

/-- Only one message makes objects. -/
theorem handle_link (type : UbusMsgType) (notAdd : type ≠ .addObject) :
    LinkMove cl (Watches bus cl ub type) bus.store
      (bus.handle cl ub type).1.store := by
  cases type with
  | hello =>
      exact LinkMove.keep
  | ping =>
      exact LinkMove.keep
  | addObject =>
      exact absurd rfl notAdd
  | removeObject =>
      exact (bus.handleRemoveObject_move cl ub).mono fun _ => False.elim
  | lookup =>
      rw [handle, handleLookup_store]
      exact LinkMove.keep
  | invoke =>
      exact (bus.handleInvoke_move cl ub).mono fun _ => False.elim
  | status =>
      rw [handle, handleResponse_store]
      exact LinkMove.keep
  | data =>
      rw [handle, handleResponse_store]
      exact LinkMove.keep
  | subscribe =>
      exact (bus.handleAddWatch_move cl ub).mono fun _ watched => ⟨rfl, watched⟩
  | unsubscribe =>
      exact (bus.handleRemoveWatch_move cl ub).mono fun _ => False.elim
  | notify =>
      rw [handle, handleNotify_store]
      exact LinkMove.keep

theorem store_ubusdProtoReceiveMessage :
    (bus.ubusdProtoReceiveMessage cl ub).store =
      match UbusMsgType.ofCode? ub.hdr.type with
      | none => bus.store
      | some type => (bus.handle cl ub type).1.store := by
  rw [ubusdProtoReceiveMessage]
  cases UbusMsgType.ofCode? ub.hdr.type with
  | none =>
      exact store_sendStatus ..
  | some type =>
      dsimp only
      split
      · rfl
      · exact store_sendStatus ..

/-- What `ubusd_proto_receive_message` leaves in the structures. -/
theorem receive_move :
    StoreMove cl
      (fun target => ∃ type, UbusMsgType.ofCode? ub.hdr.type = some type ∧
        Watches bus cl ub type target)
      bus.store (bus.ubusdProtoReceiveMessage cl ub).store := by
  rw [store_ubusdProtoReceiveMessage]
  cases isType : UbusMsgType.ofCode? ub.hdr.type with
  | none =>
      exact StoreMove.link LinkMove.keep
  | some type =>
      by_cases isAdd : type = .addObject
      · rw [isAdd]
        exact StoreMove.make (bus.handleAddObject_move cl ub)
      · exact StoreMove.link ((bus.handle_link cl ub type isAdd).mono
          fun target watches => ⟨type, rfl, watches⟩)

end Bus

end LibubusJni.Ubusd
