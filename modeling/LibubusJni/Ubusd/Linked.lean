import LibubusJni.Lib.Links
import LibubusJni.Ubusd.Store

/-!
# How the structures of ubusd refer to each other

Five relations hold between the trees and the lists, each through every single
change that the code makes.  Two of them have an exception while an object is
being made: the object is in the tree before it has a client, and its type has
one reference more than it has objects.
-/

namespace LibubusJni.Ubusd

open LibubusJni.Lib LibubusJni.Libubox

/-- The relations between the structures, while an object may be young and a
type held. -/
structure Linked (young held : Option Ptr) (store : ObjStore) : Prop where
  eventObj : store.eventObj ∈ store.objects
  /-- Objects and the lists of their clients. -/
  owners : Held store.objects (fun obj => (store.objectAt obj).client)
    fun cl => (store.clientAt cl).objects
  connected : ∀ obj ∈ store.objects, ∀ cl,
    (store.objectAt obj).client = some cl → cl ∈ store.clients
  unowned : ∀ obj ∈ store.objects,
    (store.objectAt obj).client = none ↔
      obj = store.eventObj ∨ young = some obj
  /-- Subscriptions and the lists of their two objects. -/
  subscriptions : TwoSided store.objects
    (fun s => (store.subscriptionAt s).subscriber)
    (fun s => (store.subscriptionAt s).target)
    (fun obj => (store.objectAt obj).targetList)
    fun obj => (store.objectAt obj).subscribers
  /-- Event sources, the tree of patterns and the lists of their objects. -/
  sources : Held store.patterns (fun ev => some (store.sourceAt ev).obj)
    fun obj => (store.objectAt obj).events
  sourceLive : ∀ ev ∈ store.patterns, (store.sourceAt ev).obj ∈ store.objects
  /-- Only objects with a client subscribe or register. -/
  quiet : ∀ obj ∈ store.objects, (store.objectAt obj).client = none →
    (store.objectAt obj).targetList = [] ∧ (store.objectAt obj).events = []
  /-- Paths and the path tree. -/
  registered : ∀ obj, obj ∈ store.path ↔
    obj ∈ store.objects ∧ (store.objectAt obj).path.isSome
  different : store.path.Pairwise fun obj other =>
    (store.objectAt obj).path ≠ (store.objectAt other).path
  /-- Types and their references. -/
  types : Counted store.objects (fun obj => (store.objectAt obj).type) held
    store.objTypes fun type => (store.typeAt type).refcount
  once : store.objects.Nodup
  objectIds : ∀ obj ∈ store.objects, ∀ other ∈ store.objects,
    (store.objectAt obj).id = (store.objectAt other).id → obj = other

/-- What can be reached was allocated. -/
structure Allocated (store : ObjStore) : Prop where
  clients : ∀ cl ∈ store.clients, cl < store.allocs
  objTypes : ∀ type ∈ store.objTypes, type < store.allocs
  objects : ∀ obj ∈ store.objects, obj < store.allocs
  patterns : ∀ ev ∈ store.patterns, ev < store.allocs
  subscriptions : ∀ obj, ∀ s ∈ (store.objectAt obj).targetList,
    s < store.allocs

variable {young held : Option Ptr} {store : ObjStore}

/-! ## Unlinking -/

theorem Linked.unlinkSubscription (linked : Linked young held store)
    (s : Ptr) : Linked young held (store.unlinkSubscription s) :=
  { linked with
    subscriptions := linked.subscriptions.remove s
    quiet := fun obj member none => by
      obtain ⟨noTargets, noEvents⟩ := linked.quiet obj member none
      refine ⟨?_, noEvents⟩
      show listDel s (store.objectAt obj).targetList = []
      rw [noTargets]
      rfl }

theorem Linked.ubusdDeleteEventSource (linked : Linked young held store)
    (ev : Ptr) : Linked young held (store.ubusdDeleteEventSource ev) :=
  { linked with
    sources := linked.sources.remove fun _ => mem_avlDelete
    sourceLive := fun other inTree =>
      linked.sourceLive other (mem_avlDelete.mp inTree).1
    quiet := fun obj member none => by
      obtain ⟨noTargets, noEvents⟩ := linked.quiet obj member none
      refine ⟨noTargets, ?_⟩
      show listDel ev (store.objectAt obj).events = []
      rw [noEvents]
      rfl }

theorem Allocated.unlinkSubscription (allocated : Allocated store)
    (s : Ptr) : Allocated (store.unlinkSubscription s) :=
  { allocated with
    subscriptions := fun obj other onList =>
      allocated.subscriptions obj other (mem_listDel.mp onList).1 }

theorem Allocated.ubusdDeleteEventSource (allocated : Allocated store)
    (ev : Ptr) : Allocated (store.ubusdDeleteEventSource ev) :=
  { allocated with
    patterns := fun other inTree =>
      allocated.patterns other (mem_avlDelete.mp inTree).1 }

/-! ## Links -/

theorem targetLists_addSubscription (obj target : Ptr) :
    (fun ptr => ((store.addSubscription obj target).objectAt ptr).targetList) =
      Function.update (fun ptr => (store.objectAt ptr).targetList) obj
        (store.allocs :: (store.objectAt obj).targetList) := by
  simp [ObjStore.addSubscription, ObjStore.fields_modifyObject, listAdd]

theorem subscriberLists_addSubscription (obj target : Ptr) :
    (fun ptr =>
        ((store.addSubscription obj target).objectAt ptr).subscribers) =
      Function.update (fun ptr => (store.objectAt ptr).subscribers) target
        (store.allocs :: (store.objectAt target).subscribers) := by
  simp [ObjStore.addSubscription, ObjStore.fields_modifyObject, listAdd]

theorem Linked.addSubscription (linked : Linked young held store)
    (allocated : Allocated store) {obj target : Ptr}
    (objLive : obj ∈ store.objects) (targetLive : target ∈ store.objects)
    (owned : (store.objectAt obj).client ≠ none) :
    Linked young held (store.addSubscription obj target) where
  eventObj := linked.eventObj
  owners := by
    simpa [ObjStore.addSubscription] using linked.owners
  connected := by
    simpa [ObjStore.addSubscription] using linked.connected
  unowned := by
    simpa [ObjStore.addSubscription] using linked.unowned
  subscriptions := by
    have fresh : ∀ ptr, store.allocs ∉ (store.objectAt ptr).targetList ∧
        store.allocs ∉ (store.objectAt ptr).subscribers := by
      intro ptr
      have notTarget : ∀ other, store.allocs ∉
          (store.objectAt other).targetList := fun other onList =>
        Nat.lt_irrefl _ (allocated.subscriptions other _ onList)
      exact ⟨notTarget ptr, fun onList =>
        notTarget _ (linked.subscriptions.atTarget ptr _ onList).2.2.2⟩
    have subscriberOf :
        (fun s => ((store.addSubscription obj target).subscriptionAt
          s).subscriber) =
          Function.update (fun s => (store.subscriptionAt s).subscriber)
            store.allocs obj :=
      Function.comp_update UbusSubscription.subscriber _ _ _
    have targetOf :
        (fun s => ((store.addSubscription obj target).subscriptionAt
          s).target) =
          Function.update (fun s => (store.subscriptionAt s).target)
            store.allocs target :=
      Function.comp_update UbusSubscription.target _ _ _
    rw [targetLists_addSubscription, subscriberLists_addSubscription,
      subscriberOf, targetOf]
    exact linked.subscriptions.add fresh objLive targetLive
  sources := by
    simpa [ObjStore.addSubscription] using linked.sources
  sourceLive := linked.sourceLive
  quiet := fun ptr member none => by
    have wasNone : (store.objectAt ptr).client = Option.none := by
      simpa [ObjStore.addSubscription] using none
    have other : ptr ≠ obj := fun same => owned (same ▸ wasNone)
    obtain ⟨noTargets, noEvents⟩ := linked.quiet ptr member wasNone
    refine ⟨?_, by simpa [ObjStore.addSubscription] using noEvents⟩
    rw [congrFun (targetLists_addSubscription obj target) ptr,
      Function.update_of_ne other]
    exact noTargets
  registered := by
    simpa [ObjStore.addSubscription] using linked.registered
  different := by
    simpa [ObjStore.addSubscription] using linked.different
  types := by
    simpa [ObjStore.addSubscription] using linked.types
  once := linked.once
  objectIds := by
    simpa [ObjStore.addSubscription] using linked.objectIds

theorem Allocated.addSubscription (allocated : Allocated store)
    (obj target : Ptr) : Allocated (store.addSubscription obj target) where
  clients cl member := Nat.lt_succ_of_lt (allocated.clients cl member)
  objTypes type member := Nat.lt_succ_of_lt (allocated.objTypes type member)
  objects other member := Nat.lt_succ_of_lt (allocated.objects other member)
  patterns ev member := Nat.lt_succ_of_lt (allocated.patterns ev member)
  subscriptions ptr s onList := by
    rw [congrFun (targetLists_addSubscription obj target) ptr] at onList
    show s < store.allocs + 1
    by_cases here : ptr = obj
    · subst here
      rw [Function.update_self, List.mem_cons] at onList
      rcases onList with new | old
      · rw [new]
        exact Nat.lt_succ_self _
      · exact Nat.lt_succ_of_lt (allocated.subscriptions ptr s old)
    · rw [Function.update_of_ne here] at onList
      exact Nat.lt_succ_of_lt (allocated.subscriptions ptr s onList)

theorem Linked.addSource (linked : Linked young held store)
    (allocated : Allocated store) {obj : Ptr} (objLive : obj ∈ store.objects)
    (owned : (store.objectAt obj).client ≠ none) (key : List UInt8)
    (isPartial : Bool) : Linked young held (store.addSource obj key isPartial) where
  eventObj := linked.eventObj
  owners := by
    simpa [ObjStore.addSource] using linked.owners
  connected := by
    simpa [ObjStore.addSource] using linked.connected
  unowned := by
    simpa [ObjStore.addSource] using linked.unowned
  subscriptions := by
    simpa [ObjStore.addSource] using linked.subscriptions
  sources := by
    have fresh : store.allocs ∉ store.patterns := fun inTree =>
      Nat.lt_irrefl _ (allocated.patterns _ inTree)
    have objOf :
        (fun ev => some ((store.addSource obj key isPartial).sourceAt ev).obj) =
          Function.update (fun ev => some (store.sourceAt ev).obj)
            store.allocs (some obj) :=
      Function.comp_update (fun source => some (EventSource.obj source)) _ _ _
    have lists :
        (fun ptr => ((store.addSource obj key isPartial).objectAt ptr).events) =
          Function.update (fun ptr => (store.objectAt ptr).events) obj
            (store.allocs :: (store.objectAt obj).events) := by
      simp [ObjStore.addSource, ObjStore.fields_modifyObject, listAdd]
    rw [objOf, lists]
    exact linked.sources.add fresh (fun _ => mem_avlInsertDup) obj
  sourceLive ev inTree := by
    show (Function.update store.sourceAt store.allocs ⟨obj, key, isPartial⟩
      ev).obj ∈ store.objects
    rcases mem_avlInsertDup.mp inTree with new | old
    · rw [new, Function.update_self]
      exact objLive
    · have different : ev ≠ store.allocs :=
        Nat.ne_of_lt (allocated.patterns ev old)
      rw [Function.update_of_ne different]
      exact linked.sourceLive ev old
  quiet := fun ptr member none => by
    have wasNone : (store.objectAt ptr).client = Option.none := by
      simpa [ObjStore.addSource] using none
    have other : ptr ≠ obj := fun same => owned (same ▸ wasNone)
    obtain ⟨noTargets, noEvents⟩ := linked.quiet ptr member wasNone
    refine ⟨by simpa [ObjStore.addSource] using noTargets, ?_⟩
    simpa [ObjStore.addSource, ObjStore.objectAt_modifyObject,
      Function.update_of_ne other] using noEvents
  registered := by
    simpa [ObjStore.addSource] using linked.registered
  different := by
    simpa [ObjStore.addSource] using linked.different
  types := by
    simpa [ObjStore.addSource] using linked.types
  once := linked.once
  objectIds := by
    simpa [ObjStore.addSource] using linked.objectIds

theorem Allocated.addSource (allocated : Allocated store)
    (obj : Ptr) (key : List UInt8) (isPartial : Bool) :
    Allocated (store.addSource obj key isPartial) where
  clients cl member := Nat.lt_succ_of_lt (allocated.clients cl member)
  objTypes type member := Nat.lt_succ_of_lt (allocated.objTypes type member)
  objects other member := Nat.lt_succ_of_lt (allocated.objects other member)
  patterns ev member := by
    show ev < store.allocs + 1
    rcases mem_avlInsertDup.mp member with new | old
    · rw [new]
      exact Nat.lt_succ_self _
    · exact Nat.lt_succ_of_lt (allocated.patterns ev old)
  subscriptions ptr s onList := by
    have old : s ∈ (store.objectAt ptr).targetList := by
      simpa [ObjStore.addSource] using onList
    exact Nat.lt_succ_of_lt (allocated.subscriptions ptr s old)

/-! ## Clients -/

theorem Linked.addClient (linked : Linked young held store)
    (allocated : Allocated store) (id : UInt32) :
    Linked young held (store.addClient id) :=
  { linked with
    owners := by
      have fresh : (store.clientAt store.allocs).objects = [] := by
        refine List.eq_nil_iff_forall_not_mem.mpr fun obj onList => ?_
        obtain ⟨live, own⟩ := (linked.owners.listed _ obj).mp onList
        exact Nat.lt_irrefl _
          (allocated.clients _ (linked.connected obj live _ own))
      have lists :
          (fun cl => ((store.addClient id).clientAt cl).objects) =
            fun cl => (store.clientAt cl).objects := by
        show (fun cl => (Function.update store.clientAt store.allocs ⟨id, []⟩
          cl).objects) = _
        funext cl
        by_cases new : cl = store.allocs
        · rw [new, Function.update_self, fresh]
        · rw [Function.update_of_ne new]
      rw [lists]
      exact linked.owners
    connected := fun obj member cl own =>
      mem_avlInsertDup.mpr (Or.inr (linked.connected obj member cl own)) }

theorem Allocated.addClient (allocated : Allocated store) (id : UInt32) :
    Allocated (store.addClient id) where
  clients cl member := by
    show cl < store.allocs + 1
    rcases mem_avlInsertDup.mp member with new | old
    · rw [new]
      exact Nat.lt_succ_self _
    · exact Nat.lt_succ_of_lt (allocated.clients cl old)
  objTypes type member := Nat.lt_succ_of_lt (allocated.objTypes type member)
  objects other member := Nat.lt_succ_of_lt (allocated.objects other member)
  patterns ev member := Nat.lt_succ_of_lt (allocated.patterns ev member)
  subscriptions ptr s onList :=
    Nat.lt_succ_of_lt (allocated.subscriptions ptr s onList)

/-- A client goes once its list is empty. -/
theorem Linked.removeClient (linked : Linked young held store) {cl : Ptr}
    (empty : (store.clientAt cl).objects = []) :
    Linked young held (store.removeClient cl) :=
  { linked with
    connected := fun obj member other own => by
      refine mem_avlDelete.mpr ⟨linked.connected obj member other own, ?_⟩
      intro same
      have onList := (linked.owners.listed other obj).mpr ⟨member, own⟩
      rw [same, empty] at onList
      exact List.not_mem_nil onList }

theorem Allocated.removeClient (allocated : Allocated store) (cl : Ptr) :
    Allocated (store.removeClient cl) :=
  { allocated with
    clients := fun other member =>
      allocated.clients other (mem_avlDelete.mp member).1 }

/-! ## Types -/

theorem Linked.addType (linked : Linked young none store)
    (allocated : Allocated store) (id : UInt32) :
    Linked young (some store.allocs) (store.addType id) :=
  { linked with
    types := by
      have fresh : store.allocs ∉ store.objTypes := fun member =>
        Nat.lt_irrefl _ (allocated.objTypes _ member)
      have counts :
          (fun type => ((store.addType id).typeAt type).refcount) =
            Function.update (fun type => (store.typeAt type).refcount)
              store.allocs 1 :=
        Function.comp_update UbusObjectType.refcount _ _ _
      rw [counts]
      refine linked.types.addKind fresh (fun _ => mem_avlInsertDup) ?_ ?_
      · have unused : references store.objects
            (fun obj => (store.objectAt obj).type) none store.allocs = 0 :=
          Nat.eq_zero_of_not_pos fun positive =>
            fresh (linked.types.known _ positive)
        exact references_held.trans (congrArg (· + 1) unused)
      · exact fun other different => references_held_of_ne different }

theorem Allocated.addType (allocated : Allocated store) (id : UInt32) :
    Allocated (store.addType id) where
  clients cl member := Nat.lt_succ_of_lt (allocated.clients cl member)
  objTypes type member := by
    show type < store.allocs + 1
    rcases mem_avlInsertDup.mp member with new | old
    · rw [new]
      exact Nat.lt_succ_self _
    · exact Nat.lt_succ_of_lt (allocated.objTypes type old)
  objects other member := Nat.lt_succ_of_lt (allocated.objects other member)
  patterns ev member := Nat.lt_succ_of_lt (allocated.patterns ev member)
  subscriptions ptr s onList :=
    Nat.lt_succ_of_lt (allocated.subscriptions ptr s onList)

theorem Linked.ubusCreateObjMethod (linked : Linked young held store)
    (type : Ptr) (data : List UInt8) :
    Linked young held (store.ubusCreateObjMethod type data) :=
  { linked with
    types := by
      have counts :
          (fun other => ((store.ubusCreateObjMethod type data).typeAt
            other).refcount) =
            fun other => (store.typeAt other).refcount := by
        rw [ObjStore.ubusCreateObjMethod, ObjStore.fields_modifyType]
        exact Function.update_eq_self type _
      rw [counts]
      exact linked.types }

theorem Linked.refType (linked : Linked young none store) {type : Ptr}
    (live : type ∈ store.objTypes) :
    Linked young (some type) (store.refType type) :=
  { linked with
    types := by
      rw [ObjStore.refType, ObjStore.fields_modifyType]
      exact linked.types.ref live references_held
        fun other different => references_held_of_ne different }

theorem refcounts_ubusUnrefObjectType (type : Ptr) :
    (fun other => ((store.ubusUnrefObjectType type).typeAt other).refcount) =
      Function.update (fun other => (store.typeAt other).refcount) type
        ((store.typeAt type).refcount - 1) :=
  Function.comp_update UbusObjectType.refcount _ _ _

/-- A held type is let go. -/
theorem Linked.ubusUnrefObjectType {type : Ptr}
    (linked : Linked young (some type) store) :
    Linked young none (store.ubusUnrefObjectType type) :=
  { linked with
    types := by
      have live : type ∈ store.objTypes :=
        linked.types.known type (by rw [references_held]; exact Nat.succ_pos _)
      rw [refcounts_ubusUnrefObjectType]
      exact linked.types.unref live references_held.symm
        fun other different => (references_held_of_ne different).symm }

theorem Allocated.ubusUnrefObjectType (allocated : Allocated store)
    (type : Ptr) : Allocated (store.ubusUnrefObjectType type) :=
  { allocated with
    objTypes := fun other member => by
      have kept : other ∈ if 0 < (store.typeAt type).refcount - 1 then
          store.objTypes else avlDelete type store.objTypes := member
      split at kept
      · exact allocated.objTypes other kept
      · exact allocated.objTypes other (mem_avlDelete.mp kept).1 }

/-! ## Objects -/

/-- A field of all objects after one was added. -/
theorem fields_addObject {Field : Type} (store : ObjStore)
    (field : UbusObject → Field) (id : UInt32) (type : Option Ptr) :
    (fun ptr => field ((store.addObject id type).objectAt ptr)) =
      Function.update (fun ptr => field (store.objectAt ptr)) store.allocs
        (field ⟨id, [], [], [], type, none, none, false⟩) :=
  Function.comp_update field _ _ _

theorem refcounts_addObject (id : UInt32) (type : Ptr) :
    (fun other =>
        ((store.addObject id (some type)).typeAt other).refcount) =
      Function.update (fun other => (store.typeAt other).refcount) type
        ((store.typeAt type).refcount + 1) :=
  Function.comp_update UbusObjectType.refcount _ _ _

/-- An object enters the tree with an identifier that was free; it has no client
yet, and its type is held. -/
theorem Linked.addObject {type : Option Ptr}
    (linked : Linked none type store) (allocated : Allocated store)
    {id : UInt32}
    (free : ∀ obj ∈ store.objects, (store.objectAt obj).id ≠ id) :
    Linked (some store.allocs) type (store.addObject id type) := by
  have fresh : store.allocs ∉ store.objects := fun member =>
    Nat.lt_irrefl _ (allocated.objects _ member)
  have old : ∀ obj ∈ store.objects, obj ≠ store.allocs := fun obj member same =>
    fresh (same ▸ member)
  have split : ∀ {obj}, obj ∈ (store.addObject id type).objects ↔
      obj = store.allocs ∨ obj ∈ store.objects := mem_avlInsertDup
  have perm : (store.addObject id type).objects.Perm
      (store.allocs :: store.objects) := perm_avlInsertDup
  have noTargets : (store.objectAt store.allocs).targetList = [] := by
    refine List.eq_nil_iff_forall_not_mem.mpr fun s onList => ?_
    exact fresh (linked.subscriptions.atSource _ s onList).2.1
  have noSubscribers : (store.objectAt store.allocs).subscribers = [] := by
    refine List.eq_nil_iff_forall_not_mem.mpr fun s onList => ?_
    exact fresh (linked.subscriptions.atTarget _ s onList).2.1
  have noEvents : (store.objectAt store.allocs).events = [] := by
    refine List.eq_nil_iff_forall_not_mem.mpr fun ev onList => ?_
    obtain ⟨inTree, own⟩ := (linked.sources.listed _ ev).mp onList
    exact fresh (Option.some.inj own ▸ linked.sourceLive ev inTree)
  have targets := fields_addObject store UbusObject.targetList id type
  have subscribers := fields_addObject store UbusObject.subscribers id type
  have events := fields_addObject store UbusObject.events id type
  have clients := fields_addObject store UbusObject.client id type
  have kept : ∀ obj ∈ store.objects,
      (store.addObject id type).objectAt obj = store.objectAt obj :=
    fun obj member => Function.update_of_ne (old obj member) _ _
  have new : (store.addObject id type).objectAt store.allocs =
      ⟨id, [], [], [], type, none, none, false⟩ := Function.update_self ..
  rw [← noTargets, Function.update_eq_self] at targets
  rw [← noSubscribers, Function.update_eq_self] at subscribers
  rw [← noEvents, Function.update_eq_self] at events
  exact
    { eventObj := split.mpr (Or.inr linked.eventObj)
      owners := by
        rw [clients]
        exact linked.owners.addFree fresh fun _ => split
      connected := fun obj member cl own => by
        rcases split.mp member with isNew | isOld
        · rw [isNew, new] at own
          exact absurd own (Option.some_ne_none cl).symm
        · rw [kept obj isOld] at own
          exact linked.connected obj isOld cl own
      unowned := fun obj member => by
        rcases split.mp member with isNew | isOld
        · rw [isNew, new]
          exact iff_of_true rfl (Or.inr rfl)
        · rw [kept obj isOld, linked.unowned obj isOld]
          simp [(old obj isOld).symm, ObjStore.addObject]
      subscriptions := by
        rw [targets, subscribers]
        exact linked.subscriptions.grow fun obj member =>
          split.mpr (Or.inr member)
      sources := by
        rw [events]
        exact linked.sources
      sourceLive := fun ev inTree =>
        split.mpr (Or.inr (linked.sourceLive ev inTree))
      quiet := fun obj member none => by
        rcases split.mp member with isNew | isOld
        · rw [isNew, new]
          exact ⟨rfl, rfl⟩
        · rw [kept obj isOld] at none ⊢
          exact linked.quiet obj isOld none
      registered := fun obj => by
        show obj ∈ store.path ↔ _
        rw [linked.registered obj, split]
        by_cases isNew : obj = store.allocs
        · rw [isNew, new]
          simp [fresh]
        · by_cases isOld : obj ∈ store.objects
          · rw [kept obj isOld]
            simp [isOld]
          · simp [isOld, isNew]
      different := by
        refine linked.different.imp_of_mem fun isPath otherIsPath differ => ?_
        rw [kept _ ((linked.registered _).mp isPath).1,
          kept _ ((linked.registered _).mp otherIsPath).1]
        exact differ
      types := by
        have counts : ∀ name, references (store.addObject id type).objects
            (fun obj => ((store.addObject id type).objectAt obj).type) type
            name =
              references store.objects (fun obj => (store.objectAt obj).type)
                type name + if type = some name then 1 else 0 := by
          intro name
          rw [fields_addObject]
          exact references_cons type fresh perm
        cases type with
        | none =>
            exact linked.types.same counts
        | some type =>
            have live : type ∈ store.objTypes :=
              linked.types.known type
                (by rw [references_held]; exact Nat.succ_pos _)
            rw [refcounts_addObject]
            refine linked.types.ref live ?_ ?_
            · rw [counts, if_pos rfl]
            · intro other different
              rw [counts, if_neg fun same =>
                different (Option.some.inj same).symm]
              rfl
      once := perm.nodup_iff.mpr (List.nodup_cons.mpr ⟨fresh, linked.once⟩)
      objectIds := fun obj member other otherMember same => by
        rcases split.mp member with isNew | isOld
        · rcases split.mp otherMember with otherNew | otherOld
          · rw [isNew, otherNew]
          · rw [isNew, new, kept other otherOld] at same
            exact absurd same.symm (free other otherOld)
        · rcases split.mp otherMember with otherNew | otherOld
          · rw [otherNew, new, kept obj isOld] at same
            exact absurd same (free obj isOld)
          · rw [kept obj isOld, kept other otherOld] at same
            exact linked.objectIds obj isOld other otherOld same }

theorem Allocated.addObject (allocated : Allocated store) (id : UInt32)
    (type : Option Ptr) : Allocated (store.addObject id type) where
  clients cl member := Nat.lt_succ_of_lt (allocated.clients cl member)
  objTypes type member := Nat.lt_succ_of_lt (allocated.objTypes type member)
  objects obj member := by
    show obj < store.allocs + 1
    rcases mem_avlInsertDup.mp member with new | old
    · rw [new]
      exact Nat.lt_succ_self _
    · exact Nat.lt_succ_of_lt (allocated.objects obj old)
  patterns ev member := Nat.lt_succ_of_lt (allocated.patterns ev member)
  subscriptions ptr s onList := by
    rw [congrFun (fields_addObject store UbusObject.targetList id type) ptr]
      at onList
    by_cases new : ptr = store.allocs
    · rw [new, Function.update_self] at onList
      exact absurd onList List.not_mem_nil
    · rw [Function.update_of_ne new] at onList
      exact Nat.lt_succ_of_lt (allocated.subscriptions ptr s onList)

/-- What `insertPath` has done when it succeeds. -/
theorem insertPath_some {obj : Ptr} {key : List UInt8} {next : ObjStore}
    (inserted : store.insertPath obj key = some next) :
    ∃ tree, next = store.addPath obj key tree ∧
      tree.Perm (obj :: store.path) ∧
        ∀ other ∈ store.path, other ≠ obj →
          (store.objectAt other).path.getD [] ≠ key := by
  obtain ⟨tree, inTree, same⟩ := Option.map_eq_some_iff.mp inserted
  obtain ⟨different, made⟩ := avlInsert_some.mp inTree
  refine ⟨tree, same.symm, made ▸ perm_avlInsertDup, ?_⟩
  intro other member notThis equal
  apply different other member
  rw [if_pos rfl, if_neg notThis]
  exact avlStrcmp_eq.mpr equal.symm

theorem Linked.insertPath (linked : Linked young held store) {obj : Ptr}
    (live : obj ∈ store.objects) (noPath : (store.objectAt obj).path = none)
    {key : List UInt8} {next : ObjStore}
    (inserted : store.insertPath obj key = some next) :
    Linked young held next := by
  obtain ⟨tree, same, perm, different⟩ := insertPath_some inserted
  have absent : obj ∉ store.path := fun member => by
    have hasPath := ((linked.registered obj).mp member).2
    rw [noPath] at hasPath
    exact Bool.false_ne_true hasPath
  have paths : ∀ ptr, ptr ≠ obj →
      ((store.addPath obj key tree).objectAt ptr).path =
        (store.objectAt ptr).path := fun ptr other => by
    simp [ObjStore.addPath, ObjStore.objectAt_modifyObject, other]
  have own : ((store.addPath obj key tree).objectAt obj).path = some key := by
    simp [ObjStore.addPath, ObjStore.objectAt_modifyObject]
  have differs : ∀ other ∈ store.path, (store.objectAt other).path ≠ some key := by
    intro other member equal
    have notThis : other ≠ obj := fun isObj => absent (isObj ▸ member)
    exact different other member notThis (by rw [equal, Option.getD_some])
  rw [same]
  exact
    { eventObj := linked.eventObj
      owners := by
        simpa [ObjStore.addPath] using linked.owners
      connected := by
        simpa [ObjStore.addPath] using linked.connected
      unowned := by
        simpa [ObjStore.addPath] using linked.unowned
      subscriptions := by
        simpa [ObjStore.addPath] using linked.subscriptions
      sources := by
        simpa [ObjStore.addPath] using linked.sources
      sourceLive := linked.sourceLive
      quiet := by
        simpa [ObjStore.addPath] using linked.quiet
      registered := fun ptr => by
        show ptr ∈ tree ↔ _
        rw [perm.mem_iff, List.mem_cons]
        by_cases this : ptr = obj
        · subst this
          rw [own]
          exact iff_of_true (Or.inl rfl) ⟨live, rfl⟩
        · rw [paths ptr this, linked.registered ptr]
          simp [this, ObjStore.addPath]
      different := by
        refine (perm.pairwise_iff fun {_ _} differ => differ.symm).mpr ?_
        refine List.pairwise_cons.mpr ⟨fun other member => ?_, ?_⟩
        · have notThis : other ≠ obj := fun isObj => absent (isObj ▸ member)
          rw [own, paths other notThis]
          exact (differs other member).symm
        · refine linked.different.imp_of_mem fun isPath otherIsPath differ => ?_
          rw [paths _ fun isObj => absent (isObj ▸ isPath),
            paths _ fun isObj => absent (isObj ▸ otherIsPath)]
          exact differ
      types := by
        simpa [ObjStore.addPath] using linked.types
      once := linked.once
      objectIds := by
        simpa [ObjStore.addPath] using linked.objectIds }

/-- A new object is given to its client. -/
theorem Linked.setOwner {obj cl : Ptr}
    (linked : Linked (some obj) held store) (live : obj ∈ store.objects)
    (notEvent : obj ≠ store.eventObj) (connected : cl ∈ store.clients) :
    Linked none held (store.setOwner obj cl) := by
  have free : (store.objectAt obj).client = none :=
    (linked.unowned obj live).mpr (Or.inr rfl)
  have clients :
      (fun ptr => ((store.setOwner obj cl).objectAt ptr).client) =
        Function.update (fun ptr => (store.objectAt ptr).client) obj
          (some cl) := by
    simp [ObjStore.setOwner, ObjStore.fields_modifyObject]
  have lists :
      (fun other => ((store.setOwner obj cl).clientAt other).objects) =
        Function.update (fun other => (store.clientAt other).objects) cl
          (obj :: (store.clientAt cl).objects) :=
    Function.comp_update ClientEntry.objects _ _ _
  have own : ((store.setOwner obj cl).objectAt obj).client = some cl := by
    rw [congrFun clients obj, Function.update_self]
  have others : ∀ ptr, ptr ≠ obj →
      ((store.setOwner obj cl).objectAt ptr).client =
        (store.objectAt ptr).client := fun ptr other => by
    rw [congrFun clients ptr, Function.update_of_ne other]
  exact
    { eventObj := linked.eventObj
      owners := by
        rw [clients, lists]
        exact linked.owners.give live free cl
      connected := fun ptr member other isOwner => by
        by_cases this : ptr = obj
        · rw [this, own] at isOwner
          exact Option.some.inj isOwner ▸ connected
        · rw [others ptr this] at isOwner
          exact linked.connected ptr member other isOwner
      unowned := fun ptr member => by
        by_cases this : ptr = obj
        · rw [this, own]
          exact iff_of_false (Option.some_ne_none cl) (by simp [notEvent, ObjStore.setOwner])
        · rw [others ptr this, linked.unowned ptr member]
          simp [Ne.symm this, ObjStore.setOwner]
      subscriptions := by
        simpa [ObjStore.setOwner] using linked.subscriptions
      sources := by
        simpa [ObjStore.setOwner] using linked.sources
      sourceLive := linked.sourceLive
      quiet := fun ptr member isFree => by
        by_cases this : ptr = obj
        · rw [this, own] at isFree
          exact absurd isFree (Option.some_ne_none cl)
        · rw [others ptr this] at isFree
          simpa [ObjStore.setOwner] using linked.quiet ptr member isFree
      registered := by
        simpa [ObjStore.setOwner] using linked.registered
      different := by
        simpa [ObjStore.setOwner] using linked.different
      types := by
        simpa [ObjStore.setOwner] using linked.types
      once := linked.once
      objectIds := by
        simpa [ObjStore.setOwner] using linked.objectIds }

/-! ## Removal -/

/-- An object without links leaves the path tree, its client's list and the
tree of objects; its type is held for a moment. -/
theorem Linked.removeObject {obj : Ptr}
    (linked : Linked young none store) (live : obj ∈ store.objects)
    (notEvent : obj ≠ store.eventObj)
    (onlyYoung : young = none ∨ young = some obj)
    (noTargets : (store.objectAt obj).targetList = [])
    (noSubscribers : (store.objectAt obj).subscribers = [])
    (noEvents : (store.objectAt obj).events = []) :
    Linked none (store.objectAt obj).type
      (((store.removePath obj).unlinkObject obj).removeObject obj) where
  eventObj := mem_avlDelete.mpr ⟨linked.eventObj, notEvent.symm⟩
  owners := linked.owners.remove fun _ => mem_avlDelete
  connected other member cl own :=
    linked.connected other (mem_avlDelete.mp member).1 cl own
  unowned other member := by
    obtain ⟨isLive, notThis⟩ := mem_avlDelete.mp member
    refine (linked.unowned other isLive).trans (or_congr_right ?_)
    rcases onlyYoung with none | isObj
    · rw [none]
    · rw [isObj]
      exact iff_of_false (fun same => notThis (Option.some.inj same).symm)
        fun same => absurd same (Option.some_ne_none other).symm
  subscriptions := linked.subscriptions.dropItem noTargets noSubscribers
    fun _ => mem_avlDelete
  sources := linked.sources
  sourceLive ev inTree := by
    refine mem_avlDelete.mpr ⟨linked.sourceLive ev inTree, fun same => ?_⟩
    have onList := (linked.sources.listed obj ev).mpr
      ⟨inTree, congrArg some same⟩
    rw [noEvents] at onList
    exact List.not_mem_nil onList
  quiet other member := linked.quiet other (mem_avlDelete.mp member).1
  registered other := by
    refine mem_avlDelete.trans ?_
    rw [linked.registered other]
    exact and_right_comm.trans (and_congr_left fun _ => mem_avlDelete.symm)
  different := linked.different.sublist List.filter_sublist
  types := linked.types.same fun _ => references_take linked.once live
  once := linked.once.filter _
  objectIds other member another anotherMember same :=
    linked.objectIds other (mem_avlDelete.mp member).1 another
      (mem_avlDelete.mp anotherMember).1 same

end LibubusJni.Ubusd
