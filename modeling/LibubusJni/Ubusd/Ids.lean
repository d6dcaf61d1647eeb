import LibubusJni.Ubusd.Typed

/-!
# The identifiers that `ubus_alloc_id` gives out

The loop reads a value again when it is below `UBUS_SYSTEM_OBJECT_MAX`, or so it
seems: `continue` leads to the condition, which inserts the value.  A new
identifier is outside of the reserved range exactly when the random device
returns no free value of that range before another free one.
-/

namespace LibubusJni.Ubusd

open LibubusJni.Lib LibubusJni.Libubox

/-! ## One identifier -/

/-- Before a free value below `UBUS_SYSTEM_OBJECT_MAX` another free value is
read. -/
def ReservedPassed (taken : UInt32 → Bool) (urandom : List UInt32) : Prop :=
  ∀ before small after, urandom = before ++ small :: after →
    small < ubusSystemObjectMax → taken small = false →
      ∃ id ∈ before, taken id = false

/-- Whether an identifier is in a tree. -/
def inTree (idOf : Ptr → UInt32) (tree : List Ptr) (id : UInt32) : Bool :=
  (avlFind ubusCmpId idOf id tree).isSome

theorem inTree_iff {idOf : Ptr → UInt32} {tree : List Ptr} {id : UInt32} :
    inTree idOf tree id = true ↔ ∃ node ∈ tree, idOf node = id := by
  constructor
  · intro isIn
    obtain ⟨node, found⟩ := Option.isSome_iff_exists.mp isIn
    obtain ⟨member, same⟩ := avlFind_some found
    exact ⟨node, member, (ubusCmpId_eq.mp same).symm⟩
  · intro ⟨node, member, same⟩
    by_contra absent
    have notFound := Option.not_isSome_iff_eq_none.mp absent
    exact avlFind_none.mp notFound node member (ubusCmpId_eq.mpr same.symm)

/-- What `ubus_alloc_id` promises of a new identifier: it is not reserved, was
not in the tree, and is there now. -/
structure Allocates (idOf : Ptr → UInt32) (tree : List Ptr) (node : Ptr)
    (id : UInt32) : Prop where
  notReserved : ubusSystemObjectMax ≤ id
  wasFree : inTree idOf tree id = false
  isIn : inTree (Function.update idOf node id)
    (avlInsertDup ubusCmpId (Function.update idOf node id) node tree) id = true

variable {taken : UInt32 → Bool} {urandom rest : List UInt32} {id : UInt32}

theorem reservedPassed_cons_free (free : taken id = false) :
    ReservedPassed taken (id :: rest) ↔ ubusSystemObjectMax ≤ id := by
  constructor
  · intro passed
    by_contra notAbove
    obtain ⟨earlier, member, _⟩ :=
      passed [] id rest rfl (UInt32.not_le.mp notAbove) free
    exact absurd member List.not_mem_nil
  · intro above before small after same isSmall _
    cases before with
    | nil =>
        rw [List.nil_append, List.cons.injEq] at same
        rw [← same.1] at isSmall
        exact absurd isSmall (UInt32.not_lt.mpr above)
    | cons first more =>
        rw [List.cons_append, List.cons.injEq] at same
        exact ⟨first, List.mem_cons_self, same.1 ▸ free⟩

theorem reservedPassed_cons_taken (isTaken : taken id = true) :
    ReservedPassed taken (id :: rest) ↔ ReservedPassed taken rest := by
  constructor
  · intro passed before small after same isSmall free
    obtain ⟨other, member, otherFree⟩ := passed (id :: before) small after
      (by rw [same, List.cons_append]) isSmall free
    cases List.mem_cons.mp member with
    | inl isId =>
        rw [isId, isTaken] at otherFree
        exact absurd otherFree.symm Bool.false_ne_true
    | inr inBefore =>
        exact ⟨other, inBefore, otherFree⟩
  · intro passed before small after same isSmall free
    cases before with
    | nil =>
        rw [List.nil_append, List.cons.injEq] at same
        rw [← same.1, isTaken] at free
        exact absurd free.symm Bool.false_ne_true
    | cons first more =>
        rw [List.cons_append, List.cons.injEq] at same
        obtain ⟨other, member, otherFree⟩ :=
          passed more small after same.2 isSmall free
        exact ⟨other, List.mem_cons_of_mem first member, otherFree⟩

/-- An identifier that is not reserved is given out exactly if none that is
reserved and free is read first. -/
theorem ubusAllocId_notReserved :
    (∀ id rest, ubusAllocId taken urandom = (some id, rest) →
      ubusSystemObjectMax ≤ id) ↔ ReservedPassed taken urandom := by
  induction urandom with
  | nil =>
      refine iff_of_true ?_ ?_
      · intro id rest none
        exact absurd (congrArg Prod.fst none) (Option.some_ne_none id).symm
      · intro before small after same
        exact absurd same.symm (by simp)
  | cons first more inductionHypothesis =>
      rw [ubusAllocId]
      split
      · rename_i isTaken
        exact inductionHypothesis.trans (reservedPassed_cons_taken isTaken).symm
      · rename_i notTaken
        rw [reservedPassed_cons_free (eq_false_of_ne_true notTaken)]
        constructor
        · intro all
          exact all first more rfl
        · intro above id rest same
          rw [Prod.mk.injEq, Option.some.injEq] at same
          exact same.1 ▸ above

theorem ubusAllocId_allocates (idOf : Ptr → UInt32) (tree : List Ptr)
    (node : Ptr) (urandom : List UInt32) :
    (∀ id rest, ubusAllocId (inTree idOf tree) urandom = (some id, rest) →
      Allocates idOf tree node id) ↔
        ReservedPassed (inTree idOf tree) urandom := by
  rw [← ubusAllocId_notReserved]
  refine forall_congr' fun id => forall_congr' fun rest =>
    forall_congr' fun allocated => ?_
  constructor
  · intro allocates
    exact allocates.notReserved
  · intro notReserved
    exact
      { notReserved := notReserved
        wasFree := ubusAllocId_some allocated
        isIn := inTree_iff.mpr
          ⟨node, mem_avlInsertDup.mpr (Or.inl rfl), Function.update_self ..⟩ }

/-! ## The identifiers in use -/

/-- No client, no type and no object but `event_obj` has a reserved
identifier. -/
structure NoReserved (store : ObjStore) : Prop where
  clients : ∀ cl ∈ store.clients, ubusSystemObjectMax ≤ (store.clientAt cl).id
  types : ∀ type ∈ store.objTypes,
    ubusSystemObjectMax ≤ (store.typeAt type).id
  objects : ∀ obj ∈ store.objects, obj ≠ store.eventObj →
    ubusSystemObjectMax ≤ (store.objectAt obj).id

/-- What is still in the trees was there, with the identifier it has. -/
structure IdsKept (store next : ObjStore) : Prop where
  eventObj : next.eventObj = store.eventObj
  clients : ∀ cl ∈ next.clients,
    cl ∈ store.clients ∧ (next.clientAt cl).id = (store.clientAt cl).id
  types : ∀ type ∈ next.objTypes,
    type ∈ store.objTypes ∧ (next.typeAt type).id = (store.typeAt type).id
  objects : ∀ obj ∈ next.objects,
    obj ∈ store.objects ∧ (next.objectAt obj).id = (store.objectAt obj).id

variable {store middle next : ObjStore}

theorem NoReserved.kept (none : NoReserved store)
    (kept : IdsKept store next) : NoReserved next where
  clients cl member := by
    obtain ⟨was, same⟩ := kept.clients cl member
    exact same ▸ none.clients cl was
  types type member := by
    obtain ⟨was, same⟩ := kept.types type member
    exact same ▸ none.types type was
  objects obj member notEvent := by
    obtain ⟨was, same⟩ := kept.objects obj member
    exact same ▸ none.objects obj was (kept.eventObj ▸ notEvent)

theorem IdsKept.refl (store : ObjStore) : IdsKept store store where
  eventObj := rfl
  clients _ member := ⟨member, rfl⟩
  types _ member := ⟨member, rfl⟩
  objects _ member := ⟨member, rfl⟩

theorem IdsKept.trans (first : IdsKept store middle)
    (second : IdsKept middle next) : IdsKept store next where
  eventObj := second.eventObj.trans first.eventObj
  clients cl member := by
    obtain ⟨inMiddle, same⟩ := second.clients cl member
    obtain ⟨was, firstSame⟩ := first.clients cl inMiddle
    exact ⟨was, same.trans firstSame⟩
  types type member := by
    obtain ⟨inMiddle, same⟩ := second.types type member
    obtain ⟨was, firstSame⟩ := first.types type inMiddle
    exact ⟨was, same.trans firstSame⟩
  objects obj member := by
    obtain ⟨inMiddle, same⟩ := second.objects obj member
    obtain ⟨was, firstSame⟩ := first.objects obj inMiddle
    exact ⟨was, same.trans firstSame⟩

theorem idsKept_modifyType (store : ObjStore) (ptr : Ptr)
    (change : UbusObjectType → UbusObjectType)
    (same : ∀ type, (change type).id = type.id) :
    IdsKept store (store.modifyType ptr change) :=
  { IdsKept.refl store with
    types := fun type member => by
      refine ⟨member, ?_⟩
      rw [ObjStore.typeAt_modifyType]
      by_cases this : type = ptr
      · rw [this, Function.update_self]
        exact same _
      · rw [Function.update_of_ne this] }

theorem idsKept_refType (store : ObjStore) (ptr : Ptr) :
    IdsKept store (store.refType ptr) :=
  idsKept_modifyType store ptr _ fun _ => rfl

theorem idsKept_ubusCreateObjMethod (store : ObjStore) (ptr : Ptr)
    (data : List UInt8) : IdsKept store (store.ubusCreateObjMethod ptr data) :=
  idsKept_modifyType store ptr _ fun _ => rfl

theorem idsKept_unrefType (store : ObjStore) (type : Option Ptr) :
    IdsKept store (store.unrefType type) := by
  cases type with
  | none =>
      exact IdsKept.refl store
  | some ptr =>
      have changed := idsKept_modifyType store ptr (fun type =>
        { type with
          refcount := type.refcount - 1
          methods := if 0 < type.refcount - 1 then type.methods else [] })
        (fun _ => rfl)
      refine { changed with types := fun type member => ?_ }
      refine changed.types type ?_
      change type ∈ (if _ then _ else _) at member
      split at member
      · exact member
      · exact (mem_avlDelete.mp member).1

theorem idsKept_createMethods (store : ObjStore) (bytes : List UInt8)
    (type : Ptr) (attrs : List Nat) :
    IdsKept store (ObjStore.createMethods bytes type attrs store).1 := by
  induction attrs generalizing store with
  | nil =>
      exact IdsKept.refl store
  | cons pos rest inductionHypothesis =>
      rw [ObjStore.createMethods]
      split
      · exact (idsKept_ubusCreateObjMethod store type _).trans
          (inductionHypothesis _)
      · exact idsKept_unrefType store (some type)

theorem idsKept_freeObject (store : ObjStore) (obj : Ptr) :
    IdsKept store (store.freeObject obj) := by
  rw [ObjStore.freeObject, ObjStore.dropNode]
  refine IdsKept.trans ?_ (idsKept_unrefType _ _)
  rw [ObjStore.dropPath, dropLinks_eq]
  split
  · exact
      { IdsKept.refl store with
        objects := fun other member => ⟨(mem_avlDelete.mp member).1, rfl⟩ }
  · exact
      { IdsKept.refl store with
        objects := fun other member => ⟨(mem_avlDelete.mp member).1, rfl⟩ }

theorem LinkMove.idsKept {cl : Ptr} {watched : Ptr → Prop}
    (move : LinkMove cl watched store next) : IdsKept store next := by
  cases move with
  | keep =>
      exact IdsKept.refl store
  | removed obj live own =>
      exact idsKept_freeObject store obj
  | subscribed obj target live own targetLive isWatched =>
      exact
        { IdsKept.refl store with
          objects := fun other member =>
            ⟨member, by simp [ObjStore.addSubscription]⟩ }
  | unsubscribed obj s live own onList =>
      exact { IdsKept.refl store with }
  | registered obj key isPartial live own =>
      exact
        { IdsKept.refl store with
          objects := fun other member =>
            ⟨member, by simp [ObjStore.addSource]⟩ }

theorem idsKept_setOwner (store : ObjStore) (obj cl : Ptr) :
    IdsKept store (store.setOwner obj cl) :=
  { IdsKept.refl store with
    clients := fun other member => by
      refine ⟨member, ?_⟩
      rw [ObjStore.setOwner]
      dsimp only
      by_cases this : other = cl
      · rw [this, Function.update_self]
      · rw [Function.update_of_ne this]
    objects := fun other member =>
      ⟨member, by simp [ObjStore.setOwner]⟩ }

theorem idsKept_insertPath {obj : Ptr} {key : List UInt8}
    (inserted : store.insertPath obj key = some next) : IdsKept store next := by
  obtain ⟨tree, same, _⟩ := insertPath_some inserted
  rw [same]
  exact
    { IdsKept.refl store with
      objects := fun other member => ⟨member, by simp [ObjStore.addPath]⟩ }

theorem idsKept_freeClient (store : ObjStore) (cl : Ptr) :
    IdsKept store (store.freeClient cl) := by
  have freed : ∀ (objs : List Ptr) (store : ObjStore),
      IdsKept store (objs.foldl ObjStore.freeObject store) := by
    intro objs
    induction objs with
    | nil =>
        exact IdsKept.refl
    | cons obj rest inductionHypothesis =>
        intro store
        exact (idsKept_freeObject store obj).trans (inductionHypothesis _)
  have all := freed (store.clientAt cl).objects store
  exact
    { all with
      clients := fun other member =>
        all.clients other (mem_avlDelete.mp member).1 }

/-! ## New identifiers -/

theorem NoReserved.addClient (none : NoReserved store)
    (above : ubusSystemObjectMax ≤ id) : NoReserved (store.addClient id) :=
  { none with
    clients := fun cl member => by
      rw [ObjStore.addClient] at member ⊢
      dsimp only at member ⊢
      by_cases isNew : cl = store.allocs
      · rw [isNew, Function.update_self]
        exact above
      · rw [Function.update_of_ne isNew]
        exact none.clients cl ((mem_avlInsertDup.mp member).resolve_left isNew) }

theorem NoReserved.addType (none : NoReserved store)
    (above : ubusSystemObjectMax ≤ id) : NoReserved (store.addType id) :=
  { none with
    types := fun type member => by
      rw [ObjStore.addType] at member ⊢
      dsimp only at member ⊢
      by_cases isNew : type = store.allocs
      · rw [isNew, Function.update_self]
        exact above
      · rw [Function.update_of_ne isNew]
        exact none.types type ((mem_avlInsertDup.mp member).resolve_left isNew) }

theorem NoReserved.addObject (none : NoReserved store)
    (above : ubusSystemObjectMax ≤ id) (type : Option Ptr) :
    NoReserved (store.addObject id type) :=
  { none with
    types := fun other member => by
      cases type with
      | none =>
          exact none.types other member
      | some ptr =>
          exact (none.kept (idsKept_refType store ptr)).types other member
    objects := fun obj member notEvent => by
      have objectAt : (store.addObject id type).objectAt =
          Function.update store.objectAt store.allocs
            ⟨id, [], [], [], type, .none, .none, false⟩ := rfl
      rw [objectAt]
      by_cases isNew : obj = store.allocs
      · rw [isNew, Function.update_self]
        exact above
      · have was : obj ∈ store.objects :=
          (mem_avlInsertDup.mp member).resolve_left isNew
        rw [Function.update_of_ne isNew]
        exact none.objects obj was notEvent }

/-! ## Runs -/

/-- What is left of the random words once one of them numbers the type. -/
def wordsLeft (store : ObjStore) (attr : AttrTable) (urandom : List UInt32) :
    List UInt32 :=
  match attr .objtype, attr .signature with
  | none, some _ =>
      (urandom.dropWhile fun id => (store.findType id).isSome).tail
  | _, _ => urandom

/-- The condition on an action: for each identifier that it needs, no free
reserved value is read before another free one. -/
def BusAction.ReservedPassed (bus : Bus) : BusAction → Prop
  | .connect urandom =>
      Ubusd.ReservedPassed (fun id => (bus.store.findClient id).isSome) urandom
  | .receive _ ub urandom =>
      UbusMsgType.ofCode? ub.hdr.type = some .addObject →
        (ub.attr .objtype = none → ub.attr .signature ≠ none →
          Ubusd.ReservedPassed (fun id => (bus.store.findType id).isSome)
            urandom) ∧
        Ubusd.ReservedPassed (fun id => (bus.store.ubusdFindObject id).isSome)
          (wordsLeft bus.store ub.attr urandom)
  | .disconnect _ => True

theorem ubusAllocId_snd (taken : UInt32 → Bool) (urandom : List UInt32) :
    (ubusAllocId taken urandom).2 = (urandom.dropWhile taken).tail := by
  induction urandom with
  | nil =>
      rfl
  | cons first more inductionHypothesis =>
      rw [ubusAllocId, List.dropWhile_cons]
      split
      · exact inductionHypothesis
      · rfl

theorem idsLeft_eq (store : ObjStore) (attr : AttrTable)
    (urandom : List UInt32) :
    idsLeft store attr urandom = wordsLeft store attr urandom := by
  rw [idsLeft, wordsLeft]
  cases attr .objtype with
  | some objtype =>
      rfl
  | none =>
      cases attr .signature with
      | none =>
          rfl
      | some sig =>
          exact ubusAllocId_snd ..

namespace Bus

variable {bus : Bus} (cl : Ptr) (bytes : List UInt8) (attr : AttrTable)

theorem noReserved_newObjectType (none : NoReserved bus.store)
    (passed : attr .objtype = .none → attr .signature ≠ .none →
      ReservedPassed (fun id => (bus.store.findType id).isSome) bus.urandom) :
    NoReserved (bus.newObjectType bytes attr).1.store := by
  rw [newObjectType]
  split
  · rw [ubusGetObjType]
    split
    · exact none
    · exact none.kept (idsKept_refType bus.store _)
  · rename_i sig noType hasSig
    rw [ubusCreateObjType]
    split
    · exact none
    · rename_i id urandom allocated
      have above := ubusAllocId_notReserved.mpr
        (passed noType (hasSig ▸ Option.some_ne_none sig)) id urandom allocated
      exact (none.addType above).kept (idsKept_createMethods ..)
  · exact none

theorem noReserved_create (none : NoReserved bus.store)
    (passed : ReservedPassed
      (fun id => (bus.store.ubusdFindObject id).isSome) bus.urandom)
    (type : Option Ptr) :
    NoReserved (bus.ubusdCreateObjectInternal type).1.store := by
  rw [ubusdCreateObjectInternal]
  split
  · exact none
  · rename_i id urandom allocated
    have above := ubusAllocId_notReserved.mpr passed id urandom allocated
    exact none.addObject above type

theorem noReserved_ubusdCreateObject (none : NoReserved bus.store)
    (linked : Linked .none .none bus.store) (allocated : Allocated bus.store)
    (typePassed : attr .objtype = .none → attr .signature ≠ .none →
      ReservedPassed (fun id => (bus.store.findType id).isSome) bus.urandom)
    (passed : ReservedPassed
      (fun id => (bus.store.ubusdFindObject id).isSome)
      (wordsLeft bus.store attr bus.urandom)) :
    NoReserved (bus.ubusdCreateObject cl bytes attr).1.store := by
  have frame :=
    ((bus.newObjectType_newType bytes attr).frame linked allocated).2.2
  have objects : ∀ id, (bus.newObjectType bytes attr).1.store.ubusdFindObject
      id = bus.store.ubusdFindObject id := by
    intro id
    rw [frame]
    rfl
  have typed := noReserved_newObjectType bytes attr none typePassed
  have created := noReserved_create typed (by
    simp only [objects, newObjectType_urandom, idsLeft_eq]
    exact passed) (bus.newObjectType bytes attr).2
  have young := created.kept
    (idsKept_unrefType _ (bus.newObjectType bytes attr).2)
  rw [← store_unrefType] at young
  rw [ubusdCreateObject]
  split
  · exact young
  · rename_i obj isNew
    split
    · rw [store_ubusdFreeObject]
      exact young.kept (idsKept_freeObject ..)
    · rename_i placed registered
      cases registerPath_store _ _ _ registered with
      | inl same =>
          exact (same ▸ young).kept (idsKept_setOwner ..)
      | inr inserted =>
          obtain ⟨key, inserted⟩ := inserted
          exact (young.kept (idsKept_insertPath inserted)).kept
            (idsKept_setOwner ..)

end Bus

/-- What all states have in common whose identifiers were passed. -/
structure IdsInv (bus : Bus) : Prop where
  busInv : BusInv bus
  none : NoReserved bus.store

theorem idsInv_init : IdsInv ubusd.init where
  busInv := busInv_init
  none :=
    { clients := fun _ member => absurd member List.not_mem_nil
      types := fun _ member => absurd member List.not_mem_nil
      objects := fun _ member notEvent =>
        absurd (List.mem_singleton.mp member) notEvent }

theorem idsInv_step (bus : Bus) (action : BusAction) (next : Bus)
    (holds : IdsInv bus) (passed : action.ReservedPassed bus)
    (taken : ubusd.step bus action = some next) : IdsInv next := by
  refine ⟨busInv_step bus action next holds.busInv taken, ?_⟩
  obtain ⟨⟨linked, allocated⟩, none⟩ := holds
  rw [(step_some taken).2.2]
  cases action with
  | connect urandom =>
      rw [Bus.act, Bus.ubusdProtoNewClient]
      split
      · exact none
      · rename_i id rest isNew
        rw [Bus.store_ubusMsgSend]
        exact none.addClient
          (ubusAllocId_notReserved.mpr passed id rest isNew)
  | receive cl ub urandom =>
      let begun : Bus := { bus with urandom := urandom, sent := [] }
      show NoReserved (begun.ubusdProtoReceiveMessage cl ub).store
      rw [Bus.store_ubusdProtoReceiveMessage]
      cases isType : UbusMsgType.ofCode? ub.hdr.type with
      | none =>
          exact none
      | some type =>
          by_cases isAdd : type = .addObject
          · obtain ⟨typePassed, objectPassed⟩ :=
              passed (isType.trans (congrArg some isAdd))
            rw [isAdd]
            show NoReserved (begun.ubusdHandleAddObject cl ub).1.store
            rw [Bus.store_handleAddObject]
            exact Bus.noReserved_ubusdCreateObject cl ub.bytes ub.attr none
              linked allocated typePassed objectPassed
          · exact none.kept (begun.handle_link cl ub type isAdd).idsKept
  | disconnect cl =>
      have store := store_ubusdProtoFreeClient { bus with sent := [] } cl
      rw [Bus.act, store]
      exact none.kept (idsKept_freeClient bus.store cl)

/-- No client, no type and no object of a client has a reserved identifier. -/
structure OutOfReserve (store : ObjStore) : Prop where
  clients : ∀ cl ∈ store.clients, ubusSystemObjectMax ≤ (store.clientAt cl).id
  types : ∀ type ∈ store.objTypes,
    ubusSystemObjectMax ≤ (store.typeAt type).id
  owned : ∀ obj ∈ store.objects, ∀ cl, (store.objectAt obj).client = some cl →
    ubusSystemObjectMax ≤ (store.objectAt obj).id

/-- `ubus_alloc_id` keeps its promise exactly when the random device returns no
free reserved value before another free one; if it does so at every identifier
that is needed in a run, none that is in use is reserved. -/
theorem ids_outOfReserve (idOf : Ptr → UInt32) (tree : List Ptr) (node : Ptr)
    (urandom : List UInt32) {actions : List BusAction} {final : Bus}
    (reached : ubusd.run actions = some final) :
    ((∀ id rest, ubusAllocId (inTree idOf tree) urandom = (some id, rest) →
        Allocates idOf tree node id) ↔
      ReservedPassed (inTree idOf tree) urandom) ∧
    (ubusd.Meets (fun bus action => action.ReservedPassed bus) ubusd.init
        actions →
      OutOfReserve final.store) := by
  refine ⟨ubusAllocId_allocates idOf tree node urandom, fun passed => ?_⟩
  obtain ⟨⟨linked, _⟩, none⟩ :=
    Machine.invariant_of_permitted idsInv_init idsInv_step passed reached
  exact
    { clients := none.clients
      types := none.types
      owned := fun obj live cl own =>
        none.objects obj live (linked.ne_eventObj live own) }

/-- The identifiers that a client and its object get are not reserved. -/
theorem oneObject_passed :
    ubusd.Meets (fun bus action => action.ReservedPassed bus) ubusd.init
      oneObject := by
  apply Machine.Meets.cons
  · exact (reservedPassed_cons_free rfl).mpr (by decide)
  · exact rfl
  · apply Machine.Meets.cons
    · intro _
      constructor
      · intro _ hasSig
        exact absurd rfl hasSig
      · exact (reservedPassed_cons_free rfl).mpr (by decide)
    · exact rfl
    · trivial

theorem ids_outOfReserve_oneObject :
    ∃ final, ubusd.run oneObject = some final ∧
      ((∀ id rest, ubusAllocId (inTree (fun _ => 5) [3]) [5, 1024] =
          (some id, rest) → Allocates (fun _ => 5) [3] 7 id) ↔
        ReservedPassed (inTree (fun _ => 5) [3]) [5, 1024]) ∧
      OutOfReserve final.store :=
  ⟨_, rfl, (@ids_outOfReserve (fun _ => 5) [3] 7 [5, 1024] oneObject _ rfl).1,
    (@ids_outOfReserve (fun _ => 5) [3] 7 [5, 1024] oneObject _ rfl).2
      oneObject_passed⟩

/-- The value 0 is taken, and is the identifier of a client then. -/
theorem reserved_id_given :
    (ubusAllocId (inTree (fun _ => 0) []) [0] = (some 0, []) ∧
      ¬ Allocates (fun _ => 0) [] 7 0) ∧
    ∃ final, ubusd.run [.connect [0]] = some final ∧
      ∃ cl ∈ final.store.clients, (final.store.clientAt cl).id = 0 := by
  refine ⟨⟨rfl, fun allocates => ?_⟩, _, rfl, 1, by decide, rfl⟩
  exact absurd allocates.notReserved (by decide)

end LibubusJni.Ubusd
