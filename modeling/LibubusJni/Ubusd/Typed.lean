import LibubusJni.Ubusd.EventObject

/-!
# Objects with a path and without a type

`ubusd_create_object` takes the type of a new object from an identifier, from a
signature, or from nowhere, and goes on without one if there is none.  Then an
object without a type is in the path tree, where a lookup follows its null
pointer, or the pointer is followed at once to answer with its identifier.
-/

namespace LibubusJni.Ubusd

open LibubusJni.Lib LibubusJni.Libubox

/-! ## The condition -/

/-- Whether there is a type for a new object: one with the identifier that is
asked for, or a signature all of whose methods pass `blobmsg_check_attr`. -/
def typeResolves (store : ObjStore) (bytes : List UInt8) (attr : AttrTable) :
    Bool :=
  match attr .objtype, attr .signature with
  | some objtype, _ =>
      (store.findType (blobGetU32 (memoryOf bytes) objtype)).isSome
  | none, some sig =>
      (blobForEachAttr (memoryOf bytes) sig).all fun pos =>
        blobmsgCheckAttr (memoryOf bytes) pos true
  | none, none => false

/-- What is left of `/dev/urandom` for the identifier of the object. -/
def idsLeft (store : ObjStore) (attr : AttrTable) (urandom : List UInt32) :
    List UInt32 :=
  match attr .objtype, attr .signature with
  | none, some _ =>
      (ubusAllocId (fun id => (store.findType id).isSome) urandom).2
  | _, _ => urandom

/-- No object is made: no identifier is free, or the path is taken. -/
def Refused (store : ObjStore) (bytes : List UInt8) (attr : AttrTable)
    (urandom : List UInt32) : Prop :=
  (∀ id ∈ idsLeft store attr urandom, (store.ubusdFindObject id).isSome) ∨
    ∃ objpath, attr .objpath = some objpath ∧
      ∃ obj ∈ store.path,
        (store.objectAt obj).path = some (cString bytes (objpath + 4))

/-- A new object has a type, needs none, or is not made. -/
def AddsTyped (store : ObjStore) (bytes : List UInt8) (attr : AttrTable)
    (urandom : List UInt32) : Prop :=
  typeResolves store bytes attr = true ∨
    (attr .objpath = none ∧ attr .signature = none) ∨
      Refused store bytes attr urandom

/-- The condition on an action. -/
def BusAction.AddsTyped (bus : Bus) : BusAction → Prop
  | .receive _ ub urandom =>
      UbusMsgType.ofCode? ub.hdr.type = some .addObject →
        Ubusd.AddsTyped bus.store ub.bytes ub.attr urandom
  | _ => True

/-- Every object in the path tree has a type, which is there, and no null type
has been followed. -/
structure PathTyped (bus : Bus) : Prop where
  typed : ∀ obj ∈ bus.store.path, ∃ type ∈ bus.store.objTypes,
    (bus.store.objectAt obj).type = some type
  lives : bus.fault ≠ some .nullType

/-! ## The type of a new object -/

theorem ubusAllocId_none {taken : UInt32 → Bool} {urandom : List UInt32} :
    (ubusAllocId taken urandom).1 = none ↔ ∀ id ∈ urandom, taken id = true := by
  induction urandom with
  | nil =>
      exact iff_of_true rfl fun _ member => absurd member List.not_mem_nil
  | cons id rest inductionHypothesis =>
      rw [ubusAllocId, List.forall_mem_cons]
      split
      · rename_i isTaken
        exact inductionHypothesis.trans (and_iff_right isTaken).symm
      · rename_i free
        exact iff_of_false (Option.some_ne_none id) fun all => free all.1

theorem ubusAllocId_rest {taken : UInt32 → Bool} {urandom : List UInt32}
    (isNone : (ubusAllocId taken urandom).1 = none) :
    (ubusAllocId taken urandom).2 = [] := by
  induction urandom with
  | nil =>
      rfl
  | cons id rest inductionHypothesis =>
      rw [ubusAllocId] at isNone ⊢
      split at isNone
      · rename_i isTaken
        rw [if_pos isTaken]
        exact inductionHypothesis isNone
      · exact absurd isNone (Option.some_ne_none id)

theorem createMethods_isSome (bytes : List UInt8) (type : Ptr)
    (attrs : List Nat) (store : ObjStore) :
    (ObjStore.createMethods bytes type attrs store).2.isSome =
      attrs.all fun pos => blobmsgCheckAttr (memoryOf bytes) pos true := by
  induction attrs generalizing store with
  | nil =>
      rfl
  | cons pos rest inductionHypothesis =>
      rw [ObjStore.createMethods, List.all_cons]
      split
      · rename_i passes
        rw [passes, Bool.true_and]
        exact inductionHypothesis _
      · rename_i fails
        rw [eq_false_of_ne_true fails]
        rfl

namespace Bus

variable (bus : Bus) (cl : Ptr) (bytes : List UInt8) (attr : AttrTable)

/-- What is left of `/dev/urandom` once the type is made. -/
theorem newObjectType_urandom :
    (bus.newObjectType bytes attr).1.urandom =
      idsLeft bus.store attr bus.urandom := by
  rw [newObjectType, idsLeft]
  cases attr .objtype with
  | some objtype =>
      dsimp only
      rw [ubusGetObjType]
      split
      · rfl
      · rfl
  | none =>
      cases attr .signature with
      | none =>
          rfl
      | some sig =>
          dsimp only
          rw [ubusCreateObjType]
          split
          · rename_i urandom isNone
            rw [isNone]
          · rename_i id urandom allocated
            rw [allocated]

/-- There is a type if it resolves, or nothing is left to number the object
with. -/
theorem newObjectType_isSome :
    ((bus.newObjectType bytes attr).2.isSome →
      typeResolves bus.store bytes attr = true) ∧
    (typeResolves bus.store bytes attr = true →
      (bus.newObjectType bytes attr).2 = none →
        ∀ id ∈ (bus.newObjectType bytes attr).1.urandom,
          (bus.store.ubusdFindObject id).isSome) := by
  rw [newObjectType, typeResolves]
  cases attr .objtype with
  | some objtype =>
      dsimp only
      rw [ubusGetObjType]
      cases bus.store.findType (blobGetU32 (memoryOf bytes) objtype) with
      | none =>
          exact ⟨id, fun isSome _ => absurd isSome Bool.false_ne_true⟩
      | some type =>
          exact ⟨fun _ => rfl, fun _ isNone =>
            absurd isNone (Option.some_ne_none type)⟩
  | none =>
      cases attr .signature with
      | none =>
          exact ⟨id, fun isSome _ => absurd isSome Bool.false_ne_true⟩
      | some sig =>
          dsimp only
          rw [ubusCreateObjType]
          split
          · rename_i urandom isNone
            refine ⟨fun isSome => absurd isSome Bool.false_ne_true, ?_⟩
            intro _ _ id member
            have left := ubusAllocId_rest (congrArg Prod.fst isNone)
            rw [isNone] at left
            dsimp only at left member
            rw [left] at member
            exact absurd member List.not_mem_nil
          · rename_i id urandom allocated
            dsimp only
            rw [createMethods_isSome]
            refine ⟨fun passes => passes, fun passes isNone => ?_⟩
            have made := createMethods_isSome bytes bus.store.allocs
              (blobForEachAttr (memoryOf bytes) sig) (bus.store.addType id)
            rw [isNone, passes] at made
            exact absurd made Bool.false_ne_true

/-- The record of the object that `ubusd_create_object_internal` makes. -/
theorem type_create {type : Option Ptr} {obj : Ptr}
    (created : (bus.ubusdCreateObjectInternal type).2 = some obj) :
    (((bus.ubusdCreateObjectInternal type).1.unrefType type).store.objectAt
      obj).type = type := by
  rw [store_unrefType, unrefType_frame]
  rw [ubusdCreateObjectInternal] at created ⊢
  split at created
  · exact absurd created (Option.some_ne_none obj).symm
  · rename_i id urandom allocated
    rw [← Option.some.inj created]
    have own : (bus.store.addObject id type).objectAt bus.store.allocs =
        ⟨id, [], [], [], type, none, none, false⟩ := Function.update_self ..
    dsimp only
    rw [own]

theorem create_isNone (type : Option Ptr) :
    (bus.ubusdCreateObjectInternal type).2 = none ↔
      ∀ id ∈ bus.urandom, (bus.store.ubusdFindObject id).isSome := by
  rw [← ubusAllocId_none, ubusdCreateObjectInternal]
  split
  · rename_i urandom isNone
    rw [isNone]
    exact iff_of_true rfl rfl
  · rename_i id urandom allocated
    rw [allocated]
    exact iff_of_false (Option.some_ne_none _) (Option.some_ne_none id)

/-- A new object gets its path unless an object in the tree has it. -/
theorem registerPath_isNone {store : ObjStore} {obj : Ptr}
    (facts : YoungObject store bus.store obj)
    (linked : Linked none none store) :
    bus.registerPath bytes attr obj = none ↔
      ∃ objpath, attr .objpath = some objpath ∧
        ∃ other ∈ store.path, (store.objectAt other).path =
          some (cString bytes (objpath + 4)) := by
  have taken : ∀ key, bus.store.insertPath obj key = none ↔
      ∃ other ∈ store.path, (store.objectAt other).path = some key := by
    intro key
    rw [ObjStore.insertPath, Option.map_eq_none_iff, avlInsert_none, facts.path]
    refine exists_congr fun other => and_congr_right fun inTree => ?_
    obtain ⟨live, hasPath⟩ := (linked.registered other).mp inTree
    have different : other ≠ obj := fun same => facts.fresh (same ▸ live)
    obtain ⟨path, isPath⟩ := Option.isSome_iff_exists.mp hasPath
    rw [if_pos rfl, if_neg different, facts.others other different,
      avlStrcmp_eq, isPath, Option.getD_some, Option.some.injEq, eq_comm]
  rw [registerPath]
  cases attr .objpath with
  | none =>
      refine iff_of_false (Option.some_ne_none bus) ?_
      rintro ⟨objpath, isNone, _⟩
      exact Option.some_ne_none objpath isNone.symm
  | some objpath =>
      dsimp only
      cases inserted : bus.store.insertPath obj (cString bytes (objpath + 4))
        with
      | none =>
          exact iff_of_true rfl ⟨objpath, rfl, (taken _).mp inserted⟩
      | some next =>
          refine iff_of_false (Option.some_ne_none _) ?_
          rintro ⟨_, same, found⟩
          rw [← Option.some.inj same, ← taken, inserted] at found
          exact Option.some_ne_none next found

/-- What a registered object adds to the path tree. -/
theorem registerPath_tree {obj : Ptr} {placed : Bus}
    (registered : bus.registerPath bytes attr obj = some placed) :
    (∀ ptr, (placed.store.objectAt ptr).type =
        (bus.store.objectAt ptr).type) ∧
      ∀ ptr, ptr ∈ placed.store.path ↔
        ptr ∈ bus.store.path ∨ ((attr .objpath).isSome ∧ ptr = obj) := by
  rw [registerPath] at registered
  cases asks : attr .objpath with
  | none =>
      rw [asks] at registered
      rw [← Option.some.inj registered]
      exact ⟨fun _ => rfl, fun _ => by simp⟩
  | some objpath =>
      rw [asks] at registered
      dsimp only at registered
      split at registered
      · exact absurd registered (Option.some_ne_none placed).symm
      · rename_i next inserted
        obtain ⟨tree, same, perm, _⟩ := insertPath_some inserted
        rw [← Option.some.inj registered, store_ubusdSendObjEvent, same]
        refine ⟨fun ptr => by simp [ObjStore.addPath], fun ptr => ?_⟩
        rw [ObjStore.addPath]
        dsimp only
        rw [perm.mem_iff, List.mem_cons]
        simp [or_comm]

/-- What `ubusd_create_object` leaves in the path tree. -/
structure Makes (next : Bus) (obj : Ptr) : Prop where
  fresh : obj ∉ bus.store.path
  type : (next.store.objectAt obj).type = (bus.newObjectType bytes attr).2
  path : ∀ ptr, ptr ∈ next.store.path ↔
    ptr ∈ bus.store.path ∨ ((attr .objpath).isSome ∧ ptr = obj)

variable {bus bytes attr}

theorem makes_of_created (linked : Linked none none bus.store)
    (allocated : Allocated bus.store) {next : Bus} {obj : Ptr}
    (created : bus.ubusdCreateObject cl bytes attr = (next, some obj)) :
    Makes bus bytes attr next obj := by
  have newType := bus.newObjectType_newType bytes attr
  rw [ubusdCreateObject] at created
  split at created
  · exact absurd (congrArg Prod.snd created) (Option.some_ne_none obj).symm
  · rename_i new isNew
    have young := create_young _ newType isNew
    have facts := young.youngObject linked allocated
    split at created
    · exact absurd (congrArg Prod.snd created) (Option.some_ne_none obj).symm
    · rename_i placed registered
      obtain ⟨types, tree⟩ := registerPath_tree _ bytes attr registered
      rw [Prod.mk.injEq, Option.some.injEq] at created
      obtain ⟨isNext, isObj⟩ := created
      rw [← isNext, ← isObj]
      exact
        { fresh := fun inTree =>
            facts.fresh ((linked.registered new).mp inTree).1
          type := by
            rw [← type_create _ isNew, ← types new]
            simp [ObjStore.setOwner]
          path := fun ptr => by
            rw [← facts.path]
            exact tree ptr }

theorem created_isNone (linked : Linked none none bus.store)
    (allocated : Allocated bus.store) :
    (bus.ubusdCreateObject cl bytes attr).2 = none ↔
      Refused bus.store bytes attr bus.urandom := by
  have newType := bus.newObjectType_newType bytes attr
  have frame := (newType.frame linked allocated).2.2
  have objects : ∀ id, (bus.newObjectType bytes attr).1.store.ubusdFindObject
      id = bus.store.ubusdFindObject id := by
    intro id
    rw [frame]
    rfl
  have ids := create_isNone (bus.newObjectType bytes attr).1
    (bus.newObjectType bytes attr).2
  rw [newObjectType_urandom] at ids
  simp only [objects] at ids
  rw [ubusdCreateObject, Refused]
  split
  · rename_i isNone
    exact iff_of_true rfl (Or.inl (ids.mp isNone))
  · rename_i new isNew
    have facts := (create_young _ newType isNew).youngObject linked allocated
    have taken := registerPath_isNone _ bytes attr facts linked
    have idLeft : ¬ ∀ id ∈ idsLeft bus.store attr bus.urandom,
        (bus.store.ubusdFindObject id).isSome := by
      rw [← ids, isNew]
      exact Option.some_ne_none new
    rw [or_iff_right idLeft, ← taken]
    split
    · rename_i isNone
      exact iff_of_true rfl isNone
    · rename_i placed registered
      rw [registered]
      exact iff_of_false (Option.some_ne_none new) (Option.some_ne_none placed)

end Bus

/-! ## The path tree -/

/-- Every object in the path tree has a type. -/
def Visible (store : ObjStore) : Prop :=
  ∀ obj ∈ store.path, (store.objectAt obj).type ≠ none

theorem Linked.pathTyped {bus : Bus} (linked : Linked none none bus.store) :
    PathTyped bus ↔ Visible bus.store ∧ bus.fault ≠ some .nullType := by
  constructor
  · intro typed
    refine ⟨fun obj inTree isNone => ?_, typed.lives⟩
    obtain ⟨type, _, ofType⟩ := typed.typed obj inTree
    rw [isNone] at ofType
    exact Option.some_ne_none type ofType.symm
  · intro ⟨visible, lives⟩
    refine ⟨fun obj inTree => ?_, lives⟩
    obtain ⟨type, ofType⟩ := Option.ne_none_iff_exists'.mp (visible obj inTree)
    have live := ((linked.registered obj).mp inTree).1
    exact ⟨type, linked.types.known type (references_pos_of_mem live ofType),
      ofType⟩

theorem Visible.freeObject {store : ObjStore} (visible : Visible store)
    (obj : Ptr) : Visible (store.freeObject obj) := by
  have type : ∀ ptr, ((store.freeObject obj).objectAt ptr).type =
      (store.objectAt ptr).type := fun ptr => by
    rw [freeObject_eq, dropLinks_eq]
  have path : ∀ ptr ∈ (store.freeObject obj).path, ptr ∈ store.path := by
    intro ptr inTree
    rw [freeObject_eq, ObjStore.dropPath, dropLinks_eq] at inTree
    dsimp only at inTree
    split at inTree
    · exact (mem_avlDelete.mp inTree).1
    · exact inTree
  intro ptr inTree
  rw [type]
  exact visible ptr (path ptr inTree)

theorem LinkMove.visible {cl : Ptr} {watched : Ptr → Prop}
    {store next : ObjStore} (move : LinkMove cl watched store next)
    (visible : Visible store) : Visible next := by
  cases move with
  | keep =>
      exact visible
  | removed obj live own =>
      exact visible.freeObject obj
  | subscribed obj target live own targetLive isWatched =>
      simpa [Visible, ObjStore.addSubscription] using visible
  | unsubscribed obj s live own onList =>
      exact visible
  | registered obj key isPartial live own =>
      simpa [Visible, ObjStore.addSource] using visible

theorem Visible.freeClient {store : ObjStore} (visible : Visible store)
    (cl : Ptr) : Visible (store.freeClient cl) := by
  have freed : ∀ (objs : List Ptr) (store : ObjStore), Visible store →
      Visible (objs.foldl ObjStore.freeObject store) := by
    intro objs
    induction objs with
    | nil =>
        exact fun _ visible => visible
    | cons obj rest inductionHypothesis =>
        exact fun store visible =>
          inductionHypothesis _ (visible.freeObject obj)
  exact freed _ store visible

namespace Bus

variable {bus : Bus} {cl : Ptr} {bytes : List UInt8} {attr : AttrTable}
  {ub : BusRequest}

/-- Without a new object nothing comes into the path tree. -/
theorem visible_refused (linked : Linked none none bus.store)
    (allocated : Allocated bus.store) (visible : Visible bus.store)
    (refused : (bus.ubusdCreateObject cl bytes attr).2 = none) :
    Visible (bus.ubusdCreateObject cl bytes attr).1.store := by
  have newType := bus.newObjectType_newType bytes attr
  have frame := (newType.frame linked allocated).2.2
  rw [ubusdCreateObject] at refused ⊢
  split at refused
  · rename_i isNone
    dsimp only
    rw [store_unrefType, create_none _ isNone, unrefType_frame, frame]
    exact visible
  · rename_i new isNew
    have facts := (create_young _ newType isNew).youngObject linked allocated
    split at refused
    · dsimp only
      rw [store_ubusdFreeObject]
      refine Visible.freeObject (fun ptr inTree => ?_) new
      rw [facts.path] at inTree
      have live := ((linked.registered ptr).mp inTree).1
      rw [facts.others ptr fun same => facts.fresh (same ▸ live)]
      exact visible ptr inTree
    · exact absurd refused (Option.some_ne_none new)

/-- A new object is in the path tree with its type, or without. -/
theorem visible_makes (linked : Linked none none bus.store)
    (allocated : Allocated bus.store) (visible : Visible bus.store)
    {next : Bus} {obj : Ptr}
    (created : bus.ubusdCreateObject cl bytes attr = (next, some obj)) :
    Visible next.store ↔
      ((attr .objpath).isSome → (bus.newObjectType bytes attr).2 ≠ none) := by
  have makes := makes_of_created cl linked allocated created
  have move := bus.createObject_move cl bytes attr
  rw [created] at move
  have grown := move.grown linked allocated
  rw [← makes.type]
  constructor
  · intro nextVisible hasPath
    exact nextVisible obj ((makes.path obj).mpr (Or.inr ⟨hasPath, rfl⟩))
  · intro typed ptr inTree
    rcases (makes.path ptr).mp inTree with old | ⟨hasPath, isNew⟩
    · rw [grown.objectAt ptr ((linked.registered ptr).mp old).1]
      exact visible ptr old
    · rw [isNew]
      exact typed hasPath

/-- If the type resolves and yet there is none, there is no object either. -/
theorem refused_of_untyped
    (resolves : typeResolves bus.store bytes attr = true)
    (isNone : (bus.newObjectType bytes attr).2 = none) :
    Refused bus.store bytes attr bus.urandom := by
  have taken := (bus.newObjectType_isSome bytes attr).2 resolves isNone
  rw [newObjectType_urandom] at taken
  exact Or.inl taken

/-- `ubusd_handle_add_object` follows the type of its object when there is a
signature. -/
theorem fault_handleAddObject {next : Bus} {obj : Ptr}
    (created : bus.ubusdCreateObject cl ub.bytes ub.attr = (next, some obj))
    (running : next.fault = none) :
    (bus.ubusdHandleAddObject cl ub).1.fault ≠ some .nullType ↔
      ((ub.attr .signature).isSome →
        (next.store.objectAt obj).type ≠ none) := by
  rw [ubusdHandleAddObject, created]
  dsimp only
  cases ub.attr .signature with
  | none =>
      refine iff_of_true ?_ fun isSome => absurd isSome Bool.false_ne_true
      show next.fault ≠ _
      rw [running]
      exact (Option.some_ne_none _).symm
  | some sig =>
      cases (next.store.objectAt obj).type with
      | none =>
          refine iff_of_false (fun lives => lives ?_) fun typed => typed rfl rfl
          show some (next.fault.getD Fault.nullType) = _
          rw [running]
          rfl
      | some type =>
          refine iff_of_true ?_ fun _ => Option.some_ne_none type
          show next.fault ≠ _
          rw [running]
          exact (Option.some_ne_none _).symm

theorem store_handleAddObject :
    (bus.ubusdHandleAddObject cl ub).1.store =
      (bus.ubusdCreateObject cl ub.bytes ub.attr).1.store := by
  rw [ubusdHandleAddObject]
  split
  · rename_i next created
    rw [created]
  · rename_i next obj created
    rw [created]
    dsimp only
    split
    · rfl
    · rfl
    · rfl

/-- The one message that can break it breaks it exactly when it makes an object
without a type and needs one. -/
theorem handleAddObject_visible_iff (settled : Settled bus.store)
    (running : bus.fault = none) (visible : Visible bus.store) :
    (Visible (bus.ubusdHandleAddObject cl ub).1.store ∧
        (bus.ubusdHandleAddObject cl ub).1.fault ≠ some .nullType) ↔
      AddsTyped bus.store ub.bytes ub.attr bus.urandom := by
  have linked := settled.linked
  have allocated := settled.allocated
  have lives := (bus.notifies_ubusdCreateObject cl ub.bytes ub.attr linked
    allocated settled.unwatched).fault.trans running
  have refusedIff : _ ↔ Refused bus.store ub.bytes ub.attr bus.urandom :=
    created_isNone cl linked allocated
  rw [store_handleAddObject]
  cases created : bus.ubusdCreateObject cl ub.bytes ub.attr with
  | mk next made =>
      rw [created] at lives refusedIff
      cases made with
      | none =>
          have refused := refusedIff.mp rfl
          have kept : Visible next.store := by
            have still := visible_refused linked allocated visible
              (congrArg Prod.snd created)
            rw [created] at still
            exact still
          refine iff_of_true ⟨kept, ?_⟩ (Or.inr (Or.inr refused))
          rw [ubusdHandleAddObject, created]
          dsimp only at lives ⊢
          rw [lives]
          exact (Option.some_ne_none _).symm
      | some obj =>
          have notRefused : ¬ Refused bus.store ub.bytes ub.attr bus.urandom :=
            fun refused => Option.some_ne_none obj (refusedIff.mpr refused)
          rw [AddsTyped, or_iff_left notRefused,
            visible_makes linked allocated visible created,
            fault_handleAddObject created lives,
            (makes_of_created cl linked allocated created).type]
          cases ofType : (bus.newObjectType ub.bytes ub.attr).2 with
          | some type =>
              have resolves := (bus.newObjectType_isSome ub.bytes ub.attr).1
                (by rw [ofType]; rfl)
              exact iff_of_true ⟨fun _ => Option.some_ne_none type,
                fun _ => Option.some_ne_none type⟩ (Or.inl resolves)
          | none =>
              have unresolved : ¬ typeResolves bus.store ub.bytes ub.attr =
                  true := fun resolves =>
                notRefused (refused_of_untyped resolves ofType)
              rw [or_iff_right unresolved]
              simp

/-- The other messages follow the type of nothing but what is visible. -/
theorem handle_notNullType (settled : Settled bus.store)
    (visible : Visible bus.store) {type : UbusMsgType}
    (notAdd : type ≠ .addObject) :
    Emits (fun _ => True) (fun fault => fault ≠ .nullType) bus
      (bus.handle cl ub type).1 := by
  have addressed := settled.addressed
  cases type with
  | hello =>
      exact Emits.silent rfl rfl
  | ping =>
      exact Emits.send trivial
  | addObject =>
      exact absurd rfl notAdd
  | removeObject =>
      exact bus.emits_handleRemoveObject cl ub addressed (fun _ _ => trivial)
        fun _ _ _ _ _ => ⟨fun _ => trivial, trivial⟩
  | lookup =>
      refine bus.emits_handleLookup cl ub nofun ?_ fun _ _ _ _ _ _ => trivial
      intro obj member isNone
      exact absurd isNone (visible obj (bus.reported_subset ub obj member))
  | invoke =>
      exact bus.emits_handleInvoke cl ub addressed nofun (fun _ _ _ _ => nofun)
        (fun _ _ _ _ _ _ => nofun)
        (fun _ _ _ _ _ _ _ _ _ _ _ _ => trivial)
        fun _ _ _ _ _ _ => trivial
  | status =>
      exact bus.emits_handleResponse cl ub fun _ _ _ _ => trivial
  | data =>
      exact bus.emits_handleResponse cl ub fun _ _ _ _ => trivial
  | subscribe =>
      exact bus.emits_handleAddWatch cl ub (fun _ _ _ _ => nofun)
        fun _ _ _ _ => trivial
  | unsubscribe =>
      exact bus.emits_handleRemoveWatch cl ub addressed fun _ _ _ _ => trivial
  | notify =>
      exact bus.emits_handleNotify cl ub addressed nofun
        (fun _ _ _ _ _ => trivial) fun _ _ _ _ _ _ _ _ _ => trivial

theorem fault_ubusdProtoReceiveMessage :
    (bus.ubusdProtoReceiveMessage cl ub).fault =
      match UbusMsgType.ofCode? ub.hdr.type with
      | none => bus.fault
      | some type => (bus.handle cl ub type).1.fault := by
  rw [ubusdProtoReceiveMessage]
  cases UbusMsgType.ofCode? ub.hdr.type with
  | none =>
      rfl
  | some type =>
      dsimp only
      split
      · rfl
      · rfl

/-- A message keeps it unless it adds an object without a type. -/
theorem receive_visible_iff (settled : Settled bus.store)
    (running : bus.fault = none) (visible : Visible bus.store) :
    (Visible (bus.ubusdProtoReceiveMessage cl ub).store ∧
        (bus.ubusdProtoReceiveMessage cl ub).fault ≠ some .nullType) ↔
      (UbusMsgType.ofCode? ub.hdr.type = some .addObject →
        AddsTyped bus.store ub.bytes ub.attr bus.urandom) := by
  rw [store_ubusdProtoReceiveMessage, fault_ubusdProtoReceiveMessage]
  cases UbusMsgType.ofCode? ub.hdr.type with
  | none =>
      refine iff_of_true ⟨visible, ?_⟩ nofun
      rw [running]
      exact (Option.some_ne_none _).symm
  | some type =>
      dsimp only
      by_cases isAdd : type = .addObject
      · rw [isAdd]
        exact (handleAddObject_visible_iff settled running visible).trans
          ⟨fun typed _ => typed, fun typed => typed rfl⟩
      · have link := bus.handle_link cl ub type isAdd
        have emits : Emits (fun _ => True) (fun fault => fault ≠ .nullType)
            bus (bus.handle cl ub type).1 :=
          handle_notNullType settled visible isAdd
        refine iff_of_true ⟨link.visible visible, fun isNull => ?_⟩
          fun same => absurd (Option.some.inj same) isAdd
        rcases emits.fault _ isNull with early | late
        · rw [running] at early
          exact Option.some_ne_none _ early.symm
        · exact late rfl

end Bus

/-! ## Runs -/

/-- A step from a state in which all that is visible has a type leads to another
if and only if it meets the condition. -/
theorem act_pathTyped {bus next : Bus} {action : BusAction}
    (holds : EventInv bus) (typed : PathTyped bus)
    (taken : ubusd.step bus action = some next) :
    PathTyped next ↔ action.AddsTyped bus := by
  have afterLinked := (eventInv_step bus action next holds taken).inv.linked
  obtain ⟨running, enabled, same⟩ := step_some taken
  have settled := holds.settled running
  have visible := (settled.linked.pathTyped.mp typed).1
  have lives : bus.fault ≠ some .nullType := typed.lives
  rw [afterLinked.pathTyped]
  cases action with
  | connect urandom =>
      have fault : next.fault = bus.fault := by
        rw [same, Bus.act, Bus.ubusdProtoNewClient]
        split
        · rfl
        · rfl
      refine iff_of_true ⟨?_, fault ▸ lives⟩ trivial
      rw [same]
      rcases store_connect bus urandom with keep | ⟨id, added⟩
      · rw [keep]
        exact visible
      · rw [added]
        exact visible
  | disconnect cl =>
      have store : next.store = bus.store.freeClient cl := by
        rw [same]
        exact store_ubusdProtoFreeClient { bus with sent := [] } cl
      have fault : next.fault = bus.fault := by
        rw [same]
        exact (Bus.notifies_ubusdProtoFreeClient { bus with sent := [] } cl
          settled.linked settled.allocated settled.unwatched).fault
      refine iff_of_true ⟨?_, fault ▸ lives⟩ trivial
      rw [store]
      exact visible.freeClient cl
  | receive cl ub urandom =>
      let begun : Bus := { bus with urandom := urandom, sent := [] }
      have nowSettled : Settled begun.store := settled
      rw [same]
      exact Bus.receive_visible_iff nowSettled running visible

/-- In every state of a run all objects in the path tree have a type, and no
null type has been followed, if and only if no message of the run adds an object
without a type that has a path or a signature. -/
theorem paths_typed_iff {actions : List BusAction} {final : Bus}
    (reached : ubusd.run actions = some final) :
    ubusd.Always PathTyped ubusd.init actions ↔
      ubusd.Meets (fun bus action => action.AddsTyped bus) ubusd.init
        actions :=
  Machine.always_iff_meets eventInv_init
    ⟨fun _ inTree => absurd inTree List.not_mem_nil, nofun⟩
    (fun bus action next holds _ taken =>
      eventInv_step bus action next holds taken)
    (fun _ _ _ holds typed taken => act_pathTyped holds typed taken) reached

/-- The message asks for a type that does not exist, and for the path `a`. -/
def addUntyped : List BusAction :=
  [.connect [5000],
    .receive 1
      ⟨⟨0, UbusMsgType.addObject.code, 1, 0⟩,
        [0, 0, 0, 20, 2, 0, 0, 6, 97, 0, 0, 0, 5, 0, 0, 8, 0, 0, 0, 7]⟩ [6000]]

theorem paths_typed_iff_untyped :
    ∃ final, ubusd.run addUntyped = some final ∧
      (ubusd.Always PathTyped ubusd.init addUntyped ↔
        ubusd.Meets (fun bus action => action.AddsTyped bus) ubusd.init
          addUntyped) :=
  ⟨_, rfl, @paths_typed_iff addUntyped _ rfl⟩

/-- A client asks for all objects. -/
def lookupAll : BusRequest :=
  ⟨⟨0, UbusMsgType.lookup.code, 2, 0⟩, [0, 0, 0, 4]⟩

/-- It asks for a type that does not exist, and sends a signature. -/
def addSigned : BusRequest :=
  ⟨⟨0, UbusMsgType.addObject.code, 2, 0⟩,
    [0, 0, 0, 16, 5, 0, 0, 8, 0, 0, 0, 7, 6, 0, 0, 4]⟩

/-- An object without a type is in the path tree, where a lookup follows its
null pointer; with a signature the pointer is followed at once. -/
theorem untyped_object_visible :
    (∃ final next, ubusd.run addUntyped = some final ∧
      (∃ obj ∈ final.store.path, (final.store.objectAt obj).type = none) ∧
        ubusd.step final (.receive 1 lookupAll []) = some next ∧
          next.fault = some .nullType) ∧
    ∃ final next, ubusd.run addUntyped = some final ∧
      ubusd.step final (.receive 1 addSigned [6001]) = some next ∧
        next.fault = some .nullType :=
  ⟨⟨_, _, rfl, ⟨2, by decide, rfl⟩, rfl, by decide⟩, _, _, rfl, rfl, by decide⟩

end LibubusJni.Ubusd
