import LibubusJni.Libubox.AvlOrder
import LibubusJni.Ubusd.Notices

/-!
# The order of paths and patterns

The path tree and the tree of patterns are sorted by `strcmp` in every state
that ubusd reaches: nodes come in at their places, and their keys do not change
while they are in a tree.
-/

namespace LibubusJni.Ubusd

open LibubusJni.Lib LibubusJni.Libubox

/-- `path.key` of an object in the tree. -/
def ObjStore.pathKey (store : ObjStore) (obj : Ptr) : List UInt8 :=
  (store.objectAt obj).path.getD []

/-- `avl.key` of an event source in the tree. -/
def ObjStore.patternKey (store : ObjStore) (ev : Ptr) : List UInt8 :=
  (store.sourceAt ev).key

/-- Both trees are sorted. -/
structure TreesSorted (store : ObjStore) : Prop where
  path : AvlSorted avlStrcmp store.pathKey store.path
  patterns : AvlSorted avlStrcmp store.patternKey store.patterns

/-- What is still in the trees was there, with its key. -/
structure TreesKept (store next : ObjStore) : Prop where
  path : next.path.Sublist store.path
  pathKey : ∀ obj ∈ next.path, next.pathKey obj = store.pathKey obj
  patterns : next.patterns.Sublist store.patterns
  patternKey : ∀ ev ∈ next.patterns, next.patternKey ev = store.patternKey ev

variable {store middle next made : ObjStore} {obj cl : Ptr}
  {watched : Ptr → Prop}

theorem TreesSorted.kept (sorted : TreesSorted store)
    (kept : TreesKept store next) : TreesSorted next where
  path := (sorted.path.sublist kept.path).congr kept.pathKey
  patterns := (sorted.patterns.sublist kept.patterns).congr kept.patternKey

theorem TreesKept.refl (store : ObjStore) : TreesKept store store where
  path := List.Sublist.refl _
  pathKey _ _ := rfl
  patterns := List.Sublist.refl _
  patternKey _ _ := rfl

theorem TreesKept.trans (first : TreesKept store middle)
    (second : TreesKept middle next) : TreesKept store next where
  path := second.path.trans first.path
  pathKey obj member :=
    (second.pathKey obj member).trans
      (first.pathKey obj (second.path.subset member))
  patterns := second.patterns.trans first.patterns
  patternKey ev member :=
    (second.patternKey ev member).trans
      (first.patternKey ev (second.patterns.subset member))

theorem treesKept_freeObject (store : ObjStore) (obj : Ptr) :
    TreesKept store (store.freeObject obj) where
  path := by
    rw [freeObject_eq, ObjStore.dropPath, dropLinks_eq]
    dsimp only
    split
    · exact List.filter_sublist
    · exact List.Sublist.refl _
  pathKey other _ := congrArg (·.getD []) (path_freeObject store obj other)
  patterns := by
    rw [freeObject_eq, dropLinks_eq]
    exact List.filter_sublist
  patternKey ev _ := by
    rw [ObjStore.patternKey, freeObject_eq, dropLinks_eq]
    rfl

theorem treesKept_freeClient (store : ObjStore) (cl : Ptr) :
    TreesKept store (store.freeClient cl) := by
  have freed : ∀ (objs : List Ptr) (store : ObjStore),
      TreesKept store (objs.foldl ObjStore.freeObject store) := by
    intro objs
    induction objs with
    | nil =>
        exact TreesKept.refl
    | cons obj rest inductionHypothesis =>
        intro store
        exact (treesKept_freeObject store obj).trans (inductionHypothesis _)
  exact { freed (store.clientAt cl).objects store with }

theorem LinkMove.treesSorted (move : LinkMove cl watched store next)
    (sorted : TreesSorted store) (allocated : Allocated store) :
    TreesSorted next := by
  cases move with
  | keep =>
      exact sorted
  | removed obj live own =>
      exact sorted.kept (treesKept_freeObject store obj)
  | subscribed obj target live own targetLive isWatched =>
      exact sorted.kept
        { TreesKept.refl store with
          pathKey := fun other _ => by
            simp [ObjStore.pathKey, ObjStore.addSubscription] }
  | unsubscribed obj s live own onList =>
      exact sorted.kept { TreesKept.refl store with }
  | registered obj key isPartial live own =>
      have keys : ∀ ev ∈ store.patterns,
          (store.addSource obj key isPartial).patternKey ev =
            store.patternKey ev := by
        intro ev member
        have old : ev ≠ store.allocs :=
          Nat.ne_of_lt (allocated.patterns ev member)
        exact congrArg EventSource.key (Function.update_of_ne old _ _)
      exact
        { path := sorted.path.congr fun other _ => by
            simp [ObjStore.pathKey, ObjStore.addSource]
          patterns := (sorted.patterns.congr keys).insertDup }

/-- A young object is in no tree. -/
theorem YoungObject.treesSorted (facts : YoungObject store made obj)
    (linked : Linked none none store) (sorted : TreesSorted store)
    (patterns : made.patterns = store.patterns) : TreesSorted made := by
  refine sorted.kept
    { path := facts.path ▸ List.Sublist.refl _
      pathKey := fun other member => ?_
      patterns := patterns ▸ List.Sublist.refl _
      patternKey := fun ev _ => by
        rw [ObjStore.patternKey, facts.sourceAt, ObjStore.patternKey] }
  have old : other ≠ obj := by
    intro isNew
    rw [isNew, facts.path] at member
    exact facts.fresh ((linked.registered obj).mp member).1
  rw [ObjStore.pathKey, facts.others other old, ObjStore.pathKey]

/-- An object is put at its place. -/
theorem TreesSorted.insertPath (sorted : TreesSorted store) {key : List UInt8}
    (absent : obj ∉ store.path)
    (inserted : store.insertPath obj key = some next) : TreesSorted next := by
  obtain ⟨tree, inTree, same⟩ := Option.map_eq_some_iff.mp inserted
  obtain ⟨_, isTree⟩ := avlInsert_some.mp inTree
  have old : ∀ other ∈ store.path, (if other = obj then key else
      (store.objectAt other).path.getD []) = store.pathKey other := by
    intro other member
    exact if_neg fun isNew : other = obj => absent (isNew ▸ member)
  have placed : AvlSorted avlStrcmp (fun other => if other = obj then key else
      (store.objectAt other).path.getD []) tree := by
    rw [isTree]
    exact (sorted.path.congr old).insertDup
  rw [← same]
  refine { sorted with path := placed.congr fun other _ => ?_ }
  show ((store.addPath obj key tree).objectAt other).path.getD [] = _
  rw [ObjStore.addPath]
  dsimp only
  rw [ObjStore.objectAt_modifyObject]
  by_cases isNew : other = obj
  · rw [isNew, Function.update_self, if_pos rfl]
    rfl
  · rw [Function.update_of_ne isNew, if_neg isNew]

theorem NewType.patterns {typed : ObjStore} {type : Option Ptr}
    (newType : NewType store typed type) (linked : Linked none none store)
    (allocated : Allocated store) : typed.patterns = store.patterns := by
  rw [(newType.frame linked allocated).2.2]

theorem Young.patterns (young : Young store made obj)
    (linked : Linked none none store) (allocated : Allocated store) :
    made.patterns = store.patterns := by
  obtain ⟨typed, type, id, newType, _⟩ := young
  rw [unrefType_frame]
  exact newType.patterns linked allocated

theorem treesKept_setOwner (store : ObjStore) (obj cl : Ptr) :
    TreesKept store (store.setOwner obj cl) :=
  { TreesKept.refl store with
    pathKey := fun other _ => by
      simp [ObjStore.pathKey, ObjStore.setOwner] }

theorem MakeMove.treesSorted (move : MakeMove cl store next)
    (linked : Linked none none store) (allocated : Allocated store)
    (sorted : TreesSorted store) : TreesSorted next := by
  cases move with
  | abandoned typed type newType =>
      obtain ⟨_, _, frame⟩ := newType.frame linked allocated
      rw [unrefType_frame, frame]
      exact { sorted with }
  | discarded made obj young =>
      have facts := young.youngObject linked allocated
      exact (facts.treesSorted linked sorted
        (young.patterns linked allocated)).kept (treesKept_freeObject made obj)
  | created made obj young =>
      have facts := young.youngObject linked allocated
      exact (facts.treesSorted linked sorted
        (young.patterns linked allocated)).kept (treesKept_setOwner made obj cl)
  | createdAt made placed obj key young inserted =>
      have facts := young.youngObject linked allocated
      have absent : obj ∉ made.path := by
        intro member
        rw [facts.path] at member
        exact facts.fresh ((linked.registered obj).mp member).1
      have young := facts.treesSorted linked sorted
        (young.patterns linked allocated)
      exact (young.insertPath absent inserted).kept
        (treesKept_setOwner placed obj cl)

theorem StoreMove.treesSorted (move : StoreMove cl watched store next)
    (linked : Linked none none store) (allocated : Allocated store)
    (sorted : TreesSorted store) : TreesSorted next := by
  cases move with
  | link move =>
      exact move.treesSorted sorted allocated
  | make move =>
      exact move.treesSorted linked allocated sorted

/-! ## Runs -/

theorem treesSorted_step (bus : Bus) (action : BusAction) (next : Bus)
    (holds : BusInv bus ∧ TreesSorted bus.store)
    (taken : ubusd.step bus action = some next) :
    BusInv next ∧ TreesSorted next.store := by
  obtain ⟨inv, sorted⟩ := holds
  refine ⟨busInv_step bus action next inv taken, ?_⟩
  rw [(step_some taken).2.2]
  cases action with
  | connect urandom =>
      cases store_connect bus urandom with
      | inl keep =>
          rw [keep]
          exact sorted
      | inr added =>
          obtain ⟨id, added⟩ := added
          rw [added]
          exact { sorted with }
  | receive cl ub urandom =>
      let begun : Bus := { bus with urandom := urandom, sent := [] }
      exact (begun.receive_move cl ub).treesSorted inv.linked inv.allocated
        sorted
  | disconnect cl =>
      have freed : (bus.act (.disconnect cl)).store =
          bus.store.freeClient cl :=
        store_ubusdProtoFreeClient { bus with sent := [] } cl
      rw [freed]
      exact sorted.kept (treesKept_freeClient bus.store cl)

/-- In every state that ubusd reaches both trees are sorted. -/
theorem treesSorted_run {actions : List BusAction} {final : Bus}
    (reached : ubusd.run actions = some final) : TreesSorted final.store :=
  (Machine.invariant_of_step
    ⟨busInv_init, List.Pairwise.nil, List.Pairwise.nil⟩ treesSorted_step
    reached).2

end LibubusJni.Ubusd
