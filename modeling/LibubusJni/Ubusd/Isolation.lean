import LibubusJni.Ubusd.Lifetime

/-!
# What a message leaves of the objects of others

A client names objects, types and targets by numbers of its own choice.  Of an
object of another client its messages change the two counters and entries of
subscriptions in which an object of the sender takes part, and nothing else.
-/

namespace LibubusJni.Ubusd

open LibubusJni.Lib LibubusJni.Libubox

variable {store next : ObjStore} {cl obj : Ptr} {watched : Ptr → Prop}

/-! ## Types -/

/-- A type that is still there has the identifier and the methods it had. -/
structure TypesKept (store next : ObjStore) : Prop where
  grown : store.allocs ≤ next.allocs
  same : ∀ type ∈ next.objTypes, type < store.allocs →
    type ∈ store.objTypes ∧
      (next.typeAt type).id = (store.typeAt type).id ∧
        (next.typeAt type).methods = (store.typeAt type).methods

theorem TypesKept.of_eq (objTypes : next.objTypes = store.objTypes)
    (typeAt : next.typeAt = store.typeAt)
    (grown : store.allocs ≤ next.allocs) : TypesKept store next where
  grown := grown
  same type live _ := by
    rw [objTypes] at live
    rw [typeAt]
    exact ⟨live, rfl, rfl⟩

theorem TypesKept.trans {middle : ObjStore}
    (first : TypesKept store middle) (second : TypesKept middle next) :
    TypesKept store next where
  grown := Nat.le_trans first.grown second.grown
  same type live old := by
    obtain ⟨middleLive, id, methods⟩ :=
      second.same type live (Nat.lt_of_lt_of_le old first.grown)
    obtain ⟨wasLive, firstId, firstMethods⟩ := first.same type middleLive old
    exact ⟨wasLive, id.trans firstId, methods.trans firstMethods⟩

theorem typesKept_refType (store : ObjStore) (ptr : Ptr) :
    TypesKept store (store.refType ptr) where
  grown := Nat.le_refl _
  same type live _ := by
    refine ⟨live, ?_⟩
    rw [ObjStore.refType, ObjStore.typeAt_modifyType]
    by_cases this : type = ptr
    · rw [this, Function.update_self]
      exact ⟨rfl, rfl⟩
    · rw [Function.update_of_ne this]
      exact ⟨rfl, rfl⟩

/-- The methods of a type go only when the type leaves the tree. -/
theorem typesKept_ubusUnrefObjectType (store : ObjStore) (ptr : Ptr) :
    TypesKept store (store.ubusUnrefObjectType ptr) where
  grown := Nat.le_refl _
  same type live _ := by
    rw [ObjStore.ubusUnrefObjectType] at live ⊢
    rw [ObjStore.typeAt_modifyType]
    dsimp only at live
    by_cases this : type = ptr
    · subst this
      rw [Function.update_self]
      split at live
      · rename_i shared
        exact ⟨live, rfl, if_pos shared⟩
      · exact absurd rfl (mem_avlDelete.mp live).2
    · rw [Function.update_of_ne this]
      refine ⟨?_, rfl, rfl⟩
      split at live
      · exact live
      · exact (mem_avlDelete.mp live).1

theorem typesKept_unrefType (store : ObjStore) (type : Option Ptr) :
    TypesKept store (store.unrefType type) := by
  cases type with
  | none =>
      exact TypesKept.of_eq rfl rfl (Nat.le_refl _)
  | some type =>
      exact typesKept_ubusUnrefObjectType store type

theorem typesKept_addType (store : ObjStore) (id : UInt32) :
    TypesKept store (store.addType id) where
  grown := Nat.le_succ _
  same type live old := by
    have notNew : type ≠ store.allocs := Nat.ne_of_lt old
    refine ⟨(mem_avlInsertDup.mp live).resolve_left notNew, ?_⟩
    rw [ObjStore.addType]
    dsimp only
    rw [Function.update_of_ne notNew]
    exact ⟨rfl, rfl⟩

/-- Methods are added to a new type only. -/
theorem typesKept_ubusCreateObjMethod {middle : ObjStore} {ptr : Ptr}
    (kept : TypesKept store middle) (isNew : store.allocs ≤ ptr)
    (methods : List (List UInt8)) :
    TypesKept store (methods.foldl
      (fun made data => made.ubusCreateObjMethod ptr data) middle) := by
  induction methods generalizing middle with
  | nil =>
      exact kept
  | cons data rest inductionHypothesis =>
      refine inductionHypothesis { grown := kept.grown, same := ?_ }
      intro type live old
      have notNew : type ≠ ptr :=
        Nat.ne_of_lt (Nat.lt_of_lt_of_le old isNew)
      dsimp only
      rw [ObjStore.ubusCreateObjMethod, ObjStore.typeAt_modifyType,
        Function.update_of_ne notNew]
      exact kept.same type live old

theorem NewType.typesKept {typed : ObjStore} {type : Option Ptr}
    (newType : NewType store typed type) : TypesKept store typed := by
  cases newType with
  | nothing =>
      exact TypesKept.of_eq rfl rfl (Nat.le_refl _)
  | known type live =>
      exact typesKept_refType store type
  | made id methods =>
      exact typesKept_ubusCreateObjMethod (typesKept_addType store id)
        (Nat.le_refl _) methods
  | rejected id methods =>
      exact (typesKept_ubusCreateObjMethod (typesKept_addType store id)
        (Nat.le_refl _) methods).trans (typesKept_ubusUnrefObjectType ..)

theorem typesKept_addObject (store : ObjStore) (id : UInt32)
    (type : Option Ptr) : TypesKept store (store.addObject id type) := by
  cases type with
  | none =>
      exact TypesKept.of_eq rfl rfl (Nat.le_succ _)
  | some type =>
      exact (typesKept_refType store type).trans
        (TypesKept.of_eq rfl rfl (Nat.le_succ _))

theorem Young.typesKept {made : ObjStore} (young : Young store made obj) :
    TypesKept store made := by
  obtain ⟨typed, type, id, newType, free⟩ := young
  exact (newType.typesKept.trans (typesKept_addObject ..)).trans
    (typesKept_unrefType ..)

theorem typesKept_freeObject (store : ObjStore) (obj : Ptr) :
    TypesKept store (store.freeObject obj) := by
  rw [ObjStore.freeObject, ObjStore.dropNode]
  refine TypesKept.trans ?_ (typesKept_unrefType ..)
  rw [ObjStore.dropPath, dropLinks_eq]
  split
  · exact TypesKept.of_eq rfl rfl (Nat.le_refl _)
  · exact TypesKept.of_eq rfl rfl (Nat.le_refl _)

theorem typesKept_insertPath {key : List UInt8}
    (inserted : store.insertPath obj key = some next) :
    TypesKept store next := by
  obtain ⟨tree, same, _⟩ := insertPath_some inserted
  rw [same]
  exact TypesKept.of_eq rfl rfl (Nat.le_refl _)

theorem LinkMove.typesKept (move : LinkMove cl watched store next) :
    TypesKept store next := by
  cases move with
  | keep =>
      exact TypesKept.of_eq rfl rfl (Nat.le_refl _)
  | removed obj live own =>
      exact typesKept_freeObject ..
  | subscribed obj target live own targetLive _ =>
      exact TypesKept.of_eq rfl rfl (Nat.le_succ _)
  | unsubscribed obj s live own onList =>
      exact TypesKept.of_eq rfl rfl (Nat.le_refl _)
  | registered obj key isPartial live own =>
      exact TypesKept.of_eq rfl rfl (Nat.le_succ _)

theorem MakeMove.typesKept (move : MakeMove cl store next) :
    TypesKept store next := by
  cases move with
  | abandoned typed type newType =>
      exact newType.typesKept.trans (typesKept_unrefType ..)
  | discarded made obj young =>
      exact young.typesKept.trans (typesKept_freeObject ..)
  | created made obj young =>
      exact young.typesKept.trans (TypesKept.of_eq rfl rfl (Nat.le_refl _))
  | createdAt made placed obj key young inserted =>
      exact (young.typesKept.trans (typesKept_insertPath inserted)).trans
        (TypesKept.of_eq rfl rfl (Nat.le_refl _))

theorem StoreMove.typesKept (move : StoreMove cl watched store next) :
    TypesKept store next := by
  cases move with
  | link move =>
      exact move.typesKept
  | make move =>
      exact move.typesKept

/-! ## Objects -/

/-- Whether the subscriber of a subscription belongs to another client. -/
def ObjStore.foreign (store : ObjStore) (cl s : Ptr) : Bool :=
  (store.objectAt (store.subscriptionAt s).subscriber).client ≠ some cl

/-- Whether the target of a subscription is in the tree. -/
def ObjStore.targeted (store : ObjStore) (s : Ptr) : Bool :=
  (store.subscriptionAt s).target ∈ store.objects

/-- What a message of `cl` leaves of the record and the lists of an object. -/
structure RecordKept (cl : Ptr) (store next : ObjStore) (obj : Ptr) :
    Prop where
  live : obj ∈ next.objects
  /-- All fields but the two lists are what they were. -/
  record : next.objectAt obj =
    { store.objectAt obj with
      subscribers := (next.objectAt obj).subscribers
      targetList := (next.objectAt obj).targetList }
  /-- Subscriptions of objects of other clients stay on the list in their
  order, and no other comes. -/
  subscribers :
    (next.objectAt obj).subscribers.filter (next.foreign cl) =
      (store.objectAt obj).subscribers.filter (store.foreign cl)
  /-- What leaves the list loses its target. -/
  targetList : (next.objectAt obj).targetList =
    (store.objectAt obj).targetList.filter next.targeted
  lost : ∀ s ∈ (store.objectAt obj).targetList, next.targeted s = false →
    (store.objectAt (store.subscriptionAt s).target).client = some cl
  subscription : ∀ s, s ∈ (store.objectAt obj).subscribers ∨
      s ∈ (store.objectAt obj).targetList →
    next.subscriptionAt s = store.subscriptionAt s
  sources : ∀ ev ∈ (store.objectAt obj).events,
    next.sourceAt ev = store.sourceAt ev

/-- The targets of subscriptions are live. -/
theorem Linked.targetList_filter {young held : Option Ptr}
    (linked : Linked young held store) (obj : Ptr) (after : ObjStore)
    (subscriptionAt : ∀ s ∈ (store.objectAt obj).targetList,
      after.subscriptionAt s = store.subscriptionAt s)
    (objects : ∀ other ∈ store.objects, other ∈ after.objects) :
    ∀ s ∈ (store.objectAt obj).targetList, after.targeted s = true := by
  intro s onList
  have target := (linked.subscriptions.atSource obj s onList).2.2.1
  rw [ObjStore.targeted, subscriptionAt s onList]
  exact decide_eq_true (objects _ target)

/-- A message that changes neither the object nor a subscription. -/
theorem RecordKept.of_eq (linked : Linked none none store)
    (live : obj ∈ store.objects)
    (objects : ∀ other ∈ store.objects, other ∈ next.objects)
    (record : next.objectAt obj = store.objectAt obj)
    (clients : ∀ other ∈ store.objects,
      (next.objectAt other).client = (store.objectAt other).client)
    (subscriptionAt : next.subscriptionAt = store.subscriptionAt)
    (sources : ∀ ev ∈ (store.objectAt obj).events,
      next.sourceAt ev = store.sourceAt ev) :
    RecordKept cl store next obj := by
  have targeted := linked.targetList_filter obj next
    (fun s _ => congrFun subscriptionAt s) objects
  exact
    { live := objects obj live
      record := by rw [record]
      subscribers := by
        rw [record]
        refine List.filter_congr fun s onList => ?_
        have subscriber := (linked.subscriptions.atTarget obj s onList).2.2.1
        rw [ObjStore.foreign, ObjStore.foreign, subscriptionAt,
          clients _ subscriber]
      targetList := by
        rw [record]
        exact (List.filter_eq_self.mpr targeted).symm
      lost := fun s onList gone => by
        rw [targeted s onList] at gone
        exact absurd gone Bool.noConfusion
      subscription := fun s _ => congrFun subscriptionAt s
      sources := sources }

/-- An object of the sender is freed. -/
theorem recordKept_removed {gone : Ptr} (linked : Linked none none store)
    (live : obj ∈ store.objects) (different : obj ≠ gone)
    (sender : (store.objectAt gone).client = some cl) :
    RecordKept cl store (store.freeObject gone) obj := by
  have objects : (store.freeObject gone).objects =
      avlDelete gone store.objects := by rw [freeObject_eq]
  have subscriptionAt : (store.freeObject gone).subscriptionAt =
      store.subscriptionAt := by rw [freeObject_eq, dropLinks_eq]
  have sourceAt : (store.freeObject gone).sourceAt = store.sourceAt := by
    rw [freeObject_eq, dropLinks_eq]
  have objectAt : (store.freeObject gone).objectAt obj =
      { store.objectAt obj with
        subscribers :=
          (store.objectAt obj).subscribers.filter (· ∉ store.linksOf gone)
        targetList :=
          (store.objectAt obj).targetList.filter (· ∉ store.linksOf gone)
        events :=
          (store.objectAt obj).events.filter
            (· ∉ (store.objectAt gone).events) } := by
    rw [freeObject_eq, dropLinks_eq]
  have events : (store.objectAt obj).events.filter
      (· ∉ (store.objectAt gone).events) = (store.objectAt obj).events := by
    refine List.filter_eq_self.mpr fun ev onList => ?_
    refine decide_eq_true fun alsoThere => different ?_
    have own := ((linked.sources.listed obj ev).mp onList).2
    have other := ((linked.sources.listed gone ev).mp alsoThere).2
    exact Option.some.inj (own.symm.trans other)
  -- of the subscriptions of `obj`, those of `gone` are the ones to `gone`
  have targeted : ∀ s ∈ (store.objectAt obj).targetList,
      (store.freeObject gone).targeted s = decide (s ∉ store.linksOf gone) := by
    intro s onList
    obtain ⟨source, _, targetLive, back⟩ :=
      linked.subscriptions.atSource obj s onList
    rw [ObjStore.targeted, subscriptionAt, objects]
    refine decide_eq_decide.mpr (mem_avlDelete.trans ?_)
    refine (and_iff_right targetLive).trans (not_congr ?_)
    rw [ObjStore.linksOf, List.mem_append]
    constructor
    · intro isTarget
      rw [isTarget] at back
      exact Or.inr back
    · rintro (ofGone | ofGone)
      · have other := (linked.subscriptions.atSource gone s ofGone).1
        exact absurd (source.symm.trans other) different
      · exact (linked.subscriptions.atTarget gone s ofGone).1
  exact
    { live := by
        rw [objects]
        exact mem_avlDelete.mpr ⟨live, different⟩
      record := by
        rw [objectAt]
        dsimp only
        rw [events]
      subscribers := by
        have clients : (store.freeObject gone).foreign cl =
            store.foreign cl := by
          funext s
          rw [ObjStore.foreign, ObjStore.foreign, subscriptionAt,
            client_freeObject]
        rw [clients, objectAt]
        dsimp only
        rw [List.filter_filter]
        refine List.filter_congr fun s onList => ?_
        cases isForeign : store.foreign cl s with
        | false =>
            rfl
        | true =>
            refine (Bool.true_and _).trans (decide_eq_true fun ofGone => ?_)
            rcases List.mem_append.mp ofGone with leaving | entering
            · have source := (linked.subscriptions.atSource gone s leaving).1
              rw [ObjStore.foreign, source] at isForeign
              exact of_decide_eq_true isForeign sender
            · have here := (linked.subscriptions.atTarget obj s onList).1
              have there := (linked.subscriptions.atTarget gone s entering).1
              exact different (here.symm.trans there)
      targetList := by
        rw [objectAt]
        exact List.filter_congr fun s onList => (targeted s onList).symm
      lost := fun s onList isGone => by
        rw [targeted s onList] at isGone
        have ofGone := not_not.mp (of_decide_eq_false isGone)
        obtain ⟨source, _, _, back⟩ :=
          linked.subscriptions.atSource obj s onList
        rcases List.mem_append.mp ofGone with leaving | entering
        · have other := (linked.subscriptions.atSource gone s leaving).1
          exact absurd (source.symm.trans other) different
        · rw [(linked.subscriptions.atTarget gone s entering).1]
          exact sender
      subscription := fun s _ => congrFun subscriptionAt s
      sources := fun ev _ => congrFun sourceAt ev }

/-- An object of the sender subscribes. -/
theorem recordKept_subscribed {subscriber target : Ptr}
    (linked : Linked none none store) (allocated : Allocated store)
    (live : obj ∈ store.objects) (different : obj ≠ subscriber)
    (sender : (store.objectAt subscriber).client = some cl) :
    RecordKept cl store (store.addSubscription subscriber target) obj := by
  have old : ∀ s, s ∈ (store.objectAt obj).subscribers ∨
      s ∈ (store.objectAt obj).targetList →
      (store.addSubscription subscriber target).subscriptionAt s =
        store.subscriptionAt s := by
    intro s onList
    refine Function.update_of_ne (Nat.ne_of_lt ?_) _ _
    rcases onList with entering | leaving
    · exact allocated.subscriptions _ s
        (linked.subscriptions.atTarget obj s entering).2.2.2
    · exact allocated.subscriptions obj s leaving
  have clients : ∀ ptr,
      ((store.addSubscription subscriber target).objectAt ptr).client =
        (store.objectAt ptr).client := by
    intro ptr
    simp [ObjStore.addSubscription]
  have targetList :
      ((store.addSubscription subscriber target).objectAt obj).targetList =
        (store.objectAt obj).targetList := by
    rw [congrFun (targetLists_addSubscription subscriber target) obj,
      Function.update_of_ne different]
  have targeted := linked.targetList_filter obj
    (store.addSubscription subscriber target)
    (fun s onList => old s (Or.inr onList)) fun _ otherLive => otherLive
  have kept : (store.objectAt obj).subscribers.filter
      ((store.addSubscription subscriber target).foreign cl) =
        (store.objectAt obj).subscribers.filter (store.foreign cl) := by
    refine List.filter_congr fun s onList => ?_
    rw [ObjStore.foreign, ObjStore.foreign, old s (Or.inl onList), clients]
  have new : (store.addSubscription subscriber target).foreign cl
      store.allocs = false := by
    have own : (store.addSubscription subscriber target).subscriptionAt
        store.allocs = ⟨subscriber, target⟩ := Function.update_self ..
    rw [ObjStore.foreign, own, clients]
    exact decide_eq_false (not_not.mpr sender)
  exact
    { live := live
      record := by
        rw [ObjStore.addSubscription]
        dsimp only
        rw [ObjStore.objectAt_modifyObject, Function.update_of_ne different,
          ObjStore.objectAt_modifyObject]
        by_cases isTarget : obj = target
        · rw [isTarget, Function.update_self]
        · rw [Function.update_of_ne isTarget]
      subscribers := by
        rw [congrFun (subscriberLists_addSubscription subscriber target) obj]
        by_cases isTarget : obj = target
        · rw [isTarget] at kept ⊢
          rw [Function.update_self, List.filter_cons, new]
          exact kept
        · rw [Function.update_of_ne isTarget]
          exact kept
      targetList := by
        rw [targetList]
        exact (List.filter_eq_self.mpr targeted).symm
      lost := fun s onList gone => by
        rw [targeted s onList] at gone
        exact absurd gone Bool.noConfusion
      subscription := old
      sources := fun _ _ => rfl }

/-- An object of the sender ends a subscription. -/
theorem recordKept_unsubscribed {subscriber s : Ptr}
    (linked : Linked none none store) (live : obj ∈ store.objects)
    (different : obj ≠ subscriber)
    (sender : (store.objectAt subscriber).client = some cl)
    (ofSender : s ∈ (store.objectAt subscriber).targetList) :
    RecordKept cl store (store.unlinkSubscription s) obj := by
  have source := (linked.subscriptions.atSource subscriber s ofSender).1
  have targeted := linked.targetList_filter obj
    (store.unlinkSubscription s) (fun _ _ => rfl) fun _ otherLive => otherLive
  exact
    { live := live
      record := rfl
      subscribers := by
        have own : store.foreign cl s = false := by
          rw [ObjStore.foreign, source]
          exact decide_eq_false (not_not.mpr sender)
        show (listDel s (store.objectAt obj).subscribers).filter
          (store.foreign cl) = _
        rw [listDel, List.filter_filter]
        refine List.filter_congr fun other _ => ?_
        by_cases same : other = s
        · rw [same, own]
          rfl
        · rw [decide_eq_true same, Bool.and_true]
      targetList := by
        have absent : ∀ other ∈ (store.objectAt obj).targetList,
            other ≠ s := by
          intro other onList same
          rw [same] at onList
          have here := (linked.subscriptions.atSource obj s onList).1
          exact different (here.symm.trans source)
        have unchanged : listDel s (store.objectAt obj).targetList =
            (store.objectAt obj).targetList :=
          List.filter_eq_self.mpr fun other onList =>
            decide_eq_true (absent other onList)
        show listDel s (store.objectAt obj).targetList = _
        rw [unchanged]
        exact (List.filter_eq_self.mpr targeted).symm
      lost := fun other onList gone => by
        rw [targeted other onList] at gone
        exact absurd gone Bool.noConfusion
      subscription := fun _ _ => rfl
      sources := fun _ _ => rfl }

/-- An object of the sender registers for events. -/
theorem recordKept_registered {other : Ptr} (key : List UInt8)
    (isPartial : Bool) (linked : Linked none none store)
    (allocated : Allocated store) (live : obj ∈ store.objects)
    (different : obj ≠ other) :
    RecordKept cl store (store.addSource other key isPartial) obj := by
  refine RecordKept.of_eq linked live (fun _ isLive => isLive)
    (Function.update_of_ne different _ _) ?_ rfl ?_
  · intro ptr _
    simp [ObjStore.addSource]
  · intro ev onList
    have inTree := ((linked.sources.listed obj ev).mp onList).1
    exact Function.update_of_ne (Nat.ne_of_lt (allocated.patterns ev inTree)) _ _

theorem LinkMove.recordKept (move : LinkMove cl watched store next)
    (linked : Linked none none store) (allocated : Allocated store)
    (live : obj ∈ store.objects)
    (notSender : (store.objectAt obj).client ≠ some cl) :
    RecordKept cl store next obj := by
  have different : ∀ other, (store.objectAt other).client = some cl →
      obj ≠ other := fun other sender same => notSender (same ▸ sender)
  cases move with
  | keep =>
      exact RecordKept.of_eq linked live (fun _ isLive => isLive) rfl
        (fun _ _ => rfl) rfl fun _ _ => rfl
  | removed gone _ sender =>
      exact recordKept_removed linked live (different gone sender) sender
  | subscribed subscriber target _ sender _ _ =>
      exact recordKept_subscribed linked allocated live
        (different subscriber sender) sender
  | unsubscribed subscriber s _ sender onList =>
      exact recordKept_unsubscribed linked live
        (different subscriber sender) sender onList
  | registered other key isPartial _ sender =>
      exact recordKept_registered key isPartial linked allocated live
        (different other sender)

theorem Grown.recordKept (grown : Grown store next)
    (linked : Linked none none store) (live : obj ∈ store.objects) :
    RecordKept cl store next obj :=
  RecordKept.of_eq linked live grown.objects (grown.objectAt obj live)
    (fun other otherLive => by rw [grown.objectAt other otherLive])
    grown.subscriptionAt fun ev _ => congrFun grown.sourceAt ev

theorem StoreMove.recordKept (move : StoreMove cl watched store next)
    (linked : Linked none none store) (allocated : Allocated store)
    (live : obj ∈ store.objects)
    (notSender : (store.objectAt obj).client ≠ some cl) :
    RecordKept cl store next obj := by
  cases move with
  | link move =>
      exact move.recordKept linked allocated live notSender
  | make move =>
      exact (move.grown linked allocated).recordKept linked live

/-! ## The result -/

/-- What a message of `cl` leaves of an object of another client: its record
and subscriptions, and what it is on, is of and waits for. -/
structure Untouched (cl : Ptr) (store next : ObjStore) (obj : Ptr) :
    Prop where
  kept : RecordKept cl store next obj
  /-- It is on the list of its client and, if it was, in the path tree. -/
  owned : ∀ owner, (store.objectAt obj).client = some owner →
    obj ∈ (next.clientAt owner).objects
  path : obj ∈ next.path ↔ obj ∈ store.path
  type : ∀ type, (store.objectAt obj).type = some type →
    type ∈ next.objTypes ∧
      (next.typeAt type).id = (store.typeAt type).id ∧
        (next.typeAt type).methods = (store.typeAt type).methods
  patterns : ∀ ev ∈ (store.objectAt obj).events, ev ∈ next.patterns

/-- A record that is kept is linked as it was. -/
theorem RecordKept.untouched (kept : RecordKept cl store next obj)
    (linked : Linked none none store) (allocated : Allocated store)
    (after : Linked none none next) (types : TypesKept store next)
    (live : obj ∈ store.objects) : Untouched cl store next obj where
  kept := kept
  owned owner own := by
    refine (after.owners.listed owner obj).mpr ⟨kept.live, ?_⟩
    rw [kept.record]
    exact own
  path := by
    rw [after.registered, linked.registered, kept.record]
    exact and_congr_left fun _ => iff_of_true kept.live live
  type type ofType := by
    have wasLive : type ∈ store.objTypes := by
      refine linked.types.known type ?_
      exact references_pos_of_mem live ofType
    have isLive : type ∈ next.objTypes := by
      refine after.types.known type ?_
      refine references_pos_of_mem kept.live ?_
      rw [kept.record]
      exact ofType
    exact ⟨isLive,
      (types.same type isLive (allocated.objTypes type wasLive)).2⟩
  patterns ev onList := by
    refine ((after.sources.listed obj ev).mp ?_).1
    rw [kept.record]
    exact onList

/-- Two clients connect and each adds an object. -/
def twoObjects : List BusAction :=
  [.connect [5000],
    .connect [5001],
    .receive 1 ⟨⟨0, UbusMsgType.addObject.code, 1, 0⟩, [0, 0, 0, 4]⟩ [6000],
    .receive 2 ⟨⟨0, UbusMsgType.addObject.code, 1, 0⟩, [0, 0, 0, 4]⟩ [6001]]

/-- The second client subscribes its object to that of the first. -/
def subscribeToFirst : BusRequest :=
  ⟨⟨0, UbusMsgType.subscribe.code, 2, 0⟩,
    [0, 0, 0, 20, 3, 0, 0, 8, 0, 0, 0x17, 0x71, 8, 0, 0, 8, 0, 0, 0x17, 0x70]⟩

end LibubusJni.Ubusd
