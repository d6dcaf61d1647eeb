import LibubusJni.Ubusd.Isolation

/-!
# The lists of subscriptions

A subscription is once on each of its two lists, and its two objects belong to
different clients.
-/

namespace LibubusJni.Ubusd

open LibubusJni.Lib LibubusJni.Libubox

/-- What holds of the two lists of all objects. -/
structure SubsInv (store : ObjStore) : Prop where
  subscribers : ∀ obj, (store.objectAt obj).subscribers.Nodup
  targetList : ∀ obj, (store.objectAt obj).targetList.Nodup
  foreign : ∀ obj, ∀ s ∈ (store.objectAt obj).subscribers,
    (store.objectAt (store.subscriptionAt s).subscriber).client ≠
      (store.objectAt obj).client

variable {store next made : ObjStore} {obj cl : Ptr} {watched : Ptr → Prop}

/-- Nothing comes onto the lists. -/
structure SubsKept (store next : ObjStore) : Prop where
  subscribers : ∀ obj, (next.objectAt obj).subscribers.Sublist
    (store.objectAt obj).subscribers
  targetList : ∀ obj, (next.objectAt obj).targetList.Sublist
    (store.objectAt obj).targetList
  client : ∀ obj, ∀ s ∈ (next.objectAt obj).subscribers,
    (next.objectAt (next.subscriptionAt s).subscriber).client =
        (store.objectAt (store.subscriptionAt s).subscriber).client ∧
      (next.objectAt obj).client = (store.objectAt obj).client

theorem SubsInv.kept (inv : SubsInv store) (kept : SubsKept store next) :
    SubsInv next where
  subscribers obj := (inv.subscribers obj).sublist (kept.subscribers obj)
  targetList obj := (inv.targetList obj).sublist (kept.targetList obj)
  foreign obj s onList := by
    obtain ⟨subscriber, target⟩ := kept.client obj s onList
    rw [subscriber, target]
    exact inv.foreign obj s ((kept.subscribers obj).subset onList)

theorem subsKept_freeObject (store : ObjStore) (obj : Ptr) :
    SubsKept store (store.freeObject obj) where
  subscribers other := by
    rw [freeObject_eq, dropLinks_eq]
    exact List.filter_sublist
  targetList other := by
    rw [freeObject_eq, dropLinks_eq]
    exact List.filter_sublist
  client other s _ := by
    rw [freeObject_eq, dropLinks_eq]
    exact ⟨rfl, rfl⟩

theorem subsKept_unlink (store : ObjStore) (s : Ptr) :
    SubsKept store (store.unlinkSubscription s) where
  subscribers _ := List.filter_sublist
  targetList _ := List.filter_sublist
  client _ _ _ := ⟨rfl, rfl⟩

theorem SubsInv.foldl_unlink (inv : SubsInv store) (subs : List Ptr) :
    SubsInv (subs.foldl ObjStore.unlinkSubscription store) := by
  induction subs generalizing store with
  | nil =>
      exact inv
  | cons s rest inductionHypothesis =>
      exact inductionHypothesis (inv.kept (subsKept_unlink store s))

/-- A new subscription is on none of the lists yet. -/
theorem SubsInv.addSubscription (inv : SubsInv store)
    (linked : Linked none none store) (allocated : Allocated store)
    {target : Ptr}
    (foreign : (store.objectAt obj).client ≠
      (store.objectAt target).client) :
    SubsInv (store.addSubscription obj target) := by
  have leaving : ∀ other, store.allocs ∉ (store.objectAt other).targetList :=
    fun other onList => Nat.lt_irrefl _ (allocated.subscriptions other _ onList)
  have entering : ∀ other, store.allocs ∉
      (store.objectAt other).subscribers := fun other onList =>
    leaving _ (linked.subscriptions.atTarget other _ onList).2.2.2
  have subscribers := congrFun (@subscriberLists_addSubscription store obj target)
  have targetList := congrFun (@targetLists_addSubscription store obj target)
  have client : ∀ ptr, ((store.addSubscription obj target).objectAt ptr).client =
      (store.objectAt ptr).client := by
    intro ptr
    simp [ObjStore.addSubscription]
  constructor
  · intro other
    rw [subscribers other]
    by_cases isTarget : other = target
    · rw [isTarget, Function.update_self]
      exact List.nodup_cons.mpr ⟨entering target, inv.subscribers target⟩
    · rw [Function.update_of_ne isTarget]
      exact inv.subscribers other
  · intro other
    rw [targetList other]
    by_cases isObj : other = obj
    · rw [isObj, Function.update_self]
      exact List.nodup_cons.mpr ⟨leaving obj, inv.targetList obj⟩
    · rw [Function.update_of_ne isObj]
      exact inv.targetList other
  · intro other s onList
    rw [client, client]
    by_cases isNew : s = store.allocs
    · rw [isNew] at onList ⊢
      have isTarget : other = target := by
        by_contra notTarget
        rw [subscribers other, Function.update_of_ne notTarget] at onList
        exact entering other onList
      have own : (store.addSubscription obj target).subscriptionAt
          store.allocs = ⟨obj, target⟩ := Function.update_self ..
      rw [own, isTarget]
      exact foreign
    · have old : (store.addSubscription obj target).subscriptionAt s =
          store.subscriptionAt s := Function.update_of_ne isNew _ _
      rw [old]
      refine inv.foreign other s ?_
      rw [subscribers other] at onList
      by_cases isTarget : other = target
      · rw [isTarget, Function.update_self] at onList
        rw [isTarget]
        exact (List.mem_cons.mp onList).resolve_left isNew
      · rw [Function.update_of_ne isTarget] at onList
        exact onList

theorem LinkMove.subsInv (move : LinkMove cl watched store next)
    (foreign : ∀ target, watched target →
      (store.objectAt target).client ≠ some cl)
    (linked : Linked none none store) (allocated : Allocated store)
    (inv : SubsInv store) : SubsInv next := by
  cases move with
  | keep =>
      exact inv
  | removed obj live own =>
      exact inv.kept (subsKept_freeObject store obj)
  | subscribed obj target live own targetLive isWatched =>
      refine inv.addSubscription linked allocated ?_
      rw [own]
      exact (foreign target isWatched).symm
  | unsubscribed obj s live own onList =>
      exact inv.kept (subsKept_unlink store s)
  | registered obj key isPartial live own =>
      exact inv.kept
        { subscribers := fun other => by simp [ObjStore.addSource]
          targetList := fun other => by simp [ObjStore.addSource]
          client := fun other s _ => by simp [ObjStore.addSource] }

theorem SubsKept.trans (first : SubsKept store made)
    (second : SubsKept made next) : SubsKept store next where
  subscribers obj := (second.subscribers obj).trans (first.subscribers obj)
  targetList obj := (second.targetList obj).trans (first.targetList obj)
  client obj s onList := by
    obtain ⟨subscriber, target⟩ := second.client obj s onList
    obtain ⟨firstSubscriber, firstTarget⟩ :=
      first.client obj s ((second.subscribers obj).subset onList)
    exact ⟨subscriber.trans firstSubscriber, target.trans firstTarget⟩

/-- A young object has no subscriptions. -/
theorem YoungObject.apart (facts : YoungObject store made obj) {other s : Ptr}
    (onList : s ∈ (made.objectAt other).subscribers) :
    other ≠ obj ∧ (made.subscriptionAt s).subscriber ≠ obj := by
  obtain ⟨_, noTargets, noSubscribers, _⟩ := facts.blank
  constructor
  · intro isNew
    rw [isNew, noSubscribers] at onList
    exact List.not_mem_nil onList
  · intro isNew
    have back := (facts.linked.subscriptions.atTarget other s onList).2.2.2
    rw [isNew, noTargets] at back
    exact List.not_mem_nil back

theorem YoungObject.subsKept (facts : YoungObject store made obj) :
    SubsKept store made where
  subscribers other := by
    by_cases isNew : other = obj
    · rw [isNew, facts.blank.2.2.1]
      exact List.nil_sublist _
    · rw [facts.others other isNew]
  targetList other := by
    by_cases isNew : other = obj
    · rw [isNew, facts.blank.2.1]
      exact List.nil_sublist _
    · rw [facts.others other isNew]
  client other s onList := by
    obtain ⟨notObj, notSource⟩ := facts.apart onList
    rw [facts.subscriptionAt] at notSource ⊢
    rw [facts.others _ notSource, facts.others _ notObj]
    exact ⟨rfl, rfl⟩

/-- The owner of an object without subscriptions is that of none. -/
theorem subsKept_setOwner (cl : Ptr)
    (apart : ∀ other, ∀ s ∈ (made.objectAt other).subscribers,
      other ≠ obj ∧ (made.subscriptionAt s).subscriber ≠ obj) :
    SubsKept made (made.setOwner obj cl) where
  subscribers other := by
    simp [ObjStore.setOwner]
  targetList other := by
    simp [ObjStore.setOwner]
  client other s onList := by
    have listed : s ∈ (made.objectAt other).subscribers := by
      simpa [ObjStore.setOwner] using onList
    obtain ⟨notObj, notSource⟩ := apart other s listed
    have same : ∀ ptr, ptr ≠ obj →
        (made.setOwner obj cl).objectAt ptr = made.objectAt ptr :=
      fun ptr other => Function.update_of_ne other _ _
    have subscription : (made.setOwner obj cl).subscriptionAt =
        made.subscriptionAt := rfl
    rw [subscription, same _ notSource, same _ notObj]
    exact ⟨rfl, rfl⟩

theorem subsKept_addPath (store : ObjStore) (obj : Ptr) (key : List UInt8)
    (tree : List Ptr) : SubsKept store (store.addPath obj key tree) where
  subscribers other := by
    simp [ObjStore.addPath]
  targetList other := by
    simp [ObjStore.addPath]
  client other s _ := by
    simp [ObjStore.addPath]

theorem MakeMove.subsInv (move : MakeMove cl store next)
    (linked : Linked none none store) (allocated : Allocated store)
    (inv : SubsInv store) : SubsInv next := by
  cases move with
  | abandoned typed type newType =>
      obtain ⟨_, _, frame⟩ := newType.frame linked allocated
      rw [unrefType_frame, frame]
      exact { inv with }
  | discarded made obj young =>
      have facts := young.youngObject linked allocated
      exact inv.kept (facts.subsKept.trans (subsKept_freeObject made obj))
  | created made obj young =>
      have facts := young.youngObject linked allocated
      exact inv.kept (facts.subsKept.trans
        (subsKept_setOwner cl fun _ _ onList => facts.apart onList))
  | createdAt made placed obj key young inserted =>
      have facts := young.youngObject linked allocated
      obtain ⟨tree, isPlaced, _⟩ := insertPath_some inserted
      have kept := facts.subsKept.trans (subsKept_addPath made obj key tree)
      rw [isPlaced]
      refine inv.kept (kept.trans (subsKept_setOwner cl fun other s onList => ?_))
      exact facts.apart ((subsKept_addPath made obj key tree).subscribers
        other |>.subset onList)

theorem StoreMove.subsInv (move : StoreMove cl watched store next)
    (foreign : ∀ target, watched target →
      (store.objectAt target).client ≠ some cl)
    (linked : Linked none none store) (allocated : Allocated store)
    (inv : SubsInv store) : SubsInv next := by
  cases move with
  | link move =>
      exact move.subsInv foreign linked allocated inv
  | make move =>
      exact move.subsInv linked allocated inv

/-! ## Runs -/

theorem subsInv_step (bus : Bus) (action : BusAction) (next : Bus)
    (holds : BusInv bus ∧ SubsInv bus.store)
    (taken : ubusd.step bus action = some next) :
    BusInv next ∧ SubsInv next.store := by
  obtain ⟨inv, subs⟩ := holds
  refine ⟨busInv_step bus action next inv taken, ?_⟩
  rw [(step_some taken).2.2]
  cases action with
  | connect urandom =>
      cases store_connect bus urandom with
      | inl keep =>
          rw [keep]
          exact subs
      | inr added =>
          obtain ⟨id, added⟩ := added
          rw [added]
          exact { subs with }
  | receive cl ub urandom =>
      let begun : Bus := { bus with urandom := urandom, sent := [] }
      refine (begun.receive_move cl ub).subsInv ?_ inv.linked inv.allocated subs
      rintro target ⟨_, _, _, _, subscribes⟩
      exact subscribes.foreign
  | disconnect cl =>
      have freed : (bus.act (.disconnect cl)).store =
          bus.store.freeClient cl :=
        store_ubusdProtoFreeClient { bus with sent := [] } cl
      rw [freed]
      have all : ∀ (objs : List Ptr) (store : ObjStore), SubsInv store →
          SubsInv (objs.foldl ObjStore.freeObject store) := by
        intro objs
        induction objs with
        | nil =>
            exact fun _ subs => subs
        | cons obj rest inductionHypothesis =>
            exact fun store subs => inductionHypothesis _
              (subs.kept (subsKept_freeObject store obj))
      exact { all (bus.store.clientAt cl).objects bus.store subs with }

theorem subsInv_init : SubsInv ubusd.init.store where
  subscribers obj := by
    rw [(objectAt_init obj).2.1]
    exact List.nodup_nil
  targetList obj := by
    rw [(objectAt_init obj).1]
    exact List.nodup_nil
  foreign obj s onList := by
    rw [(objectAt_init obj).2.1] at onList
    exact absurd onList List.not_mem_nil

/-- In every state that ubusd reaches. -/
theorem subsInv_run {actions : List BusAction} {final : Bus}
    (reached : ubusd.run actions = some final) : SubsInv final.store :=
  (Machine.invariant_of_step ⟨busInv_init, subsInv_init⟩ subsInv_step
    reached).2

end LibubusJni.Ubusd
