import LibubusJni.Subscribers.Handlers

/-!
# What each step of ubusd says about subscriptions

A client that disconnects takes its objects along one by one.  None of them is
subscribed to another, so the subscriptions of each are still there when its
turn comes.
-/

namespace LibubusJni.Subscribers

open LibubusJni.Lib (Alternates Machine)
open LibubusJni.Libubox LibubusJni.Ubusd

variable {owner : Ptr} {id : UInt32} {store : ObjStore} {bus : Bus}

/-! ## Disconnecting -/

/-- The end of one object of a client leaves the subscriptions of the others. -/
theorem subscribers_freeObject (linked : Linked none none store)
    (subs : SubsInv store) {obj other : Ptr} (different : other ≠ obj)
    (sameClient : (store.objectAt obj).client =
      (store.objectAt other).client) :
    ((store.freeObject obj).objectAt other).subscribers =
      (store.objectAt other).subscribers := by
  rw [freeObject_eq, dropLinks_eq]
  refine List.filter_eq_self.mpr fun s onList => decide_eq_true fun isLink => ?_
  obtain ⟨target, _⟩ := linked.subscriptions.atTarget other s onList
  rcases List.mem_append.mp isLink with leaving | entering
  · obtain ⟨subscriber, _⟩ := linked.subscriptions.atSource obj s leaving
    exact subs.foreign other s onList (by rw [subscriber, sameClient])
  · obtain ⟨own, _⟩ := linked.subscriptions.atTarget obj s entering
    exact different (target.symm.trans own)

theorem unsubscribeOf_freeObject (obj : Ptr) :
    unsubscribeOf (store.freeObject obj) = unsubscribeOf store := by
  rw [freeObject_eq, dropLinks_eq]
  rfl

theorem tells_freeObjects {cl : Ptr} (objs : List Ptr) (once : objs.Nodup)
    (linked : Linked none none bus.store) (unwatched : Unwatched bus.store)
    (subs : SubsInv bus.store)
    (all : ∀ obj ∈ objs, obj ∈ bus.store.objects ∧
      (bus.store.objectAt obj).client = some cl) :
    Tells owner id
      (objs.flatMap fun obj =>
        (bus.store.objectAt obj).subscribers.map (unsubscribeOf bus.store))
      bus (objs.foldl Bus.ubusdFreeObject bus) := by
  induction objs generalizing bus with
  | nil =>
      exact Tells.silent rfl rfl
  | cons obj rest inductionHypothesis =>
      obtain ⟨notInRest, restOnce⟩ := List.nodup_cons.mp once
      obtain ⟨live, own⟩ := all obj List.mem_cons_self
      have store := bus.store_ubusdFreeObject obj
      have first : Tells owner id _ bus (bus.ubusdFreeObject obj) :=
        tells_ubusdFreeObject linked (linked.addressed unwatched) subs obj
      have nextLinked : Linked none none (bus.ubusdFreeObject obj).store := by
        rw [store]
        exact linked.freeObject live (linked.ne_eventObj live own) (Or.inl rfl)
      have nextUnwatched : Unwatched (bus.ubusdFreeObject obj).store := by
        rw [store]
        exact unwatched.freeObject obj
      have nextSubs : SubsInv (bus.ubusdFreeObject obj).store := by
        rw [store]
        exact subs.kept (subsKept_freeObject bus.store obj)
      have nextAll : ∀ other ∈ rest,
          other ∈ (bus.ubusdFreeObject obj).store.objects ∧
            ((bus.ubusdFreeObject obj).store.objectAt other).client =
              some cl := by
        intro other member
        obtain ⟨otherLive, otherOwn⟩ :=
          all other (List.mem_cons_of_mem obj member)
        rw [store, client_freeObject, freeObject_eq]
        exact ⟨mem_avlDelete.mpr ⟨otherLive,
          fun same => notInRest (same ▸ member)⟩, otherOwn⟩
      have later := inductionHypothesis restOnce nextLinked nextUnwatched
        nextSubs nextAll
      have same : (rest.flatMap fun other =>
            ((bus.store.freeObject obj).objectAt other).subscribers.map
              (unsubscribeOf (bus.store.freeObject obj))) =
          rest.flatMap fun other =>
            (bus.store.objectAt other).subscribers.map
              (unsubscribeOf bus.store) := by
        refine List.flatMap_congr fun other member => ?_
        obtain ⟨_, otherOwn⟩ := all other (List.mem_cons_of_mem obj member)
        have different : other ≠ obj :=
          fun isFirst => notInRest (isFirst ▸ member)
        rw [unsubscribeOf_freeObject, subscribers_freeObject linked subs
          different (own.trans otherOwn.symm)]
      rw [store, same] at later
      exact first.trans later

theorem tells_ubusdProtoFreeClient (cl : Ptr) (settled : Settled bus.store)
    (subs : SubsInv bus.store) :
    TellsAll owner id bus (bus.ubusdProtoFreeClient cl) := by
  have listed := fun obj => settled.linked.owners.listed cl obj
  have once := settled.linked.owners.once cl
  have freed := settled.linked.freedClient settled.allocated cl
  have first : Tells owner id _ bus _ :=
    tells_freeObjects (bus.store.clientAt cl).objects once settled.linked
      settled.unwatched subs fun obj onList => (listed obj).mp onList
  have last : Tells owner id []
      ((bus.store.clientAt cl).objects.foldl Bus.ubusdFreeObject bus)
      (bus.ubusdProtoFreeClient cl) := Tells.silent rfl rfl
  have both := first.trans last
  rw [List.append_nil] at both
  refine ⟨_, both, ?_⟩
  have gone := @ended_perm bus.store (bus.store.freeClient cl) _
    settled.linked.once once (fun obj onList => ((listed obj).mp onList).1)
    freed.objects
  rw [store_ubusdProtoFreeClient, ← List.map_flatMap]
  exact gone.map _

/-! ## Every step -/

/-- What is said in one step of ubusd. -/
theorem tells_act {next : Bus} {action : BusAction} (holds : EventInv bus)
    (subs : SubsInv bus.store) (taken : ubusd.step bus action = some next) :
    Alternates (isActive bus.store owner id)
        (next.sent.filterMap (activeFlag owner id))
        (isActive next.store owner id) ∧
      (unsubscribes next.sent).Perm
        ((endedSubscriptions bus.store next.store).map
          (unsubscribeOf bus.store)) := by
  obtain ⟨running, _, same⟩ := step_some taken
  have settled := holds.settled running
  have all : ∃ begun : Bus, begun.sent = [] ∧ begun.store = bus.store ∧
      TellsAll owner id begun next := by
    rw [same]
    cases action with
    | connect urandom =>
        refine ⟨{ bus with urandom := urandom, sent := [] }, rfl, rfl, ?_⟩
        rw [Bus.act, Bus.ubusdProtoNewClient]
        split
        · exact Tells.all (Tells.silent rfl rfl) fun _ live => live
        · exact Tells.all (Tells.quiet (Emits.after
            (Emits.send (@quiet_code .hello (by decide))) rfl rfl) rfl)
              fun _ live => live
    | receive cl ub urandom =>
        exact ⟨{ bus with urandom := urandom, sent := [] }, rfl, rfl,
          tells_ubusdProtoReceiveMessage cl ub settled subs⟩
    | disconnect cl =>
        exact ⟨{ bus with sent := [] }, rfl, rfl,
          tells_ubusdProtoFreeClient cl settled subs⟩
  obtain ⟨begun, nothing, store, told, tells, isTold⟩ := all
  obtain ⟨msgs, sent, flags, isUnsubscribe⟩ := tells.sent
  rw [nothing, List.nil_append] at sent
  rw [store] at flags isTold
  rw [sent, isUnsubscribe]
  exact ⟨flags, isTold⟩

end LibubusJni.Subscribers
