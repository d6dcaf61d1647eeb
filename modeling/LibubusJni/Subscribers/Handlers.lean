import LibubusJni.Subscribers.Daemon
import LibubusJni.Ubusd.EventObject

/-!
# What the handlers of ubusd say about subscriptions

Three of them link and unlink subscriptions, and one of these ends an object;
the others leave all subscriptions as they are and send nothing about them.
-/

namespace LibubusJni.Subscribers

open LibubusJni.Libubox LibubusJni.Ubusd

variable {owner : Ptr} {id : UInt32} {store next : ObjStore} {bus : Bus}

/-! ## New objects -/

theorem quiet_newObjectType (bytes : List UInt8) (attr : AttrTable) :
    QuietTo bus (bus.newObjectType bytes attr).1 := by
  rw [Bus.newObjectType]
  split
  · rw [Bus.ubusGetObjType]
    split
    · exact Emits.silent rfl rfl
    · exact Emits.silent rfl rfl
  · rw [Bus.ubusCreateObjType]
    split
    · exact Emits.silent rfl rfl
    · exact Emits.silent rfl rfl
  · exact Emits.silent rfl rfl

theorem quiet_create (type : Option Ptr) :
    QuietTo bus ((bus.ubusdCreateObjectInternal type).1.unrefType type) := by
  have created : QuietTo bus (bus.ubusdCreateObjectInternal type).1 := by
    rw [Bus.ubusdCreateObjectInternal]
    split
    · exact Emits.silent rfl rfl
    · exact Emits.silent rfl rfl
  refine created.trans ?_
  cases type with
  | none =>
      exact Emits.silent rfl rfl
  | some type =>
      exact Emits.silent rfl rfl

theorem quiet_registerPath {obj : Ptr} {placed : Bus} (bytes : List UInt8)
    (attr : AttrTable)
    (registered : bus.registerPath bytes attr obj = some placed) :
    QuietTo bus placed := by
  rw [Bus.registerPath] at registered
  split at registered
  · rw [Option.some.inj registered]
    exact Emits.silent rfl rfl
  · split at registered
    · exact absurd registered (Option.some_ne_none placed).symm
    · rw [← Option.some.inj registered]
      exact Emits.after (quiet_ubusdSendObjEvent obj true) rfl rfl

/-- An object without subscriptions ends. -/
theorem quiet_ubusdFreeObject {obj : Ptr}
    (noTargets : (bus.store.objectAt obj).targetList = [])
    (noSubscribers : (bus.store.objectAt obj).subscribers = []) :
    QuietTo bus (bus.ubusdFreeObject obj) := by
  have targets : bus.dropTargets obj = bus := by
    rw [Bus.dropTargets, noTargets]
    rfl
  have subscribers : bus.dropSubscribers obj = bus := by
    rw [Bus.dropSubscribers, noSubscribers]
    rfl
  have quiet := quiet_endObject bus obj
  rw [targets, subscribers] at quiet
  exact quiet

theorem quiet_ubusdCreateObject (cl : Ptr) (bytes : List UInt8)
    (attr : AttrTable) (linked : Linked none none bus.store)
    (allocated : Allocated bus.store) :
    QuietTo bus (bus.ubusdCreateObject cl bytes attr).1 := by
  have made : QuietTo bus _ := (quiet_newObjectType bytes attr).trans
    (quiet_create (bus.newObjectType bytes attr).2)
  have newType := bus.newObjectType_newType bytes attr
  rw [Bus.ubusdCreateObject]
  split
  · exact made
  · rename_i obj created
    have facts := (Bus.create_young _ newType created).youngObject linked
      allocated
    split
    · exact made.trans (quiet_ubusdFreeObject facts.blank.2.1 facts.blank.2.2.1)
    · rename_i placed registered
      exact (made.trans (quiet_registerPath bytes attr registered)).trans
        (Emits.silent rfl rfl)

/-- An object is made and the others stay. -/
theorem isActive_of_others {made : ObjStore} {obj : Ptr}
    (facts : YoungObject store made obj)
    (subscribers : ∀ ptr, (next.objectAt ptr).subscribers =
      (made.objectAt ptr).subscribers)
    (others : ∀ ptr, ptr ≠ obj →
      (next.objectAt ptr).client = (made.objectAt ptr).client ∧
        (next.objectAt ptr).id = (made.objectAt ptr).id ∧
          (ptr ∈ next.objects ↔ ptr ∈ made.objects)) :
    isActive next owner id = isActive store owner id := by
  have blank : (next.objectAt obj).subscribers = [] := by
    rw [subscribers]
    exact facts.blank.2.2.1
  have same : ∀ ptr, ptr ≠ obj →
      (next.objectAt ptr).client = (store.objectAt ptr).client ∧
        (next.objectAt ptr).id = (store.objectAt ptr).id ∧
          (next.objectAt ptr).subscribers = (store.objectAt ptr).subscribers ∧
            (ptr ∈ next.objects ↔ ptr ∈ store.objects) := by
    intro ptr other
    obtain ⟨client, sameId, objects⟩ := others ptr other
    rw [client, sameId, subscribers, objects, facts.others ptr other,
      facts.objects, or_iff_right other]
    exact ⟨rfl, rfl, rfl, Iff.rfl⟩
  refine isActive_congr ?_ ?_
  · intro ptr own isId live subscribed
    obtain ⟨client, sameId, list, membership⟩ :=
      same ptr fun isNew => facts.fresh (isNew ▸ live)
    rw [client, sameId, list]
    exact ⟨membership.mpr live, own, isId, subscribed⟩
  · intro ptr own isId live subscribed
    obtain ⟨client, sameId, list, membership⟩ :=
      same ptr fun isNew => subscribed (isNew ▸ blank)
    rw [client] at own
    rw [sameId] at isId
    rw [list] at subscribed
    exact ⟨membership.mp live, own, isId, subscribed⟩

theorem isActive_of_makeMove {cl : Ptr} (move : MakeMove cl store next)
    (linked : Linked none none store) (allocated : Allocated store) :
    isActive next owner id = isActive store owner id := by
  cases move with
  | abandoned typed type newType =>
      obtain ⟨_, _, frame⟩ := newType.frame linked allocated
      rw [unrefType_frame, frame]
      rfl
  | discarded made obj young =>
      have facts := young.youngObject linked allocated
      have noLinks : made.linksOf obj = [] := by
        rw [ObjStore.linksOf, facts.blank.2.1, facts.blank.2.2.1]
        rfl
      refine isActive_of_others facts (fun ptr => ?_) fun ptr other => ?_
      · rw [freeObject_eq, dropLinks_eq, noLinks]
        exact List.filter_eq_self.mpr fun _ _ => decide_eq_true List.not_mem_nil
      · rw [freeObject_eq, dropLinks_eq]
        exact ⟨rfl, rfl, mem_avlDelete.trans (and_iff_left other)⟩
  | created made obj young =>
      have facts := young.youngObject linked allocated
      refine isActive_of_others facts (fun ptr => ?_) fun ptr other => ?_
      · simp [ObjStore.setOwner]
      · have object : (made.setOwner obj cl).objectAt ptr = made.objectAt ptr :=
          Function.update_of_ne other _ _
        rw [object]
        exact ⟨rfl, rfl, Iff.rfl⟩
  | createdAt made placed obj key young inserted =>
      have facts := young.youngObject linked allocated
      obtain ⟨tree, isPlaced, _⟩ := insertPath_some inserted
      rw [isPlaced]
      refine isActive_of_others facts (fun ptr => ?_) fun ptr other => ?_
      · simp [ObjStore.setOwner, ObjStore.addPath]
      · have object : ((made.addPath obj key tree).setOwner obj cl).objectAt
            ptr = made.objectAt ptr :=
          (Function.update_of_ne other _ _).trans
            (Function.update_of_ne other _ _)
        rw [object]
        exact ⟨rfl, rfl, Iff.rfl⟩

theorem tells_handleAddObject (cl : Ptr) (ub : BusRequest)
    (linked : Linked none none bus.store) (allocated : Allocated bus.store) :
    Tells owner id [] bus (bus.ubusdHandleAddObject cl ub).1 := by
  have answer := @quiet_code .data (by decide)
  refine Tells.quiet ?_ (isActive_of_makeMove (bus.handleAddObject_move cl ub)
    linked allocated)
  have made := quiet_ubusdCreateObject cl ub.bytes ub.attr linked allocated
  rw [Bus.ubusdHandleAddObject]
  split
  · rename_i next created
    rw [created] at made
    exact made
  · rename_i next obj created
    rw [created] at made
    dsimp only
    split
    · exact made.trans (Emits.sendBlob answer)
    · exact made.trans (Emits.dies trivial)
    · exact made.trans (Emits.sendBlob answer)

/-! ## Events of clients -/

theorem tells_ubusdAllocEventPattern (cl : Ptr) (bytes : List UInt8)
    (msg : Nat) :
    Tells owner id [] bus (bus.ubusdAllocEventPattern cl bytes msg).1 := by
  rw [Bus.ubusdAllocEventPattern]
  dsimp only
  split
  · split
    · exact Tells.silent rfl rfl
    · split
      · exact Tells.silent rfl rfl
      · split
        · exact Tells.silent rfl rfl
        · exact Tells.silent rfl (by simp [isActive, ObjStore.addSource])
  · exact Tells.silent rfl rfl

theorem tells_ubusdEventRecv (cl : Ptr) (method bytes : List UInt8)
    (msg : Option Nat) :
    Tells owner id [] bus (bus.ubusdEventRecv cl method bytes msg).1 := by
  rw [Bus.ubusdEventRecv.eq_def]
  split
  · split
    · exact Tells.silent rfl rfl
    · exact tells_ubusdAllocEventPattern cl bytes _
  · split
    · split
      · exact Tells.silent rfl rfl
      · refine Tells.quiet ?_ (by rw [Bus.store_ubusdForwardEvent])
        rw [Bus.ubusdForwardEvent]
        split
        · dsimp only
          split
          · exact Emits.silent rfl rfl
          · exact Emits.after (quiet_sendEventFrom _ _ _ _ 0) rfl rfl
        · exact Emits.silent rfl rfl
    · exact Tells.silent rfl rfl

theorem quiet_ubusdForwardInvoke (cl : Ptr) (ub : BusRequest)
    (front : List (List UInt8)) (obj : Ptr) (method : Nat) :
    QuietTo bus (bus.ubusdForwardInvoke cl ub front obj method) := by
  have forward := @quiet_code .invoke (by decide)
  rw [Bus.ubusdForwardInvoke]
  dsimp only
  split
  · exact Emits.dies trivial
  · cases own : (bus.store.objectAt obj).client with
    | none =>
        exact Emits.after (Emits.dies trivial) rfl rfl
    | some receiver =>
        exact Emits.sendBlob forward

theorem tells_handleInvoke (cl : Ptr) (ub : BusRequest) :
    Tells owner id [] bus (bus.ubusdHandleInvoke cl ub).1 := by
  rw [Bus.ubusdHandleInvoke]
  dsimp only
  split
  · split
    · exact Tells.silent rfl rfl
    · split
      · split
        · exact tells_ubusdEventRecv cl _ _ _
        · exact Tells.silent rfl rfl
      · exact Tells.quiet (quiet_ubusdForwardInvoke cl ub _ _ _)
          (by rw [Bus.store_ubusdForwardInvoke])
  · exact Tells.silent rfl rfl

/-! ## Answers -/

theorem tells_handleLookup (cl : Ptr) (ub : BusRequest) :
    Tells owner id [] bus (bus.ubusdHandleLookup cl ub).1 := by
  have answer := @quiet_code .data (by decide)
  refine Tells.quiet (bus.emits_handleLookup cl ub trivial
    (fun _ _ _ => trivial) fun _ _ _ _ _ _ => answer) ?_
  rw [Bus.handleLookup_store]

theorem tells_handleResponse (cl : Ptr) (ub : BusRequest)
    (isResponse : ub.hdr.type = UbusMsgType.status.code ∨
      ub.hdr.type = UbusMsgType.data.code) :
    Tells owner id [] bus (bus.ubusdHandleResponse cl ub).1 := by
  refine Tells.quiet (bus.emits_handleResponse cl ub fun _ _ _ _ => ?_) ?_
  · rcases isResponse with status | data
    · rw [Quiet, status]
      exact quiet_code (by decide)
    · rw [Quiet, data]
      exact quiet_code (by decide)
  · rw [Bus.handleResponse_store]

theorem tells_handleNotify (cl : Ptr) (ub : BusRequest)
    (addressed : Addressed bus.store) :
    Tells owner id [] bus (bus.ubusdHandleNotify cl ub).1 := by
  refine Tells.quiet (bus.emits_handleNotify cl ub addressed trivial ?_ ?_) ?_
  · exact fun _ _ _ _ _ => @quiet_code .status (by decide)
  · exact fun _ _ _ _ _ _ _ _ _ => @quiet_code .invoke (by decide)
  · rw [Bus.handleNotify_store]

/-! ## Subscriptions -/

theorem tells_handleAddWatch (cl : Ptr) (ub : BusRequest)
    (linked : Linked none none bus.store) :
    Tells owner id [] bus (bus.ubusdHandleAddWatch cl ub).1 := by
  rw [Bus.ubusdHandleAddWatch]
  split
  · split
    · exact Tells.silent rfl rfl
    · split
      · exact Tells.silent rfl rfl
      · split
        · exact Tells.silent rfl rfl
        · rename_i target found
          split
          · exact Tells.silent rfl rfl
          · exact tells_ubusSubscribe linked (bus.findObjectOf_some ub found).1
  · exact Tells.silent rfl rfl

theorem tells_handleRemoveWatch (cl : Ptr) (ub : BusRequest)
    (linked : Linked none none bus.store) :
    Tells owner id [] bus (bus.ubusdHandleRemoveWatch cl ub).1 := by
  rw [Bus.ubusdHandleRemoveWatch]
  dsimp only
  split
  · split
    · exact Tells.silent rfl rfl
    · rename_i obj _
      split
      · exact Tells.silent rfl rfl
      · split
        · exact Tells.silent rfl rfl
        · rename_i s found
          have onList := List.mem_of_find?_eq_some found
          exact tells_ubusUnsubscribe linked
            (linked.subscriptions.atSource obj s onList).2.2.2
  · exact Tells.silent rfl rfl

/-! ## The objects that go -/

/-- The subscriptions that are left of the objects that go between two
states. -/
def endedSubscriptions (store next : ObjStore) : List Ptr :=
  (store.objects.filter (· ∉ next.objects)).flatMap fun obj =>
    (store.objectAt obj).subscribers

/-- `Tells`, where the UNSUBSCRIBE messages are those of the subscriptions to
the objects that go. -/
def TellsAll (owner : Ptr) (id : UInt32) (bus next : Bus) : Prop :=
  ∃ told, Tells owner id told bus next ∧
    told.Perm ((endedSubscriptions bus.store next.store).map
      (unsubscribeOf bus.store))

/-- No object goes. -/
theorem Tells.all {next : Bus} (tells : Tells owner id [] bus next)
    (kept : bus.store.objects ⊆ next.store.objects) :
    TellsAll owner id bus next := by
  have none : bus.store.objects.filter (· ∉ next.store.objects) = [] :=
    List.filter_eq_nil_iff.mpr fun obj live gone =>
      of_decide_eq_true gone (kept live)
  refine ⟨[], tells, ?_⟩
  rw [endedSubscriptions, none]
  exact List.Perm.refl _

/-- These objects go. -/
theorem ended_perm {objs : List Ptr} (once : store.objects.Nodup)
    (objsOnce : objs.Nodup) (live : objs ⊆ store.objects)
    (freed : ∀ obj, obj ∈ next.objects ↔ obj ∈ store.objects ∧ obj ∉ objs) :
    (objs.flatMap fun obj => (store.objectAt obj).subscribers).Perm
      (endedSubscriptions store next) := by
  refine List.Perm.flatMap_right _ ?_
  refine (List.perm_ext_iff_of_nodup objsOnce (once.filter _)).mpr fun obj => ?_
  rw [List.mem_filter, decide_eq_true_iff, freed]
  constructor
  · exact fun member => ⟨live member, fun stays => stays.2 member⟩
  · rintro ⟨isLive, gone⟩
    by_contra notGone
    exact gone ⟨isLive, notGone⟩

theorem objects_ubusdEventRecv (cl : Ptr) (method bytes : List UInt8)
    (msg : Option Nat) :
    (bus.ubusdEventRecv cl method bytes msg).1.store.objects =
      bus.store.objects := by
  rw [Bus.ubusdEventRecv.eq_def]
  split
  · split
    · rfl
    · rw [Bus.ubusdAllocEventPattern]
      dsimp only
      split
      · split
        · rfl
        · split
          · rfl
          · split
            · rfl
            · rfl
      · rfl
  · split
    · split
      · rfl
      · rw [Bus.store_ubusdForwardEvent]
    · rfl

theorem objects_handleInvoke (cl : Ptr) (ub : BusRequest) :
    (bus.ubusdHandleInvoke cl ub).1.store.objects = bus.store.objects := by
  rw [Bus.ubusdHandleInvoke]
  dsimp only
  split
  · split
    · rfl
    · split
      · split
        · exact objects_ubusdEventRecv cl _ _ _
        · rfl
      · rw [Bus.store_ubusdForwardInvoke]
  · rfl

theorem objects_handleAddWatch (cl : Ptr) (ub : BusRequest) :
    (bus.ubusdHandleAddWatch cl ub).1.store.objects = bus.store.objects := by
  rw [Bus.ubusdHandleAddWatch]
  split
  · split
    · rfl
    · split
      · rfl
      · split
        · rfl
        · split
          · rfl
          · rw [Bus.store_ubusSubscribe]
            rfl
  · rfl

theorem objects_handleRemoveWatch (cl : Ptr) (ub : BusRequest) :
    (bus.ubusdHandleRemoveWatch cl ub).1.store.objects = bus.store.objects := by
  rw [Bus.ubusdHandleRemoveWatch]
  dsimp only
  split
  · split
    · rfl
    · split
      · rfl
      · split
        · rfl
        · rw [Bus.store_ubusUnsubscribe]
          rfl
  · rfl

/-- No object goes while another is made. -/
theorem objects_of_makeMove {cl : Ptr} (move : MakeMove cl store next)
    (linked : Linked none none store) (allocated : Allocated store) :
    store.objects ⊆ next.objects := by
  cases move with
  | abandoned typed type newType =>
      obtain ⟨_, _, frame⟩ := newType.frame linked allocated
      rw [unrefType_frame, frame]
      exact fun _ live => live
  | discarded made obj young =>
      have facts := young.youngObject linked allocated
      intro other live
      rw [freeObject_eq]
      exact mem_avlDelete.mpr ⟨(facts.objects other).mpr (Or.inr live),
        fun isNew => facts.fresh (isNew ▸ live)⟩
  | created made obj young =>
      have facts := young.youngObject linked allocated
      exact fun other live => (facts.objects other).mpr (Or.inr live)
  | createdAt made placed obj key young inserted =>
      have facts := young.youngObject linked allocated
      obtain ⟨tree, isPlaced, _⟩ := insertPath_some inserted
      rw [isPlaced]
      exact fun other live => (facts.objects other).mpr (Or.inr live)

theorem tells_handleRemoveObject (cl : Ptr) (ub : BusRequest)
    (settled : Settled bus.store) (subs : SubsInv bus.store) :
    TellsAll owner id bus (bus.ubusdHandleRemoveObject cl ub).1 := by
  have nothing : TellsAll owner id bus bus :=
    Tells.all (Tells.silent rfl rfl) fun _ live => live
  have answer := @quiet_code .data (by decide)
  rw [Bus.ubusdHandleRemoveObject]
  dsimp only
  split
  · exact nothing
  · split
    · exact nothing
    · rename_i obj found
      split
      · exact nothing
      · dsimp only
        generalize blobPutInt32 UbusMsgAttr.objid.id
          (bus.store.objectAt obj).id :: _ = attrs
        have freed := @tells_ubusdFreeObject owner id none none
          (bus.blobBufInit attrs) settled.linked settled.addressed subs obj
        have answered : Tells owner id []
            ((bus.blobBufInit attrs).ubusdFreeObject obj)
            (((bus.blobBufInit attrs).ubusdFreeObject obj).ubusSendMsgFromBlob
              (some cl) ub.hdr .data) :=
          Tells.quiet (Emits.send answer) rfl
        have both : Tells owner id _ bus _ :=
          (freed.trans answered).after rfl rfl
        rw [List.append_nil] at both
        refine ⟨_, both, ?_⟩
        have live := (bus.findObjectOf_some ub found).1
        have gone := @ended_perm bus.store (bus.store.freeObject obj) [obj]
          settled.linked.once (List.nodup_singleton obj)
          (fun other member => List.mem_singleton.mp member ▸ live)
          fun other => by
            rw [freeObject_eq, mem_avlDelete, List.mem_singleton]
        rw [List.flatMap_singleton] at gone
        rw [Bus.store_ubusSendMsgFromBlob, Bus.store_ubusdFreeObject]
        exact gone.map _

/-! ## Every message -/

theorem tells_handle (cl : Ptr) (ub : BusRequest) (settled : Settled bus.store)
    (subs : SubsInv bus.store) {type : UbusMsgType}
    (isType : UbusMsgType.ofCode? ub.hdr.type = some type) :
    TellsAll owner id bus (bus.handle cl ub type).1 := by
  have response := type_of_ofCode isType
  cases type with
  | hello =>
      exact Tells.all (Tells.silent rfl rfl) fun _ live => live
  | ping =>
      exact Tells.all (Tells.quiet (Emits.send (@quiet_code .data (by decide)))
        rfl) fun _ live => live
  | addObject =>
      exact (tells_handleAddObject cl ub settled.linked settled.allocated).all
        (objects_of_makeMove (bus.handleAddObject_move cl ub) settled.linked
          settled.allocated)
  | removeObject =>
      exact tells_handleRemoveObject cl ub settled subs
  | lookup =>
      refine (tells_handleLookup cl ub).all ?_
      rw [Bus.handleLookup_store]
      exact fun _ live => live
  | invoke =>
      refine (tells_handleInvoke cl ub).all ?_
      rw [objects_handleInvoke]
      exact fun _ live => live
  | status =>
      refine (tells_handleResponse cl ub (Or.inl response)).all ?_
      rw [Bus.handleResponse_store]
      exact fun _ live => live
  | data =>
      refine (tells_handleResponse cl ub (Or.inr response)).all ?_
      rw [Bus.handleResponse_store]
      exact fun _ live => live
  | subscribe =>
      refine (tells_handleAddWatch cl ub settled.linked).all ?_
      rw [objects_handleAddWatch]
      exact fun _ live => live
  | unsubscribe =>
      refine (tells_handleRemoveWatch cl ub settled.linked).all ?_
      rw [objects_handleRemoveWatch]
      exact fun _ live => live
  | notify =>
      refine (tells_handleNotify cl ub settled.addressed).all ?_
      rw [Bus.handleNotify_store]
      exact fun _ live => live

/-- The answer to a message is no notice. -/
theorem TellsAll.sendStatus {next : Bus} (tells : TellsAll owner id bus next)
    (cl : Ptr) (ub : BusRequest) (ret : UInt32) :
    TellsAll owner id bus (next.sendStatus cl ub ret) := by
  obtain ⟨told, sent, isTold⟩ := tells
  have answered : Tells owner id [] next (next.sendStatus cl ub ret) :=
    Tells.quiet (next.emits_sendStatus cl ub ret
      (@quiet_code .status (by decide))) (by rw [Bus.store_sendStatus])
  have both := sent.trans answered
  rw [List.append_nil] at both
  refine ⟨told, both, ?_⟩
  rw [Bus.store_sendStatus]
  exact isTold

theorem tells_ubusdProtoReceiveMessage (cl : Ptr) (ub : BusRequest)
    (settled : Settled bus.store) (subs : SubsInv bus.store) :
    TellsAll owner id bus (bus.ubusdProtoReceiveMessage cl ub) := by
  rw [Bus.ubusdProtoReceiveMessage]
  cases isType : UbusMsgType.ofCode? ub.hdr.type with
  | none =>
      have silent : TellsAll owner id bus bus :=
        Tells.all (Tells.silent rfl rfl) fun _ live => live
      exact silent.sendStatus cl ub _
  | some type =>
      have before : TellsAll owner id bus (bus.handle cl ub type).1 :=
        tells_handle cl ub settled subs isType
      dsimp only
      split
      · exact before
      · exact before.sendStatus cl ub _

end LibubusJni.Subscribers
