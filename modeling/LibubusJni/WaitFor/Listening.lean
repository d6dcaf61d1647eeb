import LibubusJni.Ubusd.Isolation
import LibubusJni.WaitFor.Daemon

/-!
# Events about new objects

The registration gives the object of the command a pattern.  From then on each
path that others register comes with an event for it.
-/

namespace LibubusJni.WaitFor

open LibubusJni.Libubox LibubusJni.Ubusd

variable {bus : Bus} {client cl : Ptr} {ub : BusRequest} {objid : UInt32}

/-- An object of the client has a pattern that matches the event. -/
def Listening (store : ObjStore) (cl : Ptr) (objid : UInt32) : Prop :=
  ∃ ev ∈ store.patterns,
    (store.sourceAt ev).matches (ascii "ubus.object.add") = true ∧
      (store.objectAt (store.sourceAt ev).obj).client = some cl ∧
        (store.objectAt (store.sourceAt ev).obj).id = objid

/-- The event for this object that this path is there. -/
def Tells (cl : Ptr) (objid : UInt32) (path : List UInt8) (msg : BusMsg) :
    Prop :=
  msg.client = cl ∧ msg.hdr.type = UbusMsgType.invoke.code ∧
    ∃ id, msg.data = Bus.msgFromBlob
      (blobPutInt32 UbusMsgAttr.objid.id objid :: objEventAttrs id path true)

theorem Tells.isEvent {path : List UInt8} {msg : BusMsg}
    (tells : Tells cl objid path msg) (fits : PathFits path) :
    IsEvent objid path msg := by
  obtain ⟨_, type, id, isData⟩ := tells
  exact isEvent_copy fits type isData

/-! ## Requests of others -/

/-- Objects of others keep their patterns. -/
theorem Listening.kept {store next : ObjStore}
    (listening : Listening store cl objid) (linked : Linked none none store)
    (others : ∀ obj ∈ store.objects, (store.objectAt obj).client = some cl →
      Untouched client store next obj) : Listening next cl objid := by
  obtain ⟨ev, inTree, isMatch, own, isId⟩ := listening
  have untouched := others _ (linked.sourceLive ev inTree) own
  have onList := (linked.sources.listed (store.sourceAt ev).obj ev).mpr
    ⟨inTree, rfl⟩
  have source := untouched.kept.sources ev onList
  refine ⟨ev, untouched.patterns ev onList, ?_, ?_, ?_⟩
  · rw [source]
    exact isMatch
  · rw [source, untouched.kept.record]
    exact own
  · rw [source, untouched.kept.record]
    exact isId

theorem exists_of_forall₂ {Item Copy : Type} {isCopy : Item → Copy → Prop}
    {items : List Item} {copies : List Copy}
    (all : List.Forall₂ isCopy items copies) {item : Item}
    (member : item ∈ items) : ∃ copy ∈ copies, isCopy item copy := by
  induction all with
  | nil =>
      exact absurd member List.not_mem_nil
  | cons first _ inductionHypothesis =>
      rcases List.mem_cons.mp member with isFirst | later
      · exact ⟨_, List.mem_cons_self, isFirst ▸ first⟩
      · obtain ⟨copy, isLater, found⟩ := inductionHypothesis later
        exact ⟨copy, List.mem_cons_of_mem _ isLater, found⟩

/-- `ubusd_send_obj_event` sends the event to the object. -/
theorem sendObjEvent_tells (sorted : TreesSorted bus.store) (seen : Seen bus)
    (running : bus.fault = none)
    (owned : ∀ ev ∈ bus.store.patterns,
      (bus.store.objectAt (bus.store.sourceAt ev).obj).client.isSome)
    (listening : Listening bus.store cl objid) (obj : Ptr) :
    ∃ msg ∈ (bus.ubusdSendObjEvent obj true).sent,
      Tells cl objid (bus.store.pathKey obj) msg := by
  obtain ⟨ev, inTree, isMatch, own, isId⟩ := listening
  have ready : ∀ other ∈ matchingObjects bus.store (ascii "ubus.object.add"),
      (bus.store.objectAt other).client.isSome := by
    intro other member
    obtain ⟨source, inTree, same, _⟩ := mem_matchingObjects.mp member
    rw [← same]
    exact owned source inTree
  have found := @Bus.foldl_ubusdSendEventMsg_some
    { bus with objEventSeq := bus.objEventSeq + 1 } none
    (matchingObjects bus.store (ascii "ubus.object.add"))
    (objEventAttrs (bus.store.objectAt obj).id (bus.store.pathKey obj) true)
    running ready
  obtain ⟨objs, msgs, _, exactly, _, sent, copies⟩ := found
  have event : bus.ubusdSendObjEvent obj true = _ :=
    ubusdSendEvent_eq sorted none (ascii "ubus.object.add")
      (some (objEventAttrs (bus.store.objectAt obj).id (bus.store.pathKey obj)
        true))
  have isFound : (bus.store.sourceAt ev).obj ∈ objs := by
    refine (exactly _).mpr
      ⟨mem_matchingObjects.mpr ⟨ev, inTree, rfl, isMatch⟩, ?_⟩
    refine (eligible_new seen none _).mpr ?_
    rw [own]
    exact Option.some_ne_none cl
  obtain ⟨msg, member, copy⟩ := exists_of_forall₂ copies isFound
  obtain ⟨toClient, type, _, isData⟩ := copy
  refine ⟨msg, ?_, ?_, type, (bus.store.objectAt obj).id, ?_⟩
  · rw [event, sent]
    exact List.mem_append_right _ member
  · exact Option.some.inj (toClient.symm.trans own)
  · rw [isData]
    exact congrArg (fun id => Bus.msgFromBlob
      (blobPutInt32 UbusMsgAttr.objid.id id :: _)) isId

/-! ## New paths -/

/-- A path that is registered now was registered before, or the event for it
has been sent. -/
def Announces (cl : Ptr) (objid : UInt32) (bus next : Bus) : Prop :=
  ∀ path, Registered next.store path →
    Registered bus.store path ∨ ∃ msg ∈ next.sent, Tells cl objid path msg

section Placed

variable {store : ObjStore} {made placed : Bus} {obj : Ptr} {attr : AttrTable}
  {bytes : List UInt8}

/-- A new object is none of those in the tree. -/
theorem Registered.ofYoung {path : List UInt8}
    (facts : YoungObject store made.store obj)
    (linked : Linked none none store)
    (registered : Registered made.store path) : Registered store path := by
  refine registered.kept (fun other inTree => facts.path ▸ inTree) ?_
  intro other inTree
  rw [facts.path] at inTree
  have old : other ≠ obj := fun isNew =>
    facts.fresh (isNew ▸ ((linked.registered other).mp inTree).1)
  rw [ObjStore.pathKey, facts.others other old, ObjStore.pathKey]

theorem Listening.young (listening : Listening store cl objid)
    (facts : YoungObject store made.store obj)
    (linked : Linked none none store)
    (patterns : made.store.patterns = store.patterns) :
    Listening made.store cl objid := by
  obtain ⟨ev, inTree, isMatch, own, isId⟩ := listening
  have old : (store.sourceAt ev).obj ≠ obj := fun isNew =>
    facts.fresh (isNew ▸ linked.sourceLive ev inTree)
  refine ⟨ev, patterns ▸ inTree, ?_⟩
  rw [facts.sourceAt, facts.others _ old]
  exact ⟨isMatch, own, isId⟩

/-- Where the new object gets its path, the event is sent. -/
theorem registerPath_announces (facts : YoungObject store made.store obj)
    (linked : Linked none none store) (sorted : TreesSorted made.store)
    (seen : Seen made) (running : made.fault = none)
    (listening : Listening made.store cl objid)
    (registers : made.registerPath bytes attr obj = some placed) :
    ∀ path, Registered placed.store path →
      Registered made.store path ∨
        ∃ msg ∈ placed.sent, Tells cl objid path msg := by
  rw [Bus.registerPath] at registers
  split at registers
  · rw [← Option.some.inj registers]
    exact fun path registered => Or.inl registered
  · rename_i objpath _
    split at registers
    · exact absurd registers (Option.some_ne_none placed).symm
    · rename_i next inserted
      have absent : obj ∉ made.store.path := by
        intro inTree
        rw [facts.path] at inTree
        exact facts.fresh ((linked.registered obj).mp inTree).1
      have nextSorted := sorted.insertPath absent inserted
      obtain ⟨tree, isNext, perm, _⟩ := insertPath_some inserted
      have nextListening : Listening next cl objid := by
        obtain ⟨ev, inTree, isMatch, own, isId⟩ := listening
        refine ⟨ev, ?_, ?_, ?_, ?_⟩
        all_goals simpa [isNext, ObjStore.addPath]
      have owned := (facts.linked.insertPath
        ((facts.objects obj).mpr (Or.inl rfl)) facts.blank.1
        inserted).sourceOwned
      obtain ⟨msg, member, tells⟩ := @sendObjEvent_tells
        { made with store := next } cl objid nextSorted (seen.of_eq rfl rfl)
        running owned nextListening obj
      rw [← Option.some.inj registers, Bus.store_ubusdSendObjEvent]
      rintro path ⟨other, inNext, isPath⟩
      by_cases isNew : other = obj
      · rw [isNew] at isPath
        exact Or.inr ⟨msg, member, isPath ▸ tells⟩
      · have inTree : other ∈ made.store.path := by
          rw [isNext] at inNext
          exact (List.mem_cons.mp (perm.mem_iff.mp inNext)).resolve_left isNew
        refine Or.inl ⟨other, inTree, ?_⟩
        rw [← isPath]
        dsimp only
        rw [ObjStore.pathKey, ObjStore.pathKey, isNext, ObjStore.addPath]
        dsimp only
        rw [ObjStore.objectAt_modifyObject, Function.update_of_ne isNew]

end Placed

/-- So is that of each object that a request adds. -/
theorem create_announces (sound : Sound bus) (running : bus.fault = none)
    (listening : Listening bus.store cl objid) (bytes : List UInt8)
    (attr : AttrTable) :
    Announces cl objid bus (bus.ubusdCreateObject client bytes attr).1 := by
  have linked := sound.settled.linked
  have allocated := sound.settled.allocated
  have newType := bus.newObjectType_newType bytes attr
  have quiet : Notifies (Bus.AsksPath bytes attr) bus _ :=
    (bus.notifies_newObjectType bytes attr).trans
      (Bus.notifies_create _ (bus.newObjectType bytes attr).2)
  have seen := ((sound.seen.newObjectType bytes attr).ubusdCreateObjectInternal
    (bus.newObjectType bytes attr).2).unrefType (bus.newObjectType bytes attr).2
  rw [Bus.ubusdCreateObject]
  split
  · rename_i noId
    intro path registered
    have frame := (newType.frame linked allocated).2.2
    rw [Bus.store_unrefType, Bus.create_none _ noId, unrefType_frame, frame]
      at registered
    exact Or.inl registered
  · rename_i obj created
    have young := Bus.create_young _ newType created
    have facts := young.youngObject linked allocated
    have patterns := young.patterns linked allocated
    split
    · intro path registered
      rw [Bus.store_ubusdFreeObject] at registered
      exact Or.inl ((registered.ofKept (treesKept_freeObject _ obj)).ofYoung
        facts linked)
    · rename_i placed registers
      have announces := registerPath_announces facts linked
        (facts.treesSorted linked sound.sorted patterns) seen
        (quiet.fault.trans running) (listening.young facts linked patterns)
        registers
      intro path registered
      rcases announces path (registered.ofKept
        (treesKept_setOwner placed.store obj client)) with old | told
      · exact Or.inl (old.ofYoung facts linked)
      · exact Or.inr told

/-- Of all that clients ask for only an object adds a path. -/
theorem LinkMove.registered {watched : Ptr → Prop} {store next : ObjStore}
    (move : LinkMove client watched store next) {path : List UInt8}
    (registered : Registered next path) : Registered store path := by
  cases move with
  | keep =>
      exact registered
  | removed obj live own =>
      exact registered.ofKept (treesKept_freeObject store obj)
  | subscribed obj target live own targetLive isWatched =>
      exact registered.kept (fun _ inTree => inTree) fun other _ => by
        simp [ObjStore.pathKey, ObjStore.addSubscription]
  | unsubscribed obj s live own onList =>
      exact registered
  | registered obj key isPartial live own =>
      exact registered.kept (fun _ inTree => inTree) fun other _ => by
        simp [ObjStore.pathKey, ObjStore.addSource]

theorem registered_before {path : List UInt8} {type : UbusMsgType}
    (isType : UbusMsgType.ofCode? ub.hdr.type = some type)
    (notAdd : type ≠ .addObject)
    (registered : Registered (bus.ubusdProtoReceiveMessage client ub).store
      path) : Registered bus.store path := by
  rw [Bus.store_ubusdProtoReceiveMessage, isType] at registered
  exact LinkMove.registered (bus.handle_link client ub type notAdd) registered

/-- The answer comes behind the events. -/
theorem sent_handleAddObject :
    (bus.ubusdCreateObject client ub.bytes ub.attr).1.sent <+:
      (bus.ubusdHandleAddObject client ub).1.sent := by
  rw [Bus.ubusdHandleAddObject]
  split
  · rename_i next created
    have same : (bus.ubusdCreateObject client ub.bytes ub.attr).1 = next :=
      congrArg Prod.fst created
    exact ⟨[], by rw [same, List.append_nil]⟩
  · rename_i next obj created
    rw [created]
    dsimp only
    split
    · exact List.prefix_append _ _
    · exact List.prefix_refl _
    · exact List.prefix_append _ _

/-- A path that a request of another client registers is announced. -/
theorem other_announces (sound : Sound bus) (running : bus.fault = none)
    (listening : Listening bus.store cl objid) (asks : AddsOrRemoves ub) :
    Announces cl objid bus (bus.ubusdProtoReceiveMessage client ub) := by
  rcases asks.2 with isAdd | isRemove
  · have announces := @create_announces bus client cl objid sound running
      listening ub.bytes ub.attr
    obtain ⟨_, returns⟩ := @answersOnly_handleAddObject bus client ub
      sound.settled
    obtain ⟨ret, returns⟩ := Option.isSome_iff_exists.mp returns
    intro path registered
    rw [Bus.store_ubusdProtoReceiveMessage, isAdd] at registered
    dsimp only at registered
    rw [Bus.handle, Bus.store_handleAddObject] at registered
    refine (announces path registered).imp_right ?_
    rintro ⟨msg, member, tells⟩
    refine ⟨msg, ?_, tells⟩
    rw [receive_sent isAdd returns]
    exact List.mem_append_left _ (sent_handleAddObject.subset member)
  · exact fun path registered =>
      Or.inl (registered_before isRemove (by decide) registered)

/-! ## The registration -/

theorem Listening.addSource {store : ObjStore} {obj : Ptr}
    (own : (store.objectAt obj).client = some cl) :
    Listening (store.addSource obj (ascii "ubus.object.add") false) cl
      (store.objectAt obj).id := by
  refine ⟨store.allocs, ?_, ?_⟩
  · exact (perm_avlInsertDup).mem_iff.mpr List.mem_cons_self
  · simp [ObjStore.addSource, EventSource.matches, own]

/-- If it is granted, the object listens. -/
theorem alloc_listens {bytes : List UInt8}
    {data pattern object : Nat}
    (read : RegisterRead bytes objid data pattern object) :
    ((bus.ubusdAllocEventPattern cl bytes data).2 = 0 →
      Listening (bus.ubusdAllocEventPattern cl bytes data).1.store cl objid) ∧
    (bus.ubusdAllocEventPattern cl bytes data).1.sent = bus.sent := by
  rw [Bus.ubusdAllocEventPattern, read.parsed]
  dsimp only
  rw [read.number, read.string]
  split
  · exact ⟨by rintro ⟨⟩, rfl⟩
  · cases found : bus.store.ubusdFindObject objid with
    | none =>
        exact ⟨by rintro ⟨⟩, rfl⟩
    | some obj =>
        obtain ⟨live, isId⟩ := ubusdFindObject_some found
        dsimp only
        split
        · exact ⟨by rintro ⟨⟩, rfl⟩
        · rename_i own
          refine ⟨fun _ => ?_, rfl⟩
          rw [show (ascii "ubus.object.add").length = 15 from rfl]
          have whole : (memoryOf bytes
              (blobmsgData (memoryOf bytes) pattern + 15 - 1) == 0x2a) =
                false :=
            beq_eq_false_iff_ne.mpr read.last
          rw [whole, if_neg Bool.false_ne_true]
          exact isId ▸ Listening.addSource (not_not.mp own)

/-- The registration is answered by its status only. -/
theorem answered_register (settled : Settled bus.store) (empty : bus.sent = [])
    (isInvoke : UbusMsgType.ofCode? ub.hdr.type = some .invoke)
    (isBytes : ub.bytes = Bus.msgFromBlob (WaitData.registerAttrs objid)) :
    ∃ ret, Answered cl ub.hdr ret []
        (bus.ubusdProtoReceiveMessage cl ub).sent ∧
      (ret = 0 → Listening (bus.ubusdProtoReceiveMessage cl ub).store cl
        objid) := by
  have small : (PutAttr.concat (invokePuts ubusSystemObjectEvent
      (ascii "register") (pairFields (ascii "object") objid (ascii "pattern")
        (ascii "ubus.object.add")))).length < 8388608 := by
    rw [length_registerPuts]
    decide
  have read := invokeRead ubusd_readsInvokes
    (show (0 : UInt8) ∉ ascii "register" by decide) small
  rw [← registerAttrs_puts, ← isBytes] at read
  obtain ⟨objidAt, hasObjid, isEvent⟩ := read.objid
  obtain ⟨method, hasMethod, isRegister⟩ := read.method
  obtain ⟨data, hasData, plain⟩ := read.data
  obtain ⟨pattern, object, parsed⟩ := registerRead plain
    (Nat.lt_of_le_of_lt (length_invokePuts_data ..) small)
  have one : ub.attr .objid = some objidAt := hasObjid
  have two : ub.attr .method = some method := hasMethod
  have three : ub.attr .data = some data := hasData
  have found : bus.findObjectOf ub objidAt = some bus.store.eventObj := by
    rw [Bus.findObjectOf, BusRequest.mem, isEvent]
    exact settled.find_event
  have handled : bus.ubusdHandleInvoke cl ub =
      ((bus.ubusdAllocEventPattern cl ub.bytes data).1,
        some (bus.ubusdAllocEventPattern cl ub.bytes data).2) := by
    rw [Bus.ubusdHandleInvoke, two, one]
    dsimp only
    rw [found]
    dsimp only
    rw [settled.free, settled.event.recvMsg, three, Bus.stringOf, isRegister,
      Bus.ubusdEventRecv, if_pos rfl]
    rfl
  obtain ⟨listens, sent⟩ := @alloc_listens bus cl objid ub.bytes data pattern object parsed
  refine ⟨(bus.ubusdAllocEventPattern cl ub.bytes data).2, ⟨?_, ?_⟩, ?_⟩
  · have returns : (bus.handle cl ub .invoke).2 = _ :=
      congrArg Prod.snd handled
    rw [receive_sent isInvoke returns, show bus.handle cl ub .invoke = _ from
      handled, sent, empty, List.nil_append]
  · exact fun _ member => absurd member List.not_mem_nil
  · rw [Bus.store_ubusdProtoReceiveMessage, isInvoke]
    dsimp only
    rw [show bus.handle cl ub .invoke = _ from handled]
    exact listens

end LibubusJni.WaitFor
