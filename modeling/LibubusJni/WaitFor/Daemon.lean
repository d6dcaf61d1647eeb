import LibubusJni.WaitFor.Decode

/-!
# What ubusd does for the command and for the others

The three requests of the command are answered by messages with a status behind
them.  The requests of others send it no answer, but once it listens, the event
of each new object.
-/

namespace LibubusJni.WaitFor

open LibubusJni.Lib (Machine)
open LibubusJni.Libubox LibubusJni.Ubusd

/-! ## The states of ubusd -/

/-- What holds of ubusd as long as it lives. -/
structure Sound (bus : Bus) : Prop where
  settled : Settled bus.store
  sorted : TreesSorted bus.store
  seen : Seen bus
  limited : Limited bus.store

theorem sound_of_run {before : List BusAction} {bus : Bus}
    (whole : ∀ action ∈ before, action.Whole)
    (reached : ubusd.run before = some bus) (running : bus.fault = none) :
    Sound bus where
  settled := EventInv.settled
    (Machine.invariant_of_step eventInv_init eventInv_step reached) running
  sorted := treesSorted_run reached
  seen := seen_run reached
  limited := limited_run whole reached

/-- A message of a client, before it is handled. -/
def begun (bus : Bus) (urandom : List UInt32) : Bus :=
  { bus with urandom := urandom, sent := [] }

theorem Sound.begun {bus : Bus} (sound : Sound bus) (urandom : List UInt32) :
    Sound (begun bus urandom) where
  settled := sound.settled
  sorted := sound.sorted
  seen := sound.seen.of_eq rfl rfl
  limited := sound.limited

/-- A registered path is that of an object in the tree, so it stays registered
only with it. -/
theorem Registered.kept {store next : ObjStore} {path : List UInt8}
    (registered : Registered next path)
    (members : ∀ obj ∈ next.path, obj ∈ store.path)
    (keys : ∀ obj ∈ next.path, next.pathKey obj = store.pathKey obj) :
    Registered store path := by
  obtain ⟨obj, inTree, isPath⟩ := registered
  exact ⟨obj, members obj inTree, (keys obj inTree).symm.trans isPath⟩

theorem Registered.ofKept {store next : ObjStore} {path : List UInt8}
    (registered : Registered next path) (kept : TreesKept store next) :
    Registered store path :=
  registered.kept (fun _ inTree => kept.path.subset inTree) kept.pathKey

/-! ## Answers -/

/-- No answer to a request. -/
def NoAnswer (msg : BusMsg) : Prop :=
  msg.hdr.type ≠ UbusMsgType.status.code ∧
    msg.hdr.type ≠ UbusMsgType.data.code

/-- Whatever is sent on account of a request of `client` is no status, and no
data of any other client. -/
def AnswersOnly (client : Ptr) (bus next : Bus) : Prop :=
  ∃ msgs, next.sent = bus.sent ++ msgs ∧
    ∀ msg ∈ msgs, NoAnswer msg ∨
      (msg.client = client ∧ msg.hdr.type = UbusMsgType.data.code)

theorem AnswersOnly.refl (client : Ptr) (bus : Bus) :
    AnswersOnly client bus bus :=
  ⟨[], by rw [List.append_nil], fun _ member =>
    absurd member List.not_mem_nil⟩

theorem AnswersOnly.trans {client : Ptr} {bus middle next : Bus}
    (first : AnswersOnly client bus middle)
    (second : AnswersOnly client middle next) : AnswersOnly client bus next := by
  obtain ⟨msgs, sent, all⟩ := first
  obtain ⟨more, moreSent, moreAll⟩ := second
  refine ⟨msgs ++ more, by rw [moreSent, sent, List.append_assoc], ?_⟩
  intro msg member
  rcases List.mem_append.mp member with early | late
  · exact all msg early
  · exact moreAll msg late

theorem noAnswer_of_notice {paths : List UInt8 → Prop} {hdr : UbusMsghdr}
    {attrs : List (List UInt8)} (notice : Notice paths hdr attrs) :
    hdr.type ≠ UbusMsgType.status.code ∧ hdr.type ≠ UbusMsgType.data.code := by
  cases notice with
  | subscribed seq id active =>
      exact ⟨nofun, nofun⟩
  | unsubscribed seq id target =>
      exact ⟨nofun, nofun⟩
  | object seq receiver id path add known =>
      exact ⟨nofun, nofun⟩

/-- Notices are no answers. -/
theorem answersOnly_of_notifies {paths : List UInt8 → Prop} {client : Ptr}
    {bus next : Bus} (notifies : Notifies paths bus next) :
    AnswersOnly client bus next := by
  obtain ⟨msgs, sent, all⟩ := notifies.sent
  refine ⟨msgs, sent, fun msg member => Or.inl ?_⟩
  obtain ⟨attrs, notice, _⟩ := all msg member
  exact noAnswer_of_notice notice

/-- Data is sent to the client itself. -/
theorem answersOnly_data (client : Ptr) (hdr : UbusMsghdr) (bus : Bus) :
    AnswersOnly client bus (bus.ubusSendMsgFromBlob (some client) hdr .data) :=
  ⟨[_], rfl, fun msg member => by
    rw [List.mem_singleton.mp member]
    exact Or.inr ⟨rfl, rfl⟩⟩

variable {bus : Bus} {client cl : Ptr} {ub : BusRequest}

theorem answersOnly_handleAddObject (settled : Settled bus.store) :
    AnswersOnly client bus (bus.ubusdHandleAddObject client ub).1 ∧
      (bus.ubusdHandleAddObject client ub).2.isSome := by
  have told : AnswersOnly client bus _ := answersOnly_of_notifies
    (bus.notifies_ubusdCreateObject client ub.bytes ub.attr settled.linked
      settled.allocated settled.unwatched)
  rw [Bus.ubusdHandleAddObject]
  split
  · rename_i next created
    rw [created] at told
    exact ⟨told, rfl⟩
  · rename_i next obj created
    rw [created] at told
    dsimp only
    split
    · exact ⟨told.trans (answersOnly_data client ub.hdr (next.blobBufInit _)),
        rfl⟩
    · exact ⟨told, rfl⟩
    · exact ⟨told.trans (answersOnly_data client ub.hdr (next.blobBufInit _)),
        rfl⟩

theorem answersOnly_freeObject (settled : Settled bus.store) (obj : Ptr)
    (attrs : List (List UInt8)) :
    AnswersOnly client bus ((bus.blobBufInit attrs).ubusdFreeObject obj) := by
  have told : Notifies (fun _ => True) (bus.blobBufInit attrs)
      ((bus.blobBufInit attrs).ubusdFreeObject obj) :=
    Bus.notifies_ubusdFreeObject _ (fun _ _ => trivial) settled.addressed
  obtain ⟨msgs, sent, all⟩ := @answersOnly_of_notifies _ client _ _ told
  exact ⟨msgs, sent, all⟩

theorem answersOnly_handleRemoveObject (settled : Settled bus.store) :
    AnswersOnly client bus (bus.ubusdHandleRemoveObject client ub).1 ∧
      (bus.ubusdHandleRemoveObject client ub).2.isSome := by
  rw [Bus.ubusdHandleRemoveObject]
  split
  · exact ⟨AnswersOnly.refl client bus, rfl⟩
  · split
    · exact ⟨AnswersOnly.refl client bus, rfl⟩
    · rename_i obj _
      dsimp only
      split
      · exact ⟨AnswersOnly.refl client bus, rfl⟩
      · refine ⟨AnswersOnly.trans ?_ (answersOnly_data client ub.hdr _), rfl⟩
        exact answersOnly_freeObject settled obj _

/-- Behind what a handler has sent comes the status that it returns. -/
theorem receive_sent {type : UbusMsgType} {ret : UInt32}
    (isType : UbusMsgType.ofCode? ub.hdr.type = some type)
    (returns : (bus.handle client ub type).2 = some ret) :
    (bus.ubusdProtoReceiveMessage client ub).sent =
      (bus.handle client ub type).1.sent ++
        [⟨client, ⟨0, UbusMsgType.status.code, ub.hdr.seq, ub.hdr.peer⟩,
          statusData ret⟩] := by
  rw [Bus.ubusdProtoReceiveMessage, isType]
  dsimp only
  rw [returns]
  rfl

/-- Nothing in what is sent to the command on account of another client is an
answer. -/
theorem noAnswer_of_other (settled : Settled bus.store) (empty : bus.sent = [])
    (asks : AddsOrRemoves ub) (other : client ≠ cl) :
    ∀ msg ∈ (bus.ubusdProtoReceiveMessage client ub).sent,
      msg.client = cl → NoAnswer msg := by
  have answers : ∃ type ret, UbusMsgType.ofCode? ub.hdr.type = some type ∧
      (bus.handle client ub type).2 = some ret ∧
        AnswersOnly client bus (bus.handle client ub type).1 := by
    rcases asks.2 with isAdd | isRemove
    · obtain ⟨answers, returns⟩ := @answersOnly_handleAddObject bus client ub
        settled
      obtain ⟨ret, returns⟩ := Option.isSome_iff_exists.mp returns
      exact ⟨.addObject, ret, isAdd, returns, answers⟩
    · obtain ⟨answers, returns⟩ := @answersOnly_handleRemoveObject bus client
        ub settled
      obtain ⟨ret, returns⟩ := Option.isSome_iff_exists.mp returns
      exact ⟨.removeObject, ret, isRemove, returns, answers⟩
  obtain ⟨type, ret, isType, returns, msgs, sent, all⟩ := answers
  rw [receive_sent isType returns, sent, empty, List.nil_append]
  intro msg member isOwn
  rcases List.mem_append.mp member with early | late
  · rcases all msg early with noAnswer | ⟨toClient, _⟩
    · exact noAnswer
    · exact absurd (toClient.symm.trans isOwn) other
  · rw [List.mem_singleton.mp late] at isOwn
    exact absurd isOwn other

/-! ## The requests of the command -/

/-- The answers to a request: the status is behind everything else. -/
structure Answered (cl : Ptr) (hdr : UbusMsghdr) (ret : UInt32)
    (front : List BusMsg) (sent : List BusMsg) : Prop where
  sent : sent = front ++
    [⟨cl, ⟨0, UbusMsgType.status.code, hdr.seq, hdr.peer⟩, statusData ret⟩]
  front : ∀ msg ∈ front, msg.hdr.type ≠ UbusMsgType.status.code

theorem answered_add (settled : Settled bus.store) (empty : bus.sent = [])
    (isAdd : UbusMsgType.ofCode? ub.hdr.type = some .addObject) :
    ∃ ret front, Answered cl ub.hdr ret front
      (bus.ubusdProtoReceiveMessage cl ub).sent := by
  obtain ⟨⟨msgs, sent, all⟩, returns⟩ := @answersOnly_handleAddObject bus cl ub
    settled
  obtain ⟨ret, returns⟩ := Option.isSome_iff_exists.mp returns
  refine ⟨ret, msgs, ?_, fun msg member => ?_⟩
  · rw [receive_sent isAdd returns, Bus.handle, sent, empty, List.nil_append]
  · rcases all msg member with noAnswer | ⟨_, isData⟩
    · exact noAnswer.1
    · rw [isData]
      decide

theorem attr_none {bytes : List UInt8} (isBytes : bytes = Bus.msgFromBlob [])
    (attr : UbusMsgAttr) : Ubusd.ubusParseMsg (memoryOf bytes) attr = none := by
  rw [isBytes]
  rfl

/-- The object that a registered path belongs to. -/
theorem Registered.path {store : ObjStore} {path : List UInt8}
    (registered : Registered store path) (linked : Linked none none store) :
    ∃ obj ∈ store.path, (store.objectAt obj).path = some path := by
  obtain ⟨obj, inTree, isPath⟩ := registered
  obtain ⟨_, hasPath⟩ := (linked.registered obj).mp inTree
  obtain ⟨string, hasPath⟩ := Option.isSome_iff_exists.mp hasPath
  rw [ObjStore.pathKey, hasPath] at isPath
  exact ⟨obj, inTree, hasPath.trans (congrArg some isPath)⟩

/-- Each registered path is reported. -/
theorem answered_lookup (sound : Sound bus) (running : bus.fault = none)
    (empty : bus.sent = [])
    (isLookup : UbusMsgType.ofCode? ub.hdr.type = some .lookup)
    (isBytes : ub.bytes = Bus.msgFromBlob [])
    (lives : (bus.ubusdProtoReceiveMessage cl ub).fault = none) :
    ∃ ret front, Answered cl ub.hdr ret front
        (bus.ubusdProtoReceiveMessage cl ub).sent ∧
      ∀ path, Registered bus.store path → ∃ msg ∈ front,
        msg.client = cl ∧ msg.hdr.seq = ub.hdr.seq ∧
          msg.hdr.peer = ub.hdr.peer ∧ IsReport path msg := by
  have noPath : ub.attr .objpath = none := by
    rw [BusRequest.attr, BusRequest.mem, attr_none isBytes]
  have handled : bus.ubusdHandleLookup cl ub =
      (bus.store.path.foldl (fun bus obj => bus.ubusdSendObj cl ub obj) bus,
        some ubusStatusOk) := by
    rw [Bus.ubusdHandleLookup, noPath]
  rw [Bus.fault_ubusdProtoReceiveMessage, isLookup] at lives
  change (bus.ubusdHandleLookup cl ub).1.fault = none at lives
  rw [handled] at lives
  obtain ⟨msgs, sent, made⟩ :=
    (Bus.foldl_ubusdSendObj cl ub bus.store.path running).2 lives
  have reported : ∀ msg ∈ msgs, ∃ obj ∈ bus.store.path,
      bus.objReport cl ub obj = some msg := by
    intro msg member
    have inMade : some msg ∈ bus.store.path.map (bus.objReport cl ub) := by
      rw [made]
      exact List.mem_map_of_mem member
    exact List.mem_map.mp inMade
  have isData : ∀ msg ∈ msgs, msg.client = cl ∧
      msg.hdr = ⟨0, UbusMsgType.data.code, ub.hdr.seq, ub.hdr.peer⟩ := by
    intro msg member
    obtain ⟨obj, _, report⟩ := reported msg member
    rw [Bus.objReport, Option.map_eq_some_iff] at report
    obtain ⟨attrs, _, isMsg⟩ := report
    rw [← isMsg]
    exact ⟨rfl, rfl⟩
  refine ⟨ubusStatusOk, msgs, ⟨?_, fun msg member => ?_⟩,
    fun path registered => ?_⟩
  · have returns : (bus.handle cl ub .lookup).2 = some ubusStatusOk :=
      congrArg Prod.snd handled
    rw [receive_sent isLookup returns, show bus.handle cl ub .lookup = _ from
      handled, sent, empty, List.nil_append]
  · rw [(isData msg member).2]
    exact show UbusMsgType.data.code ≠ UbusMsgType.status.code by decide
  · obtain ⟨obj, inTree, hasPath⟩ := registered.path sound.settled.linked
    have inMade : bus.objReport cl ub obj ∈ msgs.map some := by
      rw [← made]
      exact List.mem_map_of_mem inTree
    obtain ⟨msg, member, isMsg⟩ := List.mem_map.mp inMade
    obtain ⟨toClient, isHdr⟩ := isData msg member
    exact ⟨msg, member, toClient, by rw [isHdr], by rw [isHdr],
      isReport_of_objReport sound.limited hasPath isMsg.symm⟩

end LibubusJni.WaitFor
