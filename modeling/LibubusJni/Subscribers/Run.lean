import LibubusJni.Subscribers.Steps
import LibubusJni.Ubusd.Isolation

/-!
# Whether the owner of an object knows that it is subscribed to

ubusd and the context of one of its clients, with the messages between them.
The object stays in the tree of the context, so `ubus_process_obj_msg` finds it
whenever a NOTIFY for it is dispatched.
-/

namespace LibubusJni.Subscribers

open LibubusJni.Lib (Alternates Machine)
open LibubusJni.Libubox LibubusJni.Ubusd
open LibubusJni.Libubus (DispatchAction DispatchContext dispatcher)

/-- `inbox` is what the client has been sent and not read yet, from the HELLO on,
which `ubus_process_msg` passes over; `issued` records all messages of ubusd. -/
structure NotifySystem where
  bus : Bus
  inbox : List Message
  ctx : DispatchContext
  issued : List BusMsg

inductive NotifyAction where
  | bus (action : BusAction)
  | context (action : DispatchAction)
  deriving DecidableEq

/-- What is left to read behind an action of the context. -/
def readInbox (inbox : List Message) : DispatchAction → Option (List Message)
  | .receive message =>
      match inbox with
      | [] => none
      | first :: rest => if message.val = first then some rest else none
  | _ => some inbox

namespace NotifySystem

/-- `has_subscribers` of the object with this identifier. -/
def hasSubscribers (sys : NotifySystem) (id : UInt32) : Bool :=
  sys.ctx.dispatched.foldl (ubusProcessObjMsg id) false

/-- The flags that ubusd has sent to the client for this object. -/
def flags (sys : NotifySystem) (owner : Ptr) (id : UInt32) : List Bool :=
  sys.issued.filterMap (activeFlag owner id)

def step (owner : Ptr) (sys : NotifySystem) :
    NotifyAction → Option NotifySystem
  | .bus action =>
      (ubusd.step sys.bus action).map fun bus =>
        { sys with
          bus := bus
          inbox := sys.inbox ++
            (bus.sent.filter fun msg => msg.client = owner).map wire
          issued := sys.issued ++ bus.sent }
  | .context action =>
      match readInbox sys.inbox action with
      | none => none
      | some inbox =>
          (dispatcher.step sys.ctx action).map fun ctx =>
            { sys with inbox := inbox, ctx := ctx }

end NotifySystem

/-- ubusd and the context of this client, from their start. -/
def notifier (owner : Ptr) : Machine NotifySystem NotifyAction where
  init := ⟨ubusd.init, [], dispatcher.init, []⟩
  step := NotifySystem.step owner

/-- The flags sent alternate, beginning with true, and the last one says whether
the object is subscribed to; the subscriptions to an object that goes are told
to their subscribers; and once every NOTIFY for the object has been dispatched
its owner knows. -/
structure Agrees (owner : Ptr) (id : UInt32) (sys : NotifySystem) : Prop where
  alternates : (false :: sys.flags owner id).IsChain (· ≠ ·)
  last : (sys.flags owner id).getLast?.getD false =
    isActive sys.bus.store owner id
  ended : ∀ action next, ubusd.step sys.bus action = some next →
    (unsubscribes next.sent).Perm
      ((endedSubscriptions sys.bus.store next.store).map
        (unsubscribeOf sys.bus.store))
  processed : (∀ message ∈ sys.inbox ++ sys.ctx.pending,
      notifyFlag id message = none) →
    sys.hasSubscribers id = isActive sys.bus.store owner id

/-- A NOTIFY for the object is read while no other one is in `pending`. -/
def NotifyPermitted (id : UInt32) (sys : NotifySystem) :
    NotifyAction → Prop
  | .context (.receive message) =>
      (notifyFlag id message.val).isSome →
        ∀ other ∈ sys.ctx.pending, notifyFlag id other = none
  | _ => True

instance (id : UInt32) (sys : NotifySystem) :
    ∀ action, Decidable (NotifyPermitted id sys action)
  | .context (.receive message) =>
      inferInstanceAs (Decidable ((notifyFlag id message.val).isSome →
        ∀ other ∈ sys.ctx.pending, notifyFlag id other = none))
  | .bus _ => isTrue trivial
  | .context .addUloop => isTrue trivial
  | .context .handleData => isTrue trivial
  | .context .completeRequest => isTrue trivial
  | .context .requestDone => isTrue trivial
  | .context .timerExpired => isTrue trivial
  | .context .processPending => isTrue trivial
  | .context .returns => isTrue trivial

variable {owner : Ptr} {id : UInt32}

/-! ## ubusd -/

/-- What ubusd has said so far. -/
structure IssuedInv (owner : Ptr) (id : UInt32) (sys : NotifySystem) :
    Prop where
  event : EventInv sys.bus
  subs : SubsInv sys.bus.store
  flags : Alternates false (sys.flags owner id)
    (isActive sys.bus.store owner id)

theorem issuedInv_step (sys : NotifySystem) (action : NotifyAction)
    (next : NotifySystem) (inv : IssuedInv owner id sys)
    (taken : (notifier owner).step sys action = some next) :
    IssuedInv owner id next := by
  cases action with
  | bus action =>
      obtain ⟨bus, moved, isNext⟩ := Option.map_eq_some_iff.mp taken
      rw [← isNext]
      obtain ⟨flags, _⟩ := tells_act inv.event inv.subs moved
      exact
        { event := eventInv_step sys.bus action bus inv.event moved
          subs := (subsInv_step sys.bus action bus
            ⟨inv.event.inv, inv.subs⟩ moved).2
          flags := by
            rw [NotifySystem.flags, List.filterMap_append]
            exact inv.flags.append flags }
  | context action =>
      change (match readInbox sys.inbox action with
        | none => none
        | some inbox => (dispatcher.step sys.ctx action).map fun ctx =>
            { sys with inbox := inbox, ctx := ctx }) = some next at taken
      split at taken
      · exact absurd taken (Option.some_ne_none next).symm
      · obtain ⟨ctx, _, isNext⟩ := Option.map_eq_some_iff.mp taken
        rw [← isNext]
        exact { inv with }

theorem issuedInv_init : IssuedInv owner id (notifier owner).init where
  event := eventInv_init
  subs := subsInv_init
  flags := by
    have none : isActive (notifier owner).init.bus.store owner id = false := by
      refine List.any_eq_false.mpr fun obj _ subscribed => ?_
      have noSubscribers : ((notifier owner).init.bus.store.objectAt
          obj).subscribers = [] := (objectAt_init obj).2.1
      rw [noSubscribers] at subscribed
      simp at subscribed
    rw [none]
    exact Alternates.stays false

/-- What ubusd says is right in every run, whatever its clients do with it. -/
theorem issued_in_order {actions : List NotifyAction} {sys : NotifySystem}
    (reached : (notifier owner).run actions = some sys) :
    IssuedInv owner id sys :=
  Machine.invariant_of_step issuedInv_init issuedInv_step reached

/-! ## The context -/

/-- The flags of some messages. -/
def notifyFlags (id : UInt32) (messages : List Message) : List Bool :=
  messages.filterMap (notifyFlag id)

theorem notifyFlags_cons (message : Message) (rest : List Message) :
    notifyFlags id (message :: rest) =
      (notifyFlag id message).toList ++ notifyFlags id rest := by
  rw [notifyFlags, notifyFlags, List.filterMap_cons]
  cases notifyFlag id message with
  | none =>
      rfl
  | some flag =>
      rfl

theorem notifyFlags_append (front back : List Message) :
    notifyFlags id (front ++ back) =
      notifyFlags id front ++ notifyFlags id back :=
  List.filterMap_append

/-- What the client is sent carries the flags that it is told. -/
theorem notifyFlags_wire (msgs : List BusMsg) :
    notifyFlags id ((msgs.filter fun msg => msg.client = owner).map wire) =
      msgs.filterMap (activeFlag owner id) := by
  rw [notifyFlags, List.filterMap_map, List.filterMap_filter]
  refine List.filterMap_congr fun msg _ => ?_
  rw [activeFlag]
  by_cases isOwner : msg.client = owner
  · simp [isOwner]
  · simp [isOwner]

/-- A NOTIFY is an object message. -/
theorem isObjMsg_of_notifyFlag {message : Message}
    (carries : notifyFlag id message ≠ none) :
    Libubus.isObjMsg message = true := by
  have isNotify : Libubus.msgType message =
      some UbusMsgType.notify.code := by
    by_contra other
    exact carries (if_neg fun both => other both.1)
  rw [Libubus.isObjMsg, isNotify]
  decide

section Context

variable {ctx next : DispatchContext} {message : Message}

/-- Outside of synchronous requests a message is dispatched. -/
theorem flags_processMsg_idle (idle : ctx.stackDepth = 0) :
    notifyFlags id (ctx.ubusProcessMsg message).dispatched =
        notifyFlags id ctx.dispatched ++ (notifyFlag id message).toList ∧
      (ctx.ubusProcessMsg message).pending = ctx.pending := by
  by_cases object : Libubus.isObjMsg message = true
  · rw [Libubus.ubusProcessMsg_of_idle object idle]
    refine ⟨?_, rfl⟩
    rw [notifyFlags_append, notifyFlags_cons]
    exact congrArg _ (List.append_nil _)
  · have noFlag : notifyFlag id message = none := by
      by_contra carries
      exact object (isObjMsg_of_notifyFlag carries)
    rw [noFlag]
    rcases Libubus.ubusProcessMsg_of_other object with same | called
    · rw [same]
      exact ⟨(List.append_nil _).symm, rfl⟩
    · rw [called]
      exact ⟨(List.append_nil _).symm, rfl⟩

/-- Inside of them it is put in front of those that wait. -/
theorem flags_processMsg_waiting (formed : message.WellFormed)
    (waiting : ctx.stackDepth ≠ 0) :
    (ctx.ubusProcessMsg message).dispatched = ctx.dispatched ∧
      notifyFlags id (ctx.ubusProcessMsg message).pending =
        (notifyFlag id message).toList ++ notifyFlags id ctx.pending := by
  by_cases object : Libubus.isObjMsg message = true
  · rw [Libubus.ubusProcessMsg_of_waiting object formed waiting]
    exact ⟨rfl, notifyFlags_cons message ctx.pending⟩
  · have noFlag : notifyFlag id message = none := by
      by_contra carries
      exact object (isObjMsg_of_notifyFlag carries)
    rw [noFlag]
    rcases Libubus.ubusProcessMsg_of_other object with same | called
    · rw [same]
      exact ⟨rfl, rfl⟩
    · rw [called]
      exact ⟨rfl, rfl⟩

/-- What was dispatched and what waits, in this order. -/
def QueueKept (id : UInt32) (ctx next : DispatchContext) : Prop :=
  notifyFlags id next.dispatched ++ notifyFlags id next.pending =
    notifyFlags id ctx.dispatched ++ notifyFlags id ctx.pending

theorem QueueKept.same (dispatched : next.dispatched = ctx.dispatched)
    (pending : next.pending = ctx.pending) : QueueKept id ctx next := by
  rw [QueueKept, dispatched, pending]

/-- As long as nothing is read the order is kept. -/
theorem queueKept_step {action : DispatchAction}
    (notReceive : ∀ message, action ≠ .receive message)
    (taken : ctx.step action = some next) : QueueKept id ctx next := by
  cases action with
  | receive message =>
      exact absurd rfl (notReceive message)
  | addUloop =>
      rw [DispatchContext.step] at taken
      split at taken
      · rw [← Option.some.inj taken]
        exact QueueKept.same rfl rfl
      · cases taken
  | handleData =>
      rw [DispatchContext.step] at taken
      split at taken
      · rw [← Option.some.inj taken]
        exact QueueKept.same rfl rfl
      · split at taken
        · rw [← Option.some.inj taken]
          exact QueueKept.same rfl rfl
        · cases taken
  | completeRequest =>
      rw [DispatchContext.step] at taken
      split at taken
      · rw [← Option.some.inj taken]
        exact QueueKept.same rfl rfl
      · cases taken
  | requestDone =>
      rw [DispatchContext.step] at taken
      split at taken
      · rw [← Option.some.inj taken]
        exact QueueKept.same rfl rfl
      · cases taken
  | timerExpired =>
      rw [DispatchContext.step] at taken
      split at taken
      · rw [← Option.some.inj taken]
        exact QueueKept.same rfl rfl
      · cases taken
  | processPending =>
      rw [DispatchContext.step] at taken
      split at taken
      · split at taken
        · rw [← Option.some.inj taken]
          exact QueueKept.same rfl rfl
        · rename_i idle
          split at taken
          · rw [← Option.some.inj taken]
            exact QueueKept.same rfl rfl
          · rename_i message rest waiting
            obtain ⟨dispatched, pending⟩ := @flags_processMsg_idle id
              { ctx with pending := rest } message (not_not.mp idle)
            rw [← Option.some.inj taken]
            rw [QueueKept, dispatched, pending, waiting, notifyFlags_cons,
              List.append_assoc]
      · cases taken
  | returns =>
      rw [DispatchContext.step] at taken
      split at taken
      · rename_i registered outer _
        rw [← Option.some.inj taken, DispatchContext.completeRequestReturn]
        split
        · exact QueueKept.same rfl rfl
        · split
          · exact QueueKept.same rfl rfl
          · exact QueueKept.same rfl rfl
      · rw [← Option.some.inj taken]
        exact QueueKept.same rfl rfl
      · rw [← Option.some.inj taken]
        exact QueueKept.same rfl rfl
      · rw [← Option.some.inj taken]
        exact QueueKept.same rfl rfl
      · cases taken

end Context

/-! ## Both together -/

/-- What ubusd has said reaches the object in the same order, and at most one
NOTIFY for it waits in `pending`. -/
structure NotifyInv (owner : Ptr) (id : UInt32) (sys : NotifySystem) :
    Prop where
  issued : IssuedInv owner id sys
  order : sys.flags owner id =
    notifyFlags id sys.ctx.dispatched ++ notifyFlags id sys.ctx.pending ++
      notifyFlags id sys.inbox

/-- A message is read. -/
theorem order_receive {ctx next : DispatchContext}
    {message : { message : Message // message.WellFormed }}
    (permitted : (notifyFlag id message.val).isSome →
      ∀ other ∈ ctx.pending, notifyFlag id other = none)
    (taken : ctx.step (.receive message) = some next) :
    notifyFlags id next.dispatched ++ notifyFlags id next.pending =
      notifyFlags id ctx.dispatched ++ notifyFlags id ctx.pending ++
        (notifyFlag id message.val).toList := by
  rw [DispatchContext.step] at taken
  split at taken
  · dsimp only at taken
    generalize (if Libubus.isObjMsg message.val then _ else _) = received
      at taken
    rw [← Option.some.inj taken]
    by_cases idle : ctx.stackDepth = 0
    · obtain ⟨dispatched, pending⟩ := @flags_processMsg_idle id
        { ctx with received := received } message.val idle
      rw [dispatched, pending]
      cases carries : notifyFlag id message.val with
      | none =>
          rw [Option.toList_none, List.append_nil, List.append_nil]
      | some flag =>
          -- nothing waits that it could overtake
          have nothing : notifyFlags id ctx.pending = [] :=
            List.filterMap_eq_nil_iff.mpr (permitted (by rw [carries]; rfl))
          rw [nothing, List.append_nil, List.append_nil]
    · obtain ⟨dispatched, pending⟩ := @flags_processMsg_waiting id
        { ctx with received := received } message.val message.property idle
      rw [dispatched, pending]
      cases carries : notifyFlag id message.val with
      | none =>
          rw [Option.toList_none, List.nil_append, List.append_nil]
      | some flag =>
          have nothing : notifyFlags id ctx.pending = [] :=
            List.filterMap_eq_nil_iff.mpr (permitted (by rw [carries]; rfl))
          rw [nothing, List.append_nil, List.append_nil]
  · cases taken

theorem readInbox_receive {inbox rest : List Message}
    {message : { message : Message // message.WellFormed }}
    (isRest : readInbox inbox (.receive message) = some rest) :
    inbox = message.val :: rest := by
  cases inbox with
  | nil =>
      exact absurd isRest (Option.some_ne_none rest).symm
  | cons first others =>
      obtain ⟨isFirst, same⟩ := Option.ite_none_right_eq_some.mp isRest
      rw [isFirst, Option.some.inj same]

theorem readInbox_other {inbox rest : List Message} {action : DispatchAction}
    (notReceive : ∀ message, action ≠ .receive message)
    (isRest : readInbox inbox action = some rest) : rest = inbox := by
  cases action with
  | receive message =>
      exact absurd rfl (notReceive message)
  | _ =>
      exact (Option.some.inj isRest).symm

theorem notifyInv_step (sys : NotifySystem) (action : NotifyAction)
    (next : NotifySystem) (inv : NotifyInv owner id sys)
    (permitted : NotifyPermitted id sys action)
    (taken : (notifier owner).step sys action = some next) :
    NotifyInv owner id next := by
  refine ⟨issuedInv_step sys action next inv.issued taken, ?_⟩
  have order := inv.order
  cases action with
  | bus action =>
      obtain ⟨bus, _, isNext⟩ := Option.map_eq_some_iff.mp taken
      rw [← isNext]
      dsimp only
      rw [NotifySystem.flags] at order ⊢
      rw [List.filterMap_append, order, notifyFlags_append, notifyFlags_wire,
        List.append_assoc]
  | context action =>
      change (match readInbox sys.inbox action with
        | none => none
        | some inbox => (dispatcher.step sys.ctx action).map fun ctx =>
            { sys with inbox := inbox, ctx := ctx }) = some next at taken
      split at taken
      · exact absurd taken (Option.some_ne_none next).symm
      · rename_i inbox isInbox
        obtain ⟨ctx, moved, isNext⟩ := Option.map_eq_some_iff.mp taken
        rw [← isNext]
        show sys.flags owner id = _
        rw [order]
        dsimp only
        by_cases isReceive : ∃ message, action = .receive message
        · obtain ⟨message, isMessage⟩ := isReceive
          subst isMessage
          rw [order_receive permitted moved, readInbox_receive isInbox,
            notifyFlags_cons, List.append_assoc, List.append_assoc,
            List.append_assoc]
        · have notReceive : ∀ message, action ≠ .receive message :=
            fun message isMessage => isReceive ⟨message, isMessage⟩
          have kept : QueueKept id sys.ctx ctx :=
            queueKept_step notReceive moved
          rw [kept, readInbox_other notReceive isInbox]

theorem NotifyInv.agrees {sys : NotifySystem} (inv : NotifyInv owner id sys) :
    Agrees owner id sys where
  alternates := inv.issued.flags.isChain
  last := inv.issued.flags.getLast
  ended _ _ taken :=
    (@tells_act owner id _ _ _ inv.issued.event inv.issued.subs taken).2
  processed nothing := by
    have none : notifyFlags id sys.ctx.pending ++
        notifyFlags id sys.inbox = [] := by
      rw [← notifyFlags_append]
      refine List.filterMap_eq_nil_iff.mpr fun message member => ?_
      exact nothing message
        (List.mem_append.mpr (List.mem_append.mp member).symm)
    have order := inv.order
    rw [List.append_assoc, none, List.append_nil] at order
    rw [NotifySystem.hasSubscribers, foldl_ubusProcessObjMsg, ← notifyFlags,
      ← order]
    exact inv.issued.flags.getLast

/-- In a run in which a NOTIFY for the object is read only while no other one
is put aside, the owner knows whether the object is subscribed to. -/
theorem hasSubscribers_agrees {actions : List NotifyAction}
    {sys : NotifySystem}
    (permitted : (notifier owner).Meets (NotifyPermitted id)
      (notifier owner).init actions)
    (reached : (notifier owner).run actions = some sys) :
    Agrees owner id sys := by
  have initially : NotifyInv owner id (notifier owner).init :=
    ⟨issuedInv_init, rfl⟩
  have inv : NotifyInv owner id sys :=
    Machine.invariant_of_permitted initially
      (fun sys action next inv permitted taken =>
        notifyInv_step sys action next inv permitted taken)
      permitted reached
  exact inv.agrees

/-! ## Two clients -/

/-- What the first client is sent before its object is subscribed to. -/
def hello : { message : Message // message.WellFormed } :=
  ⟨⟨[0, 0, 0, 0, 0x88, 0x13, 0, 0], [0, 0, 0, 4]⟩, by decide⟩

def addedData : { message : Message // message.WellFormed } :=
  ⟨⟨[0, 2, 1, 0, 0, 0, 0, 0],
    [0, 0, 0, 12, 3, 0, 0, 8, 0, 0, 0x17, 0x70]⟩, by decide⟩

def addedStatus : { message : Message // message.WellFormed } :=
  ⟨⟨[0, 1, 1, 0, 0, 0, 0, 0], [0, 0, 0, 12, 1, 0, 0, 8, 0, 0, 0, 0]⟩,
    by decide⟩

/-- Its first two NOTIFY messages. -/
def becameActive : { message : Message // message.WellFormed } :=
  ⟨⟨[0, 10, 1, 0, 0, 0, 0, 0],
    [0, 0, 0, 20, 3, 0, 0, 8, 0, 0, 0x17, 0x70, 9, 0, 0, 5, 1, 0, 0, 0]⟩,
    by decide⟩

def becameInactive : { message : Message // message.WellFormed } :=
  ⟨⟨[0, 10, 2, 0, 0, 0, 0, 0],
    [0, 0, 0, 20, 3, 0, 0, 8, 0, 0, 0x17, 0x70, 9, 0, 0, 5, 0, 0, 0, 0]⟩,
    by decide⟩

/-- The second client ends the subscription of its object. -/
def unsubscribeFromFirst : BusRequest :=
  ⟨⟨0, UbusMsgType.unsubscribe.code, 3, 0⟩,
    [0, 0, 0, 20, 3, 0, 0, 8, 0, 0, 0x17, 0x71, 8, 0, 0, 8, 0, 0, 0x17, 0x70]⟩

/-- Each client adds an object, and the first one reads the answer in
`ubus_add_object`. -/
def objectAdded : List NotifyAction :=
  twoObjects.map NotifyAction.bus ++
    [.completeRequest, .handleData, .receive hello, .receive addedData,
      .returns, .receive addedStatus, .returns, .returns, .requestDone,
      .returns, .processPending].map NotifyAction.context

/-- The object is subscribed to while its owner waits in another request. -/
def subscribedInRequest : List NotifyAction :=
  objectAdded ++
    [.context .completeRequest, .bus (.receive 2 subscribeToFirst []),
      .context .handleData, .context (.receive becameActive),
      .context .returns, .context .requestDone, .context .returns,
      .context .processPending, .context .returns, .context .processPending]

def ownerKnows : NotifySystem :=
  ((notifier 1).run subscribedInRequest).get (by decide +kernel)

theorem hasSubscribers_agrees_subscribed :
    isActive ownerKnows.bus.store 1 6000 = true ∧
      ownerKnows.hasSubscribers 6000 = true ∧ Agrees 1 6000 ownerKnows :=
  ⟨by decide +kernel, by decide +kernel,
    @hasSubscribers_agrees 1 6000 subscribedInRequest ownerKnows
      (by decide +kernel) (Option.some_get _).symm⟩

/-- The same, but the subscription ends before the owner reads of it. -/
def endedInRequest : List NotifyAction :=
  objectAdded ++
    [.context .completeRequest, .bus (.receive 2 subscribeToFirst []),
      .bus (.receive 2 unsubscribeFromFirst []),
      .context .handleData, .context (.receive becameActive),
      .context (.receive becameInactive), .context .returns,
      .context .requestDone, .context .returns, .context .processPending,
      .context .returns, .context .processPending, .context .returns,
      .context .processPending]

def ownerMistaken : NotifySystem :=
  ((notifier 1).run endedInRequest).get (by decide +kernel)

/-- Both messages are put aside and dispatched in the wrong order: the owner
still takes its object for subscribed to. -/
theorem hasSubscribers_outdated :
    ¬ ∀ (owner : Ptr) (id : UInt32) (actions : List NotifyAction)
      (sys : NotifySystem), (notifier owner).run actions = some sys →
        Agrees owner id sys := by
  intro claimed
  have agrees := claimed 1 6000 endedInRequest ownerMistaken
    (Option.some_get _).symm
  have nothing : ∀ message ∈ ownerMistaken.inbox ++ ownerMistaken.ctx.pending,
      notifyFlag 6000 message = none := by
    decide +kernel
  have wrong : ownerMistaken.hasSubscribers 6000 ≠
      isActive ownerMistaken.bus.store 1 6000 := by
    decide +kernel
  exact wrong (agrees.processed nothing)

end LibubusJni.Subscribers
