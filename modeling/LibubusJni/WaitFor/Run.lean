import LibubusJni.WaitFor.Command
import LibubusJni.WaitFor.Listening

/-!
# What `ubus wait_for` misses

The lookup and the registration are two requests.  A path that others register
while neither of them is handled by ubusd yet is seen by the lookup, and one
that they register behind both is seen by the events; one between the two is
missed.
-/

namespace LibubusJni.WaitFor

open LibubusJni.Lib (Machine)
open LibubusJni.Libubox LibubusJni.Ubusd

/-! ## Runs of ubusd -/

/-- ubusd has come to this state by messages that are whole. -/
def Reached (bus : Bus) : Prop :=
  ∃ actions : List BusAction, (∀ action ∈ actions, action.Whole) ∧
    ubusd.run actions = some bus

theorem Reached.sound {bus : Bus} (reached : Reached bus)
    (running : bus.fault = none) : Sound bus := by
  obtain ⟨actions, whole, run⟩ := reached
  exact sound_of_run whole run running

theorem Reached.step {bus after : Bus} {action : BusAction}
    (reached : Reached bus) (taken : ubusd.step bus action = some after)
    (whole : action.Whole) : Reached after := by
  obtain ⟨actions, allWhole, run⟩ := reached
  refine ⟨actions ++ [action], ?_, Machine.run_snoc run taken⟩
  intro other member
  rcases List.mem_append.mp member with early | late
  · exact allWhole other early
  · exact List.mem_singleton.mp late ▸ whole

/-! ## The stages of the command -/

/-- ubusd has not handled the request of the call. -/
structure Asked (call : WaitCall) (type : UbusMsgType)
    (attrs : List (List UInt8)) (system : WaitSystem) : Prop where
  isCall : system.data.call = call
  request : system.data.request = some
    ⟨⟨0, type.code, system.data.requestSeq, call.peer.getD 0⟩,
      Bus.msgFromBlob attrs⟩
  inbox : ∀ msg ∈ system.inbox, NoAnswer msg

/-- This is the status that the call waits for. -/
structure IsStatus (call : WaitCall) (seq : UInt16) (ret : UInt32)
    (msg : BusMsg) : Prop where
  type : msg.hdr.type = UbusMsgType.status.code
  seq : msg.hdr.seq = seq
  peer : some msg.hdr.peer = call.peer
  data : msg.data = statusData ret

/-- ubusd has handled the request of the call; `front` are the messages that the
command reads before the status. -/
structure Served (call : WaitCall) (front : List BusMsg) (ret : UInt32)
    (system : WaitSystem) : Prop where
  isCall : system.data.call = call
  request : system.data.request = none
  inbox : ∃ status back, system.inbox = front ++ status :: back ∧
    IsStatus call system.data.requestSeq ret status ∧
      ∀ msg ∈ back, NoAnswer msg
  front : ∀ msg ∈ front, msg.hdr.type ≠ UbusMsgType.status.code

/-- Nothing that the lookup has found is awaited any more. -/
def LookedAt (system : WaitSystem) : Prop :=
  ∀ path ∈ system.lookedUp, path ∉ system.data.pending

/-- What the lookup has found and is still awaited will be reported. -/
def Reports (front : List BusMsg) (system : WaitSystem) : Prop :=
  ∀ path ∈ system.lookedUp, path ∈ system.data.pending →
    ∃ msg ∈ front, system.data.answered msg = true ∧ IsReport path msg

/-- What is registered and still awaited will be heard of. -/
structure Awaits (cl : Ptr) (objid : UInt32) (system : WaitSystem) : Prop where
  own : system.data.objid = some objid
  listening : Listening system.bus.store cl objid
  events : ∀ path ∈ system.data.pending,
    Registered system.bus.store path →
      ∃ msg ∈ system.inbox ++ system.data.queued, IsEvent objid path msg

/-- How far the command has come. -/
inductive Stage (cl : Ptr) (system : WaitSystem) : Prop where
  | asksAll (asked : Asked .lookup .lookup [] system)
  | told (front : List BusMsg) (ret : UInt32)
      (served : Served .lookup front ret system)
      (reports : Reports front system)
  | asksObject (asked : Asked .addObject .addObject [] system)
      (looked : LookedAt system)
  | added (front : List BusMsg) (ret : UInt32)
      (served : Served .addObject front ret system) (looked : LookedAt system)
  | asksEvents (objid : UInt32)
      (asked : Asked .register .invoke (WaitData.registerAttrs objid) system)
      (own : system.data.objid = some objid) (looked : LookedAt system)
  | registered (front : List BusMsg) (ret : UInt32) (objid : UInt32)
      (served : Served .register front ret system)
      (awaits : ret = 0 → Awaits cl objid system)
  | runs (objid : UInt32) (call : system.data.call = .uloopRun)
      (request : system.data.request = none) (awaits : Awaits cl objid system)
  | returned (call : system.data.call = .returned)
      (request : system.data.request = none)

/-- The invariant of all runs in which no path is missed. -/
structure WaitInv (cl : Ptr) (argv : List (List UInt8)) (system : WaitSystem) :
    Prop where
  reached : Reached system.bus
  pending : system.data.pending ⊆ argv
  stage : Stage cl system

variable {cl : Ptr} {argv : List (List UInt8)} {system next : WaitSystem}
  {call : WaitCall} {front : List BusMsg} {ret : UInt32} {objid : UInt32}

/-! ## Requests of others -/

theorem busStep_some {action : BusAction}
    (taken : system.busStep cl action = some next) :
    ∃ bus, ubusd.step system.bus action = some bus ∧ bus.fault = none ∧
      next =
        { system with
          bus := bus
          inbox := system.inbox ++
            bus.sent.filter fun msg => msg.client = cl } := by
  rw [WaitSystem.busStep] at taken
  split at taken
  · exact absurd taken (Option.some_ne_none next).symm
  · rename_i bus stepped
    obtain ⟨lives, same⟩ := Option.ite_none_right_eq_some.mp taken
    exact ⟨bus, stepped, lives, (Option.some.inj same).symm⟩

theorem Asked.grow {type : UbusMsgType} {attrs : List (List UInt8)}
    (asked : Asked call type attrs system) (bus : Bus) {msgs : List BusMsg}
    (noAnswer : ∀ msg ∈ msgs, NoAnswer msg) :
    Asked call type attrs
      { system with bus := bus, inbox := system.inbox ++ msgs } :=
  { asked with
    inbox := fun msg member =>
      (List.mem_append.mp member).elim (asked.inbox msg) (noAnswer msg) }

theorem Served.grow (served : Served call front ret system) (bus : Bus)
    {msgs : List BusMsg} (noAnswer : ∀ msg ∈ msgs, NoAnswer msg) :
    Served call front ret
      { system with bus := bus, inbox := system.inbox ++ msgs } := by
  obtain ⟨status, back, inbox, isStatus, rest⟩ := served.inbox
  refine { served with inbox := ⟨status, back ++ msgs, ?_, isStatus, ?_⟩ }
  · dsimp only
    rw [inbox, List.append_assoc, List.cons_append]
  · exact fun msg member =>
      (List.mem_append.mp member).elim (rest msg) (noAnswer msg)

theorem Awaits.grow (awaits : Awaits cl objid system) {bus : Bus}
    (listening : Listening bus.store cl objid)
    (fits : Limited bus.store)
    (announces : Announces cl objid system.bus bus)
    (linked : Linked none none bus.store) :
    Awaits cl objid
      { system with
        bus := bus
        inbox := system.inbox ++
          bus.sent.filter fun msg => msg.client = cl } := by
  refine { awaits with listening := listening, events := ?_ }
  intro path waiting registered
  rcases announces path registered with old | ⟨msg, sent, tells⟩
  · obtain ⟨msg, member, isEvent⟩ := awaits.events path waiting old
    refine ⟨msg, ?_, isEvent⟩
    rcases List.mem_append.mp member with inInbox | inQueue
    · exact List.mem_append_left _ (List.mem_append_left _ inInbox)
    · exact List.mem_append_right _ inQueue
  · obtain ⟨obj, _, hasPath⟩ := registered.path linked
    refine ⟨msg, ?_, tells.isEvent (fits.path obj path hasPath)⟩
    refine List.mem_append_left _ (List.mem_append_right _ ?_)
    exact List.mem_filter.mpr ⟨sent, decide_eq_true tells.1⟩

/-- What a request of another client leaves of the object that listens. -/
theorem listening_other {bus after : Bus} {client : Ptr} {ub : BusRequest}
    {urandom : List UInt32} (sound : Sound bus) (next : Sound after)
    (different : client ≠ cl)
    (taken : ubusd.step bus (.receive client ub urandom) = some after)
    (listening : Listening bus.store cl objid) :
    Listening after.store cl objid := by
  have move := Bus.receive_move (begun bus urandom) client ub
  have same : (begun bus urandom).ubusdProtoReceiveMessage client ub = after :=
    (step_some taken).2.2.symm
  rw [same] at move
  have linked := sound.settled.linked
  have allocated := sound.settled.allocated
  refine @Listening.kept client cl objid _ _ listening linked ?_
  intro obj live own
  have notSender : (bus.store.objectAt obj).client ≠ some client := by
    rw [own]
    exact fun same => different (Option.some.inj same).symm
  exact (move.recordKept linked allocated live notSender).untouched linked
    allocated next.settled.linked move.typesKept live

theorem stage_other {client : Ptr} {ub : BusRequest} {urandom : List UInt32}
    (reached : Reached system.bus) (stage : Stage cl system)
    (different : client ≠ cl) (asks : AddsOrRemoves ub)
    (taken : system.busStep cl (.receive client ub urandom) = some next) :
    Stage cl next ∧ Reached next.bus := by
  obtain ⟨bus, stepped, lives, isNext⟩ := busStep_some taken
  have after : Reached bus := reached.step stepped asks.1
  have sound := reached.sound (step_some stepped).1
  have soundAfter := after.sound lives
  have isBus : (begun system.bus urandom).ubusdProtoReceiveMessage client ub =
      bus := (step_some stepped).2.2.symm
  have noAnswer : ∀ msg ∈ bus.sent.filter fun msg => msg.client = cl,
      NoAnswer msg := by
    intro msg member
    obtain ⟨sent, own⟩ := List.mem_filter.mp member
    rw [← isBus] at sent
    exact noAnswer_of_other (sound.begun urandom).settled rfl asks different msg
      sent (of_decide_eq_true own)
  have listens : ∀ {objid}, Awaits cl objid system →
      Awaits cl objid next := by
    intro objid awaits
    have announces := @other_announces _ client _ _ _ (sound.begun urandom)
      (step_some stepped).1 awaits.listening asks
    rw [isBus] at announces
    rw [isNext]
    exact awaits.grow
      (listening_other sound soundAfter different stepped awaits.listening)
      soundAfter.limited announces soundAfter.settled.linked
  refine ⟨?_, by rw [isNext]; exact after⟩
  rw [isNext] at listens ⊢
  cases stage with
  | asksAll asked =>
      exact .asksAll (asked.grow bus noAnswer)
  | told front ret served reports =>
      exact .told front ret (served.grow bus noAnswer) reports
  | asksObject asked looked =>
      exact .asksObject (asked.grow bus noAnswer) looked
  | added front ret served looked =>
      exact .added front ret (served.grow bus noAnswer) looked
  | asksEvents objid asked own looked =>
      exact .asksEvents objid (asked.grow bus noAnswer) own looked
  | registered front ret objid served awaits =>
      exact .registered front ret objid (served.grow bus noAnswer)
        fun granted => listens (awaits granted)
  | runs objid call request awaits =>
      exact .runs objid call request (listens awaits)
  | returned call request =>
      exact .returned call request

/-! ## Requests of the command -/

theorem whole_lookup (hdr : UbusMsghdr) :
    BusRequest.Whole ⟨hdr, Bus.msgFromBlob []⟩ :=
  @whole_msgFromBlob [] (by decide) hdr

theorem whole_register (hdr : UbusMsghdr) (objid : UInt32) :
    BusRequest.Whole
      ⟨hdr, Bus.msgFromBlob (WaitData.registerAttrs objid)⟩ := by
  rw [registerAttrs_puts]
  refine whole_msgFromBlob ?_ hdr
  rw [length_registerPuts]
  decide

/-- The state in which the answers are on their way. -/
def served (system : WaitSystem) (cl : Ptr) (bus : Bus)
    (lookedUp : List (List UInt8)) : WaitSystem where
  bus := bus
  data := { system.data with request := none }
  inbox := system.inbox ++ bus.sent.filter fun msg => msg.client = cl
  lookedUp := lookedUp

theorem Asked.served {type : UbusMsgType} {attrs : List (List UInt8)}
    (asked : Asked call type attrs system) (waits : call.peer.isSome)
    {bus : Bus} (answered : Answered cl
      ⟨0, type.code, system.data.requestSeq, call.peer.getD 0⟩ ret front
        bus.sent) (lookedUp : List (List UInt8)) :
    Served call
      (system.inbox ++ front.filter fun msg => msg.client = cl) ret
      (served system cl bus lookedUp) where
  isCall := asked.isCall
  request := rfl
  inbox := by
    refine ⟨⟨cl, ⟨0, UbusMsgType.status.code, system.data.requestSeq,
      call.peer.getD 0⟩, statusData ret⟩, [], ?_, ⟨rfl, rfl, ?_, rfl⟩,
      fun _ member => absurd member List.not_mem_nil⟩
    · rw [WaitFor.served, answered.sent, List.filter_append, List.append_assoc]
      simp
    · obtain ⟨peer, isPeer⟩ := Option.isSome_iff_exists.mp waits
      rw [isPeer]
      rfl
  front msg member := by
    rcases List.mem_append.mp member with early | late
    · exact (asked.inbox msg early).1
    · exact answered.front msg (List.mem_of_mem_filter late)

theorem serve_some {urandom : List UInt32}
    (taken : system.step cl (.serve urandom) = some next) :
    ∃ ub bus, system.data.request = some ub ∧
      ubusd.step system.bus (.receive cl ub urandom) = some bus ∧
        bus.fault = none ∧
          next = served system cl bus
            (if system.data.call = .lookup then
              system.bus.store.path.map system.bus.store.pathKey
            else system.lookedUp) := by
  rw [WaitSystem.step] at taken
  split at taken
  · exact absurd taken (Option.some_ne_none next).symm
  · rename_i ub isRequest
    obtain ⟨bus, stepped, lives, isNext⟩ := busStep_some taken
    exact ⟨ub, bus, isRequest, stepped, lives, isNext⟩

section Serve

variable {bus : Bus} {urandom : List UInt32} {ub : BusRequest}
  (sound : Sound system.bus)
  (stepped : ubusd.step system.bus (.receive cl ub urandom) = some bus)

include sound stepped

theorem serve_lookup (asked : Asked .lookup .lookup [] system)
    (isRequest : system.data.request = some ub) (lives : bus.fault = none) :
    Stage cl (served system cl bus
      (system.bus.store.path.map system.bus.store.pathKey)) := by
  obtain ⟨running, _, isBus⟩ := step_some stepped
  rw [asked.request, Option.some.injEq] at isRequest
  have found := @answered_lookup (begun system.bus urandom) cl ub
    (sound.begun urandom) running rfl (by rw [← isRequest]; rfl)
    (by rw [← isRequest])
  rw [show (begun system.bus urandom).ubusdProtoReceiveMessage cl ub = bus from
    isBus.symm] at found
  obtain ⟨ret, front, answered, reports⟩ := found lives
  rw [← isRequest] at answered reports
  refine .told _ ret (asked.served rfl answered _) ?_
  intro path isFound _
  obtain ⟨obj, inTree, isPath⟩ := List.mem_map.mp isFound
  obtain ⟨msg, member, own, seq, peer, report⟩ :=
    reports path ⟨obj, inTree, isPath⟩
  refine ⟨msg, List.mem_append_right _ (List.mem_filter.mpr
    ⟨member, decide_eq_true own⟩), ?_, report⟩
  rw [WaitData.answered, seq, peer]
  simp [served, asked.isCall, WaitCall.peer]

theorem serve_addObject (asked : Asked .addObject .addObject [] system)
    (isRequest : system.data.request = some ub) (looked : LookedAt system) :
    Stage cl (served system cl bus system.lookedUp) := by
  obtain ⟨_, _, isBus⟩ := step_some stepped
  rw [asked.request, Option.some.injEq] at isRequest
  obtain ⟨ret, front, answered⟩ := @answered_add (begun system.bus urandom) cl
    ub (sound.begun urandom).settled rfl (by rw [← isRequest]; rfl)
  rw [show (begun system.bus urandom).ubusdProtoReceiveMessage cl ub = bus from
    isBus.symm, ← isRequest] at answered
  exact .added _ ret (asked.served rfl answered _) looked

/-- No path has come between. -/
theorem serve_register
    (asked : Asked .register .invoke (WaitData.registerAttrs objid) system)
    (isRequest : system.data.request = some ub)
    (own : system.data.objid = some objid)
    (none : ∀ path ∈ system.data.pending,
      ¬ Registered system.bus.store path) :
    Stage cl (served system cl bus system.lookedUp) := by
  obtain ⟨_, _, isBus⟩ := step_some stepped
  rw [asked.request, Option.some.injEq] at isRequest
  obtain ⟨ret, answered, listens⟩ := @answered_register
    (begun system.bus urandom) cl ub objid (sound.begun urandom).settled rfl
    (by rw [← isRequest]; rfl) (by rw [← isRequest])
  have isInvoke : UbusMsgType.ofCode? ub.hdr.type = some .invoke := by
    rw [← isRequest]
    rfl
  have before := fun path => @registered_before (begun system.bus urandom) cl
    ub path .invoke isInvoke (by decide)
  rw [show (begun system.bus urandom).ubusdProtoReceiveMessage cl ub = bus from
    isBus.symm] at answered listens before
  rw [← isRequest] at answered
  refine .registered _ ret objid (asked.served rfl answered _) ?_
  intro granted
  exact ⟨own, listens granted, fun path waiting registered =>
    absurd (before path registered) (none path waiting)⟩

end Serve

theorem stage_serve {urandom : List UInt32} (reached : Reached system.bus)
    (pending : system.data.pending ⊆ argv) (stage : Stage cl system)
    (noneBetween : NoneBetween argv system (.serve urandom))
    (taken : system.step cl (.serve urandom) = some next) :
    Stage cl next ∧ Reached next.bus ∧ next.data.pending ⊆ argv := by
  obtain ⟨ub, bus, isRequest, stepped, lives, isNext⟩ := serve_some taken
  have sound := reached.sound (step_some stepped).1
  rw [isNext]
  cases stage with
  | asksAll asked =>
      rw [if_pos asked.isCall]
      refine ⟨serve_lookup sound stepped asked isRequest lives,
        reached.step stepped ?_, pending⟩
      rw [asked.request, Option.some.injEq] at isRequest
      exact isRequest ▸ whole_lookup _
  | asksObject asked looked =>
      rw [if_neg (by rw [asked.isCall]; exact nofun)]
      refine ⟨serve_addObject sound stepped asked isRequest looked,
        reached.step stepped ?_, pending⟩
      rw [asked.request, Option.some.injEq] at isRequest
      exact isRequest ▸ whole_lookup _
  | asksEvents objid asked own looked =>
      rw [if_neg (by rw [asked.isCall]; exact nofun)]
      refine ⟨serve_register sound stepped asked isRequest own ?_,
        reached.step stepped ?_, pending⟩
      · intro path waiting registered
        exact looked path (noneBetween asked.isCall path (pending waiting)
          registered) waiting
      · rw [asked.request, Option.some.injEq] at isRequest
        exact isRequest ▸ whole_register _ objid
  | told front ret served reports =>
      exact absurd (served.request.symm.trans isRequest)
        (Option.some_ne_none ub).symm
  | added front ret served looked =>
      exact absurd (served.request.symm.trans isRequest)
        (Option.some_ne_none ub).symm
  | registered front ret objid served awaits =>
      exact absurd (served.request.symm.trans isRequest)
        (Option.some_ne_none ub).symm
  | runs objid call request awaits =>
      exact absurd (request.symm.trans isRequest) (Option.some_ne_none ub).symm
  | returned call request =>
      exact absurd (request.symm.trans isRequest) (Option.some_ne_none ub).symm

/-! ## Messages to the command -/

/-- The command has taken the message. -/
def taken (system : WaitSystem) (msg : BusMsg) (rest : List BusMsg) :
    WaitSystem :=
  { system with data := system.data.ubusProcessMsg msg, inbox := rest }

section HandleData

variable {msg : BusMsg} {rest : List BusMsg}
  (inbox : system.inbox = msg :: rest)

include inbox

/-- No answer comes before the request is handled. -/
theorem Asked.take {type : UbusMsgType} {attrs : List (List UInt8)}
    (asked : Asked call type attrs system) (waits : call.peer.isSome) :
    WaitData.Takes system.data msg (taken system msg rest).data ∧
      Asked call type attrs (taken system msg rest) := by
  have isNext : msg ∈ system.inbox := inbox ▸ List.mem_cons_self
  have takes := WaitData.takes_ubusProcessMsg (asked.isCall ▸ waits)
    (asked.inbox msg isNext).1
  refine ⟨takes, takes.call.trans asked.isCall, ?_, fun other member => ?_⟩
  · rw [taken, takes.request, takes.requestSeq]
    exact asked.request
  · exact asked.inbox other (inbox ▸ List.mem_cons_of_mem msg member)

/-- The message is one before the status. -/
theorem Served.take (served : Served call (msg :: front) ret system)
    (waits : call.peer.isSome) :
    WaitData.Takes system.data msg (taken system msg rest).data ∧
      Served call front ret (taken system msg rest) := by
  have takes := WaitData.takes_ubusProcessMsg (served.isCall ▸ waits)
    (served.front msg List.mem_cons_self)
  obtain ⟨status, back, split, isStatus, later⟩ := served.inbox
  rw [inbox, List.cons_append, List.cons.injEq] at split
  refine ⟨takes, takes.call.trans served.isCall,
    takes.request.trans served.request, ⟨status, back, split.2, ?_, later⟩,
    fun other member => served.front other (List.mem_cons_of_mem msg member)⟩
  rw [taken, takes.requestSeq]
  exact isStatus

/-- The message is the status. -/
theorem Served.ends (served : Served call [] ret system) :
    system.data.ubusProcessMsg msg = system.data.callReturns ret ∧
      msg.hdr.type = UbusMsgType.status.code ∧
        ∀ other ∈ rest, NoAnswer other := by
  obtain ⟨status, back, split, isStatus, later⟩ := served.inbox
  rw [inbox, List.nil_append, List.cons.injEq] at split
  rw [← split.1] at isStatus
  refine ⟨WaitData.ubusProcessMsg_status isStatus.type ?_ isStatus.data,
    isStatus.type, split.2 ▸ later⟩
  rw [WaitData.answered, isStatus.seq, isStatus.peer, served.isCall]
  simp

theorem Served.first_eq {first : BusMsg}
    (served : Served call (first :: front) ret system) : first = msg := by
  obtain ⟨status, back, split, _⟩ := served.inbox
  rw [inbox, List.cons_append, List.cons.injEq] at split
  exact split.1.symm

omit inbox in
/-- What is taken is told, or still to be reported. -/
theorem Reports.take (reports : Reports (msg :: front) system)
    (isLookup : system.data.call = .lookup)
    (takes : WaitData.Takes system.data msg (taken system msg rest).data) :
    Reports front (taken system msg rest) := by
  intro path found waiting
  obtain ⟨other, member, answered, report⟩ :=
    reports path found (takes.pending waiting)
  rcases List.mem_cons.mp member with isMsg | later
  · rw [isMsg] at answered report
    exact absurd waiting (WaitData.reported isLookup answered report)
  · refine ⟨other, later, ?_, report⟩
    rw [WaitData.answered, takes.requestSeq, takes.call]
    exact answered

/-- An event that is taken is put aside. -/
theorem Awaits.take (awaits : Awaits cl objid system)
    (takes : WaitData.Takes system.data msg (taken system msg rest).data)
    (notAdd : system.data.call ≠ .addObject) :
    Awaits cl objid (taken system msg rest) where
  own := (takes.objid notAdd).trans awaits.own
  listening := awaits.listening
  events path waiting registered := by
    obtain ⟨other, member, isEvent⟩ :=
      awaits.events path (takes.pending waiting) registered
    refine ⟨other, ?_, isEvent⟩
    rw [inbox] at member
    rcases List.mem_append.mp member with arrives | aside
    · rcases List.mem_cons.mp arrives with isMsg | later
      · refine List.mem_append_right _ ?_
        rw [isMsg]
        exact takes.event (isMsg ▸ isEvent.type)
      · exact List.mem_append_left _ later
    · exact List.mem_append_right _ (takes.queued aside)

/-- In `uloop_run` it is heard. -/
theorem Awaits.hear (awaits : Awaits cl objid system)
    (hears : WaitData.Hears system.data [msg] (taken system msg rest).data) :
    Awaits cl objid (taken system msg rest) where
  own := hears.narrows.objid.trans awaits.own
  listening := awaits.listening
  events path waiting registered := by
    obtain ⟨other, member, isEvent⟩ :=
      awaits.events path (hears.narrows.pending waiting) registered
    refine ⟨other, ?_, isEvent⟩
    rw [inbox] at member
    rcases List.mem_append.mp member with arrives | aside
    · rcases List.mem_cons.mp arrives with isMsg | later
      · exact absurd waiting (hears.heard objid awaits.own other
          (List.mem_singleton.mpr isMsg) path isEvent)
      · exact List.mem_append_left _ later
    · refine List.mem_append_right _ ?_
      rw [hears.narrows.queued]
      exact aside

/-- The call of the lookup returns. -/
theorem ends_lookup (served : Served .lookup [] ret system)
    (reports : Reports [] system) :
    Stage cl (taken system msg rest) := by
  obtain ⟨ends, _, later⟩ := served.ends inbox
  rw [taken, ends, WaitData.callReturns, served.isCall]
  dsimp only
  split
  · exact .returned rfl served.request
  · refine .asksObject ⟨rfl, rfl, later⟩ fun path found waiting => ?_
    obtain ⟨_, member, _⟩ := reports path found waiting
    exact List.not_mem_nil member

theorem ends_addObject (served : Served .addObject [] ret system)
    (looked : LookedAt system) : Stage cl (taken system msg rest) := by
  obtain ⟨ends, _, later⟩ := served.ends inbox
  rw [taken, ends, WaitData.callReturns, served.isCall]
  dsimp only
  split
  · exact .returned rfl served.request
  · rename_i added
    cases own : system.data.objid with
    | none =>
        rw [own] at added
        exact absurd (by simp) added
    | some objid =>
        exact .asksEvents objid ⟨rfl, rfl, later⟩ own looked

theorem ends_register (served : Served .register [] ret system)
    (awaits : ret = 0 → Awaits cl objid system) :
    Stage cl (taken system msg rest) := by
  obtain ⟨ends, isStatus, _⟩ := served.ends inbox
  rw [taken, ends, WaitData.callReturns, served.isCall]
  dsimp only
  by_cases granted : ret = 0
  · rw [if_pos granted]
    have before := awaits granted
    refine .runs objid rfl served.request
      { before with events := fun path waiting registered => ?_ }
    obtain ⟨other, member, isEvent⟩ := before.events path waiting registered
    refine ⟨other, ?_, isEvent⟩
    rw [inbox] at member
    rcases List.mem_append.mp member with arrives | aside
    · rcases List.mem_cons.mp arrives with isMsg | later
      · have type := isEvent.type
        rw [isMsg, isStatus] at type
        exact absurd type (by decide)
      · exact List.mem_append_left _ later
    · exact List.mem_append_right _ aside
  · rw [if_neg granted]
    exact .returned rfl served.request

/-- The next message leads to the next stage, or not yet. -/
theorem stage_take (stage : Stage cl system) :
    Stage cl (taken system msg rest) := by
  cases stage with
  | asksAll asked =>
      exact .asksAll (asked.take inbox rfl).2
  | told front ret served reports =>
      cases front with
      | nil =>
          exact ends_lookup inbox served reports
      | cons first others =>
          have isFirst := served.first_eq inbox
          rw [isFirst] at served reports
          obtain ⟨takes, next⟩ := served.take inbox rfl
          exact .told others ret next (reports.take served.isCall takes)
  | asksObject asked looked =>
      obtain ⟨takes, next⟩ := asked.take inbox rfl
      exact .asksObject next fun path found waiting =>
        looked path found (takes.pending waiting)
  | added front ret served looked =>
      cases front with
      | nil =>
          exact ends_addObject inbox served looked
      | cons first others =>
          have isFirst := served.first_eq inbox
          rw [isFirst] at served
          obtain ⟨takes, next⟩ := served.take inbox rfl
          exact .added others ret next fun path found waiting =>
            looked path found (takes.pending waiting)
  | asksEvents objid asked own looked =>
      obtain ⟨takes, next⟩ := asked.take inbox rfl
      refine .asksEvents objid next ((takes.objid ?_).trans own)
        fun path found waiting => looked path found (takes.pending waiting)
      rw [asked.isCall]
      exact nofun
  | registered front ret objid served awaits =>
      cases front with
      | nil =>
          exact ends_register inbox served awaits
      | cons first others =>
          have isFirst := served.first_eq inbox
          rw [isFirst] at served
          obtain ⟨takes, next⟩ := served.take inbox rfl
          refine .registered others ret objid next fun granted =>
            (awaits granted).take inbox takes ?_
          rw [served.isCall]
          exact nofun
  | runs objid call request awaits =>
      have idle : system.data.call.peer = none := by
        rw [call]
        rfl
      have hears := WaitData.hears_ubusProcessMsg idle msg
      rcases hears.narrows.call with same | returned
      · exact .runs objid (same.trans call)
          (hears.narrows.request.trans request) (awaits.hear inbox hears)
      · exact .returned returned (hears.narrows.request.trans request)
  | returned call request =>
      have idle : system.data.call.peer = none := by
        rw [call]
        rfl
      have narrows := (WaitData.hears_ubusProcessMsg idle msg).narrows
      refine .returned ?_ (narrows.request.trans request)
      exact narrows.call.elim (fun same => same.trans call) id

end HandleData

/-- All that was put aside is heard. -/
theorem Awaits.hearPending (awaits : Awaits cl objid system)
    (call : system.data.call = .uloopRun) :
    Awaits cl objid
      { system with data := system.data.ubusProcessPendingMsg } := by
  have idle : system.data.call.peer = none := by
    rw [call]
    rfl
  have hears := WaitData.hears_ubusProcessPendingMsg idle
  refine ⟨hears.narrows.objid.trans awaits.own, awaits.listening, ?_⟩
  intro path waiting registered
  obtain ⟨other, member, isEvent⟩ :=
    awaits.events path (hears.narrows.pending waiting) registered
  rcases List.mem_append.mp member with arrives | aside
  · exact ⟨other, List.mem_append_left _ arrives, isEvent⟩
  · exact absurd waiting (hears.heard objid awaits.own other aside path isEvent)

theorem Stage.running (stage : Stage cl system)
    (call : system.data.call = .uloopRun) :
    system.data.request = none ∧ ∃ objid, Awaits cl objid system := by
  cases stage with
  | asksAll asked =>
      exact absurd (asked.isCall.symm.trans call) nofun
  | told front ret served reports =>
      exact absurd (served.isCall.symm.trans call) nofun
  | asksObject asked looked =>
      exact absurd (asked.isCall.symm.trans call) nofun
  | added front ret served looked =>
      exact absurd (served.isCall.symm.trans call) nofun
  | asksEvents objid asked own looked =>
      exact absurd (asked.isCall.symm.trans call) nofun
  | registered front ret objid served awaits =>
      exact absurd (served.isCall.symm.trans call) nofun
  | runs objid isCall request awaits =>
      exact ⟨request, objid, awaits⟩
  | returned isCall request =>
      exact absurd (isCall.symm.trans call) nofun

/-! ## The result -/

theorem waitInv_init {bus : Bus} (reached : Reached bus) :
    WaitInv cl argv (waitFor bus cl argv).init where
  reached := reached
  pending := by
    rw [waitFor, ubusCliWaitFor]
    dsimp only
    split
    · exact List.Subset.refl _
    · exact List.Subset.refl _
  stage := by
    rw [waitFor, ubusCliWaitFor]
    dsimp only
    split
    · exact .returned rfl rfl
    · exact .asksAll ⟨rfl, rfl, fun _ member => absurd member List.not_mem_nil⟩

theorem waitInv_step (bus : Bus) (system : WaitSystem) (action : WaitAction)
    (next : WaitSystem) (inv : WaitInv cl argv system)
    (none : NoneBetween argv system action)
    (taken : (waitFor bus cl argv).step system action = some next) :
    WaitInv cl argv next := by
  change system.step cl action = some next at taken
  cases action with
  | other client ub urandom =>
      obtain ⟨⟨different, asks⟩, stepped⟩ :=
        Option.ite_none_right_eq_some.mp taken
      obtain ⟨stage, reached⟩ :=
        stage_other inv.reached inv.stage different asks stepped
      obtain ⟨_, _, _, isNext⟩ := busStep_some stepped
      exact ⟨reached, isNext ▸ inv.pending, stage⟩
  | serve urandom =>
      obtain ⟨stage, reached, pending⟩ :=
        stage_serve inv.reached inv.pending inv.stage none taken
      exact ⟨reached, pending, stage⟩
  | handleData =>
      rw [WaitSystem.step] at taken
      split at taken
      · exact absurd taken (Option.some_ne_none next).symm
      · rename_i msg rest inbox
        obtain ⟨_, isNext⟩ := Option.ite_none_right_eq_some.mp taken
        rw [← Option.some.inj isNext]
        exact
          { reached := inv.reached
            pending := List.Subset.trans WaitData.pending_ubusProcessMsg
              inv.pending
            stage := stage_take inbox inv.stage }
  | processPending =>
      obtain ⟨call, isNext⟩ := Option.ite_none_right_eq_some.mp taken
      obtain ⟨request, objid, awaits⟩ := inv.stage.running call
      have idle : system.data.call.peer = Option.none := by
        rw [call]
        rfl
      have hears := WaitData.hears_ubusProcessPendingMsg idle
      rw [← Option.some.inj isNext]
      refine ⟨inv.reached, List.Subset.trans hears.narrows.pending inv.pending,
        ?_⟩
      rcases hears.narrows.call with same | returned
      · exact .runs objid (same.trans call)
          (hears.narrows.request.trans request) (awaits.hearPending call)
      · exact .returned returned (hears.narrows.request.trans request)
  | waitTimeout =>
      obtain ⟨call, isNext⟩ := Option.ite_none_right_eq_some.mp taken
      rw [← Option.some.inj isNext]
      exact ⟨inv.reached, inv.pending,
        .returned rfl (inv.stage.running call).1⟩

/-- If no awaited path comes between the two requests, then no path that is
still awaited is registered once all messages are processed. -/
theorem waitFor_misses_none {before : List BusAction} {bus : Bus}
    {actions : List WaitAction} {final : WaitSystem}
    (whole : ∀ action ∈ before, action.Whole)
    (reached : ubusd.run before = some bus)
    (noneBetween : (waitFor bus cl argv).Meets (NoneBetween argv)
      (waitFor bus cl argv).init actions)
    (run : (waitFor bus cl argv).run actions = some final)
    (caughtUp : final.CaughtUp) :
    ∀ path ∈ final.data.pending, ¬ Registered final.bus.store path := by
  have inv := Machine.invariant_of_permitted
    (waitInv_init ⟨before, whole, reached⟩)
    (fun system action next => waitInv_step bus system action next) noneBetween
    run
  obtain ⟨_, objid, awaits⟩ := inv.stage.running caughtUp.call
  intro path waiting registered
  obtain ⟨msg, member, _⟩ := awaits.events path waiting registered
  rw [caughtUp.inbox, caughtUp.queued] at member
  exact List.not_mem_nil member

instance (argv : List (List UInt8)) (system : WaitSystem) :
    ∀ action : WaitAction, Decidable (NoneBetween argv system action)
  | .serve _ =>
      inferInstanceAs (Decidable (_ → ∀ path ∈ argv, _ → path ∈ _))
  | .other .. => isTrue trivial
  | .handleData => isTrue trivial
  | .processPending => isTrue trivial
  | .waitTimeout => isTrue trivial

/-- Two clients connect. -/
def twoClients : List BusAction := [.connect [5000], .connect [5001]]

def twoConnected : Bus := (ubusd.run twoClients).get (by decide)

/-- An object with the path `a`. -/
def addPathA : BusRequest :=
  ⟨⟨0, UbusMsgType.addObject.code, 1, 0⟩,
    [0, 0, 0, 16, 2, 0, 0, 6, 97, 0, 0, 0, 6, 0, 0, 4]⟩

/-- The first client waits for `a` and `b`, and the second adds `a` behind the
registration. -/
def addedBehind : List WaitAction :=
  [.serve [], .handleData, .serve [6002], .handleData, .handleData, .serve [],
    .handleData, .other 2 addPathA [6000, 6001], .handleData]

def awaitsB : WaitSystem :=
  ((waitFor twoConnected 1 [[97], [98]]).run addedBehind).get (by decide +kernel)

theorem waitFor_misses_none_behind :
    awaitsB.data.pending = [[98]] ∧
      ∀ path ∈ awaitsB.data.pending, ¬ Registered awaitsB.bus.store path :=
  ⟨by decide +kernel,
    @waitFor_misses_none 1 [[97], [98]] twoClients twoConnected addedBehind
      awaitsB (by decide) (Option.some_get _).symm (by decide +kernel)
      (Option.some_get _).symm
      ⟨by decide +kernel, by decide +kernel, by decide +kernel⟩⟩

/-- The second client adds `a` between the two requests. -/
def addedBetween : List WaitAction :=
  [.serve [], .handleData, .other 2 addPathA [6000, 6001], .serve [6002],
    .handleData, .handleData, .serve [], .handleData]

def missesA : WaitSystem :=
  ((waitFor twoConnected 1 [[97]]).run addedBetween).get (by decide +kernel)

/-- The object that is added there is missed. -/
theorem waitFor_misses_between :
    ¬ ∀ (cl : Ptr) (argv : List (List UInt8)) (before : List BusAction)
      (bus : Bus) (actions : List WaitAction) (final : WaitSystem),
      (∀ action ∈ before, action.Whole) → ubusd.run before = some bus →
        (waitFor bus cl argv).run actions = some final → final.CaughtUp →
          ∀ path ∈ final.data.pending, ¬ Registered final.bus.store path := by
  intro claimed
  have missed := claimed 1 [[97]] twoClients twoConnected addedBetween missesA
    (by decide) (Option.some_get _).symm (Option.some_get _).symm
    ⟨by decide +kernel, by decide +kernel, by decide +kernel⟩ [97]
    (by decide +kernel)
  exact missed (by decide +kernel)

end LibubusJni.WaitFor
