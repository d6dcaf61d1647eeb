import Mathlib.Data.List.Forall2
import LibubusJni.Libubus.Requests

/-!
# The loop of `ubus_complete_request` on a dead connection

From some point on every `recvmsg` on the socket of the context fails, so no
message is processed any more.  `calls` holds the calls of
`ubus_complete_request` that are active then, innermost first; a call further
out waits for the callback in which the next one was made.  `pass` is one
evaluation of the loop condition of the innermost call with what follows it:
another round of the loop, or the return of the call to the callback, which
returns too.
-/

namespace LibubusJni.Libubus

/-- How `recvmsg` fails: it reports EOF, there is no data now, or the error is
another one than `EINTR` and `EAGAIN`. -/
inductive RecvFailure where
  | eof
  | eagain
  | error
  deriving DecidableEq, Repr

/-- `ctx->connection_lost`. -/
inductive ConnectionLost where
  | ubusDefaultConnectionLost
  | ubusAutoDisconnectCb
  deriving DecidableEq, Repr

/-- What one pass meets: the clock, a SIGINT while it polls, and what the
`recvmsg` reports behind `interrupts` times `EINTR`. -/
structure PassEnv where
  now : Int
  sigint : Bool
  interrupts : Nat
  failure : RecvFailure
  deriving DecidableEq, Repr

/-- A call of `ubus_complete_request`: its parameter `req_timeout`, its locals,
and the status of its request once `status_msg` is set. -/
structure WaitingCall where
  reqTimeout : Int
  timeEnd : Int
  registered : Bool
  cancelled : Bool
  status : Option UInt32
  deriving DecidableEq, Repr

/-- What the loop reads and writes.  `returned` lists what the calls that have
ended returned, `timerSet` records `uloop_timeout_set(&conn->timer, 1000)`. -/
structure WaitingContext where
  uloopCancelled : Bool
  sockRegistered : Bool
  sockEof : Bool
  stackDepth : Nat
  connectionLost : ConnectionLost
  timerSet : Bool
  calls : List WaitingCall
  returned : List UInt32
  deriving DecidableEq, Repr

/-- `recv_retry` for the header when `recvmsg` fails. -/
def recvRetryFailing (uloopCancelled : Bool) (env : PassEnv) : Int :=
  if uloopCancelled && decide (env.interrupts ≠ 0) then 0
  else
    match env.failure with
    | .eof => -1
    | .eagain => 0
    | .error => if uloopCancelled then 0 else -1

namespace WaitingContext

/-- `ctx->connection_lost(ctx)`. -/
def loseConnection (ctx : WaitingContext) : WaitingContext :=
  match ctx.connectionLost with
  | .ubusDefaultConnectionLost =>
      if ctx.sockRegistered then { ctx with uloopCancelled := true } else ctx
  | .ubusAutoDisconnectCb => { ctx with timerSet := true }

/-- The end of `ubus_handle_data`. -/
def handleDataEnd (ctx : WaitingContext) : WaitingContext :=
  if ctx.sockEof then ctx.loseConnection else ctx

/-- `ubus_poll_data`. -/
def ubusPollData (ctx : WaitingContext) (env : PassEnv) : WaitingContext :=
  let ctx :=
    { ctx with uloopCancelled := ctx.uloopCancelled || env.sigint }
  { ctx with
    sockEof := ctx.sockEof ||
      decide (recvRetryFailing ctx.uloopCancelled env < 0) }.handleDataEnd

/-- `ubus_complete_request` up to its loop. -/
def ubusCompleteRequest (ctx : WaitingContext) (reqTimeout now : Int) :
    WaitingContext :=
  let call : WaitingCall :=
    { reqTimeout := reqTimeout
      timeEnd := if reqTimeout ≠ 0 then now + reqTimeout else 0
      registered := ctx.sockRegistered
      cancelled := ctx.uloopCancelled
      status := none }
  -- `uloop_fd_add` clears `eof`
  { ctx with
    sockEof := ctx.sockRegistered && ctx.sockEof
    sockRegistered := true
    stackDepth := ctx.stackDepth + 1
    calls := call :: ctx.calls }

/-- `ubus_complete_request` behind its loop, and the return of the callback in
which it was called to the loop further out. -/
def completeRequestReturn (ctx : WaitingContext) (call : WaitingCall)
    (status : UInt32) (outer : List WaitingCall) : WaitingContext :=
  let stackDepth := ctx.stackDepth - 1
  let ctx :=
    { ctx with
      stackDepth := stackDepth
      uloopCancelled := ctx.uloopCancelled || decide (stackDepth ≠ 0)
      sockRegistered := ctx.sockRegistered && call.registered
      calls := outer
      returned := ctx.returned ++ [status] }
  match outer with
  | [] => ctx
  | next :: _ =>
      -- `uloop_cancelled = cancelled` behind `ubus_poll_data`
      { ctx.handleDataEnd with uloopCancelled := next.cancelled }

/-- One pass of the innermost call. -/
def pass (ctx : WaitingContext) (env : PassEnv) : WaitingContext :=
  match ctx.calls with
  | [] => ctx
  | call :: outer =>
      match call.status with
      | some status => ctx.completeRequestReturn call status outer
      | none =>
          if call.reqTimeout ≠ 0 ∧ call.timeEnd - env.now ≤ 0 then
            -- `ubus_set_req_status`, and `break`
            ctx.completeRequestReturn call ubusStatusTimeout outer
          else
            { { ctx with uloopCancelled := false }.ubusPollData env with
              uloopCancelled := ctx.uloopCancelled
              calls :=
                { call with cancelled := ctx.uloopCancelled } :: outer }

def passes (ctx : WaitingContext) (env : Nat → PassEnv) :
    Nat → WaitingContext
  | 0 => ctx
  | count + 1 => (ctx.passes env count).pass (env count)

end WaitingContext

/-- A monotonic clock: it exceeds every time at some pass and stays there. -/
def ClockAdvances (env : Nat → PassEnv) : Prop :=
  ∀ time, ∃ count, ∀ later, count ≤ later → time ≤ (env later).now

/-- All active calls have returned, and those whose status had not arrived
returned a status that is not zero. -/
def AllReturned (ctx final : WaitingContext) : Prop :=
  final.calls = [] ∧
    ∃ statuses, final.returned = ctx.returned ++ statuses ∧
      List.Forall₂
        (fun call status => call.status = none → status ≠ 0)
        ctx.calls statuses

/-- The request has a timeout, or its status was there before. -/
def Ends (call : WaitingCall) : Prop :=
  call.reqTimeout ≠ 0 ∨ call.status ≠ none

namespace WaitingContext

variable {ctx : WaitingContext} {env : Nat → PassEnv}

@[simp]
theorem calls_handleDataEnd (ctx : WaitingContext) :
    ctx.handleDataEnd.calls = ctx.calls := by
  rw [handleDataEnd, loseConnection]
  split
  · split
    · split
      · rfl
      · rfl
    · rfl
  · rfl

@[simp]
theorem returned_handleDataEnd (ctx : WaitingContext) :
    ctx.handleDataEnd.returned = ctx.returned := by
  rw [handleDataEnd, loseConnection]
  split
  · split
    · split
      · rfl
      · rfl
    · rfl
  · rfl

theorem calls_completeRequestReturn (ctx : WaitingContext)
    (call : WaitingCall) (status : UInt32) (outer : List WaitingCall) :
    (ctx.completeRequestReturn call status outer).calls = outer := by
  cases outer with
  | nil =>
      rfl
  | cons next rest =>
      exact calls_handleDataEnd _

theorem returned_completeRequestReturn (ctx : WaitingContext)
    (call : WaitingCall) (status : UInt32) (outer : List WaitingCall) :
    (ctx.completeRequestReturn call status outer).returned =
      ctx.returned ++ [status] := by
  cases outer with
  | nil =>
      rfl
  | cons next rest =>
      exact returned_handleDataEnd _

/-- One pass leaves the innermost call, or it is another round of its loop. -/
theorem pass_cons
    {call : WaitingCall} {outer : List WaitingCall}
    (calls : ctx.calls = call :: outer) (now : PassEnv) :
    (Ends call ∧ ∃ status, (ctx.pass now).calls = outer ∧
        (ctx.pass now).returned = ctx.returned ++ [status] ∧
        (call.status = none → status ≠ 0)) ∨
      (∃ cancelled,
        (ctx.pass now).calls = { call with cancelled := cancelled } :: outer) ∧
        (ctx.pass now).returned = ctx.returned ∧
        call.status = none ∧
        (call.reqTimeout ≠ 0 → now.now < call.timeEnd) := by
  rw [pass, calls]
  dsimp only
  cases arrived : call.status with
  | some status =>
      have ends : Ends call := Or.inr (by rw [arrived]; nofun)
      exact Or.inl ⟨ends, status,
        calls_completeRequestReturn ctx call status outer,
        returned_completeRequestReturn ctx call status outer, nofun⟩
  | none =>
      dsimp only
      split
      · rename_i late
        exact Or.inl ⟨Or.inl late.1, ubusStatusTimeout,
          calls_completeRequestReturn ctx call _ outer,
          returned_completeRequestReturn ctx call _ outer,
          fun _ => by decide⟩
      · rename_i notOver
        refine Or.inr ⟨⟨_, rfl⟩, returned_handleDataEnd _, rfl, ?_⟩
        intro timed
        have remaining : ¬ call.timeEnd - now.now ≤ 0 :=
          fun late => notOver ⟨timed, late⟩
        omega

/-- The innermost call is left at some pass, with nothing else changed before
that. -/
theorem leaves_innermost
    (clock : ClockAdvances env)
    {call : WaitingCall} {outer : List WaitingCall}
    (calls : ctx.calls = call :: outer) (ends : Ends call) :
    ∃ count status, (ctx.passes env count).calls = outer ∧
      (ctx.passes env count).returned = ctx.returned ++ [status] ∧
      (call.status = none → status ≠ 0) := by
  have stays : ∀ count,
      (∃ earlier status, (ctx.passes env earlier).calls = outer ∧
        (ctx.passes env earlier).returned = ctx.returned ++ [status] ∧
        (call.status = none → status ≠ 0)) ∨
      (∃ cancelled, (ctx.passes env count).calls =
        { call with cancelled := cancelled } :: outer) ∧
        (ctx.passes env count).returned = ctx.returned := by
    intro count
    induction count with
    | zero =>
        exact Or.inr ⟨⟨call.cancelled, calls⟩, rfl⟩
    | succ count inductionHypothesis =>
        rcases inductionHypothesis with left | ⟨⟨cancelled, same⟩, returned⟩
        · exact Or.inl left
        · rcases pass_cons same (env count) with
            ⟨_, status, left, end', nonzero⟩ | ⟨⟨later, again⟩, same', _, _⟩
          · rw [returned] at end'
            exact Or.inl ⟨count + 1, status, left, end', nonzero⟩
          · exact Or.inr ⟨⟨later, again⟩, same'.trans returned⟩
  obtain ⟨count, late⟩ := clock call.timeEnd
  rcases stays count with left | ⟨⟨cancelled, same⟩, returned⟩
  · exact left
  · rcases pass_cons same (env count) with
      ⟨_, status, left, end', nonzero⟩ | ⟨_, _, waiting, inTime⟩
    · rw [returned] at end'
      exact ⟨count + 1, status, left, end', nonzero⟩
    · have timed : call.reqTimeout ≠ 0 :=
        ends.resolve_right (fun arrived => arrived waiting)
      exact absurd (inTime timed) (Int.not_lt.mpr (late count (Nat.le_refl _)))

theorem passes_add (ctx : WaitingContext) (env : Nat → PassEnv)
    (first second : Nat) :
    ctx.passes env (first + second) =
      (ctx.passes env first).passes (fun count => env (first + count))
        second := by
  induction second with
  | zero =>
      rfl
  | succ second inductionHypothesis =>
      rw [← Nat.add_assoc, passes, passes, inductionHypothesis]

end WaitingContext

theorem ClockAdvances.shift {env : Nat → PassEnv} (clock : ClockAdvances env)
    (passed : Nat) : ClockAdvances fun count => env (passed + count) := by
  intro time
  obtain ⟨count, late⟩ := clock time
  exact ⟨count, fun later reached => late (passed + later) (by omega)⟩

namespace WaitingContext

/-- Calls that all have a timeout or a status end one after the other. -/
theorem allReturned_of_ends
    {env : Nat → PassEnv} (clock : ClockAdvances env)
    (calls : List WaitingCall) (ctx : WaitingContext)
    (active : ctx.calls = calls) (ends : ∀ call ∈ calls, Ends call) :
    ∃ count, AllReturned ctx (ctx.passes env count) := by
  induction calls generalizing ctx env with
  | nil =>
      refine ⟨0, active, [], (List.append_nil _).symm, ?_⟩
      rw [active]
      exact .nil
  | cons call outer inductionHypothesis =>
      obtain ⟨first, status, left, returned, nonzero⟩ :=
        leaves_innermost clock active (ends call List.mem_cons_self)
      obtain ⟨second, none, statuses, later, all⟩ :=
        inductionHypothesis (clock.shift first) (ctx.passes env first) left
          (fun other member => ends other (List.mem_cons_of_mem call member))
      rw [left] at all
      refine ⟨first + second, ?_, status :: statuses, ?_, ?_⟩
      · rw [passes_add]
        exact none
      · rw [passes_add, later, returned, List.append_assoc]
        rfl
      · rw [active]
        exact .cons nonzero all

/-- A call without timeout and without status stays. -/
theorem never_left
    {ctx : WaitingContext} {env : Nat → PassEnv}
    {call : WaitingCall} (member : call ∈ ctx.calls) (stuck : ¬ Ends call)
    (count : Nat) :
    ∃ other ∈ (ctx.passes env count).calls, ¬ Ends other := by
  induction count with
  | zero =>
      exact ⟨call, member, stuck⟩
  | succ count inductionHypothesis =>
      obtain ⟨other, inside, otherStuck⟩ := inductionHypothesis
      cases active : (ctx.passes env count).calls with
      | nil =>
          rw [active] at inside
          exact absurd inside List.not_mem_nil
      | cons innermost outer =>
          rw [active] at inside
          rcases pass_cons active (env count) with
            ⟨ends, status, left, _⟩ | ⟨⟨cancelled, same⟩, _⟩
          · rcases List.mem_cons.mp inside with isInnermost | isOuter
            · rw [isInnermost] at otherStuck
              exact absurd ends otherStuck
            · refine ⟨other, ?_, otherStuck⟩
              rw [passes, left]
              exact isOuter
          · rcases List.mem_cons.mp inside with isInnermost | isOuter
            · rw [isInnermost] at otherStuck
              refine ⟨{ innermost with cancelled := cancelled }, ?_,
                otherStuck⟩
              rw [passes, same]
              exact List.mem_cons_self
            · refine ⟨other, ?_, otherStuck⟩
              rw [passes, same]
              exact List.mem_cons_of_mem _ isOuter

/-- All the active calls of `ubus_complete_request` return if and only if each
has a timeout, or its status was there before. -/
theorem ubusCompleteRequest_returns_iff
    (ctx : WaitingContext) {env : Nat → PassEnv} (clock : ClockAdvances env) :
    (∃ count, AllReturned ctx (ctx.passes env count)) ↔
      ∀ call ∈ ctx.calls, Ends call := by
  constructor
  · rintro ⟨count, none, _⟩ call member
    by_contra stuck
    obtain ⟨other, inside, _⟩ := never_left member stuck count
    rw [none] at inside
    exact absurd inside List.not_mem_nil
  · exact allReturned_of_ends clock ctx.calls ctx rfl

/-- A connection that reports EOF, read once a millisecond. -/
def closedConnection (count : Nat) : PassEnv :=
  ⟨count, false, 0, .eof⟩

/-- A registered context without active calls. -/
def idleContext : WaitingContext :=
  { uloopCancelled := false
    sockRegistered := true
    sockEof := false
    stackDepth := 0
    connectionLost := .ubusDefaultConnectionLost
    timerSet := false
    calls := []
    returned := [] }

theorem closedConnection_clock : ClockAdvances closedConnection := by
  intro time
  refine ⟨time.toNat, fun later reached => ?_⟩
  have passed : time ≤ (later : Int) := by omega
  exact passed

theorem ubusCompleteRequest_returns_iff_second :
    (∃ count, AllReturned (idleContext.ubusCompleteRequest 1000 0)
        ((idleContext.ubusCompleteRequest 1000 0).passes closedConnection
          count)) ↔
      ∀ call ∈ (idleContext.ubusCompleteRequest 1000 0).calls, Ends call :=
  ubusCompleteRequest_returns_iff _ closedConnection_clock

/-- `ubus_lookup_id`, which passes zero, does not return when ubusd closes the
connection. -/
theorem lookup_never_returns :
    ¬ ∀ (ctx : WaitingContext) (env : Nat → PassEnv) (reqTimeout : Int),
      ClockAdvances env →
        ∃ count, AllReturned (ctx.ubusCompleteRequest reqTimeout 0)
          ((ctx.ubusCompleteRequest reqTimeout 0).passes env count) := by
  intro returns
  obtain ⟨count, none, _⟩ := returns idleContext closedConnection 0
    closedConnection_clock
  let lookup : WaitingCall := ⟨0, 0, true, false, .none⟩
  have member : lookup ∈ (idleContext.ubusCompleteRequest 0 0).calls :=
    List.mem_cons_self
  have stuck : ¬ Ends lookup := by
    simp [Ends, lookup]
  obtain ⟨other, inside, _⟩ := never_left member stuck count
  rw [none] at inside
  exact absurd inside List.not_mem_nil

end WaitingContext

end LibubusJni.Libubus
