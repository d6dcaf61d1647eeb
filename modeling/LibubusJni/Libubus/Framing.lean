import LibubusJni.Lib.Machine
import LibubusJni.Wire

/-!
# Client framing: `recv_retry`, `get_next_msg`, `ubus_handle_data`

The read path of a libubus context, one `recvmsg` at a time.  `unread` is what
the peer still sends before it closes the connection, so a `recvmsg` on an
empty `unread` reports EOF.  Calls of `ubus_handle_data` nest: a message handler
that issues a synchronous request calls it again.  `frames` holds the active
calls, innermost first.

`uloop_fd_add`, which clears `sock.eof`, is not called on this path, and file
descriptors that travel with a message are left out.
-/

namespace LibubusJni.Libubus

open LibubusJni.Lib

/-- What one `recvmsg` reports.  Errors come with the value of
`uloop_cancelled` that `recv_retry` sees after them. -/
inductive RecvmsgResult where
  | chunk (more : Nat)
  | eagain (cancelled : Bool)
  | eintr (cancelled : Bool)
  deriving DecidableEq, Repr

/-- How far `get_next_msg` is. -/
inductive Progress where
  | header (got : List UInt8)
  | payload (start got : List UInt8)
  deriving DecidableEq, Repr

/-- One active call of `ubus_handle_data`. -/
inductive Frame where
  | reading (progress : Progress)
  | processing
  deriving DecidableEq, Repr

/-- The socket of a context, its active reads, and the messages passed to
`ubus_process_msg`. -/
structure Connection where
  unread : List UInt8
  eof : Bool
  frames : List Frame
  passed : List Message
  deriving DecidableEq, Repr

inductive ReadAction where
  /-- A call of `ubus_handle_data`, from the event loop or from a handler. -/
  | handleData
  /-- One `recvmsg` of the innermost call.  `alloc` is what `alloc_msg_buf`
  returns if the header is now complete, `stale` what the message buffer held
  before behind the bytes that were read. -/
  | recv (result : RecvmsgResult) (alloc : Bool) (stale : List UInt8)
  /-- `ubus_process_msg` returns; `cancelled` is `uloop_cancelled` then. -/
  | processed (cancelled : Bool)
  deriving DecidableEq, Repr

/-- One trip through the loop of `recv_retry`: it goes on with more bytes, or
the function returns zero or minus one. -/
inductive RetryOutcome where
  | more (bytes : List UInt8)
  | leave (value : Int)
  deriving DecidableEq, Repr

/-- The body of the loop in `recv_retry`. -/
def recvRetryPass (wait : Bool) (iovLen : Nat) (unread : List UInt8) :
    RecvmsgResult → RetryOutcome
  | .chunk more =>
      if unread = [] then .leave (-1)
      else .more (unread.take (min (more + 1) iovLen))
  | .eagain cancelled =>
      if cancelled then .leave 0
      -- `if (!wait && !bytes) return 0;`
      else if wait then .more []
      else .leave 0
  | .eintr cancelled =>
      if cancelled then .leave 0 else .more []

/-- `ubus_validate_hdr` on the twelve bytes of `hdrbuf`. -/
def ubusValidateHdr (start : List UInt8) : Bool :=
  start.head? = some 0 ∧ 4 ≤ blobRawLen (start.drop 8) ∧
    blobPadLen (start.drop 8) ≤ ubusMaxMsglen

namespace Connection

/-- `get_next_msg` returns true and `ubus_process_msg` is entered. -/
def pass (connection : Connection) (message : Message)
    (outer : List Frame) : Connection :=
  { connection with
    frames := .processing :: outer
    passed := connection.passed ++ [message] }

/-- The rest of `get_next_msg` once twelve bytes are in `hdrbuf`. -/
def headerRead (connection : Connection) (start : List UInt8)
    (alloc : Bool) (outer : List Frame) : Connection :=
  if !ubusValidateHdr start || !alloc then
    { connection with frames := outer }
  else if blobLen (start.drop 8) = 0 then
    connection.pass ⟨start.take 8, start.drop 8⟩ outer
  else
    { connection with frames := .reading (.payload start []) :: outer }

/-- One `recvmsg` of the innermost `ubus_handle_data`. -/
def recv (connection : Connection) (result : RecvmsgResult) (alloc : Bool)
    (stale : List UInt8) : Option Connection :=
  match connection.frames with
  | .reading (.header got) :: outer =>
      match recvRetryPass (!got.isEmpty) (12 - got.length)
          connection.unread result with
      | .leave value =>
          -- `if (r < 0) ctx->sock.eof = true;` and the call returns
          some
            { connection with
              eof := connection.eof || decide (value < 0)
              frames := outer }
      | .more bytes =>
          let connection :=
            { connection with unread := connection.unread.drop bytes.length }
          if (got ++ bytes).length < 12 then
            some
              { connection with
                frames := .reading (.header (got ++ bytes)) :: outer }
          else
            some (connection.headerRead (got ++ bytes) alloc outer)
  | .reading (.payload start got) :: outer =>
      let iovLen := (blobLen (start.drop 8)).toNat - got.length
      match recvRetryPass true iovLen connection.unread result with
      | .leave value =>
          -- `!recv_retry(..)`: only zero counts as a failure here
          if value = 0 then
            some { connection with frames := outer }
          else
            some
              (connection.pass
                ⟨start.take 8,
                  start.drop 8 ++ got ++ stale.take iovLen⟩ outer)
      | .more bytes =>
          let connection :=
            { connection with unread := connection.unread.drop bytes.length }
          if bytes.length < iovLen then
            some
              { connection with
                frames := .reading (.payload start (got ++ bytes)) :: outer }
          else
            some
              (connection.pass
                ⟨start.take 8, start.drop 8 ++ (got ++ bytes)⟩ outer)
  | _ => none

/-- `ubus_handle_data` and what it waits for. -/
def step (connection : Connection) : ReadAction → Option Connection
  | .handleData =>
      match connection.frames with
      | .reading _ :: _ => none
      | frames =>
          some
            { connection with frames := .reading (.header []) :: frames }
  | .recv result alloc stale => connection.recv result alloc stale
  | .processed cancelled =>
      match connection.frames with
      | .processing :: outer =>
          if cancelled then some { connection with frames := outer }
          else
            some
              { connection with frames := .reading (.header []) :: outer }
      | _ => none

/-- The bytes of the message that is being read. -/
def unfinished (connection : Connection) : List UInt8 :=
  match connection.frames with
  | .reading (.header got) :: _ => got
  | .reading (.payload start got) :: _ => start ++ got
  | _ => []

/-- The innermost call waits for the rest of a payload. -/
def inPayload (connection : Connection) : Bool :=
  match connection.frames with
  | .reading (.payload _ _) :: _ => true
  | _ => false

end Connection

/-- A context connected to a peer that sends `total` and then closes. -/
def readPath (total : List UInt8) : Machine Connection ReadAction where
  init := ⟨total, false, [], []⟩
  step := Connection.step

/-- No read fails under a cancelled loop inside a message, the stream does not
end inside a payload, and the message buffer can be allocated. -/
def ReadPermitted (connection : Connection) : ReadAction → Prop
  | .recv (.chunk _) alloc _ =>
      alloc = true ∧ (connection.unread = [] → connection.inPayload = false)
  | .recv (.eagain cancelled) _ _ | .recv (.eintr cancelled) _ _ =>
      cancelled = true → connection.unfinished = []
  | _ => True

/-- A message that `ubus_validate_hdr` accepts, with all its bytes. -/
structure Acceptable (message : Message) : Prop where
  formed : message.WellFormed
  version : message.hdr.head? = some 0

/-- What the read path promises: the messages passed on are the first messages
of the stream, and outside of a message the read position is a message boundary
unless EOF was seen. -/
def Framed (messages : List Message) (total : List UInt8)
    (connection : Connection) : Prop :=
  connection.passed <+: messages ∧
    (connection.unfinished = [] → connection.eof = true ∨
      ∃ done, done <+: messages ∧ total = stream done ++ connection.unread)

/-! ## The invariant -/

/-- Where a context stands in the stream while no EOF was seen. -/
structure InStream (messages : List Message) (total : List UInt8)
    (connection : Connection) : Prop where
  position :
    total =
      stream connection.passed ++ connection.unfinished ++ connection.unread
  short :
    ∀ got outer,
      connection.frames = .reading (.header got) :: outer → got.length < 12
  payload :
    ∀ start got outer,
      connection.frames = .reading (.payload start got) :: outer →
        start.length = 12 ∧
          got.length < (blobLen (start.drop 8)).toNat

/-- The invariant of the read path. -/
structure ReadInv (messages : List Message) (total : List UInt8)
    (connection : Connection) : Prop where
  passed : connection.passed <+: messages
  /-- Only the innermost call reads. -/
  outer : ∀ frame ∈ connection.frames.tail, frame = .processing
  eof : connection.eof = true →
    connection.unread = [] ∧ connection.unfinished = [] ∧
      connection.inPayload = false
  inStream : connection.eof = false → InStream messages total connection

/-! ## One `recvmsg` -/

theorem recvRetryPass_more
    {wait : Bool} {iovLen : Nat} {unread bytes : List UInt8}
    {result : RecvmsgResult}
    (outcome : recvRetryPass wait iovLen unread result = .more bytes) :
    bytes <+: unread ∧ bytes.length ≤ iovLen ∧
      (bytes = [] ∨ ∃ more, result = .chunk more) := by
  cases result with
  | chunk more =>
      simp only [recvRetryPass] at outcome
      split at outcome
      · cases outcome
      · rw [RetryOutcome.more.injEq] at outcome
        subst outcome
        refine ⟨List.take_prefix _ _, ?_, Or.inr ⟨more, rfl⟩⟩
        rw [List.length_take]
        omega
  | eagain cancelled =>
      simp only [recvRetryPass] at outcome
      split at outcome
      · cases outcome
      · split at outcome
        · rw [RetryOutcome.more.injEq] at outcome
          subst outcome
          exact ⟨List.nil_prefix, Nat.zero_le _, Or.inl rfl⟩
        · cases outcome
  | eintr cancelled =>
      simp only [recvRetryPass] at outcome
      split at outcome
      · cases outcome
      · rw [RetryOutcome.more.injEq] at outcome
        subst outcome
        exact ⟨List.nil_prefix, Nat.zero_le _, Or.inl rfl⟩

/-- `recv_retry` returns early at EOF, under a cancelled loop, or because the
first read of a header found nothing. -/
theorem recvRetryPass_leave
    {wait : Bool} {iovLen : Nat} {unread : List UInt8}
    {result : RecvmsgResult} {value : Int}
    (outcome : recvRetryPass wait iovLen unread result = .leave value) :
    (value = -1 ∧ unread = [] ∧ ∃ more, result = .chunk more) ∨
      (value = 0 ∧
        (result = .eagain true ∨ result = .eintr true ∨ wait = false)) := by
  cases result with
  | chunk more =>
      simp only [recvRetryPass] at outcome
      split at outcome
      · rw [RetryOutcome.leave.injEq] at outcome
        exact Or.inl ⟨outcome.symm, ‹unread = []›, more, rfl⟩
      · cases outcome
  | eagain cancelled =>
      cases cancelled with
      | true =>
          rw [recvRetryPass, if_pos rfl, RetryOutcome.leave.injEq] at outcome
          exact Or.inr ⟨outcome.symm, Or.inl rfl⟩
      | false =>
          cases wait with
          | true =>
              simp [recvRetryPass] at outcome
          | false =>
              simp only [recvRetryPass, Bool.false_eq_true, if_false,
                RetryOutcome.leave.injEq] at outcome
              exact Or.inr ⟨outcome.symm, Or.inr (Or.inr rfl)⟩
  | eintr cancelled =>
      cases cancelled with
      | true =>
          rw [recvRetryPass, if_pos rfl, RetryOutcome.leave.injEq] at outcome
          exact Or.inr ⟨outcome.symm, Or.inr (Or.inl rfl)⟩
      | false =>
          simp [recvRetryPass] at outcome

/-! ## The first bytes of a stream -/

theorem Acceptable.validates {message : Message}
    (acceptable : Acceptable message) :
    ubusValidateHdr message.start = true := by
  have formed := acceptable.formed
  have version : message.start.head? = some 0 := by
    rw [Message.start, List.head?_append, acceptable.version]
    rfl
  have four : 4 ≤ blobRawLen (message.data.take 4) := by
    have bound := formed.rawLen_start
    have enough := formed.four_le
    rw [UInt32.le_iff_toNat_le, bound]
    exact enough
  simp only [ubusValidateHdr, decide_eq_true_eq]
  rw [formed.drop_start]
  exact ⟨version, four, formed.padLen_start⟩

theorem Acceptable.blobLen_start {message : Message}
    (acceptable : Acceptable message) :
    (blobLen (message.start.drop 8)).toNat = message.data.length - 4 := by
  have formed := acceptable.formed
  have rawLen := formed.rawLen_start
  have enough := formed.four_le
  rw [formed.drop_start]
  have four : (4 : UInt32) ≤ blobIdLen (message.data.take 4) &&& 0x00ffffff := by
    rw [← blobRawLen_eq, UInt32.le_iff_toNat_le, rawLen]
    exact enough
  rw [blobLen, UInt32.toNat_sub_of_le _ _ four, ← blobRawLen_eq, rawLen]
  rfl

/-- Twelve bytes at the front of a stream are the start of its first
message. -/
theorem start_of_stream
    {messages : List Message}
    (acceptable : ∀ message ∈ messages, Acceptable message)
    {front unread : List UInt8} (twelve : front.length = 12)
    (within : front ++ unread <+: stream messages) :
    ∃ message rest, messages = message :: rest ∧ front = message.start := by
  cases messages with
  | nil =>
      have bound := within.length_le
      rw [List.length_append, stream_nil, List.length_nil] at bound
      omega
  | cons message rest =>
      refine ⟨message, rest, rfl, ?_⟩
      have formed := (acceptable message List.mem_cons_self).formed
      have firstBytes :
          front <+: message.start ++ (message.data.drop 4 ++ stream rest) := by
        rw [← List.append_assoc, ← message.image_eq_start, ← stream_cons]
        exact (List.prefix_append front unread).trans within
      exact (List.prefix_of_prefix_length_le firstBytes
        (List.prefix_append _ _)
        (Nat.le_of_eq (by rw [twelve, formed.length_start]))).eq_of_length
        (by rw [twelve, formed.length_start])

/-- The bytes behind the start of a message are its payload. -/
theorem payload_of_stream
    {message : Message} {rest : List Message}
    (formed : message.WellFormed)
    {got unread : List UInt8} (full : got.length = message.data.length - 4)
    (within :
      message.start ++ got ++ unread <+: stream (message :: rest)) :
    message.start.drop 8 ++ got = message.data := by
  have behind : got ++ unread <+: message.data.drop 4 ++ stream rest := by
    rw [stream_cons, message.image_eq_start, List.append_assoc,
      List.append_assoc] at within
    exact (List.prefix_append_right_inj message.start).mp within
  have gotEq : got = message.data.drop 4 :=
    (List.prefix_of_prefix_length_le
      ((List.prefix_append got unread).trans behind)
      (List.prefix_append _ _)
      (Nat.le_of_eq (by rw [full, List.length_drop]))).eq_of_length
      (by rw [full, List.length_drop])
  rw [formed.drop_start, gotEq, List.take_append_drop]

/-- Twelve bytes behind the messages passed on are the start of the next
one. -/
theorem next_of_stream
    {messages passed : List Message} {total start behind : List UInt8}
    (acceptable : ∀ message ∈ messages, Acceptable message)
    (cut : total <+: stream messages) (isFront : passed <+: messages)
    (position : total = stream passed ++ (start ++ behind))
    (twelve : start.length = 12) :
    ∃ message rest, messages = passed ++ message :: rest ∧
      start = message.start ∧ Acceptable message ∧
      start ++ behind <+: stream (message :: rest) := by
  obtain ⟨left, rfl⟩ := isFront
  have within : start ++ behind <+: stream left := by
    rw [position, stream_append] at cut
    exact (List.prefix_append_right_inj (stream passed)).mp cut
  obtain ⟨message, rest, rfl, startEq⟩ :=
    start_of_stream
      (fun message member =>
        acceptable message (List.mem_append_right passed member))
      twelve within
  exact ⟨message, rest, rfl, startEq,
    acceptable message
      (List.mem_append_right passed List.mem_cons_self), within⟩

/-! ## Every step keeps the invariant -/

section Steps

variable {messages : List Message} {total : List UInt8}
variable {connection : Connection}

theorem Connection.unfinished_of_processing
    (waiting : ∀ frame ∈ connection.frames, frame = .processing) :
    connection.unfinished = [] ∧ connection.inPayload = false := by
  unfold Connection.unfinished Connection.inPayload
  cases framesEq : connection.frames with
  | nil =>
      exact ⟨rfl, rfl⟩
  | cons frame outer =>
      have isProcessing : frame = .processing :=
        waiting frame (by rw [framesEq]; exact List.mem_cons_self)
      subst isProcessing
      exact ⟨rfl, rfl⟩

/-- No call reads any more, or a new one starts with an empty `hdrbuf`. -/
theorem ReadInv.between
    (isFront : connection.passed <+: messages)
    (outer : ∀ frame ∈ connection.frames.tail, frame = .processing)
    (front : connection.frames.head? = some (.reading (.header [])) ∨
      ∀ frame ∈ connection.frames, frame = .processing)
    (atEnd : connection.eof = true → connection.unread = [])
    (position : connection.eof = false →
      total = stream connection.passed ++ connection.unread) :
    ReadInv messages total connection := by
  have nothing :
      connection.unfinished = [] ∧ connection.inPayload = false := by
    rcases front with header | waiting
    · obtain ⟨rest, framesEq⟩ := List.head?_eq_some_iff.mp header
      simp [Connection.unfinished, Connection.inPayload, framesEq]
    · exact Connection.unfinished_of_processing waiting
  refine
    { passed := isFront
      outer := outer
      eof := fun seen => ⟨atEnd seen, nothing⟩
      inStream := fun unseen => ?_ }
  refine
    { position := by
        rw [nothing.1, List.append_nil]
        exact position unseen
      short := fun got rest framesEq => ?_
      payload := fun start got rest framesEq => ?_ }
  · rcases front with header | waiting
    · rw [framesEq, List.head?_cons, Option.some.injEq, Frame.reading.injEq,
        Progress.header.injEq] at header
      rw [header]
      exact Nat.succ_pos 11
    · have impossible :=
        waiting _ (by rw [framesEq]; exact List.mem_cons_self)
      cases impossible
  · have inside : connection.inPayload = true := by
      rw [Connection.inPayload, framesEq]
    rw [nothing.2] at inside
    cases inside

/-- Passing on the next message of the stream keeps the invariant. -/
theorem ReadInv.pass
    {message : Message} {rest : List Message} {outer : List Frame}
    (waiting : ∀ frame ∈ outer, frame = .processing)
    (next : messages = connection.passed ++ message :: rest)
    (unseen : connection.eof = false)
    (position : total =
      stream connection.passed ++ message.image ++ connection.unread) :
    ReadInv messages total (connection.pass message outer) := by
  apply ReadInv.between
  · exact ⟨rest, by rw [next, Connection.pass, List.append_assoc]; rfl⟩
  · exact waiting
  · exact Or.inr (List.forall_mem_cons.mpr ⟨rfl, waiting⟩)
  · intro seen
    rw [Connection.pass] at seen
    rw [unseen] at seen
    cases seen
  · intro _
    show total =
      stream (connection.passed ++ [message]) ++ connection.unread
    rw [position, stream_append, stream_cons, stream_nil, List.append_nil]

/-- Twelve bytes of the stream are in `hdrbuf`. -/
theorem ReadInv.headerRead
    (acceptable : ∀ message ∈ messages, Acceptable message)
    (cut : total <+: stream messages)
    {start : List UInt8} {outer : List Frame}
    (isFront : connection.passed <+: messages)
    (waiting : ∀ frame ∈ outer, frame = .processing)
    (unseen : connection.eof = false) (twelve : start.length = 12)
    (position :
      total = stream connection.passed ++ start ++ connection.unread) :
    ReadInv messages total (connection.headerRead start true outer) := by
  rw [List.append_assoc] at position
  obtain ⟨message, rest, next, rfl, messageAcceptable, within⟩ :=
    next_of_stream acceptable cut isFront position twelve
  have validated : ¬ (!ubusValidateHdr message.start || !true) = true := by
    rw [messageAcceptable.validates]
    decide
  rw [Connection.headerRead, if_neg validated]
  by_cases empty : blobLen (message.start.drop 8) = 0
  · rw [if_pos empty]
    have noPayload : message.data.length - 4 = 0 := by
      rw [← messageAcceptable.blobLen_start, empty]
      rfl
    have whole :
        message.start ++ [] ++ connection.unread <+:
          stream (message :: rest) := by
      rw [List.append_nil]
      exact within
    have dataEq : message.start.drop 8 ++ [] = message.data :=
      payload_of_stream messageAcceptable.formed noPayload.symm whole
    rw [List.append_nil] at dataEq
    rw [messageAcceptable.formed.take_start, dataEq]
    apply ReadInv.pass waiting next unseen
    have imageEq : message.image = message.start := by
      rw [message.image_eq_start, List.drop_of_length_le (by omega),
        List.append_nil]
    rw [position, imageEq, List.append_assoc]
  · rw [if_neg empty]
    have some : 0 < (blobLen (message.start.drop 8)).toNat :=
      Nat.pos_of_ne_zero fun zero =>
        empty (UInt32.toNat_inj.mp (by rw [zero]; rfl))
    refine
      { passed := isFront
        outer := waiting
        eof := fun seen => ?_
        inStream := fun _ =>
          { position := ?_
            short := fun got rest framesEq => ?_
            payload := fun start got rest framesEq => ?_ } }
    · rw [unseen] at seen
      cases seen
    · show total =
        stream connection.passed ++ (message.start ++ []) ++ connection.unread
      rw [position, List.append_nil, List.append_assoc]
    · cases framesEq
    · cases framesEq
      exact ⟨twelve, some⟩

/-- The last bytes of a payload have arrived. -/
theorem ReadInv.payloadRead
    (acceptable : ∀ message ∈ messages, Acceptable message)
    (cut : total <+: stream messages)
    {start got : List UInt8} {outer : List Frame}
    (isFront : connection.passed <+: messages)
    (waiting : ∀ frame ∈ outer, frame = .processing)
    (unseen : connection.eof = false) (twelve : start.length = 12)
    (full : got.length = (blobLen (start.drop 8)).toNat)
    (position :
      total =
        stream connection.passed ++ (start ++ got) ++ connection.unread) :
    ReadInv messages total
      (connection.pass ⟨start.take 8, start.drop 8 ++ got⟩ outer) := by
  have fromStart :
      total =
        stream connection.passed ++
          (start ++ (got ++ connection.unread)) := by
    rw [position]
    simp only [List.append_assoc]
  obtain ⟨message, rest, next, rfl, messageAcceptable, within⟩ :=
    next_of_stream acceptable cut isFront fromStart twelve
  rw [messageAcceptable.blobLen_start] at full
  rw [← List.append_assoc] at within
  have dataEq : message.start.drop 8 ++ got = message.data :=
    payload_of_stream messageAcceptable.formed full within
  have imageEq : message.image = message.start ++ got := by
    rw [Message.image, ← dataEq, ← List.append_assoc,
      ← messageAcceptable.formed.take_start, List.take_append_drop]
  rw [messageAcceptable.formed.take_start, dataEq]
  apply ReadInv.pass waiting next unseen
  rw [imageEq, position]

/-- One `recvmsg` for the header. -/
theorem ReadInv.recvHeader
    (acceptable : ∀ message ∈ messages, Acceptable message)
    (cut : total <+: stream messages)
    (inv : ReadInv messages total connection)
    {got : List UInt8} {outer : List Frame} {next : Connection}
    (framesEq : connection.frames = .reading (.header got) :: outer)
    {result : RecvmsgResult} {alloc : Bool} {stale : List UInt8}
    (permitted : ReadPermitted connection (.recv result alloc stale))
    (taken : connection.recv result alloc stale = some next) :
    ReadInv messages total next := by
  have unfinishedEq : connection.unfinished = got := by
    rw [Connection.unfinished, framesEq]
  have waiting : ∀ frame ∈ outer, frame = .processing := by
    have outerProcessing := inv.outer
    rwa [framesEq] at outerProcessing
  simp only [Connection.recv, framesEq] at taken
  split at taken
  · rename_i value outcome
    rw [Option.some.injEq] at taken
    subst taken
    have waitingTail : ∀ frame ∈ outer.tail, frame = .processing :=
      fun frame member => waiting frame (List.mem_of_mem_tail member)
    rcases recvRetryPass_leave outcome with
      ⟨rfl, drained, _⟩ | ⟨rfl, interrupted⟩
    · apply ReadInv.between
      · exact inv.passed
      · exact waitingTail
      · exact Or.inr waiting
      · exact fun _ => drained
      · intro unseen
        simp at unseen
    · have nothing : got = [] := by
        rcases interrupted with rfl | rfl | notWaiting
        · rw [← unfinishedEq]
          exact permitted rfl
        · rw [← unfinishedEq]
          exact permitted rfl
        · simpa using notWaiting
      have eofEq : (connection.eof || decide ((0 : Int) < 0)) =
          connection.eof := Bool.or_false _
      apply ReadInv.between
      · exact inv.passed
      · exact waitingTail
      · exact Or.inr waiting
      · intro seen
        rw [eofEq] at seen
        exact (inv.eof seen).1
      · intro unseen
        rw [eofEq] at unseen
        have position := (inv.inStream unseen).position
        rwa [unfinishedEq, nothing, List.append_nil] at position
  · rename_i bytes outcome
    obtain ⟨⟨remaining, unreadEq⟩, short, source⟩ := recvRetryPass_more outcome
    have dropEq : connection.unread.drop bytes.length = remaining := by
      rw [← unreadEq, List.drop_left]
    rw [dropEq] at taken
    cases eofSeen : connection.eof with
    | true =>
        obtain ⟨drained, nothing, _⟩ := inv.eof eofSeen
        rw [drained, List.append_eq_nil_iff] at unreadEq
        obtain ⟨rfl, rfl⟩ := unreadEq
        rw [unfinishedEq] at nothing
        subst nothing
        rw [List.append_nil, if_pos (by decide), Option.some.injEq] at taken
        subst taken
        apply ReadInv.between
        · exact inv.passed
        · exact waiting
        · exact Or.inl rfl
        · exact fun _ => rfl
        · intro unseen
          rw [show connection.eof = false from unseen] at eofSeen
          cases eofSeen
    | false =>
        have inStream := inv.inStream eofSeen
        have position :
            total =
              stream connection.passed ++ (got ++ bytes) ++ remaining := by
          rw [inStream.position, unfinishedEq, ← unreadEq]
          simp only [List.append_assoc]
        have gotShort := inStream.short got outer framesEq
        split at taken
        · rename_i stillShort
          rw [Option.some.injEq] at taken
          subst taken
          refine
            { passed := inv.passed
              outer := waiting
              eof := fun seen => ?_
              inStream := fun _ =>
                { position := position
                  short := fun more rest moreEq => ?_
                  payload := fun start more rest moreEq => ?_ } }
          · rw [show connection.eof = true from seen] at eofSeen
            cases eofSeen
          · cases moreEq
            exact stillShort
          · cases moreEq
        · rename_i complete
          rw [Option.some.injEq] at taken
          rw [List.length_append] at complete
          have twelve : (got ++ bytes).length = 12 := by
            rw [List.length_append]
            omega
          have allocated : alloc = true := by
            rcases source with rfl | ⟨more, rfl⟩
            · rw [List.length_nil] at complete
              omega
            · exact permitted.1
          subst taken allocated
          apply ReadInv.headerRead acceptable cut
          · exact inv.passed
          · exact waiting
          · exact eofSeen
          · exact twelve
          · exact position

/-- One `recvmsg` for the payload. -/
theorem ReadInv.recvPayload
    (acceptable : ∀ message ∈ messages, Acceptable message)
    (cut : total <+: stream messages)
    (inv : ReadInv messages total connection)
    {start got : List UInt8} {outer : List Frame} {next : Connection}
    (framesEq : connection.frames = .reading (.payload start got) :: outer)
    {result : RecvmsgResult} {alloc : Bool} {stale : List UInt8}
    (permitted : ReadPermitted connection (.recv result alloc stale))
    (taken : connection.recv result alloc stale = some next) :
    ReadInv messages total next := by
  have unfinishedEq : connection.unfinished = start ++ got := by
    rw [Connection.unfinished, framesEq]
  have inPayload : connection.inPayload = true := by
    rw [Connection.inPayload, framesEq]
  have unseen : connection.eof = false := by
    rw [Bool.eq_false_iff]
    intro seen
    rw [(inv.eof seen).2.2] at inPayload
    cases inPayload
  have waiting : ∀ frame ∈ outer, frame = .processing := by
    have outerProcessing := inv.outer
    rwa [framesEq] at outerProcessing
  have inStream := inv.inStream unseen
  obtain ⟨twelve, gotShort⟩ := inStream.payload start got outer framesEq
  have notCancelled : connection.unfinished ≠ [] := by
    intro nothing
    rw [unfinishedEq, List.append_eq_nil_iff] at nothing
    rw [nothing.1] at twelve
    cases twelve
  simp only [Connection.recv, framesEq] at taken
  split at taken
  · rename_i value outcome
    exfalso
    rcases recvRetryPass_leave outcome with
      ⟨_, drained, more, rfl⟩ | ⟨_, rfl | rfl | notWaiting⟩
    · have outside := permitted.2 drained
      rw [inPayload] at outside
      cases outside
    · exact notCancelled (permitted rfl)
    · exact notCancelled (permitted rfl)
    · cases notWaiting
  · rename_i bytes outcome
    obtain ⟨⟨remaining, unreadEq⟩, short, _⟩ := recvRetryPass_more outcome
    have dropEq : connection.unread.drop bytes.length = remaining := by
      rw [← unreadEq, List.drop_left]
    have position :
        total =
          stream connection.passed ++ (start ++ (got ++ bytes)) ++
            remaining := by
      rw [inStream.position, unfinishedEq, ← unreadEq]
      simp only [List.append_assoc]
    rw [dropEq] at taken
    split at taken
    · rename_i stillShort
      rw [Option.some.injEq] at taken
      subst taken
      refine
        { passed := inv.passed
          outer := waiting
          eof := fun seen => ?_
          inStream := fun _ =>
            { position := position
              short := fun more rest moreEq => ?_
              payload := fun first more rest moreEq => ?_ } }
      · rw [show connection.eof = true from seen] at unseen
        cases unseen
      · cases moreEq
      · cases moreEq
        refine ⟨twelve, ?_⟩
        rw [List.length_append]
        omega
    · rw [Option.some.injEq] at taken
      subst taken
      apply ReadInv.payloadRead acceptable cut
      · exact inv.passed
      · exact waiting
      · exact unseen
      · exact twelve
      · rw [List.length_append]
        omega
      · exact position

/-- Every permitted step of the read path keeps the invariant. -/
theorem ReadInv.step
    (acceptable : ∀ message ∈ messages, Acceptable message)
    (cut : total <+: stream messages)
    (inv : ReadInv messages total connection)
    {action : ReadAction} {next : Connection}
    (permitted : ReadPermitted connection action)
    (taken : connection.step action = some next) :
    ReadInv messages total next := by
  cases action with
  | handleData =>
      rw [Connection.step] at taken
      split at taken
      · cases taken
      · rename_i notReading
        rw [Option.some.injEq] at taken
        subst taken
        have waiting : ∀ frame ∈ connection.frames, frame = .processing := by
          have outerProcessing := inv.outer
          cases framesEq : connection.frames with
          | nil =>
              intro frame member
              cases member
          | cons frame outer =>
              rw [framesEq] at outerProcessing
              cases frame with
              | reading progress =>
                  exact absurd framesEq (notReading progress outer)
              | processing =>
                  exact List.forall_mem_cons.mpr ⟨rfl, outerProcessing⟩
        have nothing := (Connection.unfinished_of_processing waiting).1
        apply ReadInv.between
        · exact inv.passed
        · exact waiting
        · exact Or.inl rfl
        · exact fun seen => (inv.eof seen).1
        · intro unseen
          have position := (inv.inStream unseen).position
          rwa [nothing, List.append_nil] at position
  | recv result alloc stale =>
      rw [Connection.step] at taken
      cases framesEq : connection.frames with
      | nil =>
          simp [Connection.recv, framesEq] at taken
      | cons frame outer =>
          cases frame with
          | processing =>
              simp [Connection.recv, framesEq] at taken
          | reading progress =>
              cases progress with
              | header got =>
                  exact inv.recvHeader acceptable cut framesEq permitted taken
              | payload start got =>
                  exact inv.recvPayload acceptable cut framesEq permitted
                    taken
  | processed cancelled =>
      rw [Connection.step] at taken
      split at taken
      · rename_i outer framesEq
        have waiting : ∀ frame ∈ outer, frame = .processing := by
          have outerProcessing := inv.outer
          rwa [framesEq] at outerProcessing
        have nothing : connection.unfinished = [] := by
          rw [Connection.unfinished, framesEq]
        have position : connection.eof = false →
            total = stream connection.passed ++ connection.unread := by
          intro unseen
          have position := (inv.inStream unseen).position
          rwa [nothing, List.append_nil] at position
        split at taken
        · rw [Option.some.injEq] at taken
          subst taken
          apply ReadInv.between
          · exact inv.passed
          · exact fun frame member =>
              waiting frame (List.mem_of_mem_tail member)
          · exact Or.inr waiting
          · exact fun seen => (inv.eof seen).1
          · exact position
        · rw [Option.some.injEq] at taken
          subst taken
          apply ReadInv.between
          · exact inv.passed
          · exact waiting
          · exact Or.inl rfl
          · exact fun seen => (inv.eof seen).1
          · exact position
      · cases taken

end Steps

theorem ReadInv.framed
    {messages : List Message} {total : List UInt8}
    {connection : Connection}
    (inv : ReadInv messages total connection) :
    Framed messages total connection := by
  refine ⟨inv.passed, fun outside => ?_⟩
  cases eofSeen : connection.eof with
  | true =>
      exact Or.inl rfl
  | false =>
      refine Or.inr ⟨connection.passed, inv.passed, ?_⟩
      have position := (inv.inStream eofSeen).position
      rwa [outside, List.append_nil] at position

/-! ## Whole runs -/

/-- In a run without an EOF inside a payload and without a failed read under a
cancelled loop inside a message, every message passed on is the next one of the
stream and every return is at a message boundary or at EOF. -/
theorem ubusHandleData_framed
    {messages : List Message}
    (acceptable : ∀ message ∈ messages, Acceptable message)
    {total : List UInt8} (cut : total <+: stream messages)
    {actions : List ReadAction} {connection : Connection}
    (permitted :
      (readPath total).Meets ReadPermitted (readPath total).init actions)
    (reached : (readPath total).run actions = some connection) :
    Framed messages total connection := by
  have initially : ReadInv messages total (readPath total).init := by
    apply ReadInv.between
    · exact List.nil_prefix
    · exact fun frame member => nomatch member
    · exact Or.inr fun frame member => nomatch member
    · exact fun seen => nomatch seen
    · exact fun _ => rfl
  have inv : ReadInv messages total connection :=
    Machine.invariant_of_permitted initially
      (fun _ _ _ holds stepPermitted taken =>
        holds.step acceptable cut stepPermitted taken)
      permitted reached
  exact inv.framed

/-- A status message with a return code. -/
def cutStatus : Message :=
  ⟨[0, 1, 1, 0, 0, 0, 0, 0], [0, 0, 0, 12, 1, 0, 0, 8, 0, 0, 0, 0]⟩

theorem cutStatus_acceptable : Acceptable cutStatus :=
  ⟨by decide, rfl⟩

/-- The reads of a stream that ends inside the second header. -/
def cutHeaderReads : List ReadAction :=
  [.handleData, .recv (.chunk 99) true [], .recv (.chunk 99) true [],
    .processed false, .recv (.chunk 99) true [], .recv (.chunk 0) true []]

/-- The stream ends behind six bytes of the second message. -/
theorem ubusHandleData_framed_cutHeader :
    Framed [cutStatus, cutStatus] (cutStatus.image ++ cutStatus.image.take 6)
      ⟨[], true, [], [cutStatus]⟩ := by
  apply @ubusHandleData_framed _ _ _ _ cutHeaderReads
  · apply Machine.Meets.cons trivial rfl
    apply Machine.Meets.cons ⟨rfl, fun drained => nomatch drained⟩ rfl
    apply Machine.Meets.cons ⟨rfl, fun drained => nomatch drained⟩ rfl
    apply Machine.Meets.cons trivial rfl
    apply Machine.Meets.cons ⟨rfl, fun drained => nomatch drained⟩ rfl
    apply Machine.Meets.cons ⟨rfl, fun _ => rfl⟩ rfl
    exact trivial
  · rfl
  · intro message member
    rw [List.mem_pair] at member
    rcases member with rfl | rfl <;> exact cutStatus_acceptable
  · decide

/-- The peer closes the connection inside a payload: `recv_retry` returns minus
one, `get_next_msg` tests only for zero, and the message is passed on with what
the buffer held before. -/
theorem ubusHandleData_passes_truncated :
    Acceptable cutStatus ∧
      cutStatus.image.take 14 <+: stream [cutStatus] ∧
      ∃ connection,
        (readPath (cutStatus.image.take 14)).run
            [.handleData, .recv (.chunk 99) true [],
              .recv (.chunk 99) true [],
              .recv (.chunk 0) true [7, 7, 7, 7, 7, 7]] = some connection ∧
          ¬ Framed [cutStatus] (cutStatus.image.take 14) connection := by
  refine ⟨cutStatus_acceptable, by decide, _, rfl, ?_⟩
  rintro ⟨isFront, _⟩
  revert isFront
  decide

end LibubusJni.Libubus
