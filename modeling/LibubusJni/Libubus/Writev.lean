import LibubusJni.Ubusd.Receive

/-!
# Sending in `libubus-io.c`

`writev_retry` and `ubus_send_msg` on a socket that takes what it likes of a
message, and what `client_cb` of ubusd makes of the bytes at the other end.
-/

namespace LibubusJni.Libubus

open LibubusJni.Lib LibubusJni.Ubusd

/-- What `sendmsg` returns: a count, or -1 with `errno`. -/
inductive SendResult where
  | took (count : Nat)
  | eagain
  | eintr
  | failed
  deriving DecidableEq, Repr

/-- The bytes that one `sendmsg` has taken, and the descriptor beside them. -/
structure SentPiece where
  bytes : List UInt8
  fd : Option Nat
  deriving DecidableEq, Repr

inductive WritevResult where
  | done (len : Nat)
  | failed
  /-- The loop goes on. -/
  | waiting
  deriving DecidableEq, Repr

/-- The inner loop of `writev_retry`; `none` when `iov_len` is zero. -/
def advance : List (List UInt8) → Nat → Option (List (List UInt8))
  | [], _ => none
  | base :: rest, curLen =>
      if base.length ≤ curLen then advance rest (curLen - base.length)
      else some (base.drop curLen :: rest)

/-- `writev_retry`, with what the next calls of `sendmsg` return.  It takes no more
than there is. -/
def writevRetry : List SendResult → List (List UInt8) → Nat → Option Nat →
    WritevResult × List SentPiece
  | [], _, _, _ => (.waiting, [])
  | .failed :: _, _, _, _ => (.failed, [])
  | .eagain :: rest, iov, len, sockFd => writevRetry rest iov len sockFd
  | .eintr :: rest, iov, len, sockFd => writevRetry rest iov len sockFd
  | .took count :: rest, iov, len, sockFd =>
      let piece : SentPiece := ⟨iov.flatten.take count, sockFd⟩
      -- `len` is still what was sent before, so the second piece has the
      -- descriptor as well
      let later := if 0 < len then none else sockFd
      match advance iov piece.bytes.length with
      | none => (.done (len + piece.bytes.length), [piece])
      | some iov =>
          let further := writevRetry rest iov (len + piece.bytes.length) later
          (further.1, piece :: further.2)

/-- A call of `ubus_send_msg`. -/
structure Sending where
  message : Message
  fd : Option Nat
  results : List SendResult
  deriving DecidableEq, Repr

/-- `ubus_send_msg`. -/
def ubusSendMsg (sending : Sending) : WritevResult × List SentPiece :=
  writevRetry sending.results [sending.message.hdr, sending.message.data] 0
    sending.fd

/-- What has been put on the socket. -/
def bytesOf (pieces : List SentPiece) : List UInt8 :=
  (pieces.map SentPiece.bytes).flatten

/-- How much `sendmsg` is ready to take. -/
def readyFor : List SendResult → Nat
  | [] => 0
  | .took count :: rest => count + readyFor rest
  | .eagain :: rest | .eintr :: rest | .failed :: rest => readyFor rest

/-! ## The bytes -/

theorem advance_cases (iov : List (List UInt8)) (curLen : Nat) :
    (iov.flatten.length ≤ curLen ∧ advance iov curLen = none) ∨
      (curLen < iov.flatten.length ∧ ∃ rest, advance iov curLen = some rest ∧
        rest.flatten = iov.flatten.drop curLen) := by
  induction iov generalizing curLen with
  | nil =>
      exact Or.inl ⟨Nat.zero_le _, rfl⟩
  | cons base rest inductionHypothesis =>
      rw [List.flatten_cons, List.length_append, advance]
      split
      · rename_i passed
        rcases inductionHypothesis (curLen - base.length) with
          ⟨short, isNone⟩ | ⟨long, left, isSome, same⟩
        · exact Or.inl ⟨by omega, isNone⟩
        · refine Or.inr ⟨by omega, left, isSome, ?_⟩
          rw [same, List.drop_append, List.drop_of_length_le passed,
            List.nil_append]
      · refine Or.inr ⟨by omega, _, rfl, ?_⟩
        rw [List.flatten_cons, List.drop_append_of_le_length (by omega)]

/-- What a call of `writev_retry` comes to. -/
structure WritesOut (iov : List (List UInt8)) (len : Nat)
    (outcome : WritevResult × List SentPiece) : Prop where
  inOrder : bytesOf outcome.2 <+: iov.flatten
  done : ∀ total, outcome.1 = .done total →
    bytesOf outcome.2 = iov.flatten ∧ total = len + iov.flatten.length
  unfinished : (∀ total, outcome.1 ≠ .done total) → iov.flatten ≠ [] →
    (bytesOf outcome.2).length < iov.flatten.length

theorem writesOut_none {iov : List (List UInt8)} {len : Nat}
    {result : WritevResult} (notDone : ∀ total, result ≠ .done total) :
    WritesOut iov len (result, []) where
  inOrder := List.nil_prefix
  done total isDone := absurd isDone (notDone total)
  unfinished _ filled := List.length_pos_iff.mpr filled

/-- The last piece. -/
theorem writesOut_last (iov : List (List UInt8)) (len : Nat)
    (fd : Option Nat) :
    WritesOut iov len
      (.done (len + iov.flatten.length), [⟨iov.flatten, fd⟩]) := by
  have sent : bytesOf [⟨iov.flatten, fd⟩] = iov.flatten := List.append_nil _
  refine ⟨?_, fun total isDone => ⟨sent, ?_⟩, fun notDone => ?_⟩
  · exact ⟨[], (List.append_nil _).trans sent⟩
  · cases isDone
    rfl
  · exact absurd rfl (notDone _)

/-- A piece in front of others. -/
theorem WritesOut.piece {iov left : List (List UInt8)} {len : Nat}
    {outcome : WritevResult × List SentPiece} {taken : List UInt8}
    (writes : WritesOut left (len + taken.length) outcome)
    (split : iov.flatten = taken ++ left.flatten) (filled : left.flatten ≠ [])
    (fd : Option Nat) :
    WritesOut iov len (outcome.1, ⟨taken, fd⟩ :: outcome.2) := by
  have sent : bytesOf (⟨taken, fd⟩ :: outcome.2) =
      taken ++ bytesOf outcome.2 := rfl
  refine ⟨?_, fun total isDone => ?_, fun notDone _ => ?_⟩
  · rw [sent, split]
    exact (List.prefix_append_right_inj _).mpr writes.inOrder
  · obtain ⟨all, isTotal⟩ := writes.done total isDone
    rw [sent, split, all, isTotal, List.length_append, Nat.add_assoc]
    exact ⟨rfl, rfl⟩
  · have fewer := writes.unfinished notDone filled
    rw [sent, split, List.length_append, List.length_append]
    omega

/-- The two ways on behind a `sendmsg` that has taken something. -/
theorem took_cases (iov : List (List UInt8)) (count : Nat) :
    (iov.flatten.take count = iov.flatten ∧
      advance iov (iov.flatten.take count).length = none) ∨
    ∃ left, advance iov (iov.flatten.take count).length = some left ∧
      iov.flatten = iov.flatten.take count ++ left.flatten ∧
        left.flatten ≠ [] ∧ (iov.flatten.take count).length = count := by
  have takes := List.length_take (i := count) (l := iov.flatten)
  rcases advance_cases iov (iov.flatten.take count).length with
    ⟨all, isNone⟩ | ⟨part, left, isSome, same⟩
  · exact Or.inl ⟨List.take_of_length_le (by omega), isNone⟩
  · have isCount : (iov.flatten.take count).length = count := by
      omega
    rw [isCount] at same part
    refine Or.inr ⟨left, isSome, ?_, ?_, isCount⟩
    · rw [same, List.take_append_drop]
    · rw [same]
      exact fun isNil => Nat.not_le.mpr part (List.drop_eq_nil_iff.mp isNil)

theorem writevRetry_writesOut (results : List SendResult)
    (iov : List (List UInt8)) (len : Nat) (sockFd : Option Nat) :
    WritesOut iov len (writevRetry results iov len sockFd) := by
  induction results generalizing iov len sockFd with
  | nil =>
      exact writesOut_none (by simp)
  | cons result rest inductionHypothesis =>
      cases result with
      | failed =>
          exact writesOut_none (by simp)
      | eagain =>
          exact inductionHypothesis iov len sockFd
      | eintr =>
          exact inductionHypothesis iov len sockFd
      | took count =>
          rw [writevRetry]
          dsimp only
          rcases took_cases iov count with
            ⟨whole, isNone⟩ | ⟨left, isSome, split, filled, _⟩
          · rw [isNone]
            dsimp only
            rw [whole]
            exact writesOut_last iov len sockFd
          · rw [isSome]
            exact (inductionHypothesis left _ _).piece split filled sockFd

/-- The loop ends once the socket has been ready for everything. -/
theorem writevRetry_done {results : List SendResult}
    (noError : SendResult.failed ∉ results) {iov : List (List UInt8)}
    (filled : iov.flatten ≠ []) (enough : iov.flatten.length ≤ readyFor results)
    (len : Nat) (sockFd : Option Nat) :
    ∃ total, (writevRetry results iov len sockFd).1 = .done total := by
  induction results generalizing iov len sockFd with
  | nil =>
      have positive := List.length_pos_iff.mpr filled
      exact absurd enough (Nat.not_le.mpr positive)
  | cons result rest inductionHypothesis =>
      rw [List.mem_cons, not_or] at noError
      cases result with
      | failed =>
          exact absurd rfl noError.1
      | eagain =>
          exact inductionHypothesis noError.2 filled enough len sockFd
      | eintr =>
          exact inductionHypothesis noError.2 filled enough len sockFd
      | took count =>
          rw [writevRetry]
          dsimp only
          rcases took_cases iov count with
            ⟨_, isNone⟩ | ⟨left, isSome, split, leftFilled, isCount⟩
          · rw [isNone]
            exact ⟨_, rfl⟩
          · rw [isSome]
            refine inductionHypothesis noError.2 leftFilled ?_ _ _
            rw [split, List.length_append, isCount, readyFor] at enough
            exact Nat.le_of_add_le_add_left enough

/-! ## The descriptor -/

theorem writevRetry_noFd (results : List SendResult) (iov : List (List UInt8))
    (len : Nat) :
    ∀ piece ∈ (writevRetry results iov len none).2, piece.fd = none := by
  induction results generalizing iov len with
  | nil =>
      exact fun piece member => absurd member List.not_mem_nil
  | cons result rest inductionHypothesis =>
      cases result with
      | failed =>
          exact fun piece member => absurd member List.not_mem_nil
      | eagain =>
          exact inductionHypothesis iov len
      | eintr =>
          exact inductionHypothesis iov len
      | took count =>
          rw [writevRetry]
          dsimp only
          cases advance iov (iov.flatten.take count).length with
          | none =>
              intro piece member
              rw [List.mem_singleton.mp member]
          | some left =>
              intro piece member
              rcases List.mem_cons.mp member with isFirst | inRest
              · rw [isFirst]
              · rw [ite_self] at inRest
                exact inductionHypothesis left _ piece inRest

/-- Which pieces have the descriptor: the first one, and the second one if the
first one was the beginning of the message. -/
theorem writevRetry_fd {results : List SendResult}
    (positive : SendResult.took 0 ∉ results) (iov : List (List UInt8))
    (len : Nat) (sockFd : Option Nat) :
    ∀ index piece, (writevRetry results iov len sockFd).2[index]? = some piece →
      piece.fd =
        if index < (if 0 < len then 1 else 2) then sockFd else none := by
  induction results generalizing iov len sockFd with
  | nil =>
      exact fun index piece isPiece => by cases isPiece
  | cons result rest inductionHypothesis =>
      rw [List.mem_cons, not_or] at positive
      cases result with
      | failed =>
          exact fun index piece isPiece => by cases isPiece
      | eagain =>
          exact inductionHypothesis positive.2 iov len sockFd
      | eintr =>
          exact inductionHypothesis positive.2 iov len sockFd
      | took count =>
          rw [writevRetry]
          dsimp only
          have first : 0 < (if 0 < len then 1 else 2) := by
            split_ifs <;> decide
          rcases took_cases iov count with
            ⟨_, isNone⟩ | ⟨left, isSome, _, _, isCount⟩
          · rw [isNone]
            intro index piece isPiece
            cases index with
            | zero =>
                cases isPiece
                rw [if_pos first]
            | succ index =>
                cases isPiece
          · rw [isSome]
            intro index piece isPiece
            cases index with
            | zero =>
                cases isPiece
                rw [if_pos first]
            | succ index =>
                have isLater : (writevRetry rest left
                    (len + (iov.flatten.take count).length)
                    (if 0 < len then none else sockFd)).2[index]? =
                      some piece := isPiece
                by_cases started : 0 < len
                · have one : (if 0 < len then 1 else 2) = 1 := if_pos started
                  rw [one, if_neg (by omega)]
                  rw [if_pos started] at isLater
                  exact writevRetry_noFd rest left _ piece
                    (List.mem_of_getElem? isLater)
                · have two : (if 0 < len then 1 else 2) = 2 := if_neg started
                  rw [if_neg started] at isLater
                  have later := inductionHypothesis positive.2 left _ sockFd
                    index piece isLater
                  have filled : count ≠ 0 := fun zero =>
                    positive.1 (zero ▸ rfl)
                  have one : (if 0 < len + (iov.flatten.take count).length
                      then 1 else 2) = 1 := if_pos (by omega)
                  rw [one] at later
                  rw [later, two]
                  simp only [Nat.succ_lt_succ_iff]

/-! ## Calls of `ubus_send_msg` -/

/-- However the socket takes the message: a call that returns the length has put
the whole message on the socket, and otherwise a part from its beginning that is not
all of it.  It returns the length once the socket has been ready for so much, unless
an error comes first.  The descriptor goes with the first two pieces. -/
theorem ubusSendMsg_whole (sending : Sending) :
    (∀ total, (ubusSendMsg sending).1 = .done total →
      bytesOf (ubusSendMsg sending).2 = sending.message.image ∧
        total = sending.message.image.length) ∧
    bytesOf (ubusSendMsg sending).2 <+: sending.message.image ∧
    ((∀ total, (ubusSendMsg sending).1 ≠ .done total) →
      sending.message.image ≠ [] →
        (bytesOf (ubusSendMsg sending).2).length <
          sending.message.image.length) ∧
    (SendResult.failed ∉ sending.results → sending.message.image ≠ [] →
      sending.message.image.length ≤ readyFor sending.results →
        ∃ total, (ubusSendMsg sending).1 = .done total) ∧
    (SendResult.took 0 ∉ sending.results →
      ∀ index piece, (ubusSendMsg sending).2[index]? = some piece →
        piece.fd = if index < 2 then sending.fd else none) := by
  have image : [sending.message.hdr, sending.message.data].flatten =
      sending.message.image := by
    rw [List.flatten_cons, List.flatten_cons, List.flatten_nil, List.append_nil]
    rfl
  obtain ⟨inOrder, done, unfinished⟩ := writevRetry_writesOut sending.results
    [sending.message.hdr, sending.message.data] 0 sending.fd
  rw [image] at inOrder unfinished
  refine ⟨fun total isDone => ?_, inOrder, unfinished, ?_, ?_⟩
  · obtain ⟨all, isTotal⟩ := done total isDone
    rw [image] at all isTotal
    exact ⟨all, isTotal.trans (Nat.zero_add _)⟩
  · intro noError filled enough
    rw [← image] at filled enough
    exact writevRetry_done noError filled enough 0 sending.fd
  · intro positive
    exact writevRetry_fd positive _ 0 sending.fd

/-! ## At the other end -/

/-- No read of `client_cb` ends inside of a header. -/
def HeadersWhole : List Message → CutStream UInt8 → Prop
  | [], _ => True
  | message :: rest, sock =>
      12 ≤ CutStream.firstCut sock ∧
        HeadersWhole rest (CutStream.skip message.image.length sock)

theorem headerTailsRepeat_of_whole {messages : List Message}
    (formed : ∀ message ∈ messages, message.WellFormed) {previous : List UInt8}
    (twelve : previous.length = 12) {sock : CutStream UInt8}
    (whole : HeadersWhole messages sock) :
    HeaderTailsRepeat previous messages sock := by
  induction messages generalizing previous sock with
  | nil =>
      trivial
  | cons message rest inductionHypothesis =>
      obtain ⟨first, further⟩ := whole
      have wellFormed := formed message List.mem_cons_self
      have start := wellFormed.length_start
      refine ⟨?_, inductionHypothesis
        (fun other member => formed other (List.mem_cons_of_mem _ member)) start
        further⟩
      rw [List.drop_of_length_le (by omega), List.drop_of_length_le (by omega)]

/-- Whatever pieces the sockets take and give, the messages that a client has sent
with `ubus_send_msg` are those that ubusd handles, each once and in order, as long as
no read ends inside of a header. -/
theorem sendings_arrive {sendings : List Sending}
    (formed : ∀ sending ∈ sendings, sending.message.WellFormed)
    (complete : ∀ sending ∈ sendings, ∃ total,
      (ubusSendMsg sending).1 = .done total) {sock : CutStream UInt8}
    (content : sock.flatten =
      (sendings.map fun sending => bytesOf (ubusSendMsg sending).2).flatten)
    (whole : HeadersWhole (sendings.map Sending.message) sock) :
    HandsOver sock (sendings.map Sending.message) := by
  have allFormed : ∀ message ∈ sendings.map Sending.message,
      message.WellFormed := by
    intro message member
    obtain ⟨sending, isSending, rfl⟩ := List.mem_map.mp member
    exact formed sending isSending
  have isStream : sock.flatten = stream (sendings.map Sending.message) := by
    rw [content, stream, List.map_map]
    refine congrArg List.flatten (List.map_congr_left fun sending member => ?_)
    obtain ⟨total, isDone⟩ := complete sending member
    exact ((ubusSendMsg_whole sending).1 total isDone).1
  obtain ⟨passes, hdrbuf, drained, empty, reached⟩ :=
    passes_messages _ allFormed (List.replicate 12 0) [] sock rfl isStream
      (headerTailsRepeat_of_whole allFormed rfl whole)
  refine ⟨passes, fun total enough => ?_⟩
  obtain ⟨more, rfl⟩ := Nat.exists_eq_add_of_le' enough
  have start : (ClientRx.fresh, sock) =
      (ClientRx.atBoundary (List.replicate 12 0) [], sock) := rfl
  rw [handed, Function.iterate_add_apply, start, reached, List.nil_append]
  exact passes_drained hdrbuf _ more drained empty

/-- A lookup request with a descriptor, which the socket takes in three pieces. -/
def threePieces : Sending :=
  ⟨⟨[0, 4, 1, 0, 0, 0, 0, 0], [0, 0, 0, 4]⟩, some 5,
    [.took 3, .eagain, .took 5, .eintr, .took 9]⟩

theorem sendings_arrive_threePieces :
    HandsOver [[0, 4, 1, 0, 0, 0, 0, 0, 0, 0, 0, 4]] [threePieces.message] := by
  refine @sendings_arrive [threePieces] ?_ ?_ _ rfl ⟨by decide, trivial⟩
  · intro sending member
    rw [List.mem_singleton.mp member]
    exact ⟨rfl, by decide, rfl, by decide⟩
  · intro sending member
    rw [List.mem_singleton.mp member]
    exact ⟨12, rfl⟩

/-- The first two pieces have the descriptor. -/
example : (ubusSendMsg threePieces).2.map SentPiece.fd =
    [some 5, some 5, none] := rfl

end LibubusJni.Libubus
