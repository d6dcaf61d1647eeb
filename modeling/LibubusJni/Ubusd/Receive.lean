import Mathlib.Logic.Function.Iterate
import LibubusJni.Lib.CutStream
import LibubusJni.Wire

/-!
# Message reassembly in `client_cb`

The receiving half of `client_cb` keeps its progress in `hdrbuf`,
`pending_msg_offset` and `pending_msg`.  One pass runs from `retry:` to the next
`goto`: `goto retry` starts another pass at once, `goto out` ends the call and
the next event starts the pass, and both leave the progress where it is.  The
peer keeps the connection open (`sock->eof` stays false), and file descriptors
that travel with a message are left out.
-/

namespace LibubusJni.Ubusd

open LibubusJni.Lib

/-- `struct ubus_msg_buf` while it is being filled: `data` holds the bytes
stored so far. -/
structure PendingMsg where
  hdr : List UInt8
  data : List UInt8
  deriving DecidableEq, Repr

/-- The receive fields of `struct ubus_client`, and the messages handed to
`ubusd_proto_receive_message`. -/
structure ClientRx where
  hdrbuf : List UInt8
  pendingMsgOffset : Nat
  pendingMsg : Option PendingMsg
  disconnected : Bool
  received : List Message
  deriving DecidableEq, Repr

namespace ClientRx

/-- A client as `ubusd_proto_new_client` leaves it. -/
def fresh : ClientRx where
  hdrbuf := List.replicate 12 0
  pendingMsgOffset := 0
  pendingMsg := none
  disconnected := false
  received := []

end ClientRx

/-- Store bytes at an offset of a buffer.  What falls behind the end of the
buffer lands in other memory and leaves the buffer as it was. -/
def storeAt (buffer : List UInt8) (offset : Nat) (bytes : List UInt8) :
    List UInt8 :=
  (buffer.take offset ++ bytes ++ buffer.drop (offset + bytes.length)).take
    buffer.length

/-- The rest of a pass once `hdrbuf` is full and its length is accepted: the
block under `if (ub)`. -/
def recvPending (rx : ClientRx) (sock : CutStream UInt8) :
    ClientRx × CutStream UInt8 :=
  match rx.pendingMsg with
  | none => (rx, sock)
  | some ub =>
      let offset := rx.pendingMsgOffset - sizeofMsghdr
      -- `int len`: zero or negative means that nothing is left to read
      let len := (blobRawLen ub.data).toNat - offset
      let accept (data : List UInt8) : ClientRx :=
        { rx with
          pendingMsgOffset := 0
          pendingMsg := none
          received := rx.received ++ [⟨ub.hdr, data⟩] }
      if len = 0 then
        (accept ub.data, sock)
      else
        match CutStream.recv len sock with
        | (none, sock) => (rx, sock)
        | (some bytes, sock) =>
            if bytes.length < len then
              ({ rx with
                pendingMsgOffset := rx.pendingMsgOffset + bytes.length
                pendingMsg := some { ub with data := ub.data ++ bytes } },
                sock)
            else
              (accept (ub.data ++ bytes), sock)

/-- The rest of a pass once twelve header bytes have been counted. -/
def headerComplete (rx : ClientRx) (sock : CutStream UInt8) :
    ClientRx × CutStream UInt8 :=
  if ubusMaxMsglen < blobPadLen (rx.hdrbuf.drop 8) then
    ({ rx with disconnected := true }, sock)
  else
    recvPending
      { rx with
        pendingMsg := some ⟨rx.hdrbuf.take 8, rx.hdrbuf.drop 8⟩ }
      sock

/-- One pass of `client_cb` from `retry:`. -/
def clientCbPass : ClientRx × CutStream UInt8 → ClientRx × CutStream UInt8
  | (rx, sock) =>
      if rx.disconnected then
        (rx, sock)
      else if rx.pendingMsgOffset < 12 then
        let offset := rx.pendingMsgOffset
        match CutStream.recv (12 - offset) sock with
        | (none, sock) => (rx, sock)
        | (some bytes, sock) =>
            -- `&cl->hdrbuf + offset` counts in units of the whole buffer
            let rx :=
              { rx with
                hdrbuf := storeAt rx.hdrbuf (offset * 12) bytes
                pendingMsgOffset := offset + bytes.length }
            if rx.pendingMsgOffset < 12 then
              (rx, sock)
            else
              headerComplete rx sock
      else
        recvPending rx sock

/-- The messages handed over in the first `passes` passes. -/
def handed (sock : CutStream UInt8) (passes : Nat) : List Message :=
  (clientCbPass^[passes] (ClientRx.fresh, sock)).1.received

/-- Once enough passes have run, exactly these messages have been handed to
`ubusd_proto_receive_message`. -/
def HandsOver (sock : CutStream UInt8) (messages : List Message) : Prop :=
  ∃ enough, ∀ passes, enough ≤ passes → handed sock passes = messages

/-- The header bytes that arrive behind the first cut of each header are the
bytes that `hdrbuf` still holds from the header before it. -/
def HeaderTailsRepeat :
    List UInt8 → List Message → CutStream UInt8 → Prop
  | _, [], _ => True
  | previous, message :: rest, sock =>
      message.start.drop (CutStream.firstCut sock) =
          previous.drop (CutStream.firstCut sock) ∧
        HeaderTailsRepeat message.start rest
          (CutStream.skip message.image.length sock)

instance decidableHeaderTailsRepeat :
    ∀ (previous : List UInt8) (messages : List Message)
      (sock : CutStream UInt8),
      Decidable (HeaderTailsRepeat previous messages sock)
  | _, [], _ => isTrue trivial
  | _, message :: rest, sock =>
      have := decidableHeaderTailsRepeat message.start rest
        (CutStream.skip message.image.length sock)
      inferInstanceAs (Decidable (_ ∧ _))

/-! ## Single passes -/

/-- The state between two messages. -/
def ClientRx.atBoundary (hdrbuf : List UInt8) (received : List Message) : ClientRx where
  hdrbuf := hdrbuf
  pendingMsgOffset := 0
  pendingMsg := none
  disconnected := false
  received := received

theorem storeAt_start
    {buffer bytes : List UInt8} (fits : bytes.length ≤ buffer.length) :
    storeAt buffer 0 bytes = bytes ++ buffer.drop bytes.length := by
  rw [storeAt, List.take_zero, List.nil_append, Nat.zero_add]
  apply List.take_of_length_le
  rw [List.length_append, List.length_drop]
  omega

/-- A store behind the end of the buffer does not change the buffer. -/
theorem storeAt_outside
    {buffer : List UInt8} {offset : Nat} (outside : buffer.length ≤ offset)
    (bytes : List UInt8) :
    storeAt buffer offset bytes = buffer := by
  rw [storeAt, List.take_of_length_le outside, List.append_assoc,
    List.take_left]

theorem pass_eq_recvPending
    {rx : ClientRx} (connected : rx.disconnected = false)
    (headerDone : 12 ≤ rx.pendingMsgOffset) (sock : CutStream UInt8) :
    clientCbPass (rx, sock) = recvPending rx sock := by
  rw [clientCbPass, connected, if_neg (by simp),
    if_neg (Nat.not_lt.mpr headerDone)]

theorem pass_of_disconnected
    {rx : ClientRx} (disconnected : rx.disconnected = true)
    (sock : CutStream UInt8) :
    clientCbPass (rx, sock) = (rx, sock) := by
  rw [clientCbPass, disconnected, if_pos rfl]

theorem headerComplete_of_accepted
    (rx : ClientRx)
    (accepted : ¬ ubusMaxMsglen < blobPadLen (rx.hdrbuf.drop 8))
    (sock : CutStream UInt8) :
    headerComplete rx sock =
      recvPending
        { rx with
          pendingMsg := some ⟨rx.hdrbuf.take 8, rx.hdrbuf.drop 8⟩ }
        sock := by
  rw [headerComplete, if_neg accepted]

/-- A header read that would block leaves the progress where it is. -/
theorem pass_header_blocked
    {rx : ClientRx} {sock remaining : CutStream UInt8}
    (connected : rx.disconnected = false)
    (inHeader : rx.pendingMsgOffset < 12)
    (blocked :
      CutStream.recv (12 - rx.pendingMsgOffset) sock = (none, remaining)) :
    clientCbPass (rx, sock) = (rx, remaining) := by
  rw [clientCbPass, connected, if_neg (by simp), if_pos inHeader]
  simp only [blocked]

theorem pass_header_read
    {rx : ClientRx} {sock remaining : CutStream UInt8} {bytes : List UInt8}
    (connected : rx.disconnected = false)
    (inHeader : rx.pendingMsgOffset < 12)
    (read :
      CutStream.recv (12 - rx.pendingMsgOffset) sock =
        (some bytes, remaining)) :
    clientCbPass (rx, sock) =
      if rx.pendingMsgOffset + bytes.length < 12 then
        ({ rx with
          hdrbuf := storeAt rx.hdrbuf (rx.pendingMsgOffset * 12) bytes
          pendingMsgOffset := rx.pendingMsgOffset + bytes.length }, remaining)
      else
        headerComplete
          { rx with
            hdrbuf := storeAt rx.hdrbuf (rx.pendingMsgOffset * 12) bytes
            pendingMsgOffset := rx.pendingMsgOffset + bytes.length }
          remaining := by
  rw [clientCbPass, connected, if_neg (by simp), if_pos inHeader]
  simp only [read]

/-- The first read of a message. -/
theorem pass_boundary_read
    {previous piece : List UInt8} {received : List Message}
    {sock remaining : CutStream UInt8}
    (read : CutStream.recv 12 sock = (some piece, remaining)) :
    clientCbPass (ClientRx.atBoundary previous received, sock) =
      if piece.length < 12 then
        ({ ClientRx.atBoundary (storeAt previous 0 piece) received with
          pendingMsgOffset := piece.length }, remaining)
      else
        headerComplete
          { ClientRx.atBoundary (storeAt previous 0 piece) received with
            pendingMsgOffset := piece.length }
          remaining := by
  have passed :=
    @pass_header_read (ClientRx.atBoundary previous received) sock remaining
      piece rfl (Nat.succ_pos 11) read
  simpa only [ClientRx.atBoundary, Nat.zero_mul, Nat.zero_add] using passed

/-! ## A header that arrives in several pieces -/

/-- What is left of a header after its first piece only advances the offset:
`hdrbuf` keeps its old bytes. -/
theorem passes_header_rest
    (hdrbuf : List UInt8) (received : List Message)
    (bufferLength : hdrbuf.length = 12) :
    ∀ (measure offset : Nat) (sock : CutStream UInt8)
      (bytes rest : List UInt8),
      sock.flatten.length + sock.length ≤ measure →
        1 ≤ offset → offset < 12 → bytes.length = 12 - offset →
          sock.flatten = bytes ++ rest →
      ∃ passes,
        clientCbPass^[passes + 1]
            ({ ClientRx.atBoundary hdrbuf received with pendingMsgOffset := offset },
              sock) =
          headerComplete
            { ClientRx.atBoundary hdrbuf received with pendingMsgOffset := 12 }
            (CutStream.skip (12 - offset) sock)
  | 0, offset, sock, bytes, rest, bound, _, small, lengthEq, content => by
      rw [content, List.length_append] at bound
      omega
  | measure + 1, offset, sock, bytes, rest, bound, positive, small,
      lengthEq, content => by
      have wanted : 0 < 12 - offset := by omega
      rcases read : CutStream.recv (12 - offset) sock with
        ⟨_ | piece, remaining⟩
      · -- nothing has arrived yet; the next event starts from the same state
        rcases CutStream.recv_none read with ⟨rfl, _⟩ | rfl
        · simp only [List.flatten_nil] at content
          have := congrArg List.length content
          rw [List.length_append, lengthEq, List.length_nil] at this
          omega
        · obtain ⟨passes, reached⟩ :=
            passes_header_rest hdrbuf received bufferLength measure offset
              remaining bytes rest
              (by simp only [List.flatten_cons, List.nil_append,
                    List.length_cons] at bound; omega)
              positive small lengthEq (by simpa using content)
          refine ⟨passes + 1, ?_⟩
          rw [Function.iterate_succ_apply,
            pass_header_blocked rfl small read,
            CutStream.skip_nil_cons wanted]
          exact reached
      · obtain ⟨pieceLength, nonempty, split, remainingEq⟩ :=
          CutStream.recv_some wanted read
        have pieceShort : piece.length ≤ 12 - offset := by omega
        have kept :
            storeAt hdrbuf (offset * 12) piece = hdrbuf :=
          storeAt_outside (by omega) piece
        by_cases complete : offset + piece.length < 12
        · have restEq :
              remaining.flatten = bytes.drop piece.length ++ rest := by
            have := congrArg (List.drop piece.length)
              (split.symm.trans content)
            rwa [List.drop_left,
              List.drop_append_of_le_length (by omega)] at this
          obtain ⟨passes, reached⟩ :=
            passes_header_rest hdrbuf received bufferLength measure
              (offset + piece.length) remaining (bytes.drop piece.length) rest
              (by
                have shorter : remaining.length ≤ sock.length := by
                  have := CutStream.length_recv_le (12 - offset) sock
                  rwa [read] at this
                rw [split, List.length_append] at bound
                omega)
              (by omega) complete
              (by rw [List.length_drop, lengthEq]; omega) restEq
          refine ⟨passes + 1, ?_⟩
          rw [Function.iterate_succ_apply,
            pass_header_read rfl small read,
            if_pos (by exact complete)]
          rw [show (12 : Nat) - offset =
              piece.length + (12 - (offset + piece.length)) by omega,
            CutStream.skip_add, ← remainingEq, ← reached]
          simp only [ClientRx.atBoundary, kept]
        · refine ⟨0, ?_⟩
          rw [Function.iterate_succ_apply, Function.iterate_zero_apply,
            pass_header_read rfl small read,
            if_neg (by exact complete)]
          have full : offset + piece.length = 12 := by omega
          rw [show (12 : Nat) - offset = piece.length by omega,
            ← remainingEq]
          simp only [ClientRx.atBoundary, kept, full]

/-- Reading one header from a boundary.  Only its first piece reaches
`hdrbuf`. -/
theorem passes_header
    (previous : List UInt8) (received : List Message)
    (bufferLength : previous.length = 12) :
    ∀ (sock : CutStream UInt8) (start rest : List UInt8),
      start.length = 12 → sock.flatten = start ++ rest →
      ∃ passes,
        clientCbPass^[passes + 1]
            (ClientRx.atBoundary previous received, sock) =
          headerComplete
            { ClientRx.atBoundary
                (start.take (CutStream.firstCut sock) ++
                  previous.drop (CutStream.firstCut sock))
                received with pendingMsgOffset := 12 }
            (CutStream.skip 12 sock)
  | [], start, rest, lengthEq, content => by
      have := congrArg List.length content
      simp only [List.flatten_nil, List.length_nil, List.length_append,
        lengthEq] at this
      omega
  | [] :: remaining, start, rest, lengthEq, content => by
      obtain ⟨passes, reached⟩ :=
        passes_header previous received bufferLength remaining start rest
          lengthEq (by simpa using content)
      refine ⟨passes + 1, ?_⟩
      rw [Function.iterate_succ_apply,
        pass_header_blocked rfl (Nat.succ_pos 11) rfl,
        CutStream.skip_nil_cons (by omega)]
      exact reached
  | (item :: items) :: remaining, start, rest, lengthEq, content => by
      rcases read :
          CutStream.recv 12 ((item :: items) :: remaining) with
        ⟨_ | piece, after⟩
      · simp [CutStream.recv] at read
      · obtain ⟨pieceLength, nonempty, split, afterEq⟩ :=
          CutStream.recv_some (by omega) read
        have cutEq :
            CutStream.firstCut ((item :: items) :: remaining) =
              (item :: items).length := rfl
        have pieceEq : piece = start.take piece.length := by
          have := congrArg (List.take piece.length)
            (split.symm.trans content)
          rwa [List.take_left,
            List.take_append_of_le_length (by omega)] at this
        have restEq :
            after.flatten = start.drop piece.length ++ rest := by
          have := congrArg (List.drop piece.length)
            (split.symm.trans content)
          rwa [List.drop_left,
            List.drop_append_of_le_length (by omega)] at this
        have stored :
            storeAt previous 0 piece =
              start.take (CutStream.firstCut
                  ((item :: items) :: remaining)) ++
                previous.drop (CutStream.firstCut
                  ((item :: items) :: remaining)) := by
          rw [storeAt_start (by omega), cutEq]
          rw [cutEq] at pieceLength
          by_cases short : (item :: items).length ≤ 12
          · rw [pieceEq, List.length_take, lengthEq,
              show min piece.length 12 = (item :: items).length by omega,
              show piece.length = (item :: items).length by omega]
          · rw [List.take_of_length_le (by omega : start.length ≤ _),
              List.drop_of_length_le (by omega : previous.length ≤ _),
              List.drop_of_length_le (by omega : previous.length ≤ _),
              pieceEq, List.take_of_length_le (by omega)]
        by_cases complete : piece.length < 12
        · obtain ⟨passes, reached⟩ :=
            passes_header_rest
              (start.take (CutStream.firstCut
                  ((item :: items) :: remaining)) ++
                previous.drop (CutStream.firstCut
                  ((item :: items) :: remaining)))
              received
              (by
                rw [List.length_append, List.length_take, List.length_drop]
                omega)
              _ piece.length after (start.drop piece.length) rest
              (Nat.le_refl _) (by omega) complete
              (by rw [List.length_drop, lengthEq]) restEq
          refine ⟨passes + 1, ?_⟩
          have skipped :
              CutStream.skip 12 ((item :: items) :: remaining) =
                CutStream.skip (12 - piece.length) after := by
            rw [afterEq, ← CutStream.skip_add]
            congr 1
            omega
          rw [Function.iterate_succ_apply, pass_boundary_read read,
            if_pos complete, stored, skipped]
          exact reached
        · refine ⟨0, ?_⟩
          have full : piece.length = 12 := by omega
          rw [full] at afterEq
          rw [Function.iterate_succ_apply, Function.iterate_zero_apply,
            pass_boundary_read read, if_neg complete, stored, full, afterEq]

/-! ## The payload -/

/-- Every stored prefix of the attribute gives its raw length. -/
theorem rawLen_take
    {data : List UInt8} {stored : Nat} (four : 4 ≤ stored)
    (enough : stored ≤ data.length)
    (rawLen : (blobRawLen (data.take 4)).toNat = data.length) :
    (blobRawLen (data.take stored)).toNat = data.length := by
  have first : (data.take stored).take 4 = data.take 4 := by
    rw [List.take_take, Nat.min_eq_left four]
  have four' : (data.take 4).length = 4 := by
    rw [List.length_take]
    omega
  rw [← List.take_append_drop 4 (data.take stored), first,
    blobRawLen_append four', rawLen]

/-- With all its bytes stored a message is accepted without a read. -/
theorem recvPending_full
    {hdrbuf hdr data : List UInt8} {received : List Message}
    (rawLen : (blobRawLen data).toNat = data.length)
    (sock : CutStream UInt8) :
    recvPending
        { ClientRx.atBoundary hdrbuf received with
          pendingMsgOffset := 8 + data.length
          pendingMsg := some ⟨hdr, data⟩ } sock =
      (ClientRx.atBoundary hdrbuf (received ++ [⟨hdr, data⟩]), sock) := by
  have nothing : (blobRawLen data).toNat - (8 + data.length - 8) = 0 := by
    omega
  simp only [recvPending, sizeofMsghdr, nothing, if_true,
    ClientRx.atBoundary]

/-- Reading the payload delivers the message, however it is cut. -/
theorem passes_payload
    (hdrbuf hdr data : List UInt8) (received : List Message)
    (rawLen : (blobRawLen (data.take 4)).toNat = data.length) :
    ∀ (measure stored : Nat) (sock : CutStream UInt8) (rest : List UInt8),
      sock.flatten.length + sock.length ≤ measure →
        4 ≤ stored → stored ≤ data.length →
          sock.flatten = data.drop stored ++ rest →
      ∃ passes,
        clientCbPass^[passes + 1]
            ({ ClientRx.atBoundary hdrbuf received with
              pendingMsgOffset := 8 + stored
              pendingMsg := some ⟨hdr, data.take stored⟩ }, sock) =
          (ClientRx.atBoundary hdrbuf (received ++ [⟨hdr, data⟩]),
            CutStream.skip (data.length - stored) sock) := by
  intro measure
  induction measure with
  | zero =>
      intro stored sock rest bound four enough content
      have drained : data.drop stored ++ rest = [] := by
        rw [← content]
        exact List.eq_nil_of_length_eq_zero (by omega)
      have full : data.drop stored = [] := (List.append_eq_nil_iff.mp drained).1
      have storedAll : stored = data.length := by
        have := List.drop_eq_nil_iff.mp full
        omega
      refine ⟨0, ?_⟩
      rw [Function.iterate_succ_apply, Function.iterate_zero_apply,
        pass_eq_recvPending rfl (by show 12 ≤ 8 + stored; omega)]
      have raw := rawLen_take four enough rawLen
      subst storedAll
      rw [List.take_length] at raw ⊢
      rw [recvPending_full raw, Nat.sub_self, CutStream.skip_zero]
  | succ measure inductionHypothesis =>
      intro stored sock rest bound four enough content
      have raw := rawLen_take four enough rawLen
      by_cases storedAll : stored = data.length
      · refine ⟨0, ?_⟩
        rw [Function.iterate_succ_apply, Function.iterate_zero_apply,
          pass_eq_recvPending rfl (by show 12 ≤ 8 + stored; omega)]
        subst storedAll
        rw [List.take_length] at raw ⊢
        rw [recvPending_full raw, Nat.sub_self, CutStream.skip_zero]
      · have wanted : 0 < data.length - stored := by omega
        have missing :
            (blobRawLen (data.take stored)).toNat - (8 + stored - 8) =
              data.length - stored := by
          rw [raw]
          omega
        have notDone : ¬ data.length - stored = 0 := by omega
        rcases read :
            CutStream.recv (data.length - stored) sock with
          ⟨_ | piece, remaining⟩
        · rcases CutStream.recv_none read with ⟨rfl, _⟩ | rfl
          · have := congrArg List.length content
            simp only [List.flatten_nil, List.length_nil,
              List.length_append, List.length_drop] at this
            omega
          · obtain ⟨passes, reached⟩ :=
              inductionHypothesis stored remaining rest
                (by simp only [List.flatten_cons, List.nil_append,
                      List.length_cons] at bound; omega)
                four enough (by simpa using content)
            refine ⟨passes + 1, ?_⟩
            rw [Function.iterate_succ_apply,
              pass_eq_recvPending rfl (by show 12 ≤ 8 + stored; omega),
              CutStream.skip_nil_cons wanted, ← reached]
            simp only [recvPending, sizeofMsghdr, missing, if_neg notDone,
              read]
        · obtain ⟨pieceLength, nonempty, split, remainingEq⟩ :=
            CutStream.recv_some wanted read
          have pieceEq : piece = (data.drop stored).take piece.length := by
            have := congrArg (List.take piece.length)
              (split.symm.trans content)
            rwa [List.take_left, List.take_append_of_le_length
              (by rw [List.length_drop]; omega)] at this
          have restEq :
              remaining.flatten =
                data.drop (stored + piece.length) ++ rest := by
            have := congrArg (List.drop piece.length)
              (split.symm.trans content)
            rwa [List.drop_left, List.drop_append_of_le_length
              (by rw [List.length_drop]; omega), List.drop_drop] at this
          have grown :
              data.take stored ++ piece = data.take (stored + piece.length) := by
            rw [List.take_add, ← pieceEq]
          by_cases complete : piece.length < data.length - stored
          · obtain ⟨passes, reached⟩ :=
              inductionHypothesis (stored + piece.length) remaining rest
                (by
                  have shorter := CutStream.length_recv_le
                    (data.length - stored) sock
                  rw [read] at shorter
                  rw [split, List.length_append] at bound
                  simp only at shorter
                  omega)
                (by omega) (by omega) restEq
            refine ⟨passes + 1, ?_⟩
            rw [Function.iterate_succ_apply,
              pass_eq_recvPending rfl (by show 12 ≤ 8 + stored; omega)]
            have skipped :
                CutStream.skip (data.length - stored) sock =
                  CutStream.skip (data.length - (stored + piece.length))
                    remaining := by
              rw [remainingEq, ← CutStream.skip_add]
              congr 1
              omega
            rw [skipped, ← reached]
            simp only [recvPending, sizeofMsghdr, missing, if_neg notDone,
              read, if_pos complete, grown, Nat.add_assoc,
              ClientRx.atBoundary]
          · have full : piece.length = data.length - stored := by omega
            refine ⟨0, ?_⟩
            rw [Function.iterate_succ_apply, Function.iterate_zero_apply,
              pass_eq_recvPending rfl (by show 12 ≤ 8 + stored; omega)]
            simp only [recvPending, sizeofMsghdr, missing, if_neg notDone,
              read, if_neg complete, grown, ClientRx.atBoundary]
            rw [← full, ← remainingEq, full,
              List.take_of_length_le (by omega)]

/-- A header that reached `hdrbuf` intact leads to its message. -/
theorem passes_message
    (previous : List UInt8) (received : List Message)
    (bufferLength : previous.length = 12)
    (message : Message) (formed : message.WellFormed)
    (sock : CutStream UInt8) (rest : List UInt8)
    (content : sock.flatten = message.image ++ rest)
    (repeated :
      message.start.drop (CutStream.firstCut sock) =
        previous.drop (CutStream.firstCut sock)) :
    ∃ passes,
      clientCbPass^[passes] (ClientRx.atBoundary previous received, sock) =
        (ClientRx.atBoundary message.start (received ++ [message]),
          CutStream.skip message.image.length sock) := by
  obtain ⟨headerPasses, headerRead⟩ :=
    passes_header previous received bufferLength sock message.start
      (message.data.drop 4 ++ rest) formed.length_start
      (by rw [content, message.image_eq_start, List.append_assoc])
  rw [← repeated, List.take_append_drop] at headerRead
  have payloadLeft :
      (CutStream.skip 12 sock).flatten = message.data.drop 4 ++ rest := by
    rw [CutStream.flatten_skip, content, message.image_eq_start,
      List.append_assoc, ← formed.length_start, List.drop_left]
  have four := formed.four_le
  obtain ⟨payloadPasses, payloadRead⟩ :=
    passes_payload message.start message.hdr message.data received
      formed.rawLen_start _ 4 (CutStream.skip 12 sock) rest
      (Nat.le_refl _) (Nat.le_refl 4) four payloadLeft
  have completed :
      headerComplete
          { ClientRx.atBoundary message.start received with
            pendingMsgOffset := 12 }
          (CutStream.skip 12 sock) =
        clientCbPass
          ({ ClientRx.atBoundary message.start received with
            pendingMsgOffset := 8 + 4
            pendingMsg := some ⟨message.hdr, message.data.take 4⟩ },
            CutStream.skip 12 sock) := by
    have accepted :
        ¬ ubusMaxMsglen < blobPadLen (message.start.drop 8) := by
      rw [formed.drop_start]
      exact UInt32.not_lt.mpr formed.padLen_start
    rw [pass_eq_recvPending rfl (Nat.le_refl 12), ← formed.drop_start,
      ← formed.take_start]
    exact
      headerComplete_of_accepted
        { ClientRx.atBoundary message.start received with
          pendingMsgOffset := 12 }
        accepted (CutStream.skip 12 sock)
  refine ⟨payloadPasses + (headerPasses + 1), ?_⟩
  rw [Function.iterate_add_apply, headerRead, completed,
    ← Function.iterate_succ_apply, payloadRead, formed.length_image,
    ← CutStream.skip_add]
  congr 2
  omega

/-! ## A header that did not reach `hdrbuf` intact -/

/-- After the messages in `done` the client works on, or has handed over, a
message that starts with the twelve bytes `start`, or it was disconnected. -/
inductive Diverged (done : List Message) (start : List UInt8)
    (rx : ClientRx) : Prop where
  | disconnected :
      rx.disconnected = true → rx.received = done → Diverged done start rx
  | pending (ub : PendingMsg) :
      rx.pendingMsg = some ub → 12 ≤ rx.pendingMsgOffset →
        rx.disconnected = false → rx.received = done →
          4 ≤ ub.data.length → ub.hdr ++ ub.data.take 4 = start →
            Diverged done start rx
  | handedOver (message : Message) (more : List Message) :
      rx.received = done ++ message :: more → message.start = start →
        Diverged done start rx

theorem recvPending_received (rx : ClientRx) (sock : CutStream UInt8) :
    ∃ more, (recvPending rx sock).1.received = rx.received ++ more := by
  unfold recvPending
  split
  · exact ⟨[], (List.append_nil _).symm⟩
  · dsimp only
    split
    · exact ⟨_, rfl⟩
    · split
      · exact ⟨[], (List.append_nil _).symm⟩
      · split
        · exact ⟨[], (List.append_nil _).symm⟩
        · exact ⟨_, rfl⟩

/-- Messages that were handed over stay handed over. -/
theorem pass_received (rx : ClientRx) (sock : CutStream UInt8) :
    ∃ more, (clientCbPass (rx, sock)).1.received = rx.received ++ more := by
  rw [clientCbPass]
  split
  · exact ⟨[], (List.append_nil _).symm⟩
  · split
    · dsimp only
      split
      · exact ⟨[], (List.append_nil _).symm⟩
      · split
        · exact ⟨[], (List.append_nil _).symm⟩
        · unfold headerComplete
          split
          · exact ⟨[], (List.append_nil _).symm⟩
          · exact recvPending_received _ _
    · exact recvPending_received _ _

theorem recvPending_diverged
    {done : List Message} {start : List UInt8} {rx : ClientRx}
    (ub : PendingMsg)
    (pendingEq : rx.pendingMsg = some ub)
    (headerDone : 12 ≤ rx.pendingMsgOffset)
    (connected : rx.disconnected = false) (receivedEq : rx.received = done)
    (four : 4 ≤ ub.data.length) (startEq : ub.hdr ++ ub.data.take 4 = start)
    (sock : CutStream UInt8) :
    Diverged done start (recvPending rx sock).1 := by
  have longer : ∀ bytes : List UInt8,
      (ub.data ++ bytes).take 4 = ub.data.take 4 :=
    fun bytes => List.take_append_of_le_length four
  unfold recvPending
  rw [pendingEq]
  dsimp only
  split
  · exact .handedOver ⟨ub.hdr, ub.data⟩ [] (by rw [receivedEq]) startEq
  · split
    · exact .pending ub pendingEq headerDone connected receivedEq four startEq
    · rename_i bytes _ _
      split
      · refine .pending { ub with data := ub.data ++ bytes } rfl
          (by show 12 ≤ rx.pendingMsgOffset + bytes.length; omega)
          connected receivedEq
          (by
            show 4 ≤ (ub.data ++ bytes).length
            rw [List.length_append]
            omega)
          ?_
        show ub.hdr ++ (ub.data ++ bytes).take 4 = start
        rw [longer, startEq]
      · refine .handedOver ⟨ub.hdr, ub.data ++ bytes⟩ []
          (by rw [receivedEq]) ?_
        show ub.hdr ++ (ub.data ++ bytes).take 4 = start
        rw [longer, startEq]

theorem headerComplete_diverged
    {hdrbuf : List UInt8} (bufferLength : hdrbuf.length = 12)
    (done : List Message) (sock : CutStream UInt8) :
    Diverged done hdrbuf
      (headerComplete
        { ClientRx.atBoundary hdrbuf done with pendingMsgOffset := 12 }
        sock).1 := by
  unfold headerComplete
  split
  · exact .disconnected rfl rfl
  · have tail : (hdrbuf.drop 8).length = 4 := by
      rw [List.length_drop]
      omega
    apply recvPending_diverged ⟨hdrbuf.take 8, hdrbuf.drop 8⟩
    · rfl
    · exact Nat.le_refl 12
    · rfl
    · rfl
    · exact Nat.le_of_eq tail.symm
    · rw [← tail, List.take_length, List.take_append_drop]

/-- A client that went wrong on one message never hands over the right one in
its place. -/
theorem diverged_pass
    {done : List Message} {start : List UInt8} {rx : ClientRx}
    (diverged : Diverged done start rx) (sock : CutStream UInt8) :
    Diverged done start (clientCbPass (rx, sock)).1 := by
  cases diverged with
  | disconnected disconnected receivedEq =>
      rw [pass_of_disconnected disconnected]
      exact .disconnected disconnected receivedEq
  | pending ub pendingEq headerDone connected receivedEq four startEq =>
      rw [pass_eq_recvPending connected headerDone]
      exact recvPending_diverged ub pendingEq headerDone connected receivedEq
        four startEq sock
  | handedOver message more receivedEq startEq =>
      obtain ⟨later, grown⟩ := pass_received rx sock
      exact .handedOver message (more ++ later)
        (by rw [grown, receivedEq, List.append_assoc, List.cons_append])
        startEq

theorem diverged_passes
    {done : List Message} {start : List UInt8}
    (passes : Nat) (state : ClientRx × CutStream UInt8)
    (diverged : Diverged done start state.1) :
    Diverged done start (clientCbPass^[passes] state).1 := by
  induction passes generalizing state with
  | zero =>
      exact diverged
  | succ passes inductionHypothesis =>
      exact inductionHypothesis (clientCbPass state)
        (diverged_pass diverged state.2)

theorem Diverged.received_ne
    {done : List Message} {start : List UInt8} {rx : ClientRx}
    {message : Message} (rest : List Message) (diverged : Diverged done start rx)
    (different : start ≠ message.start) :
    rx.received ≠ done ++ message :: rest := by
  cases diverged with
  | disconnected _ receivedEq | pending _ _ _ _ receivedEq =>
      rw [receivedEq]
      exact fun equal => by simp at equal
  | handedOver found more receivedEq startEq =>
      rw [receivedEq]
      intro equal
      have tails := List.append_cancel_left equal
      rw [List.cons.injEq] at tails
      exact different (by rw [← startEq, tails.1])

/-! ## Whole streams -/

/-- A drained socket changes nothing at a boundary. -/
theorem passes_drained
    (hdrbuf : List UInt8) (received : List Message) :
    ∀ (passes : Nat) (sock : CutStream UInt8), sock.flatten = [] →
      (clientCbPass^[passes]
        (ClientRx.atBoundary hdrbuf received, sock)).1.received = received
  | 0, _, _ => rfl
  | passes + 1, [], _ => by
      rw [Function.iterate_succ_apply,
        pass_header_blocked rfl (Nat.succ_pos 11) rfl]
      exact passes_drained hdrbuf received passes [] rfl
  | passes + 1, [] :: rest, drained => by
      rw [Function.iterate_succ_apply,
        pass_header_blocked rfl (Nat.succ_pos 11) rfl]
      exact passes_drained hdrbuf received passes rest (by simpa using drained)
  | passes + 1, (item :: items) :: rest, drained => by
      simp at drained

theorem passes_messages
    (messages : List Message)
    (formed : ∀ message ∈ messages, message.WellFormed) :
    ∀ (previous : List UInt8) (received : List Message)
      (sock : CutStream UInt8),
      previous.length = 12 → sock.flatten = stream messages →
        HeaderTailsRepeat previous messages sock →
      ∃ (passes : Nat) (hdrbuf : List UInt8) (drained : CutStream UInt8),
        drained.flatten = [] ∧
        clientCbPass^[passes] (ClientRx.atBoundary previous received, sock) =
          (ClientRx.atBoundary hdrbuf (received ++ messages), drained) := by
  induction messages with
  | nil =>
      intro previous received sock _ content _
      exact ⟨0, previous, sock, content, by rw [List.append_nil]; rfl⟩
  | cons message rest inductionHypothesis =>
      intro previous received sock bufferLength content tails
      have messageFormed := formed message List.mem_cons_self
      obtain ⟨first, reached⟩ :=
        passes_message previous received bufferLength message messageFormed
          sock (stream rest) content tails.1
      have left :
          (CutStream.skip message.image.length sock).flatten = stream rest := by
        rw [CutStream.flatten_skip, content, stream_cons, List.drop_left]
      obtain ⟨more, hdrbuf, drained, empty, final⟩ :=
        inductionHypothesis
          (fun other member => formed other (List.mem_cons_of_mem _ member))
          message.start (received ++ [message]) _
          messageFormed.length_start left tails.2
      refine ⟨more + first, hdrbuf, drained, empty, ?_⟩
      rw [Function.iterate_add_apply, reached, final, List.append_assoc,
        List.singleton_append]

/-- When some header tail is not repeated the client goes wrong on that
message. -/
theorem passes_diverged
    (messages : List Message)
    (formed : ∀ message ∈ messages, message.WellFormed) :
    ∀ (previous : List UInt8) (received : List Message)
      (sock : CutStream UInt8),
      previous.length = 12 → sock.flatten = stream messages →
        ¬ HeaderTailsRepeat previous messages sock →
      ∃ (passes : Nat) (before : List Message) (message : Message)
        (after : List Message) (start : List UInt8),
        messages = before ++ message :: after ∧ start ≠ message.start ∧
        Diverged (received ++ before) start
          (clientCbPass^[passes]
            (ClientRx.atBoundary previous received, sock)).1 := by
  induction messages with
  | nil =>
      intro previous received sock _ _ broken
      exact absurd trivial broken
  | cons message rest inductionHypothesis =>
      intro previous received sock bufferLength content broken
      have messageFormed := formed message List.mem_cons_self
      by_cases repeated :
          message.start.drop (CutStream.firstCut sock) =
            previous.drop (CutStream.firstCut sock)
      · obtain ⟨first, reached⟩ :=
          passes_message previous received bufferLength message messageFormed
            sock (stream rest) content repeated
        have left :
            (CutStream.skip message.image.length sock).flatten =
              stream rest := by
          rw [CutStream.flatten_skip, content, stream_cons, List.drop_left]
        obtain ⟨more, before, wrong, after, start, split, different,
            diverged⟩ :=
          inductionHypothesis
            (fun other member => formed other (List.mem_cons_of_mem _ member))
            message.start (received ++ [message]) _
            messageFormed.length_start left
            (fun tails => broken ⟨repeated, tails⟩)
        refine ⟨more + first, message :: before, wrong, after, start,
          by rw [split, List.cons_append], different, ?_⟩
        rw [Function.iterate_add_apply, reached]
        simpa only [List.append_assoc, List.singleton_append] using diverged
      · obtain ⟨passes, headerRead⟩ :=
          passes_header previous received bufferLength sock message.start
            (message.data.drop 4 ++ stream rest) messageFormed.length_start
            (by rw [content, stream_cons, message.image_eq_start,
                  List.append_assoc])
        refine ⟨passes + 1, [], message, rest,
          message.start.take (CutStream.firstCut sock) ++
            previous.drop (CutStream.firstCut sock), rfl, ?_, ?_⟩
        · intro equal
          have parts := equal.trans
            (List.take_append_drop (CutStream.firstCut sock)
              message.start).symm
          exact repeated (List.append_cancel_left parts).symm
        · rw [headerRead, List.append_nil]
          apply headerComplete_diverged
          rw [List.length_append, List.length_take, List.length_drop,
            messageFormed.length_start, bufferLength]
          omega

/-- `client_cb` hands over exactly the messages of the stream if and only if
every header either arrives in one piece or continues, behind its first cut,
with the bytes of the header before it. -/
theorem clientCb_hands_over_iff
    (messages : List Message)
    (formed : ∀ message ∈ messages, message.WellFormed)
    (sock : CutStream UInt8) (content : sock.flatten = stream messages) :
    HandsOver sock messages ↔
      HeaderTailsRepeat (List.replicate 12 0) messages sock := by
  constructor
  · rintro ⟨enough, settled⟩
    by_contra broken
    obtain ⟨passes, before, message, after, start, split, different,
        diverged⟩ :=
      passes_diverged messages formed (List.replicate 12 0) [] sock rfl
        content broken
    have later := diverged_passes enough _ diverged
    rw [← Function.iterate_add_apply] at later
    apply later.received_ne after different
    rw [List.nil_append, ← split]
    exact settled (enough + passes) (Nat.le_add_right enough passes)
  · intro tails
    obtain ⟨passes, hdrbuf, drained, empty, reached⟩ :=
      passes_messages messages formed (List.replicate 12 0) [] sock rfl
        content tails
    refine ⟨passes, fun total enough => ?_⟩
    obtain ⟨more, rfl⟩ := Nat.exists_eq_add_of_le' enough
    rw [handed, Function.iterate_add_apply]
    show (clientCbPass^[more]
      (clientCbPass^[passes]
        (ClientRx.atBoundary (List.replicate 12 0) [], sock))).1.received =
      messages
    rw [reached, List.nil_append]
    exact passes_drained hdrbuf messages more drained empty

/-- A lookup request without attributes. -/
def splitLookup : Message := ⟨[0, 4, 1, 0, 0, 0, 0, 0], [0, 0, 0, 4]⟩

/-- The request with its header cut behind the tenth byte. -/
def splitLookupSock : CutStream UInt8 :=
  [[0, 4, 1, 0, 0, 0, 0, 0, 0, 0], [0, 4]]

/-- The request in one piece leads to the right message. -/
theorem clientCb_hands_over_whole :
    HandsOver [splitLookup.image] [splitLookup] :=
  (clientCb_hands_over_iff [splitLookup]
    (by
      intro message member
      rw [List.mem_singleton] at member
      subst member
      decide)
    [splitLookup.image] rfl).mpr (by decide)

/-- Cut inside its header, the request is handed over with the length bytes
that `calloc` left in `hdrbuf`. -/
theorem clientCb_loses_split_header :
    splitLookup.WellFormed ∧
      splitLookupSock.flatten = stream [splitLookup] ∧
      ¬ HandsOver splitLookupSock [splitLookup] := by
  refine ⟨by decide, by decide, ?_⟩
  rintro ⟨enough, settled⟩
  have diverged :
      Diverged [] [0, 4, 1, 0, 0, 0, 0, 0, 0, 0, 0, 0]
        (clientCbPass^[2] (ClientRx.fresh, splitLookupSock)).1 :=
    .handedOver ⟨[0, 4, 1, 0, 0, 0, 0, 0], [0, 0, 0, 0]⟩ [] (by decide)
      (by decide)
  have later := diverged_passes enough _ diverged
  rw [← Function.iterate_add_apply] at later
  have different :
      [0, 4, 1, 0, 0, 0, 0, 0, 0, 0, 0, 0] ≠ splitLookup.start := by decide
  exact later.received_ne [] different
    (settled (enough + 2) (Nat.le_add_right enough 2))

end LibubusJni.Ubusd
