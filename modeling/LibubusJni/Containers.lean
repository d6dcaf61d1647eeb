import LibubusJni.BufferWrites

/-!
# Containers in a buffer that moves

The calls one after the other.  A call in which `realloc` finds no memory gives
up before it writes anything; only `blob_nest_start` has lost `buf->head` then,
and `blobmsg_realloc_string_buffer` returns the room that was there before as if
it were what was asked for.
-/

namespace LibubusJni

open LibubusJni.Lib LibubusJni.Libubox LibubusJni.Libubox.BlobBuf

/-- A call that builds a message, or a write to a string buffer. -/
inductive BuildCall where
  | blobBufInit (id : Nat)
  | blobNew (id payload : Nat)
  | blobPut (id : Nat) (data : List UInt8)
  | blobPutRaw (data : List UInt8)
  | blobNestStart (id : Nat)
  /-- With the cookie of any open container, counted from the innermost. -/
  | blobNestEnd (depth : Nat)
  | blobmsgAddField (type : Nat) (name data : List UInt8)
  | blobmsgOpenNested (name : List UInt8) (array : Bool)
  | blobmsgAllocStringBuffer (name : List UInt8) (maxlen : Nat)
  | blobmsgReallocStringBuffer (maxlen : Nat)
  | memcpy (offset : Nat) (data : List UInt8)
  | blobmsgAddStringBuffer
  deriving DecidableEq, Repr

/-- Whether a call makes a string buffer larger. -/
def BuildCall.reallocs : BuildCall → Bool
  | .blobmsgReallocStringBuffer _ => true
  | _ => false

/-- A string buffer that is being filled: where it lies, and how many bytes
were asked for. -/
structure PlacedString where
  dest : Nat
  room : Nat
  deriving DecidableEq, Repr

/-- A message that is being built, the cookies as the calls returned them. -/
structure PlacedMessage where
  placed : PlacedBuf
  cookies : List Nat
  string : Option PlacedString

namespace PlacedMessage

variable (message : PlacedMessage)

/-- How large the buffer has to be for a call. -/
def asked : BuildCall → Nat
  | .blobBufInit _ => 4
  | .blobNew _ payload => message.placed.bytes.nextAttr + 4 + payload
  | .blobPut _ data => message.placed.bytes.nextAttr + 4 + data.length
  | .blobPutRaw data =>
      if data.length < 4 then 0
      else message.placed.bytes.nextAttr + data.length
  | .blobNestStart _ => message.placed.bytes.nextAttr + 4
  | .blobmsgAddField _ name data =>
      message.placed.bytes.nextAttr + 4 + blobmsgHdrlen name.length +
        data.length
  | .blobmsgOpenNested name _ =>
      message.placed.bytes.nextAttr + 4 + blobmsgHdrlen name.length
  | .blobmsgAllocStringBuffer name maxlen =>
      message.placed.bytes.nextAttr + 4 + blobmsgHdrlen name.length + maxlen
  | .blobmsgReallocStringBuffer maxlen =>
      message.placed.bytes.nextAttr +
        padAt message.placed.bytes.mem message.placed.bytes.nextAttr + maxlen
  | .blobNestEnd _ | .memcpy _ _ | .blobmsgAddStringBuffer => 0

/-- A call for which there is memory. -/
def done (moved : Nat) : BuildCall → Option PlacedMessage
  | .blobBufInit id => some ⟨message.placed.blobBufInit id moved, [], none⟩
  | .blobNew id payload =>
      some ⟨message.placed.blobNew id payload moved, message.cookies, none⟩
  | .blobPut id data =>
      some ⟨message.placed.blobPut id data moved, message.cookies, none⟩
  | .blobPutRaw data =>
      some ⟨message.placed.blobPutRaw data moved, message.cookies, none⟩
  | .blobNestStart id =>
      let (cookie, placed) := message.placed.blobNestStart id moved
      some ⟨placed, cookie :: message.cookies, none⟩
  | .blobNestEnd depth =>
      match message.cookies.drop depth with
      | [] => none
      | cookie :: outer =>
          some ⟨message.placed.blobNestEnd cookie, outer, none⟩
  | .blobmsgAddField type name data =>
      some
        ⟨message.placed.blobmsgAddField type name data moved,
          message.cookies, none⟩
  | .blobmsgOpenNested name array =>
      let (cookie, placed) :=
        message.placed.blobmsgOpenNested name array moved
      some ⟨placed, cookie :: message.cookies, none⟩
  | .blobmsgAllocStringBuffer name maxlen =>
      let (dest, placed) :=
        message.placed.blobmsgAllocStringBuffer name maxlen moved
      some ⟨placed, message.cookies, some ⟨dest, maxlen⟩⟩
  | .blobmsgReallocStringBuffer maxlen =>
      match message.string with
      | none => none
      | some string =>
          let (dest, placed) :=
            message.placed.blobmsgReallocStringBuffer maxlen moved
          some
            ⟨placed, message.cookies, some ⟨dest, max string.room maxlen⟩⟩
  | .memcpy offset data =>
      match message.string with
      | none => none
      | some string =>
          if offset + data.length ≤ string.room then
            some
              { message with
                placed := message.placed.write (string.dest + offset) data }
          else none
  | .blobmsgAddStringBuffer =>
      match message.string with
      | none => none
      | some _ =>
          some
            ⟨message.placed.blobmsgAddStringBuffer, message.cookies, none⟩

/-- A call for which there is no memory.  `blob_nest_start` leaves no head that
another call could use. -/
def failed : BuildCall → Option PlacedMessage
  | .blobNestStart _ => none
  | .blobmsgReallocStringBuffer maxlen =>
      match message.string with
      | none => none
      | some string =>
          let dest := blobmsgData message.placed.bytes.mem
            message.placed.bytes.nextAttr
          some
            { message with string := some ⟨dest, max string.room maxlen⟩ }
  | _ => some { message with string := none }

/-- A message begins with `blob_buf_init`. -/
def started : BuildCall → Prop
  | .blobBufInit _ => True
  | _ => 0 < message.placed.bytes.buflen

instance (call : BuildCall) : Decidable (message.started call) := by
  unfold started
  split <;> infer_instance

/-- One call, with what `realloc` returns if it is called. -/
def call (action : BuildCall × Option Nat) : Option PlacedMessage :=
  if message.started action.1 then
    match action.2 with
    | some moved => message.done moved action.1
    | none =>
        if message.asked action.1 ≤ message.placed.bytes.buflen then
          message.done message.placed.buf action.1
        else message.failed action.1
  else none

/-- How long the message is behind a call, with what a string buffer was asked
for. -/
def total : BuildCall → Nat
  | .blobBufInit _ => 4
  | .blobNew _ payload =>
      message.placed.bytes.nextAttr + padded (4 + payload)
  | .blobPut _ data =>
      message.placed.bytes.nextAttr + padded (4 + data.length)
  | .blobPutRaw data => message.placed.bytes.nextAttr + padded data.length
  | .blobNestStart _ => message.placed.bytes.nextAttr + 4
  | .blobmsgAddField _ name data =>
      message.placed.bytes.nextAttr +
        padded (4 + blobmsgHdrlen name.length + data.length)
  | .blobmsgOpenNested name _ =>
      message.placed.bytes.nextAttr + (4 + blobmsgHdrlen name.length)
  | .blobmsgAllocStringBuffer name maxlen =>
      message.placed.bytes.nextAttr +
        padded (4 + blobmsgHdrlen name.length + maxlen)
  | .blobmsgReallocStringBuffer maxlen =>
      message.placed.bytes.nextAttr +
        padded (padAt message.placed.bytes.mem
          message.placed.bytes.nextAttr + maxlen)
  | .blobNestEnd _ | .memcpy _ _ | .blobmsgAddStringBuffer =>
      message.placed.bytes.nextAttr

/-- There is a zero byte within what was asked for. -/
def Terminated (string : PlacedString) : Prop :=
  ∃ index < string.room,
    message.placed.bytes.mem (string.dest + index) = 0

/-- The message stays below 16 MiB. -/
def Small (action : BuildCall × Option Nat) : Prop :=
  message.total action.1 < 16777216

/-- Further, a string buffer that is added holds a string, and one that has to
be larger is not asked for in vain. -/
structure Fits (action : BuildCall × Option Nat) : Prop where
  small : message.Small action
  terminated : action.1 = .blobmsgAddStringBuffer →
    ∀ string ∈ message.string, message.Terminated string
  found : action.1.reallocs = true → action.2 = none →
    message.asked action.1 ≤ message.placed.bytes.buflen

instance (action : BuildCall × Option Nat) :
    Decidable (message.Small action) :=
  inferInstanceAs (Decidable (_ < _))

instance (string : PlacedString) : Decidable (message.Terminated string) :=
  inferInstanceAs (Decidable (∃ index < _, _))

instance (action : BuildCall × Option Nat) :
    Decidable (message.Fits action) :=
  decidable_of_iff
    (message.Small action ∧
      (action.1 = .blobmsgAddStringBuffer →
        ∀ string ∈ message.string, message.Terminated string) ∧
      (action.1.reallocs = true → action.2 = none →
        message.asked action.1 ≤ message.placed.bytes.buflen))
    ⟨fun fits => ⟨fits.1, fits.2.1, fits.2.2⟩,
      fun fits => ⟨fits.small, fits.terminated, fits.found⟩⟩

end PlacedMessage

namespace PlacedBuf

/-- The attribute that a pointer denotes. -/
def attrOf (placed : PlacedBuf) (attr : Nat) : List UInt8 :=
  (List.range (rawAt placed.bytes.mem (attr - placed.buf))).map fun index =>
    placed.load (attr + index)

/-- Two pointers denote the same attribute of the buffer. -/
structure Same (before after : PlacedBuf) (attr moved : Nat) : Prop where
  offset : attr - before.buf = moved - after.buf
  inside : attr - before.buf + (before.attrOf attr).length ≤
    before.bytes.buflen
  bytes : before.attrOf attr = after.attrOf moved

end PlacedBuf

/-- No byte was written outside of the buffer, and wherever a growth moves it,
the head and the cookies denote the containers from before. -/
structure PlacedMessage.Sound (message : PlacedMessage) : Prop where
  inside : message.placed.Inside
  head : ∀ size moved,
    message.placed.Same (message.placed.growTo size moved)
      message.placed.head (message.placed.growTo size moved).head
  cookies : ∀ size moved, ∀ cookie ∈ message.cookies,
    message.placed.Same (message.placed.growTo size moved)
      (message.placed.offsetToAttr cookie)
      ((message.placed.growTo size moved).offsetToAttr cookie)

/-- The calls on a `struct blob_buf` that is all zero bytes. -/
def placing : Machine PlacedMessage (BuildCall × Option Nat) where
  init := ⟨⟨BlobBuf.fresh, 0, 0, rfl, []⟩, [], none⟩
  step := PlacedMessage.call

/-! ## A growth -/

namespace PlacedBuf

variable {placed : PlacedBuf} {offset : Nat}

theorem offsetToAttr_cookie (offset : Nat) :
    placed.offsetToAttr (offset + blobCookie) = placed.buf + offset := by
  rw [offsetToAttr, Nat.add_sub_cancel]

theorem attrToOffset_head :
    placed.attrToOffset placed.head = placed.bytes.head + blobCookie := by
  rw [attrToOffset, placed.headAt, Nat.add_sub_cancel_left]

/-- What lies in the buffer is still there, as far behind its start. -/
theorem same_growTo (size moved : Nat)
    (inside : offset + rawAt placed.bytes.mem offset ≤ placed.bytes.buflen)
    (sameLen : rawAt (placed.bytes.growTo size).mem offset =
      rawAt placed.bytes.mem offset) :
    placed.Same (placed.growTo size moved) (placed.buf + offset)
      ((placed.growTo size moved).buf + offset) := by
  refine ⟨?_, ?_, ?_⟩
  · rw [Nat.add_sub_cancel_left, Nat.add_sub_cancel_left]
  · rw [attrOf, List.length_map, List.length_range, Nat.add_sub_cancel_left]
    exact inside
  · rw [attrOf, attrOf, Nat.add_sub_cancel_left, Nat.add_sub_cancel_left,
      bytes_growTo, sameLen]
    refine List.map_congr_left fun index member => ?_
    have within := List.mem_range.mp member
    rw [load, load, Nat.add_assoc, Nat.add_assoc, Nat.add_sub_cancel_left,
      Nat.add_sub_cancel_left, bytes_growTo, mem_growTo size (by omega)]

theorem rawAt_growTo (size : Nat)
    (inside : offset + 4 ≤ placed.bytes.buflen) :
    rawAt (placed.bytes.growTo size).mem offset =
      rawAt placed.bytes.mem offset :=
  rawAt_congr fun _ _ upper => mem_growTo size (by omega)

theorem head_eq (size moved : Nat) :
    (placed.growTo size moved).head =
      (placed.growTo size moved).buf + placed.bytes.head := by
  rw [(placed.growTo size moved).headAt, bytes_growTo, head_growTo]

end PlacedBuf

/-! ## Containers one inside the other -/

/-- What an outer container holds by now ends with the first four bytes of an
inner one. -/
def Around (mem : Memory) (inner outer : Nat) : Prop :=
  outer + rawAt mem outer ≤ inner + 4 ∧ rawAt mem outer % 4 = 0

theorem around_congr
    {mem other : Memory} {head : Nat} {heads : List Nat}
    (around : (head :: heads).Pairwise (Around mem))
    (same : heads.map (rawAt other) = heads.map (rawAt mem)) :
    (head :: heads).Pairwise (Around other) := by
  have sameLen := List.map_inj_left.mp same
  obtain ⟨first, others⟩ := List.pairwise_cons.mp around
  refine List.pairwise_cons.mpr ⟨?_, ?_⟩
  · intro outer member
    rw [Around, sameLen outer member]
    exact first outer member
  · refine others.imp_of_mem fun _ member around => ?_
    rw [Around, sameLen _ member]
    exact around

/-- The containers lie one inside the other. -/
structure Nested (buf : BlobBuf) (heads sizes : List Nat) : Prop where
  exact : Exact buf heads sizes
  around : (buf.head :: heads).Pairwise (Around buf.mem)

/-- The message ends in the buffer and is shorter than 16 MiB. -/
structure Ended (buf : BlobBuf) : Prop where
  inside : buf.nextAttr ≤ buf.buflen
  small : buf.nextAttr < 16777216

namespace Nested

variable {buf next : BlobBuf} {heads rest : List Nat} {size later : Nat}

/-- Only the innermost container changes. -/
theorem append (nested : Nested buf heads (size :: rest))
    (sameHead : next.head = buf.head)
    (exact : Exact next heads (later :: rest)) :
    Nested next heads (later :: rest) := by
  refine ⟨exact, ?_⟩
  have before := (List.cons.inj nested.exact.lengths).2
  have after := (List.cons.inj exact.lengths).2
  rw [sameHead]
  exact around_congr nested.around (after.trans before.symm)

/-- A container is opened. -/
theorem enter (nested : Nested buf heads (size :: rest)) {inner : Nat}
    (moved : next.head = buf.nextAttr)
    (exact : Exact next (buf.head :: heads)
      (inner :: (padded size + 4) :: rest)) :
    Nested next (buf.head :: heads) (inner :: (padded size + 4) :: rest) := by
  refine ⟨exact, ?_⟩
  obtain ⟨_, _, _, place, behind, _⟩ := nested.exact.nextAttr
  obtain ⟨outerLength, after⟩ :=
    List.cons.inj (List.cons.inj exact.lengths).2
  have before := (List.cons.inj nested.exact.lengths).2
  have further := around_congr nested.around (after.trans before.symm)
  have round : padded size = (size + 3) / 4 * 4 := rfl
  refine List.pairwise_cons.mpr ⟨?_, further⟩
  intro outer member
  rw [moved, Around]
  rcases List.mem_cons.mp member with rfl | inRest
  · omega
  · have around := (List.pairwise_cons.mp further).1 outer inRest
    rw [Around] at around
    omega

/-- The inner containers are left out. -/
theorem drop (nested : Nested buf heads (size :: rest)) (depth : Nat) :
    Nested buf (heads.drop depth) (size :: rest.drop depth) := by
  have exact := nested.exact
  obtain ⟨first, further⟩ := List.cons.inj exact.lengths
  have sublist : List.Sublist (buf.head :: heads.drop depth)
      (buf.head :: heads) := (List.drop_sublist depth heads).cons_cons _
  refine ⟨⟨exact.inside, ?_, exact.apart.sublist sublist, ?_, ?_⟩,
    nested.around.sublist sublist⟩
  · exact fun head member => exact.aligned head (sublist.subset member)
  · rw [List.map_cons, first, List.map_drop, further]
  · intro other member
    refine exact.long other ?_
    rcases List.mem_cons.mp member with rfl | inRest
    · exact List.mem_cons_self
    · exact List.mem_cons_of_mem _ (List.mem_of_mem_drop inRest)

/-- Where an open container ends. -/
theorem outer {attr outer : Nat}
    (nested : Nested buf (attr :: heads) (size :: outer :: rest)) :
    attr + outer ≤ buf.head + 4 ∧ padded outer = outer := by
  have length := (List.cons.inj (List.cons.inj nested.exact.lengths).2).1
  have around := (List.pairwise_cons.mp nested.around).1 attr
    List.mem_cons_self
  rw [Around] at around
  rw [padded]
  omega

/-- The innermost container is closed. -/
theorem blobNestEnd {attr outer : Nat}
    (nested : Nested buf (attr :: heads) (size :: outer :: rest))
    (ended : Ended buf) :
    Nested (buf.blobNestEnd attr) heads
        ((padded outer + (size - 4)) :: rest) ∧
      (buf.blobNestEnd attr).nextAttr ≤ buf.nextAttr := by
  obtain ⟨_, four, _, place, _⟩ := nested.exact.nextAttr
  obtain ⟨within, round⟩ := nested.outer
  have small := ended.small
  have roundSize : padded size = (size + 3) / 4 * 4 := rfl
  have exact : Exact (buf.blobNestEnd attr) heads
      ((padded outer + (size - 4)) :: rest) :=
    nested.exact.blobNestEnd (by omega)
  obtain ⟨_, _, _, laterPlace, _⟩ := exact.nextAttr
  have later : padded (padded outer + (size - 4)) =
      (padded outer + (size - 4) + 3) / 4 * 4 := rfl
  have head : (buf.blobNestEnd attr).head = attr := rfl
  refine ⟨⟨exact, ?_⟩, by omega⟩
  have before := (List.cons.inj (List.cons.inj nested.exact.lengths).2).2
  have after := (List.cons.inj exact.lengths).2
  exact around_congr (List.pairwise_cons.mp nested.around).2
    (after.trans before.symm)

end Nested

/-- The containers of a message that is being built. -/
structure Whole (buf : BlobBuf) (heads sizes : List Nat) : Prop where
  nested : Nested buf heads sizes
  ended : Ended buf

namespace Whole

variable {buf next : BlobBuf} {heads rest : List Nat} {size later : Nat}

/-- What is put behind the head has its room. -/
theorem append (whole : Whole buf heads (size :: rest))
    (sameHead : next.head = buf.head)
    (exact : Exact next heads (later :: rest))
    (room : buf.head + later ≤ next.buflen)
    (small : buf.head + padded later < 16777216) :
    Whole next heads (later :: rest) := by
  obtain ⟨_, _, _, place, _, aligned⟩ := exact.nextAttr
  have round : padded later = (later + 3) / 4 * 4 := rfl
  have blocks := next.aligned
  have headAligned := exact.aligned next.head List.mem_cons_self
  exact ⟨whole.nested.append sameHead exact, by omega, by omega⟩

theorem enter (whole : Whole buf heads (size :: rest)) {inner : Nat}
    (moved : next.head = buf.nextAttr)
    (exact : Exact next (buf.head :: heads)
      (inner :: (padded size + 4) :: rest))
    (room : buf.nextAttr + inner ≤ next.buflen)
    (small : buf.nextAttr + padded inner < 16777216) :
    Whole next (buf.head :: heads) (inner :: (padded size + 4) :: rest) := by
  obtain ⟨_, _, _, place, _, aligned⟩ := exact.nextAttr
  have round : padded inner = (inner + 3) / 4 * 4 := rfl
  have blocks := next.aligned
  have headAligned := exact.aligned next.head List.mem_cons_self
  exact ⟨whole.nested.enter moved exact, by omega, by omega⟩

theorem blobBufInit (buf : BlobBuf) (id : Nat) :
    Whole (buf.blobBufInit id) [] [4] := by
  have exact := Exact.blobBufInit buf id
  obtain ⟨_, _, _, place, _⟩ := exact.nextAttr
  have head : (buf.blobBufInit id).head = 0 :=
    head_blobAdd { buf with head := 0 } 0 id 0
  have inside := exact.inside
  have four : padded 4 = 4 := rfl
  exact ⟨⟨exact, List.pairwise_singleton _ _⟩, by omega, by omega⟩

theorem blobNew (whole : Whole buf heads (size :: rest)) (id : Nat)
    {payload : Nat}
    (small : buf.nextAttr + padded (4 + payload) < 16777216) :
    Whole (buf.blobNew id payload) heads
      ((padded size + padded (4 + payload)) :: rest) := by
  obtain ⟨_, _, _, place, _, aligned⟩ := whole.nested.exact.nextAttr
  have room := le_buflen_blobNew buf id payload
  have blocks := (buf.blobNew id payload).aligned
  have round : padded (4 + payload) = (4 + payload + 3) / 4 * 4 := rfl
  have twice : padded (padded size + padded (4 + payload)) =
      padded size + padded (4 + payload) := by
    simp only [padded]
    omega
  apply whole.append (head_blobNew buf id payload)
  · exact whole.nested.exact.blobNew id (by omega)
  · omega
  · omega

theorem keep (whole : Whole buf heads (size :: rest))
    (sameHead : next.head = buf.head) (room : buf.buflen ≤ next.buflen)
    (same : ∀ addr, addr < buf.head + 4 → next.mem addr = buf.mem addr) :
    Whole next heads (size :: rest) := by
  obtain ⟨_, _, _, place, _⟩ := whole.nested.exact.nextAttr
  have inside := whole.ended.inside
  have small := whole.ended.small
  have round : padded size = (size + 3) / 4 * 4 := rfl
  apply whole.append sameHead
  · exact whole.nested.exact.keep sameHead room same
  · omega
  · omega

theorem blobPut (whole : Whole buf heads (size :: rest)) (id : Nat)
    {data : List UInt8}
    (small : buf.nextAttr + padded (4 + data.length) < 16777216) :
    Whole (buf.blobPut id data) heads
      ((padded size + padded (4 + data.length)) :: rest) := by
  obtain ⟨_, _, _, _, behind, _⟩ := whole.nested.exact.nextAttr
  have sameHead := head_blobNew buf id data.length
  apply (whole.blobNew id small).keep
  · rfl
  · exact Nat.le_refl _
  · exact fun addr before => store_of_lt (by omega)

theorem blobPutRaw (whole : Whole buf heads (size :: rest))
    {data : List UInt8} (long : 4 ≤ data.length)
    (small : buf.nextAttr + padded data.length < 16777216) :
    Whole (buf.blobPutRaw data) heads
      ((padded size + data.length) :: rest) := by
  obtain ⟨_, _, _, place, _, aligned⟩ := whole.nested.exact.nextAttr
  have round : padded data.length = (data.length + 3) / 4 * 4 := rfl
  have twice : padded (padded size + data.length) =
      padded size + padded data.length := by
    simp only [padded]
    omega
  have put : (buf.blobPutRaw data).head = buf.head ∧
      buf.nextAttr + data.length ≤ (buf.blobPutRaw data).buflen := by
    rw [BlobBuf.blobPutRaw, if_neg (Nat.not_lt.mpr long)]
    have room := (le_buflen_growTo buf
      (buf.nextAttr + 4 + (data.length - 4))).2
    refine ⟨head_blobAdd buf buf.nextAttr 0 (data.length - 4), ?_⟩
    refine Nat.le_trans ?_ room
    omega
  apply whole.append put.1
  · exact whole.nested.exact.blobPutRaw long (by omega)
  · omega
  · omega

theorem blobNestStart (whole : Whole buf heads (size :: rest)) (id : Nat)
    (small : buf.nextAttr + 4 < 16777216) :
    Whole (buf.blobNestStart id).2 (buf.head :: heads)
      (4 :: (padded size + 4) :: rest) := by
  obtain ⟨_, _, _, place, _⟩ := whole.nested.exact.nextAttr
  apply whole.enter
  · rfl
  · exact whole.nested.exact.blobNestStart id (by omega)
  · exact (le_buflen_growTo buf _).2
  · exact small

theorem blobNestEnd {attr : Nat}
    (whole : Whole buf (attr :: heads) (size :: rest)) :
    ∃ sizes, Whole (buf.blobNestEnd attr) heads sizes := by
  obtain ⟨outer, further, rfl⟩ : ∃ outer further, rest = outer :: further :=
    ⟨_, _, (List.cons.inj whole.nested.exact.lengths).2.symm⟩
  obtain ⟨nested, ended⟩ := whole.nested.blobNestEnd whole.ended
  refine ⟨_, nested, ?_, ?_⟩
  · exact Nat.le_trans ended whole.ended.inside
  · exact Nat.lt_of_le_of_lt ended whole.ended.small

theorem blobmsgAddField (whole : Whole buf heads (size :: rest))
    (type : Nat) {name data : List UInt8}
    (small : buf.nextAttr +
      padded (4 + blobmsgHdrlen name.length + data.length) < 16777216) :
    Whole (buf.blobmsgAddField type name data) heads
      ((padded size +
        padded (4 + blobmsgHdrlen name.length + data.length)) :: rest) := by
  obtain ⟨_, _, _, place, _, aligned⟩ := whole.nested.exact.nextAttr
  have room := le_buflen_blobmsgNew buf type name data.length
  have sameLen : (buf.blobmsgAddField type name data).buflen =
      (buf.blobmsgNew type name data.length).2.buflen := rfl
  have blocks := (buf.blobmsgAddField type name data).aligned
  have round : padded (4 + blobmsgHdrlen name.length + data.length) =
      (4 + blobmsgHdrlen name.length + data.length + 3) / 4 * 4 := rfl
  have twice : padded (padded size +
      padded (4 + blobmsgHdrlen name.length + data.length)) =
        padded size +
          padded (4 + blobmsgHdrlen name.length + data.length) := by
    simp only [padded]
    omega
  apply whole.append (head_blobmsgAddField buf type name data)
  · exact whole.nested.exact.blobmsgAddField type (by omega)
  · omega
  · omega

theorem blobmsgOpenNested (whole : Whole buf heads (size :: rest))
    {name : List UInt8} (array : Bool)
    (small : buf.nextAttr + (4 + blobmsgHdrlen name.length) < 16777216) :
    Whole (buf.blobmsgOpenNested name array).2 (buf.head :: heads)
      ((4 + blobmsgHdrlen name.length) :: (padded size + 4) :: rest) := by
  obtain ⟨_, _, _, place, _⟩ := whole.nested.exact.nextAttr
  have hdrlen := le_blobmsgHdrlen name.length
  have aligned : padded (4 + blobmsgHdrlen name.length) =
      4 + blobmsgHdrlen name.length := by
    simp only [padded, blobmsgHdrlen]
    omega
  have room := le_buflen_blobmsgNew buf
    (if array then BlobmsgType.array else BlobmsgType.table).id name 0
  apply whole.enter
  · rfl
  · exact whole.nested.exact.blobmsgOpenNested array (by omega) (by omega)
  · exact Nat.le_trans (by omega) room
  · omega

end Whole

/-! ## The string buffer -/

/-- A string buffer that is being filled has the room that was asked for. -/
structure Filled (buf : BlobBuf) (header : StringHeader)
    (string : PlacedString) : Prop where
  filling : Filling buf header ⟨string.dest, string.room, none⟩
  lost : header.lost = 0
  dest : string.dest ≤ buf.nextAttr + header.size
  inside : buf.nextAttr + header.size + string.room ≤ buf.buflen
  small : buf.nextAttr + padded (header.size + string.room) < 16777216

theorem lostOf_small {len : Nat} (four : 4 ≤ len) (small : len < 16777216) :
    lostOf len = 0 := by
  rw [lostOf, if_neg (by omega)]

section Strings

variable {buf : BlobBuf} {heads rest : List Nat} {size : Nat}
    {header : StringHeader} {string : PlacedString}

theorem Whole.blobmsgAllocStringBuffer
    (whole : Whole buf heads (size :: rest)) (name : List UInt8)
    {maxlen : Nat}
    (small : buf.nextAttr +
      padded (4 + blobmsgHdrlen name.length + maxlen) < 16777216) :
    Whole (buf.blobmsgAllocStringBuffer name maxlen).2 heads
        (padded size :: rest) ∧
      Filled (buf.blobmsgAllocStringBuffer name maxlen).2
        ⟨4 + blobmsgHdrlen name.length, maxlen⟩
        ⟨(buf.blobmsgAllocStringBuffer name maxlen).1, maxlen⟩ := by
  obtain ⟨_, _, _, place, _, aligned⟩ := whole.nested.exact.nextAttr
  have sizeSmall : padded size < 16777216 := by
    have ended := whole.ended.small
    omega
  have exact := whole.nested.exact.blobmsgAllocStringBuffer name maxlen
    sizeSmall
  obtain ⟨_, _, _, laterPlace, _⟩ := exact.nextAttr
  have sameHead : (buf.blobmsgAllocStringBuffer name maxlen).2.head =
      buf.head := head_blobmsgNew buf BlobmsgType.string.id name maxlen
  have room : buf.nextAttr + 4 + blobmsgHdrlen name.length + maxlen ≤
      (buf.blobmsgAllocStringBuffer name maxlen).2.buflen :=
    le_buflen_blobmsgNew buf BlobmsgType.string.id name maxlen
  have twice : padded (padded size) = padded size := by
    simp only [padded]
    omega
  have samePlace : (buf.blobmsgAllocStringBuffer name maxlen).2.nextAttr =
      buf.nextAttr := by omega
  have asked : 4 + blobmsgHdrlen name.length + maxlen ≤
      padded (4 + blobmsgHdrlen name.length + maxlen) := by
    rw [padded]
    omega
  refine ⟨whole.append sameHead exact (by omega) (by omega), ?_, ?_, ?_, ?_,
    ?_⟩
  · exact whole.nested.exact.filling name maxlen sizeSmall
  · have lost := @lostOf_small (4 + blobmsgHdrlen name.length + maxlen)
      (by omega) (by omega)
    exact lost
  · have shorter := PlacedBuf.blobmsgHdrlen_mod_le name.length
    have dest : (buf.blobmsgAllocStringBuffer name maxlen).1 =
        (buf.blobmsgNew BlobmsgType.string.id name maxlen).1 := rfl
    rw [samePlace, dest, blobmsgNew_eq]
    dsimp only
    omega
  · dsimp only
    omega
  · rw [samePlace]
    exact small

/-- The length of the attribute is that of what lies in front of the data. -/
theorem Filled.rawAt_nextAttr (filled : Filled buf header string) :
    rawAt buf.mem buf.nextAttr = header.size ∧
      padAt buf.mem buf.nextAttr = header.size := by
  have lost := filled.lost
  have small := filled.small
  have aligned := filled.filling.aligned
  have asked : header.size ≤ padded (header.size + string.room) := by
    rw [padded]
    omega
  have length := filled.filling.length
  rw [padAt_eq, length]
  omega

theorem Filled.blobmsgReallocStringBuffer
    (filled : Filled buf header string)
    (whole : Whole buf heads (size :: rest)) {maxlen : Nat}
    (small : buf.nextAttr +
      padded (padAt buf.mem buf.nextAttr + maxlen) < 16777216) :
    Whole (buf.blobmsgReallocStringBuffer maxlen).2 heads (size :: rest) ∧
      Filled (buf.blobmsgReallocStringBuffer maxlen).2 header
        ⟨(buf.blobmsgReallocStringBuffer maxlen).1,
          max string.room maxlen⟩ := by
  obtain ⟨_, _, _, place, _⟩ := whole.nested.exact.nextAttr
  obtain ⟨exact, filling⟩ :=
    filled.filling.blobmsgReallocStringBuffer whole.nested.exact maxlen
  obtain ⟨_, _, _, laterPlace, _⟩ := exact.nextAttr
  have sameHead : (buf.blobmsgReallocStringBuffer maxlen).2.head =
      buf.head := head_growTo buf _
  have room := le_buflen_growTo buf
    (buf.nextAttr + padAt buf.mem buf.nextAttr + maxlen)
  have sameLen : (buf.blobmsgReallocStringBuffer maxlen).2.buflen =
      (buf.growTo (buf.nextAttr + padAt buf.mem buf.nextAttr +
        maxlen)).buflen := rfl
  have samePlace : (buf.blobmsgReallocStringBuffer maxlen).2.nextAttr =
      buf.nextAttr := by omega
  have pad := filled.rawAt_nextAttr.2
  have inside := filled.inside
  have ended := whole.ended
  have endedInside := ended.inside
  have endedSmall := ended.small
  have round : padded size = (size + 3) / 4 * 4 := rfl
  have same : blobmsgData (buf.blobmsgReallocStringBuffer maxlen).2.mem
      buf.nextAttr = blobmsgData buf.mem buf.nextAttr := by
    have header := filled.filling.inside
    exact blobmsgData_eqOn fun addr _ upper => mem_growTo _ (by omega)
  have sameDest : (buf.blobmsgReallocStringBuffer maxlen).1 =
      string.dest := by
    have data := filling.data
    rw [samePlace, same] at data
    exact data.symm.trans filled.filling.data
  refine ⟨whole.append sameHead exact (by omega) (by omega), ?_, filled.lost,
    ?_, ?_, ?_⟩
  · exact ⟨filling.long, filling.aligned, filling.inside, filling.length,
      filling.data⟩
  · rw [samePlace, sameDest]
    exact filled.dest
  · rw [samePlace]
    dsimp only
    omega
  · rw [samePlace]
    have before := filled.small
    dsimp only
    rw [pad] at small
    rcases Nat.le_total string.room maxlen with less | more
    · rw [Nat.max_eq_right less]
      exact small
    · rw [Nat.max_eq_left more]
      exact before

theorem Filled.memcpy
    (filled : Filled buf header string)
    (whole : Whole buf heads (size :: rest)) (offset : Nat)
    (data : List UInt8) :
    Whole { buf with mem := store buf.mem (string.dest + offset) data }
        heads (size :: rest) ∧
      Filled { buf with mem := store buf.mem (string.dest + offset) data }
        header string := by
  have start := (blobmsgData_le buf.mem buf.nextAttr).1
  have isDest := filled.filling.data
  dsimp only at isDest
  obtain ⟨_, _, _, place, behind, _⟩ := whole.nested.exact.nextAttr
  have same : ∀ addr, addr < buf.nextAttr + 4 →
      store buf.mem (string.dest + offset) data addr = buf.mem addr :=
    fun addr before => store_of_lt (by omega)
  obtain ⟨exact, filling⟩ := @Filling.keep buf
    { buf with mem := store buf.mem (string.dest + offset) data } heads rest
    size header ⟨string.dest, string.room, none⟩
    ⟨string.dest, string.room, none⟩ filled.filling whole.nested.exact rfl
    (Nat.le_refl _) same
    ((blobmsgData_store data (by omega)).trans isDest)
  obtain ⟨_, _, _, laterPlace, _⟩ := exact.nextAttr
  have samePlace : nextAttr { buf with
      mem := store buf.mem (string.dest + offset) data } = buf.nextAttr :=
    laterPlace.trans place.symm
  refine ⟨whole.keep rfl (Nat.le_refl _) fun addr before =>
      same addr (by omega), filling, filled.lost, ?_, ?_, ?_⟩
  · rw [samePlace]
    exact filled.dest
  · rw [samePlace]
    exact filled.inside
  · rw [samePlace]
    exact filled.small

/-- A string that is terminated is added with its padding. -/
theorem Filled.blobmsgAddStringBuffer
    (filled : Filled buf header string)
    (whole : Whole buf heads (size :: rest))
    (terminated : ∃ index < string.room,
      buf.mem (string.dest + index) = 0) :
    buf.nextAttr + padded (stringRawLen buf) ≤ buf.buflen ∧
      ∃ sizes, Whole buf.blobmsgAddStringBuffer heads sizes := by
  obtain ⟨index, within, zero⟩ := terminated
  obtain ⟨_, _, _, place, behind, aligned⟩ := whole.nested.exact.nextAttr
  have inside := filled.inside
  have small := filled.small
  have blocks := buf.aligned
  have headerAligned := filled.filling.aligned
  have dest := filled.dest
  have isDest := filled.filling.data
  dsimp only at isDest
  obtain ⟨len, isLen⟩ : ∃ len,
      strlen buf.mem (buf.buflen - string.dest) string.dest = len :=
    ⟨_, rfl⟩
  have short : string.dest + len ≤ string.dest + index := by
    have inBound : string.dest + index <
        string.dest + (buf.buflen - string.dest) := by omega
    rw [← isLen]
    exact (strlen_congr zero (Nat.le_add_right _ _) inBound inBound
      fun _ _ _ => rfl).2
  have asked : padded (header.size + string.room) =
      (header.size + string.room + 3) / 4 * 4 := rfl
  have padding : padded (header.size + len + 1) =
      (header.size + len + 1 + 3) / 4 * 4 := rfl
  have round : padded size = (size + 3) / 4 * 4 := rfl
  have twice : padded (size + padded (header.size + len + 1)) =
      padded size + padded (header.size + len + 1) := by
    simp only [padded]
    omega
  have raw : stringRawLen buf = header.size + len + 1 := by
    rw [stringRawLen, filled.rawAt_nextAttr.1, isDest, isLen]
    omega
  have added := filled.filling.rawAt_head whole.nested.exact isLen (by omega)
  rw [filled.lost, Nat.sub_zero] at added
  have sameHead : buf.blobmsgAddStringBuffer.head = buf.head := rfl
  have sameLen : buf.blobmsgAddStringBuffer.buflen = buf.buflen := rfl
  have exact : Exact buf.blobmsgAddStringBuffer heads
      ((size + padded (header.size + len + 1)) :: rest) := by
    apply whole.nested.exact.append sameHead
    · exact fun _ before => mem_addStringBuffer_of_lt buf before
    · exact Nat.le_refl _
    · exact added
    · omega
  refine ⟨?_, _, whole.append sameHead exact ?_ ?_⟩
  · rw [raw]
    omega
  · omega
  · omega

end Strings

/-! ## What a run keeps -/

namespace PlacedMessage

/-- No message was begun, as there was no memory for it. -/
structure Unbuilt (message : PlacedMessage) : Prop where
  bytes : message.placed.bytes = BlobBuf.fresh
  cookies : message.cookies = []
  string : message.string = none

/-- The cookies are those of the containers around the head. -/
structure Built (message : PlacedMessage) (heads sizes : List Nat) :
    Prop where
  cookies : message.cookies = heads.map (· + blobCookie)
  whole : Whole message.placed.bytes heads sizes
  string : ∀ string, message.string = some string →
    ∃ header, Filled message.placed.bytes header string

/-- What a run keeps. -/
structure Inv (message : PlacedMessage) : Prop where
  inside : message.placed.Inside
  built : message.Unbuilt ∨ ∃ heads sizes, message.Built heads sizes

variable {message next : PlacedMessage} {placed : PlacedBuf}
    {heads sizes rest : List Nat} {size : Nat}

theorem Inv.sound (inv : message.Inv) : message.Sound := by
  rcases inv.built with unbuilt | ⟨heads, sizes, built⟩
  · refine ⟨inv.inside, ?_, ?_⟩
    · intro size moved
      have fresh := unbuilt.bytes
      have zero : rawAt BlobBuf.fresh.mem 0 = 0 := rfl
      have grown : rawAt (BlobBuf.fresh.growTo size).mem 0 =
          rawAt BlobBuf.fresh.mem 0 := by
        refine rawAt_congr fun addr lower upper => ?_
        rw [BlobBuf.growTo]
        split
        · exact clear_at lower (by omega)
        · rfl
      have same := @PlacedBuf.same_growTo message.placed 0 size moved
      rw [fresh] at same
      rw [message.placed.headAt, PlacedBuf.head_eq, fresh]
      exact same (by decide) grown
    · intro size moved cookie member
      rw [unbuilt.cookies] at member
      cases member
  · obtain ⟨size, rest, rfl⟩ := built.whole.nested.exact.exists_cons
    obtain ⟨length, _, _, place, behind, _⟩ :=
      built.whole.nested.exact.nextAttr
    have ended := built.whole.ended.inside
    have round : padded size = (size + 3) / 4 * 4 := rfl
    have headInside := built.whole.nested.exact.inside
    refine ⟨inv.inside, ?_, ?_⟩
    · intro size moved
      rw [message.placed.headAt, PlacedBuf.head_eq]
      exact PlacedBuf.same_growTo size moved (by omega)
        (PlacedBuf.rawAt_growTo size headInside)
    · intro size moved cookie member
      rw [built.cookies] at member
      obtain ⟨attr, isHead, rfl⟩ := List.mem_map.mp member
      have around := (List.pairwise_cons.mp built.whole.nested.around).1 attr
        isHead
      have apart := (List.pairwise_cons.mp
        built.whole.nested.exact.apart).1 attr isHead
      rw [Around] at around
      rw [PlacedBuf.offsetToAttr_cookie, PlacedBuf.offsetToAttr_cookie]
      exact PlacedBuf.same_growTo size moved (by omega)
        (PlacedBuf.rawAt_growTo size (by omega))

/-- A call that abandons the string buffer. -/
theorem inv_of_whole {buf : BlobBuf} {cookies : List Nat}
    (inside : placed.Inside) (bytes : placed.bytes = buf)
    (whole : Whole buf heads sizes)
    (isCookies : cookies = heads.map (· + blobCookie)) :
    Inv ⟨placed, cookies, none⟩ :=
  ⟨inside, Or.inr ⟨heads, sizes, isCookies, bytes ▸ whole, nofun⟩⟩

/-- A call that leaves a string buffer to be filled. -/
theorem inv_of_filled {buf : BlobBuf} {cookies : List Nat} {dest room : Nat}
    {header : StringHeader} {string : PlacedString} (inside : placed.Inside)
    (bytes : placed.bytes = buf) (whole : Whole buf heads sizes)
    (filled : Filled buf header string) (isDest : dest = string.dest)
    (isRoom : room = string.room)
    (isCookies : cookies = heads.map (· + blobCookie)) :
    Inv ⟨placed, cookies, some ⟨dest, room⟩⟩ := by
  refine ⟨inside, Or.inr ⟨heads, sizes, isCookies, bytes ▸ whole, ?_⟩⟩
  rintro _ ⟨⟩
  subst isDest isRoom
  exact ⟨header, bytes ▸ filled⟩

theorem inv_blobBufInit (inside : placed.Inside) (id moved : Nat) :
    Inv ⟨placed.blobBufInit id moved, [], none⟩ :=
  inv_of_whole (inside.blobBufInit id moved)
    (PlacedBuf.bytes_blobBufInit id moved)
    (Whole.blobBufInit placed.bytes id) rfl

/-- Where there is memory for a call, it keeps what a run keeps. -/
theorem Built.done (built : message.Built heads sizes)
    (inside : message.placed.Inside) {call : BuildCall} {moved : Nat}
    (small : message.total call < 16777216)
    (terminated : call = .blobmsgAddStringBuffer →
      ∀ string ∈ message.string, message.Terminated string)
    (taken : message.done moved call = some next) : next.Inv := by
  obtain ⟨placed, cookies, string⟩ := message
  obtain ⟨rfl, whole, filled⟩ := built
  obtain ⟨size, rest, rfl⟩ := whole.nested.exact.exists_cons
  obtain ⟨_, _, _, place, behind, aligned⟩ := whole.nested.exact.nextAttr
  have headInside := whole.nested.exact.inside
  have ended := whole.ended.inside
  dsimp only at whole filled place behind aligned headInside ended inside
  cases call with
  | blobBufInit id =>
      obtain rfl := Option.some.inj taken
      exact inv_blobBufInit inside id moved
  | blobNew id payload =>
      obtain rfl := Option.some.inj taken
      exact inv_of_whole
        (inside.blobNew aligned headInside id payload moved)
        (PlacedBuf.bytes_blobNew id payload moved) (whole.blobNew id small)
        rfl
  | blobPut id data =>
      obtain rfl := Option.some.inj taken
      exact inv_of_whole (inside.blobPut aligned headInside id data moved)
        (PlacedBuf.bytes_blobPut id data moved) (whole.blobPut id small) rfl
  | blobPutRaw data =>
      obtain rfl := Option.some.inj taken
      by_cases short : data.length < 4
      · have same : placed.blobPutRaw data moved = placed := by
          rw [PlacedBuf.blobPutRaw, if_pos short]
        dsimp only
        rw [same]
        exact inv_of_whole inside rfl whole rfl
      · exact inv_of_whole (inside.blobPutRaw aligned headInside data moved)
          (PlacedBuf.bytes_blobPutRaw data moved)
          (whole.blobPutRaw (Nat.not_lt.mp short) small) rfl
  | blobNestStart id =>
      obtain rfl := Option.some.inj taken
      exact inv_of_whole (inside.blobNestStart aligned headInside id moved)
        (PlacedBuf.bytes_blobNestStart id moved)
        (whole.blobNestStart id small)
        (congrArg (· :: _) PlacedBuf.attrToOffset_head)
  | blobNestEnd depth =>
      rw [PlacedMessage.done, ← List.map_drop] at taken
      cases isDropped : heads.drop depth with
      | nil =>
          rw [isDropped] at taken
          exact nomatch taken
      | cons attr outer =>
          rw [isDropped] at taken
          obtain rfl := Option.some.inj taken
          have nested := whole.nested.drop depth
          rw [isDropped] at nested
          have before := (List.pairwise_cons.mp nested.exact.apart).1 attr
            List.mem_cons_self
          obtain ⟨laterSizes, later⟩ :=
            Whole.blobNestEnd ⟨nested, whole.ended⟩
          dsimp only
          rw [PlacedBuf.blobNestEnd, Nat.add_sub_cancel]
          exact inv_of_whole (inside.closeAt (by omega))
            (PlacedBuf.bytes_closeAt attr) later rfl
  | blobmsgAddField type name data =>
      obtain rfl := Option.some.inj taken
      exact inv_of_whole
        (inside.blobmsgAddField aligned headInside type name data moved)
        (PlacedBuf.bytes_blobmsgAddField type name data moved)
        (whole.blobmsgAddField type small) rfl
  | blobmsgOpenNested name array =>
      obtain rfl := Option.some.inj taken
      exact inv_of_whole
        (inside.blobmsgOpenNested aligned headInside name array moved)
        (PlacedBuf.bytes_blobmsgOpenNested name array moved)
        (whole.blobmsgOpenNested array small)
        (congrArg (· :: _) PlacedBuf.attrToOffset_head)
  | blobmsgAllocStringBuffer name maxlen =>
      obtain rfl := Option.some.inj taken
      obtain ⟨later, laterFilled⟩ :=
        whole.blobmsgAllocStringBuffer name small
      obtain ⟨dest, bytes⟩ :=
        @PlacedBuf.bytes_blobmsgAllocStringBuffer placed name maxlen moved
      exact inv_of_filled (inside.blobmsgAllocStringBuffer aligned headInside
        name maxlen moved) bytes later laterFilled dest rfl rfl
  | blobmsgReallocStringBuffer maxlen =>
      cases string with
      | none =>
          exact nomatch taken
      | some string =>
          obtain rfl := Option.some.inj taken
          obtain ⟨header, isFilled⟩ := filled string rfl
          obtain ⟨later, laterFilled⟩ :=
            isFilled.blobmsgReallocStringBuffer whole small
          obtain ⟨dest, bytes⟩ :=
            @PlacedBuf.bytes_blobmsgReallocStringBuffer placed maxlen moved
          exact inv_of_filled (inside.growTo _ moved) bytes later laterFilled
            dest rfl rfl
  | memcpy offset data =>
      cases string with
      | none =>
          exact nomatch taken
      | some string =>
          rw [PlacedMessage.done] at taken
          dsimp only at taken
          split at taken
          · rename_i within
            obtain rfl := Option.some.inj taken
            obtain ⟨header, isFilled⟩ := filled string rfl
            obtain ⟨later, laterFilled⟩ := isFilled.memcpy whole offset data
            have dest := isFilled.dest
            have room := isFilled.inside
            exact inv_of_filled (inside.write (by omega)) rfl later
              laterFilled rfl rfl rfl
          · exact nomatch taken
  | blobmsgAddStringBuffer =>
      cases string with
      | none =>
          exact nomatch taken
      | some string =>
          obtain rfl := Option.some.inj taken
          obtain ⟨header, isFilled⟩ := filled string rfl
          obtain ⟨fits, laterSizes, later⟩ :=
            isFilled.blobmsgAddStringBuffer whole
              (terminated rfl string rfl)
          have room := isFilled.inside
          have long := isFilled.filling.long
          exact inv_of_whole
            (inside.blobmsgAddStringBuffer (by omega) headInside fits)
            PlacedBuf.bytes_blobmsgAddStringBuffer later rfl

/-- A call that was given up keeps it, too. -/
theorem Inv.failed (inv : message.Inv) {call : BuildCall}
    (other : call.reallocs = false)
    (taken : message.failed call = some next) : next.Inv := by
  have abandoned : Inv { message with string := none } := by
    refine ⟨inv.inside, ?_⟩
    rcases inv.built with unbuilt | ⟨heads, sizes, built⟩
    · exact Or.inl ⟨unbuilt.bytes, unbuilt.cookies, rfl⟩
    · exact Or.inr ⟨heads, sizes, built.cookies, built.whole, nofun⟩
  unfold PlacedMessage.failed at taken
  split at taken
  · exact nomatch taken
  · exact nomatch other
  · exact Option.some.inj taken ▸ abandoned

theorem Inv.done (inv : message.Inv) {action : BuildCall × Option Nat}
    (fits : message.Fits action) (started : message.started action.1)
    {moved : Nat} (taken : message.done moved action.1 = some next) :
    next.Inv := by
  obtain ⟨call, _⟩ := action
  rcases inv.built with unbuilt | ⟨heads, sizes, built⟩
  · have empty : message.placed.bytes.buflen = 0 := by
      rw [unbuilt.bytes]
      rfl
    cases call with
    | blobBufInit id =>
        obtain rfl := Option.some.inj taken
        exact inv_blobBufInit inv.inside id moved
    | _ =>
        exact absurd empty (Nat.ne_of_gt started)
  · exact built.done inv.inside fits.small fits.terminated taken

theorem Inv.step (inv : message.Inv) {action : BuildCall × Option Nat}
    (fits : message.Fits action) (taken : message.call action = some next) :
    next.Inv := by
  rw [PlacedMessage.call] at taken
  split at taken
  · rename_i started
    split at taken
    · exact inv.done fits started taken
    · rename_i notFound
      split at taken
      · exact inv.done fits started taken
      · rename_i lacking
        refine inv.failed (Bool.eq_false_iff.mpr fun reallocs => ?_) taken
        exact lacking (fits.found reallocs notFound)
  · exact nomatch taken

end PlacedMessage

/-- In a run of calls that fit, no byte is written outside of the buffer, and
a growth leaves the head and the cookies at their containers. -/
theorem placing_sound {actions : List (BuildCall × Option Nat)}
    {final : PlacedMessage}
    (fits : placing.Meets PlacedMessage.Fits placing.init actions)
    (reached : placing.run actions = some final) : final.Sound := by
  have inv : final.Inv := by
    apply Machine.invariant_of_permitted ⟨nofun, Or.inl ⟨rfl, rfl, rfl⟩⟩ _ fits
      reached
    intro message action next inv fits taken
    exact inv.step fits taken
  exact inv.sound

/-- A table with a string in it, for which the buffer is moved. -/
def tableWithText : List (BuildCall × Option Nat) :=
  [(.blobBufInit 0, some 4096), (.blobmsgOpenNested [116] false, none),
    (.blobmsgAllocStringBuffer [] 1, none),
    (.blobmsgReallocStringBuffer 300, some 8192),
    (.memcpy 0 [97, 98, 0], none), (.blobmsgAddStringBuffer, none),
    (.blobNestEnd 0, none)]

theorem placing_sound_tableWithText :
    ∃ final, placing.run tableWithText = some final ∧
      final.placed.bytes.buflen = 512 ∧ final.Sound := by
  have fits : placing.Meets PlacedMessage.Fits placing.init
      tableWithText := by
    decide +kernel
  exact ⟨_, rfl, rfl, placing_sound fits rfl⟩

/-- A string buffer at the end of the buffer that is full and has no zero
byte. -/
def fullText : List (BuildCall × Option Nat) :=
  [(.blobBufInit 0, some 4096), (.blobmsgAllocStringBuffer [] 244, none),
    (.memcpy 0 (List.replicate 244 97), none),
    (.blobmsgAddStringBuffer, none)]

/-- A string buffer that cannot be made larger, and is filled. -/
def notEnlarged : List (BuildCall × Option Nat) :=
  [(.blobBufInit 0, some 4096), (.blobmsgAllocStringBuffer [] 1, none),
    (.blobmsgReallocStringBuffer 245, none),
    (.memcpy 0 (List.replicate 245 97), none)]

/-- A run that writes outside of the buffer. -/
theorem not_sound_of_any {actions : List (BuildCall × Option Nat)}
    (outside : ((placing.run actions).any fun final =>
      final.placed.writes.any fun write =>
        write.buflen < write.pos + write.len) = true) :
    ∃ final, placing.run actions = some final ∧ ¬ final.Sound := by
  obtain ⟨final, reached, exceeds⟩ := (Option.any_eq_true _ _).mp outside
  obtain ⟨write, member, behind⟩ := List.any_eq_true.mp exceeds
  refine ⟨final, reached, fun sound => ?_⟩
  exact absurd (sound.inside write member)
    (Nat.not_le.mpr (of_decide_eq_true behind))

/-- The string buffer is written to in its `maxlen` bytes only, and the message
is short.  Without a zero byte in them, the padding goes behind the end of the
buffer; where there is no memory for more bytes, they are written there. -/
theorem placing_overruns :
    (placing.Meets PlacedMessage.Small placing.init fullText ∧
        ∃ final, placing.run fullText = some final ∧ ¬ final.Sound) ∧
      placing.Meets PlacedMessage.Small placing.init notEnlarged ∧
        ∃ final, placing.run notEnlarged = some final ∧ ¬ final.Sound := by
  refine ⟨⟨?_, not_sound_of_any ?_⟩, ?_, not_sound_of_any ?_⟩
  all_goals decide +kernel

end LibubusJni
