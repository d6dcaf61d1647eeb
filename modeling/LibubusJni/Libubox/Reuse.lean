import LibubusJni.Libubox.Stale

/-!
# Building messages in a reused buffer

The calls that build a message, one after the other, with the cookies of the
open containers and the string buffer that is being filled.  `Frontier` is what
one run keeps: where its containers end.  Together with `Agree` it carries the
comparison of two runs through every call.
-/

namespace LibubusJni.Libubox

open LibubusJni BlobBuf

/-- A call that builds a message, or a write to a string buffer. -/
inductive BlobCall where
  | blobBufInit (id : Nat)
  | blobPut (id : Nat) (bytes : List UInt8)
  | blobPutRaw (bytes : List UInt8)
  | blobNestStart (id : Nat)
  | blobNestEnd
  | blobmsgAddField (type : Nat) (name bytes : List UInt8)
  | blobmsgOpenNested (name : List UInt8) (array : Bool)
  | blobmsgAllocStringBuffer (name : List UInt8) (maxlen : Nat)
  | blobmsgReallocStringBuffer (maxlen : Nat)
  | strcpy (offset : Nat) (text : List UInt8)
  | blobmsgAddStringBuffer
  deriving DecidableEq, Repr

/-- A string buffer that is being filled: where it lies, how much was asked
for and how long the string in it is by now. -/
structure StringBuffer where
  dest : Nat
  room : Nat
  length : Option Nat
  deriving DecidableEq, Repr

/-- A message that is being built. -/
structure Building where
  buf : BlobBuf
  cookies : List Nat
  string : Option StringBuffer

namespace Building

/-- The text `strcpy(dest + offset, text)` continues a string that is already
there and fits into the room. -/
def StringBuffer.fits (string : StringBuffer) (offset : Nat)
    (text : List UInt8) : Bool :=
  offset ≤ string.length.getD 0 && offset + text.length < string.room

/-- One call.  A container is closed with the cookie that opened it last, and
a string buffer is added once a string has been written to it; any other call
in between abandons it. -/
def call (building : Building) : BlobCall → Option Building
  | .blobBufInit id => some ⟨building.buf.blobBufInit id, [], none⟩
  | .blobPut id bytes =>
      some ⟨building.buf.blobPut id bytes, building.cookies, none⟩
  | .blobPutRaw bytes =>
      some ⟨building.buf.blobPutRaw bytes, building.cookies, none⟩
  | .blobNestStart id =>
      let (cookie, buf) := building.buf.blobNestStart id
      some ⟨buf, cookie :: building.cookies, none⟩
  | .blobNestEnd =>
      match building.cookies with
      | [] => none
      | cookie :: outer =>
          some ⟨building.buf.blobNestEnd cookie, outer, none⟩
  | .blobmsgAddField type name bytes =>
      some
        ⟨building.buf.blobmsgAddField type name bytes, building.cookies, none⟩
  | .blobmsgOpenNested name array =>
      let (cookie, buf) := building.buf.blobmsgOpenNested name array
      some ⟨buf, cookie :: building.cookies, none⟩
  | .blobmsgAllocStringBuffer name maxlen =>
      let (dest, buf) := building.buf.blobmsgAllocStringBuffer name maxlen
      some ⟨buf, building.cookies, some ⟨dest, maxlen, none⟩⟩
  | .blobmsgReallocStringBuffer maxlen =>
      match building.string with
      | none => none
      | some string =>
          let (dest, buf) := building.buf.blobmsgReallocStringBuffer maxlen
          some ⟨buf, building.cookies, some ⟨dest, maxlen, string.length⟩⟩
  | .strcpy offset text =>
      match building.string with
      | none => none
      | some string =>
          if StringBuffer.fits string offset text then
            some
              ⟨{ building.buf with
                  mem := store building.buf.mem (string.dest + offset)
                    (text ++ [0]) },
                building.cookies,
                some { string with length := some (offset + text.length) }⟩
          else none
  | .blobmsgAddStringBuffer =>
      match building.string with
      | some ⟨_, _, some _⟩ =>
          some ⟨building.buf.blobmsgAddStringBuffer, building.cookies, none⟩
      | _ => none

/-- The message at the head of the buffer, padding included. -/
def message (building : Building) : List UInt8 :=
  (List.range (padAt building.buf.mem building.buf.head)).map fun index =>
    building.buf.mem (building.buf.head + index)

end Building

/-- A buffer that is reused, whatever it holds. -/
def building (buf : BlobBuf) : Lib.Machine Building BlobCall where
  init := ⟨buf, [], none⟩
  step := Building.call

/-- The length of a name fits into its 16 bits, and no string buffer is asked
for in a container whose 24-bit length has wrapped to nothing. -/
def lengthsFit (building : Building) : BlobCall → Prop
  | .blobmsgAddField _ name _ => name.length < 65536
  | .blobmsgOpenNested name _ => name.length < 65536
  | .blobmsgAllocStringBuffer name _ =>
      name.length < 65536 ∧ rawAt building.buf.mem building.buf.head ≠ 0
  | .blobmsgReallocStringBuffer _ =>
      rawAt building.buf.mem building.buf.head ≠ 0
  | _ => True

/-! ## Lengths that the calls leave -/

section Lengths

variable {buf : BlobBuf}
    (inside : buf.head + 4 ≤ buf.buflen)
    (apart : buf.head + 4 ≤ buf.nextAttr)

include apart inside in
/-- What `blob_put_raw` copies is not padded. -/
theorem rawAt_head_blobPutRaw
    {bytes : List UInt8} (long : 4 ≤ bytes.length) :
    rawAt (buf.blobPutRaw bytes).mem buf.head =
      (padAt buf.mem buf.head + bytes.length) % 16777216 := by
  rw [BlobBuf.blobPutRaw, if_neg (Nat.not_lt.mpr long)]
  dsimp only
  rw [head_blobAdd, rawAt_store_of_disjoint (Or.inl apart),
    rawAt_blobSetRawLen, attrAt_blobAdd_of_lt apart inside, UInt32.toNat_add,
    ← padAt, UInt32.toNat_ofNat']
  omega

/-- What lies in front of the head stays in `blob_put_raw`. -/
theorem mem_blobPutRaw_of_lt
    (inside : buf.head + 4 ≤ buf.buflen) (bytes : List UInt8) {addr : Nat}
    (before : addr < buf.head) :
    (buf.blobPutRaw bytes).mem addr = buf.mem addr := by
  have behind : buf.head ≤ buf.nextAttr := Nat.le_add_right _ _
  rw [BlobBuf.blobPutRaw]
  split
  · rfl
  · dsimp only
    rw [head_blobAdd, store_of_lt (by omega), blobSetRawLen_of_lt before,
      mem_blobAdd_of_lt (by omega) (by omega)]

include apart inside in
/-- A container that `blob_nest_start` opens is empty. -/
theorem lengths_blobNestStart (id : Nat) :
    rawAt (buf.blobNestStart id).2.mem buf.head =
        (padAt buf.mem buf.head + 4) % 16777216 ∧
      rawAt (buf.blobNestStart id).2.mem buf.nextAttr = 4 := by
  have length := (@rawAt_nextAttr_blobNew buf id 0 apart).2.2 (by decide)
  have padded := padAt_eq (buf.blobNew id 0).mem buf.nextAttr
  have sum := @rawAt_head_blobNew buf id 0 apart inside
  rw [length] at padded
  rw [padded] at sum
  exact ⟨sum, length⟩

include apart inside in
/-- The lengths that `blobmsg_new` leaves. -/
theorem lengths_blobmsgNew (type : Nat) (name : List UInt8)
    (payloadLen : Nat) :
    rawAt (buf.blobmsgNew type name payloadLen).2.mem buf.head =
        (padAt buf.mem buf.head +
          padAt (buf.blobmsgNew type name payloadLen).2.mem buf.nextAttr) %
            16777216 ∧
      rawAt (buf.blobmsgNew type name payloadLen).2.mem buf.nextAttr ≤
        (blobmsgHdrlen name.length + payloadLen + 4) % 16777216 ∧
      (blobmsgHdrlen name.length + payloadLen + 4) % 16777216 <
        rawAt (buf.blobmsgNew type name payloadLen).2.mem buf.nextAttr + 4 ∧
      (blobmsgHdrlen name.length + payloadLen + 4 < 16777216 →
        rawAt (buf.blobmsgNew type name payloadLen).2.mem buf.nextAttr =
          blobmsgHdrlen name.length + payloadLen + 4) := by
  have head : rawAt (buf.blobmsgNew type name payloadLen).2.mem buf.head =
      rawAt (buf.blobNew type (blobmsgHdrlen name.length + payloadLen)).mem
        buf.head :=
    rawAt_congr fun addr _ upper => mem_blobmsgNew_of_lt (by omega)
  refine ⟨?_, ?_⟩
  · rw [head, padAt_eq _ buf.nextAttr, rawAt_blobmsgNew, ← padAt_eq]
    exact rawAt_head_blobNew apart inside
  · rw [rawAt_blobmsgNew]
    exact rawAt_nextAttr_blobNew apart

/-- What lies in front of the head stays in `blobmsg_new`. -/
theorem mem_blobmsgNew_of_lt_head
    (inside : buf.head + 4 ≤ buf.buflen) (type : Nat) (name : List UInt8)
    (payloadLen : Nat) {addr : Nat} (before : addr < buf.head) :
    (buf.blobmsgNew type name payloadLen).2.mem addr = buf.mem addr := by
  have behind : buf.head ≤ buf.nextAttr := Nat.le_add_right _ _
  exact (mem_blobmsgNew_of_lt (by omega)).trans
    (mem_blobNew_of_lt before (by omega))

include apart inside in
/-- A container that `blobmsg_open_nested` opens holds its name; the outer one
counts no more of it than four bytes. -/
theorem lengths_blobmsgOpenNested
    {name : List UInt8} (small : blobmsgHdrlen name.length + 4 < 16777216)
    (array : Bool) :
    rawAt (buf.blobmsgOpenNested name array).2.mem buf.head =
        (padAt buf.mem buf.head + 4) % 16777216 ∧
      rawAt (buf.blobmsgOpenNested name array).2.mem buf.nextAttr =
        blobmsgHdrlen name.length + 4 := by
  have hdrlen := le_blobmsgHdrlen name.length
  have sameHead := head_blobmsgNew buf
    (if array then BlobmsgType.array else BlobmsgType.table).id name 0
  obtain ⟨sum, _, _, length⟩ := lengths_blobmsgNew inside apart
    (if array then BlobmsgType.array else BlobmsgType.table).id name 0
  have padded := padAt_eq (buf.blobmsgNew
    (if array then BlobmsgType.array else BlobmsgType.table).id name 0).2.mem
    buf.nextAttr
  have rounded := padAt_eq (buf.blobmsgNew
    (if array then BlobmsgType.array else BlobmsgType.table).id name 0).2.mem
    buf.head
  have headRounded := padAt_eq buf.mem buf.head
  rw [length small] at padded
  rw [BlobBuf.blobmsgOpenNested]
  dsimp only
  rw [sameHead]
  constructor
  · rw [rawAt_blobSetRawLen, UInt32.toNat_sub, ← padAt, UInt32.toNat_ofNat',
      rounded, sum, padded]
    omega
  · exact (rawAt_store_of_disjoint (Or.inr apart)).trans (length small)

end Lengths

/-! ## Where the containers end -/

/-- A container ends at the frontier, or its length field has wrapped. -/
def Tail (mem : Memory) (frontier head : Nat) : Prop :=
  head + 16777216 ≤ frontier ∨
    4 ≤ rawAt mem head ∧ head + padAt mem head ≤ frontier

/-- The length field of each open container but the innermost reaches to the
header of the one inside, or has wrapped. -/
def Nested (mem : Memory) (frontier : Nat) : Nat → List Nat → Prop
  | _, [] => True
  | inner, outer :: rest =>
      outer ≤ inner ∧ outer % 4 = 0 ∧
        (outer + 16777216 ≤ frontier ∨
          outer + 4 ≤ inner ∧ outer + rawAt mem outer = inner + 4) ∧
        Nested mem frontier outer rest

theorem Nested.congr
    {mem other : Memory} {frontier later inner : Nat} {cookies : List Nat}
    (nested : Nested mem frontier inner cookies)
    (same : ∀ addr, addr < inner → other addr = mem addr)
    (grows : frontier ≤ later) :
    Nested other later inner cookies := by
  induction cookies generalizing inner with
  | nil =>
      exact True.intro
  | cons outer rest inductionHypothesis =>
      obtain ⟨below, aligned, reaches, further⟩ := nested
      refine ⟨below, aligned, ?_, inductionHypothesis further
        fun addr before => same addr (by omega)⟩
      rcases reaches with wrapped | ⟨apart, ends⟩
      · exact Or.inl (by omega)
      · have header : rawAt other outer = rawAt mem outer :=
          rawAt_congr fun addr _ upper => same addr (by omega)
        exact Or.inr ⟨apart, by rw [header]; exact ends⟩

/-- What one run keeps. -/
structure Frontier (frontier : Nat) (buf : BlobBuf) (cookies : List Nat) :
    Prop where
  written : buf.head + 4 ≤ frontier
  aligned : buf.head % 4 = 0
  tail : Tail buf.mem frontier buf.head
  nested : Nested buf.mem frontier buf.head cookies

namespace Frontier

variable {frontier : Nat} {buf : BlobBuf} {cookies : List Nat}

/-- The next attribute begins below the frontier. -/
theorem nextAttr
    (front : Frontier frontier buf cookies) :
    buf.nextAttr = buf.head + padAt buf.mem buf.head ∧
      buf.nextAttr % 4 = 0 ∧ buf.nextAttr ≤ frontier := by
  have next : buf.nextAttr = buf.head + padAt buf.mem buf.head := rfl
  have rounded := padAt_eq buf.mem buf.head
  have small := rawAt_lt buf.mem buf.head
  have aligned := front.aligned
  refine ⟨next, by omega, ?_⟩
  rcases front.tail with wrapped | ⟨_, ends⟩
  · omega
  · omega

/-- A call that changes nothing in front of the head. -/
theorem append
    (front : Frontier frontier buf cookies) (next : BlobBuf) {later : Nat}
    (sameHead : next.head = buf.head)
    (same : ∀ addr, addr < buf.head → next.mem addr = buf.mem addr)
    (grows : frontier ≤ later) (tail : Tail next.mem later buf.head) :
    Frontier later next cookies where
  written := by
    have before := front.written
    omega
  aligned := by
    rw [sameHead]
    exact front.aligned
  tail := by
    rw [sameHead]
    exact tail
  nested := by
    rw [sameHead]
    exact front.nested.congr same grows

/-- A head whose length is summed up to a total that ends at the frontier. -/
theorem tail_of_total
    {mem : Memory} {later head total : Nat}
    (length : rawAt mem head = total % 16777216) (four : 4 ≤ total)
    (ends : head + (total + 3) / 4 * 4 ≤ later) :
    Tail mem later head := by
  have rounded := padAt_eq mem head
  by_cases small : total < 16777216
  · rw [Nat.mod_eq_of_lt small] at length
    exact Or.inr ⟨by omega, by omega⟩
  · exact Or.inl (by omega)

/-- The lengths that `blob_new` leaves for an attribute of `payload + 4`
bytes, where the length of the head has not wrapped. -/
theorem tail_blobNew
    (front : Frontier frontier buf cookies)
    (inside : buf.head + 4 ≤ buf.buflen) (id payload : Nat)
    {mem : Memory}
    (sameHead : buf.head + 4 ≤ buf.nextAttr →
      rawAt mem buf.head = rawAt (buf.blobNew id payload).mem buf.head) :
    Tail mem (max frontier (buf.nextAttr + reach (payload + 4)))
      buf.head := by
  obtain ⟨next, aligned, within⟩ := front.nextAttr
  have headAligned := front.aligned
  have fromFrontier := Nat.le_max_left frontier
    (buf.nextAttr + reach (payload + 4))
  have fromReach := Nat.le_max_right frontier
    (buf.nextAttr + reach (payload + 4))
  rcases front.tail with wrapped | ⟨four, ends⟩
  · exact Or.inl (by omega)
  · have rounded := padAt_eq buf.mem buf.head
    have apart : buf.head + 4 ≤ buf.nextAttr := by omega
    by_cases small : payload + 4 < 16777216
    · have length := (@rawAt_nextAttr_blobNew buf id payload apart).2.2 small
      have padded := padAt_eq (buf.blobNew id payload).mem buf.nextAttr
      have reached : reach (payload + 4) = (payload + 4 + 3) / 4 * 4 :=
        if_pos small
      rw [length] at padded
      apply tail_of_total
        ((sameHead apart).trans (rawAt_head_blobNew apart inside))
      · omega
      · rw [padded]
        omega
    · have reached : reach (payload + 4) = payload + 4 := if_neg small
      exact Or.inl (by omega)

theorem blobPut
    (front : Frontier frontier buf cookies)
    (inside : buf.head + 4 ≤ buf.buflen) (id : Nat) (bytes : List UInt8) :
    Frontier (max frontier (buf.nextAttr + reach (bytes.length + 4)))
      (buf.blobPut id bytes) cookies := by
  have behind := front.nextAttr.1
  apply front.append (buf.blobPut id bytes)
  · exact head_blobNew buf id bytes.length
  · intro addr before
    exact (store_of_lt (by omega)).trans
      (mem_blobNew_of_lt before (by omega))
  · exact Nat.le_max_left _ _
  · apply front.tail_blobNew inside id bytes.length
    intro apart
    exact rawAt_store_of_disjoint (Or.inl (by omega))

theorem blobPutRaw
    (front : Frontier frontier buf cookies)
    (inside : buf.head + 4 ≤ buf.buflen)
    {bytes : List UInt8} (long : 4 ≤ bytes.length) :
    Frontier (max frontier (buf.nextAttr + reach bytes.length))
      (buf.blobPutRaw bytes) cookies := by
  obtain ⟨behind, nextAligned, within⟩ := front.nextAttr
  have headAligned := front.aligned
  apply front.append
  · rw [BlobBuf.blobPutRaw, if_neg (Nat.not_lt.mpr long)]
    exact head_blobAdd buf buf.nextAttr 0 (bytes.length - 4)
  · exact fun _ before => mem_blobPutRaw_of_lt inside bytes before
  · exact Nat.le_max_left _ _
  · have fromReach := Nat.le_max_right frontier
      (buf.nextAttr + reach bytes.length)
    have fromFrontier := Nat.le_max_left frontier
      (buf.nextAttr + reach bytes.length)
    rcases front.tail with wrapped | ⟨four, ends⟩
    · exact Or.inl (by omega)
    · have rounded := padAt_eq buf.mem buf.head
      have apart : buf.head + 4 ≤ buf.nextAttr := by omega
      by_cases small : bytes.length < 16777216
      · have reached : reach bytes.length = (bytes.length + 3) / 4 * 4 :=
          if_pos small
        apply tail_of_total (rawAt_head_blobPutRaw inside apart long)
        · omega
        · omega
      · have reached : reach bytes.length = bytes.length := if_neg small
        exact Or.inl (by omega)

/-- A container is opened behind the head. -/
theorem enter
    (front : Frontier frontier buf cookies) (next : BlobBuf) {later : Nat}
    (moved : next.head = buf.nextAttr)
    (same : ∀ addr, addr < buf.head → next.mem addr = buf.mem addr)
    (grows : max frontier (buf.nextAttr + 4) ≤ later)
    (outer : buf.head + 4 ≤ buf.nextAttr →
      rawAt next.mem buf.head =
        (padAt buf.mem buf.head + 4) % 16777216)
    (inner : buf.head + 4 ≤ buf.nextAttr →
      4 ≤ rawAt next.mem buf.nextAttr ∧
        buf.nextAttr + padAt next.mem buf.nextAttr ≤ later) :
    Frontier later next (buf.head :: cookies) := by
  obtain ⟨behind, nextAligned, within⟩ := front.nextAttr
  have headAligned := front.aligned
  have rounded := padAt_eq buf.mem buf.head
  have fromReach := Nat.le_max_right frontier (buf.nextAttr + 4)
  have fromFrontier := Nat.le_max_left frontier (buf.nextAttr + 4)
  have rest : Nested next.mem later buf.head cookies :=
    front.nested.congr same (by omega)
  have apartOrWrapped : buf.head + 16777216 ≤ later ∨
      buf.head + 4 ≤ buf.nextAttr := by
    rcases front.tail with wrapped | ⟨four, _⟩
    · exact Or.inl (by omega)
    · exact Or.inr (by omega)
  refine ⟨by omega, by omega, ?_, by omega, headAligned, ?_, rest⟩
  · rw [moved]
    by_cases apart : buf.head + 4 ≤ buf.nextAttr
    · exact Or.inr (inner apart)
    · rcases apartOrWrapped with wrapped | isApart
      · exact Or.inl (by omega)
      · exact absurd isApart apart
  · rw [moved]
    rcases apartOrWrapped with wrapped | apart
    · exact Or.inl wrapped
    · have length := outer apart
      by_cases small : padAt buf.mem buf.head + 4 < 16777216
      · rw [Nat.mod_eq_of_lt small] at length
        exact Or.inr ⟨apart, by omega⟩
      · exact Or.inl (by omega)

theorem blobNestStart
    (front : Frontier frontier buf cookies)
    (inside : buf.head + 4 ≤ buf.buflen) (id : Nat) :
    Frontier (max frontier (buf.nextAttr + 4)) (buf.blobNestStart id).2
      (buf.head :: cookies) := by
  have fromReach := Nat.le_max_right frontier (buf.nextAttr + 4)
  apply front.enter (buf.blobNestStart id).2
  · rfl
  · intro addr before
    exact mem_blobNew_of_lt before (by omega)
  · exact Nat.le_refl _
  · exact fun apart => (lengths_blobNestStart inside apart id).1
  · intro apart
    have length := (lengths_blobNestStart inside apart id).2
    have padded := padAt_eq (buf.blobNestStart id).2.mem buf.nextAttr
    rw [length] at padded
    omega

theorem blobmsgAddField
    (front : Frontier frontier buf cookies)
    (inside : buf.head + 4 ≤ buf.buflen) (type : Nat)
    {name : List UInt8} (short : name.length < 65536) (bytes : List UInt8) :
    Frontier
      (max frontier
        (buf.nextAttr +
          reach (blobmsgHdrlen name.length + bytes.length + 4)))
      (buf.blobmsgAddField type name bytes) cookies := by
  have behind := front.nextAttr.1
  have dest := @dataDest_blobmsgNew buf type bytes.length name short
  apply front.append (buf.blobmsgAddField type name bytes)
  · exact head_blobmsgAddField buf type name bytes
  · intro addr before
    rw [mem_blobmsgAddField, dest, store_of_lt (by omega)]
    exact mem_blobmsgNew_of_lt_head inside type name bytes.length before
  · exact Nat.le_max_left _ _
  · apply front.tail_blobNew inside type
    intro apart
    apply rawAt_congr
    intro addr _ upper
    rw [mem_blobmsgAddField, dest, store_of_lt (by omega)]
    exact mem_blobmsgNew_of_lt (by omega)

theorem blobmsgOpenNested
    (front : Frontier frontier buf cookies)
    (inside : buf.head + 4 ≤ buf.buflen)
    {name : List UInt8} (short : name.length < 65536) (array : Bool) :
    Frontier
      (max frontier (buf.nextAttr + 4 + blobmsgHdrlen name.length))
      (buf.blobmsgOpenNested name array).2 (buf.head :: cookies) := by
  have behind := front.nextAttr.1
  have hdrlen := le_blobmsgHdrlen name.length
  have fromReach := Nat.le_max_right frontier
    (buf.nextAttr + 4 + blobmsgHdrlen name.length)
  have fromFrontier := Nat.le_max_left frontier
    (buf.nextAttr + 4 + blobmsgHdrlen name.length)
  have small : blobmsgHdrlen name.length + 4 < 16777216 := by omega
  have sameHead := head_blobmsgNew buf
    (if array then BlobmsgType.array else BlobmsgType.table).id name 0
  apply front.enter (buf.blobmsgOpenNested name array).2
  · rfl
  · intro addr before
    rw [BlobBuf.blobmsgOpenNested]
    dsimp only
    rw [sameHead, blobSetRawLen_of_lt before]
    exact mem_blobmsgNew_of_lt_head inside _ name 0 before
  · omega
  · exact fun apart => (lengths_blobmsgOpenNested inside apart small array).1
  · intro apart
    have length := (lengths_blobmsgOpenNested inside apart small array).2
    have padded := padAt_eq (buf.blobmsgOpenNested name array).2.mem
      buf.nextAttr
    rw [length] at padded
    omega

theorem blobNestEnd
    {cookie : Nat}
    (front : Frontier frontier buf (cookie :: cookies)) :
    Frontier frontier (buf.blobNestEnd cookie) cookies := by
  obtain ⟨below, aligned, reaches, nested⟩ := front.nested
  have written := front.written
  have headAligned := front.aligned
  refine ⟨?_, aligned, ?_, ?_⟩
  · show cookie + 4 ≤ frontier
    omega
  · rcases reaches with wrapped | ⟨apart, ends⟩
    · exact Or.inl wrapped
    · rcases front.tail with wrapped | ⟨four, inside⟩
      · exact Or.inl (by show cookie + 16777216 ≤ frontier; omega)
      · have small := rawAt_lt buf.mem buf.head
        have rounded := padAt_eq buf.mem buf.head
        have outerRounded := padAt_eq buf.mem cookie
        apply @tail_of_total _ _ _
          (buf.head - cookie + rawAt buf.mem buf.head)
        · show rawAt (blobSetRawLen buf.mem cookie _) cookie = _
          rw [rawAt_blobSetRawLen, UInt32.toNat_add, ← padAt,
            toNat_blobLen four, ← rawAt]
          omega
        · omega
        · show cookie + _ ≤ frontier
          omega
  · exact nested.congr (fun addr before => blobSetRawLen_of_lt before)
      (Nat.le_refl _)

end Frontier

/-! ## String buffers -/

/-- What is known of a string buffer: its attribute is next and its data lies
at the destination or in front of it, unless the length of the head has wrapped
to nothing. -/
structure Pending (frontier : Nat) (buf : BlobBuf) (string : StringBuffer) :
    Prop where
  hdr : buf.nextAttr + 6 ≤ frontier
  data : blobmsgData buf.mem buf.nextAttr ≤ string.dest
  filled : string.dest + string.length.getD 0 ≤ frontier
  zero : string.length ≠ none →
    ∃ stop, string.dest ≤ stop ∧ stop < frontier ∧ buf.mem stop = 0
  ends :
    rawAt buf.mem buf.head = 0 ∧ buf.nextAttr + 16777216 ≤ frontier ∨
      buf.nextAttr + rawAt buf.mem buf.nextAttr ≤
          blobmsgData buf.mem buf.nextAttr ∧
        blobmsgData buf.mem buf.nextAttr ≤
          buf.nextAttr + padAt buf.mem buf.nextAttr

section Strings

variable {frontier : Nat} {buf : BlobBuf} {cookies : List Nat}

/-- What `blob_add` loses of a length: one below four modulo 24 bits is
written over with padding. -/
def lostOf (len : Nat) : Nat :=
  if len % 16777216 < 4 then len % 16777216 else 0

theorem lostOf_lt (len : Nat) : lostOf len < 4 := by
  rw [lostOf]
  split
  · assumption
  · decide

/-- The lengths that `blobmsg_alloc_string_buffer` leaves: the head is as long
as before, the attribute ends where its data begins but for what is lost of the
length that was asked for. -/
theorem rawAt_allocStringBuffer
    (inside : buf.head + 4 ≤ buf.buflen)
    (apart : buf.head + 4 ≤ buf.nextAttr) (name : List UInt8)
    (maxlen : Nat) :
    rawAt (buf.blobmsgAllocStringBuffer name maxlen).2.mem buf.head =
        padAt buf.mem buf.head % 16777216 ∧
      rawAt (buf.blobmsgAllocStringBuffer name maxlen).2.mem buf.nextAttr =
        (4 + blobmsgHdrlen name.length -
          lostOf (blobmsgHdrlen name.length + maxlen + 4)) % 16777216 := by
  have hdrlen := le_blobmsgHdrlen name.length
  have rounded := padAt_eq buf.mem buf.head
  have sum := (lengths_blobmsgNew inside apart
    BlobmsgType.string.id name maxlen).1
  have attr : rawAt
      (buf.blobmsgNew BlobmsgType.string.id name maxlen).2.mem buf.nextAttr =
      if (blobmsgHdrlen name.length + maxlen + 4) % 16777216 < 4 then 0
      else (blobmsgHdrlen name.length + maxlen + 4) % 16777216 := by
    rw [rawAt_blobmsgNew, rawAt, attrAt_nextAttr_blobNew apart, ← rawAt,
      rawAt_blobAdd_eq]
  have mem := mem_blobmsgAllocStringBuffer buf name maxlen
  dsimp only at mem
  generalize (buf.blobmsgNew BlobmsgType.string.id name maxlen).2.mem = new
    at sum attr mem
  have padded := padAt_eq new buf.nextAttr
  have headPadded := padAt_eq new buf.head
  have small := rawAt_lt new buf.nextAttr
  have kept : rawAt
      (blobSetRawLen new buf.head
        (blobPadLen (attrAt new buf.head) -
          blobPadLen (attrAt new buf.nextAttr))) buf.nextAttr =
      rawAt new buf.nextAttr :=
    rawAt_store_of_disjoint (Or.inr apart)
  have headLength : rawAt
      (blobSetRawLen new buf.head
        (blobPadLen (attrAt new buf.head) -
          blobPadLen (attrAt new buf.nextAttr))) buf.head =
      padAt buf.mem buf.head % 16777216 := by
    rw [rawAt_blobSetRawLen, UInt32.toNat_sub, ← padAt, ← padAt, headPadded,
      sum]
    omega
  have attrLength : rawAt
      (buf.blobmsgAllocStringBuffer name maxlen).2.mem buf.nextAttr =
      (4294967296 - maxlen % 4294967296 + rawAt new buf.nextAttr) %
        4294967296 % 16777216 := by
    rw [mem, rawAt_blobSetRawLen, UInt32.toNat_sub, ← rawAt, kept,
      UInt32.toNat_ofNat']
  constructor
  · rw [← headLength, mem]
    exact rawAt_store_of_disjoint (Or.inl apart)
  · rw [attrLength, attr, lostOf]
    by_cases short :
        (blobmsgHdrlen name.length + maxlen + 4) % 16777216 < 4
    · rw [if_pos short, if_pos short]
      omega
    · rw [if_neg short, if_neg short]
      omega

/-- The data of a string buffer lies where `blobmsg_new` has put it. -/
theorem blobmsgData_allocStringBuffer
    (apart : buf.head + 4 ≤ buf.nextAttr) (name : List UInt8)
    (maxlen : Nat) :
    blobmsgData (buf.blobmsgAllocStringBuffer name maxlen).2.mem
        buf.nextAttr =
      (buf.blobmsgAllocStringBuffer name maxlen).1 := by
  have mem := mem_blobmsgAllocStringBuffer buf name maxlen
  dsimp only at mem
  have data : blobmsgData
      (buf.blobmsgNew BlobmsgType.string.id name maxlen).2.mem buf.nextAttr =
      (buf.blobmsgNew BlobmsgType.string.id name maxlen).1 := by
    rw [blobmsgNew_eq]
    dsimp only
    rw [← blobmsgData_named
      (buf.blobNew BlobmsgType.string.id
        (blobmsgHdrlen name.length + maxlen)).mem buf.nextAttr name]
    exact blobmsgData_eqOn fun addr _ upper => store_of_lt (by omega)
  rw [mem, blobmsgData_blobSetRawLen]
  refine Eq.trans ?_ data
  apply blobmsgData_eqOn
  intro addr lower _
  exact blobSetRawLen_of_ge (by omega)

/-- What is lost of the length fits into the padding of the name. -/
theorem lengths_allocStringBuffer
    (inside : buf.head + 4 ≤ buf.buflen)
    (apart : buf.head + 4 ≤ buf.nextAttr)
    {name : List UInt8} (short : name.length < 65536) (maxlen : Nat) :
    rawAt (buf.blobmsgAllocStringBuffer name maxlen).2.mem buf.head =
        padAt buf.mem buf.head % 16777216 ∧
      rawAt (buf.blobmsgAllocStringBuffer name maxlen).2.mem buf.nextAttr ≤
        4 + blobmsgHdrlen name.length ∧
      blobmsgHdrlen name.length <
        rawAt (buf.blobmsgAllocStringBuffer name maxlen).2.mem
          buf.nextAttr ∧
      blobmsgData (buf.blobmsgAllocStringBuffer name maxlen).2.mem
          buf.nextAttr =
        buf.nextAttr + 4 + blobmsgHdrlen name.length := by
  have hdrlen := le_blobmsgHdrlen name.length
  obtain ⟨head, attr⟩ := rawAt_allocStringBuffer inside apart name maxlen
  have lost := lostOf_lt (blobmsgHdrlen name.length + maxlen + 4)
  refine ⟨head, by omega, by omega, ?_⟩
  rw [blobmsgData_allocStringBuffer apart]
  exact dataDest_blobmsgNew short

/-- What lies in front of the head stays. -/
theorem same_allocStringBuffer
    (front : Frontier frontier buf cookies)
    (inside : buf.head + 4 ≤ buf.buflen) (name : List UInt8) (maxlen : Nat)
    {addr : Nat} (before : addr < buf.head) :
    (buf.blobmsgAllocStringBuffer name maxlen).2.mem addr =
      buf.mem addr := by
  have behind := front.nextAttr.1
  rw [mem_blobmsgAllocStringBuffer, blobSetRawLen_of_lt (by omega),
    blobSetRawLen_of_lt before]
  exact mem_blobmsgNew_of_lt_head inside BlobmsgType.string.id name maxlen
    before

theorem Frontier.blobmsgAllocStringBuffer
    (front : Frontier frontier buf cookies)
    (inside : buf.head + 4 ≤ buf.buflen)
    (unwrapped : rawAt buf.mem buf.head ≠ 0)
    {name : List UInt8} (short : name.length < 65536) (maxlen : Nat) :
    Frontier (max frontier (buf.nextAttr + 4 + blobmsgHdrlen name.length))
        (buf.blobmsgAllocStringBuffer name maxlen).2 cookies ∧
      Pending (max frontier (buf.nextAttr + 4 + blobmsgHdrlen name.length))
        (buf.blobmsgAllocStringBuffer name maxlen).2
        ⟨(buf.blobmsgAllocStringBuffer name maxlen).1, maxlen, none⟩ := by
  obtain ⟨behind, _, within⟩ := front.nextAttr
  have rounded := padAt_eq buf.mem buf.head
  have apart : buf.head + 4 ≤ buf.nextAttr := by omega
  have hdrlen := le_blobmsgHdrlen name.length
  have small := rawAt_lt buf.mem buf.head
  have fromFrontier := Nat.le_max_left frontier
    (buf.nextAttr + 4 + blobmsgHdrlen name.length)
  have fromHdr := Nat.le_max_right frontier
    (buf.nextAttr + 4 + blobmsgHdrlen name.length)
  obtain ⟨headLength, upper, lower, data⟩ :=
    lengths_allocStringBuffer inside apart short maxlen
  have sameHead : (buf.blobmsgAllocStringBuffer name maxlen).2.head =
      buf.head := head_blobmsgNew buf BlobmsgType.string.id name maxlen
  have dest : (buf.blobmsgAllocStringBuffer name maxlen).1 =
      buf.nextAttr + 4 + blobmsgHdrlen name.length :=
    dataDest_blobmsgNew short
  have headPadded := padAt_eq
    (buf.blobmsgAllocStringBuffer name maxlen).2.mem buf.head
  have padded := padAt_eq
    (buf.blobmsgAllocStringBuffer name maxlen).2.mem buf.nextAttr
  have next : (buf.blobmsgAllocStringBuffer name maxlen).2.nextAttr =
      buf.head +
        padAt (buf.blobmsgAllocStringBuffer name maxlen).2.mem buf.head := by
    rw [BlobBuf.nextAttr, sameHead, ← padAt]
  constructor
  · apply front.append (buf.blobmsgAllocStringBuffer name maxlen).2 sameHead
    · intro addr before
      exact same_allocStringBuffer front inside name maxlen before
    · exact fromFrontier
    · exact tail_of_total headLength (by omega) (by omega)
  · by_cases wrapped : padAt buf.mem buf.head = 16777216
    · -- the string buffer is lost: the next attribute is the head again
      have again : (buf.blobmsgAllocStringBuffer name maxlen).2.nextAttr =
          buf.head := by omega
      have dataBound := (blobmsgData_le
        (buf.blobmsgAllocStringBuffer name maxlen).2.mem buf.head).2
      refine ⟨by omega, ?_, ?_, fun filled => absurd rfl filled,
        Or.inl ⟨?_, by omega⟩⟩
      · rw [again]
        dsimp only
        omega
      · rw [Option.getD_none]
        dsimp only
        omega
      · rw [sameHead, headLength, wrapped]
    · have place : (buf.blobmsgAllocStringBuffer name maxlen).2.nextAttr =
          buf.nextAttr := by omega
      refine ⟨by omega, ?_, ?_, fun filled => absurd rfl filled,
        Or.inr ⟨?_, ?_⟩⟩
      · rw [place, data, dest]
      · rw [Option.getD_none]
        dsimp only
        omega
      · rw [place, data]
        omega
      · rw [place, data]
        omega

/-- Growing for a longer string keeps everything below the frontier, and the
data begins inside of what the attribute takes up. -/
theorem Frontier.blobmsgReallocStringBuffer
    {string : StringBuffer}
    (front : Frontier frontier buf cookies)
    (pending : Pending frontier buf string)
    (room : frontier ≤ buf.buflen)
    (unwrapped : rawAt buf.mem buf.head ≠ 0) (maxlen : Nat) :
    Frontier frontier (buf.blobmsgReallocStringBuffer maxlen).2 cookies ∧
      Pending frontier (buf.blobmsgReallocStringBuffer maxlen).2
        ⟨(buf.blobmsgReallocStringBuffer maxlen).1, maxlen,
          string.length⟩ ∧
      (buf.blobmsgReallocStringBuffer maxlen).1 ≤
        buf.nextAttr + padAt buf.mem buf.nextAttr := by
  have written := front.written
  have hdr := pending.hdr
  have data := pending.data
  have filled := pending.filled
  have same : ∀ addr, addr < frontier →
      (buf.blobmsgReallocStringBuffer maxlen).2.mem addr = buf.mem addr :=
    fun addr below => mem_growTo _ (by omega)
  have sameHead : (buf.blobmsgReallocStringBuffer maxlen).2.head =
      buf.head := head_growTo buf _
  have headLength : rawAt (buf.blobmsgReallocStringBuffer maxlen).2.mem
      buf.head = rawAt buf.mem buf.head :=
    rawAt_congr fun addr _ upper => same addr (by omega)
  have place : (buf.blobmsgReallocStringBuffer maxlen).2.nextAttr =
      buf.nextAttr := by
    rw [BlobBuf.nextAttr, sameHead, ← padAt, padAt_eq, headLength,
      ← padAt_eq]
    rfl
  have length : rawAt (buf.blobmsgReallocStringBuffer maxlen).2.mem
      buf.nextAttr = rawAt buf.mem buf.nextAttr :=
    rawAt_congr fun addr _ upper => same addr (by omega)
  have padded : padAt (buf.blobmsgReallocStringBuffer maxlen).2.mem
      buf.nextAttr = padAt buf.mem buf.nextAttr := by
    rw [padAt_eq, length, ← padAt_eq]
  have sameData : blobmsgData
      (buf.blobmsgReallocStringBuffer maxlen).2.mem buf.nextAttr =
      blobmsgData buf.mem buf.nextAttr :=
    blobmsgData_eqOn fun addr _ upper => same addr (by omega)
  have dest : (buf.blobmsgReallocStringBuffer maxlen).1 =
      blobmsgData buf.mem buf.nextAttr := by
    rw [← sameData, ← place]
    rfl
  refine ⟨?_, ⟨by omega, ?_, ?_, ?_, ?_⟩, ?_⟩
  · apply front.append (buf.blobmsgReallocStringBuffer maxlen).2 sameHead
    · intro addr before
      exact same addr (by omega)
    · exact Nat.le_refl _
    · have headPadded : padAt (buf.blobmsgReallocStringBuffer maxlen).2.mem
          buf.head = padAt buf.mem buf.head := by
        rw [padAt_eq, headLength, ← padAt_eq]
      rw [Tail, headLength, headPadded]
      exact front.tail
  · rw [place, sameData, dest]
  · dsimp only
    omega
  · intro isFilled
    obtain ⟨stop, lower, upper, zero⟩ := pending.zero isFilled
    exact ⟨stop, by dsimp only; omega, upper, (same stop upper).trans zero⟩
  · rw [sameHead, place, headLength, length, padded, sameData]
    exact pending.ends
  · rw [dest]
    exact (pending.ends.resolve_left fun lost => unwrapped lost.1).2

/-- Writing a string behind what is already there. -/
theorem Frontier.strcpy
    {string : StringBuffer}
    (front : Frontier frontier buf cookies)
    (pending : Pending frontier buf string) (offset : Nat)
    (text : List UInt8) :
    Frontier
        (max frontier (string.dest + offset + (text.length + 1)))
        { buf with
          mem := store buf.mem (string.dest + offset) (text ++ [0]) }
        cookies ∧
      Pending
        (max frontier (string.dest + offset + (text.length + 1)))
        { buf with
          mem := store buf.mem (string.dest + offset) (text ++ [0]) }
        { string with length := some (offset + text.length) } := by
  obtain ⟨behind, _, _⟩ := front.nextAttr
  have data := pending.data
  have start := (blobmsgData_le buf.mem buf.nextAttr).1
  have hdr := pending.hdr
  have fromFrontier := Nat.le_max_left frontier
    (string.dest + offset + (text.length + 1))
  have fromText := Nat.le_max_right frontier
    (string.dest + offset + (text.length + 1))
  have headLength : rawAt
      (store buf.mem (string.dest + offset) (text ++ [0])) buf.head =
      rawAt buf.mem buf.head :=
    rawAt_store_of_disjoint (Or.inl (by omega))
  have headPadded : padAt
      (store buf.mem (string.dest + offset) (text ++ [0])) buf.head =
      padAt buf.mem buf.head :=
    padAt_store_of_disjoint (Or.inl (by omega))
  have length : rawAt
      (store buf.mem (string.dest + offset) (text ++ [0])) buf.nextAttr =
      rawAt buf.mem buf.nextAttr :=
    rawAt_store_of_disjoint (Or.inl (by omega))
  have padded : padAt
      (store buf.mem (string.dest + offset) (text ++ [0])) buf.nextAttr =
      padAt buf.mem buf.nextAttr :=
    padAt_store_of_disjoint (Or.inl (by omega))
  have sameData := @blobmsgData_store buf.mem buf.nextAttr
    (string.dest + offset) (text ++ [0]) (by omega)
  have place : ({ buf with
      mem := store buf.mem (string.dest + offset) (text ++ [0]) } :
        BlobBuf).nextAttr = buf.nextAttr := by
    rw [BlobBuf.nextAttr]
    dsimp only
    rw [← padAt, headPadded, behind]
  constructor
  · apply front.append
    · rfl
    · intro addr before
      exact store_of_lt (by omega)
    · exact fromFrontier
    · rw [Tail, headLength, headPadded]
      rcases front.tail with wrapped | ⟨four, ends⟩
      · exact Or.inl (by omega)
      · exact Or.inr ⟨four, by omega⟩
  · refine ⟨?_, ?_, ?_, ?_, ?_⟩
    · rw [place]
      omega
    · rw [place, sameData]
      exact data
    · rw [Option.getD_some]
      dsimp only
      omega
    · intro _
      have last := @store_at buf.mem (string.dest + offset) (text ++ [0])
        text.length (by simp)
      exact ⟨string.dest + offset + text.length, by dsimp only; omega,
        by omega, last.trans (by simp)⟩
    · rw [place]
      dsimp only
      rw [headLength, length, padded, sameData]
      rcases pending.ends with ⟨lost, far⟩ | ends
      · exact Or.inl ⟨lost, by omega⟩
      · exact Or.inr ends

/-- A string that has been written ends below the frontier. -/
theorem Pending.stringRawLen
    {string : StringBuffer} (pending : Pending frontier buf string)
    (room : frontier ≤ buf.buflen) (filled : string.length ≠ none) :
    buf.nextAttr + stringRawLen buf ≤ frontier := by
  obtain ⟨stop, lower, upper, zero⟩ := pending.zero filled
  have data := pending.data
  have len := (@strlen_congr buf.mem buf.mem
    (buf.buflen - blobmsgData buf.mem buf.nextAttr)
    (buf.buflen - blobmsgData buf.mem buf.nextAttr)
    (blobmsgData buf.mem buf.nextAttr) stop zero (by omega) (by omega)
    (by omega) fun _ _ _ => rfl).2
  rw [BlobBuf.stringRawLen]
  rcases pending.ends with ⟨_, far⟩ | ⟨ends, _⟩
  · omega
  · omega

/-- What lies in front of the head stays in `blobmsg_add_string_buffer`. -/
theorem mem_addStringBuffer_of_lt (buf : BlobBuf) {addr : Nat}
    (before : addr < buf.head) :
    buf.blobmsgAddStringBuffer.mem addr = buf.mem addr := by
  have behind : buf.head ≤ buf.nextAttr := Nat.le_add_right _ _
  rw [BlobBuf.blobmsgAddStringBuffer]
  dsimp only
  rw [blobSetRawLen_of_lt before, blobFillPad_of_lt (by omega),
    blobSetRawLen_of_lt (by omega)]

/-- The head takes the string in, with its padding. -/
theorem rawAt_head_addStringBuffer
    (apart : buf.head + 4 ≤ buf.nextAttr) :
    rawAt buf.blobmsgAddStringBuffer.mem buf.head =
      (rawAt buf.mem buf.head +
        if BlobBuf.stringRawLen buf < 4 then 0
        else (BlobBuf.stringRawLen buf + 3) / 4 * 4) % 16777216 := by
  have raw := rawAt_stringBuffer buf
  rw [BlobBuf.blobmsgAddStringBuffer]
  dsimp only
  have sameHead : ∀ len, rawAt
      (BlobBuf.blobFillPad (blobSetRawLen buf.mem buf.nextAttr len)
        buf.nextAttr) buf.head = rawAt buf.mem buf.head := by
    intro len
    apply rawAt_congr
    intro addr _ upper
    rw [blobFillPad_of_lt (by omega), blobSetRawLen_of_lt (by omega)]
  rw [rawAt_blobSetRawLen, UInt32.toNat_add, ← rawAt, ← padAt, sameHead]
  have padded : padAt
      (BlobBuf.blobFillPad
        (blobSetRawLen buf.mem buf.nextAttr
          (blobRawLen (attrAt buf.mem buf.nextAttr) + UInt32.ofNat
            (strlen buf.mem
              (buf.buflen - blobmsgData buf.mem buf.nextAttr)
              (blobmsgData buf.mem buf.nextAttr) + 1)))
        buf.nextAttr) buf.nextAttr =
      if BlobBuf.stringRawLen buf < 4 then 0
      else (BlobBuf.stringRawLen buf + 3) / 4 * 4 := by
    rw [padAt_eq]
    split
    · rename_i short
      rw [rawAt_blobFillPad_short (raw ▸ short)]
    · rename_i long
      rw [rawAt, attrAt_blobFillPad (Or.inl (by omega)), ← rawAt, raw]
  rw [padded]
  have small := rawAt_lt buf.mem buf.head
  have bound : BlobBuf.stringRawLen buf < 16777216 :=
    Nat.mod_lt _ (by decide)
  split
  · omega
  · omega

theorem Frontier.blobmsgAddStringBuffer
    (front : Frontier frontier buf cookies) :
    Frontier
      (max frontier (buf.nextAttr + (BlobBuf.stringRawLen buf + 3) / 4 * 4))
      buf.blobmsgAddStringBuffer cookies := by
  obtain ⟨behind, _, within⟩ := front.nextAttr
  have rounded := padAt_eq buf.mem buf.head
  have fromFrontier := Nat.le_max_left frontier
    (buf.nextAttr + (BlobBuf.stringRawLen buf + 3) / 4 * 4)
  have fromString := Nat.le_max_right frontier
    (buf.nextAttr + (BlobBuf.stringRawLen buf + 3) / 4 * 4)
  apply front.append buf.blobmsgAddStringBuffer
  · rfl
  · exact fun _ before => mem_addStringBuffer_of_lt buf before
  · exact fromFrontier
  · rcases front.tail with wrapped | ⟨four, ends⟩
    · exact Or.inl (by omega)
    · have apart : buf.head + 4 ≤ buf.nextAttr := by omega
      apply tail_of_total (rawAt_head_addStringBuffer apart)
      · omega
      · split
        · omega
        · omega

end Strings

end LibubusJni.Libubox
