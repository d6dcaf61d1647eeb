import Mathlib.Data.List.Basic

/-!
# Wire format

The message header of `ubusmsg.h` and the attribute header of `blob.h`.  A
message is a `ubus_msghdr` followed by one attribute whose first four bytes
hold its identifier and, in the low 24 bits, its raw length.
-/

namespace LibubusJni

/-- `sizeof(struct ubus_msghdr)`. -/
def sizeofMsghdr : Nat := 8

/-- `sizeof(struct blob_attr)`. -/
def sizeofBlobAttr : Nat := 4

/-- `UBUS_MAX_MSGLEN`, the same value in `ubusd.h` and `libubus.h`. -/
def ubusMaxMsglen : UInt32 := 1048576

/-- `enum ubus_msg_type`. -/
inductive UbusMsgType where
  | hello
  | status
  | data
  | ping
  | lookup
  | invoke
  | addObject
  | removeObject
  | subscribe
  | unsubscribe
  | notify
  deriving DecidableEq, Repr

namespace UbusMsgType

/-- The byte of `hdr.type`. -/
def code : UbusMsgType → UInt8
  | .hello => 0
  | .status => 1
  | .data => 2
  | .ping => 3
  | .lookup => 4
  | .invoke => 5
  | .addObject => 6
  | .removeObject => 7
  | .subscribe => 8
  | .unsubscribe => 9
  | .notify => 10

/-- The type of a header byte below `__UBUS_MSG_LAST`. -/
def ofCode? : UInt8 → Option UbusMsgType
  | 0 => some .hello
  | 1 => some .status
  | 2 => some .data
  | 3 => some .ping
  | 4 => some .lookup
  | 5 => some .invoke
  | 6 => some .addObject
  | 7 => some .removeObject
  | 8 => some .subscribe
  | 9 => some .unsubscribe
  | 10 => some .notify
  | _ => none

end UbusMsgType

/-- `enum ubus_msg_attr`. -/
inductive UbusMsgAttr where
  | unspec
  | status
  | objpath
  | objid
  | method
  | objtype
  | signature
  | data
  | target
  | active
  | noReply
  | subscribers
  deriving DecidableEq, Repr

namespace UbusMsgAttr

/-- The identifier of an attribute on the wire. -/
def id : UbusMsgAttr → Nat
  | .unspec => 0
  | .status => 1
  | .objpath => 2
  | .objid => 3
  | .method => 4
  | .objtype => 5
  | .signature => 6
  | .data => 7
  | .target => 8
  | .active => 9
  | .noReply => 10
  | .subscribers => 11

end UbusMsgAttr

/-- `UBUS_ATTR_MAX`. -/
def ubusAttrMax : Nat := 12

/-- `struct ubus_msghdr`. -/
structure UbusMsghdr where
  version : UInt8
  type : UInt8
  seq : UInt16
  peer : UInt32
  deriving DecidableEq, Repr

namespace UbusMsghdr

/-- What `calloc` leaves in the header of a new buffer. -/
def zero : UbusMsghdr := ⟨0, 0, 0, 0⟩

/-- The header as it lies in memory; `seq` and `peer` are in host order,
here with the low byte first. -/
def bytes (hdr : UbusMsghdr) : List UInt8 :=
  [hdr.version, hdr.type,
    hdr.seq.toUInt8, (hdr.seq >>> 8).toUInt8,
    hdr.peer.toUInt8, (hdr.peer >>> 8).toUInt8,
    (hdr.peer >>> 16).toUInt8, (hdr.peer >>> 24).toUInt8]

@[simp]
theorem length_bytes (hdr : UbusMsghdr) : hdr.bytes.length = 8 := rfl

end UbusMsghdr

/-- Four bytes of an attribute in network order. -/
def be32Bytes (value : UInt32) : List UInt8 :=
  [(value >>> 24).toUInt8, (value >>> 16).toUInt8,
    (value >>> 8).toUInt8, value.toUInt8]

@[simp]
theorem length_be32Bytes (value : UInt32) :
    (be32Bytes value).length = 4 := rfl

/-- `be32_to_cpu(attr->id_len)` of the attribute that starts here. -/
def blobIdLen : List UInt8 → UInt32
  | b0 :: b1 :: b2 :: b3 :: _ =>
      (b0.toUInt32 <<< 24) ||| (b1.toUInt32 <<< 16) |||
        (b2.toUInt32 <<< 8) ||| b3.toUInt32
  | _ => 0

/-- `blob_len`: unsigned, so a length field below four wraps around. -/
def blobLen (attr : List UInt8) : UInt32 :=
  (blobIdLen attr &&& 0x00ffffff) - 4

/-- `blob_raw_len`. -/
def blobRawLen (attr : List UInt8) : UInt32 :=
  blobLen attr + 4

/-- `blob_pad_len`. -/
def blobPadLen (attr : List UInt8) : UInt32 :=
  (blobRawLen attr + 3) &&& ~~~3

/-- Adding the header size back undoes the wrap of `blob_len`: the raw length
is the 24-bit length field. -/
theorem blobRawLen_eq (attr : List UInt8) :
    blobRawLen attr = blobIdLen attr &&& 0x00ffffff :=
  UInt32.sub_add_cancel _ _

/-- Only the first four bytes of an attribute decide its lengths. -/
theorem blobIdLen_append
    {idLen : List UInt8} (four : idLen.length = 4) (payload : List UInt8) :
    blobIdLen (idLen ++ payload) = blobIdLen idLen := by
  match idLen, four with
  | [b0, b1, b2, b3], _ =>
      rfl

/-- What is written in network order is read back. -/
theorem blobIdLen_be32Bytes (value : UInt32) (rest : List UInt8) :
    blobIdLen (be32Bytes value ++ rest) = value := by
  rw [be32Bytes, List.cons_append, List.cons_append, List.cons_append,
    List.cons_append, blobIdLen]
  apply UInt32.toNat_inj.mp
  apply Nat.eq_of_testBit_eq
  intro bit
  have byte : ∀ number : Nat, number % 256 = number % 2 ^ 8 :=
    fun number => rfl
  have above : 32 ≤ bit → value.toNat.testBit bit = false := fun high =>
    Nat.testBit_lt_two_pow (Nat.lt_of_lt_of_le value.toNat_lt
      (Nat.pow_le_pow_right Nat.two_pos high))
  simp [UInt32.toNat_or, UInt32.toNat_shiftLeft, UInt32.toNat_shiftRight,
    byte, Nat.testBit_mod_two_pow, Nat.testBit_shiftLeft,
    Nat.testBit_shiftRight, Nat.testBit_or, -Nat.reducePow]
  -- one case for each of the four bytes
  by_cases first : bit < 8
  · grind
  · by_cases second : bit < 16
    · grind
    · by_cases third : bit < 24
      · grind
      · grind

theorem be32Bytes_injective {value other : UInt32}
    (same : be32Bytes value = be32Bytes other) : value = other := by
  have read := blobIdLen_be32Bytes value []
  rw [same, blobIdLen_be32Bytes] at read
  exact read.symm

theorem blobRawLen_append
    {idLen : List UInt8} (four : idLen.length = 4) (payload : List UInt8) :
    blobRawLen (idLen ++ payload) = blobRawLen idLen := by
  rw [blobRawLen, blobLen, blobIdLen_append four, ← blobLen, ← blobRawLen]

theorem blobPadLen_append
    {idLen : List UInt8} (four : idLen.length = 4) (payload : List UInt8) :
    blobPadLen (idLen ++ payload) = blobPadLen idLen := by
  rw [blobPadLen, blobRawLen_append four, ← blobPadLen]

/-- A message as it travels: the header bytes and the attribute bytes. -/
structure Message where
  hdr : List UInt8
  data : List UInt8
  deriving DecidableEq, Repr

namespace Message

/-- The bytes of the message on the stream. -/
def image (message : Message) : List UInt8 :=
  message.hdr ++ message.data

/-- Header and attribute header, the first part that a receiver reads. -/
def start (message : Message) : List UInt8 :=
  message.hdr ++ message.data.take 4

/-- A message whose length field is at least four and whose padded length is
at most `UBUS_MAX_MSGLEN`, with all its bytes. -/
structure WellFormed (message : Message) : Prop where
  hdrLength : message.hdr.length = 8
  rawLen : 4 ≤ (blobRawLen message.data).toNat
  dataLength : message.data.length = (blobRawLen message.data).toNat
  padLen : blobPadLen message.data ≤ ubusMaxMsglen

instance (message : Message) : Decidable message.WellFormed :=
  decidable_of_iff
    (message.hdr.length = 8 ∧ 4 ≤ (blobRawLen message.data).toNat ∧
      message.data.length = (blobRawLen message.data).toNat ∧
      blobPadLen message.data ≤ ubusMaxMsglen)
    ⟨fun parts => ⟨parts.1, parts.2.1, parts.2.2.1, parts.2.2.2⟩,
      fun parts =>
        ⟨parts.hdrLength, parts.rawLen, parts.dataLength, parts.padLen⟩⟩

variable {message : Message}

theorem WellFormed.four_le (formed : message.WellFormed) :
    4 ≤ message.data.length := by
  rw [formed.dataLength]
  exact formed.rawLen

theorem WellFormed.length_start (formed : message.WellFormed) :
    message.start.length = 12 := by
  have four := formed.four_le
  rw [start, List.length_append, formed.hdrLength, List.length_take]
  omega

theorem image_eq_start (message : Message) :
    message.image = message.start ++ message.data.drop 4 := by
  rw [image, start, List.append_assoc, List.take_append_drop]

theorem WellFormed.length_image (formed : message.WellFormed) :
    message.image.length = 8 + message.data.length := by
  rw [image, List.length_append, formed.hdrLength]

theorem WellFormed.take_start (formed : message.WellFormed) :
    message.start.take 8 = message.hdr := by
  rw [start, ← formed.hdrLength, List.take_left]

theorem WellFormed.drop_start (formed : message.WellFormed) :
    message.start.drop 8 = message.data.take 4 := by
  rw [start, ← formed.hdrLength, List.drop_left]

/-- The attribute header alone gives the raw length. -/
theorem WellFormed.rawLen_start (formed : message.WellFormed) :
    (blobRawLen (message.data.take 4)).toNat = message.data.length := by
  have four : (message.data.take 4).length = 4 := by
    have enough := formed.four_le
    rw [List.length_take]
    omega
  rw [← blobRawLen_append four (message.data.drop 4),
    List.take_append_drop, formed.dataLength]

theorem WellFormed.padLen_start (formed : message.WellFormed) :
    blobPadLen (message.data.take 4) ≤ ubusMaxMsglen := by
  have four : (message.data.take 4).length = 4 := by
    have enough := formed.four_le
    rw [List.length_take]
    omega
  rw [← blobPadLen_append four (message.data.drop 4),
    List.take_append_drop]
  exact formed.padLen

end Message

/-- The stream that a sender puts on a socket. -/
def stream (messages : List Message) : List UInt8 :=
  (messages.map Message.image).flatten

@[simp]
theorem stream_nil : stream [] = [] := rfl

@[simp]
theorem stream_cons (message : Message) (rest : List Message) :
    stream (message :: rest) = message.image ++ stream rest := by
  simp [stream]

theorem stream_append (first second : List Message) :
    stream (first ++ second) = stream first ++ stream second := by
  simp [stream]

end LibubusJni
