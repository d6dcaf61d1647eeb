import LibubusJni.Libubox.Blob

/-!
# Named attributes: `blobmsg.h` and `blobmsg.c`

A named attribute carries a header of its own in front of its data: the length
of the name, the name, a zero and the padding.
-/

namespace LibubusJni.Libubox

open LibubusJni

/-- `enum blobmsg_type`. -/
inductive BlobmsgType where
  | unspec
  | array
  | table
  | string
  | int64
  | int32
  | int16
  | int8
  deriving DecidableEq, Repr

namespace BlobmsgType

/-- The type of an attribute's identifier up to `BLOBMSG_TYPE_LAST`. -/
def ofId? : Nat → Option BlobmsgType
  | 0 => some .unspec
  | 1 => some .array
  | 2 => some .table
  | 3 => some .string
  | 4 => some .int64
  | 5 => some .int32
  | 6 => some .int16
  | 7 => some .int8
  | _ => none

/-- The identifier of a type. -/
def id : BlobmsgType → Nat
  | .unspec => 0
  | .array => 1
  | .table => 2
  | .string => 3
  | .int64 => 4
  | .int32 => 5
  | .int16 => 6
  | .int8 => 7

end BlobmsgType

/-- `blob_type`; the entries that the table leaves out are zero. -/
def blobType : BlobmsgType → BlobAttrType
  | .unspec => .binary
  | .array | .table => .unspec
  | .string => .string
  | .int64 => .int64
  | .int32 => .int32
  | .int16 => .int16
  | .int8 => .int8

/-- `blobmsg_namelen` of the header at an address. -/
def blobmsgNamelen (mem : Memory) (hdr : Nat) : UInt16 :=
  ((mem hdr).toUInt16 <<< 8) ||| (mem (hdr + 1)).toUInt16

/-- `blobmsg_hdrlen`: the header, the name and its zero, padded to a multiple
of four. -/
def blobmsgHdrlen (namelen : Nat) : Nat :=
  (2 + namelen + 1 + 3) / 4 * 4

/-- `blobmsg_data`. -/
def blobmsgData (mem : Memory) (attr : Nat) : Nat :=
  if blobIsExtended (attrAt mem attr) then
    attr + 4 + blobmsgHdrlen (blobmsgNamelen mem (attr + 4)).toNat
  else attr + 4

/-- `blobmsg_data_len`, an `int`. -/
def blobmsgDataLen (mem : Memory) (attr : Nat) : UInt32 :=
  blobLen (attrAt mem attr) -
    UInt32.ofNat (blobmsgData mem attr - (attr + 4))

/-- `blobmsg_check_attr`. -/
def blobmsgCheckAttr (mem : Memory) (attr : Nat) (name : Bool) : Bool :=
  let len := blobLen (attrAt mem attr)
  let namelen := blobmsgNamelen mem (attr + 4)
  if len < 2 then
    false
  else if namelen == 0 && name then
    false
  else if len - 2 < namelen.toUInt32 then
    false
  else if mem (attr + 6 + namelen.toNat) != 0 then
    false
  else
    match BlobmsgType.ofId? (blobId (attrAt mem attr)) with
    | none => false
    | some type =>
        if blobType type = .unspec then
          true
        else
          blobCheckType mem (blobmsgData mem attr) (blobmsgDataLen mem attr)
            (blobType type)

end LibubusJni.Libubox
