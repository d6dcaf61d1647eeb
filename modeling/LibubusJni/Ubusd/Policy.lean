import LibubusJni.Libubox.Blob

/-!
# The tables of `ubusd_proto.c`

Which types of messages have a handler, and the attribute types that
`ubus_parse_msg` insists on.
-/

namespace LibubusJni.Ubusd

open LibubusJni.Libubox

/-- The table `handlers` has an entry for the type. -/
def hasHandler (type : UInt8) : Bool :=
  [UbusMsgType.ping, .addObject, .removeObject, .lookup, .invoke, .status,
    .data, .subscribe, .unsubscribe, .notify].any fun entry =>
      entry.code == type

/-- `ubus_policy`. -/
def ubusPolicy : Nat → BlobAttrType
  | 6 => .nested -- `UBUS_ATTR_SIGNATURE`
  | 5 => .int32 -- `UBUS_ATTR_OBJTYPE`
  | 2 => .string -- `UBUS_ATTR_OBJPATH`
  | 3 => .int32 -- `UBUS_ATTR_OBJID`
  | 1 => .int32 -- `UBUS_ATTR_STATUS`
  | 4 => .string -- `UBUS_ATTR_METHOD`
  | _ => .unspec

/-- `ubus_parse_msg` of the message at address zero. -/
def ubusParseMsg (mem : Memory) (attr : UbusMsgAttr) : Option Nat :=
  blobParse mem 0 ubusPolicy ubusAttrMax attr.id

end LibubusJni.Ubusd
