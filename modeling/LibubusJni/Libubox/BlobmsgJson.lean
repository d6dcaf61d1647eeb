import LibubusJni.Lib.Json
import LibubusJni.Libubox.RoundTrip

/-!
# JSON and blobmsg: `blobmsg_json.c`

What json-c's tokener makes of a text is a parameter, and its objects are
`JsonValue`s.  `json_object_get_string` and the keys of an object are C strings:
they end at the first zero.  No formatter of the caller is modelled
(`custom_format` is `NULL`), and allocation succeeds.
-/

namespace LibubusJni.Libubox

open LibubusJni Lib

/-! ## From JSON -/

/-- `json_object_get_int`, which saturates at 32 bits. -/
def jsonObjectGetInt (val : Int) : Int :=
  max (-2147483648) (min val 2147483647)

mutual

/-- `blobmsg_add_json_element`. -/
def blobmsgAddJsonElement (buf : BlobBuf) (name : List UInt8) :
    JsonValue → Bool × BlobBuf
  | .object members =>
      let (cookie, opened) := buf.blobmsgOpenNested name false
      let (ret, filled) := blobmsgAddObject opened members
      (ret, filled.blobNestEnd cookie)
  | .array items =>
      let (cookie, opened) := buf.blobmsgOpenNested name true
      let (ret, filled) := blobmsgAddArray opened items
      (ret, filled.blobNestEnd cookie)
  | .string text => (true, buf.blobmsgAddString name (cString text 0))
  | .boolean val => (true, buf.blobmsgAddU8 name (if val then 1 else 0))
  | .int val =>
      (true, buf.blobmsgAddU32 name (UInt32.ofInt (jsonObjectGetInt val)))
  | .null => (true, buf.blobmsgAddNull name)
  | .double _ => (false, buf)

/-- `blobmsg_add_object`. -/
def blobmsgAddObject (buf : BlobBuf) : JsonMembers → Bool × BlobBuf
  | .nil => (true, buf)
  | .cons key val tail =>
      let (ret, added) := blobmsgAddJsonElement buf (cString key 0) val
      if ret then blobmsgAddObject added tail else (false, added)

/-- `blobmsg_add_array`; the name is `NULL`. -/
def blobmsgAddArray (buf : BlobBuf) : JsonItems → Bool × BlobBuf
  | .nil => (true, buf)
  | .cons item tail =>
      let (ret, added) := blobmsgAddJsonElement buf [] item
      if ret then blobmsgAddArray added tail else (false, added)

end

/-- `__blobmsg_add_json`. -/
def blobmsgAddJson (buf : BlobBuf) : Option JsonValue → Bool × BlobBuf
  | none => (false, buf)
  | some (.object members) => blobmsgAddObject buf members
  | some _ => (false, buf)

/-- `blobmsg_add_json_from_string`. -/
def blobmsgAddJsonFromString
    (jsonTokenerParse : List UInt8 → Option JsonValue) (buf : BlobBuf)
    (str : List UInt8) : Bool × BlobBuf :=
  blobmsgAddJson buf (jsonTokenerParse str)

/-! ## To JSON -/

/-- `struct strbuf`: `buf` holds the bytes up to `pos`. -/
structure Strbuf where
  len : Nat
  buf : List UInt8
  indent : Bool
  indentLevel : Nat
  deriving DecidableEq, Repr

namespace Strbuf

/-- `blobmsg_puts`. -/
def blobmsgPuts (s : Strbuf) (c : List UInt8) : Strbuf :=
  if c = [] then s
  else
    { s with
      len := if s.len ≤ s.buf.length + c.length then s.len + (16 + c.length)
        else s.len
      buf := s.buf ++ c }

/-- `add_separator`. -/
def addSeparator (s : Strbuf) : Strbuf :=
  if s.indent then
    s.blobmsgPuts (0x0a :: List.replicate (min s.indentLevel 16) 0x09)
  else s

end Strbuf

/-- The letter that a byte is escaped with. -/
def escapeLetter (byte : UInt8) : Option UInt8 :=
  if byte = 0x08 then some 0x62
  else if byte = 0x0a then some 0x6e
  else if byte = 0x09 then some 0x74
  else if byte = 0x0d then some 0x72
  else if byte = Byte.quote ∨ byte = Byte.backslash then some byte
  else if byte < 0x20 then some Byte.letterU
  else none

/-- A hexadecimal digit of `"%02x"`. -/
def hexDigit (digit : Nat) : UInt8 :=
  if digit < 10 then (0x30 + digit).toUInt8 else (0x57 + digit).toUInt8

/-- The escape of a byte. -/
def escapeBytes (byte escape : UInt8) : List UInt8 :=
  if escape = Byte.letterU then
    [Byte.backslash, escape, 0x30, 0x30, hexDigit (byte.toNat / 16),
      hexDigit (byte.toNat % 16)]
  else [Byte.backslash, escape]

/-- The loop of `blobmsg_format_string`: what lies between `last` and `p` is
still to be put. -/
def formatChars (s : Strbuf) (pending : List UInt8) : List UInt8 → Strbuf
  | [] => s.blobmsgPuts pending
  | byte :: rest =>
      match escapeLetter byte with
      | none => formatChars s (pending ++ [byte]) rest
      | some escape =>
          formatChars
            ((s.blobmsgPuts pending).blobmsgPuts (escapeBytes byte escape))
            [] rest

/-- `blobmsg_format_string`. -/
def blobmsgFormatString (s : Strbuf) (str : List UInt8) : Strbuf :=
  (formatChars (s.blobmsgPuts [Byte.quote]) [] str).blobmsgPuts [Byte.quote]

mutual

/-- `blobmsg_format_element`.  Every call takes one unit of fuel; nothing is
read behind `stop`. -/
def blobmsgFormatElement (mem : Memory) (stop : Nat) :
    Nat → Strbuf → Nat → Bool → Strbuf
  | 0, s, _, _ => s
  | fuel + 1, s, attr, array =>
      if !blobmsgCheckAttr mem attr false then s
      else
        let s :=
          if !array && mem (attr + 6) != 0 then
            (blobmsgFormatString s (blobmsgName mem stop attr)).blobmsgPuts
              (if s.indent then ascii ": " else ascii ":")
          else s
        match BlobmsgType.ofId? (blobId (attrAt mem attr)) with
        | some .unspec => s.blobmsgPuts (ascii "null")
        | some .int8 =>
            s.blobmsgPuts
              (if blobmsgGetU8 mem attr != 0 then ascii "true"
              else ascii "false")
        | some .int16 => s.blobmsgPuts (decimal (blobmsgGetU16 mem attr).toNat)
        | some .int32 =>
            s.blobmsgPuts (decimal (blobmsgGetU32 mem attr).toInt32.toInt)
        | some .int64 =>
            s.blobmsgPuts (decimal (blobmsgGetU64 mem attr).toInt64.toInt)
        | some .string =>
            blobmsgFormatString s (blobmsgGetString mem stop attr)
        | some .array =>
            blobmsgFormatJsonList mem stop fuel s (blobmsgForEachAttr mem attr)
              true
        | some .table =>
            blobmsgFormatJsonList mem stop fuel s (blobmsgForEachAttr mem attr)
              false
        -- `blobmsg_check_attr` has refused other types
        | none => s

/-- `blobmsg_format_json_list` of the attributes in a container. -/
def blobmsgFormatJsonList (mem : Memory) (stop : Nat) :
    Nat → Strbuf → List Nat → Bool → Strbuf
  | 0, s, _, _ => s
  | fuel + 1, s, attrs, array =>
      let s := s.blobmsgPuts [if array then Byte.openBracket else Byte.openBrace]
      let s := { s with indentLevel := s.indentLevel + 1 }.addSeparator
      let s := formatAttrs mem stop fuel s attrs array true
      let s := { s with indentLevel := s.indentLevel - 1 }.addSeparator
      s.blobmsgPuts [if array then Byte.closeBracket else Byte.closeBrace]

/-- The loop of `blobmsg_format_json_list`. -/
def formatAttrs (mem : Memory) (stop : Nat) :
    Nat → Strbuf → List Nat → Bool → Bool → Strbuf
  | 0, s, _, _, _ => s
  | _ + 1, s, [], _, _ => s
  | fuel + 1, s, pos :: rest, array, first =>
      let s := if first then s else (s.blobmsgPuts [Byte.comma]).addSeparator
      formatAttrs mem stop fuel (blobmsgFormatElement mem stop fuel s pos array)
        rest array false

end

/-- `blobmsg_format_json_with_cb`. -/
def blobmsgFormatJsonWithCb (mem : Memory) (stop attr : Nat) (list : Bool)
    (indent : Int) : Option (List UInt8) :=
  let s : Strbuf :=
    ⟨(blobLen (attrAt mem attr)).toNat, [], decide (0 ≤ indent),
      indent.toNat⟩
  let array := blobIsExtended (attrAt mem attr) &&
    blobId (attrAt mem attr) == BlobmsgType.array.id
  let fuel := rawAt mem attr
  let s :=
    if list then
      blobmsgFormatJsonList mem stop fuel s (blobmsgForEachAttr mem attr) array
    else blobmsgFormatElement mem stop fuel s attr false
  if s.len = 0 then none else some s.buf

/-- `blobmsg_format_json`. -/
def blobmsgFormatJson (mem : Memory) (stop attr : Nat) (list : Bool) :
    Option (List UInt8) :=
  blobmsgFormatJsonWithCb mem stop attr list (-1)

end LibubusJni.Libubox
