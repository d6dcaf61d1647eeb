import LibubusJni.EventDecoded
import LibubusJni.Libubox.PutAttrs
import LibubusJni.Libubus.Invoke
import LibubusJni.Ubusd.Sizes

/-!
# Messages of ubusd as libubus reads them

What is sent of the buffer `b` holds the attributes that were put into it, and
numbers and strings are read back.
-/

namespace LibubusJni

open LibubusJni.Libubox LibubusJni.Ubusd

/-- `struct ubus_msghdr_buf` of a message of ubusd. -/
def received (msg : BusMsg) : Libubus.UbusMsghdrBuf := ⟨msg.hdr, msg.data⟩

theorem type_of_ofCode {type : UbusMsgType} {byte : UInt8}
    (isType : UbusMsgType.ofCode? byte = some type) : byte = type.code := by
  rw [UbusMsgType.ofCode?.eq_def] at isType
  split at isType
  all_goals cases isType
  all_goals rfl

theorem holds_memoryOf (bytes : List UInt8) : Holds (memoryOf bytes) 0 bytes := by
  intro index inside
  rw [memoryOf, Nat.zero_add, List.getD_eq_getElem?_getD,
    List.getElem?_eq_getElem inside, Option.getD_some]

theorem length_concat_mod (attrs : List PutAttr) :
    (PutAttr.concat attrs).length % 4 = 0 := by
  induction attrs with
  | nil =>
      rfl
  | cons attr rest inductionHypothesis =>
      rw [PutAttr.concat_cons, List.length_append, PutAttr.length_bytes,
        PutAttr.size]
      omega

section Sent

variable {attrs : List PutAttr}
  (small : (PutAttr.concat attrs).length < 8388608)

include small

/-- What is sent of the buffer `b`. -/
theorem msgFromBlob_puts :
    Bus.msgFromBlob (attrs.map PutAttr.bytes) =
      blobPut 0 (PutAttr.concat attrs) := by
  have length := @length_blobPut 0 _ (length_concat_mod attrs)
  have raw := toNat_blobRawLen_blobPut 0 (PutAttr.concat attrs)
  rw [Bus.msgFromBlob, Bus.msgData, blobNest]
  refine List.take_of_length_le ?_
  rw [← PutAttr.concat, length, raw]
  omega

theorem plain_msgFromBlob :
    Plain (memoryOf (Bus.msgFromBlob (attrs.map PutAttr.bytes))) 0
      ⟨0, PutAttr.concat attrs⟩ := by
  rw [msgFromBlob_puts small]
  refine plain_of_holds (holds_memoryOf _) (show 0 < 128 by decide) ?_
  rw [PutAttr.size]
  dsimp only
  omega

theorem whole_msgFromBlob (hdr : UbusMsghdr) :
    BusRequest.Whole ⟨hdr, Bus.msgFromBlob (attrs.map PutAttr.bytes)⟩ := by
  have length := @length_blobPut 0 _ (length_concat_mod attrs)
  have raw := toNat_blobRawLen_blobPut 0 (PutAttr.concat attrs)
  rw [BusRequest.Whole]
  dsimp only
  rw [msgFromBlob_puts small, length, raw]
  omega

end Sent

/-- A string that lies in memory with its zero. -/
theorem cString_of_holds {bytes string : List UInt8} {addr : Nat}
    (holds : Holds (memoryOf bytes) addr (string ++ [0]))
    (clean : (0 : UInt8) ∉ string) : cString bytes addr = string := by
  induction string generalizing addr with
  | nil =>
      have zero : memoryOf bytes addr = 0 := holds 0 (Nat.succ_pos 0)
      rw [cString_step, if_pos zero]
  | cons byte rest inductionHypothesis =>
      rw [List.mem_cons, not_or] at clean
      obtain ⟨first, others⟩ :=
        Holds.append_iff.mp
          (show Holds (memoryOf bytes) addr ([byte] ++ (rest ++ [0])) from
            holds)
      have isByte := first 0 (Nat.succ_pos 0)
      rw [Nat.add_zero, List.getElem_cons_zero] at isByte
      have rest := inductionHypothesis others clean.2
      rw [List.length_singleton] at rest
      rw [cString_step, isByte, if_neg (Ne.symm clean.1), rest]

/-- A number. -/
theorem blobGetU32_of_plain {mem : Memory} {pos id : Nat} {value : UInt32}
    (plain : Plain mem pos ⟨id, be32Bytes value⟩) :
    blobGetU32 mem pos = value := by
  rw [blobGetU32, Holds.attrAt_iff.mp plain.payload, blobIdLen_be32]

/-- A string. -/
theorem cString_of_plain {bytes string : List UInt8} {pos id : Nat}
    (plain : Plain (memoryOf bytes) pos ⟨id, string ++ [0]⟩)
    (clean : (0 : UInt8) ∉ string) : cString bytes (pos + 4) = string :=
  cString_of_holds plain.payload clean

section Accepted

variable {policy : Nat → BlobAttrType} {id : Nat} (known : id < ubusAttrMax)

include known

theorem accepted_int32 (isInt : policy id = .int32) (value : UInt32) :
    PutAttr.Accepted ⟨id, be32Bytes value⟩ policy ubusAttrMax := by
  refine ⟨known, ?_⟩
  dsimp only
  rw [isInt]
  exact length_be32Bytes value

theorem accepted_string (isString : policy id = .string)
    (string : List UInt8) :
    PutAttr.Accepted ⟨id, string ++ [0]⟩ policy ubusAttrMax := by
  refine ⟨known, ?_⟩
  dsimp only
  rw [isString]
  exact List.getLast?_concat

theorem accepted_unspec (isUnspec : policy id = .unspec)
    (payload : List UInt8) :
    PutAttr.Accepted ⟨id, payload⟩ policy ubusAttrMax := by
  refine ⟨known, ?_⟩
  dsimp only
  rw [isUnspec]
  trivial

end Accepted

end LibubusJni
