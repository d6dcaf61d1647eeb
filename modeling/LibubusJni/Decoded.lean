import LibubusJni.Libubox.Payload
import LibubusJni.Libubus.Invoke
import LibubusJni.Ubusd.Handlers

/-!
# What the handlers decode

ubusd and libubus parse a message with tables of their own, and their handlers
take values out of what `ubus_parse_msg` returns.  The table of ubusd says
nothing of `TARGET` and `NO_REPLY`, the one of libubus nothing of `OBJTYPE` and
`TARGET`, and neither of them refuses a string that is empty.
-/

namespace LibubusJni

open LibubusJni.Libubox

/-- A place where a handler decodes an attribute, if the message has it. -/
abbrev DecodingSite := UbusMsgAttr × Decoding

/-! ## ubusd -/

namespace Ubusd.Bus

variable (bus : Bus) (cl : Ptr) (ub : BusRequest)

/-- `ubusd_create_object` makes an object. -/
def createsObject : Bool :=
  let typed := bus.newObjectType ub.bytes ub.attr
  (typed.1.ubusdCreateObjectInternal typed.2).2.isSome

/-- The message names an object of the client. -/
def ownsObject : Bool :=
  match ub.attr .objid with
  | none => false
  | some objid =>
      match bus.findObjectOf ub objid with
      | none => false
      | some obj => (bus.store.objectAt obj).client == some cl

/-- The message names an object. -/
def namesObject : Bool :=
  match ub.attr .objid with
  | none => false
  | some objid => (bus.findObjectOf ub objid).isSome

/-- What a handler decodes. -/
def decodings : UbusMsgType → List DecodingSite
  | .hello | .ping => []
  | .addObject =>
      (.objtype, .u32) ::
        if bus.createsObject ub then [(.objpath, .string)] else []
  | .removeObject => [(.objid, .u32)]
  | .lookup => [(.objpath, .string), (.objpath, .lastChar)]
  | .invoke =>
      if (ub.attr .method).isSome && (ub.attr .objid).isSome then
        (.objid, .u32) ::
          if bus.namesObject ub then [(.method, .string)] else []
      else []
  | .notify =>
      if (ub.attr .method).isSome && (ub.attr .objid).isSome then
        (.noReply, .u8) :: (.objid, .u32) ::
          if bus.ownsObject cl ub then [(.method, .string)] else []
      else []
  | .status | .data =>
      if responseComplete ub then [(.objid, .u32)] else []
  | .subscribe | .unsubscribe =>
      if (ub.attr .objid).isSome && (ub.attr .target).isSome then
        (.objid, .u32) ::
          if bus.ownsObject cl ub then [(.target, .u32)] else []
      else []

end Ubusd.Bus

/-- What the table of ubusd does not make sure of. -/
def Ubusd.Covered (mem : Memory) (attr : Nat) : DecodingSite → Prop
  | (.target, .u32) => 4 ≤ payloadLen mem attr
  | (.noReply, .u8) => 1 ≤ payloadLen mem attr
  | (.objpath, .lastChar) => mem (attr + 4) ≠ 0
  | (_, .string) => 4 ≤ (blobRawLen (attrAt mem attr)).toNat
  | _ => True

/-! ## libubus -/

namespace Libubus

/-- An object that is registered with a context: whether it has methods, and
whether they are `watch_method` and `remove_cb` is set. -/
structure Receiver where
  hasMethods : Bool
  removeCb : Bool
  deriving DecidableEq, Repr

/-- The functions that take a message apart. -/
inductive Parser where
  | processObjMsg
  | addObjectCb
  | removeObjectCb
  | lookupCb
  | lookupIdCb
  | getStatus
  deriving DecidableEq, Repr

variable (objects : UInt32 → Option Receiver) (buf : UbusMsghdrBuf)

/-- What the callback of `ubus_process_obj_msg` decodes. -/
def objectDecodings (obj : Receiver) : List DecodingSite :=
  match UbusMsgType.ofCode? buf.hdr.type with
  | some .invoke =>
      if (buf.attrbuf .method).isSome then
        (.noReply, .u8) ::
          if obj.hasMethods then [(.method, .string)] else []
      else []
  | some .unsubscribe => if obj.removeCb then [(.target, .u32)] else []
  | some .notify => [(.active, .u8)]
  | _ => []

/-- What a function of libubus decodes. -/
def decodings : Parser → List DecodingSite
  | .processObjMsg =>
      match buf.objid with
      | none => []
      | some objid =>
          (.objid, .u32) ::
            match objects objid with
            | none => []
            | some obj => objectDecodings buf obj
  | .addObjectCb =>
      if (buf.attrbuf .objid).isSome then
        [(.objid, .u32), (.objtype, .u32)]
      else []
  | .removeObjectCb => []
  | .lookupCb =>
      if (buf.attrbuf .objid).isSome && (buf.attrbuf .objpath).isSome &&
          (buf.attrbuf .objtype).isSome then
        [(.objid, .u32), (.objpath, .string), (.objtype, .u32)]
      else []
  | .lookupIdCb => [(.objid, .u32)]
  | .getStatus => [(.status, .u32)]

/-- What the table of libubus does not make sure of. -/
def Covered (mem : Memory) (attr : Nat) : DecodingSite → Prop
  | (.target, .u32) | (.objtype, .u32) => 4 ≤ payloadLen mem attr
  | (_, .string) => 4 ≤ (blobRawLen (attrAt mem attr)).toNat
  | _ => True

end Libubus

/-- Something holds of every attribute that is decoded, and of the way that it
is. -/
def EachDecoded (table : UbusMsgAttr → Option Nat) (sites : List DecodingSite)
    (holds : Nat → DecodingSite → Prop) : Prop :=
  ∀ site ∈ sites, ∀ attr, table site.1 = some attr → holds attr site

/-- All that is decoded lies in the payload of its attribute. -/
def DecodesInside (mem : Memory) (table : UbusMsgAttr → Option Nat)
    (sites : List DecodingSite) : Prop :=
  EachDecoded table sites fun attr site => site.2.Inside mem attr

/-! ## What the tables make sure of -/

section Tables

variable {mem : Memory} {policy : Nat → BlobAttrType} {attr : Nat}
  {field : UbusMsgAttr}

/-- The check that an attribute in the table has passed. -/
theorem checked_of_parsed
    (found : blobParse mem 0 policy ubusAttrMax field.id = some attr) :
    blobCheckType mem (attr + 4) (blobLen (attrAt mem attr))
      (policy field.id) = true := by
  obtain ⟨_, accepted, isField⟩ := blobParse_some found
  rw [blobParseAccepts, Bool.and_eq_true, isField] at accepted
  exact accepted.2

theorem inside_of_int32 (isInt : policy field.id = .int32)
    (found : blobParse mem 0 policy ubusAttrMax field.id = some attr) :
    Decoding.u32.Inside mem attr := by
  have checked := checked_of_parsed found
  rw [isInt] at checked
  exact inside_u32_of_int32 checked

theorem inside_of_int8 (isInt : policy field.id = .int8)
    (found : blobParse mem 0 policy ubusAttrMax field.id = some attr) :
    Decoding.u8.Inside mem attr := by
  have checked := checked_of_parsed found
  rw [isInt] at checked
  exact inside_u8_of_int8 checked

theorem inside_string_iff (isString : policy field.id = .string)
    (found : blobParse mem 0 policy ubusAttrMax field.id = some attr) :
    Decoding.string.Inside mem attr ↔
      4 ≤ (blobRawLen (attrAt mem attr)).toNat := by
  have checked := checked_of_parsed found
  rw [isString] at checked
  exact inside_string_of_checked checked

end Tables

/-! ## Each place -/

theorem Ubusd.Bus.mem_decodings {bus : Bus} {cl : Ptr} {ub : BusRequest}
    {type : UbusMsgType} {site : DecodingSite}
    (member : site ∈ bus.decodings cl ub type) :
    site ∈ [(UbusMsgAttr.objid, Decoding.u32), (.objtype, .u32),
      (.target, .u32), (.noReply, .u8), (.objpath, .string),
      (.method, .string)] ∨
      (site = (.objpath, .lastChar) ∧
        (.objpath, .string) ∈ bus.decodings cl ub type) := by
  cases type with
  | hello =>
      exact absurd member List.not_mem_nil
  | ping =>
      exact absurd member List.not_mem_nil
  | lookup =>
      rcases List.mem_cons.mp member with isString | isLast
      · rw [isString]
        exact Or.inl (by decide)
      · exact Or.inr ⟨List.mem_singleton.mp isLast, List.mem_cons_self⟩
  | _ =>
      apply Or.inl
      rw [decodings] at member
      grind

theorem Libubus.mem_decodings {objects : UInt32 → Option Receiver}
    {buf : UbusMsghdrBuf} {parser : Parser} {site : DecodingSite}
    (member : site ∈ decodings objects buf parser) :
    site ∈ [(UbusMsgAttr.objid, Decoding.u32), (.objtype, .u32),
      (.target, .u32), (.status, .u32), (.active, .u8), (.noReply, .u8),
      (.objpath, .string), (.method, .string)] := by
  rw [decodings.eq_def] at member
  grind [objectDecodings]

theorem Ubusd.inside_iff_covered {mem : Memory} {attr : Nat}
    {site : DecodingSite}
    (member : site ∈ [(UbusMsgAttr.objid, Decoding.u32), (.objtype, .u32),
      (.target, .u32), (.noReply, .u8), (.objpath, .string),
      (.method, .string)])
    (found : Ubusd.ubusParseMsg mem site.1 = some attr) :
    site.2.Inside mem attr ↔ Ubusd.Covered mem attr site := by
  simp only [List.mem_cons, List.not_mem_nil, or_false] at member
  rcases member with same | same | same | same | same | same
  · rw [same] at found ⊢
    exact iff_of_true (inside_of_int32 rfl found) trivial
  · rw [same] at found ⊢
    exact iff_of_true (inside_of_int32 rfl found) trivial
  · rw [same]
    exact within_u32.trans Nat.add_le_add_iff_left
  · rw [same]
    exact within_u8.trans Nat.add_le_add_iff_left
  · rw [same] at found ⊢
    exact inside_string_iff rfl found
  · rw [same] at found ⊢
    exact inside_string_iff rfl found

theorem Libubus.inside_iff_covered {mem : Memory} {attr : Nat}
    {site : DecodingSite}
    (member : site ∈ [(UbusMsgAttr.objid, Decoding.u32), (.objtype, .u32),
      (.target, .u32), (.status, .u32), (.active, .u8), (.noReply, .u8),
      (.objpath, .string), (.method, .string)])
    (found : Libubus.ubusParseMsg mem site.1 = some attr) :
    site.2.Inside mem attr ↔ Libubus.Covered mem attr site := by
  simp only [List.mem_cons, List.not_mem_nil, or_false] at member
  rcases member with same | same | same | same | same | same | same | same
  · rw [same] at found ⊢
    exact iff_of_true (inside_of_int32 rfl found) trivial
  · rw [same]
    exact within_u32.trans Nat.add_le_add_iff_left
  · rw [same]
    exact within_u32.trans Nat.add_le_add_iff_left
  · rw [same] at found ⊢
    exact iff_of_true (inside_of_int32 rfl found) trivial
  · rw [same] at found ⊢
    exact iff_of_true (inside_of_int8 rfl found) trivial
  · rw [same] at found ⊢
    exact iff_of_true (inside_of_int8 rfl found) trivial
  · rw [same] at found ⊢
    exact inside_string_iff rfl found
  · rw [same] at found ⊢
    exact inside_string_iff rfl found

/-! ## The two sides -/

/-- What the handlers of ubusd and the functions of libubus decode lies in the
payload of its attribute if and only if it does where their tables have no
type, no lookup is for an empty string, and no string has a length field that
does not cover its header. -/
theorem decodesInside_iff (bus : Ubusd.Bus) (cl : Ubusd.Ptr)
    (ub : Ubusd.BusRequest) (type : UbusMsgType)
    (objects : UInt32 → Option Libubus.Receiver)
    (buf : Libubus.UbusMsghdrBuf) (parser : Libubus.Parser) :
    (DecodesInside ub.mem ub.attr (bus.decodings cl ub type) ↔
      EachDecoded ub.attr (bus.decodings cl ub type)
        (Ubusd.Covered ub.mem)) ∧
    (DecodesInside buf.mem buf.attrbuf
        (Libubus.decodings objects buf parser) ↔
      EachDecoded buf.attrbuf (Libubus.decodings objects buf parser)
        (Libubus.Covered buf.mem)) := by
  refine ⟨⟨fun inside => ?_, fun covered => ?_⟩, ?_⟩
  · intro site member attr found
    rcases Ubusd.Bus.mem_decodings member with known | ⟨isLast, string⟩
    · exact (Ubusd.inside_iff_covered known found).mp
        (inside site member attr found)
    · rw [isLast] at member found ⊢
      exact (within_lastChar (inside _ string attr found)
        (Nat.succ_pos _)).mp (inside _ member attr found)
  · intro site member attr found
    rcases Ubusd.Bus.mem_decodings member with known | ⟨isLast, string⟩
    · exact (Ubusd.inside_iff_covered known found).mpr
        (covered site member attr found)
    · rw [isLast] at member found ⊢
      have inside := (inside_string_iff rfl found).mpr
        (covered _ string attr found)
      exact (within_lastChar inside (Nat.succ_pos _)).mpr
        (covered _ member attr found)
  · apply forall_congr'
    intro site
    apply forall_congr'
    intro member
    apply forall_congr'
    intro attr
    exact forall_congr' fun found =>
      Libubus.inside_iff_covered (Libubus.mem_decodings member) found

/-- Behind the empty `NO_REPLY` at the end of this message nothing is left for
`blob_get_int8`. -/
theorem noReply_outside :
    let ub : Ubusd.BusRequest :=
      ⟨⟨0, UbusMsgType.notify.code, 0, 0⟩,
        [0, 0, 0, 24, 4, 0, 0, 6, 0x6d, 0, 0, 0, 3, 0, 0, 8, 0, 0, 0, 1,
          10, 0, 0, 4]⟩
    blobForEachAttrRem ub.mem 0 = 0 ∧
      ¬ DecodesInside ub.mem ub.attr (Ubusd.ubusd.init.decodings 0 ub .notify) := by
  refine ⟨by decide +kernel, fun inside => ?_⟩
  have beyond := inside (.noReply, .u8) (by decide +kernel) 20
    (by decide +kernel) 24 rfl
  exact absurd beyond.2 (by decide)

end LibubusJni
