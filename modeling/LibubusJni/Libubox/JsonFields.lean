import LibubusJni.Libubox.ParseFields

/-!
# `blobmsg_parse` of JSON

What is read into a buffer of zeros has zeros behind it, for nothing is written
behind the last attribute but padding.  So all that `blobmsg_parse` can meet in
such a buffer is known from the members of the object.
-/

namespace LibubusJni.Libubox

open LibubusJni Lib

/-! ## Stored fields -/

theorem ofJson_append {first second : BlobmsgFields} (ofJson : first.OfJson)
    (also : second.OfJson) : (first.append second).OfJson := by
  induction first with
  | nil =>
      exact also
  | scalar name value rest inductionHypothesis =>
      exact ⟨ofJson.1, inductionHypothesis ofJson.2⟩
  | nested name isArray inner rest _ inductionHypothesis =>
      exact ⟨ofJson.1, ofJson.2.1, inductionHypothesis ofJson.2.2⟩

theorem entries_storedValue (name : List UInt8) (value : JsonValue) :
    ∀ field ∈ (storedValue name value).entries, field.1 = name := by
  intro field member
  cases value with
  | double literal =>
      exact absurd member List.not_mem_nil
  | _ =>
      rw [List.mem_singleton.mp member]

/-- The entries of an array have no names. -/
theorem nameless_storedItems :
    ∀ items, ∀ field ∈ (storedItems items).entries, field.1 = []
  | .nil, _, member => absurd member List.not_mem_nil
  | .cons item tail, field, member => by
      rw [storedItems, BlobmsgFields.entries_append] at member
      rcases List.mem_append.mp member with first | later
      · exact entries_storedValue [] item field first
      · exact nameless_storedItems tail field later

mutual

theorem ofJson_storedValue (name : List UInt8) :
    ∀ value, (storedValue name value).OfJson
  | .object members => ⟨(nomatch ·), ofJson_storedMembers members, True.intro⟩
  | .array items =>
      ⟨fun _ => nameless_storedItems items, ofJson_storedItems items,
        True.intro⟩
  | .string _ => ⟨nofun, True.intro⟩
  | .boolean _ => ⟨nofun, True.intro⟩
  | .int _ => ⟨nofun, True.intro⟩
  | .null => ⟨nofun, True.intro⟩
  | .double _ => True.intro

theorem ofJson_storedItems : ∀ items, (storedItems items).OfJson
  | .nil => True.intro
  | .cons item tail =>
      ofJson_append (ofJson_storedValue [] item) (ofJson_storedItems tail)

theorem ofJson_storedMembers : ∀ members, (storedMembers members).OfJson
  | .nil => True.intro
  | .cons key value tail =>
      ofJson_append (ofJson_storedValue (cString key 0) value)
        (ofJson_storedMembers tail)

end

/-! ## Zeros behind the buffer -/

/-- There are zeros from an address on. -/
def BlankFrom (mem : Memory) (stop : Nat) : Prop :=
  ∀ addr, stop ≤ addr → mem addr = 0

section Blank

variable {mem : Memory} {stop : Nat} (blank : BlankFrom mem stop)

include blank

theorem BlankFrom.store {pos : Nat} {bytes : List UInt8}
    (before : pos + bytes.length ≤ stop) :
    BlankFrom (store mem pos bytes) stop := by
  intro addr behind
  rw [store_of_ge (by omega)]
  exact blank addr behind

theorem BlankFrom.clear (pos len : Nat) : BlankFrom (clear mem pos len) stop := by
  intro addr behind
  by_cases inside : pos ≤ addr ∧ addr < pos + len
  · exact clear_at inside.1 inside.2
  · rw [Libubox.clear, Libubox.store, if_neg (by rwa [List.length_replicate])]
    exact blank addr behind

theorem BlankFrom.blobSetRawLen {attr : Nat} {len : UInt32}
    (before : attr + 4 ≤ stop) :
    BlankFrom (BlobBuf.blobSetRawLen mem attr len) stop :=
  blank.store before

end Blank

section Buffer

variable {buf : BlobBuf} {stop : Nat} (blank : BlankFrom buf.mem stop)

include blank

theorem BlankFrom.blobAdd {pos : Nat} (id payload : Nat)
    (before : pos + 4 ≤ stop) :
    BlankFrom (buf.blobAdd pos id payload).mem stop := by
  have grown : BlankFrom (buf.growTo (pos + 4 + payload)).mem stop := by
    rw [BlobBuf.growTo]
    split
    · exact blank.clear _ _
    · exact blank
  exact (grown.store before).clear _ _

variable (head : buf.head + 4 ≤ stop)

include head

theorem BlankFrom.blobNew {id payload : Nat} (before : buf.nextAttr + 4 ≤ stop) :
    BlankFrom (buf.blobNew id payload).mem stop := by
  rw [BlobBuf.mem_blobNew]
  exact (blank.blobAdd id payload before).blobSetRawLen head

theorem BlankFrom.blobmsgNew {type payloadLen : Nat} {name : List UInt8}
    (before : buf.nextAttr + 4 + blobmsgHdrlen name.length ≤ stop) :
    BlankFrom (buf.blobmsgNew type name payloadLen).2.mem stop := by
  have hdrlen := BlobBuf.le_blobmsgHdrlen name.length
  have new := @BlankFrom.blobNew buf stop blank head type
    (blobmsgHdrlen name.length + payloadLen) (by omega)
  rw [BlobBuf.blobmsgNew_eq]
  apply BlankFrom.clear
  rw [BlobBuf.named]
  apply BlankFrom.store
  · apply BlankFrom.store
    · exact new.store (show buf.nextAttr + 4 ≤ stop by omega)
    · show buf.nextAttr + 4 + 2 ≤ stop
      omega
  · rw [List.length_append, List.length_singleton]
    omega

theorem BlankFrom.blobmsgAddField {type : Nat} {name data : List UInt8}
    (before : buf.nextAttr + 4 + blobmsgHdrlen name.length + data.length ≤
      stop) :
    BlankFrom (buf.blobmsgAddField type name data).mem stop := by
  have hdrlen := BlobBuf.le_blobmsgHdrlen name.length
  have lessHdrlen := BlobBuf.le_blobmsgHdrlen (name.length % 65536)
  have less := Nat.mod_le name.length 65536
  rw [BlobBuf.mem_blobmsgAddField]
  apply (blank.blobmsgNew head (by omega)).store
  rw [BlobBuf.blobmsgNew_eq]
  show buf.nextAttr + 4 + blobmsgHdrlen (name.length % 65536) + data.length ≤
    stop
  rw [blobmsgHdrlen] at *
  omega

theorem BlankFrom.blobmsgOpenNested {name : List UInt8} {isArray : Bool}
    (before : buf.nextAttr + 4 + blobmsgHdrlen name.length ≤ stop) :
    BlankFrom (buf.blobmsgOpenNested name isArray).2.mem stop := by
  apply (blank.blobmsgNew head before).blobSetRawLen
  rw [BlobBuf.head_blobmsgNew]
  exact head

end Buffer

section Containers

variable {buf : BlobBuf} {name : List UInt8} {stop : Nat}

theorem blank_scalar (ready : buf.Ready) (value : BlobmsgScalar)
    (blank : BlankFrom buf.mem stop)
    (room : buf.head + rawAt buf.mem buf.head +
      (BlobmsgFields.scalar name value .nil).encode.length ≤ stop) :
    BlankFrom (buf.blobmsgAddField value.type.id name value.data).mem stop := by
  obtain ⟨next, _⟩ := ready.nextAttr
  have four := ready.four
  rw [BlobmsgFields.encode, BlobmsgFields.encode, List.append_nil,
    BlobBuf.length_blobmsgAddField] at room
  exact blank.blobmsgAddField (by omega) (by omega)

/-- The first part of a container, up to its contents. -/
theorem blank_opened (ready : buf.Ready) (isArray : Bool)
    {inner : BlobmsgFields} (blank : BlankFrom buf.mem stop)
    (small : rawAt buf.mem buf.head +
      (BlobmsgFields.nested name isArray inner .nil).encode.length < 16777216)
    (room : buf.head + rawAt buf.mem buf.head +
      (BlobmsgFields.nested name isArray inner .nil).encode.length ≤ stop) :
    BlankFrom (buf.blobmsgOpenNested name isArray).2.mem stop ∧
      (buf.blobmsgOpenNested name isArray).2.head +
          rawAt (buf.blobmsgOpenNested name isArray).2.mem
            (buf.blobmsgOpenNested name isArray).2.head +
        inner.encode.length ≤ stop ∧ buf.head + 4 ≤ stop := by
  obtain ⟨next, _⟩ := ready.nextAttr
  have four := ready.four
  rw [BlobmsgFields.encode, BlobmsgFields.encode, List.append_nil,
    BlobBuf.length_blobmsgAddField] at small room
  obtain ⟨head, _, length, _⟩ :=
    @BlobBuf.blobmsgOpenNested_opened buf ready name isArray (by omega)
  refine ⟨blank.blobmsgOpenNested (by omega) (by omega), ?_, by omega⟩
  rw [head, length]
  omega

end Containers

mutual

/-- Behind what a value needs nothing is written. -/
theorem blank_addJsonElement {buf new : BlobBuf} {name : List UInt8}
    {stop : Nat} (ready : buf.Ready) :
    ∀ value, blobmsgAddJsonElement buf name value = (true, new) →
      BlankFrom buf.mem stop →
      rawAt buf.mem buf.head + (storedValue name value).encode.length <
        16777216 →
      buf.head + rawAt buf.mem buf.head +
        (storedValue name value).encode.length ≤ stop →
      BlankFrom new.mem stop
  | .object members, added, blank, small, room => by
      rw [blobmsgAddJsonElement] at added
      rw [storedValue] at small room
      obtain ⟨openedReady, openedSmall⟩ := opened_room ready name false small
      obtain ⟨opened, openedRoom, head⟩ :=
        blank_opened ready false blank small room
      have ret : (blobmsgAddObject
          (buf.blobmsgOpenNested name false).2 members).1 = true :=
        congrArg Prod.fst added
      have isNew : (blobmsgAddObject
          (buf.blobmsgOpenNested name false).2 members).2.blobNestEnd
            buf.head = new := congrArg Prod.snd added
      rw [← isNew]
      exact (blank_addObject openedReady members (Prod.ext ret rfl) opened
        openedSmall openedRoom).blobSetRawLen head
  | .array items, added, blank, small, room => by
      rw [blobmsgAddJsonElement] at added
      rw [storedValue] at small room
      obtain ⟨openedReady, openedSmall⟩ := opened_room ready name true small
      obtain ⟨opened, openedRoom, head⟩ :=
        blank_opened ready true blank small room
      have ret : (blobmsgAddArray
          (buf.blobmsgOpenNested name true).2 items).1 = true :=
        congrArg Prod.fst added
      have isNew : (blobmsgAddArray
          (buf.blobmsgOpenNested name true).2 items).2.blobNestEnd
            buf.head = new := congrArg Prod.snd added
      rw [← isNew]
      exact (blank_addArray openedReady items (Prod.ext ret rfl) opened
        openedSmall openedRoom).blobSetRawLen head
  | .string text, added, blank, _, room => by
      rw [blobmsgAddJsonElement] at added
      rw [← show _ = new from congrArg Prod.snd added]
      exact blank_scalar ready (.string (cString text 0)) blank room
  | .boolean val, added, blank, _, room => by
      rw [blobmsgAddJsonElement] at added
      rw [← show _ = new from congrArg Prod.snd added]
      exact blank_scalar ready (.int8 (if val then 1 else 0)) blank room
  | .int val, added, blank, _, room => by
      rw [blobmsgAddJsonElement] at added
      rw [← show _ = new from congrArg Prod.snd added]
      exact blank_scalar ready
        (.int32 (UInt32.ofInt (jsonObjectGetInt val))) blank room
  | .null, added, blank, _, room => by
      rw [blobmsgAddJsonElement] at added
      rw [← show _ = new from congrArg Prod.snd added]
      exact blank_scalar ready .null blank room
  | .double _, added, _, _, _ => by
      rw [blobmsgAddJsonElement] at added
      exact nomatch (congrArg Prod.fst added)

theorem blank_addArray {buf new : BlobBuf} {stop : Nat} (ready : buf.Ready) :
    ∀ items, blobmsgAddArray buf items = (true, new) →
      BlankFrom buf.mem stop →
      rawAt buf.mem buf.head + (storedItems items).encode.length < 16777216 →
      buf.head + rawAt buf.mem buf.head +
        (storedItems items).encode.length ≤ stop →
      BlankFrom new.mem stop
  | .nil, added, blank, _, _ => by
      rw [blobmsgAddArray] at added
      rw [← show buf = new from congrArg Prod.snd added]
      exact blank
  | .cons item tail, added, blank, small, room => by
      rw [blobmsgAddArray] at added
      rw [storedItems, BlobmsgFields.encode_append,
        List.length_append] at small room
      cases first : blobmsgAddJsonElement buf [] item with
      | mk ret middle =>
          rw [first] at added
          cases ret with
          | false =>
              exact nomatch (congrArg Prod.fst added)
          | true =>
              have stores :=
                blobmsgAddJsonElement_stores ready item first (by omega)
              obtain ⟨middleReady, length⟩ := stores.ready ready
              obtain ⟨_, _, appended⟩ := stores
              have head := appended.head
              exact blank_addArray middleReady tail added
                (blank_addJsonElement ready item first blank (by omega)
                  (by omega)) (by omega) (by omega)

theorem blank_addObject {buf new : BlobBuf} {stop : Nat} (ready : buf.Ready) :
    ∀ members, blobmsgAddObject buf members = (true, new) →
      BlankFrom buf.mem stop →
      rawAt buf.mem buf.head + (storedMembers members).encode.length <
        16777216 →
      buf.head + rawAt buf.mem buf.head +
        (storedMembers members).encode.length ≤ stop →
      BlankFrom new.mem stop
  | .nil, added, blank, _, _ => by
      rw [blobmsgAddObject] at added
      rw [← show buf = new from congrArg Prod.snd added]
      exact blank
  | .cons key value tail, added, blank, small, room => by
      rw [blobmsgAddObject] at added
      rw [storedMembers, BlobmsgFields.encode_append,
        List.length_append] at small room
      cases first : blobmsgAddJsonElement buf (cString key 0) value with
      | mk ret middle =>
          rw [first] at added
          cases ret with
          | false =>
              exact nomatch (congrArg Prod.fst added)
          | true =>
              have stores :=
                blobmsgAddJsonElement_stores ready value first (by omega)
              obtain ⟨middleReady, length⟩ := stores.ready ready
              obtain ⟨_, _, appended⟩ := stores
              have head := appended.head
              exact blank_addObject middleReady tail added
                (blank_addJsonElement ready value first blank (by omega)
                  (by omega)) (by omega) (by omega)

end

/-! ## An object in a buffer of zeros -/

/-- The attributes of an object that is read into a buffer of zeros, and the
length of what is read. -/
theorem walk_object {id : Nat} {members : JsonMembers} {built : BlobBuf}
    (added : blobmsgAddObject (BlobBuf.fresh.blobBufInit id) members =
      (true, built))
    (small : 4 + (storedMembers members).encode.length < 16777216) :
    List.Forall₂ (FieldAt built.mem)
      (parsedAttrs built.mem (built.head + 4)
        (blobLen (attrAt built.mem built.head)))
      (storedMembers members).entries := by
  obtain ⟨ready, head, length, _⟩ := blobBufInit_ready BlobBuf.fresh id
  have started : BlankFrom (BlobBuf.fresh.blobBufInit id).mem 4 := by
    have zeros : BlankFrom BlobBuf.fresh.mem 4 := fun _ _ => rfl
    exact zeros.blobAdd id 0 (Nat.le_refl 4)
  have blank := @blank_addObject _ built
    (4 + (storedMembers members).encode.length) ready members added
    (fun addr behind => started addr (by omega))
    (by rw [head, length]; exact small) (by rw [head, length, Nat.zero_add])
  obtain ⟨bytes, encodes, appended⟩ :=
    blobmsgAddObject_stores ready members added (by
      rw [head, length]
      exact small)
  have bytesLength := encodes.length
  obtain ⟨builtHead, holds, inside, _⟩ :=
    blobmsgForEachAttr_message appended (by omega)
  have builtLength := appended.length
  rw [head, length] at builtLength
  have len : (blobLen (attrAt built.mem 0)).toNat = bytes.length := by
    have four : 4 ≤ (blobRawLen (attrAt built.mem 0)).toNat := by
      rw [← rawAt]
      omega
    rw [toNat_blobLen four, ← rawAt, builtLength]
    omega
  rw [builtHead, parsedAttrs, len, Nat.zero_add]
  apply walk_fields _ holds encodes (zeroless_storedMembers members)
    (ofJson_storedMembers members) (by omega) (Nat.le_refl _)
  intro _
  exact blank _ (by omega)

end LibubusJni.Libubox
