import LibubusJni.Libubox.JsonText
import Mathlib.Data.List.TakeWhile

/-!
# How JSON is stored

A value becomes a field: strings and keys are cut at their first zero, numbers
are saturated, the entries of arrays have no names.  What
`blobmsg_add_object` appends to a buffer is an encoding of these fields, if it
does not give up at a number that is not an integer.
-/

namespace LibubusJni.Libubox

open LibubusJni Lib

mutual

/-- The field of a value. -/
def storedValue (name : List UInt8) : JsonValue → BlobmsgFields
  | .object members => .nested name false (storedMembers members) .nil
  | .array items => .nested name true (storedItems items) .nil
  | .string text => .scalar name (.string (cString text 0)) .nil
  | .boolean val => .scalar name (.int8 (if val then 1 else 0)) .nil
  | .int val =>
      .scalar name (.int32 (UInt32.ofInt (jsonObjectGetInt val))) .nil
  | .null => .scalar name .null .nil
  | .double _ => .nil

/-- The entries of an array. -/
def storedItems : JsonItems → BlobmsgFields
  | .nil => .nil
  | .cons item tail => (storedValue [] item).append (storedItems tail)

/-- The members of an object. -/
def storedMembers : JsonMembers → BlobmsgFields
  | .nil => .nil
  | .cons key value tail =>
      (storedValue (cString key 0) value).append (storedMembers tail)

end

theorem zero_notMem_cString (text : List UInt8) :
    (0 : UInt8) ∉ cString text 0 := by
  intro member
  have kept := List.mem_takeWhile_imp member
  exact absurd kept (by decide)

theorem zeroless_append
    {first second : BlobmsgFields} (clean : first.Zeroless)
    (also : second.Zeroless) : (first.append second).Zeroless := by
  induction first with
  | nil =>
      exact also
  | scalar name value rest inductionHypothesis =>
      exact ⟨clean.1, clean.2.1, inductionHypothesis clean.2.2⟩
  | nested name array inner rest _ inductionHypothesis =>
      exact ⟨clean.1, clean.2.1, inductionHypothesis clean.2.2⟩

mutual

theorem zeroless_storedValue
    {name : List UInt8} (clean : (0 : UInt8) ∉ name) :
    ∀ value, (storedValue name value).Zeroless
  | .object members => ⟨clean, zeroless_storedMembers members, True.intro⟩
  | .array items => ⟨clean, zeroless_storedItems items, True.intro⟩
  | .string text =>
      ⟨clean, fun other same => by
        rw [← BlobmsgScalar.string.inj same]
        exact zero_notMem_cString text, True.intro⟩
  | .boolean _ => ⟨clean, (fun _ same => nomatch same), True.intro⟩
  | .int _ => ⟨clean, (fun _ same => nomatch same), True.intro⟩
  | .null => ⟨clean, (fun _ same => nomatch same), True.intro⟩
  | .double _ => True.intro

theorem zeroless_storedItems : ∀ items, (storedItems items).Zeroless
  | .nil => True.intro
  | .cons item tail =>
      zeroless_append (zeroless_storedValue List.not_mem_nil item)
        (zeroless_storedItems tail)

theorem zeroless_storedMembers : ∀ members, (storedMembers members).Zeroless
  | .nil => True.intro
  | .cons key value tail =>
      zeroless_append (zeroless_storedValue (zero_notMem_cString key) value)
        (zeroless_storedMembers tail)

end

/-! ## What is appended -/

/-- Fields are appended in an encoding. -/
def Stores (buf new : BlobBuf) (fields : BlobmsgFields) : Prop :=
  ∃ bytes, fields.Encodes bytes ∧ Appended buf new bytes

theorem Stores.trans
    {buf middle new : BlobBuf} {first second : BlobmsgFields}
    (ready : buf.Ready) (start : Stores buf middle first)
    (finish : Stores middle new second) :
    Stores buf new (first.append second) := by
  obtain ⟨bytes, encodes, appended⟩ := start
  obtain ⟨others, also, behind⟩ := finish
  exact ⟨bytes ++ others, encodes.append also,
    appended.trans ready.four behind⟩

/-- The buffer stays ready, and longer by what was stored. -/
theorem Stores.ready
    {buf new : BlobBuf} {fields : BlobmsgFields} (before : buf.Ready)
    (stores : Stores buf new fields) :
    new.Ready ∧
      rawAt new.mem new.head =
        rawAt buf.mem buf.head + fields.encode.length := by
  obtain ⟨bytes, encodes, appended⟩ := stores
  have length := encodes.length
  refine ⟨appended.ready before (by rw [length, fields.length_encode]), ?_⟩
  rw [appended.head, appended.length, length]

theorem addScalar_stores
    {buf : BlobBuf} (ready : buf.Ready) (name : List UInt8)
    (value : BlobmsgScalar)
    (small : rawAt buf.mem buf.head +
      (BlobmsgFields.scalar name value .nil).encode.length < 16777216) :
    Stores buf (BlobmsgPlan.addScalar buf name value)
      (.scalar name value .nil) := by
  rw [BlobmsgFields.encode, BlobmsgFields.encode, List.append_nil] at small
  obtain ⟨bytes, isField, appended⟩ :=
    BlobBuf.blobmsgAddField_encodes ready value.type.id name value.data small
  rw [BlobmsgPlan.addScalar_eq]
  exact ⟨bytes, ⟨bytes, [], (List.append_nil bytes).symm, isField, rfl⟩,
    appended⟩

theorem nested_stores
    {buf child : BlobBuf} (ready : buf.Ready) (name : List UInt8)
    (array : Bool) {inner : BlobmsgFields}
    (small : rawAt buf.mem buf.head +
      (BlobmsgFields.nested name array inner .nil).encode.length < 16777216)
    (filled : Stores (buf.blobmsgOpenNested name array).2 child inner) :
    Stores buf (child.blobNestEnd buf.head)
      (.nested name array inner .nil) := by
  obtain ⟨bytes, encodes, appended⟩ := filled
  have length := encodes.length
  rw [BlobmsgFields.encode, BlobmsgFields.encode, List.append_nil,
    BlobBuf.length_blobmsgAddField, ← length] at small
  obtain ⟨field, isField, grown⟩ :=
    BlobBuf.blobNestEnd_encodes ready name array
      (by rw [length, inner.length_encode])
      (by rw [BlobBuf.length_blobmsgAddField]; exact small) appended
  exact ⟨field, ⟨bytes, field, [], (List.append_nil field).symm, encodes,
    isField, rfl⟩, grown⟩

/-- Room for the entries of a container. -/
theorem opened_room
    {buf : BlobBuf} (ready : buf.Ready) (name : List UInt8) (array : Bool)
    {inner : BlobmsgFields}
    (small : rawAt buf.mem buf.head +
      (BlobmsgFields.nested name array inner .nil).encode.length <
        16777216) :
    (buf.blobmsgOpenNested name array).2.Ready ∧
      rawAt (buf.blobmsgOpenNested name array).2.mem
          (buf.blobmsgOpenNested name array).2.head +
        inner.encode.length < 16777216 := by
  rw [BlobmsgFields.encode, BlobmsgFields.encode, List.append_nil,
    BlobBuf.length_blobmsgAddField] at small
  obtain ⟨head, openedReady, length, _⟩ :=
    @BlobBuf.blobmsgOpenNested_opened buf ready name array (by omega)
  refine ⟨openedReady, ?_⟩
  rw [head, length]
  omega

mutual

/-- `blobmsg_add_json_element` stores the field of the value. -/
theorem blobmsgAddJsonElement_stores
    {buf new : BlobBuf} {name : List UInt8} (ready : buf.Ready) :
    ∀ value, blobmsgAddJsonElement buf name value = (true, new) →
      rawAt buf.mem buf.head + (storedValue name value).encode.length <
        16777216 →
      Stores buf new (storedValue name value)
  | .object members, added, small => by
      rw [blobmsgAddJsonElement] at added
      rw [storedValue] at small ⊢
      obtain ⟨openedReady, room⟩ := opened_room ready name false small
      have ret : (blobmsgAddObject
          (buf.blobmsgOpenNested name false).2 members).1 = true :=
        congrArg Prod.fst added
      have isNew : (blobmsgAddObject
          (buf.blobmsgOpenNested name false).2 members).2.blobNestEnd
            buf.head = new := congrArg Prod.snd added
      rw [← isNew]
      exact nested_stores ready name false small
        (blobmsgAddObject_stores openedReady members (Prod.ext ret rfl) room)
  | .array items, added, small => by
      rw [blobmsgAddJsonElement] at added
      rw [storedValue] at small ⊢
      obtain ⟨openedReady, room⟩ := opened_room ready name true small
      have ret : (blobmsgAddArray
          (buf.blobmsgOpenNested name true).2 items).1 = true :=
        congrArg Prod.fst added
      have isNew : (blobmsgAddArray
          (buf.blobmsgOpenNested name true).2 items).2.blobNestEnd
            buf.head = new := congrArg Prod.snd added
      rw [← isNew]
      exact nested_stores ready name true small
        (blobmsgAddArray_stores openedReady items (Prod.ext ret rfl) room)
  | .string text, added, small => by
      rw [blobmsgAddJsonElement] at added
      have isNew : buf.blobmsgAddString name (cString text 0) = new :=
        congrArg Prod.snd added
      rw [← isNew]
      exact addScalar_stores ready name (.string (cString text 0)) small
  | .boolean val, added, small => by
      rw [blobmsgAddJsonElement] at added
      have isNew : buf.blobmsgAddU8 name (if val then 1 else 0) = new :=
        congrArg Prod.snd added
      rw [← isNew]
      exact addScalar_stores ready name (.int8 (if val then 1 else 0)) small
  | .int val, added, small => by
      rw [blobmsgAddJsonElement] at added
      have isNew : buf.blobmsgAddU32 name
          (UInt32.ofInt (jsonObjectGetInt val)) = new :=
        congrArg Prod.snd added
      rw [← isNew]
      exact addScalar_stores ready name
        (.int32 (UInt32.ofInt (jsonObjectGetInt val))) small
  | .null, added, small => by
      rw [blobmsgAddJsonElement] at added
      have isNew : buf.blobmsgAddNull name = new :=
        congrArg Prod.snd added
      rw [← isNew]
      exact addScalar_stores ready name .null small
  | .double _, added, _ => by
      rw [blobmsgAddJsonElement] at added
      exact nomatch (congrArg Prod.fst added)

theorem blobmsgAddArray_stores
    {buf new : BlobBuf} (ready : buf.Ready) :
    ∀ items, blobmsgAddArray buf items = (true, new) →
      rawAt buf.mem buf.head + (storedItems items).encode.length <
        16777216 →
      Stores buf new (storedItems items)
  | .nil, added, _ => by
      rw [blobmsgAddArray] at added
      have isNew : buf = new := congrArg Prod.snd added
      rw [← isNew, storedItems]
      exact ⟨[], rfl, Appended.refl ready.inside⟩
  | .cons item tail, added, small => by
      rw [blobmsgAddArray] at added
      rw [storedItems, BlobmsgFields.encode_append, List.length_append] at small
      cases first : blobmsgAddJsonElement buf [] item with
      | mk ret middle =>
          rw [first] at added
          cases ret with
          | false =>
              exact nomatch (congrArg Prod.fst added)
          | true =>
              have stores :=
                blobmsgAddJsonElement_stores ready item first (by omega)
              obtain ⟨middleReady, length⟩ := stores.ready ready
              exact stores.trans ready
                (blobmsgAddArray_stores middleReady tail added (by omega))

theorem blobmsgAddObject_stores
    {buf new : BlobBuf} (ready : buf.Ready) :
    ∀ members, blobmsgAddObject buf members = (true, new) →
      rawAt buf.mem buf.head + (storedMembers members).encode.length <
        16777216 →
      Stores buf new (storedMembers members)
  | .nil, added, _ => by
      rw [blobmsgAddObject] at added
      have isNew : buf = new := congrArg Prod.snd added
      rw [← isNew, storedMembers]
      exact ⟨[], rfl, Appended.refl ready.inside⟩
  | .cons key value tail, added, small => by
      rw [blobmsgAddObject] at added
      rw [storedMembers, BlobmsgFields.encode_append,
        List.length_append] at small
      cases first : blobmsgAddJsonElement buf (cString key 0) value with
      | mk ret middle =>
          rw [first] at added
          cases ret with
          | false =>
              exact nomatch (congrArg Prod.fst added)
          | true =>
              have stores :=
                blobmsgAddJsonElement_stores ready value first (by omega)
              obtain ⟨middleReady, length⟩ := stores.ready ready
              exact stores.trans ready
                (blobmsgAddObject_stores middleReady tail added (by omega))

end

/-! ## What is refused -/

mutual

/-- There is no number in the value but integers. -/
def JsonValue.integral : JsonValue → Bool
  | .object members => JsonMembers.integral members
  | .array items => JsonItems.integral items
  | .double _ => false
  | _ => true

def JsonItems.integral : JsonItems → Bool
  | .nil => true
  | .cons item tail => JsonValue.integral item && JsonItems.integral tail

def JsonMembers.integral : JsonMembers → Bool
  | .nil => true
  | .cons _ value tail =>
      JsonValue.integral value && JsonMembers.integral tail

end

mutual

theorem fst_blobmsgAddJsonElement (buf : BlobBuf) (name : List UInt8) :
    ∀ value, (blobmsgAddJsonElement buf name value).1 =
      JsonValue.integral value
  | .object members => by
      rw [blobmsgAddJsonElement, JsonValue.integral]
      exact fst_blobmsgAddObject _ members
  | .array items => by
      rw [blobmsgAddJsonElement, JsonValue.integral]
      exact fst_blobmsgAddArray _ items
  | .string _ => rfl
  | .boolean _ => rfl
  | .int _ => rfl
  | .null => rfl
  | .double _ => rfl

theorem fst_blobmsgAddArray (buf : BlobBuf) :
    ∀ items, (blobmsgAddArray buf items).1 = JsonItems.integral items
  | .nil => rfl
  | .cons item tail => by
      have first := fst_blobmsgAddJsonElement buf [] item
      cases result : blobmsgAddJsonElement buf [] item with
      | mk ret added =>
          rw [result] at first
          rw [blobmsgAddArray, JsonItems.integral, ← first, result]
          cases ret with
          | false =>
              rfl
          | true =>
              exact fst_blobmsgAddArray added tail

theorem fst_blobmsgAddObject (buf : BlobBuf) :
    ∀ members, (blobmsgAddObject buf members).1 = JsonMembers.integral members
  | .nil => rfl
  | .cons key value tail => by
      have first := fst_blobmsgAddJsonElement buf (cString key 0) value
      cases result : blobmsgAddJsonElement buf (cString key 0) value with
      | mk ret added =>
          rw [result] at first
          rw [blobmsgAddObject, JsonMembers.integral, ← first, result]
          cases ret with
          | false =>
              rfl
          | true =>
              exact fst_blobmsgAddObject added tail

end

end LibubusJni.Libubox
