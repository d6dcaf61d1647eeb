import LibubusJni.Libubox.JsonReading

/-!
# From JSON to JSON

A text goes into a table and comes out as a text.  The second denotes what the
first did exactly if every number fits 32 bits, no string holds a zero, and the
names in objects are neither empty nor longer than their length field can say.
-/

namespace LibubusJni.Libubox

open LibubusJni Lib

mutual

/-- The value can be carried by blobmsg and printed by `blobmsg_format_json`. -/
def JsonValue.Representable : JsonValue → Prop
  | .int val => -2147483648 ≤ val ∧ val ≤ 2147483647
  | .string text => (0 : UInt8) ∉ text
  | .array items => JsonItems.Representable items
  | .object members => JsonMembers.Representable members
  | _ => True

def JsonItems.Representable : JsonItems → Prop
  | .nil => True
  | .cons item tail =>
      JsonValue.Representable item ∧ JsonItems.Representable tail

def JsonMembers.Representable : JsonMembers → Prop
  | .nil => True
  | .cons key value tail =>
      key ≠ [] ∧ key.length < 65536 ∧ (0 : UInt8) ∉ key ∧
        JsonValue.Representable value ∧ JsonMembers.Representable tail

end

/-- What a value is read as when it was stored and printed. -/
def readBack : JsonValue → Option JsonValue
  | .object members => contents false (storedMembers members)
  | .array items => contents true (storedItems items)
  | .string text => some (.string (cString text 0))
  | .boolean val => some (.boolean val)
  | .int val => some (.int (jsonObjectGetInt val))
  | .null => some .null
  | .double _ => none

/-! ## Fields and values -/

theorem toInt_jsonObjectGetInt (val : Int) :
    (UInt32.ofInt (jsonObjectGetInt val)).toInt32.toInt =
      jsonObjectGetInt val := by
  have lower : -2147483648 ≤ jsonObjectGetInt val := Int.le_max_left _ _
  have upper : jsonObjectGetInt val ≤ 2147483647 := by
    rw [jsonObjectGetInt]
    omega
  generalize jsonObjectGetInt val = number at lower upper
  have bits : (UInt32.ofInt number).toInt32.toInt =
      (BitVec.ofNat 32 (number % 2 ^ 32).toNat).toInt := rfl
  have positive : (((number % 2 ^ 32).toNat : Nat) : Int) = number % 2 ^ 32 :=
    Int.toNat_of_nonneg (Int.emod_nonneg _ (by decide))
  rw [bits, BitVec.toInt_ofNat', positive]
  exact (Int.emod_bmod number (2 ^ 32)).trans
    (Int.bmod_eq_of_le (by omega) (by omega))

/-- A number is read as it was if it fits 32 bits. -/
theorem jsonObjectGetInt_eq_self {val : Int} :
    jsonObjectGetInt val = val ↔ -2147483648 ≤ val ∧ val ≤ 2147483647 := by
  rw [jsonObjectGetInt]
  omega

theorem cString_eq_self {text : List UInt8} :
    cString text 0 = text ↔ (0 : UInt8) ∉ text := by
  rw [cString, List.drop_zero]
  constructor
  · intro same member
    rw [← same] at member
    exact zero_notMem_cString text member
  · intro clean
    exact List.takeWhile_eq_self_iff.mpr fun byte member =>
      decide_eq_true fun isZero => clean (isZero ▸ member)

theorem back_storedValue
    (array : Bool) (name : List UInt8) (rest : BlobmsgFields) :
    ∀ {value}, JsonValue.integral value = true →
      back array ((storedValue name value).append rest) =
        if Lost array name then none
        else
          (readBack value).bind fun value =>
            (back array rest).map (.cons (entryKey array name) value)
  | .object members, _ => rfl
  | .array items, _ => rfl
  | .string text, _ => rfl
  | .boolean val, _ => by
      cases val <;> rfl
  | .int val, _ => by
      rw [storedValue, BlobmsgFields.append, back, scalarJson,
        toInt_jsonObjectGetInt]
      rfl
  | .null, _ => rfl
  | .double _, integral => nomatch integral

/-- The names that are read are those that were stored. -/
theorem keys_back :
    ∀ {members read}, JsonMembers.integral members = true →
      back false (storedMembers members) = some read →
      read.keys = members.keys.map fun key => cString key 0
  | .nil, read, _, reads => by
      rw [← Option.some.inj reads]
      rfl
  | .cons key value tail, read, integral, reads => by
      rw [JsonMembers.integral, Bool.and_eq_true] at integral
      rw [storedMembers, back_storedValue _ _ _ integral.1] at reads
      split at reads
      · exact nomatch reads
      · obtain ⟨first, _, others⟩ := Option.bind_eq_some_iff.mp reads
        obtain ⟨rest, tailReads, isRead⟩ := Option.map_eq_some_iff.mp others
        rw [← isRead, JsonMembers.keys, JsonMembers.keys, List.map_cons,
          keys_back integral.2 tailReads]
        rfl

/-- Entries of arrays have no names that could be lost. -/
theorem alone_storedItems :
    ∀ {items}, JsonItems.integral items = true →
      alone (storedItems items) = false
  | .nil, _ => rfl
  | .cons item tail, integral => by
      rw [JsonItems.integral, Bool.and_eq_true] at integral
      rw [storedItems]
      cases item with
      | double literal => exact nomatch integral.1
      | _ =>
          cases storedItems tail <;> rfl

/-- An object that has one member, whose name is not printed. -/
theorem representable_of_alone :
    ∀ {members}, JsonMembers.integral members = true →
      alone (storedMembers members) = true →
      members ≠ .nil ∧ ¬ JsonMembers.Representable members
  | .nil, _, single => nomatch single
  | .cons key value tail, integral, single => by
      rw [JsonMembers.integral, Bool.and_eq_true] at integral
      refine ⟨fun none => (nomatch none), fun representable => ?_⟩
      have short := representable.2.1
      have same := cString_eq_self.mpr representable.2.2.1
      rw [storedMembers, same] at single
      have long : 65536 ≤ key.length := by
        cases value with
        | double literal => exact nomatch integral.1
        | _ =>
            cases rest : storedMembers tail with
            | nil =>
                rw [rest] at single
                exact of_decide_eq_true single
            | scalar =>
                rw [rest] at single
                exact nomatch single
            | nested =>
                rw [rest] at single
                exact nomatch single
      omega

/-! ## What comes through -/

/-- An object whose names are distinct is read as it was if and only if its
members are. -/
theorem contents_object
    {members : JsonMembers} (integral : JsonMembers.integral members = true)
    (nodup : members.keys.Nodup)
    (each : back false (storedMembers members) = some members ↔
      JsonMembers.Representable members) :
    contents false (storedMembers members) = some (.object members) ↔
      JsonMembers.Representable members := by
  rw [contents]
  cases single : alone (storedMembers members) with
  | true =>
      obtain ⟨some', lost⟩ := representable_of_alone integral single
      rw [if_pos rfl]
      constructor
      · intro same
        have none := JsonValue.object.inj (Option.some.inj same)
        exact absurd none.symm some'
      · intro representable
        exact absurd representable lost
  | false =>
      rw [if_neg (by decide), ← each]
      constructor
      · intro reads
        obtain ⟨read, isRead, same⟩ := Option.map_eq_some_iff.mp reads
        have unique : read.unique = members := JsonValue.object.inj same
        have keys := keys_back integral isRead
        have cut : ∀ key ∈ members.keys, cString key 0 = key := by
          intro key member
          rw [← unique] at member
          have stored := JsonMembers.mem_keys_of_unique member
          rw [keys] at stored
          obtain ⟨other, _, isKey⟩ := List.mem_map.mp stored
          rw [← isKey]
          exact cString_eq_self.mpr (zero_notMem_cString other)
        have sameKeys : read.keys = members.keys := by
          rw [keys, List.map_congr_left cut, List.map_id']
        have isUnique := JsonMembers.unique_of_nodup
          (show read.keys.Nodup by rw [sameKeys]; exact nodup)
        rw [isRead, ← isUnique, unique]
      · intro reads
        rw [reads, Option.map_some]
        exact congrArg (fun members => some (JsonValue.object members))
          (JsonMembers.unique_of_nodup nodup)

mutual

/-- A value is read back as it was exactly if it is representable. -/
theorem readBack_eq_self :
    ∀ {value}, JsonValue.integral value = true → value.Distinct →
      (readBack value = some value ↔ JsonValue.Representable value)
  | .object members, integral, distinct =>
      contents_object integral distinct.1
        (back_storedMembers integral distinct.2)
  | .array items, integral, distinct => by
      have each := back_storedItems integral distinct
      rw [readBack, contents, alone_storedItems integral,
        if_neg (by decide), JsonValue.Representable, ← each]
      cases back true (storedItems items) with
      | none =>
          exact ⟨fun same => (nomatch same), fun same => (nomatch same)⟩
      | some read =>
          constructor
          · intro same
            exact congrArg some (JsonValue.array.inj (Option.some.inj same))
          · intro same
            exact congrArg (fun items => some (JsonValue.array items))
              (Option.some.inj same)
  | .string text, _, _ => by
      rw [readBack, Option.some.injEq, JsonValue.string.injEq]
      exact cString_eq_self
  | .boolean _, _, _ => ⟨fun _ => True.intro, fun _ => rfl⟩
  | .int val, _, _ => by
      rw [readBack, Option.some.injEq, JsonValue.int.injEq]
      exact jsonObjectGetInt_eq_self
  | .null, _, _ => ⟨fun _ => True.intro, fun _ => rfl⟩
  | .double _, integral, _ => nomatch integral

theorem back_storedItems :
    ∀ {items}, JsonItems.integral items = true → items.Distinct →
      ((back true (storedItems items)).map JsonMembers.items = some items ↔
        JsonItems.Representable items)
  | .nil, _, _ => ⟨fun _ => True.intro, fun _ => rfl⟩
  | .cons item tail, integral, distinct => by
      rw [JsonItems.integral, Bool.and_eq_true] at integral
      have first := readBack_eq_self integral.1 distinct.1
      have others := back_storedItems integral.2 distinct.2
      have kept : ¬ Lost true [] := by decide
      rw [storedItems, back_storedValue _ _ _ integral.1, if_neg kept,
        JsonItems.Representable, ← first, ← others]
      cases readBack item with
      | none =>
          exact ⟨fun same => (nomatch same), fun both => (nomatch both.1)⟩
      | some value =>
          cases back true (storedItems tail) with
          | none =>
              exact ⟨fun same => (nomatch same), fun both => (nomatch both.2)⟩
          | some read =>
              simp only [Option.bind_some, Option.map_some, JsonMembers.items,
                Option.some.injEq, JsonItems.cons.injEq]

theorem back_storedMembers :
    ∀ {members}, JsonMembers.integral members = true → members.Distinct →
      (back false (storedMembers members) = some members ↔
        JsonMembers.Representable members)
  | .nil, _, _ => ⟨fun _ => True.intro, fun _ => rfl⟩
  | .cons key value tail, integral, distinct => by
      rw [JsonMembers.integral, Bool.and_eq_true] at integral
      have first := readBack_eq_self integral.1 distinct.1
      have others := back_storedMembers integral.2 distinct.2
      rw [storedMembers, back_storedValue _ _ _ integral.1,
        JsonMembers.Representable, ← first, ← others, ← cString_eq_self]
      constructor
      · intro reads
        split at reads
        · exact nomatch reads
        · next kept =>
            obtain ⟨read, isRead, rest⟩ := Option.bind_eq_some_iff.mp reads
            obtain ⟨behind, isBehind, same⟩ := Option.map_eq_some_iff.mp rest
            obtain ⟨isKey, isValue, isTail⟩ := JsonMembers.cons.inj same
            have sameKey : cString key 0 = key := isKey
            rw [Lost, not_or, sameKey] at kept
            rw [isRead, isBehind, isValue, isTail]
            exact ⟨fun none => kept.2 ⟨rfl, none⟩, Nat.lt_of_not_le kept.1,
              sameKey, rfl, rfl⟩
      · intro ⟨some', short, sameKey, isRead, isBehind⟩
        have kept : ¬ Lost false key := by
          rw [Lost, not_or]
          exact ⟨Nat.not_le_of_lt short, fun both => some' both.2⟩
        rw [sameKey, if_neg kept, isRead, isBehind]
        rfl

end

/-! ## Round trip -/

/-- The bytes that the table of a value takes. -/
def tableLength : JsonValue → Nat
  | .object members => 4 + (storedMembers members).encode.length
  | _ => 4

/-- The text that is printed of a table that was built from an object. -/
theorem blobmsgFormatJson_eq
    {buf built : BlobBuf} {id : Nat} {members : JsonMembers}
    (added : blobmsgAddObject (buf.blobBufInit id) members = (true, built))
    (small : 4 + (storedMembers members).encode.length < 16777216) :
    blobmsgFormatJson built.mem built.buflen built.head true =
      some (bracketed false (fieldsText false true (storedMembers members))) := by
  obtain ⟨ready, head, length, _⟩ := blobBufInit_ready buf id
  obtain ⟨bytes, encodes, appended⟩ :=
    blobmsgAddObject_stores ready members added (by
      rw [head, length]
      exact small)
  have bytesLength := encodes.length
  obtain ⟨builtHead, holds, inside, attrs⟩ :=
    blobmsgForEachAttr_message appended (by omega)
  have plain := blobIsExtended_message appended
  have builtLength := appended.length
  rw [head, length] at builtLength
  rw [blobmsgFormatJson, blobmsgFormatJsonWithCb, attrs, builtHead, plain,
    builtLength, if_pos rfl, Bool.false_and]
  generalize start :
    (⟨(blobLen (attrAt built.mem 0)).toNat, [], decide (0 ≤ (-1 : Int)),
      (-1 : Int).toNat⟩ : Strbuf) = s
  have unindented : s.indent = false := by
    rw [← start]
    rfl
  have empty : s.buf = [] := by
    rw [← start]
  have prints := @prints_list built.mem built.buflen (3 + bytes.length)
    (attrsFrom built.mem bytes.length 4 bytes.length) s false
    (fieldsText false true (storedMembers members)) unindented
    fun opened openPlain =>
      prints_fields (storedMembers members) false true holds encodes
        (zeroless_storedMembers members) (by omega) inside (by omega)
        (Nat.le_refl _) openPlain
  have fuel : 3 + bytes.length + 1 = 4 + bytes.length := by omega
  rw [fuel] at prints
  have room := prints.room (by
    rw [empty]
    exact Nat.zero_le _)
  have text := prints.buf
  rw [empty, List.nil_append] at text
  rw [text, bracketed, List.length_cons] at room
  rw [if_neg (by omega), text]

/-- A text that was added to a table is printed as a text of the same value if
and only if the value is representable. -/
theorem blobmsgJson_roundTrip
    (jsonTokenerParse : List UInt8 → Option JsonValue) (buf built : BlobBuf)
    (id : Nat) (str : List UInt8) (value : JsonValue)
    (parsed : jsonTokenerParse str = some value) (denotes : Denotes str value)
    (added : blobmsgAddJsonFromString jsonTokenerParse (buf.blobBufInit id) str =
      (true, built))
    (small : tableLength value < 16777216) :
    (∃ text, blobmsgFormatJson built.mem built.buflen built.head true =
        some text ∧ Denotes text value) ↔
      JsonValue.Representable value := by
  rw [blobmsgAddJsonFromString, parsed] at added
  have distinct := denotes.distinct
  cases value with
  | object members =>
      have integral := fst_blobmsgAddObject (buf.blobBufInit id) members
      have objectAdded :
          blobmsgAddObject (buf.blobBufInit id) members = (true, built) := added
      rw [objectAdded] at integral
      rw [blobmsgFormatJson_eq objectAdded small, ← readBack_eq_self
        (show JsonValue.integral (.object members) = true from integral.symm)
        distinct]
      constructor
      · intro ⟨text, isText, same⟩
        rw [← Option.some.inj isText] at same
        exact (denotes_bracketed false _ _).mp same
      · intro reads
        exact ⟨_, rfl, (denotes_bracketed false _ _).mpr reads⟩
  | _ => exact nomatch (congrArg Prod.fst added)

/-- A table of one number. -/
theorem blobmsgJson_roundTrip_number :
    let str : List UInt8 := [0x7b, 0x22, 0x61, 0x22, 0x3a, 0x31, 0x7d]
    let value : JsonValue := .object (.cons [0x61] (.int 1) .nil)
    let built := (blobmsgAddJsonFromString jsonValue?
      (BlobBuf.fresh.blobBufInit 0) str).2
    (∃ text, blobmsgFormatJson built.mem built.buflen built.head true =
        some text ∧ Denotes text value) ↔
      JsonValue.Representable value :=
  blobmsgJson_roundTrip jsonValue? BlobBuf.fresh _ 0 _ _ (by decide +kernel)
    (by decide +kernel) (Prod.ext (by decide +kernel) rfl) (by decide)

/-- `{"":1}` comes out as `{1}`, which is no JSON text. -/
theorem blobmsgJson_emptyKey :
    let str : List UInt8 := [0x7b, 0x22, 0x22, 0x3a, 0x31, 0x7d]
    let added := blobmsgAddJsonFromString jsonValue?
      (BlobBuf.fresh.blobBufInit 0) str
    jsonValue? str = some (.object (.cons [] (.int 1) .nil)) ∧
      added.1 = true ∧
      blobmsgFormatJson added.2.mem added.2.buflen added.2.head true =
        some [0x7b, 0x31, 0x7d] ∧
      jsonValue? [0x7b, 0x31, 0x7d] = none := by
  intro str added
  have parsed : jsonValue? str = some (.object (.cons [] (.int 1) .nil)) := by
    decide +kernel
  have flag : added.1 = true := by decide +kernel
  have object : blobmsgAddObject (BlobBuf.fresh.blobBufInit 0)
      (.cons [] (.int 1) .nil) = (true, added.2) := by
    have isAdded : added = blobmsgAddObject (BlobBuf.fresh.blobBufInit 0)
        (.cons [] (.int 1) .nil) := by
      rw [show added = blobmsgAddJson (BlobBuf.fresh.blobBufInit 0)
        (jsonValue? str) from rfl, parsed]
      rfl
    rw [← isAdded, ← flag]
  exact ⟨parsed, flag,
    (blobmsgFormatJson_eq object (by decide)).trans (by decide +kernel),
    by decide +kernel⟩

end LibubusJni.Libubox
