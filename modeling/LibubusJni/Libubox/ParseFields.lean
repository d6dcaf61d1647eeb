import Mathlib.Algebra.Group.Nat.Defs
import LibubusJni.Libubox.JsonStored
import LibubusJni.Libubox.Parse

/-!
# `blobmsg_parse` of encoded fields

On an encoding the loop of `blobmsg_parse` meets the fields one after the other,
and what it stores is known from the fields alone.  An attribute with a long
name shows the length of its name modulo 16 bits and fails the check.

Data that is no list of attributes is parsed all the same.  A string has no zero
where a short length of a name would need one, and an integer is a header at
most, behind which the next attribute begins.
-/

namespace LibubusJni.Libubox

open LibubusJni Lib

/-- What a field has behind its name. -/
inductive FieldValue where
  | scalar (value : BlobmsgScalar)
  | nested (isArray : Bool) (inner : BlobmsgFields)
  deriving DecidableEq, Repr

namespace FieldValue

def type : FieldValue → BlobmsgType
  | .scalar value => value.type
  | .nested isArray _ => containerType isArray

/-- The bytes are an encoding of the value. -/
def Encodes : FieldValue → List UInt8 → Prop
  | .scalar value, data => data = value.data
  | .nested _ inner, data => inner.Encodes data

end FieldValue

namespace BlobmsgFields

/-- The names and values in their order. -/
def entries : BlobmsgFields → List (List UInt8 × FieldValue)
  | .nil => []
  | .scalar name value rest => (name, .scalar value) :: rest.entries
  | .nested name isArray inner rest =>
      (name, .nested isArray inner) :: rest.entries

/-- Fields as JSON is stored: no integers of 64 bits, and the entries of an
array have no names. -/
def OfJson : BlobmsgFields → Prop
  | .nil => True
  | .scalar _ value rest => (∀ val, value ≠ .int64 val) ∧ rest.OfJson
  | .nested _ isArray inner rest =>
      (isArray = true → ∀ field ∈ inner.entries, field.1 = []) ∧
        inner.OfJson ∧ rest.OfJson

theorem entries_append (first second : BlobmsgFields) :
    (first.append second).entries = first.entries ++ second.entries := by
  induction first with
  | nil =>
      rfl
  | scalar name value rest inductionHypothesis =>
      rw [append, entries, entries, inductionHypothesis, List.cons_append]
  | nested name isArray inner rest _ inductionHypothesis =>
      rw [append, entries, entries, inductionHypothesis, List.cons_append]

end BlobmsgFields

namespace FieldValue

/-- Strings without zeros and integers of at most 32 bits. -/
def Plain : FieldValue → Prop
  | .scalar value =>
      (∀ text, value = .string text → (0 : UInt8) ∉ text) ∧
        ∀ val, value ≠ .int64 val
  | .nested isArray inner =>
      (isArray = true → ∀ field ∈ inner.entries, field.1 = []) ∧
        inner.Zeroless ∧ inner.OfJson

/-- The fields that the data of the value consists of. -/
def members : FieldValue → BlobmsgFields
  | .scalar _ => .nil
  | .nested _ inner => inner

end FieldValue

namespace PolicyEntry

/-- The type of the value is the one of the entry, or one of them is null. -/
def admits (entry : PolicyEntry) (value : FieldValue) : Bool :=
  entry.type = .unspec || value.type = entry.type || value.type = .unspec

/-- `blobmsg_parse` gives up at the field. -/
def refuses (entry : PolicyEntry) (field : List UInt8 × FieldValue) : Bool :=
  (field.1 = [] || 65536 ≤ field.1.length) &&
    entry.name.map (·.bytes.length) = some (field.1.length % 65536) &&
      entry.admits field.2

/-- The field has the name and the type of the entry. -/
def finds (entry : PolicyEntry) (field : List UInt8 × FieldValue) : Bool :=
  entry.name.map CString.bytes = some field.1 && entry.admits field.2

end PolicyEntry

/-- The value of the first field that an entry of a policy finds. -/
def BlobmsgFields.lookup (fields : BlobmsgFields) (entry : PolicyEntry) :
    Option FieldValue :=
  (fields.entries.find? entry.finds).map Prod.snd

/-- `blobmsg_parse` of fields; `none` is the return of -1. -/
def parseFields (policy : List PolicyEntry) (fields : BlobmsgFields) :
    Option (List (Option FieldValue)) :=
  if fields.entries.any fun field => policy.any fun entry => entry.refuses field then
    none
  else some (policy.map fields.lookup)

/-- The table of `blobmsg_parse`, if it returns 0. -/
def parsedTable (mem : Memory) (policy : List PolicyEntry) (data : Nat)
    (len : UInt32) : Option (List (Option Nat)) :=
  if (blobmsgParse mem policy data len).1 = 0 then
    some (blobmsgParse mem policy data len).2
  else none

/-- Every entry of the policy has a name. -/
def Titled (policy : List PolicyEntry) : Prop :=
  ∀ entry ∈ policy, ∀ name ∈ entry.name, name.bytes ≠ []

instance (policy : List PolicyEntry) : Decidable (Titled policy) :=
  inferInstanceAs
    (Decidable (∀ entry ∈ policy, ∀ name ∈ entry.name, name.bytes ≠ []))

/-! ## Attributes in memory -/

/-- No attribute at the address has a name of less than 256 bytes, unless it has
none. -/
def Quiet (mem : Memory) (addr : Nat) : Prop :=
  mem addr = 0 → mem (addr + 1) = 0

/-- A value lies behind the name of the attribute. -/
structure ValueAt (mem : Memory) (attr : Nat) (value : FieldValue) : Prop where
  field : ∃ name data, Field mem attr value.type name data ∧
    value.Encodes data ∧
    (data.length % 4 = 0 →
      Quiet mem (attr + 4 + blobmsgHdrlen name.length + data.length))
  plain : value.Plain

/-- A field as `blobmsg_parse` meets it. -/
structure FieldAt (mem : Memory) (attr : Nat)
    (field : List UInt8 × FieldValue) : Prop where
  id : blobId (attrAt mem attr) = field.2.type.id
  namelen : namelenAt mem attr = field.1.length % 65536
  short : field.1.length < 65536 →
    nameAt mem attr = field.1 ∧ blobmsgCheckAttr mem attr false = true ∧
      ValueAt mem attr field.2
  long : 65536 ≤ field.1.length → blobmsgCheckAttr mem attr false = false

variable {mem : Memory} {attr : Nat}

/-- Names are asked for in addition. -/
theorem blobmsgCheckAttr_named (mem : Memory) (attr : Nat) :
    blobmsgCheckAttr mem attr true =
      (decide (namelenAt mem attr ≠ 0) && blobmsgCheckAttr mem attr false) := by
  have isZero : (blobmsgNamelen mem (attr + 4) == 0) =
      decide (namelenAt mem attr = 0) := by
    rw [Bool.eq_iff_iff, beq_iff_eq, decide_eq_true_iff, namelenAt,
      ← UInt16.toNat_inj]
    rfl
  rw [blobmsgCheckAttr, blobmsgCheckAttr, isZero]
  by_cases short : blobLen (attrAt mem attr) < 2
  · rw [if_pos short, if_pos short, Bool.and_false]
  · by_cases unnamed : namelenAt mem attr = 0
    · simp [short, unnamed]
    · simp [short, unnamed]

theorem nameAt_of_title {name : List UInt8}
    (namelen : namelenAt mem attr = name.length)
    (title : Holds mem (attr + 6) (name ++ [0])) : nameAt mem attr = name := by
  rw [nameAt, namelen]
  exact (Holds.append_iff.mp title).1.bytesAt_eq

/-- A header with the flag of names begins with a byte that is not zero. -/
theorem quiet_of_header {value : UInt32}
    (holds : Holds mem attr (be32Bytes (value ||| blobAttrExtended))) :
    Quiet mem attr := by
  intro isZero
  have first := holds 0 (by simp)
  rw [Nat.add_zero, isZero] at first
  have byte := congrArg UInt8.toNat first
  simp only [be32Bytes, List.getElem_cons_zero, UInt32.toNat_toUInt8,
    UInt32.toNat_shiftRight, UInt32.toNat_or, Nat.shiftRight_eq_div_pow] at byte
  have large : 2147483648 ≤ value.toNat ||| blobAttrExtended.toNat :=
    Nat.right_le_or
  have small := (value ||| blobAttrExtended).toNat_lt
  rw [UInt32.toNat_or] at small
  generalize value.toNat ||| blobAttrExtended.toNat = number at byte large small
  simp at byte
  omega

/-- An encoding is empty or begins with such a header. -/
theorem quiet_of_encodes {fields : BlobmsgFields} {bytes : List UInt8}
    (holds : Holds mem attr bytes) (encodes : fields.Encodes bytes)
    (ends : Quiet mem (attr + bytes.length)) : Quiet mem attr := by
  have front : ∀ {type : Nat} {name data field tail : List UInt8},
      bytes = field ++ tail → FieldBytes type name data field →
        Quiet mem attr := by
    intro type name data field tail isBytes isField
    rw [isBytes] at holds
    have first := (Holds.append_iff.mp holds).1
    by_cases short : name.length < 65536
    · rw [FieldBytes, if_pos short] at isField
      rw [isField.2, blobmsgAddField, blobAttr] at first
      exact quiet_of_header
        (Holds.append_iff.mp (Holds.append_iff.mp first).1).1
    · rw [FieldBytes, if_neg short] at isField
      obtain ⟨rest, isRest⟩ := isField.2
      rw [← isRest] at first
      exact quiet_of_header
        (Holds.append_iff.mp (Holds.append_iff.mp first).1).1
  cases fields with
  | nil =>
      rw [show bytes = [] from encodes] at ends
      exact ends
  | scalar name value rest =>
      obtain ⟨field, tail, isBytes, isField, _⟩ := encodes
      exact front isBytes isField
  | nested name isArray inner rest =>
      obtain ⟨data, field, tail, isBytes, _, isField, _⟩ := encodes
      exact front isBytes isField

/-- Type and length of a name that does not fit its length field. -/
theorem longFront_seen {type : BlobmsgType} {n : Nat} {name : List UInt8}
    (holds : Holds mem attr (longFront type.id n name)) :
    blobId (attrAt mem attr) = type.id ∧
      namelenAt mem attr = name.length % 65536 := by
  have parts := Holds.append_iff.mp holds
  have header := Holds.attrAt_iff.mp parts.1
  have titles := (Holds.append_iff.mp parts.2).1
  rw [length_be32Bytes] at titles
  constructor
  · rw [blobId, header, blobIdLen_be32]
    exact blobId_blobInit type _
  · exact BlobBuf.blobmsgNamelen_of_bytes (titles 0 (by simp))
      (titles 1 (by simp))

theorem fitsType_encodes {value : FieldValue} {data : List UInt8}
    (encodes : value.Encodes data) : fitsType value.type data := by
  cases value with
  | scalar value =>
      rw [show data = value.data from encodes]
      exact fitsType_scalar value
  | nested isArray inner =>
      cases isArray <;> exact True.intro

/-- One field of an encoding. -/
theorem fieldAt_of_holds {value : FieldValue} {name data bytes : List UInt8}
    (holds : Holds mem attr bytes)
    (isField : FieldBytes value.type.id name data bytes)
    (encodes : value.Encodes data) (plain : value.Plain)
    (clean : (0 : UInt8) ∉ name) (small : bytes.length < 16777216)
    (quiet : Quiet mem (attr + bytes.length)) :
    FieldAt mem attr (name, value) := by
  have hdrlen := BlobBuf.le_blobmsgHdrlen name.length
  have length := isField.1
  rw [BlobBuf.length_blobmsgAddField] at length
  have seen := (fieldBytes_field holds isField clean small).2
  by_cases short : name.length < 65536
  · rw [if_pos short] at seen
    have valueAt : ValueAt mem attr value := by
      refine ⟨⟨name, data, seen, encodes, fun aligned => ?_⟩, plain⟩
      have atEnd : attr + 4 + blobmsgHdrlen name.length + data.length =
          attr + bytes.length := by omega
      rw [atEnd]
      exact quiet
    exact
      { id := seen.id
        namelen := seen.namelen.trans (Nat.mod_eq_of_lt short).symm
        short := fun _ =>
          ⟨nameAt_of_title seen.namelen seen.title,
            blobmsgCheckAttr_field seen (fitsType_encodes encodes), valueAt⟩
        long := fun long => absurd short (Nat.not_lt.mpr long) }
  · rw [if_neg short] at seen
    obtain ⟨_, front⟩ := isField
    rw [if_neg short] at front
    obtain ⟨rest, isRest⟩ := front
    rw [← isRest] at holds
    obtain ⟨id, namelen⟩ := longFront_seen (Holds.append_iff.mp holds).1
    exact
      { id := id
        namelen := namelen
        short := fun isShort => absurd isShort short
        long := fun _ => seen }

theorem walk_cons {value : FieldValue} {bound pos : Nat}
    {name data field tail : List UInt8}
    {entries : List (List UInt8 × FieldValue)}
    (holds : Holds mem pos (field ++ tail))
    (isField : FieldBytes value.type.id name data field)
    (encodes : value.Encodes data) (plain : value.Plain)
    (clean : (0 : UInt8) ∉ name) (small : field.length + tail.length < 16777216)
    (bounded : field.length + tail.length ≤ bound)
    (quiet : Quiet mem (pos + field.length))
    (behind : ∀ less, tail.length ≤ less →
      List.Forall₂ (FieldAt mem)
        (attrsFrom mem less (pos + field.length) tail.length) entries) :
    List.Forall₂ (FieldAt mem)
      (attrsFrom mem bound pos (field ++ tail).length)
      ((name, value) :: entries) := by
  obtain ⟨less, _, isLess, _, length, _, _, attrs⟩ :=
    encodes_first holds isField clean small bounded bounded
  rw [attrs]
  have first := fieldAt_of_holds (Holds.append_iff.mp holds).1 isField encodes
    plain clean (by omega) quiet
  exact List.Forall₂.cons first (behind less (by omega))

/-- The attributes that a loop over an encoding meets. -/
theorem walk_fields (fields : BlobmsgFields) {bound pos : Nat}
    {bytes : List UInt8} (holds : Holds mem pos bytes)
    (encodes : fields.Encodes bytes) (zeroless : fields.Zeroless)
    (ofJson : fields.OfJson) (small : bytes.length < 16777216)
    (bounded : bytes.length ≤ bound) (quiet : Quiet mem (pos + bytes.length)) :
    List.Forall₂ (FieldAt mem) (attrsFrom mem bound pos bytes.length)
      fields.entries := by
  induction fields generalizing bound pos bytes with
  | nil =>
      have none : attrsFrom mem bound pos bytes.length = [] := by
        rw [show bytes = [] from encodes]
        cases bound <;> rfl
      rw [none]
      exact List.Forall₂.nil
  | scalar name value rest inductionHypothesis =>
      obtain ⟨field, tail, isBytes, isField, isTail⟩ := encodes
      obtain ⟨cleanName, cleanText, cleanRest⟩ := zeroless
      rw [isBytes] at holds small bounded quiet ⊢
      rw [List.length_append] at small bounded
      rw [List.length_append, ← Nat.add_assoc] at quiet
      have tailHolds := (Holds.append_iff.mp holds).2
      exact @walk_cons _ (.scalar value) _ _ _ _ _ _ _ holds isField rfl
        ⟨cleanText, ofJson.1⟩ cleanName small bounded
        (quiet_of_encodes tailHolds isTail quiet) fun less short =>
          inductionHypothesis tailHolds isTail cleanRest ofJson.2 (by omega)
            short quiet
  | nested name isArray inner rest _ inductionHypothesis =>
      obtain ⟨data, field, tail, isBytes, isData, isField, isTail⟩ := encodes
      obtain ⟨cleanName, cleanInner, cleanRest⟩ := zeroless
      rw [isBytes] at holds small bounded quiet ⊢
      rw [List.length_append] at small bounded
      rw [List.length_append, ← Nat.add_assoc] at quiet
      have tailHolds := (Holds.append_iff.mp holds).2
      exact @walk_cons _ (.nested isArray inner) _ _ _ _ _ _ _ holds isField
        isData ⟨ofJson.1, cleanInner, ofJson.2.1⟩ cleanName small bounded
        (quiet_of_encodes tailHolds isTail quiet) fun less short =>
          inductionHypothesis tailHolds isTail cleanRest ofJson.2.2 (by omega)
            short quiet

/-! ## The policy -/

section Policy

variable {field : List UInt8 × FieldValue} {entry : PolicyEntry}

theorem FieldAt.admissible_iff (at_ : FieldAt mem attr field) :
    Admissible mem entry attr ↔ entry.admits field.2 = true := by
  have same : ∀ type : BlobmsgType,
      blobId (attrAt mem attr) = type.id ↔ field.2.type = type := by
    intro type
    rw [at_.id, ← ofId_eq_iff, ofId_id]
    simp
  rw [Admissible, PolicyEntry.admits, same, same]
  simp [or_assoc]

theorem FieldAt.check (at_ : FieldAt mem attr field) :
    blobmsgCheckAttr mem attr true = false ↔
      field.1 = [] ∨ 65536 ≤ field.1.length := by
  rw [blobmsgCheckAttr_named, at_.namelen, Bool.and_eq_false_iff]
  by_cases short : field.1.length < 65536
  · obtain ⟨_, passes, _⟩ := at_.short short
    rw [passes, Nat.mod_eq_of_lt short, ← List.length_eq_zero_iff]
    simp
    omega
  · rw [at_.long (Nat.le_of_not_lt short)]
    exact iff_of_true (Or.inr rfl) (Or.inr (Nat.le_of_not_lt short))

theorem FieldAt.failsFor_iff (at_ : FieldAt mem attr field) :
    FailsFor mem entry attr ↔ entry.refuses field = true := by
  rw [FailsFor, PolicyEntry.refuses, at_.admissible_iff, at_.check, at_.namelen]
  simp
  tauto

/-- An attribute at which `blobmsg_parse` does not give up. -/
theorem FieldAt.matches_iff (at_ : FieldAt mem attr field)
    (short : ∀ name ∈ entry.name, name.bytes.length ≤ 255)
    (passes : entry.refuses field = false) :
    Matches mem entry attr ↔ entry.finds field = true := by
  rw [Matches, PolicyEntry.finds, Bool.and_eq_true, decide_eq_true_iff,
    at_.admissible_iff]
  apply and_congr_left
  intro admits
  by_cases isShort : field.1.length < 65536
  · rw [(at_.short isShort).1]
  · have long := Nat.le_of_not_lt isShort
    refine iff_of_false (fun isMatch => ?_) fun isMatch => ?_
    · have named := congrArg (Option.map List.length) isMatch
      rw [Option.map_map, Option.map_some, nameAt_length, at_.namelen] at named
      obtain ⟨name, isName, length⟩ := Option.map_eq_some_iff.mp named
      rw [PolicyEntry.refuses, admits, isName] at passes
      simp [long] at passes
      exact passes length
    · obtain ⟨name, isName, bytes⟩ := Option.map_eq_some_iff.mp isMatch
      have bound := short name isName
      rw [bytes] at bound
      omega

/-- The first match of an entry, in memory and among the fields. -/
theorem find_matches
    (short : ∀ name ∈ entry.name, name.bytes.length ≤ 255)
    {attrs : List Nat} {fields : List (List UInt8 × FieldValue)}
    (walked : List.Forall₂ (FieldAt mem) attrs fields)
    (passes : ∀ field ∈ fields, entry.refuses field = false) :
    Option.Rel (ValueAt mem)
      (attrs.find? fun attr => Matches mem entry attr)
      ((fields.find? entry.finds).map Prod.snd) := by
  induction walked with
  | nil =>
      exact Option.Rel.none
  | @cons attr field attrs fields at_ _ inductionHypothesis =>
      have same := at_.matches_iff short (passes field List.mem_cons_self)
      by_cases finds : entry.finds field = true
      · have named := of_decide_eq_true (Bool.and_eq_true_iff.mp finds).1
        obtain ⟨name, isName, bytes⟩ := Option.map_eq_some_iff.mp named
        have bound := short name isName
        simp only [List.find?_cons, decide_eq_true (same.mpr finds), finds]
        exact Option.Rel.some (at_.short (by rw [← bytes]; omega)).2.2
      · simp only [List.find?_cons, decide_eq_false (mt same.mp finds),
          eq_false_of_ne_true finds]
        exact inductionHypothesis fun other member =>
          passes other (List.mem_cons_of_mem _ member)

end Policy

theorem exists_failsFor_iff {policy : List PolicyEntry} {attrs : List Nat}
    {fields : List (List UInt8 × FieldValue)}
    (walked : List.Forall₂ (FieldAt mem) attrs fields) :
    (∃ attr ∈ attrs, ∃ entry ∈ policy, FailsFor mem entry attr) ↔
      (fields.any fun field => policy.any fun entry => entry.refuses field) =
        true := by
  induction walked with
  | nil =>
      simp
  | @cons attr field attrs fields at_ _ inductionHypothesis =>
      rw [List.any_cons, Bool.or_eq_true, ← inductionHypothesis,
        List.any_eq_true, List.exists_mem_cons_iff]
      apply or_congr_left
      simp only [at_.failsFor_iff]

/-- `blobmsg_parse` of an encoding. -/
theorem parsedTable_fields {policy : List PolicyEntry}
    (short : ShortNames policy) {data : Nat} {len : UInt32}
    {fields : BlobmsgFields}
    (walked : List.Forall₂ (FieldAt mem) (parsedAttrs mem data len)
      fields.entries) :
    Option.Rel (List.Forall₂ (Option.Rel (ValueAt mem)))
      (parsedTable mem policy data len) (parseFields policy fields) := by
  obtain ⟨failed, passed⟩ := blobmsgParse_firstMatch mem short data len
  have refused := @exists_failsFor_iff mem policy _ _ walked
  rw [parsedTable, parseFields]
  by_cases refuses : (fields.entries.any fun field =>
      policy.any fun entry => entry.refuses field) = true
  · rw [failed.mpr (refused.mpr refuses), if_neg (by decide), if_pos refuses]
    exact Option.Rel.none
  · rw [passed (mt refused.mp refuses), if_pos rfl, if_neg refuses]
    apply Option.Rel.some
    rw [List.forall₂_map_left_iff, List.forall₂_map_right_iff,
      List.forall₂_same]
    intro entry member
    apply find_matches (short entry member) walked
    intro field inFields
    by_contra some'
    exact refuses (List.any_eq_true.mpr ⟨field, inFields,
      List.any_eq_true.mpr ⟨entry, member, eq_true_of_ne_false some'⟩⟩)

/-! ## Data that is no list of attributes -/

theorem namelenAt_eq (mem : Memory) (attr : Nat) :
    namelenAt mem attr =
      (mem (attr + 4)).toNat * 256 + (mem (attr + 5)).toNat := by
  have small := (mem (attr + 4)).toNat_lt
  have smaller := (mem (attr + 5)).toNat_lt
  have first : mem (attr + 4) =
      (((mem (attr + 4)).toNat * 256 + (mem (attr + 5)).toNat) /
        256).toUInt8 := by
    rw [← UInt8.toNat_inj]
    simp
    omega
  have second : mem (attr + 4 + 1) =
      ((mem (attr + 4)).toNat * 256 + (mem (attr + 5)).toNat).toUInt8 := by
    rw [← UInt8.toNat_inj]
    simp
  rw [namelenAt, BlobBuf.blobmsgNamelen_of_bytes first second]
  omega

/-- No entry of a policy has a name as short or as long as these. -/
theorem parsedTable_unnamed {policy : List PolicyEntry}
    (short : ShortNames policy) (titled : Titled policy) {data : Nat}
    {len : UInt32}
    (unnamed : ∀ attr ∈ parsedAttrs mem data len,
      namelenAt mem attr = 0 ∨ 256 ≤ namelenAt mem attr) :
    parsedTable mem policy data len = some (policy.map fun _ => none) := by
  have other : ∀ attr ∈ parsedAttrs mem data len, ∀ entry ∈ policy,
      entry.name.map (·.bytes.length) ≠ some (namelenAt mem attr) := by
    intro attr inData entry member named
    obtain ⟨name, isName, length⟩ := Option.map_eq_some_iff.mp named
    have bound := short entry member name isName
    have positive := List.length_pos_iff.mpr (titled entry member name isName)
    have cases' := unnamed attr inData
    omega
  have passed := (blobmsgParse_firstMatch mem short data len).2
    fun ⟨attr, inData, entry, member, fails⟩ =>
      other attr inData entry member fails.1
  rw [parsedTable.eq_def, passed, if_pos rfl]
  apply congrArg some
  apply List.map_congr_left
  intro entry member
  apply List.find?_eq_none.mpr
  intro attr inData isMatch
  apply other attr inData entry member
  have named := congrArg (Option.map List.length)
    (of_decide_eq_true isMatch).1
  rw [Option.map_map, Option.map_some, nameAt_length] at named
  exact named

theorem unnamed_of_ne_zero (first : mem (attr + 4) ≠ 0) :
    256 ≤ namelenAt mem attr := by
  have positive := UInt8.toNat_inj.not.mpr first
  rw [namelenAt_eq]
  simp at positive
  omega

/-- In a string a loop finds attributes of many bytes only, whose names are
long. -/
theorem unnamed_string {text : List UInt8} {bound pos found : Nat}
    (holds : Holds mem pos (text ++ [0])) (clean : (0 : UInt8) ∉ text)
    (member : found ∈ attrsFrom mem bound pos (text ++ [0]).length) :
    256 ≤ namelenAt mem found := by
  obtain ⟨lower, upper, positive⟩ := bounds_of_mem_attrsFrom member
  rw [List.length_append, List.length_singleton] at upper
  have letter : ∀ addr, pos ≤ addr → addr < pos + text.length →
      mem addr ≠ 0 := by
    intro addr start stop isZero
    have byte := (Holds.append_iff.mp holds).1 (addr - pos) (by omega)
    rw [Nat.add_sub_cancel' start, isZero] at byte
    exact clean (byte ▸ List.getElem_mem _)
  have second := UInt8.toNat_inj.not.mpr
    (letter (found + 1) (by omega) (by omega))
  have bytes := BlobBuf.rawAt_eq_bytes mem found
  rw [← rawAt] at upper
  simp at second
  exact unnamed_of_ne_zero (letter (found + 4) (by omega) (by omega))

/-- The data of a scalar. -/
theorem parsedTable_scalar {policy : List PolicyEntry}
    (short : ShortNames policy) (titled : Titled policy)
    {value : BlobmsgScalar} (at_ : ValueAt mem attr (.scalar value)) :
    parsedTable mem policy (blobmsgData mem attr) (blobmsgDataLen mem attr) =
      some (policy.map fun _ => none) := by
  obtain ⟨⟨name, data, field, encodes, quiet⟩, plain⟩ := at_
  have holds := field.data
  rw [show data = value.data from encodes] at holds quiet field
  apply parsedTable_unnamed short titled
  intro found member
  rw [parsedAttrs, field.place, field.dataLen] at member
  have bounds := bounds_of_mem_attrsFrom member
  cases value with
  | string text =>
      exact Or.inr (unnamed_string holds (plain.1 text rfl) member)
  | int64 val =>
      exact absurd rfl (plain.2 val)
  | int32 val =>
      have length : (BlobmsgScalar.int32 val).data.length = 4 := rfl
      rw [length] at bounds quiet
      have first : found = attr + 4 + blobmsgHdrlen name.length := by omega
      have quiet := quiet rfl
      rw [← first] at quiet
      by_cases isZero : mem (found + 4) = 0
      · have both := quiet isZero
        rw [namelenAt_eq, isZero, both]
        exact Or.inl rfl
      · exact Or.inr (unnamed_of_ne_zero isZero)
  | _ =>
      simp only [BlobmsgScalar.data, be16Bytes, List.length_cons,
        List.length_nil] at bounds
      omega

/-- The data of a container. -/
theorem walk_nested {isArray : Bool} {inner : BlobmsgFields}
    (at_ : ValueAt mem attr (.nested isArray inner)) :
    List.Forall₂ (FieldAt mem)
      (attrsFrom mem (blobmsgDataLen mem attr).toNat (blobmsgData mem attr)
        (blobmsgDataLen mem attr).toNat) inner.entries := by
  obtain ⟨⟨name, data, field, encodes, quiet⟩, _, zeroless, ofJson⟩ := at_
  have isInner : inner.Encodes data := encodes
  have aligned : data.length % 4 = 0 := by
    rw [isInner.length]
    exact inner.length_encode
  have small := rawAt_lt mem attr
  rw [field.length] at small
  rw [field.place, field.dataLen]
  exact walk_fields inner field.data isInner zeroless ofJson (by omega)
    (Nat.le_refl _) (quiet aligned)

/-- `blobmsg_parse` of the data of a value. -/
theorem parsedTable_value {policy : List PolicyEntry}
    (short : ShortNames policy) (titled : Titled policy) {value : FieldValue}
    (at_ : ValueAt mem attr value) :
    Option.Rel (List.Forall₂ (Option.Rel (ValueAt mem)))
      (parsedTable mem policy (blobmsgData mem attr) (blobmsgDataLen mem attr))
      (parseFields policy value.members) := by
  cases value with
  | scalar value =>
      rw [parsedTable_scalar short titled at_]
      apply Option.Rel.some
      rw [List.forall₂_map_left_iff, List.forall₂_map_right_iff,
        List.forall₂_same]
      exact fun _ _ => Option.Rel.none
  | nested isArray inner =>
      exact parsedTable_fields short (walk_nested at_)

/-! ## Accessors -/

/-- An `int` as a `size_t`. -/
def sizeOfInt (len : UInt32) : Nat :=
  if len < 0x80000000 then len.toNat else 2 ^ 64 - 2 ^ 32 + len.toNat

/-- `__blob_for_each_attr` over `blobmsg_data` and `blobmsg_len`. -/
def blobmsgItems (mem : Memory) (attr : Nat) : List Nat :=
  let rem := sizeOfInt (blobmsgDataLen mem attr)
  attrsFrom mem rem (blobmsgData mem attr) rem

/-- The string that `blobmsg_get_string` points to, if it ends within the
payload. -/
def payloadString (mem : Memory) (attr : Nat) : Option (List UInt8) :=
  let len := blobRem (blobmsgDataLen mem attr)
  let string := stringAt mem len (blobmsgData mem attr)
  if string.length < len then some string else none

/-- `blobmsg_get_u32` of a payload that is long enough. -/
def payloadU32 (mem : Memory) (attr : Nat) : Option UInt32 :=
  if 4 ≤ blobRem (blobmsgDataLen mem attr) then some (blobmsgGetU32 mem attr)
  else none

theorem sizeOfInt_of_small {len : UInt32} (small : len.toNat < 2147483648) :
    sizeOfInt len = len.toNat ∧ blobRem len = len.toNat := by
  have positive : len < 0x80000000 := UInt32.lt_iff_toNat_lt.mpr small
  rw [sizeOfInt, blobRem, if_pos positive, if_pos positive]
  exact ⟨rfl, rfl⟩

section Accessors

variable {value : FieldValue} (at_ : ValueAt mem attr value)

include at_ in
theorem dataLen_value :
    sizeOfInt (blobmsgDataLen mem attr) = (blobmsgDataLen mem attr).toNat ∧
      blobRem (blobmsgDataLen mem attr) = (blobmsgDataLen mem attr).toNat := by
  obtain ⟨name, data, field, _⟩ := at_.field
  have small := rawAt_lt mem attr
  rw [field.length] at small
  exact sizeOfInt_of_small (by rw [field.dataLen]; omega)

theorem forall₂_values {attrs : List Nat}
    {fields : List (List UInt8 × FieldValue)}
    (walked : List.Forall₂ (FieldAt mem) attrs fields)
    (nameless : ∀ field ∈ fields, field.1 = []) :
    List.Forall₂ (ValueAt mem) attrs (fields.map Prod.snd) := by
  induction walked with
  | nil =>
      exact List.Forall₂.nil
  | @cons attr field attrs fields at_ _ inductionHypothesis =>
      have unnamed := nameless field List.mem_cons_self
      exact List.Forall₂.cons
        (at_.short (by rw [unnamed]; exact Nat.zero_lt_succ _)).2.2
        (inductionHypothesis fun other member =>
          nameless other (List.mem_cons_of_mem _ member))

include at_ in
/-- The elements of an array; null has none. -/
theorem blobmsgItems_value
    (list : value.type = .array ∨ value.type = .unspec) :
    List.Forall₂ (ValueAt mem) (blobmsgItems mem attr)
      (value.members.entries.map Prod.snd) := by
  have len := (dataLen_value at_).1
  rw [blobmsgItems, len]
  cases value with
  | scalar value =>
      cases value with
      | null =>
          obtain ⟨⟨name, data, field, encodes, _⟩, _⟩ := at_
          rw [field.dataLen, show data = [] from encodes]
          exact List.Forall₂.nil
      | _ => rcases list with isArray | isNull <;> contradiction
  | nested isArray inner =>
      cases isArray with
      | false => rcases list with isArray | isNull <;> contradiction
      | true => exact forall₂_values (walk_nested at_) (at_.plain.1 rfl)

/-- The text of a string. -/
def FieldValue.text : FieldValue → Option (List UInt8)
  | .scalar (.string text) => some text
  | _ => none

include at_ in
theorem payloadString_value
    (string : value.type = .string ∨ value.type = .unspec) :
    payloadString mem attr = value.text := by
  have len := (dataLen_value at_).2
  obtain ⟨⟨name, data, field, encodes, _⟩, plain⟩ := at_
  rw [payloadString, len, field.dataLen, field.place]
  cases value with
  | scalar value =>
      have isData : data = value.data := encodes
      have holds := field.data
      rw [isData] at holds ⊢
      cases value with
      | string text =>
          have length : (BlobmsgScalar.string text).data.length =
              text.length + 1 := by
            rw [BlobmsgScalar.data, List.length_append, List.length_singleton]
          rw [stringAt_eq holds (plain.1 text rfl) (by omega),
            if_pos (by omega)]
          rfl
      | null =>
          exact if_neg (Nat.not_lt_zero _)
      | _ => rcases string with isString | isNull <;> contradiction
  | nested isArray inner =>
      cases isArray <;> rcases string with isString | isNull <;> contradiction

/-- The number of an integer of 32 bits. -/
def FieldValue.u32 : FieldValue → Option UInt32
  | .scalar (.int32 val) => some val
  | _ => none

include at_ in
theorem payloadU32_value
    (number : value.type = .int32 ∨ value.type = .unspec) :
    payloadU32 mem attr = value.u32 := by
  have len := (dataLen_value at_).2
  obtain ⟨⟨name, data, field, encodes, _⟩, _⟩ := at_
  rw [payloadU32, len, field.dataLen]
  cases value with
  | scalar value =>
      have isData : data = value.data := encodes
      have holds := field.data
      rw [isData] at holds ⊢
      cases value with
      | int32 val =>
          have room : 4 ≤ (BlobmsgScalar.int32 val).data.length := Nat.le_refl 4
          rw [if_pos room, blobmsgGetU32, field.place,
            Holds.attrAt_iff.mp holds, blobIdLen_be32]
          rfl
      | null =>
          exact if_neg (by decide)
      | _ => rcases number with isNumber | isNull <;> contradiction
  | nested isArray inner =>
      cases isArray <;> rcases number with isNumber | isNull <;> contradiction

end Accessors

end LibubusJni.Libubox
