import LibubusJni.Lib.Traversal
import LibubusJni.Libubox.JsonFields
import LibubusJni.Libubox.JsonRoundTrip

/-!
# Descriptions of object types: `ubus_get_type_info`

The description is read into a buffer and gone through on three levels: the
type, its methods, and what each method takes.  `blobmsg_parse` returns 0 also
where fields are absent, and null has the type of every field; what is not there
is used all the same.
-/

namespace LibubusJni.Wrapper

open LibubusJni.Lib LibubusJni.Libubox

/-! ## Policies -/

/-- `type_policy`. -/
def typePolicy : List PolicyEntry :=
  [⟨some ⟨ascii "name", by decide⟩, .string⟩,
    ⟨some ⟨ascii "method", by decide⟩, .array⟩]

/-- `method_policy`. -/
def methodPolicy : List PolicyEntry :=
  [⟨some ⟨ascii "name", by decide⟩, .string⟩,
    ⟨some ⟨ascii "policy", by decide⟩, .array⟩]

/-- `params_policy`. -/
def paramsPolicy : List PolicyEntry :=
  [⟨some ⟨ascii "name", by decide⟩, .string⟩,
    ⟨some ⟨ascii "type", by decide⟩, .int32⟩]

/-! ## The traversal -/

/-- How a traversal of a description ends early: with `goto finalize`, or with a
`strlen`, a `blobmsg_len` or a read of 32 bits of what is not there. -/
inductive TypeExit where
  | finalize
  | absentField
  deriving DecidableEq, Repr

/-- What a traversal asks of the attributes of a description; `base` parses the
fields of the description itself. -/
structure AttrReader (Attr : Type) where
  base : List PolicyEntry → Option (List (Option Attr))
  parse : List PolicyEntry → Attr → Option (List (Option Attr))
  string : Attr → Option (List UInt8)
  u32 : Attr → Option UInt32
  items : Attr → List Attr

/-- The attributes in a buffer. -/
def blobReader (buf : BlobBuf) : AttrReader Nat where
  base policy :=
    parsedTable buf.mem policy (buf.head + 4)
      (blobLen (attrAt buf.mem buf.head))
  parse policy attr :=
    parsedTable buf.mem policy (blobmsgData buf.mem attr)
      (blobmsgDataLen buf.mem attr)
  string := payloadString buf.mem
  u32 := payloadU32 buf.mem
  items := blobmsgItems buf.mem

namespace AttrReader

variable {Attr : Type} (reader : AttrReader Attr)

/-- The test of what `blobmsg_parse` returned, `strlen` of the first field, and
the second one. -/
def named (table : Option (List (Option Attr))) :
    Except TypeExit (List UInt8 × Option Attr) :=
  match table with
  | none => .error .finalize
  | some attrs =>
      match (attrs.getD 0 none).bind reader.string with
      | none => .error .absentField
      | some name => .ok (name, attrs.getD 1 none)

/-- `blobmsg_len`, and the loop over `blobmsg_data`. -/
def elements : Option Attr → Except TypeExit (List Attr)
  | none => .error .absentField
  | some attr => .ok (reader.items attr)

end AttrReader

/-- The counters of `struct ubus_object_type_info`. -/
structure TypeInfo where
  nMethods : Nat
  nPolicys : Nat
  nStrings : Nat
  nStrbyte : Nat
  deriving DecidableEq, Repr

namespace TypeInfo

def zero : TypeInfo := ⟨0, 0, 0, 0⟩

/-- A string is counted. -/
def addString (info : TypeInfo) (string : List UInt8) : TypeInfo :=
  { info with
    nStrbyte := info.nStrbyte + string.length
    nStrings := info.nStrings + 1 }

end TypeInfo

/-- The sizes of `struct ubus_object_type`, `struct ubus_method` and
`struct blobmsg_policy`. -/
structure TypeSizes where
  objectType : Nat
  method : Nat
  policy : Nat
  method_pos : 0 < method
  policy_pos : 0 < policy

/-- The sizes where a pointer takes eight bytes. -/
def TypeSizes.lp64 : TypeSizes := ⟨32, 48, 16, by decide, by decide⟩

/-- The size that `ubus_get_type_info` sums up. -/
def TypeInfo.size (info : TypeInfo) (sizes : TypeSizes) : Nat :=
  sizes.objectType + info.nMethods * sizes.method +
    info.nPolicys * sizes.policy + info.nStrings + info.nStrbyte

section Count

variable {Attr : Type} (reader : AttrReader Attr)

/-- The body of the inner loop. -/
def countParam (info : TypeInfo) (item : Attr) : Except TypeExit TypeInfo := do
  let (name, _) ← reader.named (reader.parse paramsPolicy item)
  let info := info.addString name
  return { info with nPolicys := info.nPolicys + 1 }

/-- The body of the outer loop. -/
def countMethod (info : TypeInfo) (item : Attr) : Except TypeExit TypeInfo := do
  let (name, params) ← reader.named (reader.parse methodPolicy item)
  let items ← reader.elements params
  let info ← items.foldlM (countParam reader) (info.addString name)
  return { info with nMethods := info.nMethods + 1 }

/-- The traversal of a description. -/
def countType : Except TypeExit TypeInfo := do
  let (name, methods) ← reader.named (reader.base typePolicy)
  let items ← reader.elements methods
  items.foldlM (countMethod reader) (TypeInfo.zero.addString name)

end Count

/-- `blob_buf_init` and `blobmsg_add_json_from_string`. -/
def readDescription (jsonTokenerParse : List UInt8 → Option JsonValue)
    (typeJson : List UInt8) : Except TypeExit BlobBuf :=
  let (added, buf) := blobmsgAddJsonFromString jsonTokenerParse
    (BlobBuf.fresh.blobBufInit BlobmsgType.array.id) typeJson
  if added then .ok buf else .error .finalize

/-- What `ubus_get_type_info` counts. -/
def typeInfo (jsonTokenerParse : List UInt8 → Option JsonValue)
    (typeJson : List UInt8) : Except TypeExit TypeInfo := do
  let buf ← readDescription jsonTokenerParse typeJson
  countType (blobReader buf)

/-- `ubus_get_type_info`; `none` is a use of an absent field. -/
def ubusGetTypeInfo (sizes : TypeSizes)
    (jsonTokenerParse : List UInt8 → Option JsonValue)
    (typeJson : List UInt8) : Option Int :=
  match typeInfo jsonTokenerParse typeJson with
  | .ok info => some (info.size sizes)
  | .error .finalize => some (-1)
  | .error .absentField => none

/-! ## What is described -/

/-- A parameter of a method; the type is read later. -/
structure ParamDescription where
  name : List UInt8
  type : Option UInt32
  deriving DecidableEq, Repr

/-- A method. -/
structure MethodDescription where
  name : List UInt8
  params : List ParamDescription
  deriving DecidableEq, Repr

/-- A type. -/
structure TypeDescription where
  name : List UInt8
  methods : List MethodDescription
  deriving DecidableEq, Repr

section Describe

variable {Attr : Type} (reader : AttrReader Attr)

/-- A name, and what is found in each element of a list. -/
def describeList {Item : Type} (table : Option (List (Option Attr)))
    (each : Attr → Except TypeExit Item) :
    Except TypeExit (List UInt8 × List Item) := do
  let (name, list) ← reader.named table
  let items ← reader.elements list
  let found ← items.mapM each
  return (name, found)

def describeParam (item : Attr) : Except TypeExit ParamDescription :=
  (reader.named (reader.parse paramsPolicy item)).map fun (name, type) =>
    ⟨name, type.bind reader.u32⟩

def describeMethod (item : Attr) : Except TypeExit MethodDescription :=
  (describeList reader (reader.parse methodPolicy item)
    (describeParam reader)).map fun (name, params) => ⟨name, params⟩

def describeType : Except TypeExit TypeDescription :=
  (describeList reader (reader.base typePolicy)
    (describeMethod reader)).map fun (name, methods) => ⟨name, methods⟩

end Describe

/-! ## What is counted -/

namespace TypeInfo

def addParam (info : TypeInfo) (param : ParamDescription) : TypeInfo :=
  let info := info.addString param.name
  { info with nPolicys := info.nPolicys + 1 }

def addMethod (info : TypeInfo) (method : MethodDescription) : TypeInfo :=
  let info := method.params.foldl addParam (info.addString method.name)
  { info with nMethods := info.nMethods + 1 }

/-- The counters of a description. -/
def ofDescription (type : TypeDescription) : TypeInfo :=
  type.methods.foldl addMethod (zero.addString type.name)

end TypeInfo

section Counted

variable {Attr : Type} (reader : AttrReader Attr)

theorem countParam_eq (info : TypeInfo) (item : Attr) :
    countParam reader info item =
      (describeParam reader item).map info.addParam := by
  rw [countParam, describeParam]
  cases reader.named (reader.parse paramsPolicy item) <;> rfl

theorem countMethod_eq (info : TypeInfo) (item : Attr) :
    countMethod reader info item =
      (describeMethod reader item).map info.addMethod := by
  rw [countMethod, describeMethod, describeList]
  cases reader.named (reader.parse methodPolicy item) with
  | error cause =>
      rfl
  | ok opened =>
      obtain ⟨name, params⟩ := opened
      cases elements : reader.elements params with
      | error cause =>
          simp only [bind, Except.bind, elements, Except.map]
      | ok items =>
          have loop := foldlM_eq_mapM (countParam_eq reader) items
            (info.addString name)
          simp only [bind, Except.bind, elements, loop]
          cases items.mapM (describeParam reader) <;> rfl

/-- The traversal counts what is described. -/
theorem countType_eq :
    countType reader = (describeType reader).map TypeInfo.ofDescription := by
  rw [countType, describeType, describeList]
  cases reader.named (reader.base typePolicy) with
  | error cause =>
      rfl
  | ok opened =>
      obtain ⟨name, methods⟩ := opened
      cases elements : reader.elements methods with
      | error cause =>
          simp only [bind, Except.bind, elements, Except.map]
      | ok items =>
          have loop := foldlM_eq_mapM (countMethod_eq reader) items
            (TypeInfo.zero.addString name)
          simp only [bind, Except.bind, elements, loop]
          cases items.mapM (describeMethod reader) <;> rfl

end Counted

/-! ## The description as fields -/

/-- The fields of a description, read as its attributes are. -/
def fieldsReader (fields : BlobmsgFields) : AttrReader FieldValue where
  base policy := parseFields policy fields
  parse policy value := parseFields policy value.members
  string := FieldValue.text
  u32 := FieldValue.u32
  items value := value.members.entries.map Prod.snd

/-- A value that an entry of a policy found has its type, or is null. -/
theorem admits_of_lookup {fields : BlobmsgFields} {entry : PolicyEntry}
    {value : FieldValue} (found : fields.lookup entry = some value)
    (typed : entry.type ≠ .unspec) :
    value.type = entry.type ∨ value.type = .unspec := by
  obtain ⟨field, first, isValue⟩ := Option.map_eq_some_iff.mp found
  have finds : entry.finds field = true := List.find?_some first
  have admits := (Bool.and_eq_true_iff.mp finds).2
  rw [isValue, PolicyEntry.admits] at admits
  simpa [typed] using admits

section Same

variable {buf : BlobBuf} {fields : BlobmsgFields}

/-- An attribute holds a value of the type that an entry asks for, or null. -/
def TypedAt (mem : Memory) (type : BlobmsgType) (attr : Nat)
    (value : FieldValue) : Prop :=
  ValueAt mem attr value ∧ (value.type = type ∨ value.type = .unspec)

theorem typedAt_of_lookup {entry : PolicyEntry} {stored : Option Nat}
    (typed : entry.type ≠ .unspec)
    (same : Option.Rel (ValueAt buf.mem) stored (fields.lookup entry)) :
    Option.Rel (TypedAt buf.mem entry.type) stored (fields.lookup entry) := by
  cases found : fields.lookup entry with
  | none =>
      rw [found] at same
      cases same
      exact Option.Rel.none
  | some value =>
      rw [found] at same
      cases same with
      | some at_ =>
          exact Option.Rel.some ⟨at_, admits_of_lookup found typed⟩

theorem bind_typedAt {Value : Type} {mem : Memory} {type : BlobmsgType}
    {stored : Option Nat} {found : Option FieldValue}
    {ofAttr : Nat → Option Value} {ofValue : FieldValue → Option Value}
    (same : Option.Rel (TypedAt mem type) stored found)
    (reads : ∀ attr value, TypedAt mem type attr value →
      ofAttr attr = ofValue value) :
    stored.bind ofAttr = found.bind ofValue := by
  cases same with
  | none => rfl
  | some at_ => exact reads _ _ at_

/-- The name and the second field are those of the fields. -/
theorem named_alike {first second : PolicyEntry} {others : BlobmsgFields}
    (string : first.type = .string) (typed : second.type ≠ .unspec)
    {table : Option (List (Option Nat))}
    (same : Option.Rel (List.Forall₂ (Option.Rel (ValueAt buf.mem))) table
      (parseFields [first, second] fields)) :
    Alike (fun left right => left.1 = right.1 ∧
        Option.Rel (TypedAt buf.mem second.type) left.2 right.2)
      ((blobReader buf).named table)
      ((fieldsReader others).named (parseFields [first, second] fields)) := by
  rw [parseFields] at same ⊢
  by_cases refuses : (fields.entries.any fun field =>
      [first, second].any fun entry => entry.refuses field) = true
  · rw [if_pos refuses] at same ⊢
    cases same
    exact rfl
  · rw [if_neg refuses] at same ⊢
    cases same with
    | some rows =>
        cases rows with
        | @cons name _ _ _ isName rest =>
            cases rest with
            | @cons list _ _ _ isList none =>
                cases none
                have nameTyped := typedAt_of_lookup
                  (by rw [string]; decide) isName
                have listTyped := typedAt_of_lookup typed isList
                have text : name.bind (payloadString buf.mem) =
                    (fields.lookup first).bind FieldValue.text :=
                  bind_typedAt nameTyped fun attr value at_ =>
                    payloadString_value at_.1 (string ▸ at_.2)
                show Alike _
                  (match name.bind (payloadString buf.mem) with
                    | none => .error TypeExit.absentField
                    | some name => .ok (name, list))
                  (match (fields.lookup first).bind FieldValue.text with
                    | none => .error TypeExit.absentField
                    | some name => .ok (name, fields.lookup second))
                rw [text]
                cases (fields.lookup first).bind FieldValue.text with
                | none => exact rfl
                | some text => exact ⟨rfl, listTyped⟩

variable {others : BlobmsgFields}

theorem elements_alike {list : Option Nat} {found : Option FieldValue}
    (same : Option.Rel (TypedAt buf.mem .array) list found) :
    Alike (List.Forall₂ (ValueAt buf.mem))
      ((blobReader buf).elements list)
      ((fieldsReader others).elements found) := by
  cases same with
  | none => exact rfl
  | some at_ => exact blobmsgItems_value at_.1 at_.2

theorem describeList_alike {Item : Type} {first second : PolicyEntry}
    (string : first.type = .string) (array : second.type = .array)
    {table : Option (List (Option Nat))}
    (same : Option.Rel (List.Forall₂ (Option.Rel (ValueAt buf.mem))) table
      (parseFields [first, second] fields))
    {each : Nat → Except TypeExit Item}
    {eachOf : FieldValue → Except TypeExit Item}
    (items : ∀ attr value, ValueAt buf.mem attr value →
      each attr = eachOf value) :
    describeList (blobReader buf) table each =
      describeList (fieldsReader others) (parseFields [first, second] fields)
        eachOf := by
  apply alike_eq_iff.mp
  apply (named_alike string (by rw [array]; decide) same).bind
  rintro ⟨name, list⟩ ⟨_, found⟩ ⟨rfl, isList⟩
  rw [array] at isList
  apply (elements_alike isList).bind
  intro attrs values isItems
  apply (Alike.mapM isItems fun attr value at_ =>
    alike_eq_iff.mpr (items attr value at_)).bind
  intro left right sameItems
  exact congrArg (name, ·) (List.forall₂_eq_eq_eq ▸ sameItems)

theorem describeParam_alike {attr : Nat} {value : FieldValue}
    (at_ : ValueAt buf.mem attr value) :
    describeParam (blobReader buf) attr =
      describeParam (fieldsReader others) value := by
  apply alike_eq_iff.mp
  apply (named_alike rfl (by decide)
    (parsedTable_value (by decide) (by decide) at_)).map
  rintro ⟨name, type⟩ ⟨_, found⟩ ⟨rfl, isType⟩
  exact congrArg (ParamDescription.mk name)
    (bind_typedAt isType fun attr value at_ => payloadU32_value at_.1 at_.2)

theorem describeMethod_alike {attr : Nat} {value : FieldValue}
    (at_ : ValueAt buf.mem attr value) :
    describeMethod (blobReader buf) attr =
      describeMethod (fieldsReader others) value := by
  rw [describeMethod, describeMethod]
  congr 1
  exact describeList_alike rfl rfl
    (parsedTable_value (by decide) (by decide) at_)
    fun _ _ => describeParam_alike

end Same

/-- What is described in a buffer of zeros that an object was read into. -/
theorem describeType_object {members : JsonMembers}
    (integral : JsonMembers.integral members = true)
    (small : 4 + (storedMembers members).encode.length < 16777216) (id : Nat) :
    describeType
        (blobReader (blobmsgAddObject (BlobBuf.fresh.blobBufInit id) members).2) =
      describeType (fieldsReader (storedMembers members)) := by
  have added := fst_blobmsgAddObject (BlobBuf.fresh.blobBufInit id) members
  rw [integral] at added
  rw [describeType, describeType]
  congr 1
  exact describeList_alike rfl rfl
    (parsedTable_fields (by decide) (walk_object (Prod.ext added rfl) small))
    fun _ _ => describeMethod_alike

/-! ## What is used of a description -/

/-- The levels of a description. -/
inductive TypeLevel where
  | type
  | method
  | param
  deriving DecidableEq, Repr

def TypeLevel.policy : TypeLevel → List PolicyEntry
  | .type => typePolicy
  | .method => methodPolicy
  | .param => paramsPolicy

/-- Fields of a description, on one of its levels. -/
structure TypeElement where
  level : TypeLevel
  fields : BlobmsgFields

namespace TypeElement

variable (element : TypeElement)

/-- What the policy of the level finds. -/
def field (index : Nat) : Option FieldValue :=
  (element.level.policy.map element.fields.lookup).getD index none

/-- `blobmsg_parse` gives up. -/
def refused : Bool :=
  (parseFields element.level.policy element.fields).isNone

/-- There is a name that is a string, and what is gone through is there. -/
def complete : Bool :=
  ((element.field 0).bind FieldValue.text).isSome &&
    (element.level = .param || (element.field 1).isSome)

/-- The values in the list of the element. -/
def items : List FieldValue :=
  (element.field 1).elim [] fun list => list.members.entries.map Prod.snd

/-- How the traversal ends at the element. -/
def verdict : Option TypeExit :=
  if element.refused then some .finalize
  else if element.complete then none
  else some .absentField

end TypeElement

/-- A method and its parameters. -/
def methodElements (method : FieldValue) : List TypeElement :=
  ⟨.method, method.members⟩ ::
    (TypeElement.items ⟨.method, method.members⟩).map fun param =>
      ⟨.param, param.members⟩

/-- The elements of a description in the order in which they are come to. -/
def typeElements (fields : BlobmsgFields) : List TypeElement :=
  ⟨.type, fields⟩ ::
    (TypeElement.items ⟨.type, fields⟩).flatMap methodElements

section Failure

variable {fields others : BlobmsgFields}

theorem parseFields_some {policy : List PolicyEntry}
    {table : List (Option FieldValue)}
    (parsed : parseFields policy fields = some table) :
    table = policy.map fields.lookup := by
  rw [parseFields] at parsed
  split at parsed
  · cases parsed
  · exact (Option.some.inj parsed).symm

theorem failureOf_map {Value Other : Type} (map : Value → Other)
    (computed : Except TypeExit Value) :
    failureOf (computed.map map) = failureOf computed := by
  cases computed <;> rfl

/-- The name and the second field of an element. -/
theorem named_element (element : TypeElement) :
    (fieldsReader others).named
        (parseFields element.level.policy element.fields) =
      if element.refused then .error .finalize
      else
        match (element.field 0).bind FieldValue.text with
        | none => .error .absentField
        | some name => .ok (name, element.field 1) := by
  rw [AttrReader.named.eq_def, TypeElement.refused]
  cases parsed : parseFields element.level.policy element.fields with
  | none =>
      rfl
  | some table =>
      rw [parseFields_some parsed]
      rfl

theorem failureOf_describeParam (value : FieldValue) :
    failureOf (describeParam (fieldsReader others) value) =
      TypeElement.verdict ⟨.param, value.members⟩ := by
  have named := @named_element others ⟨.param, value.members⟩
  rw [describeParam, failureOf_map, TypeElement.verdict]
  refine (congrArg failureOf named).trans ?_
  cases TypeElement.refused ⟨.param, value.members⟩ with
  | true =>
      rfl
  | false =>
      rw [TypeElement.complete]
      cases (TypeElement.field ⟨.param, value.members⟩ 0).bind
          FieldValue.text <;> rfl

theorem failureOf_describeList {Item : Type} {level : TypeLevel}
    (notParam : level ≠ .param) (each : FieldValue → Except TypeExit Item) :
    failureOf (describeList (fieldsReader others)
        (parseFields level.policy fields) each) =
      (TypeElement.verdict ⟨level, fields⟩).or
        ((TypeElement.items ⟨level, fields⟩).findSome? fun value =>
          failureOf (each value)) := by
  have named := @named_element others ⟨level, fields⟩
  rw [describeList, show (fieldsReader others).named
    (parseFields level.policy fields) = _ from named, TypeElement.verdict]
  cases TypeElement.refused ⟨level, fields⟩ with
  | true =>
      rfl
  | false =>
      rw [TypeElement.complete, TypeElement.items, ← failureOf_mapM]
      cases (TypeElement.field ⟨level, fields⟩ 0).bind FieldValue.text with
      | none =>
          rfl
      | some name =>
          cases TypeElement.field ⟨level, fields⟩ 1 with
          | none =>
              simp [notParam, AttrReader.elements, bind, Except.bind, failureOf]
          | some list =>
              rw [Option.isSome_some, Option.isSome_some, Bool.or_true]
              show failureOf
                (List.mapM each (list.members.entries.map Prod.snd) >>=
                  fun found => pure (name, found)) =
                failureOf
                  (List.mapM each (list.members.entries.map Prod.snd))
              cases List.mapM each (list.members.entries.map Prod.snd) <;> rfl

theorem failureOf_describeMethod (value : FieldValue) :
    failureOf (describeMethod (fieldsReader others) value) =
      (methodElements value).findSome? TypeElement.verdict := by
  rw [describeMethod, failureOf_map, methodElements, List.findSome?_cons,
    List.findSome?_map]
  refine (@failureOf_describeList value.members others _ .method (by decide)
    (describeParam (fieldsReader others))).trans ?_
  simp only [failureOf_describeParam]
  cases TypeElement.verdict ⟨.method, value.members⟩ <;> rfl

/-- A description fails at the first of its elements that lets it fail. -/
theorem failureOf_describeType (fields : BlobmsgFields) :
    failureOf (describeType (fieldsReader fields)) =
      (typeElements fields).findSome? TypeElement.verdict := by
  rw [describeType, failureOf_map, typeElements, List.findSome?_cons,
    findSome?_flatMap]
  refine (@failureOf_describeList fields fields _ .type (by decide)
    (describeMethod (fieldsReader fields))).trans ?_
  simp only [failureOf_describeMethod]
  cases TypeElement.verdict ⟨.type, fields⟩ <;> rfl

end Failure

/-- Up to the first element of the description that `blobmsg_parse` gives up,
nothing is missing that is used. -/
def Described (fields : BlobmsgFields) : Prop :=
  ∀ element ∈ (typeElements fields).takeWhile (fun element => !element.refused),
    element.complete = true

instance (fields : BlobmsgFields) : Decidable (Described fields) :=
  inferInstanceAs (Decidable (∀ element ∈ List.takeWhile _ _, _ = true))

theorem failureOf_ne_absentField_iff (fields : BlobmsgFields) :
    failureOf (describeType (fieldsReader fields)) ≠ some .absentField ↔
      Described fields := by
  rw [failureOf_describeType]
  exact findSome?_ne_iff (by decide) (fun _ => rfl) _

/-! ## A text -/

section Text

variable {jsonTokenerParse : List UInt8 → Option JsonValue}
    {typeJson : List UInt8}

theorem readDescription_object {members : JsonMembers}
    (parsed : jsonTokenerParse typeJson = some (.object members)) :
    readDescription jsonTokenerParse typeJson =
      if JsonMembers.integral members then
        .ok (blobmsgAddObject
          (BlobBuf.fresh.blobBufInit BlobmsgType.array.id) members).2
      else .error .finalize := by
  rw [readDescription, blobmsgAddJsonFromString, parsed, blobmsgAddJson,
    ← fst_blobmsgAddObject]

theorem readDescription_other
    (other : ∀ members, jsonTokenerParse typeJson ≠ some (.object members)) :
    readDescription jsonTokenerParse typeJson = .error .finalize := by
  rw [readDescription, blobmsgAddJsonFromString]
  cases parsed : jsonTokenerParse typeJson with
  | none =>
      rfl
  | some value =>
      cases value with
      | object members => exact absurd parsed (other members)
      | _ => rfl

/-- What is counted of a text that is an object without fractions. -/
theorem typeInfo_object {members : JsonMembers}
    (parsed : jsonTokenerParse typeJson = some (.object members))
    (integral : JsonMembers.integral members = true)
    (small : 4 + (storedMembers members).encode.length < 16777216) :
    typeInfo jsonTokenerParse typeJson =
      (describeType (fieldsReader (storedMembers members))).map
        TypeInfo.ofDescription := by
  rw [typeInfo, readDescription_object parsed, if_pos integral,
    ← describeType_object integral small BlobmsgType.array.id]
  exact countType_eq _

/-- The text describes a type, as far as it is gone through, or is refused as a
whole: it is no object, or holds a number that is not an integer. -/
def DescribedText (value : Option JsonValue) : Prop :=
  ∀ members, value = some (.object members) →
    JsonMembers.integral members = true → Described (storedMembers members)

/-- What `ubus_get_type_info` returns is -1 or the size of what it counted. -/
def Returned (sizes : TypeSizes) (counted : Except TypeExit TypeInfo)
    (ret : Int) : Prop :=
  (counted = .error .finalize ∧ ret = -1) ∨
    ∃ info, counted = .ok info ∧ ret = info.size sizes

theorem ubusGetTypeInfo_isSome_iff (sizes : TypeSizes) :
    (∃ ret, ubusGetTypeInfo sizes jsonTokenerParse typeJson = some ret ∧
        Returned sizes (typeInfo jsonTokenerParse typeJson) ret) ↔
      failureOf (typeInfo jsonTokenerParse typeJson) ≠ some .absentField := by
  rw [ubusGetTypeInfo]
  cases typeInfo jsonTokenerParse typeJson with
  | ok info =>
      exact iff_of_true ⟨_, rfl, Or.inr ⟨info, rfl, rfl⟩⟩ nofun
  | error cause =>
      cases cause with
      | finalize => exact iff_of_true ⟨-1, rfl, Or.inl ⟨rfl, rfl⟩⟩ nofun
      | absentField => exact iff_of_false nofun fun differ => differ rfl

/-- Nothing is counted of a text that is refused as a whole. -/
theorem typeInfo_refused
    (refused : ∀ members, jsonTokenerParse typeJson = some (.object members) →
      JsonMembers.integral members = false) :
    typeInfo jsonTokenerParse typeJson = .error .finalize := by
  rw [typeInfo]
  by_cases object : ∃ members,
      jsonTokenerParse typeJson = some (.object members)
  · obtain ⟨members, parsed⟩ := object
    rw [readDescription_object parsed, refused members parsed,
      if_neg (by decide)]
    rfl
  · rw [readDescription_other fun members parsed => object ⟨members, parsed⟩]
    rfl

end Text

/-- `ubus_get_type_info` ends by returning -1 or the size if and only if nothing
that it uses is missing: the names are strings, and the lists it goes through
are arrays or null. -/
theorem ubusGetTypeInfo_returns_iff (sizes : TypeSizes)
    (jsonTokenerParse : List UInt8 → Option JsonValue) (typeJson : List UInt8)
    (small : ∀ value ∈ jsonTokenerParse typeJson,
      tableLength value < 16777216) :
    (∃ ret, ubusGetTypeInfo sizes jsonTokenerParse typeJson = some ret ∧
        Returned sizes (typeInfo jsonTokenerParse typeJson) ret) ↔
      DescribedText (jsonTokenerParse typeJson) := by
  rw [ubusGetTypeInfo_isSome_iff]
  by_cases stored : ∃ members,
      jsonTokenerParse typeJson = some (.object members) ∧
        JsonMembers.integral members = true
  · obtain ⟨members, parsed, integral⟩ := stored
    have fits : 4 + (storedMembers members).encode.length < 16777216 :=
      small _ parsed
    rw [typeInfo_object parsed integral fits, failureOf_map,
      failureOf_ne_absentField_iff, parsed]
    constructor
    · intro described other same _
      rw [← JsonValue.object.inj (Option.some.inj same)]
      exact described
    · intro described
      exact described members rfl integral
  · have refused : ∀ members,
        jsonTokenerParse typeJson = some (.object members) →
          JsonMembers.integral members = false :=
      fun members parsed => eq_false_of_ne_true fun integral =>
        stored ⟨members, parsed, integral⟩
    rw [typeInfo_refused refused]
    exact iff_of_true nofun fun members parsed integral =>
      absurd ⟨members, parsed, integral⟩ stored

/-- `{"name":"a","method":null}` describes a type without methods. -/
theorem ubusGetTypeInfo_returns_iff_noMethods :
    let typeJson := ascii "\x7b\"name\":\"a\",\"method\":null\x7d"
    (∃ ret, ubusGetTypeInfo TypeSizes.lp64 jsonValue? typeJson = some ret ∧
        Returned TypeSizes.lp64 (typeInfo jsonValue? typeJson) ret) ↔
      DescribedText (jsonValue? typeJson) :=
  ubusGetTypeInfo_returns_iff TypeSizes.lp64 jsonValue? _ (by decide +kernel)

/-- The description of `ubus_test.c` has no name, and `strlen` reads through the
null pointer. -/
theorem ubusGetTypeInfo_nameless :
    let params := "\x7b\"name\": \"one\",\"type\": 5\x7d," ++
      "\x7b\"name\": \"two\",\"type\": 4\x7d"
    let typeJson := ascii ("\x7b\"method\": [" ++
      ("\x7b\"name\": \"hello\",\"policy\": [" ++ params ++ "]\x7d,") ++
      ("\x7b\"name\": \"byebye\",\"policy\": [" ++ params ++ "]\x7d") ++
      "]\x7d")
    ubusGetTypeInfo TypeSizes.lp64 jsonValue? typeJson = none := by
  intro params typeJson
  let items := JsonItems.cons
    (.object (.cons (ascii "name") (.string (ascii "one"))
      (.cons (ascii "type") (.int 5) .nil)))
    (.cons
      (.object (.cons (ascii "name") (.string (ascii "two"))
        (.cons (ascii "type") (.int 4) .nil)))
      .nil)
  let members := JsonMembers.cons (ascii "method")
    (.array (.cons
      (.object (.cons (ascii "name") (.string (ascii "hello"))
        (.cons (ascii "policy") (.array items) .nil)))
      (.cons
        (.object (.cons (ascii "name") (.string (ascii "byebye"))
          (.cons (ascii "policy") (.array items) .nil)))
        .nil)))
    .nil
  have parsed : jsonValue? typeJson = some (.object members) := by
    decide +kernel
  have counted := typeInfo_object parsed (by decide) (by decide +kernel)
  have absent : describeType (fieldsReader (storedMembers members)) =
      .error .absentField := by
    rfl
  rw [ubusGetTypeInfo, counted, absent]
  rfl

end LibubusJni.Wrapper
