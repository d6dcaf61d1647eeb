import Mathlib.Algebra.GroupWithZero.Nat
import LibubusJni.Wrapper.TypeInfo

/-!
# Object types from their descriptions: `ubus_parse_object_type`

`ubus_wrap_add_object` lays out one block for the type, its methods, their
policies and all names, as large as `ubus_get_type_info` says.  The second
traversal fills it through four pointers that move on.  It reads the type of
every parameter, which the first one leaves alone.
-/

namespace LibubusJni.Wrapper

open LibubusJni.Lib LibubusJni.Libubox

/-! ## The block -/

/-- The parts of the block. -/
inductive TypeRegion where
  | type
  | method
  | policy
  | strings
  deriving DecidableEq, Repr

/-- Where the parts begin, and `limit`, where the last one ends. -/
structure TypeLayout where
  type : Nat
  method : Nat
  policy : Nat
  strings : Nat
  limit : Nat

namespace TypeLayout

variable (layout : TypeLayout)

/-- How `ubus_wrap_add_object` lays out the block at `base_buf`. -/
def ofInfo (sizes : TypeSizes) (base : Nat) (info : TypeInfo) : TypeLayout where
  type := base
  method := base + sizes.objectType
  policy := base + sizes.objectType + info.nMethods * sizes.method
  strings := base + sizes.objectType + info.nMethods * sizes.method +
    info.nPolicys * sizes.policy
  limit := base + info.size sizes

def start : TypeRegion → Nat
  | .type => layout.type
  | .method => layout.method
  | .policy => layout.policy
  | .strings => layout.strings

def stop : TypeRegion → Nat
  | .type => layout.method
  | .method => layout.policy
  | .policy => layout.strings
  | .strings => layout.limit

/-- The parts lie one behind the other. -/
def Ordered : Prop :=
  layout.type ≤ layout.method ∧ layout.method ≤ layout.policy ∧
    layout.policy ≤ layout.strings ∧ layout.strings ≤ layout.limit

end TypeLayout

/-- `struct ubus_object_type`; names, methods and policies are addresses. -/
structure UbusObjectType where
  name : Nat
  methods : Nat
  nMethods : Nat
  deriving DecidableEq, Repr

/-- `struct ubus_method`; the handler is the same for all. -/
structure UbusMethod where
  name : Nat
  policy : Nat
  nPolicy : Nat
  deriving DecidableEq, Repr

/-- `struct blobmsg_policy`. -/
structure BlobmsgPolicy where
  name : Nat
  type : UInt32
  deriving DecidableEq, Repr

/-- A write into one of the parts. -/
structure TypeWrite where
  region : TypeRegion
  addr : Nat
  len : Nat
  deriving DecidableEq, Repr

/-- The second traversal: the pointers of `myinfo`, what the block holds in each
of its parts, and the writes so far. -/
structure TypeBlock where
  type : Nat
  method : Nat
  policy : Nat
  strings : Nat
  object : UbusObjectType
  methods : Nat → UbusMethod
  policies : Nat → BlobmsgPolicy
  chars : Memory
  writes : List TypeWrite

namespace TypeBlock

/-- The block as `calloc` returns it. -/
def ofLayout (layout : TypeLayout) : TypeBlock where
  type := layout.type
  method := layout.method
  policy := layout.policy
  strings := layout.strings
  object := ⟨0, 0, 0⟩
  methods _ := ⟨0, 0, 0⟩
  policies _ := ⟨0, 0⟩
  chars _ := 0
  writes := []

variable (sizes : TypeSizes) (block : TypeBlock)

/-- A write to `myinfo.type`. -/
def writeType (object : UbusObjectType) : TypeBlock :=
  { block with
    object := object
    writes := ⟨.type, block.type, sizes.objectType⟩ :: block.writes }

/-- A write to `myinfo.method`. -/
def writeMethod (method : UbusMethod) : TypeBlock :=
  { block with
    methods := Function.update block.methods block.method method
    writes := ⟨.method, block.method, sizes.method⟩ :: block.writes }

/-- A write to `myinfo.policy`. -/
def writePolicy (policy : BlobmsgPolicy) : TypeBlock :=
  { block with
    policies := Function.update block.policies block.policy policy
    writes := ⟨.policy, block.policy, sizes.policy⟩ :: block.writes }

/-- The name of the type, and its methods, of which there are none yet. -/
def openType (buf : Nat) : TypeBlock :=
  block.writeType sizes
    { block.object with
      name := buf
      methods := block.method
      nMethods := 0 }

/-- The name of the method, and its policies, of which there are none yet. -/
def openMethod (buf : Nat) : TypeBlock :=
  block.writeMethod sizes
    { block.methods block.method with
      name := buf
      policy := block.policy
      nPolicy := 0 }

/-- `n_methods++` and `myinfo.method++`. -/
def closeMethod : TypeBlock :=
  let block := block.writeType sizes
    { block.object with nMethods := block.object.nMethods + 1 }
  { block with method := block.method + sizes.method }

/-- The name of the policy. -/
def openPolicy (buf : Nat) : TypeBlock :=
  block.writePolicy sizes { block.policies block.policy with name := buf }

/-- The type of the policy, `n_policy++` and `myinfo.policy++`. -/
def closePolicy (type : UInt32) : TypeBlock :=
  let block := block.writePolicy sizes
    { block.policies block.policy with type := type }
  let method := block.methods block.method
  let block := block.writeMethod sizes
    { method with nPolicy := method.nPolicy + 1 }
  { block with policy := block.policy + sizes.policy }

end TypeBlock

/-! ## The second traversal -/

/-- How the second traversal ends early. -/
inductive ParseExit where
  | early (exit : TypeExit)
  | assertion
  deriving DecidableEq, Repr

/-- `wrap_string`; the first component is what it returns. -/
def wrapString (block : TypeBlock) (limit : Nat) (str : List UInt8) :
    Except ParseExit (Nat × TypeBlock) :=
  let buf := block.strings
  if block.strings + str.length < limit then
    .ok (buf,
      { block with
        chars := store block.chars block.strings (str ++ [0])
        strings := block.strings + str.length + 1
        writes := ⟨.strings, block.strings, str.length + 1⟩ :: block.writes })
  else .error .assertion

/-- `assert`. -/
def assertion (holds : Bool) : Except ParseExit Unit :=
  if holds then .ok () else .error .assertion

section Parse

variable {Attr : Type} (sizes : TypeSizes) (reader : AttrReader Attr)
    (limit : Nat)

/-- The body of the inner loop. -/
def parseParam (block : TypeBlock) (item : Attr) :
    Except ParseExit TypeBlock := do
  let (name, type) ←
    (reader.named (reader.parse paramsPolicy item)).mapError .early
  let (buf, block) ← wrapString block limit name
  let block := block.openPolicy sizes buf
  match type.bind reader.u32 with
  | none => .error (.early .absentField)
  | some type =>
      let block := block.closePolicy sizes type
      assertion (block.policy < limit)
      return block

/-- The body of the outer loop. -/
def parseMethod (block : TypeBlock) (item : Attr) :
    Except ParseExit TypeBlock := do
  let (name, params) ←
    (reader.named (reader.parse methodPolicy item)).mapError .early
  let (buf, block) ← wrapString block limit name
  let block := block.openMethod sizes buf
  let items ← (reader.elements params).mapError .early
  let block ← items.foldlM (parseParam sizes reader limit) block
  let block := block.closeMethod sizes
  assertion (block.method < limit)
  return block

/-- The traversal of a description. -/
def parseType (block : TypeBlock) : Except ParseExit TypeBlock := do
  let (name, methods) ←
    (reader.named (reader.base typePolicy)).mapError .early
  let (buf, block) ← wrapString block limit name
  let block := block.openType sizes buf
  let items ← (reader.elements methods).mapError .early
  items.foldlM (parseMethod sizes reader limit) block

end Parse

/-- `ubus_parse_object_type`; the block that it fills is returned instead of its
address, which is `myinfo.type`. -/
def ubusParseObjectType (sizes : TypeSizes)
    (jsonTokenerParse : List UInt8 → Option JsonValue) (typeJson : List UInt8)
    (block : TypeBlock) (limit : Nat) : Except ParseExit TypeBlock := do
  let buf ← (readDescription jsonTokenerParse typeJson).mapError .early
  parseType sizes (blobReader buf) limit block

/-! ## What a block holds -/

/-- The string that a pointer into the block points to. -/
def TypeBlock.string (block : TypeBlock) (ptr : Nat) : List UInt8 :=
  stringAt block.chars (block.strings - ptr) ptr

section Read

variable (sizes : TypeSizes) (block : TypeBlock)

/-- `n_policy` entries from an address on. -/
def readPolicies : (count addr : Nat) → List ParamDescription
  | 0, _ => []
  | count + 1, addr =>
      ⟨block.string (block.policies addr).name,
        some (block.policies addr).type⟩ ::
        readPolicies count (addr + sizes.policy)

/-- `n_methods` entries from an address on. -/
def readMethods : (count addr : Nat) → List MethodDescription
  | 0, _ => []
  | count + 1, addr =>
      ⟨block.string (block.methods addr).name,
        readPolicies sizes block (block.methods addr).nPolicy
          (block.methods addr).policy⟩ ::
        readMethods count (addr + sizes.method)

/-- The type that the block holds. -/
def readType : TypeDescription where
  name := block.string block.object.name
  methods := readMethods sizes block block.object.nMethods block.object.methods

end Read

/-! ## What is filled in -/

section Build

variable (sizes : TypeSizes) (limit : Nat)

/-- The body of the inner loop for a parameter. -/
def buildParam (block : TypeBlock) (param : ParamDescription) :
    Except ParseExit TypeBlock := do
  let (buf, block) ← wrapString block limit param.name
  let block := block.openPolicy sizes buf
  match param.type with
  | none => .error (.early .absentField)
  | some type =>
      let block := block.closePolicy sizes type
      assertion (block.policy < limit)
      return block

/-- The body of the outer loop for a method. -/
def buildMethod (block : TypeBlock) (method : MethodDescription) :
    Except ParseExit TypeBlock := do
  let (buf, block) ← wrapString block limit method.name
  let block := block.openMethod sizes buf
  let block ← method.params.foldlM (buildParam sizes limit) block
  let block := block.closeMethod sizes
  assertion (block.method < limit)
  return block

def buildType (block : TypeBlock) (type : TypeDescription) :
    Except ParseExit TypeBlock := do
  let (buf, block) ← wrapString block limit type.name
  let block := block.openType sizes buf
  type.methods.foldlM (buildMethod sizes limit) block

variable {Attr : Type} {reader : AttrReader Attr}

theorem parseParam_eq {block : TypeBlock} {item : Attr}
    {param : ParamDescription} (described : describeParam reader item = .ok param) :
    parseParam sizes reader limit block item =
      buildParam sizes limit block param := by
  rw [describeParam] at described
  rw [parseParam]
  cases named : reader.named (reader.parse paramsPolicy item) with
  | error cause =>
      rw [named] at described
      cases described
  | ok opened =>
      rw [named] at described
      rw [← Except.ok.inj described]
      rfl

/-- What is described tells how a list was gone through. -/
theorem describeList_ok {Item : Type} {table : Option (List (Option Attr))}
    {each : Attr → Except TypeExit Item} {name : List UInt8}
    {found : List Item}
    (described : describeList reader table each = .ok (name, found)) :
    ∃ list items, reader.named table = .ok (name, list) ∧
      reader.elements list = .ok items ∧ items.mapM each = .ok found := by
  rw [describeList] at described
  cases named : reader.named table with
  | error cause =>
      rw [named] at described
      cases described
  | ok opened =>
      obtain ⟨opened, list⟩ := opened
      rw [named] at described
      cases elements : reader.elements list with
      | error cause =>
          simp only [bind, Except.bind, elements] at described
          cases described
      | ok items =>
          cases each' : items.mapM each with
          | error cause =>
              simp only [bind, Except.bind, elements, each'] at described
              cases described
          | ok others =>
              simp only [bind, Except.bind, elements, each'] at described
              obtain ⟨sameName, sameFound⟩ :=
                Prod.mk.inj (Except.ok.inj described)
              rw [← sameName, ← sameFound]
              exact ⟨list, items, rfl, elements, each'⟩

theorem describeMethod_ok {item : Attr} {method : MethodDescription}
    (described : describeMethod reader item = .ok method) :
    ∃ list items,
      reader.named (reader.parse methodPolicy item) = .ok (method.name, list) ∧
        reader.elements list = .ok items ∧
          items.mapM (describeParam reader) = .ok method.params := by
  rw [describeMethod] at described
  cases listed : describeList reader (reader.parse methodPolicy item)
      (describeParam reader) with
  | error cause =>
      rw [listed] at described
      cases described
  | ok found =>
      rw [listed] at described
      rw [← Except.ok.inj described]
      exact describeList_ok listed

theorem describeType_ok {type : TypeDescription}
    (described : describeType reader = .ok type) :
    ∃ list items,
      reader.named (reader.base typePolicy) = .ok (type.name, list) ∧
        reader.elements list = .ok items ∧
          items.mapM (describeMethod reader) = .ok type.methods := by
  rw [describeType] at described
  cases listed : describeList reader (reader.base typePolicy)
      (describeMethod reader) with
  | error cause =>
      rw [listed] at described
      cases described
  | ok found =>
      rw [listed] at described
      rw [← Except.ok.inj described]
      exact describeList_ok listed

theorem parseMethod_eq {block : TypeBlock} {item : Attr}
    {method : MethodDescription}
    (described : describeMethod reader item = .ok method) :
    parseMethod sizes reader limit block item =
      buildMethod sizes limit block method := by
  obtain ⟨list, items, named, elements, each⟩ := describeMethod_ok described
  have loop : ∀ block, items.foldlM (parseParam sizes reader limit) block =
      method.params.foldlM (buildParam sizes limit) block :=
    foldlM_of_mapM each fun _ _ _ => parseParam_eq sizes limit
  simp only [parseMethod, buildMethod, named, elements, Except.mapError, bind,
    Except.bind]
  cases wrapString block limit method.name with
  | error cause =>
      rfl
  | ok wrapped =>
      simp only [loop]

/-- The second traversal fills in what is described. -/
theorem parseType_eq {block : TypeBlock} {type : TypeDescription}
    (described : describeType reader = .ok type) :
    parseType sizes reader limit block = buildType sizes limit block type := by
  obtain ⟨list, items, named, elements, each⟩ := describeType_ok described
  have loop : ∀ block, items.foldlM (parseMethod sizes reader limit) block =
      type.methods.foldlM (buildMethod sizes limit) block :=
    foldlM_of_mapM each fun _ _ _ => parseMethod_eq sizes limit
  simp only [parseType, buildType, named, elements, Except.mapError, bind,
    Except.bind]
  cases wrapString block limit type.name with
  | error cause =>
      rfl
  | ok wrapped =>
      exact loop _

end Build

/-! ## What stays in the block -/

/-- A string of the block. -/
structure StringAt (block : TypeBlock) (ptr : Nat) (text : List UInt8) :
    Prop where
  clean : (0 : UInt8) ∉ text
  within : ptr + text.length + 1 ≤ block.strings
  holds : Holds block.chars ptr (text ++ [0])

/-- A policy of the block, behind which the next one is filled in. -/
structure PolicyAt (block : TypeBlock) (addr : Nat) (param : ParamDescription) :
    Prop where
  within : addr < block.policy
  name : StringAt block (block.policies addr).name param.name
  type : param.type = some (block.policies addr).type

/-- Policies of the block, one behind the other. -/
def PoliciesAt (sizes : TypeSizes) (block : TypeBlock) :
    Nat → List ParamDescription → Prop
  | _, [] => True
  | addr, param :: params =>
      PolicyAt block addr param ∧
        PoliciesAt sizes block (addr + sizes.policy) params

/-- A method of the block. -/
structure MethodAt (sizes : TypeSizes) (block : TypeBlock) (addr : Nat)
    (method : MethodDescription) : Prop where
  within : addr < block.method
  name : StringAt block (block.methods addr).name method.name
  count : (block.methods addr).nPolicy = method.params.length
  policies : PoliciesAt sizes block (block.methods addr).policy method.params

/-- Methods of the block, one behind the other. -/
def MethodsAt (sizes : TypeSizes) (block : TypeBlock) :
    Nat → List MethodDescription → Prop
  | _, [] => True
  | addr, method :: methods =>
      MethodAt sizes block addr method ∧
        MethodsAt sizes block (addr + sizes.method) methods

/-- The pointers have moved on, and what lies in front of them stays. -/
structure Later (old new : TypeBlock) : Prop where
  method : old.method ≤ new.method
  policy : old.policy ≤ new.policy
  strings : old.strings ≤ new.strings
  methods : ∀ addr, addr < old.method → new.methods addr = old.methods addr
  policies : ∀ addr, addr < old.policy → new.policies addr = old.policies addr
  chars : ∀ addr, addr < old.strings → new.chars addr = old.chars addr

section Stays

variable {sizes : TypeSizes} {old middle new : TypeBlock}

theorem Later.trans (first : Later old middle) (second : Later middle new) :
    Later old new where
  method := Nat.le_trans first.method second.method
  policy := Nat.le_trans first.policy second.policy
  strings := Nat.le_trans first.strings second.strings
  methods addr before := by
    rw [second.methods addr (Nat.lt_of_lt_of_le before first.method),
      first.methods addr before]
  policies addr before := by
    rw [second.policies addr (Nat.lt_of_lt_of_le before first.policy),
      first.policies addr before]
  chars addr before := by
    rw [second.chars addr (Nat.lt_of_lt_of_le before first.strings),
      first.chars addr before]

variable (grown : Later old new)

include grown

theorem StringAt.later {ptr : Nat} {text : List UInt8}
    (string : StringAt old ptr text) : StringAt new ptr text := by
  have within := string.within
  refine ⟨string.clean, Nat.le_trans within grown.strings, ?_⟩
  apply string.holds.congr
  intro addr _ upper
  rw [List.length_append, List.length_singleton] at upper
  exact grown.chars addr (by omega)

theorem PolicyAt.later {addr : Nat} {param : ParamDescription}
    (policy : PolicyAt old addr param) : PolicyAt new addr param := by
  have same := grown.policies addr policy.within
  refine ⟨Nat.lt_of_lt_of_le policy.within grown.policy, ?_, ?_⟩
  · rw [same]
    exact policy.name.later grown
  · rw [same]
    exact policy.type

theorem PoliciesAt.later {addr : Nat} {params : List ParamDescription}
    (policies : PoliciesAt sizes old addr params) :
    PoliciesAt sizes new addr params := by
  induction params generalizing addr with
  | nil =>
      exact True.intro
  | cons param params inductionHypothesis =>
      exact ⟨policies.1.later grown, inductionHypothesis policies.2⟩

theorem MethodAt.later {addr : Nat} {method : MethodDescription}
    (at_ : MethodAt sizes old addr method) : MethodAt sizes new addr method := by
  have same := grown.methods addr at_.within
  refine ⟨Nat.lt_of_lt_of_le at_.within grown.method, ?_, ?_, ?_⟩
  · rw [same]
    exact at_.name.later grown
  · rw [same]
    exact at_.count
  · rw [same]
    exact at_.policies.later grown

end Stays

/-! ## What is read back -/

section ReadBack

variable {sizes : TypeSizes} {block : TypeBlock}

theorem StringAt.string {ptr : Nat} {text : List UInt8}
    (string : StringAt block ptr text) : block.string ptr = text := by
  have within := string.within
  exact stringAt_eq string.holds string.clean (by omega)

theorem PoliciesAt.read {addr : Nat} {params : List ParamDescription}
    (policies : PoliciesAt sizes block addr params) :
    readPolicies sizes block params.length addr = params := by
  induction params generalizing addr with
  | nil =>
      rfl
  | cons param params inductionHypothesis =>
      obtain ⟨first, others⟩ := policies
      rw [List.length_cons, readPolicies, inductionHypothesis others,
        first.name.string, ← first.type]

theorem MethodsAt.read {addr : Nat} {methods : List MethodDescription}
    (at_ : MethodsAt sizes block addr methods) :
    readMethods sizes block methods.length addr = methods := by
  induction methods generalizing addr with
  | nil =>
      rfl
  | cons method methods inductionHypothesis =>
      obtain ⟨first, others⟩ := at_
      rw [List.length_cons, readMethods, inductionHypothesis others,
        first.name.string, first.count, first.policies.read]

end ReadBack

/-! ## Room for what is left -/

/-- A write stays in its part of the block. -/
def TypeLayout.Holds (layout : TypeLayout) (write : TypeWrite) : Prop :=
  layout.start write.region ≤ write.addr ∧
    write.addr + write.len ≤ layout.stop write.region

/-- What is left of the parts of the block is what is still to be filled in. -/
structure Fits (sizes : TypeSizes) (layout : TypeLayout) (block : TypeBlock)
    (methods policies bytes : Nat) : Prop where
  type : block.type = layout.type
  typeRoom : layout.type + sizes.objectType = layout.method
  strict : layout.strings < layout.limit
  method : block.method + methods * sizes.method = layout.policy
  policy : block.policy + policies * sizes.policy = layout.strings
  strings : block.strings + bytes = layout.limit
  methodFrom : layout.method ≤ block.method
  policyFrom : layout.policy ≤ block.policy
  stringsFrom : layout.strings ≤ block.strings
  writes : ∀ write ∈ block.writes, layout.Holds write

section Steps

variable {sizes : TypeSizes} {layout : TypeLayout} {block : TypeBlock}
    {methods policies bytes : Nat}

/-- `wrap_string` of a string that there is room for. -/
theorem wrapString_ok {text : List UInt8}
    (fits : Fits sizes layout block methods policies (text.length + 1 + bytes))
    (clean : (0 : UInt8) ∉ text) :
    ∃ new, wrapString block layout.limit text = .ok (block.strings, new) ∧
      Fits sizes layout new methods policies bytes ∧ Later block new ∧
      StringAt new block.strings text ∧ new.method = block.method ∧
      new.policy = block.policy ∧ new.object = block.object ∧
      new.methods = block.methods := by
  have strings := fits.strings
  have room : block.strings + text.length < layout.limit := by omega
  rw [wrapString, if_pos room]
  refine ⟨_, rfl, ?_, ?_, ?_, rfl, rfl, rfl, rfl⟩
  · refine { fits with strings := ?_, stringsFrom := ?_, writes := ?_ }
    · show block.strings + text.length + 1 + bytes = layout.limit
      omega
    · exact Nat.le_trans fits.stringsFrom (by dsimp only; omega)
    · intro write member
      rcases List.mem_cons.mp member with isNew | before
      · rw [isNew]
        exact ⟨fits.stringsFrom, show block.strings + (text.length + 1) ≤
          layout.limit by omega⟩
      · exact fits.writes write before
  · refine ⟨Nat.le_refl _, Nat.le_refl _, by dsimp only; omega,
      fun _ _ => rfl, fun _ _ => rfl, fun addr before => store_of_lt before⟩
  · exact ⟨clean, Nat.le_refl _, Holds.store _ _ _⟩

theorem Fits.writeType
    (fits : Fits sizes layout block methods policies bytes)
    (object : UbusObjectType) :
    Fits sizes layout (block.writeType sizes object) methods policies bytes := by
  refine { fits with writes := ?_ }
  intro write member
  rcases List.mem_cons.mp member with isNew | before
  · rw [isNew]
    exact ⟨Nat.le_of_eq fits.type.symm, Nat.le_of_eq
      (show block.type + sizes.objectType = layout.method by
        rw [fits.type, fits.typeRoom])⟩
  · exact fits.writes write before

theorem Fits.writeMethod
    (fits : Fits sizes layout block (methods + 1) policies bytes)
    (method : UbusMethod) :
    Fits sizes layout (block.writeMethod sizes method) (methods + 1) policies
      bytes := by
  have left := fits.method
  rw [Nat.succ_mul] at left
  refine { fits with writes := ?_ }
  intro write member
  rcases List.mem_cons.mp member with isNew | before
  · rw [isNew]
    exact ⟨fits.methodFrom,
      show block.method + sizes.method ≤ layout.policy by omega⟩
  · exact fits.writes write before

theorem Fits.writePolicy
    (fits : Fits sizes layout block methods (policies + 1) bytes)
    (policy : BlobmsgPolicy) :
    Fits sizes layout (block.writePolicy sizes policy) methods (policies + 1)
      bytes := by
  have left := fits.policy
  rw [Nat.succ_mul] at left
  refine { fits with writes := ?_ }
  intro write member
  rcases List.mem_cons.mp member with isNew | before
  · rw [isNew]
    exact ⟨fits.policyFrom,
      show block.policy + sizes.policy ≤ layout.strings by omega⟩
  · exact fits.writes write before

/-- `myinfo.method++`, and the assertion behind it. -/
theorem Fits.nextMethod
    (fits : Fits sizes layout block (methods + 1) policies bytes) :
    Fits sizes layout { block with method := block.method + sizes.method }
        methods policies bytes ∧
      block.method + sizes.method < layout.limit := by
  have left := fits.method
  have behind := fits.policy
  have from_ := fits.policyFrom
  have strict := fits.strict
  rw [Nat.succ_mul] at left
  refine ⟨{ fits with method := ?_, methodFrom := ?_ }, by omega⟩
  · show block.method + sizes.method + methods * sizes.method = layout.policy
    omega
  · exact Nat.le_trans fits.methodFrom (Nat.le_add_right _ _)

/-- `myinfo.policy++`, and the assertion behind it. -/
theorem Fits.nextPolicy
    (fits : Fits sizes layout block methods (policies + 1) bytes) :
    Fits sizes layout { block with policy := block.policy + sizes.policy }
        methods policies bytes ∧
      block.policy + sizes.policy < layout.limit := by
  have left := fits.policy
  have strict := fits.strict
  rw [Nat.succ_mul] at left
  refine ⟨{ fits with policy := ?_, policyFrom := ?_ }, by omega⟩
  · show block.policy + sizes.policy + policies * sizes.policy = layout.strings
    omega
  · exact Nat.le_trans fits.policyFrom (Nat.le_add_right _ _)

theorem Fits.openMethod
    (fits : Fits sizes layout block (methods + 1) policies bytes) (buf : Nat) :
    Fits sizes layout (block.openMethod sizes buf) (methods + 1) policies
      bytes :=
  fits.writeMethod _

theorem Fits.openPolicy
    (fits : Fits sizes layout block methods (policies + 1) bytes) (buf : Nat) :
    Fits sizes layout (block.openPolicy sizes buf) methods (policies + 1)
      bytes :=
  fits.writePolicy _

theorem assertion_ok {condition : Prop} [Decidable condition]
    (holds : condition) : assertion condition = .ok () := by
  rw [assertion, if_pos (decide_eq_true holds)]

theorem Fits.closeMethod
    (fits : Fits sizes layout block (methods + 1) policies bytes) :
    Fits sizes layout (block.closeMethod sizes) methods policies bytes ∧
      (block.closeMethod sizes).method < layout.limit :=
  (fits.writeType _).nextMethod

theorem Fits.closePolicy
    (fits : Fits sizes layout block (methods + 1) (policies + 1) bytes)
    (type : UInt32) :
    Fits sizes layout (block.closePolicy sizes type) (methods + 1) policies
        bytes ∧
      (block.closePolicy sizes type).policy < layout.limit :=
  ((fits.writePolicy _).writeMethod _).nextPolicy

variable (sizes block)

theorem later_openType (buf : Nat) : Later block (block.openType sizes buf) :=
  ⟨Nat.le_refl _, Nat.le_refl _, Nat.le_refl _, fun _ _ => rfl,
    fun _ _ => rfl, fun _ _ => rfl⟩

theorem later_openMethod (buf : Nat) :
    Later block (block.openMethod sizes buf) :=
  ⟨Nat.le_refl _, Nat.le_refl _, Nat.le_refl _,
    fun _ before => Function.update_of_ne (Nat.ne_of_lt before) _ _,
    fun _ _ => rfl, fun _ _ => rfl⟩

theorem later_closeMethod : Later block (block.closeMethod sizes) :=
  ⟨Nat.le_add_right _ _, Nat.le_refl _, Nat.le_refl _, fun _ _ => rfl,
    fun _ _ => rfl, fun _ _ => rfl⟩

theorem later_openPolicy (buf : Nat) :
    Later block (block.openPolicy sizes buf) :=
  ⟨Nat.le_refl _, Nat.le_refl _, Nat.le_refl _, fun _ _ => rfl,
    fun _ before => Function.update_of_ne (Nat.ne_of_lt before) _ _,
    fun _ _ => rfl⟩

theorem later_closePolicy (type : UInt32) :
    Later block (block.closePolicy sizes type) :=
  ⟨Nat.le_refl _, Nat.le_add_right _ _, Nat.le_refl _,
    fun _ before => Function.update_of_ne (Nat.ne_of_lt before) _ _,
    fun _ before => Function.update_of_ne (Nat.ne_of_lt before) _ _,
    fun _ _ => rfl⟩

variable {sizes block}

/-- What parameters leave of the method they belong to, and of the type. -/
structure Counted (old new : TypeBlock) (params : Nat) : Prop where
  method : new.method = old.method
  object : new.object = old.object
  open_ : new.methods new.method =
    { old.methods old.method with
      nPolicy := (old.methods old.method).nPolicy + params }

/-- A parameter is filled in. -/
theorem buildParam_ok {param : ParamDescription}
    (fits : Fits sizes layout block (methods + 1) (policies + 1)
      (param.name.length + 1 + bytes))
    (clean : (0 : UInt8) ∉ param.name) (typed : param.type.isSome = true) :
    ∃ new, buildParam sizes layout.limit block param = .ok new ∧
      Fits sizes layout new (methods + 1) policies bytes ∧ Later block new ∧
      PolicyAt new block.policy param ∧
      new.policy = block.policy + sizes.policy ∧ Counted block new 1 := by
  obtain ⟨wrapped, isWrapped, wrappedFits, wrappedLater, string, method, policy,
    object, same⟩ := wrapString_ok fits clean
  obtain ⟨type, isType⟩ := Option.isSome_iff_exists.mp typed
  obtain ⟨closed, room⟩ :=
    (wrappedFits.openPolicy block.strings).closePolicy type
  have later := (later_openPolicy sizes wrapped block.strings).trans
    (later_closePolicy sizes (wrapped.openPolicy sizes block.strings) type)
  have stored : ((wrapped.openPolicy sizes block.strings).closePolicy sizes
      type).policies block.policy = ⟨block.strings, type⟩ := by
    simp [TypeBlock.closePolicy, TypeBlock.openPolicy, TypeBlock.writePolicy,
      TypeBlock.writeMethod, policy]
  refine ⟨(wrapped.openPolicy sizes block.strings).closePolicy sizes type, ?_,
    closed, wrappedLater.trans later, ⟨?_, ?_, ?_⟩, ?_, ⟨method, object, ?_⟩⟩
  · have passes := assertion_ok room
    simp only [buildParam, isWrapped, isType, bind, Except.bind, passes]
    rfl
  · show block.policy < wrapped.policy + sizes.policy
    have positive := sizes.policy_pos
    omega
  · rw [stored]
    exact string.later later
  · rw [stored, isType]
  · exact congrArg (· + sizes.policy) policy
  · rw [← method, ← same]
    exact Function.update_self _ _ _

/-- The bytes that the names of parameters take. -/
def paramsBytes (params : List ParamDescription) : Nat :=
  (params.map fun param => param.name.length + 1).sum

/-- The bytes that the names of methods and of their parameters take. -/
def methodsBytes (methods : List MethodDescription) : Nat :=
  (methods.map fun method =>
    method.name.length + 1 + paramsBytes method.params).sum

/-- The number of the parameters of methods. -/
def paramCount (methods : List MethodDescription) : Nat :=
  (methods.map fun method => method.params.length).sum

/-- Parameters are filled in one behind the other. -/
theorem buildParams_ok {params : List ParamDescription}
    (fits : Fits sizes layout block (methods + 1) (params.length + policies)
      (paramsBytes params + bytes))
    (clean : ∀ param ∈ params, (0 : UInt8) ∉ param.name)
    (typed : ∀ param ∈ params, param.type.isSome = true) :
    ∃ new, params.foldlM (buildParam sizes layout.limit) block = .ok new ∧
      Fits sizes layout new (methods + 1) policies bytes ∧ Later block new ∧
      PoliciesAt sizes new block.policy params ∧
      Counted block new params.length := by
  induction params generalizing block with
  | nil =>
      rw [List.length_nil, paramsBytes, List.map_nil, List.sum_nil,
        Nat.zero_add, Nat.zero_add] at fits
      exact ⟨block, rfl, fits,
        ⟨Nat.le_refl _, Nat.le_refl _, Nat.le_refl _, fun _ _ => rfl,
          fun _ _ => rfl, fun _ _ => rfl⟩, True.intro, ⟨rfl, rfl, rfl⟩⟩
  | cons param params inductionHypothesis =>
      have left : paramsBytes (param :: params) + bytes =
          param.name.length + 1 + (paramsBytes params + bytes) := by
        rw [paramsBytes, List.map_cons, List.sum_cons, Nat.add_assoc]
        rfl
      rw [List.length_cons, Nat.add_right_comm, left] at fits
      obtain ⟨middle, isMiddle, middleFits, middleLater, first, next, counted⟩ :=
        buildParam_ok fits (clean param List.mem_cons_self)
          (typed param List.mem_cons_self)
      obtain ⟨new, isNew, newFits, newLater, others, rest⟩ :=
        inductionHypothesis middleFits
          (fun other member => clean other (List.mem_cons_of_mem _ member))
          (fun other member => typed other (List.mem_cons_of_mem _ member))
      rw [next] at others
      refine ⟨new, ?_, newFits, middleLater.trans newLater,
        ⟨first.later newLater, others⟩, ⟨rest.method.trans counted.method,
          rest.object.trans counted.object, ?_⟩⟩
      · rw [List.foldlM_cons, isMiddle]
        exact isNew
      · rw [rest.open_, counted.open_, List.length_cons]
        simp only [Nat.add_assoc, Nat.add_comm 1]

/-- A method is filled in. -/
theorem buildMethod_ok {method : MethodDescription}
    (fits : Fits sizes layout block (methods + 1)
      (method.params.length + policies)
      (method.name.length + 1 + (paramsBytes method.params + bytes)))
    (clean : (0 : UInt8) ∉ method.name)
    (cleanParams : ∀ param ∈ method.params, (0 : UInt8) ∉ param.name)
    (typed : ∀ param ∈ method.params, param.type.isSome = true) :
    ∃ new, buildMethod sizes layout.limit block method = .ok new ∧
      Fits sizes layout new methods policies bytes ∧ Later block new ∧
      MethodAt sizes new block.method method ∧
      new.method = block.method + sizes.method ∧
      new.object = { block.object with nMethods := block.object.nMethods + 1 } := by
  obtain ⟨wrapped, isWrapped, wrappedFits, wrappedLater, string, isMethod, _,
    object, _⟩ := wrapString_ok fits clean
  obtain ⟨filled, isFilled, filledFits, filledLater, policiesAt, counted⟩ :=
    buildParams_ok (wrappedFits.openMethod block.strings) cleanParams typed
  obtain ⟨closed, room⟩ := filledFits.closeMethod
  have opened := later_openMethod sizes wrapped block.strings
  have close := later_closeMethod sizes filled
  have isFilledMethod : filled.method = block.method :=
    counted.method.trans isMethod
  have stored : (filled.closeMethod sizes).methods block.method =
      ⟨block.strings, wrapped.policy, method.params.length⟩ := by
    have open_ := counted.open_
    rw [isFilledMethod] at open_
    show filled.methods block.method = _
    rw [open_]
    simp [TypeBlock.openMethod, TypeBlock.writeMethod]
  refine ⟨filled.closeMethod sizes, ?_, closed,
    wrappedLater.trans (opened.trans (filledLater.trans close)),
    ⟨?_, ?_, ?_, ?_⟩, ?_, ?_⟩
  · have passes := assertion_ok room
    simp only [buildMethod, isWrapped, isFilled, bind, Except.bind, passes]
    rfl
  · show block.method < filled.method + sizes.method
    have positive := sizes.method_pos
    omega
  · rw [stored]
    exact string.later (opened.trans (filledLater.trans close))
  · rw [stored]
  · rw [stored]
    exact policiesAt.later close
  · exact congrArg (· + sizes.method) isFilledMethod
  · show ({ filled.object with nMethods := filled.object.nMethods + 1 } :
      UbusObjectType) = _
    rw [counted.object]
    show ({ wrapped.object with nMethods := wrapped.object.nMethods + 1 } :
      UbusObjectType) = _
    rw [object]

/-- Methods are filled in one behind the other. -/
theorem buildMethods_ok {list : List MethodDescription}
    (fits : Fits sizes layout block (list.length + methods)
      (paramCount list + policies) (methodsBytes list + bytes))
    (clean : ∀ method ∈ list, (0 : UInt8) ∉ method.name ∧
      ∀ param ∈ method.params, (0 : UInt8) ∉ param.name)
    (typed : ∀ method ∈ list, ∀ param ∈ method.params,
      param.type.isSome = true) :
    ∃ new, list.foldlM (buildMethod sizes layout.limit) block = .ok new ∧
      Fits sizes layout new methods policies bytes ∧ Later block new ∧
      MethodsAt sizes new block.method list ∧
      new.object = { block.object with
        nMethods := block.object.nMethods + list.length } := by
  induction list generalizing block with
  | nil =>
      rw [List.length_nil, paramCount, methodsBytes, List.map_nil,
        List.map_nil, List.sum_nil, Nat.zero_add, Nat.zero_add,
        Nat.zero_add] at fits
      exact ⟨block, rfl, fits,
        ⟨Nat.le_refl _, Nat.le_refl _, Nat.le_refl _, fun _ _ => rfl,
          fun _ _ => rfl, fun _ _ => rfl⟩, True.intro, rfl⟩
  | cons method list inductionHypothesis =>
      have count : paramCount (method :: list) + policies =
          method.params.length + (paramCount list + policies) := by
        rw [paramCount, List.map_cons, List.sum_cons, Nat.add_assoc]
        rfl
      have left : methodsBytes (method :: list) + bytes =
          method.name.length + 1 +
            (paramsBytes method.params + (methodsBytes list + bytes)) := by
        rw [methodsBytes, List.map_cons, List.sum_cons, Nat.add_assoc,
          Nat.add_assoc (_ + 1)]
        rfl
      rw [List.length_cons, Nat.add_right_comm, count, left] at fits
      obtain ⟨middle, isMiddle, middleFits, middleLater, first, next, object⟩ :=
        buildMethod_ok fits (clean method List.mem_cons_self).1
          (clean method List.mem_cons_self).2
          (typed method List.mem_cons_self)
      obtain ⟨new, isNew, newFits, newLater, others, rest⟩ :=
        inductionHypothesis middleFits
          (fun other member => clean other (List.mem_cons_of_mem _ member))
          (fun other member => typed other (List.mem_cons_of_mem _ member))
      rw [next] at others
      refine ⟨new, ?_, newFits, middleLater.trans newLater,
        ⟨first.later newLater, others⟩, ?_⟩
      · rw [List.foldlM_cons, isMiddle]
        exact isNew
      · rw [rest, object, List.length_cons]
        simp only [Nat.add_assoc, Nat.add_comm 1]

/-- A type is filled in, and is read back as it was described. -/
theorem buildType_ok {type : TypeDescription}
    (fits : Fits sizes layout block type.methods.length
      (paramCount type.methods)
      (type.name.length + 1 + methodsBytes type.methods))
    (clean : (0 : UInt8) ∉ type.name)
    (cleanMethods : ∀ method ∈ type.methods, (0 : UInt8) ∉ method.name ∧
      ∀ param ∈ method.params, (0 : UInt8) ∉ param.name)
    (typed : ∀ method ∈ type.methods, ∀ param ∈ method.params,
      param.type.isSome = true) :
    ∃ new, buildType sizes layout.limit block type = .ok new ∧
      Fits sizes layout new 0 0 0 ∧ readType sizes new = type := by
  obtain ⟨wrapped, isWrapped, wrappedFits, _, string, _⟩ :=
    wrapString_ok fits clean
  have opened := later_openType sizes wrapped block.strings
  obtain ⟨new, isNew, newFits, newLater, methodsAt, object⟩ :=
    @buildMethods_ok sizes layout (wrapped.openType sizes block.strings) 0 0 0
      type.methods (wrappedFits.writeType _) cleanMethods typed
  refine ⟨new, ?_, newFits, ?_⟩
  · simp only [buildType, isWrapped, bind, Except.bind]
    exact isNew
  · have name := (string.later (opened.trans newLater)).string
    have methods := methodsAt.read
    rw [readType, object]
    show (⟨new.string block.strings, readMethods sizes new
      (0 + type.methods.length) wrapped.method⟩ : TypeDescription) = type
    rw [name, Nat.zero_add, show readMethods sizes new type.methods.length
      wrapped.method = type.methods from methods]

end Steps

/-! ## The size of the block -/

/-- What is added to counters. -/
structure SizeAdds (info new : TypeInfo) (methods policies bytes : Nat) : Prop where
  nMethods : new.nMethods = info.nMethods + methods
  nPolicys : new.nPolicys = info.nPolicys + policies
  strings : new.nStrings + new.nStrbyte = info.nStrings + info.nStrbyte + bytes

theorem sizeAdds_params (params : List ParamDescription) (info : TypeInfo) :
    SizeAdds info (params.foldl TypeInfo.addParam info) 0 params.length
      (paramsBytes params) := by
  induction params generalizing info with
  | nil =>
      exact ⟨rfl, rfl, rfl⟩
  | cons param params inductionHypothesis =>
      obtain ⟨nMethods, nPolicys, strings⟩ :=
        inductionHypothesis (info.addParam param)
      have first : (info.addParam param).nStrings +
          (info.addParam param).nStrbyte =
            info.nStrings + 1 + (info.nStrbyte + param.name.length) := rfl
      refine ⟨nMethods, ?_, ?_⟩
      · rw [List.foldl_cons, nPolicys, List.length_cons]
        show info.nPolicys + 1 + params.length = _
        omega
      · rw [List.foldl_cons, strings, first, paramsBytes, paramsBytes,
          List.map_cons, List.sum_cons]
        omega

theorem sizeAdds_methods (methods : List MethodDescription) (info : TypeInfo) :
    SizeAdds info (methods.foldl TypeInfo.addMethod info) methods.length
      (paramCount methods) (methodsBytes methods) := by
  induction methods generalizing info with
  | nil =>
      exact ⟨rfl, rfl, rfl⟩
  | cons method methods inductionHypothesis =>
      obtain ⟨nMethods, nPolicys, strings⟩ :=
        inductionHypothesis (info.addMethod method)
      obtain ⟨ofMethods, ofPolicys, ofStrings⟩ :=
        sizeAdds_params method.params (info.addString method.name)
      have named : (info.addString method.name).nStrings +
          (info.addString method.name).nStrbyte =
            info.nStrings + 1 + (info.nStrbyte + method.name.length) := rfl
      refine ⟨?_, ?_, ?_⟩
      · rw [List.foldl_cons, nMethods, List.length_cons]
        show (method.params.foldl TypeInfo.addParam
          (info.addString method.name)).nMethods + 1 + methods.length = _
        rw [ofMethods]
        show info.nMethods + 0 + 1 + methods.length = _
        omega
      · rw [List.foldl_cons, nPolicys, paramCount, paramCount, List.map_cons,
          List.sum_cons]
        show (method.params.foldl TypeInfo.addParam
          (info.addString method.name)).nPolicys + _ = _
        rw [ofPolicys]
        exact Nat.add_assoc _ _ _
      · rw [List.foldl_cons, strings, methodsBytes, methodsBytes,
          List.map_cons, List.sum_cons]
        show (method.params.foldl TypeInfo.addParam
          (info.addString method.name)).nStrings +
          (method.params.foldl TypeInfo.addParam
            (info.addString method.name)).nStrbyte + _ = _
        rw [ofStrings, named]
        omega

/-- The block is as large as what is to be filled in. -/
theorem fits_ofLayout (sizes : TypeSizes) (base : Nat) (type : TypeDescription) :
    Fits sizes
      (TypeLayout.ofInfo sizes base (TypeInfo.ofDescription type))
      (TypeBlock.ofLayout
        (TypeLayout.ofInfo sizes base (TypeInfo.ofDescription type)))
      type.methods.length (paramCount type.methods)
      (type.name.length + 1 + methodsBytes type.methods) := by
  obtain ⟨nMethods, nPolicys, strings⟩ :=
    sizeAdds_methods type.methods (TypeInfo.zero.addString type.name)
  rw [← TypeInfo.ofDescription] at nMethods nPolicys strings
  have noMethods : (TypeInfo.zero.addString type.name).nMethods = 0 := rfl
  have noPolicys : (TypeInfo.zero.addString type.name).nPolicys = 0 := rfl
  have named : (TypeInfo.zero.addString type.name).nStrings +
      (TypeInfo.zero.addString type.name).nStrbyte =
        0 + 1 + (0 + type.name.length) := rfl
  rw [noMethods, Nat.zero_add] at nMethods
  rw [noPolicys, Nat.zero_add] at nPolicys
  rw [named] at strings
  generalize TypeInfo.ofDescription type = info at nMethods nPolicys strings
  rw [← nMethods, ← nPolicys]
  refine ⟨rfl, rfl, ?_, rfl, rfl, ?_, Nat.le_refl _, Nat.le_refl _,
    Nat.le_refl _, fun _ member => absurd member List.not_mem_nil⟩
  · show base + sizes.objectType + info.nMethods * sizes.method +
      info.nPolicys * sizes.policy < base + info.size sizes
    rw [TypeInfo.size]
    omega
  · show base + sizes.objectType + info.nMethods * sizes.method +
      info.nPolicys * sizes.policy +
        (type.name.length + 1 + methodsBytes type.methods) =
      base + info.size sizes
    rw [TypeInfo.size]
    omega

/-! ## Names without zeros -/

theorem zero_notMem_stringAt (mem : Memory) (bound pos : Nat) :
    (0 : UInt8) ∉ stringAt mem bound pos := by
  have letters : ∀ bound pos index, index < strlen mem bound pos →
      mem (pos + index) ≠ 0 := by
    intro bound
    induction bound with
    | zero =>
        exact fun _ index inside => absurd inside (Nat.not_lt_zero index)
    | succ bound inductionHypothesis =>
        intro pos index inside
        rw [strlen] at inside
        split at inside
        · exact absurd inside (Nat.not_lt_zero index)
        · rename_i notZero
          cases index with
          | zero =>
              exact notZero
          | succ index =>
              rw [← Nat.add_assoc, Nat.add_right_comm]
              exact inductionHypothesis (pos + 1) index
                (Nat.lt_of_succ_lt_succ inside)
  intro member
  obtain ⟨index, inside, isZero⟩ := List.mem_map.mp member
  exact letters bound pos index (List.mem_range.mp inside) isZero

section Clean

variable {buf : BlobBuf}

theorem named_clean {table : Option (List (Option Nat))} {name : List UInt8}
    {second : Option Nat}
    (named : (blobReader buf).named table = .ok (name, second)) :
    (0 : UInt8) ∉ name := by
  cases table with
  | none =>
      cases named
  | some attrs =>
      rw [AttrReader.named] at named
      cases string : (attrs.getD 0 none).bind (blobReader buf).string with
      | none =>
          rw [string] at named
          cases named
      | some text =>
          rw [string] at named
          rw [← (Prod.mk.inj (Except.ok.inj named)).1]
          obtain ⟨attr, _, isText⟩ := Option.bind_eq_some_iff.mp string
          have payload : payloadString buf.mem attr = some text := isText
          rw [payloadString] at payload
          split at payload
          · rw [← Option.some.inj payload]
            exact zero_notMem_stringAt _ _ _
          · cases payload

theorem describeParam_clean {attr : Nat} {param : ParamDescription}
    (described : describeParam (blobReader buf) attr = .ok param) :
    (0 : UInt8) ∉ param.name := by
  rw [describeParam] at described
  cases named : (blobReader buf).named ((blobReader buf).parse paramsPolicy attr)
      with
  | error cause =>
      rw [named] at described
      cases described
  | ok opened =>
      rw [named] at described
      rw [← Except.ok.inj described]
      exact named_clean named

theorem describeMethod_clean {attr : Nat} {method : MethodDescription}
    (described : describeMethod (blobReader buf) attr = .ok method) :
    (0 : UInt8) ∉ method.name ∧
      ∀ param ∈ method.params, (0 : UInt8) ∉ param.name := by
  obtain ⟨list, items, named, _, each⟩ := describeMethod_ok described
  exact ⟨named_clean named, (forall_mapM_iff each fun _ _ found =>
    iff_of_true True.intro (describeParam_clean found)).mp
      fun _ _ => True.intro⟩

theorem describeType_clean {type : TypeDescription}
    (described : describeType (blobReader buf) = .ok type) :
    (0 : UInt8) ∉ type.name ∧
      ∀ method ∈ type.methods, (0 : UInt8) ∉ method.name ∧
        ∀ param ∈ method.params, (0 : UInt8) ∉ param.name := by
  obtain ⟨list, items, named, _, each⟩ := describeType_ok described
  exact ⟨named_clean named, (forall_mapM_iff each fun _ _ found =>
    iff_of_true True.intro (describeMethod_clean found)).mp
      fun _ _ => True.intro⟩

end Clean

/-! ## The types of the parameters -/

/-- A parameter has a type that is an integer. -/
def TypeElement.typed (element : TypeElement) : Bool :=
  element.level ≠ .param ||
    ((element.field 1).bind FieldValue.u32).isSome

/-- Every parameter of a description has a type that is an integer. -/
def ParamsTyped (fields : BlobmsgFields) : Prop :=
  ∀ element ∈ typeElements fields, element.typed = true

instance (fields : BlobmsgFields) : Decidable (ParamsTyped fields) :=
  inferInstanceAs (Decidable (∀ element ∈ _, _ = true))

section Typed

variable {fields others : BlobmsgFields}

/-- What is found of an element that could be read. -/
theorem named_element_ok {element : TypeElement} {name : List UInt8}
    {second : Option FieldValue}
    (named : (fieldsReader others).named
      (parseFields element.level.policy element.fields) = .ok (name, second)) :
    second = element.field 1 := by
  rw [named_element] at named
  split at named
  · exact nomatch named
  · split at named
    · exact nomatch named
    · exact (Prod.mk.inj (Except.ok.inj named)).2.symm

theorem elements_items {element : TypeElement} {items : List FieldValue}
    (elements : (fieldsReader others).elements (element.field 1) = .ok items) :
    items = element.items := by
  rw [TypeElement.items]
  cases found : element.field 1 with
  | none =>
      rw [found] at elements
      cases elements
  | some list =>
      rw [found] at elements
      exact (Except.ok.inj elements).symm

theorem describeParam_typed {value : FieldValue} {param : ParamDescription}
    (described : describeParam (fieldsReader others) value = .ok param) :
    TypeElement.typed ⟨.param, value.members⟩ = true ↔
      param.type.isSome = true := by
  rw [describeParam] at described
  cases named : (fieldsReader others).named
      ((fieldsReader others).parse paramsPolicy value) with
  | error cause =>
      rw [named] at described
      cases described
  | ok opened =>
      rw [named] at described
      have second := @named_element_ok others ⟨.param, value.members⟩ _ _ named
      rw [← Except.ok.inj described, TypeElement.typed, ← second]
      exact Iff.rfl

theorem describeMethod_typed {value : FieldValue} {method : MethodDescription}
    (described : describeMethod (fieldsReader others) value = .ok method) :
    (∀ element ∈ methodElements value, element.typed = true) ↔
      ∀ param ∈ method.params, param.type.isSome = true := by
  obtain ⟨list, items, named, elements, each⟩ := describeMethod_ok described
  have second := @named_element_ok others ⟨.method, value.members⟩ _ _ named
  rw [second] at elements
  rw [methodElements, List.forall_mem_cons, List.forall_mem_map,
    ← elements_items elements, ← forall_mapM_iff each fun _ _ =>
      describeParam_typed]
  exact and_iff_right rfl

/-- The parameters of a description have types if and only if those that were
found in it have. -/
theorem describeType_typed {type : TypeDescription}
    (described : describeType (fieldsReader fields) = .ok type) :
    ParamsTyped fields ↔
      ∀ method ∈ type.methods, ∀ param ∈ method.params,
        param.type.isSome = true := by
  obtain ⟨list, items, named, elements, each⟩ := describeType_ok described
  have second := @named_element_ok fields ⟨.type, fields⟩ _ _ named
  rw [second] at elements
  rw [ParamsTyped, typeElements, List.forall_mem_cons, List.forall_mem_flatMap,
    ← elements_items elements, ← forall_mapM_iff each fun _ _ =>
      describeMethod_typed]
  exact and_iff_right rfl

end Typed

section Needs

variable {sizes : TypeSizes} {limit : Nat} {block new : TypeBlock}

theorem buildParam_typed {param : ParamDescription}
    (built : buildParam sizes limit block param = .ok new) :
    param.type.isSome = true := by
  rw [buildParam] at built
  cases wrapped : wrapString block limit param.name with
  | error cause =>
      rw [wrapped] at built
      exact nomatch built
  | ok opened =>
      cases typed : param.type with
      | none =>
          simp only [wrapped, typed, bind, Except.bind] at built
          exact nomatch built
      | some type =>
          rfl

theorem buildMethod_typed {method : MethodDescription}
    (built : buildMethod sizes limit block method = .ok new) :
    ∀ param ∈ method.params, param.type.isSome = true := by
  rw [buildMethod] at built
  cases wrapped : wrapString block limit method.name with
  | error cause =>
      rw [wrapped] at built
      exact nomatch built
  | ok opened =>
      simp only [wrapped, bind, Except.bind] at built
      split at built
      · exact nomatch built
      · rename_i filled
        exact forall_of_foldlM filled fun _ _ _ => buildParam_typed

theorem buildType_typed {type : TypeDescription}
    (built : buildType sizes limit block type = .ok new) :
    ∀ method ∈ type.methods, ∀ param ∈ method.params,
      param.type.isSome = true := by
  rw [buildType] at built
  cases wrapped : wrapString block limit type.name with
  | error cause =>
      rw [wrapped] at built
      exact nomatch built
  | ok opened =>
      simp only [wrapped, bind, Except.bind] at built
      exact forall_of_foldlM built fun _ _ _ => buildMethod_typed

end Needs

/-! ## The two traversals -/

/-- The type that a text describes. -/
def describedType : Option JsonValue → Option TypeDescription
  | some (.object members) =>
      (describeType (fieldsReader (storedMembers members))).toOption
  | _ => none

/-- In the block of `ubus_wrap_add_object` the second traversal comes to its
end, with no assertion failing; its writes stay in their parts of the block,
which lie one behind the other, and the type is the one described. -/
def BuildsDescribed (sizes : TypeSizes)
    (jsonTokenerParse : List UInt8 → Option JsonValue) (typeJson : List UInt8)
    (base : Nat) (info : TypeInfo) : Prop :=
  let layout := TypeLayout.ofInfo sizes base info
  ∃ block,
    ubusParseObjectType sizes jsonTokenerParse typeJson
        (TypeBlock.ofLayout layout) layout.limit = .ok block ∧
      block.type = base ∧ block.type ≠ 0 ∧ layout.Ordered ∧
      (∀ write ∈ block.writes, layout.Holds write) ∧
      describedType (jsonTokenerParse typeJson) = some (readType sizes block)

/-- Every parameter that the text describes has a type that is an integer. -/
def ParamsTypedText (value : Option JsonValue) : Prop :=
  ∀ members, value = some (.object members) →
    ParamsTyped (storedMembers members)

theorem ordered_ofInfo (sizes : TypeSizes) (base : Nat) (info : TypeInfo) :
    (TypeLayout.ofInfo sizes base info).Ordered := by
  refine ⟨Nat.le_add_right _ _, Nat.le_add_right _ _, Nat.le_add_right _ _, ?_⟩
  show base + sizes.objectType + info.nMethods * sizes.method +
    info.nPolicys * sizes.policy ≤ base + info.size sizes
  rw [TypeInfo.size]
  omega

theorem parseType_agrees {sizes : TypeSizes} {base : Nat} {built : BlobBuf}
    {type : TypeDescription} {fields : BlobmsgFields} {layout : TypeLayout}
    (described : describeType (blobReader built) = .ok type)
    (same : describeType (fieldsReader fields) = .ok type)
    (isLayout :
      TypeLayout.ofInfo sizes base (TypeInfo.ofDescription type) = layout) :
    (∃ block,
      parseType sizes (blobReader built) layout.limit
          (TypeBlock.ofLayout layout) = .ok block ∧
        block.type = layout.type ∧
          (∀ write ∈ block.writes, layout.Holds write) ∧
            type = readType sizes block) ↔ ParamsTyped fields := by
  obtain ⟨clean, cleanMethods⟩ := describeType_clean described
  have room := fits_ofLayout sizes base type
  rw [isLayout] at room
  rw [parseType_eq sizes layout.limit described, describeType_typed same]
  constructor
  · rintro ⟨block, isBuilt, _⟩
    exact buildType_typed isBuilt
  · intro typed
    obtain ⟨block, isBuilt, fits, read⟩ :=
      buildType_ok room clean cleanMethods typed
    exact ⟨block, isBuilt, fits.type, fits.writes, read.symm⟩

/-- A size that is returned was counted of an object. -/
theorem counted_of_returned {sizes : TypeSizes}
    {jsonTokenerParse : List UInt8 → Option JsonValue} {typeJson : List UInt8}
    {size : Int}
    (returned : ubusGetTypeInfo sizes jsonTokenerParse typeJson = some size)
    (positive : 0 < size) :
    ∃ info members, typeInfo jsonTokenerParse typeJson = .ok info ∧
      size = info.size sizes ∧
      jsonTokenerParse typeJson = some (.object members) ∧
      JsonMembers.integral members = true := by
  rw [ubusGetTypeInfo] at returned
  cases counted : typeInfo jsonTokenerParse typeJson with
  | error cause =>
      rw [counted] at returned
      cases cause with
      | finalize =>
          rw [← Option.some.inj returned] at positive
          exact absurd positive (by decide)
      | absentField =>
          cases returned
  | ok info =>
      rw [counted] at returned
      have isSize := (Option.some.inj returned).symm
      by_contra none
      have refused := @typeInfo_refused jsonTokenerParse typeJson
        fun members parsed => eq_false_of_ne_true fun integral =>
          none ⟨info, members, rfl, isSize, parsed, integral⟩
      rw [counted] at refused
      cases refused

/-- Where `ubus_get_type_info` returns a size, `ubus_parse_object_type` fills
the block of this size with the type that is described, each part in its place,
if and only if every parameter has a type that is an integer. -/
theorem ubusParseObjectType_agrees_iff (sizes : TypeSizes)
    (jsonTokenerParse : List UInt8 → Option JsonValue) (typeJson : List UInt8)
    (size : Int)
    (returned : ubusGetTypeInfo sizes jsonTokenerParse typeJson = some size)
    (positive : 0 < size)
    (small : ∀ value ∈ jsonTokenerParse typeJson,
      tableLength value < 16777216)
    (base : Nat) (allocated : base ≠ 0) :
    (∃ info, typeInfo jsonTokenerParse typeJson = .ok info ∧
        size = info.size sizes ∧
        BuildsDescribed sizes jsonTokenerParse typeJson base info) ↔
      ParamsTypedText (jsonTokenerParse typeJson) := by
  obtain ⟨info, members, counted, isSize, parsed, integral⟩ :=
    counted_of_returned returned positive
  have fits : 4 + (storedMembers members).encode.length < 16777216 :=
    small _ parsed
  have same := describeType_object integral fits BlobmsgType.array.id
  have described := counted
  rw [typeInfo_object parsed integral fits] at described
  cases found : describeType (fieldsReader (storedMembers members)) with
  | error cause =>
      rw [found] at described
      exact nomatch described
  | ok type =>
      rw [found] at described same
      have isInfo : TypeInfo.ofDescription type = info :=
        Except.ok.inj described
      have agrees := parseType_agrees same found
        (congrArg (TypeLayout.ofInfo sizes base) isInfo)
      have text : ParamsTypedText (jsonTokenerParse typeJson) ↔
          ParamsTyped (storedMembers members) := by
        rw [parsed]
        exact ⟨fun typed => typed members rfl, fun typed other isOther =>
          JsonValue.object.inj (Option.some.inj isOther) ▸ typed⟩
      rw [text, ← agrees]
      have parse : ∀ layout : TypeLayout,
          ubusParseObjectType sizes jsonTokenerParse typeJson
              (TypeBlock.ofLayout layout) layout.limit =
            parseType sizes (blobReader (blobmsgAddObject
              (BlobBuf.fresh.blobBufInit BlobmsgType.array.id) members).2)
              layout.limit (TypeBlock.ofLayout layout) := by
        intro layout
        rw [ubusParseObjectType, readDescription_object parsed,
          if_pos integral]
        rfl
      have isDescribed : describedType (jsonTokenerParse typeJson) =
          some type := by
        rw [parsed, describedType, found]
        rfl
      constructor
      · rintro ⟨other, isOther, _, block, isBuilt, atBase, _, _, inside, read⟩
        rw [counted] at isOther
        rw [← Except.ok.inj isOther, parse] at isBuilt
        rw [← Except.ok.inj isOther] at inside
        rw [isDescribed] at read
        exact ⟨block, isBuilt, atBase, inside, Option.some.inj read⟩
      · rintro ⟨block, isBuilt, atBase, inside, read⟩
        refine ⟨info, counted, isSize, block, (parse _).trans isBuilt, atBase,
          by rw [atBase]; exact allocated, ordered_ofInfo _ _ _, inside, ?_⟩
        rw [isDescribed, ← read]

/-- A type with one method that takes one integer. -/
theorem ubusParseObjectType_agrees_iff_oneMethod :
    let typeJson := ascii ("\x7b\"name\":\"t\",\"method\":[\x7b\"name\":\"m\"," ++
      "\"policy\":[\x7b\"name\":\"p\",\"type\":5\x7d]\x7d]\x7d")
    (∃ info, typeInfo jsonValue? typeJson = .ok info ∧
        (102 : Int) = info.size TypeSizes.lp64 ∧
        BuildsDescribed TypeSizes.lp64 jsonValue? typeJson 4096 info) ↔
      ParamsTypedText (jsonValue? typeJson) := by
  intro typeJson
  let members := JsonMembers.cons (ascii "name") (.string (ascii "t"))
    (.cons (ascii "method")
      (.array (.cons
        (.object (.cons (ascii "name") (.string (ascii "m"))
          (.cons (ascii "policy")
            (.array (.cons
              (.object (.cons (ascii "name") (.string (ascii "p"))
                (.cons (ascii "type") (.int 5) .nil)))
              .nil))
            .nil)))
        .nil))
      .nil)
  have parsed : jsonValue? typeJson = some (.object members) := by
    decide +kernel
  have counted := typeInfo_object parsed (by decide) (by decide +kernel)
  have returned : ubusGetTypeInfo TypeSizes.lp64 jsonValue? typeJson =
      some 102 := by
    rw [ubusGetTypeInfo, counted]
    rfl
  exact ubusParseObjectType_agrees_iff TypeSizes.lp64 jsonValue? typeJson 102
    returned (by decide) (by decide +kernel) 4096 (by decide)

/-- The parameter has no type; the first traversal does not ask for it, and the
second one reads it through the null pointer. -/
theorem ubusParseObjectType_untyped :
    let typeJson := ascii ("\x7b\"name\":\"t\",\"method\":[\x7b\"name\":\"m\"," ++
      "\"policy\":[\x7b\"name\":\"p\"\x7d]\x7d]\x7d")
    let info : TypeInfo := ⟨1, 1, 3, 3⟩
    let layout := TypeLayout.ofInfo TypeSizes.lp64 4096 info
    typeInfo jsonValue? typeJson = .ok info ∧
      ubusGetTypeInfo TypeSizes.lp64 jsonValue? typeJson = some 102 ∧
      ubusParseObjectType TypeSizes.lp64 jsonValue? typeJson
          (TypeBlock.ofLayout layout) layout.limit =
        .error (.early .absentField) := by
  intro typeJson info layout
  let members := JsonMembers.cons (ascii "name") (.string (ascii "t"))
    (.cons (ascii "method")
      (.array (.cons
        (.object (.cons (ascii "name") (.string (ascii "m"))
          (.cons (ascii "policy")
            (.array (.cons
              (.object (.cons (ascii "name") (.string (ascii "p")) .nil))
              .nil))
            .nil)))
        .nil))
      .nil)
  have parsed : jsonValue? typeJson = some (.object members) := by
    decide +kernel
  have integral : JsonMembers.integral members = true := by decide
  have small : 4 + (storedMembers members).encode.length < 16777216 := by
    decide +kernel
  have counted : typeInfo jsonValue? typeJson = .ok info := by
    rw [typeInfo_object parsed integral small]
    rfl
  have same := describeType_object integral small BlobmsgType.array.id
  refine ⟨counted, by rw [ubusGetTypeInfo, counted]; rfl, ?_⟩
  rw [ubusParseObjectType, readDescription_object parsed, if_pos integral]
  have described : describeType (fieldsReader (storedMembers members)) =
      .ok ⟨ascii "t", [⟨ascii "m", [⟨ascii "p", none⟩]⟩]⟩ := rfl
  rw [described] at same
  generalize (blobmsgAddObject
    (BlobBuf.fresh.blobBufInit BlobmsgType.array.id) members).2 = built at same ⊢
  show parseType TypeSizes.lp64 (blobReader built) layout.limit
    (TypeBlock.ofLayout layout) = _
  rw [parseType_eq TypeSizes.lp64 layout.limit same]
  rfl

end LibubusJni.Wrapper
