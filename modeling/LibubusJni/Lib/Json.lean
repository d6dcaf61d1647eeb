import Mathlib.Data.List.Basic
import Mathlib.Data.List.Nodup
import Mathlib.Data.List.TakeDrop

/-!
# JSON texts and the values they denote

A text is a list of bytes.  Its value is read by descent; the fuel of the
readers bounds the depth and the number of entries, and the length of the text
is enough of it.  The names in an object are distinct: where a text gives one
twice, the last value counts, in the place of the first.
-/

namespace LibubusJni.Lib

/-! ## Values -/

mutual

/-- A JSON value.  A number with a fraction or an exponent is kept as it is
written. -/
inductive JsonValue where
  | null
  | boolean (val : Bool)
  | int (val : Int)
  | double (literal : List UInt8)
  | string (text : List UInt8)
  | array (items : JsonItems)
  | object (members : JsonMembers)
  deriving DecidableEq, Repr

/-- The values in an array. -/
inductive JsonItems where
  | nil
  | cons (head : JsonValue) (tail : JsonItems)
  deriving DecidableEq, Repr

/-- The members of an object in their order. -/
inductive JsonMembers where
  | nil
  | cons (key : List UInt8) (value : JsonValue) (tail : JsonMembers)
  deriving DecidableEq, Repr

end

namespace JsonMembers

/-- The names of the members. -/
def keys : JsonMembers → List (List UInt8)
  | .nil => []
  | .cons key _ tail => key :: tail.keys

/-- The values of the members. -/
def items : JsonMembers → JsonItems
  | .nil => .nil
  | .cons _ value tail => .cons value tail.items

/-- Set the value of a name. -/
def put (members : JsonMembers) (key : List UInt8) (value : JsonValue) :
    JsonMembers :=
  match members with
  | .nil => .cons key value .nil
  | .cons other old tail =>
      if other = key then .cons other value tail
      else .cons other old (tail.put key value)

/-- Set the values of several names, one after the other. -/
def putAll (members : JsonMembers) : JsonMembers → JsonMembers
  | .nil => members
  | .cons key value tail => (members.put key value).putAll tail

/-- Members with each name once. -/
def unique (members : JsonMembers) : JsonMembers :=
  JsonMembers.nil.putAll members

/-- Members followed by others. -/
def append : JsonMembers → JsonMembers → JsonMembers
  | .nil, others => others
  | .cons key value tail, others => .cons key value (tail.append others)

theorem append_nil (members : JsonMembers) : members.append .nil = members :=
  match members with
  | .nil => rfl
  | .cons _ _ tail => by rw [append, append_nil tail]

theorem append_assoc (first second third : JsonMembers) :
    (first.append second).append third =
      first.append (second.append third) :=
  match first with
  | .nil => rfl
  | .cons _ _ tail => by
      rw [append, append, append, append_assoc tail second third]

theorem keys_append (first second : JsonMembers) :
    (first.append second).keys = first.keys ++ second.keys :=
  match first with
  | .nil => rfl
  | .cons _ _ tail => by
      rw [append, keys, keys, keys_append tail second, List.cons_append]

/-- A new name is put behind the others. -/
theorem put_of_notMem
    (members : JsonMembers) {key : List UInt8} (value : JsonValue)
    (new : key ∉ members.keys) :
    members.put key value = members.append (.cons key value .nil) :=
  match members with
  | .nil => rfl
  | .cons other old tail => by
      rw [keys, List.mem_cons, not_or] at new
      rw [put, if_neg (Ne.symm new.1), put_of_notMem tail value new.2, append]

/-- A name that is there keeps its place. -/
theorem keys_put_of_mem
    (members : JsonMembers) {key : List UInt8} (value : JsonValue)
    (there : key ∈ members.keys) : (members.put key value).keys = members.keys :=
  match members with
  | .nil => absurd there List.not_mem_nil
  | .cons other old tail => by
      by_cases same : other = key
      · rw [put, if_pos same, keys, keys]
      · rw [keys, List.mem_cons] at there
        have inTail : key ∈ tail.keys :=
          there.resolve_left (Ne.symm same)
        rw [put, if_neg same, keys, keys, keys_put_of_mem tail value inTail]

theorem nodup_keys_put
    {members : JsonMembers} (nodup : members.keys.Nodup)
    (key : List UInt8) (value : JsonValue) :
    (members.put key value).keys.Nodup := by
  by_cases there : key ∈ members.keys
  · rw [keys_put_of_mem members value there]
    exact nodup
  · rw [put_of_notMem members value there, keys_append]
    exact nodup.append (List.nodup_singleton key)
      (List.disjoint_singleton.mpr there)

theorem mem_keys_put
    {members : JsonMembers} {key other : List UInt8} {value : JsonValue} :
    other ∈ (members.put key value).keys ↔
      other ∈ members.keys ∨ other = key := by
  by_cases there : key ∈ members.keys
  · rw [keys_put_of_mem members value there]
    constructor
    · exact Or.inl
    · intro either
      rcases either with before | same
      · exact before
      · rw [same]
        exact there
  · rw [put_of_notMem members value there, keys_append, List.mem_append, keys,
      keys, List.mem_singleton]

theorem nodup_keys_putAll
    {members : JsonMembers} (nodup : members.keys.Nodup) :
    ∀ others, (members.putAll others).keys.Nodup
  | .nil => nodup
  | .cons key value tail => by
      rw [putAll]
      exact nodup_keys_putAll (nodup_keys_put nodup key value) tail

theorem mem_keys_putAll
    {members : JsonMembers} {key : List UInt8} :
    ∀ {others : JsonMembers}, key ∈ (members.putAll others).keys →
      key ∈ members.keys ∨ key ∈ others.keys
  | .nil, member => Or.inl member
  | .cons name value tail, member => by
      rw [putAll] at member
      rw [keys, List.mem_cons]
      rcases mem_keys_putAll member with early | late
      · rcases mem_keys_put.mp early with before | same
        · exact Or.inl before
        · exact Or.inr (Or.inl same)
      · exact Or.inr (Or.inr late)

theorem nodup_keys_unique (members : JsonMembers) :
    members.unique.keys.Nodup :=
  @nodup_keys_putAll .nil List.nodup_nil members

theorem mem_keys_of_unique
    {members : JsonMembers} {key : List UInt8}
    (member : key ∈ members.unique.keys) : key ∈ members.keys :=
  (mem_keys_putAll member).resolve_left List.not_mem_nil

theorem putAll_of_nodup (members : JsonMembers) :
    ∀ others, (members.keys ++ others.keys).Nodup →
      members.putAll others = members.append others
  | .nil, _ => (append_nil members).symm
  | .cons key value tail, nodup => by
      have new : key ∉ members.keys := by
        intro member
        rw [keys, List.nodup_append] at nodup
        exact nodup.2.2 key member key List.mem_cons_self rfl
      rw [putAll, put_of_notMem members value new,
        putAll_of_nodup _ tail (by
          rw [keys_append, List.append_assoc]
          exact nodup),
        append_assoc, append, append]

/-- Names that are distinct are left alone. -/
theorem unique_of_nodup
    {members : JsonMembers} (nodup : members.keys.Nodup) :
    members.unique = members :=
  putAll_of_nodup .nil members nodup

end JsonMembers

/-! ## Distinct names -/

mutual

/-- The names in every object are distinct. -/
def JsonValue.Distinct : JsonValue → Prop
  | .array items => items.Distinct
  | .object members => members.keys.Nodup ∧ members.Distinct
  | _ => True

def JsonItems.Distinct : JsonItems → Prop
  | .nil => True
  | .cons head tail => head.Distinct ∧ tail.Distinct

def JsonMembers.Distinct : JsonMembers → Prop
  | .nil => True
  | .cons _ value tail => value.Distinct ∧ tail.Distinct

end

theorem JsonMembers.Distinct.put
    {members : JsonMembers} {value : JsonValue}
    (distinct : members.Distinct) (key : List UInt8) (also : value.Distinct) :
    (members.put key value).Distinct :=
  match members, distinct with
  | .nil, _ => ⟨also, True.intro⟩
  | .cons other old tail, ⟨oldDistinct, tailDistinct⟩ => by
      rw [JsonMembers.put]
      by_cases same : other = key
      · rw [if_pos same]
        exact ⟨also, tailDistinct⟩
      · rw [if_neg same]
        exact ⟨oldDistinct, JsonMembers.Distinct.put tailDistinct key also⟩

theorem JsonMembers.Distinct.putAll
    {members : JsonMembers} (distinct : members.Distinct) :
    ∀ {others : JsonMembers}, others.Distinct →
      (members.putAll others).Distinct
  | .nil, _ => distinct
  | .cons key _ _, ⟨also, rest⟩ => by
      rw [JsonMembers.putAll]
      exact JsonMembers.Distinct.putAll (distinct.put key also) rest

/-! ## Bytes -/

/-- The bytes of a word in ASCII. -/
def ascii (word : String) : List UInt8 :=
  word.toList.map fun char => char.toNat.toUInt8

def isSpace (byte : UInt8) : Bool :=
  byte == 0x20 || byte == 0x09 || byte == 0x0a || byte == 0x0d

def skipSpace (text : List UInt8) : List UInt8 :=
  text.dropWhile isSpace

namespace Byte

def quote : UInt8 := 0x22
def comma : UInt8 := 0x2c
def minus : UInt8 := 0x2d
def point : UInt8 := 0x2e
def zero : UInt8 := 0x30
def nine : UInt8 := 0x39
def colon : UInt8 := 0x3a
def openBracket : UInt8 := 0x5b
def backslash : UInt8 := 0x5c
def closeBracket : UInt8 := 0x5d
def letterU : UInt8 := 0x75
def openBrace : UInt8 := 0x7b
def closeBrace : UInt8 := 0x7d

end Byte

/-- Behind white space and a byte that has to come next. -/
def expect (byte : UInt8) (text : List UInt8) : Option (List UInt8) :=
  match skipSpace text with
  | [] => none
  | first :: rest => if first = byte then some rest else none

/-- Behind white space and a word that has to come next. -/
def expectWord (word text : List UInt8) : Option (List UInt8) :=
  let text := skipSpace text
  if word <+: text then some (text.drop word.length) else none

theorem expect_same
    {byte : UInt8} (rest : List UInt8) (notSpace : isSpace byte = false) :
    expect byte (byte :: rest) = some rest := by
  rw [expect, skipSpace, List.dropWhile_cons_of_neg (by rw [notSpace]; decide)]
  exact if_pos rfl

theorem expect_other
    {byte first : UInt8} (rest : List UInt8)
    (notSpace : isSpace first = false) (other : first ≠ byte) :
    expect byte (first :: rest) = none := by
  rw [expect, skipSpace, List.dropWhile_cons_of_neg (by rw [notSpace]; decide)]
  exact if_neg other

theorem expectWord_same
    {word : List UInt8} {first : UInt8} (tail rest : List UInt8)
    (begins : word = first :: tail) (notSpace : isSpace first = false) :
    expectWord word (word ++ rest) = some rest := by
  have kept : skipSpace (word ++ rest) = word ++ rest := by
    rw [begins, List.cons_append, skipSpace,
      List.dropWhile_cons_of_neg (by rw [notSpace]; decide)]
  rw [expectWord, kept, if_pos (List.prefix_append word rest), List.drop_left]

theorem expectWord_other
    {word : List UInt8} {first letter : UInt8} {tail rest : List UInt8}
    (begins : word = letter :: tail) (notSpace : isSpace first = false)
    (other : first ≠ letter) : expectWord word (first :: rest) = none := by
  rw [expectWord, skipSpace,
    List.dropWhile_cons_of_neg (by rw [notSpace]; decide)]
  apply if_neg
  rw [begins, List.cons_prefix_cons]
  exact fun both => other both.1.symm

/-! ## Strings -/

def hexDigit? (byte : UInt8) : Option Nat :=
  if 0x30 ≤ byte ∧ byte ≤ 0x39 then some (byte.toNat - 0x30)
  else if 0x41 ≤ byte ∧ byte ≤ 0x46 then some (byte.toNat - 0x37)
  else if 0x61 ≤ byte ∧ byte ≤ 0x66 then some (byte.toNat - 0x57)
  else none

/-- Four hexadecimal digits. -/
def readHex : List UInt8 → Option (Nat × List UInt8)
  | first :: second :: third :: fourth :: rest => do
      let high ← hexDigit? first
      let upper ← hexDigit? second
      let lower ← hexDigit? third
      let low ← hexDigit? fourth
      some (((high * 16 + upper) * 16 + lower) * 16 + low, rest)
  | _ => none

/-- The bytes of a character in UTF-8. -/
def utf8 (code : Nat) : List UInt8 :=
  if code < 0x80 then
    [code.toUInt8]
  else if code < 0x800 then
    [(0xc0 + code / 0x40).toUInt8, (0x80 + code % 0x40).toUInt8]
  else if code < 0x10000 then
    [(0xe0 + code / 0x1000).toUInt8, (0x80 + code / 0x40 % 0x40).toUInt8,
      (0x80 + code % 0x40).toUInt8]
  else
    [(0xf0 + code / 0x40000).toUInt8, (0x80 + code / 0x1000 % 0x40).toUInt8,
      (0x80 + code / 0x40 % 0x40).toUInt8, (0x80 + code % 0x40).toUInt8]

/-- A character by its number.  Those beyond 16 bits are written as a pair of
surrogates, and a surrogate alone is not a character. -/
def readUnicode (text : List UInt8) : Option (List UInt8 × List UInt8) := do
  let (code, rest) ← readHex text
  if 0xd800 ≤ code ∧ code < 0xdc00 then
    match rest with
    | slash :: letter :: rest =>
        if slash = Byte.backslash ∧ letter = Byte.letterU then do
          let (low, rest) ← readHex rest
          if 0xdc00 ≤ low ∧ low < 0xe000 then
            some
              (utf8 (0x10000 + (code - 0xd800) * 0x400 + (low - 0xdc00)), rest)
          else none
        else none
    | _ => none
  else if 0xdc00 ≤ code ∧ code < 0xe000 then none
  else some (utf8 code, rest)

/-- The character that a letter behind a backslash stands for. -/
def escaped? (letter : UInt8) : Option UInt8 :=
  if letter = 0x22 ∨ letter = 0x5c ∨ letter = 0x2f then some letter
  else if letter = 0x62 then some 0x08
  else if letter = 0x66 then some 0x0c
  else if letter = 0x6e then some 0x0a
  else if letter = 0x72 then some 0x0d
  else if letter = 0x74 then some 0x09
  else none

/-- What is behind a backslash. -/
def readEscape : List UInt8 → Option (List UInt8 × List UInt8)
  | [] => none
  | letter :: rest =>
      if letter = Byte.letterU then readUnicode rest
      else (escaped? letter).map fun byte => ([byte], rest)

/-- The characters up to the closing quote. -/
def readChars : Nat → List UInt8 → Option (List UInt8 × List UInt8)
  | 0, _ => none
  | _ + 1, [] => none
  | fuel + 1, byte :: rest =>
      if byte = Byte.quote then some ([], rest)
      else if byte = Byte.backslash then do
        let (char, rest) ← readEscape rest
        let (chars, rest) ← readChars fuel rest
        some (char ++ chars, rest)
      else if byte < 0x20 then none
      else do
        let (chars, rest) ← readChars fuel rest
        some (byte :: chars, rest)

/-- A string behind its opening quote. -/
def readString (text : List UInt8) : Option (List UInt8 × List UInt8) :=
  readChars text.length text

/-! ## Numbers -/

def isDigit (byte : UInt8) : Bool :=
  Byte.zero ≤ byte && byte ≤ Byte.nine

def digitsValue (digits : List UInt8) : Nat :=
  digits.foldl (fun value byte => value * 10 + (byte.toNat - 0x30)) 0

/-- At least one digit. -/
def readDigits (text : List UInt8) : Option (List UInt8 × List UInt8) :=
  match text.span isDigit with
  | ([], _) => none
  | (digits, rest) => some (digits, rest)

/-- A point and digits, or nothing. -/
def readFraction : List UInt8 → Option (List UInt8 × List UInt8)
  | [] => some ([], [])
  | byte :: rest =>
      if byte = Byte.point then
        (readDigits rest).map fun (digits, rest) => (byte :: digits, rest)
      else some ([], byte :: rest)

/-- An exponent, or nothing. -/
def readExponent : List UInt8 → Option (List UInt8 × List UInt8)
  | [] => some ([], [])
  | byte :: rest =>
      if byte = 0x65 ∨ byte = 0x45 then
        match rest with
        | [] => none
        | sign :: rest =>
            if sign = 0x2b ∨ sign = Byte.minus then
              (readDigits rest).map fun (digits, rest) =>
                (byte :: sign :: digits, rest)
            else
              (readDigits (sign :: rest)).map fun (digits, rest) =>
                (byte :: digits, rest)
      else some ([], byte :: rest)

/-- A number behind its sign. -/
def readUnsigned (negative : Bool) (text : List UInt8) :
    Option (JsonValue × List UInt8) := do
  let (digits, rest) ← readDigits text
  if digits.head? = some Byte.zero ∧ 1 < digits.length then none
  else do
    let (fraction, rest) ← readFraction rest
    let (exponent, rest) ← readExponent rest
    if fraction = [] ∧ exponent = [] then
      let value : Int := digitsValue digits
      some (.int (if negative then -value else value), rest)
    else
      let sign := if negative then [Byte.minus] else []
      some (.double (sign ++ digits ++ fraction ++ exponent), rest)

def readNumber (text : List UInt8) : Option (JsonValue × List UInt8) :=
  match text with
  | [] => none
  | byte :: rest =>
      if byte = Byte.minus then readUnsigned true rest
      else readUnsigned false (byte :: rest)

/-- A text that does not go on with a number. -/
def NumberEnd : List UInt8 → Prop
  | [] => True
  | byte :: _ =>
      isDigit byte = false ∧ byte ≠ Byte.point ∧ byte ≠ 0x65 ∧ byte ≠ 0x45

theorem readDigits_append
    {digits rest : List UInt8} (some' : digits ≠ [])
    (all : ∀ byte ∈ digits, isDigit byte = true) (ends : NumberEnd rest) :
    readDigits (digits ++ rest) = some (digits, rest) := by
  have span : (digits ++ rest).span isDigit = (digits, rest) := by
    rw [List.span_eq_takeWhile_dropWhile,
      List.takeWhile_append_of_pos all, List.dropWhile_append_of_pos all]
    cases rest with
    | nil =>
        rw [List.takeWhile_nil, List.dropWhile_nil, List.append_nil]
    | cons byte tail =>
        have stop : ¬ isDigit byte = true := by
          rw [ends.1]
          decide
        rw [List.takeWhile_cons_of_neg stop, List.dropWhile_cons_of_neg stop,
          List.append_nil]
  rw [readDigits, span]
  cases digits with
  | nil =>
      exact absurd rfl some'
  | cons byte tail =>
      rfl

theorem readFraction_end {rest : List UInt8} (ends : NumberEnd rest) :
    readFraction rest = some ([], rest) := by
  cases rest with
  | nil =>
      rfl
  | cons byte tail =>
      exact if_neg ends.2.1

theorem readExponent_end {rest : List UInt8} (ends : NumberEnd rest) :
    readExponent rest = some ([], rest) := by
  cases rest with
  | nil =>
      rfl
  | cons byte tail =>
      exact if_neg (not_or.mpr ends.2.2)

/-- Digits without leading zeros are a whole number. -/
theorem readUnsigned_digits
    {digits rest : List UInt8} (negative : Bool) (some' : digits ≠ [])
    (all : ∀ byte ∈ digits, isDigit byte = true)
    (leading : digits.head? = some Byte.zero → digits.length ≤ 1)
    (ends : NumberEnd rest) :
    readUnsigned negative (digits ++ rest) =
      some (.int (if negative then -(digitsValue digits : Int)
        else digitsValue digits), rest) := by
  have noZero :
      ¬ (digits.head? = some Byte.zero ∧ 1 < digits.length) := by
    intro both
    exact Nat.not_lt.mpr (leading both.1) both.2
  simp only [readUnsigned, Option.bind_eq_bind,
    readDigits_append some' all ends, Option.bind_some, if_neg noZero,
    readFraction_end ends, readExponent_end ends, and_self, if_true]

/-- An integer in decimal digits. -/
def decimal (val : Int) : List UInt8 :=
  if val < 0 then Byte.minus :: ascii val.natAbs.repr
  else ascii val.toNat.repr

theorem ascii_repr (n : Nat) :
    ascii n.repr = (Nat.toDigits 10 n).map fun char => char.toNat.toUInt8 := by
  rw [ascii, Nat.toList_repr]

theorem toNat_isDigit {char : Char} (digit : char.isDigit = true) :
    0x30 ≤ char.toNat ∧ char.toNat ≤ 0x39 := by
  rw [Char.isDigit, Bool.and_eq_true, decide_eq_true_eq,
    decide_eq_true_eq] at digit
  exact digit

theorem isDigit_ascii_repr (n : Nat) :
    ∀ byte ∈ ascii n.repr, isDigit byte = true := by
  intro byte member
  rw [ascii_repr] at member
  obtain ⟨char, inDigits, isByte⟩ := List.mem_map.mp member
  have range := toNat_isDigit
    (Nat.isDigit_of_mem_toDigits (by decide) (Nat.le_refl _) inDigits)
  rw [← isByte, isDigit, Bool.and_eq_true, decide_eq_true_eq,
    decide_eq_true_eq, UInt8.le_iff_toNat_le, UInt8.le_iff_toNat_le,
    Nat.toUInt8, UInt8.toNat_ofNat']
  have small : char.toNat % 2 ^ 8 = char.toNat :=
    Nat.mod_eq_of_lt (by omega)
  rw [small]
  exact range

theorem digitsValue_map
    (chars : List Char) (digits : ∀ char ∈ chars, char.isDigit = true)
    (start : Nat) :
    (chars.map fun char => char.toNat.toUInt8).foldl
        (fun value byte => value * 10 + (byte.toNat - 0x30)) start =
      Nat.ofDigitChars 10 chars start := by
  induction chars generalizing start with
  | nil =>
      rfl
  | cons char rest inductionHypothesis =>
      have range := toNat_isDigit (digits char List.mem_cons_self)
      have byte : char.toNat.toUInt8.toNat = char.toNat := by
        rw [Nat.toUInt8, UInt8.toNat_ofNat']
        exact Nat.mod_eq_of_lt (by omega)
      rw [List.map_cons, List.foldl_cons, byte, Nat.ofDigitChars_cons,
        inductionHypothesis
          (fun other member => digits other (List.mem_cons_of_mem _ member)),
        Nat.mul_comm 10 start]
      rfl

theorem digitsValue_ascii_repr (n : Nat) : digitsValue (ascii n.repr) = n := by
  rw [ascii_repr, digitsValue,
    digitsValue_map _ (fun char inDigits =>
      Nat.isDigit_of_mem_toDigits (by decide) (Nat.le_refl _) inDigits),
    Nat.ofDigitChars_ten_toDigits]

/-- A number that is not zero does not begin with a zero. -/
theorem head_toDigits {n : Nat} (positive : 0 < n) :
    (Nat.toDigits 10 n).head? ≠ some '0' := by
  induction n using Nat.base_induction 10 (by decide) with
  | single m small =>
      rw [Nat.toDigits_of_lt_base small, List.head?_cons]
      intro same
      have value := Nat.toNat_digitChar_sub_48_of_lt_ten small
      rw [Option.some.inj same] at value
      exact absurd value (Nat.ne_of_lt positive)
  | digit m k small nonzero inductionHypothesis =>
      rw [← Nat.toDigits_append_toDigits (by decide) nonzero small,
        List.head?_append_of_ne_nil _ Nat.toDigits_ne_nil]
      exact inductionHypothesis nonzero

/-- Only zero itself begins with a zero. -/
theorem leading_ascii_repr
    {n : Nat} (leads : (ascii n.repr).head? = some Byte.zero) :
    (ascii n.repr).length ≤ 1 := by
  rcases Nat.eq_zero_or_pos n with isZero | positive
  · rw [isZero]
    decide
  · rw [ascii_repr, List.head?_map] at leads
    obtain ⟨char, isHead, isByte⟩ := Option.map_eq_some_iff.mp leads
    have range := toNat_isDigit
      (Nat.isDigit_of_mem_toDigits (by decide) (Nat.le_refl _)
        (List.mem_of_head? isHead))
    have byte : char.toNat.toUInt8.toNat = char.toNat := by
      rw [Nat.toUInt8, UInt8.toNat_ofNat']
      exact Nat.mod_eq_of_lt (by omega)
    rw [isByte] at byte
    have isZero : char = '0' := Char.toNat_inj.mp byte.symm
    rw [isZero] at isHead
    exact absurd isHead (head_toDigits positive)

/-- A number is read as it is printed. -/
theorem readNumber_decimal
    (val : Int) {rest : List UInt8} (ends : NumberEnd rest) :
    readNumber (decimal val ++ rest) = some (.int val, rest) := by
  have read : ∀ negative n, readUnsigned negative (ascii (Nat.repr n) ++ rest) =
      some (.int (if negative then -(n : Int) else n), rest) := by
    intro negative n
    rw [readUnsigned_digits negative _ (isDigit_ascii_repr n)
      leading_ascii_repr ends, digitsValue_ascii_repr]
    rw [ascii_repr]
    exact fun none => Nat.toDigits_ne_nil (List.map_eq_nil_iff.mp none)
  by_cases sign : val < 0
  · rw [decimal, if_pos sign, List.cons_append, readNumber, if_pos rfl,
      read true, if_pos rfl]
    congr 3
    omega
  · have first := isDigit_ascii_repr val.toNat
    have reads := read false val.toNat
    rw [decimal, if_neg sign]
    cases digits : ascii val.toNat.repr with
    | nil =>
        rw [ascii_repr] at digits
        exact absurd (List.map_eq_nil_iff.mp digits) Nat.toDigits_ne_nil
    | cons byte tail =>
        rw [digits] at reads first
        have notMinus : byte ≠ Byte.minus := by
          intro same
          have digit := first byte List.mem_cons_self
          rw [same] at digit
          exact absurd digit (by decide)
        rw [List.cons_append, readNumber, if_neg notMinus]
        rw [List.cons_append] at reads
        rw [reads, if_neg (by decide)]
        congr 3
        omega

/-! ## Texts -/

mutual

def readValue : Nat → List UInt8 → Option (JsonValue × List UInt8)
  | 0, _ => none
  | fuel + 1, text =>
      match expect Byte.openBrace text with
      | some rest =>
          match expect Byte.closeBrace rest with
          | some rest => some (.object .nil, rest)
          | none =>
              (readMembers fuel rest).map fun (members, rest) =>
                (.object members.unique, rest)
      | none =>
          match expect Byte.openBracket text with
          | some rest =>
              match expect Byte.closeBracket rest with
              | some rest => some (.array .nil, rest)
              | none =>
                  (readItems fuel rest).map fun (items, rest) =>
                    (.array items, rest)
          | none =>
              match expect Byte.quote text with
              | some rest =>
                  (readString rest).map fun (text, rest) =>
                    (.string text, rest)
              | none =>
                  match expectWord (ascii "null") text with
                  | some rest => some (.null, rest)
                  | none =>
                      match expectWord (ascii "true") text with
                      | some rest => some (.boolean true, rest)
                      | none =>
                          match expectWord (ascii "false") text with
                          | some rest => some (.boolean false, rest)
                          | none => readNumber (skipSpace text)

def readItems : Nat → List UInt8 → Option (JsonItems × List UInt8)
  | 0, _ => none
  | fuel + 1, text => do
      let (value, rest) ← readValue fuel text
      match expect Byte.closeBracket rest with
      | some rest => some (.cons value .nil, rest)
      | none => do
          let rest ← expect Byte.comma rest
          let (items, rest) ← readItems fuel rest
          some (.cons value items, rest)

def readMembers : Nat → List UInt8 → Option (JsonMembers × List UInt8)
  | 0, _ => none
  | fuel + 1, text => do
      let rest ← expect Byte.quote text
      let (key, rest) ← readString rest
      let rest ← expect Byte.colon rest
      let (value, rest) ← readValue fuel rest
      match expect Byte.closeBrace rest with
      | some rest => some (.cons key value .nil, rest)
      | none => do
          let rest ← expect Byte.comma rest
          let (members, rest) ← readMembers fuel rest
          some (.cons key value members, rest)

end

/-- The value of a number is a number. -/
theorem readUnsigned_distinct
    {negative : Bool} {text rest : List UInt8} {value : JsonValue}
    (reads : readUnsigned negative text = some (value, rest)) :
    value.Distinct := by
  simp only [readUnsigned, Option.bind_eq_bind, Option.bind_eq_some_iff] at reads
  obtain ⟨⟨digits, behind⟩, _, reads⟩ := reads
  split at reads
  · exact nomatch reads
  · obtain ⟨fraction, _, reads⟩ := Option.bind_eq_some_iff.mp reads
    obtain ⟨exponent, _, reads⟩ := Option.bind_eq_some_iff.mp reads
    split at reads
    · cases reads
      exact True.intro
    · cases reads
      exact True.intro

theorem readNumber_distinct
    {text rest : List UInt8} {value : JsonValue}
    (reads : readNumber text = some (value, rest)) : value.Distinct := by
  cases text with
  | nil =>
      exact nomatch reads
  | cons byte behind =>
      rw [readNumber] at reads
      split at reads
      · exact readUnsigned_distinct reads
      · exact readUnsigned_distinct reads

/-- What is read has distinct names, whatever the text repeats. -/
theorem read_distinct (fuel : Nat) :
    (∀ {text value rest}, readValue fuel text = some (value, rest) →
      value.Distinct) ∧
    (∀ {text items rest}, readItems fuel text = some (items, rest) →
      items.Distinct) ∧
    (∀ {text members rest}, readMembers fuel text = some (members, rest) →
      members.Distinct) := by
  induction fuel with
  | zero =>
      refine ⟨?_, ?_, ?_⟩ <;>
        (intro text value rest reads
         exact nomatch reads)
  | succ fuel inductionHypothesis =>
      obtain ⟨values, itemLists, memberLists⟩ := inductionHypothesis
      refine ⟨?_, ?_, ?_⟩
      · intro text value rest reads
        rw [readValue] at reads
        split at reads
        · split at reads
          · cases reads
            exact ⟨List.nodup_nil, True.intro⟩
          · obtain ⟨⟨members, behind⟩, inner, same⟩ :=
              Option.map_eq_some_iff.mp reads
            cases same
            exact ⟨members.nodup_keys_unique,
              @JsonMembers.Distinct.putAll .nil True.intro _
                (memberLists inner)⟩
        · split at reads
          · split at reads
            · cases reads
              exact True.intro
            · obtain ⟨⟨items, behind⟩, inner, same⟩ :=
                Option.map_eq_some_iff.mp reads
              cases same
              exact itemLists inner
          · split at reads
            · obtain ⟨_, _, same⟩ := Option.map_eq_some_iff.mp reads
              cases same
              exact True.intro
            · split at reads
              · cases reads
                exact True.intro
              · split at reads
                · cases reads
                  exact True.intro
                · split at reads
                  · cases reads
                    exact True.intro
                  · exact readNumber_distinct reads
      · intro text items rest reads
        simp only [readItems, Option.bind_eq_bind] at reads
        obtain ⟨⟨value, behind⟩, first, reads⟩ :=
          Option.bind_eq_some_iff.mp reads
        dsimp only at reads
        split at reads
        · cases reads
          exact ⟨values first, True.intro⟩
        · obtain ⟨next, _, reads⟩ := Option.bind_eq_some_iff.mp reads
          obtain ⟨⟨tail, _⟩, others, same⟩ := Option.bind_eq_some_iff.mp reads
          cases same
          exact ⟨values first, itemLists others⟩
      · intro text members rest reads
        simp only [readMembers, Option.bind_eq_bind] at reads
        obtain ⟨_, _, reads⟩ := Option.bind_eq_some_iff.mp reads
        obtain ⟨⟨key, _⟩, _, reads⟩ := Option.bind_eq_some_iff.mp reads
        obtain ⟨_, _, reads⟩ := Option.bind_eq_some_iff.mp reads
        obtain ⟨⟨value, behind⟩, first, reads⟩ :=
          Option.bind_eq_some_iff.mp reads
        dsimp only at reads
        split at reads
        · cases reads
          exact ⟨values first, True.intro⟩
        · obtain ⟨next, _, reads⟩ := Option.bind_eq_some_iff.mp reads
          obtain ⟨⟨tail, _⟩, others, same⟩ := Option.bind_eq_some_iff.mp reads
          cases same
          exact ⟨values first, memberLists others⟩

/-- The value that a text denotes. -/
def jsonValue? (text : List UInt8) : Option JsonValue := do
  let (value, rest) ← readValue text.length text
  if skipSpace rest = [] then some value else none

def Denotes (text : List UInt8) (value : JsonValue) : Prop :=
  jsonValue? text = some value

instance (text : List UInt8) (value : JsonValue) :
    Decidable (Denotes text value) :=
  inferInstanceAs (Decidable (jsonValue? text = some value))

theorem Denotes.distinct
    {text : List UInt8} {value : JsonValue} (denotes : Denotes text value) :
    value.Distinct := by
  obtain ⟨⟨read, rest⟩, reads, same⟩ := Option.bind_eq_some_iff.mp denotes
  dsimp only at same
  split at same
  · cases same
    exact (read_distinct text.length).1 reads
  · exact nomatch same

/-- A text of every kind of value. -/
example :
    jsonValue? (ascii "[null, true, -12, 0.5e1, \"a\\n\\u00e9\", []]") =
      some (.array (.cons .null (.cons (.boolean true) (.cons (.int (-12))
        (.cons (.double (ascii "0.5e1"))
          (.cons (.string [0x61, 0x0a, 0xc3, 0xa9])
            (.cons (.array .nil) .nil))))))) := by
  decide +kernel

end LibubusJni.Lib
