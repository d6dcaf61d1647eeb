import LibubusJni.Libubox.JsonStored

/-!
# Reading what was printed

`back` is what the text of the entries of a container is read as: nothing, if
the name of an entry in a table is empty, since the value is printed without
it, or too long, since a comma is printed without an entry.  The induction is
over the fields; the fuel of the readers covers the length of the text.
-/

namespace LibubusJni.Libubox

open LibubusJni Lib

/-! ## Strings -/

theorem hexDigit_read :
    ∀ digit < 16, hexDigit? (hexDigit digit) = some digit := by
  decide

/-- The letter of an escape stands for the byte, but for control characters
without a letter of their own. -/
theorem escapeLetter_cases
    {byte escape : UInt8} (letter : escapeLetter byte = some escape) :
    escape = Byte.letterU ∧ byte < 0x20 ∨
      escape ≠ Byte.letterU ∧ escaped? escape = some byte := by
  rw [escapeLetter] at letter
  split at letter
  · next same =>
      rw [← Option.some.inj letter, same]
      decide
  split at letter
  · next same =>
      rw [← Option.some.inj letter, same]
      decide
  split at letter
  · next same =>
      rw [← Option.some.inj letter, same]
      decide
  split at letter
  · next same =>
      rw [← Option.some.inj letter, same]
      decide
  split at letter
  · next same =>
      rw [← Option.some.inj letter]
      rcases same with same | same <;>
        (rw [same]
         decide)
  split at letter
  · next small =>
      exact Or.inl ⟨(Option.some.inj letter).symm, small⟩
  · exact nomatch letter

/-- A byte that is not escaped may stand in a string. -/
theorem escapeLetter_none
    {byte : UInt8} (plain : escapeLetter byte = none) :
    byte ≠ Byte.quote ∧ byte ≠ Byte.backslash ∧ ¬ byte < 0x20 := by
  rw [escapeLetter] at plain
  refine ⟨?_, ?_, ?_⟩
  · intro same
    rw [same] at plain
    exact absurd plain (by decide)
  · intro same
    rw [same] at plain
    exact absurd plain (by decide)
  · intro small
    rw [if_pos small] at plain
    split_ifs at plain

/-- An escaped byte is read as the byte. -/
theorem readEscape_escapeBytes
    {byte escape : UInt8} (letter : escapeLetter byte = some escape)
    (rest : List UInt8) :
    ∃ behind, escapeBytes byte escape ++ rest = Byte.backslash :: behind ∧
      readEscape behind = some ([byte], rest) := by
  rcases escapeLetter_cases letter with ⟨number, small⟩ | ⟨number, simple⟩
  · have lower := UInt8.lt_iff_toNat_lt.mp small
    have high := hexDigit_read (byte.toNat / 16) (by
      have := byte.toNat_lt
      omega)
    have low := hexDigit_read (byte.toNat % 16) (Nat.mod_lt _ (by decide))
    have zero : hexDigit? 0x30 = some 0 := rfl
    have code : ((0 * 16 + 0) * 16 + byte.toNat / 16) * 16 + byte.toNat % 16 =
        byte.toNat := by omega
    have small' : byte.toNat < 0x20 := lower
    refine ⟨escape :: 0x30 :: 0x30 :: hexDigit (byte.toNat / 16) ::
      hexDigit (byte.toNat % 16) :: rest, by
        rw [escapeBytes, if_pos number]
        rfl, ?_⟩
    rw [readEscape, if_pos number, readUnicode]
    simp only [readHex, zero, high, low, Option.bind_eq_bind,
      Option.bind_some, code]
    rw [if_neg (by omega), if_neg (by omega), utf8, if_pos (by omega),
      Nat.toUInt8, UInt8.ofNat_toNat]
  · refine ⟨escape :: rest, by
      rw [escapeBytes, if_neg number]
      rfl, ?_⟩
    rw [readEscape, if_neg number, simple]
    rfl

/-- A string is read as it is printed. -/
theorem readChars_escapeText
    (str : List UInt8) {fuel : Nat} (rest : List UInt8)
    (enough : (escapeText str).length < fuel) :
    readChars fuel (escapeText str ++ Byte.quote :: rest) =
      some (str, rest) := by
  induction str generalizing fuel with
  | nil =>
      obtain ⟨less, isLess⟩ := Nat.exists_eq_add_of_le' enough
      rw [isLess, escapeText, List.nil_append, Nat.add_succ, readChars,
        if_pos rfl]
  | cons byte tail inductionHypothesis =>
      rw [escapeText] at enough ⊢
      obtain ⟨less, isLess⟩ := Nat.exists_eq_add_of_le' (Nat.zero_lt_of_lt enough)
      rw [isLess] at enough ⊢
      rw [List.append_assoc]
      cases letter : escapeLetter byte with
      | none =>
          obtain ⟨notQuote, notBackslash, printable⟩ := escapeLetter_none letter
          rw [letter] at enough
          have behind := @inductionHypothesis less (by
            dsimp only at enough
            rw [List.length_append, List.length_singleton] at enough
            omega)
          dsimp only
          rw [List.singleton_append, readChars, if_neg notQuote,
            if_neg notBackslash, if_neg printable, behind]
          rfl
      | some escape =>
          obtain ⟨behind, isBehind, read⟩ := readEscape_escapeBytes letter
            (escapeText tail ++ Byte.quote :: rest)
          rw [letter] at enough
          have tailRead := @inductionHypothesis less (by
            dsimp only at enough
            rw [List.length_append, escapeBytes] at enough
            split at enough <;>
              (simp only [List.length_cons, List.length_nil] at enough
               omega))
          dsimp only
          rw [isBehind, readChars, if_neg (by decide), if_pos rfl, read]
          simp only [Option.bind_eq_bind, Option.bind_some]
          rw [tailRead]
          rfl

theorem readString_escapeText (str rest : List UInt8) :
    readString (escapeText str ++ Byte.quote :: rest) = some (str, rest) :=
  readChars_escapeText str rest (by
    rw [List.length_append, List.length_cons]
    omega)

/-! ## Values -/

/-- The value that the text of a scalar denotes. -/
def scalarJson : BlobmsgScalar → JsonValue
  | .null => .null
  | .int8 val => .boolean (val != 0)
  | .int16 val => .int val.toNat
  | .int32 val => .int val.toInt32.toInt
  | .int64 val => .int val.toInt64.toInt
  | .string text => .string text

/-- A text in which a comma or a bracket comes next. -/
def Delimited (text : List UInt8) : Prop :=
  ∃ byte rest, text = byte :: rest ∧
    (byte = Byte.comma ∨ byte = Byte.closeBrace ∨ byte = Byte.closeBracket)

theorem Delimited.numberEnd {text : List UInt8} (delimited : Delimited text) :
    NumberEnd text := by
  obtain ⟨byte, rest, isText, which⟩ := delimited
  rw [isText]
  rcases which with same | same | same <;>
    (rw [same]
     exact ⟨by decide, by decide, by decide, by decide⟩)

/-- A byte that a value may begin with. -/
structure Opens (byte : UInt8) : Prop where
  notSpace : isSpace byte = false
  notComma : byte ≠ Byte.comma
  notBrace : byte ≠ Byte.closeBrace
  notBracket : byte ≠ Byte.closeBracket

instance (byte : UInt8) : Decidable (Opens byte) :=
  decidable_of_iff
    (isSpace byte = false ∧ byte ≠ Byte.comma ∧ byte ≠ Byte.closeBrace ∧
      byte ≠ Byte.closeBracket)
    ⟨fun all => ⟨all.1, all.2.1, all.2.2.1, all.2.2.2⟩,
      fun all => ⟨all.1, all.2, all.3, all.4⟩⟩

/-- A byte of a number. -/
theorem opens_number
    {byte : UInt8} (numeric : isDigit byte = true ∨ byte = Byte.minus) :
    Opens byte ∧ byte ≠ Byte.quote ∧ byte ≠ Byte.openBrace ∧
      byte ≠ Byte.openBracket ∧ byte ≠ 0x6e ∧ byte ≠ 0x74 ∧ byte ≠ 0x66 := by
  have other : ∀ excluded : UInt8, isDigit excluded = false →
      excluded ≠ Byte.minus → byte ≠ excluded := by
    intro excluded notDigit notMinus same
    rw [same] at numeric
    rcases numeric with digit | minus
    · rw [notDigit] at digit
      exact nomatch digit
    · exact notMinus minus
  have notSpace : isSpace byte = false := by
    rw [isSpace]
    simp only [Bool.or_eq_false_iff, beq_eq_false_iff_ne]
    exact ⟨⟨⟨other _ (by decide) (by decide), other _ (by decide) (by decide)⟩,
      other _ (by decide) (by decide)⟩, other _ (by decide) (by decide)⟩
  exact ⟨⟨notSpace, other _ (by decide) (by decide),
    other _ (by decide) (by decide), other _ (by decide) (by decide)⟩,
    other _ (by decide) (by decide), other _ (by decide) (by decide),
    other _ (by decide) (by decide), other _ (by decide) (by decide),
    other _ (by decide) (by decide), other _ (by decide) (by decide)⟩

theorem decimal_first (val : Int) :
    ∃ byte tail, decimal val = byte :: tail ∧
      (isDigit byte = true ∨ byte = Byte.minus) := by
  by_cases sign : val < 0
  · rw [decimal, if_pos sign]
    exact ⟨_, _, rfl, Or.inr rfl⟩
  · have digits := isDigit_ascii_repr val.toNat
    rw [decimal, if_neg sign]
    cases isDigits : ascii val.toNat.repr with
    | nil =>
        rw [ascii_repr] at isDigits
        exact absurd (List.map_eq_nil_iff.mp isDigits) Nat.toDigits_ne_nil
    | cons byte tail =>
        rw [isDigits] at digits
        exact ⟨byte, tail, rfl, Or.inl (digits byte List.mem_cons_self)⟩

/-- A number in a text. -/
theorem readValue_decimal
    (fuel : Nat) (val : Int) {rest : List UInt8} (ends : NumberEnd rest) :
    readValue (fuel + 1) (decimal val ++ rest) = some (.int val, rest) := by
  have reads := readNumber_decimal val ends
  obtain ⟨byte, tail, isText, numeric⟩ := decimal_first val
  obtain ⟨opens, notQuote, notBrace, notBracket, notN, notT, notF⟩ :=
    opens_number numeric
  have space := opens.notSpace
  rw [isText, List.cons_append] at reads ⊢
  have kept : skipSpace (byte :: (tail ++ rest)) = byte :: (tail ++ rest) :=
    List.dropWhile_cons_of_neg (by rw [space]; decide)
  rw [readValue, expect_other _ space notBrace, expect_other _ space notBracket,
    expect_other _ space notQuote,
    expectWord_other (by rfl) space notN,
    expectWord_other (by rfl) space notT,
    expectWord_other (by rfl) space notF, kept]
  exact reads

/-- A string in a text. -/
theorem readValue_stringText (fuel : Nat) (str rest : List UInt8) :
    readValue (fuel + 1) (stringText str ++ rest) =
      some (.string str, rest) := by
  have parts : stringText str ++ rest =
      Byte.quote :: (escapeText str ++ Byte.quote :: rest) := by
    rw [stringText, List.cons_append, List.append_assoc, List.singleton_append]
  rw [parts, readValue, expect_other _ (by decide) (by decide),
    expect_other _ (by decide) (by decide), expect_same _ (by decide)]
  dsimp only
  rw [readString_escapeText]
  rfl

/-- A word in a text. -/
theorem readValue_word (fuel : Nat) (rest : List UInt8) :
    readValue (fuel + 1) (ascii "null" ++ rest) = some (.null, rest) ∧
      readValue (fuel + 1) (ascii "true" ++ rest) =
        some (.boolean true, rest) ∧
      readValue (fuel + 1) (ascii "false" ++ rest) =
        some (.boolean false, rest) := by
  have skip : ∀ (word : List UInt8) (letter byte : UInt8) (tail : List UInt8),
      word = letter :: tail → isSpace letter = false → letter ≠ byte →
      expect byte (word ++ rest) = none := by
    intro word letter byte tail isWord space other
    rw [isWord, List.cons_append]
    exact expect_other _ space other
  have miss : ∀ (word other : List UInt8) (letter first : UInt8)
      (tail rest' : List UInt8), word = letter :: tail → other = first :: rest' →
      isSpace letter = false → letter ≠ first →
      expectWord other (word ++ rest) = none := by
    intro word other letter first tail rest' isWord isOther space different
    rw [isWord, List.cons_append]
    exact expectWord_other isOther space different
  refine ⟨?_, ?_, ?_⟩
  · rw [readValue, skip _ _ _ _ (by rfl) (by decide) (by decide),
      skip _ _ _ _ (by rfl) (by decide) (by decide),
      skip _ _ _ _ (by rfl) (by decide) (by decide),
      expectWord_same _ _ (by rfl) (by decide)]
  · rw [readValue, skip _ _ _ _ (by rfl) (by decide) (by decide),
      skip _ _ _ _ (by rfl) (by decide) (by decide),
      skip _ _ _ _ (by rfl) (by decide) (by decide),
      miss _ _ _ _ _ _ (by rfl) (by rfl) (by decide) (by decide),
      expectWord_same _ _ (by rfl) (by decide)]
  · rw [readValue, skip _ _ _ _ (by rfl) (by decide) (by decide),
      skip _ _ _ _ (by rfl) (by decide) (by decide),
      skip _ _ _ _ (by rfl) (by decide) (by decide),
      miss _ _ _ _ _ _ (by rfl) (by rfl) (by decide) (by decide),
      miss _ _ _ _ _ _ (by rfl) (by rfl) (by decide) (by decide),
      expectWord_same _ _ (by rfl) (by decide)]

/-- A scalar is read as it is printed. -/
theorem readValue_scalarText
    (fuel : Nat) (value : BlobmsgScalar) {rest : List UInt8}
    (ends : NumberEnd rest) :
    readValue (fuel + 1) (scalarText value ++ rest) =
      some (scalarJson value, rest) := by
  obtain ⟨null, yes, no⟩ := readValue_word fuel rest
  cases value with
  | null =>
      exact null
  | int8 val =>
      rw [scalarText, scalarJson]
      cases val != 0 with
      | false => exact no
      | true => exact yes
  | int16 val =>
      exact readValue_decimal fuel val.toNat ends
  | int32 val =>
      exact readValue_decimal fuel val.toInt32.toInt ends
  | int64 val =>
      exact readValue_decimal fuel val.toInt64.toInt ends
  | string text =>
      exact readValue_stringText fuel text rest

/-- The first byte of a scalar. -/
theorem scalarText_first (value : BlobmsgScalar) :
    ∃ byte tail, scalarText value = byte :: tail ∧ Opens byte ∧
      (byte = Byte.quote → ∃ text, value = .string text) := by
  have number : ∀ val : Int, ∃ byte tail, decimal val = byte :: tail ∧
      Opens byte ∧ byte ≠ Byte.quote := by
    intro val
    obtain ⟨byte, tail, isText, numeric⟩ := decimal_first val
    obtain ⟨opens, notQuote, _⟩ := opens_number numeric
    exact ⟨byte, tail, isText, opens, notQuote⟩
  cases value with
  | null =>
      exact ⟨_, _, rfl, by decide, fun same => absurd same (by decide)⟩
  | int8 val =>
      rw [scalarText]
      cases val != 0 with
      | false =>
          exact ⟨_, _, rfl, by decide, fun same => absurd same (by decide)⟩
      | true =>
          exact ⟨_, _, rfl, by decide, fun same => absurd same (by decide)⟩
  | int16 val =>
      obtain ⟨byte, tail, isText, opens, notQuote⟩ := number val.toNat
      exact ⟨byte, tail, isText, opens, fun same => absurd same notQuote⟩
  | int32 val =>
      obtain ⟨byte, tail, isText, opens, notQuote⟩ := number val.toInt32.toInt
      exact ⟨byte, tail, isText, opens, fun same => absurd same notQuote⟩
  | int64 val =>
      obtain ⟨byte, tail, isText, opens, notQuote⟩ := number val.toInt64.toInt
      exact ⟨byte, tail, isText, opens, fun same => absurd same notQuote⟩
  | string text =>
      exact ⟨Byte.quote, _, rfl, by decide, fun _ => ⟨text, rfl⟩⟩

/-! ## Entries -/

/-- The name of an entry does not come through. -/
def Lost (array : Bool) (name : List UInt8) : Prop :=
  65536 ≤ name.length ∨ array = false ∧ name = []

instance (array : Bool) (name : List UInt8) : Decidable (Lost array name) :=
  inferInstanceAs (Decidable (_ ∨ _))

/-- The name of an entry that does. -/
def entryKey (array : Bool) (name : List UInt8) : List UInt8 :=
  if array then [] else name

/-- A container of entries; in an array, their names do not count. -/
def containerJson (array : Bool) (entries : JsonMembers) : JsonValue :=
  if array then .array entries.items else .object entries.unique

/-- One entry and nothing of it printed. -/
def alone : BlobmsgFields → Bool
  | .scalar name _ .nil => decide (65536 ≤ name.length)
  | .nested name _ _ .nil => decide (65536 ≤ name.length)
  | _ => false

/-- What the text of the entries of a container is read as. -/
def back (array : Bool) : BlobmsgFields → Option JsonMembers
  | .nil => some .nil
  | .scalar name value rest =>
      if Lost array name then none
      else
        (some (scalarJson value)).bind fun value =>
          (back array rest).map (.cons (entryKey array name) value)
  | .nested name isArray inner rest =>
      if Lost array name then none
      else
        (if alone inner then some (containerJson isArray .nil)
          else (back isArray inner).map (containerJson isArray)).bind
          fun value => (back array rest).map (.cons (entryKey array name) value)

/-- What the text of a container is read as. -/
def contents (array : Bool) (fields : BlobmsgFields) : Option JsonValue :=
  if alone fields then some (containerJson array .nil)
  else (back array fields).map (containerJson array)

/-- Items as members without names. -/
def unnamedMembers : JsonItems → JsonMembers
  | .nil => .nil
  | .cons item tail => .cons [] item (unnamedMembers tail)

theorem items_unnamedMembers (items : JsonItems) :
    (unnamedMembers items).items = items := by
  induction items using unnamedMembers.induct with
  | case1 => rfl
  | case2 item tail inductionHypothesis =>
      rw [unnamedMembers, JsonMembers.items, inductionHypothesis]

/-- The closing bracket of a container. -/
def closing (array : Bool) : UInt8 :=
  if array then Byte.closeBracket else Byte.closeBrace

/-- The reader for the entries of a container. -/
def readEntries (array : Bool) (fuel : Nat) (text : List UInt8) :
    Option (JsonMembers × List UInt8) :=
  if array then
    (readItems fuel text).map fun (items, rest) => (unnamedMembers items, rest)
  else readMembers fuel text

theorem delimited_closing (array : Bool) (rest : List UInt8) :
    Delimited (closing array :: rest) := by
  cases array with
  | false => exact ⟨_, _, rfl, Or.inr (Or.inl rfl)⟩
  | true => exact ⟨_, _, rfl, Or.inr (Or.inr rfl)⟩

/-- No value begins with a comma or a closing bracket. -/
theorem readValue_delimited
    (fuel : Nat) {text : List UInt8} (delimited : Delimited text) :
    readValue fuel text = none := by
  cases fuel with
  | zero =>
      rfl
  | succ fuel =>
      obtain ⟨byte, rest, isText, which⟩ := delimited
      have properties : isSpace byte = false ∧ byte ≠ Byte.openBrace ∧
          byte ≠ Byte.openBracket ∧ byte ≠ Byte.quote ∧ byte ≠ 0x6e ∧
          byte ≠ 0x74 ∧ byte ≠ 0x66 ∧ byte ≠ Byte.minus ∧
          isDigit byte = false := by
        rcases which with same | same | same <;>
          (rw [same]
           decide)
      obtain ⟨space, notBrace, notBracket, notQuote, notN, notT, notF,
        notMinus, notDigit⟩ := properties
      have kept : skipSpace (byte :: rest) = byte :: rest :=
        List.dropWhile_cons_of_neg (by rw [space]; decide)
      have noDigits : readDigits (byte :: rest) = none := by
        rw [readDigits, List.span_eq_takeWhile_dropWhile,
          List.takeWhile_cons_of_neg (by rw [notDigit]; decide)]
      rw [isText, readValue, expect_other _ space notBrace,
        expect_other _ space notBracket, expect_other _ space notQuote,
        expectWord_other (by rfl) space notN,
        expectWord_other (by rfl) space notT,
        expectWord_other (by rfl) space notF, kept]
      dsimp only
      rw [readNumber, if_neg notMinus, readUnsigned, noDigits]
      rfl

theorem readEntries_delimited
    (array : Bool) (fuel : Nat) {text : List UInt8}
    (delimited : Delimited text) : readEntries array fuel text = none := by
  cases fuel with
  | zero =>
      cases array <;> rfl
  | succ fuel =>
      cases array with
      | true =>
          rw [readEntries, if_pos rfl, readItems,
            readValue_delimited fuel delimited]
          rfl
      | false =>
          obtain ⟨byte, rest, isText, which⟩ := delimited
          have missing : expect Byte.quote text = none := by
            rw [isText]
            rcases which with same | same | same <;>
              (rw [same]
               exact expect_other _ (by decide) (by decide))
          rw [readEntries, if_neg (by decide), readMembers, missing]
          rfl

/-- A value where a member of an object should be. -/
theorem readMembers_value
    (fuel : Nat) {byte : UInt8} {value more behind : List UInt8}
    (isValue : value = byte :: more) (opens : Opens byte)
    (string : byte = Byte.quote → ∃ text, value = stringText text)
    (delimited : Delimited behind) :
    readMembers fuel (value ++ behind) = none := by
  cases fuel with
  | zero =>
      rfl
  | succ fuel =>
      by_cases quoted : byte = Byte.quote
      · obtain ⟨text, isText⟩ := string quoted
        obtain ⟨next, rest, isBehind, which⟩ := delimited
        have noColon : expect Byte.colon behind = none := by
          rw [isBehind]
          rcases which with same | same | same <;>
            (rw [same]
             exact expect_other _ (by decide) (by decide))
        rw [isText, stringText, List.cons_append, List.append_assoc,
          List.singleton_append, readMembers, expect_same _ (by decide)]
        simp only [Option.bind_eq_bind, Option.bind_some]
        rw [readString_escapeText]
        simp only [Option.bind_some]
        rw [noColon]
        rfl
      · rw [isValue, List.cons_append, readMembers,
          expect_other _ opens.notSpace quoted]
        rfl

/-- The first entry of a container and what is behind it. -/
theorem readEntries_entry
    (array : Bool) {fuel : Nat} {name text behind : List UInt8}
    {value : Option JsonValue} (kept : ¬ Lost array name)
    (reads : readValue fuel (text ++ behind) =
      value.map fun value => (value, behind)) :
    readEntries array (fuel + 1) (entryText array name text ++ behind) =
      value.bind fun value =>
        match expect (closing array) behind with
        | some rest => some (.cons (entryKey array name) value .nil, rest)
        | none =>
            (expect Byte.comma behind).bind fun behind =>
              (readEntries array fuel behind).map fun (entries, rest) =>
                (.cons (entryKey array name) value entries, rest) := by
  rw [Lost, not_or] at kept
  have short : name.length < 65536 := Nat.lt_of_not_le kept.1
  rw [entryText, if_pos short]
  cases array with
  | true =>
      rw [labelText, if_neg (by simp), List.nil_append, readEntries,
        if_pos rfl, readItems, reads]
      cases value with
      | none =>
          rfl
      | some value =>
          simp only [Option.bind_eq_bind, Option.map_some, Option.bind_some]
          rw [show closing true = Byte.closeBracket from rfl]
          cases expect Byte.closeBracket behind with
          | some rest =>
              rfl
          | none =>
              cases expect Byte.comma behind with
              | none =>
                  rfl
              | some next =>
                  simp only [Option.bind_some, readEntries, if_true]
                  cases readItems fuel next with
                  | none => rfl
                  | some result => rfl
  | false =>
      have titled : name ≠ [] := fun none => kept.2 ⟨rfl, none⟩
      have parts : stringText name ++ ascii ":" ++ text ++ behind =
          Byte.quote :: (escapeText name ++
            Byte.quote :: (Byte.colon :: (text ++ behind))) := by
        rw [show ascii ":" = [Byte.colon] from rfl, stringText]
        simp only [List.cons_append, List.append_assoc, List.nil_append]
      rw [labelText, if_pos ⟨rfl, titled⟩, parts, readEntries,
        if_neg (by decide), readMembers, expect_same _ (by decide)]
      simp only [Option.bind_eq_bind, Option.bind_some]
      rw [readString_escapeText]
      simp only [Option.bind_some]
      rw [expect_same _ (by decide)]
      simp only [Option.bind_some]
      rw [reads]
      cases value with
      | none =>
          rfl
      | some value =>
          simp only [Option.map_some, Option.bind_some]
          rw [show closing false = Byte.closeBrace from rfl]
          cases expect Byte.closeBrace behind with
          | some rest =>
              rfl
          | none =>
              cases expect Byte.comma behind with
              | none =>
                  rfl
              | some next =>
                  simp only [Option.bind_some, readEntries, Bool.false_eq_true,
                    if_false]
                  cases readMembers fuel next with
                  | none => rfl
                  | some result => rfl

/-- Entries that are not the first ones come behind a comma. -/
theorem fieldsText_later
    (array : Bool) {fields : BlobmsgFields} (entries : fields ≠ .nil) :
    fieldsText array false fields =
      Byte.comma :: fieldsText array true fields := by
  cases fields with
  | nil =>
      exact absurd rfl entries
  | scalar name value rest =>
      rfl
  | nested name isArray inner rest =>
      rfl

theorem delimited_entries
    (array : Bool) (fields : BlobmsgFields) (rest : List UInt8) :
    Delimited (fieldsText array false fields ++ closing array :: rest) := by
  by_cases none : fields = .nil
  · rw [none]
    exact delimited_closing array rest
  · rw [fieldsText_later array none]
    exact ⟨_, _, rfl, Or.inl rfl⟩

/-- Where an entry or a bracket of a container is printed. -/
theorem opens_bracketed (array : Bool) (text : List UInt8) :
    ∃ byte more, bracketed array text = byte :: more ∧ Opens byte ∧
      byte ≠ Byte.quote := by
  cases array with
  | false => exact ⟨_, _, rfl, by decide, by decide⟩
  | true => exact ⟨_, _, rfl, by decide, by decide⟩

/-- An entry and the entries behind it. -/
theorem readEntries_cons
    (array : Bool) {name text rest : List UInt8} {value : Option JsonValue}
    {tail : BlobmsgFields} {fuel : Nat}
    (reads : ∀ {fuel behind}, text.length ≤ fuel → Delimited behind →
      readValue fuel (text ++ behind) = value.map fun value => (value, behind))
    (first : ∃ byte more, text = byte :: more ∧ Opens byte ∧
      (byte = Byte.quote → ∃ str, text = stringText str))
    (further : ∀ {fuel}, tail ≠ .nil →
      (fieldsText array true tail).length < fuel →
      readEntries array fuel
          (fieldsText array true tail ++ closing array :: rest) =
        (back array tail).map fun entries => (entries, rest))
    (enough :
      (entryText array name text ++ fieldsText array false tail).length <
        fuel) :
    readEntries array fuel
        (entryText array name text ++
          (fieldsText array false tail ++ closing array :: rest)) =
      (if Lost array name then none
        else
          value.bind fun value =>
            (back array tail).map (.cons (entryKey array name) value)).map
        fun entries => (entries, rest) := by
  have delimited := delimited_entries array tail rest
  obtain ⟨byte, more, isText, opens, string⟩ := first
  by_cases lost : Lost array name
  · rw [if_pos lost, Option.map_none]
    by_cases long : 65536 ≤ name.length
    · rw [entryText, if_neg (Nat.not_lt.mpr long), List.nil_append]
      exact readEntries_delimited array fuel delimited
    · obtain ⟨table, empty⟩ := lost.resolve_left long
      rw [entryText, if_pos (Nat.lt_of_not_le long), table, empty, labelText,
        if_neg (by simp), List.nil_append, readEntries, if_neg (by decide)]
      rw [table] at delimited
      exact readMembers_value fuel isText opens string delimited
  · have kept := lost
    rw [Lost, not_or] at kept
    rw [List.length_append, entryText, if_pos (Nat.lt_of_not_le kept.1),
      List.length_append] at enough
    obtain ⟨less, isLess⟩ :=
      Nat.exists_eq_add_of_le' (show 1 ≤ fuel by omega)
    rw [isLess, readEntries_entry array lost (reads (by omega) delimited),
      if_neg lost]
    cases value with
    | none =>
        rfl
    | some value =>
        simp only [Option.bind_some]
        by_cases last : tail = .nil
        · rw [last, fieldsText, List.nil_append,
            expect_same _ (by cases array <;> decide), back]
          rfl
        · rw [fieldsText_later array last] at enough ⊢
          rw [List.cons_append,
            expect_other _ (by decide) (by cases array <;> decide),
            expect_same _ (by decide)]
          simp only [Option.bind_some]
          rw [further last (by
            rw [List.length_cons] at enough
            omega)]
          cases back array tail with
          | none => rfl
          | some entries => rfl

/-- A container is read as its entries are. -/
theorem readValue_bracketed
    (array : Bool) {text rest : List UInt8} {entries : Option JsonMembers}
    {fuel : Nat} (first : ∃ byte more, text = byte :: more ∧
      isSpace byte = false ∧ byte ≠ closing array)
    (reads : readEntries array fuel (text ++ closing array :: rest) =
      entries.map fun entries => (entries, rest)) :
    readValue (fuel + 1) (bracketed array text ++ rest) =
      (entries.map (containerJson array)).map fun value => (value, rest) := by
  obtain ⟨byte, more, isText, space, notClosing⟩ := first
  have parts : bracketed array text ++ rest =
      (if array then Byte.openBracket else Byte.openBrace) ::
        (text ++ closing array :: rest) := by
    rw [bracketed, closing, List.cons_append, List.append_assoc,
      List.singleton_append]
  rw [parts, readValue]
  cases array with
  | false =>
      rw [if_neg (by decide), expect_same _ (by decide)]
      dsimp only
      rw [isText, List.cons_append,
        @expect_other Byte.closeBrace _ _ space notClosing]
      rw [readEntries, if_neg (by decide), isText, List.cons_append] at reads
      dsimp only
      rw [reads]
      cases entries with
      | none => rfl
      | some entries => rfl
  | true =>
      rw [if_pos rfl, expect_other _ (by decide) (by decide),
        expect_same _ (by decide)]
      dsimp only
      rw [isText, List.cons_append,
        @expect_other Byte.closeBracket _ _ space notClosing]
      rw [readEntries, if_pos rfl, isText, List.cons_append] at reads
      dsimp only
      cases items : readItems fuel (byte :: (more ++ closing true :: rest)) with
      | none =>
          rw [items] at reads
          cases entries with
          | none => rfl
          | some entries => cases reads
      | some result =>
          rw [items] at reads
          cases entries with
          | none => cases reads
          | some entries =>
              have same := Option.some.inj reads
              rw [Prod.mk.injEq] at same
              simp only [Option.map_some, containerJson, if_true, ← same.1,
                items_unnamedMembers, ← same.2]

/-- An empty container. -/
theorem readValue_empty (array : Bool) (fuel : Nat) (rest : List UInt8) :
    readValue (fuel + 1) (bracketed array [] ++ rest) =
      some (containerJson array .nil, rest) := by
  rw [bracketed, List.nil_append, List.cons_append, List.singleton_append,
    readValue]
  cases array with
  | false =>
      rw [if_neg (by decide), expect_same _ (by decide)]
      dsimp only
      rw [if_neg (by decide), expect_same _ (by decide)]
      rfl
  | true =>
      rw [if_pos rfl, expect_other _ (by decide) (by decide),
        expect_same _ (by decide)]
      dsimp only
      rw [if_pos rfl, expect_same _ (by decide)]
      rfl

/-- What is printed behind the bracket of a container. -/
theorem fieldsText_first
    (array : Bool) {fields : BlobmsgFields} (entries : fields ≠ .nil)
    (printed : alone fields = false) :
    ∃ byte more, fieldsText array true fields = byte :: more ∧
      isSpace byte = false ∧ byte ≠ closing array := by
  have entry : ∀ {name text : List UInt8} {rest : BlobmsgFields},
      (∃ byte more, text = byte :: more ∧ Opens byte) →
      (rest = .nil → name.length < 65536) →
      ∃ byte more, entryText array name text ++ fieldsText array false rest =
        byte :: more ∧ isSpace byte = false ∧ byte ≠ closing array := by
    intro name text rest first shortIfLast
    obtain ⟨byte, more, isText, opens⟩ := first
    have notClosing : byte ≠ closing array := by
      cases array with
      | false => exact opens.notBrace
      | true => exact opens.notBracket
    by_cases short : name.length < 65536
    · rw [entryText, if_pos short, labelText]
      by_cases titled : array = false ∧ name ≠ []
      · rw [if_pos titled]
        exact ⟨_, _, rfl, by decide, by cases array <;> decide⟩
      · rw [if_neg titled, isText]
        exact ⟨byte, _, rfl, opens.notSpace, notClosing⟩
    · have notLast : rest ≠ .nil := fun last => short (shortIfLast last)
      rw [entryText, if_neg short, fieldsText_later array notLast]
      exact ⟨_, _, rfl, by decide, by cases array <;> decide⟩
  cases fields with
  | nil =>
      exact absurd rfl entries
  | scalar name value rest =>
      obtain ⟨byte, more, isText, opens, _⟩ := scalarText_first value
      apply entry ⟨byte, more, isText, opens⟩
      intro last
      rw [last, alone, decide_eq_false_iff_not] at printed
      omega
  | nested name isArray inner rest =>
      obtain ⟨byte, more, isText, opens, _⟩ :=
        opens_bracketed isArray (fieldsText isArray true inner)
      apply entry ⟨byte, more, isText, opens⟩
      intro last
      rw [last, alone, decide_eq_false_iff_not] at printed
      omega

/-- The container of entries that are read. -/
theorem readValue_container
    (array : Bool) {fields : BlobmsgFields} {rest : List UInt8} {fuel : Nat}
    (reads : ∀ {fuel}, fields ≠ .nil →
      (fieldsText array true fields).length < fuel →
      readEntries array fuel
          (fieldsText array true fields ++ closing array :: rest) =
        (back array fields).map fun entries => (entries, rest))
    (enough : (bracketed array (fieldsText array true fields)).length ≤
      fuel) :
    readValue fuel
        (bracketed array (fieldsText array true fields) ++ rest) =
      (contents array fields).map fun value => (value, rest) := by
  rw [bracketed, List.length_cons, List.length_append,
    List.length_singleton] at enough
  obtain ⟨less, isLess⟩ := Nat.exists_eq_add_of_le' (show 1 ≤ fuel by omega)
  rw [isLess, contents]
  by_cases none : fields = .nil
  · rw [none]
    exact readValue_empty array less rest
  · cases single : alone fields with
    | true =>
        have nothing : fieldsText array true fields = [] := by
          cases fields with
          | nil =>
              rfl
          | scalar name value tail =>
              cases tail with
              | nil =>
                  rw [alone, decide_eq_true_eq] at single
                  rw [fieldsText, entryText, if_neg (Nat.not_lt.mpr single)]
                  rfl
              | scalar => cases single
              | nested => cases single
          | nested name isArray inner tail =>
              cases tail with
              | nil =>
                  rw [alone, decide_eq_true_eq] at single
                  rw [fieldsText, entryText, if_neg (Nat.not_lt.mpr single)]
                  rfl
              | scalar => cases single
              | nested => cases single
        rw [nothing]
        exact readValue_empty array less rest
    | false =>
        exact readValue_bracketed array (fieldsText_first array none single)
          (reads none (by omega))

/-- The entries of a container are read as `back` says. -/
theorem readEntries_fields
    (fields : BlobmsgFields) (array : Bool) (rest : List UInt8) {fuel : Nat}
    (entries : fields ≠ .nil)
    (enough : (fieldsText array true fields).length < fuel) :
    readEntries array fuel
        (fieldsText array true fields ++ closing array :: rest) =
      (back array fields).map fun entries => (entries, rest) := by
  induction fields generalizing array rest fuel with
  | nil =>
      exact absurd rfl entries
  | scalar name value tail inductionHypothesis =>
      obtain ⟨byte, more, isText, opens, string⟩ := scalarText_first value
      rw [fieldsText, commaText, if_pos rfl, List.nil_append] at enough ⊢
      rw [List.append_assoc, back]
      apply readEntries_cons array
      · intro fuel behind enough delimited
        obtain ⟨less, isLess⟩ := Nat.exists_eq_add_of_le' (show 1 ≤ fuel by
          rw [isText, List.length_cons] at enough
          omega)
        rw [isLess, readValue_scalarText less value delimited.numberEnd]
        rfl
      · refine ⟨byte, more, isText, opens, ?_⟩
        intro quoted
        obtain ⟨text, isString⟩ := string quoted
        rw [isString]
        exact ⟨text, rfl⟩
      · exact inductionHypothesis array rest
      · exact enough
  | nested name isArray inner tail innerHypothesis inductionHypothesis =>
      obtain ⟨byte, more, isText, opens, notQuote⟩ :=
        opens_bracketed isArray (fieldsText isArray true inner)
      rw [fieldsText, commaText, if_pos rfl, List.nil_append] at enough ⊢
      rw [List.append_assoc, back]
      apply readEntries_cons array
      · intro fuel behind enough delimited
        exact readValue_container isArray (innerHypothesis isArray behind)
          enough
      · exact ⟨byte, more, isText, opens, fun same => absurd same notQuote⟩
      · exact inductionHypothesis array rest
      · exact enough

/-- What the text of a container denotes. -/
theorem denotes_bracketed
    (array : Bool) (fields : BlobmsgFields) (value : JsonValue) :
    Denotes (bracketed array (fieldsText array true fields)) value ↔
      contents array fields = some value := by
  have reads := @readValue_container array fields []
    (bracketed array (fieldsText array true fields)).length
    (readEntries_fields fields array []) (Nat.le_refl _)
  rw [List.append_nil] at reads
  rw [Denotes, jsonValue?, reads]
  cases contents array fields with
  | none => exact Iff.rfl
  | some read => exact Iff.rfl

end LibubusJni.Libubox
