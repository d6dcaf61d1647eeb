import LibubusJni.Libubox.JsonShown
import LibubusJni.Libubus.Invoke

/-!
# The JSON that is handed to Java

`recv_cb_json_out` formats the DATA of an answer, and `dummy_defer_cb` the one
of a call, as it came from the bus.
-/

namespace LibubusJni.Wrapper

open LibubusJni.Lib LibubusJni.Libubox LibubusJni.Libubus

/-- What `blobmsg_format_json` returns for a DATA attribute. -/
def dataJson (buf : UbusMsghdrBuf) (msg : Nat) : Option (List UInt8) :=
  blobmsgFormatJson buf.mem buf.data.length msg true

/-- A text of JSON is returned; bytes of strings from 0x80 on stand for
themselves. -/
def ReturnsJson (buf : UbusMsghdrBuf) (msg : Nat) : Prop :=
  ∃ text value, dataJson buf msg = some text ∧ Denotes text value

/-- The attribute that `ubus_parse_msg` found is DATA, and not empty. -/
theorem data_of_arrived {buf : UbusMsghdrBuf} {msg : Nat}
    (arrived : buf.attrbuf .data = some msg) :
    blobId (attrAt buf.mem msg) = UbusMsgAttr.data.id ∧
      0 < rawAt buf.mem msg := by
  obtain ⟨member, _, isData⟩ := blobParse_some arrived
  rw [blobForEachAttr] at member
  exact ⟨isData, (bounds_of_mem_attrsFrom member).2.2⟩

/-- The DATA of a message is handed over as a text of JSON if and only if, in
each container that is printed, nothing is refused and nothing in a table is
without a name, but for a refused attribute that is alone. -/
theorem dataJson_valid_iff {buf : UbusMsghdrBuf} {msg : Nat}
    (arrived : buf.attrbuf .data = some msg) :
    ReturnsJson buf msg ↔
      (shownIn buf.mem buf.data.length msg).Printable false := by
  obtain ⟨isData, notEmpty⟩ := data_of_arrived arrived
  have ends : ∀ addr, buf.data.length ≤ addr → buf.mem addr = 0 := by
    intro addr behind
    rw [UbusMsghdrBuf.mem, memoryOf, List.getD_eq_getElem?_getD,
      List.getElem?_eq_none behind, Option.getD_none]
  have isTable : (blobIsExtended (attrAt buf.mem msg) &&
      blobId (attrAt buf.mem msg) == BlobmsgType.array.id) = false := by
    rw [isData]
    exact Bool.and_false _
  -- any name that is too long will do
  have tooLong : 65536 ≤ (List.replicate 65536 (0 : UInt8)).length :=
    Nat.le_of_eq List.length_replicate.symm
  have short : (shownIn buf.mem buf.data.length msg).ShortNames :=
    shortNames_shownFrom _ _ _
  rw [ReturnsJson, dataJson,
    blobmsgFormatJson_shown tooLong ends notEmpty isTable,
    ← Shown.contents_fields tooLong short]
  constructor
  · rintro ⟨text, value, isText, denotes⟩
    rw [← Option.some.inj isText] at denotes
    exact ⟨value, denotes⟩
  · rintro ⟨value, denotes⟩
    exact ⟨_, value, rfl, denotes⟩

/-- The number 5 under the name `a`. -/
theorem dataJson_valid_iff_number :
    ReturnsJson
      ⟨⟨0, UbusMsgType.data.code, 0, 0⟩,
        [0, 0, 0, 20, 7, 0, 0, 16, 0x85, 0, 0, 12, 0, 1, 0x61, 0, 0, 0, 0, 5]⟩
      4 := by
  apply (dataJson_valid_iff (by decide +kernel)).mpr
  have met : shownIn
      (memoryOf [0, 0, 0, 20, 7, 0, 0, 16, 0x85, 0, 0, 12, 0, 1, 0x61, 0, 0, 0,
        0, 5]) 20 4 = .scalar [0x61] (.int32 5) .nil := by decide +kernel
  exact met ▸ Or.inr ⟨Or.inr (List.cons_ne_nil _ _), trivial⟩

/-- The number 5 without a name is printed alone between braces. -/
theorem dataJson_unnamed :
    let buf : UbusMsghdrBuf :=
      ⟨⟨0, UbusMsgType.data.code, 0, 0⟩,
        [0, 0, 0, 20, 7, 0, 0, 16, 0x85, 0, 0, 12, 0, 0, 0, 0, 0, 0, 0, 5]⟩
    buf.attrbuf .data = some 4 ∧ dataJson buf 4 = some (ascii "\x7b5\x7d") ∧
      ¬ ReturnsJson buf 4 := by
  have printed : dataJson
      ⟨⟨0, UbusMsgType.data.code, 0, 0⟩,
        [0, 0, 0, 20, 7, 0, 0, 16, 0x85, 0, 0, 12, 0, 0, 0, 0, 0, 0, 0, 5]⟩ 4 =
      some (ascii "\x7b5\x7d") := by decide +kernel
  refine ⟨by decide +kernel, printed, fun returns => ?_⟩
  obtain ⟨text, value, isText, denotes⟩ := returns
  rw [printed] at isText
  rw [← Option.some.inj isText, Denotes] at denotes
  have noValue : jsonValue? (ascii "\x7b5\x7d") = none := by decide +kernel
  rw [noValue] at denotes
  cases denotes

end LibubusJni.Wrapper
