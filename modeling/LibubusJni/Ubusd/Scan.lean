import LibubusJni.Ubusd.Seen
import LibubusJni.Ubusd.EventObject
import LibubusJni.Ubusd.Lookup

/-!
# Who receives an event

The loop of `ubusd_send_event` leaves the sorted tree of patterns as soon as a
pattern has fewer bytes in common with the event than the one before it.  Up to
the event these numbers grow, and behind it nothing matches, so no pattern is
missed; the mark in an object keeps a second pattern from sending again.
-/

namespace LibubusJni.Ubusd

open LibubusJni.Lib LibubusJni.Libubox

/-! ## Patterns -/

/-- A pattern asks for one event, or for all that begin with its stem. -/
def EventSource.matches (source : EventSource) (id : List UInt8) : Bool :=
  if source.isPartial then source.key.isPrefixOf id else source.key = id

theorem strmatchLen_fst (id key : List UInt8) :
    (strmatchLen id key).1 = true ↔ id = key := by
  induction id generalizing key with
  | nil =>
      cases key with
      | nil =>
          exact iff_of_true rfl rfl
      | cons byte rest =>
          exact iff_of_false Bool.false_ne_true (List.cons_ne_nil byte rest).symm
  | cons byte rest inductionHypothesis =>
      cases key with
      | nil =>
          exact iff_of_false Bool.false_ne_true (List.cons_ne_nil byte rest)
      | cons other others =>
          rw [strmatchLen]
          split
          · rename_i same
            simp [same, inductionHypothesis]
          · rename_i different
            simp [different]

theorem strmatchLen_snd (id key : List UInt8) :
    (strmatchLen id key).2 = commonLength id key := by
  induction id generalizing key with
  | nil =>
      cases key with
      | nil =>
          rfl
      | cons byte rest =>
          rfl
  | cons byte rest inductionHypothesis =>
      cases key with
      | nil =>
          rfl
      | cons other others =>
          rw [strmatchLen, commonLength]
          split
          · exact congrArg (· + 1) (inductionHypothesis others)
          · rfl

/-- The two tests of the loop. -/
theorem matches_iff (source : EventSource) (id : List UInt8) :
    ((strmatchLen id source.key).1 ||
        (source.isPartial &&
          (strmatchLen id source.key).2 == source.key.length)) =
      source.matches id := by
  rw [Bool.eq_iff_iff, Bool.or_eq_true, Bool.and_eq_true, beq_iff_eq,
    strmatchLen_fst, strmatchLen_snd, commonLength_eq_length,
    EventSource.matches]
  cases source.isPartial with
  | false =>
      simp [eq_comm]
  | true =>
      rw [if_pos rfl, List.isPrefixOf_iff_prefix]
      constructor
      · intro found
        cases found with
        | inl same =>
            exact same ▸ List.prefix_rfl
        | inr begins =>
            exact begins.2
      · intro begins
        exact Or.inr ⟨rfl, begins⟩

theorem EventSource.matches_prefix {source : EventSource} {id : List UInt8}
    (found : source.matches id = true) : source.key <+: id := by
  rw [EventSource.matches] at found
  split at found
  · exact List.isPrefixOf_iff_prefix.mp found
  · exact of_decide_eq_true found ▸ List.prefix_rfl

/-- Behind the event nothing matches. -/
theorem not_matches_of_above {source : EventSource} {id : List UInt8}
    (above : (avlStrcmp source.key id).isLE = false) :
    source.matches id = false := by
  apply eq_false_of_ne_true
  intro found
  rw [avlStrcmp_eq_compareLex,
    isLE_of_prefix (EventSource.matches_prefix found)] at above
  exact Bool.false_ne_true above.symm

/-! ## The loop -/

namespace Bus

variable {bus : Bus} (cl : Option Ptr) (id : List UInt8)
  (attrs : Option (List (List UInt8)))

/-- The loop misses no pattern: it sends for each that matches. -/
theorem sendEventFrom_eq (evs : List Ptr) (matchLen : Nat)
    (sorted : AvlSorted avlStrcmp bus.store.patternKey evs)
    (grown : ∀ ev ∈ evs,
      (avlStrcmp (bus.store.patternKey ev) id).isLE = true →
        matchLen ≤ commonLength id (bus.store.patternKey ev)) :
    sendEventFrom cl id attrs evs matchLen bus =
      (evs.filter fun ev => (bus.store.sourceAt ev).matches id).foldl
        (fun now ev =>
          now.ubusdSendEventMsg cl (bus.store.sourceAt ev).obj attrs) bus := by
  induction evs generalizing matchLen bus with
  | nil =>
      rfl
  | cons ev rest inductionHypothesis =>
      obtain ⟨below, restSorted⟩ := List.pairwise_cons.mp sorted
      rw [sendEventFrom, matches_iff, strmatchLen_snd]
      by_cases shrinks :
          commonLength id (bus.store.sourceAt ev).key < matchLen
      · -- the pattern is behind the event, and so are those that follow
        have above : (avlStrcmp (bus.store.patternKey ev) id).isLE = false := by
          apply eq_false_of_ne_true
          intro notAbove
          exact Nat.not_lt.mpr (grown ev List.mem_cons_self notAbove) shrinks
        have none : (ev :: rest).filter
            (fun ev => (bus.store.sourceAt ev).matches id) = [] := by
          apply List.filter_eq_nil_iff.mpr
          intro other member
          apply ne_true_of_eq_false
          apply not_matches_of_above
          apply eq_false_of_ne_true
          intro notAbove
          cases List.mem_cons.mp member with
          | inl isFirst =>
              rw [isFirst] at notAbove
              exact Bool.false_ne_true (above.symm.trans notAbove)
          | inr inRest =>
              have ordered := Std.TransCmp.isLE_trans (below other inRest)
                notAbove
              exact Bool.false_ne_true (above.symm.trans ordered)
        rw [if_pos shrinks, none]
        rfl
      · have later : ∀ other ∈ rest,
            (avlStrcmp (bus.store.patternKey other) id).isLE = true →
              commonLength id (bus.store.sourceAt ev).key ≤
                commonLength id (bus.store.patternKey other) := by
          intro other member notAbove
          have ordered := below other member
          rw [avlStrcmp_eq_compareLex] at ordered notAbove
          exact commonLength_mono ordered notAbove
        rw [if_neg shrinks]
        by_cases found : (bus.store.sourceAt ev).matches id = true
        · have store := bus.store_ubusdSendEventMsg cl
            (bus.store.sourceAt ev).obj attrs
          have continued := @inductionHypothesis
            (bus.ubusdSendEventMsg cl (bus.store.sourceAt ev).obj attrs)
            (commonLength id (bus.store.sourceAt ev).key)
          rw [store] at continued
          rw [if_pos found, List.filter_cons, if_pos found, List.foldl_cons]
          exact continued restSorted later
        · rw [if_neg found, List.filter_cons, if_neg found]
          exact inductionHypothesis _ restSorted later

/-! ## The marks -/

/-- An object that is not the sender's and has not seen the event. -/
def Eligible (bus : Bus) (cl : Option Ptr) (obj : Ptr) : Prop :=
  (bus.store.objectAt obj).client ≠ cl ∧ bus.eventSeen obj ≠ bus.objEventSeq

/-- The copy of an event that is for this object. -/
def EventCopy (bus : Bus) (attrs : List (List UInt8)) (obj : Ptr)
    (msg : BusMsg) : Prop :=
  (bus.store.objectAt obj).client = some msg.client ∧
    msg.hdr.type = UbusMsgType.invoke.code ∧ msg.hdr.peer = 0 ∧
      msg.data = msgFromBlob
        (blobPutInt32 UbusMsgAttr.objid.id (bus.store.objectAt obj).id ::
          attrs)

theorem ubusdSendEventMsg_skips {obj : Ptr} (not : ¬ Eligible bus cl obj) :
    bus.ubusdSendEventMsg cl obj attrs = bus := by
  rw [ubusdSendEventMsg.eq_def]
  by_cases own : (bus.store.objectAt obj).client = cl
  · rw [if_pos own]
  · have seen : bus.eventSeen obj = bus.objEventSeq := by
      by_contra unseen
      exact not ⟨own, unseen⟩
    rw [if_neg own, if_pos seen]

/-- An object that receives its copy is marked. -/
structure Copied (bus next : Bus) (attrs : List (List UInt8)) (obj : Ptr) :
    Prop where
  store : next.store = bus.store
  fault : next.fault = bus.fault
  seen : next.eventSeen = Function.update bus.eventSeen obj bus.objEventSeq
  count : next.objEventSeq = bus.objEventSeq
  sent : ∃ msg, next.sent = bus.sent ++ [msg] ∧ bus.EventCopy attrs obj msg

theorem ubusdSendEventMsg_copies {obj : Ptr} {filled : List (List UInt8)}
    (eligible : Eligible bus cl obj)
    (owned : (bus.store.objectAt obj).client.isSome) :
    Copied bus (bus.ubusdSendEventMsg cl obj (some filled)) filled obj := by
  obtain ⟨owner, own⟩ := Option.isSome_iff_exists.mp owned
  rw [ubusdSendEventMsg.eq_def, if_neg eligible.1, if_neg eligible.2]
  dsimp only
  rw [own]
  exact
    { store := rfl
      fault := rfl
      seen := rfl
      count := rfl
      sent := ⟨_, rfl, own, rfl, rfl, rfl⟩ }

theorem ubusdSendEventMsg_dies {obj : Ptr} (eligible : Eligible bus cl obj) :
    (bus.ubusdSendEventMsg cl obj none).fault ≠ none := by
  rw [ubusdSendEventMsg.eq_def, if_neg eligible.1, if_neg eligible.2]
  exact Option.some_ne_none _

theorem foldl_ubusdSendEventMsg_fault (objs : List Ptr)
    (dead : bus.fault ≠ none) :
    (objs.foldl (fun now obj => now.ubusdSendEventMsg cl obj none)
      bus).fault ≠ none := by
  induction objs generalizing bus with
  | nil =>
      exact dead
  | cons obj rest inductionHypothesis =>
      apply inductionHypothesis
      by_cases eligible : Eligible bus cl obj
      · exact ubusdSendEventMsg_dies cl eligible
      · dsimp only
        rw [ubusdSendEventMsg_skips cl none eligible]
        exact dead

/-- An event that cannot be made is fatal if anybody is to receive it. -/
theorem not_eligible_of_lives (objs : List Ptr)
    (lives : (objs.foldl (fun now obj => now.ubusdSendEventMsg cl obj none)
      bus).fault = none) : ∀ obj ∈ objs, ¬ Eligible bus cl obj := by
  induction objs with
  | nil =>
      exact fun _ member => absurd member List.not_mem_nil
  | cons obj rest inductionHypothesis =>
      rw [List.foldl_cons] at lives
      by_cases eligible : Eligible bus cl obj
      · exact absurd lives (foldl_ubusdSendEventMsg_fault cl rest
          (ubusdSendEventMsg_dies cl eligible))
      · rw [ubusdSendEventMsg_skips cl none eligible] at lives
        exact List.forall_mem_cons.mpr ⟨eligible, inductionHypothesis lives⟩

/-- An event that nobody is to receive leaves no trace. -/
theorem foldl_ubusdSendEventMsg_skips (objs : List Ptr)
    (none : ∀ obj ∈ objs, ¬ Eligible bus cl obj) :
    objs.foldl (fun now obj => now.ubusdSendEventMsg cl obj attrs) bus =
      bus := by
  induction objs with
  | nil =>
      rfl
  | cons obj rest inductionHypothesis =>
      obtain ⟨first, others⟩ := List.forall_mem_cons.mp none
      rw [List.foldl_cons, ubusdSendEventMsg_skips cl attrs first]
      exact inductionHypothesis others

/-- Each object on the list that is to receive the event receives one copy. -/
theorem foldl_ubusdSendEventMsg_some (objs : List Ptr)
    (filled : List (List UInt8)) (running : bus.fault = none)
    (owned : ∀ obj ∈ objs, (bus.store.objectAt obj).client.isSome) :
    let next := objs.foldl
      (fun now obj => now.ubusdSendEventMsg cl obj (some filled)) bus
    ∃ found msgs, found.Nodup ∧
      (∀ obj, obj ∈ found ↔ obj ∈ objs ∧ Eligible bus cl obj) ∧
      next.fault = none ∧ next.sent = bus.sent ++ msgs ∧
        List.Forall₂ (bus.EventCopy filled) found msgs := by
  induction objs generalizing bus with
  | nil =>
      exact ⟨[], [], List.nodup_nil, by simp, running, by simp, .nil⟩
  | cons obj rest inductionHypothesis =>
      obtain ⟨firstOwned, restOwned⟩ := List.forall_mem_cons.mp owned
      rw [List.foldl_cons]
      by_cases eligible : Eligible bus cl obj
      · have copied := @ubusdSendEventMsg_copies bus cl obj filled eligible
          firstOwned
        obtain ⟨msg, sent, copy⟩ := copied.sent
        have later := inductionHypothesis (copied.fault.trans running) (by
          rw [copied.store]
          exact restOwned)
        obtain ⟨found, msgs, once, exactly, lives, laterSent, copies⟩ := later
        have still : ∀ other, Eligible
            (bus.ubusdSendEventMsg cl obj (some filled)) cl other ↔
              Eligible bus cl other ∧ other ≠ obj := by
          intro other
          rw [Eligible, copied.store, copied.seen, copied.count, Eligible]
          by_cases this : other = obj
          · simp [this]
          · simp [this]
        refine ⟨obj :: found, msg :: msgs, ?_, ?_, lives, ?_, ?_⟩
        · apply List.nodup_cons.mpr
          refine ⟨fun member => ?_, once⟩
          exact ((still obj).mp ((exactly obj).mp member).2).2 rfl
        · intro other
          rw [List.mem_cons, List.mem_cons, exactly, still]
          by_cases this : other = obj
          · simp [this, eligible]
          · simp [this]
        · rw [laterSent, sent, List.append_assoc, List.singleton_append]
        · apply List.Forall₂.cons copy
          refine copies.imp fun other msg isCopy => ?_
          rw [EventCopy, copied.store] at isCopy
          exact isCopy
      · rw [ubusdSendEventMsg_skips cl _ eligible]
        obtain ⟨found, msgs, once, exactly, rest⟩ :=
          inductionHypothesis running restOwned
        refine ⟨found, msgs, once, fun other => ?_, rest⟩
        rw [exactly, List.mem_cons]
        by_cases this : other = obj
        · simp [this, eligible]
        · simp [this]

end Bus

/-! ## The result -/

/-- An object with a pattern that matches, and of another client than the
sender. -/
def Receives (store : ObjStore) (cl : Ptr) (id : List UInt8) (obj : Ptr) :
    Prop :=
  (∃ ev ∈ store.patterns, (store.sourceAt ev).obj = obj ∧
    (store.sourceAt ev).matches id = true) ∧
      (store.objectAt obj).client ≠ some cl

/-- `ubusd_send_event` sends one message to each object that is to receive the
event, and no other. -/
structure Delivers (bus : Bus) (cl : Ptr) (id : List UInt8)
    (attrs : Option (List (List UInt8))) : Prop where
  lives : (bus.ubusdSendEvent (some cl) id attrs).fault = none
  sent : ∃ found msgs, found.Nodup ∧
    (∀ obj, obj ∈ found ↔ Receives bus.store cl id obj) ∧
    (bus.ubusdSendEvent (some cl) id attrs).sent = bus.sent ++ msgs ∧
      List.Forall₂ (fun obj msg => ∃ filled, attrs = some filled ∧
        bus.EventCopy filled obj msg) found msgs

/-- The objects of the patterns that match, as the loop comes to them. -/
def matchingObjects (store : ObjStore) (id : List UInt8) : List Ptr :=
  (store.patterns.filter fun ev => (store.sourceAt ev).matches id).map
    fun ev => (store.sourceAt ev).obj

theorem mem_matchingObjects {store : ObjStore} {id : List UInt8} {obj : Ptr} :
    obj ∈ matchingObjects store id ↔
      ∃ ev ∈ store.patterns, (store.sourceAt ev).obj = obj ∧
        (store.sourceAt ev).matches id = true := by
  rw [matchingObjects, List.mem_map]
  refine exists_congr fun ev => ?_
  constructor
  · intro ⟨member, same⟩
    obtain ⟨inTree, found⟩ := List.mem_filter.mp member
    exact ⟨inTree, same, found⟩
  · intro ⟨inTree, same, found⟩
    exact ⟨List.mem_filter.mpr ⟨inTree, found⟩, same⟩

/-- The scan sends to all objects with a matching pattern in turn. -/
theorem ubusdSendEvent_eq {bus : Bus} (sorted : TreesSorted bus.store)
    (cl : Option Ptr) (id : List UInt8)
    (attrs : Option (List (List UInt8))) :
    bus.ubusdSendEvent cl id attrs =
      (matchingObjects bus.store id).foldl
        (fun now obj => now.ubusdSendEventMsg cl obj attrs)
        { bus with objEventSeq := bus.objEventSeq + 1 } := by
  rw [Bus.ubusdSendEvent, matchingObjects, List.foldl_map]
  exact Bus.sendEventFrom_eq cl id attrs _ 0 sorted.patterns
    fun _ _ _ => Nat.zero_le _

/-- An event that is new to all objects. -/
theorem eligible_new {bus : Bus} (seen : Seen bus) (cl : Option Ptr)
    (obj : Ptr) :
    Bus.Eligible { bus with objEventSeq := bus.objEventSeq + 1 } cl obj ↔
      (bus.store.objectAt obj).client ≠ cl := by
  have unseen : bus.eventSeen obj ≠ bus.objEventSeq + 1 :=
    Nat.ne_of_lt (Nat.lt_succ_of_le (seen obj))
  exact and_iff_left unseen

/-- The objects that the scan sends to. -/
theorem receives_iff {bus : Bus} (seen : Seen bus) (cl : Ptr)
    (id : List UInt8) (obj : Ptr) :
    Receives bus.store cl id obj ↔
      obj ∈ matchingObjects bus.store id ∧
        Bus.Eligible { bus with objEventSeq := bus.objEventSeq + 1 }
          (some cl) obj := by
  rw [Receives, mem_matchingObjects, eligible_new seen]

theorem delivers_some {bus : Bus} (linked : Linked none none bus.store)
    (sorted : TreesSorted bus.store) (seen : Seen bus)
    (running : bus.fault = none) (cl : Ptr) (id : List UInt8)
    (filled : List (List UInt8)) : Delivers bus cl id (some filled) := by
  have event := ubusdSendEvent_eq sorted (some cl) id (some filled)
  have owned : ∀ obj ∈ matchingObjects bus.store id,
      (bus.store.objectAt obj).client.isSome := by
    intro obj member
    obtain ⟨ev, inTree, same, _⟩ := mem_matchingObjects.mp member
    rw [← same]
    exact linked.sourceOwned ev inTree
  obtain ⟨found, msgs, once, exactly, lives, sent, copies⟩ :=
    @Bus.foldl_ubusdSendEventMsg_some
      { bus with objEventSeq := bus.objEventSeq + 1 } (some cl)
      (matchingObjects bus.store id) filled running owned
  rw [← event] at lives sent
  refine ⟨lives, found, msgs, once, fun obj => ?_, sent, ?_⟩
  · exact (exactly obj).trans (receives_iff seen cl id obj).symm
  · exact copies.imp fun obj msg copy => ⟨filled, rfl, copy⟩

theorem delivers_none {bus : Bus} (sorted : TreesSorted bus.store)
    (seen : Seen bus) (running : bus.fault = none) (cl : Ptr)
    (id : List UInt8) :
    Delivers bus cl id none ↔ ∀ obj, ¬ Receives bus.store cl id obj := by
  have event := ubusdSendEvent_eq sorted (some cl) id none
  constructor
  · intro delivers obj receives
    have lives := delivers.lives
    rw [event] at lives
    obtain ⟨member, eligible⟩ := (receives_iff seen cl id obj).mp receives
    exact Bus.not_eligible_of_lives (some cl) _ lives obj member eligible
  · intro nobody
    rw [Bus.foldl_ubusdSendEventMsg_skips (some cl) none _ fun obj member
      eligible => nobody obj ((receives_iff seen cl id obj).mpr
        ⟨member, eligible⟩)] at event
    refine ⟨event ▸ running, [], [], List.nodup_nil, fun obj => ?_, ?_, .nil⟩
    · exact iff_of_false List.not_mem_nil (nobody obj)
    · rw [event, List.append_nil]

theorem eventAttrs_isSome (bytes id : List UInt8) (data : Nat) :
    (Bus.eventAttrs bytes id data).isSome = true ↔
      blobmsgDataLen (memoryOf bytes) data < 0x80000000 := by
  rw [Bus.eventAttrs, Option.isSome_map, memcpyFrom]
  split
  · rename_i copies
    exact iff_of_true rfl copies
  · rename_i negative
    exact iff_of_false Bool.false_ne_true negative

/-- In every state that ubusd reaches, an event is sent once to each object with
a matching pattern that is not the sender's, and to no other, if and only if the
length of its data is not negative or nobody is to receive it. -/
theorem event_delivers_iff {actions : List BusAction} {final : Bus}
    (reached : ubusd.run actions = some final) (running : final.fault = none)
    (cl : Ptr) (id bytes : List UInt8) (data : Nat) :
    Delivers final cl id (Bus.eventAttrs bytes id data) ↔
      (blobmsgDataLen (memoryOf bytes) data < 0x80000000 ∨
        ∀ obj, ¬ Receives final.store cl id obj) := by
  have linked := (busInv_run reached).linked
  have sorted := treesSorted_run reached
  have seen := seen_run reached
  rw [← eventAttrs_isSome bytes id data]
  cases Bus.eventAttrs bytes id data with
  | none =>
      exact (delivers_none sorted seen running cl id).trans
        (or_iff_right Bool.false_ne_true).symm
  | some filled =>
      exact iff_of_true
        (delivers_some linked sorted seen running cl id filled) (Or.inl rfl)

/-- A client registers its object for all events that begin with `a`; another
client connects. -/
def registerRun : List BusAction :=
  oneObject ++
    [.receive 1
      ⟨⟨0, UbusMsgType.invoke.code, 2, 0⟩,
        [0, 0, 0, 72, 3, 0, 0, 8, 0, 0, 0, 1] ++
          ([4, 0, 0, 13] ++ ascii "register" ++ [0, 0, 0, 0, 7, 0, 0, 44]) ++
          ([0x83, 0, 0, 19, 0, 7] ++ ascii "pattern" ++
            [0, 0, 0, 97, 42, 0, 0]) ++
          ([0x85, 0, 0, 20, 0, 6] ++ ascii "object" ++
            [0, 0, 0, 0, 0, 0, 0x17, 0x70])⟩ [],
      .connect [5001]]

theorem event_delivers_registered :
    ∃ final, ubusd.run registerRun = some final ∧
      Receives final.store 4 (ascii "ab") 2 ∧
      Delivers final 4 (ascii "ab") (Bus.eventAttrs
        ([0x82, 0, 0, 12, 0, 4] ++ ascii "data" ++ [0, 0]) (ascii "ab") 0) :=
  ⟨_, rfl, ⟨⟨3, by decide +kernel, rfl, by decide +kernel⟩, by decide +kernel⟩,
    (@event_delivers_iff registerRun _ rfl rfl 4 (ascii "ab")
      ([0x82, 0, 0, 12, 0, 4] ++ ascii "data" ++ [0, 0]) 0).mpr
        (Or.inl (by decide +kernel))⟩

/-- The event `ab`, whose data is a table with its name cut off by the end of
the attribute. -/
def sendNegative : BusRequest :=
  ⟨⟨0, UbusMsgType.invoke.code, 3, 0⟩,
    [0, 0, 0, 56, 3, 0, 0, 8, 0, 0, 0, 1] ++
      ([4, 0, 0, 9] ++ ascii "send" ++ [0, 0, 0, 0, 7, 0, 0, 32]) ++
      ([0x83, 0, 0, 15, 0, 2] ++ ascii "id" ++ [0, 0, 0, 0, 97, 98, 0, 0]) ++
      ([0x82, 0, 0, 10, 0, 4] ++ ascii "data" ++ [0, 0])⟩

/-- The table is accepted, and the process dies instead of sending it. -/
theorem event_dies :
    ∃ final next, ubusd.run registerRun = some final ∧
      final.fault = none ∧
      ubusd.step final (.receive 4 sendNegative []) = some next ∧
      next.fault = some .overrun ∧
      Receives final.store 4 (ascii "ab") 2 ∧
      ¬ Delivers final 4 (ascii "ab")
        (Bus.eventAttrs sendNegative.bytes (ascii "ab") 44) := by
  refine ⟨_, _, rfl, rfl, rfl, by decide +kernel,
    ⟨⟨3, by decide +kernel, rfl, by decide +kernel⟩, by decide +kernel⟩, ?_⟩
  intro delivers
  exact absurd delivers.lives (by decide +kernel)

end LibubusJni.Ubusd
