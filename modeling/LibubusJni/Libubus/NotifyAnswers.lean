import Mathlib.Data.List.Find
import LibubusJni.Lib.Roster
import LibubusJni.Libubus.RequestLife

/-!
# A notification and its answers

The bits of `nreq->pending` and the array `nreq->id` stand for a roster of the
subscribers that ubusd has listed: `Marks` relates the two.  `NotifyRecord`
records the STATUS messages that answer one notification, the entry each was
taken for, and the calls of `status_cb` that are running.
-/

namespace LibubusJni.Libubus

open LibubusJni.Lib LibubusJni.Libubox

/-! ## The bit mask -/

/-- The bits that are set are the numbers of the open entries, and the array
holds their objects. -/
structure Marks (n : UbusRequest) (opened : List (UInt32 × Nat)) : Prop where
  bits : ∀ i < 32,
    (n.notifyPending.toBitVec.getLsbD i = true ↔ i ∈ opened.map Prod.snd)
  ids : ∀ entry ∈ opened, n.notifyId entry.2 = entry.1
  sorted : opened.Pairwise fun first later => first.2 < later.2
  small : ∀ entry ∈ opened, entry.2 < 32

theorem getLsbD_notifyBit : ∀ i < 32, ∀ j < 32,
    ((1 : UInt32) <<< UInt32.ofNat i).toBitVec.getLsbD j = decide (i = j) := by
  decide +kernel

namespace Marks

variable {n : UbusRequest} {opened : List (UInt32 × Nat)}

theorem find (marks : Marks n opened) (peer : UInt32) :
    ubusFindNotifyId n peer = (firstOpen peer opened).map Prod.snd := by
  cases found : firstOpen peer opened with
  | none =>
      refine List.find?_range_eq_none.mpr fun i bound => ?_
      cases isSet : n.notifyPending.toBitVec.getLsbD i with
      | false =>
          rfl
      | true =>
          obtain ⟨entry, isOpen, rfl⟩ :=
            List.mem_map.mp ((marks.bits i bound).mp isSet)
          have differs := List.find?_eq_none.mp found entry isOpen
          rw [marks.ids entry isOpen]
          simpa using differs
  | some entry =>
      obtain ⟨isPeer, front, back, split, earlier⟩ :=
        List.find?_eq_some_iff_append.mp found
      have isOpen : entry ∈ opened := List.mem_of_find?_eq_some found
      have isSmall := marks.small entry isOpen
      replace isPeer : entry.1 = peer := by simpa using isPeer
      refine List.find?_range_eq_some.mpr
        ⟨?_, List.mem_range.mpr isSmall, fun i smaller => ?_⟩
      · rw [(marks.bits entry.2 isSmall).mpr (List.mem_map_of_mem isOpen),
          marks.ids entry isOpen, isPeer]
        simp
      · cases isSet : n.notifyPending.toBitVec.getLsbD i with
        | false =>
            rfl
        | true =>
            obtain ⟨other, otherOpen, isOther⟩ := List.mem_map.mp
              ((marks.bits i (Nat.lt_trans smaller isSmall)).mp isSet)
            subst isOther
            rw [marks.ids other otherOpen]
            -- an entry with a smaller number stands in front
            have inFront : other ∈ front := by
              rw [split] at otherOpen
              have sorted := marks.sorted
              rw [split] at sorted
              have behind := (List.pairwise_append.mp sorted).2.1
              rcases List.mem_append.mp otherOpen with inFront | inBack
              · exact inFront
              · rcases List.mem_cons.mp inBack with same | later
                · rw [same] at smaller
                  exact absurd smaller (Nat.lt_irrefl _)
                · have larger := (List.pairwise_cons.mp behind).1 other later
                  exact absurd smaller (Nat.lt_asymm larger)
            simpa using earlier other inFront

theorem number_inj (marks : Marks n opened) {entry other : UInt32 × Nat}
    (isOpen : entry ∈ opened) (otherOpen : other ∈ opened)
    (same : other.2 = entry.2) : other = entry := by
  refine Prod.ext ?_ same
  rw [← marks.ids entry isOpen, ← marks.ids other otherOpen, same]

theorem nodup (marks : Marks n opened) : opened.Nodup :=
  marks.sorted.imp fun {first later} smaller same => by
    rw [same] at smaller
    exact Nat.lt_irrefl _ smaller

/-- The bit of an open entry is cleared. -/
theorem clear (marks : Marks n opened) {entry : UInt32 × Nat}
    (isOpen : entry ∈ opened) :
    Marks
      { n with
        notifyPending :=
          n.notifyPending &&& ~~~(1 <<< UInt32.ofNat entry.2) }
      (opened.erase entry) := by
  have inErased : ∀ other, other ∈ opened.erase entry ↔
      other ≠ entry ∧ other ∈ opened :=
    fun _ => marks.nodup.mem_erase_iff
  refine
    { bits := fun i bound => ?_
      ids := fun other member =>
        marks.ids other ((inErased other).mp member).2
      sorted := marks.sorted.sublist List.erase_sublist
      small := fun other member =>
        marks.small other ((inErased other).mp member).2 }
  have cleared : (n.notifyPending &&&
      ~~~((1 : UInt32) <<< UInt32.ofNat entry.2)).toBitVec.getLsbD i =
        (n.notifyPending.toBitVec.getLsbD i && !decide (entry.2 = i)) := by
    rw [UInt32.toBitVec_and, UInt32.toBitVec_not, BitVec.getLsbD_and,
      BitVec.getLsbD_not,
      getLsbD_notifyBit entry.2 (marks.small entry isOpen) i bound]
    simp [bound]
  rw [cleared, Bool.and_eq_true, marks.bits i bound]
  constructor
  · rintro ⟨member, differs⟩
    obtain ⟨other, otherOpen, rfl⟩ := List.mem_map.mp member
    refine List.mem_map_of_mem ((inErased other).mpr ⟨?_, otherOpen⟩)
    rintro rfl
    simp at differs
  · intro member
    obtain ⟨other, stays, rfl⟩ := List.mem_map.mp member
    obtain ⟨differs, otherOpen⟩ := (inErased other).mp stays
    refine ⟨List.mem_map_of_mem otherOpen, ?_⟩
    have otherNumber : entry.2 ≠ other.2 := fun same =>
      differs (marks.number_inj isOpen otherOpen same.symm)
    simpa using otherNumber

/-- Another entry is marked. -/
theorem add (marks : Marks n opened) {idx : Nat} (bound : idx < 32)
    (below : ∀ entry ∈ opened, entry.2 < idx) (objid : UInt32) :
    Marks
      { n with
        notifyPending := n.notifyPending ||| (1 <<< UInt32.ofNat idx)
        notifyId := Function.update n.notifyId idx objid }
      (opened ++ [(objid, idx)]) := by
  refine
    { bits := fun i isSmall => ?_
      ids := fun entry member => ?_
      sorted := List.pairwise_append.mpr
        ⟨marks.sorted, List.pairwise_singleton _ _, fun entry member last
          isLast => ?_⟩
      small := fun entry member => ?_ }
  · have added : (n.notifyPending |||
        ((1 : UInt32) <<< UInt32.ofNat idx)).toBitVec.getLsbD i =
          (n.notifyPending.toBitVec.getLsbD i || decide (idx = i)) := by
      rw [UInt32.toBitVec_or, BitVec.getLsbD_or,
        getLsbD_notifyBit idx bound i isSmall]
    rw [added, Bool.or_eq_true, marks.bits i isSmall, decide_eq_true_eq,
      List.map_append, List.mem_append, List.map_singleton,
      List.mem_singleton, eq_comm]
  · rcases List.mem_append.mp member with old | isNew
    · have differs : entry.2 ≠ idx := Nat.ne_of_lt (below entry old)
      exact (Function.update_of_ne differs _ _).trans (marks.ids entry old)
    · rw [List.mem_singleton.mp isNew]
      exact Function.update_self _ _ _
  · rw [List.mem_singleton.mp isLast]
    exact below entry member
  · rcases List.mem_append.mp member with old | isNew
    · exact marks.small entry old
    · rw [List.mem_singleton.mp isNew]
      exact bound

theorem pending_eq_zero_iff (marks : Marks n opened) :
    n.notifyPending = 0 ↔ opened = [] := by
  constructor
  · intro isZero
    rw [List.eq_nil_iff_forall_not_mem]
    intro entry isOpen
    have isSet := (marks.bits entry.2 (marks.small entry isOpen)).mpr
      (List.mem_map_of_mem isOpen)
    rw [isZero] at isSet
    simp at isSet
  · intro none
    refine UInt32.toBitVec_inj.mp (BitVec.eq_of_getLsbD_eq fun i bound => ?_)
    have unset : n.notifyPending.toBitVec.getLsbD i = false := by
      refine eq_false_of_ne_true fun isSet => ?_
      have member := (marks.bits i bound).mp isSet
      rw [none] at member
      exact List.not_mem_nil member
    rw [unset]
    simp

end Marks

/-- The entries that `ubus_process_notify_status` takes from the list of
ubusd. -/
def notifyEntries (listed : List UInt32) : List (UInt32 × Nat) :=
  (listed.take ubusMaxNotifyPeers).zipIdx 1

theorem addNotifyPeers_eq (idx : Nat) (peers : List (Option UInt32))
    (n : UbusRequest) :
    ∃ pending ids, addNotifyPeers idx peers n =
      { n with notifyPending := pending, notifyId := ids } := by
  induction peers generalizing idx n with
  | nil =>
      exact ⟨_, _, rfl⟩
  | cons peer rest inductionHypothesis =>
      cases peer with
      | none =>
          exact inductionHypothesis idx n
      | some objid =>
          rw [addNotifyPeers]
          split
          · exact ⟨_, _, rfl⟩
          · obtain ⟨pending, ids, isNew⟩ := inductionHypothesis (idx + 1)
              { n with
                notifyPending :=
                  n.notifyPending ||| (1 <<< UInt32.ofNat idx)
                notifyId := Function.update n.notifyId idx objid }
            exact ⟨pending, ids, isNew⟩

theorem Marks.addNotifyPeers {listed : List UInt32} :
    ∀ {n : UbusRequest} {opened : List (UInt32 × Nat)} {idx : Nat},
      Marks n opened → idx ≤ ubusMaxNotifyPeers →
        (∀ entry ∈ opened, entry.2 < idx) →
          Marks (addNotifyPeers idx (listed.map some) n)
            (opened ++
              (listed.take (ubusMaxNotifyPeers + 1 - idx)).zipIdx idx) := by
  induction listed with
  | nil =>
      intro n opened idx marks _ _
      rw [List.take_nil, List.zipIdx_nil, List.append_nil]
      exact marks
  | cons objid rest inductionHypothesis =>
      intro n opened idx marks bound below
      have marked := marks.add (Nat.lt_of_le_of_lt bound (by decide)) below objid
      have more : ubusMaxNotifyPeers + 1 - idx =
          (ubusMaxNotifyPeers - idx) + 1 := by
        omega
      rw [List.map_cons, Libubus.addNotifyPeers, more, List.take_succ_cons,
        List.zipIdx_cons]
      split
      · rename_i isLast
        rw [isLast, Nat.sub_self, List.take_zero, List.zipIdx_nil]
        rw [isLast] at marked
        exact marked
      · rename_i notLast
        have further := inductionHypothesis marked
          (Nat.lt_of_le_of_ne bound notLast) (fun entry member => by
            rcases List.mem_append.mp member with old | isNew
            · exact Nat.lt_succ_of_lt (below entry old)
            · rw [List.mem_singleton.mp isNew]
              exact Nat.lt_succ_self idx)
        rw [List.append_assoc, Nat.succ_sub_succ] at further
        exact further

/-! ## What is recorded of a notification -/

/-- A STATUS message that was taken for an entry; `status_cb` is called with
`id` and `status`. -/
structure NotifyAnswer where
  peer : UInt32
  id : Nat
  status : UInt32
  deriving DecidableEq, Repr

/-- The STATUS messages that answer a notification, the ones taken for an entry,
and the entries whose `status_cb` is running, innermost first. -/
structure NotifyRecord where
  statuses : List (UInt32 × UInt32)
  answers : List NotifyAnswer
  running : List Nat
  deriving DecidableEq, Repr

def NotifyRecord.empty : NotifyRecord := ⟨[], [], []⟩

/-- What one action adds to the record of the notification `n`; entry 0 is the
answer of ubusd. -/
def NotifyRecord.step (n : Nat) (record : NotifyRecord)
    (ctx : RequestContext) : RequestAction → NotifyRecord
  | .receive answers peer (.status attrs) =>
      let status := attrs.status.getD 0
      let arrived :=
        if answers = n then
          { record with statuses := record.statuses ++ [(peer, status)] }
        else record
      match ctx.ubusFindRequest (ctx.request answers).seq peer with
      | some (req, some id) =>
          if req ≠ n then arrived
          else if id = 0 then record
          else
            { arrived with
              answers := record.answers ++ [⟨peer, id, status⟩]
              running :=
                if (ctx.request n).statusCb then id :: record.running
                else record.running }
      | some (_, none) | none => arrived
  | .returns =>
      match ctx.calls with
      | .statusCb req :: _ =>
          if req = n then { record with running := record.running.tail }
          else record
      | _ => record
  | .receive _ _ (.data _) | .startRequest .. | .notifyAsync ..
  | .completeRequestAsync _ | .completeRequest .. | .abortRequest _ | .timeout
  | .statusSeen => record

/-- The application neither aborts the notification nor waits for it in
`ubus_complete_request`, and its answers are STATUS messages. -/
def NotifyTraffic (n : Nat) : RequestAction → Prop
  | .abortRequest req | .completeRequest req _ => req ≠ n
  | .receive answers _ (.data _) => answers ≠ n
  | .receive _ _ (.status _) | .startRequest .. | .notifyAsync ..
  | .completeRequestAsync _ | .returns | .timeout | .statusSeen => True

/-- The first listed request that has the sequence number of a message and
waits for its peer is the notification if the message answers it, and another
one if it does not. -/
def Untwinned (n : Nat) (ctx : RequestContext) : RequestAction → Prop
  | .receive answers peer _ =>
      ∀ first,
        ctx.requests.find? (fun req =>
          req % 65536 == answers % 65536 && (ctx.request req).awaits peer) =
            some first →
          (first = n ↔ answers = n)
  | .startRequest .. | .notifyAsync .. | .completeRequestAsync _
  | .completeRequest .. | .abortRequest _ | .returns | .timeout
  | .statusSeen => True

/-- `status_cb` is called once for each of the first entries whose object has
sent a status, with such a status; the notification completes once, when the
last entry has been answered and `status_cb` for it has returned. -/
structure Answered (n : Nat) (listed : List UInt32) (ctx : RequestContext)
    (record : NotifyRecord) : Prop where
  entries : ∀ answer ∈ record.answers,
    (answer.peer, answer.id) ∈ notifyEntries listed
  distinct : (record.answers.map NotifyAnswer.id).Nodup
  sent : (record.answers.map fun answer =>
    (answer.peer, answer.status)).Sublist record.statuses
  each : ∀ peer, (record.answers.map NotifyAnswer.peer).count peer =
    min ((record.statuses.map Prod.fst).count peer)
      ((listed.take ubusMaxNotifyPeers).count peer)
  called : ctx.log.count (.statusCb n) =
    if (ctx.request n).statusCb then record.answers.length else 0
  once : ctx.log.count (.completeCb n) ≤ 1
  completes : .completeCb n ∈ ctx.log ↔
    record.answers.length = (listed.take ubusMaxNotifyPeers).length ∧
      ∀ last ∈ record.answers.getLast?, last.id ∉ record.running

/-! ## The notification waits for its subscribers -/

/-- What holds of the notification also while a function works on it. -/
structure Gathering (n : Nat) (listed : List UInt32) (view : RequestView)
    (record : NotifyRecord) (opened : List (UInt32 × Nat)) : Prop where
  marks : Marks view.request opened
  balanced : Balanced (notifyEntries listed) opened
    (record.answers.map fun answer => (answer.peer, answer.id))
    (record.statuses.map Prod.fst)
  sent : (record.answers.map fun answer =>
    (answer.peer, answer.status)).Sublist record.statuses
  notify : view.request.notify = true
  unblocked : view.request.blocked = false
  spent : view.spent
  noData : ∀ frame ∈ view.calls, frame.isData = false
  noWait : ∀ completeCb reqTimeout,
    .completeRequest n completeCb reqTimeout ∉ view.calls
  frames : view.calls.count (.statusCb n) = record.running.length
  running : record.running.Sublist
    (record.answers.map NotifyAnswer.id).reverse
  called : view.log.count (.statusCb n) =
    if view.request.statusCb then record.answers.length else 0
  listed : view.listed ↔ .completeCb n ∉ view.log
  completeCb : view.request.completeCb =
    if .completeCb n ∈ view.log then none else some .application
  once : view.log.count (.completeCb n) ≤ 1
  closed : .completeCb n ∈ view.log → opened = []

/-- What holds of it between two steps. -/
structure Gathered (n : Nat) (listed : List UInt32) (view : RequestView)
    (record : NotifyRecord) (opened : List (UInt32 × Nat)) : Prop
    extends Gathering n listed view record opened where
  completes : .completeCb n ∈ view.log ↔
    opened = [] ∧ ∀ last ∈ record.answers.getLast?, last.id ∉ record.running

theorem nodup_numbers (listed : List UInt32) :
    ((notifyEntries listed).map Prod.snd).Nodup := by
  rw [notifyEntries, List.zipIdx_map_snd]
  exact List.nodup_range'

namespace Gathering

variable {n : Nat} {listed : List UInt32} {view : RequestView}
  {record : NotifyRecord} {opened : List (UInt32 × Nat)}

/-- No entry is answered twice, and none that is open has been answered. -/
theorem nodup (gathering : Gathering n listed view record opened) :
    (record.answers.map NotifyAnswer.id ++ opened.map Prod.snd).Nodup := by
  have numbers := (gathering.balanced.perm.map Prod.snd).nodup_iff.mpr
    (nodup_numbers listed)
  rw [List.map_append, List.map_map] at numbers
  exact numbers

theorem mem_entries (gathering : Gathering n listed view record opened)
    {entry : UInt32 × Nat} (isOpen : entry ∈ opened) :
    entry ∈ notifyEntries listed :=
  gathering.balanced.perm.subset (List.mem_append_right _ isOpen)

/-- The numbers of the entries start with one. -/
theorem number_ne_zero (gathering : Gathering n listed view record opened)
    {entry : UInt32 × Nat} (isOpen : entry ∈ opened) : entry.2 ≠ 0 := by
  have member : entry.2 ∈ (notifyEntries listed).map Prod.snd :=
    List.mem_map_of_mem (gathering.mem_entries isOpen)
  rw [notifyEntries, List.zipIdx_map_snd] at member
  exact Nat.ne_of_gt (List.mem_range'_1.mp member).1

end Gathering

namespace RequestContext

variable {n : Nat} {listed : List UInt32} {ctx next : RequestContext}
  {record : NotifyRecord} {opened : List (UInt32 × Nat)}

/-- `ubus_set_req_status` behind the last answer. -/
theorem gathered_ubusSetReqStatus
    (gathering : Gathering n listed (ctx.view n) record opened)
    (noneOpen : opened = [])
    (quiet : ∀ last ∈ record.answers.getLast?, last.id ∉ record.running) :
    Gathered n listed ((ctx.ubusSetReqStatus n 0).view n) record opened := by
  let stored : RequestContext :=
    { ctx with requests := listDel n ctx.requests }.modify n fun req =>
      { req with statusMsg := true, statusCode := 0 }
  have storedView : stored.view n =
      { ctx.view n with
        listed := False
        request := { ctx.request n with statusMsg := true, statusCode := 0 } } := by
    rw [view_modify, view_listDel]
  have storedRequest : stored.request n =
      { ctx.request n with statusMsg := true, statusCode := 0 } :=
    congrArg RequestView.request storedView
  have unblocked : ¬ (stored.request n).blocked = true := by
    rw [storedRequest]
    exact ne_true_of_eq_false gathering.unblocked
  have marks := gathering.marks
  have isSet : ctx.ubusSetReqStatus n 0 = stored.ubusReqCompleteCb n := by
    rw [ubusSetReqStatus]
    exact if_neg unblocked
  rw [isSet]
  by_cases completed : .completeCb n ∈ (ctx.view n).log
  · have noCb : (stored.request n).completeCb = none := by
      rw [storedRequest]
      exact gathering.completeCb.trans (if_pos completed)
    rw [ubusReqCompleteCb, noCb, storedView]
    exact
      { gathering with
        marks := { marks with }
        listed := ⟨False.elim, fun fresh => fresh completed⟩
        completes := iff_of_true completed ⟨noneOpen, quiet⟩ }
  · have isCb : (stored.request n).completeCb = some .application := by
      rw [storedRequest]
      exact gathering.completeCb.trans (if_neg completed)
    have noneYet : (ctx.view n).log.count (.completeCb n) = 0 :=
      List.count_eq_zero.mpr completed
    have nowCompleted : RequestEvent.completeCb n ∈
        (ctx.view n).log ++ [.completeCb n] :=
      List.mem_append_right _ (List.mem_singleton_self _)
    rw [ubusReqCompleteCb, isCb,
      view_call _ n (.completeCb n) (.completeCb n) rfl rfl, view_modify,
      storedView, storedRequest]
    refine
      { gathering with
        marks := { marks with }
        noData := ?_
        noWait := ?_
        frames := ?_
        called := ?_
        listed := ⟨False.elim, fun fresh => fresh nowCompleted⟩
        completeCb := (if_pos nowCompleted).symm
        once := ?_
        closed := fun _ => noneOpen
        completes := iff_of_true nowCompleted ⟨noneOpen, quiet⟩ }
    · intro frame member
      rcases List.mem_cons.mp member with isNew | old
      · rw [isNew]
        rfl
      · exact gathering.noData frame old
    · intro completeCb reqTimeout member
      rcases List.mem_cons.mp member with isNew | old
      · cases isNew
      · exact gathering.noWait completeCb reqTimeout old
    · have others : RequestCall.completeCb n ≠ .statusCb n := by simp
      exact (List.count_cons_of_ne others).trans gathering.frames
    · have others : RequestEvent.completeCb n ≠ .statusCb n := by simp
      exact (count_snoc_of_ne others _).trans gathering.called
    · have one : ((ctx.view n).log ++ [RequestEvent.completeCb n]).count
          (.completeCb n) = 1 := by
        rw [List.count_append, noneYet, List.count_singleton_self]
      exact Nat.le_of_eq one

theorem gathered_notifyStatusRest
    (gathering : Gathering n listed (ctx.view n) record opened)
    (quiet : ∀ last ∈ record.answers.getLast?, last.id ∉ record.running) :
    Gathered n listed ((ctx.notifyStatusRest n).view n) record opened := by
  rw [notifyStatusRest]
  split
  · rename_i isLast
    exact gathered_ubusSetReqStatus gathering
      (gathering.marks.pending_eq_zero_iff.mp isLast) quiet
  · rename_i notLast
    have someOpen : opened ≠ [] := fun none =>
      notLast (gathering.marks.pending_eq_zero_iff.mpr none)
    exact
      { gathering with
        completes := iff_of_false
          (fun completed => someOpen (gathering.closed completed))
          (fun all => someOpen all.1) }

/-- A STATUS message is taken for an open entry. -/
theorem gathered_ubusProcessNotifyStatus
    (gathered : Gathered n listed (ctx.view n) record opened)
    {entry : UInt32 × Nat} (isOpen : entry ∈ opened) (attrs : StatusAttrs)
    {statuses : List (UInt32 × UInt32)}
    (balanced : Balanced (notifyEntries listed) (opened.erase entry)
      ((record.answers.map fun answer => (answer.peer, answer.id)) ++ [entry])
      (statuses.map Prod.fst))
    (sent : ((record.answers.map fun answer =>
      (answer.peer, answer.status)) ++ [(entry.1, attrs.status.getD 0)]).Sublist
        statuses) :
    Gathered n listed
      ((ctx.ubusProcessNotifyStatus n entry.2 attrs).view n)
      { statuses := statuses
        answers := record.answers ++
          [⟨entry.1, entry.2, attrs.status.getD 0⟩]
        running :=
          if (ctx.request n).statusCb then entry.2 :: record.running
          else record.running }
      (opened.erase entry) := by
  have notCompleted : .completeCb n ∉ (ctx.view n).log := by
    intro completed
    rw [gathered.closed completed] at isOpen
    exact List.not_mem_nil isOpen
  have fresh : entry.2 ∉ record.answers.map NotifyAnswer.id := fun answered =>
    (List.nodup_append.mp gathered.nodup).2.2 entry.2 answered entry.2
      (List.mem_map_of_mem isOpen) rfl
  let answer : NotifyAnswer := ⟨entry.1, entry.2, attrs.status.getD 0⟩
  have ids : ((record.answers ++ [answer]).map NotifyAnswer.id).reverse =
      entry.2 :: (record.answers.map NotifyAnswer.id).reverse := by
    rw [List.map_append, List.reverse_append]
    rfl
  let cleared : RequestContext := ctx.modify n fun n =>
    { n with
      notifyPending :=
        n.notifyPending &&& ~~~(1 <<< UInt32.ofNat entry.2) }
  have clearedView : cleared.view n =
      { ctx.view n with
        request :=
          { ctx.request n with
            notifyPending := (ctx.request n).notifyPending &&&
              ~~~(1 <<< UInt32.ofNat entry.2) } } :=
    view_modify ctx n _
  have sameCb : (cleared.request n).statusCb = (ctx.request n).statusCb :=
    congrArg (fun view => view.request.statusCb) clearedView
  have marks := gathered.marks.clear isOpen
  have allBalanced : Balanced (notifyEntries listed) (opened.erase entry)
      ((record.answers ++ [answer]).map fun answer => (answer.peer, answer.id))
      (statuses.map Prod.fst) := by
    rw [List.map_append]
    exact balanced
  have allSent : ((record.answers ++ [answer]).map fun answer =>
      (answer.peer, answer.status)).Sublist statuses := by
    rw [List.map_append]
    exact sent
  have goesOn : ctx.ubusProcessNotifyStatus n entry.2 attrs =
      if (cleared.request n).statusCb then
        cleared.call (.statusCb n) (.statusCb n)
      else cleared.notifyStatusRest n := by
    rw [ubusProcessNotifyStatus]
    exact if_neg (gathered.number_ne_zero isOpen)
  rw [goesOn]
  cases isSet : (ctx.request n).statusCb with
  | true =>
      have counted := gathered.called
      rw [show (ctx.view n).request.statusCb = true from isSet,
        if_pos rfl] at counted
      have notYet : RequestEvent.completeCb n ∉
          (ctx.view n).log ++ [.statusCb n] := by
        intro member
        rcases List.mem_append.mp member with old | isNew
        · exact notCompleted old
        · cases List.mem_singleton.mp isNew
      rw [if_pos (sameCb.trans isSet),
        view_call cleared n (.statusCb n) (.statusCb n) rfl rfl, clearedView,
        if_pos rfl]
      refine
        { marks := { marks with }
          balanced := allBalanced
          sent := allSent
          notify := gathered.notify
          unblocked := gathered.unblocked
          spent := gathered.spent
          noData := ?_
          noWait := ?_
          frames := ?_
          running := ?_
          called := ?_
          listed := iff_of_true (gathered.listed.mpr notCompleted) notYet
          completeCb := ?_
          once := ?_
          closed := fun completed => absurd completed notYet
          completes := iff_of_false notYet fun all => ?_ }
      · intro frame member
        rcases List.mem_cons.mp member with isNew | old
        · rw [isNew]
          rfl
        · exact gathered.noData frame old
      · intro completeCb reqTimeout member
        rcases List.mem_cons.mp member with isNew | old
        · cases isNew
        · exact gathered.noWait completeCb reqTimeout old
      · exact List.count_cons_self.trans
          (congrArg (· + 1) gathered.frames)
      · rw [ids]
        exact gathered.running.cons_cons entry.2
      · rw [List.count_append, List.count_singleton_self, counted,
          List.length_append]
        exact (if_pos isSet).symm
      · rw [if_neg notYet]
        exact gathered.completeCb.trans (if_neg notCompleted)
      · rw [List.count_eq_zero.mpr notYet]
        exact Nat.zero_le 1
      · refine all.2 answer ?_ List.mem_cons_self
        rw [List.getLast?_concat]
        rfl
  | false =>
      have uncounted := gathered.called
      rw [show (ctx.view n).request.statusCb = false from isSet,
        if_neg Bool.false_ne_true] at uncounted
      rw [if_neg (by rw [sameCb, isSet]; exact Bool.false_ne_true),
        if_neg Bool.false_ne_true]
      refine gathered_notifyStatusRest ?_ ?_
      · rw [clearedView]
        refine
          { gathered.toGathering with
            marks := { marks with }
            balanced := allBalanced
            sent := allSent
            running := ?_
            called := ?_
            closed := fun completed => absurd completed notCompleted }
        · rw [ids]
          exact gathered.running.cons entry.2
        · rw [uncounted]
          exact (if_neg (by rw [isSet]; exact Bool.false_ne_true)).symm
      · intro last isLast running
        rw [List.getLast?_concat, Option.mem_some_iff] at isLast
        rw [← isLast] at running
        exact fresh (List.mem_reverse.mp (gathered.running.subset running))

end RequestContext

/-! ## The request that a step is about -/

/-- The request that an action concerns. -/
def RequestContext.subject (ctx : RequestContext) :
    RequestAction → Option Nat
  | .startRequest .. | .notifyAsync .. => some (ctx.starts + 1)
  | .completeRequestAsync req | .completeRequest req _ | .abortRequest req =>
      some req
  | .receive answers peer _ =>
      (ctx.ubusFindRequest (ctx.request answers).seq peer).map Prod.fst
  | .returns | .timeout | .statusSeen => ctx.calls.head?.map RequestCall.req

theorem RequestContext.view_ubusStartRequest_of_ne (ctx : RequestContext)
    {other : Nat} (different : other ≠ ctx.starts + 1)
    (msg : Option (List UInt8)) (peer : UInt32) (handlers : UbusHandlers) :
    (ctx.ubusStartRequest msg peer handlers).view other = ctx.view other := by
  rw [ubusStartRequest]
  split
  · rfl
  · simp [view, Function.update_of_ne different]

theorem RequestStep.view_of_ne {ctx next : RequestContext}
    {action : RequestAction} (taken : RequestStep ctx action next) {n : Nat}
    (different : ctx.subject action ≠ some n) :
    next.view n = ctx.view n := by
  have isOther : ∀ {req : Nat}, ctx.subject action = some req → n ≠ req :=
    fun subject same => different (same ▸ subject)
  cases taken with
  | startRequest msg peer handlers =>
      exact ctx.view_ubusStartRequest_of_ne (isOther rfl) msg peer handlers
  | notifyAsync msg obj handlers =>
      have other : n ≠ ctx.starts + 1 := isOther rfl
      rw [RequestContext.ubusNotifyAsync]
      split
      · rfl
      · rename_i isNew
        have started : (ctx.ubusStartRequest (some msg) obj handlers).starts =
            ctx.starts + 1 := by
          rw [RequestContext.ubusStartRequest] at isNew ⊢
          split
          · rename_i tooLong
            rw [if_pos tooLong] at isNew
            exact absurd rfl isNew
          · rfl
        rw [RequestContext.view_of_touches (Touches.modify _ _ rfl)
          (by rw [started]; exact other)]
        exact ctx.view_ubusStartRequest_of_ne other _ obj handlers
  | completeRequestAsync req started fresh =>
      obtain ⟨_, sameSpent, _⟩ :=
        RequestContext.same_ubusCompleteRequestAsync ctx req
      rw [RequestContext.view_spend_of_ne _ (isOther rfl) sameSpent,
        RequestContext.view_ubusCompleteRequestAsync_of_ne ctx (isOther rfl)]
  | completeRequest req reqTimeout started usable =>
      obtain ⟨_, sameSpent, _⟩ :=
        RequestContext.same_ubusCompleteRequestAsync ctx req
      have sameView := RequestContext.view_spend_of_ne
        (ctx.ubusCompleteRequest req reqTimeout) (isOther rfl) sameSpent
      exact sameView.trans (RequestContext.view_ubusCompleteRequest_of_ne ctx
        (isOther rfl) reqTimeout)
  | abortRequest req started =>
      have same := ctx.touches_ubusAbortRequest req
      rw [RequestContext.view_of_touches
          (Touches.note _ (.aborted req) rfl fun _ => by simp) (isOther rfl),
        RequestContext.view_spend_of_ne _ (isOther rfl) same.spent,
        RequestContext.view_of_touches same (isOther rfl)]
  | receive answers peer body started =>
      rcases ctx.touches_ubusProcessReqMsg answers peer body with
        ⟨_, same⟩ | ⟨req, id, found, same⟩
      · rw [same]
      · have other : n ≠ req := isOther (by
          rw [RequestContext.subject, found, Option.map_some])
        have noEvent : RequestEvent.req (.found answers req) ≠ n :=
          Ne.symm other
        rw [RequestContext.view_of_touches same other]
        simp [RequestContext.view, RequestContext.note, noEvent]
  | returns frame outer calls returned =>
      exact RequestContext.view_of_touches
        (RequestContext.touches_returnFrom calls returned)
        (isOther (by rw [RequestContext.subject, calls]; rfl))
  | timeout req completeCb outer calls waiting =>
      exact RequestContext.view_of_touches (ctx.touches_ubusSetReqStatus req _)
        (isOther (by rw [RequestContext.subject, calls]; rfl))
  | statusSeen req completeCb reqTimeout outer calls seen =>
      exact RequestContext.view_of_touches
        ((Touches.pop calls rfl).trans
          (RequestContext.touches_completeRequestEnd _ req completeCb))
        (isOther (by rw [RequestContext.subject, calls]; rfl))

/-- Nothing has happened to a request that was not started. -/
def Unborn (ctx : RequestContext) : Prop :=
  ∀ req, ¬ (0 < req ∧ req ≤ ctx.starts) → Blank (ctx.view req)

theorem RequestStep.starts_le {ctx next : RequestContext}
    {action : RequestAction} (taken : RequestStep ctx action next) :
    ctx.starts ≤ next.starts := by
  have started : ∀ msg peer handlers,
      ctx.starts ≤ (ctx.ubusStartRequest msg peer handlers).starts := by
    intro msg peer handlers
    rw [RequestContext.ubusStartRequest]
    split
    · exact Nat.le_refl _
    · exact Nat.le_succ _
  cases taken with
  | startRequest msg peer handlers =>
      exact started msg peer handlers
  | notifyAsync msg obj handlers =>
      rw [RequestContext.ubusNotifyAsync]
      split
      · exact Nat.le_refl _
      · exact started (some msg) obj handlers
  | completeRequestAsync req _ fresh =>
      exact Nat.le_of_eq
        (RequestContext.same_ubusCompleteRequestAsync ctx req).1.symm
  | completeRequest req reqTimeout _ usable =>
      exact Nat.le_of_eq
        (RequestContext.same_ubusCompleteRequestAsync ctx req).1.symm
  | abortRequest req _ =>
      exact Nat.le_of_eq (ctx.touches_ubusAbortRequest req).starts.symm
  | receive answers peer body _ =>
      rcases ctx.touches_ubusProcessReqMsg answers peer body with
        ⟨_, same⟩ | ⟨req, id, found, same⟩
      · exact Nat.le_of_eq (congrArg RequestContext.starts same).symm
      · exact Nat.le_of_eq same.starts.symm
  | returns frame outer calls returned =>
      exact Nat.le_of_eq
        (RequestContext.touches_returnFrom calls returned).starts.symm
  | timeout req completeCb outer calls waiting =>
      exact Nat.le_of_eq (ctx.touches_ubusSetReqStatus req _).starts.symm
  | statusSeen req completeCb reqTimeout outer calls seen =>
      exact Nat.le_of_eq ((Touches.pop calls rfl).trans
        (RequestContext.touches_completeRequestEnd _ req
          completeCb)).starts.symm

theorem Unborn.init : Unborn requester.init :=
  fun _ _ => ⟨rfl, rfl, List.not_mem_nil, List.not_mem_nil⟩

theorem Unborn.step {ctx next : RequestContext} {action : RequestAction}
    (unborn : Unborn ctx) (taken : requester.step ctx action = some next) :
    Unborn next := by
  intro req notStarted
  have step := RequestStep.of_step taken
  have notBefore : ¬ (0 < req ∧ req ≤ ctx.starts) := by
    rintro ⟨positive, bound⟩
    exact notStarted ⟨positive, Nat.le_trans bound step.starts_le⟩
  have blank := unborn req notBefore
  have noCall : ∀ frame outer, ctx.calls = frame :: outer →
      frame.req ≠ req := by
    intro frame outer calls isReq
    have active := RequestContext.calls_view calls isReq
    rw [blank.calls] at active
    cases active
  by_cases same : ctx.subject action = some req
  · cases step with
    | startRequest msg peer handlers =>
        cases same
        rw [RequestContext.ubusStartRequest] at notStarted ⊢
        split at notStarted
        · rename_i tooLong
          rw [if_pos tooLong]
          exact blank
        · exact absurd ⟨Nat.succ_pos _, Nat.le_refl _⟩ notStarted
    | notifyAsync msg obj handlers =>
        cases same
        rw [RequestContext.ubusNotifyAsync] at notStarted ⊢
        split at notStarted
        · rename_i none
          rw [if_pos none]
          exact blank
        · rename_i isNew
          refine absurd ⟨Nat.succ_pos _, ?_⟩ notStarted
          exact Nat.succ_le_of_lt (Nat.lt_of_le_of_ne
            (RequestStep.startRequest (some msg) obj handlers).starts_le
            (Ne.symm isNew))
    | completeRequestAsync req started fresh =>
        cases same
        exact absurd started notBefore
    | completeRequest req reqTimeout started usable =>
        cases same
        exact absurd started notBefore
    | abortRequest req started =>
        cases same
        exact absurd started notBefore
    | receive answers peer body started =>
        obtain ⟨pair, found, isReq⟩ := Option.map_eq_some_iff.mp same
        cases isReq
        exact absurd (RequestContext.mem_of_ubusFindRequest found) blank.listed
    | returns frame outer calls returned =>
        rw [RequestContext.subject, calls] at same
        exact absurd (Option.some.inj same) (noCall frame outer calls)
    | timeout other completeCb outer calls waiting =>
        rw [RequestContext.subject, calls] at same
        exact absurd (Option.some.inj same) (noCall _ outer calls)
    | statusSeen other completeCb reqTimeout outer calls seen =>
        rw [RequestContext.subject, calls] at same
        exact absurd (Option.some.inj same) (noCall _ outer calls)
  · rw [step.view_of_ne same]
    exact blank

/-! ## The steps between the answers -/

/-- A message for the notification goes to it, and no other message does. -/
theorem Numbered.untwinned {ctx : RequestContext} {n answers req : Nat}
    {peer : UInt32} {id : Option Nat} {body : AnswerBody}
    (numbered : Numbered ctx) (started : 0 < answers ∧ answers ≤ ctx.starts)
    (untwinned : Untwinned n ctx (.receive answers peer body))
    (found : ctx.ubusFindRequest (ctx.request answers).seq peer =
      some (req, id)) :
    req = n ↔ answers = n := by
  obtain ⟨first, isFirst, isPair⟩ := Option.map_eq_some_iff.mp found
  cases isPair
  refine untwinned req ?_
  rw [← isFirst]
  refine List.find?_congr fun other member => ?_
  have valid := numbered.requests other member
  rw [numbered.seq answers started.1 started.2,
    numbered.seq other valid.1 valid.2]
  congr 1
  exact (Bool.beq_eq_decide_eq _ _).trans ((decide_eq_decide.mpr
    seq_eq_iff.symm).trans (Bool.beq_eq_decide_eq _ _).symm)

/-- The notification has been sent for the object `obj`, and ubusd has not
answered. -/
structure AwaitsUbusd (n : Nat) (obj : UInt32) (view : RequestView) :
    Prop where
  listed : view.listed
  spent : view.spent
  notify : view.request.notify = true
  pending : view.request.notifyPending = 1
  obj : view.request.notifyId 0 = obj
  unblocked : view.request.blocked = false
  completeCb : view.request.completeCb = some .application
  calls : view.calls = []
  log : view.log = []

/-- What a step does to a notification that was handed over. -/
theorem RequestStep.cases_of_subject {ctx next : RequestContext}
    {action : RequestAction} (taken : RequestStep ctx action next) {n : Nat}
    (numbered : Numbered ctx) (started : n ≤ ctx.starts)
    (spent : (ctx.view n).spent)
    (noWait : ∀ completeCb reqTimeout,
      .completeRequest n completeCb reqTimeout ∉ (ctx.view n).calls)
    (traffic : NotifyTraffic n action) (untwinned : Untwinned n ctx action)
    (isSubject : ctx.subject action = some n) :
    (∃ peer attrs, action = .receive n peer (.status attrs)) ∨
      action = .returns := by
  have waits : ∀ completeCb reqTimeout outer,
      ctx.calls ≠ .completeRequest n completeCb reqTimeout :: outer := by
    intro completeCb reqTimeout outer calls
    refine noWait completeCb reqTimeout ?_
    have active : (ctx.view n).calls = _ :=
      RequestContext.calls_view calls rfl
    rw [active]
    exact List.mem_cons_self
  cases taken with
  | startRequest msg peer handlers | notifyAsync msg obj handlers =>
      cases isSubject
      exact absurd started (Nat.not_succ_le_self _)
  | completeRequestAsync req _ fresh =>
      cases isSubject
      exact absurd spent fresh
  | completeRequest req _ _ _ | abortRequest req _ =>
      cases isSubject
      exact absurd rfl traffic
  | receive answers peer body sent =>
      obtain ⟨⟨req, id⟩, found, isReq⟩ := Option.map_eq_some_iff.mp isSubject
      have isAnswer := (numbered.untwinned sent untwinned found).mp isReq
      subst isAnswer
      cases body with
      | status attrs =>
          exact Or.inl ⟨peer, attrs, rfl⟩
      | data data =>
          exact absurd rfl traffic
  | returns frame outer calls returned =>
      exact Or.inr rfl
  | timeout req completeCb outer calls _ =>
      rw [RequestContext.subject, calls] at isSubject
      cases isSubject
      exact absurd calls (waits completeCb true outer)
  | statusSeen req completeCb reqTimeout outer calls _ =>
      rw [RequestContext.subject, calls] at isSubject
      cases isSubject
      exact absurd calls (waits completeCb reqTimeout outer)

/-- Nothing is recorded of a step that is about another request. -/
theorem NotifyRecord.step_of_ne {ctx : RequestContext}
    {action : RequestAction} {n : Nat} (record : NotifyRecord)
    (different : ctx.subject action ≠ some n)
    (noAnswer : ∀ peer attrs, action ≠ .receive n peer (.status attrs)) :
    record.step n ctx action = record := by
  cases action with
  | receive answers peer body =>
      cases body with
      | status attrs =>
          have notAnswered : answers ≠ n := by
            rintro rfl
            exact noAnswer peer attrs rfl
          rw [NotifyRecord.step, if_neg notAnswered]
          split
          · rename_i req id found
            have other : req ≠ n := by
              rintro rfl
              exact different (by
                rw [RequestContext.subject, found, Option.map_some])
            rw [if_pos other]
          · rfl
          · rfl
      | data data =>
          rfl
  | returns =>
      rw [NotifyRecord.step]
      split
      · rename_i req outer calls
        refine if_neg ?_
        rintro rfl
        exact different (by rw [RequestContext.subject, calls]; rfl)
      · rfl
  | _ => rfl

/-- The request that a message for the notification is given to. -/
theorem ubusFindRequest_of_marks {ctx : RequestContext} {n : Nat}
    {opened : List (UInt32 × Nat)} {peer : UInt32} {entry : UInt32 × Nat}
    {body : AnswerBody} (numbered : Numbered ctx)
    (marks : Marks (ctx.request n) opened)
    (notify : (ctx.request n).notify = true) (listed : n ∈ ctx.requests)
    (untwinned : Untwinned n ctx (.receive n peer body))
    (isFirst : firstOpen peer opened = some entry) :
    ctx.ubusFindRequest (ctx.request n).seq peer = some (n, some entry.2) := by
  have index : ubusFindNotifyId (ctx.request n) peer = some entry.2 := by
    rw [marks.find, isFirst, Option.map_some]
  have awaits : (ctx.request n).awaits peer = true := by
    rw [UbusRequest.awaits, if_pos notify, index, Option.isSome_some]
  cases found : ctx.ubusFindRequest (ctx.request n).seq peer with
  | none =>
      have noneWaits :=
        List.find?_eq_none.mp (Option.map_eq_none_iff.mp found) n listed
      rw [awaits, beq_self_eq_true] at noneWaits
      exact absurd rfl noneWaits
  | some pair =>
      obtain ⟨first, isFound, isPair⟩ := Option.map_eq_some_iff.mp found
      have isReq : first = n := (numbered.untwinned
        (numbered.requests n listed) untwinned (found.trans
          (congrArg some isPair.symm))).mpr rfl
      rw [← isPair, isReq, if_pos notify, index]

namespace RequestContext

variable {n : Nat} {listed : List UInt32} {ctx next : RequestContext}
  {record : NotifyRecord} {opened : List (UInt32 × Nat)}

theorem gathered_note_found
    (gathered : Gathered n listed (ctx.view n) record opened)
    (answers : Nat) :
    Gathered n listed ((ctx.note (.found answers n)).view n) record
      opened := by
  have others : RequestEvent.found answers n ≠ .statusCb n ∧
      RequestEvent.found answers n ≠ .completeCb n := ⟨nofun, nofun⟩
  have completed : RequestEvent.completeCb n ∈
      (ctx.view n).log ++ [.found answers n] ↔
        .completeCb n ∈ (ctx.view n).log := by
    simp
  rw [view_note ctx n (.found answers n) rfl]
  exact
    { gathered with
      called := (count_snoc_of_ne others.1 _).trans gathered.called
      listed := gathered.listed.trans (not_congr completed).symm
      completeCb := gathered.completeCb.trans
        (if_congr completed.symm rfl rfl)
      once := (count_snoc_of_ne others.2 _).trans_le gathered.once
      closed := fun isCompleted => gathered.closed (completed.mp isCompleted)
      completes := completed.trans gathered.completes }

/-- A STATUS message that answers the notification arrives. -/
theorem gathered_receive
    (gathered : Gathered n listed (ctx.view n) record opened)
    (numbered : Numbered ctx) (started : 0 < n ∧ n ≤ ctx.starts)
    (peer : UInt32) (attrs : StatusAttrs)
    (untwinned : Untwinned n ctx (.receive n peer (.status attrs))) :
    ∃ opened, Gathered n listed
      ((ctx.ubusProcessReqMsg n peer (.status attrs)).view n)
      (record.step n ctx (.receive n peer (.status attrs))) opened := by
  cases isFirst : firstOpen peer opened with
  | none =>
      have notFound : ctx.ubusFindRequest (ctx.request n).seq peer = none := by
        cases found : ctx.ubusFindRequest (ctx.request n).seq peer with
        | none =>
            rfl
        | some pair =>
            obtain ⟨first, isFound, isPair⟩ := Option.map_eq_some_iff.mp found
            have isReq : first = n := (numbered.untwinned started untwinned
              (found.trans (congrArg some isPair.symm))).mpr rfl
            have passes := List.find?_some isFound
            have noIndex : ubusFindNotifyId (ctx.request n) peer = none := by
              exact (gathered.marks.find peer).trans (congrArg _ isFirst)
            have notify : (ctx.request n).notify = true := gathered.notify
            rw [isReq, UbusRequest.awaits, if_pos notify, noIndex,
              Option.isSome_none, Bool.and_false] at passes
            cases passes
      rw [ubusProcessReqMsg, NotifyRecord.step, notFound, if_pos rfl]
      refine ⟨opened, { gathered with balanced := ?_, sent := ?_ }⟩
      · rw [List.map_append]
        exact gathered.balanced.surplus isFirst
      · exact gathered.sent.trans (List.sublist_append_left _ _)
  | some entry =>
      have isOpen := List.mem_of_find?_eq_some isFirst
      have isPeer := (count_keys_pos isFirst).1
      have isListed : n ∈ ctx.requests := by
        refine gathered.listed.mpr fun completed => ?_
        rw [gathered.closed completed] at isOpen
        exact List.not_mem_nil isOpen
      have found := ubusFindRequest_of_marks numbered gathered.marks
        gathered.notify isListed untwinned isFirst
      rw [ubusProcessReqMsg, NotifyRecord.step, found, if_pos rfl]
      dsimp only
      rw [if_neg (not_not.mpr rfl), if_neg (gathered.number_ne_zero isOpen)]
      refine ⟨opened.erase entry, ?_⟩
      rw [← isPeer]
      refine gathered_ubusProcessNotifyStatus (gathered_note_found gathered n)
        isOpen attrs ?_ ?_
      · rw [List.map_append, isPeer]
        exact gathered.balanced.answer isFirst
      · exact gathered.sent.append_right _

/-- A callback of the notification returns. -/
theorem gathered_returns
    (gathered : Gathered n listed (ctx.view n) record opened)
    {frame : RequestCall} {outer : List RequestCall}
    (calls : ctx.calls = frame :: outer) (isReq : frame.req = n)
    (returned : ctx.returnFrom outer frame = some next) :
    Gathered n listed (next.view n) (record.step n ctx .returns) opened := by
  have active := calls_view calls isReq
  have member : frame ∈ (ctx.view n).calls := by
    rw [active]
    exact List.mem_cons_self
  have noData : ∀ other ∈ ({ ctx with calls := outer }.view n).calls,
      other.isData = false := fun other inside =>
    gathered.noData other (by rw [active]; exact List.mem_cons_of_mem _ inside)
  have noWait : ∀ completeCb reqTimeout,
      .completeRequest n completeCb reqTimeout ∉
        ({ ctx with calls := outer }.view n).calls :=
    fun completeCb reqTimeout inside => gathered.noWait completeCb reqTimeout
      (by rw [active]; exact List.mem_cons_of_mem _ inside)
  have frames := gathered.frames
  rw [active] at frames
  cases frame with
  | rawDataCb req data | dataCb req data =>
      exact absurd (gathered.noData _ member) nofun
  | completeRequest req completeCb reqTimeout =>
      cases returned
  | completeCb req =>
      cases returned
      have others : RequestCall.completeCb req ≠ .statusCb n := nofun
      have same : record.step n ctx .returns = record := by
        rw [NotifyRecord.step, calls]
      rw [List.count_cons_of_ne others] at frames
      rw [same]
      exact
        { gathered with
          noData := noData
          noWait := noWait
          frames := frames }
  | statusCb req =>
      have isNumber : req = n := isReq
      subst isNumber
      cases returned
      rw [List.count_cons_self] at frames
      have taken : record.step req ctx .returns =
          { record with running := record.running.tail } := by
        rw [NotifyRecord.step, calls]
        exact if_pos rfl
      rw [taken]
      refine gathered_notifyStatusRest
        { gathered.toGathering with
          noData := noData
          noWait := noWait
          frames := ?_
          running := (List.tail_sublist _).trans gathered.running } ?_
      · rw [List.length_tail, ← frames]
        rfl
      · intro last isLast running
        obtain ⟨front, isSplit⟩ := List.getLast?_eq_some_iff.mp isLast
        have ids : (record.answers.map NotifyAnswer.id).reverse =
            last.id :: (front.map NotifyAnswer.id).reverse := by
          rw [isSplit, List.map_append, List.reverse_append]
          rfl
        have distinct := (List.reverse_perm _).nodup_iff.mpr
          (List.nodup_append.mp gathered.nodup).1
        have outside := gathered.running.tail.subset running
        rw [ids] at distinct outside
        exact (List.nodup_cons.mp distinct).1 outside

/-- ubusd answers with the list of the subscribers. -/
theorem gathered_accepted {obj : UInt32}
    (awaits : AwaitsUbusd n obj (ctx.view n)) (numbered : Numbered ctx)
    (status : Option UInt32)
    (untwinned : Untwinned n ctx
      (.receive n obj (.status ⟨status, some (listed.map some)⟩))) :
    ∃ opened, Gathered n listed
      ((ctx.ubusProcessReqMsg n obj
        (.status ⟨status, some (listed.map some)⟩)).view n)
      (NotifyRecord.empty.step n ctx
        (.receive n obj (.status ⟨status, some (listed.map some)⟩)))
      opened := by
  have first : Marks (ctx.request n) [(obj, 0)] :=
    { bits := fun i bound => by
        rw [show (ctx.request n).notifyPending = 1 <<< UInt32.ofNat 0 from
          awaits.pending, getLsbD_notifyBit 0 (by decide) i bound]
        simp [eq_comm]
      ids := fun entry member => by
        rw [List.mem_singleton.mp member]
        exact awaits.obj
      sorted := List.pairwise_singleton _ _
      small := fun entry member => by
        rw [List.mem_singleton.mp member]
        exact Nat.zero_lt_succ 31 }
  have isFirst : firstOpen obj [(obj, 0)] = some (obj, 0) := by
    simp [firstOpen]
  have found := ubusFindRequest_of_marks numbered first awaits.notify
    awaits.listed untwinned isFirst
  have cleared := first.clear (List.mem_singleton_self _)
  rw [List.erase_cons_head] at cleared
  have marks := @Marks.addNotifyPeers listed _ _ 1 cleared (by decide) (by simp)
  rw [List.nil_append] at marks
  obtain ⟨pending, ids, isNew⟩ := addNotifyPeers_eq 1 (listed.map some)
    { ctx.request n with
      notifyPending :=
        (ctx.request n).notifyPending &&& ~~~(1 <<< UInt32.ofNat 0) }
  rw [isNew] at marks
  have unrecorded : NotifyRecord.empty.step n ctx
      (.receive n obj (.status ⟨status, some (listed.map some)⟩)) =
        .empty := by
    rw [NotifyRecord.step, found]
    dsimp only
    rw [if_neg (not_not.mpr rfl), if_pos rfl]
  rw [unrecorded, ubusProcessReqMsg, found]
  dsimp only
  rw [ubusProcessNotifyStatus, if_pos rfl]
  refine ⟨notifyEntries listed, gathered_notifyStatusRest ?_ (by rintro _ ⟨⟩)⟩
  rw [view_modify, request_modify_self, view_modify,
    view_note ctx n (.found n n) rfl, awaits.log]
  have request : addNotifyPeers 1 (listed.map some)
      { (ctx.note (.found n n)).request n with
        notifyPending := ((ctx.note (.found n n)).request n).notifyPending &&&
          ~~~(1 <<< UInt32.ofNat 0) } =
      { ctx.request n with notifyPending := pending, notifyId := ids } := isNew
  have notCompleted : RequestEvent.completeCb n ∉ [.found n n] := by
    simp
  dsimp only [Option.getD_some]
  rw [request]
  exact
    { marks := { marks with }
      balanced := Balanced.init _
      sent := List.Sublist.slnil
      notify := awaits.notify
      unblocked := awaits.unblocked
      spent := awaits.spent
      noData := fun frame member => by
        rw [awaits.calls] at member
        exact absurd member List.not_mem_nil
      noWait := fun completeCb reqTimeout member => by
        rw [awaits.calls] at member
        exact absurd member List.not_mem_nil
      frames := by
        rw [awaits.calls]
        rfl
      running := List.Sublist.slnil
      called := by
        rw [List.nil_append, List.count_eq_zero.mpr (by simp)]
        exact (ite_self 0).symm
      listed := iff_of_true awaits.listed notCompleted
      completeCb := awaits.completeCb.trans (if_neg notCompleted).symm
      once := by
        rw [List.nil_append, List.count_eq_zero.mpr notCompleted]
        exact Nat.zero_le 1
      closed := fun completed => absurd completed notCompleted }

end RequestContext

/-! ## The notification in a run -/

/-- `__ubus_notify_async` and `ubus_complete_request_async` on a new request. -/
theorem AwaitsUbusd.of_notify {ctx : RequestContext} {n : Nat}
    (blank : Blank (ctx.view n)) (isNew : n = ctx.starts + 1)
    {msg : List UInt8} (fits : blobPadLen msg ≤ ubusMaxMsglen) (obj : UInt32)
    (handlers : UbusHandlers) {spent : List Nat} :
    AwaitsUbusd n obj
      ({ (ctx.ubusNotifyAsync msg obj handlers).ubusCompleteRequestAsync n with
        spent := n :: spent }.view n) := by
  have sent : ¬ (some msg).any (fun msg =>
      decide (ubusMaxMsglen < blobPadLen msg)) = true := by
    simpa using fits
  have grown : ¬ ctx.starts + 1 = ctx.starts := Nat.succ_ne_self _
  have notListed : n ∉ ctx.requests := blank.listed
  subst isNew
  rw [RequestContext.view_spend, RequestContext.ubusNotifyAsync,
    RequestContext.ubusStartRequest, if_neg sent]
  dsimp only
  rw [if_neg grown, RequestContext.ubusCompleteRequestAsync,
    if_neg (by exact notListed)]
  refine
    { listed := mem_listAdd.mpr (Or.inl rfl)
      spent := trivial
      notify := ?_
      pending := ?_
      obj := ?_
      unblocked := ?_
      completeCb := ?_
      calls := blank.calls
      log := blank.log }
  all_goals
    simp [RequestContext.view]

/-- Other messages arrive before the answer of ubusd. -/
def BeforeUbusd (n : Nat) (action : RequestAction) : Prop :=
  NotifyTraffic n action ∧ ∀ peer body, action ≠ .receive n peer body

/-- ubusd has not answered the notification. -/
structure NotifyWaits (n : Nat) (obj : UInt32) (ctx : RequestContext) :
    Prop where
  numbered : Numbered ctx
  started : 0 < n ∧ n ≤ ctx.starts
  awaits : AwaitsUbusd n obj (ctx.view n)

/-- ubusd has answered it. -/
structure NotifyGathers (n : Nat) (listed : List UInt32)
    (ctx : RequestContext) (record : NotifyRecord) : Prop where
  numbered : Numbered ctx
  started : 0 < n ∧ n ≤ ctx.starts
  gathered : ∃ opened, Gathered n listed (ctx.view n) record opened

section

variable {n : Nat} {obj : UInt32} {listed : List UInt32}
  {ctx next : RequestContext} {action : RequestAction}

theorem NotifyWaits.step (waits : NotifyWaits n obj ctx)
    (before : BeforeUbusd n action) (untwinned : Untwinned n ctx action)
    (taken : requester.step ctx action = some next) :
    NotifyWaits n obj next := by
  have step := RequestStep.of_step taken
  have noCall : ∀ frame outer, ctx.calls = frame :: outer →
      frame.req ≠ n := by
    intro frame outer calls isReq
    have active := RequestContext.calls_view calls isReq
    rw [waits.awaits.calls] at active
    cases active
  have different : ctx.subject action ≠ some n := by
    intro isSubject
    have noWait : ∀ completeCb reqTimeout,
        .completeRequest n completeCb reqTimeout ∉ (ctx.view n).calls := by
      intro completeCb reqTimeout
      rw [waits.awaits.calls]
      exact List.not_mem_nil
    rcases step.cases_of_subject waits.numbered waits.started.2
      waits.awaits.spent noWait before.1 untwinned isSubject with
      ⟨peer, attrs, isAnswer⟩ | isReturn
    · exact before.2 peer (.status attrs) isAnswer
    · subst isReturn
      cases step with
      | returns frame outer calls returned =>
          rw [RequestContext.subject, calls] at isSubject
          exact noCall frame outer calls (Option.some.inj isSubject)
  refine ⟨waits.numbered.step taken,
    ⟨waits.started.1, Nat.le_trans waits.started.2 step.starts_le⟩, ?_⟩
  rw [step.view_of_ne different]
  exact waits.awaits

theorem NotifyGathers.step {record : NotifyRecord}
    (gathers : NotifyGathers n listed ctx record)
    (traffic : NotifyTraffic n action) (untwinned : Untwinned n ctx action)
    (taken : requester.step ctx action = some next) :
    NotifyGathers n listed next (record.step n ctx action) := by
  have step := RequestStep.of_step taken
  obtain ⟨numbered, started, opened, gathered⟩ := gathers
  refine ⟨numbered.step taken,
    ⟨started.1, Nat.le_trans started.2 step.starts_le⟩, ?_⟩
  by_cases isAnswer : ∃ peer attrs, action = .receive n peer (.status attrs)
  · obtain ⟨peer, attrs, isAction⟩ := isAnswer
    subst isAction
    cases step with
    | receive answers peer body sent =>
        exact RequestContext.gathered_receive gathered numbered started peer
          attrs untwinned
  · by_cases isSubject : ctx.subject action = some n
    · rcases step.cases_of_subject numbered started.2 gathered.spent
        gathered.noWait traffic untwinned isSubject with answered | isReturn
      · exact absurd answered isAnswer
      · subst isReturn
        cases step with
        | returns frame outer calls returned =>
            rw [RequestContext.subject, calls] at isSubject
            exact ⟨opened, RequestContext.gathered_returns gathered calls
              (Option.some.inj isSubject) returned⟩
    · have unrecorded : record.step n ctx action = record :=
        record.step_of_ne isSubject fun peer attrs isAction =>
          isAnswer ⟨peer, attrs, isAction⟩
      rw [step.view_of_ne isSubject, unrecorded]
      exact ⟨opened, gathered⟩

end

theorem Gathered.answered {n : Nat} {listed : List UInt32}
    {ctx : RequestContext} {record : NotifyRecord}
    {opened : List (UInt32 × Nat)}
    (gathered : Gathered n listed (ctx.view n) record opened) :
    Answered n listed ctx record := by
  have inLog : ∀ event : RequestEvent, event.req = n →
      (ctx.view n).log.count event = ctx.log.count event := by
    intro event about
    exact List.count_filter (by simpa using about)
  have completed : .completeCb n ∈ (ctx.view n).log ↔
      .completeCb n ∈ ctx.log := by
    simp [RequestContext.view, RequestEvent.req]
  have peers : (record.answers.map fun answer =>
      (answer.peer, answer.id)).map Prod.fst =
        record.answers.map NotifyAnswer.peer := by
    rw [List.map_map]
    rfl
  have entryPeers : (notifyEntries listed).map Prod.fst =
      listed.take ubusMaxNotifyPeers :=
    List.zipIdx_map_fst 1 _
  have total : record.answers.length + opened.length =
      (listed.take ubusMaxNotifyPeers).length := by
    have sameLength := gathered.balanced.perm.length_eq
    rw [List.length_append, List.length_map, notifyEntries,
      List.length_zipIdx] at sameLength
    exact sameLength
  refine
    { entries := fun answer member => gathered.balanced.perm.subset
        (List.mem_append_left _ (List.mem_map_of_mem member))
      distinct := (List.nodup_append.mp gathered.nodup).1
      sent := gathered.sent
      each := fun peer => ?_
      called := ?_
      once := ?_
      completes := ?_ }
  · have counts := gathered.balanced.counts peer
    rw [peers, entryPeers] at counts
    exact counts
  · rw [← inLog (.statusCb n) rfl]
    exact gathered.called
  · rw [← inLog (.completeCb n) rfl]
    exact gathered.once
  · rw [← completed, gathered.completes, ← List.length_eq_zero_iff]
    exact and_congr_left fun _ => by omega

/-- A notification for object 3 by an application that wants to know the
status of each subscriber. -/
def notifyThree : RequestAction :=
  .notifyAsync [] 3 ⟨false, false, true, true⟩

/-- The answer of ubusd to it. -/
def acceptsThree (listed : List UInt32) : RequestAction :=
  .receive 1 3 (.status ⟨some 0, some (listed.map some)⟩)

/-- The second subscriber answers first, and the first one while the callback
for the second runs. -/
def answeredNested : List RequestAction :=
  [.receive 1 7 statusOk, .receive 1 6 statusOk, .returns, .returns]

/-- Nothing is recorded of requests that are sent. -/
theorem recordFrom_invokeFive (n count : Nat) (record : NotifyRecord) :
    ∀ ctx : RequestContext,
      requester.recordFrom (NotifyRecord.step n) ctx
        (List.replicate count invokeFive) record = record := by
  induction count with
  | zero =>
      exact fun _ => rfl
  | succ count inductionHypothesis =>
      exact fun ctx => inductionHypothesis _

end LibubusJni.Libubus
