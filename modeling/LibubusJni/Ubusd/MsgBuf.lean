import LibubusJni.Wire
import Mathlib.Logic.Function.Basic
import Mathlib.Tactic.Basic

/-!
# Message buffers of ubusd

`ubus_msg_new`, `ubus_msg_ref`, `ubus_msg_free` and `ubus_msg_writev`.  A buffer
is known by its address; addresses are not reused.  Freed memory reads as an
empty buffer without references.

The file descriptor of a buffer is left out.  The reference count does not
reach `~0` by counting.
-/

namespace LibubusJni.Ubusd

/-- The address of a `struct ubus_msg_buf`. -/
abbrev MsgId := Nat

/-- `refcount`: `~0` marks a buffer whose data lies elsewhere. -/
inductive Refcount where
  | shared
  | owned (count : Nat)
  deriving DecidableEq, Repr

namespace Refcount

/-- How many `ubus_msg_free` it takes to free the buffer. -/
def toNat : Refcount → Nat
  | .shared => 1
  | .owned count => count

end Refcount

/-- `struct ubus_msg_buf`. -/
structure UbusMsgBuf where
  refcount : Refcount
  hdr : UbusMsghdr
  data : List UInt8
  deriving DecidableEq, Repr

namespace UbusMsgBuf

/-- What freed memory is read as. -/
def freed : UbusMsgBuf := ⟨.owned 0, .zero, []⟩

/-- Header and data as they are to appear on a socket. -/
def image (ub : UbusMsgBuf) : List UInt8 := ub.hdr.bytes ++ ub.data

@[simp]
theorem length_image (ub : UbusMsgBuf) :
    ub.image.length = 8 + ub.data.length := by
  rw [image, List.length_append, UbusMsghdr.length_bytes]

/-- What a queue slot that takes the buffer puts on the socket. -/
def queuedImage (ub : UbusMsgBuf) : List UInt8 :=
  if ub.refcount = .shared then UbusMsghdr.zero.bytes ++ ub.data
  else ub.image

@[simp]
theorem length_queuedImage (ub : UbusMsgBuf) :
    ub.queuedImage.length = 8 + ub.data.length := by
  rw [queuedImage]
  split
  · rw [List.length_append, UbusMsghdr.length_bytes]
  · exact ub.length_image

end UbusMsgBuf

/-- What `sendmsg` or `write` reports; a failure is any error but `EAGAIN` and
`EINTR`. -/
inductive WriteResult where
  | wrote (count : Nat)
  | again
  | failed
  deriving DecidableEq, Repr

/-- The bytes `ubus_msg_writev` passes to `sendmsg` or `write`. -/
def ubusMsgIov (ub : UbusMsgBuf) (offset : Nat) : List UInt8 :=
  if offset < sizeofMsghdr then ub.hdr.bytes.drop offset ++ ub.data
  else ub.data.drop (offset - sizeofMsghdr)

/-- `ubus_msg_writev`: the bytes that were written, or `none` for minus one. -/
def ubusMsgWritev (ub : UbusMsgBuf) (offset : Nat) :
    WriteResult → Option (List UInt8)
  | .wrote count => some ((ubusMsgIov ub offset).take count)
  | .again | .failed => none

theorem ubusMsgIov_eq_drop (ub : UbusMsgBuf) (offset : Nat) :
    ubusMsgIov ub offset = ub.image.drop offset := by
  rw [ubusMsgIov, UbusMsgBuf.image, List.drop_append,
    UbusMsghdr.length_bytes, sizeofMsghdr]
  split
  · rename_i inHeader
    rw [Nat.sub_eq_zero_of_le (Nat.le_of_lt inHeader), List.drop_zero]
  · rename_i behind
    have headerDone : ub.hdr.bytes.length ≤ offset := Nat.le_of_not_lt behind
    rw [List.drop_of_length_le headerDone, List.nil_append]

/-- All buffers, and the address of the next one. -/
structure MsgStore where
  heap : MsgId → UbusMsgBuf
  next : MsgId

namespace MsgStore

def empty : MsgStore := ⟨fun _ => .freed, 0⟩

/-- Overwrite the buffer at an address. -/
def write (store : MsgStore) (id : MsgId) (ub : UbusMsgBuf) : MsgStore :=
  { store with heap := Function.update store.heap id ub }

def refs (store : MsgStore) (id : MsgId) : Nat :=
  (store.heap id).refcount.toNat

def image (store : MsgStore) (id : MsgId) : List UInt8 :=
  (store.heap id).image

/-- A buffer without its reference count. -/
def view (store : MsgStore) (id : MsgId) : Bool × UbusMsghdr × List UInt8 :=
  ((store.heap id).refcount = .shared, (store.heap id).hdr,
    (store.heap id).data)

theorem image_of_view
    {store after : MsgStore} {id : MsgId}
    (same : after.view id = store.view id) :
    after.image id = store.image id := by
  rw [view, view, Prod.mk.injEq, Prod.mk.injEq] at same
  rw [image, image, UbusMsgBuf.image, UbusMsgBuf.image, same.2.1, same.2.2]

/-- `ubus_msg_new`; the caller then fills in the header. -/
def ubusMsgNew (store : MsgStore) (hdr : UbusMsghdr) (data : List UInt8)
    (shared : Bool) : MsgStore :=
  { heap :=
      Function.update store.heap store.next
        ⟨if shared then .shared else .owned 1, hdr, data⟩
    next := store.next + 1 }

/-- `ubus_msg_ref`; `alloc` is the outcome of `calloc` in `ubus_msg_new`, whose
buffer keeps the zeroed header. -/
def ubusMsgRef (store : MsgStore) (id : MsgId) (alloc : Bool) :
    MsgStore × Option MsgId :=
  let ub := store.heap id
  match ub.refcount with
  | .shared =>
      if alloc then (store.ubusMsgNew .zero ub.data false, some store.next)
      else (store, none)
  | .owned count =>
      (store.write id { ub with refcount := .owned (count + 1) }, some id)

/-- `ubus_msg_free`. -/
def ubusMsgFree (store : MsgStore) (id : MsgId) : MsgStore :=
  let ub := store.heap id
  match ub.refcount with
  | .owned 1 | .shared => store.write id .freed
  | .owned count =>
      store.write id { ub with refcount := .owned (count - 1) }

section Lemmas

variable {store : MsgStore} {id other : MsgId}

@[simp]
theorem write_self (ub : UbusMsgBuf) : (store.write id ub).heap id = ub := by
  rw [write]
  exact Function.update_self ..

theorem write_of_ne (ub : UbusMsgBuf) (different : other ≠ id) :
    (store.write id ub).heap other = store.heap other := by
  rw [write]
  exact Function.update_of_ne different ..

theorem heap_ubusMsgNew_of_ne
    (hdr : UbusMsghdr) (data : List UInt8) (shared : Bool)
    (different : other ≠ store.next) :
    (store.ubusMsgNew hdr data shared).heap other = store.heap other := by
  rw [ubusMsgNew]
  exact Function.update_of_ne different ..

@[simp]
theorem heap_ubusMsgNew_self
    (hdr : UbusMsghdr) (data : List UInt8) (shared : Bool) :
    (store.ubusMsgNew hdr data shared).heap store.next =
      ⟨if shared then .shared else .owned 1, hdr, data⟩ := by
  rw [ubusMsgNew]
  exact Function.update_self ..

@[simp]
theorem refs_ubusMsgNew_self
    (hdr : UbusMsghdr) (data : List UInt8) (shared : Bool) :
    (store.ubusMsgNew hdr data shared).refs store.next = 1 := by
  rw [refs, heap_ubusMsgNew_self]
  cases shared <;> rfl

@[simp]
theorem next_ubusMsgFree : (store.ubusMsgFree id).next = store.next := by
  rw [ubusMsgFree]
  split <;> rfl

theorem heap_ubusMsgFree_of_ne (different : other ≠ id) :
    (store.ubusMsgFree id).heap other = store.heap other := by
  rw [ubusMsgFree]
  split <;> exact write_of_ne _ different

theorem refs_ubusMsgFree_self :
    (store.ubusMsgFree id).refs id = store.refs id - 1 := by
  rw [ubusMsgFree, refs, refs]
  split
  · rename_i one
    rw [write_self, one]
    rfl
  · rename_i shared
    rw [write_self, shared]
    rfl
  · rename_i count _ owned
    rw [write_self, owned]
    rfl

/-- A buffer with another reference stays. -/
theorem view_ubusMsgFree_self (another : 2 ≤ store.refs id) :
    (store.ubusMsgFree id).view id = store.view id := by
  rw [refs] at another
  rw [ubusMsgFree, view, view]
  split
  · rename_i one
    rw [one, Refcount.toNat] at another
    omega
  · rename_i shared
    rw [shared, Refcount.toNat] at another
    omega
  · rename_i count _ owned
    rw [write_self, owned]
    rfl

/-! ## References -/

/-- Every reference is held by a caller or is in a queue, and the addresses not
given out yet have none. -/
structure Accounted (held : MsgId → Nat) (store : MsgStore)
    (queue : List MsgId) : Prop where
  refs : ∀ id, store.refs id = held id + queue.count id
  fresh : ∀ id, store.next ≤ id → store.refs id = 0

namespace Accounted

variable {held : MsgId → Nat} {queue : List MsgId}

theorem empty : Accounted (fun _ => 0) MsgStore.empty [] :=
  { refs := fun _ => rfl
    fresh := fun _ _ => rfl }

theorem lt_next (accounted : Accounted held store queue)
    (live : 0 < store.refs id) : id < store.next := by
  by_contra fresh
  rw [accounted.fresh id (Nat.le_of_not_lt fresh)] at live
  cases live

theorem live_of_held (accounted : Accounted held store queue)
    (isHeld : 0 < held id) : 0 < store.refs id := by
  rw [accounted.refs]
  omega

theorem live_of_mem (accounted : Accounted held store queue)
    (member : id ∈ queue) : 0 < store.refs id := by
  have counted : 0 < queue.count id := List.count_pos_iff.mpr member
  rw [accounted.refs]
  omega

/-- The caller of `ubus_msg_new` holds the new buffer. -/
theorem ubusMsgNew (accounted : Accounted held store queue)
    (hdr : UbusMsghdr) (data : List UInt8) (shared : Bool) :
    Accounted (Function.update held store.next 1)
      (store.ubusMsgNew hdr data shared) queue := by
  have none := accounted.fresh store.next (Nat.le_refl _)
  rw [accounted.refs] at none
  refine { refs := fun other => ?_, fresh := fun other above => ?_ }
  · by_cases same : other = store.next
    · rw [same, refs_ubusMsgNew_self, Function.update_self]
      omega
    · rw [MsgStore.refs, heap_ubusMsgNew_of_ne hdr data shared same,
        Function.update_of_ne same, ← accounted.refs]
      rfl
  · have newer : store.next + 1 ≤ other := above
    have different : other ≠ store.next := Nat.ne_of_gt newer
    rw [MsgStore.refs, heap_ubusMsgNew_of_ne hdr data shared different]
    exact accounted.fresh other (Nat.le_of_succ_le newer)

/-- The queue that takes the result of `ubus_msg_ref` holds a reference. -/
theorem ubusMsgRef (accounted : Accounted held store queue)
    (live : 0 < store.refs id) :
    ∃ (after : MsgStore) (copy : MsgId),
      store.ubusMsgRef id true = (after, some copy) ∧
        Accounted held after (copy :: queue) ∧
        store.next ≤ after.next ∧
        after.image copy = (store.heap id).queuedImage ∧
        ∀ other, 0 < store.refs other →
          after.view other = store.view other := by
  cases counted : (store.heap id).refcount with
  | shared =>
      refine
        ⟨store.ubusMsgNew .zero (store.heap id).data false, store.next,
          ?_, ?_, Nat.le_succ _, ?_, fun other otherLive => ?_⟩
      · simp only [MsgStore.ubusMsgRef, counted, if_true]
      · have held' := accounted.ubusMsgNew .zero (store.heap id).data false
        have none := accounted.fresh store.next (Nat.le_refl _)
        rw [accounted.refs] at none
        refine { refs := fun other => ?_, fresh := held'.fresh }
        rw [held'.refs]
        by_cases same : other = store.next
        · rw [same, Function.update_self, List.count_cons_self]
          omega
        · rw [Function.update_of_ne same,
            List.count_cons_of_ne (Ne.symm same)]
      · rw [MsgStore.image, heap_ubusMsgNew_self, UbusMsgBuf.queuedImage,
          if_pos counted]
        rfl
      · have older := accounted.lt_next otherLive
        have different : other ≠ store.next := Nat.ne_of_lt older
        rw [MsgStore.view, heap_ubusMsgNew_of_ne _ _ _ different]
        rfl
  | owned count =>
      have sameView :
          ∀ other, (store.write id
            { store.heap id with refcount := .owned (count + 1) }).view
              other = store.view other := by
        intro other
        by_cases same : other = id
        · rw [same, MsgStore.view, write_self, MsgStore.view, counted]
          rfl
        · rw [MsgStore.view, write_of_ne _ same]
          rfl
      refine
        ⟨store.write id
            { store.heap id with refcount := .owned (count + 1) }, id,
          ?_, ?_, Nat.le_refl _, ?_,
          fun other _ => sameView other⟩
      · simp only [MsgStore.ubusMsgRef, counted]
      · refine { refs := fun other => ?_, fresh := fun other above => ?_ }
        · have before := accounted.refs other
          by_cases same : other = id
          · rw [same, MsgStore.refs, counted, Refcount.toNat] at before
            rw [same, MsgStore.refs, write_self, List.count_cons_self]
            show count + 1 = _
            omega
          · rw [MsgStore.refs, write_of_ne _ same,
              List.count_cons_of_ne (Ne.symm same)]
            exact before
        · have older := accounted.lt_next live
          have different : other ≠ id := by
            intro same
            rw [same] at above
            exact absurd above (Nat.not_le_of_lt older)
          rw [MsgStore.refs, write_of_ne _ different]
          exact accounted.fresh other above
      · rw [image_of_view (sameView id), UbusMsgBuf.queuedImage, if_neg]
        · rfl
        · rw [counted]
          exact fun impossible => nomatch impossible

theorem refs_ubusMsgFree (other : MsgId) :
    (store.ubusMsgFree id).refs other =
      if other = id then store.refs id - 1 else store.refs other := by
  by_cases same : other = id
  · rw [if_pos same, same, refs_ubusMsgFree_self]
  · rw [if_neg same, MsgStore.refs, heap_ubusMsgFree_of_ne same]
    rfl

/-- A queue gives up its first reference. -/
theorem ubusMsgFree_queued
    (accounted : Accounted held store (id :: queue)) :
    Accounted held (store.ubusMsgFree id) queue := by
  refine { refs := fun other => ?_, fresh := fun other above => ?_ }
  · have before := accounted.refs other
    rw [refs_ubusMsgFree]
    by_cases same : other = id
    · rw [same, List.count_cons_self] at before
      rw [same, if_pos rfl]
      omega
    · rw [List.count_cons_of_ne (Ne.symm same)] at before
      rw [if_neg same]
      exact before
  · rw [next_ubusMsgFree] at above
    have none := accounted.fresh other above
    rw [refs_ubusMsgFree]
    split
    · rename_i same
      rw [← same, none]
    · exact none

/-- A caller gives up a reference. -/
theorem ubusMsgFree_held
    (accounted : Accounted held store queue) (isHeld : 0 < held id) :
    Accounted (Function.update held id (held id - 1))
      (store.ubusMsgFree id) queue := by
  refine { refs := fun other => ?_, fresh := fun other above => ?_ }
  · have before := accounted.refs other
    rw [refs_ubusMsgFree]
    by_cases same : other = id
    · rw [same] at before
      rw [same, if_pos rfl, Function.update_self]
      omega
    · rw [if_neg same, Function.update_of_ne same]
      exact before
  · rw [next_ubusMsgFree] at above
    have none := accounted.fresh other above
    rw [refs_ubusMsgFree]
    split
    · rename_i same
      rw [← same, none]
    · exact none

/-- Freeing one reference keeps every buffer that has another. -/
theorem view_ubusMsgFree {other : MsgId}
    (live : other ≠ id ∨ 2 ≤ store.refs id) :
    (store.ubusMsgFree id).view other = store.view other := by
  by_cases same : other = id
  · have another := live.resolve_left (not_not.mpr same)
    rw [same]
    exact view_ubusMsgFree_self another
  · rw [MsgStore.view, heap_ubusMsgFree_of_ne same]
    rfl

/-- The order of the queue does not matter. -/
theorem perm {permuted : List MsgId}
    (accounted : Accounted held store queue) (same : queue.Perm permuted) :
    Accounted held store permuted :=
  { refs := fun id => by rw [accounted.refs id, same.count_eq]
    fresh := accounted.fresh }

/-- References held elsewhere can be counted either way. -/
theorem append_iff {elsewhere : List MsgId} :
    Accounted held store (queue ++ elsewhere) ↔
      Accounted (fun id => held id + elsewhere.count id) store queue := by
  constructor
  · intro accounted
    exact
      { refs := fun id => by
          rw [accounted.refs id, List.count_append]
          omega
        fresh := accounted.fresh }
  · intro accounted
    exact
      { refs := fun id => by
          rw [accounted.refs id, List.count_append]
          omega
        fresh := accounted.fresh }

end Accounted

end Lemmas

end MsgStore

end LibubusJni.Ubusd
