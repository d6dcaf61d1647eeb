import Mathlib.Data.List.Nodup
import Mathlib.Data.List.Basic

/-!
# Ledgers of numbered orders

An order is opened, completed and handed out; it may be dropped at any time
before it is handed out.  Orders are numbered as they are issued, and each
carries an item.  `Balanced` says that the completed orders are handed out in
the order of their completion and each once, except for those that are dropped.
-/

namespace LibubusJni.Lib

universe u

/-- `waiting` are the completed orders that are still to be handed out. -/
structure Ledger (Item : Type u) where
  issued : List Item
  opened : List Nat
  completed : List Nat
  handedOut : List Nat
  waiting : List Nat
  dropped : List Nat

namespace Ledger

variable {Item : Type u}

def empty : Ledger Item := ⟨[], [], [], [], [], []⟩

/-- The number the next order gets. -/
def next (ledger : Ledger Item) : Nat := ledger.issued.length

def issue (ledger : Ledger Item) (item : Item) : Ledger Item :=
  { ledger with
    issued := ledger.issued ++ [item]
    opened := ledger.opened ++ [ledger.next] }

def complete (ledger : Ledger Item) (order : Nat) : Ledger Item :=
  { ledger with
    opened := ledger.opened.erase order
    completed := ledger.completed ++ [order]
    waiting := ledger.waiting ++ [order] }

/-- The first waiting order is handed out. -/
def handOut (ledger : Ledger Item) : Ledger Item :=
  { ledger with
    handedOut := ledger.handedOut ++ ledger.waiting.take 1
    waiting := ledger.waiting.drop 1 }

def drop (ledger : Ledger Item) (order : Nat) : Ledger Item :=
  { ledger with
    opened := ledger.opened.erase order
    waiting := ledger.waiting.erase order
    dropped := ledger.dropped ++ [order] }

structure Balanced (ledger : Ledger Item) : Prop where
  order : ledger.completed.filter (· ∉ ledger.dropped) =
    ledger.handedOut ++ ledger.waiting
  completedOnce : ledger.completed.Nodup
  openedOnce : ledger.opened.Nodup
  openedFresh : ∀ order ∈ ledger.opened,
    order ∉ ledger.completed ∧ order ∉ ledger.dropped
  accounted : ∀ order, order < ledger.issued.length ↔
    order ∈ ledger.opened ∨ order ∈ ledger.completed ∨
      order ∈ ledger.dropped

namespace Balanced

variable {ledger : Ledger Item}

theorem empty : Balanced (Ledger.empty : Ledger Item) :=
  { order := rfl
    completedOnce := List.nodup_nil
    openedOnce := List.nodup_nil
    openedFresh := fun _ member => absurd member List.not_mem_nil
    accounted := fun order => by simp [Ledger.empty] }

theorem mem_handedOut_or_waiting (balanced : ledger.Balanced) {order : Nat} :
    order ∈ ledger.handedOut ∨ order ∈ ledger.waiting ↔
      order ∈ ledger.completed ∧ order ∉ ledger.dropped := by
  rw [← List.mem_append, ← balanced.order, List.mem_filter]
  simp

theorem handedOut_completed (balanced : ledger.Balanced)
    {order : Nat} (handed : order ∈ ledger.handedOut) :
    order ∈ ledger.completed :=
  (balanced.mem_handedOut_or_waiting.mp (Or.inl handed)).1

theorem handedOut_not_dropped (balanced : ledger.Balanced)
    {order : Nat} (handed : order ∈ ledger.handedOut) :
    order ∉ ledger.dropped :=
  (balanced.mem_handedOut_or_waiting.mp (Or.inl handed)).2

theorem waiting_completed (balanced : ledger.Balanced)
    {order : Nat} (waits : order ∈ ledger.waiting) :
    order ∈ ledger.completed :=
  (balanced.mem_handedOut_or_waiting.mp (Or.inr waits)).1

theorem handedOut_waiting_nodup (balanced : ledger.Balanced) :
    (ledger.handedOut ++ ledger.waiting).Nodup := by
  rw [← balanced.order]
  exact balanced.completedOnce.filter _

theorem handedOut_nodup (balanced : ledger.Balanced) :
    ledger.handedOut.Nodup :=
  (List.nodup_append'.mp balanced.handedOut_waiting_nodup).1

theorem waiting_nodup (balanced : ledger.Balanced) :
    ledger.waiting.Nodup :=
  (List.nodup_append'.mp balanced.handedOut_waiting_nodup).2.1

/-- A handed out order does not wait any more. -/
theorem handedOut_not_waiting (balanced : ledger.Balanced)
    {order : Nat} (handed : order ∈ ledger.handedOut) :
    order ∉ ledger.waiting :=
  (List.nodup_append'.mp balanced.handedOut_waiting_nodup).2.2 handed

theorem issue (balanced : ledger.Balanced) (item : Item) :
    (ledger.issue item).Balanced := by
  have fresh : ∀ order, order ∈ ledger.opened ∨ order ∈ ledger.completed ∨
      order ∈ ledger.dropped → order ≠ ledger.next :=
    fun order known => Nat.ne_of_lt ((balanced.accounted order).mpr known)
  refine ⟨balanced.order, balanced.completedOnce, ?_, ?_, ?_⟩
  · refine List.nodup_append'.mpr ⟨balanced.openedOnce, List.nodup_singleton _, ?_⟩
    intro order isOpen isNext
    exact fresh order (Or.inl isOpen) (List.mem_singleton.mp isNext)
  · intro order isOpen
    rcases List.mem_append.mp isOpen with before | isNext
    · exact balanced.openedFresh order before
    · rw [List.mem_singleton.mp isNext]
      exact ⟨fun completed => fresh _ (Or.inr (Or.inl completed)) rfl,
        fun dropped => fresh _ (Or.inr (Or.inr dropped)) rfl⟩
  · intro order
    simp only [Ledger.issue, Ledger.next, List.length_append,
      List.length_singleton, List.mem_append, List.mem_singleton]
    rw [Nat.lt_succ_iff_lt_or_eq, balanced.accounted order, or_right_comm]

theorem complete (balanced : ledger.Balanced)
    {order : Nat} (isOpen : order ∈ ledger.opened) :
    (ledger.complete order).Balanced := by
  have fresh := balanced.openedFresh order isOpen
  refine ⟨?_, ?_, balanced.openedOnce.erase order, ?_, ?_⟩
  · have kept : [order].filter (· ∉ ledger.dropped) = [order] := by
      simp [fresh.2]
    rw [Ledger.complete, List.filter_append, kept, balanced.order,
      List.append_assoc]
  · refine List.nodup_append'.mpr
      ⟨balanced.completedOnce, List.nodup_singleton _, ?_⟩
    intro other completed isOrder
    exact fresh.1 (List.mem_singleton.mp isOrder ▸ completed)
  · intro other stillOpen
    obtain ⟨different, wasOpen⟩ :=
      balanced.openedOnce.mem_erase_iff.mp stillOpen
    have before := balanced.openedFresh other wasOpen
    refine ⟨fun completed => ?_, before.2⟩
    rcases List.mem_append.mp completed with completed | isOrder
    · exact before.1 completed
    · exact different (List.mem_singleton.mp isOrder)
  · intro other
    rw [show (ledger.complete order).issued = ledger.issued from rfl,
      balanced.accounted other]
    simp only [Ledger.complete, balanced.openedOnce.mem_erase_iff,
      List.mem_append, List.mem_singleton]
    by_cases same : other = order
    · subst same
      simp [isOpen]
    · simp [same]

theorem handOut (balanced : ledger.Balanced) : ledger.handOut.Balanced :=
  { balanced with
    order := by
      rw [Ledger.handOut, List.append_assoc, List.take_append_drop]
      exact balanced.order }

/-- An order that is open or waits is dropped. -/
theorem drop (balanced : ledger.Balanced)
    {order : Nat} (known : order ∈ ledger.opened ∨ order ∈ ledger.waiting) :
    (ledger.drop order).Balanced := by
  have notHanded : order ∉ ledger.handedOut := by
    intro handed
    rcases known with isOpen | waits
    · exact (balanced.openedFresh order isOpen).1
        (balanced.handedOut_completed handed)
    · exact balanced.handedOut_not_waiting handed waits
  refine ⟨?_, balanced.completedOnce, balanced.openedOnce.erase order, ?_, ?_⟩
  · have narrowed : ledger.completed.filter
          (· ∉ (ledger.drop order).dropped) =
        (ledger.completed.filter (· ∉ ledger.dropped)).filter
          (· ≠ order) := by
      rw [List.filter_filter]
      refine List.filter_congr fun other _ => ?_
      simp [Ledger.drop, and_comm]
    rw [show (ledger.drop order).completed = ledger.completed from rfl,
      narrowed, balanced.order, List.filter_append]
    have handedKept : ledger.handedOut.filter (· ≠ order) =
        ledger.handedOut :=
      List.filter_eq_self.mpr fun other handed =>
        decide_eq_true fun same => notHanded (same ▸ handed)
    rw [handedKept, Ledger.drop, balanced.waiting_nodup.erase_eq_filter]
    congr 1
    refine List.filter_congr fun other _ => ?_
    by_cases same : other = order <;> simp [same]
  · intro other stillOpen
    obtain ⟨different, wasOpen⟩ :=
      balanced.openedOnce.mem_erase_iff.mp stillOpen
    have before := balanced.openedFresh other wasOpen
    refine ⟨before.1, fun dropped => ?_⟩
    rcases List.mem_append.mp dropped with dropped | isOrder
    · exact before.2 dropped
    · exact different (List.mem_singleton.mp isOrder)
  · intro other
    rw [show (ledger.drop order).issued = ledger.issued from rfl,
      balanced.accounted other]
    simp only [Ledger.drop, balanced.openedOnce.mem_erase_iff,
      List.mem_append, List.mem_singleton]
    by_cases same : other = order
    · subst same
      have completed : other ∈ ledger.waiting → other ∈ ledger.completed :=
        balanced.waiting_completed
      simp only [ne_eq, not_true_eq_false, false_and, or_true, iff_true]
      exact known.imp_right fun waits => Or.inl (completed waits)
    · simp [same]

end Balanced

end Ledger

end LibubusJni.Lib
