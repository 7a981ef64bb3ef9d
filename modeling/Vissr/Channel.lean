import Mathlib

/-! Buffered channels of a fixed capacity. -/

namespace Vissr

open List

/-- What has been sent and not yet been received, the oldest first. -/
structure Channel (α : Type) (capacity : Nat) where
  items : List α := []
  bounded : items.length ≤ capacity := by exact Nat.zero_le _

namespace Channel

variable {α : Type} {capacity : Nat}

def send (c : Channel α capacity) (a : α) : Option (Channel α capacity) :=
  if room : c.items.length < capacity then
    some ⟨c.items ++ [a], by rw [length_append]; exact room⟩
  else none

def receive (c : Channel α capacity) : Option (α × Channel α capacity) :=
  match c with
  | ⟨[], _⟩ => none
  | ⟨a :: items, bounded⟩ => some (a, ⟨items, Nat.le_of_succ_le bounded⟩)

variable {c : Channel α capacity} {a : α}

theorem items_of_send {c' : Channel α capacity} (sent : c.send a = some c') :
    c'.items = c.items ++ [a] := by
  unfold send at sent
  split_ifs at sent
  cases sent
  rfl

theorem sublist_of_getD_send (c : Channel α capacity) (a : α) :
    ((c.send a).getD c).items.Sublist (c.items ++ [a]) := by
  cases sent : c.send a with
  | none => exact sublist_append_left c.items [a]
  | some => rw [Option.getD_some, items_of_send sent]

theorem exists_send (room : c.items.length < capacity) (a : α) :
    ∃ c', c.send a = some c' ∧ c'.items = c.items ++ [a] := by
  refine ⟨⟨c.items ++ [a], ?_⟩, ?_, rfl⟩
  · rw [length_append]
    exact room
  · rw [send, dif_pos room]

theorem exists_receive {rest : List α} (holds : c.items = a :: rest) :
    ∃ c', c.receive = some (a, c') ∧ c'.items = rest := by
  obtain ⟨items, bounded⟩ := c
  cases holds
  exact ⟨_, rfl, rfl⟩

theorem items_of_receive {c' : Channel α capacity} (received : c.receive = some (a, c')) :
    c.items = a :: c'.items := by
  obtain ⟨items, bounded⟩ := c
  cases items with
  | nil => cases received
  | cons =>
    cases received
    rfl

theorem receive_eq_none : c.receive = none ↔ c.items = [] := by
  obtain ⟨items, bounded⟩ := c
  cases items with
  | nil => exact iff_of_true rfl rfl
  | cons => exact iff_of_false nofun nofun

end Channel

structure Channels (ι α : Type) [DecidableEq ι] (capacity : Nat) where
  items : List (ι × α) := []
  bounded : ∀ i, items.countP (fun p => p.1 = i) ≤ capacity := by
    intro _
    exact Nat.zero_le _

namespace Channels

variable {ι α : Type} [DecidableEq ι] {capacity : Nat} (c : Channels ι α capacity)

def send (i : ι) (a : α) : Option (Channels ι α capacity) :=
  if room : c.items.countP (fun p => p.1 = i) < capacity then
    some {
      items := c.items ++ [(i, a)]
      bounded := by
        intro j
        rw [countP_append, countP_singleton]
        by_cases same : i = j
        · subst same
          simpa [Nat.succ_le_iff] using room
        · simpa [same] using c.bounded j }
  else none

def receive (i : ι) : Option (α × Channels ι α capacity) :=
  (c.items.find? fun p => p.1 = i).map fun p =>
    (p.2, {
      items := c.items.eraseP fun p => p.1 = i
      bounded := fun j => Nat.le_trans eraseP_sublist.countP_le (c.bounded j) })

variable {c c' : Channels ι α capacity}

theorem items_of_send {i : ι} {a : α}
    (sent : c.send i a = some c') : c'.items = c.items ++ [(i, a)] := by
  unfold send at sent
  split_ifs at sent
  cases sent
  rfl

theorem perm_of_receive {i : ι} {a : α}
    (received : c.receive i = some (a, c')) : c.items.Perm ((i, a) :: c'.items) := by
  obtain ⟨⟨j, b⟩, found, same⟩ := Option.map_eq_some_iff.mp received
  cases same
  obtain ⟨here, front, back, whole, before⟩ := find?_eq_some_iff_append.mp found
  have index : j = i := of_decide_eq_true here
  subst index
  have erased : (c.items.eraseP fun p => p.1 = j) = front ++ back := by
    rw [whole, eraseP_append_right]
    · simp
    · intro p mem
      simpa using before p mem
  show c.items.Perm ((j, b) :: c.items.eraseP fun p => p.1 = j)
  rw [erased, whole]
  exact perm_middle

end Channels

end Vissr
