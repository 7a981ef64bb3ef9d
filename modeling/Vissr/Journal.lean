import Vissr.Slots

/-! Journals of entries that can be taken back. Each level but zero counts its entries; a failed
attempt at a level takes the last entry back, of whichever level. -/

namespace Vissr

open List Option Nat

structure Journal (α : Type) where
  /-- the last one first -/
  entries : List α
  /-- of the levels from one on -/
  counts : List Nat

namespace Journal

variable {α : Type}

/-- A level beyond the counts is an error. -/
def push (level : Nat) (a : α) (j : Journal α) : Option (Journal α) :=
  match level with
  | 0 => some { j with entries := a :: j.entries }
  | i + 1 => (j.counts[i]?).map fun n => ⟨a :: j.entries, j.counts.set i (n + 1)⟩

def settle (level : Nat) (failed : Bool) (j : Journal α) : Option (Journal α) :=
  match level with
  | 0 => some j
  | i + 1 =>
    (j.counts[i]?).map fun n =>
      if 0 < n ∧ failed = true then ⟨j.entries.tail, j.counts.set i (n - 1)⟩ else j

inductive Op (α : Type) where
  | push (level : Nat) (a : α)
  | settle (level : Nat) (failed : Bool)

def Op.level : Op α → Nat
  | .push level _ => level
  | .settle level _ => level

def Op.pushed : Op α → Option α
  | .push _ a => some a
  | .settle _ _ => none

def Op.apply : Op α → Journal α → Option (Journal α)
  | .push level a, j => j.push level a
  | .settle level failed, j => j.settle level failed

def run : List (Op α) → Journal α → Option (Journal α)
  | [], j => some j
  | op :: ops, j => (op.apply j).bind (run ops)

variable {j after : Journal α} {a : α} {level : Nat}

theorem sum_set {counts : List Nat} {i n : Nat} (found : counts[i]? = some n) (m : Nat) :
    (counts.set i m).sum + n = counts.sum + m := by
  obtain ⟨inside, rfl⟩ := List.getElem?_eq_some_iff.mp found
  rw [(set_perm_cons_eraseIdx inside m).sum_eq, ← (getElem_cons_eraseIdx_perm inside).sum_eq,
    sum_cons, sum_cons]
  omega

/-- No level counts more than there is. -/
def Backed (j : Journal α) : Prop := j.counts.sum ≤ j.entries.length

theorem push_eq (inside : level ≤ j.counts.length) : ∃ after, j.push level a = some after := by
  cases level with
  | zero => exact ⟨_, rfl⟩
  | succ =>
    rw [push, getElem?_eq_getElem inside]
    exact ⟨_, rfl⟩

variable {failed : Bool}

theorem settle_eq (inside : level ≤ j.counts.length) :
    ∃ after, j.settle level failed = some after := by
  cases level with
  | zero => exact ⟨_, rfl⟩
  | succ =>
    rw [settle, getElem?_eq_getElem inside]
    exact ⟨_, rfl⟩

theorem push_cases (pushed : j.push level a = some after) :
    level ≤ j.counts.length ∧ after.entries = a :: j.entries ∧
      after.counts.length = j.counts.length ∧ (j.Backed → after.Backed) := by
  cases level with
  | zero =>
    cases pushed
    exact ⟨zero_le _, rfl, rfl, fun backed => le_succ_of_le backed⟩
  | succ =>
    obtain ⟨n, found, rfl⟩ := map_eq_some_iff.mp pushed
    refine ⟨(List.getElem?_eq_some_iff.mp found).1, rfl, length_set, ?_⟩
    intro backed
    have total := sum_set found (n + 1)
    simp only [Backed, length_cons] at backed ⊢
    omega

theorem settle_cases (settled : j.settle level failed = some after) :
    level ≤ j.counts.length ∧ (after.entries = j.entries ∨ after.entries = j.entries.tail) ∧
      after.counts.length = j.counts.length ∧ (j.Backed → after.Backed) := by
  cases level with
  | zero =>
    cases settled
    exact ⟨zero_le _, .inl rfl, rfl, id⟩
  | succ =>
    obtain ⟨n, found, same⟩ := map_eq_some_iff.mp settled
    have inside := (List.getElem?_eq_some_iff.mp found).1
    split_ifs at same with drops
    · subst same
      refine ⟨inside, .inr rfl, length_set, ?_⟩
      intro backed
      have total := sum_set found (n - 1)
      simp only [Backed, length_tail] at backed ⊢
      omega
    · subst same
      exact ⟨inside, .inl rfl, rfl, id⟩

theorem settle_succeeded (inside : level ≤ j.counts.length) : j.settle level false = some j := by
  cases level with
  | zero => rfl
  | succ =>
    rw [settle, getElem?_eq_getElem inside]
    simp

theorem settle_sublist (settled : j.settle level failed = some after) :
    after.entries.Sublist j.entries := by
  obtain same | shorter := (settle_cases settled).2.1
  · rw [same]
  · rw [shorter]
    exact tail_sublist _

theorem run_append (ops more : List (Op α)) (j : Journal α) :
    run (ops ++ more) j = (run ops j).bind (run more) := by
  induction ops generalizing j with
  | nil => rfl
  | cons op ops ih =>
    rw [cons_append, run, run]
    cases op.apply j with
    | none => rfl
    | some next => exact ih next

theorem run_singleton (op : Op α) (j : Journal α) : run [op] j = op.apply j := by
  rw [run]
  cases op.apply j <;> rfl

theorem apply_cases {op : Op α} (applied : op.apply j = some after) :
    op.level ≤ j.counts.length ∧ after.counts.length = j.counts.length := by
  cases op with
  | push =>
    have cases_ := push_cases applied
    exact ⟨cases_.1, cases_.2.2.1⟩
  | settle =>
    have cases_ := settle_cases applied
    exact ⟨cases_.1, cases_.2.2.1⟩

variable {ops : List (Op α)}

theorem length_counts_run (ran : run ops j = some after) :
    after.counts.length = j.counts.length := by
  induction ops generalizing j with
  | nil =>
    cases ran
    rfl
  | cons op ops ih =>
    obtain ⟨next, applied, rest⟩ := bind_eq_some_iff.mp ran
    rw [ih rest, (apply_cases applied).2]

theorem run_length_le (ran : run ops j = some after) :
    after.entries.length ≤ j.entries.length + (ops.filterMap Op.pushed).length := by
  induction ops generalizing j with
  | nil =>
    cases ran
    exact le_refl _
  | cons op ops ih =>
    obtain ⟨next, applied, rest⟩ := bind_eq_some_iff.mp ran
    have bound := ih rest
    cases op with
    | push =>
      have entries := (push_cases applied).2.1
      simp only [filterMap_cons, Op.pushed, length_cons]
      rw [entries, length_cons] at bound
      omega
    | settle =>
      have shorter := (settle_sublist applied).length_le
      simp only [filterMap_cons, Op.pushed]
      omega

/-- What the counter of a level becomes in a run. -/
def counter (level : Nat) : List (Op α) → Nat → Nat
  | [], n => n
  | .push l _ :: ops, n => counter level ops (if l = level then n + 1 else n)
  | .settle l failed :: ops, n =>
    counter level ops (if l = level ∧ failed = true then n - 1 else n)

theorem counter_append (ops more : List (Op α)) (n : Nat) :
    counter level (ops ++ more) n = counter level more (counter level ops n) := by
  induction ops generalizing n with
  | nil => rfl
  | cons op ops ih => cases op <;> exact ih _

variable {i n : Nat}

theorem apply_counts {op : Op α} (found : j.counts[i]? = some n)
    (applied : op.apply j = some after) : after.counts[i]? = some (counter (i + 1) [op] n) := by
  have inside := (List.getElem?_eq_some_iff.mp found).1
  cases op with
  | push level =>
    cases level with
    | zero =>
      cases applied
      exact found
    | succ k =>
      obtain ⟨m, there, rfl⟩ := map_eq_some_iff.mp applied
      by_cases here : k = i
      · subst here
        rw [found] at there
        cases there
        simp [counter, inside]
      · simp [counter, here, found]
  | settle level failed =>
    cases level with
    | zero =>
      cases applied
      simpa [counter] using found
    | succ k =>
      obtain ⟨m, there, same⟩ := map_eq_some_iff.mp applied
      by_cases here : k = i
      · subst here
        rw [found] at there
        cases there
        split_ifs at same with drops
        · subst same
          simp [counter, drops.2, inside]
        · subst same
          have idle : (if failed = true then n - 1 else n) = n := by
            split_ifs with failed
            · have zero : ¬ 0 < n := fun positive => drops ⟨positive, failed⟩
              omega
            · rfl
          simp only [counter, true_and, idle]
          exact found
      · split_ifs at same
        · subst same
          simp [counter, here, found]
        · subst same
          simp [counter, here, found]

theorem run_counts (found : j.counts[i]? = some n) (ran : run ops j = some after) :
    after.counts[i]? = some (counter (i + 1) ops n) := by
  induction ops generalizing j n with
  | nil =>
    cases ran
    exact found
  | cons op ops ih =>
    obtain ⟨next, applied, rest⟩ := bind_eq_some_iff.mp ran
    have step := ih (apply_counts found applied) rest
    rw [← counter_append] at step
    exact step

/-- All entries are counted. -/
def Balanced (j : Journal α) : Prop := j.entries.length = j.counts.sum

theorem Balanced.run (balanced : j.Balanced) (counted : ∀ op ∈ ops, ∀ a, op ≠ .push 0 a)
    (ran : run ops j = some after) : after.Balanced := by
  induction ops generalizing j with
  | nil =>
    cases ran
    exact balanced
  | cons op ops ih =>
    obtain ⟨next, applied, rest⟩ := bind_eq_some_iff.mp ran
    refine ih ?_ (fun op mem => counted op (mem_cons_of_mem _ mem)) rest
    rw [Balanced] at balanced
    cases op with
    | push level a =>
      cases level with
      | zero => exact absurd rfl (counted _ mem_cons_self a)
      | succ =>
        obtain ⟨n, found, rfl⟩ := map_eq_some_iff.mp applied
        have total := sum_set found (n + 1)
        simp only [Balanced, length_cons]
        omega
    | settle level =>
      cases level with
      | zero =>
        cases applied
        exact balanced
      | succ =>
        obtain ⟨n, found, same⟩ := map_eq_some_iff.mp applied
        split_ifs at same with drops
        · subst same
          have total := sum_set found (n - 1)
          have mem : n ≤ j.counts.sum := le_sum_of_mem (mem_of_getElem? found)
          simp only [Balanced, length_tail]
          omega
        · subst same
          exact balanced

theorem sum_single {counts : List Nat} (found : counts[i]? = some n)
    (others : ∀ k m, k ≠ i → counts[k]? = some m → m = 0) : counts.sum = n := by
  have zero : (counts.set i 0).sum = 0 := by
    apply sum_eq_zero
    intro m mem
    obtain ⟨k, there⟩ := mem_iff_getElem?.mp mem
    obtain ⟨-, zero⟩ | ⟨other, there⟩ := getElem?_set_cases there
    · exact zero
    · exact others k m other.symm there
  have total := sum_set found 0
  omega

variable (levelOf : α → Nat)

/-- Each level counts the entries that were made at it. -/
def Tallied (j : Journal α) : Prop :=
  ∀ i n, j.counts[i]? = some n → n = j.entries.countP fun a => levelOf a = i + 1

variable {levelOf}

theorem Tallied.push (tallied : j.Tallied levelOf) (same : levelOf a = level)
    (pushed : j.push level a = some after) : after.Tallied levelOf := by
  subst same
  intro i n found
  cases level : levelOf a with
  | zero =>
    rw [level] at pushed
    cases pushed
    rw [countP_cons, tallied i n found]
    simp [level]
  | succ k =>
    rw [level] at pushed
    obtain ⟨m, there, rfl⟩ := map_eq_some_iff.mp pushed
    rw [countP_cons]
    obtain ⟨rfl, rfl⟩ | ⟨other, found⟩ := getElem?_set_cases found
    · simp [level, tallied k m there]
    · simp [level, other, tallied i n found]

theorem Tallied.settle_idle (tallied : j.Tallied levelOf) (inside : level ≤ j.counts.length)
    (none_ : ∀ a ∈ j.entries, levelOf a ≠ level) : j.settle level failed = some j := by
  cases level with
  | zero => rfl
  | succ i =>
    have found := getElem?_eq_getElem inside
    have zero : j.counts[i] = 0 := by
      rw [tallied i _ found, countP_eq_zero]
      intro a mem same
      exact none_ a mem (of_decide_eq_true same)
    rw [settle, found, zero]
    rfl

theorem Tallied.settle_last {rest : List α} (tallied : j.Tallied levelOf)
    (last : j.entries = a :: rest) (same : levelOf a = level) (positive : 0 < level)
    (inside : level ≤ j.counts.length) :
    ∃ after, j.settle level true = some after ∧ after.entries = rest ∧ after.Tallied levelOf := by
  subst same
  obtain ⟨k, level⟩ : ∃ k, levelOf a = k + 1 := ⟨levelOf a - 1, by omega⟩
  rw [level] at inside ⊢
  have found := getElem?_eq_getElem inside
  have known := tallied k _ found
  rw [last, countP_cons_of_pos (by simpa using level)] at known
  refine ⟨⟨rest, j.counts.set k (j.counts[k] - 1)⟩, ?_, rfl, ?_⟩
  · rw [settle, found, map_some, if_pos ⟨by omega, rfl⟩, last, tail_cons]
  · intro i n there
    obtain ⟨rfl, rfl⟩ | ⟨other, there⟩ := getElem?_set_cases there
    · rw [known, Nat.add_sub_cancel]
    · have before := tallied i n there
      rw [last, countP_cons_of_neg (by simp [level, other])] at before
      exact before

end Journal

end Vissr
