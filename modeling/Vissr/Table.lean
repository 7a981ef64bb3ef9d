import Mathlib

/-! Tables with a value that stands for a free slot, and what runs for the other slots. -/

namespace Vissr.Table

open List Option

variable {α : Type*} [DecidableEq α] {free a b : α} {table : List α}

def entries (free : α) (table : List α) : List α := table.filter (· ≠ free)

/-- The first free slot gets a value, if there is one. -/
def claim (free b : α) (table : List α) : List α :=
  match table.findIdx? (· = free) with
  | some i => table.set i b
  | none => table

/-- The first slot with a value is free afterwards, if there is one. -/
def release (free a : α) (table : List α) : List α :=
  match table.findIdx? (· = a) with
  | some i => table.set i free
  | none => table

theorem findIdx?_eq_none : table.findIdx? (· = a) = none ↔ a ∉ table := by
  rw [findIdx?_eq_none_iff]
  constructor
  · intro differs mem
    exact of_decide_eq_false (differs a mem) rfl
  · intro absent other mem
    apply decide_eq_false
    rintro rfl
    exact absent mem

variable {i : Nat}

theorem getElem?_of_findIdx? (found : table.findIdx? (· = a) = some i) : table[i]? = some a := by
  obtain ⟨inside, here, -⟩ := findIdx?_eq_some_iff_getElem.mp found
  rw [getElem?_eq_getElem inside, of_decide_eq_true here]

theorem entries_set (here : table[i]? = some a) :
    (entries free (a :: table.set i b)).Perm (entries free (b :: table)) := by
  obtain ⟨inside, rfl⟩ := List.getElem?_eq_some_iff.mp here
  have moved := ((set_perm_cons_eraseIdx inside b).cons table[i]).trans (Perm.swap ..)
  exact (moved.trans ((getElem_cons_eraseIdx_perm inside).cons b)).filter _

theorem mem_entries : a ∈ entries free table ↔ a ∈ table ∧ a ≠ free := by
  rw [entries, mem_filter, decide_eq_true_eq]

theorem slot_unique (once : (entries free table).Nodup) (used : a ≠ free) {j : Nat}
    (here : table[i]? = some a) (there : table[j]? = some a) : i = j := by
  rw [entries, Nodup, pairwise_filter, pairwise_iff_getElem] at once
  obtain ⟨first, rfl⟩ := List.getElem?_eq_some_iff.mp here
  obtain ⟨second, same⟩ := List.getElem?_eq_some_iff.mp there
  have used_there := decide_eq_true (same ▸ used)
  by_contra apart
  obtain less | less := Nat.lt_or_gt_of_ne apart
  · exact once i j first second less (decide_eq_true used) used_there same.symm
  · exact once j i second first less used_there (decide_eq_true used) same

theorem release_frees (once : (entries free table).Nodup) (used : a ≠ free)
    (here : table[i]? = some a) : (release free b table)[i]? = some free ↔ a = b := by
  have busy : table[i]? ≠ some free := fun free => used (some.inj (here.symm.trans free))
  rw [release]
  cases found : table.findIdx? (· = b) with
  | none =>
    refine iff_of_false busy ?_
    rintro rfl
    exact findIdx?_eq_none.mp found (mem_of_getElem? here)
  | some j =>
    have first := getElem?_of_findIdx? found
    by_cases same : j = i
    · subst same
      exact iff_of_true (getElem?_set_self (List.getElem?_eq_some_iff.mp here).1)
        (some.inj (here.symm.trans first))
    · rw [getElem?_set_ne same]
      refine iff_of_false busy ?_
      rintro rfl
      exact same (slot_unique once used first here)

theorem entries_set_of_free (here : table[i]? = some free) (used : b ≠ free) :
    (entries free (table.set i b)).Perm (b :: entries free table) := by
  simpa [entries, used] using @entries_set _ _ free _ b _ _ here

theorem entries_set_free (here : table[i]? = some a) (used : a ≠ free) :
    (a :: entries free (table.set i free)).Perm (entries free table) := by
  simpa [entries, used] using @entries_set _ _ free _ free _ _ here

theorem entries_claim (room : free ∈ table) (used : b ≠ free) :
    (entries free (claim free b table)).Perm (b :: entries free table) := by
  rw [claim]
  cases found : table.findIdx? (· = free) with
  | none => exact absurd room (findIdx?_eq_none.mp found)
  | some => exact entries_set_of_free (getElem?_of_findIdx? found) used

theorem entries_release : (entries free (release free a table)).Perm
    ((entries free table).erase a) := by
  rw [release]
  cases found : table.findIdx? (· = a) with
  | none =>
    have absent := findIdx?_eq_none.mp found
    rw [erase_of_not_mem fun mem => absent (mem_entries.mp mem).1]
  | some =>
    have moved := (@entries_set _ _ free _ free _ _ (getElem?_of_findIdx? found)).erase a
    by_cases used : a = free <;> simpa [entries, used, erase_of_not_mem] using moved

theorem count_entries (used : a ≠ free) : (entries free table).count a = table.count a := by
  rw [entries, count_filter]
  exact decide_eq_true used

theorem exists_free (few : (entries free table).length < table.length) : free ∈ table := by
  by_contra full
  have all : entries free table = table := by
    rw [entries, filter_eq_self]
    intro b mem
    apply decide_eq_true
    intro same
    rw [same] at mem
    exact full mem
  rw [all] at few
  exact Nat.lt_irrefl _ few

end Vissr.Table
