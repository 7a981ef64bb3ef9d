import Mathlib

/-! A table of flags, of which those of the indices that somebody holds are set. -/

namespace Vissr

open List

/-- The flags of the indices of a list, in which each is once, are set. -/
structure Marks (flags : List Bool) (held : List Nat) : Prop where
  nodup : held.Nodup
  set_iff : ∀ i, flags[i]? = some true ↔ i ∈ held

namespace Marks

variable {flags : List Bool} {held other : List Nat} {i : Nat}

theorem replicate (n : Nat) : Marks (replicate n false) [] := by
  constructor
  · exact nodup_nil
  · intro i
    rw [getElem?_replicate]
    split_ifs <;> simp

theorem perm (marks : Marks flags held) (same : held.Perm other) : Marks flags other := by
  constructor
  · exact same.nodup_iff.mp marks.nodup
  · intro i
    rw [marks.set_iff, same.mem_iff]

theorem claim (marks : Marks flags held) (free : flags[i]? = some false) :
    Marks (flags.set i true) (i :: held) := by
  have unheld : i ∉ held := by
    intro mem
    rw [(marks.set_iff i).mpr mem] at free
    cases free
  constructor
  · exact nodup_cons.mpr ⟨unheld, marks.nodup⟩
  · intro j
    rw [mem_cons, ← marks.set_iff]
    by_cases same : i = j
    · subst same
      have inside := (List.getElem?_eq_some_iff.mp free).1
      simp [getElem?_set_self inside]
    · rw [getElem?_set_ne same]
      simp [Ne.symm same]

theorem is_set (marks : Marks flags (i :: held)) : flags[i]? = some true :=
  (marks.set_iff i).mpr mem_cons_self

theorem free (marks : Marks flags (i :: held)) : Marks (flags.set i false) held := by
  have unheld := nodup_cons.mp marks.nodup
  constructor
  · exact unheld.2
  · intro j
    by_cases same : i = j
    · subst same
      have inside := (List.getElem?_eq_some_iff.mp marks.is_set).1
      simp [getElem?_set_self inside, unheld.1]
    · rw [getElem?_set_ne same, marks.set_iff, mem_cons]
      simp [Ne.symm same]

theorem free_of_mem (marks : Marks flags held) (mem : i ∈ held) :
    Marks (flags.set i false) (held.erase i) :=
  (marks.perm (perm_cons_erase mem)).free

theorem count (marks : Marks flags held) : flags.count true = held.length := by
  induction held generalizing flags with
  | nil =>
    rw [length_nil, count_eq_zero]
    intro mem
    obtain ⟨i, found⟩ := mem_iff_getElem?.mp mem
    exact not_mem_nil ((marks.set_iff i).mp found)
  | cons i held ih =>
    obtain ⟨inside, found⟩ := List.getElem?_eq_some_iff.mp marks.is_set
    have there : 0 < flags.count true := count_pos_iff.mpr (mem_of_getElem? marks.is_set)
    have lowered : (flags.set i false).count true = flags.count true - 1 := by
      rw [count_set inside, found]
      rfl
    rw [length_cons, ← ih marks.free, lowered]
    omega

end Marks

end Vissr
