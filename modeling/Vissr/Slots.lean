import Mathlib

/-! Tables with a fixed number of slots that are searched from the front. -/

namespace Vissr

open List

section

variable {α : Type*} {l : List α} {i j : Nat} {a b : α}

theorem getElem?_set_cases (there : (l.set i a)[j]? = some b) :
    i = j ∧ b = a ∨ i ≠ j ∧ l[j]? = some b := by
  rw [getElem?_set] at there
  grind

theorem getElem?_concat_cases (there : (l ++ [a])[i]? = some b) :
    l[i]? = some b ∨ i = l.length ∧ b = a := by
  rw [getElem?_append] at there
  grind

end

/-- A table of `n` slots. -/
structure Slots (α : Type) (n : Nat) where
  elems : List α
  size : elems.length = n

namespace Slots

variable {α : Type} {n : Nat}

def replicate (n : Nat) (a : α) : Slots α n := ⟨List.replicate n a, List.length_replicate⟩

def get (s : Slots α n) (i : Fin n) : α := s.elems.get (i.cast s.size.symm)

def set (s : Slots α n) (i : Fin n) (a : α) : Slots α n :=
  ⟨s.elems.set i a, by rw [length_set, s.size]⟩

variable (p : α → Bool)

def first (s : Slots α n) : Option (Fin n) := (s.elems.findFinIdx? p).map (Fin.cast s.size)

@[simp] theorem get_replicate (a : α) (i : Fin n) : (replicate n a).get i = a := by
  simp [get, replicate]

theorem getElem?_elems (s : Slots α n) (i : Fin n) : s.elems[(i : Nat)]? = some (s.get i) :=
  getElem?_eq_getElem _

variable {s : Slots α n}

theorem exists_of_mem {a : α} (mem : a ∈ s.elems) : ∃ i, s.get i = a := by
  obtain ⟨i, inside, here⟩ := mem_iff_getElem.mp mem
  exact ⟨⟨i, s.size ▸ inside⟩, here⟩

@[simp] theorem get_set_self (s : Slots α n) (i : Fin n) (a : α) : (s.set i a).get i = a := by
  simp only [get, set, get_eq_getElem]
  exact getElem_set_self _

theorem get_set_of_ne (s : Slots α n) (i j : Fin n) (a : α) (other : i ≠ j) :
    (s.set i a).get j = s.get j := by
  have apart : (i : Nat) ≠ (j : Nat) := fun same => other (Fin.ext same)
  simp only [get, set, get_eq_getElem]
  exact getElem_set_ne apart _

theorem get_set (s : Slots α n) (i j : Fin n) (a : α) :
    (s.set i a).get j = if i = j then a else s.get j := by
  by_cases same : i = j
  · subst same
    simp
  · rw [get_set_of_ne s i j a same, if_neg same]

theorem rel_get_set {r : α → α → Prop} (refl : ∀ a, r a a) {i : Fin n} {a : α}
    (changed : r (s.get i) a) (j : Fin n) : r (s.get j) ((s.set i a).get j) := by
  rw [get_set]
  split_ifs with same
  · exact same ▸ changed
  · exact refl _

theorem map_get_set {β : Type} (f : α → β) (s : Slots α n) (i : Fin n) (a : α) :
    (fun j => f ((s.set i a).get j)) = Function.update (fun j => f (s.get j)) i (f a) := by
  funext j
  by_cases same : j = i
  · rw [same, get_set_self, Function.update_self]
  · rw [get_set_of_ne s i j a (Ne.symm same), Function.update_of_ne same]

theorem first_eq_some (s : Slots α n) (i : Fin n) (found : s.first p = some i) :
    p (s.get i) = true ∧ ∀ j < i, p (s.get j) = false := by
  obtain ⟨k, search, rfl⟩ := Option.map_eq_some_iff.mp found
  obtain ⟨hit, before⟩ := findFinIdx?_eq_some_iff.mp search
  refine ⟨hit, ?_⟩
  intro j below
  have earlier := before (j.cast s.size.symm) below
  simpa [get] using earlier

theorem first_eq_none (s : Slots α n) (missed : s.first p = none) (i : Fin n) :
    p (s.get i) = false := by
  have search := Option.map_eq_none_iff.mp missed
  have all := findFinIdx?_eq_none_iff.mp search
  have outside := all (s.get i) (get_mem _ _)
  simpa using outside

theorem of_first {p : α → Prop} [DecidablePred p] {i : Fin n}
    (found : s.first (fun a => p a) = some i) : p (s.get i) :=
  of_decide_eq_true (first_eq_some _ s i found).1

theorem not_of_first {p : α → Prop} [DecidablePred p] (missed : s.first (fun a => p a) = none)
    (i : Fin n) : ¬ p (s.get i) :=
  of_decide_eq_false (first_eq_none _ s missed i)

theorem first_isSome (s : Slots α n) (i : Fin n) (hit : p (s.get i) = true) :
    ∃ j, s.first p = some j ∧ j ≤ i := by
  cases found : s.first p with
  | none =>
    rw [first_eq_none p s found i] at hit
    cases hit
  | some j =>
    refine ⟨j, rfl, ?_⟩
    by_contra beyond
    rw [(first_eq_some p s j found).2 i (Fin.not_le.mp beyond)] at hit
    cases hit

end Slots

end Vissr
