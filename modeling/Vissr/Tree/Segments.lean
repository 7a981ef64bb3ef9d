import Vissr.Tree.Path

/-! The segments of a search path, and which of them `getPathSegment` reads at a depth. -/

namespace Vissr.Tree

open List

variable (path : Str)

def segments : List Str := path.splitOn '.'

variable {names : List Str}

theorem dotted_eq_intercalate (names : List Str) : dotted names = ['.'].intercalate names := by
  induction names with
  | nil => rfl
  | cons name names ih =>
    cases names with
    | nil => simp [dotted]
    | cons =>
      rw [dotted, ih, intercalate_cons_cons]
      · simp
      · exact cons_ne_nil _ _

theorem dotted_segments : dotted (segments path) = path := by
  rw [dotted_eq_intercalate, segments, intercalate_splitOn]

theorem segments_dotted (free : ∀ name ∈ names, '.' ∉ name) (some_ : names ≠ []) :
    segments (dotted names) = names := by
  rw [dotted_eq_intercalate, segments, splitOn_intercalate _ free some_]

theorem segments_cons (c : Char) (path : Str) : segments (c :: path) =
      if c = '.' then [] :: segments path else (segments path).modifyHead (c :: ·) := by
  simp [segments, splitOn, splitOnP_cons_eq_if_modifyHead]

theorem segments_ne_nil : segments path ≠ [] := by
  simp [segments, splitOn]

theorem dotFree_segments : ∀ name ∈ segments path, '.' ∉ name := by
  induction path with
  | nil =>
    intro name member
    rw [mem_singleton.mp member]
    exact not_mem_nil
  | cons c path ih =>
    rw [segments_cons]
    split_ifs with dot
    · exact forall_mem_cons.mpr ⟨not_mem_nil, ih⟩
    · cases split : segments path with
      | nil => exact absurd split (segments_ne_nil path)
      | cons first =>
        rw [split] at ih
        intro name member
        obtain rfl | member := mem_cons.mp member
        · rintro (_ | ⟨_, inside⟩)
          · exact dot rfl
          · exact ih first mem_cons_self inside
        · exact ih name (mem_cons_of_mem _ member)

theorem length_segments : (segments path).length = countSegments path := by
  induction path with
  | nil => rfl
  | cons c path ih =>
    rw [countSegments] at ih
    by_cases dot : c = '.'
    · rw [segments_cons, if_pos dot, length_cons, ih, countSegments, dot, count_cons_self]
    · rw [segments_cons, if_neg dot, length_modifyHead, ih, countSegments, count_cons_of_ne dot]

variable {rounds : Nat}

section

variable (free : ∀ name ∈ names, '.' ∉ name) {i : Nat} (positive : 0 < i)
  (front : frontDelimiter (dotted names) rounds = (dotted (names.take i)).length)

include free positive front

theorem frontDelimiter_stays (last : i + 1 = names.length) (more : Nat) :
    frontDelimiter (dotted names) (rounds + more) = (dotted (names.take i)).length := by
  obtain ⟨tail, text, -, ends⟩ := @dotted_around names i positive (by omega)
  have missing : index '.' ((dotted names).drop ((dotted (names.take i)).length + 1)) = none := by
    rw [text, ends.mp last, append_nil]
    have rest : (dotted (names.take i) ++ '.' :: names[i]).drop
        ((dotted (names.take i)).length + 1) = names[i] ++ [] := by simp
    rw [rest, index_dot _ _ (free _ (getElem_mem _)) (.inl rfl), if_pos rfl]
  induction more with
  | zero => exact front
  | succ more ih => rw [Nat.add_succ, frontDelimiter, ih, missing]

theorem frontDelimiter_next (below : i + 1 < names.length) :
    frontDelimiter (dotted names) (rounds + 1) = (dotted (names.take (i + 1))).length := by
  obtain ⟨tail, text, ends, last⟩ := @dotted_around names i positive (by omega)
  have open_ : tail ≠ [] := fun empty => by have := last.mpr empty; omega
  obtain ⟨rest, rfl⟩ := ends.resolve_left open_
  rw [dotted_take_succ i positive (by omega)]
  rw [text] at front ⊢
  exact frontDelimiter_dot _ _ rest rounds (free _ (getElem_mem _)) front

theorem frontDelimiter_add (below : i < names.length) (more : Nat) :
    frontDelimiter (dotted names) (rounds + more) =
      (dotted (names.take (min (i + more) (names.length - 1)))).length := by
  induction more with
  | zero =>
    rw [show min (i + 0) (names.length - 1) = i by omega]
    exact front
  | succ more ih =>
    by_cases inside : i + more + 1 < names.length
    · rw [show min (i + more) (names.length - 1) = i + more by omega] at ih
      rw [show min (i + (more + 1)) (names.length - 1) = i + more + 1 by omega]
      exact frontDelimiter_next free (by omega) ih inside
    · have last : min (i + more) (names.length - 1) = names.length - 1 := by omega
      rw [last] at ih
      rw [show min (i + (more + 1)) (names.length - 1) = names.length - 1 by omega]
      exact frontDelimiter_stays free (by omega) ih (by omega) 1

end

def segmentAt (i : Nat) : Str := ((segments path)[min i ((segments path).length - 1)]?).getD []

/-- The path begins with the name of a root. -/
def Rooted : Prop := ∃ c rest, path = c :: rest ∧ c ≠ '.'

theorem Rooted.ne_nil {path : Str} (rooted : Rooted path) : path ≠ [] := by
  obtain ⟨c, rest, rfl, _⟩ := rooted
  exact cons_ne_nil _ _

section Positions

variable {path : Str} {rounds : Nat}

theorem plain_segments (rooted : Rooted path) : Plain (segments path) := by
  refine ⟨dotFree_segments path, ?_⟩
  obtain ⟨c, rest, rfl, noDot⟩ := rooted
  rw [segments_cons, if_neg noDot]
  cases segments rest with
  | nil =>
    intro name head
    cases head
  | cons =>
    rintro name ⟨⟩
    exact cons_ne_nil _ _

theorem segmentAt_of_read {i j : Nat} (below : j < (segments path).length)
    (same : min i ((segments path).length - 1) = j)
    (read : pathSegment (dotted (segments path)) rounds = (segments path)[j]) :
    pathSegment path rounds = segmentAt path i := by
  rw [dotted_segments] at read
  rw [read, segmentAt, same, getElem?_eq_getElem below, Option.getD_some]

theorem length_segments_pos (path : Str) : 0 < (segments path).length :=
  length_pos_iff.mpr (segments_ne_nil path)

theorem frontDelimiter_single (single : (segments path).length = 1) (rounds : Nat) :
    frontDelimiter path rounds = 0 := by
  have noDot : '.' ∉ path := by
    rw [length_segments, countSegments] at single
    exact count_eq_zero.mp (by omega)
  have missing : index '.' (path.drop (0 + 1)) = none := by
    rw [index, findIdx?_eq_none_iff]
    intro c mem
    have other : c ≠ '.' := by
      rintro rfl
      exact noDot (mem_of_mem_drop mem)
    simpa using other
  induction rounds with
  | zero => rfl
  | succ rounds ih => rw [frontDelimiter, ih, missing]

theorem pathSegment_eq (rooted : Rooted path) (i : Nat) :
    pathSegment path i = segmentAt path i := by
  have plain := plain_segments rooted
  have some_ := length_segments_pos path
  by_cases single : (segments path).length = 1
  · have first := pathSegment_dotted plain 0 some_
    rw [← segmentAt_of_read some_ (by omega) first, pathSegment, pathSegment,
      frontDelimiter_single single, frontDelimiter_single single]
  · by_cases zero : i = 0
    · subst zero
      exact segmentAt_of_read some_ (by omega) (pathSegment_dotted plain 0 some_)
    · have front := frontDelimiter_dotted plain 1 (by omega) (by omega)
      have moved := frontDelimiter_add plain.dotFree (by omega) front (by omega) (i - 1)
      rw [show 1 + (i - 1) = i by omega] at moved
      exact segmentAt_of_read (by omega) rfl
        (pathSegment_of_front plain.dotFree _ (by omega) (by omega) moved)

theorem pathSegment_dot (rest : Str) (i : Nat) :
    pathSegment ('.' :: rest) i = segmentAt ('.' :: rest) (i + 1) := by
  have split : segments ('.' :: rest) = [] :: segments rest := by
    rw [segments_cons, if_pos rfl]
  have some_ := length_segments_pos rest
  have length : (segments ('.' :: rest)).length = (segments rest).length + 1 := by
    rw [split, length_cons]
  have front : frontDelimiter (dotted (segments ('.' :: rest))) 0 =
      (dotted ((segments ('.' :: rest)).take 1)).length := by
    rw [split]
    rfl
  have moved := frontDelimiter_add (dotFree_segments _) (by omega) front (by omega) i
  rw [Nat.zero_add, Nat.add_comm 1 i] at moved
  exact segmentAt_of_read (by omega) rfl
    (pathSegment_of_front (dotFree_segments _) _ (by omega) (by omega) moved)

/-- How many segments come before the first that is read. -/
def passedOver (path : Str) : Nat := if path.head? = some '.' then 1 else 0

theorem passedOver_rooted (rooted : Rooted path) : passedOver path = 0 := by
  obtain ⟨c, rest, rfl, noDot⟩ := rooted
  exact if_neg (by simpa using noDot)

theorem pathSegment_eq_segmentAt (some_ : path ≠ []) (i : Nat) :
    pathSegment path i = segmentAt path (i + passedOver path) := by
  cases path with
  | nil => exact absurd rfl some_
  | cons c rest =>
    by_cases dot : c = '.'
    · subst dot
      exact pathSegment_dot rest i
    · have rooted : Rooted (c :: rest) := ⟨c, rest, rfl, dot⟩
      rw [passedOver_rooted rooted, Nat.add_zero]
      exact pathSegment_eq rooted i

end Positions

end Vissr.Tree
