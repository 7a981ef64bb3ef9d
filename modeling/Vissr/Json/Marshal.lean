import Vissr.Json.RoundTrip

/-! The text of a marshalled value, and that it is read back. -/

namespace Vissr.Json

open List Nat Raw

mutual

/-- The JSON that is written for a value. -/
def Value.raw : Value → Raw
  | .null => .null
  | .bool b => .bool b
  | .num lit => .num lit
  | .str s => .str (encodeString s)
  | .arr xs => .arr (rawElems xs)
  | .obj m => .obj ((sortKeys (rawMembers m)).map fun p => (encodeString p.1, p.2))

def rawElems : List Value → List Raw
  | [] => []
  | x :: xs => x.raw :: rawElems xs

def rawMembers : List (Str × Value) → List (Str × Raw)
  | [] => []
  | (k, v) :: m => (k, v.raw) :: rawMembers m

end

theorem rawMembers_eq (m : Map Value) : rawMembers m = m.map fun p => (p.1, p.2.raw) := by
  induction m with
  | nil => rfl
  | cons p m ih =>
    obtain ⟨k, v⟩ := p
    rw [rawMembers, ih, map_cons]

theorem sortKeys_map {β γ : Type} (f : β → γ) (m : Map β) :
    sortKeys (m.map fun p => (p.1, f p.2)) = (sortKeys m).map fun p => (p.1, f p.2) := by
  have sorted := map_insertionSort (fun p q : Str × β => p.1 ≤ q.1)
    (fun p q : Str × γ => p.1 ≤ q.1) (fun p => (p.1, f p.2)) m (fun _ _ _ _ => Iff.rfl)
  exact sorted.symm

theorem renderRest_eq (x : Raw) (xs : List Raw) :
    x.render ++ renderRest xs = joinComma ((x :: xs).map render) ++ [']'] := by
  induction xs generalizing x with
  | nil => rfl
  | cons y ys ih =>
    calc
      x.render ++ renderRest (y :: ys) = x.render ++ ',' :: (y.render ++ renderRest ys) := by
        rw [renderRest, cons_append]
      _ = x.render ++ ',' :: (joinComma ((y :: ys).map render) ++ [']']) := by rw [ih y]
      _ = joinComma ((x :: y :: ys).map render) ++ [']'] := by simp [joinComma]

def renderMember (p : List Elem × Raw) : Str := quoted p.1 ++ ':' :: p.2.render

theorem renderMore_cons (p : List Elem × Raw) (ms : List (List Elem × Raw)) :
    renderMore (p :: ms) = ',' :: (renderMember p ++ renderMore ms) := by
  simp [renderMore, renderMember]

theorem render_members (p : List Elem × Raw) (ms : List (List Elem × Raw)) :
    (obj (p :: ms)).render = '\x7b' :: (renderMember p ++ renderMore ms) := by
  simp [render, renderMember]

theorem renderMore_eq (p : List Elem × Raw) (ms : List (List Elem × Raw)) :
    renderMember p ++ renderMore ms = joinComma ((p :: ms).map renderMember) ++ ['\x7d'] := by
  induction ms generalizing p with
  | nil => rfl
  | cons q ms ih =>
    calc
      renderMember p ++ renderMore (q :: ms) =
          renderMember p ++ ',' :: (renderMember q ++ renderMore ms) := by rw [renderMore_cons]
      _ = renderMember p ++ ',' :: (joinComma ((q :: ms).map renderMember) ++ ['\x7d']) := by
        rw [ih q]
      _ = joinComma ((p :: q :: ms).map renderMember) ++ ['\x7d'] := by simp [joinComma]

theorem render_arr (xs : List Raw) :
    (arr xs).render = '[' :: joinComma (xs.map render) ++ [']'] := by
  cases xs with
  | nil => rfl
  | cons =>
    rw [render, cons_append, renderRest_eq]
    rfl

theorem render_obj (ms : List (List Elem × Raw)) :
    (obj ms).render = '\x7b' :: joinComma (ms.map renderMember) ++ ['\x7d'] := by
  cases ms with
  | nil => rfl
  | cons =>
    rw [render_members, renderMore_eq]
    rfl

mutual

theorem marshal_eq_render (v : Value) : v.marshal = v.raw.render := by
  match v with
  | .null => rfl
  | .bool true => rfl
  | .bool false => rfl
  | .num lit => rfl
  | .str s => rfl
  | .arr xs => rw [Value.marshal, Value.raw, render_arr, marshalElems_eq_render xs]
  | .obj m =>
    have members := marshalMembers_eq_render m
    rw [Value.marshal, Value.raw, render_obj, members, sortKeys_map, map_map, map_map]
    rfl

theorem marshalElems_eq_render (xs : List Value) :
    marshalElems xs = (rawElems xs).map render := by
  match xs with
  | [] => rfl
  | x :: xs =>
    rw [marshalElems, rawElems, map_cons, marshal_eq_render x, marshalElems_eq_render xs]

theorem marshalMembers_eq_render (m : List (Str × Value)) :
    marshalMembers m = (rawMembers m).map fun p => (p.1, p.2.render) := by
  match m with
  | [] => rfl
  | (k, v) :: m =>
    rw [marshalMembers, rawMembers, map_cons, marshal_eq_render v, marshalMembers_eq_render m]

end

variable {m : Map Value}

def memberText (p : Str × Value) : Str := quoted (encodeString p.1) ++ ':' :: p.2.marshal

def membersText (l : Map Value) : Str := '\x7b' :: joinComma (l.map memberText) ++ ['\x7d']

theorem joinComma_append (xs : List Str) (y : Str) (ys : List Str) :
    joinComma (xs ++ y :: ys) = xs.flatMap (· ++ [',']) ++ joinComma (y :: ys) := by
  induction xs with
  | nil => rfl
  | cons x xs ih =>
    have more : ∀ z zs, joinComma (x :: z :: zs) = x ++ ',' :: joinComma (z :: zs) :=
      fun z zs => rfl
    cases xs with
    | nil =>
      rw [singleton_append, more, flatMap_singleton, append_assoc, singleton_append]
    | cons =>
      rw [cons_append, cons_append, more, ← cons_append, ih]
      simp

theorem sortKeys_split {β : Type} {m : Map β} {k : Str} {v : β} (distinct : Distinct m)
    (found : m.lookup k = some v) :
    ∃ before after, sortKeys m = before ++ (k, v) :: after ∧ (∀ p ∈ before, p.1 < k) ∧
      (∀ p ∈ after, k < p.1) ∧ (before ++ after).Perm (delete k m) := by
  have perm : (sortKeys m).Perm m := perm_insertionSort _ m
  have listed : (k, v) ∈ sortKeys m :=
    perm.mem_iff.mpr ((lookup_eq_some_iff m distinct k v).mp found)
  obtain ⟨before, after, split⟩ := append_of_mem listed
  have sorted : (sortKeys m).Pairwise fun p q => p.1 ≤ q.1 := pairwise_insertionSort _ m
  have keys : ((before ++ (k, v) :: after).map Prod.fst).Nodup := by
    rw [← split]
    exact (perm.map Prod.fst).nodup_iff.mpr distinct
  have apart : ∀ p ∈ before ++ after, p.1 ≠ k := by
    rw [map_append, map_cons, nodup_middle, nodup_cons, ← map_append]
      at keys
    intro p mem same
    exact keys.1 (mem_map.mpr ⟨p, mem, same⟩)
  rw [split, pairwise_append, pairwise_cons] at sorted
  refine ⟨before, after, split, ?_, ?_, ?_⟩
  · intro p mem
    exact Std.lt_of_le_of_ne (sorted.2.2 p mem _ mem_cons_self)
      (apart p (mem_append_left _ mem))
  · intro p mem
    exact Std.lt_of_le_of_ne (sorted.2.1.1 p mem) (apart p (mem_append_right _ mem)).symm
  · have kept : delete k (before ++ (k, v) :: after) = before ++ after := by
      rw [delete, filter_append, filter_cons_of_neg (by simp), ← filter_append, filter_eq_self]
      exact fun p mem => decide_eq_true (apart p mem)
    rw [← kept, ← split]
    exact perm.filter _

theorem marshal_obj (m : Map Value) : (Value.obj m).marshal = membersText (sortKeys m) := by
  have members : marshalMembers m = m.map fun p => (p.1, p.2.marshal) := by
    induction m with
    | nil => rfl
    | cons p m ih =>
      obtain ⟨k, v⟩ := p
      rw [marshalMembers, ih, map_cons]
  rw [Value.marshal, members, sortKeys_map, map_map]
  rfl

theorem membersText_eq_render (l : Map Value) :
    membersText l = (obj (l.map fun p => (encodeString p.1, p.2.raw))).render := by
  have mem : ∀ p : Str × Value, memberText p = renderMember (encodeString p.1, p.2.raw) := by
    intro p
    rw [memberText, marshal_eq_render, renderMember]
  rw [render_obj, membersText, map_map, funext mem]
  rfl

/-- A decoder accepts it as a member. -/
def Value.Legible (v : Value) : Prop := v.raw.nesting < maxNestingDepth ∧ v.raw.inRange = true
  deriving Decidable

theorem unmarshalMap_membersText {l : Map Value} (distinct : Distinct m) (perm : l.Perm m)
    (legible : ∀ p ∈ m, p.2.Legible) : ∃ decoded, unmarshalMap (membersText l) = some decoded ∧
      ∀ k, decoded.lookup k = (m.lookup k).map fun v => v.raw.value := by
  have listed : ∀ p ∈ l, p.2.Legible := fun p mem => legible p (perm.mem_iff.mp mem)
  have nested : (obj (l.map fun p => (encodeString p.1, p.2.raw))).nesting ≤ maxNestingDepth := by
    rw [nesting]
    apply succ_le_of_lt
    apply lt_of_le_of_lt (nestingMembers_le _ (maxNestingDepth - 1) ?_) (by decide)
    intro q mem
    obtain ⟨p, inside, rfl⟩ := mem_map.mp mem
    exact le_sub_one_of_lt (listed p inside).1
  have range : inRangeMembers (l.map fun p => (encodeString p.1, p.2.raw)) = true := by
    rw [inRangeMembers_iff, forall_mem_map]
    exact fun p mem => (listed p mem).2
  refine ⟨(obj (l.map fun p => (encodeString p.1, p.2.raw))).toMap.1, ?_, ?_⟩
  · rw [membersText_eq_render, unmarshalMap, parseAll_render _ nested]
    simp only [toMap, range]
    rfl
  · intro k
    have values : valueMembers (l.map fun p => (encodeString p.1, p.2.raw)) =
        l.map fun p => (p.1, p.2.raw.value) := by
      simp [valueMembers_eq, Function.comp_def, unquote_encodeString]
    have reversed : l.reverse.Perm m := (reverse_perm _).trans perm
    rw [toMap, values, lookup_mapOf, ← map_reverse, lookup_map (fun v : Value => v.raw.value),
      lookup_perm _ m ((reversed.map Prod.fst).nodup_iff.mpr distinct) reversed]

def Value.Decodable (v : Value) : Prop := v.raw.nesting ≤ maxNestingDepth ∧ v.raw.inRange = true
  deriving Decidable

theorem unmarshalMap_marshal (distinct : Distinct m) (decodable : (Value.obj m).Decodable) :
    ∃ decoded, unmarshalMap (Value.obj m).marshal = some decoded ∧
      ∀ k, decoded.lookup k = (m.lookup k).map fun v => v.raw.value := by
  obtain ⟨nested, range⟩ := decodable
  have members : ∀ p ∈ m, (encodeString p.1, p.2.raw) ∈
      (sortKeys (rawMembers m)).map fun p => (encodeString p.1, p.2) := by
    intro p mem
    rw [rawMembers_eq, sortKeys_map, map_map]
    exact mem_map.mpr ⟨p, (perm_insertionSort _ m).mem_iff.mpr mem, rfl⟩
  rw [Value.raw, nesting] at nested
  rw [Value.raw, inRange] at range
  rw [marshal_obj]
  apply unmarshalMap_membersText distinct (perm_insertionSort _ m)
  intro p mem
  exact ⟨lt_of_lt_of_le (lt_succ_of_le (nesting_le_of_mem _ _ (le_refl _) _
    (members p mem))) nested, inRangeMembers_iff.mp range _ (members p mem)⟩

theorem getStr_of_decoded {decoded : Map Value} {k s : Str}
    (lookups : ∀ k, decoded.lookup k = (m.lookup k).map fun v => v.raw.value)
    (given : getStr m k = some s) : getStr decoded k = some s := by
  rw [getStr, lookups, getStr_eq_some.mp given]
  simp [Value.raw, value, unquote_encodeString]

end Vissr.Json
