import Vissr.Tree.Coverage

/-! Paths that name a node: the names on the way to it, joined by dots. -/

namespace Vissr.Tree

open List

def dotted : List Str → Str
  | [] => []
  | [name] => name
  | name :: names => name ++ '.' :: dotted names

theorem dotted_append (xs ys : List Str) (first : xs ≠ []) (second : ys ≠ []) :
    dotted (xs ++ ys) = dotted xs ++ '.' :: dotted ys := by
  induction xs with
  | nil => exact absurd rfl first
  | cons x xs ih =>
    cases xs with
    | nil =>
      cases ys with
      | nil => exact absurd rfl second
      | cons => rfl
    | cons =>
      have rest := ih (cons_ne_nil _ _)
      simp only [cons_append, dotted] at rest ⊢
      rw [rest, append_assoc]
      rfl

/-- A name ends where the text ends or a dot follows. -/
def EndsName (tail : Str) : Prop := tail = [] ∨ ∃ rest, tail = '.' :: rest

theorem dotted_cons_split (name : Str) (names : List Str) :
    ∃ tail, dotted (name :: names) = name ++ tail ∧ EndsName tail ∧ (names = [] ↔ tail = []) := by
  cases names with
  | nil => exact ⟨[], by simp [dotted], .inl rfl, by simp⟩
  | cons next names => exact ⟨'.' :: dotted (next :: names), rfl, .inr ⟨_, rfl⟩, by simp⟩

theorem index_dot (name tail : Str) (plain : '.' ∉ name) (ends : EndsName tail) :
    index '.' (name ++ tail) = if tail = [] then none else some name.length := by
  have before : name.findIdx? (· = '.') = none := by
    simp only [findIdx?_eq_none_iff, decide_eq_false_iff_not]
    rintro c mem rfl
    exact plain mem
  rw [index, findIdx?_append, before]
  obtain rfl | ⟨rest, rfl⟩ := ends
  · simp
  · simp [findIdx?_cons]

variable (before name tail : Str)

theorem endDelimiter_dot (plain : '.' ∉ name) (ends : EndsName tail) :
    endDelimiter (before ++ '.' :: (name ++ tail)) before.length =
      before.length + 1 + name.length := by
  have rest : (before ++ '.' :: (name ++ tail)).drop (before.length + 1) = name ++ tail := by
    simp
  rw [endDelimiter, rest, index_dot name tail plain ends]
  split_ifs with last
  · simp only [last, append_nil, length_append, length_cons]
    omega
  · simp only
    omega

theorem frontDelimiter_dot (rest : Str) (rounds : Nat) (plain : '.' ∉ name)
    (front : frontDelimiter (before ++ '.' :: (name ++ '.' :: rest)) rounds = before.length) :
    frontDelimiter (before ++ '.' :: (name ++ '.' :: rest)) (rounds + 1) =
      before.length + 1 + name.length := by
  have found : index '.' ((before ++ '.' :: (name ++ '.' :: rest)).drop (before.length + 1)) =
      some name.length := by
    have text : (before ++ '.' :: (name ++ '.' :: rest)).drop (before.length + 1) =
        name ++ '.' :: rest := by simp
    rw [text, index_dot name _ plain (.inr ⟨rest, rfl⟩)]
    rfl
  rw [frontDelimiter, front, found]
  simp only
  omega

/-- No name on the way holds a dot, and the first one is not empty. -/
structure Plain (names : List Str) : Prop where
  dotFree : ∀ name ∈ names, '.' ∉ name
  root : ∀ name, names.head? = some name → name ≠ []

variable {names : List Str}

theorem take_ne_nil {i : Nat} (positive : 0 < i) (below : i < names.length) :
    names.take i ≠ [] := by
  rw [ne_eq, take_eq_nil_iff]
  rintro (rfl | rfl)
  · omega
  · cases below

theorem dotted_around (i : Nat) (positive : 0 < i) (below : i < names.length) :
    ∃ tail, dotted names = dotted (names.take i) ++ '.' :: (names[i] ++ tail) ∧ EndsName tail ∧
      (i + 1 = names.length ↔ tail = []) := by
  have front := take_ne_nil positive below
  have back : names.drop i = names[i] :: names.drop (i + 1) := drop_eq_getElem_cons below
  obtain ⟨tail, text, ends, last⟩ := dotted_cons_split names[i] (names.drop (i + 1))
  refine ⟨tail, ?_, ends, ?_⟩
  · conv_lhs => rw [← take_append_drop i names]
    rw [dotted_append _ _ front (by rw [back]; exact cons_ne_nil _ _), back, text]
  · rw [← last, drop_eq_nil_iff]
    omega

theorem dotted_take_succ (i : Nat) (positive : 0 < i) (below : i < names.length) :
    (dotted (names.take (i + 1))).length =
      (dotted (names.take i)).length + 1 + (names[i]).length := by
  have front := take_ne_nil positive below
  rw [take_succ_eq_append_getElem below, dotted_append _ _ front (cons_ne_nil _ _)]
  simp only [dotted, length_append, length_cons]
  omega

/-- It is not empty, so the search for the first dot skips none. -/
theorem dotted_first (plain : Plain names) (some_ : 0 < names.length) :
    ∃ c name tail, names[0] = c :: name ∧ c ≠ '.' ∧ '.' ∉ name ∧
      dotted names = c :: (name ++ tail) ∧ EndsName tail ∧ (names.length = 1 ↔ tail = []) := by
  match names, plain, some_ with
  | first :: rest, plain, _ =>
    obtain ⟨tail, text, ends, last⟩ := dotted_cons_split first rest
    have free := plain.dotFree first mem_cons_self
    match first, plain.root first rfl with
    | c :: name, _ =>
      rw [mem_cons, not_or] at free
      exact ⟨c, name, tail, rfl, fun same => free.1 same.symm, free.2, text, ends,
        by rw [← last]; simp⟩

theorem frontDelimiter_dotted (plain : Plain names) (i : Nat) (positive : 0 < i)
    (below : i < names.length) :
    frontDelimiter (dotted names) i = (dotted (names.take i)).length := by
  induction i with
  | zero => omega
  | succ i ih =>
    by_cases first : i = 0
    · subst first
      obtain ⟨c, name, tail, head, -, free, text, ends, last⟩ := dotted_first plain (by omega)
      have open_ : tail ≠ [] := fun empty => by have := last.mpr empty; omega
      have one : names.take 1 = [names[0]] := by
        rw [take_succ_eq_append_getElem (by omega)]
        rfl
      have found : index '.' ((dotted names).drop (0 + 1)) = some name.length := by
        rw [text, drop_succ_cons, drop_zero, index_dot name tail free ends, if_neg open_]
      rw [one, head, frontDelimiter, frontDelimiter, found]
      simp [dotted]
    · obtain ⟨tail, text, ends, last⟩ := @dotted_around names i (by omega) (by omega)
      have open_ : tail ≠ [] := fun empty => by have := last.mpr empty; omega
      obtain ⟨rest, rfl⟩ := ends.resolve_left open_
      have front := ih (by omega) (by omega)
      rw [dotted_take_succ i (by omega) (by omega)]
      rw [text] at front ⊢
      exact frontDelimiter_dot _ _ rest i (plain.dotFree _ (getElem_mem _)) front

theorem pathSegment_of_front {rounds : Nat} (free : ∀ name ∈ names, '.' ∉ name) (i : Nat)
    (positive : 0 < i) (below : i < names.length)
    (front : frontDelimiter (dotted names) rounds = (dotted (names.take i)).length) :
    pathSegment (dotted names) rounds = names[i] := by
  obtain ⟨tail, text, ends, -⟩ := @dotted_around names i positive below
  have finish := endDelimiter_dot (dotted (names.take i)) names[i] tail
    (free _ (getElem_mem _)) ends
  have cut : (dotted (names.take i) ++ '.' :: (names[i] ++ tail)).take
      ((dotted (names.take i)).length + 1 + (names[i]).length) =
        dotted (names.take i) ++ '.' :: names[i] := by
    rw [← cons_append, ← append_assoc]
    apply take_left'
    simp only [length_append, length_cons]
    omega
  simp only [pathSegment, front]
  rw [text, finish, cut, if_pos (by simp)]
  simp

theorem pathSegment_dotted (plain : Plain names) (i : Nat) (below : i < names.length) :
    pathSegment (dotted names) i = names[i] := by
  by_cases first : i = 0
  · subst first
    obtain ⟨c, name, tail, head, noDot, free, text, ends, last⟩ := dotted_first plain below
    have finish : endDelimiter (dotted names) 0 = name.length + 1 := by
      rw [endDelimiter, text, drop_succ_cons, drop_zero, index_dot name tail free ends]
      split_ifs with empty
      · simp [empty]
      · rfl
    rw [text] at finish
    simp only [pathSegment, frontDelimiter, text, head, finish]
    simp [noDot]
  · exact pathSegment_of_front plain.dotFree i (by omega) below
      (frontDelimiter_dotted plain i (by omega) below)

/-- The nodes on the way down along the names, the first one included. -/
inductive Descends : Node → List Str → List Node → Prop
  | here (node : Node) : Descends node [] [node]
  | step {node child : Node} {names : List Str} {chain : List Node}
      (member : child ∈ node.child) (rest : Descends child names chain) :
      Descends node (child.name :: names) (node :: chain)

theorem compareNodeName_self (name : Str) : compareNodeName name name = true := by
  simp [compareNodeName]

variable (path : Str) (maxDepth : Nat)

mutual

/-- The nodes that the path leads to. The root is at `depth` one. -/
def visited (depth : Nat) : Node → List Node
  | .mk data child =>
    if depth = 1 ∨ compareNodeName data.name (pathSegment path (depth - 1)) then
      .mk data child ::
        if depth = maxDepth then [] else visitedChildren (depth + 1) (pathSegment path depth) child
    else []

def visitedChildren (depth : Nat) (name : Str) : List Node → List Node
  | [] => []
  | node :: nodes =>
    (if compareNodeName node.name name then visited depth node else []) ++
      visitedChildren depth name nodes

end

def countMatches (leafNodesOnly : Bool) (nodes : List Node) : Nat :=
  nodes.countP (Node.counts leafNodesOnly)

theorem mem_visitedChildren (path : Str) (maxDepth depth : Nat) (name : Str) (nodes : List Node)
    (child node : Node) (member : child ∈ nodes) (named : compareNodeName child.name name = true)
    (seen : node ∈ visited path maxDepth depth child) :
    node ∈ visitedChildren path maxDepth depth name nodes := by
  induction nodes with
  | nil => cases member
  | cons first nodes ih =>
    rw [visitedChildren, mem_append]
    obtain rfl | member := mem_cons.mp member
    · rw [if_pos named]
      exact .inl seen
    · exact .inr (ih member)

theorem visited_eq (path : Str) (maxDepth depth : Nat) (node : Node)
    (enters : depth = 1 ∨ compareNodeName node.name (pathSegment path (depth - 1)) = true) :
    visited path maxDepth depth node = node ::
      if depth = maxDepth then []
      else visitedChildren path maxDepth (depth + 1) (pathSegment path depth) node.child := by
  obtain ⟨data, child⟩ := node
  simp only [Node.name, Node.data] at enters
  rw [visited, if_pos enters]
  rfl

/-- The search looks at every node on the way. The induction is on the way. -/
theorem mem_visited_of_descends (names : List Str) (maxDepth : Nat) (plain : Plain names)
    (short : names.length ≤ maxDepth) {start : Node} {rest : List Str} {chain : List Node}
    (way : Descends start rest chain) (depth : Nat) (positive : 0 < depth)
    (here : depth = 1 ∨ names[depth - 1]? = some start.name) (remaining : names.drop depth = rest)
    (node : Node) (member : node ∈ chain) : node ∈ visited (dotted names) maxDepth depth start := by
  have enters : depth = 1 ∨
      compareNodeName start.name (pathSegment (dotted names) (depth - 1)) = true := by
    obtain root | same := here
    · exact .inl root
    · obtain ⟨below, same⟩ := List.getElem?_eq_some_iff.mp same
      rw [pathSegment_dotted plain _ below, same]
      exact .inr (compareNodeName_self _)
  rw [visited_eq _ _ _ _ enters]
  induction way generalizing depth with
  | here =>
    rw [mem_singleton.mp member]
    exact mem_cons_self
  | @step start child rest chain inside way ih =>
    obtain rfl | member := mem_cons.mp member
    · exact mem_cons_self
    · have next : names[depth]? = some child.name := by
        rw [← head?_drop, remaining]
        rfl
      obtain ⟨below, same⟩ := List.getElem?_eq_some_iff.mp next
      have tail : names.drop (depth + 1) = rest := by
        rw [← tail_drop, remaining]
        rfl
      have segment : compareNodeName child.name (pathSegment (dotted names) depth) = true := by
        rw [pathSegment_dotted plain _ below, same]
        exact compareNodeName_self _
      have deeper := ih (depth + 1) (by omega) (.inr next) tail member (.inr segment)
      rw [← visited_eq _ _ _ _ (.inr segment)] at deeper
      rw [if_neg (by omega)]
      exact mem_cons_of_mem _
        (mem_visitedChildren _ _ _ _ _ _ _ inside segment deeper)

end Vissr.Tree
