import Vissr.Tree.Segments

/-! The nodes of a tree in preorder, each with its ancestors, and those that a search leads to. -/

namespace Vissr.Tree

open List Nat Bool Node

def pathOf (chain : List Node) : Str := dotted (chain.map name).reverse

def entryOf (parents : List Node) (node : Node) : Match := ⟨pathOf (node :: parents), node, parents⟩

namespace Match

variable (entry : Match)

def depth : Nat := entry.ancestors.length + 1

def chain : List Node := entry.node :: entry.ancestors

def names : List Str := (entry.chain.map name).reverse

end Match

mutual

def preorder (parents : List Node) : Node → List Match
  | .mk data child =>
    entryOf parents (.mk data child) :: preorderBelow (.mk data child :: parents) child

def preorderBelow (parents : List Node) : List Node → List Match
  | [] => []
  | node :: nodes => preorder parents node ++ preorderBelow parents nodes

end

mutual

def Node.height : Node → Nat
  | .mk _ child => heightBelow child + 1

def heightBelow : List Node → Nat
  | [] => 0
  | node :: nodes => max node.height (heightBelow nodes)

end

def Node.entries (root : Node) : List Match := preorder [] root

theorem preorder_eq (parents : List Node) (node : Node) :
    preorder parents node = entryOf parents node :: preorderBelow (node :: parents) node.child := by
  cases node
  rw [preorder]
  rfl

theorem height_eq (node : Node) : node.height = heightBelow node.child + 1 := by
  cases node
  rw [height]
  rfl

theorem pathOf_cons (node : Node) {parents : List Node} (some_ : parents ≠ []) :
    pathOf (node :: parents) = pathOf parents ++ '.' :: node.name := by
  simp only [pathOf, map_cons, reverse_cons]
  rw [dotted_append]
  · rfl
  · simpa using some_
  · exact cons_ne_nil _ _

theorem popPathSegment_append (path : Str) {name : Str} (free : '.' ∉ name) :
    popPathSegment (path ++ '.' :: name) = path := by
  have skip : (name.reverse ++ '.' :: path.reverse).dropWhile (· ≠ '.') = '.' :: path.reverse := by
    rw [dropWhile_append_of_pos]
    · simp
    · intro c mem
      have inside := mem_reverse.mp mem
      have other : c ≠ '.' := by
        rintro rfl
        exact free inside
      simpa using other
  rw [popPathSegment, beforeLast, if_pos (by simp), reverse_append, reverse_cons,
    append_assoc, singleton_append, skip]
  simp

theorem popPathSegment_name {name : Str} (free : '.' ∉ name) : popPathSegment name = [] := by
  rw [popPathSegment, beforeLast, if_neg free, Option.getD_none]

theorem popPathSegment_pathOf {node : Node} (parents : List Node) (free : '.' ∉ node.name) :
    popPathSegment (pathOf (node :: parents)) = pathOf parents := by
  cases parents with
  | nil => exact popPathSegment_name free
  | cons => rw [pathOf_cons node (cons_ne_nil _ _), popPathSegment_append _ free]

theorem Node.induction {P : Node → Prop}
    (step : ∀ node : Node, (∀ child ∈ node.child, P child) → P node) : ∀ node, P node
  | .mk data child => step (.mk data child) (below child)
where
  below : ∀ nodes : List Node, ∀ node ∈ nodes, P node
    | [] => nofun
    | first :: nodes => fun node mem =>
        match mem_cons.mp mem with
        | .inl same => same ▸ Node.induction step first
        | .inr later => below nodes node later

theorem preorderBelow_eq (parents nodes : List Node) :
    preorderBelow parents nodes = nodes.flatMap (preorder parents) := by
  induction nodes with
  | nil => rfl
  | cons node nodes ih => rw [preorderBelow, ih, flatMap_cons]

theorem preorder_induction {P : List Node → Node → Prop}
    (down : ∀ parents node, P parents node → ∀ child ∈ node.child, P (node :: parents) child)
    {parents : List Node} {node : Node} (holds : P parents node) : ∀ entry ∈ preorder parents node,
      P entry.ancestors entry.node ∧ entry = entryOf entry.ancestors entry.node := by
  induction node using Node.induction generalizing parents with
  | step node ih =>
    intro entry mem
    rw [preorder_eq, preorderBelow_eq] at mem
    obtain rfl | below := mem_cons.mp mem
    · exact ⟨holds, rfl⟩
    · obtain ⟨child, inside, mem⟩ := mem_flatMap.mp below
      exact ih child inside (down parents node holds child inside) entry mem

variable {parents : List Node} {node : Node} {entry : Match}

section

variable (member : entry ∈ preorder parents node)

include member

theorem entry_eq : entry = entryOf entry.ancestors entry.node :=
  (preorder_induction (P := fun _ _ => True) (fun _ _ _ _ _ => trivial) trivial entry member).2

theorem nodePath_eq : entry.nodePath = dotted entry.names :=
  congrArg Match.nodePath (entry_eq member)

theorem suffix_of_mem : node :: parents <:+ entry.chain := by
  refine (preorder_induction (P := fun ancestors inner => node :: parents <:+ inner :: ancestors)
    ?_ (suffix_refl _) entry member).1
  intro ancestors inner known child _
  exact known.trans (suffix_cons _ _)

theorem suffix_ancestors_of_mem : parents <:+ entry.ancestors := by
  rcases suffix_cons_iff.mp (suffix_of_mem member) with same | above
  · rw [(cons.inj same).2]
  · exact (suffix_cons _ _).trans above

end

variable {p : NodeData → Prop}

theorem allNodes_iff {nodes : List Node} : allNodes p nodes ↔ ∀ node ∈ nodes, node.All p := by
  induction nodes with
  | nil => simp [allNodes]
  | cons node nodes ih => simp [allNodes, ih]

theorem all_iff : node.All p ↔ p node.data ∧ ∀ child ∈ node.child, child.All p := by
  cases node
  rw [Node.All, allNodes_iff]
  rfl

theorem all_of_mem (all : node.All p) (mem : entry ∈ preorder parents node) :
    p entry.node.data := by
  have found := preorder_induction (P := fun _ inner => inner.All p)
    (fun _ inner known child inside => (all_iff.mp known).2 child inside) all entry mem
  exact (all_iff.mp found.1).1

theorem all_chain (all : node.All p) (member : entry ∈ preorder [] node) :
    ∀ inner ∈ entry.chain, p inner.data := by
  have found := preorder_induction
    (P := fun ancestors inner => inner.All p ∧ ∀ above ∈ ancestors, p above.data)
    (by
      intro ancestors inner known child inside
      refine ⟨(all_iff.mp known.1).2 child inside, ?_⟩
      exact forall_mem_cons.mpr ⟨(all_iff.mp known.1).1, known.2⟩)
    ⟨all, fun above member => by cases member⟩ entry member
  exact forall_mem_cons.mpr ⟨(all_iff.mp found.1.1).1, found.1.2⟩

theorem height_le_of_mem {nodes : List Node} (member : node ∈ nodes) :
    node.height ≤ heightBelow nodes := by
  induction nodes with
  | nil => cases member
  | cons first nodes ih =>
    rw [heightBelow]
    obtain rfl | member := mem_cons.mp member
    · exact le_max_left _ _
    · exact le_trans (ih member) (le_max_right _ _)

theorem height_of_mem (mem : entry ∈ preorder parents node) :
    entry.ancestors.length + entry.node.height ≤ parents.length + node.height := by
  refine (preorder_induction
    (P := fun ancestors inner => ancestors.length + inner.height ≤ parents.length + node.height)
    ?_ (le_refl _) entry mem).1
  intro ancestors inner known child inside
  have lower := height_le_of_mem inside
  rw [height_eq] at known
  simp only [length_cons]
  omega

theorem depth_le_of_mem (mem : entry ∈ preorder parents node) :
    entry.depth ≤ parents.length + node.height := by
  have bound := height_of_mem mem
  have positive := height_eq entry.node
  simp only [Match.depth]
  omega

structure Query where
  path : Str
  maxDepth : Nat
  leafNodesOnly : Bool
  noScopeList : List Str

def SearchContext.query (context : SearchContext) : Query :=
  ⟨context.searchPath, context.maxDepth, context.leafNodesOnly, context.noScopeList⟩

def queryOf (path : Str) (anyDepth leafNodesOnly : Bool) (noScopeList : List Str) : Query :=
  (initContext path anyDepth leafNodesOnly noScopeList).query

namespace Query

variable (q : Query)

def Stops (chain : List Node) : Prop := chain.length = q.maxDepth ∨ pathOf chain ∈ q.noScopeList
  deriving Decidable

theorem not_stops {q : Query} {chain : List Node} (scope : q.noScopeList = [])
    (deeper : chain.length ≠ q.maxDepth) : ¬ q.Stops chain := by
  rw [Stops, scope]
  exact not_or.mpr ⟨deeper, not_mem_nil⟩

mutual

/-- The nodes at or below a node that the search leads to. -/
def reached (parents : List Node) : Node → List Match
  | .mk data child =>
    entryOf parents (.mk data child) ::
      if q.Stops (.mk data child :: parents) then []
      else reachedBelow (.mk data child :: parents) child

def reachedBelow (parents : List Node) : List Node → List Match
  | [] => []
  | node :: nodes =>
    (if compareNodeName node.name (pathSegment q.path parents.length) then reached parents node
    else []) ++ reachedBelow parents nodes

end

theorem reached_eq (parents : List Node) (node : Node) :
    q.reached parents node = entryOf parents node ::
      if q.Stops (node :: parents) then [] else q.reachedBelow (node :: parents) node.child := by
  cases node
  rw [reached]
  rfl

theorem reachedBelow_eq (parents nodes : List Node) : q.reachedBelow parents nodes =
      nodes.flatMap fun node =>
        if compareNodeName node.name (pathSegment q.path parents.length) then q.reached parents node
        else [] := by
  induction nodes with
  | nil => rfl
  | cons node nodes ih => rw [reachedBelow, ih, flatMap_cons]

def leads (path : Str) : List Node → Bool
  | node :: parent :: rest =>
    compareNodeName node.name (pathSegment path (parent :: rest).length) &&
      leads path (parent :: rest)
  | _ => true

theorem leads_cons (node : Node) (some_ : parents ≠ []) : leads q.path (node :: parents) =
      (compareNodeName node.name (pathSegment q.path parents.length) && leads q.path parents) := by
  cases parents with
  | nil => exact absurd rfl some_
  | cons => rfl

theorem leads_iff (path : Str) (chain : List Node) : leads path chain = true ↔ ∀ i name, 1 ≤ i →
      (chain.map Node.name).reverse[i]? = some name →
        compareNodeName name (pathSegment path i) = true := by
  induction chain with
  | nil => simp [leads]
  | cons node parents ih =>
    cases parents with
    | nil =>
      refine iff_of_true rfl ?_
      intro i name positive at_
      rw [getElem?_eq_none (by simpa using positive)] at at_
      cases at_
    | cons parent rest =>
      have length : ((parent :: rest).map name).reverse.length = rest.length + 1 := by simp
      have split : ((node :: parent :: rest).map name).reverse =
          ((parent :: rest).map name).reverse ++ [node.name] := by simp
      rw [leads, and_eq_true, ih, split]
      generalize ((parent :: rest).map name).reverse = names at length ⊢
      constructor
      · intro known i name positive at_
        by_cases before : i < names.length
        · rw [getElem?_append_left before] at at_
          exact known.2 i name positive at_
        · rw [getElem?_append_right (by omega)] at at_
          obtain ⟨below, same⟩ := List.getElem?_eq_some_iff.mp at_
          rw [length_singleton] at below
          rw [getElem_singleton] at same
          rw [← same, show i = rest.length + 1 by omega]
          exact known.1
      · intro all
        refine ⟨all (rest.length + 1) node.name (by omega) ?_, ?_⟩
        · rw [← length, getElem?_concat_length]
        · intro i name positive at_
          apply all i name positive
          rw [List.getElem?_append_left (List.getElem?_eq_some_iff.mp at_).1]
          exact at_

variable {q}

theorem reached_induction {P : List Node → Node → Prop}
    (down : ∀ parents node, P parents node → ¬ q.Stops (node :: parents) → ∀ child ∈ node.child,
      compareNodeName child.name (pathSegment q.path (node :: parents).length) = true →
        P (node :: parents) child) {parents : List Node} {node : Node} (holds : P parents node) :
    ∀ entry ∈ q.reached parents node, P entry.ancestors entry.node := by
  induction node using Node.induction generalizing parents with
  | step node ih =>
    intro entry mem
    rw [reached_eq, reachedBelow_eq] at mem
    obtain rfl | below := mem_cons.mp mem
    · exact holds
    · split_ifs at below with stops
      · cases below
      · obtain ⟨child, inside, mem⟩ := mem_flatMap.mp below
        split_ifs at mem with named
        · exact ih child inside (down parents node holds stops child inside named) entry mem
        · cases mem

theorem reached_sublist (parents : List Node) (node : Node) :
    (q.reached parents node).Sublist (preorder parents node) := by
  induction node using Node.induction generalizing parents with
  | step node ih =>
    rw [reached_eq, preorder_eq, reachedBelow_eq, preorderBelow_eq]
    refine List.Sublist.cons_cons _ ?_
    split_ifs
    · exact nil_sublist _
    · refine Sublist.flatMap_right _ fun child inside => ?_
      split_ifs
      · exact ih child inside _
      · exact nil_sublist _

theorem mem_reachedBelow {nodes : List Node} (inside : node ∈ nodes)
    (named : compareNodeName node.name (pathSegment q.path parents.length) = true)
    (mem : entry ∈ q.reached parents node) : entry ∈ q.reachedBelow parents nodes := by
  rw [reachedBelow_eq]
  exact mem_flatMap.mpr ⟨node, inside, by rwa [if_pos named]⟩

theorem leads_of_mem (way : leads q.path (node :: parents) = true)
    (mem : entry ∈ q.reached parents node) : leads q.path entry.chain = true := by
  refine reached_induction (P := fun ancestors inner => leads q.path (inner :: ancestors) = true)
    ?_ way entry mem
  intro ancestors inner known _ child _ named
  rw [leads_cons q child (cons_ne_nil _ _), named, known]
  rfl

theorem leads_of_suffix {chain chain' : List Node} (way : leads q.path chain = true)
    (suffix : chain' <:+ chain) : leads q.path chain' = true := by
  induction chain with
  | nil =>
    rw [suffix_nil.mp suffix]
    rfl
  | cons node chain ih =>
    obtain rfl | shorter := suffix_cons_iff.mp suffix
    · exact way
    · cases chain with
      | nil =>
        rw [suffix_nil.mp shorter]
        rfl
      | cons =>
        rw [leads_cons q node (cons_ne_nil _ _), and_eq_true] at way
        exact ih way.2 shorter

/-- The search goes on below each of the nodes. -/
def passes (q : Query) : List Node → Bool
  | [] => true
  | node :: parents => !decide (q.Stops (node :: parents)) && passes q parents

theorem passes_of_suffix {chain chain' : List Node} (goes : q.passes chain = true)
    (suffix : chain' <:+ chain) : q.passes chain' = true := by
  induction chain with
  | nil =>
    rw [suffix_nil.mp suffix]
    rfl
  | cons node chain ih =>
    rcases suffix_cons_iff.mp suffix with rfl | shorter
    · exact goes
    · rw [passes, and_eq_true] at goes
      exact ih goes.2 shorter

theorem passes_of_short (scope : q.noScopeList = []) {chain : List Node}
    (short : chain.length < q.maxDepth) : q.passes chain = true := by
  induction chain with
  | nil => rfl
  | cons node chain ih =>
    rw [passes, ih (lt_of_succ_lt short), decide_eq_false (not_stops scope short.ne)]
    rfl

/-- What the path leads to and nothing above keeps the search from. -/
theorem reached_eq_filter_passes (node : Node) (parents : List Node)
    (way : leads q.path (node :: parents) = true) (goes : q.passes parents = true) :
    q.reached parents node = (preorder parents node).filter fun entry =>
      leads q.path entry.chain && q.passes entry.ancestors := by
  induction node using Node.induction generalizing parents with
  | step node ih =>
    have first : (leads q.path (entryOf parents node).chain &&
        q.passes (entryOf parents node).ancestors) = true := and_eq_true _ _ ▸ ⟨way, goes⟩
    rw [reached_eq, preorder_eq, preorderBelow_eq, filter_cons, if_pos first, filter_flatMap]
    congr 1
    split_ifs with stops
    · refine (flatMap_eq_nil_iff.mpr fun child inside => filter_eq_nil_iff.mpr ?_).symm
      intro entry mem kept
      rw [and_eq_true] at kept
      have above : node :: parents <:+ entry.ancestors := suffix_ancestors_of_mem mem
      have open_ := passes_of_suffix kept.2 above
      rw [passes, decide_eq_true stops] at open_
      cases open_
    · rw [reachedBelow_eq]
      refine flatMap_congr fun child inside => ?_
      have next := leads_cons q child (cons_ne_nil node parents)
      rw [way, Bool.and_true] at next
      split_ifs with named
      · refine ih child inside _ (next.trans named) ?_
        rw [passes, goes, decide_eq_false stops]
        rfl
      · refine (filter_eq_nil_iff.mpr ?_).symm
        intro entry mem kept
        rw [and_eq_true] at kept
        rw [leads_of_suffix kept.1 (suffix_of_mem mem)] at next
        exact named next.symm

theorem reached_eq_filter (scope : q.noScopeList = []) (node : Node) (parents : List Node)
    (shallow : parents.length + node.height ≤ q.maxDepth)
    (way : leads q.path (node :: parents) = true) : q.reached parents node =
      (preorder parents node).filter fun entry => leads q.path entry.chain := by
  have short : parents.length < q.maxDepth := by
    rw [height_eq] at shallow
    omega
  rw [reached_eq_filter_passes node parents way (passes_of_short scope short)]
  refine filter_congr fun entry mem => ?_
  have deep := depth_le_of_mem mem
  rw [passes_of_short scope (lt_of_lt_of_le (lt_succ_self _) (deep.trans shallow)), Bool.and_true]

def star (depth : Nat) : Nat := if pathSegment q.path depth = "*" then 1 else 0

def stars : Nat → Nat
  | 0 => 0
  | depth + 1 => stars depth + q.star depth

theorem star_le (depth : Nat) : q.star depth ≤ 1 := by
  rw [star]
  split_ifs <;> omega

theorem stars_le (depth : Nat) : q.stars depth ≤ depth := by
  induction depth with
  | zero => exact le_refl _
  | succ depth =>
    have one := q.star_le depth
    rw [stars]
    omega

theorem stars_mono {depth depth' : Nat} (less : depth ≤ depth') :
    q.stars depth ≤ q.stars depth' := by
  induction less with
  | refl => exact le_refl _
  | step less ih => exact le_trans ih (le_add_right _ _)

end Query

end Vissr.Tree
