import Vissr.Tree.Completeness

/-! The search of a subtree: a path that ends in a wildcard below a branch. -/

namespace Vissr.Tree

open List Option Nat Bool Query Match Node

variable {root : Node} {entry : Match}

theorem preorder_trans (node : Node) (parents : List Node) {entry inner : Match}
    (mem : entry ∈ preorder parents node)
    (inside : inner ∈ preorder entry.ancestors entry.node) : inner ∈ preorder parents node := by
  induction node using Node.induction generalizing parents with
  | step node ih =>
    rw [preorder_eq, preorderBelow_eq] at mem ⊢
    obtain rfl | below := mem_cons.mp mem
    · rwa [← preorderBelow_eq, ← preorder_eq]
    · obtain ⟨child, here, mem⟩ := mem_flatMap.mp below
      exact mem_cons_of_mem _ (mem_flatMap.mpr ⟨child, here, ih child here _ mem⟩)

variable {node : Node} {parents : List Node}

theorem mem_preorderBelow {nodes : List Node} (member : node ∈ nodes) :
    entryOf parents node ∈ preorderBelow parents nodes := by
  rw [preorderBelow_eq]
  refine mem_flatMap.mpr ⟨node, member, ?_⟩
  rw [preorder_eq]
  exact mem_cons_self

theorem part_of_mem {top : Node} {above : List Node} (mem : entry ∈ preorder above top)
    (part : node :: parents <:+ entry.chain) :
    node :: parents <:+ above ∨ entryOf parents node ∈ preorder above top := by
  have self : entryOf above top ∈ preorder above top := by
    rw [preorder_eq]
    exact mem_cons_self
  have found := preorder_induction (P := fun ancestors inner =>
    entryOf ancestors inner ∈ preorder above top ∧ ∀ node parents,
      node :: parents <:+ inner :: ancestors →
        node :: parents <:+ above ∨ entryOf parents node ∈ preorder above top) ?_ ?_ entry mem
  · exact found.1.2 node parents part
  · intro ancestors inner known child inside
    have here : entryOf (inner :: ancestors) child ∈ preorder above top := by
      refine preorder_trans top above known.1 ?_
      simp only [entryOf]
      rw [preorder_eq]
      exact mem_cons_of_mem _ (mem_preorderBelow inside)
    refine ⟨here, ?_⟩
    intro node parents part
    obtain same | shorter := suffix_cons_iff.mp part
    · cases same
      exact .inr here
    · exact known.2 node parents shorter
  · refine ⟨self, ?_⟩
    intro node parents part
    obtain same | shorter := suffix_cons_iff.mp part
    · cases same
      exact .inr self
    · exact .inl shorter

theorem chain_of_mem (mem : entry ∈ root.entries) (node : Node) (parents : List Node)
    (part : node :: parents <:+ entry.chain) : entryOf parents node ∈ root.entries ∧
      ∀ parent rest, parents = parent :: rest → node ∈ parent.child := by
  constructor
  · obtain above | inside := part_of_mem mem part
    · exact absurd (suffix_nil.mp above) (cons_ne_nil _ _)
    · exact inside
  · refine (preorder_induction (P := fun ancestors inner => ∀ node parents,
      node :: parents <:+ inner :: ancestors →
        ∀ parent rest, parents = parent :: rest → node ∈ parent.child) ?_ ?_ entry mem).1
      node parents part
    · intro ancestors inner known child inside node parents part parent rest next
      obtain same | shorter := suffix_cons_iff.mp part
      · cases same
        cases next
        exact inside
      · exact known node parents shorter parent rest next
    · intro node parents part parent rest next
      obtain same | shorter := suffix_cons_iff.mp part
      · cases same
        cases next
      · exact absurd (suffix_nil.mp shorter) (cons_ne_nil _ _)

theorem exists_childless (node : Node) (parents : List Node) :
    ∃ leaf ∈ preorder parents node, leaf.node.child.length = 0 ∧
      parents.length + 1 ≤ leaf.depth := by
  match node with
  | .mk data [] =>
    refine ⟨entryOf parents (.mk data []), ?_, rfl, le_refl _⟩
    rw [preorder]
    exact mem_cons_self
  | .mk data (first :: rest) =>
    obtain ⟨leaf, mem, childless, deep⟩ :=
      exists_childless first (.mk data (first :: rest) :: parents)
    refine ⟨leaf, ?_, childless, ?_⟩
    · rw [preorder, preorderBelow]
      exact mem_cons_of_mem _ (mem_append_left _ mem)
    · rw [length_cons] at deep
      omega

namespace Query

variable {q : Query} {parents : List Node} {node : Node}

theorem reachedBelow_eq_nil {nodes : List Node} (away : ∀ node ∈ nodes,
      compareNodeName node.name (pathSegment q.path parents.length) = false) :
    q.reachedBelow parents nodes = [] := by
  rw [reachedBelow_eq, flatMap_eq_nil_iff]
  intro node mem
  rw [away node mem]
  rfl

theorem reachedBelow_only {nodes : List Node} (distinct : (nodes.map name).Nodup)
    (mem : node ∈ nodes) (segment : pathSegment q.path parents.length = node.name)
    (plain : node.name ≠ "*") : q.reachedBelow parents nodes = q.reached parents node := by
  have others : ∀ other : Node, other.name ≠ node.name →
      compareNodeName other.name (pathSegment q.path parents.length) = false := by
    intro other different
    rw [compareNodeName, segment, decide_eq_false different, decide_eq_false plain]
    rfl
  induction nodes with
  | nil => cases mem
  | cons first nodes ih =>
    rw [map_cons, nodup_cons] at distinct
    rw [reachedBelow]
    obtain rfl | later := mem_cons.mp mem
    · have rest : q.reachedBelow parents nodes = [] := by
        apply reachedBelow_eq_nil
        intro other inside
        apply others
        intro same
        exact distinct.1 (mem_map.mpr ⟨other, inside, same⟩)
      rw [segment, compareNodeName_self, if_pos rfl, rest, append_nil]
    · have different : first.name ≠ node.name := by
        intro same
        exact distinct.1 (mem_map.mpr ⟨node, later, same.symm⟩)
      rw [others first different, ih distinct.2 later]
      rfl

theorem reached_eq_preorder (scope : q.noScopeList = [])
    (shallow : parents.length + node.height ≤ q.maxDepth)
    (way : leads q.path (node :: parents) = true)
    (wild : ∀ i, parents.length < i → pathSegment q.path i = "*") :
    q.reached parents node = preorder parents node := by
  rw [reached_eq_filter scope node parents shallow way, filter_eq_self]
  intro entry mem
  refine (preorder_induction (P := fun ancestors inner => parents.length ≤ ancestors.length ∧
    leads q.path (inner :: ancestors) = true) ?_ ⟨le_refl _, way⟩ entry mem).1.2
  intro ancestors inner known child _
  refine ⟨le_trans known.1 (le_add_right _ _), ?_⟩
  rw [leads_cons q child (cons_ne_nil _ _), known.2,
    wild (inner :: ancestors).length (lt_succ_of_le known.1)]
  simp [compareNodeName]

end Query

variable {top : Match}

def Match.below (top : Match) : Str := top.nodePath ++ ".*"

section

variable (free : root.DotFree) (member : top ∈ root.entries)

include free member

theorem segments_below : segments top.below = top.names ++ ["*".toList] := by
  have some_ : top.names ≠ [] := by simp [names, chain]
  have text : top.below = dotted (top.names ++ ["*".toList]) := by
    rw [dotted_append _ _ some_ (cons_ne_nil _ _), ← nodePath_eq member]
    rfl
  rw [text]
  apply segments_dotted
  · intro name inside
    obtain own | last := mem_append.mp inside
    · rw [← segments_nodePath free member] at own
      exact dotFree_segments _ name own
    · rw [mem_singleton.mp last]
      decide
  · simp

theorem countSegments_below : countSegments top.below = top.depth + 1 := by
  rw [← length_segments, segments_below free member, length_append, length_names]
  rfl

variable (named : root.name ≠ [])

include named

theorem rooted_below : Rooted top.below := by
  obtain ⟨above, chain⟩ := suffix_of_mem member
  obtain ⟨c, rest, name⟩ := exists_cons_of_ne_nil named
  have names : top.names = root.name :: (above.map Node.name).reverse := by
    rw [names, ← chain]
    simp
  obtain ⟨tail, text, _⟩ := dotted_cons_split root.name (above.map Node.name).reverse
  refine ⟨c, rest ++ tail ++ ".*", ?_, ?_⟩
  · rw [below, nodePath_eq member, names, text, name]
    rfl
  · rintro rfl
    have dotFree : '.' ∉ root.name := (all_iff.mp free).1
    rw [name] at dotFree
    exact dotFree mem_cons_self

theorem pathSegment_below (i : Nat) : pathSegment top.below i = (top.names[i]?).getD "*" := by
  have length : top.names.length = top.depth := length_names top
  rw [pathSegment_eq (rooted_below free member named), segmentAt, segments_below free member,
    length_append, length_singleton, Nat.add_sub_cancel]
  by_cases inside : i < top.names.length
  · rw [Nat.min_eq_left (by omega), getElem?_append_left inside, getElem?_eq_getElem inside]
    rfl
  · rw [Nat.min_eq_right (by omega), getElem?_concat_length, getElem?_eq_none (by omega)]
    rfl

theorem wild_below {i : Nat} (deep : top.depth ≤ i) : pathSegment top.below i = "*" := by
  rw [pathSegment_below free member named, getElem?_eq_none (by rw [length_names]; exact deep)]
  rfl

theorem stars_above (plain : root.All fun data => data.name ≠ "*") {depth : Nat}
    (high : depth ≤ top.depth) : (signalQuery top.below).stars depth = 0 := by
  induction depth with
  | zero => rfl
  | succ depth ih =>
    have inside : depth < top.names.length := by
      rw [length_names]
      omega
    have other : pathSegment top.below depth ≠ "*" := by
      rw [pathSegment_below free member named, getElem?_eq_getElem inside]
      have name := getElem_mem inside
      obtain ⟨node, which, same⟩ := mem_map.mp (mem_reverse.mp name)
      rw [getD_some, ← same]
      exact all_chain plain member node which
    rw [stars, ih (by omega), zero_add]
    exact if_neg other

theorem not_fails_below (plain : root.All fun data => data.name ≠ "*")
    (shallow : root.height ≤ 20) {entry : Match} (reached : entry ∈ (signalQuery top.below).reached [] root) :
    ¬ (signalQuery top.below).Fails entry := by
  intro fails
  have deep : top.depth < entry.depth := by
    by_contra high
    have zero := stars_above free member named plain (not_lt.mp high)
    have level := fails.1
    rw [levelOf, zero] at level
    omega
  have inTree := (reached_sublist [] root).mem reached
  have bottom := height_of_mem inTree
  have most : (signalQuery top.below).maxDepth = 100 := rfl
  have all : (signalQuery top.below).reached entry.ancestors entry.node =
      preorder entry.ancestors entry.node := by
    refine reached_eq_preorder rfl ?_ (leads_of_mem rfl reached) ?_
    · simp only [length_nil] at bottom
      omega
    · intro i below
      simp only [depth] at deep
      exact wild_below free member named (by simp only [depth]; omega)
  obtain ⟨leaf, inside, childless, low⟩ := exists_childless entry.node entry.ancestors
  have early := fails.2 leaf (by rw [all]; exact inside)
  have count := countSegments_below free member
  have end_ : countSegments top.below ≤ leaf.ancestors.length + 1 := by
    simp only [depth] at deep low count
    omega
  have same : countSegments (signalQuery top.below).path = countSegments top.below := rfl
  simp [lands, childless, same, end_] at early

theorem leads_below : leads top.below top.chain = true := by
  rw [leads_iff]
  intro i name _ at_
  have found : top.names[i]? = some name := at_
  rw [pathSegment_below free member named, found]
  exact compareNodeName_self name

theorem segment_of_part {node : Node} {parents : List Node}
    (part : node :: parents <:+ top.chain) : pathSegment top.below parents.length = node.name := by
  obtain ⟨lower, chain⟩ := part
  have names : top.names = (parents.map name).reverse ++
      (node.name :: (lower.map name).reverse) := by
    rw [names, ← chain]
    simp
  have at_ : top.names[parents.length]? = some node.name := by
    rw [names, getElem?_append_right (by simp)]
    simp
  rw [pathSegment_below free member named, at_]
  rfl

end

/-- Its paths name its nodes, and only branches have children. -/
structure Regular (root : Node) : Prop where
  dotFree : root.DotFree
  plain : root.All fun data => data.name ≠ "*"
  distinct : ∀ entry ∈ root.entries, (entry.node.child.map name).Nodup
  branches : ∀ entry ∈ root.entries, entry.node.child ≠ [] → entry.node.data.nodeType = .branch
  shallow : root.height ≤ 20

theorem goes_below {q : Query} (scope : q.noScopeList = []) (most : q.maxDepth = 100)
    (high : (node :: parents).length ≤ 20) : ¬ q.Stops (node :: parents) := by
  apply not_stops scope
  omega

theorem matching_branch {path : Str} {below : List Match}
    (isBranch : node.data.nodeType = .branch) :
    (signalQuery path).matching (entryOf parents node :: below) =
      (signalQuery path).matching below := by
  have idle : ¬ node.counts (signalQuery path).leafNodesOnly = true := by
    have leaves : (signalQuery path).leafNodesOnly = true := rfl
    rw [leaves, counts, isBranch]
    decide
  rw [matching_cons, matching_idle _ idle, nil_append]

def Match.signals (top : Match) : List Match :=
  (preorderBelow top.chain top.node.child).filter fun entry =>
    entry.node.data.nodeType ≠ .branch

section

variable (tree : Regular root) (named : root.name ≠ []) (member : top ∈ root.entries)
  (isBranch : top.node.data.nodeType = .branch)

include tree named member isBranch

theorem matching_reached_top : (signalQuery top.below).matching
      ((signalQuery top.below).reached top.ancestors top.node) = top.signals := by
  have bottom := height_of_mem member
  have shallow := tree.shallow
  have most : (signalQuery top.below).maxDepth = 100 := rfl
  have all : (signalQuery top.below).reached top.ancestors top.node =
      preorder top.ancestors top.node := by
    refine reached_eq_preorder rfl ?_ (leads_below tree.dotFree member named) ?_
    · simp only [length_nil] at bottom
      omega
    · intro i below
      exact wild_below tree.dotFree member named below
  rw [all, preorder_eq, matching_branch isBranch, matching, signals]
  refine filter_congr fun entry _ => ?_
  have leaves : (signalQuery top.below).leafNodesOnly = true := rfl
  simp [counts, leaves]

/-- The search comes through branches only. The induction goes up to the root. -/
theorem matching_reached_part (n : Nat) (node : Node) (parents : List Node) (part : node :: parents <:+ top.chain)
    (distance : (node :: parents).length + n = top.depth) :
    (signalQuery top.below).matching ((signalQuery top.below).reached parents node) =
      top.signals := by
  induction n generalizing node parents with
  | zero =>
    have same : node :: parents = top.node :: top.ancestors := part.eq_of_length distance
    cases same
    exact matching_reached_top tree named member isBranch
  | succ n ih =>
    obtain ⟨lower, chain⟩ := part
    have some_ : lower ≠ [] := by
      rintro rfl
      have length := congrArg length chain
      simp only [Match.chain, Match.depth, nil_append, length_cons] at length distance
      omega
    obtain rfl | ⟨before, child, rfl⟩ := eq_nil_or_concat lower
    · exact absurd rfl some_
    · have next : child :: node :: parents <:+ top.chain := ⟨before, by
        rw [← chain, concat_eq_append, append_assoc]
        rfl⟩
      have inside := (chain_of_mem member child (node :: parents) next).2 node parents rfl
      have here := (chain_of_mem member node parents ⟨_, chain⟩).1
      have branch : node.data.nodeType = .branch := tree.branches _ here (ne_nil_of_mem inside)
      have deep := depth_le_of_mem here
      have shallow := tree.shallow
      have goes : ¬ (signalQuery top.below).Stops (node :: parents) := goes_below rfl rfl (by
          simp only [depth, entryOf, length_nil, length_cons] at deep ⊢
          omega)
      have plain : child.name ≠ "*" := all_chain tree.plain member child (next.subset mem_cons_self)
      have distinct : (node.child.map name).Nodup := tree.distinct _ here
      have only : (signalQuery top.below).reachedBelow (node :: parents) node.child =
          (signalQuery top.below).reached (node :: parents) child :=
        reachedBelow_only distinct inside
          (segment_of_part tree.dotFree member named next) plain
      rw [reached_eq, if_neg goes, matching_branch branch, only]
      refine ih child (node :: parents) next ?_
      simp only [length_cons] at distance ⊢
      omega

end

/-- The search returns the signals of a branch, each once and in order. -/
theorem subtree_search_exact (root : Node) (top : Match) (tree : Regular root)
    (few : root.entries.length < maxFoundNodes - 1) (named : root.name ≠ [])
    (member : top ∈ root.entries) (isBranch : top.node.data.nodeType = .branch) : ∃ validation,
      vssSearchNodes (top.nodePath ++ ".*") root true true [] =
        some ((preorderBelow top.chain top.node.child).filter fun entry =>
          entry.node.data.nodeType ≠ .branch, validation) := by
  have succeed := fun entry => @not_fails_below root top tree.dotFree member named
    tree.plain tree.shallow entry
  have unspoiled : Unspoiled top.below root := by
    apply pairwise_of_forall_mem_list
    intro entry _ deadEnd reached spoils
    exact succeed deadEnd reached spoils.fails.1
  rcases vssSearchNodes_kept (rooted_below tree.dotFree member named).ne_nil tree.dotFree
    tree.shallow few unspoiled with ⟨validation, searched⟩
  refine ⟨validation, ?_⟩
  have part : root :: [] <:+ top.chain := suffix_of_mem member
  have distance : (root :: []).length + top.ancestors.length = top.depth := add_comm _ _
  rw [kept_eq_matching succeed,
    matching_reached_part tree named member isBranch _ root [] part distance] at searched
  exact searched

theorem regular_of_checks (dotFree : root.DotFree)
    (plain : root.All fun data => data.name ≠ "*") (shallow : root.height ≤ 20)
    (checked : root.entries.all (fun entry => decide (entry.node.child.map name).Nodup &&
        (entry.node.child.length = 0 || entry.node.data.nodeType = .branch)) = true) :
    Regular root := by
  refine ⟨dotFree, plain, ?_, ?_, shallow⟩
  · intro entry mem
    have known := all_eq_true.mp checked entry mem
    rw [and_eq_true] at known
    exact of_decide_eq_true known.1
  · intro entry mem some_
    have known := all_eq_true.mp checked entry mem
    rw [and_eq_true, or_eq_true, decide_eq_true_iff, decide_eq_true_iff,
      decide_eq_true_iff, length_eq_zero_iff] at known
    exact known.2.resolve_left some_

theorem regular_branches : Regular branchesTree := by
  refine regular_of_checks ?_ ?_ (by decide) (by decide +kernel)
  · simp [branchesTree, Node.DotFree, Node.All, allNodes]
  · simp [branchesTree, Node.All, allNodes]

theorem subtree_search_exact_branches :
    (Regular branchesTree ∧ branchesTree.entries.length < maxFoundNodes - 1 ∧
      branchesTree.name ≠ []) ∧ ∃ validation,
        vssSearchNodes ((entryOf [] branchesTree).nodePath ++ ".*") branchesTree true true
            [] = some ((preorderBelow (entryOf [] branchesTree).chain branchesTree.child).filter
            fun entry => entry.node.data.nodeType ≠ .branch, validation) := by
  have few : branchesTree.entries.length < maxFoundNodes - 1 := by decide
  have named : branchesTree.name ≠ [] := by decide
  have member : entryOf [] branchesTree ∈ branchesTree.entries := by
    rw [entries, preorder_eq]
    exact mem_cons_self
  exact ⟨⟨regular_branches, few, named⟩,
    subtree_search_exact branchesTree (entryOf [] branchesTree) regular_branches few named member
      rfl⟩

def firstBranch : Node :=
  .mk { name := "A", nodeType := .branch } [.mk { name := "X", nodeType := .sensor } []]

def namelessTree : Node := .mk { name := [], nodeType := .branch }
    [firstBranch,
      .mk { name := "B", nodeType := .branch } [.mk { name := "Y", nodeType := .sensor } []]]

theorem regular_nameless : Regular namelessTree := by
  refine regular_of_checks ?_ ?_ (by decide) (by decide +kernel)
  · simp [namelessTree, firstBranch, Node.DotFree, Node.All, allNodes]
  · simp [namelessTree, firstBranch, Node.All, allNodes]

/-- Below a root without a name the second segment is passed over: the search below A returns the
signal of B. -/
theorem subtree_search_nameless :
    (Regular namelessTree ∧ namelessTree.entries.length < maxFoundNodes - 1) ∧
      ∃ top ∈ namelessTree.entries, top.node.data.nodeType = .branch ∧
        ¬ ∃ validation, vssSearchNodes (top.nodePath ++ ".*") namelessTree true true [] =
          some ((preorderBelow top.chain top.node.child).filter fun entry =>
            entry.node.data.nodeType ≠ .branch, validation) := by
  refine ⟨⟨regular_nameless, by decide⟩, entryOf [namelessTree] firstBranch, ?_, rfl, ?_⟩
  · rw [entries, preorder_eq]
    exact mem_cons_of_mem _ (mem_preorderBelow mem_cons_self)
  · intro exact_
    obtain ⟨validation, searched⟩ := exact_
    have returned : (vssSearchNodes ((entryOf [namelessTree] firstBranch).nodePath ++ ".*")
        namelessTree true true []).map (fun result => result.1.map nodePath) =
          some [".A.X".toList, ".B.Y".toList] := by
      decide +kernel
    have one : (((preorderBelow (entryOf [namelessTree] firstBranch).chain
        firstBranch.child).filter fun entry => entry.node.data.nodeType ≠ .branch).map
          nodePath) = [".A.X"] := by
      decide +kernel
    rw [searched] at returned
    have both := some.inj returned
    exact absurd (one.symm.trans both) (by decide)

end Vissr.Tree
