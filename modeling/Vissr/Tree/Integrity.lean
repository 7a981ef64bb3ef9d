import Vissr.Tree.Returns

/-! What every search keeps: its matches are nodes the path leads to, in order, as many as counted. -/

namespace Vissr.Tree

open List Option Query

/-- A journal has got further entries of a list, in its order. -/
structure Grows (added : List Match) (j j' : Journal Match) : Prop where
  slots : j'.counts.length = j.counts.length
  backed : j.Backed → j'.Backed
  room : j.entries.length ≤ maxFoundNodes - 1 → j'.entries.length ≤ maxFoundNodes - 1
  entries : j'.entries.Sublist (added.reverse ++ j.entries)

namespace Grows

variable {added more : List Match} {j j' j'' : Journal Match}

theorem refl (j : Journal Match) : Grows [] j j := ⟨rfl, id, id, List.Sublist.refl _⟩

theorem trans (first : Grows added j j') (second : Grows more j' j'') :
    Grows (added ++ more) j j'' where
  slots := second.slots.trans first.slots
  backed := fun known => second.backed (first.backed known)
  room := fun known => second.room (first.room known)
  entries := by
    rw [reverse_append, append_assoc]
    exact second.entries.trans (List.Sublist.append_left first.entries _)

theorem widen (grows : Grows added j j') (among : added.Sublist more) : Grows more j j' where
  slots := grows.slots
  backed := grows.backed
  room := grows.room
  entries := grows.entries.trans (List.Sublist.append_right among.reverse _)

theorem of_push {level : Nat} {entry : Match} (pushed : j.push level entry = some j')
    (room : j.entries.length ≠ maxFoundNodes - 1) : Grows [entry] j j' := by
  obtain ⟨_, entries, slots, backed⟩ := Journal.push_cases pushed
  refine ⟨slots, backed, ?_, ?_⟩
  · intro limit
    rw [entries, length_cons]
    omega
  · rw [entries]
    exact List.Sublist.refl _

theorem of_settle {level : Nat} {failed : Bool} (settled : j.settle level failed = some j') :
    Grows [] j j' := by
  obtain ⟨_, _, slots, backed⟩ := Journal.settle_cases settled
  have shorter := Journal.settle_sublist settled
  exact ⟨slots, backed, fun limit => Nat.le_trans shorter.length_le limit, shorter⟩

end Grows

def Node.DotFree (node : Node) : Prop := node.All fun data => '.' ∉ data.name

namespace Query

variable (q : Query)

def matching (entries : List Match) : List Match :=
  entries.filter fun entry => entry.node.counts q.leafNodesOnly

theorem matching_nil : q.matching [] = [] := rfl

theorem matching_counts {parents : List Node} {node : Node}
    (counts : node.counts q.leafNodesOnly = true) :
    q.matching [entryOf parents node] = [entryOf parents node] :=
  filter_cons_of_pos counts

theorem matching_idle {parents : List Node} {node : Node}
    (idle : ¬ node.counts q.leafNodesOnly = true) : q.matching [entryOf parents node] = [] :=
  filter_cons_of_neg idle

theorem matching_cons (entry : Match) (entries : List Match) :
    q.matching (entry :: entries) = q.matching [entry] ++ q.matching entries :=
  filter_append [entry] entries

theorem matching_append (entries more : List Match) :
    q.matching (entries ++ more) = q.matching entries ++ q.matching more :=
  filter_append entries more

theorem matching_sublist (entries : List Match) : (q.matching entries).Sublist entries :=
  filter_sublist

section Steps

variable {q} {parents : List Node} {node : Node} {p p' : Progress}

theorem recorded_grows (recorded : q.recorded parents node p = some p')
    (room : p.journal.entries.length ≠ maxFoundNodes - 1) :
    Grows (q.matching [entryOf parents node]) p.journal p'.journal := by
  rw [Query.recorded] at recorded
  split_ifs at recorded with counts
  · obtain ⟨journal, pushed, rfl⟩ := map_eq_some_iff.mp recorded
    rw [q.matching_counts counts]
    exact Grows.of_push pushed room
  · cases recorded
    rw [q.matching_idle counts]
    exact Grows.refl _

theorem leave_grows (free : '.' ∉ node.name) {part succeeded : Nat} {after : SearchContext}
    (left : leave (q.context (node :: parents) p, part) = some (after, succeeded)) :
    ∃ p', after = q.context parents p' ∧ Grows [] p.journal p'.journal := by
  rw [leave_context free] at left
  obtain ⟨journal, settled, same⟩ := map_eq_some_iff.mp left
  cases same
  exact ⟨_, rfl, Grows.of_settle settled⟩

end Steps

mutual

theorem traverseNode_grows (node : Node) (parents : List Node) (p : Progress)
    (free : node.DotFree) (enters : q.Enters parents node) (after : SearchContext) (succeeded : Nat)
    (searched : traverseNode parents node (q.context parents p) = some (after, succeeded)) :
    ∃ p', after = q.context parents p' ∧
      Grows (q.matching (q.reached parents node)) p.journal p'.journal := by
  have dotFree := (all_iff.mp free).1
  rw [q.traverseNode_context p enters] at searched
  by_cases full : p.full = true
  · rw [if_pos full] at searched
    obtain ⟨p', same, grows⟩ := leave_grows dotFree searched
    exact ⟨p', same, grows.widen (nil_sublist _)⟩
  · rw [if_neg full] at searched
    obtain ⟨first, recorded, goes⟩ := bind_eq_some_iff.mp searched
    obtain ⟨⟨inner, part⟩, below, left⟩ := bind_eq_some_iff.mp goes
    have own := recorded_grows recorded fun same => full (decide_eq_true same)
    rw [reached_eq, matching_cons]
    split_ifs at below ⊢
    · cases below
      obtain ⟨p', same, grows⟩ := leave_grows dotFree left
      exact ⟨p', same, own.trans grows⟩
    · match node, free with
      | .mk data child, free =>
        rcases traverseChildren_grows child (.mk data child :: parents) first free.2
          (cons_ne_nil _ _) _ inner part below with ⟨next, rfl, others⟩
        obtain ⟨p', same, grows⟩ := leave_grows dotFree left
        have all := (own.trans others).trans grows
        rw [append_nil] at all
        exact ⟨p', same, all⟩

theorem traverseChildren_grows (nodes : List Node) (parents : List Node) (p : Progress)
    (free : allNodes (fun data => '.' ∉ data.name) nodes) (below : parents ≠ []) (sofar : Nat)
    (after : SearchContext) (succeeded : Nat)
    (searched : traverseChildren parents (pathSegment q.path parents.length) nodes
      (q.context parents p, sofar) = some (after, succeeded)) : ∃ p', after = q.context parents p' ∧
      Grows (q.matching (q.reachedBelow parents nodes)) p.journal p'.journal := by
  match nodes, free with
  | [], _ =>
    cases searched
    exact ⟨p, rfl, Grows.refl _⟩
  | node :: nodes, free =>
    rw [traverseChildren] at searched
    rw [reachedBelow, matching_append]
    split_ifs at searched ⊢ with named
    · obtain ⟨⟨inner, more⟩, first, later⟩ := bind_eq_some_iff.mp searched
      obtain ⟨next, rfl, own⟩ :=
        traverseNode_grows node parents p free.1 (.inr named) inner more first
      obtain ⟨last, same, others⟩ :=
        traverseChildren_grows nodes parents next free.2 below _ after succeeded later
      exact ⟨last, same, own.trans others⟩
    · exact traverseChildren_grows nodes parents p free.2 below sofar after succeeded searched

end

end Query

variable {path : Str} {root : Node} {anyDepth leafNodesOnly : Bool} {noScopeList : List Str}

theorem matching_of_leafNodesOnly {q : Query} {entries : List Match} {entry : Match}
    (leaf : q.leafNodesOnly = true) (mem : entry ∈ q.matching entries) :
    entry.node.data.nodeType ≠ .branch := by
  have counts := (mem_filter.mp mem).2
  simpa [Node.counts, leaf] using counts

theorem vssSearchNodes_grows {found : List Match} {validation : Nat} (free : root.DotFree)
    (searched : vssSearchNodes path root anyDepth leafNodesOnly noScopeList =
      some (found, validation)) : found.length ≤ maxFoundNodes - 1 ∧
      found.Sublist ((queryOf path anyDepth leafNodesOnly noScopeList).matching
        ((queryOf path anyDepth leafNodesOnly noScopeList).reached [] root)) := by
  rw [vssSearchNodes] at searched
  split_ifs at searched
  obtain ⟨⟨after, succeeded⟩, traversed, same⟩ := map_eq_some_iff.mp searched
  cases same
  rw [initContext_eq] at traversed
  obtain ⟨last, rfl, grows⟩ :=
    traverseNode_grows _ root [] .start free (.inl rfl) after succeeded traversed
  constructor
  · rw [length_reverse]
    exact grows.room (Nat.zero_le _)
  · have entries := grows.entries.reverse
    simpa [Progress.start, context] using entries

/-- It is a node with its path, whose names agree with the segments. -/
structure Genuine (path : Str) (leafNodesOnly : Bool) (entry : Match) : Prop where
  nodePath : entry.nodePath = dotted entry.names
  nonBranch : leafNodesOnly = true → entry.node.data.nodeType ≠ .branch
  agrees : ∀ i name, 1 ≤ i → entry.names[i]? = some name →
    name = segmentAt path (i + passedOver path) ∨ segmentAt path (i + passedOver path) = "*"

/-- A search of a shallow tree returns distinct nodes, in preorder. -/
theorem search_integrity (path : Str) (root : Node) (anyDepth leafNodesOnly : Bool)
    (noScopeList : List Str) (nonempty : path ≠ []) (free : root.DotFree)
    (shallow : root.height ≤ 20) : ∃ found validation,
      vssSearchNodes path root anyDepth leafNodesOnly noScopeList = some (found, validation) ∧
        found.length ≤ maxFoundNodes - 1 ∧ found.Sublist root.entries ∧
        ∀ entry ∈ found, Genuine path leafNodesOnly entry := by
  obtain ⟨found, validation, searched⟩ :=
    vssSearchNodes_returns nonempty (stars_of_shallow _ shallow)
  obtain ⟨limit, among⟩ := vssSearchNodes_grows free searched
  refine ⟨found, validation, searched, limit, ?_, ?_⟩
  · exact (among.trans (matching_sublist _ _)).trans (reached_sublist [] root)
  · intro entry member
    have matching := among.mem member
    have reached := (matching_sublist _ _).mem matching
    refine ⟨nodePath_eq ((reached_sublist [] root).mem reached),
      fun leaf => matching_of_leafNodesOnly leaf matching, ?_⟩
    intro i name positive at_
    have way := leads_of_mem rfl reached
    have agrees : compareNodeName name (pathSegment path i) = true :=
      (leads_iff _ _).mp way i name positive at_
    rw [← pathSegment_eq_segmentAt nonempty]
    simpa [compareNodeName] using agrees

def pairTree : Node := .mk { name := "Root", nodeType := .branch }
    [.mk { name := "A", nodeType := .sensor } [], .mk { name := "B", nodeType := .sensor } []]

theorem search_integrity_pair : ("Root.*".toList ≠ [] ∧ pairTree.DotFree ∧ pairTree.height ≤ 20) ∧
      ∃ found validation, vssSearchNodes "Root.*" pairTree true true [] = some (found, validation) ∧
        found.length ≤ maxFoundNodes - 1 ∧ found.Sublist pairTree.entries ∧
        ∀ entry ∈ found, Genuine "Root.*" true entry := by
  have free : pairTree.DotFree := by
    simp [pairTree, Node.DotFree, Node.All, allNodes]
  have shallow : pairTree.height ≤ 20 := by decide
  exact ⟨⟨by decide, free, shallow⟩,
    search_integrity "Root.*" pairTree true true [] (by decide) free shallow⟩

/-- The empty first segment is passed over. -/
theorem search_passes_over_segment : (pairTree.DotFree ∧ pairTree.height ≤ 20) ∧
      (vssSearchNodes ".A.B" pairTree true true []).map (fun result =>
        result.1.map fun entry => (entry.nodePath, entry.names[1]?)) =
          some [("Root.B".toList, some "B".toList)] ∧ segmentAt ".A.B" 1 = "A" := by
  have free : pairTree.DotFree := by
    simp [pairTree, Node.DotFree, Node.All, allNodes]
  exact ⟨⟨free, by decide⟩, by decide +kernel, by decide +kernel⟩

/-- The validation loses nothing, and what was found since is at nodes of a list, which it covers. -/
structure Collects (entries : List Match) (before after : SearchContext) : Prop where
  valid : IsValidation after.maxValidation
  grows : Covers after.maxValidation before.maxValidation
  found : ∀ entry ∈ after.found, entry ∈ before.found ∨
    (∃ known ∈ entries, known.node = entry.node ∧ known.ancestors = entry.ancestors) ∧
      ∀ node ∈ entry.node :: entry.ancestors, Covers after.maxValidation node.validate

variable {parents : List Node} {node : Node} {before context after : SearchContext}
  {succeeded : Nat} {xs ys : List Match}

theorem Collects.refl (context : SearchContext) (valid : IsValidation context.maxValidation) :
    Collects [] context context :=
  ⟨valid, .refl _, fun _ mem => .inl mem⟩

theorem Collects.widen (sofar : Collects xs before context) (among : xs ⊆ ys) :
    Collects ys before context where
  valid := sofar.valid
  grows := sofar.grows
  found := by
    intro entry mem
    obtain old | ⟨⟨known, new, same⟩, covered⟩ := sofar.found entry mem
    · exact .inl old
    · exact .inr ⟨⟨known, among new, same⟩, covered⟩

theorem Collects.trans (first : Collects xs before context) (second : Collects ys context after) :
    Collects (xs ++ ys) before after where
  valid := second.valid
  grows := second.grows.trans first.grows
  found := by
    intro entry mem
    obtain old | ⟨⟨known, new, same⟩, covered⟩ := second.found entry mem
    · obtain older | ⟨⟨known, new, same⟩, covered⟩ := first.found entry old
      · exact .inl older
      · exact .inr ⟨⟨known, mem_append_left _ new, same⟩,
          fun node inside => second.grows.trans (covered node inside)⟩
    · exact .inr ⟨⟨known, mem_append_right _ new, same⟩, covered⟩

theorem decDepth_collects (left : decDepth succeeded context = some after)
    (sofar : Collects xs before context) : Collects xs before after := by
  obtain ⟨validation, found⟩ := decDepth_cases left
  refine ⟨validation ▸ sofar.valid, validation ▸ sofar.grows, ?_⟩
  intro entry mem
  rw [validation]
  apply sofar.found
  obtain same | shorter := found
  · rwa [same] at mem
  · rw [shorter] at mem
    exact mem_of_mem_tail mem

theorem saveMatchingNode_collects {done : Bool}
    (saved : saveMatchingNode parents node context = some (after, done, succeeded))
    (valid : IsValidation context.maxValidation) (isNode : IsValidation node.validate)
    (covered : ∀ parent ∈ parents, Covers context.maxValidation parent.validate) :
    Collects [entryOf parents node] context after ∧
      (done = false → ∀ parent ∈ node :: parents, Covers after.maxValidation parent.validate) := by
  obtain ⟨rfl, rfl⟩ | ⟨joined, found⟩ := saveMatchingNode_cases saved
  · exact ⟨(Collects.refl _ valid).widen (nil_subset _), fun going => by cases going⟩
  · obtain ⟨isJoin, coversNode, coversOld⟩ := getMaxValidation_spec _ _ isNode valid
    rw [← joined] at isJoin coversNode coversOld
    have all : ∀ parent ∈ node :: parents, Covers after.maxValidation parent.validate := by
      intro parent member
      obtain rfl | member := mem_cons.mp member
      · exact coversNode
      · exact coversOld.trans (covered parent member)
    refine ⟨⟨isJoin, coversOld, ?_⟩, fun _ => all⟩
    intro entry member
    rw [found] at member
    obtain new | old := mem_append.mp member
    · split_ifs at new
      · rw [mem_singleton.mp new]
        exact .inr ⟨⟨_, mem_singleton_self _, rfl, rfl⟩, all⟩
      · cases new
    · exact .inl old

mutual

/-- The invariant of the search, by induction on the tree. -/
theorem traverseNode_collects (parents : List Node) (node : Node) (context after : SearchContext)
    (succeeded : Nat) (searched : traverseNode parents node context = some (after, succeeded))
    (tree : node.Validated) (valid : IsValidation context.maxValidation)
    (covered : ∀ parent ∈ parents, Covers context.maxValidation parent.validate) :
    Collects (preorder parents node) context after := by
  obtain ⟨left, leaves, inside⟩ := traverseNode_cases searched
  apply decDepth_collects leaves
  obtain ⟨-, rfl⟩ | ⟨-, saved, done, part, saves, inside⟩ := inside
  · exact ⟨valid, .refl _, fun _ mem => .inl mem⟩
  · match node, tree with
    | .mk data child, tree =>
      have save : Collects _ (incDepth data.name context) saved ∧ _ :=
        saveMatchingNode_collects saves valid tree.1 covered
      have entered : Collects _ context saved := ⟨save.1.valid, save.1.grows, save.1.found⟩
      rw [preorder]
      obtain ⟨-, rfl⟩ | ⟨going, children⟩ := inside
      · exact entered.widen (cons_subset_cons _ (nil_subset _))
      · exact entered.trans (traverseChildren_collects _ _ child saved part left succeeded children
          tree.2 save.1.valid (save.2 going))

theorem traverseChildren_collects (parents : List Node) (name : Str) (nodes : List Node)
    (context : SearchContext) (succeeded : Nat) (after : SearchContext) (total : Nat)
    (searched : traverseChildren parents name nodes (context, succeeded) = some (after, total))
    (trees : allNodes (fun data => IsValidation data.validate) nodes)
    (valid : IsValidation context.maxValidation)
    (covered : ∀ parent ∈ parents, Covers context.maxValidation parent.validate) :
    Collects (preorderBelow parents nodes) context after := by
  match nodes, trees with
  | [], _ =>
    cases searched
    exact .refl _ valid
  | node :: nodes, trees =>
    rw [preorderBelow]
    obtain ⟨-, rest⟩ | ⟨next, more, -, first, rest⟩ := traverseChildren_cases searched
    · exact (traverseChildren_collects parents name nodes context succeeded after total rest
        trees.2 valid covered).widen (subset_append_right _ _)
    · have head := traverseNode_collects parents node context next more first trees.1 valid covered
      exact head.trans (traverseChildren_collects parents name nodes next _ after total rest
        trees.2 head.valid fun parent mem => head.grows.trans (covered parent mem))

end

theorem vssSearchNodes_covers {found : List Match} {validation : Nat} (tree : root.Validated)
    (searched : vssSearchNodes path root anyDepth leafNodesOnly noScopeList =
      some (found, validation)) : IsValidation validation ∧ ∀ entry ∈ found,
      (∃ known ∈ root.entries, known.node = entry.node ∧ known.ancestors = entry.ancestors) ∧
        ∀ node ∈ entry.node :: entry.ancestors, Covers validation node.validate := by
  unfold vssSearchNodes at searched
  split_ifs at searched
  obtain ⟨⟨after, succeeded⟩, traversed, same⟩ := map_eq_some_iff.mp searched
  cases same
  have start : IsValidation 0 := by decide
  have extended := traverseNode_collects [] root _ after succeeded traversed tree start
    (fun parent mem => by cases mem)
  refine ⟨extended.valid, ?_⟩
  intro entry mem
  obtain old | new := extended.found entry (mem_reverse.mp mem)
  · cases old
  · exact new

/-- The reported validation covers each returned node and its ancestors. -/
theorem reported_validation_covers (path : Str) (root : Node) (anyDepth leafNodesOnly : Bool)
    (noScopeList : List Str) (tree : root.Validated) (shallow : root.height ≤ 20) :
    (∀ found validation,
      vssSearchNodes path root anyDepth leafNodesOnly noScopeList = some (found, validation) →
        ∀ entry ∈ found, (∃ known ∈ root.entries,
            known.node = entry.node ∧ known.ancestors = entry.ancestors) ∧
          ∀ node ∈ entry.node :: entry.ancestors, Covers validation node.validate) ∧
      (path ≠ [] → ∃ found validation, vssSearchNodes path root anyDepth leafNodesOnly noScopeList =
          some (found, validation)) := by
  constructor
  · intro found validation searched
    exact (vssSearchNodes_covers tree searched).2
  · intro nonempty
    exact vssSearchNodes_returns nonempty (stars_of_shallow _ shallow)

def guardedTree : Node := .mk { name := "Root", nodeType := .branch, validate := 11 }
    [.mk { name := "A", nodeType := .sensor, validate := 2 } []]

theorem reported_validation_covers_guarded : (guardedTree.Validated ∧ guardedTree.height ≤ 20) ∧
      vssSearchNodes "Root.A" guardedTree true true [] ≠ none ∧ ∀ found validation,
        vssSearchNodes "Root.A" guardedTree true true [] = some (found, validation) →
          ∀ entry ∈ found, (∃ known ∈ guardedTree.entries,
              known.node = entry.node ∧ known.ancestors = entry.ancestors) ∧
            ∀ node ∈ entry.node :: entry.ancestors, Covers validation node.validate := by
  have tree : guardedTree.Validated := by
    simp only [guardedTree, Node.Validated, Node.All, allNodes]
    decide
  have shallow : guardedTree.height ≤ 20 := by decide
  have covers := reported_validation_covers "Root.A" guardedTree true true [] tree shallow
  refine ⟨⟨tree, shallow⟩, ?_, covers.1⟩
  obtain ⟨found, validation, searched⟩ := covers.2 (by decide)
  rw [searched]
  exact some_ne_none _

end Vissr.Tree
