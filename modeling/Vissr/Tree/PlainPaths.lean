import Vissr.Tree.Integrity

/-! Searches without a wildcard: the matches are the first nodes the path leads to. -/

namespace Vissr.Tree

open List Option Nat Query

def fill (added : List Match) (j : Journal Match) : Journal Match :=
  ⟨(added.take (maxFoundNodes - 1 - j.entries.length)).reverse ++ j.entries, j.counts⟩

theorem fill_nil (j : Journal Match) : fill [] j = j := by
  simp [fill]

theorem fill_append (xs ys : List Match) (j : Journal Match) :
    fill ys (fill xs j) = fill (xs ++ ys) j := by
  have room : maxFoundNodes - 1 - (fill xs j).entries.length =
      maxFoundNodes - 1 - j.entries.length - xs.length := by
    simp only [fill, length_append, length_reverse, length_take]
    omega
  rw [fill, room, fill, fill, take_append, reverse_append, append_assoc]

variable {j : Journal Match}

theorem fill_full (full : j.entries.length = maxFoundNodes - 1) (added : List Match) :
    fill added j = j := by
  simp [fill, full]

theorem fill_singleton (room : j.entries.length < maxFoundNodes - 1) (entry : Match) :
    fill [entry] j = ⟨entry :: j.entries, j.counts⟩ := by
  have one : [entry].take (maxFoundNodes - 1 - j.entries.length) = [entry] := by
    apply take_of_length_le
    simp only [length_singleton]
    omega
  rw [fill, one]
  rfl

theorem length_fill (limit : j.entries.length ≤ maxFoundNodes - 1) (added : List Match) :
    (fill added j).entries.length ≤ maxFoundNodes - 1 := by
  simp only [fill, length_append, length_reverse, length_take]
  omega

namespace Query

variable {q : Query} {parents : List Node} {node : Node} {validation : Nat} {j : Journal Match}

theorem star_eq_zero {depth : Nat} (plain : '*' ∉ q.path) : q.star depth = 0 := by
  apply if_neg
  intro wildcard
  have inside : '*' ∈ pathSegment q.path depth := by
    rw [wildcard]
    exact mem_singleton_self _
  rw [pathSegment] at inside
  exact plain (mem_of_mem_take (mem_of_mem_drop inside))

theorem compareNodeName_plain {depth : Nat} {name : Str} (plain : '*' ∉ q.path) :
    compareNodeName name (pathSegment q.path depth) = true ↔ name = pathSegment q.path depth := by
  have other : pathSegment q.path depth ≠ "*" := by
    intro wildcard
    have zero : q.star depth = 0 := star_eq_zero plain
    rw [star, if_pos wildcard] at zero
    cases zero
  rw [compareNodeName, Bool.or_eq_true, decide_eq_true_iff, decide_eq_true_iff]
  exact or_iff_left other

theorem entered_plain (plain : '*' ∉ q.path) : q.entered parents node ⟨-1, validation, j⟩ =
      ⟨-1, getMaxValidation node.validate validation, j⟩ := by
  simp only [entered, star_eq_zero plain]
  rfl

theorem recorded_plain (room : j.entries.length < maxFoundNodes - 1) :
    q.recorded parents node ⟨-1, validation, j⟩ =
      some ⟨-1, validation, fill (q.matching [entryOf parents node]) j⟩ := by
  rw [recorded]
  by_cases counts : node.counts q.leafNodesOnly = true
  · rw [if_pos counts, q.matching_counts counts, fill_singleton room]
    rfl
  · rw [if_neg counts, q.matching_idle counts, fill_nil]

theorem leave_plain (plain : '*' ∉ q.path) (free : '.' ∉ node.name) :
    leave (q.context (node :: parents) ⟨-1, validation, j⟩, 0) =
      some (q.context parents ⟨-1, validation, j⟩, 0) := by
  rw [leave_context free, star_eq_zero plain]
  rfl

theorem landing_plain : q.landing parents node ⟨-1, validation, j⟩ = 0 :=
  if_neg fun lands => absurd lands.1 (lt_irrefl 0)

mutual

theorem traverseNode_plain (plain : '*' ∉ q.path) (node : Node) (parents : List Node)
    (validation : Nat) (j : Journal Match) (free : node.DotFree) (enters : q.Enters parents node)
    (limit : j.entries.length ≤ maxFoundNodes - 1) :
    ∃ joined, traverseNode parents node (q.context parents ⟨-1, validation, j⟩) =
      some (q.context parents ⟨-1, joined, fill (q.matching (q.reached parents node)) j⟩, 0) := by
  have dotFree := (all_iff.mp free).1
  rw [q.traverseNode_context _ enters, reached_eq, matching_cons]
  by_cases full : Progress.full ⟨-1, validation, j⟩ = true
  · rw [if_pos full, leave_plain plain dotFree, fill_full (of_decide_eq_true full)]
    exact ⟨validation, rfl⟩
  · have room : j.entries.length < maxFoundNodes - 1 :=
      lt_of_le_of_ne limit fun same => full (decide_eq_true same)
    rw [if_neg full, entered_plain plain, recorded_plain room, bind_some]
    by_cases stops : q.Stops (node :: parents)
    · rw [if_pos stops, if_pos stops, bind_some, landing_plain,
        leave_plain plain dotFree, matching_nil, append_nil]
      exact ⟨_, rfl⟩
    · rw [if_neg stops, if_neg stops, landing_plain]
      match node, free with
      | .mk data child, free =>
        rcases traverseChildren_plain plain child (.mk data child :: parents)
          (getMaxValidation (Node.mk data child).validate validation)
          (fill (q.matching [entryOf parents (.mk data child)]) j) free.2
          (length_fill limit _) with ⟨joined, searched⟩
        simp only [Node.child]
        rw [searched, bind_some, leave_plain plain dotFree, fill_append]
        exact ⟨joined, rfl⟩

theorem traverseChildren_plain (plain : '*' ∉ q.path) (nodes : List Node) (parents : List Node)
    (validation : Nat) (j : Journal Match) (free : allNodes (fun data => '.' ∉ data.name) nodes)
    (limit : j.entries.length ≤ maxFoundNodes - 1) :
    ∃ joined, traverseChildren parents (pathSegment q.path parents.length) nodes
        (q.context parents ⟨-1, validation, j⟩, 0) =
      some (q.context parents ⟨-1, joined, fill (q.matching (q.reachedBelow parents nodes)) j⟩,
        0) := by
  match nodes, free with
  | [], _ =>
    refine ⟨validation, ?_⟩
    rw [traverseChildren, reachedBelow, matching_nil, fill_nil]
  | node :: nodes, free =>
    rw [traverseChildren, reachedBelow, matching_append]
    by_cases named : compareNodeName node.name (pathSegment q.path parents.length) = true
    · obtain ⟨first, searched⟩ :=
        traverseNode_plain plain node parents validation j free.1 (.inr named) limit
      obtain ⟨last, rest⟩ :=
        traverseChildren_plain plain nodes parents first _ free.2 (length_fill limit _)
      rw [if_pos named, if_pos named, searched, bind_some]
      simp only [add_zero]
      rw [rest, fill_append]
      exact ⟨last, rfl⟩
    · rw [if_neg named, if_neg named]
      exact traverseChildren_plain plain nodes parents validation j free.2 limit

end

end Query

variable {path : Str} {root : Node} {noScopeList : List Str}

/-- The non-branch nodes that the segments lead to, without limits. -/
def ledTo (path : Str) (root : Node) (noScopeList : List Str) : List Match :=
  root.entries.filter fun entry => entry.node.data.nodeType ≠ .branch ∧
    leads path entry.chain = true ∧
      (queryOf path true true noScopeList).passes entry.ancestors = true

theorem matching_reached_eq : (queryOf path true true noScopeList).matching
    ((queryOf path true true noScopeList).reached [] root) = ledTo path root noScopeList := by
  rw [reached_eq_filter_passes root [] rfl rfl, matching, List.filter_filter]
  refine filter_congr fun entry _ => ?_
  simp [Node.counts, queryOf, SearchContext.query, initContext]

theorem vssSearchNodes_plain (nonempty : path ≠ []) (plain : '*' ∉ path) (free : root.DotFree) :
    ∃ validation, vssSearchNodes path root true true noScopeList =
      some ((ledTo path root noScopeList).take (maxFoundNodes - 1), validation) := by
  rcases @traverseNode_plain (queryOf path true true noScopeList) plain root []
    0 Progress.start.journal free (.inl rfl) (zero_le _) with ⟨joined, searched⟩
  refine ⟨joined, ?_⟩
  have first : (⟨-1, 0, Progress.start.journal⟩ : Progress) = .start := rfl
  rw [first, matching_reached_eq] at searched
  rw [vssSearchNodes, if_neg nonempty, initContext_eq, searched]
  simp [context, fill, Progress.start]

/-- Its dotted path is the search path, but for the first segment. -/
def Match.Named (path : Str) (entry : Match) : Prop :=
  (segments entry.nodePath).tail = (segments path).tail

/-- The nodes that are returned are those the path names. -/
def PlainSound (path : Str) (root : Node) (noScopeList : List Str) : Prop :=
  ∀ found validation, vssSearchNodes path root true true noScopeList = some (found, validation) →
    (∀ entry ∈ found, entry.Named path) ∧
      ((∀ entry ∈ root.entries, entry.node.data.nodeType ≠ .branch → ¬ entry.Named path) →
        found = [])

/-- The nodes led to, as many as are returned, are at the depth of the path, and each depth reads
the segment there. -/
def EndsAtPath (path : Str) (root : Node) (noScopeList : List Str) : Prop :=
  ∀ entry ∈ (ledTo path root noScopeList).take (maxFoundNodes - 1),
    entry.depth = countSegments path ∧
      ∀ i, 1 ≤ i → i < countSegments path → pathSegment path i = segmentAt path i

theorem length_names (entry : Match) : entry.names.length = entry.depth := by
  simp [Match.names, Match.chain, Match.depth]

theorem segments_nodePath {entry : Match} (free : root.DotFree) (mem : entry ∈ root.entries) :
    segments entry.nodePath = entry.names := by
  rw [nodePath_eq mem]
  apply segments_dotted
  · intro name inside
    obtain ⟨node, which, rfl⟩ := mem_map.mp (mem_reverse.mp inside)
    exact all_chain free mem node which
  · simp [Match.names, Match.chain]

theorem segmentAt_of_lt {i : Nat} (below : i < countSegments path) :
    (segments path)[i]? = some (segmentAt path i) := by
  rw [← length_segments] at below
  rw [segmentAt, Nat.min_eq_left (by omega), getElem?_eq_getElem below, getD_some]

theorem mem_ledTo {entry : Match}
    (mem : entry ∈ (ledTo path root noScopeList).take (maxFoundNodes - 1)) :
    entry ∈ root.entries ∧ entry.node.data.nodeType ≠ .branch ∧ leads path entry.chain = true := by
  have known := mem_filter.mp (mem_of_mem_take mem)
  rw [decide_eq_true_iff] at known
  exact ⟨known.1, known.2.1, known.2.2.1⟩

theorem named_iff {entry : Match} (plain : '*' ∉ path) (free : root.DotFree)
    (inTree : entry ∈ root.entries) (way : leads path entry.chain = true) :
    entry.Named path ↔ entry.depth = countSegments path ∧
      ∀ i, 1 ≤ i → i < countSegments path → pathSegment path i = segmentAt path i := by
  rw [leads_iff] at way
  have names : ∀ i name, 1 ≤ i → entry.names[i]? = some name → name = pathSegment path i := by
    intro i name positive at_
    exact (compareNodeName_plain (q := queryOf path true true []) plain).mp
      (way i name positive at_)
  have deep : 0 < entry.depth := succ_pos _
  have some_ : 0 < countSegments path := succ_pos _
  rw [Match.Named, segments_nodePath free inTree]
  constructor
  · intro same
    have lengths := congrArg length same
    rw [length_tail, length_tail, length_names, length_segments] at lengths
    refine ⟨by omega, ?_⟩
    intro i positive below
    have segment := segmentAt_of_lt below
    rw [← Nat.sub_add_cancel positive, ← getElem?_tail, ← same, getElem?_tail,
      Nat.sub_add_cancel positive] at segment
    exact (names i _ positive segment).symm
  · rintro ⟨depth, own⟩
    apply ext_getElem?
    intro i
    rw [getElem?_tail, getElem?_tail]
    by_cases below : i + 1 < countSegments path
    · have inside : i + 1 < entry.names.length := by
        rw [length_names]
        omega
      rw [segmentAt_of_lt below, getElem?_eq_getElem inside, ← own (i + 1) (by omega) below]
      exact congrArg some (names (i + 1) _ (by omega) (getElem?_eq_getElem inside))
    · rw [getElem?_eq_none (by rw [length_names]; omega),
        getElem?_eq_none (by rw [length_segments]; omega)]

def Node.NamesFilled (node : Node) : Prop := node.All fun data => data.name ≠ []

theorem endsAtPath_empty (filled : root.NamesFilled) : EndsAtPath [] root noScopeList := by
  intro entry mem
  rcases mem_ledTo mem with ⟨inTree, -, leads⟩
  have way := (leads_iff _ _).mp leads
  have names := all_of_mem filled inTree
  refine ⟨?_, fun i positive below => by simp [countSegments] at below; omega⟩
  obtain ⟨nodePath, node, ancestors⟩ := entry
  cases ancestors with
  | nil => rfl
  | cons parent rest =>
    have last : ((node :: parent :: rest).map Node.name).reverse[rest.length + 1]? =
        some node.name := by
      rw [map_cons, reverse_cons, getElem?_append_right (by simp)]
      simp
    have agrees : compareNodeName node.name (pathSegment [] (rest.length + 1)) = true :=
      way (rest.length + 1) node.name (by omega) last
    have empty : pathSegment [] (rest.length + 1) = [] := by simp [pathSegment]
    rw [empty, compareNodeName, Bool.or_eq_true, decide_eq_true_iff] at agrees
    obtain none_ | wildcard := agrees
    · exact absurd none_ names
    · exact absurd wildcard (by decide)

/-- A search without a wildcard returns only what its path names exactly when nothing else is led
to. -/
theorem plain_search_sound_iff (path : Str) (root : Node) (noScopeList : List Str)
    (free : root.DotFree) (filled : root.NamesFilled) (plain : '*' ∉ path) :
    PlainSound path root noScopeList ↔ EndsAtPath path root noScopeList := by
  by_cases empty : path = []
  · subst empty
    refine iff_of_true ?_ (endsAtPath_empty filled)
    intro found validation searched
    cases searched
  · obtain ⟨joined, returns⟩ :=
      @vssSearchNodes_plain path root noScopeList empty plain free
    constructor
    · intro sound entry member
      rcases mem_ledTo member with ⟨inTree, -, way⟩
      exact (named_iff plain free inTree way).mp ((sound _ _ returns).1 entry member)
    · intro ends found validation searched
      rw [returns] at searched
      cases searched
      have named : ∀ entry ∈ (ledTo path root noScopeList).take (maxFoundNodes - 1),
          entry.Named path := by
        intro entry member
        rcases mem_ledTo member with ⟨inTree, -, way⟩
        exact (named_iff plain free inTree way).mpr (ends entry member)
      refine ⟨named, ?_⟩
      intro missing
      rw [eq_nil_iff_forall_not_mem]
      intro entry member
      rcases mem_ledTo member with ⟨inTree, leaf, -⟩
      exact missing entry inTree leaf (named entry member)

theorem pairTree_plain : pairTree.DotFree ∧ pairTree.NamesFilled := by
  simp [pairTree, Node.DotFree, Node.NamesFilled, Node.All, allNodes]

theorem plain_search_sound_pair : (vssSearchNodes "Root.A" pairTree true true []).map
      (fun result => result.1.map Match.nodePath) = some ["Root.A".toList] ∧
    PlainSound "Root.A" pairTree [] := by
  rcases pairTree_plain with ⟨free, filled⟩
  refine ⟨by decide +kernel,
    (plain_search_sound_iff "Root.A" pairTree [] free filled (by decide)).mpr ?_⟩
  have deep : ∀ entry ∈ (ledTo "Root.A" pairTree []).take (maxFoundNodes - 1),
      entry.depth = countSegments "Root.A" := by
    decide +kernel
  intro entry mem
  refine ⟨deep entry mem, ?_⟩
  intro i positive below
  have two : countSegments "Root.A" = 2 := by decide
  have one : i = 1 := by omega
  rw [one]
  decide +kernel

/-- A path that goes on beyond a signal still finds it. -/
theorem plain_search_beyond_signal :
    (pairTree.DotFree ∧ pairTree.NamesFilled ∧ '*' ∉ "Root.A.Extra".toList) ∧
      ¬ PlainSound "Root.A.Extra" pairTree [] := by
  obtain ⟨free, filled⟩ := pairTree_plain
  refine ⟨⟨free, filled, by decide⟩, ?_⟩
  intro sound
  have evaluated : (vssSearchNodes "Root.A.Extra" pairTree true true []).map (fun result =>
      result.1.map Match.nodePath) = some ["Root.A".toList] := by
    decide +kernel
  obtain ⟨⟨found, validation⟩, searched, paths⟩ := map_eq_some_iff.mp evaluated
  obtain ⟨entry, rfl, path⟩ := map_eq_singleton_iff.mp paths
  have named := (sound _ _ searched).1 entry (mem_singleton_self _)
  rw [Match.Named, path] at named
  exact absurd named (by decide +kernel)

end Vissr.Tree
