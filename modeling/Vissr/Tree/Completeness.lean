import Vissr.Tree.Losses
import Vissr.Tree.PlainPaths

/-! Which of the nodes that a path with wildcards names a search returns. -/

namespace Vissr.Tree

open List Nat Bool Journal Query Progress SearchContext

abbrev signalQuery (path : Str) : Query := queryOf path true true []

variable {path : Str} {root : Node} {entry : Match}

/-- A childless non-branch node whose path agrees after the first segment. -/
def Match.Wanted (path : Str) (entry : Match) : Prop :=
  entry.node.child.length = 0 ∧ entry.node.data.nodeType ≠ .branch ∧
    (segments entry.nodePath).length = (segments path).length ∧
    ∀ i < (segments path).length, 1 ≤ i →
      (segments path)[i]? = some "*".toList ∨ (segments entry.nodePath)[i]? = (segments path)[i]?

instance (path : Str) (entry : Match) : Decidable (entry.Wanted path) :=
  inferInstanceAs (Decidable (_ ∧ _ ∧ _ ∧ _))

/-- The search returns every node that is wanted. -/
def Complete (path : Str) (root : Node) : Prop :=
  ∃ found validation, vssSearchNodes path root true true [] = some (found, validation) ∧
    (root.entries.filter fun entry => entry.Wanted path).Sublist found

/-- No match comes before a dead end of its level, but one that fails itself. -/
def Unspoiled (path : Str) (root : Node) : Prop :=
  ((signalQuery path).reached [] root).Pairwise fun entry deadEnd =>
    ¬ (signalQuery path).Spoils entry deadEnd

/-- They are childless, and as deep as the path, or less deep and speculative. -/
def SignalsAtEnd (path : Str) (root : Node) : Prop :=
  ∀ entry ∈ (signalQuery path).reached [] root, entry.node.data.nodeType ≠ .branch →
    entry.node.child.length = 0 ∧ (entry.depth = countSegments path ∨
      entry.depth < countSegments path ∧ 0 < (signalQuery path).stars entry.depth)

theorem wanted_iff (rooted : Rooted path) (free : root.DotFree) (mem : entry ∈ root.entries) :
    entry.Wanted path ↔ entry.node.child.length = 0 ∧ entry.node.data.nodeType ≠ .branch ∧
      entry.depth = countSegments path ∧ leads path entry.chain = true := by
  rw [Match.Wanted, segments_nodePath free mem, leads_iff, length_names, length_segments]
  refine and_congr_right fun _ => and_congr_right fun _ => and_congr_right fun depth => ?_
  have size : entry.names.length = countSegments path := by
    rw [length_names]
    exact depth
  constructor
  · intro agrees i name positive at_
    have below : i < countSegments path := by
      rw [← size]
      exact (List.getElem?_eq_some_iff.mp at_).1
    have segment := segmentAt_of_lt below
    rw [pathSegment_eq rooted, compareNodeName, or_eq_true, decide_eq_true_iff,
      decide_eq_true_iff]
    obtain wildcard | same := agrees i below positive
    · rw [segment] at wildcard
      exact .inr (Option.some.inj wildcard)
    · have found : entry.names[i]? = some name := at_
      rw [segment, found] at same
      exact .inl (Option.some.inj same)
  · intro way i below positive
    have inside : i < entry.names.length := by omega
    have agrees := way i _ positive (getElem?_eq_getElem inside)
    rw [segmentAt_of_lt below, getElem?_eq_getElem inside]
    rw [pathSegment_eq rooted, compareNodeName, or_eq_true, decide_eq_true_iff,
      decide_eq_true_iff] at agrees
    obtain same | wildcard := agrees
    · exact .inr (congrArg some same)
    · exact .inl (congrArg some wildcard)

theorem kept_reached (shallow : root.height ≤ 20) :
    (signalQuery path).kept ((signalQuery path).reached [] root) = root.entries.filter fun entry =>
        (!decide ((signalQuery path).Fails entry) && entry.node.counts true) &&
          leads path entry.chain := by
  rw [reached_eq_filter rfl root [] (by simp [queryOf, initContext, query]; omega)
    rfl, kept, matching, filter_filter, filter_filter]
  simp only [decide_not]
  rfl

theorem not_fails_of_wanted (childless : entry.node.child.length = 0)
    (depth : entry.depth = countSegments path) : ¬ (signalQuery path).Fails entry := by
  apply not_fails_of_lands
  have end_ : countSegments path ≤ entry.ancestors.length + 1 := le_of_eq depth.symm
  have same : countSegments (signalQuery path).path = countSegments path := rfl
  simp [lands, childless, same, end_]

theorem wanted_kept (rooted : Rooted path) (free : root.DotFree) (shallow : root.height ≤ 20) :
    (root.entries.filter fun entry => entry.Wanted path).Sublist
      ((signalQuery path).kept ((signalQuery path).reached [] root)) := by
  have same : (root.entries.filter fun entry => entry.Wanted path) =
      ((signalQuery path).kept ((signalQuery path).reached [] root)).filter
        fun entry => entry.Wanted path := by
    rw [kept_reached shallow, filter_filter]
    refine filter_congr fun entry mem => ?_
    by_cases wanted : entry.Wanted path
    · have known := (wanted_iff rooted free mem).mp wanted
      simp [wanted, Node.counts, known.2.1, known.2.2.2, not_fails_of_wanted known.1 known.2.2.1]
    · simp [wanted]
  rw [same]
  exact filter_sublist

theorem matching_length_le (q : Query) :
    (q.matching (q.reached [] root)).length ≤ root.entries.length :=
  ((q.matching_sublist _).trans (reached_sublist [] root)).length_le

theorem vssSearchNodes_kept {anyDepth leafNodesOnly : Bool} {noScopeList : List Str}
    (nonempty : path ≠ []) (free : root.DotFree) (shallow : root.height ≤ 20)
    (few : root.entries.length < maxFoundNodes - 1)
    (unspoiled : ((queryOf path anyDepth leafNodesOnly noScopeList).reached [] root).Pairwise
      fun entry deadEnd =>
        ¬ (queryOf path anyDepth leafNodesOnly noScopeList).Spoils entry deadEnd) :
    ∃ validation, vssSearchNodes path root anyDepth leafNodesOnly noScopeList = some
      ((queryOf path anyDepth leafNodesOnly noScopeList).kept
        ((queryOf path anyDepth leafNodesOnly noScopeList).reached [] root), validation) := by
  have slots := stars_of_shallow (queryOf path anyDepth leafNodesOnly noScopeList) shallow
  have tallied : start.journal.Tallied
      (queryOf path anyDepth leafNodesOnly noScopeList).levelOf := by
    intro i n found
    rw [start, getElem?_replicate] at found
    split_ifs at found
    cases found
    rfl
  rcases (queryOf path anyDepth leafNodesOnly noScopeList).ops_exact root []
    start.journal tallied slots (fun deadEnd _ _ entry mem => by cases mem)
    unspoiled with ⟨after, ran, entries, _⟩
  rw [vssSearchNodes_run nonempty free (lt_of_le_of_lt (matching_length_le _) few), ran,
    Option.map_some, entries, start, append_nil, reverse_reverse]
  exact ⟨_, rfl⟩

theorem kept_eq_wanted (rooted : Rooted path) (free : root.DotFree) (shallow : root.height ≤ 20)
    (signals : SignalsAtEnd path root) :
    (signalQuery path).kept ((signalQuery path).reached [] root) =
      root.entries.filter fun entry => entry.Wanted path := by
  rw [kept_reached shallow]
  refine filter_congr fun entry mem => ?_
  rw [Bool.eq_iff_iff, decide_eq_true_iff, wanted_iff rooted free mem, Bool.and_eq_true,
    and_eq_true, not_eq_true', decide_eq_false_iff_not]
  constructor
  · intro known
    have reached : entry ∈ (signalQuery path).reached [] root := by
      rw [reached_eq_filter rfl root []
        (by simp [queryOf, initContext, query]; omega) rfl]
      exact mem_filter.mpr ⟨mem, known.2⟩
    have signal : entry.node.data.nodeType ≠ .branch := by
      simpa [Node.counts] using known.1.2
    obtain ⟨childless, end_ | ⟨less, level⟩⟩ := signals entry reached signal
    · exact ⟨childless, signal, end_, known.2⟩
    · -- a childless signal before the end of the path fails
      have depth := depth_le_of_mem mem
      have early : (signalQuery path).lands entry.ancestors entry.node = false := by
        have before : ¬ countSegments path ≤ entry.ancestors.length + 1 := not_le.mpr less
        have high : ¬ entry.ancestors.length + 1 = 100 := by
          simp only [Match.depth, length_nil] at depth
          omega
        have same : countSegments (signalQuery path).path = countSegments path := rfl
        have most : (signalQuery path).maxDepth = 100 := rfl
        simp [lands, same, most, before, high]
      exact absurd (fails_of_childless level (length_eq_zero_iff.mp childless) early)
        known.1.1
  · intro known
    refine ⟨⟨not_fails_of_wanted known.1 known.2.2.1, ?_⟩, known.2.2.2⟩
    simp [Node.counts, known.2.1]

theorem atLevel_wanted (rooted : Rooted path) (free : root.DotFree) (level : Nat) :
    (signalQuery path).atLevel level (root.entries.filter fun entry => entry.Wanted path) =
      if (signalQuery path).stars (countSegments path) = level then
        (root.entries.filter fun entry => entry.Wanted path).length
      else 0 := by
  have same : ∀ entry ∈ (root.entries.filter fun entry => entry.Wanted path),
      (signalQuery path).levelOf entry = (signalQuery path).stars (countSegments path) := by
    intro entry mem
    have known := mem_filter.mp mem
    rw [levelOf, ((wanted_iff rooted free known.1).mp (of_decide_eq_true known.2)).2.2.1]
  rw [atLevel]
  split_ifs with here
  · rw [countP_eq_length]
    intro entry mem
    exact decide_eq_true ((same entry mem).trans here)
  · rw [countP_eq_zero]
    intro entry mem at_
    exact here ((same entry mem).symm.trans (of_decide_eq_true at_))

theorem level_wanted (rooted : Rooted path) (free : root.DotFree) (shallow : root.height ≤ 20)
    (some_ : (root.entries.filter fun entry => entry.Wanted path).length ≠ 0) :
    (signalQuery path).stars (countSegments path) ≤ 20 := by
  obtain ⟨entry, mem⟩ := exists_mem_of_length_pos (pos_of_ne_zero some_)
  have known := mem_filter.mp mem
  have wanted := (wanted_iff rooted free known.1).mp (of_decide_eq_true known.2)
  have depth := depth_le_of_mem known.1
  have stars := (signalQuery path).stars_le (countSegments path)
  simp only [length_nil] at depth
  omega

variable {after : Journal Match}

theorem balanced_of_signals (signals : SignalsAtEnd path root)
    (wildcard : 0 < (signalQuery path).stars (countSegments path))
    (ran : run ((signalQuery path).ops [] root) start.journal = some after) :
    after.Balanced := by
  refine Journal.Balanced.run (j := start.journal) rfl ?_ ran
  intro op mem entry first
  obtain ⟨known, reached, level, same⟩ := (signalQuery path).mem_ops root [] op mem
  rw [first] at level same
  obtain ⟨rfl, counts⟩ := same entry rfl
  have signal : entry.node.data.nodeType ≠ .branch := by
    simpa [Node.counts, signalQuery, queryOf, query, initContext] using counts
  have zero : (signalQuery path).stars entry.depth = 0 := level.symm
  obtain end_ | ⟨_, positive⟩ := (signals entry reached signal).2
  · rw [end_] at zero
    omega
  · omega

theorem counts_of_run {ops : List (Journal.Op Match)} {k : Nat}
    (ran : run ops start.journal = some after) (inside : k < 20) :
    after.counts[k]? = some (counter (k + 1) ops 0) := by
  have start : start.journal.counts[k]? = some 0 := by
    rw [start, getElem?_replicate]
    exact if_pos inside
  exact run_counts start ran

theorem tight_of_complete (rooted : Rooted path) (free : root.DotFree)
    (shallow : root.height ≤ 20) (signals : SignalsAtEnd path root)
    (ran : run ((signalQuery path).ops [] root) start.journal = some after)
    (complete : (root.entries.filter fun entry => entry.Wanted path).length ≤ after.entries.length)
    (level : Nat) (positive : 0 < level) :
    counter level ((signalQuery path).ops [] root) 0 = 0 + (signalQuery path).atLevel level
        ((signalQuery path).kept ((signalQuery path).reached [] root)) := by
  have most : ∀ level, 0 < level → counter level ((signalQuery path).ops [] root) 0 ≤
        0 + (signalQuery path).atLevel level
          ((signalQuery path).kept ((signalQuery path).reached [] root)) :=
    fun level positive => ((signalQuery path).tight_ops [] root).2 level positive 0
  simp only [kept_eq_wanted rooted free shallow signals, atLevel_wanted rooted free,
    zero_add] at most ⊢
  split_ifs with here
  · -- the counter of that level is all that there is
    apply le_antisymm
    · have bound := most level positive
      rwa [if_pos here] at bound
    · by_cases empty : (root.entries.filter fun entry => entry.Wanted path).length = 0
      · omega
      · have inside := level_wanted rooted free shallow empty
        have total := balanced_of_signals signals (by omega) ran
        have found : after.counts[level - 1]? = some
            (counter level ((signalQuery path).ops [] root) 0) := by
          have ends := counts_of_run ran (k := level - 1) (by omega)
          rwa [Nat.sub_add_cancel positive] at ends
        have single : after.counts.sum = counter level ((signalQuery path).ops [] root) 0 := by
          apply sum_single found
          intro k m other there
          have within := (List.getElem?_eq_some_iff.mp there).1
          rw [length_counts_run ran] at within
          have bound := most (k + 1) (succ_pos k)
          rw [if_neg (by omega)] at bound
          rw [counts_of_run ran within] at there
          cases there
          omega
        rw [Journal.Balanced] at total
        omega
  · have bound := most level positive
    rw [if_neg here] at bound
    omega

/-- Below the limit a search returns every wanted node if no match comes before a dead end of its
level; where signals are at the end, only then. -/
theorem wildcard_search_complete (path : Str) (root : Node) (free : root.DotFree)
    (shallow : root.height ≤ 20) (few : root.entries.length < maxFoundNodes - 1) :
    (Rooted path → Unspoiled path root → Complete path root) ∧
      (Rooted path → SignalsAtEnd path root → Complete path root → Unspoiled path root) := by
  constructor
  · intro rooted unspoiled
    obtain ⟨validation, searched⟩ := vssSearchNodes_kept rooted.ne_nil free shallow few unspoiled
    exact ⟨_, validation, searched, wanted_kept rooted free shallow⟩
  · intro rooted signals complete
    obtain ⟨found, validation, searched, all⟩ := complete
    rw [vssSearchNodes_run rooted.ne_nil free
      (lt_of_le_of_lt (matching_length_le _) few)] at searched
    obtain ⟨after, ran, same⟩ := Option.map_eq_some_iff.mp searched
    cases same
    have length := all.length_le
    rw [length_reverse] at length
    refine (((signalQuery path).tight_ops [] root).1 ?_ (fun _ => 0)
      (tight_of_complete rooted free shallow signals ran length)).1
    intro entry member counts
    have signal : entry.node.data.nodeType ≠ .branch := by
      simpa [Node.counts, signalQuery, queryOf, query, initContext] using counts
    exact length_eq_zero_iff.mp (signals entry member signal).1

def branchesTree : Node := .mk { name := "V", nodeType := .branch }
    [.mk { name := "A", nodeType := .branch } [.mk { name := "X", nodeType := .sensor } []],
      .mk { name := "B", nodeType := .branch } [.mk { name := "Y", nodeType := .sensor } []]]

/-- The first branch is a dead end, before the match in the second. -/
theorem wildcard_search_complete_branches : Complete "V.*.Y" branchesTree := by
  have free : branchesTree.DotFree := by
    simp [branchesTree, Node.DotFree, Node.All, allNodes]
  have spared : ((signalQuery "V.*.Y").reached [] branchesTree).Pairwise fun entry deadEnd =>
      ¬ ((signalQuery "V.*.Y").Fails deadEnd ∧ entry.node.counts true = true) := by
    decide +kernel
  refine (wildcard_search_complete "V.*.Y" branchesTree free (by decide) (by decide)).1
    ⟨_, _, rfl, by decide⟩ (spared.imp ?_)
  intro entry deadEnd spared spoils
  exact spared ⟨spoils.fails.1, spoils.counts⟩

/-- The signal of the first branch is taken back by the second, which has none. -/
theorem wildcard_search_loses_signal : (branchesTree.DotFree ∧ branchesTree.height ≤ 20 ∧
      branchesTree.entries.length < maxFoundNodes - 1) ∧ ¬ Complete "V.*.X" branchesTree := by
  have free : branchesTree.DotFree := by
    simp [branchesTree, Node.DotFree, Node.All, allNodes]
  refine ⟨⟨free, by decide, by decide⟩, ?_⟩
  intro complete
  obtain ⟨found, validation, searched, all⟩ := complete
  have returned : (vssSearchNodes "V.*.X" branchesTree true true []).map (fun result =>
      result.1.length) = some 0 := by
    decide +kernel
  have wanted : (branchesTree.entries.filter fun entry => entry.Wanted "V.*.X").length = 1 := by
    decide +kernel
  rw [searched] at returned
  have none_ : found.length = 0 := Option.some.inj returned
  have length := all.length_le
  omega

end Vissr.Tree
