import Vissr.Tree.Integrity

/-! The search as a run of its journal, which the tree and the path fix below the size limit. -/

namespace Vissr.Tree

open List Option Nat Function Journal Query Progress

namespace Query

variable (q : Query) (parents : List Node)

def levelAt : Nat := q.stars (parents.length + 1)

variable (node : Node)

def ownSuccess : Nat :=
  if 0 < q.levelAt parents ∧ q.lands parents node then 1 else 0

mutual

def successes (parents : List Node) : Node → Nat
  | .mk data child =>
    q.ownSuccess parents (.mk data child) +
      if q.Stops (.mk data child :: parents) then 0
      else successesBelow (.mk data child :: parents) child

def successesBelow (parents : List Node) : List Node → Nat
  | [] => 0
  | node :: nodes =>
    (if compareNodeName node.name (pathSegment q.path parents.length) then
      successes parents node
    else 0) + successesBelow parents nodes

end

def record : List (Journal.Op Match) :=
  if node.counts q.leafNodesOnly then [.push (q.levelAt parents) (entryOf parents node)] else []

def settlement : Journal.Op Match := .settle (q.levelAt parents) (q.successes parents node = 0)

mutual

def ops (parents : List Node) : Node → List (Journal.Op Match)
  | .mk data child =>
    q.record parents (.mk data child) ++ ((if q.Stops (.mk data child :: parents) then []
        else opsBelow (.mk data child :: parents) child) ++
      [q.settlement parents (.mk data child)])

def opsBelow (parents : List Node) : List Node → List (Journal.Op Match)
  | [] => []
  | node :: nodes =>
    (if compareNodeName node.name (pathSegment q.path parents.length) then ops parents node
    else []) ++ opsBelow parents nodes

end

theorem successes_eq : q.successes parents node = q.ownSuccess parents node +
      if q.Stops (node :: parents) then 0 else q.successesBelow (node :: parents) node.child := by
  cases node
  rw [successes]
  rfl

theorem ops_eq : q.ops parents node = q.record parents node ++
      ((if q.Stops (node :: parents) then [] else q.opsBelow (node :: parents) node.child) ++
        [q.settlement parents node]) := by
  cases node
  rw [ops]
  rfl

def under : List Match :=
  if q.Stops (node :: parents) then [] else q.reachedBelow (node :: parents) node.child

def opsUnder : List (Journal.Op Match) :=
  if q.Stops (node :: parents) then [] else q.opsBelow (node :: parents) node.child

theorem reached_under : q.reached parents node = entryOf parents node :: q.under parents node :=
  q.reached_eq parents node

theorem ops_under : q.ops parents node =
      q.record parents node ++ (q.opsUnder parents node ++ [q.settlement parents node]) :=
  q.ops_eq parents node

/-- What holds of nothing, of a sequence, and of a node when below it, holds of what is reached. -/
theorem ops_rule {R : List Match → List (Journal.Op Match) → Prop} (nil : R [] [])
    (append : ∀ {entries more ops next}, R entries ops → R more next →
      R (entries ++ more) (ops ++ next))
    (node : ∀ parents node, R (q.under parents node) (q.opsUnder parents node) →
      R (q.reached parents node) (q.ops parents node)) (parents : List Node) (tree : Node) :
    R (q.reached parents tree) (q.ops parents tree) := by
  have below (parents nodes : List Node)
      (each : ∀ child ∈ nodes, R (q.reached parents child) (q.ops parents child)) :
      R (q.reachedBelow parents nodes) (q.opsBelow parents nodes) := by
    induction nodes with
    | nil => exact nil
    | cons child nodes ih =>
      rw [reachedBelow, opsBelow]
      refine append ?_ (ih (forall_mem_cons.mp each).2)
      split_ifs
      · exact each child mem_cons_self
      · exact nil
  induction tree using Node.induction generalizing parents with
  | step tree ih =>
    apply node
    rw [under, opsUnder]
    split_ifs
    · exact nil
    · exact below _ _ fun child inside => ih child inside _

/-- The validation after a number of nodes. -/
def joined (entries : List Match) (validation : Nat) : Nat :=
  entries.foldl (fun validation entry => getMaxValidation entry.node.validate validation) validation

def progress (validation : Nat) (journal : Journal Match) : Progress :=
  ⟨q.stars parents.length - 1, validation, journal⟩

section Steps

variable {q} {parents : List Node} {node : Node} {validation : Nat} {j after : Journal Match}

theorem level_progress : (q.progress parents validation j).level = q.stars parents.length := by
  simp only [progress, level]
  omega

theorem entered_progress : q.entered parents node (q.progress parents validation j) =
      q.progress (node :: parents) (getMaxValidation node.validate validation) j := by
  have index : (q.stars parents.length : Int) - 1 + q.star parents.length =
      (q.stars (node :: parents).length : Int) - 1 := by
    rw [length_cons, stars]
    omega
  simp only [entered, progress, index]

theorem recorded_run : q.recorded parents node (q.progress (node :: parents) validation j) =
      (run (q.record parents node) j).map (q.progress (node :: parents) validation) := by
  rw [recorded, record]
  split_ifs
  · rw [run_singleton, level_progress]
    rfl
  · rfl

theorem landing_progress : q.landing parents node (q.progress (node :: parents) validation j) =
      q.ownSuccess parents node := by
  rw [landing, level_progress]
  rfl

theorem leave_run (free : '.' ∉ node.name) :
    leave (q.context (node :: parents) (q.progress (node :: parents) validation j),
        q.successes parents node) = (run [q.settlement parents node] j).map fun after =>
        (q.context parents (q.progress parents validation after), q.successes parents node) := by
  have index : (q.stars (node :: parents).length : Int) - 1 - q.star parents.length =
      (q.stars parents.length : Int) - 1 := by
    rw [length_cons, stars]
    omega
  rw [leave_context free, level_progress, run_singleton]
  simp only [progress, index]
  rfl

theorem pushed_record :
    (q.record parents node).filterMap Journal.Op.pushed = q.matching [entryOf parents node] := by
  rw [record]
  by_cases counts : node.counts q.leafNodesOnly = true
  · rw [if_pos counts, q.matching_counts counts]
    rfl
  · rw [if_neg counts, q.matching_idle counts]
    rfl

end Steps

theorem pushed_ops (parents : List Node) (node : Node) :
    (q.ops parents node).filterMap Journal.Op.pushed = q.matching (q.reached parents node) := by
  refine q.ops_rule (R := fun entries ops => ops.filterMap Journal.Op.pushed = q.matching entries)
    rfl ?_ ?_ parents node
  · intro entries more ops next first second
    rw [filterMap_append, matching_append, first, second]
  · intro parents node below
    rw [ops_under, reached_under, matching_cons, filterMap_append, filterMap_append,
      pushed_record, below]
    exact congrArg _ (append_nil _)

theorem mem_record {parents : List Node} {node : Node} {op : Journal.Op Match}
    (mem : op ∈ q.record parents node) : op = .push (q.levelAt parents) (entryOf parents node) ∧
      node.counts q.leafNodesOnly = true := by
  rw [record] at mem
  split_ifs at mem with counts
  · exact ⟨mem_singleton.mp mem, counts⟩
  · cases mem

theorem mem_ops (node : Node) (parents : List Node) : ∀ op ∈ q.ops parents node,
    ∃ entry ∈ q.reached parents node, op.level = q.stars entry.depth ∧
      ∀ pushed, op.pushed = some pushed →
        pushed = entry ∧ entry.node.counts q.leafNodesOnly = true := by
  refine q.ops_rule (R := fun entries ops => ∀ op ∈ ops, ∃ entry ∈ entries,
    op.level = q.stars entry.depth ∧ ∀ pushed, op.pushed = some pushed →
      pushed = entry ∧ entry.node.counts q.leafNodesOnly = true) nofun ?_ ?_ parents node
  · intro entries more ops next first second op mem
    obtain inside | inside := mem_append.mp mem
    · obtain ⟨entry, found, known⟩ := first op inside
      exact ⟨entry, mem_append_left _ found, known⟩
    · obtain ⟨entry, found, known⟩ := second op inside
      exact ⟨entry, mem_append_right _ found, known⟩
  · intro parents node below op mem
    rw [ops_under] at mem
    rw [reached_under]
    obtain own | mem := mem_append.mp mem
    · obtain ⟨rfl, counts⟩ := q.mem_record own
      refine ⟨_, mem_cons_self, rfl, ?_⟩
      intro pushed same
      cases same
      exact ⟨rfl, counts⟩
    · obtain inside | last := mem_append.mp mem
      · obtain ⟨entry, found, known⟩ := below op inside
        exact ⟨entry, mem_cons_of_mem _ found, known⟩
      · rw [mem_singleton.mp last]
        exact ⟨_, mem_cons_self, rfl, nofun⟩

mutual

theorem traverseNode_run (node : Node) (parents : List Node) (validation : Nat)
    (j : Journal Match) (free : node.DotFree) (enters : q.Enters parents node)
    (room : j.entries.length + (q.matching (q.reached parents node)).length < maxFoundNodes - 1) :
    traverseNode parents node (q.context parents (q.progress parents validation j)) =
      (run (q.ops parents node) j).map fun after =>
        (q.context parents (q.progress parents (joined (q.reached parents node) validation) after),
          q.successes parents node) := by
  have dotFree := (all_iff.mp free).1
  have open_ : ¬ (q.progress parents validation j).full = true := by
    intro full
    have length : j.entries.length = maxFoundNodes - 1 := of_decide_eq_true full
    omega
  rw [q.traverseNode_context _ enters, if_neg open_, entered_progress, recorded_run,
    bind_map, q.ops_eq, run_append]
  cases recorded : run (q.record parents node) j with
  | none => rfl
  | some first =>
    have length := run_length_le recorded
    rw [pushed_record] at length
    rw [reached_eq, matching_cons, length_append] at room
    simp only [bind_some, comp, landing_progress]
    by_cases stops : q.Stops (node :: parents)
    · have total := q.successes_eq parents node
      rw [if_pos stops, add_zero] at total
      rw [if_pos stops, if_pos stops, reached_eq, if_pos stops, nil_append,
        bind_some, ← total, leave_run dotFree]
      rfl
    · have total := q.successes_eq parents node
      rw [if_neg stops] at total
      rw [if_neg stops] at room
      rw [if_neg stops, if_neg stops, reached_eq, if_neg stops, run_append, map_bind]
      match node, free with
      | .mk data child, free =>
        simp only [Node.child] at room total ⊢
        rw [traverseChildren_run child (.mk data child :: parents) _ first free.2 _ (by omega),
          bind_map]
        refine bind_congr fun next _ => ?_
        simp only [comp, ← total, leave_run dotFree]
        rfl

theorem traverseChildren_run (nodes : List Node) (parents : List Node) (validation : Nat)
    (j : Journal Match) (free : allNodes (fun data => '.' ∉ data.name) nodes) (sofar : Nat)
    (room : j.entries.length + (q.matching (q.reachedBelow parents nodes)).length <
      maxFoundNodes - 1) : traverseChildren parents (pathSegment q.path parents.length) nodes
        (q.context parents (q.progress parents validation j), sofar) =
      (run (q.opsBelow parents nodes) j).map fun after => (q.context parents
          (q.progress parents (joined (q.reachedBelow parents nodes) validation) after),
          sofar + q.successesBelow parents nodes) := by
  match nodes, free with
  | [], _ => rfl
  | node :: nodes, free =>
    rw [traverseChildren, opsBelow, reachedBelow, successesBelow]
    rw [reachedBelow, matching_append, length_append] at room
    by_cases named : compareNodeName node.name (pathSegment q.path parents.length) = true
    · rw [if_pos named] at room
      rw [if_pos named, if_pos named, if_pos named, if_pos named,
        traverseNode_run node parents validation j free.1 (.inr named) (by omega),
        run_append, bind_map, map_bind]
      refine bind_congr fun next ran => ?_
      have length := run_length_le ran
      rw [pushed_ops] at length
      simp only [comp]
      rw [traverseChildren_run nodes parents _ next free.2 _ (by omega)]
      simp only [joined, foldl_append, add_assoc]
    · rw [if_neg named, if_neg named, if_neg named, if_neg named, nil_append, nil_append, zero_add]
      rw [if_neg named] at room
      exact traverseChildren_run nodes parents validation j free.2 sofar
        (by simpa [matching_nil] using room)

end

end Query

variable {path : Str} {root : Node} {anyDepth leafNodesOnly : Bool} {noScopeList : List Str}

theorem vssSearchNodes_run (nonempty : path ≠ []) (free : root.DotFree)
    (room : ((queryOf path anyDepth leafNodesOnly noScopeList).matching
      ((queryOf path anyDepth leafNodesOnly noScopeList).reached [] root)).length <
        maxFoundNodes - 1) : vssSearchNodes path root anyDepth leafNodesOnly noScopeList =
      (run ((queryOf path anyDepth leafNodesOnly noScopeList).ops [] root)
        start.journal).map fun after => (after.entries.reverse, joined
            ((queryOf path anyDepth leafNodesOnly noScopeList).reached [] root) 0) := by
  have first : (queryOf path anyDepth leafNodesOnly noScopeList).progress [] 0
      start.journal = .start := rfl
  have searched := traverseNode_run (queryOf path anyDepth leafNodesOnly noScopeList) root []
    0 start.journal free (.inl rfl) (by simpa [start] using room)
  rw [first] at searched
  rw [vssSearchNodes, if_neg nonempty, initContext_eq, searched, Option.map_map]
  rfl

mutual

theorem visited_eq_reached {q : Query} (scope : q.noScopeList = []) (parents : List Node)
    (node : Node) (enters : q.Enters parents node) :
    visited q.path q.maxDepth (parents.length + 1) node =
      (q.reached parents node).map Match.node := by
  match node with
  | .mk data child =>
    have start : parents.length + 1 = 1 ∨
        compareNodeName data.name (pathSegment q.path parents.length) = true :=
      enters.imp (fun root => by rw [root]; rfl) id
    rw [visited, reached]
    simp only [Nat.add_sub_cancel, if_pos start, map_cons]
    by_cases deepest : parents.length + 1 = q.maxDepth
    · have stops : q.Stops (.mk data child :: parents) := .inl deepest
      rw [if_pos stops, map_nil, if_pos deepest]
      rfl
    · have goes : ¬ q.Stops (.mk data child :: parents) := not_stops scope deepest
      rw [if_neg goes, if_neg deepest]
      exact congrArg _ (visitedChildren_eq_reached scope (.mk data child :: parents) child)

theorem visitedChildren_eq_reached {q : Query} (scope : q.noScopeList = [])
    (parents nodes : List Node) :
    visitedChildren q.path q.maxDepth (parents.length + 1) (pathSegment q.path parents.length)
      nodes = (q.reachedBelow parents nodes).map Match.node := by
  match nodes with
  | [] => rfl
  | node :: nodes =>
    rw [visitedChildren, reachedBelow, map_append, visitedChildren_eq_reached scope parents nodes]
    split_ifs with named
    · rw [visited_eq_reached scope parents node (.inr named)]
    · rfl

end

theorem joined_covers {entries : List Match} {validation : Nat} (valid : IsValidation validation)
    (all : ∀ entry ∈ entries, IsValidation entry.node.validate) :
    IsValidation (joined entries validation) ∧ Covers (joined entries validation) validation ∧
      ∀ entry ∈ entries, Covers (joined entries validation) entry.node.validate := by
  induction entries generalizing validation with
  | nil => exact ⟨valid, .refl _, nofun⟩
  | cons first entries ih =>
    obtain ⟨isJoin, coversNode, coversOld⟩ :=
      getMaxValidation_spec _ _ (all first mem_cons_self) valid
    obtain ⟨isLast, grows, covers⟩ :=
      ih isJoin fun entry member => all entry (mem_cons_of_mem _ member)
    refine ⟨isLast, grows.trans coversOld, ?_⟩
    exact forall_mem_cons.mpr ⟨grows.trans coversNode, covers⟩

theorem vssSearchNodes_covers_path {names : List Str} {chain : List Node} {found : List Match}
    {validation : Nat} (tree : root.Validated) (free : root.DotFree)
    (way : Descends root names chain) (plain : Plain (root.name :: names))
    (short : names.length < 100)
    (room : countMatches leafNodesOnly (visited (dotted (root.name :: names)) 100 1 root) <
      maxFoundNodes - 1)
    (searched : vssSearchNodes (dotted (root.name :: names)) root true leafNodesOnly [] =
      some (found, validation)) :
    IsValidation validation ∧ ∀ node ∈ chain, Covers validation node.validate := by
  have nonempty : dotted (root.name :: names) ≠ [] := by
    intro empty
    rw [vssSearchNodes, if_pos empty] at searched
    cases searched
  have seen : visited (dotted (root.name :: names)) 100 1 root =
      ((queryOf (dotted (root.name :: names)) true leafNodesOnly []).reached [] root).map
        Match.node :=
    @visited_eq_reached (queryOf _ true leafNodesOnly []) rfl [] root (.inl rfl)
  rw [seen, countMatches, countP_map, countP_eq_length_filter] at room
  rw [vssSearchNodes_run nonempty free room] at searched
  obtain ⟨after, -, same⟩ := map_eq_some_iff.mp searched
  cases same
  have start : IsValidation 0 := by decide
  obtain ⟨valid, -, covers⟩ := joined_covers start fun entry mem =>
    all_of_mem tree ((reached_sublist [] root).mem mem)
  refine ⟨valid, ?_⟩
  intro node mem
  have visits := mem_visited_of_descends (root.name :: names) 100 plain
    (succ_le_of_lt short) way 1 (by omega) (.inl rfl) rfl node mem
  rw [seen] at visits
  obtain ⟨entry, reached, rfl⟩ := mem_map.mp visits
  exact covers entry reached

end Vissr.Tree
