import Vissr.Tree.Integrity

/-! A search panics when a wildcard on the way to a node has no counter. -/

namespace Vissr.Tree

open Option

namespace Query

variable (q : Query)

/-- A context below these nodes, with a bound for its matches. -/
structure Tracks (parents : List Node) (focus : Int) (number : Nat) (context : SearchContext) :
    Prop extends q.Fits parents focus context where
  exactly : context.speculationIndex = focus
  scope : context.noScopeList = []
  leaves : context.leafNodesOnly = q.leafNodesOnly
  found : context.found.length ≤ number

section Steps

variable {q} {parents : List Node} {node : Node} {focus : Int} {number : Nat}
  {context after : SearchContext}

theorem Tracks.incDepth (tracks : q.Tracks parents focus number context) :
    q.Tracks (node :: parents) focus number (incDepth node.name context) :=
  ⟨tracks.toFits.incDepth, tracks.exactly, tracks.scope, tracks.leaves, tracks.found⟩

theorem Tracks.enterNode (tracks : q.Tracks (node :: parents) focus number context) :
    q.Tracks (node :: parents) (focus + q.star parents.length) number (enterNode node context) := by
  refine ⟨tracks.toFits.enterNode, ?_, tracks.scope, tracks.leaves, tracks.found⟩
  simp only [Tree.enterNode, tracks.toFits.star, tracks.exactly]

theorem Tracks.level (tracks : q.Tracks parents focus number context)
    (inside : context.level ≤ context.journal.counts.length) : focus < 20 := by
  have slots : context.journal.counts.length = 20 := tracks.slots
  have exactly := tracks.exactly
  rw [SearchContext.level] at inside
  omega

theorem keepMatch_tracks (tracks : q.Tracks (node :: parents) focus number context)
    (kept : keepMatch parents node context = some after) : q.Tracks (node :: parents) focus
      (number + (q.matching [entryOf parents node]).length) after := by
  have found := tracks.found
  rw [keepMatch_eq, tracks.leaves] at kept
  split_ifs at kept with counts
  · obtain ⟨journal, pushed, rfl⟩ := map_eq_some_iff.mp kept
    obtain ⟨_, entries, slots, _⟩ := Journal.push_cases pushed
    refine ⟨tracks.toFits.withJournal slots, tracks.exactly, tracks.scope, tracks.leaves, ?_⟩
    change journal.entries.length ≤ _
    rw [entries, q.matching_counts counts]
    exact Nat.succ_le_succ found
  · cases kept
    rw [q.matching_idle counts]
    exact tracks

theorem leave_tracks {succeeded part : Nat}
    (tracks : q.Tracks (node :: parents) focus number context)
    (left : leave (context, succeeded) = some (after, part)) :
    focus < 20 ∧ q.Tracks parents (focus - q.star parents.length) number after := by
  rw [leave, decDepth, dropSpeculative_eq, map_map, map_map] at left
  obtain ⟨journal, settled, same⟩ := map_eq_some_iff.mp left
  obtain ⟨inside, _, slots, _⟩ := Journal.settle_cases settled
  have shorter := (Journal.settle_sublist settled).length_le
  have kept := tracks.toFits.withJournal slots
  cases same
  refine ⟨tracks.level inside, ⟨kept.searchPath, kept.maxDepth, ?_, kept.slots, ?_⟩, ?_,
    tracks.scope, tracks.leaves, shorter.trans tracks.found⟩
  · exact congrArg (· - 1) kept.currentDepth
  · have exactly : (context.withJournal journal).speculationIndex = focus := tracks.exactly
    simp only [kept.star, exactly, Int.le_refl]
  · have exactly : (context.withJournal journal).speculationIndex = focus := tracks.exactly
    simp only [kept.star, exactly]

theorem leave_tracks_back {succeeded part : Nat}
    (tracks : q.Tracks (node :: parents) (q.stars (parents.length + 1) - 1) number context)
    (left : leave (context, succeeded) = some (after, part)) :
    q.stars (parents.length + 1) ≤ 20 ∧ q.Tracks parents (q.stars parents.length - 1) number after := by
  obtain ⟨counter, last⟩ := leave_tracks tracks left
  have back : (q.stars (parents.length + 1) : Int) - 1 - q.star parents.length =
      q.stars parents.length - 1 := by
    have more : q.stars (parents.length + 1) = q.stars parents.length + q.star parents.length := rfl
    omega
  rw [back] at last
  exact ⟨by omega, last⟩

theorem saveMatchingNode_tracks {done : Bool} {part : Nat}
    (tracks : q.Tracks (node :: parents) focus number context) (room : number < maxFoundNodes - 1)
    (saved : saveMatchingNode parents node context = some (after, done, part)) :
    q.Tracks (node :: parents) (focus + q.star parents.length)
        (number + (q.matching [entryOf parents node]).length) after ∧
      (done = true ↔ node.child = [] ∨ (node :: parents).length = q.maxDepth) := by
  have found := tracks.found
  rw [saveMatchingNode, if_neg (by omega)] at saved
  obtain ⟨next, kept, same⟩ := map_eq_some_iff.mp saved
  have still := keepMatch_tracks tracks.enterNode kept
  cases same
  refine ⟨still, ?_⟩
  rw [goesNoDeeper, isEndOfScope, still.scope, still.currentDepth, still.maxDepth]
  simp

theorem Tracks.entersNode (tracks : q.Tracks (node :: parents) focus number context)
    (enters : q.Enters parents node) : entersNode node context = true := by
  rw [Tree.entersNode, Bool.or_eq_true, tracks.currentDepth]
  obtain rfl | named := enters
  · exact .inl (decide_eq_true rfl)
  · rw [getPathSegment, tracks.searchPath, tracks.currentDepth]
    exact .inr named

end Steps

mutual

theorem traverseNode_in_range (scope : q.noScopeList = []) (node : Node) (parents : List Node)
    (number : Nat) (context after : SearchContext) (succeeded : Nat)
    (tracks : q.Tracks parents (q.stars parents.length - 1) number context)
    (enters : q.Enters parents node)
    (room : number + (q.matching (q.reached parents node)).length < maxFoundNodes - 1)
    (returned : traverseNode parents node context = some (after, succeeded)) :
    (∀ entry ∈ q.reached parents node, q.stars entry.depth ≤ 20) ∧
      q.Tracks parents (q.stars parents.length - 1)
        (number + (q.matching (q.reached parents node)).length) after := by
  match node with
  | .mk data child =>
    have inside : q.Tracks (.mk data child :: parents) (q.stars parents.length - 1) number
        (incDepth data.name context) := tracks.incDepth
    rw [traverseNode] at returned
    simp only [if_pos (inside.entersNode enters)] at returned
    obtain ⟨⟨saved, done, part⟩, saves, goes⟩ := bind_eq_some_iff.mp returned
    obtain ⟨still, ends⟩ := saveMatchingNode_tracks inside (by omega) saves
    have enter : (q.stars parents.length : Int) - 1 + q.star parents.length =
        q.stars (parents.length + 1) - 1 := by
      have more : q.stars (parents.length + 1) = q.stars parents.length + q.star parents.length :=
        rfl
      omega
    rw [enter] at still
    rw [reached, matching_cons, List.length_append, ← Nat.add_assoc] at room ⊢
    cases done with
    | true =>
      obtain ⟨counter, last⟩ := leave_tracks_back still goes
      have none : (if q.Stops (.mk data child :: parents) then []
          else q.reachedBelow (.mk data child :: parents) child) = [] := by
        obtain childless | deepest := ends.mp rfl
        · have childless : child = [] := childless
          rw [childless, reachedBelow, ite_self]
        · exact if_pos (.inl deepest)
      rw [none]
      exact ⟨List.forall_mem_singleton.mpr counter, last⟩
    | false =>
      have deeper : (Node.mk data child :: parents).length ≠ q.maxDepth := by
        intro deepest
        cases ends.mpr (.inr deepest)
      rw [if_neg (not_stops scope deeper)] at room ⊢
      simp only [Bool.false_eq_true, if_false, still.nextSegment] at goes
      obtain ⟨⟨next, total⟩, searched, left⟩ := bind_eq_some_iff.mp goes
      rcases traverseChildren_in_range scope child (.mk data child :: parents) _ saved next part
        total still room searched with ⟨below, kept⟩
      obtain ⟨counter, last⟩ := leave_tracks_back kept left
      exact ⟨List.forall_mem_cons.mpr ⟨counter, below⟩, last⟩

theorem traverseChildren_in_range (scope : q.noScopeList = []) (nodes : List Node)
    (parents : List Node) (number : Nat) (context after : SearchContext) (sofar succeeded : Nat)
    (tracks : q.Tracks parents (q.stars parents.length - 1) number context)
    (room : number + (q.matching (q.reachedBelow parents nodes)).length < maxFoundNodes - 1)
    (returned : traverseChildren parents (pathSegment q.path parents.length) nodes
      (context, sofar) = some (after, succeeded)) :
    (∀ entry ∈ q.reachedBelow parents nodes, q.stars entry.depth ≤ 20) ∧
      q.Tracks parents (q.stars parents.length - 1)
        (number + (q.matching (q.reachedBelow parents nodes)).length) after := by
  match nodes with
  | [] =>
    cases returned
    exact ⟨fun _ mem => absurd mem List.not_mem_nil, tracks⟩
  | node :: nodes =>
    rw [traverseChildren] at returned
    rw [reachedBelow] at room ⊢
    split_ifs at returned room ⊢ with named
    · obtain ⟨⟨next, more⟩, searched, later⟩ := bind_eq_some_iff.mp returned
      rw [matching_append, List.length_append, ← Nat.add_assoc] at room ⊢
      rcases traverseNode_in_range scope node parents number context next more tracks
        (.inr named) (by omega) searched with ⟨first, kept⟩
      rcases traverseChildren_in_range scope nodes parents _ next after _ succeeded kept room
        later with ⟨others, last⟩
      exact ⟨List.forall_mem_append.mpr ⟨first, others⟩, last⟩
    · exact traverseChildren_in_range scope nodes parents number context after sofar succeeded
        tracks room returned

end

end Query

theorem vssSearchNodes_in_range {path : Str} {root : Node} {anyDepth leafNodesOnly : Bool}
    (room : ((queryOf path anyDepth leafNodesOnly []).matching
      ((queryOf path anyDepth leafNodesOnly []).reached [] root)).length < maxFoundNodes - 1)
    (returned : (vssSearchNodes path root anyDepth leafNodesOnly []).isSome = true) :
    ∀ entry ∈ (queryOf path anyDepth leafNodesOnly []).reached [] root,
      (queryOf path anyDepth leafNodesOnly []).stars entry.depth ≤ 20 := by
  obtain ⟨result, found⟩ := isSome_iff_exists.mp returned
  rw [vssSearchNodes] at found
  split_ifs at found
  obtain ⟨⟨after, succeeded⟩, searched, _⟩ := map_eq_some_iff.mp found
  exact (Query.traverseNode_in_range (queryOf path anyDepth leafNodesOnly []) rfl root [] 0
    (initContext path anyDepth leafNodesOnly []) after succeeded
    ⟨⟨rfl, rfl, rfl, rfl, Int.le_refl _⟩, rfl, rfl, rfl, Nat.le_refl _⟩ (.inl rfl)
    (by omega) searched).1

end Vissr.Tree
