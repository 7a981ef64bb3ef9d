import Vissr.Tree.Progress

/-! A search returns when each wildcard on the way to a node has a counter. -/

namespace Vissr.Tree

namespace Query

variable (q : Query)

/-- A context below these nodes, with an index up to a bound. -/
structure Fits (parents : List Node) (bound : Int) (context : SearchContext) : Prop where
  searchPath : context.searchPath = q.path
  maxDepth : context.maxDepth = q.maxDepth
  currentDepth : context.currentDepth = parents.length
  slots : context.speculativeMatches.length = 20
  index : context.speculationIndex ≤ bound

section Steps

variable {q} {parents : List Node} {node : Node} {bound : Int} {context : SearchContext}

section

variable (fits : q.Fits parents bound context)

include fits

theorem Fits.nextSegment : getPathSegment 1 context = pathSegment q.path parents.length := by
  rw [getPathSegment, fits.searchPath, fits.currentDepth]
  rfl

theorem Fits.mono {bound' : Int} (less : bound ≤ bound') : q.Fits parents bound' context :=
  ⟨fits.searchPath, fits.maxDepth, fits.currentDepth, fits.slots, Int.le_trans fits.index less⟩

theorem Fits.incDepth : q.Fits (node :: parents) bound (incDepth node.name context) :=
  ⟨fits.searchPath, fits.maxDepth, congrArg (· + 1) fits.currentDepth, fits.slots, fits.index⟩

end

theorem Fits.star (fits : q.Fits (node :: parents) bound context) :
    (if getPathSegment 0 context = "*" then 1 else 0 : Int) = q.star parents.length := by
  rw [getPathSegment, fits.searchPath, fits.currentDepth]
  exact star_eq parents.length

theorem Fits.level (fits : q.Fits parents bound context) (low : bound < 20) :
    context.level ≤ context.journal.counts.length := by
  have slots : context.journal.counts.length = 20 := fits.slots
  have index := fits.index
  rw [SearchContext.level]
  omega

theorem Fits.withJournal {journal : Journal Match} (fits : q.Fits parents bound context)
    (slots : journal.counts.length = context.journal.counts.length) :
    q.Fits parents bound (context.withJournal journal) :=
  ⟨fits.searchPath, fits.maxDepth, fits.currentDepth, slots.trans fits.slots, fits.index⟩

theorem Fits.enterNode (fits : q.Fits (node :: parents) bound context) :
    q.Fits (node :: parents) (bound + q.star parents.length) (enterNode node context) := by
  refine ⟨fits.searchPath, fits.maxDepth, fits.currentDepth, fits.slots, ?_⟩
  have index := fits.index
  simp only [Tree.enterNode, fits.star]
  omega

theorem keepMatch_returns (fits : q.Fits (node :: parents) bound context) (low : bound < 20) :
    ∃ after, keepMatch parents node context = some after ∧
      q.Fits (node :: parents) bound after := by
  rw [keepMatch_eq]
  split_ifs
  · obtain ⟨journal, pushed⟩ := Journal.push_eq (fits.level low)
    rw [pushed]
    exact ⟨_, rfl, fits.withJournal (Journal.push_cases pushed).2.2.1⟩
  · exact ⟨_, rfl, fits⟩

theorem leave_returns (succeeded : Nat) (fits : q.Fits (node :: parents) bound context)
    (low : bound < 20) : ∃ after, leave (context, succeeded) = some (after, succeeded) ∧
      q.Fits parents (bound - q.star parents.length) after := by
  have settles : ∃ journal, context.journal.settle context.level (succeeded = 0) = some journal :=
    Journal.settle_eq (fits.level low)
  obtain ⟨journal, settled⟩ := settles
  have kept := fits.withJournal (Journal.settle_cases settled).2.2.1
  have index := kept.index
  rw [leave, decDepth, dropSpeculative_eq, settled]
  refine ⟨_, rfl, kept.searchPath, kept.maxDepth, ?_, kept.slots, ?_⟩
  · exact congrArg (· - 1) kept.currentDepth
  · simp only [kept.star]
    omega

theorem saveMatchingNode_returns (fits : q.Fits (node :: parents) bound context)
    (low : bound + q.star parents.length < 20) :
    ∃ after done succeeded, saveMatchingNode parents node context = some (after, done, succeeded) ∧
      q.Fits (node :: parents) (bound + q.star parents.length) after ∧
      (done = false → (node :: parents).length ≠ q.maxDepth) := by
  rw [saveMatchingNode]
  split_ifs
  · refine ⟨context, true, 0, rfl, fits.mono (by omega), ?_⟩
    intro going
    cases going
  · obtain ⟨after, kept, still⟩ := keepMatch_returns fits.enterNode low
    rw [kept]
    refine ⟨_, _, _, rfl, still, ?_⟩
    intro going deepest
    rw [goesNoDeeper, still.currentDepth, still.maxDepth, decide_eq_true deepest] at going
    simp at going

end Steps

mutual

theorem traverseNode_returns (scope : q.noScopeList = []) (node : Node) (parents : List Node)
    (bound : Int) (context : SearchContext) (fits : q.Fits parents bound context)
    (low : bound < q.stars parents.length)
    (few : ∀ entry ∈ q.reached parents node, q.stars entry.depth ≤ 20) :
    ∃ after succeeded, traverseNode parents node context = some (after, succeeded) ∧
      q.Fits parents bound after := by
  match node with
  | .mk data child =>
    have here : q.stars (parents.length + 1) ≤ 20 := by
      apply few (entryOf parents (.mk data child))
      rw [reached]
      exact List.mem_cons_self
    have more : q.stars (parents.length + 1) = q.stars parents.length + q.star parents.length := rfl
    have inside : q.Fits (.mk data child :: parents) bound (incDepth data.name context) :=
      fits.incDepth
    rw [traverseNode]
    simp only
    split_ifs
    · obtain ⟨saved, done, part, saves, still, deeper⟩ := saveMatchingNode_returns inside (by omega)
      rw [saves, Option.bind_some]
      cases done with
      | true =>
        obtain ⟨after, left, last⟩ := leave_returns part still (by omega)
        exact ⟨after, part, left, last.mono (by omega)⟩
      | false =>
        rw [reached, if_neg (not_stops scope (deeper rfl))] at few
        rcases traverseChildren_returns scope child (.mk data child :: parents) _ saved part
          still (by rw [List.length_cons]; omega)
          (fun entry mem => few entry (List.mem_cons_of_mem _ mem)) with
          ⟨next, total, searched, kept⟩
        obtain ⟨after, left, last⟩ := leave_returns total kept (by omega)
        simp only [Bool.false_eq_true, if_false, still.nextSegment]
        rw [searched, Option.bind_some]
        exact ⟨after, total, left, last.mono (by omega)⟩
    · obtain ⟨after, left, last⟩ := leave_returns 0 inside (by omega)
      exact ⟨after, 0, left, last.mono (by omega)⟩

theorem traverseChildren_returns (scope : q.noScopeList = []) (nodes : List Node)
    (parents : List Node) (bound : Int) (context : SearchContext) (sofar : Nat)
    (fits : q.Fits parents bound context) (low : bound < q.stars parents.length)
    (few : ∀ entry ∈ q.reachedBelow parents nodes, q.stars entry.depth ≤ 20) : ∃ after succeeded,
      traverseChildren parents (pathSegment q.path parents.length) nodes (context, sofar) =
        some (after, succeeded) ∧ q.Fits parents bound after := by
  match nodes with
  | [] => exact ⟨context, sofar, rfl, fits⟩
  | node :: nodes =>
    rw [traverseChildren]
    rw [reachedBelow] at few
    split_ifs at few ⊢
    · rcases traverseNode_returns scope node parents bound context fits low
        (fun entry mem => few entry (List.mem_append_left _ mem)) with
        ⟨next, more, searched, kept⟩
      rw [searched, Option.bind_some]
      exact traverseChildren_returns scope nodes parents bound next _ kept low
        (fun entry mem => few entry (List.mem_append_right _ mem))
    · exact traverseChildren_returns scope nodes parents bound context sofar fits low few

end

end Query

variable {path : Str} {root : Node} {anyDepth leafNodesOnly : Bool} {noScopeList : List Str}

theorem vssSearchNodes_returns (nonempty : path ≠ [])
    (few : ∀ entry ∈ (queryOf path anyDepth leafNodesOnly []).reached [] root,
      (queryOf path anyDepth leafNodesOnly []).stars entry.depth ≤ 20) : ∃ found validation,
      vssSearchNodes path root anyDepth leafNodesOnly noScopeList = some (found, validation) := by
  rcases Query.traverseNode_returns (queryOf path anyDepth leafNodesOnly []) rfl root [] (-1)
    (initContext path anyDepth leafNodesOnly noScopeList) ⟨rfl, rfl, rfl, rfl, Int.le_refl _⟩
    (Int.negSucc_lt_zero 0) few with ⟨after, succeeded, searched, _⟩
  refine ⟨after.found.reverse, after.maxValidation, ?_⟩
  rw [vssSearchNodes, if_neg nonempty, searched]
  rfl

theorem stars_of_shallow (q : Query) (shallow : root.height ≤ 20) :
    ∀ entry ∈ q.reached [] root, q.stars entry.depth ≤ 20 := by
  intro entry mem
  have depth := depth_le_of_mem ((Query.reached_sublist [] root).mem mem)
  have stars := q.stars_le entry.depth
  simp only [List.length_nil] at depth
  omega

end Vissr.Tree
