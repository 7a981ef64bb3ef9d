import Vissr.Journal
import Vissr.Tree.Reached

/-! The search as its progress: the speculation index, the joined validation and the journal. -/

namespace Vissr.Tree

namespace SearchContext

variable (context : SearchContext)

def journal : Journal Match := ⟨context.found, context.speculativeMatches⟩

def level : Nat := (context.speculationIndex + 1).toNat

def withJournal (journal : Journal Match) : SearchContext :=
  { context with found := journal.entries, speculativeMatches := journal.counts }

end SearchContext

section Journals

variable {context : SearchContext}

theorem level_cases (context : SearchContext) : (context.speculationIndex < 0 ∧ context.level = 0) ∨
      (¬ context.speculationIndex < 0 ∧ context.level = context.speculationIndex.toNat + 1) := by
  rw [SearchContext.level]
  omega

theorem keepMatch_eq (parents : List Node) (node : Node) : keepMatch parents node context =
      if node.counts context.leafNodesOnly then
        (context.journal.push context.level ⟨context.matchPath, node, parents⟩).map
          context.withJournal
      else some context := by
  rw [keepMatch]
  refine if_congr Iff.rfl ?_ rfl
  obtain ⟨negative, level⟩ | ⟨inside, level⟩ := level_cases context
  · rw [level]
    exact if_pos negative
  · rw [level, Journal.push, Option.map_map]
    exact if_neg inside

theorem dropSpeculative_eq (succeeded : Nat) : dropSpeculative succeeded context =
      (context.journal.settle context.level (succeeded = 0)).map context.withJournal := by
  rw [dropSpeculative]
  obtain ⟨negative, level⟩ | ⟨inside, level⟩ := level_cases context
  · rw [level]
    exact if_pos negative
  · rw [level, Journal.settle, if_neg inside, Option.map_map]
    refine Option.map_congr fun n _ => ?_
    simp only [decide_eq_true_eq, Function.comp]
    split_ifs <;> rfl

end Journals

structure Progress where
  index : Int
  validation : Nat
  journal : Journal Match

namespace Progress

variable (p : Progress)

def level : Nat := (p.index + 1).toNat

theorem index_nonneg_iff : 0 ≤ p.index ↔ 0 < p.level := by
  rw [level]
  omega

def start : Progress := ⟨-1, 0, ⟨[], List.replicate 20 0⟩⟩

def full : Bool := p.journal.entries.length = maxFoundNodes - 1

end Progress

namespace Query

variable (q : Query) (parents : List Node)

def context (p : Progress) : SearchContext where
  searchPath := q.path
  maxDepth := q.maxDepth
  leafNodesOnly := q.leafNodesOnly
  noScopeList := q.noScopeList
  matchPath := pathOf parents
  currentDepth := parents.length
  speculationIndex := p.index
  speculativeMatches := p.journal.counts
  maxValidation := p.validation
  found := p.journal.entries

variable (node : Node)

def entered (p : Progress) : Progress where
  index := p.index + q.star parents.length
  validation := getMaxValidation node.validate p.validation
  journal := p.journal

def recorded (p : Progress) : Option Progress :=
  if node.counts q.leafNodesOnly then
    (p.journal.push p.level (entryOf parents node)).map fun journal => { p with journal }
  else some p

/-- Whether the node ends a speculation with success. -/
def lands : Bool := (node.child.length = 0 && countSegments q.path ≤ parents.length + 1) ||
    parents.length + 1 = q.maxDepth

def landing (p : Progress) : Nat :=
  if 0 < p.level ∧ q.lands parents node then 1 else 0

/-- The name of the root does not have to match. -/
def Enters : Prop :=
  parents = [] ∨ compareNodeName node.name (pathSegment q.path parents.length) = true

theorem initContext_eq (path : Str) (anyDepth leafNodesOnly : Bool) (noScopeList : List Str) :
    initContext path anyDepth leafNodesOnly noScopeList =
      (queryOf path anyDepth leafNodesOnly noScopeList).context [] .start := rfl

variable {q} {parents : List Node} {node : Node} {p : Progress}

theorem incDepth_context :
    incDepth node.name (q.context parents p) = q.context (node :: parents) p := by
  cases parents with
  | nil => rfl
  | cons parent rest =>
    simp only [incDepth, pushPathSegment, context, List.length_cons, Nat.zero_lt_succ, if_true,
      pathOf_cons node (List.cons_ne_nil parent rest)]

theorem getPathSegment_context (chain : List Node) (offset : Nat) :
    getPathSegment offset (q.context chain p) =
      pathSegment q.path (chain.length + offset - 1) := rfl

theorem star_eq (depth : Nat) :
    (if pathSegment q.path depth = "*" then 1 else 0 : Int) = q.star depth := by
  rw [star]
  split_ifs <;> rfl

theorem enterNode_context : enterNode node (q.context (node :: parents) p) =
      q.context (node :: parents) (q.entered parents node p) := by
  rw [enterNode, getPathSegment_context]
  simp only [List.length_cons, Nat.add_zero, Nat.add_sub_cancel, star_eq]
  rfl

theorem keepMatch_context : keepMatch parents node (q.context (node :: parents) p) =
      (q.recorded parents node p).map (q.context (node :: parents)) := by
  rw [keepMatch_eq, recorded]
  by_cases counts : node.counts q.leafNodesOnly = true
  · rw [if_pos counts, Option.map_map]
    exact if_pos counts
  · rw [if_neg counts]
    exact if_neg counts

theorem goesNoDeeper_context : goesNoDeeper node (q.context (node :: parents) p) =
      (decide (node.child.length = 0) || decide (q.Stops (node :: parents))) := by
  have scope : isEndOfScope (q.context (node :: parents) p) = true ↔
      pathOf (node :: parents) ∈ q.noScopeList := List.contains_iff_mem
  rw [Bool.eq_iff_iff, goesNoDeeper, Bool.or_eq_true, Bool.or_eq_true, Bool.or_eq_true, scope,
    decide_eq_true_iff, decide_eq_true_iff, decide_eq_true_iff, or_assoc]
  rfl

theorem speculationResult_context :
    speculationResult node (q.context (node :: parents) p) = q.landing parents node p := by
  simp [speculationResult, landing, lands, context, p.index_nonneg_iff]

theorem leave_context (free : '.' ∉ node.name) (succeeded : Nat) :
    leave (q.context (node :: parents) p, succeeded) =
      (p.journal.settle p.level (succeeded = 0)).map fun journal =>
        (q.context parents ⟨p.index - q.star parents.length, p.validation, journal⟩,
          succeeded) := by
  rw [leave, decDepth, dropSpeculative_eq, Option.map_map, Option.map_map]
  refine Option.map_congr fun journal _ => ?_
  have same : (q.context (node :: parents) p).withJournal journal =
      q.context (node :: parents) { p with journal } := rfl
  simp only [Function.comp, same, getPathSegment_context, List.length_cons, Nat.add_zero,
    Nat.add_sub_cancel, star_eq]
  simp only [context, popPathSegment_pathOf parents free, List.length_cons, Nat.add_sub_cancel]

theorem entersNode_context (enters : q.Enters parents node) :
    entersNode node (q.context (node :: parents) p) = true := by
  rw [entersNode, Bool.or_eq_true]
  obtain rfl | named := enters
  · exact .inl (decide_eq_true rfl)
  · exact .inr named

theorem traverseNode_context (p : Progress) (enters : q.Enters parents node) :
    traverseNode parents node (q.context parents p) =
      if p.full then leave (q.context (node :: parents) p, 0)
      else (q.recorded parents node (q.entered parents node p)).bind fun p =>
          (if q.Stops (node :: parents) then
            some (q.context (node :: parents) p, q.landing parents node p)
          else traverseChildren (node :: parents) (pathSegment q.path (node :: parents).length)
              node.child (q.context (node :: parents) p, q.landing parents node p)).bind leave := by
  obtain ⟨data, child⟩ := node
  have inside := @incDepth_context q parents (.mk data child) p
  simp only [Node.name, Node.data] at inside
  rw [traverseNode]
  simp only [inside, entersNode_context enters, if_true, saveMatchingNode]
  by_cases full : p.full = true
  · have limit : (q.context (.mk data child :: parents) p).found.length = maxFoundNodes - 1 :=
      of_decide_eq_true full
    rw [if_pos limit, if_pos full]
    rfl
  · have limit : (q.context (.mk data child :: parents) p).found.length ≠ maxFoundNodes - 1 :=
      fun same => full (decide_eq_true same)
    rw [if_neg limit, if_neg full, enterNode_context, keepMatch_context, Option.map_map,
      Option.bind_map]
    refine Option.bind_congr fun p _ => ?_
    simp only [Function.comp, goesNoDeeper_context, speculationResult_context]
    by_cases stops : q.Stops (.mk data child :: parents)
    · rw [if_pos (by simp [stops]), if_pos stops]
      rfl
    · rw [if_neg stops]
      cases child with
      | nil => rfl
      | cons =>
        rw [if_neg (by simp [stops, Node.child])]
        rfl

end Query

end Vissr.Tree
