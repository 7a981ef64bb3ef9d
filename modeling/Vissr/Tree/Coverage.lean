import Vissr.Tree.Search

/-! What a joined validation covers, and what the steps of a search do to it. -/

namespace Vissr.Tree

open Option

/-- The values the access control of a tree file can have. -/
def IsValidation (v : Nat) : Prop := v ∈ [0, 1, 2, 11, 12]
  deriving Decidable

/-- The mode and the consent flag are each at least those of `v`. -/
structure Covers (total v : Nat) : Prop where
  mode : v % 10 ≤ total % 10
  consent : v / 10 ≤ total / 10

theorem Covers.refl (v : Nat) : Covers v v := ⟨Nat.le_refl _, Nat.le_refl _⟩

theorem Covers.trans {a b c : Nat} (left : Covers a b) (right : Covers b c) : Covers a c :=
  ⟨Nat.le_trans right.mode left.mode, Nat.le_trans right.consent left.consent⟩

theorem getMaxValidation_spec (new current : Nat) (isNew : IsValidation new)
    (isCurrent : IsValidation current) :
    IsValidation (getMaxValidation new current) ∧ Covers (getMaxValidation new current) new ∧
      Covers (getMaxValidation new current) current := by
  have table : ∀ a ∈ [0, 1, 2, 11, 12], ∀ b ∈ [0, 1, 2, 11, 12],
      IsValidation (getMaxValidation a b) ∧
        (a % 10 ≤ getMaxValidation a b % 10 ∧ a / 10 ≤ getMaxValidation a b / 10) ∧
          (b % 10 ≤ getMaxValidation a b % 10 ∧ b / 10 ≤ getMaxValidation a b / 10) := by
    decide
  obtain ⟨valid, first, second⟩ := table new isNew current isCurrent
  exact ⟨valid, ⟨first.1, first.2⟩, ⟨second.1, second.2⟩⟩

mutual

def Node.All (p : NodeData → Prop) : Node → Prop
  | .mk data child => p data ∧ allNodes p child

def allNodes (p : NodeData → Prop) : List Node → Prop
  | [] => True
  | node :: nodes => node.All p ∧ allNodes p nodes

end

def Node.Validated (node : Node) : Prop := node.All fun data => IsValidation data.validate

variable {parents : List Node} {node : Node} {context after : SearchContext} {succeeded : Nat}

theorem keepMatch_cases (kept : keepMatch parents node context = some after) :
    after.maxValidation = context.maxValidation ∧
      after.found = (if node.counts context.leafNodesOnly then
        [⟨context.matchPath, node, parents⟩] else []) ++ context.found := by
  unfold keepMatch countSpeculative at kept
  split_ifs at kept with counts
  · cases kept
    exact ⟨rfl, by rw [if_pos counts]; rfl⟩
  · obtain ⟨n, -, same⟩ := map_eq_some_iff.mp kept
    subst same
    exact ⟨rfl, by rw [if_pos counts]; rfl⟩
  · cases kept
    exact ⟨rfl, by rw [if_neg counts]; rfl⟩

theorem saveMatchingNode_cases {done : Bool}
    (saved : saveMatchingNode parents node context = some (after, done, succeeded)) :
    (after = context ∧ done = true) ∨
    (after.maxValidation = getMaxValidation node.validate context.maxValidation ∧
      after.found = (if node.counts context.leafNodesOnly then
        [⟨context.matchPath, node, parents⟩] else []) ++ context.found) := by
  unfold saveMatchingNode at saved
  split_ifs at saved
  · cases saved
    exact .inl ⟨rfl, rfl⟩
  · obtain ⟨kept, keeps, same⟩ := map_eq_some_iff.mp saved
    cases same
    exact .inr (keepMatch_cases keeps)

theorem decDepth_cases (left : decDepth succeeded context = some after) :
    after.maxValidation = context.maxValidation ∧
      (after.found = context.found ∨ after.found = context.found.tail) := by
  obtain ⟨dropped, drops, same⟩ := map_eq_some_iff.mp left
  subst same
  unfold dropSpeculative at drops
  split_ifs at drops
  · cases drops
    exact ⟨rfl, .inl rfl⟩
  · obtain ⟨n, -, same⟩ := map_eq_some_iff.mp drops
    split_ifs at same <;> subst same
    · exact ⟨rfl, .inr rfl⟩
    · exact ⟨rfl, .inl rfl⟩

theorem traverseNode_cases
    (searched : traverseNode parents node context = some (after, succeeded)) :
    ∃ left, decDepth succeeded left = some after ∧
      ((entersNode node (incDepth node.name context) = false ∧ left = incDepth node.name context) ∨
       entersNode node (incDepth node.name context) = true ∧ ∃ saved done part,
        saveMatchingNode parents node (incDepth node.name context) = some (saved, done, part) ∧
          (done = true ∧ left = saved ∨
           done = false ∧ traverseChildren (node :: parents) (getPathSegment 1 saved) node.child
            (saved, part) = some (left, succeeded))) := by
  obtain ⟨data, child⟩ := node
  have leaves (result : SearchContext × Nat) (gone : leave result = some (after, succeeded)) :
      decDepth succeeded result.1 = some after ∧ result.2 = succeeded := by
    obtain ⟨context, left, same⟩ := map_eq_some_iff.mp gone
    cases same
    exact ⟨left, rfl⟩
  rw [traverseNode] at searched
  simp only at searched
  split_ifs at searched with enters
  · obtain ⟨⟨saved, done, part⟩, saves, rest⟩ := bind_eq_some_iff.mp searched
    cases done with
    | true =>
      obtain ⟨left, -⟩ := leaves _ rest
      exact ⟨saved, left, .inr ⟨enters, saved, true, part, saves, .inl ⟨rfl, rfl⟩⟩⟩
    | false =>
      obtain ⟨⟨final, total⟩, children, rest⟩ := bind_eq_some_iff.mp rest
      obtain ⟨left, rfl⟩ := leaves _ rest
      exact ⟨final, left, .inr ⟨enters, saved, false, part, saves, .inr ⟨rfl, children⟩⟩⟩
  · obtain ⟨left, -⟩ := leaves _ searched
    exact ⟨_, left, .inl ⟨Bool.eq_false_iff.mpr enters, rfl⟩⟩

theorem traverseChildren_cases {name : Str} {nodes : List Node} {total : Nat}
    (searched : traverseChildren parents name (node :: nodes) (context, succeeded) =
      some (after, total)) : (compareNodeName node.name name = false ∧
      traverseChildren parents name nodes (context, succeeded) = some (after, total)) ∨
    ∃ next more, compareNodeName node.name name = true ∧
      traverseNode parents node context = some (next, more) ∧
      traverseChildren parents name nodes (next, succeeded + more) = some (after, total) := by
  rw [traverseChildren] at searched
  split_ifs at searched with named
  · obtain ⟨⟨next, more⟩, first, rest⟩ := bind_eq_some_iff.mp searched
    exact .inr ⟨next, more, named, first, rest⟩
  · exact .inl ⟨by simpa using named, searched⟩

theorem leave_empty (context : SearchContext) (succeeded : Nat) (empty : context.found = [])
    (zeros : context.speculativeMatches = List.replicate 20 0)
    (low : context.speculationIndex < 20) :
    ∃ after, leave (context, succeeded) = some (after, succeeded) ∧ after.found = [] := by
  have dropped : dropSpeculative succeeded context = some context := by
    unfold dropSpeculative
    split_ifs with outside
    · rfl
    · have inside : context.speculationIndex.toNat < 20 := by omega
      rw [zeros, List.getElem?_replicate, if_pos inside]
      simp
  simp only [leave, decDepth, dropped, map_some]
  exact ⟨_, rfl, empty⟩

theorem vssSearchNodes_bare (path name : Str) (nonempty : path ≠ []) :
    ∃ validation, vssSearchNodes path (.mk { name, nodeType := .branch } []) true true [] =
      some ([], validation) := by
  have reached : ∃ context : SearchContext, ∃ succeeded, context.found = [] ∧
      traverseNode [] (.mk { name, nodeType := .branch } []) (initContext path true true []) =
        leave (context, succeeded) ∧
      context.speculativeMatches = List.replicate 20 0 ∧ context.speculationIndex < 20 := by
    refine ⟨enterNode (.mk { name, nodeType := .branch } [])
      (incDepth name (initContext path true true [])), _, rfl, rfl, rfl, ?_⟩
    simp only [enterNode, incDepth, initContext]
    split_ifs <;> decide
  obtain ⟨context, succeeded, empty, traversed, zeros, low⟩ := reached
  obtain ⟨after, left, found⟩ := leave_empty context succeeded empty zeros low
  refine ⟨after.maxValidation, ?_⟩
  rw [vssSearchNodes, if_neg nonempty, traversed, left]
  simp [found]

end Vissr.Tree
