import Vissr.Tree.Subtree

/-! The scope list of a search. -/

namespace Vissr.Tree

open List Query

/-- A path is the beginning of another up to a dot. -/
def Above (scope path : Str) : Prop := scope ++ ['.'] <+: path

def AtOrBelow (scope path : Str) : Prop := path = scope ∨ Above scope path

theorem above_append_iff {scope path name : Str} (free : '.' ∉ name) :
    Above scope (path ++ '.' :: name) ↔ path = scope ∨ Above scope path := by
  constructor
  · intro above
    obtain ⟨rest, same⟩ := above
    rw [append_assoc, singleton_append] at same
    obtain ⟨more, first, second⟩ | ⟨more, first, second⟩ := append_eq_append_iff.mp same
    · cases more with
      | nil =>
        rw [append_nil] at first
        exact .inl first
      | cons c more =>
        obtain ⟨rfl, rest⟩ := cons.inj second
        refine .inr ⟨more, ?_⟩
        rw [first, append_assoc]
        rfl
    · cases more with
      | nil =>
        rw [append_nil] at first
        exact .inl first.symm
      | cons =>
        obtain ⟨_, later⟩ := cons.inj second
        refine absurd ?_ free
        rw [later]
        exact mem_append_right _ mem_cons_self
  · intro known
    obtain rfl | above := known
    · exact ⟨name, append_assoc _ _ _⟩
    · exact above.trans (prefix_append _ _)

theorem above_pathOf_iff {scope : Str} {node : Node} {parents : List Node}
    (free : ∀ inner ∈ node :: parents, '.' ∉ inner.name) : Above scope (pathOf (node :: parents)) ↔
      ∃ chain, chain <:+ parents ∧ chain ≠ [] ∧ pathOf chain = scope := by
  induction parents generalizing node with
  | nil =>
    constructor
    · intro above
      obtain ⟨rest, same⟩ := above
      refine absurd ?_ (free node mem_cons_self)
      have whole : pathOf [node] = node.name := rfl
      rw [← whole, ← same]
      simp
    · intro known
      obtain ⟨chain, suffix, some_, _⟩ := known
      exact absurd (suffix_nil.mp suffix) some_
  | cons parent rest ih =>
    have above := fun inner mem => free inner (mem_cons_of_mem node mem)
    rw [pathOf_cons node (cons_ne_nil _ _), above_append_iff (free node mem_cons_self), ih above]
    constructor
    · intro known
      obtain same | ⟨chain, suffix, some_, same⟩ := known
      · exact ⟨parent :: rest, suffix_refl _, cons_ne_nil _ _, same⟩
      · exact ⟨chain, suffix.trans (suffix_cons _ _), some_, same⟩
    · intro known
      obtain ⟨chain, suffix, some_, same⟩ := known
      obtain rfl | shorter := suffix_cons_iff.mp suffix
      · exact .inl same
      · exact .inr ⟨chain, shorter, some_, same⟩

namespace Query

variable (q : Query)

variable {q} {root : Node} {entry : Match}

theorem goes_of_reached (mem : entry ∈ q.reached [] root) {chain : List Node}
    (suffix : chain <:+ entry.ancestors) (some_ : chain ≠ []) : ¬ q.Stops chain := by
  refine reached_induction (P := fun ancestors _ => ∀ chain, chain <:+ ancestors → chain ≠ [] →
    ¬ q.Stops chain) ?_ ?_ entry mem chain suffix some_
  · intro ancestors inner known goes child _ _ chain suffix some_
    obtain rfl | shorter := suffix_cons_iff.mp suffix
    · exact goes
    · exact known chain shorter some_
  · intro chain suffix some_
    exact absurd (suffix_nil.mp suffix) some_

theorem not_above_of_reached (free : root.DotFree) (mem : entry ∈ q.reached [] root)
    {scope : Str} (listed : scope ∈ q.noScopeList) : ¬ Above scope entry.nodePath := by
  have inTree : entry ∈ preorder [] root := (reached_sublist [] root).mem mem
  intro above
  have path : entry.nodePath = pathOf (entry.node :: entry.ancestors) :=
    congrArg Match.nodePath (entry_eq inTree)
  rw [path, above_pathOf_iff (all_chain free inTree)] at above
  obtain ⟨chain, suffix, some_, same⟩ := above
  exact goes_of_reached mem suffix some_ (.inr (same ▸ listed))

end Query

section Finding

variable {root : Node} {top : Match} {noScopeList : List Str}

theorem chain_unique (distinct : ∀ entry ∈ root.entries, (entry.node.child.map Node.name).Nodup)
    {node other : Node} {parents others : List Node} (first : entryOf parents node ∈ root.entries)
    (second : entryOf others other ∈ root.entries)
    (names : (node :: parents).map Node.name = (other :: others).map Node.name) :
    node :: parents = other :: others := by
  induction parents generalizing node other others with
  | nil =>
    have alone : others = [] := by
      have length := congrArg length names
      simpa using length
    have top : root :: [] <:+ [node] := suffix_of_mem first
    have top' : root :: [] <:+ other :: others := suffix_of_mem second
    rw [alone] at top' ⊢
    rw [← top.eq_of_length rfl, ← top'.eq_of_length rfl]
  | cons parent rest ih =>
    cases others with
    | nil => cases (cons.inj names).2
    | cons parent' rest' =>
      have part := chain_of_mem first parent rest (suffix_cons _ _)
      have part' := chain_of_mem second parent' rest' (suffix_cons _ _)
      have above := ih part.1 part'.1 (cons.inj names).2
      have child := (chain_of_mem first node _ (suffix_refl _)).2 parent rest rfl
      have child' := (chain_of_mem second other _ (suffix_refl _)).2 parent' rest' rfl
      obtain ⟨rfl, rfl⟩ := cons.inj above
      rw [inj_on_of_nodup_map (distinct _ part.1) child child' (cons.inj names).1]

/-- Its paths name its nodes, and it is small enough for every search. -/
structure Searchable (root : Node) : Prop where
  dotFree : root.DotFree
  plain : root.All fun data => data.name ≠ "*"
  distinct : ∀ entry ∈ root.entries, (entry.node.child.map Node.name).Nodup
  named : root.name ≠ []
  shallow : root.height ≤ 20
  few : root.entries.length < maxFoundNodes - 1

theorem entry_unique (tree : Searchable root) {entry : Match} (mem : entry ∈ root.entries)
    (other : top ∈ root.entries) (path : entry.nodePath = top.nodePath) : entry = top := by
  have names : entry.names = top.names := by
    rw [← segments_nodePath tree.dotFree mem, path, segments_nodePath tree.dotFree other]
  have first := mem
  have second := other
  rw [entry_eq mem] at first
  rw [entry_eq other] at second
  have chain := chain_unique tree.distinct first second (reverse_injective names)
  rw [entry_eq mem, entry_eq other, (cons.inj chain).1, (cons.inj chain).2]

theorem reached_below (tree : Searchable root) (mem : top ∈ root.entries)
    (clear : ∀ scope ∈ noScopeList, ¬ Above scope top.nodePath) :
    top ∈ (queryOf top.below true false noScopeList).reached [] root := by
  have goes : ∀ chain, chain <:+ top.ancestors → chain ≠ [] →
      ¬ (queryOf top.below true false noScopeList).Stops chain := by
    intro chain suffix some_ stops
    have high : chain.length < 100 := by
      have length := suffix.length_le
      have deep := depth_le_of_mem mem
      have shallow := tree.shallow
      simp only [Match.depth, length_nil] at deep
      omega
    obtain deepest | listed := stops
    · have most : (queryOf top.below true false noScopeList).maxDepth = 100 := rfl
      omega
    · refine clear _ listed ?_
      rw [entry_eq mem]
      exact (above_pathOf_iff (all_chain tree.dotFree mem)).mpr ⟨chain, suffix, some_, rfl⟩
  have way : leads top.below top.chain = true := leads_below tree.dotFree mem tree.named
  have found := preorder_induction (P := fun ancestors inner =>
    leads top.below (inner :: ancestors) = true → (∀ chain, chain <:+ ancestors → chain ≠ [] →
        ¬ (queryOf top.below true false noScopeList).Stops chain) →
      (queryOf top.below true false noScopeList).reached ancestors inner ⊆
        (queryOf top.below true false noScopeList).reached [] root) ?_
    (fun _ _ => List.Subset.refl _) top mem
  · apply found.1 way goes
    rw [reached_eq, ← entry_eq mem]
    exact mem_cons_self
  · intro ancestors inner known child inside way goes entry reached
    have step := leads_cons (queryOf top.below true false noScopeList) child
      (cons_ne_nil inner ancestors)
    have way := Bool.and_eq_true_iff.mp (step.symm.trans way)
    apply known way.2 fun chain suffix => goes chain (suffix.trans (suffix_cons _ _))
    rw [reached_eq, if_neg (goes _ (suffix_refl _) (cons_ne_nil _ _))]
    exact mem_cons_of_mem _ (mem_reachedBelow inside way.1 reached)

theorem stars_congr {q q' : Query} (same : q.path = q'.path) (depth : Nat) :
    q.stars depth = q'.stars depth := by
  induction depth with
  | zero => rfl
  | succ depth ih => rw [Query.stars, Query.stars, ih, Query.star, Query.star, same]

theorem unspoiled_of_all {q : Query} (all : ∀ node : Node, node.counts q.leafNodesOnly = true)
    (entries : List Match) : entries.Pairwise fun entry deadEnd => ¬ q.Spoils entry deadEnd := by
  apply pairwise_of_forall
  intro entry deadEnd spoils
  have idle := spoils.fails.2
  rw [all deadEnd.node] at idle
  cases idle

theorem not_fails_self (tree : Searchable root) (mem : top ∈ root.entries) :
    ¬ (queryOf top.below true false noScopeList).Fails top := by
  intro fails
  have level := fails.1
  have same : (queryOf top.below true false noScopeList).stars top.depth =
      (signalQuery top.below).stars top.depth := by
    apply stars_congr
    rfl
  rw [levelOf, same, stars_above tree.dotFree mem tree.named tree.plain (Nat.le_refl _)] at level
  omega

theorem find_below (tree : Searchable root) (mem : top ∈ root.entries)
    (clear : ∀ scope ∈ noScopeList, ¬ Above scope top.nodePath) : ∃ found validation,
      vssSearchNodes top.below root true false noScopeList = some (found, validation) ∧
        found.find? (fun entry => entry.nodePath = top.nodePath) = some top := by
  have all : ∀ node : Node,
      node.counts (queryOf top.below true false noScopeList).leafNodesOnly = true :=
    fun _ => Bool.or_true _
  rcases vssSearchNodes_kept (rooted_below tree.dotFree mem tree.named).ne_nil tree.dotFree
    tree.shallow tree.few (unspoiled_of_all all _) with ⟨validation, searched⟩
  refine ⟨_, validation, searched, ?_⟩
  have kept : top ∈ (queryOf top.below true false noScopeList).kept
      ((queryOf top.below true false noScopeList).reached [] root) := by
    rw [kept, matching]
    exact mem_filter.mpr ⟨mem_filter.mpr
      ⟨reached_below tree mem clear, all top.node⟩,
        decide_eq_true (not_fails_self tree mem)⟩
  have some_ : (((queryOf top.below true false noScopeList).kept
      ((queryOf top.below true false noScopeList).reached [] root)).find?
        (fun entry => entry.nodePath = top.nodePath)).isSome = true :=
    find?_isSome.mpr ⟨top, kept, decide_eq_true rfl⟩
  obtain ⟨first, found⟩ := Option.isSome_iff_exists.mp some_
  have inside := mem_of_find?_eq_some found
  rw [Query.kept, Query.matching] at inside
  have reached := (mem_filter.mp (mem_filter.mp inside).1).1
  have path : first.nodePath = top.nodePath := by
    have tested := find?_some found
    exact of_decide_eq_true tested
  rw [found, entry_unique tree ((reached_sublist [] root).mem reached) mem path]

end Finding

end Vissr.Tree
