import Vissr.Tree.Survivors

/-! What a search loses: where a dead end has taken back a match of its level. -/

namespace Vissr.Tree

open List Nat Journal

namespace Query

variable (q : Query)

section Tight

def atLevel (level : Nat) (entries : List Match) : Nat :=
  entries.countP fun entry => q.levelOf entry = level

variable {q} {parents : List Node} {node : Node}

theorem atLevel_append (level : Nat) (entries more : List Match) :
    q.atLevel level (entries ++ more) = q.atLevel level entries + q.atLevel level more :=
  countP_append

theorem counter_record (level n : Nat) : counter level (q.record parents node) n =
      n + q.atLevel level (q.matching [entryOf parents node]) := by
  rw [record]
  by_cases counts : node.counts q.leafNodesOnly = true
  · rw [if_pos counts, q.matching_counts counts]
    by_cases here : q.levelAt parents = level
    · have same : q.levelOf (entryOf parents node) = level := here
      simp [counter, atLevel, here, same]
    · have other : q.levelOf (entryOf parents node) ≠ level := here
      simp [counter, atLevel, here, other]
  · rw [if_neg counts, q.matching_idle counts]
    rfl

theorem counter_settlement {level : Nat} (positive : 0 < level) (n : Nat) :
    counter level [q.settlement parents node] n =
      if q.levelAt parents = level ∧ q.Fails (entryOf parents node) then n - 1 else n := by
  have failed : (q.levelAt parents = level ∧ decide (q.successes parents node = 0) = true) ↔
      (q.levelAt parents = level ∧ q.Fails (entryOf parents node)) := by
    rw [decide_eq_true_iff, fails_iff]
    refine and_congr_right fun same => ?_
    have level : 0 < q.levelOf (entryOf parents node) := by
      rw [← same] at positive
      exact positive
    exact (and_iff_right level).symm
  simp only [settlement, counter, failed]

theorem counter_ops {level : Nat} (positive : 0 < level) (n : Nat) :
    counter level (q.ops parents node) n =
      if q.levelAt parents = level ∧ q.Fails (entryOf parents node) then
        counter level (q.opsUnder parents node)
          (n + q.atLevel level (q.matching [entryOf parents node])) - 1
      else counter level (q.opsUnder parents node)
          (n + q.atLevel level (q.matching [entryOf parents node])) := by
  rw [q.ops_under, counter_append, counter_append, counter_record, counter_settlement positive]

theorem atLevel_own (level : Nat) : q.atLevel level (q.matching [entryOf parents node]) =
      if node.counts q.leafNodesOnly = true ∧ q.levelAt parents = level then 1 else 0 := by
  by_cases counts : node.counts q.leafNodesOnly = true
  · have same : q.levelOf (entryOf parents node) = q.levelAt parents := rfl
    rw [q.matching_counts counts]
    simp [atLevel, counts, same, countP_cons]
  · rw [q.matching_idle counts]
    simp [atLevel, counts]

theorem atLevel_kept_of_fails (level : Nat) (fails : q.Fails (entryOf parents node)) :
    q.atLevel level (q.kept (q.reached parents node)) = 0 := by
  rw [kept_eq_nil fun entry mem => fails_of_mem fails mem]
  rfl

theorem atLevel_kept_of_succeeds (level : Nat) (succeeds : ¬ q.Fails (entryOf parents node)) :
    q.atLevel level (q.kept (q.reached parents node)) =
      q.atLevel level (q.matching [entryOf parents node]) +
        q.atLevel level (q.kept (q.under parents node)) := by
  rw [reached_under, kept_cons, atLevel_append, kept_of_succeeds succeeds]

variable (q) in
/-- The operations leave no more at a level than the entries keep at it. -/
def Bounded (level : Nat) (entries : List Match) (ops : List (Journal.Op Match)) : Prop :=
  ∀ n, counter level ops n ≤ n + q.atLevel level (q.kept entries)

theorem bounded_of_under {level : Nat} (positive : 0 < level)
    (below : q.Bounded level (q.under parents node) (q.opsUnder parents node)) :
    q.Bounded level (q.reached parents node) (q.ops parents node) := by
  intro n
  have inner := below (n + q.atLevel level (q.matching [entryOf parents node]))
  rw [counter_ops positive]
  by_cases fails : q.Fails (entryOf parents node)
  · rw [kept_eq_nil (fails_under fails), show q.atLevel level [] = 0 from rfl] at inner
    rw [atLevel_kept_of_fails level fails]
    by_cases same : q.levelAt parents = level
    · have one : q.atLevel level (q.matching [entryOf parents node]) ≤ 1 := by
        rw [atLevel_own]
        split_ifs <;> omega
      rw [if_pos ⟨same, fails⟩]
      omega
    · have none_ : q.atLevel level (q.matching [entryOf parents node]) = 0 := by
        rw [atLevel_own, if_neg fun known => same known.2]
      rw [if_neg fun known => same known.1]
      omega
  · rw [atLevel_kept_of_succeeds level fails, if_neg fun known => fails known.2]
    omega

variable (q) in
/-- Matches are childless, no level loses an entry, nothing spoils, and dead ends had nothing to
lose. -/
def Tight (entries : List Match) (ops : List (Journal.Op Match)) : Prop :=
  (∀ entry ∈ entries, entry.node.counts q.leafNodesOnly = true → entry.node.child = []) →
    ∀ counts : Nat → Nat, (∀ level, 0 < level → counter level ops (counts level) =
        counts level + q.atLevel level (q.kept entries)) →
      (entries.Pairwise fun entry deadEnd => ¬ q.Spoils entry deadEnd) ∧
        ∀ deadEnd ∈ entries, q.DeadEnd deadEnd → counts (q.levelOf deadEnd) = 0

theorem tight_nil : q.Tight [] [] := by
  intro _ counts _
  exact ⟨List.Pairwise.nil, fun deadEnd mem => by cases mem⟩

section

variable (below : q.Tight (q.under parents node) (q.opsUnder parents node))

include below

theorem tight_of_succeeds (succeeds : ¬ q.Fails (entryOf parents node)) :
    q.Tight (q.reached parents node) (q.ops parents node) := by
  intro childless counts tight
  rw [reached_under] at childless
  rcases below (fun entry member => childless entry (mem_cons_of_mem _ member))
    (fun level => counts level + q.atLevel level (q.matching [entryOf parents node]))
    (by
      intro level positive
      have ends := tight level positive
      rw [counter_ops positive, if_neg fun known => succeeds known.2,
        atLevel_kept_of_succeeds _ succeeds, ← add_assoc] at ends
      exact ends) with ⟨pairs, clear⟩
  rw [reached_under]
  refine ⟨pairwise_cons.mpr ⟨?_, pairs⟩, ?_⟩
  · intro deadEnd member spoils
    have none_ := clear deadEnd member spoils.fails
    have one := @atLevel_own q parents node (q.levelOf deadEnd)
    rw [if_pos ⟨spoils.counts, spoils.level⟩] at one
    omega
  · intro deadEnd member dead
    obtain rfl | member := mem_cons.mp member
    · exact absurd dead.1 succeeds
    · have none_ := clear deadEnd member dead
      omega

variable (bounded : ∀ level, 0 < level →
  q.Bounded level (q.under parents node) (q.opsUnder parents node))

include bounded

theorem tight_of_deadEnd (fails : q.Fails (entryOf parents node))
    (idle : ¬ node.counts q.leafNodesOnly = true) :
    q.Tight (q.reached parents node) (q.ops parents node) := by
  intro childless counts tight
  have zero : ∀ level, q.atLevel level (q.matching [entryOf parents node]) = 0 := by
    intro level
    rw [atLevel_own, if_neg fun known => idle known.1]
  have empty : ∀ level, q.atLevel level (q.kept (q.under parents node)) = 0 := by
    intro level
    rw [kept_eq_nil (fails_under fails)]
    rfl
  have most : ∀ level, 0 < level →
      counter level (q.opsUnder parents node) (counts level) ≤ counts level := by
    intro level positive
    have bound := bounded level positive (counts level)
    rw [empty] at bound
    exact bound
  have ends : ∀ level, 0 < level →
      (if q.levelAt parents = level ∧ q.Fails (entryOf parents node) then
        counter level (q.opsUnder parents node) (counts level) - 1
      else counter level (q.opsUnder parents node) (counts level)) = counts level := by
    intro level positive
    have known := tight level positive
    rw [counter_ops positive, atLevel_kept_of_fails _ fails, zero] at known
    exact known
  have level : 0 < q.levelAt parents := fails.1
  have clear : counts (q.levelAt parents) = 0 := by
    have bound := most _ level
    have last := ends _ level
    rw [if_pos ⟨rfl, fails⟩] at last
    omega
  rw [reached_under] at childless ⊢
  rcases below (fun entry member => childless entry (mem_cons_of_mem _ member)) counts
    (by
      intro level positive
      have bound := most level positive
      have last := ends level positive
      rw [empty]
      by_cases same : q.levelAt parents = level
      · rw [same] at clear
        omega
      · rw [if_neg fun known => same known.1] at last
        exact last) with ⟨pairs, rest⟩
  refine ⟨pairwise_cons.mpr ⟨?_, pairs⟩, ?_⟩
  · intro deadEnd member spoils
    exact idle spoils.counts
  · intro deadEnd member dead
    obtain rfl | member := mem_cons.mp member
    · exact clear
    · exact rest deadEnd member dead

theorem tight_of_under : q.Tight (q.reached parents node) (q.ops parents node) := by
  by_cases fails : q.Fails (entryOf parents node)
  · by_cases leaf : node.counts q.leafNodesOnly = true
    · -- a match has nothing below it
      intro childless counts tight
      rw [reached_under] at childless ⊢
      have empty : node.child = [] := childless _ mem_cons_self leaf
      have none_ : q.under parents node = [] := by
        rw [under, empty]
        split_ifs <;> rfl
      rw [none_]
      refine ⟨pairwise_singleton _ _, ?_⟩
      intro deadEnd mem dead
      rw [mem_singleton.mp mem] at dead
      exact absurd (leaf.symm.trans dead.2) (by decide)
    · exact tight_of_deadEnd below bounded fails leaf
  · exact tight_of_succeeds below fails

end

theorem kept_of_spoils {entry deadEnd : Match} {entries : List Match} (mem : entry ∈ entries)
    (childless : entry.node.child = []) (spoils : q.Spoils entry deadEnd) :
    0 < q.atLevel (q.levelOf deadEnd) (q.kept entries) := by
  have lands := spoils.stays.resolve_left fun some_ => some_ childless
  have stays : entry ∈ q.kept entries := mem_kept.mpr ⟨mem, spoils.counts, not_fails_of_lands lands⟩
  exact countP_pos_iff.mpr ⟨entry, stays, decide_eq_true spoils.level⟩

theorem tight_append {entries more : List Match} {ops next : List (Journal.Op Match)}
    (bounded : ∀ level, 0 < level → q.Bounded level entries ops)
    (boundedNext : ∀ level, 0 < level → q.Bounded level more next)
    (first : q.Tight entries ops) (second : q.Tight more next) :
    q.Tight (entries ++ more) (ops ++ next) := by
  intro childless counts tight
  have ends : ∀ level, 0 < level → counter level ops (counts level) =
        counts level + q.atLevel level (q.kept entries) ∧
      counter level next (counter level ops (counts level)) =
        counter level ops (counts level) + q.atLevel level (q.kept more) := by
    intro level positive
    have both := tight level positive
    have bound := bounded level positive (counts level)
    have rest := boundedNext level positive (counter level ops (counts level))
    rw [counter_append, kept_append, atLevel_append] at both
    omega
  rcases first (fun entry mem => childless entry (mem_append_left _ mem)) counts
    (fun level positive => (ends level positive).1) with ⟨pairs, clear⟩
  rcases second (fun entry mem => childless entry (mem_append_right _ mem))
    (fun level => counter level ops (counts level))
    (fun level positive => (ends level positive).2) with ⟨pairsNext, clearNext⟩
  have none_ : ∀ deadEnd ∈ more, q.DeadEnd deadEnd →
      counts (q.levelOf deadEnd) + q.atLevel (q.levelOf deadEnd) (q.kept entries) = 0 := by
    intro deadEnd mem dead
    rw [← (ends _ dead.1.1).1]
    exact clearNext deadEnd mem dead
  refine ⟨pairwise_append.mpr ⟨pairs, pairsNext, ?_⟩, ?_⟩
  · intro entry inside deadEnd mem spoils
    have empty := childless entry (mem_append_left _ inside) spoils.counts
    have some_ := kept_of_spoils inside empty spoils
    have zero := none_ deadEnd mem spoils.fails
    omega
  · intro deadEnd mem dead
    obtain inside | later := mem_append.mp mem
    · exact clear deadEnd inside dead
    · have zero := none_ deadEnd later dead
      omega

end Tight

theorem bounded_append {level : Nat} {entries more : List Match} {ops next : List (Journal.Op Match)}
    (first : q.Bounded level entries ops) (second : q.Bounded level more next) :
    q.Bounded level (entries ++ more) (ops ++ next) := by
  intro n
  rw [kept_append, atLevel_append, counter_append]
  exact le_trans (second _) (by rw [← Nat.add_assoc]; exact Nat.add_le_add_right (first n) _)

theorem tight_ops (parents : List Node) (node : Node) :
    q.Tight (q.reached parents node) (q.ops parents node) ∧
      ∀ level, 0 < level → q.Bounded level (q.reached parents node) (q.ops parents node) := by
  refine q.ops_rule (R := fun entries ops => q.Tight entries ops ∧
    ∀ level, 0 < level → q.Bounded level entries ops) ?_ ?_ ?_ parents node
  · exact ⟨tight_nil, fun level positive n => le_refl _⟩
  · rintro entries more ops next ⟨tight, bounded⟩ ⟨tightNext, boundedNext⟩
    exact ⟨tight_append bounded boundedNext tight tightNext, fun level positive =>
      q.bounded_append (bounded level positive) (boundedNext level positive)⟩
  · rintro parents node ⟨tight, bounded⟩
    exact ⟨tight_of_under tight bounded, fun level positive =>
      bounded_of_under positive (bounded level positive)⟩

end Query

end Vissr.Tree
