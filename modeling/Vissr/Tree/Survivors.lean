import Vissr.Tree.Speculation

/-! What survives the speculation, where a failed node takes back one match at its level. -/

namespace Vissr.Tree

open List Option Nat Journal

namespace Query

variable (q : Query) (parents : List Node) (node : Node)

variable (entry : Match)

def levelOf : Nat := q.stars entry.depth

/-- Below a wildcard, nothing at or below the entry succeeds. -/
def Fails : Prop := 0 < q.levelOf entry ∧
    ∀ below ∈ q.reached entry.ancestors entry.node, q.lands below.ancestors below.node = false
  deriving Decidable

def kept (entries : List Match) : List Match :=
  (q.matching entries).filter fun entry => ¬ q.Fails entry

/-- A node that fails and has no match of its own to take back. -/
def DeadEnd : Prop := q.Fails entry ∧ entry.node.counts q.leafNodesOnly = false

/-- A match at the level of a dead end, not a childless one that fails itself. -/
structure Spoils (entry deadEnd : Match) : Prop where
  fails : q.DeadEnd deadEnd
  counts : entry.node.counts q.leafNodesOnly = true
  level : q.levelOf entry = q.levelOf deadEnd
  stays : entry.node.child ≠ [] ∨ q.lands entry.ancestors entry.node = true

variable {q} {parents : List Node} {node : Node} {entry : Match}

theorem ownSuccess_eq_zero (level : 0 < q.levelAt parents) :
    q.ownSuccess parents node = 0 ↔ q.lands parents node = false := by
  rw [ownSuccess]
  cases q.lands parents node with
  | false => simp
  | true => simp [level]

mutual

theorem successes_eq_zero (node : Node) (parents : List Node) (level : 0 < q.levelAt parents) :
    q.successes parents node = 0 ↔
      ∀ below ∈ q.reached parents node, q.lands below.ancestors below.node = false := by
  match node with
  | .mk data child =>
    have lower : 0 < q.levelAt (.mk data child :: parents) :=
      lt_of_lt_of_le level (q.stars_mono (le_add_right _ 1))
    rw [successes, reached, forall_mem_cons, Nat.add_eq_zero_iff, ownSuccess_eq_zero level]
    refine and_congr_right fun _ => ?_
    split_ifs
    · simp
    · exact successesBelow_eq_zero child _ lower

theorem successesBelow_eq_zero (nodes parents : List Node) (level : 0 < q.levelAt parents) :
    q.successesBelow parents nodes = 0 ↔
      ∀ below ∈ q.reachedBelow parents nodes, q.lands below.ancestors below.node = false := by
  match nodes with
  | [] => simp [successesBelow, reachedBelow]
  | node :: nodes =>
    rw [successesBelow, reachedBelow, forall_mem_append, Nat.add_eq_zero_iff,
      successesBelow_eq_zero nodes parents level]
    refine and_congr_left fun _ => ?_
    split_ifs
    · exact successes_eq_zero node parents level
    · simp

end

theorem fails_iff :
    q.Fails entry ↔ 0 < q.levelOf entry ∧ q.successes entry.ancestors entry.node = 0 :=
  and_congr_right fun level => (successes_eq_zero entry.node entry.ancestors level).symm

theorem fails_of_mem (fails : q.Fails (entryOf parents node))
    (mem : entry ∈ q.reached parents node) : q.Fails entry := by
  refine reached_induction (P := fun ancestors inner =>
    0 < q.stars (ancestors.length + 1) ∧
      ∀ below ∈ q.reached ancestors inner, q.lands below.ancestors below.node = false)
    ?_ fails entry mem
  intro ancestors inner known goes child inside named
  have more := q.stars_mono (le_add_right (ancestors.length + 1) 1)
  refine ⟨lt_of_lt_of_le known.1 more, ?_⟩
  intro below mem
  apply known.2
  rw [reached_eq, if_neg goes]
  exact mem_cons_of_mem _ (mem_reachedBelow inside named mem)

theorem fails_under (fails : q.Fails (entryOf parents node)) :
    ∀ entry ∈ q.under parents node, q.Fails entry := by
  intro entry mem
  apply fails_of_mem fails
  rw [reached_under]
  exact mem_cons_of_mem _ mem

theorem fails_of_childless (level : 0 < q.levelOf entry) (childless : entry.node.child = [])
    (early : q.lands entry.ancestors entry.node = false) : q.Fails entry := by
  refine ⟨level, ?_⟩
  rw [reached_eq, childless]
  intro below mem
  have only : below = entryOf entry.ancestors entry.node := by
    split_ifs at mem <;> exact mem_singleton.mp mem
  rw [only]
  exact early

theorem not_fails_of_lands (lands : q.lands entry.ancestors entry.node = true) :
    ¬ q.Fails entry := by
  intro fails
  have none_ := fails.2 (entryOf entry.ancestors entry.node) (by
    rw [reached_eq]
    exact mem_cons_self)
  exact absurd (lands.symm.trans none_) (by decide)

variable {entries more : List Match}

theorem kept_append : q.kept (entries ++ more) = q.kept entries ++ q.kept more := by
  rw [kept, matching_append, filter_append, kept, kept]

theorem kept_cons : q.kept (entry :: entries) = q.kept [entry] ++ q.kept entries :=
  @kept_append q [entry] entries

theorem mem_kept : entry ∈ q.kept entries ↔
      entry ∈ entries ∧ entry.node.counts q.leafNodesOnly = true ∧ ¬ q.Fails entry := by
  rw [kept, mem_filter, matching, mem_filter, decide_eq_true_iff, and_assoc]

theorem kept_eq_nil (fails : ∀ entry ∈ entries, q.Fails entry) : q.kept entries = [] := by
  rw [eq_nil_iff_forall_not_mem]
  intro entry mem
  exact (mem_kept.mp mem).2.2 (fails entry (mem_kept.mp mem).1)

theorem kept_eq_matching (succeed : ∀ entry ∈ entries, ¬ q.Fails entry) :
    q.kept entries = q.matching entries := by
  apply filter_eq_self.mpr
  intro entry mem
  exact decide_eq_true (succeed entry ((q.matching_sublist entries).mem mem))

theorem kept_of_fails (fails : q.Fails (entryOf parents node)) :
    q.kept [entryOf parents node] = [] := by
  apply kept_eq_nil
  intro entry mem
  rw [mem_singleton.mp mem]
  exact fails

theorem kept_of_succeeds (succeeds : ¬ q.Fails (entryOf parents node)) :
    q.kept [entryOf parents node] = q.matching [entryOf parents node] := by
  apply kept_eq_matching
  intro entry mem
  rw [mem_singleton.mp mem]
  exact succeeds

theorem reverse_matching :
    (q.matching [entryOf parents node]).reverse = q.matching [entryOf parents node] := by
  by_cases counts : node.counts q.leafNodesOnly = true
  · rw [q.matching_counts counts]
    rfl
  · rw [q.matching_idle counts]
    rfl

theorem spoils_of_kept {deadEnd : Match} (fails : q.DeadEnd deadEnd) (mem : entry ∈ q.kept entries)
    (level : q.levelOf entry = q.levelOf deadEnd) : q.Spoils entry deadEnd := by
  have known := mem_kept.mp mem
  refine ⟨fails, known.2.1, level, ?_⟩
  by_contra neither
  rw [not_or, not_not, Bool.not_eq_true] at neither
  refine known.2.2 (fails_of_childless ?_ neither.1 neither.2)
  rw [level]
  exact fails.1.1

variable {j : Journal Match}

theorem record_exact (tallied : j.Tallied q.levelOf) (slots : q.levelAt parents ≤ j.counts.length) :
    ∃ after, run (q.record parents node) j = some after ∧
      after.entries = q.matching [entryOf parents node] ++ j.entries ∧
      after.Tallied q.levelOf ∧ after.counts.length = j.counts.length := by
  rw [record]
  by_cases counts : node.counts q.leafNodesOnly = true
  · obtain ⟨after, pushed⟩ := @push_eq _ j (entryOf parents node) _ slots
    have entries := push_cases pushed
    have level : q.levelOf (entryOf parents node) = q.levelAt parents := rfl
    rw [if_pos counts, run_singleton, q.matching_counts counts]
    exact ⟨after, pushed, entries.2.1, tallied.push level pushed, entries.2.2.1⟩
  · rw [if_neg counts, q.matching_idle counts]
    exact ⟨j, rfl, rfl, tallied, rfl⟩

theorem settlement_exact {rest : List Match} (tallied : j.Tallied q.levelOf)
    (slots : q.levelAt parents ≤ j.counts.length)
    (entries : j.entries = q.matching [entryOf parents node] ++ rest)
    (fails : q.Fails (entryOf parents node)) (clear : q.DeadEnd (entryOf parents node) →
      ∀ entry ∈ rest, q.levelOf entry ≠ q.levelOf (entryOf parents node)) :
    ∃ after, run [q.settlement parents node] j = some after ∧ after.entries = rest ∧
      after.Tallied q.levelOf ∧ after.counts.length = j.counts.length := by
  have failed : decide (q.successes parents node = 0) = true := decide_eq_true (fails_iff.mp fails).2
  rw [run_singleton, settlement, failed]
  by_cases counts : node.counts q.leafNodesOnly = true
  · rw [q.matching_counts counts] at entries
    obtain ⟨after, settled, left, still⟩ := tallied.settle_last entries rfl fails.1 slots
    exact ⟨after, settled, left, still, (settle_cases settled).2.2.1⟩
  · rw [q.matching_idle counts, nil_append] at entries
    have none : ∀ entry ∈ j.entries, q.levelOf entry ≠ q.levelOf (entryOf parents node) := by
      rw [entries]
      exact clear ⟨fails, Bool.eq_false_iff.mpr counts⟩
    exact ⟨j, tallied.settle_idle slots none, entries, tallied, rfl⟩

theorem settlement_succeeds (slots : q.levelAt parents ≤ j.counts.length)
    (succeeds : ¬ q.Fails (entryOf parents node)) :
    run [q.settlement parents node] j = some j := by
  rw [run_singleton, settlement]
  by_cases zero : q.levelAt parents = 0
  · rw [zero]
    rfl
  · have succeeded : decide (q.successes parents node = 0) = false :=
      decide_eq_false fun failed => succeeds (fails_iff.mpr ⟨pos_of_ne_zero zero, failed⟩)
    rw [succeeded]
    exact settle_succeeded slots

theorem level_ne_of_own {deadEnd : Match} (mine : entry ∈ q.matching [entryOf parents node])
    (inside : node.child ≠ []) (fails : q.DeadEnd deadEnd)
    (spared : ¬ q.Spoils (entryOf parents node) deadEnd) : q.levelOf entry ≠ q.levelOf deadEnd := by
  intro same
  have which := mem_singleton.mp ((q.matching_sublist _).mem mine)
  have counts := (mem_filter.mp mine).2
  subst which
  exact spared ⟨fails, counts, same, .inl inside⟩

mutual

theorem ops_exact (node : Node) (parents : List Node) (j : Journal Match)
    (tallied : j.Tallied q.levelOf)
    (slots : ∀ entry ∈ q.reached parents node, q.levelOf entry ≤ j.counts.length)
    (clear : ∀ deadEnd ∈ q.reached parents node, q.DeadEnd deadEnd →
      ∀ entry ∈ j.entries, q.levelOf entry ≠ q.levelOf deadEnd)
    (unspoiled : (q.reached parents node).Pairwise fun entry deadEnd => ¬ q.Spoils entry deadEnd) :
    ∃ after, run (q.ops parents node) j = some after ∧
      after.entries = (q.kept (q.reached parents node)).reverse ++ j.entries ∧
      after.Tallied q.levelOf ∧ after.counts.length = j.counts.length := by
  rw [reached_under] at slots clear unspoiled
  have pairs := pairwise_cons.mp unspoiled
  have level : q.levelAt parents ≤ j.counts.length := slots _ mem_cons_self
  obtain ⟨first, recorded, own, counted, size⟩ := @record_exact q parents node j tallied level
  have below : ∃ next, run (q.opsUnder parents node) first = some next ∧
      next.entries = (q.kept (q.under parents node)).reverse ++ first.entries ∧
      next.Tallied q.levelOf ∧ next.counts.length = first.counts.length := by
    by_cases stops : q.Stops (node :: parents)
    · rw [opsUnder, under, if_pos stops, if_pos stops]
      exact ⟨first, rfl, rfl, counted, rfl⟩
    · rw [under, if_neg stops] at slots clear pairs
      rw [opsUnder, under, if_neg stops, if_neg stops]
      match node with
      | .mk data child =>
        refine opsBelow_exact child (.mk data child :: parents) first counted ?_ ?_ pairs.2
        · intro entry mem
          rw [size]
          exact slots entry (mem_cons_of_mem _ mem)
        · intro deadEnd mem fails entry inside
          rw [own] at inside
          obtain mine | old := mem_append.mp inside
          · refine level_ne_of_own mine ?_ fails (pairs.1 deadEnd mem)
            intro none_
            simp only [Node.child] at none_ mem
            rw [none_] at mem
            cases mem
          · exact clear deadEnd (mem_cons_of_mem _ mem) fails entry old
  obtain ⟨next, ran, entries, tally, length⟩ := below
  rw [q.ops_under, run_append, recorded, bind_some, run_append, ran,
    bind_some, reached_under, kept_cons]
  by_cases fails : q.Fails (entryOf parents node)
  · -- all of them fail, and only the match of the node is left to take back
    rw [kept_eq_nil (fails_under fails), reverse_nil, nil_append, own] at entries
    obtain ⟨after, left, rest, still, same⟩ :=
      settlement_exact tally (by omega) entries fails (clear _ mem_cons_self)
    refine ⟨after, left, ?_, still, by omega⟩
    rw [rest, kept_eq_nil (fails_under fails), kept_of_fails fails]
    rfl
  · refine ⟨next, settlement_succeeds (by omega) fails, ?_, tally, by omega⟩
    rw [entries, own, kept_of_succeeds fails, reverse_append, reverse_matching, append_assoc]

theorem opsBelow_exact (nodes : List Node) (parents : List Node) (j : Journal Match)
    (tallied : j.Tallied q.levelOf)
    (slots : ∀ entry ∈ q.reachedBelow parents nodes, q.levelOf entry ≤ j.counts.length)
    (clear : ∀ deadEnd ∈ q.reachedBelow parents nodes, q.DeadEnd deadEnd →
      ∀ entry ∈ j.entries, q.levelOf entry ≠ q.levelOf deadEnd)
    (unspoiled : (q.reachedBelow parents nodes).Pairwise fun entry deadEnd =>
      ¬ q.Spoils entry deadEnd) : ∃ after, run (q.opsBelow parents nodes) j = some after ∧
      after.entries = (q.kept (q.reachedBelow parents nodes)).reverse ++ j.entries ∧
      after.Tallied q.levelOf ∧ after.counts.length = j.counts.length := by
  match nodes with
  | [] => exact ⟨j, rfl, rfl, tallied, rfl⟩
  | node :: nodes =>
    rw [opsBelow, reachedBelow]
    rw [reachedBelow] at slots clear unspoiled
    split_ifs at slots clear unspoiled ⊢
    · have pairs := pairwise_append.mp unspoiled
      rcases ops_exact node parents j tallied
        (fun entry mem => slots entry (mem_append_left _ mem))
        (fun deadEnd mem => clear deadEnd (mem_append_left _ mem)) pairs.1 with
        ⟨next, ran, entries, counted, size⟩
      rcases opsBelow_exact nodes parents next counted
        (fun entry mem => by
          rw [size]
          exact slots entry (mem_append_right _ mem))
        (by
          intro deadEnd mem fails entry inside same
          rw [entries] at inside
          obtain new | old := mem_append.mp inside
          · have kept := mem_reverse.mp new
            exact pairs.2.2 entry (mem_kept.mp kept).1 deadEnd mem
              (spoils_of_kept fails kept same)
          · exact clear deadEnd (mem_append_right _ mem) fails entry old same)
        pairs.2.1 with ⟨after, rest, last, still, same⟩
      refine ⟨after, ?_, ?_, still, same.trans size⟩
      · rw [run_append, ran, bind_some, rest]
      · rw [last, entries, kept_append, reverse_append, append_assoc]
    · exact opsBelow_exact nodes parents j tallied slots clear unspoiled

end

end Query

end Vissr.Tree
