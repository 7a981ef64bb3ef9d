import Vissr.Tree.Panics
import Vissr.TreeFile.Reader

/-! The search in a tree that was read from a file. -/

namespace Vissr.TreeFile

open Wire List Tree

/-- The search compares texts byte by byte. -/
def chars (text : Octets) : Str := text.map fun byte => Char.ofNat byte.toNat

def nodeTypeOf (text : Octets) : Tree.NodeType :=
  if text = ascii "sensor" then .sensor
  else if text = ascii "actuator" then .actuator
  else if text = ascii "attribute" then .attribute
  else if text = branch then .branch
  else if text = ascii "struct" then .struct
  else if text = ascii "property" then .property
  else if text = ascii "procedure" then .procedure
  else if text = ascii "iostruct" then .iostruct
  else .other (chars text)

def dataOf (fields : NodeFields) : Tree.NodeData where
  name := chars fields.name
  nodeType := nodeTypeOf fields.nodeType
  datatype := chars fields.datatype
  defaultValue := chars fields.defaultValue
  description := chars fields.description
  validate := fields.validate.toNat

mutual

/-- A tree in memory as the search sees it. -/
def nodeOf : FileTree → Tree.Node
  | .mk fields child => .mk (dataOf fields) (nodesOf child)

def nodesOf : List FileTree → List Tree.Node
  | [] => []
  | tree :: trees => nodeOf tree :: nodesOf trees

end

/-- No search for the path, whatever its scope list, leaves the counters. -/
def InRange (path : Str) (anyDepth leafNodesOnly : Bool) (root : Tree.Node) : Prop :=
  ∀ noScopeList, (vssSearchNodes path root anyDepth leafNodesOnly noScopeList).isSome = true

/-- A node led to is below as many wildcards as there are counters. -/
def CountersSuffice (path : Str) (anyDepth leafNodesOnly : Bool) (root : Tree.Node) : Prop :=
  ∀ entry ∈ (queryOf path anyDepth leafNodesOnly []).reached [] root,
    (queryOf path anyDepth leafNodesOnly []).stars entry.depth ≤ 20

/-- The matches do not come to the limit of the search. -/
def BelowLimit (path : Str) (anyDepth leafNodesOnly : Bool) (root : Tree.Node) : Prop :=
  ((queryOf path anyDepth leafNodesOnly []).matching
    ((queryOf path anyDepth leafNodesOnly []).reached [] root)).length < maxFoundNodes - 1

/-- A search stays in range where the counters suffice, and below its limit of matches only there. -/
theorem search_in_range (tree : FileTree) (path : Str) (anyDepth leafNodesOnly : Bool)
    (nonempty : path ≠ []) : (CountersSuffice path anyDepth leafNodesOnly (nodeOf tree) →
        InRange path anyDepth leafNodesOnly (nodeOf tree)) ∧
      (BelowLimit path anyDepth leafNodesOnly (nodeOf tree) →
        InRange path anyDepth leafNodesOnly (nodeOf tree) →
          CountersSuffice path anyDepth leafNodesOnly (nodeOf tree)) := by
  constructor
  · intro suffice noScopeList
    obtain ⟨found, validation, returned⟩ := vssSearchNodes_returns nonempty suffice
    rw [returned]
    rfl
  · intro room inside
    exact vssSearchNodes_in_range room (inside [])

def chainNode (children : UInt8) : RawNode :=
  { RawNode.bare ⟨ascii "V", by decide⟩ ⟨branch, by decide⟩ with children }

def chainFile : Nat → RawTree
  | 0 => .mk (chainNode 0) []
  | n + 1 => .mk (chainNode 1) [chainFile n]

theorem chainFile_counted (n : Nat) : (chainFile n).WellCounted := by
  induction n with
  | zero => exact Rose.counted_mk.mpr ⟨rfl, fun _ mem => absurd mem not_mem_nil⟩
  | succ n ih => exact Rose.counted_mk.mpr ⟨rfl, forall_mem_singleton.mpr ih⟩

theorem chainFile_height (n : Nat) : (chainFile n).height = n + 1 := by
  induction n with
  | zero => rfl
  | succ n ih => simp only [chainFile, Rose.height, Rose.heightBelow, ih, Nat.max_zero]

theorem chainFile_size (n : Nat) : (chainFile n).size = n + 1 := by
  induction n with
  | zero => rfl
  | succ n ih => rw [chainFile, Rose.size_mk, map_singleton, sum_singleton, ih]

theorem chainFile_accepted {n : Nat} (shallow : n < maxTreeDepth) (heap : List HeapNode) :
    Accepted maxTreeDepth (initReadMetadata (chainFile n).bytes heap) (chainFile n) [] where
  counted := chainFile_counted n
  shallow := (chainFile_height n).trans_le shallow
  few := by
    have number : n < 64 := shallow
    rw [chainFile_size]
    change 0 + (n + 1) ≤ 200000
    omega
  front := (append_nil _).symm

/-- Of 21 branches one below the other, the last has the last counter. -/
theorem search_in_range_chain : ∃ address after,
      traverseAndReadNode none (initReadMetadata (chainFile 20).bytes []) = (.ok address, after) ∧
        Represents after.heap none address (chainFile 20).tree ∧
        InRange "V.*" true true (nodeOf (chainFile 20).tree) := by
  have read := (chainFile_accepted (by decide : 20 < maxTreeDepth) []).reads none
  refine ⟨_, _, read, represents_afterTree none (chainFile 20) [] _,
    (search_in_range (chainFile 20).tree "V.*" true true (cons_ne_nil _ _)).1 ?_⟩
  rw [CountersSuffice]
  decide +kernel

/-- Of 22 branches the last is below a wildcard without a counter. -/
theorem search_index_out_of_range : ∃ address after,
      traverseAndReadNode none (initReadMetadata (chainFile 21).bytes []) = (.ok address, after) ∧
        Represents after.heap none address (chainFile 21).tree ∧
        (vssSearchNodes "V.*" (nodeOf (chainFile 21).tree) true true []).isSome = false := by
  have read := (chainFile_accepted (by decide : 21 < maxTreeDepth) []).reads none
  exact ⟨_, _, read, represents_afterTree none (chainFile 21) [] _, by decide +kernel⟩

end Vissr.TreeFile
