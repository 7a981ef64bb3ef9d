import Vissr.TreeFile.Reader

/-! What the reader makes of any bytes at all. -/

namespace Vissr.TreeFile

open Wire List RawNode

/-- A tree within the limits, with all that the file has for it. -/
structure ReadsWhole (parent : Option Nat) (s after : ReadState) (address : Nat)
    (tree : FileTree) (raw : RawTree) : Prop where
  /-- no child is missing and the links to the parents are right -/
  links : Represents after.heap parent address tree
  counted : tree.Counted fun fields => fields.children.toNat
  shallow : s.currentDepth + tree.height ≤ maxTreeDepth
  few : s.totalNodes + tree.size ≤ maxTreeNodes
  /-- the bytes that are read are those of a tree -/
  front : s.input = raw.bytes ++ after.input
  rawCounted : raw.WellCounted
  allowedDef : tree.map NodeFields.allowedDef = raw.map allowedTexts

/-- A read ends with an error or a whole tree, and the depth as it was. -/
structure Robust (parent : Option Nat) (s : ReadState) (result : ReadResult Nat) : Prop where
  depth : result.2.currentDepth = s.currentDepth
  whole : ∀ address, result.1 = .ok address →
    ∃ tree raw, ReadsWhole parent s result.2 address tree raw

theorem RawNode.fields_allowedDef (node : RawNode) :
    node.fields.allowedDef = node.allowedTexts.take node.allowedCount.toNat := rfl

theorem RawNode.allowedDef_eq_iff (node : RawNode) :
    node.fields.allowedDef = node.allowedTexts ↔ node.allowed.length ≤ 255 := by
  have length : node.allowedTexts.length = node.allowed.length := length_map _
  have count : node.allowedCount.toNat = node.allowed.length % 256 := rfl
  rw [node.fields_allowedDef, take_eq_self_iff, length, count]
  omega

theorem RawTree.allowedDef_eq_iff (raw : RawTree) :
    raw.tree.map NodeFields.allowedDef = raw.map allowedTexts ↔
      ∀ node ∈ raw.labels, node.allowed.length ≤ 255 := by
  rw [RawTree.tree, Rose.map_map, Rose.map_eq_map_iff]
  exact forall₂_congr fun node _ => node.allowedDef_eq_iff

variable {parent : Option Nat} {s : ReadState} {raw : RawTree} {rest : Octets}

theorem Accepted.readsWhole_iff (accepted : Accepted (maxTreeDepth - s.currentDepth) s raw rest) :
    (∃ tree found, ReadsWhole parent s (afterTree parent raw rest s) s.heap.length tree found) ↔
      ∀ node ∈ raw.labels, node.allowed.length ≤ 255 := by
  have stored := represents_afterTree parent raw rest s
  constructor
  · intro known
    obtain ⟨tree, found, whole⟩ := known
    have same : tree = raw.tree := whole.links.unique stored
    have once := RawTree.bytes_append_inj accepted.counted whole.rawCounted
      (accepted.front.symm.trans whole.front)
    have allowed := whole.allowedDef
    rw [same, ← once.1] at allowed
    exact raw.allowedDef_eq_iff.mp allowed
  · intro few
    have shallow := accepted.shallow
    have positive := raw.height_pos
    refine ⟨raw.tree, raw, stored, (Rose.counted_map fields _ raw).mpr accepted.counted,
      ?_, ?_, accepted.front, accepted.counted, raw.allowedDef_eq_iff.mpr few⟩
    · rw [RawTree.tree, Rose.height_map]
      omega
    · rw [RawTree.size_tree]
      exact accepted.few

/-- The reader makes an error or a whole tree exactly when no node of a tree at the front has more
allowed values than a byte counts. -/
theorem reader_robust_iff (parent : Option Nat) (s : ReadState) :
    Robust parent s (traverseAndReadNode parent s) ↔
      ∀ (raw : RawTree) (rest : Octets), raw.WellCounted →
        s.currentDepth + raw.height ≤ maxTreeDepth → s.totalNodes + raw.size ≤ maxTreeNodes →
          s.input = raw.bytes ++ rest → ∀ node ∈ raw.labels, node.allowed.length ≤ 255 := by
  constructor
  · intro robust raw rest counted shallow few front
    have accepted : Accepted (maxTreeDepth - s.currentDepth) s raw rest :=
      ⟨counted, Nat.le_sub_of_add_le' shallow, few, front⟩
    have read : traverseAndReadNode parent s = (.ok s.heap.length, afterTree parent raw rest s) :=
      traverseAndReadNode_iff.mpr ⟨raw, rest, accepted, rfl, rfl⟩
    rw [read] at robust
    exact accepted.readsWhole_iff.mp (robust.whole _ rfl)
  · intro few
    refine ⟨traverseAndReadNode_depth parent s, ?_⟩
    intro address ok
    have result : traverseAndReadNode parent s =
        (.ok address, (traverseAndReadNode parent s).2) := Prod.ext ok rfl
    obtain ⟨raw, rest, accepted, rfl, after⟩ := traverseAndReadNode_iff.mp result
    have shallow := accepted.shallow
    have positive := raw.height_pos
    rw [after]
    exact accepted.readsWhole_iff.mpr
      (few raw rest accepted.counted (by omega) accepted.few accepted.front)

def emptyElement : RawElement := ⟨'0'.toUInt8, '0'.toUInt8, [], rfl⟩

def crowdedNode : RawNode :=
  { bareSensor with
    allowed := replicate 256 emptyElement
    allowedFits := by decide +kernel }

theorem crowdedNode_allowedDef : crowdedNode.fields.allowedDef = [] := by
  have count : crowdedNode.allowedCount = UInt8.ofNat 256 := congrArg UInt8.ofNat length_replicate
  have zero : (UInt8.ofNat 256).toNat = 0 := rfl
  rw [fields_allowedDef, count, zero, take_zero]

theorem crowdedNode_allowedTexts : crowdedNode.allowedTexts.length = 256 := by
  rw [allowedTexts, length_map]
  exact length_replicate

def crowdedFile : RawTree := .mk crowdedNode []

/-- A file with 256 allowed values is read as one with none. -/
theorem reader_drops_allowed_values : ∃ address after tree,
      traverseAndReadNode none (initReadMetadata crowdedFile.bytes []) = (.ok address, after) ∧
        Represents after.heap none address tree ∧ tree.labels.map NodeFields.allowedDef = [[]] ∧
        crowdedFile.labels.map (fun node => node.allowedTexts.length) = [256] ∧
        ¬ Robust none (initReadMetadata crowdedFile.bytes []) (.ok address, after) := by
  have accepted : Accepted maxTreeDepth (initReadMetadata crowdedFile.bytes []) crowdedFile [] :=
    ⟨Rose.counted_mk.mpr ⟨rfl, fun _ member => absurd member not_mem_nil⟩,
      (by decide : 1 ≤ 64), (by decide : 0 + 1 ≤ 200000), (append_nil _).symm⟩
  refine ⟨_, _, crowdedFile.tree, accepted.reads none, represents_afterTree none crowdedFile [] _,
    congrArg (fun texts => [texts]) crowdedNode_allowedDef,
    congrArg (fun number => [number]) crowdedNode_allowedTexts, ?_⟩
  intro robust
  have few := (@Accepted.readsWhole_iff none (initReadMetadata crowdedFile.bytes []) _ _ accepted).mp
    (robust.whole _ rfl) crowdedNode mem_cons_self
  have many : crowdedNode.allowed.length = 256 := length_replicate
  omega

end Vissr.TreeFile
