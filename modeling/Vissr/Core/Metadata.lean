import Vissr.Core.Discover
import Vissr.Tree.Subtree

/-! What a metadata text shows: the nodes of a subtree down to a number of levels. -/

namespace Vissr.Core

open Json Tree List Nat

def cut : Nat → Node → Node
  | 0, node => .mk node.data []
  | levels + 1, node => .mk node.data (node.child.map (cut levels))

variable (levels : Nat) (node : Node)

theorem cut_data : (cut levels node).data = node.data := by
  cases levels with
  | zero => rfl
  | succ => rfl

theorem cut_name : (cut levels node).name = node.name :=
  congrArg NodeData.name (cut_data levels node)

theorem jsonifyChildren_eq (nodes : List Node) :
    jsonifyChildren levels nodes = nodes.flatMap (jsonifyTreeNode levels) := by
  induction nodes with
  | nil => rfl
  | cons node nodes ih => rw [jsonifyChildren, ih, flatMap_cons]

def jsonifyBelow (child : List Node) : Str :=
  if 0 < levels ∧ child ≠ [] then
    ("\"children\":\x7b" ++ child.flatMap (jsonifyTreeNode levels)).dropLast ++ ['\x7d']
  else []

theorem jsonifyTreeNode_succ : jsonifyTreeNode (levels + 1) node =
      dropComma (jsonifyData node.data ++ jsonifyBelow levels node.child) ++ "\x7d," := by
  cases node with
  | mk =>
    rw [jsonifyTreeNode, jsonifyChildren_eq]
    rfl

theorem jsonifyTreeNode_cut {levels more : Nat} (enough : levels ≤ more) (node : Node) :
    jsonifyTreeNode (levels + 1) node = jsonifyTreeNode (more + 1) (cut levels node) := by
  induction levels generalizing more node with
  | zero =>
    have none_ : jsonifyBelow 0 node.child = jsonifyBelow more [] := by
      rw [jsonifyBelow, jsonifyBelow, if_neg (fun shown => absurd shown.1 (lt_irrefl 0)),
        if_neg (fun shown => shown.2 rfl)]
    rw [jsonifyTreeNode_succ, jsonifyTreeNode_succ, none_]
    rfl
  | succ levels ih =>
    obtain - | more := more
    · cases enough
    · have same : jsonifyBelow (levels + 1) node.child =
          jsonifyBelow (more + 1) (node.child.map (cut levels)) := by
        have texts : node.child.flatMap (jsonifyTreeNode (levels + 1)) =
            (node.child.map (cut levels)).flatMap (jsonifyTreeNode (more + 1)) := by
          rw [flatMap_map]
          exact flatMap_congr fun child _ => ih (le_of_succ_le_succ enough) child
        rw [jsonifyBelow, jsonifyBelow, texts]
        simp only [succ_pos, true_and, ne_eq, map_eq_nil_iff]
      rw [jsonifyTreeNode_succ, jsonifyTreeNode_succ, same]
      rfl

def shown (top : Match) : List Match :=
  (preorder top.ancestors top.node).filter fun entry => entry.depth < top.depth + levels

def shownAs (entry : Match) : Str × NodeData := (entry.nodePath, entry.node.data)

variable {parents parents' : List Node}

theorem shownAs_cut (names : parents'.map Node.name = parents.map Node.name) :
    shownAs (entryOf parents' (cut levels node)) = shownAs (entryOf parents node) := by
  simp only [shownAs, entryOf, pathOf, map_cons, names, cut_name, cut_data]

theorem depth_of_mem {parents : List Node} {node : Node} {entry : Match}
    (mem : entry ∈ preorder parents node) : parents.length < entry.depth := by
  have length := (suffix_of_mem mem).length_le
  simp only [Match.chain, length_cons] at length
  exact lt_succ_of_le (le_of_succ_le_succ length)

theorem filter_preorder (parents : List Node) (node : Node) :
    ((preorder parents node).filter fun entry => entry.depth < parents.length + 1 + (levels + 1)) =
      entryOf parents node ::
        node.child.flatMap fun child => (preorder (node :: parents) child).filter fun entry =>
          entry.depth < (node :: parents).length + 1 + levels := by
  have first : (entryOf parents node).depth < parents.length + 1 + (levels + 1) := by
    simp only [entryOf, Match.depth]
    omega
  have bound : (node :: parents).length + 1 + levels = parents.length + 1 + (levels + 1) := by
    simp only [length_cons]
    omega
  rw [preorder_eq, filter_cons_of_pos (by simpa using first), preorderBelow_eq,
    filter_flatMap, bound]

theorem filter_preorder_zero (parents : List Node) (node : Node) :
    ((preorder parents node).filter fun entry => entry.depth < parents.length + 1 + 0) = [] := by
  apply filter_eq_nil_iff.mpr
  intro entry mem
  have deep := depth_of_mem mem
  simp only [decide_eq_true_eq]
  omega

theorem preorder_cut (names : parents'.map Node.name = parents.map Node.name) :
    (preorder parents' (cut levels node)).map shownAs = ((preorder parents node).filter fun entry =>
        entry.depth < parents.length + 1 + (levels + 1)).map shownAs := by
  induction levels generalizing node parents parents' with
  | zero =>
    have deep : (node.child.flatMap fun child => (preorder (node :: parents) child).filter
        fun entry => entry.depth < (node :: parents).length + 1 + 0) = [] :=
      flatMap_eq_nil_iff.mpr fun child _ => filter_preorder_zero _ child
    rw [filter_preorder, deep, preorder_eq, map_cons, shownAs_cut 0 node names]
    rfl
  | succ levels ih =>
    have below : (cut (levels + 1) node :: parents').map Node.name =
        (node :: parents).map Node.name := by
      rw [map_cons, map_cons, cut_name, names]
    have child : (cut (levels + 1) node).child = node.child.map (cut levels) := rfl
    rw [filter_preorder, preorder_eq, preorderBelow_eq, child, flatMap_map, map_cons,
      map_cons, shownAs_cut _ node names, map_flatMap, map_flatMap]
    exact congrArg _ (flatMap_congr fun child _ => ih child below)

theorem shown_cut (top : Match) : (preorder top.ancestors (cut levels top.node)).map shownAs =
      (shown (levels + 1) top).map shownAs :=
  preorder_cut levels top.node rfl

end Vissr.Core
