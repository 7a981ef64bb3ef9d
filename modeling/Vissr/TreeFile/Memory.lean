import Vissr.TreeFile.Model

/-! Trees in memory: when linked nodes are a tree, and how the reader lays one out. -/

namespace Vissr.TreeFile

open List Option

mutual

/-- The node at an address and its links are those of this tree. -/
def Represents (heap : List HeapNode) : Option Nat → Nat → FileTree → Prop
  | parent, address, .mk fields child =>
    ∃ links : List Nat, heap[address]? = some ⟨fields, parent, links.map some⟩ ∧
      RepresentsBelow heap (some address) links child

def RepresentsBelow (heap : List HeapNode) : Option Nat → List Nat → List FileTree → Prop
  | _, [], [] => True
  | parent, link :: links, tree :: trees =>
    Represents heap parent link tree ∧ RepresentsBelow heap parent links trees
  | _, _, _ => False

end

/-- The addresses of trees that follow one another. -/
def addresses : Nat → List FileTree → List Nat
  | _, [] => []
  | address, tree :: trees => address :: addresses (address + tree.size) trees

mutual

/-- The nodes of a tree in preorder, from an address on. -/
def layout : Option Nat → Nat → FileTree → List HeapNode
  | parent, address, .mk fields child =>
    ⟨fields, parent, (addresses (address + 1) child).map some⟩ ::
      layoutBelow (some address) (address + 1) child

def layoutBelow : Option Nat → Nat → List FileTree → List HeapNode
  | _, _, [] => []
  | parent, address, tree :: trees =>
    layout parent address tree ++ layoutBelow parent (address + tree.size) trees

end

theorem length_layoutBelow (trees : List FileTree) (parent : Option Nat) (address : Nat)
    (each : ∀ tree ∈ trees, ∀ parent address, (layout parent address tree).length = tree.size) :
    (layoutBelow parent address trees).length = (trees.map Rose.size).sum := by
  induction trees generalizing address with
  | nil => rfl
  | cons tree trees ih =>
    rw [forall_mem_cons] at each
    rw [layoutBelow, length_append, each.1, ih _ each.2, map_cons, sum_cons]

theorem length_layout (tree : FileTree) (parent : Option Nat) (address : Nat) :
    (layout parent address tree).length = tree.size := by
  induction tree using Rose.induction generalizing parent address with
  | step fields child ih =>
    rw [layout, length_cons, length_layoutBelow child _ _ ih, Rose.size_mk]

theorem representsBelow_layoutBelow (trees : List FileTree) (parent : Option Nat)
    (front back : List HeapNode) (each : ∀ tree ∈ trees, ∀ parent front back,
      Represents (front ++ layout parent front.length tree ++ back) parent front.length tree) :
    RepresentsBelow (front ++ layoutBelow parent front.length trees ++ back) parent
      (addresses front.length trees) trees := by
  induction trees generalizing front with
  | nil => trivial
  | cons tree trees ih =>
    rw [forall_mem_cons] at each
    have first := each.1 parent front
      (layoutBelow parent (front.length + tree.size) trees ++ back)
    have later := ih (front ++ layout parent front.length tree) each.2
    have length : (front ++ layout parent front.length tree).length = front.length + tree.size := by
      rw [length_append, length_layout]
    rw [length] at later
    simp only [append_assoc] at first later
    simp only [addresses, layoutBelow, RepresentsBelow, append_assoc]
    exact ⟨first, later⟩

theorem represents_layout (tree : FileTree) (parent : Option Nat) (front back : List HeapNode) :
    Represents (front ++ layout parent front.length tree ++ back) parent front.length tree := by
  induction tree using Rose.induction generalizing parent front back with
  | step fields child ih =>
    have below := representsBelow_layoutBelow child (some front.length)
      (front ++ [⟨fields, parent, (addresses (front.length + 1) child).map some⟩]) back ih
    have length : (front ++ [(⟨fields, parent,
        (addresses (front.length + 1) child).map some⟩ : HeapNode)]).length = front.length + 1 := by
      rw [length_append]
      rfl
    rw [length] at below
    simp only [append_assoc, singleton_append] at below
    simp only [Represents, layout, append_assoc, cons_append]
    refine ⟨addresses (front.length + 1) child, ?_, below⟩
    rw [getElem?_append_right (Nat.le_refl _), Nat.sub_self, getElem?_cons_zero]

variable {heap : List HeapNode}

theorem representsBelow_unique {parent other : Option Nat} {links : List Nat}
    {trees rest : List FileTree} (first : RepresentsBelow heap parent links trees)
    (second : RepresentsBelow heap other links rest)
    (each : ∀ tree ∈ trees, ∀ parent other address (found : FileTree),
      Represents heap parent address tree → Represents heap other address found → tree = found) :
    trees = rest := by
  induction trees generalizing links rest with
  | nil =>
    cases links with
    | cons => cases first
    | nil =>
      cases rest with
      | nil => rfl
      | cons => cases second
  | cons tree trees ih =>
    cases links with
    | nil => cases first
    | cons =>
      cases rest with
      | nil => cases second
      | cons =>
        rw [forall_mem_cons] at each
        simp only [RepresentsBelow] at first second
        rw [each.1 _ _ _ _ first.1 second.1, ih first.2 second.2 each.2]

theorem Represents.unique {parent other : Option Nat} {address : Nat} {tree found : FileTree}
    (first : Represents heap parent address tree) (second : Represents heap other address found) :
    tree = found := by
  induction tree using Rose.induction generalizing parent other address found with
  | step fields child ih =>
    cases found with
    | mk =>
      simp only [Represents] at first second
      obtain ⟨links, node, below⟩ := first
      obtain ⟨links', node', below'⟩ := second
      rw [node] at node'
      simp only [some.injEq, HeapNode.mk.injEq] at node'
      have same : links = links' := (List.map_inj_right fun _ _ => some.inj).mp node'.2.2
      rw [← same] at below'
      rw [node'.1, representsBelow_unique below below' fun tree mem _ _ _ found => ih tree mem]

end Vissr.TreeFile
