import Mathlib

/-! Trees with any number of children, in preorder. -/

namespace Vissr

open List

inductive Rose (α : Type) where
  | mk (label : α) (child : List (Rose α))

namespace Rose

variable {α β γ : Type}

def label : Rose α → α
  | mk label _ => label

def child : Rose α → List (Rose α)
  | mk _ child => child

mutual

def nodes : Rose α → List (Rose α)
  | mk label child => mk label child :: nodesBelow child

def nodesBelow : List (Rose α) → List (Rose α)
  | [] => []
  | tree :: trees => nodes tree ++ nodesBelow trees

end

mutual

def map (f : α → β) : Rose α → Rose β
  | mk label child => mk (f label) (mapBelow f child)

def mapBelow (f : α → β) : List (Rose α) → List (Rose β)
  | [] => []
  | tree :: trees => map f tree :: mapBelow f trees

end

mutual

def height : Rose α → Nat
  | mk _ child => heightBelow child + 1

def heightBelow : List (Rose α) → Nat
  | [] => 0
  | tree :: trees => max (height tree) (heightBelow trees)

end

variable (tree : Rose α)

def labels : List α := tree.nodes.map label

def size : Nat := tree.nodes.length

def Counted (count : α → Nat) (tree : Rose α) : Prop :=
  ∀ node ∈ tree.nodes, count node.label = node.child.length

theorem induction {P : Rose α → Prop}
    (step : ∀ label child, (∀ tree ∈ child, P tree) → P (mk label child)) : ∀ tree, P tree
  | mk label child => step label child (below child)
where
  below : ∀ trees : List (Rose α), ∀ tree ∈ trees, P tree
    | [] => fun _ member => absurd member not_mem_nil
    | first :: trees => fun tree member =>
        match mem_cons.mp member with
        | .inl same => same ▸ induction step first
        | .inr later => below trees tree later

variable {label : α} {trees : List (Rose α)}

theorem nodesBelow_eq (trees : List (Rose α)) : nodesBelow trees = trees.flatMap nodes := by
  induction trees with
  | nil => rfl
  | cons tree trees ih => rw [nodesBelow, ih, flatMap_cons]

theorem nodes_mk : (mk label trees).nodes = mk label trees :: trees.flatMap nodes := by
  rw [nodes, nodesBelow_eq]

theorem mapBelow_eq (f : α → β) (trees : List (Rose α)) : mapBelow f trees = trees.map (map f) := by
  induction trees with
  | nil => rfl
  | cons tree trees ih => rw [mapBelow, ih, map_cons]

@[simp] theorem map_mk (f : α → β) : (mk label trees).map f = mk (f label) (trees.map (map f)) := by
  rw [map, mapBelow_eq]

@[simp] theorem labels_mk : (mk label trees).labels = label :: trees.flatMap labels := by
  rw [labels, nodes_mk, map_cons, map_flatMap]
  rfl

@[simp] theorem size_mk : (mk label trees).size = (trees.map size).sum + 1 := by
  rw [size, nodes_mk, length_cons, length_flatMap]
  rfl

theorem length_labels : tree.labels.length = tree.size := length_map _

theorem heightBelow_eq (trees : List (Rose α)) :
    heightBelow trees = (trees.map height).foldr max 0 := by
  induction trees with
  | nil => rfl
  | cons tree trees ih => rw [heightBelow, ih, map_cons, foldr_cons]

theorem heightBelow_le {n : Nat} (trees : List (Rose α)) :
    heightBelow trees ≤ n ↔ ∀ tree ∈ trees, tree.height ≤ n := by
  induction trees with
  | nil => simp [heightBelow]
  | cons tree trees ih => rw [heightBelow, Nat.max_le, ih, forall_mem_cons]

theorem height_mk_le {n : Nat} :
    (mk label trees).height ≤ n + 1 ↔ ∀ tree ∈ trees, tree.height ≤ n := by
  rw [height, Nat.add_le_add_iff_right, heightBelow_le]

theorem height_pos : 0 < tree.height := by
  cases tree with
  | mk => exact Nat.succ_pos _

theorem counted_mk {count : α → Nat} : (mk label trees).Counted count ↔
      count label = trees.length ∧ ∀ tree ∈ trees, tree.Counted count := by
  simp only [Counted, nodes_mk, forall_mem_cons, mem_flatMap]
  constructor
  · intro known
    exact ⟨known.1, fun tree mem node inside => known.2 node ⟨tree, mem, inside⟩⟩
  · intro known
    exact ⟨known.1, fun node inside => inside.elim fun tree both => known.2 tree both.1 node both.2⟩

variable (f : α → β)

theorem labels_map (tree : Rose α) : (tree.map f).labels = tree.labels.map f := by
  induction tree using Rose.induction with
  | step label child ih =>
    simp only [map_mk, labels_mk, map_cons, flatMap_map, map_flatMap]
    rw [flatMap_def, flatMap_def, map_congr_left ih]

theorem size_map (tree : Rose α) : (tree.map f).size = tree.size := by
  rw [← length_labels, labels_map, length_map, length_labels]

theorem height_map (tree : Rose α) : (tree.map f).height = tree.height := by
  induction tree using Rose.induction with
  | step label child ih =>
    rw [map_mk, height, height, heightBelow_eq, heightBelow_eq, List.map_map, ← map_congr_left ih]
    rfl

theorem counted_map (count : β → Nat) (tree : Rose α) :
    (tree.map f).Counted count ↔ tree.Counted fun label => count (f label) := by
  induction tree using Rose.induction with
  | step label child ih =>
    rw [map_mk, counted_mk, counted_mk, length_map, forall_mem_map]
    exact and_congr_right fun _ => forall₂_congr ih

theorem map_map (g : β → γ) (tree : Rose α) : (tree.map f).map g = tree.map (g ∘ f) := by
  induction tree using Rose.induction with
  | step label child ih =>
    simp only [map_mk, List.map_map, Function.comp_apply]
    exact congrArg (mk _) (map_congr_left ih)

theorem map_eq_map_iff {f g : α → β} (tree : Rose α) :
    tree.map f = tree.map g ↔ ∀ label ∈ tree.labels, f label = g label := by
  induction tree using Rose.induction with
  | step label child ih =>
    simp only [map_mk, mk.injEq, labels_mk, forall_mem_cons, map_inj_left, mem_flatMap]
    apply and_congr_right
    intro _
    constructor
    · intro known a inside
      obtain ⟨tree, mem, inside⟩ := inside
      exact (ih tree mem).mp (known tree mem) a inside
    · intro known tree mem
      exact (ih tree mem).mpr fun a inside => known a ⟨tree, mem, inside⟩

theorem exists_map (g : γ → β) (f : α → β)
    (each : ∀ label ∈ tree.labels, ∃ c, g c = f label) : ∃ found : Rose γ, found.map g = tree.map f := by
  induction tree using Rose.induction with
  | step label child ih =>
    simp only [labels_mk, forall_mem_cons, mem_flatMap] at each
    obtain ⟨c, first⟩ := each.1
    have below : child.map (map f) ∈ Set.range (List.map (map g)) := by
      rw [Set.range_list_map]
      intro image mem
      obtain ⟨tree, inside, rfl⟩ := mem_map.mp mem
      exact ih tree inside fun a there => each.2 a ⟨tree, inside, there⟩
    obtain ⟨found, same⟩ := below
    exact ⟨mk c found, by rw [map_mk, map_mk, first, same]⟩

end Rose

end Vissr
