import Vissr.TreeFile.Memory
import Vissr.TreeFile.Nodes

/-! What the reader of trees accepts: the nodes of a tree in preorder, within its limits. -/

namespace Vissr.TreeFile

open Wire List Nat Rose

abbrev RawTree := Rose RawNode

namespace RawTree

def bytes (raw : RawTree) : Octets := raw.labels.flatMap RawNode.bytes

def WellCounted (raw : RawTree) : Prop := raw.Counted fun node => node.children.toNat

def tree (raw : RawTree) : FileTree := raw.map RawNode.fields

end RawTree

/-- A reader that leaves the depth as it was. -/
def KeepsDepth (read : Option Nat → ReadState → ReadResult Nat) : Prop :=
  ∀ parent s, (read parent s).2.currentDepth = s.currentDepth

variable {read : Option Nat → ReadState → ReadResult Nat}

theorem readChildren_depth (keeps : KeepsDepth read) (thisNode left childNo : Nat) (s : ReadState) :
    (readChildren read thisNode left childNo s).2.currentDepth = s.currentDepth := by
  induction left generalizing childNo s with
  | zero => rfl
  | succ left ih =>
    have kept := keeps (some thisNode) s
    rw [readChildren]
    split
    · rename_i error after same
      rw [same] at kept
      exact kept
    · rename_i child after same
      rw [same] at kept
      rw [ih]
      exact kept

theorem readThisNode_depth (keeps : KeepsDepth read) (parentNode : Option Nat) (s : ReadState) :
    (readThisNode read parentNode s).2.currentDepth = s.currentDepth := by
  rw [readThisNode]
  split_ifs
  · rfl
  · rfl
  · split
    · rfl
    · rename_i fields rest _
      have kept := readChildren_depth keeps s.heap.length fields.children.toNat 0
        (storeNode parentNode fields rest s)
      split
      · rename_i error after same
        rw [same] at kept
        exact kept
      · rename_i after same
        rw [same] at kept
        exact kept

variable {body : ReadState → ReadResult Nat}

theorem counted_depth (keeps : ∀ s, (body s).2.currentDepth = s.currentDepth) (s : ReadState) :
    (counted body s).2.currentDepth = s.currentDepth := by
  have kept := keeps (updateReadMetadata true s)
  change (body (updateReadMetadata true s)).2.currentDepth - 1 = s.currentDepth
  rw [kept]
  rfl

theorem readNode_depth (levels : Nat) : KeepsDepth (readNode levels) := by
  induction levels with
  | zero =>
    intro parent s
    exact counted_depth (fun _ => rfl) s
  | succ levels ih =>
    intro parent s
    exact counted_depth (readThisNode_depth ih parent) s

theorem traverseAndReadNode_depth (parentNode : Option Nat) (s : ReadState) :
    (traverseAndReadNode parentNode s).2.currentDepth = s.currentDepth :=
  readNode_depth _ parentNode s

variable {read : Option Nat → ReadState → ReadResult Nat} {s after : ReadState} {address : Nat}

theorem counted_iff : counted body s = (.ok address, after) ↔
      ∃ inner, body (updateReadMetadata true s) = (.ok address, inner) ∧
        after = updateReadMetadata false inner := by
  rw [counted]
  constructor
  · intro same
    exact ⟨_, Prod.ext (Prod.mk.inj same).1 rfl, (Prod.mk.inj same).2.symm⟩
  · intro known
    obtain ⟨inner, result, rfl⟩ := known
    rw [result]

theorem readChildren_succ_iff {thisNode left childNo : Nat} :
    readChildren read thisNode (left + 1) childNo s = (.ok (), after) ↔
      ∃ child inner, read (some thisNode) s = (.ok child, inner) ∧
        readChildren read thisNode left (childNo + 1)
          { inner with heap := setChild thisNode childNo child inner.heap } = (.ok (), after) := by
  rw [readChildren]
  constructor
  · intro same
    split at same
    · cases same
    · rename_i child inner result
      exact ⟨child, inner, result, same⟩
  · intro known
    obtain ⟨child, inner, result, same⟩ := known
    rw [result]
    exact same

theorem readThisNode_iff {parentNode : Option Nat} :
    readThisNode read parentNode s = (.ok address, after) ↔
      s.currentDepth ≤ maxTreeDepth ∧ s.totalNodes ≤ maxTreeNodes ∧ address = s.heap.length ∧
        ∃ fields rest, Parses populateNode s.input fields rest ∧
          readChildren read s.heap.length fields.children.toNat 0
            (storeNode parentNode fields rest s) = (.ok (), after) := by
  rw [readThisNode]
  constructor
  · intro same
    split_ifs at same with deep many
    · cases same
    · cases same
    · split at same
      · cases same
      · rename_i fields rest parsed
        split at same
        · cases same
        · rename_i inner children
          cases same
          exact ⟨Nat.le_of_not_lt deep, Nat.le_of_not_lt many, rfl, fields, rest, parsed, children⟩
  · intro known
    obtain ⟨shallow, few, rfl, fields, rest, parsed, children⟩ := known
    have parsed : populateNode.run s.input = .ok (fields, rest) := parsed
    rw [if_neg (not_lt.mpr shallow), if_neg (not_lt.mpr few), parsed]
    simp only [children]

theorem setChild_eq (front back : List HeapNode) (node : HeapNode) (childNo child : Nat) :
    setChild front.length childNo child (front ++ node :: back) =
      front ++ { node with child := node.child.set childNo (some child) } :: back := by
  rw [setChild]
  induction front with
  | nil => rfl
  | cons first front ih =>
    rw [cons_append, cons_append, length_cons, modify_succ_cons, ih]

theorem set_next_link (done : List Nat) (left child : Nat) :
    (done.map some ++ replicate (left + 1) none).set done.length (some child) =
      (done ++ [child]).map some ++ replicate left none := by
  have length : done.length = (done.map some).length := (length_map _).symm
  rw [length, set_append_right _ _ (Nat.le_refl _), Nat.sub_self, map_append, append_assoc]
  rfl

/-- The file begins with this tree, which is within the limits. -/
structure Accepted (levels : Nat) (s : ReadState) (raw : RawTree) (rest : Octets) : Prop where
  counted : raw.WellCounted
  shallow : raw.height ≤ levels
  few : s.totalNodes + raw.size ≤ maxTreeNodes
  front : s.input = raw.bytes ++ rest

variable (parent : Option Nat) (raw : RawTree)

def afterTree (rest : Octets) (s : ReadState) : ReadState where
  input := rest
  currentDepth := s.currentDepth
  totalNodes := s.totalNodes + raw.size
  heap := s.heap ++ layout parent s.heap.length raw.tree

/-- A reader of the trees of so many levels, at one depth. -/
def ReadsTrees (depth levels : Nat) (read : Option Nat → ReadState → ReadResult Nat) : Prop :=
  ∀ (parent : Option Nat) (s : ReadState) (address : Nat) (after : ReadState),
    s.currentDepth = depth → (read parent s = (.ok address, after) ↔
        ∃ raw rest, Accepted levels s raw rest ∧ address = s.heap.length ∧
          after = afterTree parent raw rest s)

variable {depth levels : Nat}

theorem RawTree.size_tree : raw.tree.size = raw.size := size_map _ raw

variable (fields : NodeFields)

theorem setChild_afterTree (parent : Option Nat)
    (front back : List HeapNode) (done : List Nat) (left : Nat) (s : ReadState)
    (memory : s.heap = front ++
      ⟨fields, parent, done.map some ++ replicate (left + 1) none⟩ :: back)
    (raw : RawTree) (rest : Octets) : setChild front.length done.length s.heap.length
        (afterTree (some front.length) raw rest s).heap =
      front ++ ⟨fields, parent, (done ++ [s.heap.length]).map some ++ replicate left none⟩ ::
        (back ++ layout (some front.length) s.heap.length raw.tree) := by
  have whole : (afterTree (some front.length) raw rest s).heap =
      front ++ ⟨fields, parent, done.map some ++ replicate (left + 1) none⟩ ::
        (back ++ layout (some front.length) s.heap.length raw.tree) := by
    calc (afterTree (some front.length) raw rest s).heap
      _ = s.heap ++ layout (some front.length) s.heap.length raw.tree := rfl
      _ = (front ++ ⟨fields, parent, done.map some ++ replicate (left + 1) none⟩ :: back) ++
            layout (some front.length) s.heap.length raw.tree := by rw [← memory]
      _ = _ := by rw [append_assoc, cons_append]
  rw [whole, setChild_eq, set_next_link]

open RawTree

structure AcceptedBelow (levels left : Nat) (s : ReadState) (raws : List RawTree)
    (rest : Octets) : Prop where
  number : raws.length = left
  counted : ∀ raw ∈ raws, raw.WellCounted
  shallow : ∀ raw ∈ raws, raw.height ≤ levels
  few : s.totalNodes + (raws.map Rose.size).sum ≤ maxTreeNodes
  front : s.input = raws.flatMap bytes ++ rest

def afterChildren (parent : Option Nat) (front back : List HeapNode)
    (done : List Nat) (raws : List RawTree) (rest : Octets) (s : ReadState) : ReadState where
  input := rest
  currentDepth := s.currentDepth
  totalNodes := s.totalNodes + (raws.map Rose.size).sum
  heap := front ++
    ⟨fields, parent, (done ++ addresses s.heap.length (raws.map tree)).map some⟩ ::
      (back ++ layoutBelow (some front.length) s.heap.length (raws.map tree))

def nextChild (thisNode childNo : Nat) (raw : RawTree) (rest : Octets) (s : ReadState) : ReadState :=
  let after := afterTree (some thisNode) raw rest s
  { after with heap := setChild thisNode childNo s.heap.length after.heap }

variable {rest : Octets}

theorem acceptedBelow_cons {left thisNode childNo : Nat} {raw : RawTree} {raws : List RawTree} :
    AcceptedBelow levels (left + 1) s (raw :: raws) rest ↔ ∃ middle, Accepted levels s raw middle ∧
        AcceptedBelow levels left (nextChild thisNode childNo raw middle s) raws rest := by
  constructor
  · intro known
    have counted := forall_mem_cons.mp known.counted
    have shallow := forall_mem_cons.mp known.shallow
    have few := known.few
    rw [map_cons, sum_cons, ← Nat.add_assoc] at few
    have front := known.front
    rw [flatMap_cons, append_assoc] at front
    exact ⟨raws.flatMap bytes ++ rest,
      ⟨counted.1, shallow.1, le_of_add_right_le few, front⟩,
      ⟨succ.inj known.number, counted.2, shallow.2, few, rfl⟩⟩
  · intro known
    obtain ⟨middle, first, later⟩ := known
    have input : middle = raws.flatMap bytes ++ rest := later.front
    refine ⟨congrArg succ later.number, forall_mem_cons.mpr ⟨first.counted, later.counted⟩,
      forall_mem_cons.mpr ⟨first.shallow, later.shallow⟩, ?_, ?_⟩
    · rw [map_cons, sum_cons, ← Nat.add_assoc]
      exact later.few
    · rw [first.front, input, flatMap_cons, append_assoc]

theorem length_nextChild (thisNode childNo : Nat) (raw : RawTree) (rest : Octets) (s : ReadState) :
    (nextChild thisNode childNo raw rest s).heap.length = s.heap.length + raw.tree.size := by
  simp [nextChild, afterTree, setChild, length_layout]

theorem afterChildren_cons (parent : Option Nat)
    (front back : List HeapNode) (done : List Nat) (childNo : Nat) (raw : RawTree)
    (raws : List RawTree) (middle rest : Octets) (s : ReadState) :
    afterChildren fields parent front back done (raw :: raws) rest s =
      afterChildren fields parent front
        (back ++ layout (some front.length) s.heap.length raw.tree) (done ++ [s.heap.length])
        raws rest (nextChild front.length childNo raw middle s) := by
  simp only [afterChildren, length_nextChild]
  simp only [nextChild, afterTree, map_cons, sum_cons, addresses, layoutBelow,
    append_assoc, singleton_append, Nat.add_assoc]

theorem readChildren_iff (reads : ReadsTrees depth levels read) (fields : NodeFields)
    (parent : Option Nat) (front back : List HeapNode) (done : List Nat) (left : Nat)
    (s after : ReadState) (level : s.currentDepth = depth) (few : s.totalNodes ≤ maxTreeNodes)
    (memory : s.heap = front ++ ⟨fields, parent, done.map some ++ replicate left none⟩ :: back) :
    readChildren read front.length left done.length s = (.ok (), after) ↔
      ∃ raws rest, AcceptedBelow levels left s raws rest ∧
        after = afterChildren fields parent front back done raws rest s := by
  induction left generalizing back done s with
  | zero =>
    have still : afterChildren fields parent front back done [] s.input s = s := by
      rw [replicate_zero, append_nil] at memory
      simp only [afterChildren, map_nil, sum_nil, addresses, layoutBelow,
        append_nil, Nat.add_zero, ← memory]
    constructor
    · intro same
      have same : after = s := (Prod.mk.inj same).2.symm
      exact ⟨[], s.input, ⟨rfl, by simp, by simp, few, rfl⟩, same.trans still.symm⟩
    · intro known
      obtain ⟨raws, rest, accepted, rfl⟩ := known
      have none := length_eq_zero_iff.mp accepted.number
      have input := accepted.front
      rw [none] at input ⊢
      have input : rest = s.input := input.symm
      rw [input, still, readChildren]
  | succ left ih =>
    have later : ∀ raw middle, Accepted levels s raw middle →
        (readChildren read front.length left (done.length + 1)
            (nextChild front.length done.length raw middle s) = (.ok (), after) ↔
          ∃ raws rest, AcceptedBelow levels left
              (nextChild front.length done.length raw middle s) raws rest ∧
            after = afterChildren fields parent front back done (raw :: raws) rest s) := by
      intro raw middle first
      have next := ih (back ++ layout (some front.length) s.heap.length raw.tree)
        (done ++ [s.heap.length]) (nextChild front.length done.length raw middle s) level
        first.few (setChild_afterTree fields parent front back done left s memory raw middle)
      rw [length_append] at next
      simp only [afterChildren_cons fields parent front back done done.length raw _ middle]
      exact next
    rw [readChildren_succ_iff]
    constructor
    · intro known
      obtain ⟨child, inner, result, children⟩ := known
      obtain ⟨raw, middle, first, rfl, rfl⟩ := (reads _ _ _ _ level).mp result
      obtain ⟨raws, rest, others, same⟩ := (later raw middle first).mp children
      exact ⟨raw :: raws, rest, acceptedBelow_cons.mpr ⟨middle, first, others⟩, same⟩
    · intro known
      obtain ⟨raws, rest, accepted, same⟩ := known
      cases raws with
      | nil => cases accepted.number
      | cons raw raws =>
        obtain ⟨middle, first, others⟩ := acceptedBelow_cons.mp accepted
        exact ⟨_, _, (reads _ _ _ _ level).mpr ⟨raw, middle, first, rfl, rfl⟩,
          (later raw middle first).mpr ⟨raws, rest, others, same⟩⟩

variable (node : RawNode) (raws : List RawTree)

theorem RawTree.bytes_mk :
    bytes (.mk node raws) = node.bytes ++ raws.flatMap bytes := by
  rw [bytes, labels_mk, flatMap_cons, flatMap_assoc]
  rfl

theorem RawTree.tree_mk : tree (.mk node raws) = .mk node.fields (raws.map tree) :=
  map_mk _

def enterNode (rest : Octets) (s : ReadState) : ReadState :=
  storeNode parent node.fields rest (updateReadMetadata true s)

theorem accepted_mk {parent : Option Nat} {node : RawNode} {raws : List RawTree} :
    Accepted (levels + 1) s (.mk node raws) rest ↔
      ∃ middle, s.input = node.bytes ++ middle ∧ s.totalNodes + 1 ≤ maxTreeNodes ∧
        AcceptedBelow levels node.children.toNat (enterNode parent node middle s) raws rest := by
  have shift : s.totalNodes + ((raws.map Rose.size).sum + 1) =
      s.totalNodes + 1 + (raws.map Rose.size).sum := by
    omega
  constructor
  · intro known
    have counted := counted_mk.mp known.counted
    have few := known.few
    rw [size_mk, shift] at few
    have front := known.front
    rw [bytes_mk, append_assoc] at front
    exact ⟨raws.flatMap bytes ++ rest, front, le_of_add_right_le few,
      ⟨counted.1.symm, counted.2, height_mk_le.mp known.shallow, few, rfl⟩⟩
  · intro known
    obtain ⟨middle, front, _, below⟩ := known
    have input : middle = raws.flatMap bytes ++ rest := below.front
    refine ⟨counted_mk.mpr ⟨below.number.symm, below.counted⟩,
      height_mk_le.mpr below.shallow, ?_, ?_⟩
    · rw [size_mk, shift]
      exact below.few
    · rw [front, input, bytes_mk, append_assoc]

theorem afterTree_mk (middle rest : Octets) (s : ReadState) : updateReadMetadata false
        (afterChildren node.fields parent s.heap [] [] raws rest (enterNode parent node middle s)) =
      afterTree parent (.mk node raws) rest s := by
  have length : (enterNode parent node middle s).heap.length = s.heap.length + 1 := by
    simp [enterNode, storeNode, updateReadMetadata]
  have total : s.totalNodes + 1 + (raws.map Rose.size).sum =
      s.totalNodes + ((raws.map Rose.size).sum + 1) := by
    omega
  simp only [afterChildren, length]
  simp only [updateReadMetadata, enterNode, storeNode, afterTree, tree_mk, layout,
    size_mk, nil_append, total, Bool.false_eq_true, if_false, if_true, Nat.add_sub_cancel]

theorem readThisNode_reads (reads : ReadsTrees (depth + 1) levels read)
    (room : depth + 1 ≤ maxTreeDepth) (parent : Option Nat) (s : ReadState) (address : Nat)
    (after : ReadState) (level : s.currentDepth = depth) :
    counted (readThisNode read parent) s = (.ok address, after) ↔
      ∃ raw rest, Accepted (levels + 1) s raw rest ∧ address = s.heap.length ∧
        after = afterTree parent raw rest s := by
  have deeper : (updateReadMetadata true s).currentDepth = depth + 1 := congrArg (· + 1) level
  have children : ∀ (node : RawNode) (middle : Octets) (inner : ReadState),
      s.totalNodes + 1 ≤ maxTreeNodes →
        (readChildren read s.heap.length node.children.toNat 0 (enterNode parent node middle s) =
            (.ok (), inner) ↔ _) := fun node middle inner few =>
    readChildren_iff reads node.fields parent s.heap [] [] node.children.toNat
      (enterNode parent node middle s) inner deeper few rfl
  simp only [counted_iff, readThisNode_iff, populateNode_iff]
  constructor
  · intro known
    obtain ⟨inner, ⟨_, few, rfl, _, middle, ⟨node, front, rfl⟩, below⟩, rfl⟩ := known
    obtain ⟨raws, rest, accepted, rfl⟩ := (children node middle inner few).mp below
    exact ⟨.mk node raws, rest, accepted_mk.mpr ⟨middle, front, few, accepted⟩, rfl,
      afterTree_mk parent node raws middle rest s⟩
  · intro known
    obtain ⟨raw, rest, accepted, rfl, rfl⟩ := known
    cases raw with
    | mk node raws =>
      obtain ⟨middle, front, few, below⟩ := accepted_mk.mp accepted
      exact ⟨_, ⟨deeper.trans_le room, few, rfl, node.fields, middle, ⟨node, front, rfl⟩,
        (children node middle _ few).mpr ⟨raws, rest, below, rfl⟩⟩,
        (afterTree_mk parent node raws middle rest s).symm⟩

theorem readNode_zero_reads : ReadsTrees depth 0 (readNode 0) := by
  intro parent s address after level
  constructor
  · intro result
    cases (Prod.mk.inj result).1
  · intro known
    obtain ⟨raw, rest, accepted, _⟩ := known
    exact absurd accepted.shallow (not_le.mpr raw.height_pos)

theorem readNode_reads (room : depth + levels = maxTreeDepth) :
    ReadsTrees depth levels (readNode levels) := by
  induction levels generalizing depth with
  | zero => exact readNode_zero_reads
  | succ levels ih =>
    intro parent s address after level
    have room : depth + 1 + levels = maxTreeDepth := by
      omega
    exact readThisNode_reads (ih room) (le_of_add_right_le room.le) parent s address after level

/-- The reader returns a tree exactly when the file begins with one within the limits: it is laid
out at the end of the memory. -/
theorem traverseAndReadNode_iff {parent : Option Nat} :
    traverseAndReadNode parent s = (.ok address, after) ↔
      ∃ raw rest, Accepted (maxTreeDepth - s.currentDepth) s raw rest ∧ address = s.heap.length ∧
        after = afterTree parent raw rest s := by
  rw [traverseAndReadNode]
  by_cases deep : s.currentDepth ≤ maxTreeDepth
  · exact readNode_reads (Nat.add_sub_cancel' deep) parent s address after rfl
  · rw [Nat.sub_eq_zero_of_le (Nat.le_of_not_le deep)]
    exact readNode_zero_reads parent s address after rfl

theorem Accepted.reads {input : Octets} {heap : List HeapNode} {raw : RawTree}
    (accepted : Accepted maxTreeDepth (initReadMetadata input heap) raw rest)
    (parent : Option Nat) : traverseAndReadNode parent (initReadMetadata input heap) =
      (.ok heap.length, afterTree parent raw rest (initReadMetadata input heap)) :=
  traverseAndReadNode_iff.mpr ⟨raw, rest, accepted, rfl, rfl⟩

theorem represents_afterTree (rest : Octets) (s : ReadState) :
    Represents (afterTree parent raw rest s).heap parent s.heap.length raw.tree := by
  have laid := represents_layout raw.tree parent s.heap []
  rw [append_nil] at laid
  exact laid

theorem forest_inj {a b : List RawTree} {r s : Octets} (number : a.length = b.length)
    (counted : ∀ raw ∈ b, raw.WellCounted)
    (each : ∀ raw ∈ a, ∀ (other : RawTree) (r s : Octets), other.WellCounted →
      raw.bytes ++ r = other.bytes ++ s → raw = other ∧ r = s)
    (same : a.flatMap bytes ++ r = b.flatMap bytes ++ s) : a = b ∧ r = s := by
  induction a generalizing b with
  | nil =>
    cases b with
    | nil => exact ⟨rfl, same⟩
    | cons => cases number
  | cons raw a ih =>
    cases b with
    | nil => cases number
    | cons other =>
      rw [forall_mem_cons] at each counted
      rw [flatMap_cons, flatMap_cons, append_assoc, append_assoc] at same
      obtain ⟨first, same⟩ := each.1 other _ _ counted.1 same
      obtain ⟨later, same⟩ := ih (succ.inj number) counted.2 each.2 same
      exact ⟨by rw [first, later], same⟩

theorem RawTree.bytes_append_inj {a b : RawTree} {r s : Octets} (first : a.WellCounted)
    (second : b.WellCounted) (same : a.bytes ++ r = b.bytes ++ s) : a = b ∧ r = s := by
  induction a using induction generalizing b r s with
  | step node raws ih =>
    cases b with
    | mk other =>
      rw [bytes_mk, bytes_mk, append_assoc, append_assoc] at same
      obtain ⟨rfl, children⟩ := RawNode.bytes_append_inj same
      have first := counted_mk.mp first
      have second := counted_mk.mp second
      have below := forest_inj (first.1.symm.trans second.1) second.2
        (fun raw mem other r s counted => ih raw mem (first.2 raw mem) counted)
        children
      exact ⟨by rw [below.1], below.2⟩

end Vissr.TreeFile
