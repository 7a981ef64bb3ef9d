import Vissr.TreeFile.Reader

/-! What is read back of a tree that is written. -/

namespace Vissr.TreeFile

open Wire List Nat Rose NodeFields RawElement

/-- The fields that the format has room for. -/
structure NodeFields.Fits (fields : NodeFields) : Prop where
  name : fields.name.length ≤ 255
  nodeType : fields.nodeType.length ≤ 255
  uuid : fields.uuid.length ≤ 255
  description : fields.description.length ≤ 65535
  datatype : fields.datatype.length ≤ 255
  min : fields.min.length ≤ 255
  max : fields.max.length ≤ 255
  unit : fields.unit.length ≤ 255
  defaultValue : fields.defaultValue.length ≤ 255
  allowedElement : ∀ allowed ∈ fields.allowedDef, allowed.length ≤ 255
  allowedStr : calculatAllowedStrLen fields.allowedDef ≤ 65535
  allowedNumber : fields.allowedDef.length ≤ 255
  allowed : fields.allowed.toNat = fields.allowedDef.length
  branchDatatype : fields.nodeType = branch → fields.datatype = []

def NodeFields.readBack (fields : NodeFields) : NodeFields :=
  { fields with validate := validateToInt (validateToString fields.validate) }

theorem hexToIntStrict_hexDigit (value : Fin 16) :
    hexToIntStrict (hexDigit value.val) = some value.val := by
  revert value
  decide

theorem decodeAllowedLen_hexDigit (n : Nat) (short : n ≤ 255) :
    decodeAllowedLen (hexDigit (n / 16)) (hexDigit (n % 16)) = .ok n := by
  have hi := hexToIntStrict_hexDigit ⟨n / 16, by omega⟩
  have lo := hexToIntStrict_hexDigit ⟨n % 16, by omega⟩
  have whole : n / 16 * 16 + n % 16 = n := by
    omega
  simp only [decodeAllowedLen, hi, lo, whole]

def RawElement.ofText (text : Octets) (short : text.length ≤ 255) : RawElement where
  hi := hexDigit (text.length / 16)
  lo := hexDigit (text.length % 16)
  text := text
  valid := decodeAllowedLen_hexDigit text.length short

theorem RawElement.bytes_ofText (text : Octets) (short : text.length ≤ 255) :
    (ofText text short).bytes = allowedWrite text := by
  rw [allowedWrite, intToHex, if_neg (not_lt.mpr short)]
  rfl

theorem exists_elements (texts : List Octets) (short : ∀ text ∈ texts, text.length ≤ 255) :
    ∃ elements : List RawElement, elements.flatMap bytes = texts.flatMap allowedWrite ∧
      elements.map text = texts := by
  induction texts with
  | nil => exact ⟨[], rfl, rfl⟩
  | cons text texts ih =>
    rw [forall_mem_cons] at short
    obtain ⟨elements, bytes, same⟩ := ih short.2
    refine ⟨ofText text short.1 :: elements, ?_, ?_⟩
    · rw [flatMap_cons, flatMap_cons, bytes_ofText, bytes]
    · rw [map_cons, same]
      rfl

theorem length_allowedWrite (texts : List Octets) :
    (texts.flatMap allowedWrite).length = calculatAllowedStrLen texts := by
  have each : ∀ text : Octets, (allowedWrite text).length = text.length + 2 := by
    intro text
    rw [allowedWrite, intToHex, length_append]
    split_ifs
    · exact Nat.add_comm 2 _
    · exact Nat.add_comm 2 _
  rw [length_flatMap, calculatAllowedStrLen]
  exact congrArg (fun f => (texts.map f).sum) (funext each)

theorem length_validateToString (validate : UInt8) : (validateToString validate).length < 256 := by
  rw [validateToString]
  split_ifs
  all_goals decide

theorem NodeFields.Fits.exists_raw {fields : NodeFields} (fits : fields.Fits) :
    ∃ node : RawNode, (node.bytes, node.fields) = (writeNode fields, fields.readBack) := by
  obtain ⟨elements, bytes, texts⟩ := exists_elements fields.allowedDef fits.allowedElement
  have number : elements.length = fields.allowedDef.length := by
    rw [← texts, length_map]
  have count : UInt8.ofNat elements.length = fields.allowed := by
    rw [number, ← fits.allowed, UInt8.ofNat_toNat]
  have long : (elements.flatMap RawElement.bytes).length < 65536 := by
    rw [bytes, length_allowedWrite]
    exact lt_succ_of_le fits.allowedStr
  refine ⟨{
    name := ⟨fields.name, lt_succ_of_le fits.name⟩
    nodeType := ⟨fields.nodeType, lt_succ_of_le fits.nodeType⟩
    uuid := ⟨fields.uuid, lt_succ_of_le fits.uuid⟩
    description := ⟨fields.description, lt_succ_of_le fits.description⟩
    datatype := ⟨fields.datatype, lt_succ_of_le fits.datatype⟩
    min := ⟨fields.min, lt_succ_of_le fits.min⟩
    max := ⟨fields.max, lt_succ_of_le fits.max⟩
    unit := ⟨fields.unit, lt_succ_of_le fits.unit⟩
    allowed := elements
    allowedFits := long
    defaultValue := ⟨fields.defaultValue, lt_succ_of_le fits.defaultValue⟩
    validate := ⟨validateToString fields.validate, length_validateToString _⟩
    children := fields.children }, ?_⟩
  have datatype : (if fields.nodeType = branch then [] else fields.datatype) = fields.datatype := by
    split_ifs with isBranch
    · exact (fits.branchDatatype isBranch).symm
    · rfl
  have all : fields.allowedDef.take fields.allowed.toNat = fields.allowedDef := by
    rw [fits.allowed, take_length]
  simp only [RawNode.bytes, RawNode.fields, RawNode.allowedStr, RawNode.allowedTexts,
    RawNode.allowedCount, texts, count, all, datatype, bytes, readBack, writeText16,
    length_allowedWrite, writeNode, append_assoc]

theorem writeChildren_eq (trees : List FileTree)
    (each : ∀ tree ∈ trees, traverseAndWriteNode tree = some (tree.labels.flatMap writeNode)) :
    writeChildren trees.length trees =
      some (trees.flatMap fun tree => tree.labels.flatMap writeNode) := by
  induction trees with
  | nil => rfl
  | cons tree trees ih =>
    rw [forall_mem_cons] at each
    rw [length_cons, writeChildren, each.1, ih each.2]
    rfl

theorem traverseAndWriteNode_eq (tree : FileTree)
    (counted : tree.Counted fun fields => fields.children.toNat) :
    traverseAndWriteNode tree = some (tree.labels.flatMap writeNode) := by
  induction tree using induction with
  | step fields child ih =>
    rw [counted_mk] at counted
    rw [traverseAndWriteNode, counted.1,
      writeChildren_eq child fun tree mem => ih tree mem (counted.2 tree mem),
      labels_mk, flatMap_cons, flatMap_assoc]
    rfl

/-- The trees that the format has room for and the reader's limits admit. -/
structure FitsFormat (tree : FileTree) : Prop where
  fields : ∀ fields ∈ tree.labels, fields.Fits
  counted : tree.Counted fun fields => fields.children.toNat
  shallow : tree.height ≤ maxTreeDepth
  few : tree.size ≤ maxTreeNodes

theorem FitsFormat.exists_raw {tree : FileTree} (fits : FitsFormat tree) :
    ∃ raw : RawTree, raw.bytes = tree.labels.flatMap writeNode ∧ raw.tree = tree.map readBack := by
  rcases Rose.exists_map tree (fun node : RawNode => (node.bytes, node.fields))
    (fun fields => (writeNode fields, fields.readBack))
    (fun fields mem => (fits.fields fields mem).exists_raw) with ⟨raw, same⟩
  have bytes := congrArg (fun pairs => pairs.labels.flatMap Prod.fst) same
  have fields := congrArg (Rose.map Prod.snd) same
  simp only [labels_map, flatMap_map] at bytes
  rw [Rose.map_map, Rose.map_map] at fields
  exact ⟨raw, bytes, fields⟩

theorem FitsFormat.read_back {tree : FileTree} (fits : FitsFormat tree) (parent : Option Nat)
    (rest : Octets) (heap : List HeapNode) : ∃ after : ReadState, traverseAndReadNode parent
          (initReadMetadata (tree.labels.flatMap writeNode ++ rest) heap) =
        (.ok heap.length, after) ∧
      Represents after.heap parent heap.length (tree.map readBack) ∧ after.input = rest := by
  obtain ⟨raw, bytes, same⟩ := fits.exists_raw
  have counted : raw.WellCounted := by
    have whole := (counted_map readBack
      (fun fields => fields.children.toNat) tree).mpr fits.counted
    rw [← same] at whole
    exact (counted_map RawNode.fields _ raw).mp whole
  have height : raw.height = tree.height := by
    rw [← height_map readBack tree, ← same]
    exact (height_map _ raw).symm
  have size : raw.size = tree.size := by
    rw [← size_map readBack tree, ← same]
    exact (size_map _ raw).symm
  have accepted : Accepted maxTreeDepth
      (initReadMetadata (tree.labels.flatMap writeNode ++ rest) heap) raw rest :=
    ⟨counted, height.trans_le fits.shallow, (Nat.zero_add _).trans_le (size.trans_le fits.few),
      by rw [bytes]; rfl⟩
  refine ⟨_, accepted.reads parent, ?_, rfl⟩
  rw [← same]
  exact represents_afterTree parent raw rest _

/-- Writing a tree that fits and reading the file gives the tree with its links. -/
theorem tree_file_round_trip (tree : FileTree) (fits : FitsFormat tree) (parent : Option Nat)
    (rest : Octets) (heap : List HeapNode) :
    ∃ bytes address after, traverseAndWriteNode tree = some bytes ∧
      traverseAndReadNode parent (initReadMetadata (bytes ++ rest) heap) = (.ok address, after) ∧
        Represents after.heap parent address (tree.map readBack) ∧ after.input = rest := by
  obtain ⟨after, read, same, left⟩ := fits.read_back parent rest heap
  exact ⟨_, _, after, traverseAndWriteNode_eq tree fits.counted, read, same, left⟩

def switchTree : FileTree := .mk ⟨ascii "V", branch, [], [], [], [], [], [], 0, [], [], 0, 1⟩
    [.mk ⟨ascii "S", ascii "actuator", [], ascii "a switch", ascii "string", [], [], [], 2,
      [ascii "on", ascii "off"], ascii "off", 2, 0⟩ []]

theorem switchTree_fits : FitsFormat switchTree where
  fields := by
    intro fields member
    obtain rfl | member := mem_cons.mp member
    · constructor <;> decide
    · rw [mem_singleton.mp member]
      constructor <;> decide
  counted := counted_mk.mpr ⟨rfl, forall_mem_singleton.mpr
    (counted_mk.mpr ⟨rfl, fun _ member => absurd member not_mem_nil⟩)⟩
  shallow := by decide
  few := by decide

theorem tree_file_round_trip_switch : FitsFormat switchTree ∧ ∃ bytes address after,
      traverseAndWriteNode switchTree = some bytes ∧
        traverseAndReadNode none (initReadMetadata (bytes ++ [0]) []) = (.ok address, after) ∧
          Represents after.heap none address (switchTree.map readBack) ∧ after.input = [0] :=
  ⟨switchTree_fits, tree_file_round_trip switchTree switchTree_fits none [0] []⟩

end Vissr.TreeFile
