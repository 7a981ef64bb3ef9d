import Vissr.TreeFile.RoundTrip

/-! A tree file that is read and written again. -/

namespace Vissr.TreeFile

open Wire Option List Nat RawNode Rose

theorem hexToIntStrict_lt {digit : UInt8} {value : Nat}
    (decoded : hexToIntStrict digit = some value) : value < 16 := by
  simp only [hexToIntStrict, isBetween, Bool.and_eq_true, decide_eq_true_iff] at decoded
  split_ifs at decoded with number upper lower
  · have same := some.inj decoded
    have top : digit.toNat ≤ 57 := number.2
    change digit.toNat - 48 = value at same
    omega
  · have same := some.inj decoded
    have top : digit.toNat ≤ 70 := upper.2
    change digit.toNat - 65 + 10 = value at same
    omega
  · have same := some.inj decoded
    have top : digit.toNat ≤ 102 := lower.2
    change digit.toNat - 97 + 10 = value at same
    omega

theorem RawElement.length_text_le (element : RawElement) : element.text.length ≤ 255 := by
  have valid := element.valid
  rw [decodeAllowedLen] at valid
  split at valid
  · cases valid
  · rename_i h hi
    split at valid
    · cases valid
    · rename_i l lo
      have same := Except.ok.inj valid
      have first := hexToIntStrict_lt hi
      have second := hexToIntStrict_lt lo
      omega

theorem length_elements (elements : List RawElement) : (elements.flatMap RawElement.bytes).length =
      calculatAllowedStrLen (elements.map RawElement.text) := by
  rw [List.length_flatMap, calculatAllowedStrLen, List.map_map]
  rfl

theorem calculatAllowedStrLen_take (texts : List Octets) (n : Nat) :
    calculatAllowedStrLen (texts.take n) ≤ calculatAllowedStrLen texts := by
  have split : calculatAllowedStrLen texts =
      calculatAllowedStrLen (texts.take n) + calculatAllowedStrLen (texts.drop n) := by
    rw [calculatAllowedStrLen, calculatAllowedStrLen, calculatAllowedStrLen, ← sum_append_nat,
      ← map_append, take_append_drop]
  omega

theorem RawNode.fits (node : RawNode) : node.fields.Fits where
  name := le_of_lt_succ node.name.property
  nodeType := le_of_lt_succ node.nodeType.property
  uuid := le_of_lt_succ node.uuid.property
  description := le_of_lt_succ node.description.property
  datatype := by
    rw [fields]
    split_ifs
    · exact zero_le _
    · exact le_of_lt_succ node.datatype.property
  min := le_of_lt_succ node.min.property
  max := le_of_lt_succ node.max.property
  unit := le_of_lt_succ node.unit.property
  defaultValue := le_of_lt_succ node.defaultValue.property
  allowedElement := by
    intro text mem
    obtain ⟨element, _, rfl⟩ := mem_map.mp (mem_of_mem_take mem)
    exact element.length_text_le
  allowedStr := by
    have whole := node.allowedFits
    rw [length_elements] at whole
    exact (calculatAllowedStrLen_take node.allowedTexts _).trans (le_of_lt_succ whole)
  allowedNumber := by
    have few := length_take_le node.allowedCount.toNat node.allowedTexts
    exact few.trans (le_of_lt_succ node.allowedCount.toNat_lt)
  allowed := by
    have all : node.allowedTexts.length = node.allowed.length := length_map _
    have few := node.allowedCount_le
    change node.allowedCount.toNat = (node.allowedTexts.take node.allowedCount.toNat).length
    rw [length_take_of_le (few.trans all.ge)]
  branchDatatype := fun isBranch => if_pos isBranch

theorem Accepted.fits {input rest : Octets} {heap : List HeapNode} {raw : RawTree}
    (accepted : Accepted maxTreeDepth (initReadMetadata input heap) raw rest) :
    FitsFormat raw.tree where
  fields := by
    intro fields mem
    rw [RawTree.tree, labels_map] at mem
    obtain ⟨node, _, rfl⟩ := mem_map.mp mem
    exact node.fits
  counted := (counted_map fields _ raw).mpr accepted.counted
  shallow := (height_map fields raw).trans_le accepted.shallow
  few := by
    have few := accepted.few
    rw [← size_map fields raw] at few
    exact (Nat.zero_add _).ge.trans few

/-- The text asks for consent together with no mode of access. -/
def ConsentAlone (validate : Octets) : Prop :=
  contains validate (ascii "consent") → ¬ contains validate (ascii "write-only") ∧
    ¬ contains validate (ascii "read-write")

theorem validate_readBack_iff (validate : Octets) :
    validateToInt (validateToString (validateToInt validate)) = validateToInt validate ↔
      ConsentAlone validate := by
  have number : validateToInt validate = (if contains validate (ascii "consent") then
        (if contains validate (ascii "write-only") then 1
          else if contains validate (ascii "read-write") then 2 else 0) + 10
      else if contains validate (ascii "write-only") then 1
        else if contains validate (ascii "read-write") then 2 else 0) := rfl
  rw [number, ConsentAlone]
  cases contains validate (ascii "consent") with
  | false | true =>
    cases contains validate (ascii "write-only") <;>
      cases contains validate (ascii "read-write") <;> decide

theorem RawNode.readBack_iff (node : RawNode) :
    node.fields.readBack = node.fields ↔ ConsentAlone node.validate.val := by
  rw [← validate_readBack_iff]
  constructor
  · intro same
    exact congrArg NodeFields.validate same
  · intro same
    exact congrArg (fun validate => { node.fields with validate }) same

/-- Writing the tree and reading the file gives the tree. -/
def KeptByRewriting (tree : FileTree) (rest : Octets) (heap : List HeapNode) : Prop :=
  ∃ bytes address after, traverseAndWriteNode tree = some bytes ∧
    traverseAndReadNode none (initReadMetadata (bytes ++ rest) heap) = (.ok address, after) ∧
      Represents after.heap none address tree

theorem FitsFormat.keptByRewriting_iff {tree : FileTree} (fits : FitsFormat tree) (rest : Octets)
    (heap : List HeapNode) :
    KeptByRewriting tree rest heap ↔ tree.map NodeFields.readBack = tree := by
  obtain ⟨after, read, back, _⟩ := fits.read_back none rest heap
  have written := traverseAndWriteNode_eq tree fits.counted
  constructor
  · intro kept
    obtain ⟨bytes, address, last, write, again, same⟩ := kept
    rw [written] at write
    cases write
    rw [read] at again
    cases again
    exact back.unique same
  · intro same
    rw [same] at back
    exact ⟨_, _, after, written, read, back⟩

theorem RawTree.readBack_iff (raw : RawTree) : raw.tree.map NodeFields.readBack = raw.tree ↔
      ∀ node ∈ raw.labels, ConsentAlone node.validate.val := by
  rw [RawTree.tree, Rose.map_map, Rose.map_eq_map_iff]
  exact forall₂_congr fun node _ => node.readBack_iff

/-- Writing a tree keeps it exactly when no node asks for consent together with a mode of access. -/
theorem rewriting_keeps_tree_iff (input : Octets) (heap : List HeapNode) (address : Nat)
    (after : ReadState) (tree : FileTree) (rest : Octets) (memory : List HeapNode)
    (read : traverseAndReadNode none (initReadMetadata input heap) = (.ok address, after))
    (stored : Represents after.heap none address tree) : KeptByRewriting tree rest memory ↔
      ∀ (raw : RawTree) (left : Octets), raw.WellCounted → input = raw.bytes ++ left →
        ∀ node ∈ raw.labels, ConsentAlone node.validate.val := by
  obtain ⟨raw, left, accepted, rfl, rfl⟩ := traverseAndReadNode_iff.mp read
  have same : tree = raw.tree := stored.unique (represents_afterTree none raw left _)
  rw [same, accepted.fits.keptByRewriting_iff, raw.readBack_iff]
  constructor
  · intro alone other left' counted front
    have once := RawTree.bytes_append_inj accepted.counted counted (accepted.front.symm.trans front)
    rw [← once.1]
    exact alone
  · intro alone
    exact alone raw left accepted.counted accepted.front

variable (validate : Text8)

def guardedNode : RawNode := { bareSensor with validate }

def guardedFile : RawTree := .mk (guardedNode validate) []

theorem guardedFile_accepted (heap : List HeapNode) :
    Accepted maxTreeDepth (initReadMetadata (guardedFile validate).bytes heap)
      (guardedFile validate) [] where
  counted := counted_mk.mpr ⟨rfl, fun _ mem => absurd mem not_mem_nil⟩
  shallow := (by decide : 1 ≤ 64)
  few := (by decide : 0 + 1 ≤ 200000)
  front := (append_nil _).symm

def readWriteText : Text8 := ⟨ascii "read-write", by decide⟩

theorem rewriting_keeps_tree_iff_guarded : ∃ address after, traverseAndReadNode none
        (initReadMetadata (guardedFile readWriteText).bytes []) = (.ok address, after) ∧
      Represents after.heap none address (guardedFile readWriteText).tree ∧
        (KeptByRewriting (guardedFile readWriteText).tree [] after.heap ↔
          ∀ (raw : RawTree) (left : Octets), raw.WellCounted →
            (guardedFile readWriteText).bytes = raw.bytes ++ left →
              ∀ node ∈ raw.labels, ConsentAlone node.validate.val) := by
  have read := (guardedFile_accepted readWriteText []).reads none
  have stored := represents_afterTree none (guardedFile readWriteText) []
    (initReadMetadata (guardedFile readWriteText).bytes [])
  exact ⟨_, _, read, stored, rewriting_keeps_tree_iff _ _ _ _ _ _ _ read stored⟩

def consentText : Text8 := ⟨ascii "write-only+consent", by decide⟩

def consentTree (validate : UInt8) : FileTree :=
  .mk { (guardedNode consentText).fields with validate } []

/-- A signal that can only be written, with consent, comes back as one to be read. -/
theorem rewriting_loses_mode : ∃ address after again last bytes,
      traverseAndReadNode none (initReadMetadata (guardedFile consentText).bytes []) =
          (.ok address, after) ∧ Represents after.heap none address (consentTree 11) ∧
        traverseAndWriteNode (consentTree 11) = some bytes ∧
        traverseAndReadNode none (initReadMetadata bytes []) = (.ok again, last) ∧
        Represents last.heap none again (consentTree 10) := by
  have accepted := guardedFile_accepted consentText []
  have stored : Represents _ none 0 (consentTree 11) :=
    represents_afterTree none (guardedFile consentText) []
      (initReadMetadata (guardedFile consentText).bytes [])
  have fits : FitsFormat (consentTree 11) := accepted.fits
  obtain ⟨last, back, same, _⟩ := fits.read_back none [] []
  rw [append_nil] at back
  exact ⟨_, _, _, last, _, accepted.reads none, stored, traverseAndWriteNode_eq _ fits.counted,
    back, same⟩

end Vissr.TreeFile
