import Vissr.TreeFile.Format

/-! The bytes of a node in a file. -/

namespace Vissr.TreeFile

open Wire List Nat RawElement UInt8

structure RawNode where
  name : Text8
  nodeType : Text8
  uuid : Text8
  description : Text16
  datatype : Text8
  min : Text8
  max : Text8
  unit : Text8
  allowed : List RawElement
  allowedFits : (allowed.flatMap bytes).length < 65536
  defaultValue : Text8
  validate : Text8
  children : UInt8

namespace RawNode

variable (node : RawNode)

def allowedStr : Text16 := ⟨node.allowed.flatMap bytes, node.allowedFits⟩

def bytes : Octets :=
  writeText8 node.name.val ++ (writeText8 node.nodeType.val ++ (writeText8 node.uuid.val ++
    (writeText16 node.description.val ++ (writeText8 node.datatype.val ++
      (writeText8 node.min.val ++ (writeText8 node.max.val ++ (writeText8 node.unit.val ++
        (writeText16 node.allowedStr.val ++ (writeText8 node.defaultValue.val ++
          (writeText8 node.validate.val ++ serializeUInt8 node.children))))))))))

def allowedTexts : List Octets := node.allowed.map text

def allowedCount : UInt8 := ofNat node.allowed.length

def fields : NodeFields where
  name := node.name.val
  nodeType := node.nodeType.val
  uuid := node.uuid.val
  description := node.description.val
  datatype := if node.nodeType.val = branch then [] else node.datatype.val
  min := node.min.val
  max := node.max.val
  unit := node.unit.val
  allowed := node.allowedCount
  allowedDef := node.allowedTexts.take node.allowedCount.toNat
  defaultValue := node.defaultValue.val
  validate := validateToInt node.validate.val
  children := node.children

def bare (name nodeType : Text8) : RawNode where
  name := name
  nodeType := nodeType
  uuid := ⟨[], zero_lt_succ _⟩
  description := ⟨[], zero_lt_succ _⟩
  datatype := ⟨[], zero_lt_succ _⟩
  min := ⟨[], zero_lt_succ _⟩
  max := ⟨[], zero_lt_succ _⟩
  unit := ⟨[], zero_lt_succ _⟩
  allowed := []
  allowedFits := zero_lt_succ _
  defaultValue := ⟨[], zero_lt_succ _⟩
  validate := ⟨[], zero_lt_succ _⟩
  children := 0

def bareSensor : RawNode := bare ⟨ascii "S", by decide⟩ ⟨ascii "sensor", by decide⟩

theorem allowedCount_le : node.allowedCount.toNat ≤ node.allowed.length := mod_le _ _

end RawNode

variable {input rest : Octets}

theorem range_map_getD (texts : List Octets) (n : Nat) (enough : n ≤ texts.length) :
    (range n).map (fun i => texts.getD i []) = texts.take n := by
  apply ext_getElem
  · simp [enough]
  · intro i first second
    have inside : i < texts.length := by
      simp only [length_map, length_range] at first
      omega
    simp [getD_eq_getElem?_getD, inside]

variable {β : Type} {b : β}

theorem parses_text8_then {field : NodeField} {next : Octets → Parser FieldError β} :
    Parses (inField field readLenPrefixedString8 >>= next) input b rest ↔
      ∃ (text : Text8) (middle : Octets), input = writeText8 text.val ++ middle ∧
        Parses (next text.val) middle b rest :=
  length8.parses_text_then (parses_within.trans parses_readLenPrefixedString8)

theorem parses_split8_then {first second : NodeField} {next : Octets → Parser FieldError β} :
    Parses (inField first readUint8 >>= fun n =>
        inField second (readBytesE n.toNat) >>= next) input b rest ↔
      ∃ (text : Text8) (middle : Octets), input = writeText8 text.val ++ middle ∧
        Parses (next text.val) middle b rest := by
  rw [parses_bind_assoc]
  apply length8.parses_text_then
  intro input text rest
  apply length8.parses_text
  · exact parses_within.trans parses_readUint8
  · exact parses_within.trans parses_readBytesE

theorem parses_split16_then {first second : NodeField} {next : Octets → Parser FieldError β} :
    Parses (inField first readUint16 >>= fun n =>
        inField second (readBytesE n.toNat) >>= next) input b rest ↔
      ∃ (text : Text16) (middle : Octets), input = writeText16 text.val ++ middle ∧
        Parses (next text.val) middle b rest := by
  rw [parses_bind_assoc]
  apply length16.parses_text_then
  intro input text rest
  apply length16.parses_text
  · exact parses_within.trans parses_readUint16
  · exact parses_within.trans parses_readBytesE

theorem parses_elements_then {buffer : Octets} {next : Nat → List Octets → Parser FieldError β} :
    Parses (inField .countAllowedElements (Wire.ofExcept (countAllowedElementsE buffer)) >>=
        fun count => extractAllowedElements buffer (range (ofNat count).toNat) >>=
          next count) input b rest ↔
      ∃ elements : List RawElement, buffer = elements.flatMap bytes ∧ Parses (next elements.length
          ((elements.map text).take (ofNat elements.length).toNat))
          input b rest := by
  have extracted : ∀ (elements : List RawElement) (values : List Octets) (before after : Octets),
      Parses (extractAllowedElements (elements.flatMap bytes)
        (range (ofNat elements.length).toNat)) before values after ↔
      values = (elements.map text).take (ofNat elements.length).toNat ∧ before = after := by
    intro elements values before after
    have few : (ofNat elements.length).toNat ≤ elements.length := mod_le _ _
    rw [parses_extractAllowedElements, range_map_getD]
    · rw [length_map]
      exact few
    · intro i mem
      exact lt_of_lt_of_le (mem_range.mp mem) few
  simp only [parses_bind, inField, parses_within, parses_ofExcept, countAllowedElementsE_iff]
  constructor
  · intro known
    obtain ⟨_, _, ⟨⟨elements, rfl, rfl⟩, rfl⟩, values, _, content, after⟩ := known
    obtain ⟨rfl, rfl⟩ := (extracted elements values _ _).mp content
    exact ⟨elements, rfl, after⟩
  · intro known
    obtain ⟨elements, rfl, after⟩ := known
    exact ⟨_, _, ⟨⟨elements, rfl, rfl⟩, rfl⟩, _, _, (extracted elements _ _ _).mpr ⟨rfl, rfl⟩, after⟩

theorem parses_uint8_then {field : NodeField} {next : UInt8 → Parser FieldError β} :
    Parses (inField field readUint8 >>= next) input b rest ↔
      ∃ (value : UInt8) (middle : Octets), input = serializeUInt8 value ++ middle ∧
        Parses (next value) middle b rest := by
  simp only [parses_bind, inField, parses_within, parses_readUint8]
  rfl

theorem populateNode_iff {fields : NodeFields} : Parses populateNode input fields rest ↔
      ∃ raw : RawNode, input = raw.bytes ++ rest ∧ fields = raw.fields := by
  simp only [populateNode, parses_text8_then, parses_split16_then, parses_split8_then,
    parses_elements_then]
  -- the rule for a single number would also take the length of a split text
  simp only [parses_uint8_then, parses_pure]
  constructor
  · intro known
    rcases known with ⟨name, _, rfl, nodeType, _, rfl, uuid, _, rfl, description, _, rfl,
      datatype, _, rfl, min, _, rfl, max, _, rfl, unit, _, rfl, allowedStr, _, rfl,
      allowed, list, defaultValue, _, rfl, validate, _, rfl, children, _, rfl, rfl, rfl⟩
    refine ⟨⟨name, nodeType, uuid, description, datatype, min, max, unit, allowed,
      list ▸ allowedStr.property, defaultValue, validate, children⟩, ?_, rfl⟩
    simp only [RawNode.bytes, RawNode.allowedStr, ← list, append_assoc]
  · intro known
    obtain ⟨raw, rfl, rfl⟩ := known
    simp only [RawNode.bytes, append_assoc]
    exact ⟨raw.name, _, rfl, raw.nodeType, _, rfl, raw.uuid, _, rfl, raw.description, _, rfl,
      raw.datatype, _, rfl, raw.min, _, rfl, raw.max, _, rfl, raw.unit, _, rfl,
      raw.allowedStr, _, rfl, raw.allowed, rfl, raw.defaultValue, _, rfl, raw.validate, _, rfl,
      raw.children, _, rfl, rfl, rfl⟩

theorem RawNode.bytes_append_inj {a b : RawNode} {r s : Octets}
    (same : a.bytes ++ r = b.bytes ++ s) : a = b ∧ r = s := by
  simp only [RawNode.bytes, append_assoc] at same
  obtain ⟨name, same⟩ := writeText8_append_inj same
  obtain ⟨nodeType, same⟩ := writeText8_append_inj same
  obtain ⟨uuid, same⟩ := writeText8_append_inj same
  obtain ⟨description, same⟩ := writeText16_append_inj same
  obtain ⟨datatype, same⟩ := writeText8_append_inj same
  obtain ⟨min, same⟩ := writeText8_append_inj same
  obtain ⟨max, same⟩ := writeText8_append_inj same
  obtain ⟨unit, same⟩ := writeText8_append_inj same
  obtain ⟨allowedStr, same⟩ := writeText16_append_inj same
  obtain ⟨defaultValue, same⟩ := writeText8_append_inj same
  obtain ⟨validate, same⟩ := writeText8_append_inj same
  have allowed := elements_inj (Subtype.mk.inj allowedStr)
  have last := cons.inj same
  constructor
  · cases a
    cases b
    simp_all only
  · exact last.2

end Vissr.TreeFile
