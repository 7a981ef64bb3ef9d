import Vissr.Text
import Vissr.Rose
import Vissr.Wire

/-! The binary file of a tree (`utils/treeutils.go`). A text is the bytes of a Go string. -/

namespace Vissr.TreeFile

open Wire

def ascii (s : Str) : Octets := s.map fun c => UInt8.ofNat c.toNat

def branch : Octets := ascii "branch"

/-- The fields of a node, apart from its links. -/
structure NodeFields where
  name : Octets
  nodeType : Octets
  uuid : Octets
  description : Octets
  datatype : Octets
  min : Octets
  max : Octets
  unit : Octets
  allowed : UInt8
  allowedDef : List Octets
  defaultValue : Octets
  validate : UInt8
  children : UInt8
  deriving DecidableEq

def contains (s sub : Octets) : Bool := decide (sub <:+: s)

def validateToInt (validate : Octets) : UInt8 :=
  let validation : UInt8 :=
    if contains validate (ascii "write-only") then 1
    else if contains validate (ascii "read-write") then 2 else 0
  if contains validate (ascii "consent") then validation + 10 else validation

/-- The consent flag takes the place of the mode. -/
def validateToString (validate : UInt8) : Octets :=
  let validation := if validate % 10 = 1 then ascii "write-only" else []
  let validation := if validate % 10 = 2 then ascii "read-write" else validation
  if validate / 10 = 1 then ascii "+consent" else validation

def serializeUInt8 (intVal : UInt8) : Octets := [intVal]

/-- The low byte comes first. -/
def serializeUInt16 (intVal : UInt16) : Octets :=
  [(intVal &&& 0x00FF).toUInt8, ((intVal &&& 0xFF00) / 256).toUInt8]

def deSerializeUInt16 (low high : UInt8) : UInt16 := high.toUInt16 * 256 + low.toUInt16

def hexDigit (value : Nat) : UInt8 :=
  if value < 10 then UInt8.ofNat (value + '0'.toNat) else UInt8.ofNat (value - 10 + 'A'.toNat)

/-- A number of more than two digits is written as zero. -/
def intToHex (intVal : Nat) : Octets :=
  if 255 < intVal then ascii "00" else [hexDigit (intVal / 16), hexDigit (intVal % 16)]

def isBetween (low high : Char) (digit : UInt8) : Bool :=
  low.toNat ≤ digit.toNat && digit.toNat ≤ high.toNat

def hexToIntStrict (digit : UInt8) : Option Nat :=
  if isBetween '0' '9' digit then some (digit.toNat - '0'.toNat)
  else if isBetween 'A' 'F' digit then some (digit.toNat - 'A'.toNat + 10)
  else if isBetween 'a' 'f' digit then some (digit.toNat - 'a'.toNat + 10)
  else none

inductive ReadCause where
  | eof
  | unexpectedEof
  | invalidHexDigit (digit : UInt8)
  /-- no two bytes for the length at an index -/
  | allowedTruncated (index : Nat)
  | atIndex (index : Nat) (cause : ReadCause)
  | allowedOverrun (index allowedLen bufferEnd : Nat)
  | elementTruncated (element index : Nat)
  | inElement (element : Nat) (cause : ReadCause)
  | elementOverrun (element allowedLen bufferEnd : Nat)

inductive NodeField where
  | name
  | nodeType
  | uuid
  | descrLen
  | description
  | datatypeLen
  | datatype
  | min
  | max
  | unit
  | allowedStrLen
  | allowedStr
  | countAllowedElements
  | extractAllowedElement (index : Nat)
  | default
  | validate
  | children

structure FieldError where
  field : NodeField
  cause : ReadCause

def decodeAllowedLen (hi lo : UInt8) : Except ReadCause Nat :=
  match hexToIntStrict hi with
  | none => .error (.invalidHexDigit hi)
  | some h =>
    match hexToIntStrict lo with
    | none => .error (.invalidHexDigit lo)
    | some l => .ok (h * 16 + l)

/-- The loop of `countAllowedElementsE`. Each round goes on by two bytes or more, so the length
bounds the rounds. -/
def countAllowedFrom : Nat → Nat → Nat → Octets → Except ReadCause Nat
  | _, _, nrOfAllowed, [] => .ok nrOfAllowed
  | _, index, _, [_] => .error (.allowedTruncated index)
  | 0, index, _, _ :: _ :: _ => .error (.allowedTruncated index)
  | rounds + 1, index, nrOfAllowed, hi :: lo :: rest =>
    match decodeAllowedLen hi lo with
    | .error cause => .error (.atIndex index cause)
    | .ok allowedLen =>
      if rest.length < allowedLen then
        .error (.allowedOverrun index allowedLen (index + 2 + rest.length))
      else
        countAllowedFrom rounds (index + allowedLen + 2) (nrOfAllowed + 1)
          (rest.drop allowedLen)

def countAllowedElementsE (allowedStr : Octets) : Except ReadCause Nat :=
  countAllowedFrom allowedStr.length 0 0 allowedStr

/-- The loop of `extractAllowedElementE`, with the number of elements to pass over. -/
def extractAllowedFrom : Nat → Nat → Nat → Octets → Except ReadCause Octets
  | left, alloweds, bufIndex, hi :: lo :: rest =>
    match decodeAllowedLen hi lo with
    | .error cause => .error (.inElement alloweds cause)
    | .ok allowedLen =>
      if rest.length < allowedLen then
        .error (.elementOverrun alloweds allowedLen (bufIndex + 2 + rest.length))
      else
        match left with
        | 0 => .ok (rest.take allowedLen)
        | left + 1 =>
          extractAllowedFrom left (alloweds + 1) (bufIndex + 2 + allowedLen)
            (rest.drop allowedLen)
  | _, alloweds, bufIndex, _ => .error (.elementTruncated alloweds bufIndex)

def extractAllowedElementE (allowedBuf : Octets) (elemIndex : Nat) : Except ReadCause Octets :=
  extractAllowedFrom elemIndex 0 0 allowedBuf

def shortRead (input : Octets) : ReadCause := if input = [] then .eof else .unexpectedEof

def readBytesE (numOfBytes : Nat) : Parser ReadCause Octets :=
  if numOfBytes = 0 then pure [] else take shortRead numOfBytes

def readUint8 : Parser ReadCause UInt8 := do
  let b ← readBytesE 1
  return b.headD 0

def readUint16 : Parser ReadCause UInt16 := do
  let b ← readBytesE 2
  return deSerializeUInt16 (b.headD 0) (b.tail.headD 0)

def readLenPrefixedString8 : Parser ReadCause Octets := do
  let n ← readUint8
  readBytesE n.toNat

def inField {α : Type} (field : NodeField) (p : Parser ReadCause α) : Parser FieldError α :=
  within (fun cause => ⟨field, cause⟩) p

def extractAllowedElements (allowedStr : Octets) : List Nat → Parser FieldError (List Octets)
  | [] => pure []
  | i :: indexes => do
      let elem ← inField (.extractAllowedElement i)
        (Wire.ofExcept (extractAllowedElementE allowedStr i))
      let elems ← extractAllowedElements allowedStr indexes
      return elem :: elems

def populateNode : Parser FieldError NodeFields := do
  let name ← inField .name readLenPrefixedString8
  let nodeType ← inField .nodeType readLenPrefixedString8
  let uuid ← inField .uuid readLenPrefixedString8
  let descrLen ← inField .descrLen readUint16
  let description ← inField .description (readBytesE descrLen.toNat)
  let datatypeLen ← inField .datatypeLen readUint8
  let datatypeBytes ← inField .datatype (readBytesE datatypeLen.toNat)
  let min ← inField .min readLenPrefixedString8
  let max ← inField .max readLenPrefixedString8
  let unit ← inField .unit readLenPrefixedString8
  let allowedStrLen ← inField .allowedStrLen readUint16
  let allowedStr ← inField .allowedStr (readBytesE allowedStrLen.toNat)
  let count ← inField .countAllowedElements (Wire.ofExcept (countAllowedElementsE allowedStr))
  let allowed := UInt8.ofNat count
  let allowedDef ← extractAllowedElements allowedStr (List.range allowed.toNat)
  let defaultValue ← inField .default readLenPrefixedString8
  let validate ← inField .validate readLenPrefixedString8
  let children ← inField .children readUint8
  return {
    name, nodeType, uuid, description
    -- the datatype of a branch is read and dropped
    datatype := if nodeType = branch then [] else datatypeBytes
    min, max, unit, allowed, allowedDef, defaultValue
    validate := validateToInt validate
    children }

def maxTreeDepth : Nat := 64

def maxTreeNodes : Nat := 200000

/-- A node in memory. A link is the address of a node. -/
structure HeapNode where
  fields : NodeFields
  parent : Option Nat
  child : List (Option Nat)
  deriving DecidableEq

/-- What is left to read, the counters and the memory. -/
structure ReadState where
  input : Octets
  currentDepth : Nat
  totalNodes : Nat
  heap : List HeapNode

inductive ReadError where
  | treeDepth
  | nodeCount
  | populateNode (depth node : Nat) (error : FieldError)

abbrev ReadResult (α : Type) := Except ReadError α × ReadState

def updateReadMetadata (increment : Bool) (s : ReadState) : ReadState :=
  if increment then { s with totalNodes := s.totalNodes + 1, currentDepth := s.currentDepth + 1 }
  else { s with currentDepth := s.currentDepth - 1 }

def setChild (thisNode childNo child : Nat) (heap : List HeapNode) : List HeapNode :=
  heap.modify thisNode fun node => { node with child := node.child.set childNo (some child) }

def readChildren (read : Option Nat → ReadState → ReadResult Nat) (thisNode : Nat) :
    Nat → Nat → ReadState → ReadResult Unit
  | 0, _, s => (.ok (), s)
  | left + 1, childNo, s =>
    match read (some thisNode) s with
    | (.error error, s) => (.error error, s)
    | (.ok child, s) =>
      readChildren read thisNode left (childNo + 1)
        { s with heap := setChild thisNode childNo child s.heap }

def storeNode (parentNode : Option Nat) (fields : NodeFields) (rest : Octets)
    (s : ReadState) : ReadState :=
  { s with
    input := rest
    heap := s.heap ++ [⟨fields, parentNode, List.replicate fields.children.toNat none⟩] }

/-- A node and its children, once the counters are moved. -/
def readThisNode (read : Option Nat → ReadState → ReadResult Nat) (parentNode : Option Nat)
    (s : ReadState) : ReadResult Nat :=
  if maxTreeDepth < s.currentDepth then (.error .treeDepth, s)
  else if maxTreeNodes < s.totalNodes then (.error .nodeCount, s)
  else
    match populateNode.run s.input with
    | .error error => (.error (.populateNode s.currentDepth s.totalNodes error), s)
    | .ok (fields, rest) =>
      match readChildren read s.heap.length fields.children.toNat 0
          (storeNode parentNode fields rest s) with
      | (.error error, after) => (.error error, after)
      | (.ok (), after) => (.ok s.heap.length, after)

/-- The depth is counted down again however the node is left. -/
def counted (body : ReadState → ReadResult Nat) (s : ReadState) : ReadResult Nat :=
  let result := body (updateReadMetadata true s)
  (result.1, updateReadMetadata false result.2)

/-- Below the greatest depth there is nothing but the error for it. -/
def readNode : Nat → Option Nat → ReadState → ReadResult Nat
  | 0, _, s => counted (fun s => (.error .treeDepth, s)) s
  | levels + 1, parentNode, s => counted (readThisNode (readNode levels) parentNode) s

def traverseAndReadNode (parentNode : Option Nat) (s : ReadState) : ReadResult Nat :=
  readNode (maxTreeDepth - s.currentDepth) parentNode s

def initReadMetadata (input : Octets) (heap : List HeapNode) : ReadState := ⟨input, 0, 0, heap⟩

/-- A tree as it is written, without the links to the parents. -/
abbrev FileTree := Rose NodeFields

def writeText8 (text : Octets) : Octets := serializeUInt8 (UInt8.ofNat text.length) ++ text

def writeText16 (text : Octets) : Octets := serializeUInt16 (UInt16.ofNat text.length) ++ text

def calculatAllowedStrLen (allowedDef : List Octets) : Nat :=
  (allowedDef.map fun allowed => allowed.length + 2).sum

def allowedWrite (allowed : Octets) : Octets := intToHex allowed.length ++ allowed

def writeNode (thisNode : NodeFields) : Octets :=
  writeText8 thisNode.name ++ (writeText8 thisNode.nodeType ++ (writeText8 thisNode.uuid ++
    (writeText16 thisNode.description ++ (writeText8 thisNode.datatype ++
      (writeText8 thisNode.min ++ (writeText8 thisNode.max ++ (writeText8 thisNode.unit ++
        (serializeUInt16 (UInt16.ofNat (calculatAllowedStrLen thisNode.allowedDef)) ++
          (thisNode.allowedDef.flatMap allowedWrite ++ (writeText8 thisNode.defaultValue ++
            (writeText8 (validateToString thisNode.validate) ++
              serializeUInt8 thisNode.children)))))))))))

mutual

/-- None is a panic at a child that is not there. -/
def traverseAndWriteNode : FileTree → Option Octets
  | .mk fields child => (writeChildren fields.children.toNat child).map (writeNode fields ++ ·)

def writeChildren : Nat → List FileTree → Option Octets
  | 0, _ => some []
  | _ + 1, [] => none
  | left + 1, node :: nodes =>
    (traverseAndWriteNode node).bind fun bytes => (writeChildren left nodes).map (bytes ++ ·)

end

end Vissr.TreeFile
