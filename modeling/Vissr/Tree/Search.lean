import Vissr.Text

/-! The tree of signals and the search for the nodes a path names
(`utils/treeutils.go`). -/

namespace Vissr.Tree

inductive NodeType where
  | sensor
  | actuator
  | attribute
  | branch
  | struct
  | property
  | procedure
  | iostruct
  | other (name : Str)
  deriving DecidableEq

structure NodeData where
  name : Str
  nodeType : NodeType
  datatype : Str := []
  defaultValue : Str := []
  description : Str := []
  validate : Nat := 0
  deriving DecidableEq

/-- The number of children is the length of the list. -/
inductive Node where
  | mk (data : NodeData) (child : List Node)

namespace Node

def data : Node → NodeData
  | mk data _ => data

def child : Node → List Node
  | mk _ child => child

def name (node : Node) : Str := node.data.name
def validate (node : Node) : Nat := node.data.validate

end Node

/-- None 0, write-only 1, read-write 2, and 10 more with consent. -/
def validationMatrix : List (List Nat) :=
  [[0, 1, 2, 11, 12], [1, 1, 2, 11, 12], [2, 2, 2, 12, 12], [11, 11, 12, 11, 12],
    [12, 12, 12, 12, 12]]

def translateToMatrixIndex : Nat → Nat
  | 0 => 0
  | 1 => 1
  | 2 => 2
  | 11 => 3
  | 12 => 4
  | _ => 0

def getMaxValidation (newValidation currentMaxValidation : Nat) : Nat :=
  ((validationMatrix[translateToMatrixIndex newValidation]?.getD [])[
    translateToMatrixIndex currentMaxValidation]?).getD 0

/-- The path, the node and its ancestors, the nearest first. -/
structure Match where
  nodePath : Str
  node : Node
  ancestors : List Node

structure SearchContext where
  searchPath : Str
  maxDepth : Nat
  leafNodesOnly : Bool
  noScopeList : List Str
  matchPath : Str := []
  /-- depth in the tree, and also depth (in segments) in the search path -/
  currentDepth : Nat := 0
  /-- changes when the path segment in focus is a wildcard -/
  speculationIndex : Int := -1
  speculativeMatches : List Nat := List.replicate 20 0
  maxValidation : Nat := 0
  /-- the last one first; their number is `NumOfMatches` -/
  found : List Match := []

def maxFoundNodes : Nat := 1500

variable (path : Str)

def countSegments : Nat := path.count '.' + 1

/-- Where `getPathSegment` is after `n` rounds. Without a further delimiter it stays. -/
def frontDelimiter (path : Str) : Nat → Nat
  | 0 => 0
  | n + 1 =>
    match index '.' (path.drop (frontDelimiter path n + 1)) with
    | some i => frontDelimiter path n + i + 1
    | none => frontDelimiter path n

def endDelimiter (front : Nat) : Nat :=
  match index '.' (path.drop (front + 1)) with
  | some i => i + front + 1
  | none => path.length

def pathSegment (rounds : Nat) : Str :=
  let front := frontDelimiter path rounds
  let start := if path[front]? = some '.' then front + 1 else front
  (path.take (endDelimiter path front)).drop start

def getPathSegment (offset : Nat) (context : SearchContext) : Str :=
  pathSegment context.searchPath (context.currentDepth + offset - 1)

def compareNodeName (nodeName pathName : Str) : Bool := nodeName = pathName || pathName = "*"

def pushPathSegment (name : Str) (context : SearchContext) : Str :=
  if 0 < context.currentDepth then context.matchPath ++ '.' :: name else context.matchPath ++ name

def popPathSegment (matchPath : Str) : Str := (beforeLast '.' matchPath).getD []

def incDepth (name : Str) (context : SearchContext) : SearchContext :=
  { context with
    matchPath := pushPathSegment name context
    currentDepth := context.currentDepth + 1 }

def isEndOfScope (context : SearchContext) : Bool := context.noScopeList.contains context.matchPath

/-- The array has 20 elements, and an index beyond them panics. -/
def countSpeculative (context : SearchContext) : Option SearchContext :=
  if context.speculationIndex < 0 then some context
  else
    (context.speculativeMatches[context.speculationIndex.toNat]?).map fun n =>
      { context with
        speculativeMatches :=
          context.speculativeMatches.set context.speculationIndex.toNat (n + 1) }

variable (node : Node)

def enterNode (context : SearchContext) : SearchContext :=
  { context with
    speculationIndex := context.speculationIndex + if getPathSegment 0 context = "*" then 1 else 0
    maxValidation := getMaxValidation node.validate context.maxValidation }

def Node.counts (leafNodesOnly : Bool) (node : Node) : Bool :=
  node.data.nodeType ≠ .branch || !leafNodesOnly

def keepMatch (parents : List Node) (node : Node) (context : SearchContext) :
    Option SearchContext :=
  if node.counts context.leafNodesOnly then
    countSpeculative { context with found := ⟨context.matchPath, node, parents⟩ :: context.found }
  else some context

def goesNoDeeper (context : SearchContext) : Bool :=
  node.child.length = 0 || context.currentDepth = context.maxDepth || isEndOfScope context

def speculationResult (context : SearchContext) : Nat :=
  if 0 ≤ context.speculationIndex ∧
    ((node.child.length = 0 ∧ countSegments context.searchPath ≤ context.currentDepth) ∨
      context.currentDepth = context.maxDepth) then 1 else 0

/-- The context, whether to go no deeper, and whether a speculation succeeded. -/
def saveMatchingNode (parents : List Node) (node : Node) (context : SearchContext) :
    Option (SearchContext × Bool × Nat) :=
  if context.found.length = maxFoundNodes - 1 then some (context, true, 0)
  else
    (keepMatch parents node (enterNode node context)).map fun context =>
      (context, goesNoDeeper node context, speculationResult node context)

/-- A speculative match that failed is taken back. -/
def dropSpeculative (speculationSucceded : Nat) (context : SearchContext) :
    Option SearchContext :=
  if context.speculationIndex < 0 then some context
  else
    (context.speculativeMatches[context.speculationIndex.toNat]?).map fun n =>
      if 0 < n ∧ speculationSucceded = 0 then
        { context with
          found := context.found.tail
          speculativeMatches :=
            context.speculativeMatches.set context.speculationIndex.toNat (n - 1) }
      else context

def decDepth (speculationSucceded : Nat) (context : SearchContext) : Option SearchContext :=
  (dropSpeculative speculationSucceded context).map fun context =>
    { context with
      speculationIndex := context.speculationIndex - if getPathSegment 0 context = "*" then 1 else 0
      matchPath := popPathSegment context.matchPath
      currentDepth := context.currentDepth - 1 }

def leave (result : SearchContext × Nat) : Option (SearchContext × Nat) :=
  (decDepth result.2 result.1).map fun context => (context, result.2)

/-- The name of the root does not have to match. -/
def entersNode (context : SearchContext) : Bool :=
  context.currentDepth = 1 || compareNodeName node.name (getPathSegment 0 context)

mutual

/-- The context, and the number of speculations that succeeded; none is a panic. -/
def traverseNode (parents : List Node) : Node → SearchContext → Option (SearchContext × Nat)
  | .mk data child, context =>
    let context := incDepth data.name context
    if entersNode (.mk data child) context then
      (saveMatchingNode parents (.mk data child) context).bind fun (context, done, succeeded) =>
        if done then leave (context, succeeded)
        else
          (traverseChildren (.mk data child :: parents) (getPathSegment 1 context) child
            (context, succeeded)).bind leave
    else leave (context, 0)

def traverseChildren (parents : List Node) (childPathName : Str) :
    List Node → SearchContext × Nat → Option (SearchContext × Nat)
  | [], result => some result
  | node :: nodes, (context, succeeded) =>
    if compareNodeName node.name childPathName then
      (traverseNode parents node context).bind fun (context, more) =>
        traverseChildren parents childPathName nodes (context, succeeded + more)
    else traverseChildren parents childPathName nodes (context, succeeded)

end

def initContext (searchPath : Str) (anyDepth leafNodesOnly : Bool) (noScopeList : List Str) :
    SearchContext :=
  { searchPath
    maxDepth := if anyDepth then 100 else countSegments searchPath
    leafNodesOnly
    noScopeList }

/-- The matches, and the joined validation on the way. An empty path panics. -/
def vssSearchNodes (searchPath : Str) (rootNode : Node) (anyDepth leafNodesOnly : Bool)
    (noScopeList : List Str) : Option (List Match × Nat) :=
  if searchPath = [] then none
  else
    (traverseNode [] rootNode (initContext searchPath anyDepth leafNodesOnly noScopeList)).map
      fun result => (result.1.found.reverse, result.1.maxValidation)

/-- There is no handle if its file was not read. `InitForest` names the root. -/
structure HimTree where
  rootName : Str
  handle : Option Node
  domain : Str := []
  named : ∀ root, handle = some root → root.name = rootName

abbrev Forest := List HimTree

def rootSegment : Str := path.takeWhile (· ≠ '.')

def setRootNodePointer (himForest : Forest) (rootPath : Str) : Option HimTree :=
  himForest.find? fun tree => tree.rootName = rootSegment rootPath

def getInfoType (tree : HimTree) : Str := (afterLast '.' tree.domain).getD "Missing"

end Vissr.Tree
