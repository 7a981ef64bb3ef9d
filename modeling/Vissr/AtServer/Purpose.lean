import Vissr.Tree.Path

/-! Purposes and scopes: who may ask for them, what they give access to, whether they need consent. -/

namespace Vissr.AtServer

open Tree Option List

structure ContextElement where
  user : List Str
  app : List Str
  device : List Str

structure AccessElement where
  path : Str
  permission : Str

structure PurposeElement where
  short : Str
  context : List ContextElement
  access : List AccessElement

structure ScopeElement where
  context : List ContextElement
  noAccess : List Str

def getActorRole (actorIndex : Nat) (context : Str) : Str :=
  match index '+' context with
  | none => []
  | some delimiter1 =>
    if actorIndex = 0 then context.take delimiter1
    else
      let rest := context.drop (delimiter1 + 1)
      match index '+' rest with
      | none => []
      | some delimiter2 =>
        if actorIndex = 1 then rest.take delimiter2 else rest.drop (delimiter2 + 1)

def ContextElement.admits (element : ContextElement) (context : Str) : Bool :=
  element.user.contains (getActorRole 0 context) &&
    element.app.contains (getActorRole 1 context) &&
    element.device.contains (getActorRole 2 context)

def checkAuthorization (element : PurposeElement) (context : Str) : Bool :=
  element.context.any (·.admits context)

def matchingContext (element : ScopeElement) (context : Str) : Bool :=
  element.context.any (·.admits context)

variable (pList : List PurposeElement)

def validatePurpose (purpose context : Str) : Bool :=
  pList.any fun element => element.short = purpose && checkAuthorization element context

/-- More than one element may have its name. -/
def accessOf (purpose : Str) : List AccessElement :=
  (pList.filter fun element => element.short = purpose).flatMap (·.access)

def validatePurposeAndAccessPermission (purpose action path : Str) :
    Int :=
  match (accessOf pList purpose).find? fun access => access.path = path with
  | some access => if action = "set" ∧ access.permission = "read-only" then 61 else 0
  | none => 60

variable (himForest : Forest)

/-- The nodes a path names and the validation. Without a loaded tree it panics. -/
def search (path : Str) : Option (List Match × Nat) :=
  (setRootNodePointer himForest path).bind fun tree =>
    tree.handle.bind fun root => vssSearchNodes path root true true []

/-- A node path is cut at the first zero byte. -/
def cutPath (path : Str) : Str := path.takeWhile (· ≠ '\x00')

def expandPath (path : Str) : Option (List Str) :=
  if contains path "*" then
    (search himForest path).map fun found => found.1.map fun entry => cutPath entry.nodePath
  else some [path]

def firstRefusal (pList : List PurposeElement) (purpose action : Str) : List Str → Int
  | [] => 0
  | path :: paths =>
    let status := validatePurposeAndAccessPermission pList purpose action path
    if status ≠ 0 then status else firstRefusal pList purpose action paths

def validateRequestAccess (himForest : Forest) (pList : List PurposeElement)
    (purpose action : Str) : List Str → Option Int
  | [] => some 0
  | path :: paths =>
    (expandPath himForest path).bind fun pathSubList =>
      let status := firstRefusal pList purpose action pathSubList
      if status ≠ 0 then some status
      else validateRequestAccess himForest pList purpose action paths

def needsConsent (access : AccessElement) : Option Bool :=
  (search himForest access.path).map fun found => found.2 / 10 = 1

def anyNeedsConsent (himForest : Forest) : List AccessElement → Option Bool
  | [] => some false
  | access :: rest =>
    (needsConsent himForest access).bind fun needs =>
      if needs then some true else anyNeedsConsent himForest rest

def checkifConsent (pList : List PurposeElement) (purpose : Str) :
    Option Bool :=
  anyNeedsConsent himForest (accessOf pList purpose)

/-- An empty list of paths panics: the text is cut before its start. -/
def synthesizeNoScope (element : ScopeElement) : Option Str :=
  match element.noAccess with
  | [] => none
  | [path] => some ('"' :: path ++ ['"'])
  | paths =>
    let noScope := '[' :: paths.flatMap fun path => '"' :: path ++ "\", "
    some (noScope.take (noScope.length - 2) ++ [']'])

def getNoAccessScope (sList : List ScopeElement) (context : Str) : Option Str :=
  match sList.find? fun element => matchingContext element context with
  | some element => synthesizeNoScope element
  | none => some "\"\""

theorem anyNeedsConsent_false (accesses : List AccessElement)
    (checked : anyNeedsConsent himForest accesses = some false) (access : AccessElement)
    (member : access ∈ accesses) :
    ∃ found validation, search himForest access.path = some (found, validation) ∧
      validation / 10 ≠ 1 := by
  induction accesses with
  | nil => cases member
  | cons first rest ih =>
    obtain ⟨needs, asked, answer⟩ := bind_eq_some_iff.mp checked
    cases needs with
    | true => cases answer
    | false =>
      obtain rfl | member := mem_cons.mp member
      · obtain ⟨⟨found, validation⟩, searched, same⟩ := map_eq_some_iff.mp asked
        exact ⟨found, validation, searched, by simpa using same⟩
      · exact ih answer member

theorem validatePurposeAndAccessPermission_zero (purpose action path : Str)
    (allowed : validatePurposeAndAccessPermission pList purpose action path = 0) :
    ∃ access ∈ accessOf pList purpose, access.path = path := by
  unfold validatePurposeAndAccessPermission at allowed
  split at allowed
  · next access found =>
    exact ⟨access, mem_of_find?_eq_some found, by simpa using find?_some found⟩
  · cases allowed

end Vissr.AtServer
