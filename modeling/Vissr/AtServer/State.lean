import Vissr.AtServer.Purpose
import Vissr.Slots
import Vissr.Token.Pop

/-! The state of the access token server (`server/vissv2server/atServer/atServer.go`). -/

namespace Vissr.AtServer

open Json Token Tree

structure AtGenPayload where
  token : Str := []
  purpose : Str := []
  pop : Str := []
  agt : ExtendedJwt := {}
  popTk : PopToken := {}
  deriving DecidableEq

/-- The last two fields have no name of their own, so a client can set them. -/
def AtGenPayload.fields : List (Json.Field AtGenPayload) :=
  [⟨"agToken", fun w p => (decodeStr w p.token).map fun s => { p with token := s }⟩,
   ⟨"purpose", fun w p => (decodeStr w p.purpose).map fun s => { p with purpose := s }⟩,
   ⟨"pop", fun w p => (decodeStr w p.pop).map fun s => { p with pop := s }⟩,
   ⟨"Agt", fun w p => (decodeStruct ExtendedJwt.fields w p.agt).map fun a => { p with agt := a }⟩,
   ⟨"PopTk", fun w p =>
      (decodeStruct PopToken.fields w p.popTk).map fun t => { p with popTk := t }⟩]

structure PendingListElem where
  gatingId : Int := -1
  consent : Str := "NOT_SET"
  atGenData : AtGenPayload := {}
  agtExpiryTime : Str := []
  deriving DecidableEq

structure ActiveListElem where
  gatingId : Int := -1
  atoken : Str := []
  atokenHandle : Str := []
  atExpiryTime : Str := []
  deriving DecidableEq

def listSize : Nat := 100

/-- The secrets, the loaded trees, and the purposes and scopes. -/
structure Config where
  crypto : Crypto
  /-- the key of the access grant token server: modulus and exponent -/
  agtKey : Bytes × Bytes
  theAtSecret : Str
  atIssuer : Str
  ecfSecret : Str
  himForest : Forest
  pList : List PurposeElement
  sList : List ScopeElement

/-- The expiry ticker only decides when the lists are purged. -/
structure State where
  pendingList : Slots PendingListElem listSize := .replicate _ {}
  activeList : Slots ActiveListElem listSize := .replicate _ {}
  gatingId : Int
  jtiCache : List Str := []
  ecfAvailable : Bool := false

def extractSignature (token : Str) : Str := (afterLast '.' token).getD []

variable (config : Config)

/-- The consent of the slot is left as it is. -/
def writeToPendingList (gatingId : Int) (payload : AtGenPayload) (state : State) : State :=
  match state.pendingList.first fun elem => elem.gatingId = -1 with
  | some i =>
    { state with
      pendingList := state.pendingList.set i
        { state.pendingList.get i with
          gatingId
          atGenData := payload
          agtExpiryTime := extractFromToken config.crypto payload.token "exp" } }
  | none => state

def writeToActiveList (gatingId : Int) (token : Str) (state : State) : State :=
  match state.activeList.first fun elem => elem.gatingId = -1 with
  | some i =>
    { state with
      activeList := state.activeList.set i
        { gatingId
          atoken := token
          atokenHandle := extractSignature token
          atExpiryTime := extractFromToken config.crypto token "exp" } }
  | none => state

def removeFromPendingList (i : Fin listSize) (state : State) : State :=
  { state with
    pendingList := state.pendingList.set i
      { state.pendingList.get i with gatingId := -1, consent := "NOT_SET" } }

/-- Only the gating id of the slot is cleared. -/
def removeFromActiveList (i : Fin listSize) (state : State) : State :=
  { state with
    activeList := state.activeList.set i { state.activeList.get i with gatingId := -1 } }

/-- An unreadable time, an expired entry, or neither. -/
inductive Purge (n : Nat) where
  | unreadable
  | expired (i : Fin n)
  | nothing

def findExpired {α : Type} {n : Nat} (gatingId : α → Int) (expiry : α → Str) (now : Time)
    (list : Slots α n) : Purge n :=
  match list.first fun elem => gatingId elem ≠ -1 &&
      (match atoi (expiry elem) with
       | some seconds => now.after seconds
       | none => true) with
  | some i => if (atoi (expiry (list.get i))).isSome then .expired i else .unreadable
  | none => .nothing

/-- At most one entry is removed; the gating id of an active one is returned. -/
def purgeLists (now : Time) (state : State) : State × Option Int :=
  match findExpired (·.gatingId) (·.agtExpiryTime) now state.pendingList with
  | .unreadable => (state, none)
  | .expired i => (removeFromPendingList i state, none)
  | .nothing =>
    match findExpired (·.gatingId) (·.atExpiryTime) now state.activeList with
    | .expired i => (removeFromActiveList i state, some (state.activeList.get i).gatingId)
    | _ => (state, none)

end Vissr.AtServer
