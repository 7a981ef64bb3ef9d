import Vissr.Effects
import Vissr.Json.Value

/-! The messages of the server at a feeder (`feeder/feeder-template/feederv4/feederv4.go`). -/

namespace Vissr.Feeder

open Json List Act

def onNotificationList (path : Str) (notificationList : List Str) : Option Nat :=
  notificationList.findIdx? fun p => p = path

def addNotifications : List Value → List Str → List Str
  | [], notificationList => notificationList
  | .str p :: pathList, notificationList =>
    addNotifications pathList
      (if onNotificationList p notificationList = none then notificationList ++ [p]
      else notificationList)
  | _ :: pathList, notificationList => addNotifications pathList notificationList

def removeNotifications : List Value → List Str → List Str
  | [], notificationList => notificationList
  | .str p :: pathList, notificationList =>
    removeNotifications pathList
      (match onNotificationList p notificationList with
      | some i => notificationList.eraseIdx i
      | none => notificationList)
  | _ :: pathList, notificationList => removeNotifications pathList notificationList

structure DomainData where
  name : Str
  value : Str
  deriving DecidableEq

inductive FeederEffect where
  /-- a value for the vehicle, lost when the channel is full -/
  | inputChan (domainData : DomainData)
  /-- a message for the server, lost when the channel is full -/
  | udsChan (message : Str)
  | statestorageSet (path value : Str)
  deriving DecidableEq

abbrev FeederLoop := Act FeederEffect

def inFeederScope (testpath : Str) (scope : List Str) : Bool :=
  scope.any fun scopepath => hasPrefix testpath scopepath

def splitToDomainDataAndTs (serverMessageMap : Map Value) : Option (DomainData × Str) :=
  match getStr serverMessageMap "path", serverMessageMap.lookup "dp".toList with
  | some name, some (.obj dpMap) =>
    match getStr dpMap "value", getStr dpMap "ts" with
    | some value, some ts => some ({ name, value }, ts)
    | _, _ => none
  | _, _ => none

def storeDefaults : List Value → FeederLoop Unit
  | [] => return
  | .obj elem :: defaultArray => do
      let path := (getStr elem "path").getD []
      if path ≠ [] then
        emit (.statestorageSet path ((getStr elem "default").getD []))
      storeDefaults defaultArray
  | _ :: defaultArray => storeDefaults defaultArray

def subscribeResponse : Str := "\x7b\"action\": \"subscribe\", \"status\": \"ok\"\x7d"

def processFeederServerMessage (scope : List Str) (serverMessageMap : Map Value)
    (notificationList : List Str) : FeederLoop (List Str) :=
  match getStr serverMessageMap "action" with
  | none => return notificationList
  | some action =>
    if action = "set" then
      match serverMessageMap.lookup "data".toList with
      | some (.obj dataMap) =>
        match splitToDomainDataAndTs dataMap with
        | some (domainData, _) => do
            if inFeederScope domainData.name scope then emit (.inputChan domainData)
            return notificationList
        | none => return notificationList
      | _ => return notificationList
    else if action = "subscribe" then
      match serverMessageMap.lookup "path".toList with
      | some (.arr pathList) => do
          emit (.udsChan subscribeResponse)
          return addNotifications pathList notificationList
      | _ => return notificationList
    else if action = "unsubscribe" then
      match serverMessageMap.lookup "path".toList with
      | some (.arr pathList) => return removeNotifications pathList notificationList
      | _ => return notificationList
    else if action = "update" then
      match serverMessageMap.lookup "defaultList".toList with
      | some (.arr defaultArray) => do
          storeDefaults defaultArray
          return notificationList
      | _ => return notificationList
    else return notificationList

/-- A line that is no message is skipped. -/
def handleServerMessage (scope : List Str) (raw : Str) (notificationList : List Str) :
    FeederLoop (List Str) :=
  match unmarshalMap raw with
  | none => return notificationList
  | some serverMessageMap =>
    match getStr serverMessageMap "action" with
    | none => return notificationList
    | some _ => processFeederServerMessage scope serverMessageMap notificationList

def dropCarriageReturn (line : Str) : Str :=
  if line.getLast? = some '\r' then line.dropLast else line

def scanLines (text : Str) : List Str :=
  ((text.splitOn '\n').map dropCarriageReturn).filter fun line => line ≠ []

def OneLine (text : Str) : Prop := '\n' ∉ text ∧ '\r' ∉ text
  deriving Decidable

theorem dropCarriageReturn_eq {line : Str} (absent : '\r' ∉ line) :
    dropCarriageReturn line = line := by
  rw [dropCarriageReturn, if_neg]
  intro last
  exact absent (mem_of_getLast? last)

theorem scanLines_line {line : Str} (oneLine : OneLine line) (nonempty : line ≠ []) :
    scanLines (line ++ ['\n']) = [line] := by
  have parts : (line ++ ['\n']).splitOn '\n' = [line, []] := by
    have free : ∀ l ∈ [line, []], '\n' ∉ l := by
      intro l mem
      simp only [mem_cons, not_mem_nil, or_false] at mem
      obtain rfl | rfl := mem
      · exact oneLine.1
      · exact not_mem_nil
    have split := splitOn_intercalate '\n' free (cons_ne_nil _ _)
    simpa [intercalate] using split
  have blank : dropCarriageReturn [] = [] := rfl
  simp [scanLines, parts, dropCarriageReturn_eq oneLine.2, blank, nonempty]

variable {p q : Str} {pathList : List Value} {notificationList : List Str}

theorem onNotificationList_eq_none :
    onNotificationList p notificationList = none ↔ p ∉ notificationList := by
  simp only [onNotificationList, findIdx?_eq_none_iff, decide_eq_false_iff_not]
  constructor
  · intro differs mem
    exact differs p mem rfl
  · rintro absent q mem rfl
    exact absent mem

theorem eraseIdx_onNotificationList {i : Nat} (found : onNotificationList p notificationList = some i) :
    notificationList.eraseIdx i = notificationList.erase p := by
  have searched := (findIdx?_eq_some_iff_findIdx_eq.mp found).2
  have index : notificationList.idxOf p = i := by
    rw [idxOf, ← searched]
    congr 1
    funext q
    exact beq_eq_decide q p
  rw [erase_eq_eraseIdx_of_idxOf index]

theorem mem_addNotifications : q ∈ addNotifications pathList notificationList ↔
      q ∈ notificationList ∨ .str q ∈ pathList := by
  induction pathList generalizing notificationList with
  | nil => simp [addNotifications]
  | cons v pathList ih =>
    cases v with
    | str p =>
      rw [addNotifications, ih]
      split_ifs with absent
      · simp [or_assoc]
      · rw [onNotificationList_eq_none, not_not] at absent
        by_cases same : q = p <;> simp [same, absent]
    | _ => simp [addNotifications, ih]

theorem nodup_addNotifications (distinct : notificationList.Nodup) :
    (addNotifications pathList notificationList).Nodup := by
  induction pathList generalizing notificationList with
  | nil => exact distinct
  | cons v pathList ih =>
    cases v with
    | str p =>
      rw [addNotifications]
      apply ih
      split_ifs with absent
      · rw [← concat_eq_append]
        exact distinct.concat (onNotificationList_eq_none.mp absent)
      · exact distinct
    | _ => exact ih distinct

theorem removeNotifications_str : removeNotifications (.str p :: pathList) notificationList =
      removeNotifications pathList (notificationList.erase p) := by
  rw [removeNotifications]
  split
  · next i found => rw [eraseIdx_onNotificationList found]
  · next absent => rw [erase_of_not_mem (onNotificationList_eq_none.mp absent)]

theorem mem_removeNotifications (distinct : notificationList.Nodup) :
    q ∈ removeNotifications pathList notificationList ↔
      q ∈ notificationList ∧ .str q ∉ pathList := by
  induction pathList generalizing notificationList with
  | nil => simp [removeNotifications]
  | cons v pathList ih =>
    cases v with
    | str p =>
      rw [removeNotifications_str, ih (distinct.erase p), distinct.mem_erase_iff]
      simp only [mem_cons, Value.str.injEq, not_or]
      tauto
    | _ => simp [removeNotifications, ih distinct]

theorem nodup_removeNotifications (distinct : notificationList.Nodup) :
    (removeNotifications pathList notificationList).Nodup := by
  induction pathList generalizing notificationList with
  | nil => exact distinct
  | cons v pathList ih =>
    cases v with
    | str p =>
      rw [removeNotifications_str]
      exact ih (distinct.erase p)
    | _ => exact ih distinct

end Vissr.Feeder
