import Vissr.Common
import Vissr.Marks
import Vissr.Run
import Vissr.Slots
import Vissr.Table

/-! The tables of the gRPC manager (`grpcMgr/grpcMgr.go`). Each operation is a critical section. -/

namespace Vissr.Transport.Grpc

open List Option Slots Table

abbrev maxGrpcClients : Nat := 50

structure GrpcRoutingData where
  clientId : Int := -1
  subscriptionId : Str := []
  /-- the call that receives on it; `none` is `nil` -/
  grpcRespChannel : Option Nat := none
  isMultipleEvents : Bool := false
deriving DecidableEq

structure Tables where
  /-- true where the id is given out -/
  grpcClientIndexList : Slots Bool maxGrpcClients := .replicate maxGrpcClients false
  grpcRoutingDataList : Slots GrpcRoutingData maxGrpcClients := .replicate maxGrpcClients {}

namespace Tables

variable (t : Tables)

/-- The lowest id that is not given out, or -1. -/
def getClientId : Tables × Int :=
  match t.grpcClientIndexList.first fun used => used = false with
  | some i => ({ t with grpcClientIndexList := t.grpcClientIndexList.set i true }, (i : Nat))
  | none => (t, -1)

variable (clientId : Int)

def entry : Option (Fin maxGrpcClients) :=
  t.grpcRoutingDataList.first fun data => data.clientId = clientId

def setEntry (i : Fin maxGrpcClients) (data : GrpcRoutingData) : Tables :=
  { t with grpcRoutingDataList := t.grpcRoutingDataList.set i data }

def getGrpcRoutingData : Option Nat × Bool :=
  match t.entry clientId with
  | some i =>
    ((t.grpcRoutingDataList.get i).grpcRespChannel, (t.grpcRoutingDataList.get i).isMultipleEvents)
  | none => (none, false)

def updateGrpcRoutingData (subscriptionId : Str) : Tables :=
  match t.entry clientId with
  | some i => t.setEntry i { t.grpcRoutingDataList.get i with subscriptionId }
  | none => t

def getSubscribeRoutingData (subscriptionId : Str) : Int × Option Nat :=
  if subscriptionId = [] then (-1, none)
  else
    match t.grpcRoutingDataList.first fun data => data.subscriptionId = subscriptionId with
    | some i =>
      ((t.grpcRoutingDataList.get i).clientId, (t.grpcRoutingDataList.get i).grpcRespChannel)
    | none => (-1, none)

def setGrpcRoutingData (grpcRespChan : Option Nat)
    (isMultipleEvent : Bool) : Tables × Bool :=
  match t.entry (-1) with
  | some i =>
    (t.setEntry i { t.grpcRoutingDataList.get i with
      clientId, grpcRespChannel := grpcRespChan, isMultipleEvents := isMultipleEvent }, true)
  | none => (t, false)

/-- `none` is a panic: the id is none of the first table. -/
def resetGrpcRoutingData : Option Tables :=
  if clientId < 0 then some t
  else
    match t.entry clientId with
    | some i =>
      if inside : clientId.toNat < maxGrpcClients then
        some {
          grpcClientIndexList := t.grpcClientIndexList.set ⟨clientId.toNat, inside⟩ false
          grpcRoutingDataList := t.grpcRoutingDataList.set i
            { t.grpcRoutingDataList.get i with clientId := -1, subscriptionId := [] } }
      else none
    | none => some t

end Tables

def Tables.ids (t : Tables) : List Int :=
  entries (-1) (t.grpcRoutingDataList.elems.map GrpcRoutingData.clientId)

/-- The given ids are those of the entries, each once, and the one taken. -/
structure Agree (t : Tables) (allocated : Option Int) : Prop where
  marks : Marks t.grpcClientIndexList.elems ((allocated.toList ++ t.ids).map Int.toNat)
  range : ∀ id ∈ allocated.toList ++ t.ids, 0 ≤ id ∧ id < maxGrpcClients

def Tables.Blank (t : Tables) : Prop := ∀ i, (t.grpcRoutingDataList.get i).clientId = -1 →
    (t.grpcRoutingDataList.get i).subscriptionId = []

variable {t t' : Tables} {allocated : Option Int} {i : Fin maxGrpcClients} {id : Int}

theorem Tables.entry_eq_some {clientId : Int} (found : t.entry clientId = some i) :
    (t.grpcRoutingDataList.get i).clientId = clientId :=
  of_first found

theorem Tables.entry_eq_none {clientId : Int} (missed : t.entry clientId = none)
    (i : Fin maxGrpcClients) : (t.grpcRoutingDataList.get i).clientId ≠ clientId :=
  not_of_first missed i

theorem Tables.getElem?_clientIds (t : Tables) (i : Fin maxGrpcClients) :
    (t.grpcRoutingDataList.elems.map GrpcRoutingData.clientId)[(i : Nat)]? =
      some (t.grpcRoutingDataList.get i).clientId := by
  rw [getElem?_map, getElem?_elems]
  rfl

open Tables

theorem Tables.ids_set (t : Tables) (i : Fin maxGrpcClients) (data : GrpcRoutingData) :
    (t.setEntry i data).ids = entries (-1)
      ((t.grpcRoutingDataList.elems.map GrpcRoutingData.clientId).set i data.clientId) := by
  rw [← map_set]
  rfl

theorem agree_start : Agree {} none where
  marks := by
    have none : ({} : Tables).ids = [] := by
      rw [ids, entries, filter_eq_nil_iff]
      intro id mem
      have free : id = -1 := by
        simp only [Slots.replicate, map_replicate] at mem
        exact eq_of_mem_replicate mem
      rw [free]
      decide
    rw [none]
    exact Marks.replicate maxGrpcClients
  range := by
    intro id mem
    simp only [toList_none, nil_append, ids, mem_entries,
      Slots.replicate, map_replicate, mem_replicate] at mem
    exact absurd mem.1.2 mem.2

theorem Agree.getClientId (agree : Agree t none) (taken : t.getClientId = (t', id)) :
    Agree t' (if id = -1 then none else some id) := by
  rw [Tables.getClientId] at taken
  split at taken
  · next i free =>
    cases taken
    have used : ((i : Nat) : Int) ≠ -1 := by omega
    rw [if_neg used]
    have here : t.grpcClientIndexList.elems[(i : Nat)]? = some false := by
      rw [getElem?_elems, of_first free]
    refine ⟨agree.marks.claim here, ?_⟩
    intro other mem
    obtain same | old := mem_cons.mp mem
    · rw [same]
      exact ⟨by omega, by exact_mod_cast i.isLt⟩
    · exact agree.range other old
  · cases taken
    exact agree

theorem Agree.exists_entry (agree : Agree t (some id)) : ∃ i, t.entry (-1) = some i := by
  have few : t.ids.length < maxGrpcClients := by
    have counted := agree.marks.count
    have bound := count_le_length (a := true) (l := t.grpcClientIndexList.elems)
    rw [t.grpcClientIndexList.size] at bound
    simp only [toList_some, map_append, map_cons, map_nil,
      length_append, length_cons, length_nil, length_map] at counted
    omega
  have free : (-1 : Int) ∈ t.grpcRoutingDataList.elems.map GrpcRoutingData.clientId := by
    apply exists_free
    rw [length_map, t.grpcRoutingDataList.size]
    exact few
  cases found : t.entry (-1) with
  | some i => exact ⟨i, rfl⟩
  | none =>
    obtain ⟨data, mem, same⟩ := mem_map.mp free
    obtain ⟨i, rfl⟩ := exists_of_mem mem
    exact absurd same (entry_eq_none found i)

theorem Agree.setGrpcRoutingData (agree : Agree t (some id)) (channel : Option Nat)
    (multiple : Bool) : Agree (t.setGrpcRoutingData id channel multiple).1 none := by
  obtain ⟨i, found⟩ := agree.exists_entry
  have free := entry_eq_some found
  have bounds := agree.range id mem_cons_self
  have used : id ≠ -1 := by omega
  rw [Tables.setGrpcRoutingData, found]
  have here := t.getElem?_clientIds i
  rw [free] at here
  have entered := entries_set_of_free here used
  refine ⟨?_, ?_⟩
  · apply agree.marks.perm
    apply List.Perm.map
    rw [toList_none, nil_append, ids_set]
    exact entered.symm
  · intro other mem
    rw [toList_none, nil_append, ids_set] at mem
    exact agree.range other (entered.mem_iff.mp mem)

theorem Agree.updateGrpcRoutingData (agree : Agree t allocated) (id : Int)
    (subscriptionId : Str) : Agree (t.updateGrpcRoutingData id subscriptionId) allocated := by
  rw [Tables.updateGrpcRoutingData]
  split
  · next i found =>
    have kept : (t.setEntry i { t.grpcRoutingDataList.get i with subscriptionId }).ids = t.ids := by
      obtain ⟨inside, same⟩ := List.getElem?_eq_some_iff.mp (t.getElem?_clientIds i)
      rw [ids_set, ← same, set_getElem_self]
      rfl
    constructor
    · rw [kept]
      exact agree.marks
    · rw [kept]
      exact agree.range
  · exact agree

theorem Agree.resetGrpcRoutingData (agree : Agree t allocated)
    (reset : t.resetGrpcRoutingData id = some t') : Agree t' allocated := by
  rw [Tables.resetGrpcRoutingData] at reset
  split at reset
  · cases reset
    exact agree
  · next given =>
    split at reset
    · next i found =>
      have same := entry_eq_some found
      have used : id ≠ -1 := by omega
      have here := t.getElem?_clientIds i
      rw [same] at here
      have freed := entries_set_free here used
      split_ifs at reset with inside
      cases reset
      have order : (id :: (allocated.toList ++ entries (-1)
          ((t.grpcRoutingDataList.elems.map GrpcRoutingData.clientId).set i (-1)))).Perm
            (allocated.toList ++ t.ids) :=
        perm_middle.symm.trans (freed.append_left _)
      have ids : ids {
          grpcClientIndexList := t.grpcClientIndexList.set ⟨id.toNat, inside⟩ false
          grpcRoutingDataList := t.grpcRoutingDataList.set i
            { t.grpcRoutingDataList.get i with clientId := -1, subscriptionId := [] } } =
          entries (-1)
            ((t.grpcRoutingDataList.elems.map GrpcRoutingData.clientId).set i (-1)) :=
        t.ids_set i { t.grpcRoutingDataList.get i with clientId := -1, subscriptionId := [] }
      constructor
      · rw [ids]
        exact (agree.marks.perm (order.symm.map Int.toNat)).free
      · rw [ids]
        intro other mem
        exact agree.range other (order.mem_iff.mp (mem_cons_of_mem id mem))
    · cases reset
      exact agree

theorem Tables.get_reset (reset : t.resetGrpcRoutingData id = some t') (j : Fin maxGrpcClients) :
    t'.grpcRoutingDataList.get j =
      if 0 ≤ id ∧ t.entry id = some j then
        { t.grpcRoutingDataList.get j with clientId := -1, subscriptionId := [] }
      else t.grpcRoutingDataList.get j := by
  rw [resetGrpcRoutingData] at reset
  split at reset
  · next negative =>
    cases reset
    rw [if_neg (fun both => absurd both.1 (Int.not_le.mpr negative))]
  · next given =>
    split at reset
    · next i found =>
      split_ifs at reset
      cases reset
      simp only [get_set, found, some.injEq, Int.not_lt.mp given, true_and]
      split_ifs with same
      · rw [same]
      · rfl
    · next missed =>
      cases reset
      rw [if_neg]
      intro both
      rw [missed] at both
      cases both.2

theorem Tables.get_update (t : Tables) (id : Int) (subscriptionId : Str) (j : Fin maxGrpcClients) :
    (t.updateGrpcRoutingData id subscriptionId).grpcRoutingDataList.get j =
      if t.entry id = some j then { t.grpcRoutingDataList.get j with subscriptionId }
      else t.grpcRoutingDataList.get j := by
  rw [updateGrpcRoutingData]
  split
  · next i found =>
    simp only [setEntry, get_set, found, some.injEq]
    split_ifs with same
    · rw [same]
    · rfl
  · next missed => rw [if_neg (by rw [missed]; nofun)]

theorem Tables.get_set (t : Tables) (id : Int) (channel : Option Nat) (multiple : Bool)
    (j : Fin maxGrpcClients) :
    (t.setGrpcRoutingData id channel multiple).1.grpcRoutingDataList.get j =
      if t.entry (-1) = some j then { t.grpcRoutingDataList.get j with
          clientId := id, grpcRespChannel := channel, isMultipleEvents := multiple }
      else t.grpcRoutingDataList.get j := by
  rw [setGrpcRoutingData]
  split
  · next i found =>
    simp only [setEntry, Slots.get_set, found, some.injEq]
    split_ifs with same
    · rw [same]
    · rfl
  · next missed => rw [if_neg (by rw [missed]; nofun)]

theorem Tables.Blank.reset (blank : t.Blank) (reset : t.resetGrpcRoutingData id = some t') :
    t'.Blank := by
  intro j isFree
  rw [get_reset reset] at isFree ⊢
  split_ifs at isFree ⊢ with freed
  · rfl
  · exact blank j isFree

theorem Tables.Blank.update (blank : t.Blank) (given : 0 ≤ id) (subscriptionId : Str) :
    (t.updateGrpcRoutingData id subscriptionId).Blank := by
  intro j isFree
  rw [get_update] at isFree ⊢
  split_ifs at isFree ⊢ with found
  · have here := entry_eq_some found
    simp only [here] at isFree
    omega
  · exact blank j isFree

theorem Tables.Blank.set (blank : t.Blank) (given : 0 ≤ id) (channel : Option Nat)
    (multiple : Bool) : (t.setGrpcRoutingData id channel multiple).1.Blank := by
  intro j isFree
  rw [get_set] at isFree ⊢
  split_ifs at isFree ⊢ with found
  · simp only at isFree
    omega
  · exact blank j isFree

theorem Agree.entry_iff (agree : Agree t allocated) (given : 0 ≤ id) :
    t.entry id = some i ↔ (t.grpcRoutingDataList.get i).clientId = id := by
  constructor
  · exact entry_eq_some
  · intro here
    cases found : t.entry id with
    | none => exact absurd here (entry_eq_none found i)
    | some j =>
      have there := entry_eq_some found
      have first := t.getElem?_clientIds i
      have second := t.getElem?_clientIds j
      rw [here] at first
      rw [there] at second
      have once : t.ids.Nodup := (List.Nodup.of_map Int.toNat agree.marks.nodup).sublist
          (sublist_append_right _ _)
      have same := slot_unique once (by omega) first second
      rw [Fin.ext same]

theorem Agree.given (agree : Agree t allocated)
    (used : (t.grpcRoutingDataList.get i).clientId ≠ -1) :
    0 ≤ (t.grpcRoutingDataList.get i).clientId := by
  apply (agree.range _ _).1
  apply mem_append_right
  exact mem_entries.mpr ⟨mem_of_getElem? (t.getElem?_clientIds i), used⟩

/-- The tables, and the id that the hub has taken and not yet entered. -/
structure Allocation where
  tables : Tables := {}
  allocated : Option Int := none

/-- The critical sections of the hub and of the calls, in any order. -/
inductive Access
  | getClientId
  | setGrpcRoutingData (grpcRespChan : Option Nat) (isMultipleEvent : Bool)
  | updateGrpcRoutingData (clientId : Int) (subscriptionId : Str)
  | resetGrpcRoutingData (clientId : Int)

/-- The hub takes one id at a time, and enters the one it has taken. -/
def Allocation.step (s : Allocation) : Access → Option Allocation
  | .getClientId =>
    match s.allocated with
    | some _ => none
    | none =>
      some {
        tables := s.tables.getClientId.1
        allocated :=
          if s.tables.getClientId.2 = -1 then none else some s.tables.getClientId.2 }
  | .setGrpcRoutingData channel multiple =>
    s.allocated.map fun id =>
      { tables := (s.tables.setGrpcRoutingData id channel multiple).1, allocated := none }
  | .updateGrpcRoutingData id subscriptionId =>
    if 0 ≤ id then
      some { s with tables := s.tables.updateGrpcRoutingData id subscriptionId }
    else none
  | .resetGrpcRoutingData id =>
    if id < maxGrpcClients then
      (s.tables.resetGrpcRoutingData id).map fun tables => { s with tables }
    else none

def allocationMachine : Machine Allocation Access Unit where
  init := fun s => s = {}
  step := fun s access => (s.step access).map fun next => (next, ())

variable {s s' : Allocation} {access : Access}

theorem agree_step (agree : Agree s.tables s.allocated) (blank : s.tables.Blank)
    (taken : s.step access = some s') : Agree s'.tables s'.allocated ∧ s'.tables.Blank := by
  cases access with
  | getClientId =>
    rw [Allocation.step] at taken
    split at taken
    · cases taken
    · next idle =>
      cases taken
      rw [idle] at agree
      refine ⟨agree.getClientId rfl, ?_⟩
      rw [getClientId]
      split
      · exact blank
      · exact blank
  | setGrpcRoutingData channel multiple =>
    obtain ⟨id, held, rfl⟩ := map_eq_some_iff.mp taken
    rw [held] at agree
    exact ⟨agree.setGrpcRoutingData channel multiple,
      blank.set (agree.range id mem_cons_self).1 channel multiple⟩
  | updateGrpcRoutingData id subscriptionId =>
    rw [Allocation.step] at taken
    split_ifs at taken with given
    cases taken
    exact ⟨agree.updateGrpcRoutingData id subscriptionId, blank.update given subscriptionId⟩
  | resetGrpcRoutingData =>
    rw [Allocation.step] at taken
    split_ifs at taken
    obtain ⟨tables, reset, rfl⟩ := map_eq_some_iff.mp taken
    exact ⟨agree.resetGrpcRoutingData reset, blank.reset reset⟩

theorem agree_of_run {history : History Allocation Access Unit}
    (run : Run allocationMachine anyStep history s) :
    Agree s.tables s.allocated ∧ s.tables.Blank := by
  induction run with
  | start s begins =>
    rw [show s = {} from begins]
    refine ⟨agree_start, ?_⟩
    intro i _
    rw [get_replicate]
  | @step history t run taken allowed ih =>
    exact agree_step ih.1 ih.2 (step_of_taken taken)

theorem Agree.given_iff (agree : Agree t none) (i : Fin maxGrpcClients) :
    t.grpcClientIndexList.get i = true ↔
      t.grpcRoutingDataList.elems.countP (fun data => data.clientId = ((i : Nat) : Int)) = 1 := by
  have marked := agree.marks.set_iff i
  rw [getElem?_elems, some.injEq] at marked
  have used : ((i : Nat) : Int) ≠ -1 := by omega
  have counted : t.ids.count ((i : Nat) : Int) =
      t.grpcRoutingDataList.elems.countP (fun data => data.clientId = ((i : Nat) : Int)) := by
    rw [ids, count_entries used, count_eq_countP, countP_map]
    apply countP_congr
    intro data _
    simp
  have once : t.ids.Nodup := List.Nodup.of_map Int.toNat agree.marks.nodup
  rw [← counted]
  calc t.grpcClientIndexList.get i = true
      ↔ (i : Nat) ∈ t.ids.map Int.toNat := marked
    _ ↔ ((i : Nat) : Int) ∈ t.ids := by
        constructor
        · intro mem
          obtain ⟨id, found, same⟩ := mem_map.mp mem
          have bounds := agree.range id found
          have equal : id = (i : Nat) := by omega
          rw [← equal]
          exact found
        · intro mem
          exact mem_map.mpr ⟨_, mem, Int.toNat_natCast i⟩
    _ ↔ t.ids.count ((i : Nat) : Int) = 1 := by
        constructor
        · intro mem
          exact count_eq_one_of_mem once mem
        · intro one
          apply count_pos_iff.mp
          omega

/-- The tables agree but between taking an id and entering it. -/
theorem grpc_tables_agree {history : History Allocation Access Unit}
    (run : Run allocationMachine anyStep history s) : (s.allocated = none →
      (∀ i, s.tables.grpcClientIndexList.get i = true ↔ s.tables.grpcRoutingDataList.elems.countP
          (fun data => data.clientId = ((i : Nat) : Int)) = 1) ∧
      ∀ data ∈ s.tables.grpcRoutingDataList.elems,
        -1 ≤ data.clientId ∧ data.clientId < maxGrpcClients ∧
          (data.clientId = -1 → data.subscriptionId = [])) ∧ ∀ id ∈ s.allocated, ∀ channel multiple,
      (s.tables.setGrpcRoutingData id channel multiple).2 = true := by
  obtain ⟨agree, blank⟩ := agree_of_run run
  constructor
  · intro idle
    rw [idle] at agree
    refine ⟨agree.given_iff, ?_⟩
    intro data member
    by_cases free : data.clientId = -1
    · obtain ⟨i, rfl⟩ := exists_of_mem member
      exact ⟨by omega, by omega, blank i⟩
    · have listed : data.clientId ∈ s.tables.ids := mem_entries.mpr ⟨mem_map_of_mem member, free⟩
      have bounds := agree.range _ listed
      exact ⟨by omega, bounds.2, fun same => absurd same free⟩
  · intro id held channel multiple
    rw [mem_def.mp held] at agree
    obtain ⟨i, found⟩ := agree.exists_entry
    rw [setGrpcRoutingData, found]

theorem grpc_tables_agree_window : ∃ history s, Run allocationMachine anyStep history s ∧
    s.allocated = none ∧ s.tables.grpcClientIndexList.get 1 = true ∧
      s.tables.grpcRoutingDataList.elems.countP (fun data => data.clientId = 1) = 1 := by
  rcases Run.of_exec allocationMachine {} rfl
      [.getClientId, .setGrpcRoutingData (some 0) true, .updateGrpcRoutingData 0 "7",
        .getClientId, .resetGrpcRoutingData 0, .resetGrpcRoutingData (-1),
        .setGrpcRoutingData (some 1) false]
      (fun _ s => s.allocated = none ∧ s.tables.grpcClientIndexList.get 1 = true)
      (by decide +kernel) with ⟨history, s, run, idle, given⟩
  exact ⟨history, s, run, idle, given, (((grpc_tables_agree run).1 idle).1 1).mp given⟩

end Vissr.Transport.Grpc
