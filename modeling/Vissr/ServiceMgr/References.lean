import Vissr.ServiceMgr.Feeder
import Vissr.Run

/-! The list of paths counts how often the subscriptions the feeders know of name each of them. -/

namespace Vissr.ServiceMgr

open Json Option List Act FeederSubElem

def namedPaths (feederSubList : List FeederSubElem) : List Str :=
  feederSubList.flatMap path

def referenceOf (path : Str) (feederPathList : List FeederPathElem) : Nat :=
  ((feederPathList.find? fun elem => elem.key = path).map Counter.count).getD 0

/-- Every path is on the list once, with the number of times it is named. -/
structure Referenced (s : Frontend) : Prop where
  distinct : (s.feederPathList.map Counter.key).Nodup
  positive : ∀ elem ∈ s.feederPathList, 1 ≤ elem.count
  counted : ∀ path, referenceOf path s.feederPathList = (namedPaths s.feederSubList).count path
  absent : ∀ path, path ∉ s.feederPathList.map Counter.key ↔
    (namedPaths s.feederSubList).count path = 0

def feederMachine : Machine Frontend Str (List FrontendEffect) where
  init s := s = {}
  step s message :=
    let handled := handleToFeederMessage message s
    handled.result.map fun after => (after, handled.effects)

def unsubscribedId (message : Str) : Option Str := (unmarshalMap message).bind fun messageMap =>
    if getStr messageMap "action" = some "unsubscribe".toList then
      getStr messageMap "subscriptionId"
    else none

def UnsubscribesKnown (s : Frontend) (message : Str) : Prop :=
  ∀ subscriptionId ∈ unsubscribedId message,
    s.feederSubList = [] ∨ subscriptionId ∈ s.feederSubList.map FeederSubElem.subscriptionId
  deriving Decidable

variable {paths : List Str} {feederPathList : List FeederPathElem} {uses : List Str}

theorem addPaths_represents (represents : Counter.Represents feederPathList uses) :
    Counter.Represents (addPaths paths feederPathList).1 (paths ++ uses) := by
  induction paths generalizing feederPathList uses with
  | nil => exact represents
  | cons path rest ih =>
    have added := ih (represents.retain path)
    have perm : (rest ++ path :: uses).Perm (path :: rest ++ uses) := perm_middle
    simp only [addPaths]
    split_ifs <;> exact added.perm perm

theorem removePaths_represents (represents : Counter.Represents feederPathList (paths ++ uses)) :
    Counter.Represents (removePaths paths feederPathList).1 uses := by
  induction paths generalizing feederPathList with
  | nil => exact represents
  | cons path rest ih =>
    have removed := ih (Counter.Represents.release represents)
    simp only [removePaths]
    split_ifs <;> exact removed

variable {s s' : Frontend} {subId message : Str}

def Counted (s : Frontend) : Prop :=
  Counter.Represents s.feederPathList (namedPaths s.feederSubList)

theorem Counted.referenced (counted : Counted s) : Referenced s := by
  constructor
  case distinct => exact counted.distinct
  case positive => exact counted.positive
  case counted =>
    intro path
    cases found : s.feederPathList.find? fun elem => elem.key = path with
    | none =>
      have unlisted : path ∉ Counter.keys s.feederPathList := by
        intro listed
        obtain ⟨elem, mem, same⟩ := mem_map.mp listed
        have missing := find?_eq_none.mp found elem mem
        simp [same] at missing
      rw [counted.mem_keys_iff] at unlisted
      simp only [referenceOf, found, map_none, getD_none]
      exact (count_eq_zero.mpr unlisted).symm
    | some elem =>
      have same : elem.key = path := by simpa using find?_some found
      simp only [referenceOf, found, map_some, getD_some]
      rw [counted.counted elem (mem_of_find?_eq_some found), same]
  case absent =>
    intro path
    rw [count_eq_zero]
    exact not_congr counted.mem_keys_iff

theorem deleteOnFeederSubList_known {feederSubList : List FeederSubElem}
    (known : subId ∈ feederSubList.map subscriptionId) :
    (namedPaths feederSubList).Perm ((deleteOnFeederSubList subId feederSubList).2 ++
        namedPaths (deleteOnFeederSubList subId feederSubList).1) := by
  cases found : feederSubList.findIdx? fun elem => elem.subscriptionId = subId with
  | none =>
    obtain ⟨elem, mem, same⟩ := mem_map.mp known
    have missing := findIdx?_eq_none_iff.mp found elem mem
    simp [same] at missing
  | some =>
    obtain ⟨inside, -, -⟩ := findIdx?_eq_some_iff_getElem.mp found
    have perm := (getElem_cons_eraseIdx_perm inside).symm
    simp only [deleteOnFeederSubList, found, getElem?_eq_getElem inside, map_some, getD_some]
    exact perm.flatMap_right path

theorem deleteOnFeederSubList_nil : deleteOnFeederSubList subId [] = ([], []) := rfl

section

variable (counted : Counted s)

include counted

theorem forwardSubscribe_counted {variant : Str} {path : List Value} :
    (forwardSubscribe message subId variant path s).Returns Counted := by
  have named : (stringsOf path ++ namedPaths s.feederSubList).Perm
      (namedPaths (addOnFeederSubList subId variant path s.feederSubList)) := by
    simp only [addOnFeederSubList, namedPaths, flatMap_append, flatMap_singleton]
    exact perm_append_comm
  have listed := (addPaths_represents counted).perm named
  simp only [forwardSubscribe]
  split_ifs
  · rintro after ⟨⟩
    exact listed
  · rintro after ⟨⟩
    exact listed
  · rintro after ⟨⟩
    exact listed

theorem forwardUnsubscribe_counted
    (known : s.feederSubList = [] ∨ subId ∈ s.feederSubList.map subscriptionId) :
    (forwardUnsubscribe message subId s).Returns Counted := by
  have named : (namedPaths s.feederSubList).Perm
      ((deleteOnFeederSubList subId s.feederSubList).2 ++
        namedPaths (deleteOnFeederSubList subId s.feederSubList).1) := by
    obtain empty | listed := known
    · rw [empty, deleteOnFeederSubList_nil]
      rfl
    · exact deleteOnFeederSubList_known listed
  have left := removePaths_represents (counted.perm named)
  simp only [forwardUnsubscribe]
  refine returns_bind ?_
  intro _ _
  split_ifs
  · rintro after ⟨⟩
    exact left
  · rintro after ⟨⟩
    exact left

theorem writeLine_counted {infoType : InfoType} :
    (writeLine infoType message s).Returns Counted := by
  rintro after ⟨⟩
  exact counted

theorem handleToFeederMessage_counted (known : UnsubscribesKnown s message) :
    (handleToFeederMessage message s).Returns Counted := by
  simp only [handleToFeederMessage]
  split
  · exact returns_pure counted
  · next messageMap decoded =>
    split
    · exact returns_pure counted
    · next action found =>
      split_ifs with subscribes unsubscribes
      · split
        · exact forwardSubscribe_counted counted
        · exact returns_pure counted
      · split
        · next id given =>
          refine forwardUnsubscribe_counted counted (known id ?_)
          rw [unsubscribedId, decoded, bind_some, found, unsubscribes, if_pos rfl, given]
          rfl
        · exact returns_pure counted
      · exact writeLine_counted counted
      · exact writeLine_counted counted
      · exact returns_pure counted

end

/-- Where only listed subscriptions are unsubscribed, the references are right. -/
theorem referenced_of_known {history : History Frontend Str (List FrontendEffect)}
    (run : Run feederMachine (fun _ t => UnsubscribesKnown t.before t.event) history s) :
    Referenced s := by
  apply Counted.referenced
  apply Run.invariant (fun _ s => Counted s) _ _ run
  · intro s begins
    rw [show s = {} from begins]
    exact Counter.Represents.empty
  · intro history t counted taken known
    obtain ⟨after, returned, same⟩ := map_eq_some_iff.mp taken
    rw [← (Prod.mk.inj same).1]
    exact handleToFeederMessage_counted counted known after returned

def unsubscribeMessage (subscriptionId : Str) : Str :=
  "\x7b\"action\":\"unsubscribe\",\"subscriptionId\":\"" ++ subscriptionId ++ "\"\x7d"

/-- An id that is not listed clears the list, and leaves the paths. -/
theorem unknown_unsubscribe_clears_list :
    ∃ history s, Run feederMachine anyStep history s ∧ ¬ Referenced s := by
  rcases Run.of_exec feederMachine {} rfl
    [createFeederNotifyMessage "change" ["Vehicle.Speed"] 1, unsubscribeMessage "2"]
    (fun _ s => s.feederSubList = [] ∧ s.feederPathList = [⟨"Vehicle.Speed", 1⟩])
    (by decide +kernel) with ⟨history, s, run, cleared, kept⟩
  refine ⟨history, s, run, ?_⟩
  intro referenced
  have counted := referenced.counted "Vehicle.Speed"
  rw [cleared, kept] at counted
  revert counted
  decide

/-- One subscription names a path twice, another shares it, and the first ends. -/
theorem referenced_shared_path :
    ∃ history s, Run feederMachine (fun _ t => UnsubscribesKnown t.before t.event) history s ∧
      s.feederPathList = [⟨"Vehicle.Speed", 1⟩] ∧ Referenced s := by
  rcases Run.of_execWhile feederMachine {} rfl
    (fun t => UnsubscribesKnown t.before t.event) (fun _ _ => id)
    [createFeederNotifyMessage "change" ["Vehicle.Speed", "Vehicle.Width", "Vehicle.Speed"] 1,
      createFeederNotifyMessage "range" ["Vehicle.Speed"] 2, unsubscribeMessage "1"]
    (fun _ s => s.feederPathList = [⟨"Vehicle.Speed", 1⟩]) (by decide +kernel)
    with ⟨history, s, run, left⟩
  exact ⟨history, s, run, left, referenced_of_known run⟩

end Vissr.ServiceMgr
