import Vissr.Feeder.ServerMessages
import Vissr.ServiceMgr.FeederTexts
import Vissr.ServiceMgr.References

/-! Server and feeder agree on the paths that the feeder sends notifications for. -/

namespace Vissr.ServiceMgr

open Json Feeder List Act Counter

structure NotifySystem where
  frontend : Frontend := {}
  /-- written to the feeder, and not read yet -/
  lines : List Str := []
  notificationList : List Str := []
  /-- answers of the feeder that the front end has not read yet -/
  answers : List Str := []

inductive NotifyEvent where
  /-- the front end takes a message of the service manager -/
  | tell (message : Str)
  /-- the feeder reads a line, with or without room for its answer -/
  | read (room : Bool)
  /-- the front end reads an answer -/
  | answer

variable (effects : List FrontendEffect)

def dataLines : List Str := effects.filterMap fun
    | .write .data line => some line
    | _ => none

def sentLines : List Str := (dataLines effects).flatMap fun line => scanLines (line ++ ['\n'])

def answersOf (effects : List FeederEffect) : List Str := effects.filterMap fun
    | .udsChan message => some message
    | _ => none

/-- A step, with the messages that are written to the feeder. -/
def NotifySystem.step (scope : List Str) (s : NotifySystem) :
    NotifyEvent → Option (NotifySystem × List Str)
  | .tell message =>
    let handled := handleToFeederMessage message s.frontend
    handled.result.map fun frontend =>
      ({ s with frontend, lines := s.lines ++ sentLines handled.effects },
        dataLines handled.effects)
  | .read room =>
    match s.lines with
    | [] => none
    | line :: lines =>
      let handled := handleServerMessage scope line s.notificationList
      handled.result.map fun notificationList =>
        ({ s with
            lines, notificationList
            answers := s.answers ++ if room then answersOf handled.effects else [] }, [])
  | .answer =>
    match s.answers with
    | [] => none
    | answer :: answers =>
      (handleFromFeederMessage answer s.frontend).result.map fun frontend =>
        ({ s with frontend, answers }, [])

def notifyMachine (scope : List Str) : Machine NotifySystem NotifyEvent (List Str) where
  init s := s = {}
  step := NotifySystem.step scope

/-- All that is written is JSON. -/
def WellFormedLines (history : History NotifySystem NotifyEvent (List Str)) : Prop :=
  ∀ t ∈ history, ∀ line ∈ t.output, (parseAll line).isSome = true

/-- When the feeder has read all lines, it has the paths of the front end. -/
def AgreesOnPaths (s : NotifySystem) : Prop := s.lines = [] → ∀ path,
    path ∈ s.notificationList ↔ path ∈ keys s.frontend.feederPathList

inductive FeederRequest where
  | subscribe (subscriptionId variant : Str) (path : List Value)
  | unsubscribe (subscriptionId : Str)

def feederRequest (message : Str) : Option FeederRequest :=
  match unmarshalMap message with
  | none => none
  | some messageMap =>
    if getStr messageMap "action" = some "subscribe".toList then
      match getStr messageMap "subscriptionId", getStr messageMap "variant",
          messageMap.lookup "path".toList with
      | some subscriptionId, some variant, some (.arr path) =>
        some (.subscribe subscriptionId variant path)
      | _, _, _ => none
    else if getStr messageMap "action" = some "unsubscribe".toList then
      (getStr messageMap "subscriptionId").map .unsubscribe
    else none

/-- The id is not in use, and the paths can stand between quotes. -/
def FeederRequest.Proper (s : Frontend) : FeederRequest → Prop
  | .subscribe subscriptionId _ path =>
    subscriptionId ∉ s.feederSubList.map FeederSubElem.subscriptionId ∧
      ∀ p ∈ stringsOf path, PlainText p
  | .unsubscribe _ => True

/-- No path is empty, and one is new as long as the feeder is told the difference; later none is,
and the message is one line. -/
def FeederRequest.Announces (s : Frontend) (message : Str) : FeederRequest → Prop
  | .subscribe _ _ path =>
    (∀ p ∈ stringsOf path, p ≠ []) ∧
      if s.feederNotification = .notSupported then OneLine message
      else if 5 ≤ s.subMessageCount then
        ∀ p ∈ stringsOf path, p ∈ keys s.feederPathList
      else ∃ p ∈ stringsOf path, p ∉ keys s.feederPathList
  | .unsubscribe _ => True

def NotifyEvent.Proper (s : NotifySystem) : NotifyEvent → Prop
  | .tell message => ∃ request ∈ feederRequest message, request.Proper s.frontend
  | _ => True

def NotifyEvent.Announces (s : NotifySystem) : NotifyEvent → Prop
  | .tell message => ∀ request ∈ feederRequest message, request.Announces s.frontend message
  | _ => True

instance (s : Frontend) (request : FeederRequest) : Decidable (request.Proper s) :=
  match request with
  | .subscribe _ _ _ => inferInstanceAs (Decidable (_ ∧ _))
  | .unsubscribe _ => isTrue trivial

instance (s : Frontend) (message : Str) (request : FeederRequest) :
    Decidable (request.Announces s message) :=
  match request with
  | .subscribe _ _ _ => inferInstanceAs (Decidable (_ ∧ ite _ _ _))
  | .unsubscribe _ => isTrue trivial

instance (s : NotifySystem) (event : NotifyEvent) : Decidable (event.Proper s) :=
  match event with
  | .tell message => inferInstanceAs (Decidable (∃ request ∈ feederRequest message, _))
  | .read _ | .answer => isTrue trivial

instance (s : NotifySystem) (event : NotifyEvent) : Decidable (event.Announces s) :=
  match event with
  | .tell message => inferInstanceAs (Decidable (∀ request ∈ feederRequest message, _))
  | .read _ | .answer => isTrue trivial

variable {paths : List Str} {feederPathList : List FeederPathElem} {p : Str} {path : List Value}

theorem mem_stringsOf : p ∈ stringsOf path ↔ .str p ∈ path := by
  simp only [stringsOf, mem_filterMap]
  constructor
  · rintro ⟨v, mem, same⟩
    cases v with
    | str =>
      cases same
      exact mem
    | _ => cases same
  · intro mem
    exact ⟨.str p, mem, rfl⟩

theorem mem_keys_addPaths : p ∈ keys (addPaths paths feederPathList).1 ↔
      p ∈ keys feederPathList ∨ p ∈ paths := by
  induction paths generalizing feederPathList with
  | nil => simp [addPaths]
  | cons first rest ih =>
    have added : p ∈ keys (addPaths (first :: rest) feederPathList).1 ↔
        p ∈ keys (addPaths rest (retain first feederPathList)).1 := by
      simp only [addPaths]
      split_ifs <;> rfl
    rw [added, ih, mem_keys_retain, mem_cons]
    tauto

theorem mem_addPaths_new : p ∈ (addPaths paths feederPathList).2 ↔
      p ∈ paths ∧ p ∉ keys feederPathList := by
  induction paths generalizing feederPathList with
  | nil => simp [addPaths]
  | cons first rest ih =>
    simp only [addPaths]
    split_ifs with known
    · rw [ih, mem_keys_retain, mem_cons]
      by_cases same : p = first <;> simp [same, known]
    · rw [mem_cons, ih, mem_keys_retain, mem_cons]
      by_cases same : p = first <;> simp [same, known]

section

variable (distinct : (keys feederPathList).Nodup)

include distinct

theorem nodup_keys_addPaths : (keys (addPaths paths feederPathList).1).Nodup := by
  induction paths generalizing feederPathList with
  | nil => exact distinct
  | cons first rest ih =>
    simp only [addPaths]
    split_ifs <;> exact ih (nodup_keys_retain distinct)

theorem mem_keys_removePaths : p ∈ keys (removePaths paths feederPathList).1 ↔
      p ∈ keys feederPathList ∧ p ∉ (removePaths paths feederPathList).2 := by
  induction paths generalizing feederPathList with
  | nil => simp [removePaths]
  | cons first rest ih =>
    have later := @ih (release first feederPathList)
      (keys_release_sublist.nodup distinct)
    rw [mem_keys_release distinct] at later
    simp only [removePaths]
    split_ifs with last
    · rw [later, mem_cons]
      tauto
    · rw [later]
      tauto

theorem nodup_keys_removePaths : (keys (removePaths paths feederPathList).1).Nodup := by
  induction paths generalizing feederPathList with
  | nil => exact distinct
  | cons first rest ih =>
    simp only [removePaths]
    split_ifs <;> exact ih (keys_release_sublist.nodup distinct)

end

theorem removePaths_listed (released : p ∈ (removePaths paths feederPathList).2) :
    p ∈ keys feederPathList := by
  induction paths generalizing feederPathList with
  | nil => cases released
  | cons first rest ih =>
    simp only [removePaths] at released
    split_ifs at released with last
    · obtain rfl | later := mem_cons.mp released
      · exact mem_keys_of_lastUse last
      · exact keys_release_sublist.subset (ih later)
    · exact keys_release_sublist.subset (ih released)

section Lines

variable {action : Str} {paths : List Str}

def updateLine (action : Str) (paths : List Str) : Str :=
  spacedObject "action" (' ' :: pasted action) [("path", literals paths, pastedArray paths)]

theorem unmarshalMap_updateLine (plainAction : PlainText action)
    (plain : ∀ p ∈ paths, PlainText p) :
    ∃ messageMap, unmarshalMap (updateLine action paths) = some messageMap ∧
      getStr messageMap "action" = some action ∧
      messageMap.lookup "path".toList = some (.arr (paths.map .str)) := by
  have readable : ∀ m ∈ [textMember "action" action, ("path", literals paths, pastedArray paths)],
      Readable m := by
    intro m mem
    simp only [mem_cons, not_mem_nil, or_false] at mem
    obtain rfl | rfl := mem
    · exact readable_text (by decide) plainAction
    · exact readable_array (by decide) (reads_pastedArray paths plain)
  have decoded := unmarshalMap_readable readable
  simp only [map_cons, map_nil, literals_value paths plain, value_text plainAction]
    at decoded
  exact ⟨_, decoded, rfl, rfl⟩

theorem isSome_parseAll {text : Str} {m : Map Value} (decoded : unmarshalMap text = some m) :
    (parseAll text).isSome = true := by
  simp only [unmarshalMap] at decoded
  split at decoded
  · next w parsed => rw [parsed, Option.isSome_some]
  · cases decoded

variable {s : Str}

theorem oneLine_of_plain (plain : PlainText s) : OneLine s := by
  constructor
  · intro mem
    exact absurd (plain _ mem) (by decide)
  · intro mem
    exact absurd (plain _ mem) (by decide)

theorem oneLine_append {t : Str} : OneLine (s ++ t) ↔ OneLine s ∧ OneLine t := by
  simp only [OneLine, mem_append, not_or]
  tauto

theorem oneLine_pasted (plain : PlainText s) : OneLine (pasted s) := by
  have quoted : pasted s = ['"'] ++ s ++ ['"'] := rfl
  rw [quoted, oneLine_append, oneLine_append]
  exact ⟨⟨by decide, oneLine_of_plain plain⟩, by decide⟩

theorem oneLine_pastedMore (plain : ∀ p ∈ paths, PlainText p) : OneLine (pastedMore paths) := by
  induction paths with
  | nil => decide
  | cons first rest ih =>
    have more : pastedMore (first :: rest) = [',', ' '] ++ pasted first ++ pastedMore rest := by
      simp [pastedMore]
    rw [more, oneLine_append, oneLine_append]
    exact ⟨⟨by decide, oneLine_pasted (plain first mem_cons_self)⟩,
      ih fun p mem => plain p (mem_cons_of_mem _ mem)⟩

theorem oneLine_pastedArray (plain : ∀ p ∈ paths, PlainText p) : OneLine (pastedArray paths) := by
  cases paths with
  | nil => decide
  | cons first rest =>
    have array : pastedArray (first :: rest) = ['['] ++ pasted first ++ pastedMore rest ++ [']'] :=
      pastedArray_eq first rest
    rw [array, oneLine_append, oneLine_append, oneLine_append]
    exact ⟨⟨⟨by decide, oneLine_pasted (plain first mem_cons_self)⟩,
      oneLine_pastedMore fun p mem => plain p (mem_cons_of_mem _ mem)⟩, by decide⟩

theorem updateLine_subscribe (nonempty : paths ≠ []) :
    "\x7b\"action\": \"subscribe\", \"path\":" ++ pathArray paths ++ ['\x7d'] =
      updateLine "subscribe" paths := by
  rw [pathArray_eq paths nonempty]
  simp [updateLine, spacedObject, spacedMembers, pastedMember, pasted]

theorem updateLine_unsubscribe (nonempty : paths ≠ []) :
    "\x7b\"action\": \"unsubscribe\", \"path\":" ++ pathArray paths ++ ['\x7d'] =
      updateLine "unsubscribe" paths := by
  rw [pathArray_eq paths nonempty]
  simp [updateLine, spacedObject, spacedMembers, pastedMember, pasted]

theorem oneLine_updateLine (plainAction : PlainText action) (plain : ∀ p ∈ paths, PlainText p) :
    OneLine (updateLine action paths) := by
  have text : updateLine action paths = "\x7b\"action\": " ++ pasted action ++
      ", \"path\":" ++ pastedArray paths ++ ['\x7d'] := by
    simp [updateLine, spacedObject, spacedMembers, pastedMember, pasted]
  rw [text]
  simp only [oneLine_append]
  exact ⟨⟨⟨⟨by decide, oneLine_pasted plainAction⟩, by decide⟩, oneLine_pastedArray plain⟩,
    by decide⟩

theorem pathArray_length (nonempty : paths ≠ []) (texts : ∀ p ∈ paths, p ≠ []) :
    4 < (pathArray paths).length := by
  rw [pathArray_eq paths nonempty]
  cases paths with
  | nil => exact absurd rfl nonempty
  | cons first =>
    have letter := length_pos_iff.mpr (texts first mem_cons_self)
    simp only [pastedArray, pasted, length_cons, length_append, length_nil]
    omega

end Lines

section Steps

variable {scope : List Str} {s : Frontend} {message subscriptionId variant : Str}
  {path : List Value} {notificationList : List Str}

def processed (scope lines : List Str) (notificationList : List Str) : List Str :=
  lines.foldl (fun list line => (handleServerMessage scope line list).result.getD list)
    notificationList

/-- The two lists have the same paths, each of them once. -/
structure Matches (s : Frontend) (notificationList : List Str) : Prop where
  distinct : (keys s.feederPathList).Nodup
  texts : ∀ p ∈ keys s.feederPathList, PlainText p ∧ p ≠ []
  unique : notificationList.Nodup
  same : ∀ p, p ∈ notificationList ↔ p ∈ keys s.feederPathList

/-- It is JSON, and makes the list of the feeder that of the front end. -/
structure Conveys (scope : List Str) (notificationList : List Str)
    (handled : FrontendLoop Frontend) : Prop where
  wellFormed : ∀ line ∈ dataLines handled.effects, (parseAll line).isSome = true
  returns : handled.Returns fun after =>
    Matches after (processed scope (sentLines handled.effects) notificationList)

variable {messageMap : Map Value} {after : Frontend}

theorem handleServerMessage_subscribe (decoded : unmarshalMap message = some messageMap)
    (action : getStr messageMap "action" = some "subscribe".toList)
    (paths : messageMap.lookup "path".toList = some (.arr path)) :
    (handleServerMessage scope message notificationList).result =
      some (addNotifications path notificationList) := by
  simp only [handleServerMessage, decoded, processFeederServerMessage, action, paths]
  rfl

theorem handleServerMessage_unsubscribe (decoded : unmarshalMap message = some messageMap)
    (action : getStr messageMap "action" = some "unsubscribe".toList)
    (paths : messageMap.lookup "path".toList = some (.arr path)) :
    (handleServerMessage scope message notificationList).result =
      some (removeNotifications path notificationList) := by
  simp only [handleServerMessage, decoded, processFeederServerMessage, action, paths]
  rfl

theorem conveys_line {line : Str} (oneLine : OneLine line)
    (decoded : unmarshalMap line = some messageMap) (agree : Matches after
      ((handleServerMessage scope line notificationList).result.getD notificationList)) :
    Conveys scope notificationList (writeLine .data line after) := by
  have nonempty : line ≠ [] := by
    rintro rfl
    cases decoded
  have sent : sentLines (writeLine .data line after).effects = [line] := by
    show scanLines (line ++ ['\n']) ++ [] = [line]
    rw [scanLines_line oneLine nonempty, append_nil]
  constructor
  · intro written mem
    rw [mem_singleton.mp mem]
    exact isSome_parseAll decoded
  · rintro _ ⟨⟩
    rw [sent]
    exact agree

theorem conveys_after {effect : FrontendEffect} {handled : FrontendLoop Frontend}
    (other : ∀ line, effect ≠ .write .data line)
    (conveys : Conveys scope notificationList handled) :
    Conveys scope notificationList (emit effect >>= fun _ => handled) := by
  have effects : (emit effect >>= fun _ => handled).effects = effect :: handled.effects := rfl
  have skipped : dataLines (effect :: handled.effects) = dataLines handled.effects := by
    rw [dataLines, filterMap_cons]
    split
    · rfl
    · next line found =>
      split at found
      · next written => exact absurd rfl (other written)
      · cases found
  refine ⟨?_, ?_⟩
  · rw [effects, skipped]
    exact conveys.wellFormed
  · intro after returned
    rw [effects, sentLines, skipped]
    exact conveys.returns after returned

theorem feederRequest_fields {request : FeederRequest}
    (asked : feederRequest message = some request) :
    ∃ messageMap, unmarshalMap message = some messageMap ∧
      match request with
      | .subscribe subscriptionId variant path =>
        getStr messageMap "action" = some "subscribe".toList ∧
          getStr messageMap "subscriptionId" = some subscriptionId ∧
          getStr messageMap "variant" = some variant ∧
          messageMap.lookup "path".toList = some (.arr path)
      | .unsubscribe subscriptionId =>
        getStr messageMap "action" = some "unsubscribe".toList ∧
          getStr messageMap "subscriptionId" = some subscriptionId := by
  simp only [feederRequest] at asked
  split at asked
  · cases asked
  · next messageMap decoded =>
    split_ifs at asked with subscribes unsubscribes
    · split at asked
      · next given kind listed =>
        cases asked
        exact ⟨messageMap, decoded, subscribes, given, kind, listed⟩
      · cases asked
    · obtain ⟨id, given, rfl⟩ := Option.map_eq_some_iff.mp asked
      exact ⟨messageMap, decoded, unsubscribes, given⟩

section

variable (agree : Matches s notificationList)

include agree

theorem Matches.add (plain : ∀ p ∈ stringsOf path, PlainText p)
    (texts : ∀ p ∈ stringsOf path, p ≠ [])
    (listed : after.feederPathList = (addPaths (stringsOf path) s.feederPathList).1)
    {list : List Str} (unique : list.Nodup)
    (added : ∀ p, p ∈ list ↔ p ∈ notificationList ∨ p ∈ stringsOf path) : Matches after list := by
  have keys : ∀ p, p ∈ keys after.feederPathList ↔
      p ∈ keys s.feederPathList ∨ p ∈ stringsOf path := by
    intro p
    rw [listed, mem_keys_addPaths]
  refine ⟨?_, ?_, unique, ?_⟩
  · rw [listed]
    exact nodup_keys_addPaths agree.distinct
  · intro p mem
    obtain before | new := (keys p).mp mem
    · exact agree.texts p before
    · exact ⟨plain p new, texts p new⟩
  · intro p
    rw [added, keys, agree.same]

theorem forwardSubscribe_conveys
    (request : feederRequest message = some (.subscribe subscriptionId variant path))
    (plain : ∀ p ∈ stringsOf path, PlainText p)
    (announces : FeederRequest.Announces s message (.subscribe subscriptionId variant path)) :
    Conveys scope notificationList (forwardSubscribe message subscriptionId variant path s) := by
  obtain ⟨texts, announced⟩ := announces
  obtain ⟨messageMap, decoded, action, -, -, paths⟩ := feederRequest_fields request
  simp only [forwardSubscribe]
  split_ifs at announced ⊢ with handsOn quiet
  · refine conveys_line announced decoded ?_
    rw [handleServerMessage_subscribe decoded action paths, Option.getD_some]
    refine agree.add plain texts rfl (nodup_addNotifications agree.unique) ?_
    intro p
    rw [mem_addNotifications, mem_stringsOf]
  · constructor
    · rintro _ ⟨⟩
    · rintro after ⟨⟩
      refine agree.add plain texts rfl agree.unique ?_
      intro p
      exact (or_iff_left_of_imp fun named => (agree.same p).mpr (announced p named)).symm
  · obtain ⟨first, named, new⟩ := announced
    have nonempty : (addPaths (stringsOf path) s.feederPathList).2 ≠ [] :=
      ne_nil_of_mem (mem_addPaths_new.mpr ⟨named, new⟩)
    have plainNew : ∀ p ∈ (addPaths (stringsOf path) s.feederPathList).2, PlainText p :=
      fun p mem => plain p (mem_addPaths_new.mp mem).1
    have written : "\x7b\"action\": \"subscribe\", \"path\":" ++
        (addOnFeederPathList path s.feederPathList).2 ++ ['\x7d'] =
          updateLine "subscribe" (addPaths (stringsOf path) s.feederPathList).2 := by
      simp only [addOnFeederPathList, if_neg nonempty]
      exact updateLine_subscribe nonempty
    rw [written]
    obtain ⟨update, decodedLine, lineAction, newPaths⟩ :=
      @unmarshalMap_updateLine "subscribe" _ (by decide) plainNew
    refine conveys_line (oneLine_updateLine (by decide) plainNew) decodedLine ?_
    rw [handleServerMessage_subscribe decodedLine lineAction newPaths, Option.getD_some]
    refine agree.add plain texts rfl (nodup_addNotifications agree.unique) ?_
    intro p
    simp only [mem_addNotifications, mem_map, Value.str.injEq, exists_eq_right,
      mem_addPaths_new, agree.same]
    by_cases there : p ∈ keys s.feederPathList <;> simp [there]

theorem Matches.remove (listed : after.feederPathList = (removePaths paths s.feederPathList).1)
    {list : List Str} (unique : list.Nodup)
    (removed : ∀ p, p ∈ list ↔ p ∈ notificationList ∧ p ∉ (removePaths paths s.feederPathList).2) :
    Matches after list := by
  have keys : ∀ p, p ∈ keys after.feederPathList ↔
      p ∈ keys s.feederPathList ∧ p ∉ (removePaths paths s.feederPathList).2 := by
    intro p
    rw [listed, mem_keys_removePaths agree.distinct]
  refine ⟨?_, ?_, unique, ?_⟩
  · rw [listed]
    exact nodup_keys_removePaths agree.distinct
  · intro p mem
    exact agree.texts p ((keys p).mp mem).1
  · intro p
    rw [removed, keys, agree.same]

theorem forwardUnsubscribe_conveys :
    Conveys scope notificationList (forwardUnsubscribe message subscriptionId s) := by
  generalize ended : (deleteOnFeederSubList subscriptionId s.feederSubList).2 = paths
  have texts : ∀ p ∈ (removePaths paths s.feederPathList).2, PlainText p ∧ p ≠ [] :=
    fun p mem => agree.texts p (removePaths_listed mem)
  simp only [forwardUnsubscribe, ended]
  by_cases kept : (removePaths paths s.feederPathList).2 = []
  · have silent : ¬ 4 < (deleteOnFeederPathList paths s.feederPathList).2.length := by
      simp [deleteOnFeederPathList, kept]
    rw [if_neg silent]
    constructor
    · rintro _ ⟨⟩
    · rintro _ ⟨⟩
      refine agree.remove rfl agree.unique ?_
      intro p
      rw [kept]
      exact ⟨fun there => ⟨there, not_mem_nil⟩, And.left⟩
  · have told : 4 < (deleteOnFeederPathList paths s.feederPathList).2.length := by
      simp only [deleteOnFeederPathList, if_neg kept]
      exact pathArray_length kept fun p mem => (texts p mem).2
    have plain : ∀ p ∈ (removePaths paths s.feederPathList).2, PlainText p :=
      fun p mem => (texts p mem).1
    have written : "\x7b\"action\": \"unsubscribe\", \"path\":" ++
        (deleteOnFeederPathList paths s.feederPathList).2 ++ ['\x7d'] =
          updateLine "unsubscribe" (removePaths paths s.feederPathList).2 := by
      simp only [deleteOnFeederPathList, if_neg kept]
      exact updateLine_unsubscribe kept
    rw [if_pos told, written]
    obtain ⟨update, decoded, action, released⟩ :=
      @unmarshalMap_updateLine "unsubscribe" _ (by decide) plain
    refine conveys_after (by simp) ?_
    refine conveys_line (oneLine_updateLine (by decide) plain) decoded ?_
    rw [handleServerMessage_unsubscribe decoded action released, Option.getD_some]
    refine agree.remove rfl (nodup_removeNotifications agree.unique) ?_
    intro p
    simp only [mem_removeNotifications agree.unique, mem_map, Value.str.injEq, exists_eq_right]

theorem handleToFeederMessage_conveys {request : FeederRequest}
    (asked : feederRequest message = some request) (proper : request.Proper s)
    (announces : request.Announces s message) :
    Conveys scope notificationList (handleToFeederMessage message s) := by
  cases request with
  | subscribe subscriptionId variant path =>
    obtain ⟨messageMap, decoded, action, id, kind, paths⟩ := feederRequest_fields asked
    have handled : handleToFeederMessage message s =
        forwardSubscribe message subscriptionId variant path s := by
      simp only [handleToFeederMessage, decoded, action, id, kind, paths]
      rfl
    rw [handled]
    exact forwardSubscribe_conveys agree asked proper.2 announces
  | unsubscribe subscriptionId =>
    obtain ⟨messageMap, decoded, action, id⟩ := feederRequest_fields asked
    have handled : handleToFeederMessage message s =
        forwardUnsubscribe message subscriptionId s := by
      simp only [handleToFeederMessage, decoded, action, id]
      rfl
    rw [handled]
    exact forwardUnsubscribe_conveys agree

end

theorem handleFromFeederMessage_paths : (handleFromFeederMessage message s).Returns fun after =>
      after.feederPathList = s.feederPathList := by
  have notified : ∀ path, (forwardNotification message path s).Returns fun after =>
      after.feederPathList = s.feederPathList := by
    intro path
    simp only [forwardNotification]
    split_ifs <;> (rintro _ ⟨⟩; rfl)
  have verified : ∀ status, (verifyFeeder message status s).Returns fun after =>
      after.feederPathList = s.feederPathList := by
    intro status
    simp only [verifyFeeder]
    split_ifs <;> (rintro _ ⟨⟩; rfl)
  simp only [handleFromFeederMessage]
  split
  · exact returns_pure rfl
  · split
    · exact returns_pure rfl
    · split_ifs
      · split
        · exact verified _
        · exact returns_pure rfl
      · split
        · exact notified _
        · exact returns_pure rfl
      · exact returns_pure rfl

end Steps

variable {scope : List Str} {s s' : NotifySystem} {written : List Str}

def WillMatch (scope : List Str) (s : NotifySystem) : Prop :=
  Matches s.frontend (processed scope s.lines s.notificationList)

theorem processed_append (lines lines' notificationList : List Str) :
    processed scope (lines ++ lines') notificationList =
      processed scope lines' (processed scope lines notificationList) := foldl_append

theorem WillMatch.step {event : NotifyEvent} (agree : WillMatch scope s)
    (proper : event.Proper s) (announces : event.Announces s)
    (taken : s.step scope event = some (s', written)) :
    (∀ line ∈ written, (parseAll line).isSome = true) ∧ WillMatch scope s' := by
  cases event with
  | tell =>
    obtain ⟨request, asked, proper⟩ := proper
    have conveys : Conveys scope _ _ :=
      handleToFeederMessage_conveys agree asked proper (announces request asked)
    obtain ⟨frontend, returned, same⟩ := Option.map_eq_some_iff.mp taken
    cases same
    refine ⟨conveys.wellFormed, ?_⟩
    simp only [WillMatch, processed_append]
    exact conveys.returns frontend returned
  | read =>
    simp only [NotifySystem.step] at taken
    split at taken
    · cases taken
    · next line lines ahead =>
      obtain ⟨notificationList, returned, same⟩ := Option.map_eq_some_iff.mp taken
      cases same
      refine ⟨nofun, ?_⟩
      rw [WillMatch, ahead, processed, foldl_cons, returned] at agree
      exact agree
  | answer =>
    simp only [NotifySystem.step] at taken
    split at taken
    · cases taken
    · next answer answers ahead =>
      obtain ⟨frontend, returned, same⟩ := Option.map_eq_some_iff.mp taken
      cases same
      have kept := handleFromFeederMessage_paths frontend returned
      refine ⟨nofun, ?_, ?_, agree.unique, ?_⟩
      · rw [kept]
        exact agree.distinct
      · rw [kept]
        exact agree.texts
      · rw [kept]
        exact agree.same

/-- Where messages are proper and announce their paths, all is JSON, and server and feeder agree. -/
theorem feeder_agrees_on_paths {history : History NotifySystem NotifyEvent (List Str)}
    (run : Run (notifyMachine scope)
      (fun _ t => t.event.Proper t.before ∧ t.event.Announces t.before) history s) :
    WellFormedLines history ∧ AgreesOnPaths s := by
  have kept : WellFormedLines history ∧ WillMatch scope s := by
    refine Run.invariant (fun history s => WellFormedLines history ∧ WillMatch scope s) ?_ ?_ run
    · intro s begins
      rw [show s = {} from begins]
      exact ⟨nofun, nodup_nil, nofun, nodup_nil, fun p => Iff.rfl⟩
    · intro history t before taken allowed
      obtain ⟨wellFormed, agree⟩ := before.2.step allowed.1 allowed.2 taken
      refine ⟨?_, agree⟩
      intro t' member
      obtain rfl | earlier := mem_cons.mp member
      · exact wellFormed
      · exact before.1 t' earlier
  refine ⟨kept.1, ?_⟩
  intro drained path
  have agree := kept.2.same path
  rwa [drained] at agree

def tellAll (message : Str) : List NotifyEvent := [.tell message, .read true, .answer]

theorem feeder_agrees_on_shared_path : ∃ history s, Run (notifyMachine [])
        (fun _ t => t.event.Proper t.before ∧ t.event.Announces t.before) history s ∧
      (s.lines = [] ∧ s.notificationList = ["Vehicle.Speed".toList]) ∧
      WellFormedLines history ∧ AgreesOnPaths s := by
  rcases Run.of_execWhile (notifyMachine []) {} rfl
    (fun t => t.event.Proper t.before ∧ t.event.Announces t.before) (fun _ _ => id)
    (tellAll (createFeederNotifyMessage "change" ["Vehicle.Speed"] 1) ++
      tellAll (createFeederNotifyMessage "range" ["Vehicle.Speed", "Vehicle.Width"] 2) ++
      [.tell (unsubscribeMessage "2"), .read true])
    (fun _ s => s.lines = [] ∧ s.notificationList = ["Vehicle.Speed".toList])
    (by decide +kernel) with ⟨history, s, run, known⟩
  exact ⟨history, s, run, known, feeder_agrees_on_paths run⟩

/-- For a second subscription the line has nothing in the place of the paths. -/
theorem second_subscription_line_malformed :
    ∃ history s, Run (notifyMachine []) (fun _ t => t.event.Proper t.before) history s ∧
      ¬ (WellFormedLines history ∧ AgreesOnPaths s) := by
  rcases Run.of_execWhile (notifyMachine []) {} rfl (fun t => t.event.Proper t.before)
    (fun _ _ => id)
    (tellAll (createFeederNotifyMessage "change" ["Vehicle.Speed"] 1) ++
      [.tell (createFeederNotifyMessage "range" ["Vehicle.Speed"] 2)])
    (fun history _ => ∃ t ∈ history, ∃ line ∈ t.output, (parseAll line).isNone = true)
    (by decide +kernel) with ⟨history, s, run, t, member, line, sent, missing⟩
  refine ⟨history, s, run, ?_⟩
  intro claimed
  have wellFormed := claimed.1 t member line sent
  rw [Option.isNone_iff_eq_none.mp missing] at wellFormed
  cases wellFormed

end Vissr.ServiceMgr
