import Vissr.Core.AccessControl
import Vissr.Core.Answers
import Vissr.Json.Marshal
import Vissr.Transport.Http

/-! The way back of an answer: the client is found by the word `RouterId` in the text. -/

namespace Vissr.Transport

open Json Core List Option Char

/-- The manager finds the client, and the answer without its route. -/
def RoutedBack (clientId : Int) (content : Map Value) : Prop :=
  ∃ text, removeInternalData (finalizeMessage content) = some (text, clientId) ∧
    ∃ decoded, unmarshalMap text = some decoded ∧ ∀ k, decoded.lookup k =
      ((delete "RouterId" (delete "origin" content)).lookup k).map fun v => v.raw.value

/-- No field before the route has the word in its key or value. -/
def RouteFirst (content : Map Value) : Prop :=
  ∀ p ∈ content, p.1 < "RouterId" → ¬ "RouterId" <:+: memberText p
  deriving Decidable

def Legible (content : Map Value) : Prop := ∀ p ∈ content, p.2.Legible
  deriving Decidable

def routeField (mgrId clientId : Int) : Str :=
  pasted "RouterId" ++ ':' :: pasted (routerId mgrId clientId)

theorem itoa_plain (n : Int) : ∀ c ∈ itoa n, c ≠ '?' ∧ c ≠ '"' ∧ c ≠ ',' := by
  intro c mem
  obtain digit | rfl := itoa_chars n c mem
  · refine ⟨?_, ?_, ?_⟩ <;> rintro rfl <;> exact absurd digit (by decide)
  · decide

theorem dropLastByte_quote (u : Str) : dropLastByte (u ++ ['"']) = u := by
  rw [dropLastByte, dropLast_concat, getLast?_concat]
  exact append_nil u

/-- The client is before the next quote, the rest after the next comma. -/
theorem removeInternalData_parts {before a b c rest : Str}
    (found : indexOf "RouterId" (before ++ (a ++ '?' :: (b ++ '"' :: (c ++ ',' :: rest)))) =
      some (before.length + 1)) (mark : '?' ∉ a) (quote : '"' ∉ b) (comma : ',' ∉ '"' :: c) :
    removeInternalData (before ++ (a ++ '?' :: (b ++ '"' :: (c ++ ',' :: rest)))) =
      some (dropLastByte ((before ++ (a ++ '?' :: (b ++ '"' :: (c ++ ',' :: rest)))).take
        (before.length + 1)) ++ rest, atoiClamped b) := by
  have start : index '?' ((before ++ (a ++ '?' :: (b ++ '"' :: (c ++ ',' :: rest)))).drop
      before.length) = some a.length := by
    rw [drop_left]
    exact index_append_cons mark _
  have client : (before ++ (a ++ '?' :: (b ++ '"' :: (c ++ ',' :: rest)))).drop
      (a.length + 1 + before.length) = b ++ '"' :: (c ++ ',' :: rest) := by
    rw [Nat.add_comm _ before.length, ← drop_drop, drop_left, ← drop_drop, drop_left]
    rfl
  have field : (before ++ (a ++ '?' :: (b ++ '"' :: (c ++ ',' :: rest)))).drop
      (a.length + 1 + before.length + b.length) = ('"' :: c) ++ ',' :: rest := by
    rw [← drop_drop, client, drop_left]
    rfl
  have after : (before ++ (a ++ '?' :: (b ++ '"' :: (c ++ ',' :: rest)))).drop
      (('"' :: c).length + 1 + (a.length + 1 + before.length + b.length)) = rest := by
    rw [Nat.add_comm _ (a.length + 1 + before.length + b.length), ← drop_drop, field,
      ← drop_drop, drop_left]
    rfl
  rw [removeInternalData, found]
  simp only [start, client, index_append_cons quote, field, index_append_cons comma, after,
    Nat.add_sub_cancel_left, take_left]

theorem removeInternalData_field {before rest : Str} (mgrId clientId : Int)
    (fits : fitsInt clientId = true) (clear : ¬ "RouterId" <:+: before) :
    removeInternalData (before ++ (routeField mgrId clientId ++ ',' :: rest)) =
      some (before ++ rest, clientId) := by
  have text : before ++ (routeField mgrId clientId ++ ',' :: rest) =
      before ++ (('"' :: ("RouterId\":\"" ++ itoa mgrId)) ++
        '?' :: (itoa clientId ++ '"' :: ([] ++ ',' :: rest))) := by
    simp [routeField, pasted, routerId]
  have found : indexOf "RouterId" (before ++ (('"' :: ("RouterId\":\"" ++ itoa mgrId)) ++
      '?' :: (itoa clientId ++ '"' :: ([] ++ ',' :: rest)))) = some (before.length + 1) :=
    indexOf_append_cons (by decide : '"' ∉ "RouterId".toList) clear
  have mark : '?' ∉ '"' :: ("RouterId\":\"" ++ itoa mgrId) := by
    intro mem
    obtain literal | digit := mem_append.mp (mem_of_ne_of_mem (by decide) mem)
    · exact absurd literal (by decide)
    · exact (itoa_plain mgrId _ digit).1 rfl
  have quote : '"' ∉ itoa clientId := fun mem => (itoa_plain clientId _ mem).2.1 rfl
  have head : (before ++ (('"' :: ("RouterId\":\"" ++ itoa mgrId)) ++
      '?' :: (itoa clientId ++ '"' :: ([] ++ ',' :: rest)))).take (before.length + 1) =
        before ++ ['"'] := by
    rw [take_length_add_append]
    rfl
  rw [text, removeInternalData_parts found mark quote (by decide), head, dropLastByte_quote,
    atoiClamped_itoa clientId fits]

theorem memberText_route (mgrId clientId : Int) :
    memberText ("RouterId", .str (routerId mgrId clientId)) = routeField mgrId clientId := by
  have chars : ∀ c ∈ routerId mgrId clientId, c.isDigit = true ∨ c = '-' ∨ c = '?' := by
    intro c mem
    obtain manager | rest := mem_append.mp mem
    · exact (itoa_chars mgrId c manager).imp_right .inl
    · obtain rfl | client := mem_cons.mp rest
      · exact .inr (.inr rfl)
      · exact (itoa_chars clientId c client).imp_right .inl
  have plain : ∀ c : Char, c.isDigit = true ∨ c = '-' ∨ c = '?' →
      isPlain c = true ∧ isHtml c = false := by
    rintro c (digit | rfl | rfl)
    · have other : ∀ d : Char, d.isDigit = false → c ≠ d := by
        rintro d letter rfl
        rw [digit] at letter
        cases letter
      have visible : 0x20 ≤ c.toNat := by
        simp only [Char.isDigit, Bool.and_eq_true, decide_eq_true_eq, ge_iff_le,
          UInt32.le_iff_toNat_le] at digit
        exact Nat.le_trans (by decide) digit.1
      simp [isPlain, isHtml, visible, other _ (rfl : isDigit '"' = false),
        other _ (rfl : isDigit '\\' = false), other _ (rfl : isDigit '<' = false),
        other _ (rfl : isDigit '>' = false), other _ (rfl : isDigit '&' = false),
        other _ (rfl : isDigit '\u2028' = false), other _ (rfl : isDigit '\u2029' = false)]
    · decide
    · decide
  have word : quoted (encodeString "RouterId") = pasted "RouterId" := rfl
  rw [memberText, Value.marshal, word, quoted_encodeString _ (fun c mem => (plain c (chars c mem)).1)
      (fun c mem => (plain c (chars c mem)).2), routeField]

theorem infix_joinComma {word : Str} (some_ : word ≠ []) (free : ',' ∉ word) (texts : List Str) :
    word <:+: joinComma texts ↔ ∃ text ∈ texts, word <:+: text := by
  induction texts using joinComma.induct with
  | case1 => simp [joinComma, some_]
  | case2 text => simp [joinComma]
  | case3 text rest several ih =>
    have joined : joinComma (text :: rest) = text ++ ',' :: joinComma rest := by
      cases rest with
      | nil => exact absurd rfl several
      | cons => rfl
    simp only [joined, mem_cons, exists_eq_or_imp, ← ih]
    refine ⟨infix_append_cons free, ?_⟩
    rintro (here | later)
    · exact here.trans (prefix_append _ _).isInfix
    · exact later.trans ((suffix_cons _ _).trans (suffix_append _ _)).isInfix

theorem not_infix_members {members : List Str}
    (clear : ∀ text ∈ members, ¬ "RouterId" <:+: text) :
    ¬ "RouterId" <:+: '\x7b' :: members.flatMap (· ++ [',']) := by
  intro inside
  have texts : members.flatMap (· ++ [',']) = joinComma (members ++ [[]]) := by
    rw [joinComma_append]
    exact (append_nil _).symm
  obtain none | within := @infix_append_cons [] _ '\x7b' "RouterId" (by decide) inside
  · exact absurd (infix_nil.mp none) (by decide)
  · rw [texts, infix_joinComma (by decide) (by decide)] at within
    obtain ⟨text, mem, here⟩ := within
    obtain listed | last := mem_append.mp mem
    · exact clear text listed here
    · rw [mem_singleton.mp last] at here
      exact absurd (infix_nil.mp here) (by decide)

variable {content : Map Value} {mgrId clientId : Int}

section

variable (addressed : Addressed (routerId mgrId clientId) content)

include addressed

theorem finalizeMessage_split :
    ∃ before next after, (∀ p ∈ before, p ∈ content ∧ p.1 < "RouterId") ∧
      (before ++ next :: after).Perm (delete "RouterId" (delete "origin" content)) ∧
      finalizeMessage content =
        ('\x7b' :: (before.map memberText).flatMap (· ++ [','])) ++ (routeField mgrId clientId ++
          ',' :: (joinComma ((next :: after).map memberText) ++ ['\x7d'])) := by
  have distinct : Distinct (delete "origin" content) := distinct_delete _ _ addressed.distinct
  have route : (delete "origin" content).lookup "RouterId".toList =
      some (.str (routerId mgrId clientId)) := by
    rw [lookup_delete, if_neg (by decide)]
    exact addressed.routerId
  obtain ⟨before, after, sorted, smaller, larger, perm⟩ := sortKeys_split distinct route
  have stamped : ((delete "RouterId" (delete "origin" content)).lookup "ts".toList).isSome =
      true := by
    rw [lookup_delete, if_neg (by decide), lookup_delete, if_neg (by decide)]
    exact addressed.ts
  obtain ⟨ts, stamp⟩ := isSome_iff_exists.mp stamped
  have listed : ("ts".toList, ts) ∈ before ++ after := perm.mem_iff.mpr (mem_of_lookup _ _ _ stamp)
  cases after with
  | nil =>
    rw [append_nil] at listed
    have order : ¬ "ts" < "RouterId" := by decide
    exact absurd (smaller _ listed) order
  | cons next after =>
    refine ⟨before, next, after, ?_, perm, ?_⟩
    · intro p mem
      have kept := perm.mem_iff.mp (mem_append_left _ mem)
      exact ⟨mem_of_mem_filter (mem_of_mem_filter kept), smaller p mem⟩
    · rw [finalizeMessage, marshal_obj, sorted, membersText, map_append, map_cons,
        joinComma_append, memberText_route, map_cons]
      simp [joinComma]

theorem removeInternalData_first
    (fits : fitsInt clientId = true) (first : RouteFirst content) :
    ∃ members, members.Perm (delete "RouterId" (delete "origin" content)) ∧
      removeInternalData (finalizeMessage content) = some (membersText members, clientId) := by
  obtain ⟨before, next, after, earlier, perm, text⟩ := finalizeMessage_split addressed
  have clear : ¬ "RouterId" <:+: '\x7b' :: (before.map memberText).flatMap (· ++ [',']) := by
    apply not_infix_members
    intro text mem
    obtain ⟨p, inside, rfl⟩ := mem_map.mp mem
    exact first p (earlier p inside).1 (earlier p inside).2
  have cut : ('\x7b' :: (before.map memberText).flatMap (· ++ [','])) ++
      (joinComma ((next :: after).map memberText) ++ ['\x7d']) =
        membersText (before ++ next :: after) := by
    rw [membersText, map_append, map_cons, joinComma_append]
    simp
  refine ⟨before ++ next :: after, perm, ?_⟩
  rw [text, removeInternalData_field mgrId clientId fits clear, cut]

theorem routed_back_of_first
    (fits : fitsInt clientId = true) (legible : Legible content) (first : RouteFirst content) :
    RoutedBack clientId content := by
  obtain ⟨members, perm, cut⟩ := removeInternalData_first addressed fits first
  have distinct : Distinct (delete "RouterId" (delete "origin" content)) :=
    distinct_delete _ _ (distinct_delete _ _ addressed.distinct)
  refine ⟨membersText members, cut, unmarshalMap_membersText distinct perm ?_⟩
  intro p mem
  exact legible p (mem_of_mem_filter (mem_of_mem_filter mem))

end

theorem forwarded_routed {env : Env} {reqMessage request : Str}
    (errors : Distinct env.errorResponseMap)
    (forwarded : request ∈ addRoutingForwardRequest reqMessage mgrId clientId) :
    Routed env (routerId mgrId clientId) (transportRequest request) := by
  obtain ⟨ms, rest, parsed, nested, rfl⟩ := forwarded_eq forwarded
  have again := parse_marshalRawMap _ (nesting_routed ms mgrId clientId nested)
  refine ⟨errors, ?_, ?_⟩
  · rw [transportRequest, mapRequest_of_parse _ _ _ again]
    exact distinct_mapOf _
  · rw [transportRequest_lookup ms mgrId clientId nested, routed_lookup, if_neg (by decide),
      if_pos rfl, map_some, rawString_value]

/-- An answer comes back to its client, with only the route taken out, if no field before that has
the word. -/
theorem answer_routed_back (env : Env) (errors : Distinct env.errorResponseMap)
    (reqMessage request : Str) (mgrId clientId : Int) (fits : fitsInt clientId = true)
    (forwarded : request ∈ addRoutingForwardRequest reqMessage mgrId clientId) (answer : Answer)
    (sent : .backendChan answer ∈ (serveRequest env (transportRequest request)).effects)
    (legible : Legible answer.content) (first : RouteFirst answer.content) :
    RoutedBack clientId answer.content := by
  have addressed := serveRequest_addressed (forwarded_routed errors forwarded) sent
  exact routed_back_of_first addressed fits legible first

def himEnv : Env := { fileEnv with himJson := "\x7b\"HIM\":\x7b\x7d\x7d" }

def discoverText (value : Str) : Str := "\x7b\"A\":\"" ++ value ++
    "\",\"action\":\"discover\",\"path\":\"HIM\",\"depth\":\"0\"\x7d"

def discovered (value : Str) : List (Map Value) :=
  (addRoutingForwardRequest (discoverText value) 1 2).flatMap fun request =>
    (serveRequest himEnv (transportRequest request)).effects.filterMap fun
      | .backendChan answer => some answer.content
      | _ => none

theorem exists_discovered {value : Str} {P : Map Value → Prop}
    (some_ : (discovered value).length ≠ 0) (all : ∀ content ∈ discovered value, P content) :
    ∃ request ∈ addRoutingForwardRequest (discoverText value) 1 2, ∃ answer,
      .backendChan answer ∈ (serveRequest himEnv (transportRequest request)).effects ∧
        P answer.content := by
  obtain ⟨content, mem⟩ := exists_mem_of_length_pos (Nat.pos_of_ne_zero some_)
  have good := all content mem
  obtain ⟨request, forwarded, inside⟩ := mem_flatMap.mp mem
  obtain ⟨effect, sent, same⟩ := mem_filterMap.mp inside
  cases effect with
  | backendChan answer =>
    cases same
    exact ⟨request, forwarded, answer, sent, good⟩
  | _ => cases same

theorem answer_routed_back_discover :
    ∃ request ∈ addRoutingForwardRequest (discoverText "x") 1 2, ∃ answer,
      .backendChan answer ∈ (serveRequest himEnv (transportRequest request)).effects ∧
        RoutedBack 2 answer.content := by
  have good : ∀ content ∈ discovered "x", Legible content ∧ RouteFirst content := by
    decide +kernel
  obtain ⟨request, forwarded, answer, sent, legible, first⟩ :=
    exists_discovered (by decide +kernel) good
  exact ⟨request, forwarded, answer, sent, answer_routed_back himEnv nodup_nil _ request 1 2
    (by decide) forwarded answer sent legible first⟩

/-- The answer goes to client 7, whom client 2 named in a field. -/
theorem answer_misrouted :
    ∃ request ∈ addRoutingForwardRequest (discoverText "RouterId?7") 1 2, ∃ answer,
      .backendChan answer ∈ (serveRequest himEnv (transportRequest request)).effects ∧
        (∃ text, removeInternalData (finalizeMessage answer.content) = some (text, 7)) ∧
        ¬ RoutedBack 2 answer.content := by
  have misled : ∀ content ∈ discovered "RouterId?7",
      ((removeInternalData (finalizeMessage content)).map Prod.snd) = some 7 := by decide +kernel
  obtain ⟨request, forwarded, answer, sent, cut⟩ := exists_discovered (by decide +kernel) misled
  obtain ⟨⟨text, client⟩, cut, seven⟩ := map_eq_some_iff.mp cut
  have seven : client = 7 := seven
  subst seven
  refine ⟨request, forwarded, answer, sent, ⟨text, cut⟩, ?_⟩
  rintro ⟨other, back, _⟩
  rw [cut] at back
  cases back

/-! ### Responses and events -/

inductive ClientChan
  | clientBackendChan
  | clientChan
deriving DecidableEq

/-- The channel, the client and the text. For a client out of bounds the WebSocket manager panics;
that of the sockets drops the message. -/
def removeRoutingForwardResponse (numOfClients : Int) (response : Str) :
    Option (ClientChan × Int × Str) :=
  (removeInternalData response).bind fun (trimmedResponse, clientId) =>
    if clientId < 0 ∨ numOfClients ≤ clientId then none
    else if contains trimmedResponse "\"subscription\"" then
      some (.clientBackendChan, clientId, trimmedResponse)
    else some (.clientChan, clientId, trimmedResponse)

def numOfWsClients : Int := 20
def numOfUdsClients : Int := 20

/-- Both managers put the message where it belongs by its action. -/
def ToldApart (clientId : Int) (content : Map Value) : Prop :=
  ∀ numOfClients ∈ [numOfWsClients, numOfUdsClients], ∃ text,
    removeRoutingForwardResponse numOfClients (finalizeMessage content) =
      some (if actionOf content = "subscription" then .clientBackendChan else .clientChan,
        clientId, text)

/-- The word for an event is in no field that the client gets. -/
def Unmentioned (content : Map Value) : Prop := ∀ p ∈ delete "RouterId" (delete "origin" content),
    ¬ "\"subscription\"" <:+: memberText p
  deriving Decidable

structure Clear (content : Map Value) : Prop where
  first : RouteFirst content
  quiet : actionOf content ≠ "subscription" → Unmentioned content

theorem contains_membersText (members : Map Value) :
    contains (membersText members) "\"subscription\"" = true ↔
      ∃ p ∈ members, "\"subscription\"".toList <:+: memberText p := by
  have texts := infix_joinComma (by decide : "\"subscription\"".toList ≠ []) (by decide)
    (members.map memberText)
  simp only [List.mem_map, exists_exists_and_eq_and] at texts
  rw [contains, decide_eq_true_eq, membersText, ← texts]
  constructor
  · intro inside
    obtain within | none := infix_append_cons (by decide) inside
    · obtain none | within := @infix_append_cons [] _ '\x7b' _ (by decide) within
      · exact absurd (infix_nil.mp none) (by decide)
      · exact within
    · exact absurd (infix_nil.mp none) (by decide)
  · intro within
    exact within.trans ((suffix_cons _ _).isInfix.trans (prefix_append _ _).isInfix)

theorem event_mentioned (event : actionOf content = "subscription") : ¬ Unmentioned content := by
  intro unmentioned
  have given : content.lookup "action".toList = some (.str "subscription") := by
    rw [actionOf] at event
    cases found : getStr content "action" with
    | none =>
      rw [found] at event
      exact absurd event (by decide)
    | some action =>
      rw [found] at event
      rw [getStr_eq_some.mp found]
      exact congrArg (fun s => some (Value.str s)) event
  have listed : (delete "RouterId" (delete "origin" content)).lookup "action".toList =
      some (.str "subscription") := by
    rw [lookup_delete, if_neg (by decide), lookup_delete, if_neg (by decide), given]
  apply unmentioned _ (mem_of_lookup _ _ _ listed)
  rw [memberText, Value.marshal]
  decide +kernel

section

variable (addressed : Addressed (routerId mgrId clientId) content)
  (client : 0 ≤ clientId ∧ clientId < min numOfWsClients numOfUdsClients)

include addressed client

theorem told_apart_iff_of_first (first : RouteFirst content) :
    ToldApart clientId content ↔ (actionOf content ≠ "subscription" → Unmentioned content) := by
  have fits : fitsInt clientId = true := by
    simp only [numOfWsClients, numOfUdsClients] at client
    rw [fitsInt_iff]
    omega
  obtain ⟨members, perm, cut⟩ := removeInternalData_first addressed fits first
  have mentioned : contains (membersText members) "\"subscription\"" = true ↔
      ¬ Unmentioned content := by
    rw [contains_membersText, Unmentioned]
    simp only [perm.mem_iff, not_forall, not_not, exists_prop]
  have sent : ∀ numOfClients ∈ [numOfWsClients, numOfUdsClients],
      removeRoutingForwardResponse numOfClients (finalizeMessage content) =
        some (if Unmentioned content then .clientChan else .clientBackendChan, clientId,
          membersText members) := by
    intro numOfClients listed
    have inside : ¬ (clientId < 0 ∨ numOfClients ≤ clientId) := by
      simp only [mem_cons, not_mem_nil, or_false] at listed
      omega
    rw [removeRoutingForwardResponse, cut, bind_some]
    simp only [if_neg inside, mentioned]
    split_ifs <;> rfl
  constructor
  · intro told response
    obtain ⟨text, same⟩ := told _ mem_cons_self
    rw [sent _ mem_cons_self, if_neg response] at same
    by_contra found
    rw [if_neg found] at same
    cases same
  · intro quiet numOfClients listed
    refine ⟨membersText members, ?_⟩
    rw [sent numOfClients listed]
    by_cases event : actionOf content = "subscription"
    · rw [if_neg (event_mentioned event), if_pos event]
    · rw [if_pos (quiet event), if_neg event]

/-- A response is told from an event where no field before the route has its word, and none that of
an event. After the first, the second is needed. -/
theorem told_apart_iff : (Clear content → ToldApart clientId content) ∧
    (RouteFirst content → ToldApart clientId content → Clear content) := by
  constructor
  · intro clear
    exact (told_apart_iff_of_first addressed client clear.first).mpr clear.quiet
  · intro first told
    exact ⟨first, (told_apart_iff_of_first addressed client first).mp told⟩

end

theorem told_apart_iff_discover :
    ∃ request ∈ addRoutingForwardRequest (discoverText "x") 1 2, ∃ answer,
      .backendChan answer ∈ (serveRequest himEnv (transportRequest request)).effects ∧
        ToldApart 2 answer.content := by
  have good : ∀ content ∈ discovered "x", RouteFirst content ∧ Unmentioned content := by
    decide +kernel
  obtain ⟨request, forwarded, answer, sent, first, quiet⟩ :=
    exists_discovered (by decide +kernel) good
  have routed : Routed himEnv (routerId 1 2) (transportRequest request) :=
    forwarded_routed nodup_nil forwarded
  have addressed := serveRequest_addressed routed sent
  exact ⟨request, forwarded, answer, sent,
    (told_apart_iff addressed (by decide)).1 ⟨first, fun _ => quiet⟩⟩

/-- A field makes an event of the response, which the request does not get. One with the word of the
route sends it to another client. -/
theorem response_taken_for_event :
    (∃ request ∈ addRoutingForwardRequest (discoverText "subscription") 1 2, ∃ answer,
      .backendChan answer ∈ (serveRequest himEnv (transportRequest request)).effects ∧
        actionOf answer.content = "discover" ∧ ¬ ToldApart 2 answer.content) ∧
    ∃ request ∈ addRoutingForwardRequest (discoverText "RouterId?7") 1 2, ∃ answer,
      .backendChan answer ∈ (serveRequest himEnv (transportRequest request)).effects ∧
        Unmentioned answer.content ∧ ¬ ToldApart 2 answer.content := by
  have taken : ∀ content ∈ discovered "subscription", actionOf content = "discover" ∧
      (removeRoutingForwardResponse numOfWsClients (finalizeMessage content)).map Prod.fst =
        some .clientBackendChan := by
    decide +kernel
  have sentTo : ∀ content ∈ discovered "RouterId?7", Unmentioned content ∧
      (removeRoutingForwardResponse numOfWsClients (finalizeMessage content)).map (fun r => r.2.1) =
        some 7 := by
    decide +kernel
  constructor
  · rcases exists_discovered (by decide +kernel) taken with
      ⟨request, forwarded, answer, sent, action, channel⟩
    refine ⟨request, forwarded, answer, sent, action, ?_⟩
    intro told
    rcases told _ mem_cons_self with ⟨text, same⟩
    rw [same, action] at channel
    cases channel
  · rcases exists_discovered (by decide +kernel) sentTo with
      ⟨request, forwarded, answer, sent, quiet, client⟩
    refine ⟨request, forwarded, answer, sent, quiet, ?_⟩
    intro told
    rcases told _ mem_cons_self with ⟨text, same⟩
    rw [same] at client
    cases client

end Vissr.Transport
