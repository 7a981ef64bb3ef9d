import Vissr.ServiceMgr.CloseSignals
import Vissr.ServiceMgr.Removal

/-! The tickers of the timebased subscriptions, and what the end of a subscription does to them. -/

namespace Vissr.ServiceMgr.Sessions

open Json List Option Table

/-- The goroutine that each slot stops, by the id that it sends, and those of no slot any more. -/
structure Goroutines where
  slots : List (Option Int) := replicate maxTickers none
  lost : List Int := []

def Goroutines.start (index : Nat) (subscriptionId : Int) (g : Goroutines) : Goroutines where
  slots := g.slots.set index (some subscriptionId)
  lost := (g.slots[index]?).join.toList ++ g.lost

def Goroutines.stop (index : Nat) (g : Goroutines) : Goroutines :=
  { g with slots := g.slots.set index none }

/-- It is added or ended by a request, or goes with the last point of its curve log. -/
inductive Change where
  | adds (subscription : SubscriptionState)
  | ends (subscription : SubscriptionState)
  | expires (subscription : SubscriptionState)
  | keeps

def expired (s : State) (event : Event) : Option SubscriptionState :=
  match s.doing, event with
  | .select, .notification _ =>
    (receivePack s.mgr).bind fun (clPack, mgr) =>
      (subscriptionOf clPack.subscriptionId mgr).filter fun subscription =>
        decide (clPack.subscriptionId = mgr.closeClSubId ∧ subscription.subscriptionThreads - 1 = 0)
  | _, _ => none

def changeOf (s : State) (event : Event) : Change :=
  match added s event, removed s event, expired s event with
  | some subscription, _, _ => .adds subscription
  | none, some subscription, _ => .ends subscription
  | none, none, some subscription => .expires subscription
  | none, none, none => .keeps

def Goroutines.after (change : Change) (mgr : Manager) (g : Goroutines) : Goroutines :=
  match change with
  | .adds subscription =>
    if begins subscription then
      match findTicker mgr 0 with
      | some index => g.start index subscription.subscriptionId
      | none => g
    else g
  | .ends subscription =>
    if getOpType subscription.filterList "timebased" then
      match findTicker mgr subscription.subscriptionId with
      | some index => g.stop index
      | none => g
    else g
  | _ => g

structure Ticking where
  sessions : State := {}
  tickers : Goroutines := {}

def tickerMachine : Machine Ticking Event Unit where
  init s := s = {}
  step s event := (s.sessions.step event).map fun after =>
      ({ sessions := after
         tickers := s.tickers.after (changeOf s.sessions event) s.sessions.mgr }, ())

variable (subscription : SubscriptionState)

def ticks : Bool := subscription.filterList.any fun filter =>
    decide (filter.type = "timebased" ∧ 0 < getIntervalPeriod filter.parameter)

def tickingIds (subscriptionList : List SubscriptionState) : List Int :=
  (subscriptionList.filter ticks).map SubscriptionState.subscriptionId

def tickers (mgr : Manager) : List Int := entries 0 mgr.tickerIndexList

/-- The entries are the ids that tick, each once and with a ticker. -/
structure TickersMatch (s : Ticking) : Prop where
  once : (tickers s.sessions.mgr).Nodup
  exact : (tickers s.sessions.mgr).Perm (tickingIds s.sessions.mgr.subscriptionList)
  running : ∀ (slot : Nat) (id : Int), s.sessions.mgr.tickerIndexList[slot]? = some id → id ≠ 0 →
    s.tickers.slots[slot]? = some (some id)

def captures (s : State) (subscription : SubscriptionState) : Prop :=
  ∃ thread ∈ s.threads, thread.live = true ∧ thread.subscriptionId = subscription.subscriptionId
  deriving Decidable

/-- The end of a subscription stops its ticker and tells its capture threads, and no others. -/
structure StopsOwn (before : Ticking) (subscription : SubscriptionState) (after : Ticking) :
    Prop where
  ticker : ∀ (slot : Nat) (id : Int), before.tickers.slots[slot]? = some (some id) →
    (after.tickers.slots[slot]? = some none ↔
      ticks subscription = true ∧ id = subscription.subscriptionId)
  threads : captures before.sessions subscription →
    after.sessions.mgr.closeClSubId = subscription.subscriptionId
  others : after.sessions.mgr.closeClSubId = before.sessions.mgr.closeClSubId ∨
    after.sessions.mgr.closeClSubId = subscription.subscriptionId

variable {s s' : State} {event : Event}

def Change.table (change : Change) (table : List Int) : List Int :=
  match change with
  | .adds subscription =>
    if begins subscription then claim 0 subscription.subscriptionId table else table
  | .ends subscription =>
    if getOpType subscription.filterList "timebased" then
      release 0 subscription.subscriptionId table
    else table
  | _ => table

def Change.Ids (change : Change) (ids ids' : List Int) : Prop :=
  match change with
  | .adds subscription => ids' = ids ++ tickingIds [subscription]
  | .ends subscription => ids.Perm (tickingIds [subscription] ++ ids')
  | .expires subscription => ids.Perm (tickingIds [subscription] ++ ids')
  | .keeps => ids' = ids

structure Changes (change : Change) (mgr mgr' : Manager) : Prop where
  table : mgr'.tickerIndexList = change.table mgr.tickerIndexList
  ids : change.Ids (tickingIds mgr.subscriptionList) (tickingIds mgr'.subscriptionList)

theorem tickingIds_append (l l' : List SubscriptionState) :
    tickingIds (l ++ l') = tickingIds l ++ tickingIds l' := by
  rw [tickingIds, filter_append, map_append, tickingIds, tickingIds]

theorem tickingIds_perm {l l' : List SubscriptionState} (same : l.Perm l') :
    (tickingIds l).Perm (tickingIds l') :=
  (same.filter ticks).map _

theorem tickingIds_cons (l : List SubscriptionState) :
    tickingIds (subscription :: l) = tickingIds [subscription] ++ tickingIds l :=
  tickingIds_append [subscription] l

theorem tickingIds_singleton : tickingIds [subscription] =
      if ticks subscription then [subscription.subscriptionId] else [] := by
  rw [tickingIds, filter_cons, filter_nil]
  split_ifs <;> rfl

theorem tickingIds_modify (l : List SubscriptionState) (index : Nat)
    (count : SubscriptionState → Int) : tickingIds (l.modify index fun sub =>
      { sub with subscriptionThreads := count sub }) = tickingIds l := by
  induction l generalizing index with
  | nil => cases index <;> rfl
  | cons sub l ih =>
    cases index with
    | zero =>
      rw [modify_zero_cons, tickingIds_cons, tickingIds_cons sub,
        tickingIds_singleton, tickingIds_singleton]
      rfl
    | succ index =>
      rw [modify_succ_cons, tickingIds_cons, ih index, ← tickingIds_cons]

theorem tickingIds_remove {l : List SubscriptionState} {index : Nat}
    {sub : SubscriptionState} (here : l[index]? = some sub) : (tickingIds l).Perm
      (tickingIds [sub] ++ tickingIds (removeFromsubscriptionList l index)) := by
  rw [← tickingIds_append, singleton_append]
  exact tickingIds_perm (removeFromsubscriptionList_perm here)

theorem stopSubscription_table (mgr : Manager) :
    (stopSubscription subscription mgr).tickerIndexList =
      (Change.ends subscription).table mgr.tickerIndexList := by
  simp only [stopSubscription, Change.table]
  split_ifs
  · rw [deactivateInterval, release, findTicker]
    cases mgr.tickerIndexList.findIdx? (· = subscription.subscriptionId) <;> rfl
  · rfl
  · rfl

theorem added_eq_none (other : ∀ env request, event ≠ .subscribe env request) :
    added s event = none := by
  rw [added]
  intro env request _ same
  exact other env request same

theorem expired_eq_none (other : ∀ env, event ≠ .notification env) : expired s event = none := by
  rw [expired]
  intro env _ same
  exact other env same

theorem changes_kept (unadded : added s event = none) (kept : removed s event = none)
    (unexpired : expired s event = none) (table : s'.mgr.tickerIndexList = s.mgr.tickerIndexList)
    (ids : tickingIds s'.mgr.subscriptionList = tickingIds s.mgr.subscriptionList) :
    Changes (changeOf s event) s.mgr s'.mgr := by
  have none_of_them : changeOf s event = .keeps := by
    simp only [changeOf, unadded, kept, unexpired]
  rw [none_of_them]
  exact ⟨table, ids⟩

theorem lists_receivePack {clPack : CLPack} {mgr mgr' : Manager}
    (received : receivePack mgr = some (clPack, mgr')) :
    mgr'.tickerIndexList = mgr.tickerIndexList ∧ mgr'.subscriptionList = mgr.subscriptionList := by
  rw [receivePack] at received
  split at received
  · cases received
  · cases received
    exact ⟨rfl, rfl⟩

theorem changes_dispatch {env : Env} (busy : s.doing.isIdle = false)
    (table : s'.mgr.tickerIndexList = s.mgr.tickerIndexList)
    (ids : tickingIds s'.mgr.subscriptionList = tickingIds s.mgr.subscriptionList) :
    Changes (changeOf s (.proceed env)) s.mgr s'.mgr :=
  changes_kept (added_eq_none nofun) (removed_of_busy busy) (expired_eq_none nofun) table ids

theorem step_changes (taken : s.step event = some s') :
    Changes (changeOf s event) s.mgr s'.mgr := by
  cases taken_of_step taken with
  | passed _ _ _ _ loop unadded kept =>
    refine changes_kept unadded kept (expired_eq_none ?_) rfl rfl
    rintro env rfl
    cases loop
  | subscribed _ _ _ read =>
    simp only [changeOf, read]
    exact ⟨rfl, tickingIds_append _ _⟩
  | ended _ _ _ _ _ unadded gone here =>
    simp only [changeOf, unadded, gone]
    exact ⟨stopSubscription_table _ s.mgr, tickingIds_remove here⟩
  | unknown resting received missed =>
    have same := lists_receivePack received
    refine changes_kept (added_eq_none (by simp)) (removed_of_other rfl) ?_ same.1
      (congrArg tickingIds same.2)
    simp only [expired, resting, received, bind_some, missed, filter_none]
  | @counted env clPack mgr sub index resting received found here last ends =>
    have same := lists_receivePack received
    have kept : removed s (.notification env) = none := removed_of_other rfl
    have unadded : added s (.notification env) = none := added_eq_none (by simp)
    have counted : tickingIds (countDown index mgr.subscriptionList) =
        tickingIds mgr.subscriptionList := tickingIds_modify _ _ _
    simp only [changeOf, unadded, kept, expired, resting, received, bind_some, found,
      filter_some, ← ends]
    cases last with
    | false => exact ⟨same.1, counted.trans (congrArg tickingIds same.2)⟩
    | true =>
      refine ⟨same.1, ?_⟩
      have gone := @tickingIds_remove (countDown index mgr.subscriptionList) index
        { sub with subscriptionThreads := sub.subscriptionThreads - 1 }
        (by rw [countDown, getElem?_modify_eq, here, Option.map_eq_map, Option.map_some])
      rw [counted, tickingIds_singleton] at gone
      show List.Perm _ (tickingIds [sub] ++ _)
      rw [← same.2, tickingIds_singleton]
      exact gone
  | skipped _ doing | started _ _ doing | refused doing | allocated doing | launched doing =>
    exact changes_dispatch (by rw [doing]; rfl) rfl rfl
  | planned doing =>
    refine changes_dispatch (by rw [doing]; rfl) ?_ ?_
    · simp only [setSubscriptionListThreads]
      split <;> rfl
    · simp only [setSubscriptionListThreads]
      split
      · exact tickingIds_modify _ _ _
      · rfl
  | _ =>
    exact changes_kept (added_eq_none (by simp)) (removed_of_other rfl) (expired_eq_none (by simp)) rfl rfl

variable {sub : SubscriptionState}

theorem timebased_of_ticks (ticking : ticks sub = true) :
    getOpType sub.filterList "timebased" = true := by
  obtain ⟨filter, mem, both⟩ := any_eq_true.mp ticking
  exact any_eq_true.mpr ⟨filter, mem, decide_eq_true (of_decide_eq_true both).1⟩

theorem ticks_of_begins (begun : begins sub = true) : ticks sub = true := by
  rw [begins] at begun
  cases active : activation sub.filterList with
  | none =>
    rw [active] at begun
    cases begun
  | some filter =>
    rw [active, any_some] at begun
    obtain ⟨other, positive⟩ := of_decide_eq_true begun
    have kind := find?_some active
    rw [decide_eq_true_eq] at kind
    exact any_eq_true.mpr ⟨filter, mem_of_find?_eq_some active,
      decide_eq_true ⟨kind.resolve_right other, positive⟩⟩

section Slots

def mark (id : Int) : Option Int := if id = 0 then none else some id

def Tidy (s : Ticking) : Prop := s.tickers.slots = s.sessions.mgr.tickerIndexList.map mark

variable {table : List Int} {g : Goroutines} {mgr : Manager} {sub : SubscriptionState}

section

variable (tidy : g.slots = table.map mark)

include tidy

variable {slot : Nat}

theorem running_of_marks {id : Int} (entry : table[slot]? = some id) (used : id ≠ 0) :
    g.slots[slot]? = some (some id) := by
  rw [tidy, getElem?_map, entry, map_some, mark, if_neg used]

theorem entry_of_running {id : Int} (runs : g.slots[slot]? = some (some id)) :
    table[slot]? = some id ∧ id ≠ 0 := by
  rw [tidy, getElem?_map] at runs
  obtain ⟨entry, here, marked⟩ := map_eq_some_iff.mp runs
  rw [mark] at marked
  split_ifs at marked with unused
  cases marked
  exact ⟨here, unused⟩

theorem stopped_iff : g.slots[slot]? = some none ↔ table[slot]? = some 0 := by
  rw [tidy, getElem?_map]
  constructor
  · intro stopped
    obtain ⟨entry, here, marked⟩ := map_eq_some_iff.mp stopped
    rw [mark] at marked
    split_ifs at marked with unused
    rw [here, unused]
  · intro here
    rw [here]
    rfl

end

theorem tidy_adds (tidy : g.slots = mgr.tickerIndexList.map mark)
    (used : begins sub = true → sub.subscriptionId ≠ 0) :
    (g.after (.adds sub) mgr).slots =
      ((Change.adds sub).table mgr.tickerIndexList).map mark := by
  simp only [Goroutines.after, Change.table, Table.claim, findTicker]
  by_cases begun : begins sub = true
  · rw [if_pos begun, if_pos begun]
    cases mgr.tickerIndexList.findIdx? (· = 0) with
    | none => exact tidy
    | some index =>
      show g.slots.set index (some sub.subscriptionId) = _
      rw [map_set, mark, if_neg (used begun), tidy]
  · rw [if_neg begun, if_neg begun]
    exact tidy

theorem tidy_ends (tidy : g.slots = mgr.tickerIndexList.map mark) :
    (g.after (.ends sub) mgr).slots =
      ((Change.ends sub).table mgr.tickerIndexList).map mark := by
  simp only [Goroutines.after, Change.table, release, findTicker]
  split_ifs
  · cases mgr.tickerIndexList.findIdx? (· = sub.subscriptionId) with
    | none => exact tidy
    | some index =>
      show g.slots.set index none = _
      rw [map_set, tidy]
      rfl
  · exact tidy

end Slots

section Steps

/-- A subscription that ticks is added with the activated filter, a free slot, and a free id that is
not zero; one that does not tick, or goes with its curve log, leaves no ticker behind; and one with
capture threads is ended as a curve log. -/
def Change.Keeps (s : State) : Change → Prop
  | .adds subscription => ticks subscription = true →
      begins subscription = true ∧ subscription.subscriptionId ≠ 0 ∧
        0 ∈ s.mgr.tickerIndexList ∧ subscription.subscriptionId ∉ s.mgr.tickerIndexList
  | .ends subscription =>
    (getOpType subscription.filterList "timebased" = true → ticks subscription = true ∨
      subscription.subscriptionId = 0 ∨ subscription.subscriptionId ∉ s.mgr.tickerIndexList) ∧
    (captures s subscription → getOpType subscription.filterList "timebased" = false ∧
          getOpType subscription.filterList "curvelog" = true ∨
        s.mgr.closeClSubId = subscription.subscriptionId)
  | .expires subscription => ticks subscription = false
  | .keeps => True

def KeepsTickers (s : State) (event : Event) : Prop := (changeOf s event).Keeps s

instance Change.decidableKeeps (s : State) : (change : Change) → Decidable (change.Keeps s)
  | .adds subscription => inferInstanceAs (Decidable (ticks subscription = true → _))
  | .ends _ => inferInstanceAs (Decidable (_ ∧ _))
  | .expires subscription => inferInstanceAs (Decidable (ticks subscription = false))
  | .keeps => inferInstanceAs (Decidable True)

instance (s : State) (event : Event) : Decidable (KeepsTickers s event) :=
  Change.decidableKeeps s (changeOf s event)

/-- The tickers match after a step, which stops just what it should. -/
structure TickersFollow (before : Ticking) (event : Event) (after : Ticking) : Prop where
  tickers : TickersMatch after
  stops : ∀ subscription, changeOf before.sessions event = .ends subscription →
    StopsOwn before subscription after

variable {before after : Ticking} {event : Event} {sub : SubscriptionState}

theorem Change.Keeps.tidy {g : Goroutines} {change : Change} (keeps : change.Keeps s)
    (tidy : g.slots = s.mgr.tickerIndexList.map mark) :
    (g.after change s.mgr).slots = (change.table s.mgr.tickerIndexList).map mark := by
  cases change with
  | adds => exact tidy_adds tidy fun begun => (keeps (ticks_of_begins begun)).2.1
  | ends => exact tidy_ends tidy
  | expires | keeps => exact tidy

theorem tickingIds_of_ticks (ticking : ticks sub = true) :
    tickingIds [sub] = [sub.subscriptionId] := by
  rw [tickingIds_singleton, if_pos ticking]

theorem tickingIds_of_not_ticks (idle : ticks sub = false) :
    tickingIds [sub] = [] := by
  rw [tickingIds_singleton, idle]
  rfl

structure Listed (mgr : Manager) : Prop where
  once : (tickers mgr).Nodup
  exact : (tickers mgr).Perm (tickingIds mgr.subscriptionList)

theorem match_of_tidy {s : Ticking} (listed : Listed s.sessions.mgr) (tidy : Tidy s) :
    TickersMatch s :=
  ⟨listed.once, listed.exact, fun _ _ entry used => running_of_marks tidy entry used⟩

section Lists

variable {mgr mgr' : Manager} (listed : Listed mgr)

include listed

theorem Listed.of_same (same : (tickers mgr').Perm (tickers mgr))
    (ids : (tickingIds mgr.subscriptionList).Perm (tickingIds mgr'.subscriptionList)) :
    Listed mgr' :=
  ⟨same.nodup_iff.mpr listed.once, (same.trans listed.exact).trans ids⟩

theorem Listed.of_table (table : mgr'.tickerIndexList = mgr.tickerIndexList)
    (ids : (tickingIds mgr.subscriptionList).Perm (tickingIds mgr'.subscriptionList)) :
    Listed mgr' := listed.of_same (by rw [tickers, table, ← tickers]) ids

theorem Listed.adds_iff (changes : Changes (.adds sub) mgr mgr') :
    Listed mgr' ↔ (ticks sub = true → begins sub = true ∧ sub.subscriptionId ≠ 0 ∧
      0 ∈ mgr.tickerIndexList ∧ sub.subscriptionId ∉ mgr.tickerIndexList) := by
  obtain ⟨table, ids⟩ := changes
  simp only [Change.table, Change.Ids] at table ids
  constructor
  · intro follows ticking
    rw [tickingIds_of_ticks ticking] at ids
    have more : (tickers mgr').Perm (sub.subscriptionId :: tickers mgr) := by
      apply follows.exact.trans
      rw [ids]
      exact (perm_append_singleton _ _).trans (listed.exact.symm.cons _)
    have changed : mgr'.tickerIndexList ≠ mgr.tickerIndexList := by
      intro same
      have longer := more.length_eq
      rw [tickers, same, ← tickers, length_cons] at longer
      omega
    have used := (mem_entries.mp (more.mem_iff.mpr mem_cons_self)).2
    have fresh := (nodup_cons.mp (more.nodup_iff.mp follows.once)).1
    refine ⟨?_, used, ?_, fun mem => fresh (mem_entries.mpr ⟨mem, used⟩)⟩
    · by_contra idle
      exact changed (table.trans (if_neg idle))
    · by_contra full
      rw [Table.claim, Table.findIdx?_eq_none.mpr full, ite_self] at table
      exact changed table
  · intro keeps
    by_cases ticking : ticks sub = true
    · obtain ⟨begun, used, room, fresh⟩ := keeps ticking
      rw [if_pos begun] at table
      rw [tickingIds_of_ticks ticking] at ids
      have more : (tickers mgr').Perm (sub.subscriptionId :: tickers mgr) := by
        rw [tickers, table]
        exact entries_claim room used
      constructor
      · rw [more.nodup_iff, nodup_cons]
        exact ⟨fun mem => fresh (mem_entries.mp mem).1, listed.once⟩
      · rw [ids]
        exact (more.trans (listed.exact.cons _)).trans (perm_append_singleton _ _).symm
    · have idle : ¬ begins sub = true := mt ticks_of_begins ticking
      rw [if_neg idle] at table
      rw [tickingIds_of_not_ticks (by simpa using ticking), append_nil] at ids
      exact listed.of_table table (by rw [ids])

theorem Listed.ends (changes : Changes (.ends sub) mgr mgr')
    (cond : getOpType sub.filterList "timebased" = true → ticks sub = true ∨
      sub.subscriptionId = 0 ∨ sub.subscriptionId ∉ mgr.tickerIndexList) : Listed mgr' := by
  obtain ⟨table, ids⟩ := changes
  simp only [Change.table, Change.Ids] at table ids
  by_cases ticking : ticks sub = true
  · rw [if_pos (timebased_of_ticks ticking)] at table
    rw [tickingIds_of_ticks ticking, singleton_append] at ids
    have fewer : (tickers mgr').Perm ((tickers mgr).erase sub.subscriptionId) := by
      rw [tickers, table]
      exact entries_release
    constructor
    · rw [fewer.nodup_iff]
      exact listed.once.erase _
    · have rest := (listed.exact.trans ids).erase sub.subscriptionId
      rw [erase_cons_head] at rest
      exact fewer.trans rest
  · rw [tickingIds_of_not_ticks (by simpa using ticking), nil_append] at ids
    by_cases timebased : getOpType sub.filterList "timebased" = true
    · rw [if_pos timebased] at table
      refine listed.of_same ?_ ids
      rw [tickers, table]
      apply entries_release.trans
      rw [erase_of_not_mem, ← tickers]
      intro mem
      obtain ⟨entry, used⟩ := mem_entries.mp mem
      obtain ticks | zero | absent := cond timebased
      · exact ticking ticks
      · exact used zero
      · exact absent entry
    · exact listed.of_table (table.trans (if_neg timebased)) ids

theorem Listed.expires_iff (changes : Changes (.expires sub) mgr mgr') :
    Listed mgr' ↔ ticks sub = false := by
  obtain ⟨table, ids⟩ := changes
  simp only [Change.table, Change.Ids] at table ids
  constructor
  · intro follows
    by_contra ticking
    rw [tickingIds_of_ticks (by simpa using ticking)] at ids
    have before_length := listed.exact.length_eq
    have after_length := follows.exact.length_eq
    have longer := ids.length_eq
    rw [tickers, table, ← tickers] at after_length
    rw [length_append, length_singleton] at longer
    omega
  · intro idle
    rw [tickingIds_of_not_ticks idle, nil_append] at ids
    exact listed.of_table table ids

end Lists

theorem stops_ticker_iff (matched : TickersMatch before) (tidy : Tidy before)
    (after_tidy : Tidy after) (table : after.sessions.mgr.tickerIndexList =
      (Change.ends sub).table before.sessions.mgr.tickerIndexList) :
    (∀ (slot : Nat) (id : Int), before.tickers.slots[slot]? = some (some id) →
      (after.tickers.slots[slot]? = some none ↔
        ticks sub = true ∧ id = sub.subscriptionId)) ↔
      (getOpType sub.filterList "timebased" = true → ticks sub = true ∨
        sub.subscriptionId = 0 ∨
          sub.subscriptionId ∉ before.sessions.mgr.tickerIndexList) := by
  have freed : ∀ (slot : Nat) (id : Int), before.tickers.slots[slot]? = some (some id) →
      (after.tickers.slots[slot]? = some none ↔
        getOpType sub.filterList "timebased" = true ∧ id = sub.subscriptionId) := by
    intro slot id runs
    obtain ⟨entry, used⟩ := entry_of_running tidy runs
    rw [stopped_iff after_tidy, table, Change.table]
    split_ifs with timebased
    · rw [release_frees matched.once used entry]
      exact (and_iff_right timebased).symm
    · rw [entry]
      exact iff_of_false (fun zero => used (some.inj zero)) fun both => timebased both.1
  constructor
  · intro stops timebased
    by_contra none_of_them
    push Not at none_of_them
    obtain ⟨idle, used, mem⟩ := none_of_them
    obtain ⟨slot, entry⟩ := mem_iff_getElem?.mp mem
    have runs := running_of_marks tidy entry used
    exact idle ((stops slot _ runs).mp ((freed slot _ runs).mpr ⟨timebased, rfl⟩)).1
  · intro cond slot id runs
    obtain ⟨entry, used⟩ := entry_of_running tidy runs
    rw [freed slot id runs]
    refine and_congr_left ?_
    rintro rfl
    refine ⟨fun timebased => ?_, timebased_of_ticks⟩
    obtain ticking | zero | absent := cond timebased
    · exact ticking
    · exact absurd zero used
    · exact absurd (mem_of_getElem? entry) absent

theorem removed_of_ends (ends : changeOf s event = .ends sub) :
    removed s event = some sub := by
  rw [changeOf] at ends
  split at ends
  · cases ends
  · next gone =>
    cases ends
    exact gone
  · cases ends
  · cases ends

theorem stops_threads_iff (ends : changeOf s event = .ends sub)
    (close : s'.mgr.closeClSubId = (written s event).getD s.mgr.closeClSubId) :
    ((captures s sub → s'.mgr.closeClSubId = sub.subscriptionId) ∧
      (s'.mgr.closeClSubId = s.mgr.closeClSubId ∨
        s'.mgr.closeClSubId = sub.subscriptionId)) ↔ (captures s sub →
        getOpType sub.filterList "timebased" = false ∧
            getOpType sub.filterList "curvelog" = true ∨
          s.mgr.closeClSubId = sub.subscriptionId) := by
  simp only [written, removed_of_ends ends] at close
  rw [close]
  cases getOpType sub.filterList "timebased" <;>
    cases getOpType sub.filterList "curvelog" <;> simp

theorem ends_iff (matched : TickersMatch before) (tidy : Tidy before) (after_tidy : Tidy after)
    (ends : changeOf before.sessions event = .ends sub)
    (changes : Changes (.ends sub) before.sessions.mgr after.sessions.mgr)
    (close : after.sessions.mgr.closeClSubId =
      (written before.sessions event).getD before.sessions.mgr.closeClSubId) :
    TickersMatch after ∧ StopsOwn before sub after ↔
      KeepsTickers before.sessions event := by
  have slots := stops_ticker_iff matched tidy after_tidy changes.table
  have threads := stops_threads_iff ends close
  simp only [KeepsTickers, ends, Change.Keeps]
  rw [← slots, ← threads]
  constructor
  · rintro ⟨-, stops⟩
    exact ⟨stops.ticker, stops.threads, stops.others⟩
  · rintro ⟨ticker, own, others⟩
    have listed : Listed after.sessions.mgr :=
      Listed.ends ⟨matched.once, matched.exact⟩ changes (slots.mp ticker)
    exact ⟨match_of_tidy listed after_tidy, ticker, own, others⟩

theorem follow_step_iff (matched : TickersMatch before) (tidy : Tidy before)
    (taken : before.sessions.step event = some after.sessions) (goroutines : after.tickers =
      before.tickers.after (changeOf before.sessions event) before.sessions.mgr) :
    (TickersFollow before event after ↔ KeepsTickers before.sessions event) ∧
      (KeepsTickers before.sessions event → Tidy after) := by
  have changes := step_changes taken
  have listed : Listed before.sessions.mgr := ⟨matched.once, matched.exact⟩
  have tidies (keeps : KeepsTickers before.sessions event) : Tidy after := by
    rw [Tidy, goroutines, changes.table]
    exact keeps.tidy tidy
  have follow_iff (other : ∀ sub, changeOf before.sessions event ≠ .ends sub)
      (kept : Listed after.sessions.mgr ↔ KeepsTickers before.sessions event) :
      TickersFollow before event after ↔ KeepsTickers before.sessions event :=
    ⟨fun follows => kept.mp ⟨follows.tickers.once, follows.tickers.exact⟩, fun keeps =>
      ⟨match_of_tidy (kept.mpr keeps) (tidies keeps), fun _ ends => absurd ends (other _)⟩⟩
  refine ⟨?_, tidies⟩
  cases change : changeOf before.sessions event with
  | adds =>
    rw [change] at changes
    apply follow_iff (by rw [change]; nofun)
    rw [listed.adds_iff changes, KeepsTickers, change, Change.Keeps]
  | ends sub =>
    rw [change] at changes goroutines
    have after_tidy : Tidy after := by
      rw [Tidy, goroutines, changes.table]
      exact tidy_ends tidy
    rw [← ends_iff matched tidy after_tidy change changes (step_follows taken).1]
    constructor
    · intro follows
      exact ⟨follows.tickers, follows.stops sub change⟩
    · rintro ⟨tickers, stops⟩
      refine ⟨tickers, ?_⟩
      intro other same
      cases change.symm.trans same
      exact stops
  | expires =>
    rw [change] at changes
    apply follow_iff (by rw [change]; nofun)
    rw [listed.expires_iff changes, KeepsTickers, change, Change.Keeps]
  | keeps =>
    rw [change] at changes
    apply follow_iff (by rw [change]; nofun)
    rw [KeepsTickers, change]
    exact iff_of_true (listed.of_table changes.table (.of_eq (Eq.symm changes.ids))) trivial

theorem tidy_start : Tidy {} := by
  show replicate maxTickers none = (replicate maxTickers 0).map mark
  rw [map_replicate, mark, if_pos rfl]

def everySecond : Map Value := request "subscribe"
    [("path", .str "Vehicle.Speed"), ("filter", .obj [("variant", .str "timebased"),
        ("parameter", .obj [("period", .str "1000")])])]

def logAndEverySecond : Map Value := request "subscribe"
    [("path", .str "Vehicle.Speed"),
      ("filter", .arr [.obj [("variant", .str "curvelog"), ("parameter", .str [])],
        .obj [("variant", .str "timebased"), ("parameter", .obj [("period", .str "1000")])]])]

end Steps

end Vissr.ServiceMgr.Sessions
