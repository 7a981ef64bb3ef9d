import Vissr.AtServer.Authenticity

/-! The ticker that has the lists of the access token server purged. -/

namespace Vissr.AtServer

open Json Token List Option

def expiryAt (seconds : Int) : Int := (unixTime seconds - unixToInternal) * 10 ^ 9

/-- `10 * 8760 * time.Hour`. -/
def tenYears : Int := 10 * 8760 * 3600 * 10 ^ 9

def PendingListElem.expiry (elem : PendingListElem) : Option Str :=
  if elem.gatingId = -1 then none else some elem.agtExpiryTime

def ActiveListElem.expiry (elem : ActiveListElem) : Option Str :=
  if elem.gatingId = -1 then none else some elem.atExpiryTime

def expiryTimes (state : State) : List Str :=
  state.pendingList.elems.filterMap (·.expiry) ++ state.activeList.elems.filterMap (·.expiry)

/-- One turn of a loop; nothing is an expiry time that cannot be read. -/
def earlier (minExpiry : Int × Bool) (listExpiryStr : Str) : Option (Int × Bool) :=
  (atoi listExpiryStr).map fun listExpiry =>
    if expiryAt listExpiry < minExpiry.1 then (expiryAt listExpiry, true) else minExpiry

structure Ticker where
  reset : Int
  period : Int
  deriving DecidableEq

/-- The clock is read at the start and at the end. -/
def setExpiryTicker (start stop : Int) (state : State) (ticker : Option Ticker) : Option Ticker :=
  match (expiryTimes state).foldlM earlier (start + tenYears, false) with
  | none => ticker
  | some (minExpiry, isUpdated) =>
    let tickerValue := minExpiry - stop
    if tickerValue > 0 ∧ isUpdated then some ⟨stop, tickerValue⟩ else none

/-- A reply, a cancellation or an inquiry removes an entry. -/
inductive ListOp where
  | writeToPendingList (gatingId : Int) (payload : AtGenPayload)
  | writeToActiveList (gatingId : Int) (token : Str)
  | remove (place : Fin listSize ⊕ Fin listSize)
  | purgeLists

variable (config : Config)

def ListOp.run (now : Int) (state : State) : ListOp → State × Bool
  | .writeToPendingList gatingId payload =>
    (AtServer.writeToPendingList config gatingId payload state,
      (state.pendingList.first fun elem => elem.gatingId = -1).isSome)
  | .writeToActiveList gatingId token =>
    (AtServer.writeToActiveList config gatingId token state,
      (state.activeList.first fun elem => elem.gatingId = -1).isSome)
  | .remove (.inl i) => (removeFromPendingList i state, false)
  | .remove (.inr i) => (removeFromActiveList i state, false)
  | .purgeLists =>
    ((AtServer.purgeLists (clockAt now) state).1,
      match findExpired (·.gatingId) (·.agtExpiryTime) (clockAt now) state.pendingList,
        findExpired (·.gatingId) (·.atExpiryTime) (clockAt now) state.activeList with
      | .expired _, _ => true
      | .nothing, .expired _ => true
      | _, _ => false)

structure ListEvent where
  op : ListOp
  now : Int
  start : Int
  stop : Int

structure TickerState where
  lists : State
  ticker : Option Ticker
  clock : Int

/-- The output says whether the ticker was set. -/
def tickerMachine : Machine TickerState ListEvent Bool where
  init s := Initial s.lists ∧ s.ticker = some ⟨s.clock, 24 * 3600 * 10 ^ 9⟩
  step s e :=
    if s.clock ≤ e.now ∧ e.now ≤ e.start ∧ e.start ≤ e.stop then
      let after := e.op.run config e.now s.lists
      some ({ lists := after.1, clock := e.stop,
              ticker := if after.2 then setExpiryTicker e.start e.stop after.1 s.ticker
                else s.ticker }, after.2)
    else none

variable (t : Transition TickerState ListEvent Bool)

/-- The ticker fires before any entry expires, or at once if one has. -/
def Armed : Prop := t.output = true → expiryTimes t.after.lists ≠ [] →
    ∃ ticker ∈ t.after.ticker, ∀ text ∈ expiryTimes t.after.lists, ∀ seconds ∈ atoi text,
      ticker.reset + ticker.period ≤ max (expiryAt seconds) t.event.stop

def ListOp.entry : ListOp → Option Str
  | .writeToPendingList gatingId payload =>
    if gatingId = -1 then none else some (extractFromToken config.crypto payload.token "exp")
  | .writeToActiveList gatingId token =>
    if gatingId = -1 then none else some (extractFromToken config.crypto token "exp")
  | _ => none

def Timely (clock : Int) (text : Str) : Prop :=
  ∃ seconds ∈ atoi text, expiryAt seconds < clock + tenYears
  deriving Decidable

def WritesTimely : Prop := ∀ text ∈ t.event.op.entry config, Timely t.event.start text
  deriving Decidable

def Lapsed (clock : Int) (text : Str) : Prop := ∃ seconds ∈ atoi text, expiryAt seconds ≤ clock
  deriving Decidable

/-- When the ticker is set, no entry on the lists has expired. -/
def NoneStranded : Prop :=
  let lists := t.event.op.run config t.event.now t.before.lists
  lists.2 = true → ∀ text ∈ expiryTimes lists.1, ¬ Lapsed t.event.stop text
  deriving Decidable

theorem scan_earlier {texts : List Str} (readable : ∀ text ∈ texts, (atoi text).isSome = true)
    (minExpiry : Int × Bool) : ∃ first, texts.foldlM earlier minExpiry = some first ∧
      first.1 ≤ minExpiry.1 ∧ (∀ text ∈ texts, ∀ seconds ∈ atoi text, first.1 ≤ expiryAt seconds) ∧
      (first = minExpiry ∨
        first.2 = true ∧ ∃ text ∈ texts, ∃ seconds ∈ atoi text, first.1 = expiryAt seconds) := by
  induction texts generalizing minExpiry with
  | nil => exact ⟨minExpiry, rfl, Int.le_refl _, nofun, .inl rfl⟩
  | cons text texts ih =>
    obtain ⟨⟨seconds, read⟩, rest⟩ := (forall_mem_cons.mp readable).imp_left
      isSome_iff_exists.mp
    obtain ⟨first, scanned, below, least, origin⟩ := ih rest
      (if expiryAt seconds < minExpiry.1 then (expiryAt seconds, true) else minExpiry)
    have next : (text :: texts).foldlM earlier minExpiry = some first := by
      rw [foldlM_cons, earlier, read]
      exact scanned
    refine ⟨first, next, ?_, ?_, ?_⟩
    · split_ifs at below <;> omega
    · refine forall_mem_cons.mpr ⟨?_, least⟩
      intro other same
      cases read.symm.trans same
      split_ifs at below
      · exact below
      · omega
    · obtain same | ⟨updated, other, mem, found⟩ := origin
      · split_ifs at same
        · exact .inr ⟨by rw [same], text, mem_cons_self, seconds, read, by rw [same]⟩
        · exact .inl same
      · exact .inr ⟨updated, other, mem_cons_of_mem _ mem, found⟩

theorem setExpiryTicker_armed_iff {start stop : Int} {state : State} {ticker : Option Ticker}
    (timely : ∀ text ∈ expiryTimes state, Timely start text) :
    (expiryTimes state ≠ [] → ∃ set ∈ setExpiryTicker start stop state ticker,
      ∀ text ∈ expiryTimes state, ∀ seconds ∈ atoi text,
        set.reset + set.period ≤ max (expiryAt seconds) stop) ↔
      ∀ text ∈ expiryTimes state, ¬ Lapsed stop text := by
  have readable : ∀ text ∈ expiryTimes state, (atoi text).isSome = true := by
    intro text mem
    obtain ⟨seconds, read, -⟩ := timely text mem
    rw [read]
    rfl
  obtain ⟨first, scanned, -, least, origin⟩ := scan_earlier readable (start + tenYears, false)
  simp only [setExpiryTicker, scanned]
  by_cases empty : expiryTimes state = []
  · rw [empty]
    exact iff_of_true (fun nonempty => absurd rfl nonempty) nofun
  · obtain ⟨some, mem⟩ := exists_mem_of_ne_nil _ empty
    obtain ⟨seconds, read, near⟩ := timely some mem
    have lower := least some mem seconds read
    obtain bound | ⟨updated, text, there, earliest, reads, same⟩ := origin
    · rw [bound] at lower
      exact absurd near (Int.not_lt.mpr lower)
    · by_cases late : stop < first.1
      · apply iff_of_true
        · intro _
          refine ⟨⟨stop, first.1 - stop⟩, ?_, ?_⟩
          · rw [if_pos ⟨by omega, updated⟩]
            rfl
          · intro other listed seconds known
            have above := least other listed seconds known
            simp only
            omega
        · rintro other listed ⟨seconds, known, passed⟩
          have above := least other listed seconds known
          omega
      · apply iff_of_false
        · intro armed
          obtain ⟨set, there, -⟩ := armed empty
          rw [if_neg (fun both => late (by omega))] at there
          cases there
        · intro fresh
          exact fresh text there ⟨earliest, reads, by omega⟩

variable {config : Config} {state : State} {text : Str}

theorem mem_of_set {α : Type} {s : Slots α listSize} {i : Fin listSize} {a : α}
    {expiry : α → Option Str} (mem : text ∈ (s.set i a).elems.filterMap expiry) :
    text ∈ s.elems.filterMap expiry ∨ expiry a = some text := by
  obtain ⟨elem, there, same⟩ := mem_filterMap.mp mem
  obtain kept | new := mem_or_eq_of_mem_set there
  · exact .inl (mem_filterMap.mpr ⟨elem, kept, same⟩)
  · exact .inr (new ▸ same)

theorem mem_of_pending {i : Fin listSize} {elem : PendingListElem}
    (mem : text ∈ expiryTimes { state with pendingList := state.pendingList.set i elem }) :
    text ∈ expiryTimes state ∨ elem.expiry = some text := by
  obtain pending | active := mem_append.mp mem
  · exact (mem_of_set pending).imp_left (mem_append_left _)
  · exact .inl (mem_append_right _ active)

theorem mem_of_active {i : Fin listSize} {elem : ActiveListElem}
    (mem : text ∈ expiryTimes { state with activeList := state.activeList.set i elem }) :
    text ∈ expiryTimes state ∨ elem.expiry = some text := by
  obtain pending | active := mem_append.mp mem
  · exact .inl (mem_append_left _ pending)
  · exact (mem_of_set active).imp_left (mem_append_right _)

theorem ListOp.mem_run {now : Int} {op : ListOp}
    (mem : text ∈ expiryTimes (op.run config now state).1) :
    text ∈ expiryTimes state ∨ op.entry config = some text := by
  cases op with
  | writeToPendingList =>
    simp only [run, AtServer.writeToPendingList] at mem
    split at mem
    · exact mem_of_pending mem
    · exact .inl mem
  | writeToActiveList =>
    simp only [run, AtServer.writeToActiveList] at mem
    split at mem
    · exact mem_of_active mem
    · exact .inl mem
  | remove place =>
    cases place with
    | inl => exact .inl ((mem_of_pending mem).resolve_right nofun)
    | inr => exact .inl ((mem_of_active mem).resolve_right nofun)
  | purgeLists =>
    simp only [run, AtServer.purgeLists] at mem
    split at mem
    · exact .inl mem
    · exact .inl ((mem_of_pending mem).resolve_right nofun)
    · split at mem
      · exact .inl ((mem_of_active mem).resolve_right nofun)
      · exact .inl mem

def EntriesTimely (s : TickerState) : Prop := ∀ text ∈ expiryTimes s.lists, Timely s.clock text

theorem Timely.later {clock clock' : Int} (well : Timely clock text)
    (le : clock ≤ clock') : Timely clock' text := by
  obtain ⟨seconds, read, near⟩ := well
  exact ⟨seconds, read, by omega⟩

theorem armed_step {t : Transition TickerState ListEvent Bool} (well : EntriesTimely t.before)
    (written : WritesTimely config t)
    (taken : (tickerMachine config).step t.before t.event = some (t.after, t.output)) :
    (Armed t ↔ NoneStranded config t) ∧ EntriesTimely t.after := by
  obtain ⟨before, event, after, output⟩ := t
  simp only [tickerMachine, ite_none_right_eq_some, some.injEq, Prod.mk.injEq]
    at taken
  obtain ⟨⟨later, next, last⟩, rfl, rfl⟩ := taken
  have all : ∀ text ∈ expiryTimes (event.op.run config event.now before.lists).1,
      Timely event.start text := by
    intro text mem
    obtain held | new := ListOp.mem_run mem
    · exact (well text held).later (Int.le_trans later next)
    · exact written text new
  refine ⟨?_, fun text mem => (all text mem).later last⟩
  apply forall_congr'
  intro sets
  have set : (event.op.run config event.now before.lists).2 = true := sets
  simp only [set, if_true]
  exact setExpiryTicker_armed_iff all

/-- The ticker is armed whenever it is set, just in case no entry has expired by then. -/
theorem expiry_ticker_armed_iff (config : Config) {history : History TickerState ListEvent Bool}
    {s : TickerState} (run : Run (tickerMachine config) anyStep history s)
    (written : ∀ t ∈ history, WritesTimely config t) :
    (∀ t ∈ history, Armed t) ↔ ∀ t ∈ history, NoneStranded config t := by
  have both := Run.forall_iff EntriesTimely
    (p := fun t => WritesTimely config t ∧ Armed t)
    (q := fun t => WritesTimely config t ∧ NoneStranded config t)
    (fun s begins => by
      intro text member
      rw [expiryTimes, begins.1.1, begins.1.2.1] at member
      simp [Slots.replicate, PendingListElem.expiry, ActiveListElem.expiry] at member)
    (fun t well taken =>
      ⟨and_congr_right fun written => (armed_step well written taken).1,
        fun both => (armed_step well both.1 taken).2⟩) run
  constructor
  · intro armed t member
    exact (both.mp (fun t member => ⟨written t member, armed t member⟩) t member).2
  · intro none t member
    exact (both.mpr (fun t member => ⟨written t member, none t member⟩) t member).2

def writeSession (gatingId now : Int) : ListEvent :=
  ⟨.writeToPendingList gatingId { token := sampleAgt }, now, now, now⟩

def emptyLists : TickerState := ⟨sampleState, some ⟨0, 24 * 3600 * 10 ^ 9⟩, 0⟩

theorem emptyLists_init : (tickerMachine sampleConfig).init emptyLists := ⟨sampleState_initial, rfl⟩

theorem expiry_ticker_armed_session : ∃ history s,
    Run (tickerMachine sampleConfig) anyStep history s ∧ (expiryTimes s.lists).length = 2 ∧
      ∀ t ∈ history, Armed t := by
  rcases Run.of_exec (tickerMachine sampleConfig) emptyLists emptyLists_init
    [writeSession 7 0, writeSession 8 1]
    (fun history s => (expiryTimes s.lists).length = 2 ∧
      (∀ t ∈ history, WritesTimely sampleConfig t) ∧ ∀ t ∈ history, NoneStranded sampleConfig t)
    (by decide +kernel) with ⟨history, s, run, two, written, none⟩
  exact ⟨history, s, run, two, (expiry_ticker_armed_iff sampleConfig run written).mpr none⟩

/-- Of two sessions that expire together one is purged, and the ticker stops. -/
theorem expired_session_stranded : ∃ history s, Run (tickerMachine sampleConfig) anyStep history s ∧
      (∀ t ∈ history, WritesTimely sampleConfig t) ∧ ¬ ∀ t ∈ history, Armed t := by
  obtain ⟨history, s, run, checked⟩ := Run.of_exec (tickerMachine sampleConfig) emptyLists
    emptyLists_init [writeSession 7 0, writeSession 8 0,
      ⟨.purgeLists, 99001 * 10 ^ 9, 99001 * 10 ^ 9, 99001 * 10 ^ 9⟩]
    (fun history _ => (∀ t ∈ history, WritesTimely sampleConfig t) ∧
      ∃ t ∈ history, t.output = true ∧ expiryTimes t.after.lists ≠ [] ∧ t.after.ticker = none)
    (by decide +kernel)
  obtain ⟨written, t, member, sets, entries, stopped⟩ := checked
  refine ⟨history, s, run, written, ?_⟩
  intro armed
  obtain ⟨ticker, set, -⟩ := armed t member sets entries
  rw [stopped] at set
  cases set

end Vissr.AtServer
