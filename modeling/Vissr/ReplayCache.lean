import Vissr.Run

/-! Caches that remember the key of a token until a timer takes it out. -/

namespace Vissr.ReplayCache

open List

variable {σ τ κ : Type}

/-- How tokens are checked against a cache. -/
structure Guard (σ τ κ : Type) where
  key : τ → κ
  /-- the cache afterwards and whether the token is accepted -/
  call : Int → τ → σ → σ × Bool
  /-- whether the call puts the key in and starts a timer -/
  inserts : τ → σ → Bool
  delete : κ → σ → σ
  /-- the least time a key is kept -/
  wait : Int

/-- A cache, the timers with the earliest time they can fire, and the clock. -/
structure Timed (σ κ : Type) where
  cache : σ
  timers : List (κ × Int) := []
  clock : Int

inductive Event (τ : Type) where
  | call (now : Int) (token : τ)
  | fires (now : Int) (timer : Nat)

/-- The clock does not go back, and a timer does not fire too early. -/
def Guard.step (guard : Guard σ τ κ) (s : Timed σ κ) : Event τ → Option (Timed σ κ × Bool)
  | .call now token =>
    if s.clock ≤ now then
      some ({ cache := (guard.call now token s.cache).1
              timers :=
                if guard.inserts token s.cache then (guard.key token, now + guard.wait) :: s.timers
                else s.timers
              clock := now }, (guard.call now token s.cache).2)
    else none
  | .fires now timer =>
    match s.timers[timer]? with
    | some (key, due) =>
      if s.clock ≤ now ∧ due ≤ now then
        some (⟨guard.delete key s.cache, s.timers.eraseIdx timer, now⟩, false)
      else none
    | none => none

def Guard.machine (guard : Guard σ τ κ) (empty : σ) : Machine (Timed σ κ) (Event τ) Bool :=
  ⟨fun s => s.cache = empty ∧ s.timers = [], guard.step⟩

abbrev Calls (σ τ κ : Type) := History (Timed σ κ) (Event τ) Bool

def Accepted (t : Transition (Timed σ κ) (Event τ) Bool) (now : Int) (token : τ) : Prop :=
  t.event = .call now token ∧ t.output = true

def NoReplay (same : τ → τ → Prop) (history : Calls σ τ κ) : Prop :=
  history.Pairwise fun later earlier => ∀ now token past used,
    Accepted later now token → Accepted earlier past used → ¬ same token used

/-- What a call does to the keys a cache holds. -/
structure Guard.Keeps (guard : Guard σ τ κ) (holds : κ → σ → Prop) (now : Int) (token : τ) (s : σ) :
    Prop where
  accepted : (guard.call now token s).2 = true → guard.inserts token s = true
  fresh : guard.inserts token s = true → ¬ holds (guard.key token) s
  stored : ∀ k, holds k (guard.call now token s).1 ↔
    guard.inserts token s = true ∧ k = guard.key token ∨ holds k s

/-- Every key that is held has one timer, and that of an accepted token is there until it is
due. -/
structure Guard.Inv (guard : Guard σ τ κ) (holds : κ → σ → Prop) (history : Calls σ τ κ)
    (s : Timed σ κ) : Prop where
  nodup : (s.timers.map Prod.fst).Nodup
  tracked : ∀ k, holds k s.cache ↔ k ∈ s.timers.map Prod.fst
  recent : ∀ t ∈ history, ∀ now token, Accepted t now token →
    (∃ c, (guard.call now token c).2 = true) ∧
      ((guard.key token, now + guard.wait) ∈ s.timers ∨ now + guard.wait ≤ s.clock)

variable {guard : Guard σ τ κ} {holds : κ → σ → Prop} {history : Calls σ τ κ} {s after : Timed σ κ}
  {output : Bool}

theorem Guard.step_call {now : Int} {token : τ}
    (taken : guard.step s (.call now token) = some (after, output)) :
    s.clock ≤ now ∧ output = (guard.call now token s.cache).2 ∧ after =
      { cache := (guard.call now token s.cache).1
        timers :=
          if guard.inserts token s.cache then (guard.key token, now + guard.wait) :: s.timers
          else s.timers
        clock := now } := by
  rw [Guard.step] at taken
  split at taken
  · next later =>
    cases taken
    exact ⟨later, rfl, rfl⟩
  · cases taken

theorem Guard.run_call {empty : σ}
    {ok : Calls σ τ κ → Transition (Timed σ κ) (Event τ) Bool → Prop}
    (run : Run (guard.machine empty) ok history s) {now : Int} (later : s.clock ≤ now) (token : τ)
    (allowed : ∀ after, ok history ⟨s, .call now token, after, (guard.call now token s.cache).2⟩) :
    ∃ after, after.clock = now ∧ after.cache = (guard.call now token s.cache).1 ∧
      Run (guard.machine empty) ok
        (⟨s, .call now token, after, (guard.call now token s.cache).2⟩ :: history) after := by
  obtain ⟨after, taken, clock, cache⟩ : ∃ after,
      guard.step s (.call now token) = some (after, (guard.call now token s.cache).2) ∧
        after.clock = now ∧ after.cache = (guard.call now token s.cache).1 :=
    ⟨_, if_pos later, rfl, rfl⟩
  exact ⟨after, clock, cache, .step (t := ⟨s, _, after, _⟩) run taken (allowed after)⟩

theorem Guard.Inv.call {now : Int} {token : τ} (inv : guard.Inv holds history s)
    (keeps : guard.Keeps holds now token s.cache)
    (taken : guard.step s (.call now token) = some (after, output)) :
    guard.Inv holds (⟨s, .call now token, after, output⟩ :: history) after := by
  obtain ⟨later, rfl, rfl⟩ := Guard.step_call taken
  by_cases inserted : guard.inserts token s.cache = true
  · simp only [inserted, if_true]
    refine ⟨?_, ?_, forall_mem_cons.mpr ⟨?_, ?_⟩⟩
    · exact nodup_cons.mpr ⟨fun known => keeps.fresh inserted ((inv.tracked _).mpr known),
        inv.nodup⟩
    · intro k
      rw [keeps.stored, inv.tracked]
      simp [inserted]
    · rintro past used ⟨⟨⟩, accepted⟩
      exact ⟨⟨s.cache, accepted⟩, .inl mem_cons_self⟩
    · intro t mem past used accepted
      refine (inv.recent t mem past used accepted).imp_right ?_
      rintro (kept | due)
      · exact .inl (mem_cons_of_mem _ kept)
      · exact .inr (Int.le_trans due later)
  · simp only [inserted]
    refine ⟨inv.nodup, ?_, forall_mem_cons.mpr ⟨?_, ?_⟩⟩
    · intro k
      rw [keeps.stored, inv.tracked]
      simp [inserted]
    · rintro past used ⟨⟨⟩, accepted⟩
      exact absurd (keeps.accepted accepted) inserted
    · intro t mem past used accepted
      exact (inv.recent t mem past used accepted).imp_right
        fun kept => kept.imp_right fun due => Int.le_trans due later

theorem Guard.Inv.fires [DecidableEq κ] {now : Int} {timer : Nat}
    (deleted : ∀ k key c, holds k (guard.delete key c) ↔ k ≠ key ∧ holds k c)
    (inv : guard.Inv holds history s)
    (taken : guard.step s (.fires now timer) = some (after, output)) :
    guard.Inv holds (⟨s, .fires now timer, after, output⟩ :: history) after := by
  rw [Guard.step] at taken
  split at taken
  · next key due entry =>
    split_ifs at taken with fired
    cases taken
    obtain ⟨below, here⟩ := List.getElem?_eq_some_iff.mp entry
    have left : (s.timers.eraseIdx timer).map Prod.fst = (s.timers.map Prod.fst).erase key := by
      have place : timer < (s.timers.map Prod.fst).length := by rwa [length_map]
      have found : (s.timers.map Prod.fst)[timer] = key := by rw [getElem_map, here]
      rw [← eraseIdx_map, ← found, inv.nodup.erase_getElem timer place]
    refine ⟨?_, ?_, ?_⟩
    · rw [left]
      exact inv.nodup.erase _
    · intro k
      rw [deleted, inv.tracked, left, inv.nodup.mem_erase_iff]
    · refine forall_mem_cons.mpr ⟨?_, ?_⟩
      · rintro past used ⟨⟨⟩, -⟩
      · intro t mem past used accepted
        refine (inv.recent t mem past used accepted).imp_right ?_
        rintro (kept | late)
        · obtain ⟨i, place⟩ := mem_iff_getElem?.mp kept
          by_cases same : i = timer
          · rw [same, entry] at place
            cases place
            exact .inr fired.2
          · exact .inl (mem_eraseIdx_iff_getElem?.mpr ⟨i, same, place⟩)
        · exact .inr (Int.le_trans late fired.1)
  · cases taken

theorem Guard.no_replay [DecidableEq κ] {empty : σ} {same : τ → τ → Prop}
    (start : ∀ k, ¬ holds k empty)
    (deleted : ∀ k key c, holds k (guard.delete key c) ↔ k ≠ key ∧ holds k c)
    (keyed : ∀ a b, same a b → guard.key a = guard.key b)
    (window : ∀ now past a b c d, (guard.call now a c).2 = true →
      (guard.call past b d).2 = true → same a b → now < past + guard.wait)
    {ok : Calls σ τ κ → Transition (Timed σ κ) (Event τ) Bool → Prop}
    (keeps : ∀ history t now token, ok history t → t.event = .call now token →
      guard.Keeps holds now token t.before.cache)
    (run : Run (guard.machine empty) ok history s) : NoReplay same history := by
  suffices both : guard.Inv holds history s ∧ NoReplay same history from both.2
  refine run.invariant (fun history s => guard.Inv holds history s ∧ NoReplay same history) ?_ ?_
  · rintro s ⟨rfl, timers⟩
    refine ⟨⟨?_, ?_, nofun⟩, .nil⟩
    · rw [timers]
      exact nodup_nil
    · intro k
      rw [timers]
      exact iff_of_false (start k) not_mem_nil
  · rintro history ⟨before, event, after, output⟩ ⟨inv, apart⟩ taken allowed
    change guard.step before event = some (after, output) at taken
    cases event with
    | fires now =>
      refine ⟨inv.fires deleted taken, pairwise_cons.mpr ⟨?_, apart⟩⟩
      rintro t mem now token past used ⟨⟨⟩, -⟩
    | call now token =>
      have kept := keeps _ _ now token allowed rfl
      refine ⟨inv.call kept taken, pairwise_cons.mpr ⟨?_, apart⟩⟩
      rintro t mem now token past used ⟨⟨⟩, accepted⟩ earlier alike
      obtain ⟨later, rfl, -⟩ := Guard.step_call taken
      obtain ⟨⟨c, before⟩, there | due⟩ := inv.recent t mem past used earlier
      · apply kept.fresh (kept.accepted accepted)
        rw [inv.tracked, keyed _ _ alike]
        exact mem_map_of_mem there
      · have soon := window _ _ _ _ _ _ accepted before alike
        exact absurd (Int.le_trans due later) (Int.not_le.mpr soon)

end Vissr.ReplayCache
