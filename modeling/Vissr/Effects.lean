import Mathlib

/-! Programs with effects: what they have done, in order, and their result. -/

namespace Vissr

open List Option Nat

/-- The result is missing after a panic, or a wait that does not end. -/
structure Act (ε α : Type) where
  effects : List ε
  result : Option α

namespace Act

variable {ε α β : Type}

def pure (a : α) : Act ε α := ⟨[], some a⟩

variable (x : Act ε α) (f : α → Act ε β)

def bind : Act ε β :=
  match x.result with
  | some a => ⟨x.effects ++ (f a).effects, (f a).result⟩
  | none => ⟨x.effects, none⟩

instance : Monad (Act ε) where
  pure := Act.pure
  bind := Act.bind

def emit (e : ε) : Act ε Unit := ⟨[e], some ()⟩

def emitAll (es : List ε) : Act ε Unit := ⟨es, some ()⟩

def halt : Act ε α := ⟨[], none⟩

variable (a : Option α)

def await : Act ε α := ⟨[], a⟩

@[simp] theorem effects_pure (a : α) : (Pure.pure a : Act ε α).effects = [] := rfl

@[simp] theorem result_pure (a : α) : (Pure.pure a : Act ε α).result = some a := rfl

@[simp] theorem effects_emit (e : ε) : (emit e).effects = [e] := rfl

@[simp] theorem result_emit (e : ε) : (emit e).result = some () := rfl

@[simp] theorem effects_halt : (halt : Act ε α).effects = [] := rfl

@[simp] theorem effects_await : (await a : Act ε α).effects = [] := rfl

@[simp] theorem result_await : (await a : Act ε α).result = a := rfl

theorem pure_bind (a : α) (f : α → Act ε β) : (Pure.pure a : Act ε α) >>= f = f a := rfl

theorem halt_bind : (halt : Act ε α) >>= f = halt := rfl

theorem bind_of_some (a : α) (ended : x.result = some a) :
    x >>= f = ⟨x.effects ++ (f a).effects, (f a).result⟩ := by
  show x.bind f = _
  rw [Act.bind, ended]

theorem bind_of_none (stopped : x.result = none) : x >>= f = ⟨x.effects, none⟩ := by
  show x.bind f = _
  rw [Act.bind, stopped]

theorem result_bind : (x >>= f).result = x.result.bind fun a => (f a).result := by
  cases ended : x.result with
  | none => rw [bind_of_none x f ended, bind_none]
  | some a => rw [bind_of_some x f a ended, bind_some]

theorem effects_bind :
    (x >>= f).effects = x.effects ++ x.result.elim [] fun a => (f a).effects := by
  cases ended : x.result with
  | none => rw [bind_of_none x f ended, elim_none, append_nil]
  | some a => rw [bind_of_some x f a ended, elim_some]

theorem bind_assoc {γ : Type} (x : Act ε α) (f : α → Act ε β) (g : β → Act ε γ) :
    x >>= f >>= g = x >>= fun a => f a >>= g := by
  cases ended : x.result with
  | none => rw [bind_of_none x _ ended, bind_of_none x _ ended, bind_of_none _ g rfl]
  | some a =>
    rw [bind_of_some x _ a ended, bind_of_some x _ a ended]
    cases more : (f a).result with
    | none => rw [bind_of_none _ g rfl, bind_of_none (f a) g more]
    | some b =>
      rw [bind_of_some _ g b rfl, bind_of_some (f a) g b more, append_assoc]

/-- The effect happens, after those past it. -/
def Occurs (past : List ε) (e : ε) : Prop := ∃ after, x.effects = past ++ e :: after

variable {x : Act ε α} {past : List ε} {e : ε}

theorem occurs_of_effects_nil (idle : x.effects = []) : ¬ x.Occurs past e := by
  rintro ⟨after, same⟩
  rw [idle] at same
  exact append_ne_nil_of_right_ne_nil past (cons_ne_nil e after) same.symm

@[simp] theorem occurs_emit {e' : ε} : (emit e').Occurs past e ↔ past = [] ∧ e = e' := by
  constructor
  · rintro ⟨after, same⟩
    cases past with
    | nil =>
      cases same
      exact ⟨rfl, rfl⟩
    | cons d past =>
      cases past with
      | nil | cons => cases same
  · rintro ⟨rfl, rfl⟩
    exact ⟨[], rfl⟩

/-- An effect is in the first part, or in the second after all of the first. -/
theorem occurs_bind {f : α → Act ε β} (occurs : (x >>= f).Occurs past e) : x.Occurs past e ∨
      ∃ a rest, x.result = some a ∧ (f a).Occurs rest e ∧ past = x.effects ++ rest := by
  obtain ⟨after, same⟩ := occurs
  cases ended : x.result with
  | none =>
    rw [bind_of_none x f ended] at same
    exact .inl ⟨after, same⟩
  | some a =>
    rw [bind_of_some x f a ended] at same
    obtain ⟨rest, whole, tail⟩ | ⟨rest, whole, tail⟩ := append_eq_append_iff.mp same
    · exact .inr ⟨a, rest, rfl, ⟨after, tail⟩, whole⟩
    · cases rest with
      | nil =>
        rw [append_nil] at whole
        exact .inr ⟨a, [], rfl, ⟨after, tail.symm⟩, by rw [whole, append_nil]⟩
      | cons d rest =>
        injection tail with first _
        subst first
        exact .inl ⟨rest, whole⟩

theorem Occurs.first {f : α → Act ε β} (occurs : x.Occurs past e) : (x >>= f).Occurs past e := by
  obtain ⟨after, same⟩ := occurs
  exact ⟨_, by rw [effects_bind, same, append_assoc, cons_append]⟩

variable {bad : ε → Prop}

/-- No effect is of a certain kind. -/
def Avoids (x : Act ε α) (bad : ε → Prop) : Prop := ∀ e ∈ x.effects, ¬ bad e

theorem avoids_pure (a : α) : (Pure.pure a : Act ε α).Avoids bad := nofun

theorem avoids_await : (await a : Act ε α).Avoids bad := nofun

theorem avoids_halt : (halt : Act ε α).Avoids bad := nofun

theorem avoids_emit (good : ¬ bad e) : (emit e).Avoids bad := by
  intro d mem
  rw [mem_singleton.mp mem]
  exact good

theorem Avoids.bind {f : α → Act ε β} (first : x.Avoids bad) (rest : ∀ a, (f a).Avoids bad) :
    (x >>= f).Avoids bad := by
  rw [Avoids, effects_bind, forall_mem_append]
  refine ⟨first, ?_⟩
  cases x.result with
  | none => nofun
  | some a => exact rest a

theorem Avoids.not_occurs (avoids : x.Avoids bad) (occurs : x.Occurs past e) : ¬ bad e := by
  obtain ⟨after, same⟩ := occurs
  apply avoids e
  rw [same]
  exact mem_append_right past mem_cons_self

variable {p : ε → Bool}

structure Ends (x : Act ε α) (p : ε → Bool) (n : Nat) : Prop where
  ended : x.result.isSome = true
  count : x.effects.countP p = n

theorem ends_pure (a : α) : (Pure.pure a : Act ε α).Ends p 0 := ⟨rfl, rfl⟩

theorem ends_await {a : Option α} (there : a.isSome = true) : (await a : Act ε α).Ends p 0 :=
  ⟨there, rfl⟩

theorem ends_emit (counted : p e = true) : (emit e).Ends p 1 := ⟨rfl, by simp [counted]⟩

theorem ends_emit_other (other : p e = false) : (emit e).Ends p 0 := ⟨rfl, by simp [other]⟩

theorem ends_emitAll {es : List ε} (others : ∀ e ∈ es, p e = false) : (emitAll es).Ends p 0 := by
  refine ⟨rfl, countP_eq_zero.mpr ?_⟩
  intro e mem
  simp [others e mem]

variable {f : α → Act ε β} {n m : Nat}

theorem Ends.bind (first : x.Ends p n) (rest : ∀ a, x.result = some a → (f a).Ends p m) :
    (x >>= f).Ends p (n + m) := by
  obtain ⟨a, ended⟩ := isSome_iff_exists.mp first.ended
  rw [bind_of_some x f a ended]
  refine ⟨(rest a ended).ended, ?_⟩
  rw [countP_append, first.count, (rest a ended).count]

theorem Ends.silent (first : x.Ends p 0) (rest : ∀ a, x.result = some a → (f a).Ends p n) :
    (x >>= f).Ends p n := by
  have both := first.bind rest
  rwa [Nat.zero_add] at both

theorem not_ends_bind (stopped : x.result = none) : ¬ (x >>= f).Ends p n := by
  intro ends
  rw [bind_of_none x f stopped] at ends
  cases ends.ended

def AtMost (x : Act ε α) (p : ε → Bool) (n : Nat) : Prop := x.effects.countP p ≤ n

theorem Avoids.atMost (avoids : x.Avoids fun e => p e = true) : x.AtMost p 0 :=
  Nat.le_of_eq (countP_eq_zero.mpr avoids)

theorem AtMost.mono (few : x.AtMost p n) (le : n ≤ m) : x.AtMost p m := Nat.le_trans few le

theorem atMost_emit (e : ε) : (emit e).AtMost p 1 := countP_le_length

theorem AtMost.bind (first : x.AtMost p n) (rest : ∀ a, (f a).AtMost p m) :
    (x >>= f).AtMost p (n + m) := by
  rw [AtMost, effects_bind, countP_append]
  refine Nat.add_le_add first ?_
  cases x.result with
  | none => exact zero_le m
  | some a => exact rest a

structure Bounded (x : Act ε α) (bad : ε → Prop) (p : ε → Bool) (n : Nat) : Prop where
  avoids : x.Avoids bad
  atMost : x.AtMost p n

theorem bounded_pure (a : α) : (Pure.pure a : Act ε α).Bounded bad p n := ⟨nofun, zero_le n⟩

theorem bounded_emit (good : ¬ bad e) : (emit e).Bounded bad p 1 :=
  ⟨avoids_emit good, atMost_emit e⟩

theorem bounded_emitAll {es : List ε} (good : ∀ e ∈ es, ¬ bad e) :
    (emitAll es).Bounded bad p es.length := ⟨good, countP_le_length⟩

theorem Bounded.bind (first : x.Bounded bad p n) (rest : ∀ a, (f a).Bounded bad p m) :
    (x >>= f).Bounded bad p (n + m) :=
  ⟨first.avoids.bind fun a => (rest a).avoids, first.atMost.bind fun a => (rest a).atMost⟩

theorem Avoids.bounded (first : x.Avoids fun e => bad e ∨ p e = true)
    (rest : ∀ a, (f a).Bounded bad p n) : (x >>= f).Bounded bad p n := by
  have quiet : x.Bounded bad p 0 := ⟨fun e mem wrong => first e mem (.inl wrong),
      Avoids.atMost fun e mem counted => first e mem (.inr counted)⟩
  have both := quiet.bind rest
  rwa [Nat.zero_add] at both

variable {good : ε → Prop}

structure Concludes (x : Act ε α) (p : ε → Bool) (good : ε → Prop) : Prop where
  once : x.AtMost p 1
  known : ∀ e ∈ x.effects, p e = true → good e

theorem concludes_emit (holds : good e) : (emit e).Concludes p good where
  once := atMost_emit e
  known := by
    intro d mem _
    rw [mem_singleton.mp mem]
    exact holds

theorem concludes_halt : (halt : Act ε α).Concludes p good := ⟨zero_le 1, nofun⟩

theorem Avoids.concludes (quiet : x.Avoids fun e => p e = true)
    (rest : ∀ a, x.result = some a → (f a).Concludes p good) : (x >>= f).Concludes p good := by
  cases ended : x.result with
  | none =>
    rw [bind_of_none x f ended]
    exact ⟨quiet.atMost.mono (zero_le 1), fun e mem counted => absurd counted (quiet e mem)⟩
  | some a =>
    rw [bind_of_some x f a ended]
    refine ⟨?_, ?_⟩
    · rw [AtMost, countP_append, countP_eq_zero.mpr quiet, Nat.zero_add]
      exact (rest a ended).once
    · intro e mem counted
      obtain first | later := mem_append.mp mem
      · exact absurd counted (quiet e first)
      · exact (rest a ended).known e later counted

variable {good : α → Prop}

/-- What is known of the result, if there is one. -/
def Returns (x : Act ε α) (good : α → Prop) : Prop := ∀ a, x.result = some a → good a

theorem returns_pure {a : α} (holds : good a) : (Pure.pure a : Act ε α).Returns good := by
  rintro b ⟨⟩
  exact holds

theorem returns_halt : (halt : Act ε α).Returns good := nofun

theorem returns_bind {goal : β → Prop} (rest : ∀ a, x.result = some a → (f a).Returns goal) :
    (x >>= f).Returns goal := by
  intro b returned
  rw [result_bind] at returned
  obtain ⟨a, ended, back⟩ := bind_eq_some_iff.mp returned
  exact rest a ended b back

theorem Returns.bind {goal : β → Prop} (first : x.Returns good)
    (rest : ∀ a, good a → (f a).Returns goal) : (x >>= f).Returns goal :=
  returns_bind fun a ended => rest a (first a ended)

end Act

end Vissr
