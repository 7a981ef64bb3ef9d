import Vissr.Effects

/-! Processes whose effects are seen by others one at a time. -/

namespace Vissr

/-- A process between two of its effects. -/
structure Process (σ ε : Type) where
  state : σ
  /-- what is still to be done for the event that is handled -/
  pending : List ε := []
  /-- the process does not come to the end of the event -/
  stopped : Bool := false

namespace Process

variable {σ ε : Type} {bad : ε → Prop} (p : Process σ ε)

def resting : Bool := p.pending.isEmpty && !p.stopped

/-- What the handler decides is done at once, its effects are to come. -/
def handle (handler : Act ε σ) : Process σ ε where
  state := handler.result.getD p.state
  pending := handler.effects
  stopped := handler.result.isNone

def advance : Process σ ε := { p with pending := p.pending.tail }

def WaitsAt (bad : ε → Prop) : Prop := ∃ e ∈ p.pending.head?, bad e

def Clear (bad : ε → Prop) : Prop := ∀ e ∈ p.pending, ¬ bad e

instance (p : Process σ ε) [DecidablePred bad] : Decidable (p.WaitsAt bad) :=
  inferInstanceAs (Decidable (∃ e ∈ p.pending.head?, bad e))

variable {p : Process σ ε}

theorem clear_handle {handler : Act ε σ} (avoids : handler.Avoids bad) :
    (p.handle handler).Clear bad := avoids

theorem Clear.advance (clear : p.Clear bad) : p.advance.Clear bad := by
  intro e mem
  exact clear e (List.mem_of_mem_tail mem)

theorem Clear.not_waitsAt (clear : p.Clear bad) : ¬ p.WaitsAt bad := by
  rintro ⟨e, head, kind⟩
  exact clear e (List.mem_of_mem_head? head) kind

theorem WaitsAt.not_resting (waits : p.WaitsAt bad) : p.resting = false := by
  obtain ⟨e, head, -⟩ := waits
  cases pending : p.pending with
  | nil =>
    rw [pending] at head
    cases head
  | cons =>
    unfold resting
    rw [pending]
    rfl

end Process

end Vissr
