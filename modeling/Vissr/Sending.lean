import Vissr.Channel
import Vissr.Process

/-! Processes that send on buffered channels. -/

namespace Vissr.Process

variable {σ ε α : Type} {capacity : Nat} {p : Process σ ε} {kind : ε → Bool}
  {c c' : Channel α capacity}

def BlockedAt (p : Process σ ε) (kind : ε → Bool) (c : Channel α capacity) : Prop :=
  p.WaitsAt (fun e => kind e = true) ∧ c.items.length = capacity
  deriving Decidable

def Fits (p : Process σ ε) (kind : ε → Bool) (c : Channel α capacity) : Prop :=
  c.items.length + p.pending.countP kind ≤ capacity
  deriving Decidable

theorem Fits.not_blockedAt (fits : p.Fits kind c) : ¬ p.BlockedAt kind c := by
  rintro ⟨⟨e, head, sends⟩, full⟩
  have counted : 0 < p.pending.countP kind :=
    List.countP_pos_iff.mpr ⟨e, List.mem_of_mem_head? head, sends⟩
  have room : c.items.length + p.pending.countP kind ≤ capacity := fits
  omega

theorem fits_handle {handler : Act ε σ} {n : Nat} (few : handler.AtMost kind n)
    (room : c.items.length + n ≤ capacity) : (p.handle handler).Fits kind c :=
  Nat.le_trans (Nat.add_le_add_left few _) room

theorem fits_handle_silent {handler : Act ε σ} (few : handler.AtMost kind 0) :
    (p.handle handler).Fits kind c := fits_handle few c.bounded

theorem Fits.advance (fits : p.Fits kind c) : p.advance.Fits kind c := by
  have less : p.pending.tail.countP kind ≤ p.pending.countP kind :=
    (List.tail_sublist p.pending).countP_le
  exact Nat.le_trans (Nat.add_le_add_left less _) fits

theorem Fits.send {a : α} {e : ε} {rest : List ε} (fits : p.Fits kind c)
    (pending : p.pending = e :: rest) (sends : kind e = true) (sent : c.send a = some c') :
    p.advance.Fits kind c' := by
  have room : c.items.length + p.pending.countP kind ≤ capacity := fits
  rw [pending, List.countP_cons_of_pos sends] at room
  simp only [Fits, Process.advance, pending, List.tail_cons, Channel.items_of_send sent,
    List.length_append, List.length_singleton]
  omega

theorem Fits.receive {a : α} (fits : p.Fits kind c) (received : c.receive = some (a, c')) :
    p.Fits kind c' := by
  have room : c.items.length + p.pending.countP kind ≤ capacity := fits
  rw [Channel.items_of_receive received, List.length_cons] at room
  simp only [Fits]
  omega

end Vissr.Process
