import DcSim.Packet
import Mathlib.Data.List.FinRange
import Mathlib.Data.Fintype.Basic
import Mathlib.Algebra.Order.Ring.Rat

/-!
The window of SIM packets of an SNS flow.

The window has one slot for each segment of the flow. A slot is free, or holds the id of
the message whose SIM was sent from it and how far that message has come. Slots are looked
up by status and by message id, always from the first slot on.
-/

namespace DcSim

inductive WindowMsgStatus | init | simSent | simAckReceived | dataSent | dataAckReceived
  deriving DecidableEq

structure WindowMsgElement where
  -- The id of a free slot is `-1`.
  time : Time
  id : ℤ
  status : WindowMsgStatus
  deriving DecidableEq

namespace WindowMsgElement

/-- A slot that is ready to send a SIM. -/
def free : WindowMsgElement := ⟨-1, -1, .init⟩

@[simp] lemma free_id : free.id = -1 := rfl
@[simp] lemma free_status : free.status = .init := rfl

end WindowMsgElement

abbrev Window (N : ℕ) := Fin N → WindowMsgElement

namespace Window

variable {N : ℕ} (w : Window N)

/-- The index of the first slot with a property, and `-1` if there is none: the loops
`for (int i = 0; i < window_size; i++) if (..) return i; return -1;`. -/
def firstSlot (p : WindowMsgElement → Prop) [DecidablePred p] : ℤ :=
  match (List.finRange N).find? fun i => p (w i) with
  | some i => (i : ℕ)
  | none => -1

/-- What an index into the array refers to; outside `[0, window_size)` it is no slot. -/
def slot? (N : ℕ) (i : ℤ) : Option (Fin N) :=
  if h : 0 ≤ i ∧ i < N then some ⟨i.toNat, by omega⟩ else none

/-- The slot at an index. Outside the window this reads memory that is not modelled. -/
def get (i : ℤ) : WindowMsgElement := ((slot? N i).map w).getD .free

/-- The window after a write to one slot. A write outside the window hits none of them. -/
def modify (i : ℤ) (g : WindowMsgElement → WindowMsgElement) : Window N :=
  match slot? N i with
  | some j => Function.update w j (g (w j))
  | none => w

/-- `drop_sim_if_timeout_pass`: a slot that still waits after `timeToWait` is freed. -/
def Expired (now timeToWait : Time) (e : WindowMsgElement) : Prop :=
  e.status ≠ .init ∧ e.status ≠ .dataAckReceived ∧ timeToWait < now - e.time

instance (now timeToWait : Time) : DecidablePred (Expired now timeToWait) := fun e => by
  unfold Expired; infer_instance

def dropExpired (now timeToWait : Time) : Window N := fun i =>
  if Expired now timeToWait (w i) then .free else w i

variable {w}

lemma slot?_eq_some {i : ℤ} {j : Fin N} : slot? N i = some j ↔ i = (j : ℕ) := by
  unfold slot?
  split_ifs with h
  · rw [Option.some_inj, Fin.ext_iff]
    simp only
    omega
  · simp only [false_iff]
    have := j.isLt
    omega

@[simp] lemma slot?_val (j : Fin N) : slot? N ((j : ℕ) : ℤ) = some j := slot?_eq_some.mpr rfl

@[simp] lemma slot?_neg : slot? N (-1) = none := by simp [slot?]

@[simp] lemma get_val (j : Fin N) : w.get ((j : ℕ) : ℤ) = w j := by simp [get]

@[simp] lemma modify_neg (g : WindowMsgElement → WindowMsgElement) : w.modify (-1) g = w := by
  simp [modify]

@[simp] lemma modify_val (j : Fin N) (g : WindowMsgElement → WindowMsgElement) :
    w.modify ((j : ℕ) : ℤ) g = Function.update w j (g (w j)) := by
  simp [modify]

lemma firstSlot_cases (p : WindowMsgElement → Prop) [DecidablePred p] :
    (∃ i : Fin N, w.firstSlot p = (i : ℕ) ∧ p (w i) ∧ ∀ j < i, ¬ p (w j)) ∨
      (w.firstSlot p = -1 ∧ ∀ i, ¬ p (w i)) := by
  unfold firstSlot
  cases h : (List.finRange N).find? fun i => p (w i) with
  | none => exact .inr ⟨rfl, by simpa using h⟩
  | some i =>
    obtain ⟨hi, as, bs, hl, hn⟩ := List.find?_eq_some_iff_append.mp h
    refine .inl ⟨i, rfl, of_decide_eq_true hi, fun j hj => ?_⟩
    have hs := List.pairwise_lt_finRange N
    rw [hl, List.pairwise_append, List.pairwise_cons] at hs
    rcases List.mem_append.mp (hl ▸ List.mem_finRange j) with hm | hm
    · simpa using hn j hm
    · rcases List.mem_cons.mp hm with rfl | hm
      · exact absurd hj (lt_irrefl _)
      · exact absurd hj (hs.2.1.1 j hm).not_gt

end Window

end DcSim
