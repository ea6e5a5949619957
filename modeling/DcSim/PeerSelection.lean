import DcSim.Runs
import Mathlib.Data.Finset.Card

/-!
The peers of incast and outcast traffic.

A host draws peers until it has as many as it should have. The loops for the senders of an incast
and for the receivers of an outcast differ in a test: the first adds a peer that it does not have
yet, the second one that it has already. So the second never adds any, and does not end.
-/

namespace DcSim.PeerSelection

open Runs

inductive TM
  | incast
  | outcast
  deriving DecidableEq

structure Spec where
  -- Host 0 draws for an incast.
  n : ℕ
  degree : ℕ
  host : ℕ

structure Loop where
  -- `target_srcs` or `dst`, and whether the loop was left.
  peers : Finset ℕ
  left : Bool
  deriving DecidableEq

variable (tm : TM) (σ : Spec)

def test (peers : Finset ℕ) (j : ℕ) : Prop :=
  match tm with
  | .incast => j ∉ peers
  | .outcast => j ∈ peers

instance (peers : Finset ℕ) (j : ℕ) : Decidable (test tm peers j) := by
  cases tm <;> unfold test <;> infer_instance

/-- A turn of the loop, by what `rand` returns. -/
def turn (s : Loop) (rand : ℕ) : Option Loop :=
  let j := rand % σ.n
  if s.left then none
  else if j = σ.host then some s
  else if test tm s.peers j ∧ s.peers.card < σ.degree then
    some { s with peers := insert j s.peers }
  else if s.peers.card = σ.degree then some { s with left := true }
  else some s

def machine : Machine Loop ℕ := ⟨⟨∅, false⟩, turn tm σ⟩

/-- The draw adds a peer or leaves the loop. -/
def Moves (s : Loop) (rand : ℕ) : Prop :=
  ∃ t, turn tm σ s rand = some t ∧ (s.peers.card < t.peers.card ∨ t.left = true)

structure Peers (s : Loop) : Prop where
  card_le : s.peers.card ≤ σ.degree
  other : ∀ j ∈ s.peers, j < σ.n ∧ j ≠ σ.host
  all : s.left = true → s.peers.card = σ.degree

/-- **A good state of the loop**, in which some draw goes on. -/
structure Good (s : Loop) : Prop extends Peers σ s where
  moves : s.left = false → ∃ rand, Moves tm σ s rand

variable {tm σ} {s t : Loop} {rand : ℕ}

lemma turn_cases (h : turn tm σ s rand = some t) : s.left = false ∧
    (t = s ∨
      (rand % σ.n ≠ σ.host ∧ test tm s.peers (rand % σ.n) ∧ s.peers.card < σ.degree ∧
        t = { s with peers := insert (rand % σ.n) s.peers }) ∨
      (s.peers.card = σ.degree ∧ t = { s with left := true })) := by
  unfold turn at h
  dsimp only at h
  split_ifs at h with hleft hself htest hfull
  · exact ⟨by simpa using hleft, .inl (Option.some.inj h).symm⟩
  · exact ⟨by simpa using hleft, .inr (.inl ⟨hself, htest.1, htest.2, (Option.some.inj h).symm⟩)⟩
  · exact ⟨by simpa using hleft, .inr (.inr ⟨hfull, (Option.some.inj h).symm⟩)⟩
  · exact ⟨by simpa using hleft, .inl (Option.some.inj h).symm⟩

lemma Peers.turn (hn : 0 < σ.n) (hs : Peers σ s) (h : turn tm σ s rand = some t) : Peers σ t := by
  obtain ⟨hleft, rfl | ⟨hself, -, hlt, rfl⟩ | ⟨hfull, rfl⟩⟩ := turn_cases h
  · exact hs
  · refine ⟨(Finset.card_insert_le _ _).trans hlt, fun j hj => ?_, fun hl => ?_⟩
    · rcases Finset.mem_insert.1 hj with rfl | hj
      · exact ⟨Nat.mod_lt _ hn, hself⟩
      · exact hs.other j hj
    · exact absurd (hleft.symm.trans hl) Bool.noConfusion
  · exact ⟨hs.card_le, hs.other, fun _ => hfull⟩

lemma Peers.reach (hn : 0 < σ.n) (hs : Reach (machine tm σ) s) : Peers σ s :=
  hs.inv ⟨Nat.zero_le _, fun j hj => absurd hj (Finset.notMem_empty j), nofun⟩
    fun _ hp h => hp.turn hn h

lemma Peers.moves (hs : Peers σ s) (hpos : 1 ≤ σ.degree) (hn : σ.degree + 1 ≤ σ.n)
    (hleft : s.left = false) : ∃ rand, Moves .incast σ s rand := by
  rcases Nat.lt_or_ge s.peers.card σ.degree with hlt | hge
  · -- a host that is no peer yet is added
    have hcard : (insert σ.host s.peers).card < (Finset.range σ.n).card := by
      have := Finset.card_insert_le σ.host s.peers
      rw [Finset.card_range]
      omega
    obtain ⟨j, hj, hnew⟩ := Finset.exists_mem_notMem_of_card_lt_card hcard
    obtain ⟨hne, hmem⟩ := not_or.1 (fun h => hnew (Finset.mem_insert.2 h))
    refine ⟨j, { s with peers := insert j s.peers }, ?_, .inl ?_⟩
    · unfold PeerSelection.turn
      rw [Nat.mod_eq_of_lt (Finset.mem_range.1 hj), hleft]
      simp [hne, test, hmem, hlt]
    · rw [Finset.card_insert_of_notMem hmem]
      exact Nat.lt_succ_self _
  · -- any other host ends the loop
    obtain ⟨j, hj, hne⟩ : ∃ j < σ.n, j ≠ σ.host := by
      rcases Nat.eq_zero_or_pos σ.host with hzero | hhost
      · exact ⟨1, by omega, by omega⟩
      · exact ⟨0, by omega, by omega⟩
    have hfull := le_antisymm hs.card_le hge
    refine ⟨j, { s with left := true }, ?_, .inr rfl⟩
    unfold PeerSelection.turn
    rw [Nat.mod_eq_of_lt hj, hleft]
    simp [hne, hfull]

lemma eq_of_turn_outcast (hpos : 1 ≤ σ.degree) (h : turn .outcast σ ⟨∅, false⟩ rand = some t) :
    t = ⟨∅, false⟩ := by
  obtain ⟨-, rfl | ⟨-, htest, -⟩ | ⟨hfull, -⟩⟩ := turn_cases h
  · rfl
  · exact absurd htest (Finset.notMem_empty _)
  · exact absurd hfull (by rw [Finset.card_empty]; omega)

lemma eq_init_of_outcast (hpos : 1 ≤ σ.degree) (hs : Reach (machine .outcast σ) s) :
    s = ⟨∅, false⟩ :=
  hs.inv (I := fun s => s = ⟨∅, false⟩) rfl fun _ hs h => eq_of_turn_outcast hpos (hs ▸ h)

lemma not_moves_outcast (hpos : 1 ≤ σ.degree) (rand : ℕ) : ¬ Moves .outcast σ ⟨∅, false⟩ rand := by
  rintro ⟨t, ht, hmoves⟩
  obtain rfl := eq_of_turn_outcast hpos ht
  simp at hmoves

/-- **The loop of an incast is good in every state that is reached**, and that of an outcast in
none. -/
theorem good_iff_incast (tm : TM) (σ : Spec) (hpos : 1 ≤ σ.degree) (hn : σ.degree + 1 ≤ σ.n)
    {s : Loop} (hs : Reach (machine tm σ) s) : Good tm σ s ↔ tm = .incast := by
  cases tm with
  | incast =>
    have hp := Peers.reach (by omega) hs
    exact iff_of_true ⟨hp, fun hleft => hp.moves hpos hn hleft⟩ rfl
  | outcast =>
    refine iff_of_false (fun h => ?_) nofun
    obtain rfl := eq_init_of_outcast hpos hs
    obtain ⟨rand, hmoves⟩ := h.moves rfl
    exact not_moves_outcast hpos rand hmoves

def twoOfFour : Spec := ⟨4, 2, 0⟩

theorem good_twoOfFour :
    ∃ s, Reach (machine .incast twoOfFour) s ∧ (s.left = true ∧ s.peers = {1, 3}) ∧
      (Good .incast twoOfFour s ↔ TM.incast = .incast) := by
  obtain ⟨s, hs, hpeers⟩ := exists_reach_of_exec_any (M := machine .incast twoOfFour)
    (P := fun s => s.left = true ∧ s.peers = {1, 3}) [1, 0, 7, 2] (by decide)
  exact ⟨s, hs, hpeers, good_iff_incast .incast twoOfFour (by decide) (by decide) hs⟩

/-- The one receiver of an outcast between two hosts is never found. -/
theorem not_good_outcast :
    ∃ s, Reach (machine .outcast ⟨2, 1, 0⟩) s ∧ ¬ Good .outcast ⟨2, 1, 0⟩ s := by
  refine ⟨⟨∅, false⟩, .init, fun h => ?_⟩
  obtain ⟨rand, hmoves⟩ := h.moves rfl
  exact not_moves_outcast le_rfl rand hmoves

end DcSim.PeerSelection
