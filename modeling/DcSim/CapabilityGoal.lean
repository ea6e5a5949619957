import DcSim.CapabilityProgress
import DcSim.CapabilityWindow

/-!
The goal of a capability flow.

A receiver gives a flow a capability for each of its packets, and then sets a timeout. Only when
that has passed is the goal moved on, by the packets that are missing still. So no more
capabilities are given than the goal, and a flow that has come to its goal waits.
-/

namespace DcSim

open Runs

variable {σ : CapabilitySpec} {id : FlowId} {t₀ now : Time} {f g : CapabilityFlow}
  {v w : FlowView} {sent ps : List CapabilityPacket}

structure Timed (σ : CapabilitySpec) (id : FlowId) (v : FlowView) : Prop where
  now : 0 < v.now
  size : (σ.sizeInPkt id : ℤ) ≤ v.flow.capabilityGoal
  goal : v.flow.capabilityCount ≤ v.flow.capabilityGoal
  timeout : v.flow.rtsReceived = true → v.flow.finishedAtReceiver = false →
    v.flow.capabilityCount = v.flow.capabilityGoal → 0 < v.flow.redundancyCtrlTimeout

namespace Timed

lemma quiet (h : Timed σ id ⟨now, f, sent⟩) (hcount : g.capabilityCount = f.capabilityCount)
    (hgoal : g.capabilityGoal = f.capabilityGoal)
    (htimeout : g.redundancyCtrlTimeout = f.redundancyCtrlTimeout)
    (hrts : g.rtsReceived = f.rtsReceived)
    (hfin : g.finishedAtReceiver = false → f.finishedAtReceiver = false) :
    Timed σ id ⟨now, g, sent ++ ps⟩ where
  now := h.now
  size := hgoal ▸ h.size
  goal := (hcount.trans_le h.goal).trans_eq hgoal.symm
  timeout hknown hnot hthere :=
    (h.timeout (hrts.symm.trans hknown) (hfin hnot)
      (hcount.symm.trans (hthere.trans hgoal))).trans_eq htimeout.symm

lemma reset (h : Timed σ id ⟨now, f, sent⟩) (hu : Underway σ id ⟨now, f, sent⟩) :
    Timed σ id ⟨now, f.resetTimeout σ id, sent ++ ps⟩ := by
  unfold CapabilityFlow.resetTimeout
  split_ifs
  · have hsize : (σ.sizeInPkt id : ℤ) ≤ f.capabilityGoal := h.size
    have hgoal : f.capabilityCount ≤ f.capabilityGoal := h.goal
    have hmore : 0 ≤ f.remainingPkts σ id := le_max_left _ _
    refine ⟨h.now, ?_, ?_, fun _ hnot hthere => ?_⟩
    · exact hsize.trans (le_add_of_nonneg_right hmore)
    · exact hgoal.trans (le_add_of_nonneg_right hmore)
    · have hmissing : f.receivedCount < σ.sizeInPkt id := hu.missing hnot
      have hleft : (σ.sizeInPkt id : ℤ) - f.receivedCount ≤ f.remainingPkts σ id :=
        le_max_right _ _
      dsimp only at hthere
      omega
  · exact h.quiet rfl rfl rfl rfl fun hnot => hnot

lemma give (hdelay : 0 ≤ σ.tokens.fullPktTranDelay) (hresend : 0 ≤ σ.capabilityResendTimeout)
    (h : Timed σ id ⟨now, f, sent⟩) (hknown : f.rtsReceived = true)
    (hnot : f.finishedAtReceiver = false) (hopen : f.Open σ) {p : CapabilityPacket}
    (hp : f.sendCapabilityPkt σ now id = some (g, p)) : Timed σ id ⟨now, g, sent ++ ps⟩ := by
  obtain ⟨seq, -, hp⟩ := Option.map_eq_some_iff.1 hp
  obtain ⟨rfl, -⟩ := Prod.mk.inj hp
  have hgoal : f.capabilityCount ≤ f.capabilityGoal := h.goal
  have hbefore : f.capabilityCount ≠ f.capabilityGoal := fun hthere =>
    absurd hopen.2 (not_le.2 (h.timeout hknown hnot hthere))
  have hnow : 0 < now := h.now
  refine ⟨h.now, h.size, ?_, fun _ _ hthere => ?_⟩
  · dsimp only
    omega
  · dsimp only at hthere ⊢
    rw [if_pos hthere]
    positivity

lemma arrives (hdelay : 0 ≤ σ.tokens.fullPktTranDelay) (h : Timed σ id ⟨now, f, sent⟩) :
    Timed σ id ⟨now, f.known σ now id, sent⟩ := by
  unfold CapabilityFlow.known
  split_ifs
  · exact h
  have hinit : (TokenFlow.initTokenSize (σ.flow id) : ℤ) ≤ σ.sizeInPkt id :=
    Nat.cast_le.2 (TokenFlow.initTokenSize_le (σ.flow id))
  have hnow : 0 < now := h.now
  refine ⟨h.now, h.size, hinit.trans h.size, fun _ _ hthere => ?_⟩
  dsimp only [CapabilityFlow.setCapabilityCount] at hthere ⊢
  rw [if_pos hthere]
  positivity

/-- **A step of a flow.** -/
lemma step (hdelay : 0 ≤ σ.tokens.fullPktTranDelay) (hresend : 0 ≤ σ.capabilityResendTimeout)
    (h : Timed σ id v) (hu : Underway σ id v) (hstep : FlowView.Step σ id v w) :
    Timed σ id w := by
  cases hstep with
  | wait hle => exact ⟨h.now.trans_le hle, h.size, h.goal, h.timeout⟩
  | change hchange =>
    obtain ⟨now, f, sent⟩ := v
    cases hchange with
    | send _ hp =>
      obtain ⟨_, _, _, _, -, -, rfl, rfl⟩ := CapabilityFlow.sendPendingData_eq_some hp
      exact h.quiet rfl rfl rfl rfl fun hnot => hnot
    | reset => exact h.reset hu
    | relax _ hg =>
      obtain ⟨-, -, rfl⟩ := Option.map_eq_some_iff.1 hg
      exact h.quiet rfl rfl rfl rfl fun hnot => hnot
    | give hknown hnot hopen hp => exact h.give hdelay hresend hknown hnot hopen hp
    | rts => exact (h.arrives hdelay).quiet rfl rfl rfl rfl fun hnot => hnot
    | @data seqNo capaSeq seq priority =>
      refine (h.arrives hdelay).quiet rfl rfl rfl
        ((f.known σ now id).rtsReceived_receiveData capaSeq seq) fun hnot => ?_
      have hfin := (Bool.or_eq_false_iff.1 hnot).1
      rwa [TokenFlow.accept_finishedAtReceiver] at hfin
    | finish hr =>
      obtain ⟨-, rfl⟩ := TokenFlow.finish_eq_some hr
      exact h.quiet rfl rfl rfl rfl fun hnot => hnot
    | _ => exact h.quiet rfl rfl rfl rfl fun hnot => hnot

end Timed

namespace CapabilityWorld

variable {s : CapabilityWorld}

lemma timed_of_reach (ht : 0 < t₀) (hdelay : 0 ≤ σ.tokens.fullPktTranDelay)
    (hresend : 0 ≤ σ.capabilityResendTimeout) (hpos : 0 < σ.sizeInPkt id)
    (hs : Reach (machine σ t₀) s) : Underway σ id (s.view id) ∧ Timed σ id (s.view id) := by
  refine view_inv (I := fun v => Underway σ id v ∧ Timed σ id v) ⟨(progresses_init hpos).underway,
    ht, le_rfl, Int.natCast_nonneg _, nofun⟩ (fun h hstep => ⟨h.1.step hstep, ?_⟩) hs
  exact h.2.step hdelay hresend h.1 hstep

/-- **A receiver keeps to its goal.** In all runs of the hosts, the capabilities a flow begins with
and those it is given are never more than its goal, and a flow that has come to its goal before all
its data has arrived waits for a timeout. -/
theorem keeps_goal (ht : 0 < t₀) (hdelay : 0 ≤ σ.tokens.fullPktTranDelay)
    (hresend : 0 ≤ σ.capabilityResendTimeout) (hpos : 0 < σ.sizeInPkt id)
    (hs : Reach (machine σ t₀) s) :
    (TokenFlow.initTokenSize (σ.flow id) : ℤ) + (s.view id).given.length ≤
      (s.net.flows id).capabilityGoal ∧
    ((s.net.flows id).rtsReceived = true → (s.net.flows id).finishedAtReceiver = false →
      (s.net.flows id).capabilityCount = (s.net.flows id).capabilityGoal →
      0 < (s.net.flows id).redundancyCtrlTimeout) := by
  obtain ⟨-, htimed⟩ := timed_of_reach ht hdelay hresend hpos hs
  have hwindowed := view_inv (windowed_init id) Windowed.step hs
  refine ⟨?_, htimed.timeout⟩
  have hsize : (σ.sizeInPkt id : ℤ) ≤ (s.net.flows id).capabilityGoal := htimed.size
  have hgoal : (s.net.flows id).capabilityCount ≤ (s.net.flows id).capabilityGoal := htimed.goal
  have hinit := TokenFlow.initTokenSize_le (σ.flow id)
  by_cases hknown : (s.net.flows id).rtsReceived = true
  · obtain ⟨n, hcount, hgiven⟩ := hwindowed.known hknown
    rw [hgiven, List.length_map, List.length_range]
    exact hcount.symm.trans_le hgoal
  · rw [(hwindowed.unknown (Bool.not_eq_true _ ▸ hknown)).2, List.length_nil]
    dsimp only [CapabilitySpec.flow] at hinit ⊢
    omega

/-- A flow of three packets is given a capability for each, by a window of one that is relaxed in
between. None comes back before the timeout, and so it is given three more, and waits again. -/
def givenAgain : List CapabilityAct :=
  [.start 1 0 ⟨none, 0⟩, .rts 1 0] ++ (List.range 11).map fun n =>
    .sendCapability (1 + n / 1000000 + ((n + 1) / 2 + 1 : ℕ) * infinitesimalTime) 1 fun _ => 0

theorem keeps_goal_givenAgain : ∃ s, Reach (machine CapabilityNet.exampleHosts 1) s ∧
    (s.net.flows 0).capabilityGoal = 6 ∧ ((s.view 0).given.length : ℤ) ≤ 6 ∧
      0 < (s.net.flows 0).redundancyCtrlTimeout := by
  obtain ⟨s, hs, hknown, hnot, hthere, hgoal⟩ := exists_reach_of_exec_any
    (M := machine CapabilityNet.exampleHosts 1)
    (P := fun s => (s.net.flows 0).rtsReceived = true ∧
      (s.net.flows 0).finishedAtReceiver = false ∧
      (s.net.flows 0).capabilityCount = (s.net.flows 0).capabilityGoal ∧
      (s.net.flows 0).capabilityGoal = 6) givenAgain (by decide +kernel)
  have hdelay : 0 ≤ CapabilityNet.exampleHosts.tokens.fullPktTranDelay := by decide +kernel
  have hresend : 0 ≤ CapabilityNet.exampleHosts.capabilityResendTimeout := by decide +kernel
  have hpos : 0 < CapabilityNet.exampleHosts.sizeInPkt 0 := Nat.succ_pos 2
  obtain ⟨hgiven, htimeout⟩ := keeps_goal one_pos hdelay hresend hpos hs
  refine ⟨s, hs, hgoal, ?_, htimeout hknown hnot hthere⟩
  rw [hgoal] at hgiven
  exact (le_add_of_nonneg_left (Int.natCast_nonneg _)).trans hgiven

end CapabilityWorld

end DcSim
