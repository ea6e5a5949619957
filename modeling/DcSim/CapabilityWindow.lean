import DcSim.CapabilityTokens
import Mathlib.Data.Int.Interval

/-!
The window of a capability flow.

The capabilities of a flow are numbered one after the other, those it begins with first. A
capability is given while the count is not ahead of the largest number that came back by more than
the window, and `relax_capability_gap` takes the largest number to be as far back as the window
allows. So however long a flow runs, not more are out than the window, or than it began with.
-/

namespace DcSim

open Runs Word32

variable {σ : CapabilitySpec} {id : FlowId} {t₀ now : Time} {f g : CapabilityFlow}
  {v w : FlowView} {sent ps : List CapabilityPacket}

def CapabilityPacket.givenSeq? : CapabilityPacket → Option ℤ
  | .capability _ _ _ capSeqNum _ => some capSeqNum
  | .rts _ | .data .. | .status .. | .ack _ => none

/-- The numbers of the capabilities that were given, in turn. -/
def FlowView.given (v : FlowView) : List ℤ := v.sent.filterMap CapabilityPacket.givenSeq?

lemma given_append (hps : ∀ p ∈ ps, p.givenSeq? = none) :
    (sent ++ ps).filterMap CapabilityPacket.givenSeq? =
      sent.filterMap CapabilityPacket.givenSeq? := by
  rw [List.filterMap_append, List.filterMap_eq_nil_iff.2 hps, List.append_nil]

structure Windowed (σ : CapabilitySpec) (id : FlowId) (v : FlowView) : Prop where
  unknown : v.flow.rtsReceived = false →
    v.flow.capabilityCount ≤ (TokenFlow.initTokenSize (σ.flow id) : ℤ) ∧ v.given = []
  known : v.flow.rtsReceived = true → ∃ n : ℕ,
    v.flow.capabilityCount = (TokenFlow.initTokenSize (σ.flow id) : ℤ) + n ∧
      v.given = (List.range n).map fun i : ℕ => (TokenFlow.initTokenSize (σ.flow id) : ℤ) + i
  floor : v.flow.capabilityCount < 2147483648 → -1 ≤ v.flow.largestCapSeqReceived
  out : v.flow.capabilityCount < 2147483648 →
    v.flow.capabilityCount - 1 - v.flow.largestCapSeqReceived ≤
      max (σ.capabilityWindow : ℤ) (TokenFlow.initTokenSize (σ.flow id))

namespace Windowed

lemma quiet (h : Windowed σ id ⟨now, f, sent⟩) (hcount : g.capabilityCount = f.capabilityCount)
    (hlargest : g.largestCapSeqReceived = f.largestCapSeqReceived)
    (hrts : g.rtsReceived = f.rtsReceived) (hps : ∀ p ∈ ps, p.givenSeq? = none) :
    Windowed σ id ⟨now, g, sent ++ ps⟩ := by
  refine ⟨fun hg => ?_, fun hg => ?_, fun hg => ?_, fun hg => ?_⟩
  · rw [FlowView.given, given_append hps, hcount]
    exact h.unknown (hrts ▸ hg)
  · rw [FlowView.given, given_append hps, hcount]
    exact h.known (hrts ▸ hg)
  · rw [hlargest]
    exact h.floor (hcount ▸ hg)
  · rw [hcount, hlargest]
    exact h.out (hcount ▸ hg)

lemma relax (h : Windowed σ id ⟨now, f, sent⟩) (hclosed : f.inWindow σ = some false)
    (hg : f.relaxCapabilityGap σ = some g) : Windowed σ id ⟨now, g, sent ++ []⟩ := by
  obtain ⟨-, -, rfl⟩ := Option.map_eq_some_iff.1 hg
  have hbehind := CapabilityFlow.lt_of_closed hclosed
  have hlargest : f.capabilityCount < 2147483648 →
      toInt32 (ofInt32 (f.capabilityCount - σ.capabilityWindow)) =
        f.capabilityCount - σ.capabilityWindow := fun hcount => by
    have hfloor : -1 ≤ f.largestCapSeqReceived := h.floor hcount
    unfold toInt32 ofInt32
    split_ifs <;> omega
  rw [List.append_nil]
  refine ⟨h.unknown, h.known, fun hcount => ?_, fun hcount => ?_⟩
  · have hfloor : -1 ≤ f.largestCapSeqReceived := h.floor hcount
    have heq := hlargest hcount
    dsimp only
    omega
  · have heq := hlargest hcount
    refine le_max_of_le_left ?_
    dsimp only at hcount ⊢
    omega

lemma give (h : Windowed σ id ⟨now, f, sent⟩) (hknown : f.rtsReceived = true)
    (hopen : f.Open σ) {p : CapabilityPacket}
    (hp : f.sendCapabilityPkt σ now id = some (g, p)) :
    Windowed σ id ⟨now, g, sent ++ [p]⟩ := by
  obtain ⟨seq, -, hp⟩ := Option.map_eq_some_iff.1 hp
  obtain ⟨rfl, rfl⟩ := Prod.mk.inj hp
  obtain ⟨gap, hgap, hwin⟩ := Option.map_eq_some_iff.1 hopen.1
  obtain ⟨hnonneg, hgap⟩ := Option.ite_none_right_eq_some.1 hgap
  obtain ⟨n, hcount, hgiven⟩ := h.known hknown
  refine ⟨fun hnot => absurd (hnot.symm.trans hknown) Bool.false_ne_true, fun _ =>
    ⟨n + 1, ?_, ?_⟩, fun hlt => h.floor ?_, fun hlt => le_max_of_le_left ?_⟩
  · dsimp only at hcount ⊢
    omega
  · rw [FlowView.given] at hgiven ⊢
    rw [List.filterMap_append, hgiven, List.range_succ, List.map_append]
    exact congrArg (_ ++ [·]) hcount
  · dsimp only at hlt ⊢
    omega
  · have hfloor : -1 ≤ f.largestCapSeqReceived := h.floor (by dsimp only at hlt ⊢; omega)
    have hle := of_decide_eq_true hwin
    rw [← Option.some.inj hgap] at hle
    unfold ofInt32 at hle
    dsimp only at hlt ⊢
    omega

lemma arrives (h : Windowed σ id ⟨now, f, sent⟩) :
    Windowed σ id ⟨now, f.known σ now id, sent⟩ ∧ (f.known σ now id).rtsReceived = true := by
  unfold CapabilityFlow.known
  split_ifs with hrts
  · exact ⟨h, hrts⟩
  obtain ⟨hcount, hgiven⟩ := h.unknown (Bool.not_eq_true _ ▸ hrts)
  refine ⟨⟨fun _ => ⟨le_rfl, hgiven⟩, fun _ => ⟨0, ?_, hgiven⟩, fun hlt => h.floor ?_,
    fun hlt => le_max_of_le_right ?_⟩, rfl⟩
  · exact (add_zero _).symm
  · exact hcount.trans_lt hlt
  · have hfloor : -1 ≤ f.largestCapSeqReceived := h.floor (hcount.trans_lt hlt)
    dsimp only [CapabilityFlow.setCapabilityCount]
    omega

lemma data (h : Windowed σ id ⟨now, f, sent⟩) {capaSeq : ℤ} {seq : ℕ}
    (hps : ∀ p ∈ ps, p.givenSeq? = none) :
    Windowed σ id ⟨now, (f.known σ now id).receiveData σ id capaSeq seq, sent ++ ps⟩ := by
  obtain ⟨h, hknown⟩ := h.arrives
  generalize f.known σ now id = g at h hknown
  have hdata : Windowed σ id ⟨now, g.receiveData σ id capaSeq seq, sent⟩ :=
    ⟨fun hnot => h.unknown ((g.rtsReceived_receiveData capaSeq seq).symm.trans hnot),
      fun _ => h.known hknown,
      fun hlt => le_max_of_le_left (h.floor hlt),
      fun hlt => (sub_le_sub_left (le_max_left _ _) _).trans (h.out hlt)⟩
  exact hdata.quiet rfl rfl rfl hps

/-- **A step of a flow.** -/
lemma step (h : Windowed σ id v) (hstep : FlowView.Step σ id v w) : Windowed σ id w := by
  cases hstep with
  | wait => exact ⟨h.unknown, h.known, h.floor, h.out⟩
  | change hchange =>
    obtain ⟨now, f, sent⟩ := v
    have hnone : ∀ p ∈ ([] : List CapabilityPacket), p.givenSeq? = none := by simp
    cases hchange with
    | start => exact h.quiet rfl rfl rfl (by simp [CapabilityPacket.givenSeq?])
    | drop => exact h.quiet rfl rfl rfl hnone
    | send _ hp =>
      obtain ⟨_, _, _, _, -, -, rfl, rfl⟩ := CapabilityFlow.sendPendingData_eq_some hp
      exact h.quiet rfl rfl rfl (by simp [CapabilityPacket.givenSeq?])
    | status hps =>
      refine h.quiet rfl rfl rfl fun p hp => ?_
      obtain ⟨n, rfl⟩ := hps p hp
      rfl
    | reset =>
      unfold CapabilityFlow.resetTimeout
      split_ifs <;> exact h.quiet rfl rfl rfl hnone
    | relax hclosed hg => exact h.relax hclosed hg
    | give hknown _ hopen hp => exact h.give hknown hopen hp
    | rts => exact h.arrives.1.quiet rfl rfl rfl hnone
    | data =>
      refine h.data fun p hp => ?_
      split_ifs at hp
      · exact List.mem_singleton.1 hp ▸ rfl
      · exact absurd hp List.not_mem_nil
    | finish hr =>
      obtain ⟨-, rfl⟩ := TokenFlow.finish_eq_some hr
      exact h.quiet rfl rfl rfl hnone
    | _ => exact h.quiet rfl rfl rfl hnone

lemma length_out (h : Windowed σ id v) (hknown : v.flow.rtsReceived = true)
    (hcount : v.flow.capabilityCount < 2147483648) :
    (v.given.filter (v.flow.largestCapSeqReceived < ·)).length ≤
      max σ.capabilityWindow (TokenFlow.initTokenSize (σ.flow id)) := by
  obtain ⟨n, hn, hgiven⟩ := h.known hknown
  have hnodup : v.given.Nodup := by
    rw [hgiven]
    exact List.nodup_range.map fun i j hij => by simpa using hij
  have hsub : (v.given.filter (v.flow.largestCapSeqReceived < ·)).toFinset ⊆
      Finset.Ico (v.flow.largestCapSeqReceived + 1) v.flow.capabilityCount := fun m hm => by
    obtain ⟨hm, hlt⟩ := List.mem_filter.1 (List.mem_toFinset.1 hm)
    rw [hgiven] at hm
    obtain ⟨i, hi, rfl⟩ := List.mem_map.1 hm
    have hi := List.mem_range.1 hi
    have hlt := of_decide_eq_true hlt
    exact Finset.mem_Ico.2 ⟨by omega, by omega⟩
  have hcard := Finset.card_le_card hsub
  rw [List.toFinset_card_of_nodup (hnodup.filter _), Int.card_Ico] at hcard
  have hout := h.out hcount
  omega

end Windowed

namespace CapabilityWorld

variable {s : CapabilityWorld}

lemma windowed_init (id : FlowId) : Windowed σ id ((machine σ t₀).init.view id) :=
  ⟨fun _ => ⟨Int.natCast_nonneg _, rfl⟩, nofun, fun _ => le_rfl,
    fun _ => le_max_of_le_left (Int.natCast_nonneg _)⟩

/-- **The window bounds what is out.** In all runs of the hosts, the capabilities a receiver gives
to a flow have the numbers that follow those of the first ones, in turn, so that none is given
twice; and, as long as the count fits an `int`, of those above the largest number that came back
there are never more than the window or the number of the first ones. -/
theorem window_bounds (hs : Reach (machine σ t₀) s) (id : FlowId)
    (hknown : (s.net.flows id).rtsReceived = true) :
    (∃ n : ℕ, (s.net.flows id).capabilityCount = TokenFlow.initTokenSize (σ.flow id) + n ∧
      (s.view id).given =
        (List.range n).map fun i : ℕ => (TokenFlow.initTokenSize (σ.flow id) : ℤ) + i) ∧
    ((s.net.flows id).capabilityCount < 2147483648 →
      ((s.view id).given.filter ((s.net.flows id).largestCapSeqReceived < ·)).length ≤
        max σ.capabilityWindow (TokenFlow.initTokenSize (σ.flow id))) := by
  have h := view_inv (windowed_init id) Windowed.step hs
  exact ⟨h.known hknown, h.length_out hknown⟩

/-- With a window of one packet, the first capability has to come back. -/
theorem window_bounds_closed : ∃ s, Reach (machine CapabilityNet.exampleHosts 1) s ∧
    (s.view 0).given.filter ((s.net.flows 0).largestCapSeqReceived < ·) = [0] ∧
    (∃ n : ℕ, (s.net.flows 0).capabilityCount = n ∧
      (s.view 0).given = (List.range n).map fun i : ℕ => 0 + (i : ℤ)) ∧
    ((s.view 0).given.filter ((s.net.flows 0).largestCapSeqReceived < ·)).length ≤ 1 := by
  obtain ⟨s, hs, hknown, hcount, hgiven⟩ := exists_reach_of_exec_any
    (M := machine CapabilityNet.exampleHosts 1)
    (P := fun s => (s.net.flows 0).rtsReceived = true ∧
      (s.net.flows 0).capabilityCount < 2147483648 ∧
      (s.view 0).given.filter ((s.net.flows 0).largestCapSeqReceived < ·) = [0])
    [.start 1 0 ⟨none, 0⟩, .rts 1 0, .sendCapability (1 + infinitesimalTime) 1 fun _ => 0]
    (by decide +kernel)
  obtain ⟨⟨n, hn, hnumbers⟩, hout⟩ := window_bounds hs 0 hknown
  exact ⟨s, hs, hgiven, ⟨n, hn.trans (zero_add _), hnumbers⟩, hout hcount⟩

end CapabilityWorld

end DcSim
