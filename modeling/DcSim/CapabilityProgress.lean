import DcSim.CapabilityTokens
import DcSim.TokenSequence

/-!
No assertion of the capability hosts fails.

The sequence numbers of the capabilities of a flow stay below its count, so that no gap is
negative. A flow that is not finished at its receiver has data that is missing there, and it is
still in the collection of its sender. So every search comes to an end, and every event that is
processed is followed by another state.
-/

namespace DcSim

open Collection HeapQueue Runs Word32

variable {σ : CapabilitySpec} {id : FlowId} {t₀ now : Time} {f g : CapabilityFlow}
  {v w : FlowView} {sent ps : List CapabilityPacket}

/-! ### The capabilities are counted -/

def CapabilityPacket.capaSeq? : CapabilityPacket → Option ℤ
  | .data _ _ capaSeq _ _ => some capaSeq
  | .capability _ _ _ capSeqNum _ => some capSeqNum
  | .rts _ | .status .. | .ack _ => none

/-- The sequence numbers of the capabilities of a flow are below this. -/
def CapabilityFlow.bound (σ : CapabilitySpec) (id : FlowId) (f : CapabilityFlow) : ℤ :=
  max f.capabilityCount (TokenFlow.initTokenSize (σ.flow id))

structure Counted (σ : CapabilitySpec) (id : FlowId) (v : FlowView) : Prop where
  held : ∀ c ∈ v.flow.capabilities.toList, c.seqNum < v.flow.bound σ id
  sent : ∀ p ∈ v.sent, ∀ n ∈ p.capaSeq?, n < v.flow.bound σ id
  largest : v.flow.largestCapSeqReceived ≤ v.flow.bound σ id
  floor : -2147483648 ≤ v.flow.largestCapSeqReceived
  known : v.flow.rtsReceived = true →
    (TokenFlow.initTokenSize (σ.flow id) : ℤ) ≤ v.flow.capabilityCount
  unknown : v.flow.rtsReceived = false →
    v.flow.capabilityCount ≤ (TokenFlow.initTokenSize (σ.flow id) : ℤ)

lemma mem_dropExpired {turns : ℕ} {cs : Array Capability} {c : Capability}
    (hc : c ∈ (CapabilityFlow.dropExpired now turns cs).toList) : c ∈ cs.toList := by
  induction turns generalizing cs with
  | zero => exact hc
  | succ turns ih =>
    unfold CapabilityFlow.dropExpired at hc
    split at hc
    case h_1 => exact hc
    case h_2 c' rest hpop =>
      split_ifs at hc
      · exact (pop_perm hpop).mem_iff.2 (List.mem_cons_of_mem _ (ih hc))
      · exact hc

namespace Counted

lemma goOn (h : Counted σ id ⟨now, f, sent⟩) (hcount : g.capabilityCount = f.capabilityCount)
    (hlargest : g.largestCapSeqReceived = f.largestCapSeqReceived)
    (hrts : g.rtsReceived = f.rtsReceived)
    (hheld : ∀ c ∈ g.capabilities.toList, c ∈ f.capabilities.toList ∨ c.seqNum < f.bound σ id)
    (hps : ∀ p ∈ ps, ∀ n ∈ p.capaSeq?, n < f.bound σ id) :
    Counted σ id ⟨now, g, sent ++ ps⟩ := by
  have hbound : g.bound σ id = f.bound σ id := congrArg (max · _) hcount
  refine ⟨fun c hc => ?_, fun p hp n hn => ?_, ?_, hlargest ▸ h.floor, fun hg => ?_, fun hg => ?_⟩
  · rw [hbound]
    exact (hheld c hc).elim (h.held c) fun hlt => hlt
  · rw [hbound]
    exact (List.mem_append.1 hp).elim (h.sent p · n hn) (hps p · n hn)
  · exact (hbound ▸ hlargest ▸ h.largest : g.largestCapSeqReceived ≤ g.bound σ id)
  · exact (hcount ▸ h.known (hrts ▸ hg) : _ ≤ g.capabilityCount)
  · exact (hcount ▸ h.unknown (hrts ▸ hg) : g.capabilityCount ≤ _)

lemma quiet (h : Counted σ id ⟨now, f, sent⟩) (hcount : g.capabilityCount = f.capabilityCount)
    (hlargest : g.largestCapSeqReceived = f.largestCapSeqReceived)
    (hrts : g.rtsReceived = f.rtsReceived) (hcs : g.capabilities = f.capabilities)
    (hps : ∀ p ∈ ps, p.capaSeq? = none) : Counted σ id ⟨now, g, sent ++ ps⟩ := by
  refine h.goOn hcount hlargest hrts (fun c hc => .inl (hcs ▸ hc)) fun p hp n hn => ?_
  rw [hps p hp] at hn
  exact absurd hn (Option.not_mem_none n)

lemma start (h : Counted σ id ⟨now, f, sent⟩) :
    Counted σ id
      ⟨now, { f.assignInitCapability σ now id with started := true }, sent ++ [.rts id]⟩ := by
  refine h.goOn rfl rfl rfl (fun c hc => ?_) (by simp [CapabilityPacket.capaSeq?])
  have hpush := (f.assignInitCapability_spec σ now id).1
  refine (List.mem_append.1 (hpush.mem_iff.1 hc)).imp_right fun hc => ?_
  obtain ⟨i, hi, rfl⟩ := List.mem_map.1 hc
  exact lt_max_of_lt_right (Nat.cast_lt.2 (List.mem_range.1 hi))

lemma send (h : Counted σ id ⟨now, f, sent⟩) {p : CapabilityPacket}
    (hp : f.sendPendingData σ now id = some (g, p)) : Counted σ id ⟨now, g, sent ++ [p]⟩ := by
  obtain ⟨c, rest, _, _, hpop, -, rfl, rfl⟩ := CapabilityFlow.sendPendingData_eq_some hp
  have hmem : ∀ c' ∈ c :: rest.toList, c' ∈ f.capabilities.toList := fun c' hc' =>
    (pop_perm hpop).mem_iff.2 hc'
  refine h.goOn rfl rfl rfl (fun c' hc' => .inl (hmem c' (List.mem_cons_of_mem _ hc')))
    fun p hp n hn => ?_
  obtain rfl := List.mem_singleton.1 hp
  obtain rfl := Option.some.inj hn
  exact h.held c (hmem c List.mem_cons_self)

lemma relax (h : Counted σ id ⟨now, f, sent⟩) (hclosed : f.inWindow σ = some false)
    (hg : f.relaxCapabilityGap σ = some g) : Counted σ id ⟨now, g, sent ++ []⟩ := by
  obtain ⟨-, -, rfl⟩ := Option.map_eq_some_iff.1 hg
  have hbehind := CapabilityFlow.lt_of_closed hclosed
  have hfloor : -2147483648 ≤ f.largestCapSeqReceived := h.floor
  obtain ⟨hlow, hle⟩ := toInt32_ofInt32_le
    (show -2147483648 ≤ f.capabilityCount - (σ.capabilityWindow : ℤ) by omega)
  have hcount : f.capabilityCount ≤ f.bound σ id := le_max_left _ _
  rw [List.append_nil]
  have hlargest : toInt32 (ofInt32 (f.capabilityCount - σ.capabilityWindow)) ≤ f.bound σ id := by
    omega
  exact ⟨h.held, h.sent, hlargest, hlow, h.known, h.unknown⟩

lemma give (h : Counted σ id ⟨now, f, sent⟩) (hknown : f.rtsReceived = true)
    {p : CapabilityPacket} (hp : f.sendCapabilityPkt σ now id = some (g, p)) :
    Counted σ id ⟨now, g, sent ++ [p]⟩ := by
  obtain ⟨seq, -, hp⟩ := Option.map_eq_some_iff.1 hp
  obtain ⟨rfl, rfl⟩ := Prod.mk.inj hp
  have hle : f.bound σ id ≤ max (f.capabilityCount + 1) (TokenFlow.initTokenSize (σ.flow id)) :=
    max_le_max_right _ (by omega)
  refine ⟨fun c hc => (h.held c hc).trans_le hle, fun p hp n hn => ?_, h.largest.trans hle,
    h.floor, fun _ => (h.known hknown).trans (by simp), fun hnot => absurd (hknown.symm.trans hnot)
    nofun⟩
  rcases List.mem_append.1 hp with hp | hp
  · exact (h.sent p hp n hn).trans_le hle
  · obtain rfl := List.mem_singleton.1 hp
    obtain rfl := Option.some.inj hn
    exact lt_max_of_lt_left (by dsimp only; omega)

lemma arrives (h : Counted σ id ⟨now, f, sent⟩) :
    Counted σ id ⟨now, f.known σ now id, sent⟩ ∧ (f.known σ now id).rtsReceived = true := by
  unfold CapabilityFlow.known
  split_ifs with hrts
  · exact ⟨h, hrts⟩
  have hcount : f.capabilityCount ≤ (TokenFlow.initTokenSize (σ.flow id) : ℤ) :=
    h.unknown (Bool.not_eq_true _ ▸ hrts)
  have hbound : f.bound σ id =
      max (TokenFlow.initTokenSize (σ.flow id) : ℤ) (TokenFlow.initTokenSize (σ.flow id)) := by
    rw [max_self]
    exact max_eq_right hcount
  exact ⟨⟨fun c hc => (h.held c hc).trans_eq hbound, fun p hp n hn =>
    (h.sent p hp n hn).trans_eq hbound, h.largest.trans_eq hbound, h.floor, fun _ => le_rfl,
    fun _ => le_rfl⟩, rfl⟩

lemma data (h : Counted σ id ⟨now, f, sent⟩) {seqNo : ℕ} {capaSeq : ℤ} {seq priority : ℕ}
    (hp : .data id seqNo capaSeq seq priority ∈ sent) (hps : ∀ p ∈ ps, p.capaSeq? = none) :
    Counted σ id ⟨now, (f.known σ now id).receiveData σ id capaSeq seq, sent ++ ps⟩ := by
  obtain ⟨h, hknown⟩ := h.arrives
  generalize f.known σ now id = g at h hknown
  have hnew : capaSeq ≤ g.bound σ id := (h.sent _ hp _ rfl).le
  have hdata : Counted σ id ⟨now, g.receiveData σ id capaSeq seq, sent⟩ :=
    ⟨h.held, h.sent, max_le h.largest hnew, le_max_of_le_left h.floor, fun _ => h.known hknown,
      fun hnot => absurd (hknown.symm.trans
        ((g.rtsReceived_receiveData capaSeq seq).symm.trans hnot)) nofun⟩
  exact hdata.quiet rfl rfl rfl rfl hps

/-- **A step of a flow.** -/
lemma step (h : Counted σ id v) (hstep : FlowView.Step σ id v w) : Counted σ id w := by
  cases hstep with
  | wait => exact ⟨h.held, h.sent, h.largest, h.floor, h.known, h.unknown⟩
  | change hchange =>
    obtain ⟨now, f, sent⟩ := v
    have hnone : ∀ p ∈ ([] : List CapabilityPacket), p.capaSeq? = none := by simp
    cases hchange with
    | start => exact h.start
    | drop => exact h.goOn rfl rfl rfl (fun c hc => .inl (mem_dropExpired hc)) (by simp)
    | send _ hp => exact h.send hp
    | status hps =>
      refine h.quiet rfl rfl rfl rfl fun p hp => ?_
      obtain ⟨n, rfl⟩ := hps p hp
      rfl
    | reset =>
      unfold CapabilityFlow.resetTimeout
      split_ifs <;> exact h.quiet rfl rfl rfl rfl hnone
    | relax hclosed hg => exact h.relax hclosed hg
    | give hknown _ _ hp => exact h.give hknown hp
    | rts => exact h.arrives.1.quiet rfl rfl rfl rfl hnone
    | data hp =>
      refine h.data hp fun p hp => ?_
      split_ifs at hp
      · exact List.mem_singleton.1 hp ▸ rfl
      · exact absurd hp List.not_mem_nil
    | capability hp =>
      refine h.goOn rfl rfl rfl (fun c hc => ?_) (by simp)
      have hmem := (push_toList_perm Capability.comparator f.capabilities _).mem_iff.1 hc
      refine (List.mem_append.1 hmem).imp_right fun hc => ?_
      obtain rfl := List.mem_singleton.1 hc
      exact h.sent _ hp _ rfl
    | ack => exact h.quiet rfl rfl rfl rfl hnone
    | finish hr =>
      obtain ⟨-, rfl⟩ := TokenFlow.finish_eq_some hr
      exact h.quiet rfl rfl rfl rfl hnone

/-- **The gap of a flow that is known is not negative.** -/
lemma gap (h : Counted σ id ⟨now, f, sent⟩) (hknown : f.rtsReceived = true) :
    ∃ gap, f.capabilityGap = some gap := by
  have hbound : f.bound σ id = f.capabilityCount := max_eq_left (h.known hknown)
  have hle : f.largestCapSeqReceived ≤ f.bound σ id := h.largest
  exact ⟨_, if_pos (by omega)⟩

end Counted

/-! ### The flow until it is finished at its receiver -/

structure Underway (σ : CapabilitySpec) (id : FlowId) (v : FlowView) : Prop where
  known : v.flow.rtsReceived = true → v.flow.started = true
  held : ∀ c ∈ v.flow.capabilities.toList, v.flow.started = true
  sent : ∀ p ∈ v.sent, v.flow.started = true ∨ ∃ n, p = .status id n
  missing : v.flow.finishedAtReceiver = false → v.flow.receivedCount < σ.sizeInPkt id
  ack : .ack id ∈ v.sent → v.flow.finishedAtReceiver = true
  done : v.flow.Done → v.flow.finishedAtReceiver = true

namespace Underway

lemma quiet (h : Underway σ id ⟨now, f, sent⟩) (hsame : g.toTokenFlow = f.toTokenFlow)
    (hheld : ∀ c ∈ g.capabilities.toList, c ∈ f.capabilities.toList)
    (hps : ∀ p ∈ ps, ∃ n, p = .status id n) : Underway σ id ⟨now, g, sent ++ ps⟩ := by
  cases g
  dsimp only at hsame hheld
  subst hsame
  refine ⟨h.known, fun c hc => h.held c (hheld c hc), fun p hp => ?_, h.missing, fun hp => ?_,
    h.done⟩
  · exact (List.mem_append.1 hp).elim (h.sent p) fun hp => .inr (hps p hp)
  · rcases List.mem_append.1 hp with hp | hp
    · exact h.ack hp
    · exact nomatch hps _ hp

lemma goOn (h : Underway σ id ⟨now, f, sent⟩) (hstarted : g.started = true)
    (hmissing : g.finishedAtReceiver = false → g.receivedCount < σ.sizeInPkt id)
    (hfin : f.finishedAtReceiver = true → g.finishedAtReceiver = true)
    (hack : .ack id ∈ ps → g.finishedAtReceiver = true)
    (hdone : g.Done → f.Done ∨ g.finishedAtReceiver = true) :
    Underway σ id ⟨now, g, sent ++ ps⟩ where
  known _ := hstarted
  held _ _ := hstarted
  sent _ _ := .inl hstarted
  missing := hmissing
  ack hp := (List.mem_append.1 hp).elim (fun hp => hfin (h.ack hp)) hack
  done hg := (hdone hg).elim (fun hf => hfin (h.done hf)) fun hg => hg

lemma sender (h : Underway σ id ⟨now, f, sent⟩) (hstarted : g.started = true)
    (hfin : g.finishedAtReceiver = f.finishedAtReceiver)
    (hcount : g.receivedCount = f.receivedCount) (hdone : g.Done → f.Done)
    (hps : .ack id ∉ ps) : Underway σ id ⟨now, g, sent ++ ps⟩ :=
  h.goOn hstarted (fun hg => hcount ▸ h.missing (hfin ▸ hg)) (fun hf => hfin ▸ hf)
    (fun hp => absurd hp hps) fun hg => .inl (hdone hg)

lemma started (h : Underway σ id ⟨now, f, sent⟩) {p : CapabilityPacket} (hp : p ∈ sent)
    (hnot : ∀ n, p ≠ .status id n) : f.started = true :=
  (h.sent p hp).resolve_right fun ⟨n, hn⟩ => hnot n hn

lemma data (h : Underway σ id ⟨now, f, sent⟩) {seqNo : ℕ} {capaSeq : ℤ} {seq priority : ℕ}
    (hp : .data id seqNo capaSeq seq priority ∈ sent) :
    Underway σ id ⟨now, (f.known σ now id).receiveData σ id capaSeq seq,
      sent ++ if σ.sizeInPkt id ≤ ((f.known σ now id).receiveData σ id capaSeq seq).receivedCount
        then [.ack id] else []⟩ := by
  have hstarted : f.started = true := h.started hp nofun
  obtain ⟨l, hl⟩ := f.known_frame σ now id
  obtain ⟨D, R, n, u, -, -, hacc⟩ := TokenFlow.accept_frame (σ := σ.flow id)
    (f := (f.known σ now id).toTokenFlow) seq
  unfold CapabilityFlow.receiveData
  rw [hacc, hl]
  refine h.goOn hstarted (fun hg => ?_) (fun hf => ?_) (fun hp => ?_) fun hg => .inl hg
  · exact not_le.1 (of_decide_eq_false (Bool.or_eq_false_iff.1 hg).2)
  · exact Bool.or_eq_true_iff.2 (.inl hf)
  · split_ifs at hp with hgoal
    · exact Bool.or_eq_true_iff.2 (.inr (decide_eq_true hgoal))
    · exact absurd hp List.not_mem_nil

/-- **A step of a flow.** -/
lemma step (h : Underway σ id v) (hstep : FlowView.Step σ id v w) : Underway σ id w := by
  cases hstep with
  | wait => exact ⟨h.known, h.held, h.sent, h.missing, h.ack, h.done⟩
  | change hchange =>
    obtain ⟨now, f, sent⟩ := v
    cases hchange with
    | start => exact h.sender rfl rfl rfl (fun hg => hg) (by simp)
    | drop => exact h.quiet rfl (fun c hc => mem_dropExpired hc) (by simp)
    | send _ hp =>
      obtain ⟨c, _, _, _, hpop, -, rfl, rfl⟩ := CapabilityFlow.sendPendingData_eq_some hp
      have hstarted : f.started = true := h.held c ((pop_perm hpop).mem_iff.2 List.mem_cons_self)
      exact h.sender hstarted rfl rfl (fun hg => hg) (by simp)
    | status hps => exact h.quiet rfl (fun c hc => hc) hps
    | reset =>
      unfold CapabilityFlow.resetTimeout
      split_ifs <;> exact h.quiet rfl (fun c hc => hc) (by simp)
    | relax _ hg =>
      obtain ⟨gap, -, rfl⟩ := Option.map_eq_some_iff.1 hg
      exact h.quiet rfl (fun c hc => hc) (by simp)
    | give hknown _ _ hp =>
      obtain ⟨seq, -, hp⟩ := Option.map_eq_some_iff.1 hp
      obtain ⟨rfl, rfl⟩ := Prod.mk.inj hp
      exact h.sender (h.known hknown) rfl rfl (fun hg => hg) (by simp)
    | rts hp =>
      have hstarted : f.started = true := h.started hp nofun
      obtain ⟨l, hl⟩ := f.known_frame σ now id
      refine h.sender ?_ ?_ ?_ ?_ (by simp) <;> rw [hl]
      · exact hstarted
      · exact fun hg => hg
    | data hp => exact h.data hp
    | capability hp => exact h.sender (h.started hp nofun) rfl rfl (fun hg => hg) (by simp)
    | ack hp =>
      exact h.goOn (h.started hp nofun) h.missing (fun hf => hf) (by simp) fun _ => .inr (h.ack hp)
    | finish hr =>
      obtain ⟨hevents, rfl⟩ := TokenFlow.finish_eq_some hr
      have hfin : f.finishedAtReceiver = true := h.done (.inr (Nat.pos_of_ne_zero hevents))
      refine ⟨h.known, h.held, ?_, h.missing, ?_, fun _ => hfin⟩ <;> rw [List.append_nil]
      · exact h.sent
      · exact h.ack

end Underway

/-! ### Every event is followed by another state -/

structure Progresses (σ : CapabilitySpec) (id : FlowId) (t₀ : Time) (v : FlowView) : Prop where
  mirrored : Mirrored σ id t₀ v
  counted : Counted σ id v
  underway : Underway σ id v

namespace Progresses

lemma step (h : Progresses σ id t₀ v) (hstep : FlowView.Step σ id v w) : Progresses σ id t₀ w :=
  ⟨mirrored_step h.mirrored hstep, h.counted.step hstep, h.underway.step hstep⟩

lemma steps (h : Progresses σ id t₀ v) (hsteps : FlowView.Steps σ id v w) :
    Progresses σ id t₀ w := by
  induction hsteps with
  | refl => exact h
  | tail _ hlast ih => exact ih.step hlast

/-- **There is data for the next capability** of a flow that is not finished at its receiver. -/
lemma getNextTokenSeqNum (h : Progresses σ id t₀ v) (hnot : v.flow.finishedAtReceiver = false) :
    ∃ seq, v.flow.getNextTokenSeqNum (σ.flow id) = some seq := by
  obtain ⟨t, ts, S, hm⟩ := h.mirrored
  have hsafe : TokenFlow.Safe (σ.flow id) (v.flow.asToken ts) :=
    (TokenFlow.safe_calls.kept.reach hm.reach.of_restrict).1
  have hscan : TokenFlow.Scanned (σ.flow id) (v.flow.asToken ts) :=
    (TokenFlow.scanned_calls.kept.reach hm.reach.of_restrict).1
  have hcount : v.flow.receivedCount = v.flow.packetsReceived.card :=
    hsafe.count fun hdone => absurd (hnot.symm.trans (h.underway.done hdone)) nofun
  have hcard : v.flow.packetsReceived.card < (Finset.range (σ.sizeInPkt id)).card := by
    rw [Finset.card_range, ← hcount]
    exact h.underway.missing hnot
  obtain ⟨j, hj, hjnot⟩ := Finset.exists_mem_notMem_of_card_lt_card hcard
  have hmem : j ∈ TokenFlow.missing (σ.flow id) (v.flow.asToken ts) :=
    TokenFlow.mem_missing.2 ⟨Finset.mem_range.1 hj, hjnot⟩
  obtain ⟨i, hi, -⟩ := TokenFlow.getNextTokenSeqNum_next ((hscan.first hnot).isLeast hmem)
  exact ⟨i, (CapabilityFlow.nextLoop_asToken _ _ _).symm.trans hi⟩

lemma examine (h : Progresses σ id t₀ ⟨now, f, sent⟩) (hknown : f.rtsReceived = true) :
    ∃ r, f.examine σ now id = some r := by
  unfold CapabilityFlow.examine
  split_ifs with htimeout
  · exact ⟨_, rfl⟩
  have hreset : Counted σ id ⟨now, f.resetTimeout σ id, sent⟩ :=
    h.counted.step (.quiet (.reset htimeout))
  have hrts : (f.resetTimeout σ id).rtsReceived = true := by
    unfold CapabilityFlow.resetTimeout
    split_ifs <;> exact hknown
  dsimp only
  generalize f.resetTimeout σ id = f' at hreset hrts
  obtain ⟨gap, hgap⟩ := hreset.gap hrts
  have hwindow : f'.inWindow σ = some (decide (ofInt32 gap ≤ σ.capabilityWindow)) := by
    rw [CapabilityFlow.inWindow, hgap, Option.map_some]
  rw [hwindow, Option.bind_some]
  split_ifs with hopen hpast
  · exact ⟨_, rfl⟩
  · rw [Bool.eq_false_iff.2 hopen] at hwindow
    obtain ⟨g, hg⟩ : ∃ g, f'.relaxCapabilityGap σ = some g :=
      ⟨_, by rw [CapabilityFlow.relaxCapabilityGap, hgap, Option.map_some]⟩
    have hrelax := hreset.relax hwindow hg
    rw [hg, Option.bind_some]
    obtain ⟨-, -, rfl⟩ := Option.map_eq_some_iff.1 hg
    obtain ⟨gap', hgap'⟩ := hrelax.gap hrts
    exact ⟨_, by rw [CapabilityFlow.inWindow, hgap', Option.map_some, Option.map_some]⟩
  · exact ⟨_, rfl⟩

end Progresses

namespace CapabilityNet

variable {net : CapabilityNet} {h : HostId} {draws : ℕ → ℕ}

lemma exists_bind {α β : Type*} {o : Option α} {k : α → Option β} {x : α} (hx : o = some x)
    (hk : ∃ y, k x = some y) : ∃ y, o.bind k = some y :=
  hk.imp fun _ hy => Option.bind_eq_some_iff.2 ⟨x, hx, hy⟩

lemma exists_sendPendingData {c : Capability} {rest : Array Capability}
    (hpop : pop Capability.comparator f.capabilities = some (c, rest)) (hc : now ≤ c.timeout) :
    ∃ r, f.sendPendingData σ now id = some r :=
  exists_bind hpop ⟨_, if_pos hc⟩

lemma pop_hasCapability (hheap : IsHeap Capability.comparator f.capabilities)
    (hhas : (f.hasCapability now).2 = true) : ∃ c rest,
      pop Capability.comparator (f.hasCapability now).1.capabilities = some (c, rest) ∧
        now ≤ c.timeout := by
  obtain ⟨-, -, -, -, hfresh⟩ :=
    CapabilityFlow.dropExpired_spec now f.capabilities.size hheap
  cases hpop : pop Capability.comparator (f.hasCapability now).1.capabilities with
  | none =>
    have hempty : CapabilityFlow.dropExpired now f.capabilities.size f.capabilities = #[] :=
      pop_eq_none hpop
    rw [CapabilityFlow.hasCapability, hempty] at hhas
    exact absurd hhas Bool.false_ne_true
  | some r => exact ⟨r.1, r.2, rfl, hfresh le_rfl r.1
      ((pop_perm hpop).mem_iff.2 List.mem_cons_self)⟩

lemma found_send {turns : ℕ} {s r : Search FlowId (FlowId → CapabilityFlow)}
    (hall : ∀ id, Progresses σ id t₀ (.of id now s.state sent))
    (hr : search (sendRules σ now draws) turns s = some r)
    (hs : Remembers (sendRules σ now draws) s) (hfound : s.found = none) (ho : r.found = some id) :
    ∃ q, (r.state id).sendPendingData σ now id = some q := by
  have hrule := search_rule (lawful_sendRules draws)
    (P := fun st _ => Goes σ now s.state sent st sent)
    (Q := fun st id => ∃ q, (st id).sendPendingData σ now id = some q)
    (fun hgoes _ hv => ?_) (fun {st _ x _} hgoes _ hv => ?_) hs (List.Subset.refl _) hfound .rfl hr
  · exact hrule.2 id ho
  · obtain ⟨rfl, -⟩ := Prod.mk.inj (Option.some.inj hv)
    exact hgoes.trans (goes_quiet (.single (.quiet .drop)))
  · obtain ⟨rfl, hhas⟩ := Prod.mk.inj (Option.some.inj hv)
    obtain ⟨_, _, _, hm⟩ := ((hall x).steps (hgoes x)).mirrored
    obtain ⟨c, rest, hpop, hc⟩ := pop_hasCapability hm.heap hhas
    rw [Function.update_self]
    exact exists_sendPendingData hpop hc

lemma exists_send {link : LinkState} (hlevel : σ.capabilityFourthLevel = false)
    (hall : ∀ id, Progresses σ id t₀ (.of id now net.flows net.sent))
    (hs : Collects (Sends σ net.flows h) (fun id => (net.flows id).finished)
      (net.hosts h).sendFlows (net.hosts h).sendFlow) :
    ∃ net', net.send σ now h link draws = some net' := by
  unfold CapabilityNet.send
  dsimp only
  split_ifs with hbusy
  · exact ⟨_, rfl⟩
  have hrem : Remembers (sendRules σ now draws)
      ⟨net.flows, (net.hosts h).sendFlows, (net.hosts h).sendFlow, [], none⟩ := hs.last
  obtain ⟨r, hr⟩ := exists_search (lawful_sendRules draws) (P := fun _ => True)
    (fun _ _ _ => ⟨_, rfl, trivial⟩) hrem (List.Subset.refl _) trivial
  refine exists_bind hr ?_
  split
  case h_1 id ho =>
    obtain ⟨q, hq⟩ := found_send hall hr hrem rfl ho
    exact ⟨_, Option.map_eq_some_iff.2 ⟨q, hq, rfl⟩⟩
  case h_2 => exact ⟨_, if_neg (by simp [hlevel])⟩

lemma sendFlows_ne_nil (h : Progresses σ id t₀ (.of id now net.flows net.sent))
    (hs : Collects (Sends σ net.flows (σ.src id)) (fun id => (net.flows id).finished)
      (net.hosts (σ.src id)).sendFlows (net.hosts (σ.src id)).sendFlow)
    (hknown : (net.flows id).rtsReceived = true)
    (hnot : (net.flows id).finishedAtReceiver = false) :
    (net.hosts (σ.src id)).sendFlows ≠ [] := by
  have hunfin : (net.flows id).finished = false := Bool.eq_false_iff.2 fun hfin =>
    absurd (hnot.symm.trans (h.underway.done (.inl hfin))) nofun
  have hcount := hs.once id ⟨h.underway.known hknown, rfl⟩ hunfin
  intro hnil
  rw [hnil, List.count_nil] at hcount
  exact absurd hcount zero_ne_one

lemma exists_visit (hall : ∀ id, Progresses σ id t₀ (.of id now net.flows net.sent))
    (hsends : ∀ k, Collects (Sends σ net.flows k) (fun id => (net.flows id).finished)
      (net.hosts k).sendFlows (net.hosts k).sendFlow)
    (hmine : Receives σ net.flows h id) {st : (FlowId → CapabilityFlow) × Time}
    (hgoes : Goes σ now net.flows net.sent st.1 net.sent)
    (hm : ∀ k, Moves (net.flows k) (st.1 k)) (hnot : (st.1 id).finishedAtReceiver = false) :
    ∃ r, (recvRules σ now (fun s => (net.hosts s).sendFlows) draws).visit st id = some r ∧
      Goes σ now net.flows net.sent r.1.1 net.sent ∧ ∀ k, Moves (net.flows k) (r.1.1 k) := by
  have hnot' : (net.flows id).finishedAtReceiver = false := Bool.eq_false_iff.2 fun hfin =>
    absurd (hnot.symm.trans ((hm id).finishedAtReceiver hfin)) nofun
  obtain ⟨⟨f, gives, wait⟩, he⟩ :=
    ((hall id).steps (hgoes id)).examine ((hm id).rtsReceived.trans hmine.1)
  have hv : (recvRules σ now (fun s => (net.hosts s).sendFlows) draws).visit st id =
      some ((Function.update st.1 id f, min wait st.2), gives) := by
    refine (if_neg ?_).trans (Option.map_eq_some_iff.2 ⟨_, he, rfl⟩)
    exact fun hbad => sendFlows_ne_nil (hall id) (hsends _) hmine.1 hnot' hbad.2.2
  obtain ⟨hgoes', hm', -⟩ := goes_visit hgoes hm hv
  exact ⟨_, hv, hgoes', hm'⟩

lemma exists_sendCapability
    (hall : ∀ id, Progresses σ id t₀ (.of id now net.flows net.sent))
    (hsends : ∀ k, Collects (Sends σ net.flows k) (fun id => (net.flows id).finished)
      (net.hosts k).sendFlows (net.hosts k).sendFlow)
    (hs : Collects (Receives σ net.flows h) (fun id => (net.flows id).finishedAtReceiver)
      (net.hosts h).recvFlows (net.hosts h).recvFlow) :
    ∃ net', net.sendCapability σ now h draws = some net' := by
  unfold CapabilityNet.sendCapability
  dsimp only
  split_ifs with hhold
  · exact ⟨_, rfl⟩
  have hrem : Remembers (recvRules σ now (fun s => (net.hosts s).sendFlows) draws)
      ⟨(net.flows, 999999), (net.hosts h).recvFlows, (net.hosts h).recvFlow, [], none⟩ := hs.last
  obtain ⟨r, hr⟩ := exists_search lawful_recvRules
    (P := fun st => Goes σ now net.flows net.sent st.1 net.sent ∧
      ∀ k, Moves (net.flows k) (st.1 k))
    (fun hst hx hnot => exists_visit hall hsends (hs.mine _ hx) hst.1 hst.2 hnot)
    hrem (List.Subset.refl _) ⟨.rfl, fun _ => .rfl⟩
  refine exists_bind hr ?_
  obtain ⟨hgoes, -, -⟩ : Goes σ now net.flows net.sent r.state.1 net.sent ∧ _ :=
    goes_recvSearch hr hrem rfl
  unfold CapabilityNet.afterSearch
  dsimp only
  split
  case h_1 id ho =>
    obtain ⟨-, hnot⟩ := found_of_search lawful_recvRules hrem rfl hr ho
    rw [← (keeps_search lawful_recvRules hrem hr).done] at hnot
    obtain ⟨seq, hseq⟩ := ((hall id).steps (hgoes id)).getNextTokenSeqNum hnot
    exact ⟨_, Option.map_eq_some_iff.2 ⟨_, Option.map_eq_some_iff.2 ⟨seq, hseq, rfl⟩, rfl⟩⟩
  case h_2 => exact ⟨_, rfl⟩

end CapabilityNet

namespace CapabilityWorld

variable {s : CapabilityWorld} {a : CapabilityAct}

lemma progresses_init (hpos : 0 < σ.sizeInPkt id) :
    Progresses σ id t₀ ((machine σ t₀).init.view id) where
  mirrored := mirrored_init id
  counted :=
    { held _ hc := absurd hc List.not_mem_nil
      sent _ hp := absurd hp List.not_mem_nil
      largest := le_max_of_le_right ((by decide : (-1 : ℤ) ≤ 0).trans (Int.natCast_nonneg _))
      floor := (by decide : (-2147483648 : ℤ) ≤ -1)
      known := nofun
      unknown _ := Int.natCast_nonneg _ }
  underway :=
    { known := nofun
      held _ hc := absurd hc List.not_mem_nil
      sent _ hp := absurd hp List.not_mem_nil
      missing _ := hpos
      ack hp := absurd hp List.not_mem_nil
      done hdone := hdone.elim nofun nofun }

/-- **No assertion fails.** While the hosts run, over a network that loses, delays, reorders and
doubles packets, every event that is processed and every packet that arrives is followed by another
state, and no event of a host is scheduled twice. -/
theorem asserts_hold (hlevel : σ.capabilityFourthLevel = false)
    (hpos : ∀ id, 0 < σ.sizeInPkt id) (hs : Reach (machine σ t₀) s) (hmay : May σ s a) :
    ∃ t, next σ s a = some t ∧ ∀ h, (t.net.hosts h).asserts = true := by
  have hall : ∀ id, Progresses σ id t₀ (.of id (a.time s.now) s.net.flows s.net.sent) := fun id =>
    (view_inv (progresses_init (hpos id)) Progresses.step hs).step (.wait hmay.1)
  have hsound := sound_of_reach hs
  obtain ⟨net, hnet⟩ : ∃ net, s.net.next σ a = some net := by
    obtain ⟨-, hdue, -⟩ := hmay
    cases a with
    | start now id link => exact ⟨_, if_neg (Bool.not_eq_true _ ▸ hdue)⟩
    | send now h link draws =>
      refine CapabilityNet.exists_send hlevel hall ?_
      rw [CapabilityNet.hosts_setHost]
      exact (hsound h).sends
    | sendCapability now h draws =>
      refine CapabilityNet.exists_sendCapability hall (fun k => ?_) ?_
      · rcases eq_or_ne k h with rfl | hne
        · rw [CapabilityNet.hosts_setHost]
          exact (hsound k).sends
        · simpa [CapabilityNet.setHost, hne] using (hsound k).sends
      · rw [CapabilityNet.hosts_setHost]
        exact (hsound h).receives
    | finish id =>
      exact ⟨_, Option.map_eq_some_iff.2 ⟨_, if_neg (Nat.pos_iff_ne_zero.1 hdue), rfl⟩⟩
    | _ => exact ⟨_, rfl⟩
  have hn : next σ s a = some ⟨a.time s.now, net⟩ :=
    (if_pos hmay).trans (congrArg (Option.map _) hnet)
  exact ⟨_, hn, fun h => (sound_of_reach (hs.step hn) h).asserts⟩

/-- Each of two flows of three packets has been given a capability. The windows are closed for so
long that the next one is relaxed. -/
theorem asserts_hold_twoFlows : ∃ s t, Reach (machine CapabilityNet.exampleHosts 1) s ∧
    (s.net.flows 0).capabilityCount = 1 ∧ (s.net.flows 1).capabilityCount = 1 ∧
    next CapabilityNet.exampleHosts s
      (.sendCapability (1 + 2 / 1000000 + 3 * infinitesimalTime) 1 fun _ => 0) = some t ∧
      ∀ h, (t.net.hosts h).asserts = true := by
  obtain ⟨s, hs, hfirst, hsecond, hmay⟩ := exists_reach_of_exec_any
    (M := machine CapabilityNet.exampleHosts 1)
    (P := fun s => (s.net.flows 0).capabilityCount = 1 ∧ (s.net.flows 1).capabilityCount = 1 ∧
      May CapabilityNet.exampleHosts s
        (.sendCapability (1 + 2 / 1000000 + 3 * infinitesimalTime) 1 fun _ => 0))
    [.start 1 0 ⟨none, 0⟩, .start 1 1 ⟨none, 0⟩, .rts 1 0, .rts 1 1,
      .sendCapability (1 + infinitesimalTime) 1 fun _ => 0,
      .sendCapability (1 + 1 / 1000000 + 2 * infinitesimalTime) 1 fun _ => 0]
    (by decide +kernel)
  obtain ⟨t, ht, hasserts⟩ := asserts_hold rfl (fun _ => Nat.succ_pos 2) hs hmay
  exact ⟨s, t, hs, hfirst, hsecond, ht, hasserts⟩

end CapabilityWorld

end DcSim
