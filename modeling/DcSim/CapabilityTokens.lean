import DcSim.CapabilityWorld
import DcSim.TokenDelivery

/-!
A capability flow of the hosts is a token flow.

The token flow keeps its tokens in a list, has no window and no timers, and leaves open which flow
a host serves. Each change of a flow is a step of it, or a few: the capabilities that are deleted
because they are late are deleted one after the other, and a packet that arrives was doubled on
the way, so that it may arrive again.
-/

namespace DcSim

open HeapQueue LossyNet Runs

variable {σ : CapabilitySpec} {id : FlowId} {t₀ t now : Time} {f g : CapabilityFlow}
  {ts : List Token} {S : Multiset TokenPacket} {cs rest : Array Capability} {c : Capability}

/-! ### The capabilities in their heap -/

def Capability.token (c : Capability) : Token := ⟨c.timeout, c.dataSeqNum⟩

lemma strictWeakOn_comparator : StrictWeakOn Capability.comparator Set.univ where
  irrefl _ _ := decide_eq_false (lt_irrefl _)
  asymm _ _ _ _ h := decide_eq_false (of_decide_eq_true h).asymm
  trans _ _ _ _ _ _ h h' := decide_eq_true ((of_decide_eq_true h').trans (of_decide_eq_true h))
  incomp a _ b _ c _ hab hba hbc hcb := by
    simp only [Capability.comparator, decide_eq_false_iff_not, not_lt] at hab hba hbc hcb ⊢
    exact ⟨hab.trans hbc, hcb.trans hba⟩

lemma pop_capability (hheap : IsHeap Capability.comparator cs)
    (hpop : pop Capability.comparator cs = some (c, rest)) :
    cs.toList.Perm (c :: rest.toList) ∧ IsHeap Capability.comparator rest ∧
      ∀ c' ∈ cs.toList, c.timeout ≤ c'.timeout := by
  obtain ⟨hperm, hrest, hmin⟩ :=
    pop_spec strictWeakOn_comparator (fun _ _ => Set.mem_univ _) hheap hpop
  refine ⟨hperm, hrest, fun c' hc' => ?_⟩
  rcases List.mem_cons.1 (hperm.mem_iff.1 hc') with rfl | hc'
  · exact le_rfl
  · exact not_lt.1 (of_decide_eq_false (hmin c' (Array.mem_toList_iff.1 hc')))

lemma isHeap_push_capability (hheap : IsHeap Capability.comparator cs) :
    IsHeap Capability.comparator (push Capability.comparator cs c) :=
  isHeap_push strictWeakOn_comparator (fun _ _ => Set.mem_univ _) (Set.mem_univ _) hheap

lemma TokenFlow.finish_eq_some {k : TokenFlow} {r : TokenFlow × List TokenPacket}
    (hr : k.finish = some r) : k.finishEvents ≠ 0 ∧
      r = ({ k with finished := true, finishEvents := k.finishEvents - 1 }, []) := by
  obtain ⟨hevents, hr⟩ := Option.ite_none_left_eq_some.1 hr
  exact ⟨hevents, (Option.some.inj hr).symm⟩

namespace CapabilityFlow

lemma assignInitCapability_spec (σ : CapabilitySpec) (now : Time) (id : FlowId)
    (f : CapabilityFlow) :
    (f.assignInitCapability σ now id).capabilities.toList.Perm
      (f.capabilities.toList ++ (List.range (TokenFlow.initTokenSize (σ.flow id))).map
        fun (i : ℕ) => ⟨TokenFlow.initTimeout (σ.flow id) .capability now, i, i⟩) ∧
    (IsHeap Capability.comparator f.capabilities →
      IsHeap Capability.comparator (f.assignInitCapability σ now id).capabilities) := by
  have hpush : (f.assignInitCapability σ now id).capabilities =
      ((List.range (TokenFlow.initTokenSize (σ.flow id))).map fun (i : ℕ) =>
        (⟨TokenFlow.initTimeout (σ.flow id) .capability now, i, i⟩ : Capability)).foldl
          (push Capability.comparator) f.capabilities := by
    rw [List.foldl_map]
    rfl
  rw [hpush]
  exact ⟨foldl_push_perm Capability.comparator _ _,
    isHeap_foldl_push strictWeakOn_comparator (fun _ _ => Set.mem_univ _) fun _ _ => Set.mem_univ _⟩

lemma dropExpired_spec (now : Time) (turns : ℕ) (hheap : IsHeap Capability.comparator cs) :
    ∃ gone, cs.toList.Perm (gone ++ (dropExpired now turns cs).toList) ∧
      (∀ c ∈ gone, c.timeout < now) ∧ IsHeap Capability.comparator (dropExpired now turns cs) ∧
      (cs.size ≤ turns → ∀ c ∈ (dropExpired now turns cs).toList, now ≤ c.timeout) := by
  induction turns generalizing cs with
  | zero =>
    refine ⟨[], .refl _, by simp, hheap, fun hsize c hc => ?_⟩
    rw [dropExpired, Array.eq_empty_of_size_eq_zero (Nat.le_zero.1 hsize)] at hc
    exact absurd hc (by simp)
  | succ turns ih =>
    unfold dropExpired
    split
    case h_1 hpop =>
      refine ⟨[], .refl _, by simp, hheap, fun _ c hc => ?_⟩
      rw [pop_eq_none hpop] at hc
      exact absurd hc (by simp)
    case h_2 c rest hpop =>
      obtain ⟨hperm, hrest, hmin⟩ := pop_capability hheap hpop
      split_ifs with hlate
      · obtain ⟨gone, hgone, hall, hheap', hfresh⟩ := ih hrest
        refine ⟨c :: gone, hperm.trans (hgone.cons c), ?_, hheap', fun hsize => hfresh ?_⟩
        · exact List.forall_mem_cons.2 ⟨hlate, hall⟩
        · have hlen := hperm.length_eq
          rw [List.length_cons, Array.length_toList, Array.length_toList] at hlen
          omega
      · exact ⟨[], .refl _, by simp, hheap, fun _ c' hc' => (not_lt.1 hlate).trans (hmin c' hc')⟩

/-! ### The token flow of a capability flow -/

/-- The flow with these tokens, registered as soon as it is known. -/
def asToken (f : CapabilityFlow) (ts : List Token) : TokenFlow :=
  { f.toTokenFlow with tokens := ts, registered := f.rtsReceived }

lemma receiveRts_asToken (hrts : f.rtsReceived = false) :
    (f.asToken ts).receiveRts (σ.flow id) .capability =
      some ((f.known σ now id).asToken ts) := by
  unfold known
  rw [if_neg (by simp [hrts])]
  rfl

lemma known_asToken (now : Time) :
    (if (f.asToken ts).rtsReceived then some (f.asToken ts)
      else (f.asToken ts).dataBeforeRts (σ.flow id) .capability) =
      some ((f.known σ now id).asToken ts) := by
  by_cases hrts : f.rtsReceived = true
  · unfold known
    rw [if_pos hrts]
    exact if_pos hrts
  · have hrts : f.rtsReceived = false := by simpa using hrts
    rw [← receiveRts_asToken hrts]
    exact if_neg (by simp [asToken, hrts])

lemma accept_asToken (ρ : TokenSpec) (seq : ℕ) :
    (f.asToken ts).accept ρ seq =
      { f.toTokenFlow.accept ρ seq with tokens := ts, registered := f.rtsReceived } := by
  unfold TokenFlow.accept asToken
  dsimp only
  split_ifs <;> rfl

lemma rtsReceived_receiveData (f : CapabilityFlow) (capaSeq : ℤ) (seq : ℕ) :
    (f.receiveData σ id capaSeq seq).rtsReceived = f.rtsReceived :=
  (f.toTokenFlow.accept_roles (σ.flow id) seq).2.1

lemma receiveData_asToken (capaSeq : ℤ) (seq : ℕ) :
    (f.asToken ts).receiveData (σ.flow id) .capability seq =
      some (((f.known σ now id).receiveData σ id capaSeq seq).asToken ts,
        if σ.sizeInPkt id ≤ ((f.known σ now id).receiveData σ id capaSeq seq).receivedCount then
          [.ack] else []) := by
  unfold TokenFlow.receiveData
  rw [known_asToken now]
  generalize f.known σ now id = g
  have hrts : (g.toTokenFlow.accept (σ.flow id) seq).rtsReceived = g.rtsReceived :=
    g.rtsReceived_receiveData capaSeq seq
  rw [Option.map_some, accept_asToken]
  unfold receiveData asToken
  dsimp only [CapabilitySpec.flow] at hrts ⊢
  split_ifs with hgoal <;> simp [hgoal, hrts]

lemma known_frame (f : CapabilityFlow) (σ : CapabilitySpec) (now : Time) (id : FlowId) :
    ∃ l, (f.known σ now id).toTokenFlow =
      { f.toTokenFlow with rtsReceived := true, lastTokenDataSeqNumSent := l } := by
  unfold known
  split_ifs with hrts
  · exact ⟨f.lastTokenDataSeqNumSent, by rw [← hrts]⟩
  · exact ⟨_, rfl⟩

lemma known_capabilities (f : CapabilityFlow) (σ : CapabilitySpec) (now : Time) (id : FlowId) :
    (f.known σ now id).capabilities = f.capabilities := by
  unfold known
  split_ifs <;> rfl

lemma receive?_asToken (hnot : f.finished = false) (q : TokenPacket) :
    (f.asToken ts).receive? (σ.flow id) .capability now q =
      match q with
      | .rts => if f.rtsReceived then some (f.asToken ts, [])
          else ((f.asToken ts).receiveRts (σ.flow id) .capability).map (·, [])
      | .token ttl seq => some ((f.asToken ts).receiveToken .capability now ttl seq, [])
      | .data seq => (f.asToken ts).receiveData (σ.flow id) .capability seq
      | .ack => some ((f.asToken ts).receiveAck .capability, []) :=
  if_neg (by simp [asToken, hnot])

lemma nextLoop_asToken (ρ : TokenSpec) (turns seq : ℕ) :
    (f.asToken ts).nextLoop ρ turns seq = f.nextLoop ρ turns seq := by
  induction turns generalizing seq with
  | zero => rfl
  | succ turns ih =>
    rw [TokenFlow.nextLoop, TokenFlow.nextLoop, ih]
    rfl

end CapabilityFlow

def CapabilityPacket.token? : CapabilityPacket → Option TokenPacket
  | .rts _ => some .rts
  | .data _ _ _ seq _ => some (.data seq)
  | .capability _ ttl _ _ seq => some (.token ttl seq)
  | .status .. => none
  | .ack _ => some .ack

structure Mirrors (σ : CapabilitySpec) (id : FlowId) (t₀ : Time) (v : FlowView) (t : Time)
    (ts : List Token) (S : Multiset TokenPacket) : Prop where
  reach : Reach (TokenFlow.machine (σ.flow id) .capability t₀) ⟨t, v.flow.asToken ts, S⟩
  le : t ≤ v.now
  tokens : ts.Perm (v.flow.capabilities.toList.map Capability.token)
  inFlight : ∀ p ∈ v.sent, ∀ q ∈ p.token?, q ∈ S
  heap : IsHeap Capability.comparator v.flow.capabilities

/-- There is such a token flow. -/
def Mirrored (σ : CapabilitySpec) (id : FlowId) (t₀ : Time) (v : FlowView) : Prop :=
  ∃ t ts S, Mirrors σ id t₀ v t ts S

section Machine

variable {ρ : TokenSpec} {kind : TokenKind} {F : TokenFlow} {i : TokenInput} {p : TokenPacket}
  {r : TokenFlow × List TokenPacket}

lemma reach_input (hs : Reach (TokenFlow.machine ρ kind t₀) ⟨t, F, S⟩) (hle : t ≤ now)
    (hr : TokenFlow.input ρ kind now i F = some r) :
    Reach (TokenFlow.machine ρ kind t₀) ⟨now, r.1, S + r.2⟩ := by
  have hn : LossyNet.next (TokenFlow.party ρ kind) ⟨t, F, S⟩ (.input now i) =
      some ⟨now, r.1, S + r.2⟩ := (if_pos hle).trans (congrArg _ hr)
  have hok : TokenFlow.Asserts ρ kind ⟨t, F, S⟩ (.input now i) := trivial
  exact hs.step (restrict_step hok hn)

lemma reach_deliver (hs : Reach (TokenFlow.machine ρ kind t₀) ⟨t, F, S⟩) (hle : t ≤ now)
    (hp : p ∈ S) (hr : F.receive? ρ kind now p = some r) :
    Reach (TokenFlow.machine ρ kind t₀) ⟨now, r.1, S + r.2⟩ := by
  have hdouble : LossyNet.next (TokenFlow.party ρ kind) ⟨t, F, S⟩ (.duplicate p) =
      some ⟨t, F, p ::ₘ S⟩ := if_pos hp
  have hn : LossyNet.next (TokenFlow.party ρ kind) ⟨t, F, p ::ₘ S⟩ (.deliver now p) =
      some ⟨now, r.1, S + r.2⟩ := by
    refine (if_pos ⟨hle, Multiset.mem_cons_self p S⟩).trans ?_
    simp [TokenFlow.party, hr]
  have hasserts : TokenFlow.Asserts ρ kind ⟨t, F, p ::ₘ S⟩ (.deliver now p) := by
    simp [TokenFlow.Asserts, hr]
  have hok : TokenFlow.Asserts ρ kind ⟨t, F, S⟩ (.duplicate p) := trivial
  exact (hs.step (restrict_step hok hdouble)).step (restrict_step hasserts hn)

end Machine

/-! ### The changes of a flow as steps of its token flow -/

namespace Mirrors

variable {sent ps : List CapabilityPacket} {ts' : List Token} {qs : List TokenPacket}
  {p : CapabilityPacket} {q : TokenPacket} {i : TokenInput}

lemma of_reach (h : Mirrors σ id t₀ ⟨now, f, sent⟩ t ts S)
    (hreach : Reach (TokenFlow.machine (σ.flow id) .capability t₀) ⟨now, g.asToken ts', S + qs⟩)
    (hts : ts'.Perm (g.capabilities.toList.map Capability.token))
    (hheap : IsHeap Capability.comparator g.capabilities)
    (hps : ∀ p ∈ ps, ∀ q ∈ p.token?, q ∈ qs) : Mirrored σ id t₀ ⟨now, g, sent ++ ps⟩ := by
  refine ⟨now, ts', S + qs, hreach, le_rfl, hts, fun p hp q hq => ?_, hheap⟩
  rcases List.mem_append.1 hp with hp | hp
  · exact Multiset.mem_add.2 (.inl (h.inFlight p hp q hq))
  · exact Multiset.mem_add.2 (.inr (hps p hp q hq))

lemma input (h : Mirrors σ id t₀ ⟨now, f, sent⟩ t ts S)
    (hr : TokenFlow.input (σ.flow id) .capability now i (f.asToken ts) = some (g.asToken ts', qs))
    (hts : ts'.Perm (g.capabilities.toList.map Capability.token))
    (hheap : IsHeap Capability.comparator g.capabilities)
    (hps : ∀ p ∈ ps, ∀ q ∈ p.token?, q ∈ qs) : Mirrored σ id t₀ ⟨now, g, sent ++ ps⟩ :=
  h.of_reach (reach_input h.reach h.le hr) hts hheap hps

lemma deliver (h : Mirrors σ id t₀ ⟨now, f, sent⟩ t ts S) (hp : p ∈ sent) (hq : q ∈ p.token?)
    (hr : (f.asToken ts).receive? (σ.flow id) .capability now q = some (g.asToken ts', qs))
    (hts : ts'.Perm (g.capabilities.toList.map Capability.token))
    (hheap : IsHeap Capability.comparator g.capabilities)
    (hps : ∀ p ∈ ps, ∀ q ∈ p.token?, q ∈ qs) : Mirrored σ id t₀ ⟨now, g, sent ++ ps⟩ :=
  h.of_reach (reach_deliver h.reach h.le (h.inFlight p hp q hq) hr) hts hheap hps

lemma quiet (h : Mirrors σ id t₀ ⟨now, f, sent⟩ t ts S) (hg : g.asToken ts = f.asToken ts)
    (hcs : g.capabilities = f.capabilities) (hps : ∀ p ∈ ps, p.token? = none) :
    Mirrored σ id t₀ ⟨now, g, sent ++ ps⟩ := by
  refine ⟨t, ts, S, hg ▸ h.reach, h.le, hcs ▸ h.tokens, fun p hp q hq => ?_, hcs ▸ h.heap⟩
  rcases List.mem_append.1 hp with hp | hp
  · exact h.inFlight p hp q hq
  · rw [hps p hp] at hq
    exact absurd hq (Option.not_mem_none q)

lemma start (h : Mirrors σ id t₀ ⟨now, f, sent⟩ t ts S) (hnot : f.started = false) :
    Mirrored σ id t₀
      ⟨now, { f.assignInitCapability σ now id with started := true }, sent ++ [.rts id]⟩ := by
  obtain ⟨hperm, hheap⟩ := f.assignInitCapability_spec σ now id
  have hts := hperm.map Capability.token
  rw [List.map_append, List.map_map] at hts
  refine h.input (i := .start) (if_neg ?_) ((h.tokens.append_right _).trans hts.symm)
    (hheap h.heap) fun p hp q hq => ?_
  · exact Bool.not_eq_true _ ▸ hnot
  · obtain rfl := List.mem_singleton.1 hp
    obtain rfl := Option.some.inj hq
    exact List.mem_singleton_self _

lemma reach_drop {gone kept : List Token}
    (hs : Reach (TokenFlow.machine (σ.flow id) .capability t₀) ⟨t, f.asToken ts, S⟩) (hle : t ≤ now)
    (hperm : ts.Perm (gone ++ kept)) (hlate : ∀ c ∈ gone, c.timeout < now) :
    ∃ t' ts', Reach (TokenFlow.machine (σ.flow id) .capability t₀) ⟨t', f.asToken ts', S⟩ ∧
      t' ≤ now ∧ ts'.Perm kept := by
  induction gone generalizing t ts with
  | nil => exact ⟨t, ts, hs, hle, hperm⟩
  | cons c gone ih =>
    obtain ⟨hc, hlate⟩ := List.forall_mem_cons.1 hlate
    have hmem : c ∈ ts := hperm.mem_iff.2 List.mem_cons_self
    have hr : TokenFlow.input (σ.flow id) .capability now (.drop c) (f.asToken ts) =
        some (f.asToken (ts.erase c), []) := if_pos ⟨hmem, hc⟩
    have hnext := reach_input hs hle hr
    rw [Multiset.coe_nil, add_zero] at hnext
    exact ih hnext le_rfl ((List.perm_cons_erase hmem).symm.trans hperm).cons_inv hlate

lemma drop (h : Mirrors σ id t₀ ⟨now, f, sent⟩ t ts S) :
    Mirrored σ id t₀ ⟨now, (f.hasCapability now).1, sent⟩ := by
  obtain ⟨gone, hperm, hlate, hheap, -⟩ :=
    CapabilityFlow.dropExpired_spec now f.capabilities.size h.heap
  have hts := h.tokens.trans (hperm.map Capability.token)
  rw [List.map_append] at hts
  obtain ⟨t', ts', hreach, hle, hkept⟩ := reach_drop h.reach h.le hts fun c hc => by
    obtain ⟨c', hc', rfl⟩ := List.mem_map.1 hc
    exact hlate c' hc'
  exact ⟨t', ts', S, hreach, hle, hkept, h.inFlight, hheap⟩

lemma send (h : Mirrors σ id t₀ ⟨now, f, sent⟩ t ts S) (hnot : f.finished = false)
    (hp : f.sendPendingData σ now id = some (g, p)) :
    Mirrored σ id t₀ ⟨now, g, sent ++ [p]⟩ := by
  obtain ⟨c, rest, _, _, hpop, htime, rfl, rfl⟩ := CapabilityFlow.sendPendingData_eq_some hp
  obtain ⟨hperm, hheap, hmin⟩ := pop_capability h.heap hpop
  have hts : ts.Perm (c.token :: rest.toList.map Capability.token) :=
    h.tokens.trans (hperm.map Capability.token)
  have hmem : c.token ∈ ts := hts.mem_iff.2 List.mem_cons_self
  have hfirst : ∀ t' ∈ ts, c.token.timeout ≤ t'.timeout := fun t' ht' => by
    obtain ⟨c', hc', rfl⟩ := List.mem_map.1 (h.tokens.mem_iff.1 ht')
    exact hmin c' hc'
  refine h.input (i := .send c.token) (if_pos ⟨hmem, htime, hnot, hfirst⟩)
    ((List.perm_cons_erase hmem).symm.trans hts).cons_inv hheap fun p hp q hq => ?_
  obtain rfl := List.mem_singleton.1 hp
  obtain rfl := Option.some.inj hq
  exact List.mem_singleton_self _

lemma give (h : Mirrors σ id t₀ ⟨now, f, sent⟩ t ts S) (hknown : f.rtsReceived = true)
    (hnot : f.finishedAtReceiver = false) (hp : f.sendCapabilityPkt σ now id = some (g, p)) :
    Mirrored σ id t₀ ⟨now, g, sent ++ [p]⟩ := by
  obtain ⟨seq, hseq, hp⟩ := Option.map_eq_some_iff.1 hp
  obtain ⟨rfl, rfl⟩ := Prod.mk.inj hp
  have hseq : (f.asToken ts).getNextTokenSeqNum (σ.flow id) = some seq :=
    (CapabilityFlow.nextLoop_asToken _ _ _).trans hseq
  refine h.input (i := .token 0) ((if_pos ⟨hknown, hnot⟩).trans (by rw [hseq]; rfl)) h.tokens
    h.heap fun p hp q hq => ?_
  obtain rfl := List.mem_singleton.1 hp
  obtain rfl := Option.some.inj hq
  exact List.mem_singleton_self _

lemma rts (h : Mirrors σ id t₀ ⟨now, f, sent⟩ t ts S) (hp : .rts id ∈ sent)
    (hnot : f.finished = false) : Mirrored σ id t₀ ⟨now, f.known σ now id, sent ++ []⟩ := by
  have hr : (f.asToken ts).receive? (σ.flow id) .capability now .rts =
      some ((f.known σ now id).asToken ts, []) := by
    rw [CapabilityFlow.receive?_asToken hnot]
    dsimp only
    split_ifs with hrts
    · unfold CapabilityFlow.known
      rw [if_pos hrts]
    · exact congrArg (Option.map (·, []))
        (CapabilityFlow.receiveRts_asToken (Bool.not_eq_true _ ▸ hrts))
  have hcs := f.known_capabilities σ now id
  exact h.deliver hp rfl hr (hcs ▸ h.tokens) (hcs ▸ h.heap) (by simp)

lemma data (h : Mirrors σ id t₀ ⟨now, f, sent⟩ t ts S) {seqNo : ℕ} {capaSeq : ℤ}
    {seq priority : ℕ} (hp : .data id seqNo capaSeq seq priority ∈ sent)
    (hnot : f.finished = false) :
    Mirrored σ id t₀ ⟨now, (f.known σ now id).receiveData σ id capaSeq seq,
      sent ++ if σ.sizeInPkt id ≤ ((f.known σ now id).receiveData σ id capaSeq seq).receivedCount
        then [.ack id] else []⟩ := by
  have hr : (f.asToken ts).receive? (σ.flow id) .capability now (.data seq) =
      some (((f.known σ now id).receiveData σ id capaSeq seq).asToken ts,
        if σ.sizeInPkt id ≤ ((f.known σ now id).receiveData σ id capaSeq seq).receivedCount then
          [.ack] else []) :=
    (CapabilityFlow.receive?_asToken hnot _).trans (CapabilityFlow.receiveData_asToken capaSeq seq)
  have hcs := f.known_capabilities σ now id
  refine h.deliver hp rfl hr (hcs ▸ h.tokens) (hcs ▸ h.heap) fun p hp q hq => ?_
  split_ifs at hp ⊢
  · obtain rfl := List.mem_singleton.1 hp
    obtain rfl := Option.some.inj hq
    exact List.mem_singleton_self _
  · exact absurd hp List.not_mem_nil

lemma capability (h : Mirrors σ id t₀ ⟨now, f, sent⟩ t ts S) {ttl : Time}
    {remainingSz capSeqNum : ℤ} {dataSeqNum : ℕ}
    (hp : .capability id ttl remainingSz capSeqNum dataSeqNum ∈ sent) (hnot : f.finished = false) :
    Mirrored σ id t₀
      ⟨now, f.receiveCapability now ttl remainingSz capSeqNum dataSeqNum, sent ++ []⟩ := by
  have hperm := (push_toList_perm Capability.comparator f.capabilities
    ⟨now + ttl, capSeqNum, dataSeqNum⟩).map Capability.token
  rw [List.map_append] at hperm
  exact h.deliver hp rfl (CapabilityFlow.receive?_asToken hnot _)
    ((h.tokens.append_right _).trans hperm.symm) (isHeap_push_capability h.heap) (by simp)

lemma ack (h : Mirrors σ id t₀ ⟨now, f, sent⟩ t ts S) (hp : .ack id ∈ sent)
    (hnot : f.finished = false) :
    Mirrored σ id t₀
      ⟨now, { f with toTokenFlow := f.toTokenFlow.receiveAck .capability }, sent ++ []⟩ :=
  h.deliver hp rfl (CapabilityFlow.receive?_asToken hnot _) h.tokens h.heap (by simp)

lemma finish (h : Mirrors σ id t₀ ⟨now, f, sent⟩ t ts S) {r : TokenFlow × List TokenPacket}
    (hr : f.toTokenFlow.finish = some r) :
    Mirrored σ id t₀ ⟨now, { f with toTokenFlow := r.1 }, sent ++ []⟩ := by
  obtain ⟨hevents, rfl⟩ := TokenFlow.finish_eq_some hr
  exact h.input (i := .finish) (if_neg hevents) h.tokens h.heap (by simp)

end Mirrors

/-- **A step of a flow is steps of its token flow.** -/
lemma mirrored_step {v w : FlowView} (hv : Mirrored σ id t₀ v) (hstep : FlowView.Step σ id v w) :
    Mirrored σ id t₀ w := by
  obtain ⟨t, ts, S, h⟩ := hv
  cases hstep with
  | wait hle => exact ⟨t, ts, S, h.reach, h.le.trans hle, h.tokens, h.inFlight, h.heap⟩
  | change hchange =>
    obtain ⟨now, f, sent⟩ := v
    have hnone : ∀ p ∈ ([] : List CapabilityPacket), p.token? = none := by simp
    cases hchange with
    | start hnot => exact h.start hnot
    | drop => exact (List.append_nil sent).symm ▸ h.drop
    | send hnot hp => exact h.send hnot hp
    | status hps =>
      refine h.quiet rfl rfl fun p hp => ?_
      obtain ⟨n, rfl⟩ := hps p hp
      rfl
    | reset =>
      refine h.quiet ?_ ?_ hnone <;> unfold CapabilityFlow.resetTimeout <;> split_ifs <;> rfl
    | relax _ hg =>
      obtain ⟨gap, -, rfl⟩ := Option.map_eq_some_iff.1 hg
      exact h.quiet rfl rfl hnone
    | give hknown hnot _ hp => exact h.give hknown hnot hp
    | rts hp hnot => exact h.rts hp hnot
    | data hp hnot => exact h.data hp hnot
    | capability hp hnot => exact h.capability hp hnot
    | ack hp hnot => exact h.ack hp hnot
    | finish hr => exact h.finish hr

namespace CapabilityWorld

variable {s : CapabilityWorld}

lemma mirrored_init (id : FlowId) : Mirrored σ id t₀ ((machine σ t₀).init.view id) :=
  ⟨t₀, [], 0, .init, le_rfl, .refl _, by simp [view, FlowView.of, machine, CapabilitySpec.init],
    isHeap_empty⟩

/-- **The hosts refine the flows.** In all runs of the hosts, over a network that loses, delays,
reorders and doubles packets, each flow is a token flow in one of its runs. So it finishes only
after all its data has been received. -/
theorem refines_tokenFlow (hs : Reach (machine σ t₀) s) (id : FlowId) :
    Mirrored σ id t₀ (s.view id) ∧ ((s.net.flows id).Done →
      ∀ i < σ.sizeInPkt id, i ∈ (s.net.flows id).delivered) := by
  have hmirrored := view_inv (mirrored_init id) mirrored_step hs
  refine ⟨hmirrored, fun hdone => ?_⟩
  obtain ⟨t, ts, S, h⟩ := hmirrored
  exact TokenFlow.allDelivered_of_done h.reach hdone

def onePacketHosts : CapabilitySpec :=
  { CapabilityNet.exampleHosts with size := fun _ => 1460, sizeInPkt := fun _ => 1 }

/-- A flow from its start to its end. Its data packet arrives twice, and so does its ACK. -/
def oneFlow : List CapabilityAct :=
  [.start 1 0 ⟨none, 0⟩, .rts 1 0, .sendCapability (1 + infinitesimalTime) 1 fun _ => 0,
    .capability 2 0 ⟨none, 0⟩ (1 / 1000000) 1 0 0,
    .send (2 + infinitesimalTime) 0 ⟨none, 0⟩ fun _ => 0, .data 3 0 0 0, .data 3 0 0 0, .ack 0,
    .ack 0, .finish 0]

theorem refines_tokenFlow_oneFlow : ∃ s, Reach (machine onePacketHosts 1) s ∧
    (s.net.flows 0).finished = true ∧ Mirrored onePacketHosts 0 1 (s.view 0) ∧
      ∀ i < 1, i ∈ (s.net.flows 0).delivered := by
  obtain ⟨s, hs, hfin⟩ := exists_reach_of_exec_any (M := machine onePacketHosts 1)
    (P := fun s => (s.net.flows 0).finished = true) oneFlow (by decide +kernel)
  obtain ⟨hmirrored, hdone⟩ := refines_tokenFlow hs 0
  exact ⟨s, hs, hfin, hmirrored, hdone (.inl hfin)⟩

end CapabilityWorld

end DcSim
