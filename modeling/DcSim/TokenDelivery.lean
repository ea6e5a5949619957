import DcSim.FastpassFlow
import DcSim.TokenFlow

/-!
A receiver-driven flow finishes only when all its data has been received.

Each token is for a data packet of the flow, and the receiver counts the different packets it gets
until the first ACK arrives. So it sends an ACK only when it has had all of them.
-/

namespace DcSim

open LossyNet Runs

namespace TokenFlow

variable {σ : TokenSpec} {kind : TokenKind} {f g : TokenFlow} {now t₀ : Time}

/-- The receiver has had all data of the flow. -/
def AllDelivered (σ : TokenSpec) (f : TokenFlow) : Prop := ∀ i < σ.sizeInPkt, i ∈ f.delivered

structure Safe (σ : TokenSpec) (f : TokenFlow) : Prop where
  tokens : ∀ t ∈ f.tokens, t.dataSeqNum < σ.sizeInPkt
  inRange : ∀ i ∈ f.packetsReceived, i < σ.sizeInPkt
  delivered : f.packetsReceived ⊆ f.delivered
  count : ¬ f.Done → f.receivedCount = f.packetsReceived.card
  done : f.Done → AllDelivered σ f

def SafePacket (σ : TokenSpec) (f : TokenFlow) : TokenPacket → Prop
  | .rts => True
  | .token _ seq => seq < σ.sizeInPkt
  | .data seq => seq < σ.sizeInPkt
  | .ack => AllDelivered σ f

/-- The receiver has had more. -/
def Later (f g : TokenFlow) : Prop := f.delivered ⊆ g.delivered

abbrev SafeCall (σ : TokenSpec) (f : TokenFlow) (r : TokenFlow × List TokenPacket) : Prop :=
  Call (Safe σ) Later (SafePacket σ) f r

lemma AllDelivered.later (h : AllDelivered σ f) (hle : Later f g) : AllDelivered σ g :=
  fun i hi => hle (h i hi)

lemma Safe.quiet (h : Safe σ f) : SafeCall σ f (f, []) :=
  ⟨h, Finset.Subset.refl _, by simp⟩

/-- **What an input can do.** -/
theorem input_cases {i : TokenInput} {r : TokenFlow × List TokenPacket}
    (hr : input σ kind now i f = some r) :
    (i = .start ∧ f.started = false ∧
      r = ({ f.assignInitToken σ kind now with started := true }, [.rts])) ∨
    (∃ t, i = .send t ∧ f.MayUse kind now t ∧
      r = ({ f with tokens := f.tokens.erase t }, [.data t.dataSeqNum])) ∨
    (∃ t, i = .drop t ∧ t.timeout < now ∧ r = ({ f with tokens := f.tokens.erase t }, [])) ∨
    (∃ epoch seq, i = .token epoch ∧ f.registered = true ∧ f.finishedAtReceiver = false ∧
      f.getNextTokenSeqNum σ = some seq ∧
      r = ({ f with lastTokenDataSeqNumSent := seq }, [.token (tokenTtl σ kind epoch) seq])) ∨
    (i = .unregister ∧ f.finishedAtReceiver = true ∧ r = ({ f with registered := false }, [])) ∨
    (i = .finish ∧ 0 < f.finishEvents ∧
      r = ({ f with finished := true, finishEvents := f.finishEvents - 1 }, [])) := by
  cases i with
  | start =>
    obtain ⟨hnot, hr⟩ := Option.ite_none_left_eq_some.1 hr
    exact .inl ⟨rfl, by simpa using hnot, (Option.some.inj hr).symm⟩
  | send t =>
    obtain ⟨hmay, hr⟩ := Option.ite_none_right_eq_some.1 hr
    exact .inr (.inl ⟨t, rfl, hmay, (Option.some.inj hr).symm⟩)
  | drop t =>
    obtain ⟨⟨-, hlate⟩, hr⟩ := Option.ite_none_right_eq_some.1 hr
    exact .inr (.inr (.inl ⟨t, rfl, hlate, (Option.some.inj hr).symm⟩))
  | token epoch =>
    obtain ⟨⟨hreg, hunfin⟩, hr⟩ := Option.ite_none_right_eq_some.1 hr
    obtain ⟨seq, hseq, rfl⟩ := Option.map_eq_some_iff.1 hr
    exact .inr (.inr (.inr (.inl ⟨epoch, seq, rfl, hreg, hunfin, hseq, rfl⟩)))
  | unregister =>
    obtain ⟨hfin, hr⟩ := Option.ite_none_right_eq_some.1 hr
    exact .inr (.inr (.inr (.inr (.inl ⟨rfl, hfin, (Option.some.inj hr).symm⟩))))
  | finish =>
    obtain ⟨hne, hr⟩ := Option.ite_none_left_eq_some.1 hr
    have hpos := Nat.pos_of_ne_zero hne
    exact .inr (.inr (.inr (.inr (.inr ⟨rfl, hpos, (Option.some.inj hr).symm⟩))))

/-! ### The sender -/

lemma Safe.startFlow (h : Safe σ f) :
    SafeCall σ f ({ f.assignInitToken σ kind now with started := true }, [.rts]) := by
  refine ⟨⟨fun t ht => ?_, h.inRange, h.delivered, h.count, h.done⟩, Finset.Subset.refl _,
    by simp [SafePacket]⟩
  rcases List.mem_append.1 ht with ht | ht
  · exact h.tokens t ht
  · obtain ⟨i, hi, rfl⟩ := List.mem_map.1 ht
    have hlt := List.mem_range.1 hi
    unfold initTokenSize at hlt
    dsimp only
    split_ifs at hlt <;> omega

lemma Safe.erase (h : Safe σ f) (t : Token) : Safe σ { f with tokens := f.tokens.erase t } :=
  ⟨fun t' ht => h.tokens t' (List.mem_of_mem_erase ht), h.inRange, h.delivered, h.count, h.done⟩

lemma Safe.receiveToken (h : Safe σ f) {ttl : Time} {seq : ℕ} (hseq : seq < σ.sizeInPkt) :
    Safe σ (f.receiveToken kind now ttl seq) := by
  refine ⟨fun t ht => ?_, h.inRange, h.delivered, h.count, h.done⟩
  rcases List.mem_append.1 ht with ht | ht
  · exact h.tokens t ht
  · obtain rfl := List.mem_singleton.1 ht
    exact hseq

lemma Safe.receiveAck (h : Safe σ f) (hall : AllDelivered σ f) :
    Safe σ (f.receiveAck kind) := by
  refine ⟨fun t ht => ?_, by simp [TokenFlow.receiveAck], by simp [TokenFlow.receiveAck],
    fun hdone => ?_, fun _ => hall⟩
  · unfold TokenFlow.receiveAck at ht
    cases kind with
    | ruf => exact absurd ht List.not_mem_nil
    | _ => exact h.tokens t ht
  · exact absurd (.inr (Nat.succ_pos _)) hdone

/-! ### The receiver -/

lemma dataBeforeRts_frame {f' : TokenFlow} (h : f.dataBeforeRts σ kind = some f') :
    ∃ l, f' = { f with
      rtsReceived := true
      registered := decide (kind = .capability) || f.registered
      lastTokenDataSeqNumSent := l } := by
  cases kind with
  | capability =>
    obtain rfl := Option.some.inj h
    exact ⟨_, rfl⟩
  | _ =>
    unfold dataBeforeRts receiveShortFlow at h
    dsimp only at h
    split_ifs at h
    obtain rfl := Option.some.inj h
    exact ⟨_, rfl⟩

lemma receiveRts_frame {f' : TokenFlow} (h : f.receiveRts σ kind = some f') :
    ∃ l, f' = { f with rtsReceived := true, registered := true, lastTokenDataSeqNumSent := l } := by
  cases kind with
  | capability =>
    obtain rfl := Option.some.inj h
    exact ⟨_, rfl⟩
  | _ =>
    unfold receiveRts receiveShortFlow at h
    dsimp only at h
    split_ifs at h <;> obtain rfl := Option.some.inj h <;> exact ⟨_, rfl⟩

lemma Safe.rtsReceived (h : Safe σ f) (b : Bool) (l : ℤ) :
    Safe σ { f with rtsReceived := true, registered := b, lastTokenDataSeqNumSent := l } :=
  ⟨h.tokens, h.inRange, h.delivered, h.count, h.done⟩

lemma Safe.accept (h : Safe σ f) {seq : ℕ} (hseq : seq < σ.sizeInPkt) :
    Safe σ (f.accept σ seq) ∧ Later f (f.accept σ seq) := by
  have hsub := Finset.subset_insert seq f.delivered
  unfold TokenFlow.accept
  dsimp only
  split_ifs with hmem
  · exact ⟨⟨h.tokens, h.inRange, h.delivered.trans hsub, h.count,
      fun hdone => (h.done hdone).later hsub⟩, hsub⟩
  · refine ⟨⟨h.tokens, fun i hi => ?_, Finset.insert_subset_insert _ h.delivered, fun hdone => ?_,
      fun hdone => (h.done hdone).later hsub⟩, hsub⟩
    · rcases Finset.mem_insert.1 hi with rfl | hi
      · exact hseq
      · exact h.inRange i hi
    · have hcount := h.count hdone
      dsimp only
      rw [Finset.card_insert_of_notMem hmem, hcount]

/-- **When the goal is reached, all data has been received.** -/
lemma Safe.allDelivered (h : Safe σ f) (hgoal : σ.sizeInPkt ≤ f.receivedCount) :
    AllDelivered σ f := by
  by_cases hdone : f.Done
  · exact h.done hdone
  have hcount := h.count hdone
  have hsub : f.packetsReceived ⊆ Finset.range σ.sizeInPkt := fun i hi =>
    Finset.mem_range.2 (h.inRange i hi)
  have hcard : (Finset.range σ.sizeInPkt).card ≤ f.packetsReceived.card := by
    rw [Finset.card_range]
    omega
  have heq := Finset.eq_of_subset_of_card_le hsub hcard
  intro i hi
  exact h.delivered (heq ▸ Finset.mem_range.2 hi)

lemma Safe.receiveData (h : Safe σ f) {seq : ℕ} (hseq : seq < σ.sizeInPkt)
    {r : TokenFlow × List TokenPacket} (hr : f.receiveData σ kind seq = some r) :
    SafeCall σ f r := by
  obtain ⟨f₁, hf₁, rfl⟩ := Option.map_eq_some_iff.1 hr
  have hsafe : Safe σ f₁ ∧ Later f f₁ := by
    split_ifs at hf₁
    · obtain rfl := Option.some.inj hf₁
      exact ⟨h, Finset.Subset.refl _⟩
    · obtain ⟨l, rfl⟩ := dataBeforeRts_frame hf₁
      exact ⟨h.rtsReceived _ l, Finset.Subset.refl _⟩
  obtain ⟨hacc, hlater⟩ := hsafe.1.accept hseq
  dsimp only
  split_ifs with hgoal
  · have hall := hacc.allDelivered hgoal
    refine ⟨⟨hacc.tokens, hacc.inRange, hacc.delivered, hacc.count, hacc.done⟩,
      hsafe.2.trans hlater, fun p hp => ?_⟩
    obtain rfl := List.mem_singleton.1 hp
    exact hall
  · exact ⟨hacc, hsafe.2.trans hlater, by simp⟩

lemma nextLoop_lt {turns seq n : ℕ} (h : f.nextLoop σ turns seq = some n) : n < σ.sizeInPkt := by
  induction turns generalizing seq with
  | zero => exact nomatch h
  | succ turns ih =>
    unfold nextLoop at h
    split_ifs at h with hmem hlast hlt
    · exact ih h
    · exact ih h
    · exact Option.some.inj h ▸ hlt

/-! ### Every call -/

lemma Safe.input (h : Safe σ f) {i : TokenInput} {r : TokenFlow × List TokenPacket}
    (hr : input σ kind now i f = some r) : SafeCall σ f r := by
  rcases input_cases hr with ⟨-, -, rfl⟩ | ⟨t, -, hmay, rfl⟩ | ⟨t, -, -, rfl⟩ |
    ⟨epoch, seq, -, -, -, hseq, rfl⟩ | ⟨-, -, rfl⟩ | ⟨-, hpos, rfl⟩
  · exact h.startFlow
  · refine ⟨h.erase t, Finset.Subset.refl _, fun p hp => ?_⟩
    obtain rfl := List.mem_singleton.1 hp
    exact h.tokens t hmay.1
  · exact ⟨h.erase t, Finset.Subset.refl _, by simp⟩
  · refine ⟨⟨h.tokens, h.inRange, h.delivered, h.count, h.done⟩, Finset.Subset.refl _,
      fun p hp => ?_⟩
    obtain rfl := List.mem_singleton.1 hp
    exact nextLoop_lt hseq
  · exact ⟨⟨h.tokens, h.inRange, h.delivered, h.count, h.done⟩, Finset.Subset.refl _, by simp⟩
  · refine ⟨⟨h.tokens, h.inRange, h.delivered, fun hdone => ?_, fun _ => h.done (.inr hpos)⟩,
      Finset.Subset.refl _, by simp⟩
    exact absurd (.inl rfl) hdone

lemma Safe.receive? (h : Safe σ f) {p : TokenPacket} (hp : SafePacket σ f p)
    {r : TokenFlow × List TokenPacket} (hr : f.receive? σ kind now p = some r) :
    SafeCall σ f r := by
  unfold TokenFlow.receive? at hr
  by_cases hfin : f.finished = true
  · rw [if_pos hfin] at hr
    obtain rfl := Option.some.inj hr
    exact h.quiet
  · rw [if_neg hfin] at hr
    cases p with
    | rts =>
      dsimp only at hr
      split_ifs at hr
      · obtain rfl := Option.some.inj hr
        exact h.quiet
      · obtain ⟨f', hf', rfl⟩ := Option.map_eq_some_iff.1 hr
        obtain ⟨l, rfl⟩ := receiveRts_frame hf'
        exact ⟨h.rtsReceived true l, Finset.Subset.refl _, by simp⟩
    | token ttl seq =>
      obtain rfl := Option.some.inj hr
      exact ⟨h.receiveToken hp, Finset.Subset.refl _, by simp⟩
    | data seq => exact h.receiveData hp hr
    | ack =>
      obtain rfl := Option.some.inj hr
      exact ⟨h.receiveAck hp, Finset.Subset.refl _, by simp⟩

/-- **The calls of a token flow are safe.** -/
theorem safe_calls : Calls (party σ kind) (fun _ _ => True) (Safe σ) Later (SafePacket σ) where
  init := by
    refine ⟨by simp [party], by simp [party], by simp [party], fun _ => rfl, fun hdone => ?_⟩
    simp [party, Done] at hdone
  mono {f g p} hle hp := by
    cases p with
    | ack => exact hp.later hle
    | _ => exact hp
  input _ h hr := h.input hr
  receive {f t p} _ h hp := by
    cases hr : f.receive? σ kind t p with
    | none =>
      have hquiet : (party σ kind).receive t p f = (f, []) := by simp [party, hr]
      exact hquiet ▸ h.quiet
    | some r =>
      have hcall : (party σ kind).receive t p f = r := by simp [party, hr]
      exact hcall ▸ h.receive? hp hr

/-- **A `FlowFinishedEvent` of a token flow is created only after all its data has been
received.** -/
theorem allDelivered_of_done {s : State TokenFlow TokenPacket Time}
    (hs : Reach (machine σ kind t₀) s) (hdone : s.party.Done) : AllDelivered σ s.party :=
  (safe_calls.kept.reach hs.of_restrict).1.done hdone

/-- A flow of so many packets, of which a flow of up to eight sends all without being asked. -/
def packets (n : ℕ) : TokenSpec where
  sizeInPkt := n
  tokenInitial := 8
  tokenTimeout := 2
  fullPktTranDelay := 1
  pimEpoch := 100
  pimIterEpoch := 10
  pimIterLimit := 5
  pimK := 4
  controlPktRtt := 3

/-- A flow of two packets, from its start to its end. The second packet arrives first, and twice. -/
def twoPackets (kind : TokenKind) : List (Act TokenPacket Time TokenInput) :=
  [.input 0 .start, .deliver 0 .rts, .input 0 (.send ⟨initTimeout (packets 2) kind 0, 0⟩),
    .input 1 (.send ⟨initTimeout (packets 2) kind 0, 1⟩), .duplicate (.data 1),
    .deliver 1 (.data 1), .deliver 1 (.data 1), .deliver 2 (.data 0), .deliver 2 .ack,
    .input 2 .finish]

end TokenFlow

/-- **Completion means delivery**: in every reachable state, for flows of every size and with any
loss, duplication, delay and reordering of their packets, a flow for which a `FlowFinishedEvent`
has been created has had all its data received. -/
theorem done_delivers (t₀ : Time) :
    (∀ (σ : TokenSpec) kind s, Reach (TokenFlow.machine σ kind t₀) s → s.party.Done →
      ∀ i < σ.sizeInPkt, i ∈ s.party.delivered) ∧
    ∀ (σ : FastpassSpec) s, Reach (machine (FastpassFlow.party σ) t₀) s → s.party.Done →
      ∀ i < σ.sizeInPkt, σ.seqNo i ∈ s.party.delivered :=
  ⟨fun _ _ _ hs hdone => TokenFlow.allDelivered_of_done hs hdone,
    fun _ _ hs hdone => FastpassFlow.allDelivered_of_done hs hdone⟩

theorem done_delivers_twoPackets :
    (∃ s, Reach (TokenFlow.machine (TokenFlow.packets 2) .pim 0) s ∧ s.party.finished = true ∧
      ∀ i < 2, i ∈ s.party.delivered) ∧
    ∃ s, Reach (machine (FastpassFlow.party FastpassFlow.twoPackets) 0) s ∧
      s.party.finished = true ∧ ∀ i < FastpassFlow.twoPackets.sizeInPkt,
        FastpassFlow.twoPackets.seqNo i ∈ s.party.delivered := by
  obtain ⟨htoken, hfastpass⟩ := done_delivers 0
  obtain ⟨s, hs, hfin⟩ := exists_reach_of_exec_any
    (M := TokenFlow.machine (TokenFlow.packets 2) .pim 0) (P := fun s => s.party.finished = true)
    (TokenFlow.twoPackets .pim) (by decide +kernel)
  obtain ⟨u, hu, hfin'⟩ := exists_reach_of_exec_any
    (M := machine (FastpassFlow.party FastpassFlow.twoPackets) 0)
    (P := fun s => s.party.finished = true)
    [.input 0 .start, .input 0 (.slot 0), .input 1 (.slot 0), .deliver 1 (.data 1460),
      .deliver 1 (.data 0), .deliver 2 (.ack 0), .deliver 2 (.ack 1460), .input 2 .finish]
    (by decide +kernel)
  exact ⟨⟨s, hs, hfin, htoken _ _ s hs (.inl hfin)⟩,
    ⟨u, hu, hfin', hfastpass _ u hu (.inl hfin')⟩⟩

end DcSim
