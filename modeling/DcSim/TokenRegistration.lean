import DcSim.TokenDelivery

/-!
How a token flow gets its tokens, and whether it can be left without any.

An RTS registers a flow at its receiver, where it stays until all its data has come. The RTS that
finds the flow known by a data packet does nothing, and in PIM and RUF such a packet registers
nothing. Neither an RTS nor an ACK is sent again without cause: a flow that loses its only one has
nothing to go on with.
-/

namespace DcSim.TokenFlow

open LossyNet Runs

variable {σ : TokenSpec} {kind : TokenKind} {f : TokenFlow} {now t₀ : Time}

/-- A flow that the receiver knows is registered there, or has all its data. -/
def Registered (f : TokenFlow) : Prop :=
  f.rtsReceived = true → f.registered = true ∨ f.finishedAtReceiver = true

instance : Decidable (Registered f) := by unfold Registered; infer_instance

/-- A data packet that comes before the RTS is the only one of the flow. -/
def RtsFirst (σ : TokenSpec) (s : State TokenFlow TokenPacket Time) :
    Act TokenPacket Time TokenInput → Prop
  | .deliver _ (.data _) =>
    s.party.finished = false → s.party.rtsReceived = false → σ.sizeInPkt ≤ 1
  | _ => True

instance (s : State TokenFlow TokenPacket Time) (a : Act TokenPacket Time TokenInput) :
    Decidable (RtsFirst σ s a) :=
  match a with
  | .deliver _ (.data _) => inferInstanceAs (Decidable (_ = _ → _ = _ → _ ≤ _))
  | .deliver _ .rts | .deliver _ (.token ..) | .deliver _ .ack | .input .. | .lose _ |
    .duplicate _ => isTrue trivial

structure Known (σ : TokenSpec) (f : TokenFlow) : Prop where
  unregistered : f.rtsReceived = false → f.registered = false
  unfinished : f.rtsReceived = false → f.finishedAtReceiver = false
  nothing : f.rtsReceived = false → f.receivedCount = 0 ∧ f.packetsReceived = ∅
  goal : f.finishedAtReceiver = true → σ.sizeInPkt ≤ f.receivedCount

structure Handed (σ : TokenSpec) (kind : TokenKind) (seq : ℕ) (f : TokenFlow)
    (r : TokenFlow × List TokenPacket) : Prop where
  known : r.1.rtsReceived = true
  registered : r.1.registered =
    if f.rtsReceived then f.registered else decide (kind = .capability) || f.registered
  new : seq ∉ f.packetsReceived → r.1.receivedCount = f.receivedCount + 1
  le : f.receivedCount ≤ r.1.receivedCount
  started : r.1.started = f.started
  done : r.1.Done ↔ f.Done
  goal : σ.sizeInPkt ≤ r.1.receivedCount ∧ r.1.finishedAtReceiver = true ∧ r.2 = [.ack] ∨
    r.1.receivedCount < σ.sizeInPkt ∧ r.1.finishedAtReceiver = f.finishedAtReceiver ∧ r.2 = []

lemma accept_frame (seq : ℕ) : ∃ D S n u, f.receivedCount ≤ n ∧
    (seq ∉ f.packetsReceived → n = f.receivedCount + 1) ∧ f.accept σ seq =
      { f with delivered := D, packetsReceived := S, receivedCount := n, receivedUntil := u } := by
  unfold accept
  dsimp only
  split_ifs with hmem
  · exact ⟨_, _, _, _, le_rfl, fun hnot => absurd hmem hnot, rfl⟩
  · exact ⟨_, _, _, _, Nat.le_succ _, fun _ => rfl, rfl⟩

lemma handed_of_receiveData {seq : ℕ} {r : TokenFlow × List TokenPacket}
    (hr : f.receiveData σ kind seq = some r) : Handed σ kind seq f r := by
  obtain ⟨f₁, hf₁, rfl⟩ := Option.map_eq_some_iff.1 hr
  obtain ⟨D, S, n, u, hle, hnew, hacc⟩ := f₁.accept_frame (σ := σ) seq
  have hknown : ∃ b l, (b = if f.rtsReceived then f.registered
        else decide (kind = .capability) || f.registered) ∧
      f₁ = { f with rtsReceived := true, registered := b, lastTokenDataSeqNumSent := l } := by
    split_ifs at hf₁ with hrts
    · obtain rfl := Option.some.inj hf₁
      exact ⟨f.registered, f.lastTokenDataSeqNumSent, by rw [if_pos hrts], by rw [← hrts]⟩
    · obtain ⟨l, rfl⟩ := dataBeforeRts_frame hf₁
      exact ⟨_, l, by rw [if_neg hrts], rfl⟩
  obtain ⟨b, l, hb, rfl⟩ := hknown
  dsimp only at hle hnew ⊢
  rw [hacc]
  dsimp only
  split_ifs with hgoal
  · exact ⟨rfl, hb, hnew, hle, rfl, Iff.rfl, .inl ⟨hgoal, rfl, rfl⟩⟩
  · exact ⟨rfl, hb, hnew, hle, rfl, Iff.rfl, .inr ⟨not_le.1 hgoal, rfl, rfl⟩⟩

/-! ### What a step does to the flow -/

lemma input_frame {i : TokenInput} {r : TokenFlow × List TokenPacket}
    (hr : input σ kind now i f = some r) :
    r.1.rtsReceived = f.rtsReceived ∧ r.1.finishedAtReceiver = f.finishedAtReceiver ∧
      r.1.receivedCount = f.receivedCount ∧ r.1.packetsReceived = f.packetsReceived ∧
      (r.1.registered = f.registered ∨
        r.1.registered = false ∧ f.finishedAtReceiver = true) ∧
      (f.Done → r.1.Done) ∧ (r.1.started = f.started ∨ .rts ∈ r.2) := by
  rcases input_cases hr with ⟨-, -, rfl⟩ | ⟨t, -, -, rfl⟩ | ⟨t, -, -, rfl⟩ |
    ⟨epoch, seq, -, -, -, -, rfl⟩ | ⟨-, hfin, rfl⟩ | ⟨-, -, rfl⟩
  · exact ⟨rfl, rfl, rfl, rfl, .inl rfl, id, .inr (List.mem_singleton_self _)⟩
  · exact ⟨rfl, rfl, rfl, rfl, .inl rfl, id, .inl rfl⟩
  · exact ⟨rfl, rfl, rfl, rfl, .inl rfl, id, .inl rfl⟩
  · exact ⟨rfl, rfl, rfl, rfl, .inl rfl, id, .inl rfl⟩
  · exact ⟨rfl, rfl, rfl, rfl, .inr ⟨rfl, hfin⟩, id, .inl rfl⟩
  · exact ⟨rfl, rfl, rfl, rfl, .inl rfl, fun _ => .inl rfl, .inl rfl⟩

lemma receive?_cases {p : TokenPacket} {r : TokenFlow × List TokenPacket}
    (hr : f.receive? σ kind now p = some r) :
    f.finished = true ∧ r = (f, []) ∨
    f.finished = false ∧
      ((p = .rts ∧ f.rtsReceived = true ∧ r = (f, [])) ∨
      (p = .rts ∧ f.rtsReceived = false ∧ ∃ l, r = ({ f with
        rtsReceived := true, registered := true, lastTokenDataSeqNumSent := l }, [])) ∨
      (∃ ttl seq, p = .token ttl seq ∧ r = (f.receiveToken kind now ttl seq, [])) ∨
      (∃ seq, p = .data seq ∧ Handed σ kind seq f r) ∨
      (p = .ack ∧ r = (f.receiveAck kind, []))) := by
  unfold receive? at hr
  by_cases hfin : f.finished = true
  · rw [if_pos hfin] at hr
    exact .inl ⟨hfin, (Option.some.inj hr).symm⟩
  · rw [if_neg hfin] at hr
    refine .inr ⟨by simpa using hfin, ?_⟩
    cases p with
    | rts =>
      dsimp only at hr
      split_ifs at hr with hrts
      · exact .inl ⟨rfl, hrts, (Option.some.inj hr).symm⟩
      · obtain ⟨f', hf', rfl⟩ := Option.map_eq_some_iff.1 hr
        obtain ⟨l, rfl⟩ := receiveRts_frame hf'
        exact .inr (.inl ⟨rfl, by simpa using hrts, l, rfl⟩)
    | token ttl seq =>
      exact .inr (.inr (.inl ⟨ttl, seq, rfl, (Option.some.inj hr).symm⟩))
    | data seq => exact .inr (.inr (.inr (.inl ⟨seq, rfl, handed_of_receiveData hr⟩)))
    | ack => exact .inr (.inr (.inr (.inr ⟨rfl, (Option.some.inj hr).symm⟩)))

/-- **What a step can do.** -/
theorem next_cases {s t : State TokenFlow TokenPacket Time} {a : Act TokenPacket Time TokenInput}
    (hn : (machine σ kind t₀).next s a = some t) :
    (∃ now i r, a = .input now i ∧ input σ kind now i s.party = some r ∧
      t = ⟨now, r.1, s.inFlight + r.2⟩) ∨
    (∃ now p S r, a = .deliver now p ∧ s.inFlight = p ::ₘ S ∧
      s.party.receive? σ kind now p = some r ∧ t = ⟨now, r.1, S + r.2⟩) ∨
    (∃ p S, a = .lose p ∧ s.inFlight = p ::ₘ S ∧ t = { s with inFlight := S }) ∨
    (∃ p, a = .duplicate p ∧ t = { s with inFlight := p ::ₘ s.inFlight }) := by
  obtain ⟨hok, hn⟩ := restrict_next hn
  rcases LossyNet.next_cases hn with ⟨now, i, r, rfl, hr, rfl⟩ | ⟨now, p, S, rfl, hS, rfl⟩ |
    ⟨p, S, rfl, hS, rfl⟩ | ⟨p, rfl, -, rfl⟩
  · exact .inl ⟨now, i, r, rfl, hr, rfl⟩
  · obtain ⟨r, hr⟩ := Option.isSome_iff_exists.1 hok
    have hcall : (party σ kind).receive now p s.party = r := by simp [party, hr]
    exact .inr (.inl ⟨now, p, S, r, rfl, hS, hr, by rw [hcall]⟩)
  · exact .inr (.inr (.inl ⟨p, S, rfl, hS, rfl⟩))
  · exact .inr (.inr (.inr ⟨p, rfl, rfl⟩))

/-! ### Registration -/

lemma known_init : Known σ (machine σ kind t₀).init.party :=
  ⟨fun _ => rfl, fun _ => rfl, fun _ => ⟨rfl, rfl⟩, nofun⟩

lemma Known.input (h : Known σ f) {i : TokenInput} {r : TokenFlow × List TokenPacket}
    (hr : input σ kind now i f = some r) : Known σ r.1 := by
  obtain ⟨hrts, hfin, hcount, hrecv, hreg, -⟩ := input_frame hr
  refine ⟨fun h₀ => ?_, fun h₀ => ?_, fun h₀ => ?_, fun h₀ => ?_⟩
  · rcases hreg with hreg | ⟨hreg, -⟩
    · rw [hreg]
      exact h.unregistered (hrts ▸ h₀)
    · exact hreg
  · rw [hfin]
    exact h.unfinished (hrts ▸ h₀)
  · rw [hcount, hrecv]
    exact h.nothing (hrts ▸ h₀)
  · rw [hcount]
    exact h.goal (hfin ▸ h₀)

lemma Known.receive? (h : Known σ f) {p : TokenPacket} {r : TokenFlow × List TokenPacket}
    (hr : f.receive? σ kind now p = some r) : Known σ r.1 := by
  rcases receive?_cases hr with ⟨-, rfl⟩ | ⟨hfin, ⟨-, -, rfl⟩ | ⟨-, hrts, l, rfl⟩ |
    ⟨ttl, seq, -, rfl⟩ | ⟨seq, -, hd⟩ | ⟨-, rfl⟩⟩
  · exact h
  · exact h
  · refine ⟨nofun, nofun, nofun, fun h₀ => ?_⟩
    exact nomatch (h.unfinished hrts).symm.trans h₀
  · exact ⟨h.unregistered, h.unfinished, h.nothing, h.goal⟩
  · refine ⟨fun h₀ => ?_, fun h₀ => ?_, fun h₀ => ?_, fun h₀ => ?_⟩
    · exact nomatch hd.known.symm.trans h₀
    · exact nomatch hd.known.symm.trans h₀
    · exact nomatch hd.known.symm.trans h₀
    · rcases hd.goal with ⟨hgoal, -, -⟩ | ⟨-, hsame, -⟩
      · exact hgoal
      · exact (h.goal (hsame ▸ h₀)).trans hd.le
  · exact ⟨h.unregistered, h.unfinished, fun h₀ => ⟨(h.nothing h₀).1, rfl⟩, h.goal⟩

lemma Registered.input (h : Registered f) {i : TokenInput} {r : TokenFlow × List TokenPacket}
    (hr : input σ kind now i f = some r) : Registered r.1 := by
  obtain ⟨hrts, hfin, -, -, hreg, -⟩ := input_frame hr
  intro h₀
  rw [hfin]
  rcases hreg with hreg | ⟨-, hfin'⟩
  · rw [hreg]
    exact h (hrts ▸ h₀)
  · exact .inr hfin'

lemma Registered.receive? (h : Registered f) (hknown : Known σ f) {p : TokenPacket}
    {r : TokenFlow × List TokenPacket} (hr : f.receive? σ kind now p = some r)
    (hfirst : ∀ seq, p = .data seq → f.finished = false → f.rtsReceived = false →
      kind = .capability ∨ σ.sizeInPkt ≤ 1) : Registered r.1 := by
  rcases receive?_cases hr with ⟨-, rfl⟩ | ⟨hfin, ⟨-, -, rfl⟩ | ⟨-, hrts, l, rfl⟩ |
    ⟨ttl, seq, -, rfl⟩ | ⟨seq, hp, hd⟩ | ⟨-, rfl⟩⟩
  · exact h
  · exact h
  · exact fun _ => .inl rfl
  · exact h
  · intro _
    rcases hd.goal with ⟨-, hfin', -⟩ | ⟨hlt, hsame, -⟩
    · exact .inr hfin'
    rw [hsame, hd.registered]
    cases hrts : f.rtsReceived with
    | true => simpa using h hrts
    | false =>
      rcases hfirst seq hp hfin hrts with rfl | hsize
      · simp
      · obtain ⟨hcount, hempty⟩ := hknown.nothing hrts
        have hnew := hd.new (by simp [hempty])
        omega
  · exact h

lemma Known.not_registered (h : Known σ f) (hkind : kind ≠ .capability) {seq : ℕ}
    (hfin : f.finished = false) (hrts : f.rtsReceived = false) (hsize : 1 < σ.sizeInPkt)
    {r : TokenFlow × List TokenPacket} (hr : f.receive? σ kind now (.data seq) = some r) :
    ¬ Registered r.1 := by
  intro hreg
  rcases receive?_cases hr with ⟨hfin', -⟩ | ⟨-, ⟨hp, -⟩ | ⟨hp, -⟩ | ⟨_, _, hp, -⟩ |
    ⟨seq', hp, hd⟩ | ⟨hp, -⟩⟩
  · exact nomatch hfin.symm.trans hfin'
  · exact nomatch hp
  · exact nomatch hp
  · exact nomatch hp
  · obtain ⟨hcount, hempty⟩ := h.nothing hrts
    have hnew := hd.new (by simp [hempty])
    have hsame := hd.registered
    rw [hrts, if_neg (by decide), h.unregistered hrts, Bool.or_false] at hsame
    rcases hd.goal with ⟨hgoal, -⟩ | ⟨-, hfinished, -⟩
    · omega
    · rw [h.unfinished hrts] at hfinished
      rcases hreg hd.known with hreg | hreg
      · exact hkind (of_decide_eq_true (hsame.symm.trans hreg))
      · exact nomatch hfinished.symm.trans hreg
  · exact nomatch hp

lemma registered_next {s t : State TokenFlow TokenPacket Time}
    {a : Act TokenPacket Time TokenInput} (h : Known σ s.party ∧ Registered s.party)
    (hC : kind = .capability ∨ RtsFirst σ s a) (hn : (machine σ kind t₀).next s a = some t) :
    Known σ t.party ∧ Registered t.party := by
  obtain ⟨hknown, hreg⟩ := h
  rcases next_cases hn with ⟨now, i, r, rfl, hr, rfl⟩ | ⟨now, p, S, r, rfl, hS, hr, rfl⟩ |
    ⟨p, S, rfl, hS, rfl⟩ | ⟨p, rfl, rfl⟩
  · exact ⟨hknown.input hr, hreg.input hr⟩
  · refine ⟨hknown.receive? hr, hreg.receive? hknown hr fun seq hp hfin hrts => ?_⟩
    subst hp
    exact hC.imp_right fun hfirst => hfirst hfin hrts
  · exact ⟨hknown, hreg⟩
  · exact ⟨hknown, hreg⟩

/-- **A PIM or RUF flow that the receiver knows is registered there or has all its data, in each
state of a run, exactly when no data packet of it comes before the RTS**, other than the only one
of a flow. -/
theorem registered_iff_rtsFirst (hkind : kind ≠ .capability)
    (as : List (Act TokenPacket Time TokenInput)) :
    Always (machine σ kind t₀) (fun s => Registered s.party) (machine σ kind t₀).init as ↔
      Along (machine σ kind t₀) (RtsFirst σ) (machine σ kind t₀).init as := by
  refine always_iff_along (J := fun s => Known σ s.party ∧ Registered s.party) (fun h => h.2)
    (fun h hC hn => registered_next h (.inr hC) hn) (fun {s t a} h hC hn => ?_) as
    ⟨known_init, nofun⟩
  rcases next_cases hn with ⟨now, i, r, rfl, -, -⟩ | ⟨now, p, S, r, rfl, hS, hr, rfl⟩ |
    ⟨p, S, rfl, -, -⟩ | ⟨p, rfl, -⟩
  · exact absurd trivial hC
  · cases p with
    | data seq =>
      simp only [RtsFirst] at hC
      push Not at hC
      obtain ⟨hfin, hrts, hsize⟩ := hC
      exact h.1.not_registered hkind hfin hrts hsize hr
    | _ => exact absurd trivial hC
  · exact absurd trivial hC
  · exact absurd trivial hC

theorem registered_iff_rtsFirst_twoPackets :
    Always (machine (packets 2) .pim 0) (fun s => Registered s.party)
      (machine (packets 2) .pim 0).init (twoPackets .pim) :=
  (registered_iff_rtsFirst (by decide) _).2 (by decide +kernel)

/-- The first of two data packets overtakes the RTS. -/
def dataFirst (kind : TokenKind) : List (Act TokenPacket Time TokenInput) :=
  [.input 0 .start, .input 0 (.send ⟨initTimeout (packets 2) kind 0, 0⟩), .deliver 0 (.data 0),
    .deliver 0 .rts]

theorem not_registered_dataFirst :
    (¬ ∀ σ as, (∀ a ∈ as, a ≠ .lose .rts) → Always (machine σ .pim 0)
      (fun s => Registered s.party) (machine σ .pim 0).init as) ∧
    ¬ ∀ σ as, (∀ a ∈ as, a ≠ .lose .rts) → Always (machine σ .ruf 0)
      (fun s => Registered s.party) (machine σ .ruf 0).init as := by
  refine ⟨fun h => ?_, fun h => ?_⟩
  · exact not_always_of_exec_any (by decide +kernel)
      (h (packets 2) (dataFirst .pim) (by simp [dataFirst]))
  · exact not_always_of_exec_any (by decide +kernel)
      (h (packets 2) (dataFirst .ruf) (by simp [dataFirst]))

/-! ### Dead states -/

/-- A flow can go on: a packet of it is in flight, its sender has a token that is not too late, or
its receiver can give it more. -/
def Alive (s : State TokenFlow TokenPacket Time) : Prop :=
  s.inFlight ≠ 0 ∨ (∃ t ∈ s.party.tokens, s.now ≤ t.timeout) ∨
    s.party.registered = true ∧ s.party.finishedAtReceiver = false

/-- A flow that is started and not done can go on. -/
def NoDeadState (s : State TokenFlow TokenPacket Time) : Prop :=
  s.party.started = true → ¬ s.party.Done → Alive s

instance (s : State TokenFlow TokenPacket Time) : Decidable (NoDeadState s) := by
  unfold NoDeadState Alive
  infer_instance

/-- What is lost is not the last RTS of a flow that the receiver does not know, and not the last
ACK. -/
def KeepsContact (s : State TokenFlow TokenPacket Time) : Act TokenPacket Time TokenInput → Prop
  | .lose .rts => .rts ∈ s.inFlight.erase .rts ∨ s.party.registered = true ∨
      s.party.finishedAtReceiver = true
  | .lose .ack => .ack ∈ s.inFlight.erase .ack ∨ s.party.Done
  | _ => True

instance (s : State TokenFlow TokenPacket Time) (a : Act TokenPacket Time TokenInput) :
    Decidable (KeepsContact s a) :=
  match a with
  | .lose .rts => inferInstanceAs (Decidable (_ ∨ _ = _ ∨ _ = _))
  | .lose .ack => inferInstanceAs (Decidable (_ ∨ s.party.Done))
  | .lose (.token ..) | .lose (.data _) | .input .. | .deliver .. | .duplicate _ => isTrue trivial

structure Contact (s : State TokenFlow TokenPacket Time) : Prop where
  rts : s.party.started = true → ¬ s.party.Done → s.party.finishedAtReceiver = false →
    .rts ∈ s.inFlight ∨ s.party.registered = true
  ack : ¬ s.party.Done → s.party.finishedAtReceiver = true → .ack ∈ s.inFlight

lemma Contact.noDeadState {s : State TokenFlow TokenPacket Time} (h : Contact s) :
    NoDeadState s := by
  intro hstarted hdone
  cases hfin : s.party.finishedAtReceiver with
  | true =>
    have hack := h.ack hdone hfin
    exact .inl fun hnone => absurd (hnone ▸ hack) (Multiset.notMem_zero _)
  | false =>
    rcases h.rts hstarted hdone hfin with hrts | hreg
    · exact .inl fun hnone => absurd (hnone ▸ hrts) (Multiset.notMem_zero _)
    · exact .inr (.inr ⟨hreg, hfin⟩)

lemma contact_init : Contact (machine σ kind t₀).init := ⟨nofun, fun _ => nofun⟩

lemma Contact.input {s : State TokenFlow TokenPacket Time} (h : Contact s) {i : TokenInput}
    {r : TokenFlow × List TokenPacket} (hr : input σ kind now i s.party = some r) :
    Contact ⟨now, r.1, s.inFlight + r.2⟩ := by
  obtain ⟨-, hfin, -, -, hreg, hdone, hstart⟩ := input_frame hr
  refine ⟨fun hstarted hnot hunfin => ?_, fun hnot hfin' => ?_⟩
  · dsimp only at hstarted hunfin ⊢
    rw [hfin] at hunfin
    rcases hstart with hstart | hsent
    · rcases h.rts (hstart ▸ hstarted) (mt hdone hnot) hunfin with hrts | hreg'
      · exact .inl (Multiset.mem_add.2 (.inl hrts))
      · rcases hreg with hreg | ⟨-, hfin'⟩
        · exact .inr (hreg.trans hreg')
        · exact nomatch hunfin.symm.trans hfin'
    · exact .inl (Multiset.mem_add.2 (.inr (Multiset.mem_coe.2 hsent)))
  · have hack := h.ack (mt hdone hnot) (hfin.symm.trans hfin')
    exact Multiset.mem_add.2 (.inl hack)

lemma Contact.receive? {s : State TokenFlow TokenPacket Time} (h : Contact s)
    (hknown : Known σ s.party) (hreg : Registered s.party) {p : TokenPacket}
    {S : Multiset TokenPacket} (hS : s.inFlight = p ::ₘ S) {r : TokenFlow × List TokenPacket}
    (hr : s.party.receive? σ kind now p = some r) (hreg' : Registered r.1) :
    Contact ⟨now, r.1, S + r.2⟩ := by
  have hother {q : TokenPacket} (hne : q ≠ p) (hq : q ∈ s.inFlight) :
      q ∈ S + (r.2 : Multiset TokenPacket) := by
    rw [hS] at hq
    exact Multiset.mem_add.2 (.inl ((Multiset.mem_cons.1 hq).resolve_left hne))
  rcases receive?_cases hr with ⟨hfin, rfl⟩ | ⟨-, ⟨rfl, hrts, rfl⟩ | ⟨rfl, hrts, l, rfl⟩ |
    ⟨ttl, seq, rfl, rfl⟩ | ⟨seq, rfl, hd⟩ | ⟨rfl, rfl⟩⟩
  · exact ⟨fun _ hnot => absurd (.inl hfin) hnot, fun hnot => absurd (.inl hfin) hnot⟩
  · refine ⟨fun _ _ hunfin => .inr ?_, fun hnot hfin => hother nofun (h.ack hnot hfin)⟩
    exact (hreg hrts).resolve_right fun hfin => nomatch hunfin.symm.trans hfin
  · refine ⟨fun _ _ _ => .inr rfl, fun _ hfin => ?_⟩
    exact nomatch (hknown.unfinished hrts).symm.trans hfin
  · refine ⟨fun hstarted hnot hunfin => ?_, fun hnot hfin => hother nofun (h.ack hnot hfin)⟩
    exact (h.rts hstarted hnot hunfin).imp_left (hother nofun)
  · refine ⟨fun _ _ hunfin => .inr ?_, fun hnot hfin => ?_⟩
    · exact (hreg' hd.known).resolve_right fun hfin => nomatch hunfin.symm.trans hfin
    · rcases hd.goal with ⟨-, -, hsent⟩ | ⟨-, hsame, -⟩
      · exact Multiset.mem_add.2 (.inr (by simp [hsent]))
      · exact hother nofun (h.ack (mt hd.done.2 hnot) (hsame.symm.trans hfin))
  · have hdone : (s.party.receiveAck kind).Done := .inr (Nat.succ_pos _)
    exact ⟨fun _ hnot => absurd hdone hnot, fun hnot => absurd hdone hnot⟩

lemma Contact.lose {s : State TokenFlow TokenPacket Time} (h : Contact s) {p : TokenPacket}
    {S : Multiset TokenPacket} (hS : s.inFlight = p ::ₘ S) (hkeep : KeepsContact s (.lose p)) :
    Contact { s with inFlight := S } := by
  have hother {q : TokenPacket} (hne : q ≠ p) (hq : q ∈ s.inFlight) : q ∈ S := by
    rw [hS] at hq
    exact (Multiset.mem_cons.1 hq).resolve_left hne
  have herase : s.inFlight.erase p = S := by rw [hS, Multiset.erase_cons_head]
  refine ⟨fun hstarted hnot hunfin => ?_, fun hnot hfin => ?_⟩
  · rcases h.rts hstarted hnot hunfin with hrts | hreg
    · by_cases hp : .rts = p
      · subst hp
        rcases hkeep with hrts | hreg | hfin
        · exact .inl (herase ▸ hrts)
        · exact .inr hreg
        · exact nomatch hunfin.symm.trans hfin
      · exact .inl (hother hp hrts)
    · exact .inr hreg
  · by_cases hp : .ack = p
    · subst hp
      rcases hkeep with hack | hdone
      · exact herase ▸ hack
      · exact absurd hdone hnot
    · exact hother hp (h.ack hnot hfin)

lemma contact_next {s t : State TokenFlow TokenPacket Time}
    {a : Act TokenPacket Time TokenInput}
    (h : (Known σ s.party ∧ Registered s.party) ∧ Contact s)
    (hC : (kind = .capability ∨ RtsFirst σ s a) ∧ KeepsContact s a)
    (hn : (machine σ kind t₀).next s a = some t) :
    (Known σ t.party ∧ Registered t.party) ∧ Contact t := by
  obtain ⟨hreg, hcontact⟩ := h
  have hreg' := registered_next hreg hC.1 hn
  refine ⟨hreg', ?_⟩
  rcases next_cases hn with ⟨now, i, r, rfl, hr, rfl⟩ | ⟨now, p, S, r, rfl, hS, hr, rfl⟩ |
    ⟨p, S, rfl, hS, rfl⟩ | ⟨p, rfl, rfl⟩
  · exact hcontact.input hr
  · exact hcontact.receive? hreg.1 hreg.2 hS hr hreg'.2
  · exact hcontact.lose hS hC.2
  · exact ⟨fun hstarted hnot hunfin =>
      (hcontact.rts hstarted hnot hunfin).imp_left Multiset.mem_cons_of_mem,
      fun hnot hfin => Multiset.mem_cons_of_mem (hcontact.ack hnot hfin)⟩

/-- **No dead state**: with any loss of tokens and data, a flow that is started and not done can go
on, in each state of a run that does not lose the last RTS of a flow the receiver does not know, or
the last ACK. Of a PIM or RUF flow of several packets the RTS must come before the data. -/
theorem noDeadState_of_keepsContact (as : List (Act TokenPacket Time TokenInput))
    (hC : Along (machine σ kind t₀)
      (fun s a => (kind = .capability ∨ RtsFirst σ s a) ∧ KeepsContact s a)
      (machine σ kind t₀).init as) :
    Always (machine σ kind t₀) NoDeadState (machine σ kind t₀).init as := by
  have hall : Always (machine σ kind t₀)
      (fun s => (Known σ s.party ∧ Registered s.party) ∧ Contact s)
      (machine σ kind t₀).init as :=
    hC.always contact_next ⟨⟨known_init, nofun⟩, contact_init⟩
  exact hall.mono fun _ h => h.2.noDeadState

/-- A flow of two packets loses the first of them, and then a token for it. -/
def dataLost (kind : TokenKind) : List (Act TokenPacket Time TokenInput) :=
  [.input 0 .start, .input 0 (.send ⟨initTimeout (packets 2) kind 0, 0⟩), .lose (.data 0),
    .deliver 0 .rts, .input 1 (.send ⟨initTimeout (packets 2) kind 0, 1⟩), .deliver 1 (.data 1),
    .input 2 (.token 0), .lose (.token (tokenTtl (packets 2) kind 0) 0), .input 3 (.token 0),
    .deliver 3 (.token (tokenTtl (packets 2) kind 0) 0)]

theorem noDeadState_of_keepsContact_dataLost :
    Always (machine (packets 2) .pim 0) NoDeadState (machine (packets 2) .pim 0).init
      (dataLost .pim) :=
  noDeadState_of_keepsContact _ (by decide +kernel)

/-- The only RTS is lost, of a flow that begins without tokens. -/
def rtsLost : List (Act TokenPacket Time TokenInput) := [.input 0 .start, .lose .rts]

def ackLost (kind : TokenKind) : List (Act TokenPacket Time TokenInput) :=
  [.input 0 .start, .deliver 0 .rts, .input 0 (.send ⟨initTimeout (packets 1) kind 0, 0⟩),
    .deliver 0 (.data 0), .lose .ack]

theorem not_noDeadState_lost :
    (¬ ∀ σ s, Reach (machine σ .pim 0) s → NoDeadState s) ∧
    (¬ ∀ σ s, Reach (machine σ .capability 0) s → NoDeadState s) ∧
    ¬ ∀ σ s, Reach (machine σ .ruf 0) s → NoDeadState s := by
  refine ⟨fun h => ?_, fun h => ?_, fun h => ?_⟩
  · obtain ⟨s, hs, hdead⟩ := exists_reach_of_exec_any (M := machine (packets 9) .pim 0)
      (P := fun s => ¬ NoDeadState s) rtsLost (by decide +kernel)
    exact hdead (h (packets 9) s hs)
  · obtain ⟨s, hs, hdead⟩ := exists_reach_of_exec_any (M := machine (packets 9) .capability 0)
      (P := fun s => ¬ NoDeadState s) rtsLost (by decide +kernel)
    exact hdead (h (packets 9) s hs)
  · obtain ⟨s, hs, hdead⟩ := exists_reach_of_exec_any (M := machine (packets 1) .ruf 0)
      (P := fun s => ¬ NoDeadState s) (ackLost .ruf) (by decide +kernel)
    exact hdead (h (packets 1) s hs)

end DcSim.TokenFlow
