import DcSim.RingScan
import DcSim.TokenRegistration
import Mathlib.Order.Bounds.Basic

/-!
Which data packet the next token is for.

The search goes on behind the last token, to the end of the flow and from there to
`received_until`, which is the first packet that is missing until the flow is finished at the
receiver. So the packets are asked for in turn, as by a cursor on a ring.
-/

namespace DcSim.TokenFlow

open LossyNet RingScan Runs

variable {σ : TokenSpec} {kind : TokenKind} {f : TokenFlow} {now t₀ : Time} {i j : ℕ}

/-- The data packets that the receiver does not have. -/
def missing (σ : TokenSpec) (f : TokenFlow) : Finset ℕ :=
  {i ∈ Finset.range σ.sizeInPkt | i ∉ f.packetsReceived}

lemma mem_missing : i ∈ missing σ f ↔ i < σ.sizeInPkt ∧ i ∉ f.packetsReceived := by
  rw [missing, Finset.mem_filter, Finset.mem_range]

lemma lt_of_mem_missing (hi : i ∈ missing σ f) : i < σ.sizeInPkt := (mem_missing.mp hi).1

def cursor (σ : TokenSpec) (f : TokenFlow) : ℕ :=
  (f.lastTokenDataSeqNumSent + 1).toNat % σ.sizeInPkt

/-! ### The search -/

lemma nextLoop_found (turns : ℕ) (hi : i ∈ missing σ f) :
    f.nextLoop σ (turns + 1) i = some i := by
  obtain ⟨hlt, hnot⟩ := mem_missing.mp hi
  rw [nextLoop, if_pos hnot, if_pos hlt]

lemma nextLoop_up {turns seq : ℕ} (hi : i ∈ missing σ f) (hle : seq ≤ i)
    (hfirst : ∀ j ∈ missing σ f, seq ≤ j → i ≤ j) (hturns : i < seq + turns) :
    f.nextLoop σ turns seq = some i := by
  have hlt := lt_of_mem_missing hi
  induction turns generalizing seq with
  | zero => omega
  | succ turns ih =>
    rcases Nat.eq_or_lt_of_le hle with rfl | hseq
    · exact nextLoop_found turns hi
    · have hmem : seq ∈ f.packetsReceived := by
        by_contra hnot
        exact absurd (hfirst seq (mem_missing.mpr ⟨by omega, hnot⟩) le_rfl) (by omega)
      rw [nextLoop, if_neg (not_not.mpr hmem), if_neg (by omega)]
      exact ih hseq (fun j hj hle => hfirst j hj (Nat.le_of_succ_le hle)) (by omega)

lemma nextLoop_wrap {turns seq : ℕ} (huntil : f.receivedUntil ∈ missing σ f)
    (hnone : ∀ j ∈ missing σ f, j < seq) (hseq : seq < σ.sizeInPkt)
    (hturns : σ.sizeInPkt < seq + turns) : f.nextLoop σ turns seq = some f.receivedUntil := by
  induction turns generalizing seq with
  | zero => omega
  | succ turns ih =>
    have hmem : seq ∈ f.packetsReceived := by
      by_contra hnot
      exact absurd (hnone seq (mem_missing.mpr ⟨hseq, hnot⟩)) (lt_irrefl seq)
    rw [nextLoop, if_neg (not_not.mpr hmem)]
    split_ifs with hlast
    · obtain ⟨turns, rfl⟩ := Nat.exists_eq_succ_of_ne_zero (show turns ≠ 0 by omega)
      exact nextLoop_found turns huntil
    · exact ih (fun j hj => (hnone j hj).trans (Nat.lt_succ_self seq)) (by omega) (by omega)

/-- **The search finds the next packet that is missing**, with `received_until` the first of
them. -/
theorem getNextTokenSeqNum_next (huntil : IsLeast (missing σ f : Set ℕ) f.receivedUntil) :
    ∃ i, f.getNextTokenSeqNum σ = some i ∧
      Next σ.sizeInPkt (missing σ f) (cursor σ f) i := by
  obtain ⟨hmem, hleast⟩ := huntil
  have hlt := lt_of_mem_missing hmem
  have hcursor : cursor σ f < σ.sizeInPkt := Nat.mod_lt _ (by omega)
  by_cases hup : ∃ i, i ∈ missing σ f ∧ cursor σ f ≤ i
  · have hi := Nat.find_spec hup
    have hfirst : ∀ j ∈ missing σ f, cursor σ f ≤ j → Nat.find hup ≤ j := fun j hj hle =>
      Nat.find_min' hup ⟨hj, hle⟩
    have hin := lt_of_mem_missing hi.1
    have hturns : Nat.find hup < cursor σ f + σ.sizeInPkt := by omega
    exact ⟨_, nextLoop_up hi.1 hi.2 hfirst hturns, next_of_le hi.1 hi.2 hin hfirst⟩
  · have hnone : ∀ j ∈ missing σ f, j < cursor σ f := fun j hj => by
      by_contra hle
      exact hup ⟨j, hj, Nat.not_lt.mp hle⟩
    have hpos := hnone _ hmem
    have hturns : σ.sizeInPkt < cursor σ f + σ.sizeInPkt := by omega
    exact ⟨_, nextLoop_wrap hmem hnone hcursor hturns,
      next_of_lt hmem hnone fun j hj => hleast hj⟩

/-! ### The cursor of a run -/

def LastInFlow (σ : TokenSpec) (f : TokenFlow) : Prop :=
  -1 ≤ f.lastTokenDataSeqNumSent ∧ f.lastTokenDataSeqNumSent < σ.sizeInPkt

lemma initTokenSize_le (σ : TokenSpec) : initTokenSize σ ≤ σ.sizeInPkt := by
  unfold initTokenSize
  split_ifs <;> omega

lemma lastInFlow_initTokenSize (hlast : f.lastTokenDataSeqNumSent = initTokenSize σ - 1) :
    LastInFlow σ f := by
  have hle := initTokenSize_le σ
  unfold LastInFlow
  omega

lemma LastInFlow.receiveShortFlow {g : TokenFlow} (h : f.receiveShortFlow σ = some g) :
    LastInFlow σ g := by
  obtain ⟨-, h⟩ := Option.ite_none_left_eq_some.mp h
  obtain rfl := Option.some.inj h
  exact lastInFlow_initTokenSize rfl

lemma LastInFlow.receiveRts {g : TokenFlow} (hlast : LastInFlow σ f)
    (h : f.receiveRts σ kind = some g) : LastInFlow σ g := by
  cases kind with
  | capability =>
    obtain rfl := Option.some.inj h
    exact lastInFlow_initTokenSize rfl
  | _ =>
    dsimp only [TokenFlow.receiveRts] at h
    split_ifs at h
    · exact Option.some.inj h ▸ hlast
    · exact receiveShortFlow h

lemma LastInFlow.dataBeforeRts {g : TokenFlow} (hlast : LastInFlow σ f)
    (h : f.dataBeforeRts σ kind = some g) : LastInFlow σ g := by
  cases kind with
  | capability =>
    have hrts : f.receiveRts σ .capability = some g := h
    exact hlast.receiveRts hrts
  | _ => exact receiveShortFlow h

structure UntilFirst (σ : TokenSpec) (f : TokenFlow) : Prop where
  le : f.receivedUntil ≤ σ.sizeInPkt
  received : ∀ i < f.receivedUntil, i ∈ f.packetsReceived
  notMem : f.receivedUntil < σ.sizeInPkt → f.receivedUntil ∉ f.packetsReceived

lemma UntilFirst.isLeast (h : UntilFirst σ f) (hj : j ∈ missing σ f) :
    IsLeast (missing σ f : Set ℕ) f.receivedUntil := by
  have hleast : ∀ i ∈ missing σ f, f.receivedUntil ≤ i := fun i hi => by
    by_contra hlt
    exact (mem_missing.mp hi).2 (h.received i (Nat.not_le.mp hlt))
  have hlt : f.receivedUntil < σ.sizeInPkt := (hleast j hj).trans_lt (lt_of_mem_missing hj)
  exact ⟨Finset.mem_coe.mpr (mem_missing.mpr ⟨hlt, h.notMem hlt⟩), hleast⟩

lemma untilLoop_spec {R : Finset ℕ} {turns seq : ℕ} (hle : seq ≤ σ.sizeInPkt)
    (hR : ∀ i < seq, i ∈ R) (hturns : σ.sizeInPkt ≤ seq + turns) :
    let u := untilLoop σ R turns seq
    u ≤ σ.sizeInPkt ∧ (∀ i < u, i ∈ R) ∧ (u < σ.sizeInPkt → u ∉ R) := by
  induction turns generalizing seq with
  | zero => exact ⟨hle, hR, fun hlt => absurd (hlt.trans_le hturns) (lt_irrefl seq)⟩
  | succ turns ih =>
    dsimp only
    unfold untilLoop
    split_ifs with hmem
    · refine ih hmem.1 (fun i hi => ?_) (by omega)
      rcases Nat.lt_succ_iff_lt_or_eq.mp hi with hi | rfl
      · exact hR i hi
      · exact hmem.2
    · exact ⟨hle, hR, fun hlt hin => hmem ⟨hlt, hin⟩⟩

lemma UntilFirst.accept (h : UntilFirst σ f) (seq : ℕ) : UntilFirst σ (f.accept σ seq) := by
  unfold TokenFlow.accept
  dsimp only
  split_ifs with hmem
  · exact ⟨h.le, h.received, h.notMem⟩
  · have hspec := untilLoop_spec (R := insert seq f.packetsReceived) h.le
      (fun i hi => Finset.mem_insert_of_mem (h.received i hi)) (Nat.le_add_left _ _)
    exact ⟨hspec.1, hspec.2.1, hspec.2.2⟩

lemma LastInFlow.accept (h : LastInFlow σ f) (seq : ℕ) : LastInFlow σ (f.accept σ seq) := by
  obtain ⟨D, S, n, u, -, -, hacc⟩ := accept_frame (σ := σ) (f := f) seq
  rw [hacc]
  exact h

lemma receiveData_cases {seq : ℕ} {r : TokenFlow × List TokenPacket}
    (hr : f.receiveData σ kind seq = some r) :
    ∃ g, (f.rtsReceived = true ∧ g = f ∨
        f.rtsReceived = false ∧ f.dataBeforeRts σ kind = some g) ∧
      (r = ({ g.accept σ seq with finishedAtReceiver := true }, [.ack]) ∨
        r = (g.accept σ seq, [])) := by
  obtain ⟨g, hg, rfl⟩ := Option.map_eq_some_iff.mp hr
  refine ⟨g, ?_, ?_⟩
  · split_ifs at hg with hrts
    · exact .inl ⟨hrts, (Option.some.inj hg).symm⟩
    · exact .inr ⟨Bool.eq_false_iff.mpr hrts, hg⟩
  · dsimp only
    split_ifs
    · exact .inl rfl
    · exact .inr rfl

structure Scanned (σ : TokenSpec) (f : TokenFlow) : Prop where
  known : Known σ f
  last : LastInFlow σ f
  first : f.finishedAtReceiver = false → UntilFirst σ f

/-- An ACK comes from a receiver that has all data. -/
def AckAfter (f : TokenFlow) (p : TokenPacket) : Prop := p = .ack → f.finishedAtReceiver = true

def StaysFinished (f g : TokenFlow) : Prop :=
  f.finishedAtReceiver = true → g.finishedAtReceiver = true

lemma Scanned.init : Scanned σ (party σ kind).init where
  known := (known_init : Known σ (machine σ kind 0).init.party)
  last := ⟨le_rfl, by simp [party]; omega⟩
  first _ := ⟨Nat.zero_le _, fun i hi => absurd hi (Nat.not_lt_zero i), fun _ => by simp [party]⟩

lemma Scanned.input (h : Scanned σ f) {i : TokenInput} {r : TokenFlow × List TokenPacket}
    (hr : input σ kind now i f = some r) : Call (Scanned σ) StaysFinished AckAfter f r := by
  have hknown := h.known.input hr
  have hfirst : ∀ g : TokenFlow, g.receivedUntil = f.receivedUntil →
      g.packetsReceived = f.packetsReceived → UntilFirst σ f → UntilFirst σ g :=
    fun g hu hp hf => ⟨hu ▸ hf.le, hu ▸ hp ▸ hf.received, hu ▸ hp ▸ hf.notMem⟩
  rcases input_cases hr with ⟨-, -, rfl⟩ | ⟨t, -, -, rfl⟩ | ⟨t, -, -, rfl⟩ |
    ⟨epoch, seq, -, -, -, hseq, rfl⟩ | ⟨-, -, rfl⟩ | ⟨-, -, rfl⟩
  · exact ⟨⟨hknown, h.last, fun hfin => hfirst _ rfl rfl (h.first hfin)⟩, id, by simp [AckAfter]⟩
  · exact ⟨⟨hknown, h.last, fun hfin => hfirst _ rfl rfl (h.first hfin)⟩, id, by simp [AckAfter]⟩
  · exact ⟨⟨hknown, h.last, fun hfin => hfirst _ rfl rfl (h.first hfin)⟩, id, by simp⟩
  · have hlt : seq < σ.sizeInPkt := nextLoop_lt hseq
    refine ⟨⟨hknown, ⟨?_, ?_⟩, fun hfin => hfirst _ rfl rfl (h.first hfin)⟩, id,
      by simp [AckAfter]⟩
    · dsimp only
      omega
    · dsimp only
      omega
  · exact ⟨⟨hknown, h.last, fun hfin => hfirst _ rfl rfl (h.first hfin)⟩, id, by simp⟩
  · exact ⟨⟨hknown, h.last, fun hfin => hfirst _ rfl rfl (h.first hfin)⟩, id, by simp⟩

lemma Scanned.beforeData {g : TokenFlow} (h : Scanned σ f)
    (hg : f.rtsReceived = true ∧ g = f ∨
      f.rtsReceived = false ∧ f.dataBeforeRts σ kind = some g) :
    LastInFlow σ g ∧ g.finishedAtReceiver = f.finishedAtReceiver ∧
      g.packetsReceived = f.packetsReceived ∧
      (f.finishedAtReceiver = false → UntilFirst σ g) := by
  rcases hg with ⟨-, rfl⟩ | ⟨-, hg⟩
  · exact ⟨h.last, rfl, rfl, h.first⟩
  · have hlast := h.last.dataBeforeRts hg
    obtain ⟨l, rfl⟩ := dataBeforeRts_frame hg
    exact ⟨hlast, rfl, rfl, fun hfin => ⟨(h.first hfin).le, (h.first hfin).received,
      (h.first hfin).notMem⟩⟩

lemma accept_finishedAtReceiver (seq : ℕ) :
    (f.accept σ seq).finishedAtReceiver = f.finishedAtReceiver := by
  obtain ⟨D, S, n, u, -, -, hacc⟩ := accept_frame (σ := σ) (f := f) seq
  rw [hacc]

lemma Scanned.receiveData (h : Scanned σ f) {seq : ℕ} {r : TokenFlow × List TokenPacket}
    (hknown : Known σ r.1) (hr : f.receiveData σ kind seq = some r) :
    Call (Scanned σ) StaysFinished AckAfter f r := by
  obtain ⟨g, hg, hcases⟩ := receiveData_cases hr
  obtain ⟨hlast, hfin, -, hfirst⟩ := h.beforeData hg
  have hfin' := (accept_finishedAtReceiver (σ := σ) (f := g) seq).trans hfin
  rcases hcases with rfl | rfl
  · exact ⟨⟨hknown, hlast.accept seq, nofun⟩, fun _ => rfl, fun _ _ _ => rfl⟩
  · refine ⟨⟨hknown, hlast.accept seq, fun hunfin => ?_⟩, fun h => hfin'.trans h, by simp⟩
    exact (hfirst (hfin'.symm.trans hunfin)).accept seq

lemma Scanned.receive? (h : Scanned σ f) {p : TokenPacket} (hp : AckAfter f p)
    {r : TokenFlow × List TokenPacket} (hr : f.receive? σ kind now p = some r) :
    Call (Scanned σ) StaysFinished AckAfter f r := by
  have hknown := h.known.receive? hr
  unfold TokenFlow.receive? at hr
  by_cases hfin : f.finished = true
  · rw [if_pos hfin] at hr
    obtain rfl := Option.some.inj hr
    exact ⟨h, id, by simp⟩
  · rw [if_neg hfin] at hr
    cases p with
    | rts =>
      dsimp only at hr
      split_ifs at hr
      · obtain rfl := Option.some.inj hr
        exact ⟨h, id, by simp⟩
      · obtain ⟨g, hg, rfl⟩ := Option.map_eq_some_iff.mp hr
        have hlast := h.last.receiveRts hg
        obtain ⟨l, rfl⟩ := receiveRts_frame hg
        exact ⟨⟨hknown, hlast, fun hfin => ⟨(h.first hfin).le, (h.first hfin).received,
          (h.first hfin).notMem⟩⟩, id, by simp⟩
    | token ttl seq =>
      obtain rfl := Option.some.inj hr
      exact ⟨⟨hknown, h.last, fun hfin => ⟨(h.first hfin).le, (h.first hfin).received,
          (h.first hfin).notMem⟩⟩, id, by simp⟩
    | data seq => exact h.receiveData hknown hr
    | ack =>
      obtain rfl := Option.some.inj hr
      have hdone := hp rfl
      exact ⟨⟨hknown, h.last, fun hunfin => absurd (hunfin.symm.trans hdone) Bool.false_ne_true⟩,
        id, by simp⟩

lemma scanned_calls :
    Calls (party σ kind) (fun _ _ => True) (Scanned σ) StaysFinished AckAfter where
  init := .init
  mono hle hp hack := hle (hp hack)
  input _ h hr := h.input hr
  receive {f t p} _ h hp := by
    cases hr : f.receive? σ kind t p with
    | none =>
      have hquiet : (party σ kind).receive t p f = (f, []) := by simp [party, hr]
      exact hquiet ▸ ⟨h, id, by simp⟩
    | some r =>
      have hcall : (party σ kind).receive t p f = r := by simp [party, hr]
      exact hcall ▸ h.receive? hp hr

/-! ### The tokens of a run -/

/-- The data packet that a token sent in this step is for. -/
def sentToken (σ : TokenSpec) (s : State TokenFlow TokenPacket Time) :
    Act TokenPacket Time TokenInput → List ℕ
  | .input _ (.token _) => (s.party.getNextTokenSeqNum σ).toList
  | _ => []

/-- The data packets that the tokens of a run are for. -/
def tokensSent (σ : TokenSpec) (kind : TokenKind) (t₀ : Time) :
    State TokenFlow TokenPacket Time → List (Act TokenPacket Time TokenInput) → List ℕ :=
  outputs (machine σ kind t₀) (sentToken σ)

lemma missing_accept (seq : ℕ) : missing σ (f.accept σ seq) ⊆ missing σ f := by
  have hsub : f.packetsReceived ⊆ (f.accept σ seq).packetsReceived := by
    unfold accept
    dsimp only
    split_ifs
    · exact Finset.Subset.refl _
    · exact Finset.subset_insert _ _
  intro i hi
  obtain ⟨hlt, hnot⟩ := mem_missing.mp hi
  exact mem_missing.mpr ⟨hlt, fun hin => hnot (hsub hin)⟩

lemma Scanned.received (h : Scanned σ f) (hunfin : f.finishedAtReceiver = false)
    {p : TokenPacket} (hp : AckAfter f p) {r : TokenFlow × List TokenPacket}
    (hr : f.receive? σ kind now p = some r) :
    missing σ r.1 ⊆ missing σ f ∧
      (f.registered = true → r.1.registered = true ∧ cursor σ r.1 = cursor σ f) := by
  have hrts : f.registered = true → f.rtsReceived ≠ false := fun hreg hrts =>
    Bool.false_ne_true ((h.known.unregistered hrts).symm.trans hreg)
  rcases receive?_cases hr with ⟨-, rfl⟩ | ⟨hfin, ⟨-, -, rfl⟩ | ⟨-, hnot, l, rfl⟩ |
    ⟨ttl, seq, -, rfl⟩ | ⟨seq, rfl, hd⟩ | ⟨rfl, -⟩⟩
  · exact ⟨Finset.Subset.refl _, fun hreg => ⟨hreg, rfl⟩⟩
  · exact ⟨Finset.Subset.refl _, fun hreg => ⟨hreg, rfl⟩⟩
  · exact ⟨Finset.Subset.refl _, fun hreg => absurd hnot (hrts hreg)⟩
  · exact ⟨Finset.Subset.refl _, fun hreg => ⟨hreg, rfl⟩⟩
  · have hdata : f.receiveData σ kind seq = some r := by
      rw [← hr, TokenFlow.receive?, if_neg (by simp [hfin])]
    obtain ⟨g, hg, hcases⟩ := receiveData_cases hdata
    obtain ⟨-, -, hsame, -⟩ := h.beforeData hg
    obtain ⟨D, S, n, u, -, -, hacc⟩ := accept_frame (σ := σ) (f := g) seq
    have hmissing : missing σ (g.accept σ seq) ⊆ missing σ f := by
      have hgf : missing σ g = missing σ f := by rw [missing, hsame, missing]
      exact hgf ▸ missing_accept seq
    refine ⟨?_, fun hreg => ?_⟩
    · rcases hcases with rfl | rfl
      · exact hmissing
      · exact hmissing
    · have hknown : f.rtsReceived = true := Bool.eq_true_of_not_eq_false (hrts hreg)
      have hgf : g = f := by
        rcases hg with ⟨-, rfl⟩ | ⟨hnot, -⟩
        · rfl
        · exact absurd hnot (hrts hreg)
      refine ⟨by rw [hd.registered, if_pos hknown, hreg], ?_⟩
      rcases hcases with rfl | rfl
      · rw [hacc, hgf]
        rfl
      · rw [hacc, hgf]
        rfl
  · exact absurd (hunfin.symm.trans (hp rfl)) Bool.false_ne_true

lemma step_cursor {s t : State TokenFlow TokenPacket Time} {a : Act TokenPacket Time TokenInput}
    (hs : Reach (machine σ kind t₀) s) (hunfin : s.party.finishedAtReceiver = false)
    (hn : (machine σ kind t₀).next s a = some t) :
    (missing σ t.party ⊆ missing σ s.party ∧ sentToken σ s a = [] ∧
      (s.party.registered = true →
        t.party.registered = true ∧ cursor σ t.party = cursor σ s.party)) ∨
    (∃ i, s.party.registered = true ∧ t.party.registered = true ∧
      missing σ t.party = missing σ s.party ∧ s.party.getNextTokenSeqNum σ = some i ∧
      sentToken σ s a = [i] ∧ cursor σ t.party = (i + 1) % σ.sizeInPkt) := by
  obtain ⟨hscan, hack⟩ := scanned_calls.kept.reach hs.of_restrict
  rcases next_cases hn with ⟨now, i, r, rfl, hr, rfl⟩ | ⟨now, p, S, r, rfl, hS, hr, rfl⟩ |
    ⟨p, S, rfl, hS, rfl⟩ | ⟨p, rfl, rfl⟩
  · rcases input_cases hr with ⟨rfl, -, rfl⟩ | ⟨t, rfl, -, rfl⟩ | ⟨t, rfl, -, rfl⟩ |
      ⟨epoch, seq, rfl, hreg, -, hseq, rfl⟩ | ⟨-, hfin, -⟩ | ⟨rfl, -, rfl⟩
    · exact .inl ⟨Finset.Subset.refl _, rfl, fun hreg => ⟨hreg, rfl⟩⟩
    · exact .inl ⟨Finset.Subset.refl _, rfl, fun hreg => ⟨hreg, rfl⟩⟩
    · exact .inl ⟨Finset.Subset.refl _, rfl, fun hreg => ⟨hreg, rfl⟩⟩
    · exact .inr ⟨seq, hreg, hreg, rfl, hseq, by rw [sentToken, hseq]; rfl, rfl⟩
    · exact absurd (hunfin.symm.trans hfin) Bool.false_ne_true
    · exact .inl ⟨Finset.Subset.refl _, rfl, fun hreg => ⟨hreg, rfl⟩⟩
  · have hp := hack p (hS ▸ Multiset.mem_cons_self p S)
    obtain ⟨hsub, hkeep⟩ := hscan.received hunfin hp hr
    exact .inl ⟨hsub, rfl, hkeep⟩
  · exact .inl ⟨Finset.Subset.refl _, rfl, fun hreg => ⟨hreg, rfl⟩⟩
  · exact .inl ⟨Finset.Subset.refl _, rfl, fun hreg => ⟨hreg, rfl⟩⟩

lemma tokensSent_of_finished {s : State TokenFlow TokenPacket Time}
    {as : List (Act TokenPacket Time TokenInput)} (hs : Reach (machine σ kind t₀) s)
    (hfin : s.party.finishedAtReceiver = true) : tokensSent σ kind t₀ s as = [] := by
  induction as generalizing s with
  | nil => rfl
  | cons a as ih =>
    cases hn : (machine σ kind t₀).next s a with
    | none => exact outputs_stuck as hn
    | some t =>
      obtain ⟨hscan, hack⟩ := scanned_calls.kept.reach hs.of_restrict
      have hstep : t.party.finishedAtReceiver = true ∧ sentToken σ s a = [] := by
        rcases next_cases hn with ⟨now, i, r, rfl, hr, rfl⟩ | ⟨now, p, S, r, rfl, hS, hr, rfl⟩ |
          ⟨p, S, rfl, hS, rfl⟩ | ⟨p, rfl, rfl⟩
        · refine ⟨(hscan.input hr).le hfin, ?_⟩
          rcases input_cases hr with ⟨rfl, -⟩ | ⟨t, rfl, -⟩ | ⟨t, rfl, -⟩ |
            ⟨epoch, seq, -, -, hunfin, -⟩ | ⟨rfl, -⟩ | ⟨rfl, -⟩
          · rfl
          · rfl
          · rfl
          · exact absurd (hunfin.symm.trans hfin) Bool.false_ne_true
          · rfl
          · rfl
        · have hp := hack p (hS ▸ Multiset.mem_cons_self p S)
          exact ⟨(hscan.receive? hp hr).le hfin, rfl⟩
        · exact ⟨hfin, rfl⟩
        · exact ⟨hfin, rfl⟩
      have hrest : tokensSent σ kind t₀ t as = [] := ih (hs.step hn) hstep.1
      rw [tokensSent, outputs_cons as hn, hstep.2, List.nil_append]
      exact hrest

/-- **The tokens of a run are the stops of a cursor**, which begins where it is when the flow is
registered. -/
lemma stops_tokensSent {s : State TokenFlow TokenPacket Time}
    {as : List (Act TokenPacket Time TokenInput)} (hs : Reach (machine σ kind t₀) s)
    (hstays : Always (machine σ kind t₀) (fun t => j ∈ missing σ t.party) s as) :
    ∃ d < σ.sizeInPkt, (s.party.registered = true → d = cursor σ s.party) ∧
      Stops σ.sizeInPkt j (missing σ s.party) d (tokensSent σ kind t₀ s as) := by
  have hcursor : ∀ f : TokenFlow, cursor σ f < σ.sizeInPkt := fun f =>
    Nat.mod_lt _ (Nat.zero_lt_of_lt (lt_of_mem_missing hstays.head))
  induction as generalizing s with
  | nil => exact ⟨_, hcursor s.party, fun _ => rfl, .nil⟩
  | cons a as ih =>
    cases hn : (machine σ kind t₀).next s a with
    | none =>
      have hempty : tokensSent σ kind t₀ s (a :: as) = [] := outputs_stuck as hn
      exact ⟨_, hcursor s.party, fun _ => rfl, hempty ▸ .nil⟩
    | some t =>
      cases hfin : s.party.finishedAtReceiver with
      | true =>
        exact ⟨_, hcursor s.party, fun _ => rfl, tokensSent_of_finished hs hfin ▸ .nil⟩
      | false =>
        obtain ⟨d, hd, hstart, hstops⟩ := ih (hs.step hn) (hstays.2 t hn)
        have hjt := (hstays.2 t hn).head
        have hcons : tokensSent σ kind t₀ s (a :: as) =
            sentToken σ s a ++ tokensSent σ kind t₀ t as := outputs_cons as hn
        rw [hcons]
        rcases step_cursor hs hfin hn with ⟨hsub, hnone, hkeep⟩ |
          ⟨i, hreg, hreg', hsame, hi, hsent, hnext⟩
        · rw [hnone, List.nil_append]
          refine ⟨d, hd, fun hreg => ?_, .leave hsub hjt hstops⟩
          exact (hstart (hkeep hreg).1).trans (hkeep hreg).2
        · obtain ⟨i', hi', hfirst⟩ := getNextTokenSeqNum_next
            (((scanned_calls.kept.reach hs.of_restrict).1.first hfin).isLeast hstays.head)
          obtain rfl := Option.some.inj (hi'.symm.trans hi)
          rw [hsent, List.singleton_append]
          refine ⟨_, hcursor s.party, fun _ => rfl, .stop hfirst ?_⟩
          rw [← hnext, ← hstart hreg', ← hsame]
          exact hstops

/-- **Tokens are for what is missing, and for all of it in turn**: where `received_until` is the
first packet that is missing, the search finds a packet that is missing, and a packet that stays
missing is among the next that tokens are for, as many as were missing at first. -/
theorem token_sequence {s : State TokenFlow TokenPacket Time} (hs : Reach (machine σ kind t₀) s)
    (huntil : IsLeast (missing σ s.party : Set ℕ) s.party.receivedUntil) :
    (∃ i ∈ missing σ s.party, s.party.getNextTokenSeqNum σ = some i) ∧
    ∀ j as, Always (machine σ kind t₀) (fun t => j ∈ missing σ t.party) s as →
      (missing σ s.party).card ≤ (tokensSent σ kind t₀ s as).length →
      j ∈ (tokensSent σ kind t₀ s as).take (missing σ s.party).card := by
  refine ⟨?_, fun j as hstays hlen => ?_⟩
  · obtain ⟨i, hi, hnext⟩ := getNextTokenSeqNum_next huntil
    exact ⟨i, hnext.1, hi⟩
  · obtain ⟨d, hd, -, hstops⟩ := stops_tokensSent hs hstays
    exact hstops.mem_take (fun _ hi => lt_of_mem_missing hi) hd hstays.head hlen

/-- A flow of three packets that waits for its tokens. -/
def threeAsked : TokenSpec := { packets 3 with tokenInitial := 0 }

/-- The flow is registered, and given a token for its first packet, which arrives; three more
tokens are sent. -/
def firstArrives : List (Act TokenPacket Time TokenInput) :=
  [.input 1 (.token 0), .deliver 2 (.token (tokenTtl threeAsked .ruf 0) 0),
    .input 2 (.send ⟨2 + tokenTtl threeAsked .ruf 0, 0⟩), .deliver 3 (.data 0),
    .input 4 (.token 0), .input 5 (.token 0), .input 6 (.token 0)]

theorem token_sequence_firstArrives :
    ∃ s, exec (machine threeAsked .ruf 0) (machine threeAsked .ruf 0).init
        [.input 0 .start, .deliver 0 .rts] = some s ∧
      (∃ i ∈ missing threeAsked s.party, s.party.getNextTokenSeqNum threeAsked = some i) ∧
      2 ∈ (tokensSent threeAsked .ruf 0 s firstArrives).take 3 := by
  obtain ⟨s, hs, ⟨hmissing, huntil⟩, hlen, hstays⟩ : ∃ s,
      exec (machine threeAsked .ruf 0) (machine threeAsked .ruf 0).init
        [.input 0 .start, .deliver 0 .rts] = some s ∧
      (missing threeAsked s.party = {0, 1, 2} ∧ s.party.receivedUntil = 0) ∧
      (tokensSent threeAsked .ruf 0 s firstArrives).length = 4 ∧
      Always (machine threeAsked .ruf 0) (fun t => 2 ∈ missing threeAsked t.party) s
        firstArrives := exists_exec_of_any (by decide +kernel)
  have hleast : IsLeast (missing threeAsked s.party : Set ℕ) s.party.receivedUntil := by
    rw [hmissing, huntil]
    exact ⟨by simp, fun i _ => Nat.zero_le i⟩
  obtain ⟨hnext, hall⟩ := token_sequence (Reach.init.of_exec hs) hleast
  have htwo := hall 2 firstArrives hstays (by rw [hmissing, hlen]; decide)
  rw [hmissing] at htwo
  exact ⟨s, hs, hnext, htwo⟩

end DcSim.TokenFlow
