import DcSim.FlowSafety

/-!
What a retransmission timeout sends.

A timeout goes back to `last_unacked_seq` with a window of one packet, and sends the segments
in the window that `received`, which the two ends share, does not have. When the ACKs of the
segments that were received are lost, the first missing segment can be out of the window, or
none be missing at all: then a timeout sends nothing and starts the timer again.
-/

namespace DcSim.Flow

open LossyNet Runs Segments Word32

variable {σ : FlowSpec} {kind : FlowKind} {f : Flow PFabric}

/-! ### The loop -/

/-- After `n` turns from `seq` on, the loop of `send_pending_data` is at a segment to send. -/
def LoopSends (σ : FlowSpec) (f : Flow PFabric) (window seq n : ℕ) : Prop :=
  (∀ i ≤ n, f.MaySend σ window ((nextSeq σ)^[i] seq)) ∧ (nextSeq σ)^[n] seq ∉ f.received

lemma loopSends_zero (window seq : ℕ) :
    LoopSends σ f window seq 0 ↔ f.MaySend σ window seq ∧ seq ∉ f.received := by
  simp [LoopSends]

lemma loopSends_succ (window seq n : ℕ) :
    LoopSends σ f window seq (n + 1) ↔
      f.MaySend σ window seq ∧ LoopSends σ f window (nextSeq σ seq) n := by
  unfold LoopSends
  rw [← and_assoc, Function.iterate_succ_apply]
  refine and_congr_left fun _ => ⟨fun h => ⟨h 0 (Nat.zero_le _), fun i hi => ?_⟩, fun h i hi => ?_⟩
  · exact h (i + 1) (Nat.succ_le_succ hi)
  · cases i with
    | zero => exact h.1
    | succ i => exact h.2 i (Nat.le_of_succ_le_succ hi)

/-- **The loop of `send_pending_data`** sends a packet exactly when it gets to a segment that
is not in `received`. -/
theorem sendLoop_ne_nil (now : Time) (window priority turns seq : ℕ) :
    (sendLoop σ now window priority turns seq f).2 ≠ [] ↔
      ∃ n < turns, LoopSends σ f window seq n := by
  induction turns generalizing seq f with
  | zero => simp [sendLoop]
  | succ turns ih =>
    obtain ⟨r, es, c, hadv⟩ := f.advance_frame (σ := σ) now seq
    have hrest : (∃ n < turns, LoopSends σ (f.advance σ now seq) window (nextSeq σ seq) n) ↔
        ∃ n < turns, LoopSends σ f window (nextSeq σ seq) n := by
      rw [hadv]
      rfl
    rw [Nat.exists_lt_succ_left]
    simp only [loopSends_zero, loopSends_succ, sendLoop]
    by_cases hmay : f.MaySend σ window seq
    · simp only [hmay, true_and, ← hrest, ← ih, ne_eq]
      by_cases hmem : seq ∈ f.received
      · simp [hmem]
      · simp [hmem]
    · simp [hmay]

/-! ### The timeout -/

def timeoutWindow (σ : FlowSpec) (f : Flow PFabric) : ℕ :=
  add32 (mul32 1 σ.mss) f.scoreboardSackBytes

/-- Some bytes are missing at the receiver, and the loop of a timeout gets to a segment to
send. -/
def FindsMissing (σ : FlowSpec) (f : Flow PFabric) : Prop :=
  f.receivedBytes < σ.size ∧
    ∃ n ≤ σ.size, LoopSends σ f (timeoutWindow σ f) f.lastUnackedSeq n

theorem handleTimeout_ne_nil (f : Flow PFabric) (now : Time) :
    (f.handleTimeout σ kind now).2 ≠ [] ↔ FindsMissing σ f := by
  have hwith : ∀ o, ({ f with own := o }.handleTimeoutWith σ
      (fun f => f.sendPendingData σ kind now) now).2 ≠ [] ↔ FindsMissing σ f := by
    intro o
    unfold handleTimeoutWith sendPendingData FindsMissing
    dsimp only
    by_cases hbytes : f.receivedBytes < σ.size
    · rw [if_pos hbytes, sendLoop_ne_nil]
      simp only [hbytes, true_and, Nat.lt_succ_iff]
      rfl
    · simp [hbytes]
  cases kind
  · exact hwith f.own
  · exact hwith _
  · exact hwith f.own

/-! ### The receiver -/

lemma ackLoop_false (received : Finset ℕ) (m turns s recvTill : ℕ) (sackList : List ℕ) :
    (ackLoop σ received m turns s recvTill false sackList).1 = recvTill := by
  induction turns generalizing s sackList with
  | zero => rfl
  | succ turns ih =>
    simp only [ackLoop, Bool.false_eq_true, if_false]
    split_ifs
    · exact ih _ _
    · exact ih _ _
    · rfl

/-- **The loop over the received segments** stops at the first one that is not there. -/
theorem ackLoop_stops (hsize : σ.size + σ.mss < 4294967296) {received : Finset ℕ} {m : ℕ}
    (hmax : m < σ.size) (hrec : ∀ s ∈ received, s ≤ m) (turns s recvTill : ℕ)
    (sackList : List ℕ) (hturns : m < s + turns) (hs : s = recvTill ∨ recvTill = σ.size) :
    (ackLoop σ received m turns s recvTill true sackList).1 < σ.size →
      (ackLoop σ received m turns s recvTill true sackList).1 ∉ received := by
  have hpast : m < s → recvTill < σ.size → recvTill ∉ received := by
    intro hms hlt hmem
    obtain rfl : s = recvTill := hs.resolve_right (by omega)
    have := hrec s hmem
    omega
  induction turns generalizing s recvTill sackList with
  | zero => exact hpast hturns
  | succ turns ih =>
    have hm := σ.mss_pos
    simp only [ackLoop, if_true]
    split_ifs with hle hmem
    · have hnext : add32 s σ.mss = s + σ.mss := add32_mss hsize (by omega)
      have hs' : add32 s σ.mss = nextRecvTill σ recvTill ∨ nextRecvTill σ recvTill = σ.size := by
        unfold nextRecvTill
        rcases hs with rfl | rfl
        · split_ifs
          · exact .inr rfl
          · exact .inl rfl
        · rw [add32_mss hsize le_rfl, if_pos (by omega)]
          exact .inr rfl
      refine ih _ _ _ (by omega) hs' fun hms hlt hin => ?_
      have := hrec _ hin
      omega
    · rw [ackLoop_false]
      intro hlt hin
      obtain rfl : s = recvTill := hs.resolve_right (by omega)
      exact hmem hin
    · exact hpast (by omega)

structure Keeps (σ : FlowSpec) (f : Flow PFabric) : Prop where
  received : f.finished = false → f.received = f.delivered
  delivered : f.delivered ⊆ segs σ.mss σ.size
  receivedBytes : f.finished = false → f.receivedBytes = ∑ s ∈ f.delivered, payload σ.mss σ.size s
  le_max : ∀ s ∈ f.delivered, s ≤ f.maxSeqNoRecv

structure Exact (σ : FlowSpec) (f : Flow PFabric) : Prop extends Keeps σ f where
  missing : f.recvTill < σ.size → f.recvTill ∉ f.delivered
  nextSeqNo : Boundary σ f.nextSeqNo
  lastUnackedSeq : Boundary σ f.lastUnackedSeq

structure ExactPacket (σ : FlowSpec) (p : Packet) : Prop where
  seqNo : p.type = .normal → σ.mss ∣ p.seqNo
  size : p.type = .normal → sub32 p.size σ.hdrSize = payload σ.mss σ.size p.seqNo
  ack : p.type = .ack → Boundary σ p.seqNo

structure ExactCall (σ : FlowSpec) (r : Flow PFabric × List Packet) : Prop where
  inv : Exact σ r.1
  packets : ∀ p ∈ r.2, ExactPacket σ p

lemma Exact.frame (h : Exact σ f) {n : ℕ} (hn : Boundary σ n) {r : Option ℕ}
    {es : List RetxTimeoutEvent} {c w b : ℕ} {o : PFabric} : Exact σ
      { f with
        nextSeqNo := n
        retxEvent := r
        retxEvents := es
        retxEventCount := c
        cwndMss := w
        scoreboardSackBytes := b
        own := o } :=
  ⟨⟨h.received, h.delivered, h.receivedBytes, h.le_max⟩, h.missing, hn, h.lastUnackedSeq⟩

lemma Exact.noCall (h : Exact σ f) : ExactCall σ (f, []) := ⟨h, by simp⟩

lemma ExactCall.timer {r : Flow PFabric × List Packet} {g : Flow PFabric} (h : ExactCall σ r)
    (hg : ∃ e es c, g = { r.1 with retxEvent := e, retxEvents := es, retxEventCount := c }) :
    ExactCall σ (g, r.2) := by
  obtain ⟨e, es, c, rfl⟩ := hg
  exact ⟨h.inv.frame h.inv.nextSeqNo, h.packets⟩

lemma Exact.rtsCts (h : Exact σ f) (b : Bool) (now : Time) :
    ExactCall σ (f, [rtsCts σ b now]) := by
  refine ⟨h, fun p hp => ?_⟩
  obtain rfl := List.mem_singleton.mp hp
  cases b <;> exact ⟨nofun, nofun, nofun⟩

lemma exact_new (σ : FlowSpec) (w : ℕ) (o : PFabric) : Exact σ (new σ w o) where
  received := fun _ => rfl
  delivered := Finset.empty_subset _
  receivedBytes := fun _ => rfl
  le_max := fun _ hs => absurd hs (Finset.notMem_empty _)
  missing := fun _ => Finset.notMem_empty _
  nextSeqNo := .inl (dvd_zero _)
  lastUnackedSeq := .inl (dvd_zero _)

lemma Exact.noteAck (h : Exact σ f) {a : ℕ} (ha : Boundary σ a) (sackList : List ℕ) :
    Exact σ (f.noteAck σ a sackList) := by
  refine { h with nextSeqNo := ?_ }
  unfold Flow.noteAck
  dsimp only
  split_ifs
  · exact ha
  · exact h.nextSeqNo

lemma Keeps.accept (h : Keeps σ f) (hfin : f.finished = false) {p : Packet}
    (hp : ExactPacket σ p) (htype : p.type = .normal) (hlt : p.seqNo < σ.size) :
    Keeps σ { f.accept σ p with maxSeqNoRecv := max f.maxSeqNoRecv p.seqNo } := by
  have hdel : insert p.seqNo f.delivered ⊆ segs σ.mss σ.size :=
    Finset.insert_subset (mem_segs.mpr ⟨hlt, hp.seqNo htype⟩) h.delivered
  have hmax : ∀ s ∈ insert p.seqNo f.delivered, s ≤ max f.maxSeqNoRecv p.seqNo := by
    intro s hs
    rcases Finset.mem_insert.mp hs with rfl | hs
    · exact le_max_right _ _
    · exact (h.le_max s hs).trans (le_max_left _ _)
  by_cases hmem : p.seqNo ∈ f.received
  · have hins : insert p.seqNo f.delivered = f.delivered :=
      Finset.insert_eq_of_mem (h.received hfin ▸ hmem)
    have hacc : f.accept σ p = f := by
      simp only [Flow.accept, hmem, if_true, hins]
    rw [hacc]
    exact ⟨h.received, h.delivered, h.receivedBytes, hins ▸ hmax⟩
  · have hnew : p.seqNo ∉ f.delivered := h.received hfin ▸ hmem
    have hsum : add32 f.receivedBytes (sub32 p.size σ.hdrSize) =
        ∑ s ∈ insert p.seqNo f.delivered, payload σ.mss σ.size s := by
      have hle := sum_le_size σ.mss_pos hdel
      rw [Finset.sum_insert hnew] at hle ⊢
      rw [hp.size htype, h.receivedBytes hfin, add32_eq (by have := σ.size_lt; omega), add_comm]
    have hacc : f.accept σ p =
        { f with
          received := insert p.seqNo f.received
          receivedBytes := add32 f.receivedBytes (sub32 p.size σ.hdrSize)
          delivered := insert p.seqNo f.delivered } := by
      simp only [Flow.accept, hmem, if_false]
    rw [hacc]
    exact ⟨fun hf => congrArg (insert p.seqNo) (h.received hf), hdel, fun _ => hsum, hmax⟩

lemma ExactCall.finish {r : Flow PFabric × List Packet} (h : ExactCall σ r) (now : Time) :
    ExactCall σ ({ r.1 with received := ∅ }.finish now, r.2) :=
  ⟨{ h.inv with received := nofun, receivedBytes := nofun }, h.packets⟩

section Calls

variable (hsize : σ.size + σ.mss < 4294967296)
include hsize

lemma Exact.sendPendingData (h : Exact σ f) (hn : f.nextSeqNo ≤ σ.size) (now : Time) :
    ExactCall σ (f.sendPendingData σ kind now) := by
  unfold Flow.sendPendingData
  split_ifs
  · obtain ⟨⟨n, r, es, c, hflow, hn'⟩, hps⟩ := sendLoop_spec hsize now
      (add32 (mul32 f.cwndMss σ.mss) f.scoreboardSackBytes) (f.getPriority σ kind)
      (σ.size + 1) f.nextSeqNo f hn
    have hb : Boundary σ n := by
      rcases hn' with rfl | ⟨-, hb⟩
      · exact h.nextSeqNo
      · exact hb h.nextSeqNo
    refine ⟨hflow ▸ h.frame hb, fun p hp => ?_⟩
    obtain ⟨s, hs, rfl, hdvd⟩ := hps p hp
    exact ⟨fun _ => hdvd h.nextSeqNo, fun _ => send_payload hsize now _ hs.le, nofun⟩
  · exact h.noCall

lemma Exact.newAck (h : Exact σ f) (hn : f.nextSeqNo ≤ σ.size) (now : Time) {a : ℕ}
    (ha : Boundary σ a) : ExactCall σ (f.newAck σ kind now a) := by
  have hlast : Exact σ { f with lastUnackedSeq := a } := { h with lastUnackedSeq := ha }
  obtain ⟨w, o, hcwnd⟩ := increaseCwnd_frame (σ := σ) kind { f with lastUnackedSeq := a }
  have hexact : Exact σ (increaseCwnd σ kind { f with lastUnackedSeq := a }) :=
    hcwnd ▸ hlast.frame h.nextSeqNo
  have hn : (increaseCwnd σ kind { f with lastUnackedSeq := a }).nextSeqNo ≤ σ.size := hcwnd ▸ hn
  exact (hexact.sendPendingData hsize hn now).timer (moveTimeout_frame _ now)

lemma Exact.receiveAck (h : Exact σ f) (hsafe : Safe σ f) (now : Time) {a : ℕ}
    (ha : Boundary σ a) (hack : a ≤ f.recvTill) (sackList : List ℕ) :
    ExactCall σ (f.receiveAck σ kind now a sackList) := by
  have hnote := h.noteAck ha sackList
  have hcall : ExactCall σ
      (if (f.noteAck σ a sackList).lastUnackedSeq < a then
        (f.noteAck σ a sackList).newAck σ kind now a else (f.noteAck σ a sackList, [])) := by
    split_ifs
    · exact hnote.newAck hsize (hsafe.noteAck hack sackList).nextSeqNo now ha
    · exact hnote.noCall
  unfold Flow.receiveAck
  dsimp only
  generalize (if (f.noteAck σ a sackList).lastUnackedSeq < a then
    (f.noteAck σ a sackList).newAck σ kind now a else (f.noteAck σ a sackList, [])) = r at hcall ⊢
  split_ifs
  · exact hcall.finish now
  · exact hcall

lemma Exact.handleTimeout (h : Exact σ f) (hl : f.lastUnackedSeq ≤ σ.size) (now : Time) :
    ExactCall σ (f.handleTimeout σ kind now) := by
  have hwith : ∀ o, ExactCall σ
      ({ f with own := o }.handleTimeoutWith σ (fun f => f.sendPendingData σ kind now) now) := by
    intro o
    have hback : Exact σ { f with
        own := o
        nextSeqNo := f.lastUnackedSeq
        cwndMss := 1 } := h.frame h.lastUnackedSeq
    exact (hback.sendPendingData hsize hl now).timer (setTimeout_frame _ _)
  cases kind
  · exact hwith f.own
  · exact hwith _
  · exact hwith f.own

lemma Exact.receiveDataPkt (h : Exact σ f) (hsafe : Safe σ f) (hfin : f.finished = false)
    {p : Packet} (hp : ExactPacket σ p) (htype : p.type = .normal) (hlt : p.seqNo < σ.size) :
    ExactCall σ (f.receiveDataPkt σ p) := by
  obtain ⟨r, b, hacc, -⟩ := accept_frame f p (σ := σ)
  have hkeeps := h.toKeeps.accept hfin hp htype hlt
  have hcall := hsafe.receiveDataPkt hsize hlt
  unfold Flow.receiveDataPkt at hcall ⊢
  rw [hacc] at hkeeps hcall ⊢
  have hmax : max f.maxSeqNoRecv p.seqNo < σ.size :=
    max_lt (hsafe.maxSeqNoRecv.elim id fun h0 => by omega) hlt
  have hstop := ackLoop_stops hsize hmax (hkeeps.received hfin ▸ hkeeps.le_max)
    (max f.maxSeqNoRecv p.seqNo + 1) f.recvTill f.recvTill [] (by omega) (.inl rfl)
  refine ⟨⟨⟨hkeeps.received, hkeeps.delivered, hkeeps.receivedBytes, hkeeps.le_max⟩,
    fun hrecv => ?_, h.nextSeqNo, h.lastUnackedSeq⟩, fun q hq => ?_⟩
  · exact (hkeeps.received hfin) ▸ hstop hrecv
  · obtain rfl := List.mem_singleton.mp hq
    exact ⟨nofun, nofun, fun _ => hcall.inv.recvTill.boundary⟩

lemma Exact.receive (h : Exact σ f) (hsafe : Safe σ f) (now : Time) {p : Packet}
    (hp : ExactPacket σ p) (hps : SafePacket σ f p) : ExactCall σ (f.receive σ kind now p) := by
  have hbase : ExactCall σ (f.receiveBase σ kind now p) := by
    unfold Flow.receiveBase
    split_ifs with hfin
    · exact h.noCall
    · split
      case h_1 htype =>
        exact h.receiveAck hsize hsafe now (hp.ack htype) (hps.ack htype) _
      case h_2 htype =>
        exact h.receiveDataPkt hsize hsafe (Bool.eq_false_iff.mpr hfin) hp htype (hps.seqNo htype)
      case h_3 => exact h.noCall
  unfold Flow.receive
  split
  · exact h.rtsCts false now
  · exact h.sendPendingData hsize hsafe.nextSeqNo now
  · exact hbase

lemma Exact.input (h : Exact σ f) (hsafe : Safe σ f) (now : Time) {i : FlowInput}
    {r : Flow PFabric × List Packet}
    (hr : Flow.input (fun now f => f.startFlow σ kind now)
      (fun now f => f.handleTimeout σ kind now) now i f = some r) : ExactCall σ r := by
  rcases input_cases hr with ⟨-, rfl⟩ | ⟨id, rfl⟩ | ⟨id, rfl⟩
  · have hstarted : Exact σ { f with started := true } := { h with }
    cases kind
    · exact hstarted.sendPendingData hsize hsafe.nextSeqNo now
    · exact hstarted.sendPendingData hsize hsafe.nextSeqNo now
    · exact hstarted.rtsCts true now
  · exact h.noCall.timer ⟨_, _, _, rfl⟩
  · exact (h.handleTimeout hsize (hsafe.lastUnackedSeq.trans hsafe.recvTill.le) now).timer
      ⟨_, _, _, rfl⟩

end Calls

lemma exact_calls (kind : FlowKind) (hsize : σ.size + σ.mss < 4294967296) :
    Calls (party σ kind) (fun _ _ => True) (fun f => Safe σ f ∧ Exact σ f) Ahead
      (fun f p => SafePacket σ f p ∧ ExactPacket σ p) where
  init := ⟨safe_new σ _ _, exact_new σ _ _⟩
  mono := fun hfg hp => ⟨hp.1.mono hfg.1, hp.2⟩
  input := fun _ h hr =>
    have hs := h.1.input hsize _ hr
    have he := h.2.input hsize h.1 _ hr
    ⟨⟨hs.inv, he.inv⟩, hs.le, fun p hp => ⟨hs.packets p hp, he.packets p hp⟩⟩
  receive := fun {f t p} _ h hp =>
    have hs : SafeCall σ f (f.receive σ kind t p) := h.1.receive hsize t hp.1
    have he : ExactCall σ (f.receive σ kind t p) := h.2.receive hsize h.1 t hp.2 hp.1
    ⟨⟨hs.inv, he.inv⟩, hs.le, fun p hp => ⟨hs.packets p hp, he.packets p hp⟩⟩

/-! ### The segment a timeout gets to -/

lemma Exact.receivedBytes_lt (h : Exact σ f) (hsafe : Safe σ f) (hfin : f.finished = false)
    (hlt : f.recvTill < σ.size) : f.receivedBytes < σ.size := by
  by_contra hge
  rw [h.receivedBytes hfin] at hge
  have hall := eq_segs_of_size_le σ.mss_pos h.delivered (not_lt.mp hge)
  exact h.missing hlt (hall ▸ mem_segs.mpr ⟨hlt, hsafe.recvTill.boundary.dvd hlt⟩)

section Missing

variable (hsize : σ.size + σ.mss < 4294967296)
include hsize

lemma iterate_nextSeq {seq : ℕ} (hseq : seq ≤ σ.size) (n : ℕ) :
    (nextSeq σ)^[n] seq = min (seq + n * σ.mss) σ.size := by
  induction n with
  | zero => simpa using hseq
  | succ n ih =>
    rw [Function.iterate_succ_apply', ih, nextSeq, add32_mss hsize (min_le_right _ _), Nat.succ_mul]
    have hm := σ.mss_pos
    split_ifs <;> omega

/-- **What a timeout finds**: the segment at `recv_till`, if it is in the window. -/
theorem findsMissing_iff (h : Exact σ f) (hsafe : Safe σ f) (hfin : f.finished = false) :
    FindsMissing σ f ↔ f.recvTill < σ.size ∧
      add32 f.recvTill σ.mss ≤ add32 f.lastUnackedSeq (timeoutWindow σ f) := by
  have hm := σ.mss_pos
  have hle := hsafe.lastUnackedSeq.trans hsafe.recvTill.le
  constructor
  · rintro ⟨-, n, -, hmay, hmiss⟩
    have hmay := hmay n le_rfl
    have hlt := hmay.lt hsize ((iterate_nextSeq hsize hle n).trans_le (min_le_right _ _))
    have hadd := hmay.1
    rw [iterate_nextSeq hsize hle] at hmiss hlt hadd
    have hmin : min (f.lastUnackedSeq + n * σ.mss) σ.size = f.lastUnackedSeq + n * σ.mss := by
      omega
    rw [hmin] at hmiss hlt hadd
    have hdvd : σ.mss ∣ f.lastUnackedSeq + n * σ.mss :=
      (Nat.dvd_add_left (Dvd.intro_left n rfl)).mpr (h.lastUnackedSeq.dvd (by omega))
    have hge : f.recvTill ≤ f.lastUnackedSeq + n * σ.mss := by
      by_contra hlt
      exact hmiss (h.received hfin ▸ hsafe.recvTill.covers _ hdvd (not_le.mp hlt))
    rw [add32_mss hsize hlt.le] at hadd
    rw [add32_mss hsize (by omega)]
    omega
  · rintro ⟨hlt, hadd⟩
    have hmiss := h.missing hlt
    rw [add32_mss hsize hlt.le] at hadd
    obtain ⟨n, hn⟩ : σ.mss ∣ f.recvTill - f.lastUnackedSeq :=
      Nat.dvd_sub (hsafe.recvTill.boundary.dvd hlt)
        (h.lastUnackedSeq.dvd (hsafe.lastUnackedSeq.trans_lt hlt))
    rw [Nat.mul_comm] at hn
    have hat : ∀ i ≤ n, (nextSeq σ)^[i] f.lastUnackedSeq = f.lastUnackedSeq + i * σ.mss ∧
        f.lastUnackedSeq + i * σ.mss ≤ f.recvTill := by
      intro i hi
      have := Nat.mul_le_mul_right σ.mss hi
      have := hsafe.lastUnackedSeq
      rw [iterate_nextSeq hsize hle]
      omega
    have hlast : f.lastUnackedSeq + n * σ.mss = f.recvTill := by
      have := hsafe.lastUnackedSeq
      omega
    refine ⟨h.receivedBytes_lt hsafe hfin hlt, n, ?_, fun i hi => ?_, ?_⟩
    · have := Nat.le_mul_of_pos_right n hm
      omega
    · obtain ⟨hi, hil⟩ := hat i hi
      rw [hi]
      refine ⟨?_, ?_⟩
      · rw [add32_mss hsize (by omega)]
        omega
      · rw [add32_mss hsize (by omega), sub32_eq σ.size_lt (by omega)]
        omega
    · rw [(hat n le_rfl).1, hlast, h.received hfin]
      exact hmiss

end Missing

/-! ### Runs -/

/-- **When a timeout sends**: exactly when its loop gets to a segment that is not in
`received`; in a flow with room for a segment below `2 ^ 32`, exactly when the receiver still
misses the segment at `recv_till` and that segment is in the window of one packet, past
`last_unacked_seq`, that a timeout leaves. -/
theorem timeout_sends_iff (kind : FlowKind) (t₀ : Time) {s : State (Flow PFabric) Packet Time}
    (hs : Reach (machine (party σ kind) t₀) s) (hfin : s.party.finished = false) (now : Time) :
    ((s.party.handleTimeout σ kind now).2 ≠ [] ↔ FindsMissing σ s.party) ∧
    (σ.size + σ.mss < 4294967296 →
      (FindsMissing σ s.party ↔ s.party.recvTill < σ.size ∧
        add32 s.party.recvTill σ.mss ≤
          add32 s.party.lastUnackedSeq (timeoutWindow σ s.party))) := by
  refine ⟨handleTimeout_ne_nil s.party now, fun hsize => ?_⟩
  obtain ⟨⟨hsafe, hexact⟩, -⟩ := (exact_calls kind hsize).kept.reach hs
  exact findsMissing_iff hsize hexact hsafe hfin

/-- Both segments are received, and both ACKs are lost. -/
def acksLost : List (Act Packet Time FlowInput) :=
  [.input 1 .start, .deliver 2 (send twoSegments 1 2920 0),
    .deliver 3 (send twoSegments 1 2920 1460), .lose (sendAck twoSegments 1460 []),
    .lose (sendAck twoSegments 2920 [])]

def dataLost : List (Act Packet Time FlowInput) :=
  [.input 1 .start, .deliver 2 (send twoSegments 1 2920 0),
    .deliver 3 (sendAck twoSegments 1460 []), .lose (send twoSegments 1 2920 1460)]

theorem timeout_sends_dataLost :
    ∃ s, Reach (machine (party twoSegments .flow) 0) s ∧ s.party.finished = false ∧
      (s.party.handleTimeout twoSegments .flow 4).2 ≠ [] := by
  obtain ⟨s, hs, hfin, hmiss⟩ : ∃ s, Reach (machine (party twoSegments .flow) 0) s ∧
      s.party.finished = false ∧ s.party.recvTill < 2920 ∧
        add32 s.party.recvTill 1460 ≤
          add32 s.party.lastUnackedSeq (timeoutWindow twoSegments s.party) :=
    exists_reach_of_exec_any dataLost (by decide +kernel)
  have h := timeout_sends_iff .flow 0 hs hfin 4
  exact ⟨s, hs, hfin, h.1.mpr ((h.2 (by decide)).mpr hmiss)⟩

/-- **A dead timeout**: with nothing in flight a timeout of an unfinished flow sends nothing. -/
theorem timeout_dead_acksLost :
    (∃ s, Reach (machine (party twoSegments .flow) 0) s ∧ s.party.started = true ∧
      s.party.finished = false ∧ s.inFlight = 0 ∧
      ∀ now, (s.party.handleTimeout twoSegments .flow now).2 = []) ∧
    ∃ s, Reach (machine (party twoSegments .pFabric) 0) s ∧ s.party.started = true ∧
      s.party.finished = false ∧ s.inFlight = 0 ∧
      ∀ now, (s.party.handleTimeout twoSegments .pFabric now).2 = [] := by
  have hdead : ∀ kind (f : Flow PFabric), f.receivedBytes = 2920 → ∀ now,
      (f.handleTimeout twoSegments kind now).2 = [] := by
    intro kind f hbytes now
    by_contra hne
    have hlt := ((handleTimeout_ne_nil f now).mp hne).1
    exact absurd (hbytes ▸ hlt) (lt_irrefl _)
  refine ⟨?_, ?_⟩
  · obtain ⟨s, hs, hstart, hfin, hnone, hbytes⟩ : ∃ s,
        Reach (machine (party twoSegments .flow) 0) s ∧ s.party.started = true ∧
        s.party.finished = false ∧ s.inFlight = 0 ∧ s.party.receivedBytes = 2920 :=
      exists_reach_of_exec_any acksLost (by decide +kernel)
    exact ⟨s, hs, hstart, hfin, hnone, hdead _ _ hbytes⟩
  · obtain ⟨s, hs, hstart, hfin, hnone, hbytes⟩ : ∃ s,
        Reach (machine (party twoSegments .pFabric) 0) s ∧ s.party.started = true ∧
        s.party.finished = false ∧ s.inFlight = 0 ∧ s.party.receivedBytes = 2920 :=
      exists_reach_of_exec_any acksLost (by decide +kernel)
    exact ⟨s, hs, hstart, hfin, hnone, hdead _ _ hbytes⟩

end DcSim.Flow
