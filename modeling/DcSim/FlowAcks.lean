import DcSim.FlowTimeout
import Mathlib.Data.Finset.Sort

/-!
The ACK that the receiver of the base flow answers a segment with.

Its number is the end of the prefix that was received, its SACK list has what was received beyond
the first gap. The loop that finds them goes through the segments in sequence until it comes to the
gap, and collects from there on.
-/

namespace DcSim.Flow

open LossyNet Runs Segments Word32

variable {X : Type} {σ : FlowSpec} {R : Finset ℕ} {m : ℕ}

/-! ### The loop -/

section AckLoop

variable (hsize : σ.size + σ.mss < 4294967296) (hmax : m < σ.size)
  (hR : ∀ x ∈ R, σ.mss ∣ x ∧ x ≤ m)
include hsize hmax hR

/-- **Beyond the gap** the loop lists what was received. -/
lemma ackLoop_beyond (turns s recvTill : ℕ) (sackList : List ℕ) (hs : σ.mss ∣ s)
    (hturns : m < s + turns) :
    ackLoop σ R m turns s recvTill false sackList =
      (recvTill, sackList ++ (R.filter (s ≤ ·)).sort) := by
  have hpast : ∀ s, m < s → R.filter (s ≤ ·) = ∅ := by
    intro s hms
    refine Finset.filter_eq_empty_iff.2 fun x hx => ?_
    have := (hR x hx).2
    omega
  induction turns generalizing s sackList with
  | zero =>
    rw [hpast s (by omega), Finset.sort_empty, List.append_nil]
    rfl
  | succ turns ih =>
    have hm := σ.mss_pos
    simp only [ackLoop, Bool.false_eq_true, if_false]
    split_ifs with hle hmem
    · have hnext : add32 s σ.mss = s + σ.mss := add32_mss hsize (by omega)
      rw [hnext, ih _ _ ((Nat.dvd_add_right hs).2 dvd_rfl) (by omega),
        sort_filter_of_mem hm (fun x hx => (hR x hx).1) hs hmem, List.append_assoc]
      rfl
    · have hnext : add32 s σ.mss = s + σ.mss := add32_mss hsize (by omega)
      rw [hnext, ih _ _ ((Nat.dvd_add_right hs).2 dvd_rfl) (by omega),
        filter_of_notMem (fun x hx => (hR x hx).1) hs hmem]
    · rw [hpast s (by omega), Finset.sort_empty, List.append_nil]

/-- **The loop over the received segments** finds the end of the prefix and what is beyond it. -/
theorem ackLoop_eq (turns s recvTill : ℕ) (h : Acked σ R recvTill) (hturns : m < s + turns)
    (hs : s = recvTill ∨ m < s ∧ recvTill = σ.size) :
    ackLoop σ R m turns s recvTill true [] =
      (prefixEnd σ.mss_pos σ.size R, (R.filter (prefixEnd σ.mss_pos σ.size R < ·)).sort) := by
  have hm := σ.mss_pos
  -- past the last segment there is nothing to find
  have hpast : ∀ s recvTill, Acked σ R recvTill → m < s →
      (s = recvTill ∨ m < s ∧ recvTill = σ.size) →
      (recvTill, []) =
        (prefixEnd σ.mss_pos σ.size R, (R.filter (prefixEnd σ.mss_pos σ.size R < ·)).sort) := by
    intro s recvTill h hms hs
    have hend : prefixEnd σ.mss_pos σ.size R = recvTill := by
      refine prefixEnd_eq σ.mss_pos h.le h.covers fun hlt => ⟨h.boundary.dvd hlt, fun hin => ?_⟩
      have := (hR _ hin).2
      omega
    have hnone : R.filter (recvTill < ·) = ∅ := by
      refine Finset.filter_eq_empty_iff.2 fun x hx => ?_
      have := (hR x hx).2
      omega
    rw [hend, hnone, Finset.sort_empty]
  induction turns generalizing s recvTill with
  | zero => exact hpast s recvTill h (by omega) hs
  | succ turns ih =>
    simp only [ackLoop, if_true]
    split_ifs with hle hmem
    · obtain rfl : s = recvTill := hs.resolve_right (by omega)
      have hlt : s < σ.size := hle.trans_lt hmax
      have hnext : add32 s σ.mss = s + σ.mss := add32_mss hsize hlt.le
      refine ih _ _ (h.next hsize hlt hmem) (by omega) ?_
      rw [nextRecvTill, hnext]
      split_ifs with hend
      · exact .inr ⟨by omega, rfl⟩
      · exact .inl rfl
    · obtain rfl : s = recvTill := hs.resolve_right (by omega)
      have hlt : s < σ.size := hle.trans_lt hmax
      have hdvd := h.boundary.dvd hlt
      have hend : prefixEnd σ.mss_pos σ.size R = s :=
        prefixEnd_eq σ.mss_pos h.le h.covers fun _ => ⟨hdvd, hmem⟩
      have hgap : R.filter (s < ·) = R.filter (s ≤ ·) :=
        Finset.filter_congr fun x hx =>
          ⟨le_of_lt, fun h => lt_of_le_of_ne h fun heq => hmem (heq ▸ hx)⟩
      rw [add32_mss hsize hlt.le, ackLoop_beyond hsize hmax hR _ _ _ _
        ((Nat.dvd_add_right hdvd).2 dvd_rfl) (by omega), List.nil_append, hend, hgap,
        filter_of_notMem (fun x hx => (hR x hx).1) hdvd hmem]
    · exact hpast s recvTill h (by omega) hs

end AckLoop

/-! ### One segment after another -/

/-- The ACK for the segments that were received. -/
def answer (σ : FlowSpec) (R : Finset ℕ) : Packet :=
  sendAck σ (prefixEnd σ.mss_pos σ.size R) (R.filter (prefixEnd σ.mss_pos σ.size R < ·)).sort

structure Receives (σ : FlowSpec) (R : Finset ℕ) (f : Flow X) : Prop where
  received : f.received = R
  segs : R ⊆ segs σ.mss σ.size
  le_max : ∀ x ∈ R, x ≤ f.maxSeqNoRecv
  maxSeqNoRecv : f.maxSeqNoRecv < σ.size ∨ f.maxSeqNoRecv = 0
  recvTill : f.recvTill = prefixEnd σ.mss_pos σ.size R

lemma receives_new (σ : FlowSpec) (w : ℕ) (o : X) : Receives σ ∅ (new σ w o) where
  received := rfl
  segs := Finset.empty_subset _
  le_max := nofun
  maxSeqNoRecv := .inr rfl
  recvTill :=
    (prefixEnd_eq σ.mss_pos (Nat.zero_le _) covers_zero fun _ =>
      ⟨dvd_zero _, Finset.notMem_empty _⟩).symm

lemma acked_prefixEnd (R : Finset ℕ) : Acked σ R (prefixEnd σ.mss_pos σ.size R) := by
  obtain ⟨hle, hcov⟩ := (le_prefixEnd_iff σ.mss_pos).mp (le_refl (prefixEnd σ.mss_pos σ.size R))
  refine ⟨hle, ?_, hcov⟩
  rcases min_choice σ.size (σ.mss * Nat.find (exists_missing σ.mss_pos R)) with h | h
  · exact .inr h
  · exact .inl ((Nat.dvd_mul_right ..).trans h.symm.dvd)

section Calls

variable (hsize : σ.size + σ.mss < 4294967296)
include hsize

/-- **The answer** to the segments received, when the prefix was known as far as `recv_till`. -/
lemma acknowledge_eq {f : Flow X} (hmax : f.maxSeqNoRecv < σ.size)
    (hR : ∀ x ∈ f.received, σ.mss ∣ x ∧ x ≤ f.maxSeqNoRecv)
    (hacked : Acked σ f.received f.recvTill) :
    f.acknowledge σ =
      ({ f with
        recvTill := prefixEnd σ.mss_pos σ.size f.received
        acksSent := f.acksSent ++ [prefixEnd σ.mss_pos σ.size f.received] },
      [answer σ f.received]) := by
  rw [acknowledge, ackLoop_eq hsize hmax hR _ _ _ hacked (by omega) (.inl rfl)]
  rfl

/-- **One more segment**. -/
lemma Receives.receiveDataPkt {f : Flow X} (h : Receives σ R f) {p : Packet}
    (hp : p.seqNo ∈ Segments.segs σ.mss σ.size) :
    Receives σ (insert p.seqNo R) (f.receiveDataPkt σ p).1 ∧
      (f.receiveDataPkt σ p).2 = [answer σ (insert p.seqNo R)] := by
  obtain ⟨r, b, hacc, -⟩ := accept_frame f p (σ := σ)
  have hr : r = insert p.seqNo R := by
    rw [← h.received, ← accept_received f p (σ := σ), hacc]
  have hsegs : insert p.seqNo R ⊆ Segments.segs σ.mss σ.size := Finset.insert_subset hp h.segs
  have hle : ∀ x ∈ insert p.seqNo R, x ≤ max f.maxSeqNoRecv p.seqNo := by
    intro x hx
    rcases Finset.mem_insert.mp hx with rfl | hx
    · exact le_max_right _ _
    · exact (h.le_max x hx).trans (le_max_left _ _)
  have hmax : max f.maxSeqNoRecv p.seqNo < σ.size :=
    max_lt (h.maxSeqNoRecv.elim id fun h0 => by have := (mem_segs.mp hp).1; omega)
      (mem_segs.mp hp).1
  have hacked : Acked σ (insert p.seqNo R) f.recvTill :=
    h.recvTill ▸ (acked_prefixEnd R).mono (Finset.subset_insert _ _)
  unfold Flow.receiveDataPkt
  rw [hacc, hr, acknowledge_eq hsize hmax (fun x hx => ⟨(mem_segs.mp (hsegs hx)).2, hle x hx⟩)
    hacked]
  exact ⟨⟨rfl, hsegs, hle, .inl hmax, rfl⟩, rfl⟩

lemma Receives.foldl {f : Flow X} (h : Receives σ R f) (ps : List Packet)
    (hps : ∀ p ∈ ps, p.seqNo ∈ Segments.segs σ.mss σ.size) :
    Receives σ (R ∪ (ps.map (·.seqNo)).toFinset)
      (ps.foldl (fun f p => (f.receiveDataPkt σ p).1) f) := by
  induction ps generalizing R f with
  | nil => simpa using h
  | cons p ps ih =>
    obtain ⟨hp, hps⟩ := List.forall_mem_cons.mp hps
    have := ih (h.receiveDataPkt hsize hp).1 hps
    rwa [Finset.insert_union, ← Finset.union_insert, ← List.toFinset_cons] at this

end Calls

/-- **The ACKs of the receiver**: after any segments of a flow, in any order and with any copies,
and one segment more, `recv_till` is the least boundary `a` that is missing, or the size of the
flow if that is less, and the ACK that is sent has this number and lists what was received beyond
`a`, in ascending order. -/
theorem receiveDataPkt_acks (hsize : σ.size + σ.mss < 4294967296) (w : ℕ) (o : X)
    (ps : List Packet) (p : Packet) (hps : ∀ q ∈ ps ++ [p], σ.mss ∣ q.seqNo ∧ q.seqNo < σ.size) :
    let f := ps.foldl (fun f q => (f.receiveDataPkt σ q).1) (new σ w o)
    let R := ((ps ++ [p]).map (·.seqNo)).toFinset
    ∃ a, IsLeast {b | σ.mss ∣ b ∧ b ∉ R} a ∧
      (f.receiveDataPkt σ p).1.recvTill = min σ.size a ∧
      (f.receiveDataPkt σ p).2 = [sendAck σ (min σ.size a) (R.filter (a < ·)).sort] := by
  intro f R
  have hsegs : ∀ q ∈ ps ++ [p], q.seqNo ∈ segs σ.mss σ.size := fun q hq =>
    mem_segs.mpr (hps q hq).symm
  have hlast := hsegs p (List.mem_append_right _ (List.mem_singleton_self p))
  have hf := (receives_new σ w o).foldl hsize ps fun q hq => hsegs q (List.mem_append_left _ hq)
  obtain ⟨hrec, hack⟩ := hf.receiveDataPkt hsize hlast
  have hR : insert p.seqNo (∅ ∪ (ps.map (·.seqNo)).toFinset) = R := by
    ext x
    simp [R]
  rw [hR] at hrec hack
  refine ⟨_, isLeast_missing σ.mss_pos R, hrec.recvTill, ?_⟩
  have hgap : R.filter (prefixEnd σ.mss_pos σ.size R < ·) =
      R.filter (σ.mss * Nat.find (exists_missing σ.mss_pos R) < ·) := by
    refine Finset.filter_congr fun x hx => ?_
    have := (mem_segs.mp (hrec.segs hx)).1
    unfold prefixEnd
    omega
  rw [hack, answer, hgap]
  rfl

/-- The second segment of two comes twice. -/
def secondTwice : List Packet := [send twoSegments 1 0 1460, send twoSegments 2 0 1460]

theorem receiveDataPkt_acks_secondTwice :
    let f := [send twoSegments 1 0 1460].foldl (fun f q => (f.receiveDataPkt twoSegments q).1)
      (new twoSegments 12 ())
    let r := f.receiveDataPkt twoSegments (send twoSegments 2 0 1460)
    (∀ q ∈ secondTwice, 1460 ∣ q.seqNo ∧ q.seqNo < 2920) ∧
      ∃ a, IsLeast {b | 1460 ∣ b ∧ b ∉ (secondTwice.map (·.seqNo)).toFinset} a ∧
        r.1.recvTill = min 2920 a ∧
        r.2 = [sendAck twoSegments (min 2920 a)
          ((secondTwice.map (·.seqNo)).toFinset.filter (a < ·)).sort] :=
  ⟨by decide, receiveDataPkt_acks (σ := twoSegments) (by decide) 12 ()
    [send twoSegments 1 0 1460] (send twoSegments 2 0 1460) (by decide)⟩

end DcSim.Flow
