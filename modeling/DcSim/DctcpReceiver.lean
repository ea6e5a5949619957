import DcSim.DctcpFlow
import DcSim.FlowTimeout

/-!
The receiver of DCTCP beside that of the base flow.

The two loops differ in one place: that of the base flow stops `recv_till` at the size of the flow.
As long as `recv_till` is at a whole segment it makes no difference. After a short last segment the
receiver of DCTCP is past the size, and so is its ACK, which the sender takes for no end at all.
-/

namespace DcSim.DctcpFlow

open DcSim.Flow Segments Word32

variable {σ : FlowSpec} {R : Finset ℕ} {m : ℕ}

/-- The last segment is a whole one, or some segment is missing. -/
def WholeOrMissing (σ : FlowSpec) (R : Finset ℕ) : Prop :=
  σ.mss ∣ σ.size ∨ ¬ segs σ.mss σ.size ⊆ R

instance (σ : FlowSpec) (R : Finset ℕ) : Decidable (WholeOrMissing σ R) :=
  inferInstanceAs (Decidable (_ ∨ _))

lemma WholeOrMissing.mono {S : Finset ℕ} (h : WholeOrMissing σ S) (hRS : R ⊆ S) :
    WholeOrMissing σ R :=
  h.imp_right fun hmiss hall => hmiss (hall.trans hRS)

/-! ### The two loops -/

lemma ackLoop_beyond (turns s recvTill : ℕ) (sackList : List ℕ) :
    ackLoop σ R m turns s recvTill false sackList =
      Flow.ackLoop σ R m turns s recvTill false sackList := by
  induction turns generalizing s sackList with
  | zero => rfl
  | succ turns ih =>
    simp only [ackLoop, Flow.ackLoop, Bool.false_eq_true, if_false, ih]

lemma WholeOrMissing.add_le (h : WholeOrMissing σ R) {s : ℕ} (hs : s ∈ R) (hlt : s < σ.size)
    (hdvd : σ.mss ∣ s) (hcov : Covers σ.mss R s) : s + σ.mss ≤ σ.size := by
  rcases h with hwhole | hmiss
  · exact add_le_of_dvd hdvd hwhole hlt
  · by_contra hshort
    exact hmiss ((hcov.succ hdvd hs).le (by omega)).segs_subset

structure EndsAt (σ : FlowSpec) (R : Finset ℕ) (a : ℕ) : Prop where
  le : a ≤ σ.size
  dvd : σ.mss ∣ a
  covers : Covers σ.mss R a
  missing : a ∉ R

/-- **The loops agree** as long as they come to no short segment. -/
lemma ackLoop_eq (h : WholeOrMissing σ R) (hR : ∀ x ∈ R, x < σ.size ∧ x ≤ m) (turns s : ℕ)
    (hle : s ≤ σ.size) (hdvd : σ.mss ∣ s) (hcov : Covers σ.mss R s) (hturns : m < s + turns) :
    ackLoop σ R m turns s s true [] = Flow.ackLoop σ R m turns s s true [] ∧
      EndsAt σ R (ackLoop σ R m turns s s true []).1 := by
  have hpast : ∀ s, m < s → s ∉ R := by
    intro s hms hs
    have := (hR s hs).2
    omega
  induction turns generalizing s with
  | zero => exact ⟨rfl, hle, hdvd, hcov, hpast s (by omega)⟩
  | succ turns ih =>
    have hm := σ.mss_pos
    have hsize := σ.size_lt
    simp only [ackLoop, Flow.ackLoop, if_true]
    split_ifs with hms hmem
    · have hnext := h.add_le hmem (hR s hmem).1 hdvd hcov
      have hadd : add32 s σ.mss = s + σ.mss := add32_eq (by omega)
      have htill : nextRecvTill σ s = s + σ.mss := by
        rw [nextRecvTill, hadd, if_neg (by omega)]
      rw [htill, hadd]
      exact ih _ hnext ((Nat.dvd_add_right hdvd).2 dvd_rfl) (hcov.succ hdvd hmem) (by omega)
    · rw [ackLoop_beyond, Flow.ackLoop_false]
      exact ⟨rfl, hle, hdvd, hcov, hmem⟩
    · exact ⟨rfl, hle, hdvd, hcov, hpast s (by omega)⟩

/-- **Past the size**: with a short last segment the loop never comes to the size. -/
lemma ackLoop_ne_size (hshort : ¬ σ.mss ∣ σ.size) (hR : ∀ x ∈ R, σ.mss ∣ x ∧ x < σ.size)
    (turns s : ℕ) (hs : s ≠ σ.size) :
    (ackLoop σ R m turns s s true []).1 ≠ σ.size := by
  induction turns generalizing s with
  | zero => exact hs
  | succ turns ih =>
    simp only [ackLoop, if_true]
    split_ifs with hms hmem
    · obtain ⟨hdvd, hlt⟩ := hR s hmem
      refine ih _ fun hend => ?_
      have hmss := σ.mss_lt
      have hsize := σ.size_lt
      unfold add32 at hend
      rcases Nat.lt_or_ge (s + σ.mss) 4294967296 with hfits | hwraps
      · rw [Nat.mod_eq_of_lt hfits] at hend
        exact hshort (hend ▸ (Nat.dvd_add_right hdvd).2 dvd_rfl)
      -- a sum that wraps is less than `s`
      · omega
    · rw [ackLoop_beyond, Flow.ackLoop_false]
      exact hs
    · exact hs

/-! ### The same history -/

structure Agree {X : Type} (σ : FlowSpec) (R : Finset ℕ) (d : Flow Dctcp) (f : Flow X) : Prop where
  received : d.received = R
  received_base : f.received = R
  segs : R ⊆ segs σ.mss σ.size
  maxSeqNoRecv : d.maxSeqNoRecv = f.maxSeqNoRecv
  le_max : ∀ x ∈ R, x ≤ d.maxSeqNoRecv
  recvTill : d.recvTill = f.recvTill
  ends : EndsAt σ R d.recvTill

section Calls

variable {X : Type} {d : Flow Dctcp} {f : Flow X} {p : DctcpPacket}

lemma agree_new (σ : FlowSpec) (g : ℚ) (w : ℕ) (o : X) : Agree σ ∅ (new σ g) (Flow.new σ w o) where
  received := rfl
  received_base := rfl
  segs := Finset.empty_subset _
  maxSeqNoRecv := rfl
  le_max := by simp
  recvTill := rfl
  ends := ⟨Nat.zero_le _, dvd_zero _, covers_zero, Finset.notMem_empty _⟩

/-- **The same answer** to one more segment. -/
lemma Agree.receiveDataPkt (h : Agree σ R d f) (hp : p.seqNo ∈ Segments.segs σ.mss σ.size)
    (hwhole : WholeOrMissing σ (insert p.seqNo R)) :
    Agree σ (insert p.seqNo R) (receiveDataPkt σ d p).1 (f.receiveDataPkt σ p.toPacket).1 ∧
      (receiveDataPkt σ d p).2.map (·.toPacket) = (f.receiveDataPkt σ p.toPacket).2 := by
  have hsegs : insert p.seqNo R ⊆ Segments.segs σ.mss σ.size := Finset.insert_subset hp h.segs
  have hle : ∀ x ∈ insert p.seqNo R, x ≤ max d.maxSeqNoRecv p.seqNo := by
    intro x hx
    rcases Finset.mem_insert.mp hx with rfl | hx
    · exact le_max_right _ _
    · exact (h.le_max x hx).trans (le_max_left _ _)
  obtain ⟨hloop, hends⟩ := ackLoop_eq hwhole (fun x hx => ⟨(mem_segs.mp (hsegs hx)).1, hle x hx⟩)
    (max d.maxSeqNoRecv p.seqNo + 1) d.recvTill h.ends.le h.ends.dvd
    (h.ends.covers.mono (Finset.subset_insert _ _)) (by omega)
  have hd : (d.accept σ p.toPacket).received = insert p.seqNo R := by
    rw [accept_received, h.received]
  have hf : (f.accept σ p.toPacket).received = insert p.seqNo R := by
    rw [accept_received, h.received_base]
  unfold DctcpFlow.receiveDataPkt Flow.receiveDataPkt Flow.acknowledge
  simp only [hd, hf, accept_maxSeqNoRecv, accept_recvTill, ← h.maxSeqNoRecv, ← h.recvTill,
    hloop]
  exact ⟨⟨rfl, rfl, hsegs, rfl, hle, rfl, hloop ▸ hends⟩, rfl⟩

lemma Agree.foldl (h : Agree σ R d f) (ps : List DctcpPacket)
    (hps : ∀ p ∈ ps, p.seqNo ∈ Segments.segs σ.mss σ.size)
    (hwhole : WholeOrMissing σ (R ∪ (ps.map (·.seqNo)).toFinset)) :
    Agree σ (R ∪ (ps.map (·.seqNo)).toFinset)
      (ps.foldl (fun d p => (DctcpFlow.receiveDataPkt σ d p).1) d)
      (ps.foldl (fun f p => (f.receiveDataPkt σ p.toPacket).1) f) := by
  induction ps generalizing R d f with
  | nil => simpa using h
  | cons p ps ih =>
    obtain ⟨hp, hps⟩ := List.forall_mem_cons.mp hps
    have hset : R ∪ ((p :: ps).map (·.seqNo)).toFinset =
        insert p.seqNo R ∪ (ps.map (·.seqNo)).toFinset := by
      rw [List.map_cons, List.toFinset_cons, Finset.union_insert, Finset.insert_union]
    rw [hset] at hwhole ⊢
    exact ih (h.receiveDataPkt hp (hwhole.mono Finset.subset_union_left)).1 hps hwhole

structure Beside (σ : FlowSpec) (d : Flow Dctcp) : Prop where
  received : d.received ⊆ Segments.segs σ.mss σ.size
  recvTill : d.recvTill ≠ σ.size

lemma Beside.receiveDataPkt (h : Beside σ d) (hshort : ¬ σ.mss ∣ σ.size)
    (hp : p.seqNo ∈ Segments.segs σ.mss σ.size) :
    Beside σ (receiveDataPkt σ d p).1 ∧ ∀ a ∈ (receiveDataPkt σ d p).2, a.seqNo ≠ σ.size := by
  have hsegs : insert p.seqNo d.received ⊆ Segments.segs σ.mss σ.size :=
    Finset.insert_subset hp h.received
  have hne := ackLoop_ne_size hshort (m := max d.maxSeqNoRecv p.seqNo)
    (fun x hx => (mem_segs.mp (hsegs hx)).symm) (max d.maxSeqNoRecv p.seqNo + 1) d.recvTill
    h.recvTill
  unfold DctcpFlow.receiveDataPkt
  simp only [accept_received, accept_maxSeqNoRecv, accept_recvTill, List.mem_singleton,
    forall_eq]
  exact ⟨⟨by simpa using hsegs, hne⟩, hne⟩

lemma Beside.foldl (h : Beside σ d) (hshort : ¬ σ.mss ∣ σ.size) (ps : List DctcpPacket)
    (hps : ∀ p ∈ ps, p.seqNo ∈ Segments.segs σ.mss σ.size) :
    Beside σ (ps.foldl (fun d p => (DctcpFlow.receiveDataPkt σ d p).1) d) := by
  induction ps generalizing d with
  | nil => exact h
  | cons p ps ih =>
    obtain ⟨hp, hps⟩ := List.forall_mem_cons.mp hps
    exact ih (h.receiveDataPkt hshort hp).1 hps

end Calls

/-- **When DCTCP answers as the base flow does**: after any segments, in any order and with any
copies, and one segment more, the ACK is that of the base flow and, with all segments received, is
the size of the flow, exactly when the last segment is a whole one or some segment is missing. -/
theorem receiver_refines_iff {X : Type} (g : ℚ) (w : ℕ) (o : X) (ps : List DctcpPacket)
    (p : DctcpPacket) (hps : ∀ q ∈ ps ++ [p], σ.mss ∣ q.seqNo ∧ q.seqNo < σ.size) :
    let d := ps.foldl (fun d q => (receiveDataPkt σ d q).1) (new σ g)
    let f := ps.foldl (fun f q => (f.receiveDataPkt σ q.toPacket).1) (Flow.new σ w o)
    let R := ((ps ++ [p]).map (·.seqNo)).toFinset
    ((receiveDataPkt σ d p).2.map (·.toPacket) = (f.receiveDataPkt σ p.toPacket).2 ∧
      (segs σ.mss σ.size ⊆ R → ∀ a ∈ (receiveDataPkt σ d p).2, a.seqNo = σ.size)) ↔
    WholeOrMissing σ R := by
  intro d f R
  have hsegs : ∀ q ∈ ps ++ [p], q.seqNo ∈ segs σ.mss σ.size := fun q hq =>
    mem_segs.mpr (hps q hq).symm
  have hlast := hsegs p (List.mem_append_right _ (List.mem_singleton_self p))
  have hbefore := fun q hq => hsegs q (List.mem_append_left [p] hq)
  constructor
  · rintro ⟨-, hend⟩
    by_contra hnot
    obtain ⟨hshort, hall⟩ := not_or.mp hnot
    have hnew : Beside σ (new σ g) := ⟨Finset.empty_subset _, fun h => hshort (h ▸ dvd_zero _)⟩
    have hne := ((hnew.foldl hshort ps hbefore).receiveDataPkt hshort hlast).2
    have hans : (receiveDataPkt σ d p).2 ≠ [] := List.cons_ne_nil _ _
    obtain ⟨a, ha⟩ := List.exists_mem_of_ne_nil _ hans
    exact hne a ha (hend (not_not.mp hall) a ha)
  · intro hwhole
    have hR : insert p.seqNo (∅ ∪ (ps.map (·.seqNo)).toFinset) = R := by
      ext x
      simp [R]
    rw [← hR] at hwhole
    have hagree := (agree_new σ g w o).foldl ps hbefore
      (hwhole.mono (Finset.subset_insert _ _))
    obtain ⟨hnext, hsame⟩ := hagree.receiveDataPkt hlast hwhole
    refine ⟨hsame, fun hall a ha => ?_⟩
    have htill : a.seqNo = (receiveDataPkt σ d p).1.recvTill := by
      obtain rfl := List.mem_singleton.mp ha
      rfl
    rw [htill]
    -- the boundary where the receiver is would be a segment of the flow
    refine le_antisymm hnext.ends.le (not_lt.mp fun hlt => hnext.ends.missing ?_)
    rw [hR]
    exact hall (mem_segs.mpr ⟨hlt, hnext.ends.dvd⟩)

def segment (σ : FlowSpec) (seq : ℕ) : DctcpPacket := ⟨send σ 1 0 seq, false⟩

theorem receiver_refines_iff_secondFirst :
    let d := [segment twoSegments 1460].foldl (fun d q => (receiveDataPkt twoSegments d q).1)
      (new twoSegments (1 / 16))
    let f := [segment twoSegments 1460].foldl
      (fun f q => (f.receiveDataPkt twoSegments q.toPacket).1) (Flow.new twoSegments 12 ())
    let p := segment twoSegments 0
    let R := (([segment twoSegments 1460] ++ [p]).map (·.seqNo)).toFinset
    ((receiveDataPkt twoSegments d p).2.map (·.toPacket) =
        (f.receiveDataPkt twoSegments p.toPacket).2 ∧
      (segs 1460 2920 ⊆ R → ∀ a ∈ (receiveDataPkt twoSegments d p).2, a.seqNo = 2920)) ↔
    WholeOrMissing twoSegments R :=
  receiver_refines_iff (σ := twoSegments) (1 / 16) 12 () [segment twoSegments 1460]
    (segment twoSegments 0) (by decide)

/-- A flow with a last segment of 540 bytes. -/
def shortLast : FlowSpec := { twoSegments with
  size := 2000
  size_lt := by decide }

/-- All data has come, and the ACK of DCTCP is not the size. -/
theorem receiver_past_size :
    let ps := [segment shortLast 0]
    let p := segment shortLast 1460
    let d := ps.foldl (fun d q => (receiveDataPkt shortLast d q).1) (new shortLast (1 / 16))
    let f := ps.foldl (fun f q => (f.receiveDataPkt shortLast q.toPacket).1)
      (Flow.new shortLast 12 ())
    (∀ q ∈ ps ++ [p], 1460 ∣ q.seqNo ∧ q.seqNo < 2000) ∧
      segs 1460 2000 ⊆ ((ps ++ [p]).map (·.seqNo)).toFinset ∧
      (receiveDataPkt shortLast d p).2.map (·.seqNo) = [2920] ∧
      (f.receiveDataPkt shortLast p.toPacket).2.map (·.seqNo) = [2000] := by
  refine ⟨by decide, ?_, ?_, ?_⟩ <;> decide +kernel

end DcSim.DctcpFlow
