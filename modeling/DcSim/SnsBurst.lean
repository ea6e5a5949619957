import DcSim.SnsComplete
import DcSim.SnsProbe

/-!
The DATA packets of one SIM_ACK at the receiver.

A SIM_ACK lets `num_data_packets_per_sim_ack` DATA packets go, which differ in `seq_no` but
all carry the id of its message. The receiver counts one packet for each message id, so the
first of them counts, in whatever order they come, and those behind it are duplicates.
-/

namespace DcSim

open Runs Word32

/-- The bytes of the first DATA packets that are enough to finish a flow. -/
def SnsSpec.finishBytes (σ : SnsSpec) : ℕ :=
  (σ.size - 1 + (σ.params.mss - 1)) / σ.params.mss * σ.params.mss

namespace SnsSpec

variable (σ : SnsSpec)

lemma add_mss_le_finishBytes {n : ℕ} (h : n * σ.params.mss < σ.size - 1) :
    n * σ.params.mss + σ.params.mss ≤ σ.finishBytes := by
  have hlt : n < (σ.size - 1 + (σ.params.mss - 1)) / σ.params.mss := by
    rw [Nat.lt_div_iff_mul_lt σ.params.mss_pos]
    omega
  calc n * σ.params.mss + σ.params.mss = (n + 1) * σ.params.mss := by ring
    _ ≤ σ.finishBytes := Nat.mul_le_mul_right _ hlt

end SnsSpec

namespace SnsFlow

variable {σ : SnsSpec}

/-- A DATA packet that the receiver puts down in `duplicated_packets_received`. -/
def IsDuplicate (σ : SnsSpec) (f : SnsFlow σ.sizeInPkt) (now : Time) (p : Packet) : Prop :=
  (f.checkAndSetToFinished σ now).1.finished = false ∧
    p.snsMsgId ∈ (f.checkAndSetToFinished σ now).1.received

instance (f : SnsFlow σ.sizeInPkt) (now : Time) (p : Packet) :
    Decidable (IsDuplicate σ f now p) := by
  unfold IsDuplicate; infer_instance

/-- **What `receive` makes of a DATA packet**: it comes late, it is a duplicate, or it counts. -/
lemma receive_data_cases (f : SnsFlow σ.sizeInPkt) (now : Time) {p : Packet}
    (hp : p.snsType = .data) :
    (¬ IsDuplicate σ f now p ∧ (f.receive σ now p).1.finished = true ∧
      (f.receive σ now p).1.accepted = f.accepted) ∨
    (f.finished = false ∧ f.receivedBytes < σ.size - 1 ∧
      ((IsDuplicate σ f now p ∧ p.snsMsgId ∈ f.received ∧
          (f.receive σ now p).1.accepted = f.accepted) ∨
        (¬ IsDuplicate σ f now p ∧ p.snsMsgId ∉ f.received ∧
          (f.receive σ now p).1.accepted = insert p.snsMsgId f.accepted))) := by
  have hlate (g : SnsFlow σ.sizeInPkt) (hg : g.finished = true) :
      (g.receiveData σ now p).1.finished = true ∧
        (g.receiveData σ now p).1.accepted = g.accepted := by
    rcases g.receiveData_cases σ now p with ⟨-, hr⟩ | ⟨hopen, -⟩
    · rw [hr]; exact ⟨hg, rfl⟩
    · rw [hg] at hopen; cases hopen
  have hrec : (f.receive σ now p).1 =
      ((f.checkAndSetToFinished σ now).1.receiveData σ now p).1 := by
    simp only [receive, hp]
  unfold IsDuplicate
  rw [hrec]
  rcases f.check_cases σ now with ⟨hf, hr⟩ | ⟨hf, hb, hr⟩ | ⟨-, -, hr⟩ <;> rw [hr]
  · exact .inl ⟨by simp [hf], hlate f hf⟩
  · rw [size_pred] at hb
    refine .inr ⟨hf, hb, ?_⟩
    rcases f.receiveData_cases σ now p with ⟨hfin, -⟩ | ⟨-, hr⟩
    · rw [hf] at hfin; cases hfin
    · rw [hr, check_accepted]
      unfold acceptData
      split_ifs with hmem
      · exact .inl ⟨⟨hf, hmem⟩, hmem, rfl⟩
      · exact .inr ⟨fun h => hmem h.2, hmem, rfl⟩
  · exact .inl ⟨by simp, hlate _ rfl⟩

lemma open_of_check (f : SnsFlow σ.sizeInPkt) (now : Time)
    (h : (f.checkAndSetToFinished σ now).1.finished = false) : f.finished = false := by
  rcases f.check_cases σ now with ⟨-, hr⟩ | ⟨-, -, hr⟩ | ⟨hf, -, -⟩
  · rwa [hr] at h
  · rwa [hr] at h
  · exact hf

lemma receive_not_data (f : SnsFlow σ.sizeInPkt) (now : Time) {p : Packet}
    (hp : p.snsType ≠ .data) (hnone : p.snsType ≠ .none) :
    (f.receive σ now p).1.accepted = f.accepted ∧
      ((f.receive σ now p).1.finished = false → f.finished = false) := by
  have hopen := f.open_of_check now
  rw [← f.check_accepted σ now]
  unfold receive
  generalize f.checkAndSetToFinished σ now = r at hopen
  have hkept {g : SnsFlow σ.sizeInPkt} (hg : SameReceiver r.1 g) :
      g.accepted = r.1.accepted ∧ (g.finished = false → f.finished = false) :=
    ⟨hg.accepted, fun h => hopen (hg.finished ▸ h)⟩
  cases htype : p.snsType with
  | sim => exact hkept (r.1.sameReceiver_sim σ now p)
  | simAck => exact hkept (r.1.sameReceiver_simAck σ now p)
  | dataAck => exact hkept (r.1.sameReceiver_dataAck p)
  | data => exact absurd htype hp
  | none => exact absurd htype hnone

lemma sendPendingData_accepted (f : SnsFlow σ.sizeInPkt) (now : Time) (seqNo cid : ℕ) :
    (f.sendPendingData σ now seqNo cid).1.accepted = f.accepted ∧
      ((f.sendPendingData σ now seqNo cid).1.finished = false → f.finished = false) := by
  unfold sendPendingData
  dsimp only
  split_ifs
  · exact ⟨f.check_accepted σ now, f.open_of_check now⟩
  · rw [sendSimulation_accepted, sendSimulation_finished]
    exact ⟨f.check_accepted σ now, f.open_of_check now⟩

end SnsFlow

structure SnsTally (N : ℕ) where
  -- A flow with its packets, the DATA packets it has received and how many of them were duplicates.
  net : SnsNet N
  delivered : List Packet
  duplicates : ℕ

namespace SnsTally

variable (σ : SnsSpec)

def init : SnsTally σ.sizeInPkt := ⟨.init σ, [], 0⟩

def next (s : SnsTally σ.sizeInPkt) (a : SnsAct) : Option (SnsTally σ.sizeInPkt) :=
  (SnsNet.next σ false s.net a).map fun net =>
    match a with
    | .deliver now p =>
      if p.snsType = .data then
        ⟨net, s.delivered ++ [p],
          s.duplicates + if SnsFlow.IsDuplicate σ s.net.flow now p then 1 else 0⟩
      else { s with net := net }
    | _ => { s with net := net }

def machine : Machine (SnsTally σ.sizeInPkt) SnsAct := ⟨init σ, next σ⟩

/-- No packet is lost, and no SIM times out. -/
def Undisturbed (s : SnsTally σ.sizeInPkt) : SnsAct → Prop
  | .sendPendingData time seq cid =>
    (s.net.flow.sendPendingData σ time seq cid).1.snsSimPktDrop = s.net.flow.snsSimPktDrop
  | .lose _ => False
  | _ => True

instance (s : SnsTally σ.sizeInPkt) (a : SnsAct) : Decidable (Undisturbed σ s a) := by
  cases a <;> unfold Undisturbed <;> infer_instance

/-- The flow without losses and timeouts. -/
def undisturbed : Machine (SnsTally σ.sizeInPkt) SnsAct := (machine σ).restrict (Undisturbed σ)

/-- What was meant: until the flow is finished each DATA packet counts, and none is taken for a
duplicate. -/
def CountsAll (s : SnsTally σ.sizeInPkt) : Prop :=
  s.duplicates = 0 ∧
    (s.net.flow.finished = false →
      s.net.flow.receivedBytes = σ.params.mss * s.delivered.length)

variable {σ} {s t : SnsTally σ.sizeInPkt} {a : SnsAct}

lemma net_next (h : next σ s a = some t) : (SnsNet.machine σ false).next s.net a = some t.net := by
  obtain ⟨net, hnet, rfl⟩ := Option.map_eq_some_iff.mp h
  refine hnet.trans (congrArg some ?_)
  cases a with
  | deliver now p => dsimp only; split_ifs <;> rfl
  | sendPendingData | lose | duplicate => rfl

lemma reach_net (h : Reach (machine σ) s) : Reach (SnsNet.machine σ false) s.net := by
  induction h with
  | init => exact .init
  | step _ hn ih => exact ih.step (net_next hn)

/-- **What a step can do** to the tally. -/
lemma next_cases (hs : Reach (machine σ) s) (h : next σ s a = some t) :
    (t.delivered = s.delivered ∧ t.duplicates = s.duplicates ∧
      t.net.flow.accepted = s.net.flow.accepted ∧
      (t.net.flow.finished = false → s.net.flow.finished = false)) ∨
    ∃ p rest, p.snsType = .data ∧ s.net.inFlight = p ::ₘ rest ∧
      t.delivered = s.delivered ++ [p] ∧
      ((t.net.flow.finished = true ∧ t.net.flow.accepted = s.net.flow.accepted ∧
          t.duplicates = s.duplicates) ∨
        (s.net.flow.finished = false ∧ s.net.flow.receivedBytes < σ.size - 1 ∧
          ((p.snsMsgId ∈ s.net.flow.received ∧ t.net.flow.accepted = s.net.flow.accepted ∧
              t.duplicates = s.duplicates + 1) ∨
            (p.snsMsgId ∉ s.net.flow.received ∧
              t.net.flow.accepted = insert p.snsMsgId s.net.flow.accepted ∧
              t.duplicates = s.duplicates)))) := by
  have htyped := (SnsNet.kept_typed σ false).reach (reach_net hs)
  obtain ⟨net, hnet, rfl⟩ := Option.map_eq_some_iff.mp h
  rcases SnsNet.next_cases hnet with ⟨now, seq, cid, rfl, -, -, rfl⟩ |
    ⟨now, p, rest, rfl, -, hS, rfl⟩ | ⟨p, rest, rfl, -, rfl⟩ | ⟨p, rfl, hd, -⟩
  · exact .inl ⟨rfl, rfl, s.net.flow.sendPendingData_accepted now seq cid⟩
  · dsimp only
    split_ifs with hp hdup
    · refine .inr ⟨p, rest, hp, hS, rfl, ?_⟩
      rcases s.net.flow.receive_data_cases now hp with ⟨hno, -⟩ | ⟨hf, hb, ⟨-, hcase⟩ | ⟨hno, -⟩⟩
      · exact absurd hdup hno
      · exact .inr ⟨hf, hb, .inl ⟨hcase.1, hcase.2, rfl⟩⟩
      · exact absurd hdup hno
    · refine .inr ⟨p, rest, hp, hS, rfl, ?_⟩
      rcases s.net.flow.receive_data_cases now hp with
        ⟨-, hf, ha⟩ | ⟨hf, hb, ⟨hyes, -⟩ | ⟨-, hcase⟩⟩
      · exact .inl ⟨hf, ha, rfl⟩
      · exact absurd hyes hdup
      · exact .inr ⟨hf, hb, .inr ⟨hcase.1, hcase.2, rfl⟩⟩
    · have hnone := htyped p (by rw [hS]; exact Multiset.mem_cons_self _ _)
      exact .inl ⟨rfl, rfl, s.net.flow.receive_not_data now hp hnone⟩
  · exact .inl ⟨rfl, rfl, rfl, id⟩
  · cases hd

/-! ### What the counters say -/

theorem tallied (hs : Reach (machine σ) s) (hopen : s.net.flow.finished = false) :
    s.net.flow.accepted = (s.delivered.map (·.snsMsgId)).toFinset ∧
      s.net.flow.accepted.card + s.duplicates = s.delivered.length := by
  revert hopen
  refine hs.inv (I := fun s => s.net.flow.finished = false →
    s.net.flow.accepted = (s.delivered.map (·.snsMsgId)).toFinset ∧
      s.net.flow.accepted.card + s.duplicates = s.delivered.length) (fun _ => ⟨rfl, rfl⟩) ?_
  intro s t a hs ih hn hopen
  rcases next_cases hs hn with ⟨hdel, hdup, hacc, hmono⟩ | ⟨p, rest, -, -, hdel, hcase⟩
  · rw [hdel, hdup, hacc]
    exact ih (hmono hopen)
  · rcases hcase with ⟨hfin, -, -⟩ | ⟨hf, -, hcase⟩
    · rw [hopen] at hfin; cases hfin
    obtain ⟨hids, hcard⟩ := ih hf
    have hrec := (SnsNet.accounts (reach_net hs)).2.received hf
    have hnew : ((s.delivered ++ [p]).map (·.snsMsgId)).toFinset =
        insert p.snsMsgId s.net.flow.accepted := by
      rw [hids, List.map_append, List.toFinset_append, Finset.union_comm]
      rfl
    rw [hdel, hnew, List.length_append]
    rcases hcase with ⟨hmem, hacc, hdup⟩ | ⟨hmem, hacc, hdup⟩ <;> rw [hrec] at hmem <;>
      rw [hacc, hdup]
    · exact ⟨(Finset.insert_eq_self.mpr hmem).symm, by simp only [List.length_singleton]; omega⟩
    · rw [Finset.card_insert_of_notMem hmem]
      exact ⟨rfl, by simp only [List.length_singleton]; omega⟩

/-- **Where the DATA packets all count**: no two of one message have come, and their bytes fit in
32 bits. -/
theorem countsAll_iff_nodup (hs : Reach (machine σ) s) (hopen : s.net.flow.finished = false) :
    CountsAll σ s ↔ (s.delivered.map (·.snsMsgId)).Nodup ∧
      σ.params.mss * s.delivered.length < 4294967296 := by
  obtain ⟨hids, hcard⟩ := tallied hs hopen
  have hbytes := (SnsNet.accounts (reach_net hs)).2.bytes
  have hnodup : s.duplicates = 0 ↔ (s.delivered.map (·.snsMsgId)).Nodup := by
    have hcardinality : s.net.flow.accepted.card = s.delivered.length ↔
        (s.delivered.map (·.snsMsgId)).Nodup := by
      rw [hids, ← List.length_map (·.snsMsgId)]
      exact Multiset.toFinset_card_eq_card_iff_nodup
    rw [← hcardinality]
    omega
  unfold CountsAll
  rw [hnodup, and_congr_right_iff]
  intro hall
  have hlength : s.net.flow.accepted.card = s.delivered.length := by
    rw [← hnodup] at hall
    omega
  rw [forall_prop_of_true hopen, hbytes, hlength, Nat.mul_comm]
  exact ⟨fun h => h ▸ Nat.mod_lt _ (by decide), Nat.mod_eq_of_lt⟩

lemma accepted_le (hfin : σ.finishBytes < 4294967296) (hs : Reach (machine σ) s) :
    s.net.flow.accepted.card * σ.params.mss ≤ σ.finishBytes := by
  refine hs.inv (I := fun s => s.net.flow.accepted.card * σ.params.mss ≤ σ.finishBytes) ?_ ?_
  · exact (Nat.zero_mul _).trans_le (Nat.zero_le _)
  intro s t a hs ih hn
  rcases next_cases hs hn with ⟨-, -, hacc, -⟩ | ⟨p, rest, -, -, -, hcase⟩
  · rwa [hacc]
  · rcases hcase with ⟨-, hacc, -⟩ | ⟨hf, hb, ⟨-, hacc, -⟩ | ⟨hmem, hacc, -⟩⟩
    · rwa [hacc]
    · rwa [hacc]
    · have hrep := (SnsNet.accounts (reach_net hs)).2
      rw [hrep.bytes, Nat.mod_eq_of_lt (ih.trans_lt hfin)] at hb
      rw [hrep.received hf] at hmem
      rw [hacc, Finset.card_insert_of_notMem hmem, Nat.succ_mul]
      exact σ.add_mss_le_finishBytes hb

/-! ### Flows whose DATA packets all count -/

open SnsFlow in
lemma kept_dataIds (σ : SnsSpec) :
    SnsNet.Kept σ false (fun _ _ => True)
      fun f _ => ∀ id ∈ f.accepted, id ∈ f.dataIdsRecived := by
  refine .receiver (fun {f g} hfg h => ?_) (by simp [SnsFlow.new]) (fun {f} t h => ?_)
    fun {f} t p h => ?_
  · rw [hfg.accepted, hfg.dataIdsRecived]
    exact h
  · rcases f.check_cases σ t with ⟨-, hr⟩ | ⟨-, -, hr⟩ | ⟨-, -, hr⟩ <;> rw [hr] <;> exact h
  · have hins : ∀ id ∈ f.accepted, id ∈ f.dataIdsRecived.orderedInsert (· ≤ ·) p.snsMsgId :=
      fun id hid => (List.mem_orderedInsert (· ≤ ·)).mpr (.inr (h id hid))
    rcases f.receiveData_cases σ t p with ⟨-, hr⟩ | ⟨-, hr⟩ <;> rw [hr]
    · exact hins
    · have hrec (g : SnsFlow σ.sizeInPkt) :
          (g.checkAndSetToFinished σ t).1.dataIdsRecived = g.dataIdsRecived := by
        rcases g.check_cases σ t with ⟨-, hr⟩ | ⟨-, -, hr⟩ | ⟨-, -, hr⟩ <;> rw [hr]
      rw [check_accepted, hrec, acceptData_dataIdsRecived]
      unfold acceptData
      split_ifs
      · exact hins
      · intro id hid
        rcases Finset.mem_insert.mp hid with rfl | hid
        · exact (List.mem_orderedInsert (· ≤ ·)).mpr (.inl rfl)
        · exact hins id hid

lemma not_received_of_single (hc : σ.collectiveId ≠ 99)
    (hm : σ.params.numDataPacketsPerSimAck = 1) {n : SnsNet σ.sizeInPkt}
    (hn : Reach (SnsNet.machine σ false) n) (hopen : n.flow.finished = false) {p : Packet}
    (hp : p ∈ n.inFlight) (htype : p.snsType = .data) : p.snsMsgId ∉ n.flow.received := by
  intro hmem
  rw [(SnsNet.accounts hn).2.received hopen] at hmem
  have hcounts := (SnsNet.kept_counts hc).reach hn
  have hrec := List.count_pos_iff.mpr ((kept_dataIds σ).reach hn _ hmem)
  have hflight := htype ▸ one_le_inFlightOf n.inFlight hp
  have hsims := hcounts.sims p.snsMsgId
  have hacks := hcounts.simAcks p.snsMsgId
  have hdatas := hcounts.datas p.snsMsgId
  have hreceived := hcounts.received p.snsMsgId
  rw [hm, Nat.one_mul] at hreceived
  split_ifs at hsims <;> omega

lemma no_duplicates (hc : σ.collectiveId ≠ 99)
    (hm : σ.params.numDataPacketsPerSimAck = 1 ∨ σ.size ≤ σ.params.mss + 1)
    (hfin : σ.finishBytes < 4294967296) (hs : Reach (machine σ) s) : s.duplicates = 0 := by
  refine hs.inv (I := fun s => s.duplicates = 0) rfl fun {s t a} hs ih hn => ?_
  rcases next_cases hs hn with ⟨-, hdup, -⟩ | ⟨p, rest, hp, hS, -, hcase⟩
  · rw [hdup, ih]
  · rcases hcase with ⟨-, -, hdup⟩ | ⟨hf, hb, ⟨hmem, -, -⟩ | ⟨-, -, hdup⟩⟩
    · rw [hdup, ih]
    · exfalso
      rcases hm with hm | hsize
      · have hin : p ∈ s.net.inFlight := by rw [hS]; exact Multiset.mem_cons_self _ _
        exact not_received_of_single hc hm (reach_net hs) hf hin hp hmem
      · -- what was accepted would have finished the flow
        have hrep := (SnsNet.accounts (reach_net hs)).2
        rw [hrep.received hf] at hmem
        have hcard : 1 * σ.params.mss ≤ s.net.flow.accepted.card * σ.params.mss :=
          Nat.mul_le_mul_right _ (Finset.card_pos.mpr ⟨_, hmem⟩)
        rw [hrep.bytes, Nat.mod_eq_of_lt ((accepted_le hfin hs).trans_lt hfin)] at hb
        omega
    · rw [hdup, ih]

lemma countsAll (hc : σ.collectiveId ≠ 99)
    (hm : σ.params.numDataPacketsPerSimAck = 1 ∨ σ.size ≤ σ.params.mss + 1)
    (hfin : σ.finishBytes < 4294967296) (hs : Reach (machine σ) s) : CountsAll σ s := by
  have hdup := no_duplicates hc hm hfin hs
  refine ⟨hdup, fun hopen => ?_⟩
  have hcard := (tallied hs hopen).2
  rw [hdup, Nat.add_zero] at hcard
  rw [(SnsNet.accounts (reach_net hs)).2.bytes,
    Nat.mod_eq_of_lt ((accepted_le hfin hs).trans_lt hfin), hcard, Nat.mul_comm]

/-! ### Runs in which one does not count -/

open SnsNet

lemma reach_step (hs : Reach (undisturbed σ) s) (ha : Undisturbed σ s a)
    (hn : next σ s a = some t) : Reach (undisturbed σ) t :=
  hs.step ((if_pos ha).trans hn)

lemma reach_quiet (hs : Reach (undisturbed σ) s) {n : SnsNet σ.sizeInPkt}
    (ha : Undisturbed σ s a) (hn : (SnsNet.machine σ false).next s.net a = some n)
    (hdata : ∀ now p, a = .deliver now p → p.snsType ≠ .data) :
    Reach (undisturbed σ) { s with net := n } := by
  refine reach_step hs ha ((congrArg (Option.map _) hn).trans (congrArg some ?_))
  cases a with
  | deliver now p => exact if_neg (hdata now p rfl)
  | sendPendingData | lose | duplicate => rfl

lemma reach_data (hs : Reach (undisturbed σ) s) {n : SnsNet σ.sizeInPkt} {now : Time} {p : Packet}
    (hp : p.snsType = .data)
    (hn : (SnsNet.machine σ false).next s.net (.deliver now p) = some n) :
    Reach (undisturbed σ) ⟨n, s.delivered ++ [p],
      s.duplicates + if SnsFlow.IsDuplicate σ s.net.flow now p then 1 else 0⟩ :=
  reach_step (a := .deliver now p) hs trivial
    ((congrArg (Option.map _) hn).trans (congrArg some (if_pos hp)))

section Build

variable {j : ℕ}

lemma exists_burst (hs : Reach (undisturbed σ) s) (h : Fresh σ j j s.net.flow)
    (hsize : 1 < σ.size) (hc : σ.collectiveId ≠ 99) (hj : j < σ.sizeInPkt) :
    ∃ n, Reach (undisturbed σ) { s with net := n } ∧ Fresh σ j (j + 1) n.flow ∧
      σ.params.numDataPacketsPerSimAck ≤ inFlightOf .data j n.inFlight := by
  have hnet {s : SnsTally σ.sizeInPkt} (hs : Reach (undisturbed σ) s) :
      Reach (SnsNet.machine σ false) s.net := reach_net hs.of_restrict
  obtain ⟨n₁, hn₁, hdrop, h₁, hsim⟩ := h.send (hnet hs) hsize hc hj
  have hquiet : Undisturbed σ s (.sendPendingData s.net.now 0 0) := by
    obtain rfl := Option.some.inj (hn₁.symm.trans (next_sendPendingData h.finished))
    exact hdrop
  have hs₁ := reach_quiet hs hquiet hn₁ (by simp)
  obtain ⟨p₂, n₂, htype₂, hn₂, h₂, hack⟩ := h₁.deliverSim (hnet hs₁) hsize hsim
  have hs₂ := reach_quiet hs₁ (a := .deliver n₁.now p₂) trivial hn₂
    (by rintro _ _ ⟨⟩; rw [htype₂]; simp)
  obtain ⟨p₃, n₃, time, htype₃, hid, hn₃, h₃, hS⟩ := h₂.deliverSimAck (hnet hs₂) hsize hack
  have hs₃ := reach_quiet hs₂ (a := .deliver n₂.now p₃) trivial hn₃
    (by rintro _ _ ⟨⟩; rw [htype₃]; simp)
  refine ⟨n₃, hs₃, h₃, ?_⟩
  have hburst := inFlightOf_map .data j (List.range σ.params.numDataPacketsPerSimAck)
    (SnsFlow.dataPacket σ time p₃) (t := .data) (i := j) fun _ => ⟨rfl, hid⟩
  rw [hS, inFlightOf_add, hburst, if_pos ⟨rfl, rfl⟩, List.length_range]
  exact Nat.le_add_left _ _

lemma hasPacket_of_pos {n : SnsNet σ.sizeInPkt} (h : 0 < inFlightOf .data j n.inFlight) :
    HasPacket n .data j := by
  obtain ⟨p, hp, htype, hid⟩ := Multiset.countP_pos.mp h
  exact ⟨p, hp, htype, hid⟩

lemma exists_message (hs : Reach (undisturbed σ) s) (h : Fresh σ j j s.net.flow)
    (hsize : 1 < σ.size) (hc : σ.collectiveId ≠ 99)
    (hm : 1 ≤ σ.params.numDataPacketsPerSimAck) (hj : j < σ.sizeInPkt) :
    ∃ t, Reach (undisturbed σ) t ∧ t.delivered.length = s.delivered.length + 1 ∧
      σ.params.numDataPacketsPerSimAck ≤ inFlightOf .data j t.net.inFlight + 1 ∧
      (Fresh σ (j + 1) (j + 1) t.net.flow ∨
        (t.net.flow.finished = true ∧ t.net.flow.accepted = Finset.range (j + 1))) := by
  obtain ⟨n, hn, h, hburst⟩ := exists_burst hs h hsize hc hj
  have hdata : HasPacket n .data j := hasPacket_of_pos (by omega)
  obtain ⟨p, t, hp, htype, hid, ht, hrest, hcase⟩ :=
    h.deliverData (reach_net hn.of_restrict) hsize hdata
  refine ⟨_, reach_data hn htype ht, by simp, ?_, hcase⟩
  have herase := inFlightOf_cons .data j (n.inFlight.erase p) p
  rw [Multiset.cons_erase hp, if_pos ⟨htype, hid⟩] at herase
  have hle : inFlightOf .data j (n.inFlight.erase p) ≤ inFlightOf .data j t.inFlight :=
    Multiset.countP_le_of_le _ hrest
  dsimp only
  omega

lemma exists_fresh (hsize : 1 < σ.size) (hc : σ.collectiveId ≠ 99)
    (hm : 1 ≤ σ.params.numDataPacketsPerSimAck) (hj : j * σ.params.mss < σ.size - 1) :
    ∃ s, Reach (undisturbed σ) s ∧ Fresh σ j j s.net.flow ∧ s.delivered.length = j := by
  induction j with
  | zero => exact ⟨_, .init, ⟨rfl, rfl, rfl, rfl, fun _ _ => rfl⟩, rfl⟩
  | succ j ih =>
    rw [Nat.succ_mul] at hj
    obtain ⟨s, hs, h, hlength⟩ := ih (by omega)
    have hpkt : j * σ.params.mss < σ.sizeInPkt * σ.params.mss := by
      have := σ.size_le
      omega
    obtain ⟨t, ht, hlength', -, h | ⟨hf, hacc⟩⟩ :=
      exists_message hs h hsize hc hm (Nat.lt_of_mul_lt_mul_right hpkt)
    · exact ⟨t, ht, h, by rw [hlength', hlength]⟩
    · have hle := size_pred_le (reach_net ht.of_restrict) hf
      rw [hacc, Finset.card_range, Nat.succ_mul] at hle
      omega

end Build

lemma exists_duplicate (hc : σ.collectiveId ≠ 99) (hm : 2 ≤ σ.params.numDataPacketsPerSimAck)
    (hsize : σ.params.mss + 1 < σ.size) : ∃ s, Reach (undisturbed σ) s ∧ ¬ CountsAll σ s := by
  have hinit : Fresh σ 0 0 (init σ).net.flow := ⟨rfl, rfl, rfl, rfl, fun _ _ => rfl⟩
  obtain ⟨t, ht, -, hburst, h | ⟨hf, hacc⟩⟩ :=
    exists_message (.init (M := undisturbed σ)) hinit (by omega) hc (by omega) σ.sizeInPkt_pos
  · have hnet := reach_net ht.of_restrict
    obtain ⟨p, hp, htype, hid⟩ : HasPacket t.net .data 0 := hasPacket_of_pos (by omega)
    refine ⟨_, reach_data ht htype (next_deliver hp), fun hcounts => ?_⟩
    have hdup : SnsFlow.IsDuplicate σ t.net.flow t.net.now p := by
      unfold SnsFlow.IsDuplicate
      rw [h.check_eq hnet (by omega), hid, (accounts hnet).2.received h.finished, h.accepted]
      exact ⟨h.finished, Finset.self_mem_range_succ 0⟩
    have hzero := hcounts.1
    simp only [if_pos hdup] at hzero
    omega
  · have hle := size_pred_le (reach_net ht.of_restrict) hf
    rw [hacc, Finset.card_range, Nat.zero_add, Nat.one_mul] at hle
    omega

lemma exists_wrap (hc : σ.collectiveId ≠ 99) (hm : 1 ≤ σ.params.numDataPacketsPerSimAck)
    (hfin : 4294967296 ≤ σ.finishBytes) : ∃ s, Reach (undisturbed σ) s ∧ ¬ CountsAll σ s := by
  have hmss := σ.params.mss_pos
  have hmss_lt := σ.params.mss_lt
  have hsize_lt := σ.size_lt
  have hmul := Nat.div_mul_le_self (σ.size - 1 + (σ.params.mss - 1)) σ.params.mss
  unfold SnsSpec.finishBytes at hfin
  obtain ⟨n, hn⟩ : ∃ n, (σ.size - 1 + (σ.params.mss - 1)) / σ.params.mss = n + 1 :=
    Nat.exists_eq_succ_of_ne_zero fun h0 => by simp [h0] at hfin
  rw [hn, Nat.succ_mul] at hfin hmul
  have hopen : n * σ.params.mss < σ.size - 1 := by omega
  have hpkt : n * σ.params.mss < σ.sizeInPkt * σ.params.mss := by
    have := σ.size_le
    omega
  obtain ⟨s, hs, h, hlength⟩ := exists_fresh (by omega) hc hm hopen
  obtain ⟨t, ht, hlength', -, h⟩ :=
    exists_message hs h (by omega) hc hm (Nat.lt_of_mul_lt_mul_right hpkt)
  refine ⟨t, ht, fun hcounts => ?_⟩
  have hrep := (accounts (reach_net ht.of_restrict)).2
  rcases h with h | ⟨hf, hacc⟩
  · have hbytes := hcounts.2 h.finished
    have hlt := hrep.bytes ▸ Nat.mod_lt (t.net.flow.accepted.card * σ.params.mss)
      (by decide : 4294967296 > 0)
    rw [hlength', hlength, Nat.mul_comm, Nat.succ_mul] at hbytes
    omega
  · have hle := hrep.finished hf
    rw [SnsFlow.size_pred, hrep.bytes, hacc, Finset.card_range, Nat.succ_mul] at hle
    omega

/-- **All the DATA packets of a flow count**, in every run without losses and timeouts, exactly if
each SIM_ACK lets one go or the first one finishes the flow, and the bytes that finish the flow
fit in 32 bits. -/
theorem countsAll_iff (hc : σ.collectiveId ≠ 99) (hm : 1 ≤ σ.params.numDataPacketsPerSimAck) :
    (∀ s, Reach (undisturbed σ) s → CountsAll σ s) ↔
      (σ.params.numDataPacketsPerSimAck = 1 ∨ σ.size ≤ σ.params.mss + 1) ∧
        σ.finishBytes < 4294967296 := by
  constructor
  · intro h
    constructor
    · by_contra hno
      obtain ⟨hm₂, hsize⟩ := not_or.mp hno
      obtain ⟨s, hs, hnot⟩ := exists_duplicate hc (by omega) (by omega)
      exact hnot (h s hs)
    · by_contra hno
      obtain ⟨s, hs, hnot⟩ := exists_wrap hc hm (not_lt.mp hno)
      exact hnot (h s hs)
  · rintro ⟨hm, hfin⟩ s hs
    exact countsAll hc hm hfin hs.of_restrict

def threeSegments (m : ℕ) : SnsSpec := exampleSpec 3000 m (by decide)

/-- DATA packets of its first SIM_ACK arrive, in the order given. -/
def firstBurst (m : ℕ) (is : List ℕ) : List SnsAct :=
  let sim := SnsFlow.simPacket (threeSegments m) (.new (threeSegments m)) 1
  let ack := SnsFlow.simAckPacket (threeSegments m) (1 + 1 / 100000) sim
  let data := SnsFlow.dataPacket (threeSegments m) (1 + (threeSegments m).worstRtt) ack
  [.sendPendingData 1 0 0, .deliver (1 + 1 / 100000) sim, .deliver (1 + 1 / 100000) ack] ++
    is.map fun i => .deliver (1 + 1 / 10000) (data i)

/-- With one DATA packet for each SIM_ACK it counts. -/
theorem countsAll_single :
    ∃ s, (Reach (undisturbed (threeSegments 1)) s ∧ s.delivered.length = 1) ∧
      CountsAll (threeSegments 1) s := by
  obtain ⟨s, hs, hlength⟩ : ∃ s, Reach (undisturbed (threeSegments 1)) s ∧
      s.delivered.length = 1 :=
    exists_reach_of_exec_any (firstBurst 1 [0]) (by decide +kernel)
  exact ⟨s, ⟨hs, hlength⟩,
    (countsAll_iff (σ := threeSegments 1) (by decide) (by decide)).mpr (by decide) s hs⟩

/-- **With two DATA packets for each SIM_ACK** one of them does not count. -/
theorem not_countsAll_pair : ¬ ∀ s, Reach (undisturbed (threeSegments 2)) s →
    CountsAll (threeSegments 2) s := by
  obtain ⟨s, hs, hdup⟩ : ∃ s, Reach (undisturbed (threeSegments 2)) s ∧ s.duplicates = 1 :=
    exists_reach_of_exec_any (firstBurst 2 [1, 0]) (by decide +kernel)
  intro h
  have hzero := (h s hs).1
  omega

end SnsTally

end DcSim
