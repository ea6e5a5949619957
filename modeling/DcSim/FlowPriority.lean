import DcSim.FlowAcks
import DcSim.FlowWindow

/-!
The priority of the base flow and of pFabric, the bytes that remain.

It is a difference of 32 bits, and right as long as what is acknowledged and what the last ACK says
was received beyond it are within the size of the flow. Any ACK is so by itself. But the sender
takes the SACK list of an ACK that is older than `last_unacked_seq` as well, and counts its bytes on
top of what is acknowledged since.
-/

namespace DcSim.Flow

open LossyNet Runs Segments Word32

variable {σ : FlowSpec} {kind : FlowKind} {f g : Flow PFabric} {S : Multiset Packet}
  {R : Finset ℕ}

/-- What is acknowledged and what is known to be received beyond it are within the flow. -/
def Room (σ : FlowSpec) (f : Flow PFabric) : Prop :=
  f.lastUnackedSeq + f.scoreboardSackBytes ≤ σ.size

/-- No ACK that is older than `last_unacked_seq` has so long a SACK list that its bytes, beyond
`last_unacked_seq`, would be past the end. -/
def StaleFits (σ : FlowSpec) (f : Flow PFabric) : Act Packet Time FlowInput → Prop
  | .deliver _ p => f.finished = false → p.type = .ack → p.seqNo < f.lastUnackedSeq →
      f.lastUnackedSeq + p.sackList.length * σ.mss ≤ σ.size
  | _ => True

instance (σ : FlowSpec) (f : Flow PFabric) : ∀ a, Decidable (StaleFits σ f a)
  | .deliver _ _ => inferInstanceAs (Decidable (_ → _ → _ → _))
  | .input _ _ => isTrue trivial
  | .lose _ => isTrue trivial
  | .duplicate _ => isTrue trivial

/-- The SACK list of an ACK has room beyond its number. -/
def AckFits (σ : FlowSpec) (p : Packet) : Prop :=
  p.type = .ack → p.seqNo + p.sackList.length * σ.mss ≤ σ.size

/-! ### The ACKs of the receiver -/

lemma answer_fits (hR : R ⊆ segs σ.mss σ.size) : AckFits σ (answer σ R) := by
  intro _
  have hacked := acked_prefixEnd (σ := σ) R
  show prefixEnd σ.mss_pos σ.size R + _ * σ.mss ≤ σ.size
  rw [answer, sendAck, Finset.length_sort]
  rcases hacked.boundary with hdvd | hend
  · exact card_filter_mul_le σ.mss_pos (fun x hx => (mem_segs.mp (hR hx)).symm) hdvd hacked.le
  · have hnone : R.filter (prefixEnd σ.mss_pos σ.size R < ·) = ∅ := by
      refine Finset.filter_eq_empty_iff.mpr fun x hx => ?_
      have := (mem_segs.mp (hR hx)).1
      omega
    rw [hnone, Finset.card_empty]
    omega

lemma Exact.receives (h : Exact σ f) (hsafe : Safe σ f) (hfin : f.finished = false) :
    Receives σ f.delivered f where
  received := h.received hfin
  segs := h.delivered
  le_max := h.le_max
  maxSeqNoRecv := hsafe.maxSeqNoRecv
  recvTill := (prefixEnd_eq σ.mss_pos hsafe.recvTill.le hsafe.recvTill.covers fun hlt =>
    ⟨hsafe.recvTill.boundary.dvd hlt, h.missing hlt⟩).symm

section Calls

variable (hsize : σ.size + σ.mss < 4294967296) (hkind : kind ≠ .tcp)
include hsize hkind

lemma receive_fits (h : Exact σ f) (hsafe : Safe σ f) (now : Time) {p : Packet}
    (hp : SafePacket σ f p ∧ ExactPacket σ p) :
    ∀ q ∈ (f.receive σ kind now p).2, AckFits σ q := by
  intro q hq
  rcases receive_sends (f := f) hkind now (Multiset.mem_singleton_self p) with heq |
    ⟨hfin, htype, heq⟩ | ⟨-, -, -, -, hnil⟩ | hby
  · exact absurd (heq ▸ hq) List.not_mem_nil
  · have hseg : p.seqNo ∈ segs σ.mss σ.size := mem_segs.mpr ⟨hp.1.seqNo htype, hp.2.seqNo htype⟩
    rw [heq, ((h.receives hsafe hfin).receiveDataPkt hsize hseg).2] at hq
    obtain rfl := List.mem_singleton.mp hq
    exact answer_fits (Finset.insert_subset hseg h.delivered)
  · exact absurd (hnil ▸ hq) List.not_mem_nil
  · exact fun hack => absurd ((hby.normal q hq).symm.trans hack) nofun

lemma fits_calls : Calls (party σ kind) (fun _ _ => True) (fun f => Safe σ f ∧ Exact σ f) Ahead
    (fun f p => (SafePacket σ f p ∧ ExactPacket σ p) ∧ AckFits σ p) where
  init := (exact_calls kind hsize).init
  mono := fun hfg hp => ⟨(exact_calls kind hsize).mono hfg hp.1, hp.2⟩
  input := by
    intro f t i r _ h hr
    have hcall := (exact_calls kind hsize).input trivial h hr
    refine ⟨hcall.inv, hcall.le, fun p hp => ⟨hcall.packets p hp, fun hack => ?_⟩⟩
    rcases input_sends (S := 0) hkind hr with ⟨-, hnil⟩ | hby
    · exact absurd (hnil ▸ hp) List.not_mem_nil
    · exact absurd ((hby.normal p hp).symm.trans hack) nofun
  receive := by
    intro f t p _ h hp
    have hcall := (exact_calls kind hsize).receive (t := t) trivial h hp.1
    exact ⟨hcall.inv, hcall.le, fun q hq =>
      ⟨hcall.packets q hq, receive_fits hsize hkind h.2 h.1 t hp.1 q hq⟩⟩

end Calls

/-! ### The sender -/

lemma Room.same (h : Room σ f) (hs : SameWindow f g) : Room σ g := by
  unfold Room at h ⊢
  rwa [hs.lastUnackedSeq, hs.scoreboardSackBytes]

lemma AckFits.mul32 {p : Packet} (h : AckFits σ p) (htype : p.type = .ack) :
    mul32 p.sackList.length σ.mss = p.sackList.length * σ.mss := by
  have hfits := h htype
  have hsize := σ.size_lt
  exact Nat.mod_eq_of_lt (by omega)

lemma SendCall.room (hcall : SendCall σ kind f S g) (h : Room σ f) (hS : ∀ p ∈ S, AckFits σ p) :
    Room σ g := by
  cases hcall with
  | start => exact h
  | @newAck p hp htype =>
    obtain ⟨w, o, hcwnd⟩ := increaseCwnd_frame (σ := σ) kind
      { f.noteAck σ p.seqNo p.sackList with lastUnackedSeq := p.seqNo }
    rw [hcwnd]
    show p.seqNo + Word32.mul32 p.sackList.length σ.mss ≤ σ.size
    rw [(hS p hp).mul32 htype]
    exact hS p hp htype
  | timeout own => exact h

lemma Room.getPriority (h : Room σ f) (hkind : kind ≠ .tcp) (hflow : σ.flowType ≠ 1)
    (hdeadline : σ.scheduleByDeadline = false) :
    f.getPriority σ kind = σ.size - (f.lastUnackedSeq + f.scoreboardSackBytes) := by
  have hsize := σ.size_lt
  unfold Room at h
  rw [Flow.getPriority, if_neg hkind, if_neg hflow, if_neg (by simp [hdeadline]),
    sub32_eq hsize (by omega), sub32_eq (by omega) (by omega), Nat.sub_sub]

section Steps

variable (hsize : σ.size + σ.mss < 4294967296)
include hsize

lemma sendPendingData_room (hn : f.nextSeqNo ≤ σ.size) (now : Time) :
    Room σ (f.sendPendingData σ kind now).1 ↔ Room σ f := by
  unfold Flow.sendPendingData
  split_ifs
  · obtain ⟨⟨n, r, es, c, hflow, -⟩, -⟩ := sendLoop_spec hsize now
      (add32 (Word32.mul32 f.cwndMss σ.mss) f.scoreboardSackBytes) (f.getPriority σ kind)
      (σ.size + 1) f.nextSeqNo f hn
    rw [hflow]
    rfl
  · rfl

lemma BySendCall.room {r : Flow PFabric × List Packet} (hr : BySendCall σ kind f S r)
    (h : Room σ f) (hsafe : Safe σ f) (hS : ∀ p ∈ S, SafePacket σ f p ∧ AckFits σ p) :
    Room σ r.1 := by
  obtain ⟨g, now, hcall, hsame, -⟩ := hr
  have hg := (hcall.safe hsafe fun p hp => (hS p hp).1).nextSeqNo
  exact ((sendPendingData_room hsize hg now).mpr (hcall.room h fun p hp => (hS p hp).2)).same hsame

variable (hkind : kind ≠ .tcp) {s t : State (Flow PFabric) Packet Time}
  {a : Act Packet Time FlowInput}
include hkind

/-- **A step that keeps room**: any but the receipt of an old ACK that does not fit. -/
lemma Room.step (h : Room σ s.party) (hsafe : Safe σ s.party)
    (hS : ∀ p ∈ s.inFlight, SafePacket σ s.party p ∧ AckFits σ p) (hfits : StaleFits σ s.party a)
    (hn : next (party σ kind) s a = some t) : Room σ t.party := by
  rcases next_cases hn with ⟨time, i, r, -, hr, rfl⟩ | ⟨time, p, T, rfl, hT, rfl⟩ |
    ⟨p, T, -, -, rfl⟩ | ⟨p, -, -, rfl⟩
  · rcases input_sends (S := s.inFlight) hkind hr with ⟨hsame, -⟩ | hby
    · exact h.same hsame
    · exact hby.room hsize h hsafe hS
  · have hp : p ∈ s.inFlight := hT ▸ Multiset.mem_cons_self p T
    show Room σ (s.party.receive σ kind time p).1
    rcases receive_sends (f := s.party) hkind time hp with heq | ⟨-, -, heq⟩ |
      ⟨hfin, htype, hold, hsame, -⟩ | hby
    · exact heq ▸ h
    · obtain ⟨r, b, hacc, -⟩ := accept_frame s.party p (σ := σ)
      rw [heq]
      unfold receiveDataPkt
      rw [hacc]
      exact h
    · refine Room.same ?_ hsame
      show s.party.lastUnackedSeq + Word32.mul32 p.sackList.length σ.mss ≤ σ.size
      rw [(hS p hp).2.mul32 htype]
      rcases hold.eq_or_lt with heq | hlt
      · exact heq ▸ (hS p hp).2 htype
      · exact hfits hfin htype hlt
    · exact hby.room hsize h hsafe hS
  · exact h
  · exact h

omit hsize in
lemma not_room_of_stale (hS : ∀ p ∈ s.inFlight, AckFits σ p) (hfits : ¬ StaleFits σ s.party a)
    (hn : next (party σ kind) s a = some t) : ¬ Room σ t.party := by
  rcases next_cases hn with ⟨time, i, r, rfl, hr, rfl⟩ | ⟨time, p, T, rfl, hT, rfl⟩ |
    ⟨p, T, rfl, -, rfl⟩ | ⟨p, rfl, -, rfl⟩
  · exact absurd trivial hfits
  · have hp : p ∈ s.inFlight := hT ▸ Multiset.mem_cons_self p T
    simp only [StaleFits, Classical.not_imp] at hfits
    obtain ⟨hfin, htype, hold, hlong⟩ := hfits
    obtain ⟨hsame, -⟩ := (receive_ack (S := 0) hkind time hfin htype (σ := σ)).1 hold.le
    intro hroom
    have hroom : Room σ (s.party.receive σ kind time p).1 := hroom
    unfold Room at hroom
    rw [hsame.lastUnackedSeq, hsame.scoreboardSackBytes] at hroom
    refine hlong ?_
    rw [← (hS p hp).mul32 htype]
    exact hroom
  · exact absurd trivial hfits
  · exact absurd trivial hfits

end Steps

/-! ### Runs -/

/-- **When the priority is what remains**: in a run there is always room exactly when each old ACK
that comes in fits; and then every packet is sent with the bytes that remain as its priority. -/
theorem priority_remaining_iff (hkind : kind ≠ .tcp) (hsize : σ.size + σ.mss < 4294967296)
    (t₀ : Time) (as : List (Act Packet Time FlowInput)) :
    let M := machine (party σ kind) t₀
    (Always M (fun s => s.party.lastUnackedSeq + s.party.scoreboardSackBytes ≤ σ.size) M.init as ↔
      Along M (fun s a => StaleFits σ s.party a) M.init as) ∧
    (Along M (fun s a => StaleFits σ s.party a) M.init as →
      Always M (fun s => ∀ g, SendCall σ kind s.party s.inFlight g →
        g.lastUnackedSeq + g.scoreboardSackBytes ≤ σ.size ∧
        (σ.flowType ≠ 1 → σ.scheduleByDeadline = false → g.getPriority σ kind =
          σ.size - (g.lastUnackedSeq + g.scoreboardSackBytes))) M.init as) := by
  intro M
  let J : State (Flow PFabric) Packet Time → Prop := fun s =>
    ((Safe σ s.party ∧ Exact σ s.party) ∧
      ∀ p ∈ s.inFlight, (SafePacket σ s.party p ∧ ExactPacket σ p) ∧ AckFits σ p) ∧
    Room σ s.party
  have hkept := (fits_calls hsize hkind).kept
  have hinit : J M.init := ⟨hkept.init, Nat.zero_le _⟩
  have hstep : ∀ {s t a}, J s → StaleFits σ s.party a → M.next s a = some t → J t := by
    intro s t a hJ hC hn
    exact ⟨hkept.step hJ.1 trivial hn, hJ.2.step hsize hkind hJ.1.1.1
      (fun p hp => ⟨(hJ.1.2 p hp).1.1, (hJ.1.2 p hp).2⟩) hC hn⟩
  refine ⟨always_iff_along (J := J) (fun hJ => hJ.2) hstep (fun hJ hC hn => ?_) as hinit,
    fun hC => (hC.always (J := J) hstep hinit).mono fun s hJ g hcall => ?_⟩
  · exact not_room_of_stale hkind (fun p hp => (hJ.1.2 p hp).2) hC hn
  · have hg : Room σ g := hcall.room hJ.2 fun p hp => (hJ.1.2 p hp).2
    exact ⟨hg, fun hflow hdeadline => hg.getPriority hkind hflow hdeadline⟩

theorem priority_remaining_iff_reordered :
    let M := machine (party twoSegments .flow) 0
    Along M (fun s a => StaleFits twoSegments s.party a) M.init reordered ∧
      Always M (fun s => ∀ g, SendCall twoSegments .flow s.party s.inFlight g →
        g.lastUnackedSeq + g.scoreboardSackBytes ≤ 2920 ∧
        (2 ≠ 1 → false = false → g.getPriority twoSegments .flow =
          2920 - (g.lastUnackedSeq + g.scoreboardSackBytes))) M.init reordered := by
  have hfits : Along (machine (party twoSegments .flow) 0)
      (fun s a => StaleFits twoSegments s.party a) (machine (party twoSegments .flow) 0).init
      reordered := by decide +kernel
  exact ⟨hfits, (priority_remaining_iff (by decide) (by decide) 0 reordered).2 hfits⟩

def fourSegments : FlowSpec := { twoSegments with
  size := 5840
  size_lt := by decide }

/-- The ACK for the second and third segment is overtaken by that for the first three. -/
def overtaken : List (Act Packet Time FlowInput) :=
  [.input 1 .start, .deliver 2 (send fourSegments 1 5840 1460),
    .deliver 3 (send fourSegments 1 5840 2920), .deliver 4 (send fourSegments 1 5840 0),
    .deliver 5 (sendAck fourSegments 4380 []), .deliver 5 (sendAck fourSegments 0 [1460, 2920])]

/-- **The priority wraps**: a timeout sends the last segment with the least of priorities. -/
theorem priority_wraps_overtaken :
    ∃ s g, Reach (machine (party fourSegments .flow) 0) s ∧
      SendCall fourSegments .flow s.party s.inFlight g ∧
      5840 < g.lastUnackedSeq + g.scoreboardSackBytes ∧
      (g.sendPendingData fourSegments .flow 6).2.map (fun p => (p.seqNo, p.pfPriority)) =
        [(4380, 4294967296 - 1460)] := by
  obtain ⟨s, hs, ⟨e, he, hc⟩, hend⟩ : ∃ s, Reach (machine (party fourSegments .flow) 0) s ∧
      ((∃ e ∈ s.party.retxEvents, e.cancelled = false) ∧
        let g := { s.party with
          nextSeqNo := s.party.lastUnackedSeq
          cwndMss := 1 }
        5840 < g.lastUnackedSeq + g.scoreboardSackBytes ∧
        (g.sendPendingData fourSegments .flow 6).2.map (fun p => (p.seqNo, p.pfPriority)) =
          [(4380, 4294967296 - 1460)]) :=
    exists_reach_of_exec_any overtaken (by decide +kernel)
  exact ⟨s, _, hs, .timeout s.party.own he hc, hend⟩

end DcSim.Flow
