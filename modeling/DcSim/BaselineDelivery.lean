import DcSim.NdpFlow
import DcSim.RepsFlow
import DcSim.STrackFlow

/-!
What a finished flow of STrack, REPS and NDP delivered.

A flow of STrack or REPS is right to finish as long as no data packet is counted twice, and
one of NDP as long as no ACK comes from beyond the cumulative ACK. Otherwise one lost segment
and one copy too many, or one ACK out of order, finish a flow too early.
-/

namespace DcSim

open DcSim.Flow LossyNet Runs Segments

variable (σ : FlowSpec) (t₀ : Time)

def FinishDelivers {X P : Type} (s : State (Flow X) P Time) : Prop :=
  s.party.finished = true → segs σ.mss σ.size ⊆ s.party.delivered

instance {X P : Type} (s : State (Flow X) P Time) : Decidable (FinishDelivers σ s) := by
  unfold FinishDelivers; infer_instance

variable {σ}

/-- **Completion means full delivery** in each run that counts no data packet twice, for
STrack and REPS, and in each run whose ACKs come in the prefix, for NDP. -/
theorem finishDelivers_of_along (hsize : σ.size + σ.mss < 4294967296) :
    (∀ as, Along (machine (STrackFlow.party σ) t₀) (fun s a => CountedStep σ.mss s.party a)
        (machine (STrackFlow.party σ) t₀).init as →
      Always (machine (STrackFlow.party σ) t₀) (FinishDelivers σ)
        (machine (STrackFlow.party σ) t₀).init as) ∧
    (∀ as, Along (machine (RepsFlow.party σ) t₀) (fun s a => CountedStep σ.mss s.party a)
        (machine (RepsFlow.party σ) t₀).init as →
      Always (machine (RepsFlow.party σ) t₀) (FinishDelivers σ)
        (machine (RepsFlow.party σ) t₀).init as) ∧
    ∀ as, Along (machine (NdpFlow.party σ) t₀) (fun s a => NdpFlow.AckInPrefix s.party a)
        (machine (NdpFlow.party σ) t₀).init as →
      Always (machine (NdpFlow.party σ) t₀) (FinishDelivers σ)
        (machine (NdpFlow.party σ) t₀).init as := by
  refine ⟨fun as h => ?_, fun as h => ?_, fun as h => ?_⟩
  · exact ((STrackFlow.counted_calls hsize).kept.always h).mono fun s hs => hs.1.finished
  · exact ((RepsFlow.counted_calls hsize).kept.always h).mono fun s hs => hs.1.finished
  · exact ((NdpFlow.ndp_calls hsize).kept.always h).mono fun s hs => hs.1.finished

/-! ### Runs of a flow of two segments -/

/-- The segments come one after the other. -/
def inOrder : List (Act Packet Time FlowInput) :=
  [.input 1 .start, .deliver 2 (send twoSegments 1 1 0), .deliver 3 (send twoSegments 1 1 1460)]

/-- The segments come one after the other, and the ACK of the first. -/
def ndpInOrder : List (Act NdpPacket Time FlowInput) :=
  [.input 1 .start, .deliver 2 (NdpFlow.dataPacket twoSegments 1 0),
    .deliver 3 (NdpFlow.ackPacket twoSegments 2 0 false),
    .deliver 4 (NdpFlow.dataPacket twoSegments 1 1460)]

/-- Three runs that meet the condition, to a flow that is finished. -/
theorem finishDelivers_of_along_inOrder :
    (∃ s, exec (machine (STrackFlow.party twoSegments) 0)
        (machine (STrackFlow.party twoSegments) 0).init inOrder = some s ∧
      s.party.finished = true ∧ FinishDelivers twoSegments s) ∧
    (∃ s, exec (machine (RepsFlow.party twoSegments) 0)
        (machine (RepsFlow.party twoSegments) 0).init inOrder = some s ∧
      s.party.finished = true ∧ FinishDelivers twoSegments s) ∧
    ∃ s, exec (machine (NdpFlow.party twoSegments) 0)
        (machine (NdpFlow.party twoSegments) 0).init ndpInOrder = some s ∧
      s.party.finished = true ∧ FinishDelivers twoSegments s := by
  obtain ⟨hstrack, hreps, hndp⟩ := finishDelivers_of_along (σ := twoSegments) 0 (by decide)
  refine ⟨?_, ?_, ?_⟩
  · obtain ⟨s, hs, hf⟩ : ∃ s, exec (machine (STrackFlow.party twoSegments) 0)
        (machine (STrackFlow.party twoSegments) 0).init inOrder = some s ∧
        s.party.finished = true := exists_exec_of_any (by decide +kernel)
    exact ⟨s, hs, hf, (hstrack inOrder (by decide +kernel)).last hs⟩
  · obtain ⟨s, hs, hf⟩ : ∃ s, exec (machine (RepsFlow.party twoSegments) 0)
        (machine (RepsFlow.party twoSegments) 0).init inOrder = some s ∧
        s.party.finished = true := exists_exec_of_any (by decide +kernel)
    exact ⟨s, hs, hf, (hreps inOrder (by decide +kernel)).last hs⟩
  · obtain ⟨s, hs, hf⟩ : ∃ s, exec (machine (NdpFlow.party twoSegments) 0)
        (machine (NdpFlow.party twoSegments) 0).init ndpInOrder = some s ∧
        s.party.finished = true := exists_exec_of_any (by decide +kernel)
    exact ⟨s, hs, hf, (hndp ndpInOrder (by decide +kernel)).last hs⟩

/-- A timeout sends the segments again, all copies of the second are lost, and the second copy
of the first comes after the ACK of the first copy. -/
def twiceTheFirst : List (Act Packet Time FlowInput) :=
  [.input 1 .start, .input (1 + 9 / 20000) (.retxTimeout 0),
    .deliver (1 + 10 / 20000) (send twoSegments 1 1 0),
    .deliver (1 + 11 / 20000) (sendAck twoSegments 1460 []),
    .deliver (1 + 12 / 20000) (send twoSegments (1 + 9 / 20000) 1 0)]

/-- The first segment is lost, and the ACK of the second comes back. -/
def ackOfTheSecond : List (Act NdpPacket Time FlowInput) :=
  [.input 1 .start, .lose (NdpFlow.dataPacket twoSegments 1 0),
    .deliver 2 (NdpFlow.dataPacket twoSegments 1 1460),
    .deliver 3 (NdpFlow.ackPacket twoSegments 2 1460 false)]

/-- **Each of the three finishes with a segment missing.** -/
theorem not_finishDelivers :
    (∃ s, Reach (machine (STrackFlow.party twoSegments) 0) s ∧ ¬ FinishDelivers twoSegments s) ∧
    (∃ s, Reach (machine (RepsFlow.party twoSegments) 0) s ∧ ¬ FinishDelivers twoSegments s) ∧
    ∃ s, Reach (machine (NdpFlow.party twoSegments) 0) s ∧ ¬ FinishDelivers twoSegments s :=
  ⟨exists_reach_of_exec_any twiceTheFirst (by decide +kernel),
    exists_reach_of_exec_any twiceTheFirst (by decide +kernel),
    exists_reach_of_exec_any ackOfTheSecond (by decide +kernel)⟩

end DcSim
