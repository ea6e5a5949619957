import Mathlib.Data.Int.Notation
import Mathlib.Data.List.Basic
import Mathlib.Data.Rat.Init
import Mathlib.Algebra.Order.Ring.Rat

/-!
Packets and the parameters of an experiment.

A packet carries what the modelled code reads of it: the fields of the class `Packet`, the
sack list of an `Ack` and the fields the SNS protocol adds. Times are exact rationals, in
seconds; sequence numbers, sizes and message ids are natural numbers.
-/

namespace DcSim

abbrev Time := ℚ
abbrev HostId := ℕ
abbrev FlowId := ℕ

inductive PacketType | normal | ack | rts | cts
  deriving DecidableEq

/-- The field `sns_type`; a packet of another protocol has `0` there. -/
inductive SnsType | none | sim | simAck | data | dataAck
  deriving DecidableEq

structure Packet where
  uniqueId : ℕ := 0
  type : PacketType := .normal
  snsType : SnsType := .none
  sendingTime : Time
  flow : FlowId
  seqNo : ℕ
  pfPriority : ℕ := 0
  size : ℕ
  src : HostId
  dst : HostId
  sackList : List ℕ := []
  snsMsgId : ℕ := 0
  savedHashPort : ℤ := -1
  savedHashPortL2 : ℤ := -1
  snsAckDataIds : List ℕ := []
  deriving DecidableEq

/-- The first packet of a type, and the packets without it. -/
def takeFirst (type : SnsType) (ps : List Packet) : Option (Packet × List Packet) :=
  (ps.find? (·.snsType = type)).map fun p => (p, ps.eraseP (·.snsType = type))

/-- A packet of the first type there is one of, or else the first packet. -/
def takeByPriority : List SnsType → List Packet → Option (Packet × List Packet)
  | type :: types, ps => takeFirst type ps <|> takeByPriority types ps
  | [], p :: ps => some (p, ps)
  | [], [] => none

lemma takeFirst_perm {type : SnsType} {ps rest : List Packet} {p : Packet}
    (h : takeFirst type ps = some (p, rest)) : ps.Perm (p :: rest) := by
  obtain ⟨q, hq, h⟩ := Option.map_eq_some_iff.mp h
  obtain ⟨rfl, rfl⟩ := Prod.mk.inj h
  obtain ⟨htype, l, r, rfl, hl⟩ := List.find?_eq_some_iff_append.mp hq
  rw [List.eraseP_append_right _ fun b hb => by simpa using hl b hb,
    List.eraseP_cons_of_pos (by simpa using htype)]
  exact List.perm_middle

lemma takeByPriority_perm {types : List SnsType} {ps rest : List Packet} {p : Packet}
    (h : takeByPriority types ps = some (p, rest)) : ps.Perm (p :: rest) := by
  induction types with
  | nil =>
    cases ps with
    | nil => cases h
    | cons q ps =>
      obtain ⟨rfl, rfl⟩ := Prod.mk.inj (Option.some.inj h)
      exact .refl _
  | cons type types ih =>
    rw [takeByPriority, Option.orElse_eq_orElse, Option.orElse_eq_or] at h
    rcases Option.or_eq_some_iff.mp h with h | ⟨-, h⟩
    · exact takeFirst_perm h
    · exact ih h

lemma takeByPriority_eq_none {types : List SnsType} {ps : List Packet}
    (h : takeByPriority types ps = none) : ps = [] := by
  induction types with
  | nil =>
    cases ps with
    | nil => rfl
    | cons => cases h
  | cons type types ih =>
    rw [takeByPriority, Option.orElse_eq_orElse, Option.orElse_eq_or] at h
    exact ih (Option.or_eq_none_iff.mp h).2

/-- `INFINITESIMAL_TIME`, a picosecond. -/
def infinitesimalTime : Time := 1 / 1000000000000

structure SnsParams where
  mss : ℕ
  hdrSize : ℕ
  bandwidth : ℚ
  rtt : Time
  fatTree : Bool
  numDataPacketsPerSimAck : ℕ
  syncedMode : Bool
  snsSimulationFrqSize : ℚ
  simulationQueueSize : ℕ
  clockDrift : ℚ
  worstRrtFactor : ℚ
  mss_pos : 0 < mss
  mss_lt : mss < 4294967296
  hdrSize_lt : hdrSize < 4294967296

namespace SnsParams

variable (P : SnsParams)

/-- `td_sim`, the time between two SIM packets of a host. -/
def tdSim : Time := P.hdrSize * 8 / (P.bandwidth / P.snsSimulationFrqSize)

end SnsParams

end DcSim
