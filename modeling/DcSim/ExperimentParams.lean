import DcSim.Packet
import DcSim.Word32
import Mathlib.Algebra.Order.Field.Basic
import Mathlib.Tactic.Linarith

/-!
The parameters of an experiment, as they are read from its configuration.

A line sets a parameter, and the last line for it counts. The length of a Fastpass epoch is
computed anew after each line, but the segment size that it depends on is set after all of them,
and is still zero then: an epoch is only as long as the headers of its packets.
-/

namespace DcSim

open Word32

structure ExperimentParams where
  -- The parameters that the segment size and the length of an epoch are computed from.
  mss : ℕ := 0
  hdrSize : ℕ := 0
  bigMtu : ℤ := 0
  bandwidth : ℚ := 0
  fastpassEpochPkts : ℕ := 0
  fastpassEpochTime : Time := 0
  deriving DecidableEq

namespace ExperimentParams

/-- A line of a configuration: one that is empty or a comment, one with a key, or one with a key
that there is not. The keys of the two files of queueing delays are skipped. -/
inductive Line
  | comment
  | queueingFile
  | hdrSize (bytes : ℕ)
  | bigMtu (mtu : ℤ)
  | bandwidth (rate : ℚ)
  | fastpassEpochPkts (pkts : ℕ)
  | other
  | unknown

variable (P : ExperimentParams)

/-- The end of a turn of the loop. -/
def setEpochTime : ExperimentParams :=
  { P with
    fastpassEpochTime :=
      mul32 (add32 P.mss P.hdrSize) 8 * (P.fastpassEpochPkts + 1 / 2) / P.bandwidth }

/-- A turn of the loop, unless an assertion fails. -/
def readLine : Line → Option ExperimentParams
  | .comment => some P
  | .queueingFile => some P
  | .hdrSize bytes => if 0 < bytes then some { P with hdrSize := bytes }.setEpochTime else none
  | .bigMtu mtu => some { P with bigMtu := mtu }.setEpochTime
  | .bandwidth rate => some { P with bandwidth := rate }.setEpochTime
  | .fastpassEpochPkts pkts => some { P with fastpassEpochPkts := pkts }.setEpochTime
  | .other => some P.setEpochTime
  | .unknown => none

/-- The segment size for an MTU. -/
def mssOf (bigMtu : ℤ) (hdrSize : ℕ) : Option ℕ :=
  if bigMtu = 1 then some (sub32 4000 hdrSize)
  else if bigMtu = 0 then some 1460
  else if bigMtu = 2 then some (sub32 9000 hdrSize)
  else none

def readLines : List Line → ExperimentParams → Option ExperimentParams
  | [], P => some P
  | l :: ls, P => (P.readLine l).bind (readLines ls)

def readExperimentParameters (ls : List Line) : Option ExperimentParams :=
  (readLines ls { hdrSize := 64 }).bind fun P =>
    (mssOf P.bigMtu P.hdrSize).map fun mss => { P with mss := mss }

/-! ### What a configuration says -/

namespace Line

def hdrSize? : Line → Option ℕ
  | .hdrSize bytes => some bytes
  | _ => none

def bigMtu? : Line → Option ℤ
  | .bigMtu mtu => some mtu
  | _ => none

def bandwidth? : Line → Option ℚ
  | .bandwidth rate => some rate
  | _ => none

def fastpassEpochPkts? : Line → Option ℕ
  | .fastpassEpochPkts pkts => some pkts
  | _ => none

end Line

/-- What the last line that sets a parameter sets it to, or what it is at first. -/
def lastOf {α : Type*} (f : Line → Option α) (first : α) (ls : List Line) : α :=
  (ls.filterMap f).getLast?.getD first

def hdrSizeOf (ls : List Line) : ℕ := lastOf Line.hdrSize? 64 ls
def bigMtuOf (ls : List Line) : ℤ := lastOf Line.bigMtu? 0 ls
def bandwidthOf (ls : List Line) : ℚ := lastOf Line.bandwidth? 0 ls
def fastpassEpochPktsOf (ls : List Line) : ℕ := lastOf Line.fastpassEpochPkts? 0 ls

def EpochSet : Prop := P.fastpassEpochTime = P.setEpochTime.fastpassEpochTime

structure Says (P : ExperimentParams) (ls : List Line) (Q : ExperimentParams) : Prop where
  mss : Q.mss = P.mss
  hdrSize : Q.hdrSize = lastOf Line.hdrSize? P.hdrSize ls
  bigMtu : Q.bigMtu = lastOf Line.bigMtu? P.bigMtu ls
  bandwidth : Q.bandwidth = lastOf Line.bandwidth? P.bandwidth ls
  fastpassEpochPkts : Q.fastpassEpochPkts = lastOf Line.fastpassEpochPkts? P.fastpassEpochPkts ls
  epochSet : P.EpochSet → Q.EpochSet

variable {P} {Q R : ExperimentParams} {l : Line} {ls : List Line}

lemma lastOf_cons {α : Type*} (f : Line → Option α) (first : α) (l : Line) (ls : List Line) :
    lastOf f first (l :: ls) = lastOf f ((f l).getD first) ls := by
  unfold lastOf
  cases hl : f l with
  | none => rw [List.filterMap_cons_none hl, Option.getD_none]
  | some x =>
    rw [List.filterMap_cons_some hl, List.getLast?_cons]
    rfl

lemma says_readLine (h : P.readLine l = some Q) : Says P [l] Q := by
  cases l with
  | hdrSize bytes =>
    obtain ⟨-, h⟩ := Option.ite_none_right_eq_some.1 h
    obtain rfl := Option.some.inj h
    exact ⟨rfl, rfl, rfl, rfl, rfl, fun _ => rfl⟩
  | unknown => cases h
  | comment =>
    obtain rfl := Option.some.inj h
    exact ⟨rfl, rfl, rfl, rfl, rfl, id⟩
  | queueingFile =>
    obtain rfl := Option.some.inj h
    exact ⟨rfl, rfl, rfl, rfl, rfl, id⟩
  | _ =>
    obtain rfl := Option.some.inj h
    exact ⟨rfl, rfl, rfl, rfl, rfl, fun _ => rfl⟩

lemma Says.cons (h : Says P [l] Q) (hs : Says Q ls R) : Says P (l :: ls) R where
  mss := hs.mss.trans h.mss
  hdrSize := by rw [lastOf_cons, hs.hdrSize, h.hdrSize, lastOf_cons]; rfl
  bigMtu := by rw [lastOf_cons, hs.bigMtu, h.bigMtu, lastOf_cons]; rfl
  bandwidth := by rw [lastOf_cons, hs.bandwidth, h.bandwidth, lastOf_cons]; rfl
  fastpassEpochPkts := by
    rw [lastOf_cons, hs.fastpassEpochPkts, h.fastpassEpochPkts, lastOf_cons]; rfl
  epochSet hP := hs.epochSet (h.epochSet hP)

/-- **The last line for a parameter counts**, whatever the order of the lines. -/
theorem says_readLines (h : readLines ls P = some Q) : Says P ls Q := by
  induction ls generalizing P with
  | nil =>
    obtain rfl := Option.some.inj h
    exact ⟨rfl, rfl, rfl, rfl, rfl, id⟩
  | cons l ls ih =>
    obtain ⟨R, hR, h⟩ := Option.bind_eq_some_iff.1 h
    exact (says_readLine hR).cons (ih h)

/-- **The parameters that are read**: the segment size is that for the MTU, but the length of an
epoch is computed with a segment size of zero. -/
theorem readExperimentParameters_spec (h : readExperimentParameters ls = some P) :
    P.hdrSize = hdrSizeOf ls ∧ P.bandwidth = bandwidthOf ls ∧
      P.fastpassEpochPkts = fastpassEpochPktsOf ls ∧
      mssOf (bigMtuOf ls) (hdrSizeOf ls) = some P.mss ∧
      P.fastpassEpochTime =
        mul32 (add32 0 (hdrSizeOf ls)) 8 * (fastpassEpochPktsOf ls + 1 / 2) / bandwidthOf ls := by
  obtain ⟨Q, hQ, h⟩ := Option.bind_eq_some_iff.1 h
  obtain ⟨mss, hmss, rfl⟩ := Option.map_eq_some_iff.1 h
  have hs := says_readLines hQ
  -- before the first line there is no bandwidth, and dividing by it gives zero
  have hset : Q.EpochSet := hs.epochSet (by simp [EpochSet, setEpochTime])
  refine ⟨hs.hdrSize, hs.bandwidth, hs.fastpassEpochPkts, ?_, ?_⟩
  · rw [hs.hdrSize, hs.bigMtu] at hmss
    exact hmss
  · refine hset.trans ?_
    unfold setEpochTime
    dsimp only
    rw [hs.mss, hs.hdrSize, hs.bandwidth, hs.fastpassEpochPkts]
    rfl

end ExperimentParams

end DcSim
