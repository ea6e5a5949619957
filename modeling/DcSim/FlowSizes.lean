import DcSim.ExperimentParams
import Mathlib.Data.List.Forall2

/-!
The sizes of the flows of a trace or of a distribution.

Both are counted in packets, and a flow is created with the bytes of their segments. The product
has 32 bits. The largest count that a distribution may have fits with segments of 1460 bytes, but
not with those of the greater MTUs; a trace may have any count.
-/

namespace DcSim.FlowSizes

open Word32

structure NewFlow where
  id : ℕ
  startTime : Time
  size : ℕ
  src : HostId
  dst : HostId
  sizeInPkt : ℤ
  deriving DecidableEq

variable (mss : ℕ)

/-- `Flow::Flow`. A number of packets that is no `int` becomes some other number. -/
def newFlow (id : ℕ) (startTime : Time) (size : ℕ) (src dst : HostId) : NewFlow :=
  ⟨id, startTime, size, src, dst, toInt32 ((size + mss - 1) / mss)⟩

/-- **The size is that of so many packets.** -/
def Exact (count : ℕ) (f : NewFlow) : Prop := f.size = mss * count ∧ f.sizeInPkt = count

/-- The bytes of so many packets fit a `uint32_t`, and the packets an `int`. -/
def Fits (count : ℕ) : Prop := mss * count < 4294967296 ∧ count < 2147483648

instance (count : ℕ) (f : NewFlow) : Decidable (Exact mss count f) :=
  inferInstanceAs (Decidable (_ ∧ _))

instance (count : ℕ) : Decidable (Fits mss count) := inferInstanceAs (Decidable (_ ∧ _))

variable {mss}

lemma exact_newFlow_iff {count : ℕ} (hpos : mul32 mss count ≠ 0) (id : ℕ) (startTime : Time)
    (src dst : HostId) :
    Exact mss count (newFlow mss id startTime (mul32 mss count) src dst) ↔ Fits mss count := by
  have hmss : 0 < mss := Nat.pos_of_ne_zero fun h => hpos (by rw [h, mul32, Nat.zero_mul])
  have hwrap : mul32 mss count = mss * count ↔ mss * count < 4294967296 := by
    unfold mul32
    omega
  have hdiv : (mss * count + mss - 1) / mss = count := by
    rw [Nat.add_sub_assoc hmss, Nat.mul_add_div hmss,
      Nat.div_eq_of_lt (Nat.sub_lt hmss Nat.one_pos), Nat.add_zero]
  have hint : toInt32 count = count ↔ count < 2147483648 := by
    unfold toInt32
    split_ifs <;> omega
  unfold Exact Fits newFlow
  dsimp only
  rw [hwrap]
  refine and_congr_right fun hlt => ?_
  rw [hwrap.2 hlt, hdiv, hint]

variable (mss)

/-! ### Flows of a trace -/

/-- A line of a trace: empty or a comment, one that cannot be read, or a flow of so many packets
between two hosts. -/
inductive TraceLine
  | comment
  | unreadable
  | flow (id : ℕ) (startTime : Time) (count s d : ℕ)

variable (hosts : ℕ)

/-- `FlowReader::make_flows`, unless its assertion fails. -/
def makeFlows : List TraceLine → Option (List NewFlow)
  | [] => some []
  | .comment :: ls => makeFlows ls
  | .unreadable :: _ => some []
  | .flow id startTime count s d :: ls =>
    if hosts ≤ s ∨ hosts ≤ d then makeFlows ls
    else
      let size := mul32 mss count
      if 0 < size then (makeFlows ls).map (newFlow mss id startTime size s d :: ·) else none

/-- The counts of the lines that flows are made of. -/
def counts : List TraceLine → List ℕ
  | [] => []
  | .comment :: ls => counts ls
  | .unreadable :: _ => []
  | .flow _ _ count s d :: ls => if hosts ≤ s ∨ hosts ≤ d then counts ls else count :: counts ls

variable {mss hosts} {ls : List TraceLine} {fs : List NewFlow}

/-- **The flows of a trace** have the sizes of its lines if and only if all of them fit. -/
lemma exact_makeFlows_iff (h : makeFlows mss hosts ls = some fs) :
    List.Forall₂ (Exact mss) (counts hosts ls) fs ↔ ∀ c ∈ counts hosts ls, Fits mss c := by
  induction ls generalizing fs with
  | nil =>
    obtain rfl := Option.some.inj h
    exact iff_of_true .nil nofun
  | cons l ls ih =>
    cases l with
    | comment => exact ih h
    | unreadable =>
      obtain rfl := Option.some.inj h
      exact iff_of_true .nil nofun
    | flow id startTime count s d =>
      unfold makeFlows at h
      unfold counts
      dsimp only at h
      split_ifs at h ⊢ with hhosts hpos
      · exact ih h
      · obtain ⟨gs, hgs, rfl⟩ := Option.map_eq_some_iff.1 h
        rw [List.forall₂_cons, List.forall_mem_cons, exact_newFlow_iff hpos.ne', ih hgs]

variable (mss)

/-! ### Flows of a distribution -/

def maxCount : ℕ := 2500000

def clamp (drawn : ℕ) : ℕ := if maxCount < drawn then maxCount else drawn

/-- `FlowCreationForInitializationEvent::process_event`, by what was drawn, which are bytes in
bytes mode and packets otherwise: the flow that it creates, if any. -/
def processEvent (bytesMode : Bool) (drawn id : ℕ) (time : Time) (src dst : HostId) :
    Option NewFlow :=
  let size := if bytesMode then drawn else mul32 (clamp drawn) mss
  if size ≠ 0 then some (newFlow mss id time size src dst) else none

variable {mss}

lemma clamp_le (drawn : ℕ) : clamp drawn ≤ maxCount := by
  unfold clamp
  split_ifs <;> omega

theorem fits_clamp (hmss : mss ≤ 1717) (drawn : ℕ) : Fits mss (clamp drawn) := by
  have hle : clamp drawn ≤ 2500000 := clamp_le drawn
  have hmul := Nat.mul_le_mul hmss hle
  exact ⟨by omega, by omega⟩

lemma exact_processEvent_iff {drawn id : ℕ} {time : Time} {src dst : HostId} {f : NewFlow}
    (h : processEvent mss false drawn id time src dst = some f) :
    Exact mss (clamp drawn) f ↔ Fits mss (clamp drawn) := by
  obtain ⟨hpos, h⟩ := Option.ite_none_right_eq_some.1 h
  obtain rfl := Option.some.inj h
  have hcomm : mul32 (clamp drawn) mss = mul32 mss (clamp drawn) := by
    rw [mul32, mul32, Nat.mul_comm]
  simp only [Bool.false_eq_true, if_false, hcomm] at hpos ⊢
  exact exact_newFlow_iff hpos id time src dst

/-- **The flows have the sizes of their counts** if and only if these fit, whatever the segment size
is: those of a trace that is not rejected, and those of a distribution, which are clamped. -/
theorem exact_iff_fits (mss : ℕ) :
    (∀ hosts ls fs, makeFlows mss hosts ls = some fs →
      (List.Forall₂ (Exact mss) (counts hosts ls) fs ↔ ∀ c ∈ counts hosts ls, Fits mss c)) ∧
    ∀ drawn id time src dst f, processEvent mss false drawn id time src dst = some f →
      (Exact mss (clamp drawn) f ↔ Fits mss (clamp drawn)) :=
  ⟨fun _ _ _ h => exact_makeFlows_iff h, fun _ _ _ _ _ _ h => exact_processEvent_iff h⟩

/-- A trace with a flow of a million packets, and three million drawn from a distribution, which
are clamped. -/
theorem exact_million :
    (∃ fs, makeFlows 1460 2 [.comment, .flow 0 1 1000000 0 1] = some fs ∧
      List.Forall₂ (Exact 1460) [1000000] fs) ∧
    ∃ f, processEvent 1460 false 3000000 0 1 0 1 = some f ∧ Exact 1460 (clamp 3000000) f := by
  obtain ⟨htrace, hdrawn⟩ := exact_iff_fits 1460
  refine ⟨⟨_, rfl, (htrace 2 [.comment, .flow 0 1 1000000 0 1] _ rfl).2 ?_⟩, _, rfl,
    (hdrawn 3000000 0 1 0 1 _ rfl).2 (fits_clamp (by decide) _)⟩
  intro c hc
  obtain rfl := List.mem_singleton.1 hc
  exact ⟨by decide, by decide⟩

/-- A line of a trace with 2941759 packets makes a flow of 844 bytes; and with jumbo frames the
flow of as many packets as a distribution may have is too small. -/
theorem not_exact_wrapped :
    (∃ f, makeFlows 1460 2 [.flow 0 1 2941759 0 1] = some [f] ∧ ¬ Exact 1460 2941759 f) ∧
      ∃ mss, ExperimentParams.mssOf 2 64 = some mss ∧
        ∃ f, processEvent mss false 2500000 0 1 0 1 = some f ∧ ¬ Exact mss (clamp 2500000) f :=
  ⟨⟨_, rfl, by decide⟩, _, rfl, _, rfl, by decide⟩

end DcSim.FlowSizes
