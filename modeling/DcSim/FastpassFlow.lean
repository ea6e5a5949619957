import DcSim.LossyNet
import DcSim.Packet
import DcSim.Word32
import Mathlib.Data.Int.Interval

/-!
The flows of Fastpass.

One object is both ends of a flow. An arbiter gives the sender slots, and in each it sends the
next packet that no ACK has come for; the receiver answers each packet by an ACK of its own. When
there are slots is left open: what the schedules say, and whether they arrive. A sequence number is
a `uint32_t`, the number of a packet an `int`.
-/

namespace DcSim

open LossyNet Runs Word32

structure FastpassSpec where
  size : ℕ
  mss : ℕ
  fastpassEpochTime : Time
  mss_pos : 0 < mss
  size_lt : size < 4294967296
  small : (size + mss - 1) / mss < 2147483648

inductive FastpassPacket
  | rts (remainingNumPkts : ℤ)
  | data (seqNo : ℕ)
  | ack (seqNo : ℕ)
  deriving DecidableEq

structure FastpassFlow where
  -- `timeouts` are the times of its `FastpassTimeoutEvent`s and `finishEvents` counts its
  -- `FlowFinishedEvent`s in the event queue. The fields after that are history: whether the flow
  -- was started, and the sequence numbers the receiver was handed.
  senderRemainingNumPkts : ℤ
  senderAcked : Finset ℤ := ∅
  senderAckedCount : ℕ := 0
  senderAckedUntil : ℤ := 0
  senderLastPktSent : ℤ := -1
  senderFinished : Bool := false
  timeouts : List Time := []
  finished : Bool := false
  finishEvents : ℕ := 0
  started : Bool := false
  delivered : Finset ℕ := ∅

/-- What happens to a flow other than packets; `word` is what `next_pkt_to_send` returns when it
ends without a `return`. -/
inductive FastpassInput
  | start
  | slot (word : ℤ)
  | timeout
  | finish

def FastpassSpec.sizeInPkt (σ : FastpassSpec) : ℕ := (σ.size + σ.mss - 1) / σ.mss

/-- The sequence number of a packet. -/
def FastpassSpec.seqNo (σ : FastpassSpec) (pkt : ℤ) : ℕ := ofInt32 (pkt * σ.mss)

namespace FastpassFlow

variable (σ : FastpassSpec) (now : Time) (f : FastpassFlow)

/-- A `FlowFinishedEvent` of the flow has been created. -/
def Done : Prop := f.finished = true ∨ 0 < f.finishEvents

def updateRemainingSize : List FastpassPacket :=
  [.rts (if f.senderFinished then -1 else f.senderRemainingNumPkts)]

def startFlow : Option (FastpassFlow × List FastpassPacket) :=
  if f.started then none else some ({ f with started := true }, f.updateRemainingSize)

/-- The loop of `next_pkt_to_send`, for at most so many turns. -/
def nextLoop (word : ℤ) : ℕ → ℤ → ℤ
  | 0, _ => word
  | turns + 1, pkt =>
    let pkt := if (σ.sizeInPkt : ℤ) ≤ pkt + 1 then f.senderAckedUntil else pkt + 1
    if pkt ∉ f.senderAcked then pkt else nextLoop word turns pkt

def nextPktToSend (word : ℤ) : ℤ := f.nextLoop σ word σ.sizeInPkt f.senderLastPktSent

/-- `send_data_pkt`, in a slot of a flow that has been started. -/
def sendDataPkt (word : ℤ) : Option (FastpassFlow × List FastpassPacket) :=
  if f.started then
    let pkt := f.nextPktToSend σ word
    let remaining :=
      if 0 < f.senderRemainingNumPkts then f.senderRemainingNumPkts - 1
      else f.senderRemainingNumPkts
    some ({ f with
      senderLastPktSent := pkt
      senderRemainingNumPkts := remaining
      timeouts :=
        if remaining = 0 then f.timeouts ++ [now + σ.fastpassEpochTime] else f.timeouts },
      [.data (σ.seqNo pkt)])
  else none

/-- `fastpass_timeout`, at the time of a pending event. -/
def fastpassTimeout : Option (FastpassFlow × List FastpassPacket) :=
  if now ∈ f.timeouts then
    let f := { f with timeouts := f.timeouts.erase now }
    if f.senderFinished then some (f, [])
    else
      let f := { f with senderRemainingNumPkts := σ.sizeInPkt - f.senderAckedCount }
      some (f, f.updateRemainingSize)
  else none

/-- The loop that moves `sender_acked_until`, for at most so many turns. -/
def untilLoop (acked : Finset ℤ) : ℕ → ℤ → ℤ
  | 0, pkt => pkt
  | turns + 1, pkt => if pkt ∈ acked then untilLoop acked turns (pkt + 1) else pkt

def acknowledge (pkt : ℤ) : FastpassFlow :=
  if pkt ∈ f.senderAcked then f
  else
    let acked := insert pkt f.senderAcked
    { f with
      senderAcked := acked
      senderAckedCount := f.senderAckedCount + 1
      senderAckedUntil := untilLoop acked acked.card f.senderAckedUntil }

def receiveAck (seqNo : ℕ) : FastpassFlow × List FastpassPacket :=
  let f := f.acknowledge (toInt32 (seqNo / σ.mss))
  if f.senderFinished = false ∧ f.senderAckedCount = σ.sizeInPkt then
    let f := { f with senderFinished := true }
    ({ f with senderAcked := ∅, finishEvents := f.finishEvents + 1 }, f.updateRemainingSize)
  else (f, [])

/-- `receive`; an RTS is for the arbiter. -/
def receive (p : FastpassPacket) : FastpassFlow × List FastpassPacket :=
  match p with
  | .rts _ => (f, [])
  | .data seqNo => ({ f with delivered := insert seqNo f.delivered }, [.ack seqNo])
  | .ack seqNo => f.receiveAck σ seqNo

/-- A `FlowFinishedEvent` is processed. -/
def finish : Option (FastpassFlow × List FastpassPacket) :=
  if f.finishEvents = 0 then none
  else some ({ f with finished := true, finishEvents := f.finishEvents - 1 }, [])

def input (i : FastpassInput) : Option (FastpassFlow × List FastpassPacket) :=
  match i with
  | .start => f.startFlow
  | .slot word => f.sendDataPkt σ now word
  | .timeout => f.fastpassTimeout σ now
  | .finish => f.finish

/-- The constructor, and what the flow does with packets and events. -/
def party : Party FastpassFlow FastpassPacket Time FastpassInput where
  init := { senderRemainingNumPkts := σ.sizeInPkt }
  input now i f := f.input σ now i
  receive _ p f := f.receive σ p

/-! ### The packets of a flow -/

variable {σ f}

lemma seqNo_eq {i : ℕ} (hi : i < σ.sizeInPkt) :
    σ.seqNo i = i * σ.mss ∧ toInt32 (σ.seqNo i / σ.mss) = i := by
  have hpos := σ.mss_pos
  have hle : (i + 1) * σ.mss ≤ σ.size + σ.mss - 1 :=
    (Nat.le_div_iff_mul_le hpos).1 (Nat.succ_le_of_lt hi)
  rw [Nat.add_mul, Nat.one_mul] at hle
  have hlt : i * σ.mss < 4294967296 := by
    have := σ.size_lt
    omega
  have hseq : σ.seqNo i = i * σ.mss := by
    unfold FastpassSpec.seqNo
    have hcast : ((i : ℤ) * σ.mss) = ((i * σ.mss : ℕ) : ℤ) := by push_cast; rfl
    have hof := ofInt32_eq (z := (i : ℤ) * σ.mss) (by rw [hcast]; omega) (by rw [hcast]; omega)
    rw [hcast] at hof ⊢
    exact_mod_cast hof
  refine ⟨hseq, ?_⟩
  rw [hseq, Nat.mul_div_cancel _ hpos]
  exact toInt32_eq (lt_trans hi σ.small)

/-- **The packet that is sent next is one of the flow that is not acknowledged**, as long as the
loop gets to one. -/
theorem nextLoop_spec {word : ℤ} (huntil : 0 ≤ f.senderAckedUntil)
    (hlt : f.senderAckedUntil < σ.sizeInPkt) (hmem : f.senderAckedUntil ∉ f.senderAcked)
    {turns : ℕ} {pkt : ℤ} (hlow : -1 ≤ pkt) (hpkt : pkt < σ.sizeInPkt)
    (henough : (σ.sizeInPkt : ℤ) - pkt ≤ turns ∨
      ∃ j, pkt < j ∧ j ≤ pkt + turns ∧ j < σ.sizeInPkt ∧ j ∉ f.senderAcked) :
    0 ≤ f.nextLoop σ word turns pkt ∧ f.nextLoop σ word turns pkt < σ.sizeInPkt ∧
      f.nextLoop σ word turns pkt ∉ f.senderAcked := by
  induction turns generalizing pkt with
  | zero =>
    rcases henough with hle | ⟨j, hj, hle, -⟩
    · omega
    · omega
  | succ turns ih =>
    unfold nextLoop
    dsimp only
    by_cases hwrap : (σ.sizeInPkt : ℤ) ≤ pkt + 1
    · rw [if_pos hwrap, if_pos hmem]
      exact ⟨huntil, hlt, hmem⟩
    · rw [if_neg hwrap]
      by_cases hacked : pkt + 1 ∈ f.senderAcked
      · rw [if_neg (not_not.2 hacked)]
        refine ih (by omega) (by omega) ?_
        rcases henough with hle | ⟨j, hj, hle, hsize, hopen⟩
        · exact .inl (by omega)
        · have hne : j ≠ pkt + 1 := fun he => hopen (he ▸ hacked)
          exact .inr ⟨j, by omega, by omega, hsize, hopen⟩
      · rw [if_pos hacked]
        exact ⟨by omega, by omega, hacked⟩

lemma untilLoop_spec {acked : Finset ℤ} {turns : ℕ} {pkt : ℤ}
    (hbelow : ∀ j, 0 ≤ j → j < pkt → j ∈ acked)
    (henough : (acked.filter (pkt ≤ ·)).card ≤ turns) :
    pkt ≤ untilLoop acked turns pkt ∧ untilLoop acked turns pkt ∉ acked ∧
      ∀ j, 0 ≤ j → j < untilLoop acked turns pkt → j ∈ acked := by
  induction turns generalizing pkt with
  | zero =>
    have hempty := Finset.card_eq_zero.1 (Nat.le_zero.1 henough)
    refine ⟨le_rfl, fun hmem => ?_, hbelow⟩
    have hin : pkt ∈ acked.filter (pkt ≤ ·) := Finset.mem_filter.2 ⟨hmem, le_rfl⟩
    rw [hempty] at hin
    exact absurd hin (Finset.notMem_empty pkt)
  | succ turns ih =>
    unfold untilLoop
    split_ifs with hmem
    · have hbelow' : ∀ j, 0 ≤ j → j < pkt + 1 → j ∈ acked := by
        intro j hj hlt
        rcases eq_or_ne j pkt with rfl | hne
        · exact hmem
        · exact hbelow j hj (by omega)
      have hlt : (acked.filter (pkt + 1 ≤ ·)).card < (acked.filter (pkt ≤ ·)).card := by
        refine Finset.card_lt_card (Finset.ssubset_iff_of_subset (fun j hj => ?_) |>.2
          ⟨pkt, Finset.mem_filter.2 ⟨hmem, le_rfl⟩, by simp⟩)
        obtain ⟨hj, hle⟩ := Finset.mem_filter.1 hj
        exact Finset.mem_filter.2 ⟨hj, by omega⟩
      obtain ⟨hle, hrest⟩ := ih hbelow' (by omega)
      exact ⟨by omega, hrest⟩
    · exact ⟨le_rfl, hmem, hbelow⟩

/-! ### Delivery -/

variable (σ f) in
/-- The receiver has had all data of the flow. -/
def AllDelivered : Prop := ∀ i < σ.sizeInPkt, σ.seqNo i ∈ f.delivered

variable (σ f) in
structure Acked : Prop where
  acked : ∀ i ∈ f.senderAcked, (0 ≤ i ∧ i < σ.sizeInPkt) ∧ σ.seqNo i ∈ f.delivered
  count : f.senderAckedCount = f.senderAcked.card
  untilNonneg : 0 ≤ f.senderAckedUntil
  untilOpen : f.senderAckedUntil ∉ f.senderAcked
  below : ∀ j, 0 ≤ j → j < f.senderAckedUntil → j ∈ f.senderAcked
  lastLow : -1 ≤ f.senderLastPktSent
  last : f.senderLastPktSent < σ.sizeInPkt

variable (σ f) in
structure Sending : Prop extends Acked σ f where
  lt : f.senderAckedCount < σ.sizeInPkt

variable (σ f) in
structure Safe : Prop where
  sending : f.senderFinished = false → Sending σ f
  delivered : f.senderFinished = true → AllDelivered σ f
  done : f.Done → f.senderFinished = true

variable (σ f) in
/-- What the packets in flight say until the sender is finished. -/
def SafePacket (p : FastpassPacket) : Prop :=
  f.senderFinished = false →
    match p with
    | .rts _ => True
    | .data seqNo => ∃ i < σ.sizeInPkt, seqNo = σ.seqNo i
    | .ack seqNo => seqNo ∈ f.delivered ∧ ∃ i < σ.sizeInPkt, seqNo = σ.seqNo i

/-- The receiver has had more, and the sender may be finished. -/
def Later (f g : FastpassFlow) : Prop :=
  f.delivered ⊆ g.delivered ∧ (g.senderFinished = false → f.senderFinished = false)

abbrev SafeCall (σ : FastpassSpec) (f : FastpassFlow) (r : FastpassFlow × List FastpassPacket) :
    Prop :=
  Call (Safe σ) Later (SafePacket σ) f r

lemma Later.refl : Later f f := ⟨Finset.Subset.refl _, id⟩

lemma mem_of_card {acked : Finset ℤ} (hrange : ∀ i ∈ acked, 0 ≤ i ∧ i < (σ.sizeInPkt : ℤ))
    (hcard : σ.sizeInPkt ≤ acked.card) {i : ℤ} (h₀ : 0 ≤ i) (hi : i < σ.sizeInPkt) :
    i ∈ acked := by
  have hsub : acked ⊆ Finset.Ico (0 : ℤ) σ.sizeInPkt := fun j hj =>
    Finset.mem_Ico.2 (hrange j hj)
  have heq := Finset.eq_of_subset_of_card_le hsub (by simpa using hcard)
  exact heq ▸ Finset.mem_Ico.2 ⟨h₀, hi⟩

lemma Sending.next (h : Sending σ f) (word : ℤ) :
    0 ≤ f.nextPktToSend σ word ∧ f.nextPktToSend σ word < σ.sizeInPkt ∧
      f.nextPktToSend σ word ∉ f.senderAcked := by
  have hcard : f.senderAcked.card < σ.sizeInPkt := h.count ▸ h.lt
  have hsub : ∃ j : ℤ, 0 ≤ j ∧ j < σ.sizeInPkt ∧ j ∉ f.senderAcked := by
    by_contra hall
    push Not at hall
    have hle : Finset.Ico (0 : ℤ) σ.sizeInPkt ⊆ f.senderAcked := fun j hj =>
      hall j (Finset.mem_Ico.1 hj).1 (Finset.mem_Ico.1 hj).2
    have hcard' := Finset.card_le_card hle
    rw [Int.card_Ico] at hcard'
    omega
  obtain ⟨j, hj, hlt, hopen⟩ := hsub
  have huntil : f.senderAckedUntil < σ.sizeInPkt := by
    by_contra hge
    exact hopen (h.below j hj (by omega))
  refine nextLoop_spec h.untilNonneg huntil h.untilOpen h.lastLow h.last ?_
  rcases eq_or_lt_of_le h.lastLow with heq | hgt
  · exact .inr ⟨j, by omega, by omega, hlt, hopen⟩
  · exact .inl (by omega)

lemma Safe.sendDataPkt (h : Safe σ f) {now : Time} {word : ℤ}
    {r : FastpassFlow × List FastpassPacket} (hr : f.sendDataPkt σ now word = some r) :
    SafeCall σ f r := by
  unfold FastpassFlow.sendDataPkt at hr
  obtain ⟨-, hr⟩ := Option.ite_none_right_eq_some.1 hr
  obtain rfl := Option.some.inj hr
  refine ⟨⟨fun hopen => ?_, h.delivered, h.done⟩, Later.refl, fun p hp hopen => ?_⟩
  · have hs := h.sending hopen
    obtain ⟨h₀, hlt, -⟩ := hs.next word
    exact { hs with lastLow := le_trans (by decide) h₀, last := hlt }
  · obtain ⟨h₀, hlt, -⟩ := (h.sending hopen).next word
    obtain rfl := List.mem_singleton.1 hp
    refine ⟨(f.nextPktToSend σ word).toNat, by omega, ?_⟩
    rw [Int.toNat_of_nonneg h₀]

lemma Acked.acknowledge (h : Acked σ f) {i : ℕ} (hi : i < σ.sizeInPkt)
    (hdel : σ.seqNo i ∈ f.delivered) : Acked σ (f.acknowledge i) := by
  unfold FastpassFlow.acknowledge
  split_ifs with hmem
  · exact h
  · dsimp only
    have hbelow : ∀ j, 0 ≤ j → j < f.senderAckedUntil → j ∈ insert (i : ℤ) f.senderAcked :=
      fun j hj hlt => Finset.mem_insert_of_mem (h.below j hj hlt)
    obtain ⟨hle, hopen, hbelow'⟩ := untilLoop_spec hbelow (Finset.card_filter_le _ _)
    refine ⟨fun j hj => ?_, ?_, h.untilNonneg.trans hle, hopen, hbelow', h.lastLow, h.last⟩
    · rcases Finset.mem_insert.1 hj with rfl | hj
      · exact ⟨⟨by omega, by omega⟩, hdel⟩
      · exact h.acked j hj
    · rw [Finset.card_insert_of_notMem hmem, h.count]

lemma Acked.allDelivered (h : Acked σ f) (hcount : f.senderAckedCount = σ.sizeInPkt) :
    AllDelivered σ f := by
  intro i hi
  have hcard : σ.sizeInPkt ≤ f.senderAcked.card := by
    rw [← h.count, hcount]
  exact (h.acked i (mem_of_card (fun j hj => (h.acked j hj).1) hcard (by omega) (by omega))).2

lemma Acked.sending (h : Acked σ f) (hcount : f.senderAckedCount ≠ σ.sizeInPkt) :
    Sending σ f := by
  have hsub : f.senderAcked ⊆ Finset.Ico (0 : ℤ) σ.sizeInPkt := fun j hj =>
    Finset.mem_Ico.2 (h.acked j hj).1
  have hcard := Finset.card_le_card hsub
  rw [Int.card_Ico] at hcard
  have hle := h.count
  exact { h with lt := by omega }

lemma acknowledge_frame (i : ℤ) : ∃ acked count u, f.acknowledge i =
    { f with senderAcked := acked, senderAckedCount := count, senderAckedUntil := u } := by
  unfold FastpassFlow.acknowledge
  split_ifs <;> exact ⟨_, _, _, rfl⟩

lemma Safe.receiveAck (h : Safe σ f) {seqNo : ℕ} (hp : SafePacket σ f (.ack seqNo)) :
    SafeCall σ f (f.receiveAck σ seqNo) := by
  unfold FastpassFlow.receiveAck
  dsimp only
  have hacked : f.senderFinished = false → Acked σ (f.acknowledge (toInt32 (seqNo / σ.mss))) := by
    intro hopen
    obtain ⟨hdel, i, hi, rfl⟩ := hp hopen
    rw [(seqNo_eq hi).2]
    exact (h.sending hopen).toAcked.acknowledge hi hdel
  obtain ⟨acked, count, u, heq⟩ := f.acknowledge_frame (toInt32 (seqNo / σ.mss))
  rw [heq] at hacked ⊢
  split_ifs with hfin
  · have hall := (hacked hfin.1).allDelivered hfin.2
    refine ⟨⟨nofun, fun _ => hall, fun _ => rfl⟩, ⟨Finset.Subset.refl _, nofun⟩, ?_⟩
    exact fun p hp hopen => nomatch hopen
  · refine ⟨⟨fun hopen => ?_, h.delivered, h.done⟩, Later.refl, by simp⟩
    exact (hacked hopen).sending fun hcount => hfin ⟨hopen, hcount⟩

lemma Later.delivered {D : Finset ℕ} (hD : f.delivered ⊆ D) : Later f { f with delivered := D } :=
  ⟨hD, id⟩

lemma Safe.receive (h : Safe σ f) {p : FastpassPacket} (hp : SafePacket σ f p) :
    SafeCall σ f (f.receive σ p) := by
  cases p with
  | rts remaining => exact ⟨h, Later.refl, by simp [FastpassFlow.receive]⟩
  | data seqNo =>
    have hsub := Finset.subset_insert seqNo f.delivered
    refine ⟨⟨fun hopen => ?_, fun hfin i hi => hsub (h.delivered hfin i hi), h.done⟩,
      Later.delivered hsub, fun p hp' hopen => ?_⟩
    · have hs := h.sending hopen
      exact { hs with acked := fun i hi => ⟨(hs.acked i hi).1, hsub (hs.acked i hi).2⟩ }
    · obtain rfl := List.mem_singleton.1 hp'
      exact ⟨Finset.mem_insert_self .., hp hopen⟩
  | ack seqNo => exact h.receiveAck hp

lemma Safe.fastpassTimeout (h : Safe σ f) {now : Time} {r : FastpassFlow × List FastpassPacket}
    (hr : f.fastpassTimeout σ now = some r) : SafeCall σ f r := by
  unfold FastpassFlow.fastpassTimeout at hr
  obtain ⟨-, hr⟩ := Option.ite_none_right_eq_some.1 hr
  dsimp only at hr
  have hs : ∀ hopen : f.senderFinished = false, Acked σ f := fun hopen => (h.sending hopen).toAcked
  split_ifs at hr <;> obtain rfl := Option.some.inj hr
  · exact ⟨⟨fun hopen => ⟨{ hs hopen with }, (h.sending hopen).lt⟩, h.delivered, h.done⟩,
      Later.refl, by simp⟩
  · exact ⟨⟨fun hopen => ⟨{ hs hopen with }, (h.sending hopen).lt⟩, h.delivered, h.done⟩,
      Later.refl, by simp [updateRemainingSize, SafePacket]⟩

lemma Safe.input (h : Safe σ f) {now : Time} {i : FastpassInput}
    {r : FastpassFlow × List FastpassPacket} (hr : f.input σ now i = some r) :
    SafeCall σ f r := by
  have hs : ∀ hopen : f.senderFinished = false, Acked σ f := fun hopen => (h.sending hopen).toAcked
  cases i with
  | start =>
    obtain ⟨-, hr⟩ := Option.ite_none_left_eq_some.1 hr
    obtain rfl := Option.some.inj hr
    exact ⟨⟨fun hopen => ⟨{ hs hopen with }, (h.sending hopen).lt⟩, h.delivered, h.done⟩,
      Later.refl, by simp [updateRemainingSize, SafePacket]⟩
  | slot word => exact h.sendDataPkt hr
  | timeout => exact h.fastpassTimeout hr
  | finish =>
    obtain ⟨hne, hr⟩ := Option.ite_none_left_eq_some.1 hr
    obtain rfl := Option.some.inj hr
    have hfin := h.done (.inr (Nat.pos_of_ne_zero hne))
    refine ⟨⟨fun hopen => ?_, h.delivered, fun _ => hfin⟩, Later.refl, by simp⟩
    exact nomatch hfin.symm.trans hopen

/-- **The calls of a Fastpass flow are safe.** -/
theorem safe_calls (hsize : 0 < σ.sizeInPkt) :
    Calls (party σ) (fun _ _ => True) (Safe σ) Later (SafePacket σ) where
  init := by
    refine ⟨fun _ => ⟨⟨?_, rfl, le_rfl, ?_, ?_, le_rfl, ?_⟩, hsize⟩, nofun, fun hdone => ?_⟩
    · simp [party]
    · simp [party]
    · intro j hj hlt
      exact absurd hlt (not_lt.2 hj)
    · have := hsize
      simp only [party]
      omega
    · simp [party, Done] at hdone
  mono {f g p} hle hp hopen := by
    have hf := hp (hle.2 hopen)
    cases p with
    | ack seqNo => exact ⟨hle.1 hf.1, hf.2⟩
    | _ => exact hf
  input _ h hr := h.input hr
  receive _ h hp := h.receive hp

/-- **A `FlowFinishedEvent` of a Fastpass flow is created only after all its data has been
received.** -/
theorem allDelivered_of_done {t₀ : Time} {s : State FastpassFlow FastpassPacket Time}
    (hs : Reach (machine (party σ) t₀) s) (hdone : s.party.Done) : AllDelivered σ s.party := by
  intro i hi
  have hsafe := ((safe_calls (Nat.zero_lt_of_lt hi)).kept.reach hs).1
  exact hsafe.delivered (hsafe.done hdone) i hi

def onePacket : FastpassSpec where
  size := 1460
  mss := 1460
  fastpassEpochTime := 1
  mss_pos := Word32.mss_1460_pos
  size_lt := Word32.mss_1460_lt
  small := by decide

def twoPackets : FastpassSpec :=
  { onePacket with size := 2920, size_lt := Word32.size_2920_lt, small := by decide }

end FastpassFlow

end DcSim
