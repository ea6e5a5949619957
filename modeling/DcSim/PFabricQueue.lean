import DcSim.QueueCounters
import DcSim.Selection

/-!
The discipline of a `PFabricQueue`.

What does not fit in pushes out one packet, the latest of the worst priority. At normal hosts the
earliest packet leaves of the flow that has a packet of the best priority. One packet is not always
enough to be pushed out: it can be smaller than the one that arrives.
-/

namespace DcSim

open Runs Selection Word32

namespace PacketQueue

/-- A `PFabricQueue`. -/
def pfabricSpec (limitBytes : ℕ) (normalHost : Bool) : QueueSpec :=
  ⟨.pfabric, limitBytes, normalHost, 0⟩

def LatestWorst (ps : List Packet) (w : Packet) (rest : List Packet) : Prop :=
  Taken (fun q => q.pfPriority ≤ w.pfPriority) (fun q => q.pfPriority < w.pfPriority) ps w rest

def EarliestOfFlow (ps : List Packet) (p : Packet) (rest : List Packet) : Prop :=
  Taken (fun q => q.flow ≠ p.flow) (fun _ => True) ps p rest

variable {K : QueueSpec} {Q R : PacketQueue} {p : Packet} {ps rest : List Packet} {limitBytes : ℕ}

/-! ### What the loops find -/

lemma latestWorst_takeAt (hne : ps ≠ []) :
    ∃ w rest, takeAt (worstIndex ps) ps = some (w, rest) ∧ LatestWorst ps w rest := by
  obtain ⟨l, w, r, rfl, hloop, hl, hr⟩ :=
    lastMax_spec Packet.pfPriority (b := 0) (fun _ => Nat.zero_le _) hne
  have hindex : worstIndex (l ++ w :: r) = l.length := congrArg Prod.snd hloop
  refine ⟨w, _, ?_, taken_eraseIdx hl hr⟩
  rw [hindex]
  simp [takeAt]

lemma exists_take (limitBytes : ℕ) (hp : p ∈ ps) (hpriority : p.pfPriority < 4294967295) :
    ∃ q rest, take (pfabricSpec limitBytes true) ps = some (q, rest) ∧
      EarliestOfFlow ps q rest ∧
      ∃ b ∈ ps, b.flow = q.flow ∧ ∀ r ∈ ps, b.pfPriority ≤ r.pfPriority := by
  rcases firstMin_spec Packet.pfPriority 4294967295 ps with
    ⟨-, hall⟩ | ⟨l, b, r, hps, hloop, hb, hl, hr⟩
  · exact absurd (hall p hp) (not_le.2 hpriority)
  have hbest : bestPacket ps = some (b, l.length) := congrArg Prod.snd hloop
  have htaken : Taken (fun q => b.pfPriority < q.pfPriority)
      (fun q => b.pfPriority ≤ q.pfPriority) ps b (l ++ r) := ⟨l, r, hps, rfl, hl, hr⟩
  obtain ⟨i, q, hi, hq, hflow, hfirst⟩ :=
    exists_findIdx? (p := fun q : Packet => q.flow = b.flow) htaken.mem (by simp)
  have hindex : pfabricIndex true ps = some i := by
    simp only [pfabricIndex, hbest, hi, if_true, Option.getD_some]
  have hflow : q.flow = b.flow := by simpa using hflow
  refine ⟨q, _, ?_, hfirst.mono (fun y _ hy => ?_) fun _ _ => id, b, htaken.mem, hflow.symm,
    htaken.forall le_rfl (fun _ => le_of_lt) fun _ => id⟩
  · simp only [take, pfabricSpec, hindex, Option.bind_some, takeAt, hq, Option.map_some]
  · simpa [hflow] using hy

/-! ### The calls -/

lemma pfabricEnque_cases (limitBytes : ℕ) (normalHost lost : Bool) (Q : PacketQueue) (p : Packet) :
    ((add32 Q.bytesInQueue p.size ≤ limitBytes ∨ limitBytes = 4294967295) ∧
      Q.enque (pfabricSpec limitBytes normalHost) p lost = (Q.arrive p).push p) ∨
    (limitBytes < add32 Q.bytesInQueue p.size ∧ limitBytes ≠ 4294967295 ∧
      ∃ w rest, LatestWorst (Q.packets ++ [p]) w rest ∧
        Q.enque (pfabricSpec limitBytes normalHost) p lost =
          ((Q.arrive p).push p).dropFrom (w, rest)) := by
  by_cases hfull : limitBytes < ((Q.arrive p).push p).bytesInQueue ∧ limitBytes ≠ 4294967295
  · have hne : Q.packets ++ [p] ≠ [] := by simp
    obtain ⟨w, rest, htake, hworst⟩ := latestWorst_takeAt hne
    have htake : takeAt (worstIndex ((Q.arrive p).push p).packets) ((Q.arrive p).push p).packets =
        some (w, rest) := htake
    refine .inr ⟨hfull.1, hfull.2, w, rest, hworst, (if_pos hfull).trans ?_⟩
    rw [htake]
    rfl
  · refine .inl ⟨?_, if_neg hfull⟩
    rcases not_and_or.1 hfull with h | h
    · exact .inl (not_lt.1 h)
    · exact .inr (not_not.1 h)

/-! ### The limit -/

/-- What arrives is no bigger than the limit. -/
def FitsAlone (limitBytes : ℕ) (_ : PacketQueue) : QueueAct → Prop
  | .enque p _ => p.size ≤ limitBytes
  | _ => True

instance (limitBytes : ℕ) (Q : PacketQueue) (a : QueueAct) :
    Decidable (Q.FitsAlone limitBytes a) := by
  cases a <;> unfold FitsAlone <;> infer_instance

/-- `bytes_in_queue` is the size of the packets, and within the limit. -/
def Bounded (limitBytes : ℕ) (Q : PacketQueue) : Prop :=
  Q.bytesInQueue = (Q.packets.map (·.size)).sum ∧ Q.bytesInQueue ≤ limitBytes

instance (limitBytes : ℕ) (Q : PacketQueue) : Decidable (Q.Bounded limitBytes) :=
  inferInstanceAs (Decidable (_ ∧ _))

/-- The latest of the packets of the worst priority. -/
def worst : List Packet → Option Packet
  | [] => none
  | p :: ps => some ((worst ps).elim p fun w => if w.pfPriority < p.pfPriority then p else w)

lemma mem_of_worst {w : Packet} (h : worst ps = some w) : w ∈ ps := by
  induction ps generalizing w with
  | nil => exact nomatch h
  | cons p ps ih =>
    obtain rfl := Option.some.inj h
    cases hworst : worst ps with
    | none => exact List.mem_cons_self
    | some v =>
      simp only [Option.elim_some]
      split_ifs
      · exact List.mem_cons_self
      · exact List.mem_cons_of_mem _ (ih hworst)

lemma LatestWorst.worst_eq {w : Packet} {rest : List Packet} (h : LatestWorst ps w rest) :
    worst ps = some w := by
  obtain ⟨l, r, rfl, -, hl, hr⟩ := h
  induction l with
  | nil =>
    cases hworst : worst r with
    | none => simp only [List.nil_append, worst, hworst, Option.elim_none]
    | some v =>
      simp only [List.nil_append, worst, hworst, Option.elim_some,
        if_pos (hr v (mem_of_worst hworst))]
  | cons q l ih =>
    obtain ⟨hq, hl⟩ := List.forall_mem_cons.1 hl
    simp only [List.cons_append, worst, ih hl, Option.elim_some, if_neg (not_lt.2 hq)]

/-- What arrives fits in, or does so when the latest packet of the worst priority is pushed out. -/
def FitsByOne (limitBytes : ℕ) (Q : PacketQueue) : QueueAct → Prop
  | .enque p _ => Q.bytesInQueue + p.size ≤ limitBytes ∨
      Q.bytesInQueue + p.size < 4294967296 ∧
        ∀ w ∈ worst (Q.packets ++ [p]), Q.bytesInQueue + p.size ≤ limitBytes + w.size
  | _ => True

instance (limitBytes : ℕ) (Q : PacketQueue) (a : QueueAct) :
    Decidable (Q.FitsByOne limitBytes a) := by
  cases a <;> unfold FitsByOne <;> infer_instance

lemma Bounded.enque_iff (hlimit : limitBytes < 4294967295)
    (h : Q.Bounded limitBytes) (hp : p.size ≤ limitBytes) (normalHost lost : Bool) :
    (Q.enque (pfabricSpec limitBytes normalHost) p lost).Bounded limitBytes ↔
      Q.FitsByOne limitBytes (.enque p lost) := by
  obtain ⟨hbytes, hle⟩ := h
  have hsum := sum_append Q.packets p
  rw [← hbytes] at hsum
  have htotal : add32 Q.bytesInQueue p.size = (Q.bytesInQueue + p.size) % 4294967296 := rfl
  rcases pfabricEnque_cases limitBytes normalHost lost Q p with
    ⟨hroom, hR⟩ | ⟨hfull, -, w, rest, hworst, hR⟩
  · have hroom := hroom.resolve_right hlimit.ne
    have hiff : ((Q.arrive p).push p).Bounded limitBytes ↔
        add32 Q.bytesInQueue p.size = Q.bytesInQueue + p.size := by
      rw [← hsum]
      exact and_iff_left hroom
    rw [hR, hiff]
    constructor
    · exact fun h => .inl (h ▸ hroom)
    · rintro (hfits | ⟨hlt, -⟩)
      · exact add32_eq (by omega)
      · exact add32_eq hlt
  · -- the sum has not wrapped, since it is at most twice the limit
    have hlt : Q.bytesInQueue + p.size < 4294967296 := by omega
    have hperm := sum_perm hworst.perm
    rw [hsum] at hperm
    have hrest : sub32 (add32 Q.bytesInQueue p.size) w.size = (rest.map (·.size)).sum := by
      rw [add32_eq hlt, sub32_eq hlt (by omega)]
      omega
    have hiff : (((Q.arrive p).push p).dropFrom (w, rest)).Bounded limitBytes ↔
        (rest.map (·.size)).sum ≤ limitBytes := by
      rw [← hrest]
      exact and_iff_right hrest
    rw [hR, hiff]
    constructor
    · refine fun h => .inr ⟨hlt, fun v hv => ?_⟩
      obtain rfl := Option.some.inj (hworst.worst_eq.symm.trans hv)
      omega
    · rintro (hfits | ⟨-, hw⟩)
      · omega
      · have := hw w hworst.worst_eq
        omega

lemma Bounded.depart (h : Q.Bounded limitBytes) (hlimit : limitBytes < 4294967295)
    (hps : Q.packets.Perm (p :: ps)) : (Q.depart (p, ps)).Bounded limitBytes := by
  obtain ⟨hbytes, hle⟩ := h
  have hperm := sum_perm hps
  have hrest : sub32 Q.bytesInQueue p.size = (ps.map (·.size)).sum := by
    rw [sub32_eq (by omega) (by omega)]
    omega
  exact ⟨hrest, show sub32 Q.bytesInQueue p.size ≤ limitBytes by omega⟩

lemma Bounded.next_iff (hlimit : limitBytes < 4294967295) {normalHost : Bool} {a : QueueAct}
    (h : Q.Bounded limitBytes)
    (hn : ((machine (pfabricSpec limitBytes normalHost)).restrict (FitsAlone limitBytes)).next Q a =
      some R) : R.Bounded limitBytes ↔ Q.FitsByOne limitBytes a := by
  obtain ⟨hfits, hn⟩ := restrict_next hn
  cases a with
  | enque p lost =>
    obtain ⟨-, hn⟩ := Option.ite_none_right_eq_some.1 hn
    exact Option.some.inj hn ▸ h.enque_iff hlimit hfits normalHost lost
  | deque =>
    obtain ⟨⟨o, R'⟩, hdeque, rfl⟩ := Option.map_eq_some_iff.1 hn
    refine iff_of_true ?_ trivial
    rcases deque_cases hdeque with ⟨-, -, rfl⟩ | ⟨p, ps, -, hps, rfl⟩
    · exact h
    · exact h.depart hlimit hps
  | snsQueueProcessing => exact nomatch hn
  | fillTokenBucket => exact nomatch hn

/-- **A `PFabricQueue` keeps to its limit** all along a run exactly if each packet fits in, or does
so when one packet is pushed out, the latest of the worst priority. -/
theorem bounded_iff_fitsByOne (hlimit : limitBytes < 4294967295) (normalHost : Bool)
    (as : List QueueAct) :
    Always ((machine (pfabricSpec limitBytes normalHost)).restrict (FitsAlone limitBytes))
        (Bounded limitBytes) init as ↔
      Along ((machine (pfabricSpec limitBytes normalHost)).restrict (FitsAlone limitBytes))
        (FitsByOne limitBytes) init as :=
  always_iff_along id (fun h hC hn => (h.next_iff hlimit hn).2 hC)
    (fun h hC hn hR => hC ((h.next_iff hlimit hn).1 hR)) as ⟨rfl, Nat.zero_le _⟩

/-- A packet of a flow that has so much to send. -/
def pfabricPacket (flow : FlowId) (priority size : ℕ) : Packet where
  sendingTime := 1
  flow := flow
  seqNo := 0
  pfPriority := priority
  size := size
  src := 0
  dst := 1

/-- A flow of a segment and a byte, and a flow of one segment. -/
def twoFlows : List QueueAct :=
  [.enque (pfabricPacket 0 1461 1500) false, .enque (pfabricPacket 0 1461 41) false,
    .enque (pfabricPacket 1 1460 1500) false]

theorem bounded_twoFlows :
    Always ((machine (pfabricSpec 3000 true)).restrict (FitsAlone 3000)) (Bounded 3000) init
      twoFlows :=
  (bounded_iff_fitsByOne (by decide) true twoFlows).2 (by decide +kernel)

/-- The packet of the single byte is pushed out for a whole segment. -/
theorem not_bounded_twoFlows :
    ¬ Always ((machine (pfabricSpec 1600 true)).restrict (FitsAlone 1600)) (Bounded 1600) init
      twoFlows :=
  not_always_of_exec_any (by decide +kernel)

/-! ### The order of service -/

structure History where
  queue : PacketQueue
  enqueued : List Packet
  departed : List Packet

namespace History

/-- A call of `enque`, with a packet whose priority is below `UINT_MAX`, or of `deque`. -/
def next (K : QueueSpec) (H : History) : QueueAct → Option History
  | .enque p lost =>
    if p.size < 4294967296 ∧ p.pfPriority < 4294967295 then
      some { H with queue := H.queue.enque K p lost, enqueued := H.enqueued ++ [p] }
    else none
  | .deque => (H.queue.deque K).map fun r =>
      { H with queue := r.2, departed := H.departed ++ r.1.toList }
  | _ => none

def machine (K : QueueSpec) : Machine History QueueAct := ⟨⟨.init, [], []⟩, next K⟩

end History

structure Serves (limitBytes : ℕ) (H : History) : Prop where
  /-- A packet that came has left once, has been dropped once or waits. -/
  accounted : (H.queue.packets ++ H.departed ++ H.queue.dropped).Perm H.enqueued
  /-- The packets wait in the order they came in. -/
  inOrder : H.queue.packets.Sublist H.enqueued
  total : H.queue.deque (pfabricSpec limitBytes true) ≠ none
  departs : ∀ p R, H.queue.deque (pfabricSpec limitBytes true) = some (some p, R) →
    EarliestOfFlow H.queue.packets p R.packets ∧
      ∃ b ∈ H.queue.packets, b.flow = p.flow ∧ ∀ r ∈ H.queue.packets, b.pfPriority ≤ r.pfPriority
  evicts : ∀ p lost R, H.queue.enque (pfabricSpec limitBytes true) p lost = R →
    R.packets = H.queue.packets ++ [p] ∧ R.dropped = H.queue.dropped ∨
      limitBytes < add32 H.queue.bytesInQueue p.size ∧
        ∃ w, LatestWorst (H.queue.packets ++ [p]) w R.packets ∧ R.dropped = H.queue.dropped ++ [w]

structure Recorded (H : History) : Prop where
  accounted : (H.queue.packets ++ H.departed ++ H.queue.dropped).Perm H.enqueued
  inOrder : H.queue.packets.Sublist H.enqueued
  bytes : H.queue.bytesInQueue = (H.queue.packets.map (·.size)).sum % 4294967296
  size : ∀ p ∈ H.enqueued, p.size < 4294967296
  priority : ∀ p ∈ H.enqueued, p.pfPriority < 4294967295

variable {H : History}

lemma Recorded.deque_cases (h : Recorded H) (limitBytes : ℕ) :
    H.queue.deque (pfabricSpec limitBytes true) = some (none, H.queue) ∨
      ∃ p rest, H.queue.deque (pfabricSpec limitBytes true) =
          some (some p, H.queue.depart (p, rest)) ∧
        EarliestOfFlow H.queue.packets p rest ∧ ∃ b ∈ H.queue.packets, b.flow = p.flow ∧
          ∀ r ∈ H.queue.packets, b.pfPriority ≤ r.pfPriority := by
  by_cases hbytes : 0 < H.queue.bytesInQueue
  · obtain ⟨p, hp⟩ : ∃ p, p ∈ H.queue.packets := by
      refine List.exists_mem_of_ne_nil _ fun hnil => ?_
      have hzero := h.bytes
      rw [hnil] at hzero
      exact hbytes.ne' hzero
    obtain ⟨q, rest, htake, hserved⟩ :=
      exists_take limitBytes hp (h.priority p (h.inOrder.subset hp))
    exact .inr ⟨q, rest, by rw [deque, if_pos hbytes, htake]; rfl, hserved⟩
  · exact .inl (if_neg hbytes)

lemma Recorded.serves (h : Recorded H) : Serves limitBytes H where
  accounted := h.accounted
  inOrder := h.inOrder
  total := by
    rcases h.deque_cases limitBytes with hdeque | ⟨p, rest, hdeque, -⟩ <;> simp [hdeque]
  departs := by
    intro p R hp
    rcases h.deque_cases limitBytes with hdeque | ⟨q, rest, hdeque, hserved⟩
    · exact nomatch hdeque.symm.trans hp
    · obtain ⟨hq, rfl⟩ := Prod.mk.inj (Option.some.inj (hdeque.symm.trans hp))
      obtain rfl := Option.some.inj hq
      exact hserved
  evicts := by
    rintro p lost R rfl
    rcases pfabricEnque_cases limitBytes true lost H.queue p with
      ⟨-, hR⟩ | ⟨hfull, -, w, rest, hworst, hR⟩
    · exact .inl (hR ▸ ⟨rfl, rfl⟩)
    · exact .inr ⟨hfull, w, hR ▸ ⟨hworst, rfl⟩⟩

lemma sub32_sum_mod (h : ps.Perm (p :: rest)) (hp : p.size < 4294967296) :
    sub32 ((ps.map (·.size)).sum % 4294967296) p.size =
      (rest.map (·.size)).sum % 4294967296 := by
  rw [sum_perm h]
  unfold sub32
  omega

lemma Recorded.enque (h : Recorded H) (limitBytes : ℕ) (lost : Bool)
    (hp : p.size < 4294967296) (hpriority : p.pfPriority < 4294967295) :
    Recorded { H with
      queue := H.queue.enque (pfabricSpec limitBytes true) p lost
      enqueued := H.enqueued ++ [p] } := by
  have hsize : ∀ q ∈ H.enqueued ++ [p], q.size < 4294967296 :=
    List.forall_mem_append.2 ⟨h.size, List.forall_mem_singleton.2 hp⟩
  have hpriority : ∀ q ∈ H.enqueued ++ [p], q.pfPriority < 4294967295 :=
    List.forall_mem_append.2 ⟨h.priority, List.forall_mem_singleton.2 hpriority⟩
  have hinOrder : (H.queue.packets ++ [p]).Sublist (H.enqueued ++ [p]) :=
    h.inOrder.append_right [p]
  have hbytes : add32 H.queue.bytesInQueue p.size =
      ((H.queue.packets ++ [p]).map (·.size)).sum % 4294967296 := by
    rw [h.bytes, sum_append, add32_mod]
  have haccounted : (H.queue.packets ++ [p] ++ H.departed ++ H.queue.dropped).Perm
      (H.enqueued ++ [p]) := by
    refine List.Perm.trans ?_ (h.accounted.append_right [p])
    simp only [List.append_assoc]
    exact List.Perm.append_left _ (List.perm_append_comm.trans (by simp))
  rcases pfabricEnque_cases limitBytes true lost H.queue p with
    ⟨-, hR⟩ | ⟨-, -, w, rest, hworst, hR⟩
  · rw [hR]
    exact ⟨haccounted, hinOrder, hbytes, hsize, hpriority⟩
  · have hw : w.size < 4294967296 := hsize w (hinOrder.subset hworst.mem)
    rw [hR]
    refine ⟨?_, hworst.sublist.trans hinOrder, ?_, hsize, hpriority⟩
    · refine List.Perm.trans ?_ haccounted
      have hmoved : (rest ++ H.departed ++ (H.queue.dropped ++ [w])).Perm
          (w :: rest ++ H.departed ++ H.queue.dropped) := by
        rw [← List.append_assoc]
        exact List.perm_append_singleton w _
      exact hmoved.trans ((hworst.perm.symm.append_right _).append_right _)
    · have hrest := sub32_sum_mod hworst.perm hw
      rw [← hbytes] at hrest
      exact hrest

lemma Recorded.next {a : QueueAct} {H' : History} (h : Recorded H)
    (hn : H.next (pfabricSpec limitBytes true) a = some H') : Recorded H' := by
  cases a with
  | enque p lost =>
    obtain ⟨⟨hp, hpriority⟩, hn⟩ := Option.ite_none_right_eq_some.1 hn
    exact Option.some.inj hn ▸ h.enque limitBytes lost hp hpriority
  | deque =>
    obtain ⟨⟨o, R⟩, hdeque, rfl⟩ := Option.map_eq_some_iff.1 hn
    rcases h.deque_cases limitBytes with hnone | ⟨p, rest, hsome, hserved, -⟩
    · obtain ⟨rfl, rfl⟩ := Prod.mk.inj (Option.some.inj (hnone.symm.trans hdeque))
      simpa using h
    · obtain ⟨rfl, rfl⟩ := Prod.mk.inj (Option.some.inj (hsome.symm.trans hdeque))
      have hp := h.size p (h.inOrder.subset hserved.mem)
      refine ⟨?_, hserved.sublist.trans h.inOrder, ?_, h.size, h.priority⟩
      · have hmoved : (rest ++ (H.departed ++ [p]) ++ H.queue.dropped).Perm
            (p :: rest ++ H.departed ++ H.queue.dropped) := by
          refine List.Perm.append_right _ ?_
          rw [← List.append_assoc]
          exact List.perm_append_singleton p _
        exact (hmoved.trans ((hserved.perm.symm.append_right _).append_right _)).trans h.accounted
      · have hrest := sub32_sum_mod hserved.perm hp
        rw [← h.bytes] at hrest
        exact hrest
  | snsQueueProcessing => exact nomatch hn
  | fillTokenBucket => exact nomatch hn

/-- **The order of service of a `PFabricQueue`** at a normal host: the earliest packet leaves of a
flow that has a packet of the best priority, the latest packet of the worst priority is pushed out,
and no packet is lost or doubled. -/
theorem always_serves (limitBytes : ℕ) (as : List QueueAct) :
    Always (History.machine (pfabricSpec limitBytes true)) (Serves limitBytes)
      ⟨.init, [], []⟩ as := by
  have hrecorded : Always (History.machine (pfabricSpec limitBytes true)) Recorded
      ⟨.init, [], []⟩ as :=
    always_of_inv (fun h hn => Recorded.next h hn) as
      ⟨.refl _, .refl _, rfl, nofun, nofun⟩
  exact hrecorded.mono fun _ => Recorded.serves

end PacketQueue

end DcSim
