import DcSim.PacketQueue
import DcSim.Runs

/-!
What the counters of a queue say.

A packet that arrives has left, has been dropped or is held. The counters agree as long as each
arrival is counted once and each packet that is not kept is counted as dropped. A `ProbDropQueue`
does not count what it loses, and a SIM that is let go is counted by `Queue::enque` again.
-/

namespace DcSim

open Runs

/-- A step of a queue: the calls of `enque`, with the chance of a `ProbDropQueue`, and `deque`, and
the events of a `SnsQueue`. -/
inductive QueueAct
  | enque (p : Packet) (lost : Bool)
  | deque
  | snsQueueProcessing
  | fillTokenBucket

namespace PacketQueue

variable (K : QueueSpec)

def next (Q : PacketQueue) : QueueAct → Option PacketQueue
  | .enque p lost => if p.size < 4294967296 then some (Q.enque K p lost) else none
  | .deque => (Q.deque K).map (·.2)
  | .snsQueueProcessing => if K.type = .sns then some (Q.snsQueueProcessing K) else none
  | .fillTokenBucket => if K.type = .sns then some Q.addToken else none

def machine : Machine PacketQueue QueueAct := ⟨init, next K⟩

def bytes (ps : List Packet) : UInt64 := UInt64.ofNat (ps.map (·.size)).sum

/-- The counters account for the packets and for their bytes. -/
def Conserves (Q : PacketQueue) : Prop :=
  Q.pArrivals = Q.pDepartures + Q.pktDrop + UInt64.ofNat Q.held.length ∧
    Q.bArrivals - Q.bDepartures = bytes Q.held + bytes Q.dropped

instance (Q : PacketQueue) : Decidable Q.Conserves := inferInstanceAs (Decidable (_ ∧ _))

/-- A `ProbDropQueue` keeps the packet, and a `SnsQueueProcessingEvent` finds no SIM to let go. -/
def CountsOnce (Q : PacketQueue) : QueueAct → Prop
  | .enque p lost => K.type = .probDrop →
      Word32.add32 Q.bytesInQueue p.size ≤ K.limitBytes ∧ lost = false
  | .snsQueueProcessing => Q.freeTokens < 1 ∨ Q.simPackets = []
  | .deque | .fillTokenBucket => True

instance (Q : PacketQueue) : ∀ a, Decidable (Q.CountsOnce K a)
  | .enque _ _ => inferInstanceAs (Decidable (_ → _))
  | .snsQueueProcessing => inferInstanceAs (Decidable (_ ∨ _))
  | .deque | .fillTokenBucket => .isTrue trivial

structure Tallied (Q : PacketQueue) : Prop where
  pArrivals : Q.pArrivals = Q.pDepartures + UInt64.ofNat Q.stored.length
  bArrivals : Q.bArrivals = Q.bDepartures + bytes Q.stored
  pktDrop : Q.pktDrop = UInt64.ofNat Q.dropped.length

variable {K} {Q R : PacketQueue} {p : Packet} {a : QueueAct}

lemma bytes_append (ps qs : List Packet) : bytes (ps ++ qs) = bytes ps + bytes qs := by
  simp [bytes]

lemma bytes_cons (p : Packet) (ps : List Packet) :
    bytes (p :: ps) = UInt64.ofNat p.size + bytes ps := by
  simp [bytes]

lemma bytes_perm {ps qs : List Packet} (h : ps.Perm qs) : bytes ps = bytes qs := by
  unfold bytes
  rw [(h.map (·.size)).sum_nat]

lemma Tallied.conserves (h : Tallied Q) : Q.Conserves := by
  refine ⟨?_, ?_⟩
  · rw [h.pArrivals, h.pktDrop, stored, List.length_append, UInt64.ofNat_add]
    grind
  · rw [h.bArrivals, stored, bytes_append]
    grind

lemma Takes.pArrivals_eq (h : Takes Q p R) {n : UInt64}
    (hQ : Q.pArrivals = Q.pDepartures + UInt64.ofNat Q.stored.length + n) :
    R.pArrivals = R.pDepartures + UInt64.ofNat R.stored.length + n := by
  rw [h.pArrivals, h.pDepartures, h.stored.length_eq, List.length_cons, UInt64.ofNat_add, hQ]
  grind

lemma Takes.bArrivals_eq (h : Takes Q p R) (hQ : Q.bArrivals = Q.bDepartures + bytes Q.stored) :
    R.bArrivals = R.bDepartures + bytes R.stored := by
  rw [h.bArrivals, h.bDepartures, bytes_perm h.stored, bytes_cons, hQ]
  grind

/-! ### What is dropped -/

def CountsDrops (Q : PacketQueue) : Prop := Q.pktDrop = UInt64.ofNat Q.dropped.length

lemma CountsDrops.drop (h : CountsDrops Q) : CountsDrops (Q.drop p) := by
  have hdrop : Q.pktDrop + 1 = UInt64.ofNat (Q.dropped ++ [p]).length := by
    rw [List.length_append, UInt64.ofNat_add, ← show Q.pktDrop = _ from h]
    rfl
  exact hdrop

lemma CountsDrops.queueEnque (h : CountsDrops Q) : CountsDrops (Q.queueEnque K p) := by
  have harrive : CountsDrops (Q.arrive p) := h
  unfold PacketQueue.queueEnque
  split_ifs
  · exact h
  · exact harrive.drop

lemma CountsDrops.enque {lost : Bool} (h : CountsDrops Q)
    (hC : Q.CountsOnce K (.enque p lost)) : CountsDrops (Q.enque K p lost) := by
  have harrive : CountsDrops (Q.arrive p) := h
  unfold PacketQueue.enque
  split
  case h_1 => exact h.queueEnque
  case h_2 =>
    have hpush : CountsDrops ((Q.arrive p).push p) := h
    unfold pfabricEnque
    dsimp only
    split_ifs
    · cases takeAt (worstIndex ((Q.arrive p).push p).packets) ((Q.arrive p).push p).packets with
      | none => exact hpush
      | some r =>
        have hrest : CountsDrops { (Q.arrive p).push p with
            packets := r.2
            bytesInQueue := Word32.sub32 ((Q.arrive p).push p).bytesInQueue r.1.size } := h
        exact hrest.drop
    · exact hpush
  case h_3 hK =>
    unfold probDropEnque
    rw [if_pos (hC hK)]
    exact h
  case h_4 =>
    unfold dctcpEnque
    split_ifs
    · exact h
    · exact harrive.drop
  case h_5 =>
    unfold snsEnque
    split_ifs
    · exact h.queueEnque
    · exact h
    · exact harrive.drop

/-! ### The steps -/

lemma Tallied.enque {lost : Bool} (h : Tallied Q) (hC : Q.CountsOnce K (.enque p lost)) :
    Tallied (Q.enque K p lost) := by
  have htakes : Takes Q p (Q.enque K p lost) := takes_enque lost
  have hp : Q.pArrivals = Q.pDepartures + UInt64.ofNat Q.stored.length + 0 := by
    rw [UInt64.add_zero]
    exact h.pArrivals
  refine ⟨?_, htakes.bArrivals_eq h.bArrivals, CountsDrops.enque h.pktDrop hC⟩
  simpa using htakes.pArrivals_eq hp

lemma Tallied.depart {ps : List Packet} (h : Tallied Q) (hps : Q.packets.Perm (p :: ps)) :
    Tallied (Q.depart (p, ps)) := by
  have hstored := stored_depart hps
  refine ⟨?_, ?_, h.pktDrop⟩
  · have hleft : Q.pArrivals = Q.pDepartures + 1 +
        UInt64.ofNat (Q.depart (p, ps)).stored.length := by
      rw [h.pArrivals, hstored.length_eq, List.length_cons, UInt64.ofNat_add]
      grind
    exact hleft
  · have hleft : Q.bArrivals = Q.bDepartures + UInt64.ofNat p.size +
        bytes (Q.depart (p, ps)).stored := by
      rw [h.bArrivals, bytes_perm hstored, bytes_cons]
      grind
    exact hleft

lemma Tallied.next (h : Tallied Q) (hC : Q.CountsOnce K a) (hn : next K Q a = some R) :
    Tallied R := by
  cases a with
  | enque p lost =>
    obtain ⟨-, hn⟩ := Option.ite_none_right_eq_some.1 hn
    exact Option.some.inj hn ▸ h.enque hC
  | deque =>
    obtain ⟨⟨o, R'⟩, hdeque, rfl⟩ := Option.map_eq_some_iff.1 hn
    rcases deque_cases hdeque with ⟨-, -, rfl⟩ | ⟨p, ps, -, hps, rfl⟩
    · exact h
    · exact h.depart hps
  | snsQueueProcessing =>
    obtain ⟨-, hn⟩ := Option.ite_none_right_eq_some.1 hn
    obtain rfl := Option.some.inj hn
    have hsame : Q.snsQueueProcessing K = Q := by
      unfold snsQueueProcessing
      rcases hC with htokens | hsims
      · split
        · rfl
        · exact if_pos htokens
      · rw [hsims]
    rwa [hsame]
  | fillTokenBucket =>
    obtain ⟨-, hn⟩ := Option.ite_none_right_eq_some.1 hn
    obtain rfl := Option.some.inj hn
    unfold addToken
    split_ifs
    · exact ⟨h.pArrivals, h.bArrivals, h.pktDrop⟩
    · exact h

lemma not_conserves {n m : UInt64}
    (hp : R.pArrivals = R.pDepartures + UInt64.ofNat R.stored.length + n)
    (hdrop : R.pktDrop + m = UInt64.ofNat R.dropped.length) (hne : n + m ≠ 0) :
    ¬ R.Conserves := by
  rintro ⟨hcount, -⟩
  rw [stored, List.length_append, UInt64.ofNat_add, ← hdrop] at hp
  rw [hp] at hcount
  refine hne ?_
  grind

lemma Tallied.not_conserves_next (h : Tallied Q) (hC : ¬ Q.CountsOnce K a)
    (hn : PacketQueue.next K Q a = some R) : ¬ R.Conserves := by
  cases a with
  | enque p lost =>
    obtain ⟨-, hn⟩ := Option.ite_none_right_eq_some.1 hn
    obtain rfl := Option.some.inj hn
    obtain ⟨htype, hlost⟩ := Classical.not_imp.1 hC
    have hR : Q.enque K p lost = (Q.arrive p).lose p := by
      simp only [PacketQueue.enque, htype, probDropEnque]
      exact if_neg hlost
    have hp : Q.pArrivals = Q.pDepartures + UInt64.ofNat Q.stored.length + 0 := by
      rw [UInt64.add_zero]
      exact h.pArrivals
    rw [hR]
    exact not_conserves (takes_lose.pArrivals_eq hp) (CountsDrops.drop h.pktDrop) (by decide)
  | snsQueueProcessing =>
    obtain ⟨-, hn⟩ := Option.ite_none_right_eq_some.1 hn
    obtain rfl := Option.some.inj hn
    obtain ⟨htokens, hsims⟩ := not_or.1 hC
    obtain ⟨p, sims, hsims⟩ := List.exists_cons_of_ne_nil hsims
    -- the SIM is one of the packets that are accounted for, and is counted again
    obtain ⟨Q₁, hQ₁⟩ : ∃ Q₁ : PacketQueue,
        { Q with freeTokens := Q.freeTokens - 1, simPackets := sims } = Q₁ := ⟨_, rfl⟩
    have hR : Q.snsQueueProcessing K = Q₁.queueEnque K p := by
      simp only [snsQueueProcessing, hsims, if_neg htokens, hQ₁]
    have hstored : Q.stored.length = Q₁.stored.length + 1 := by
      simp only [← hQ₁, stored, held, hsims, List.length_append, List.length_cons]
      omega
    have hp : Q₁.pArrivals = Q₁.pDepartures + UInt64.ofNat Q₁.stored.length + 1 := by
      have hQ := h.pArrivals
      rw [hstored, UInt64.ofNat_add] at hQ
      subst hQ₁
      refine hQ.trans ?_
      dsimp only
      grind
    have hdrop : CountsDrops (Q₁.queueEnque K p) := CountsDrops.queueEnque (hQ₁ ▸ h.pktDrop)
    rw [hR]
    refine not_conserves (takes_queueEnque.pArrivals_eq hp) (m := 0) ?_ (by decide)
    rw [UInt64.add_zero]
    exact hdrop
  | deque | fillTokenBucket => exact absurd trivial hC

/-- **The counters of a queue** account for its packets as long as each packet is counted once and
no `ProbDropQueue` loses one; the first step that does otherwise ends that. -/
theorem conserves_iff_countsOnce (as : List QueueAct) :
    Always (machine K) Conserves init as ↔ Along (machine K) (CountsOnce K) init as :=
  always_iff_along (M := machine K) Tallied.conserves (fun h hC hn => h.next hC hn)
    (fun h hC hn => h.not_conserves_next hC hn) as ⟨rfl, rfl, rfl⟩

/-- **A `Queue`, a `PFabricQueue` and a `DctcpQueue`** account for their packets in every run. -/
theorem always_conserves (hprob : K.type ≠ .probDrop) (hsns : K.type ≠ .sns)
    (as : List QueueAct) : Always (machine K) Conserves init as := by
  have htallied : Always (machine K) Tallied init as := by
    refine always_of_inv (fun {Q R a} h hn => ?_) as ⟨rfl, rfl, rfl⟩
    cases a with
    | enque p lost =>
      exact Tallied.next (K := K) (a := .enque p lost) h (fun htype => absurd htype hprob) hn
    | snsQueueProcessing => exact absurd (Option.ite_none_right_eq_some.1 hn).1 hsns
    | deque => exact Tallied.next (K := K) (a := .deque) h trivial hn
    | fillTokenBucket => exact Tallied.next (K := K) (a := .fillTokenBucket) h trivial hn
  exact htallied.mono fun _ => Tallied.conserves

/-- A queue of a class, with room for 24 packets or twelve SIMs. -/
def exampleQueueSpec (type : QueueType) : QueueSpec := ⟨type, 36864, false, 12⟩

def examplePacket (snsType : SnsType) (size : ℕ) : Packet where
  snsType := snsType
  sendingTime := 1
  flow := 0
  seqNo := 0
  size := size
  src := 0
  dst := 1

/-- A `ProbDropQueue` loses a packet. -/
def lostRun : List QueueAct := [.enque (examplePacket .none 1500) true]

/-- A SIM arrives, is let go and leaves. -/
def simRun : List QueueAct :=
  [.enque (examplePacket .sim 40) false, .fillTokenBucket, .snsQueueProcessing, .deque]

/-- The lost packet is not counted, and the SIM is counted twice. -/
theorem not_always_conserves :
    ¬ Always (machine (exampleQueueSpec .probDrop)) Conserves init lostRun ∧
      ¬ Always (machine (exampleQueueSpec .sns)) Conserves init simRun :=
  ⟨not_always_of_exec_any (by decide +kernel), not_always_of_exec_any (by decide +kernel)⟩

end PacketQueue

end DcSim
