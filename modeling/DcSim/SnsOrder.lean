import DcSim.Selection
import DcSim.SnsHost
import DcSim.SnsQueue

/-!
The order in which a host and a queue serve the SNS packets.

Both look for a packet of each type in turn. The host begins with the SIMs; so does the queue, but
it looks for a SIM_ACK even if it has found a SIM.
-/

namespace DcSim

open Selection SnsHosts

/-- The place of a type in the order of service. -/
def SnsType.turn : SnsType → ℕ
  | .sim => 0
  | .simAck => 1
  | .dataAck => 2
  | .data => 3
  | .none => 4

/-- The packet is the earliest one of the type that is served first. -/
def ServedFirst (ps : List Packet) (p : Packet) (rest : List Packet) : Prop :=
  Taken (fun q => p.snsType.turn < q.snsType.turn) (fun q => p.snsType.turn ≤ q.snsType.turn)
    ps p rest

/-- A queue and a host with the same packets take the same one, the one served first, and leave the
others in their order. -/
def ServeAlike (Q : SnsQueue) : Prop :=
  ∃ p rest, ServedFirst Q.packets p rest ∧ getSimOrSimAck Q.packets = some (p, rest) ∧
    (Q.deque.map fun r => (r.1, r.2.packets)) = some (p, rest)

section

variable {type : SnsType} {types : List SnsType} {ps rest : List Packet} {p : Packet}

lemma takeFirst_taken (h : takeFirst type ps = some (p, rest)) :
    p.snsType = type ∧ Taken (·.snsType ≠ type) (fun _ => True) ps p rest := by
  obtain ⟨q, hq, h⟩ := Option.map_eq_some_iff.1 h
  obtain ⟨rfl, rfl⟩ := Prod.mk.inj h
  obtain ⟨htype, htaken⟩ := taken_find? hq
  exact ⟨by simpa using htype, htaken.mono (by simp) fun _ _ => id⟩

lemma takeFirst_eq_none (h : takeFirst type ps = none) : ∀ q ∈ ps, q.snsType ≠ type := by
  simpa using List.find?_eq_none.1 (Option.map_eq_none_iff.1 h)

lemma exists_takeByPriority (hne : ps ≠ []) (hall : ∀ q ∈ ps, q.snsType ∈ types) :
    ∃ p rest, takeByPriority types ps = some (p, rest) ∧
      Taken (fun q => types.idxOf p.snsType < types.idxOf q.snsType)
        (fun q => types.idxOf p.snsType ≤ types.idxOf q.snsType) ps p rest := by
  induction types with
  | nil =>
    obtain ⟨q, hq⟩ := List.exists_mem_of_ne_nil ps hne
    exact nomatch hall q hq
  | cons type types ih =>
    cases hfirst : takeFirst type ps with
    | some r =>
      obtain ⟨p, rest⟩ := r
      obtain ⟨rfl, htaken⟩ := takeFirst_taken hfirst
      refine ⟨p, rest, by simp [takeByPriority, hfirst], htaken.mono (fun q _ hq => ?_) ?_⟩
      · rw [List.idxOf_cons_self, List.idxOf_cons_ne _ (Ne.symm hq)]
        exact Nat.succ_pos _
      · intro q _ _
        rw [List.idxOf_cons_self]
        exact Nat.zero_le _
    | none =>
      have hnone := takeFirst_eq_none hfirst
      have hidx : ∀ q ∈ ps, (type :: types).idxOf q.snsType = types.idxOf q.snsType + 1 :=
        fun q hq => List.idxOf_cons_ne _ (hnone q hq).symm
      obtain ⟨p, rest, htake, htaken⟩ :=
        ih fun q hq => (List.mem_cons.1 (hall q hq)).resolve_left (hnone q hq)
      have hp := hidx p htaken.mem
      refine ⟨p, rest, by simp [takeByPriority, hfirst, htake], htaken.mono ?_ ?_⟩
      · intro q hq hlt
        rw [hp, hidx q hq]
        exact Nat.succ_lt_succ hlt
      · intro q hq hle
        rw [hp, hidx q hq]
        exact Nat.succ_le_succ hle

end

/-! ### The host and the queue -/

variable {Q : SnsQueue}

lemma exists_getSimOrSimAck {ps : List Packet} (hne : ps ≠ [])
    (hsns : ∀ p ∈ ps, p.snsType ≠ .none) :
    ∃ p rest, getSimOrSimAck ps = some (p, rest) ∧ ServedFirst ps p rest := by
  have hall : ∀ q ∈ ps, q.snsType ∈ [SnsType.sim, .simAck, .dataAck, .data] := by
    intro q hq
    have := hsns q hq
    cases hq : q.snsType <;> simp_all
  have hturn : ∀ q ∈ ps,
      [SnsType.sim, .simAck, .dataAck, .data].idxOf q.snsType = q.snsType.turn := by
    intro q hq
    have := hsns q hq
    cases hq : q.snsType <;> simp_all [SnsType.turn]
  obtain ⟨p, rest, htake, htaken⟩ := exists_takeByPriority hne hall
  have hp := hturn p htaken.mem
  refine ⟨p, rest, htake, htaken.mono (fun q hq hlt => ?_) fun q hq hle => ?_⟩
  · rwa [hp, hturn q hq] at hlt
  · rwa [hp, hturn q hq] at hle

/-- The place of a type in the order of service of the queue. -/
def SnsType.queueTurn : SnsType → ℕ
  | .simAck => 0
  | .sim => 1
  | type => type.turn

lemma SnsType.turns_agree {s t : SnsType} (hsim : s = .sim → t ≠ .simAck)
    (hack : s = .simAck → t ≠ .sim) :
    (s.queueTurn < t.queueTurn → s.turn < t.turn) ∧
      (s.queueTurn ≤ t.queueTurn → s.turn ≤ t.turn) := by
  cases s <;> cases t <;> first | decide | exact absurd rfl (hsim rfl) | exact absurd rfl (hack rfl)

lemma exists_deque (hne : Q.packets ≠ []) (hsns : ∀ p ∈ Q.packets, p.snsType ≠ .none)
    (hbytes : 0 < Q.bytesInQueue) :
    ∃ p R, Q.deque = some (p, R) ∧
      Taken (fun q => p.snsType.queueTurn < q.snsType.queueTurn)
        (fun q => p.snsType.queueTurn ≤ q.snsType.queueTurn) Q.packets p R.packets := by
  have hall : ∀ q ∈ Q.packets, q.snsType ∈ [SnsType.simAck, .sim, .dataAck, .data] := by
    intro q hq
    have := hsns q hq
    cases hq : q.snsType <;> simp_all
  have hturn : ∀ q ∈ Q.packets,
      [SnsType.simAck, .sim, .dataAck, .data].idxOf q.snsType = q.snsType.queueTurn := by
    intro q hq
    have := hsns q hq
    cases hq : q.snsType <;> simp_all [SnsType.queueTurn, SnsType.turn]
  obtain ⟨p, rest, htake, htaken⟩ := exists_takeByPriority hne hall
  have hp := hturn p htaken.mem
  refine ⟨p, _, by rw [SnsQueue.deque, if_pos hbytes, htake]; rfl,
    htaken.mono (fun q hq hlt => ?_) fun q hq hle => ?_⟩
  · rwa [hp, hturn q hq] at hlt
  · rwa [hp, hturn q hq] at hle

/-- **A queue and a host serve the same packet** exactly if there is not both a SIM and a SIM_ACK
(and the queue is not taken for empty). -/
theorem serveAlike_iff (hne : Q.packets ≠ []) (hsns : ∀ p ∈ Q.packets, p.snsType ≠ .none) :
    ServeAlike Q ↔ 0 < Q.bytesInQueue ∧
      ¬ ((∃ p ∈ Q.packets, p.snsType = .sim) ∧ ∃ p ∈ Q.packets, p.snsType = .simAck) := by
  obtain ⟨h, rest, hhost, hfirst⟩ := exists_getSimOrSimAck hne hsns
  by_cases hbytes : 0 < Q.bytesInQueue
  · obtain ⟨p, R, hdeque, htaken⟩ := exists_deque hne hsns hbytes
    have hp : ∀ q ∈ Q.packets, p.snsType.queueTurn ≤ q.snsType.queueTurn :=
      htaken.forall le_rfl (fun _ => le_of_lt) fun _ => id
    constructor
    · rintro ⟨p', rest', hserved, -, hqueue⟩
      refine ⟨hbytes, fun ⟨⟨s, hs, hsim⟩, a, ha, hack⟩ => ?_⟩
      obtain ⟨rfl, -⟩ := Prod.mk.inj (Option.some.inj ((congrArg _ hdeque).symm.trans hqueue))
      -- the queue takes a SIM_ACK, where a SIM is to be served
      have hle : p.snsType.turn ≤ s.snsType.turn :=
        hserved.forall (P := fun q => p.snsType.turn ≤ q.snsType.turn) le_rfl
          (fun _ => le_of_lt) (fun _ => id) s hs
      have hle' := hp a ha
      rw [hsim] at hle
      rw [hack] at hle'
      cases htype : p.snsType <;> simp_all [SnsType.turn, SnsType.queueTurn]
    · rintro ⟨-, hnot⟩
      -- without both, the two orders agree
      have hagree : ∀ q ∈ Q.packets,
          (p.snsType.queueTurn < q.snsType.queueTurn → p.snsType.turn < q.snsType.turn) ∧
          (p.snsType.queueTurn ≤ q.snsType.queueTurn → p.snsType.turn ≤ q.snsType.turn) := by
        intro q hq
        have hsim : p.snsType = .sim → q.snsType ≠ .simAck := fun h h' =>
          hnot ⟨⟨p, htaken.mem, h⟩, q, hq, h'⟩
        have hack : p.snsType = .simAck → q.snsType ≠ .sim := fun h h' =>
          hnot ⟨⟨q, hq, h'⟩, p, htaken.mem, h⟩
        exact SnsType.turns_agree hsim hack
      have hserved : ServedFirst Q.packets p R.packets :=
        htaken.mono (fun q hq => (hagree q hq).1) fun q hq => (hagree q hq).2
      obtain ⟨rfl, hrest⟩ := Taken.unique (fun q : Packet => q.snsType.turn) hserved hfirst
      exact ⟨p, R.packets, hserved, hrest ▸ hhost, congrArg _ hdeque⟩
  · refine iff_of_false (fun ⟨p, rest, _, _, hqueue⟩ => ?_) fun h => hbytes h.1
    rw [SnsQueue.deque, if_neg hbytes] at hqueue
    exact nomatch hqueue

/-- Packets of the given types wait. -/
def SnsQueue.waiting (types : List SnsType) : SnsQueue :=
  { SnsQueue.init with
    packets := types.map fun t => ⟨0, .normal, t, 0, 0, 0, 0, 40, 0, 1, [], 0, -1, -1, []⟩
    bytesInQueue := 40 * types.length }

theorem serveAlike_dataBeforeSim : ServeAlike (.waiting [.data, .dataAck, .sim, .data]) :=
  (serveAlike_iff (by decide) (by decide)).2 (by decide)

/-- Of a SIM and a SIM_ACK the host takes the SIM, the queue the SIM_ACK. -/
theorem not_serveAlike_simAndSimAck : ¬ ServeAlike (.waiting [.sim, .simAck]) := by
  rintro ⟨p, rest, -, hhost, hqueue⟩
  exact absurd (hhost.trans hqueue.symm) (by decide)

end DcSim
