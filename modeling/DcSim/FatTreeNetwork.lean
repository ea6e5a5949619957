import DcSim.FatTreePath
import DcSim.Links
import DcSim.NetworkOrder
import Mathlib.Data.Finset.Prod

/-!
The fat tree as a network.

`FatTreeTopology` gives all queues the bandwidth of a host, but with `core_div_2` every second queue
of a switch a hundredth of it. The queues of a host are at place 0, those of the switches at place
2. Packets between hosts go up to the switch that is above both of them and down again, and where
the ports do not depend on the counters the packets of a flow go one way.
-/

namespace DcSim

open Routing Runs Word32

structure FatTreeNetwork extends FatTree, LinkParams where
  plain : kind = .plain
  even : Even k
  k_lt : k < 4294967296
  constructed : toFatTree.Constructed
  hosts : 0 < toFatTree.numHosts

inductive FatTree.Leg (T : FatTree) (a b : HostId) : FatQueue → Option FatQueue → Prop
  | rack {i j : ℕ} : T.IsSameRack a b → j < T.half → Leg T a b (.host a) (some (.edge i j))
  | up {i j : ℕ} : ¬ T.IsSameRack a b → T.half ≤ j → Leg T a b (.host a) (some (.edge i j))
  | pod {i j i' j' : ℕ} : T.IsSamePod a b → T.half ≤ j → j' < T.half →
      Leg T a b (.edge i j) (some (.agg i' j'))
  | climb {i j i' j' : ℕ} : ¬ T.IsSamePod a b → T.half ≤ j → T.half ≤ j' →
      Leg T a b (.edge i j) (some (.agg i' j'))
  | spine {i j i' j' : ℕ} : T.half ≤ j → Leg T a b (.agg i j) (some (.core i' j'))
  | across {i j i' j' : ℕ} : j' < T.half → Leg T a b (.core i j) (some (.agg i' j'))
  | descend {i j i' j' : ℕ} : j < T.half → j' < T.half →
      Leg T a b (.agg i j) (some (.edge i' j'))
  | down {i j : ℕ} : j < T.half → Leg T a b (.edge i j) none

namespace FatTreeNetwork

/-- The argument `location` of a queue. -/
def location : FatQueue → ℕ
  | .host _ => 0
  | _ => 2

variable (N : FatTreeNetwork)

def rate : FatQueue → ℚ
  | .host _ | .toArbiter => N.bandwidth
  | .edge _ j | .agg _ j | .core _ j =>
    if N.coreDiv2 ∧ j % 2 = 0 then N.bandwidth / 100 else N.bandwidth

def queues : Finset FatQueue :=
  (if N.hasArbiter then {.toArbiter} else ∅) ∪
    ((Finset.range (N.numHosts + 1)).filter fun id => id < N.numHosts ∨ N.IsArbiter id).image
      (fun id => .host id) ∪
    (Finset.range N.numEdgeSwitches ×ˢ Finset.range N.k).image (fun x => .edge x.1 x.2) ∪
    (Finset.range N.numAggSwitches ×ˢ Finset.range N.k).image (fun x => .agg x.1 x.2) ∪
    (Finset.range N.numCoreSwitches ×ˢ Finset.range N.k).image fun x => .core x.1 x.2

variable {N} {a b : HostId} {p : Packet} {q : FatQueue}

lemma mem_queues : q ∈ N.queues ↔ N.HasQueue q := by
  unfold queues FatTree.HasQueue
  rcases q with id | ⟨i, j⟩ | ⟨i, j⟩ | ⟨i, j⟩ | _
  · have harb : N.IsArbiter id → id = N.numHosts := And.right
    cases N.hasArbiter <;>
      simp only [Finset.mem_union, Finset.mem_image, Finset.mem_filter, Finset.mem_range,
        FatQueue.host.injEq, exists_eq_right, reduceCtorEq, and_false, exists_false, or_false,
        false_or, and_iff_right_iff_imp, Finset.mem_singleton, Bool.false_eq_true, if_false,
        if_true, Finset.notMem_empty] <;>
      exact fun h => Nat.lt_succ_of_le (h.elim le_of_lt fun h => (harb h).le)
  · cases N.hasArbiter <;> simp
  · cases N.hasArbiter <;> simp
  · cases N.hasArbiter <;> simp
  · cases N.hasArbiter <;> simp

lemma rate_pos (q : FatQueue) : 0 < N.rate q := by
  have hpos := N.bandwidth_pos
  unfold rate
  split
  · exact hpos
  · exact hpos
  all_goals
    split_ifs
    · exact div_pos hpos (by norm_num)
    · exact hpos

lemma rate_le (q : FatQueue) : N.rate q ≤ N.bandwidth := by
  have hpos := N.bandwidth_pos
  have hle : N.bandwidth / 100 ≤ N.bandwidth := div_le_self hpos.le (by norm_num)
  unfold rate
  split
  · exact le_rfl
  · exact le_rfl
  all_goals
    split_ifs
    · exact hle
    · exact le_rfl

lemma shape (N : FatTreeNetwork) : N.Shape N.half := by
  obtain ⟨h, hk⟩ := N.even
  have hhalf : N.half = h := by
    unfold FatTree.half
    omega
  rw [hhalf]
  have hpos : 0 < h := by
    by_contra h0
    have hk0 : N.k = 0 := by omega
    have hhosts := N.hosts
    simp [FatTree.numHosts, hk0, mul32] at hhosts
  exact FatTree.shape_of_constructed (by omega) hpos N.k_lt N.constructed N.hosts

lemma half_pos (N : FatTreeNetwork) : 0 < N.half := N.shape.pos

/-! ### The next queue -/

lemma hasQueue_queueAt {x : ℕ} {n : FatNode} {r : FatQueue} (hn : N.HasNode n)
    (h : N.queueAt x n = some r) : N.HasQueue r := by
  cases n with
  | host id => cases h
  | edge i | agg i | core i =>
    obtain ⟨hx, h⟩ := Option.ite_none_right_eq_some.1 h
    obtain rfl := Option.some.inj h
    exact ⟨hn, hx⟩

lemma hasQueue_next {choose : FatTree.Chooser} {c c' : ℕ} {p₀ p' : HopPacket} {r : FatQueue}
    (hq : N.HasQueue q) (h : N.getNextHopWith choose c p₀ q = some (p', c', some r)) :
    N.HasQueue r := by
  have hnode : N.HasNode (N.dst q) := N.constructed q hq
  have hat : ∀ {p₁ : HopPacket} {s x : ℕ},
      FatTree.goTo p₁ s (N.queueAt x (N.dst q)) = some (p', c', some r) → N.HasQueue r :=
    fun h => hasQueue_queueAt hnode (FatTree.goTo_eq h).2.2.symm
  have harbiter : ∀ {p₁ : HopPacket} {s : ℕ} {n : FatNode} {b : HostId}, N.IsArbiter b →
      FatTree.goToArbiter p₁ s n = some (p', c', some r) → N.HasQueue r := by
    intro p₁ s n b hb h
    rw [(FatTree.goToArbiter_eq h).2.2 r rfl]
    exact hb.1
  unfold FatTree.getNextHopWith at h
  split at h
  · cases (FatTree.arrive_eq h).2.2
  · cases q with
    | host id =>
      unfold FatTree.getHostNextHop at h
      dsimp only at h
      split_ifs at h with hsrc hrack harb
      · exact harbiter harb h
      · exact hat h
      · exact hat h
    | edge i j =>
      dsimp only [FatTree.getEdgeNextHop] at h
      split_ifs at h
      · exact hat h
      · exact hat h
    | agg i j =>
      dsimp only [FatTree.getAggNextHop] at h
      split at h
      · rename_i hedge
        rw [← hedge] at h
        split_ifs at h with harb
        · exact harbiter harb h
        · exact hat h
      · exact hat h
    | core i j => exact hat h
    | toArbiter => cases h

variable (N) in
/-- The network, with its counters as they start. The field `hop` of a packet is not read. -/
def spec (sprayCounter : FatQueue → ℕ) : NetworkSpec FatQueue where
  queues := N.queues
  queue _ := N.queue
  rate := N.rate
  propagationDelay q := N.delayAt (location q)
  hdrSize := N.hdrSize
  cutThrough := N.cutThrough
  hostQueue id := .host id
  sprayCounter := sprayCounter
  getNextHop c p q := (N.getNextHop c ⟨p, 0⟩ q).map fun r => (r.2.1, r.2.2)
  not_sns _ := N.not_sns
  rate_pos := rate_pos
  propagationDelay_nonneg _ := N.delayAt_nonneg _
  leads {c p q c' r} hq h := by
    obtain ⟨⟨p', c₁, hop⟩, hstep, heq⟩ := Option.map_eq_some_iff.1 h
    obtain ⟨rfl, rfl⟩ : c₁ = c' ∧ hop = some r := by simpa using heq
    exact mem_queues.2 (hasQueue_next (mem_queues.1 hq) hstep)

/-! ### From queue to queue -/

lemma goTo_some {p₀ p' : HopPacket} {c c' : ℕ} {r₀ hop : Option FatQueue}
    (h : FatTree.goTo p₀ c r₀ = some (p', c', hop)) : ∃ r, r₀ = some r ∧ hop = some r := by
  obtain ⟨r, hr, heq⟩ := Option.map_eq_some_iff.1 h
  obtain ⟨-, -, rfl⟩ : p₀ = p' ∧ c = c' ∧ some r = hop := by simpa using heq
  exact ⟨r, hr, rfl⟩

/-- **The next queue of a packet between two hosts** is one that a leg leads to. -/
lemma leg_of_next {choose : FatTree.Chooser}
    (hchoose : ∀ level s p, (choose level s p).2.2 < N.half) {c c' : ℕ} {p₀ p' : HopPacket}
    {hop : Option FatQueue} (hb : p₀.packet.dst < N.numHosts)
    (h : N.getNextHopWith choose c p₀ q = some (p', c', hop)) :
    N.Leg p₀.packet.src p₀.packet.dst q hop := by
  have hhalf := N.half_pos
  have hlt := N.shape.lt
  have hnot : ¬ N.IsArbiter p₀.packet.dst := FatTree.Shape.not_isArbiter hb
  have hmod : ∀ x, x % N.half < N.half := fun x => Nat.mod_lt x hhalf
  have hup : ∀ level s p, N.half ≤ add32 N.half (choose level s p).2.2 := fun level s p => by
    have := hchoose level s p
    rw [add32_eq (by omega)]
    exact Nat.le_add_right ..
  have hat : ∀ {p₁ : HopPacket} {s x i : ℕ},
      (FatTree.goTo p₁ s (N.queueAt x (.edge i)) = some (p', c', hop) → hop = some (.edge i x)) ∧
      (FatTree.goTo p₁ s (N.queueAt x (.agg i)) = some (p', c', hop) → hop = some (.agg i x)) ∧
      (FatTree.goTo p₁ s (N.queueAt x (.core i)) = some (p', c', hop) →
        hop = some (.core i x)) := by
    refine fun {p₁ s x i} => ⟨fun h => ?_, fun h => ?_, fun h => ?_⟩
    all_goals
      obtain ⟨r, hr, rfl⟩ := goTo_some h
      rw [(Option.ite_none_right_eq_some.1 hr).2]
  unfold FatTree.getNextHopWith at h
  rcases q with id | ⟨i, j⟩ | ⟨i, j⟩ | ⟨i, j⟩ | _
  · obtain ⟨i, hi⟩ : ∃ i, N.dst (.host id) = .edge i := by
      simp only [FatTree.dst]
      split_ifs <;> exact ⟨_, rfl⟩
    simp only [hi, FatTree.getHostNextHop, FatTree.setHop_packet, if_neg hnot] at h
    split_ifs at h with hsrc hrack
    · rw [hat.1 h]
      exact hsrc ▸ .rack hrack (hmod _)
    · rw [hat.1 h]
      exact hsrc ▸ .up hrack (hup ..)
  · obtain ⟨hj, id, hid⟩ | ⟨hj, n, hn⟩ := FatTree.dst_edge_cases (T := N.toFatTree) i j
    · rw [hid] at h
      rw [(FatTree.arrive_eq h).2.2]
      exact .down hj
    · simp only [hn, FatTree.getEdgeNextHop] at h
      split_ifs at h with hpod
      · rw [hat.2.1 h]
        exact .pod hpod (not_lt.1 hj) (hmod _)
      · rw [hat.2.1 h]
        exact .climb hpod (not_lt.1 hj) (hup ..)
  · by_cases hj : j < N.half
    · simp only [FatTree.getAggNextHop, FatTree.dst, if_pos hj, if_neg hnot] at h
      rw [hat.1 h]
      exact .descend hj (hmod _)
    · simp only [FatTree.getAggNextHop, FatTree.dst, if_neg hj] at h
      rw [hat.2.2 h]
      exact .spine (not_lt.1 hj)
  · rw [hat.2.1 h]
    exact .across (hmod _)
  · have hne : ¬ p₀.packet.dst = N.numHosts := hb.ne
    simp [FatTree.dst, FatTree.arrive, N.plain, hne] at h

lemma choosePort_lt (level : FatTree.Level) (s : ℕ) (p₀ : HopPacket) :
    (N.choosePort level s p₀).2.2 < N.half := by
  unfold FatTree.choosePort
  rw [N.plain]
  exact hashPort_lt p₀.packet N.half_pos fun _ => N.half_pos

lemma leg_of_spec {c c' : ℕ} {hop : Option FatQueue} {sc : FatQueue → ℕ} (hb : p.dst < N.numHosts)
    (h : (N.spec sc).getNextHop c p q = some (c', hop)) : N.Leg p.src p.dst q hop := by
  obtain ⟨⟨p', c₁, hop'⟩, hstep, heq⟩ := Option.map_eq_some_iff.1 h
  obtain ⟨-, rfl⟩ : c₁ = c' ∧ hop' = hop := by simpa using heq
  exact leg_of_next choosePort_lt hb hstep

/-! ### Every packet gets on -/

variable (N) in
/-- The places of a packet between two hosts. -/
def On (p : Packet) (q : FatQueue) : Prop :=
  p.src < N.numHosts ∧ p.dst < N.numHosts ∧
    ∃ l₁ < N.half, ∃ l₂ < N.half, q ∈ N.way N.half p.src p.dst l₁ l₂

variable (N) in
/-- How many legs may follow. -/
def rank : FatQueue → ℕ
  | .host _ => 5
  | .edge _ j => if j < N.half then 0 else 4
  | .agg _ j => if j < N.half then 1 else 3
  | .core _ _ => 2
  | .toArbiter => 0

lemma rank_lt {q' : FatQueue} (h : N.Leg a b q (some q')) : N.rank q' < N.rank q := by
  cases h with
  | rack _ hj => simp [rank, hj]
  | up _ hj | spine hj => simp [rank, not_lt.2 hj]
  | pod _ hj hj' => simp [rank, not_lt.2 hj, hj']
  | climb _ hj hj' => simp [rank, not_lt.2 hj, not_lt.2 hj']
  | across hj => simp [rank, hj]
  | descend hj hj' => simp [rank, hj, hj']

lemma host_mem_way {l₁ l₂ : ℕ} : .host a ∈ N.way N.half a b l₁ l₂ := by
  unfold FatTree.way
  split_ifs <;> exact List.mem_cons_self ..

lemma exists_chosen {l₁ l₂ : ℕ} (ha : p.src < N.numHosts) (hb : p.dst < N.numHosts)
    (h₁ : l₁ < N.half) (h₂ : l₂ < N.half) (hq : q ∈ N.way N.half p.src p.dst l₁ l₂) (c : ℕ) :
    ∃ l₁' < N.half, ∃ l₂' < N.half, q ∈ N.way N.half p.src p.dst l₁' l₂' ∧
      N.Chooses N.choosePort (FatTree.Shape.uplinks l₁' l₂') c ⟨p, 0⟩ q := by
  cases hasks : N.asks p.src p.dst q with
  | none => exact ⟨l₁, h₁, l₂, h₂, hq, fun level h => absurd (hasks.symm.trans h) (by simp)⟩
  | some level =>
    have hlt := choosePort_lt (N := N) level c (N.hopAt ⟨p, 0⟩ q)
    have hone : ∀ level' : FatTree.Level, N.asks p.src p.dst q = some level' → level = level' :=
      fun level' h => Option.some.inj (hasks.symm.trans h)
    cases level with
    | host =>
      obtain ⟨id, rfl⟩ : ∃ id, q = .host id := by
        cases q <;> simp [FatTree.asks] at hasks ⊢
      obtain rfl : id = p.src := by
        unfold FatTree.way at hq
        split_ifs at hq <;> simpa using hq
      exact ⟨_, hlt, l₂, h₂, host_mem_way, fun level' h => by rw [← hone level' h]; rfl⟩
    | edge =>
      obtain ⟨i, j, rfl, hj, hpod⟩ :
          ∃ i j, q = .edge i j ∧ ¬ j < N.half ∧ ¬ N.IsSamePod p.src p.dst := by
        rcases q with id | ⟨i, j⟩ | ⟨i, j⟩ | ⟨i, j⟩ | _
        · simp [FatTree.asks] at hasks
        · simp only [FatTree.asks] at hasks
          split_ifs at hasks with h
          exact ⟨i, j, rfl, not_or.1 h⟩
        all_goals simp [FatTree.asks] at hasks
      rw [N.shape.isSamePod_iff ha hb] at hpod
      have hrack : ¬ p.src / N.half = p.dst / N.half := fun h => hpod (by rw [h])
      have hmod : p.dst % N.half < N.half := Nat.mod_lt _ N.half_pos
      obtain ⟨rfl, rfl⟩ : i = p.src / N.half ∧ j = N.half + l₁ := by
        simp only [FatTree.way, if_neg hrack, if_neg hpod, List.mem_cons, List.not_mem_nil,
          reduceCtorEq, FatQueue.edge.injEq, false_or, or_false] at hq
        exact hq.resolve_right fun h => hj (h.2 ▸ hmod)
      refine ⟨l₁, h₁, _, hlt, ?_, fun level' h => by rw [← hone level' h]; rfl⟩
      simp [FatTree.way, hrack, hpod]

/-- **At each place of its way the packet gets on**, whatever the counter is. -/
lemma on_next {sc : FatQueue → ℕ} (h : N.On p q) (c : ℕ) :
    ∃ c' hop, (N.spec sc).getNextHop c p q = some (c', hop) ∧
      ∀ r ∈ hop, N.On p r ∧ N.rank r < N.rank q := by
  obtain ⟨ha, hb, l₁, h₁, l₂, h₂, hq⟩ := h
  obtain ⟨l₁, h₁, l₂, h₂, hq, hchooses⟩ := exists_chosen ha hb h₁ h₂ hq c
  have hchain := FatTree.chain_way N.shape ha hb (p := ⟨p, N.hops p.src p.dst⟩) rfl rfl rfl h₁ h₂
  have hset : ∀ p₀ : HopPacket, N.HopSet p₀ q := fun p₀ => .inr fun hkind =>
    absurd (hkind.symm.trans N.plain) (by simp)
  obtain ⟨hop, hroute, hmem⟩ := hchain.goes hq
  have hends : FatTree.SameEnds ⟨p, 0⟩ ⟨p, N.hops p.src p.dst⟩ := ⟨rfl, rfl⟩
  rw [← FatTree.map_getNextHopWith hends (hset _) (hset _) hchooses] at hroute
  obtain ⟨⟨p', c', hop'⟩, hstep, rfl⟩ := Option.map_eq_some_iff.1 hroute
  have hspec : (N.spec sc).getNextHop c p q = some (c', hop') :=
    Option.map_eq_some_iff.2 ⟨_, hstep, rfl⟩
  refine ⟨c', hop', hspec, fun r hr => ?_⟩
  obtain rfl : hop' = some r := hr
  exact ⟨⟨ha, hb, l₁, h₁, l₂, h₂, hmem r rfl⟩, rank_lt (leg_of_spec hb hspec)⟩

variable (N) in
/-- The ways of packets between hosts. -/
def routes (sc : FatQueue → ℕ) :
    Network.Routes (N.spec sc) fun p => p.src < N.numHosts ∧ p.dst < N.numHosts where
  On := N.On
  rank := N.rank
  start h := ⟨h.1, h.2, 0, N.half_pos, 0, N.half_pos, host_mem_way⟩
  goes := on_next

/-- **A fat tree that is left alone comes to rest**: from any reachable state, in whatever order the
events of one time are processed and whatever ports are chosen, and then each packet between hosts
that was put in has arrived or was dropped by a queue. -/
theorem comes_to_rest {sc : FatQueue → ℕ} {s t : Network FatQueue} (hfifo : N.queue.Fifo)
    (hlimit : N.queue.limitBytes < 2147483648) (hs : Reach (Network.machine (N.spec sc)) s)
    (hhosts : ∀ p ∈ s.injected, p.src < N.numHosts ∧ p.dst < N.numHosts)
    (hsize : ∀ p ∈ s.injected, Network.Sized p) {as : List NetworkAct}
    (has : ∀ a ∈ as, a.packets = []) (h : exec (Network.machine (N.spec sc)) s as = some t) :
    ∃ bs u, (∀ b ∈ bs, b.packets = []) ∧ exec (Network.machine (N.spec sc)) t bs = some u ∧
      as.length + bs.length ≤ s.work (N.spec sc) N.rank ∧ u.events.events = [] ∧
      (s.injected : Multiset Packet) = u.dropped (N.spec sc) + u.delivered :=
  Network.drains (N.routes sc) ⟨fun _ => hfifo, fun _ => hlimit⟩ hs
    (fun p hp => ⟨hhosts p hp, hsize p hp⟩) has h

def fourPorts : FatTreeNetwork where
  kind := .plain
  k := 4
  hasArbiter := false
  loadBalancing := 1
  queueType := 1
  bandwidth := 10000000000
  propagationDelay := 1 / 5000000
  ddc := false
  coreDiv2 := false
  cutThrough := false
  hdrSize := 40
  queue := ⟨.dropTail, 36864, true, 0⟩
  bandwidth_pos := exampleBandwidth_pos
  propagationDelay_nonneg := exampleDelay_nonneg
  not_sns := exampleQueue_not_sns
  plain := rfl
  even := by decide
  k_lt := by decide
  constructed := (FatTree.shape_of_cube_lt (h := 2) rfl two_pos (by decide)).constructed (by decide)
  hosts := by decide

/-- Two packets of a flow from the first pod to the last are put in. -/
def acrossPods : List NetworkAct :=
  [0, 1460].map fun seq => .inject 1
    { sendingTime := 1, flow := 0, seqNo := seq, size := 1500, src := 0, dst := 15 }

/-- Until the first packet is at a core switch. -/
def upToTheCore : List NetworkAct := [0, 1, 2, 3, 4, 7, 5, 6, 8, 9, 12].map (.process · false)

theorem comes_to_rest_fourPorts : ∃ s t,
    (Reach (Network.machine (fourPorts.spec fun _ => 0)) s ∧ s.injected.length = 2 ∧
      exec (Network.machine (fourPorts.spec fun _ => 0)) s upToTheCore = some t) ∧
    ∃ bs u, (∀ b ∈ bs, b.packets = []) ∧
      exec (Network.machine (fourPorts.spec fun _ => 0)) t bs = some u ∧
      upToTheCore.length + bs.length ≤ s.work (fourPorts.spec fun _ => 0) fourPorts.rank ∧
      u.events.events = [] ∧
      (s.injected : Multiset Packet) = u.dropped (fourPorts.spec fun _ => 0) + u.delivered := by
  obtain ⟨s, hs, ⟨hlength, hhosts, hsize⟩, hsome⟩ :
      ∃ s, Reach (Network.machine (fourPorts.spec fun _ => 0)) s ∧
        ((s.injected.length = 2 ∧ (∀ p ∈ s.injected, p.src < 16 ∧ p.dst < 16) ∧
          ∀ p ∈ s.injected, Network.Sized p) ∧
        (exec (Network.machine (fourPorts.spec fun _ => 0)) s upToTheCore).isSome = true) :=
    exists_reach_of_exec_any acrossPods (by decide +kernel)
  obtain ⟨t, ht⟩ := Option.isSome_iff_exists.1 hsome
  exact ⟨s, t, ⟨hs, hlength, ht⟩, comes_to_rest (.inl rfl) (by decide) hs hhosts hsize
    (by simp [upToTheCore, NetworkAct.packets]) ht⟩

/-! ### One way for a flow -/

/-- The port of the packets of a flow, where it does not depend on the counters. -/
def flowPort (N : FatTreeNetwork) (a b : HostId) (flow : FlowId) : ℕ :=
  match N.loadBalancing with
  | 1 => add32 (add32 a b) flow % N.half
  | _ => 0

/-- A packet of a flow from one host to another. -/
def OfFlow (a b : HostId) (flow : FlowId) (p : Packet) : Bool :=
  p.src = a ∧ p.dst = b ∧ p.flow = flow

variable {flow : FlowId}

lemma flowPort_lt : N.flowPort a b flow < N.half := by
  unfold flowPort
  split
  · exact Nat.mod_lt _ N.half_pos
  · exact N.half_pos

lemma hashPort_eq (hmode : N.loadBalancing ≠ 0) (s : ℕ) :
    hashPort N.loadBalancing N.half s 0 p = N.flowPort p.src p.dst p.flow := by
  unfold hashPort flowPort
  split <;> simp_all

lemma nodup_way (l₁ l₂ : ℕ) : (N.way N.half a b l₁ l₂).Nodup := by
  have hne : ∀ l x, ¬ N.half + l = x % N.half := fun l x heq =>
    absurd (heq ▸ Nat.mod_lt x N.half_pos) (Nat.le_add_right _ l).not_gt
  unfold FatTree.way
  split_ifs
  · simp
  · simp [hne]
  · simp [hne]

/-- A packet of a flow, as it is at the end of its way. -/
def pilot (N : FatTreeNetwork) (a b : HostId) (flow : FlowId) : HopPacket where
  packet := { sendingTime := 0, flow := flow, seqNo := 0, size := 0, src := a, dst := b }
  hop := N.hops a b

lemma oneWay {sc : FatQueue → ℕ} (hfifo : N.queue.Fifo) (ha : a < N.numHosts)
    (hb : b < N.numHosts) (hone : N.loadBalancing ≠ 0 ∨ N.IsSameRack a b) (flow : FlowId) :
    Network.OneWay (N.spec sc) (OfFlow a b flow)
      (N.route (FatTree.Shape.uplinks (N.flowPort a b flow) (N.flowPort a b flow))
        (N.pilot a b flow))
      (.host a) (N.way N.half a b (N.flowPort a b flow) (N.flowPort a b flow)) where
  chain := FatTree.chain_way N.shape ha hb rfl rfl rfl flowPort_lt flowPort_lt
  nodup := nodup_way ..
  start p hp := by
    obtain ⟨rfl, -, -⟩ := of_decide_eq_true hp
    rfl
  goes p hp q hq n n' hop hnext := by
    obtain ⟨rfl, rfl, rfl⟩ := of_decide_eq_true hp
    obtain ⟨⟨p', c', hop'⟩, hstep, heq⟩ := Option.map_eq_some_iff.1 hnext
    obtain ⟨-, rfl⟩ : c' = n' ∧ hop' = hop := by simpa using heq
    have hset : ∀ p₀ : HopPacket, N.HopSet p₀ q := fun p₀ => .inr fun hkind =>
      absurd (hkind.symm.trans N.plain) (by simp)
    have hends : FatTree.SameEnds ⟨p, 0⟩ (N.pilot p.src p.dst p.flow) := ⟨rfl, rfl⟩
    have hchooses : N.Chooses N.choosePort (FatTree.Shape.uplinks
        (N.flowPort p.src p.dst p.flow) (N.flowPort p.src p.dst p.flow)) n ⟨p, 0⟩ q := by
      intro level hasks
      rcases hone with hmode | hrack
      · have hport : (N.choosePort level n (N.hopAt ⟨p, 0⟩ q)).2.2 =
            hashPort N.loadBalancing N.half n 0 p := by
          unfold FatTree.choosePort
          rw [N.plain, FatTree.hopAt_packet]
        rw [hport, hashPort_eq hmode]
        cases level <;> rfl
      · have hpod : N.IsSamePod p.src p.dst := by
          rw [N.shape.isSamePod_iff ha hb, (N.shape.isSameRack_iff ha hb).1 hrack]
        cases q <;> simp [FatTree.asks, hrack, hpod] at hasks
    rw [← FatTree.map_getNextHopWith hends (hset _) (hset _) hchooses]
    exact congrArg (Option.map (·.2.2)) hstep
  fifo _ _ := hfifo

/-- **The packets of a flow stay in order**, if its ports do not depend on the counters: those that
have arrived did so in the order in which the queue of its host got them. -/
theorem delivers_in_order {sc : FatQueue → ℕ} {s : Network FatQueue} (hfifo : N.queue.Fifo)
    (ha : a < N.numHosts) (hb : b < N.numHosts)
    (hone : N.loadBalancing ≠ 0 ∨ N.IsSameRack a b) (flow : FlowId)
    (hs : Reach (Network.machine (N.spec sc)) s)
    (hsize : ∀ p ∈ s.injected, OfFlow a b flow p = true → 0 < p.size) :
    (s.delivered.filter (OfFlow a b flow)).Sublist
      ((s.queues (.host a)).arrived.filter (OfFlow a b flow)) :=
  (oneWay hfifo ha hb hone flow).in_order hs hsize

/-- Until both packets have arrived. -/
def toTheLastPod : List NetworkAct :=
  acrossPods ++ [0, 1, 2, 3, 4, 7, 5, 6, 8, 9, 12, 10, 11, 13, 14, 17, 15, 16, 18, 19, 22, 20, 21,
    23, 24, 27, 25, 26, 28, 29, 30, 31].map (.process · false)

theorem delivers_in_order_fourPorts :
    ∃ s, (Reach (Network.machine (fourPorts.spec fun _ => 0)) s ∧
      s.delivered.map (·.seqNo) = [0, 1460]) ∧
    (s.delivered.filter (OfFlow 0 15 0)).Sublist
      ((s.queues (.host 0)).arrived.filter (OfFlow 0 15 0)) := by
  obtain ⟨s, hs, hdelivered, hsize⟩ :
      ∃ s, Reach (Network.machine (fourPorts.spec fun _ => 0)) s ∧
        (s.delivered.map (·.seqNo) = [0, 1460] ∧ ∀ p ∈ s.injected, 0 < p.size) :=
    exists_reach_of_exec_any toTheLastPod (by decide +kernel)
  exact ⟨s, ⟨hs, hdelivered⟩, delivers_in_order (.inl rfl) (by decide) (by decide)
    (.inl (by decide)) 0 hs fun p hp _ => hsize p hp⟩

end FatTreeNetwork

end DcSim
