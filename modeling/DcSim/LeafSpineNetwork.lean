import DcSim.LeafSpinePath
import DcSim.Links
import DcSim.NetworkOrder
import Mathlib.Data.Finset.Prod

/-!
The leaf-spine topology as a network.

`LeafSpineTopology` gives the queues between hosts and aggregation switches the bandwidth of a host,
and those between aggregation and core switches what the hosts of a rack have between them, shared
by the core switches. With `ddc` the propagation delay is by the place of a queue. Packets between
hosts go down in rank from queue to queue, and where the port does not depend on the counter the
packets of a flow go one way.
-/

namespace DcSim

open Routing Runs Word32

structure LeafSpineNetwork extends PlainLeafSpine, LinkParams where
  osRatio : ℚ
  osRatio_pos : 0 < osRatio
  sized : toPlainLeafSpine.Sized
  even : toPlainLeafSpine.Even

inductive LeafSpine.Leg (T : LeafSpine) (a b : HostId) : LeafQueue → Option LeafQueue → Prop
  | rack {i j : ℕ} : T.IsSameRack a b → j < T.hostsPerAggSwitch →
      Leg T a b (.host a) (some (.agg i j))
  | up {i j : ℕ} : ¬ T.IsSameRack a b → T.hostsPerAggSwitch ≤ j →
      Leg T a b (.host a) (some (.agg i j))
  | spine {i j i' j' : ℕ} : T.hostsPerAggSwitch ≤ j → Leg T a b (.agg i j) (some (.core i' j'))
  | across {i j i' j' : ℕ} : j' < T.hostsPerAggSwitch → Leg T a b (.core i j) (some (.agg i' j'))
  | down {i j : ℕ} : j < T.hostsPerAggSwitch → Leg T a b (.agg i j) none

namespace LeafSpineNetwork

variable (N : LeafSpineNetwork)

/-- The bandwidth between aggregation and core switches. -/
def c2 : ℚ := N.hostsPerAggSwitch * N.osRatio * N.bandwidth / N.numCoreSwitches

def rate : PlainLeafQueue → ℚ
  | .leaf (.host _) => N.bandwidth
  | .leaf (.agg _ j) => if j < N.hostsPerAggSwitch then N.bandwidth else N.c2
  | .leaf (.core _ _) => N.c2
  | .toArbiter => N.bandwidth

/-- The argument `location` of a queue. -/
def location : PlainLeafQueue → ℕ
  | .leaf (.host _) => 0
  | .leaf (.agg _ j) => if j < N.hostsPerAggSwitch then 3 else 1
  | .leaf (.core _ _) => 2
  | .toArbiter => 3

def queues : Finset PlainLeafQueue :=
  insert .toArbiter
    (((Finset.range (N.numHosts + 1)).filter fun id => id < N.numHosts ∨ N.IsArbiter id).image
        (fun id => .leaf (.host id)) ∪
      (Finset.range N.numAggSwitches ×ˢ
        Finset.range (N.hostsPerAggSwitch + N.numCoreSwitches)).image
          (fun x => .leaf (.agg x.1 x.2)) ∪
      (Finset.range N.numCoreSwitches ×ˢ Finset.range N.numAggSwitches).image
        fun x => .leaf (.core x.1 x.2))

variable {N} {a b : HostId} {p : Packet} {q : PlainLeafQueue}

lemma mem_queues : q ∈ N.queues ↔ N.HasQueue q := by
  have hagg := N.sized.agg_pos
  unfold queues PlainLeafSpine.HasQueue
  rcases q with (id | ⟨i, j⟩ | ⟨i, j⟩) | _
  · have harb : N.IsArbiter id → id = N.numHosts := And.right
    simp only [Finset.mem_insert, Finset.mem_union, Finset.mem_image, Finset.mem_filter,
      Finset.mem_range, PlainLeafQueue.leaf.injEq, LeafQueue.host.injEq, exists_eq_right,
      reduceCtorEq, and_false, exists_false, or_false, false_or, and_iff_right_iff_imp]
    exact fun h => Nat.lt_succ_of_le (h.elim le_of_lt fun h => (harb h).le)
  · simp [LeafSpine.HasQueue]
  · simp [LeafSpine.HasQueue]
  · exact iff_of_true (Finset.mem_insert_self ..) hagg

lemma c2_pos : 0 < N.c2 := by
  have h₁ : (0 : ℚ) < N.hostsPerAggSwitch := Nat.cast_pos.2 N.sized.rack_pos
  have h₂ : (0 : ℚ) < N.numCoreSwitches := Nat.cast_pos.2 N.sized.core_pos
  exact div_pos (mul_pos (mul_pos h₁ N.osRatio_pos) N.bandwidth_pos) h₂

lemma rate_pos (q : PlainLeafQueue) : 0 < N.rate q := by
  unfold rate
  split
  · exact N.bandwidth_pos
  · split_ifs
    · exact N.bandwidth_pos
    · exact c2_pos
  · exact c2_pos
  · exact N.bandwidth_pos

/-! ### The next queue -/

lemma hasNode (hq : N.HasQueue q) (hne : ∀ id, N.dst q ≠ .host id) : N.HasNode (N.dst q) := by
  rcases q with (id | ⟨i, j⟩ | ⟨i, j⟩) | _
  · by_cases harb : N.IsArbiter id
    · simp only [PlainLeafSpine.dst, if_pos harb, LeafSpine.HasNode]
      exact N.sized.agg_pos
    · simp only [PlainLeafSpine.dst, if_neg harb]
      exact N.sized.wired_iff.2 N.even.dvd id (hq.resolve_right harb)
  · simp only [PlainLeafSpine.dst, LeafSpine.dst] at hne ⊢
    split_ifs at hne ⊢ with hj
    · exact absurd rfl (hne _)
    · exact (Nat.sub_lt_left_of_lt_add (not_lt.1 hj) hq.2 :)
  · exact hq.2
  · exact absurd rfl (hne _)

lemma hasQueue_queueAt {x : ℕ} {n : LeafNode} {r : LeafQueue} (hn : N.HasNode n)
    (h : N.queueAt x n = some r) : N.HasQueue (.leaf r) := by
  cases n with
  | host id => cases h
  | agg i | core i =>
    obtain ⟨hx, h⟩ := Option.ite_none_right_eq_some.1 h
    obtain rfl := Option.some.inj h
    exact ⟨hn, hx⟩

lemma hasQueue_queueFor {x : ℕ} {n : LeafNode} {r : PlainLeafQueue} (hn : N.HasNode n)
    (h : N.queueFor b x n = some r) : N.HasQueue r := by
  unfold PlainLeafSpine.queueFor at h
  split_ifs at h
  · unfold PlainLeafSpine.queueToArbiter at h
    split at h
    · obtain rfl := Option.some.inj h
      exact hn
    · cases h
  · obtain ⟨r, hr, rfl⟩ := Option.map_eq_some_iff.1 h
    exact hasQueue_queueAt hn hr

lemma hasQueue_inner {c c' : ℕ} {p' : Packet} {r : PlainLeafQueue} (hq : N.HasQueue q)
    (h : N.getNextHopInner c p q = some (p', c', some r)) : N.HasQueue r := by
  have hmap : ∀ {o : Option PlainLeafQueue} {p₁ : Packet} {c₁ : ℕ},
      (o.map fun r => (p₁, c₁, some r)) = some (p', c', some r) → o = some r := by
    intro o p₁ c₁ h
    obtain ⟨r', rfl, hr⟩ := Option.map_eq_some_iff.1 h
    obtain ⟨-, -, rfl⟩ : p₁ = p' ∧ c₁ = c' ∧ r' = r := by simpa using hr
    rfl
  have hmap' : ∀ {o : Option LeafQueue} {p₁ : Packet} {c₁ : ℕ},
      (o.map fun r => (p₁, c₁, some (.leaf r))) = some (p', c', some r) →
      ∃ r', o = some r' ∧ .leaf r' = r := by
    intro o p₁ c₁ h
    obtain ⟨r', rfl, hr⟩ := Option.map_eq_some_iff.1 h
    obtain ⟨-, -, rfl⟩ : p₁ = p' ∧ c₁ = c' ∧ .leaf r' = r := by simpa using hr
    exact ⟨r', rfl, rfl⟩
  unfold PlainLeafSpine.getNextHopInner at h
  cases hdst : N.dst q with
  | host id =>
    rw [hdst] at h
    simp at h
  | agg n | core n =>
    have hn : N.HasNode (N.dst q) := hasNode hq (by simp [hdst])
    rw [hdst] at h hn
    rcases q with (id | ⟨i, j⟩ | ⟨i, j⟩) | _
    · dsimp only at h
      split_ifs at h
      · exact hasQueue_queueFor hn (hmap h)
      · obtain ⟨r', hr', rfl⟩ := hmap' h
        exact hasQueue_queueAt hn hr'
    · obtain ⟨r', hr', rfl⟩ := hmap' h
      exact hasQueue_queueAt hn hr'
    · exact hasQueue_queueFor hn (hmap h)
    · cases h

lemma getNextHop_cases {c c' : ℕ} {p' : Packet} {hop : Option PlainLeafQueue}
    (h : N.getNextHop c p q = some (p', c', hop)) :
    ∃ c₁ p₁, N.getNextHopInner c₁ p₁ q = some (p', c', hop) := by
  unfold PlainLeafSpine.getNextHop at h
  split at h
  · exact ⟨_, _, h⟩
  · exact ⟨_, _, h⟩

variable (N) in
/-- The network, with its counters as they start. -/
def spec (sprayCounter : PlainLeafQueue → ℕ) : NetworkSpec PlainLeafQueue where
  queues := N.queues
  queue _ := N.queue
  rate := N.rate
  propagationDelay q := N.delayAt (N.location q)
  hdrSize := N.hdrSize
  cutThrough := N.cutThrough
  hostQueue id := .leaf (.host id)
  sprayCounter := sprayCounter
  getNextHop c p q := (N.getNextHop c p q).map fun r => (r.2.1, r.2.2)
  not_sns _ := N.not_sns
  rate_pos := rate_pos
  propagationDelay_nonneg _ := N.delayAt_nonneg _
  leads {c p q c' r} hq h := by
    obtain ⟨⟨p', c₁, hop⟩, hstep, heq⟩ := Option.map_eq_some_iff.1 h
    obtain ⟨rfl, rfl⟩ : c₁ = c' ∧ hop = some r := by simpa using heq
    obtain ⟨c₂, p₂, hinner⟩ := getNextHop_cases hstep
    exact mem_queues.2 (hasQueue_inner (mem_queues.1 hq) hinner)

/-! ### From queue to queue -/

lemma leg_of_route {port : ℕ} {q : LeafQueue} {r : Option LeafQueue} (ha : a < N.numHosts)
    (hb : b < N.numHosts) (hport : port < N.numCoreSwitches)
    (h : N.toLeafSpine.route port a b q = some r) : N.toLeafSpine.Leg a b q r := by
  have hmod : b % N.hostsPerAggSwitch < N.hostsPerAggSwitch := Nat.mod_lt b N.sized.rack_pos
  have hat : ∀ {x i : ℕ}, (N.queueAt x (.agg i)).map some = some r → r = some (.agg i x) := by
    intro x i h
    obtain ⟨r', hr', rfl⟩ := Option.map_eq_some_iff.1 h
    exact (Option.ite_none_right_eq_some.1 hr').2.symm
  unfold LeafSpine.route at h
  rcases q with id | ⟨i, j⟩ | ⟨i, j⟩
  · dsimp only [LeafSpine.dst] at h
    split_ifs at h with hid hrack hcore
    · obtain rfl := hat h
      exact hid ▸ .rack hrack hmod
    · obtain rfl := hat h
      have hfit := (N.even.fits N.sized ha hb).resolve_left hrack
      rw [add32_eq (by omega)]
      exact hid ▸ .up hrack (Nat.le_add_right ..)
  · by_cases hj : j < N.hostsPerAggSwitch
    · simp only [LeafSpine.dst, if_pos hj] at h
      obtain ⟨-, rfl⟩ : _ ∧ none = r := by simpa using h
      exact .down hj
    · simp only [LeafSpine.dst, if_neg hj] at h
      obtain ⟨r', hr', rfl⟩ := Option.map_eq_some_iff.1 h
      obtain ⟨-, rfl⟩ : _ ∧ LeafQueue.core _ _ = r' := by simpa [LeafSpine.queueAt] using hr'
      exact .spine (not_lt.1 hj)
  · dsimp only [LeafSpine.dst] at h
    obtain rfl := hat h
    exact .across hmod

lemma mode_ne (N : LeafSpineNetwork) : N.mode ≠ 3 := by
  unfold PlainLeafSpine.mode
  split_ifs with h3
  · decide
  · exact h3

lemma route_of_next {c c' : ℕ} {hop : Option PlainLeafQueue} {sc : PlainLeafQueue → ℕ}
    (ha : p.src < N.numHosts) (hb : p.dst < N.numHosts)
    (h : (N.spec sc).getNextHop c p q = some (c', hop)) :
    ∃ l r s, q = .leaf l ∧ hop = r.map .leaf ∧
      N.toLeafSpine.route (hashPort N.mode N.numCoreSwitches s 0 p) p.src p.dst l = some r := by
  obtain ⟨⟨p', c₁, hop'⟩, hstep, heq⟩ := Option.map_eq_some_iff.1 h
  obtain ⟨-, rfl⟩ : c₁ = c' ∧ hop' = hop := by simpa using heq
  cases q with
  | toArbiter =>
    have hnone : ∀ c, N.getNextHopInner c p .toArbiter = none := fun c => if_neg hb.ne
    simp [PlainLeafSpine.getNextHop, hnone] at hstep
  | leaf l =>
    rw [PlainLeafSpine.getNextHop_leaf (PlainLeafSpine.not_isArbiter ha)
      (PlainLeafSpine.not_isArbiter hb)] at hstep
    obtain ⟨⟨p₁, c₂, r⟩, hnext, heq⟩ := Option.map_eq_some_iff.1 hstep
    obtain ⟨-, -, rfl⟩ : p = p' ∧ c₂ = c₁ ∧ r.map .leaf = hop' := by simpa using heq
    obtain ⟨s, p₂, hinner, hp₂⟩ := LeafSpine.getNextHop_cases hnext
    have hp₂ : p₂ = PlainLeafSpine.plain p := hp₂.elim id And.right
    subst hp₂
    exact ⟨l, r, s, rfl, rfl, (LeafSpine.getNextHopInner_cases hinner).1⟩

/-! ### Every packet gets on -/

variable (N) in
/-- The places of a packet between two hosts. -/
def On (p : Packet) (q : PlainLeafQueue) : Prop :=
  p.src < N.numHosts ∧ p.dst < N.numHosts ∧
    ∃ port < N.numCoreSwitches, ∃ l ∈ N.way port p.src p.dst, q = .leaf l

variable (N) in
/-- How many legs may follow. -/
def rank : PlainLeafQueue → ℕ
  | .leaf (.host _) => 3
  | .leaf (.agg _ j) => if j < N.hostsPerAggSwitch then 0 else 2
  | .leaf (.core _ _) => 1
  | .toArbiter => 0

lemma rank_lt {l r : LeafQueue} (h : N.toLeafSpine.Leg a b l (some r)) :
    N.rank (.leaf r) < N.rank (.leaf l) := by
  cases h with
  | rack _ hj | across hj => simp [rank, hj]
  | up _ hj | spine hj => simp [rank, not_lt.2 hj]

lemma host_mem_way (port : ℕ) (a b : HostId) : .host a ∈ N.way port a b := by
  unfold LeafSpine.way
  split_ifs <;> exact List.mem_cons_self ..

lemma eq_of_host_mem {port : ℕ} {id : HostId} (h : .host id ∈ N.way port a b) : id = a := by
  unfold LeafSpine.way LeafSpine.spine at h
  split_ifs at h <;> simpa using h

/-- **At each place of its way the packet gets on**, whatever the counter is. -/
lemma on_next {sc : PlainLeafQueue → ℕ} (h : N.On p q) (c : ℕ) :
    ∃ c' hop, (N.spec sc).getNextHop c p q = some (c', hop) ∧
      ∀ r ∈ hop, N.On p r ∧ N.rank r < N.rank q := by
  obtain ⟨ha, hb, port, hport, l, hl, rfl⟩ := h
  have hstep : ∃ p₁ c' r, N.toLeafSpine.getNextHop c (PlainLeafSpine.plain p) l = some (p₁, c', r) ∧
      ∀ r' ∈ r, ∃ port' < N.numCoreSwitches, r' ∈ N.way port' p.src p.dst := by
    by_cases hasks : N.toLeafSpine.Asks p.src p.dst l
    · obtain ⟨⟨id, rfl⟩, hrack⟩ := hasks
      obtain rfl := eq_of_host_mem hl
      have hfit := (N.even.fits N.sized ha hb).resolve_left hrack
      obtain ⟨port', hport', c', p', -, -, hnext⟩ := LeafSpine.getNextHop_uplink
        (p := PlainLeafSpine.plain p) N.sized hfit (fun h => absurd rfl h) hrack c
      refine ⟨p', c', _, hnext, fun r' hr' => ⟨port', hport', ?_⟩⟩
      obtain rfl := Option.some.inj hr'
      unfold LeafSpine.way LeafSpine.spine
      rw [if_neg hrack]
      exact List.mem_cons_of_mem _ (List.mem_cons_self ..)
    · have hchain := LeafSpine.chain_way N.sized N.even.dvd p.src hb hport
        (N.even.fits N.sized ha hb)
      obtain ⟨r, hroute, hmem⟩ := hchain.goes hl
      obtain ⟨c', hnext⟩ := LeafSpine.getNextHop_of_route (p := PlainLeafSpine.plain p) hasks
        hroute c
      exact ⟨_, c', r, hnext, fun r' hr' => ⟨port, hport, hmem r' hr'⟩⟩
  obtain ⟨p₁, c', r, hnext, hmem⟩ := hstep
  have hspec : (N.spec sc).getNextHop c p (.leaf l) = some (c', r.map .leaf) := by
    change (N.getNextHop c p (.leaf l)).map _ = _
    rw [PlainLeafSpine.getNextHop_leaf (PlainLeafSpine.not_isArbiter ha)
      (PlainLeafSpine.not_isArbiter hb), hnext]
    rfl
  refine ⟨c', _, hspec, fun r' hr' => ?_⟩
  obtain ⟨r', rfl, rfl⟩ := Option.map_eq_some_iff.1 hr'
  obtain ⟨port', hport', hway⟩ := hmem r' rfl
  obtain ⟨l', r₁, s, hl', hr₁, hroute⟩ := route_of_next ha hb hspec
  obtain rfl := PlainLeafQueue.leaf.inj hl'
  have hleaf : r₁ = some r' := by
    cases r₁ with
    | none => cases hr₁
    | some r₁ => exact congrArg some (PlainLeafQueue.leaf.inj (Option.some.inj hr₁)).symm
  subst hleaf
  exact ⟨⟨ha, hb, port', hport', r', hway, rfl⟩, rank_lt (leg_of_route ha hb
    (hashPort_lt p N.sized.core_pos fun h => absurd h N.mode_ne) hroute)⟩

variable (N) in
/-- The ways of packets between hosts. -/
def routes (sc : PlainLeafQueue → ℕ) :
    Network.Routes (N.spec sc) fun p => p.src < N.numHosts ∧ p.dst < N.numHosts where
  On := N.On
  rank := N.rank
  start h := ⟨h.1, h.2, 0, N.sized.core_pos, _, host_mem_way 0 _ _, rfl⟩
  goes := on_next

/-- **A leaf-spine network that is left alone comes to rest**: from any reachable state, in whatever
order the events of one time are processed, and then each packet between hosts that was put in has
arrived or was dropped by a queue. -/
theorem settles {sc : PlainLeafQueue → ℕ} {s t : Network PlainLeafQueue} (hfifo : N.queue.Fifo)
    (hlimit : N.queue.limitBytes < 2147483648) (hs : Reach (Network.machine (N.spec sc)) s)
    (hhosts : ∀ p ∈ s.injected, p.src < N.numHosts ∧ p.dst < N.numHosts)
    (hsize : ∀ p ∈ s.injected, Network.Sized p) {as : List NetworkAct}
    (has : ∀ a ∈ as, a.packets = []) (h : exec (Network.machine (N.spec sc)) s as = some t) :
    ∃ bs u, (∀ b ∈ bs, b.packets = []) ∧ exec (Network.machine (N.spec sc)) t bs = some u ∧
      as.length + bs.length ≤ s.work (N.spec sc) N.rank ∧ u.events.events = [] ∧
      (s.injected : Multiset Packet) = u.dropped (N.spec sc) + u.delivered :=
  Network.drains (N.routes sc) ⟨fun _ => hfifo, fun _ => hlimit⟩ hs
    (fun p hp => ⟨hhosts p hp, hsize p hp⟩) has h

def twoRacks : LeafSpineNetwork where
  numHosts := 2
  numAggSwitches := 2
  numCoreSwitches := 1
  loadBalancing := 1
  hasArbiter := false
  bandwidth := 10000000000
  osRatio := 1
  propagationDelay := 1 / 5000000
  ddc := false
  coreDiv2 := false
  cutThrough := false
  hdrSize := 40
  queue := ⟨.dropTail, 36864, true, 0⟩
  bandwidth_pos := exampleBandwidth_pos
  osRatio_pos := by norm_num
  propagationDelay_nonneg := exampleDelay_nonneg
  not_sns := exampleQueue_not_sns
  sized := ⟨by decide, by decide, by decide, by decide, by decide⟩
  even := ⟨by decide, .inr (by decide)⟩

def twoPackets : List NetworkAct :=
  [0, 1460].map fun seq => .inject 1
    { sendingTime := 1, flow := 0, seqNo := seq, size := 1500, src := 0, dst := 1 }

/-- Until the first packet is at the core switch. -/
def toTheCore : List NetworkAct := [0, 1, 2, 3, 4, 7, 5, 6, 8].map (.process · false)

theorem settles_twoRacks : ∃ s t, (Reach (Network.machine (twoRacks.spec fun _ => 0)) s ∧
      s.injected.length = 2 ∧
      exec (Network.machine (twoRacks.spec fun _ => 0)) s toTheCore = some t) ∧
    ∃ bs u, (∀ b ∈ bs, b.packets = []) ∧
      exec (Network.machine (twoRacks.spec fun _ => 0)) t bs = some u ∧
      toTheCore.length + bs.length ≤ s.work (twoRacks.spec fun _ => 0) twoRacks.rank ∧
      u.events.events = [] ∧
      (s.injected : Multiset Packet) = u.dropped (twoRacks.spec fun _ => 0) + u.delivered := by
  obtain ⟨s, hs, ⟨hlength, hhosts, hsize⟩, hsome⟩ :
      ∃ s, Reach (Network.machine (twoRacks.spec fun _ => 0)) s ∧
        ((s.injected.length = 2 ∧ (∀ p ∈ s.injected, p.src < 2 ∧ p.dst < 2) ∧
          ∀ p ∈ s.injected, Network.Sized p) ∧
        (exec (Network.machine (twoRacks.spec fun _ => 0)) s toTheCore).isSome = true) :=
    exists_reach_of_exec_any twoPackets (by decide +kernel)
  obtain ⟨t, ht⟩ := Option.isSome_iff_exists.1 hsome
  exact ⟨s, t, ⟨hs, hlength, ht⟩, settles (.inl rfl) (by decide) hs hhosts hsize
    (by simp [toTheCore, NetworkAct.packets]) ht⟩

/-! ### One way for a flow -/

/-- The port of the packets of a flow, where it does not depend on the counter. -/
def flowPort (N : LeafSpineNetwork) (a b : HostId) (flow : FlowId) : ℕ :=
  match N.mode with
  | 1 => add32 (add32 a b) flow % N.numCoreSwitches
  | _ => 0

/-- A packet of a flow from one host to another. -/
def OfFlow (a b : HostId) (flow : FlowId) (p : Packet) : Bool :=
  p.src = a ∧ p.dst = b ∧ p.flow = flow

variable {flow : FlowId}

lemma flowPort_lt : N.flowPort a b flow < N.numCoreSwitches := by
  unfold flowPort
  split
  · exact Nat.mod_lt _ N.sized.core_pos
  · exact N.sized.core_pos

lemma hashPort_eq (hmode : N.mode ≠ 0) (s : ℕ) :
    hashPort N.mode N.numCoreSwitches s 0 p = N.flowPort p.src p.dst p.flow := by
  have h3 := N.mode_ne
  unfold hashPort flowPort
  split <;> simp_all

lemma nodup_way (port : ℕ) (a b : HostId) : (N.way port a b).Nodup := by
  have hmod : b % N.hostsPerAggSwitch < N.hostsPerAggSwitch := Nat.mod_lt b N.sized.rack_pos
  unfold LeafSpine.way LeafSpine.spine
  split_ifs
  · simp
  · have hne : ¬ N.hostsPerAggSwitch + port = b % N.hostsPerAggSwitch := fun heq =>
      absurd (heq ▸ hmod) (Nat.le_add_right _ port).not_gt
    simp [hne]

lemma oneWay {sc : PlainLeafQueue → ℕ} (hfifo : N.queue.Fifo) (ha : a < N.numHosts)
    (hb : b < N.numHosts) (hone : N.mode ≠ 0 ∨ N.toLeafSpine.IsSameRack a b) (flow : FlowId) :
    Network.OneWay (N.spec sc) (OfFlow a b flow)
      (N.toPlainLeafSpine.route (N.flowPort a b flow) a b)
      (.leaf (.host a)) ((N.way (N.flowPort a b flow) a b).map .leaf) where
  chain := (chain_map_iff (PlainLeafSpine.route_leaf (PlainLeafSpine.not_isArbiter ha)
    (PlainLeafSpine.not_isArbiter hb))).2 ⟨_, rfl, LeafSpine.chain_way N.sized N.even.dvd a hb
      flowPort_lt (N.even.fits N.sized ha hb)⟩
  nodup := (nodup_way _ a b).map fun _ _ h => PlainLeafQueue.leaf.inj h
  start p hp := by
    obtain ⟨rfl, -, -⟩ := of_decide_eq_true hp
    rfl
  goes p hp q hq n n' hop hnext := by
    obtain ⟨rfl, rfl, rfl⟩ := of_decide_eq_true hp
    obtain ⟨l, r, s, rfl, rfl, hroute⟩ := route_of_next ha hb hnext
    rw [PlainLeafSpine.route_leaf (PlainLeafSpine.not_isArbiter ha)
      (PlainLeafSpine.not_isArbiter hb)]
    have hport : N.toLeafSpine.route (N.flowPort p.src p.dst p.flow) p.src p.dst l = some r := by
      rcases hone with hmode | hrack
      · rwa [hashPort_eq hmode] at hroute
      · rwa [LeafSpine.route_congr (N.flowPort p.src p.dst p.flow)
          fun hasks => hasks.2 hrack] at hroute
    rw [hport]
    rfl
  fifo _ _ := hfifo

/-- **The packets of a flow stay in order**, if its port does not depend on the counter: those that
have arrived did so in the order in which the queue of its host got them. -/
theorem keeps_order {sc : PlainLeafQueue → ℕ} {s : Network PlainLeafQueue} (hfifo : N.queue.Fifo)
    (ha : a < N.numHosts) (hb : b < N.numHosts)
    (hone : N.mode ≠ 0 ∨ N.toLeafSpine.IsSameRack a b) (flow : FlowId)
    (hs : Reach (Network.machine (N.spec sc)) s)
    (hsize : ∀ p ∈ s.injected, OfFlow a b flow p = true → 0 < p.size) :
    (s.delivered.filter (OfFlow a b flow)).Sublist
      ((s.queues (.leaf (.host a))).arrived.filter (OfFlow a b flow)) :=
  (oneWay hfifo ha hb hone flow).in_order hs hsize

/-- Until both packets have arrived. -/
def toTheHost : List NetworkAct :=
  twoPackets ++ [0, 1, 2, 3, 4, 7, 5, 6, 8, 9, 12, 10, 11, 13, 14, 17, 15, 16, 18, 19, 20, 21].map
    (.process · false)

theorem keeps_order_twoRacks : ∃ s, (Reach (Network.machine (twoRacks.spec fun _ => 0)) s ∧
      s.delivered.map (·.seqNo) = [0, 1460]) ∧
    (s.delivered.filter (OfFlow 0 1 0)).Sublist
      ((s.queues (.leaf (.host 0))).arrived.filter (OfFlow 0 1 0)) := by
  obtain ⟨s, hs, hdelivered, hsize⟩ :
      ∃ s, Reach (Network.machine (twoRacks.spec fun _ => 0)) s ∧
        (s.delivered.map (·.seqNo) = [0, 1460] ∧ ∀ p ∈ s.injected, 0 < p.size) :=
    exists_reach_of_exec_any toTheHost (by decide +kernel)
  exact ⟨s, ⟨hs, hdelivered⟩, keeps_order (.inl rfl) (by decide) (by decide) (.inl (by decide)) 0 hs
    fun p hp _ => hsize p hp⟩

end LeafSpineNetwork

end DcSim
