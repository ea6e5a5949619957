import DcSim.Routing
import DcSim.UplinkPort

/-!
The fat trees: `SnsFatTreeTopology` and `FatTreeTopology`.

A fat tree of `k` ports has hosts and edge, aggregation and core switches, and each has queues
that lead to one node. The constructor gives the destination of each queue by a formula, in
unsigned 32-bit arithmetic. The two classes have the same edge layer, but other formulas between
the aggregation and the core switches; the second can also have an arbiter, a host with the
next id, at edge switch `0`.

The field `hop` of a packet, which nothing else reads, is kept beside the packet.
-/

namespace DcSim

open Routing Word32

inductive FatTreeKind | sns | plain
  deriving DecidableEq

structure FatTree where
  kind : FatTreeKind
  k : ℕ
  hasArbiter : Bool
  loadBalancing : ℕ
  queueType : ℕ

def snsFatTreeTopology (k loadBalancing queueType : ℕ) : FatTree :=
  ⟨.sns, k, false, loadBalancing, queueType⟩

def fatTreeTopology (k : ℕ) (hasArbiter : Bool) (loadBalancing queueType : ℕ) : FatTree :=
  ⟨.plain, k, hasArbiter, loadBalancing, queueType⟩

inductive FatNode
  | host (id : HostId)
  | edge (i : ℕ)
  | agg (i : ℕ)
  | core (i : ℕ)
  deriving DecidableEq

/-- The queue of a host, the `j`-th queue of a switch, and `queue_to_arbiter`. -/
inductive FatQueue
  | host (id : HostId)
  | edge (i j : ℕ)
  | agg (i j : ℕ)
  | core (i j : ℕ)
  | toArbiter
  deriving DecidableEq

structure HopPacket where
  packet : Packet
  hop : ℕ
  deriving DecidableEq

namespace FatTree

variable (T : FatTree)

/-! ### The constructor -/

/-- `k / 2` -/
def half : ℕ := T.k / 2

def numHosts : ℕ := mul32 (mul32 T.k T.k) T.k / 4

def numEdgeSwitches : ℕ := mul32 T.k T.k / 2

def numAggSwitches : ℕ := mul32 T.k T.k / 2

def numCoreSwitches : ℕ := mul32 T.k T.k / 4

def IsArbiter (id : HostId) : Prop := T.hasArbiter = true ∧ id = T.numHosts

instance (id : HostId) : Decidable (T.IsArbiter id) := by unfold IsArbiter; infer_instance

/-- The core switch of uplink `j` of aggregation switch `i`. -/
def coreIdx (i j : ℕ) : ℕ :=
  match T.kind with
  | .sns => add32 (mul32 j T.k / 2) (i % T.half) % T.numCoreSwitches
  | .plain => add32 j (mul32 (i % T.half) T.half) % T.numCoreSwitches

/-- The aggregation switch of queue `j` of core switch `i`. -/
def aggIdx (i j : ℕ) : ℕ :=
  match T.kind with
  | .sns => add32 (mul32 T.half j) (i % T.half) % T.numAggSwitches
  | .plain => add32 (mul32 T.half j) (i / T.half) % T.numAggSwitches

/-- The node `j` of the pod of switch `i`, on the other layer of the pod. -/
def podIdx (i j : ℕ) : ℕ := add32 (mul32 (i / T.half) T.k / 2) j

/-- The field `dst` of a queue. -/
def dst : FatQueue → FatNode
  | .host id => if T.IsArbiter id then .edge 0 else .edge (mul32 id 2 / T.k)
  | .edge i j =>
    if j < T.half then .host (add32 (mul32 i T.k / 2) j) else .agg (T.podIdx i (j - T.half))
  | .agg i j => if j < T.half then .edge (T.podIdx i j) else .core (T.coreIdx i (j - T.half))
  | .core i j => .agg (T.aggIdx i j)
  | .toArbiter => .host T.numHosts

def HasNode : FatNode → Prop
  | .host id => id < T.numHosts ∨ T.IsArbiter id
  | .edge i => i < T.numEdgeSwitches
  | .agg i => i < T.numAggSwitches
  | .core i => i < T.numCoreSwitches

def HasQueue : FatQueue → Prop
  | .host id => id < T.numHosts ∨ T.IsArbiter id
  | .edge i j => i < T.numEdgeSwitches ∧ j < T.k
  | .agg i j => i < T.numAggSwitches ∧ j < T.k
  | .core i j => i < T.numCoreSwitches ∧ j < T.k
  | .toArbiter => T.hasArbiter = true

/-- The constructor only indexes hosts and switches that it has made. -/
def Constructed : Prop := ∀ q, T.HasQueue q → T.HasNode (T.dst q)

/-! ### Racks and pods -/

def IsSameRack (a b : HostId) : Prop :=
  if T.IsArbiter a ∨ T.IsArbiter b then
    (T.IsArbiter a ∧ T.IsArbiter b) ∨ (T.IsArbiter a ∧ b / T.half = 0) ∨
      (T.IsArbiter b ∧ a / T.half = 0)
  else a / T.half = b / T.half

def podSize : ℕ := mul32 T.k T.k / 4

def IsSamePod (a b : HostId) : Prop :=
  if T.IsArbiter a ∨ T.IsArbiter b then
    (T.IsArbiter a ∧ T.IsArbiter b) ∨ (T.IsArbiter a ∧ b / T.podSize = 0) ∨
      (T.IsArbiter b ∧ a / T.podSize = 0)
  else a / T.podSize = b / T.podSize

instance (a b : HostId) : Decidable (T.IsSameRack a b) := by unfold IsSameRack; infer_instance
instance (a b : HostId) : Decidable (T.IsSamePod a b) := by unfold IsSamePod; infer_instance

def getRackNum (a : HostId) : ℕ := if T.IsArbiter a then 0 else a / T.half

def getPodNum (a : HostId) : ℕ := if T.IsArbiter a then 0 else a / T.podSize

/-- The hops between two hosts. -/
def hops (a b : HostId) : ℕ := if T.IsSameRack a b then 2 else if T.IsSamePod a b then 4 else 6

/-! ### The next hop -/

/-- Where a port is chosen. -/
inductive Level | host | edge
  deriving DecidableEq

/-- The choice of a port: the packet and the counter after it, and the port. -/
abbrev Chooser := Level → ℕ → HopPacket → HopPacket × ℕ × ℕ

/-- The port of an uplink, as the class chooses it. -/
def choosePort : Chooser := fun level sprayCounter p =>
  let saved := match level with
    | .host => p.packet.savedHashPort
    | .edge => p.packet.savedHashPortL2
  match T.kind with
  | .sns =>
    let port := hashPort T.loadBalancing T.half sprayCounter (ofInt32 saved) p.packet
    let r := savePort (p.packet.snsType = .sim) (p.packet.snsType = .data) saved port
    let packet := match level with
      | .host => { p.packet with savedHashPort := r.1 }
      | .edge => { p.packet with savedHashPortL2 := r.1 }
    ({ p with packet := packet }, nextSpray T.loadBalancing sprayCounter, r.2)
  | .plain =>
    (p, nextSpray T.loadBalancing sprayCounter,
      hashPort T.loadBalancing T.half sprayCounter 0 p.packet)

def queueAt (x : ℕ) : FatNode → Option FatQueue
  | .host _ => none
  | .edge i => if x < T.k then some (.edge i x) else none
  | .agg i => if x < T.k then some (.agg i x) else none
  | .core i => if x < T.k then some (.core i x) else none

/-- The packet goes on to a queue. -/
def goTo (p : HopPacket) (sprayCounter : ℕ) (r : Option FatQueue) :
    Option (HopPacket × ℕ × Option FatQueue) :=
  r.map fun r => (p, sprayCounter, some r)

/-- The packet goes on to `queue_to_arbiter` of a switch, which only edge switch `0` has. -/
def goToArbiter (p : HopPacket) (sprayCounter : ℕ) (n : FatNode) :
    Option (HopPacket × ℕ × Option FatQueue) :=
  some (p, sprayCounter, if n = .edge 0 then some .toArbiter else none)

/-- A packet takes an uplink of the next switch. -/
def goUp (choose : Chooser) (level : Level) (sprayCounter : ℕ) (p : HopPacket) (n : FatNode) :
    Option (HopPacket × ℕ × Option FatQueue) :=
  let r := choose level sprayCounter p
  goTo r.1 r.2.1 (T.queueAt (add32 T.half r.2.2) n)

/-- `hop` is set at the host; the second class leaves it alone with the queues of pFabric,
which count it themselves. -/
def setHop (p : HopPacket) : HopPacket :=
  if T.kind = .plain ∧ T.queueType = 2 then p
  else { p with hop := T.hops p.packet.src p.packet.dst }

def getHostNextHop (choose : Chooser) (sprayCounter : ℕ) (p : HopPacket) (id : HostId) :
    Option (HopPacket × ℕ × Option FatQueue) :=
  if p.packet.src = id then
    let p := T.setHop p
    if T.IsSameRack p.packet.src p.packet.dst then
      if T.IsArbiter p.packet.dst then goToArbiter p sprayCounter (T.dst (.host id))
      else goTo p sprayCounter (T.queueAt (p.packet.dst % T.half) (T.dst (.host id)))
    else T.goUp choose .host sprayCounter p (T.dst (.host id))
  else none

def getEdgeNextHop (choose : Chooser) (sprayCounter : ℕ) (p : HopPacket) (i j : ℕ) :
    Option (HopPacket × ℕ × Option FatQueue) :=
  if T.IsSamePod p.packet.src p.packet.dst then
    goTo p sprayCounter (T.queueAt (T.getRackNum p.packet.dst % T.half) (T.dst (.edge i j)))
  else T.goUp choose .edge sprayCounter p (T.dst (.edge i j))

def getAggNextHop (sprayCounter : ℕ) (p : HopPacket) (i j : ℕ) :
    Option (HopPacket × ℕ × Option FatQueue) :=
  match T.dst (.agg i j) with
  | .edge e =>
    if T.IsArbiter p.packet.dst then goToArbiter p sprayCounter (.edge e)
    else goTo p sprayCounter (T.queueAt (p.packet.dst % T.half) (.edge e))
  | n => goTo p sprayCounter (T.queueAt (T.getPodNum p.packet.dst) n)

def getCoreNextHop (sprayCounter : ℕ) (p : HopPacket) (i j : ℕ) :
    Option (HopPacket × ℕ × Option FatQueue) :=
  goTo p sprayCounter (T.queueAt (T.getRackNum p.packet.dst % T.half) (T.dst (.core i j)))

/-- The end of the way. The first class takes a packet at a wrong host out, and asserts that
the packet made as many hops as it should; the second asserts that the host is right. -/
def arrive (sprayCounter : ℕ) (p : HopPacket) (id : HostId) :
    Option (HopPacket × ℕ × Option FatQueue) :=
  match T.kind with
  | .sns =>
    if p.packet.dst = id then
      if p.hop = T.hops p.packet.src p.packet.dst then some (p, sprayCounter, none) else none
    else some (p, sprayCounter, none)
  | .plain => if p.packet.dst = id then some (p, sprayCounter, none) else none

/-- `get_next_hop`, with any way to choose a port. -/
def getNextHopWith (choose : Chooser) : Router HopPacket FatQueue := fun sprayCounter p q =>
  match T.dst q with
  | .host id => T.arrive sprayCounter p id
  | _ =>
    match q with
    | .host id => T.getHostNextHop choose sprayCounter p id
    | .edge i j => T.getEdgeNextHop choose sprayCounter p i j
    | .agg i j => T.getAggNextHop sprayCounter p i j
    | .core i j => T.getCoreNextHop sprayCounter p i j
    | .toArbiter => none

def getNextHop : Router HopPacket FatQueue := T.getNextHopWith T.choosePort

/-! ### The ports decide -/

def fixedPorts (ports : Level → ℕ) : Chooser := fun level sprayCounter p =>
  (p, sprayCounter, ports level)

/-- The next queue of a packet with fixed ports. -/
def route (ports : Level → ℕ) (p : HopPacket) (q : FatQueue) : Option (Option FatQueue) :=
  (T.getNextHopWith (fixedPorts ports) 0 p q).map (·.2.2)

def SameEnds (p p₀ : HopPacket) : Prop :=
  p.packet.src = p₀.packet.src ∧ p.packet.dst = p₀.packet.dst

/-- `hop` is right where it is read. -/
def HopSet (p : HopPacket) (q : FatQueue) : Prop :=
  (∃ id, q = .host id) ∨ (T.kind = .sns → p.hop = T.hops p.packet.src p.packet.dst)

variable {T} {choose : Chooser} {ports : Level → ℕ} {p p' p₀ : HopPacket} {s s' : ℕ}
  {q : FatQueue} {r : Option FatQueue}

@[simp] lemma map_goTo (p : HopPacket) (s : ℕ) (r : Option FatQueue) :
    (goTo p s r).map (·.2.2) = r.map some := by
  cases r <;> rfl

@[simp] lemma setHop_packet (p : HopPacket) : (T.setHop p).packet = p.packet := by
  unfold setHop
  split_ifs <;> rfl

lemma dst_host_ne (id id' : HostId) : T.dst (.host id) ≠ .host id' := by
  simp only [dst]
  split_ifs <;> simp

lemma dst_edge_cases (i j : ℕ) :
    (j < T.half ∧ ∃ id, T.dst (.edge i j) = .host id) ∨
      (¬ j < T.half ∧ ∃ n, T.dst (.edge i j) = .agg n) := by
  simp only [dst]
  split_ifs with hj
  · exact .inl ⟨hj, _, rfl⟩
  · exact .inr ⟨hj, _, rfl⟩

/-- The packet when the port is chosen. -/
def hopAt (T : FatTree) (p : HopPacket) : FatQueue → HopPacket
  | .host _ => T.setHop p
  | _ => p

/-- The uplink port that a packet between two hosts needs at a queue. -/
def asks (T : FatTree) (a b : HostId) (q : FatQueue) : Option Level :=
  match q with
  | .host _ => if T.IsSameRack a b then none else some .host
  | .edge _ j => if j < T.half ∨ T.IsSamePod a b then none else some .edge
  | _ => none

/-- The packet gets these ports at a queue. -/
def Chooses (T : FatTree) (choose : Chooser) (ports : Level → ℕ) (s : ℕ) (p : HopPacket)
    (q : FatQueue) : Prop :=
  ∀ level, T.asks p.packet.src p.packet.dst q = some level →
    (choose level s (T.hopAt p q)).2.2 = ports level

lemma map_getNextHopWith (hends : SameEnds p p₀) (hp : T.HopSet p q) (hp₀ : T.HopSet p₀ q)
    (hports : T.Chooses choose ports s p q) :
    (T.getNextHopWith choose s p q).map (·.2.2) = T.route ports p₀ q := by
  obtain ⟨hsrc, hdst⟩ := hends
  unfold Chooses at hports
  rw [hsrc, hdst] at hports
  unfold route getNextHopWith
  cases hq : T.dst q with
  | host id =>
    have hne : ¬ ∃ id, q = .host id := by
      rintro ⟨id', rfl⟩
      exact dst_host_ne id' id hq
    simp only [arrive, hsrc, hdst]
    cases hkind : T.kind with
    | sns =>
      have h₁ := hp.resolve_left hne hkind
      have h₂ := hp₀.resolve_left hne hkind
      rw [hsrc, hdst] at h₁
      dsimp only
      rw [if_pos h₁, if_pos h₂]
      split_ifs <;> rfl
    | plain =>
      dsimp only
      split_ifs <;> rfl
  | edge n | agg n | core n =>
    cases q with
    | host id =>
      simp only [getHostNextHop, hsrc, hdst, setHop_packet, goUp, fixedPorts]
      split_ifs with h₁ h₂ h₃
      · rfl
      · simp only [map_goTo]
      · have hport : (choose .host s (T.setHop p)).2.2 = ports .host := hports .host (if_neg h₂)
        rw [map_goTo, map_goTo, hport]
      · rfl
    | edge i j =>
      simp only [getEdgeNextHop, hsrc, hdst, goUp, fixedPorts]
      split_ifs with h₁
      · simp only [map_goTo]
      · obtain ⟨-, id, hid⟩ | ⟨hj, -⟩ := dst_edge_cases (T := T) i j
        · exact nomatch hid.symm.trans hq
        · have hport : (choose .edge s p).2.2 = ports .edge :=
            hports .edge (if_neg (not_or.2 ⟨hj, h₁⟩))
          rw [map_goTo, map_goTo, hport]
    | agg i j =>
      simp only [getAggNextHop, hq, hdst]
      first
        | simp only [map_goTo]
        | split_ifs
          · rfl
          · simp only [map_goTo]
    | core i j => simp only [getCoreNextHop, hdst, map_goTo]
    | toArbiter => rfl

structure Keeps (choose : Chooser) : Prop where
  ends (level s p) : SameEnds (choose level s p).1 p
  hop (level s p) : (choose level s p).1.hop = p.hop

lemma keeps_fixedPorts (ports : Level → ℕ) : Keeps (fixedPorts ports) :=
  ⟨fun _ _ _ => ⟨rfl, rfl⟩, fun _ _ _ => rfl⟩

lemma keeps_choosePort : Keeps T.choosePort := by
  refine ⟨fun level s p => ?_, fun level s p => ?_⟩
  · unfold choosePort SameEnds
    cases T.kind <;> cases level <;> exact ⟨rfl, rfl⟩
  · unfold choosePort
    cases T.kind <;> cases level <;> rfl

lemma goTo_eq {r₀ : Option FatQueue} (h : goTo p s r₀ = some (p', s', r)) :
    p' = p ∧ s' = s ∧ r = r₀ := by
  unfold goTo at h
  cases r₀ with
  | none => exact nomatch h
  | some r₁ =>
    obtain ⟨rfl, rfl, rfl⟩ := Option.some.inj h
    exact ⟨rfl, rfl, rfl⟩

lemma goToArbiter_eq {n : FatNode} (h : goToArbiter p s n = some (p', s', r)) :
    p' = p ∧ s' = s ∧ ∀ r' ∈ r, r' = .toArbiter := by
  unfold goToArbiter at h
  obtain ⟨rfl, rfl, rfl⟩ := Option.some.inj h
  refine ⟨rfl, rfl, fun r' hr' => ?_⟩
  split_ifs at hr' <;> simp_all

lemma arrive_eq {id : HostId} (h : T.arrive s p id = some (p', s', r)) :
    p' = p ∧ s' = s ∧ r = none := by
  unfold arrive at h
  split at h <;> split_ifs at h <;>
    · obtain ⟨rfl, rfl, rfl⟩ := Option.some.inj h
      exact ⟨rfl, rfl, rfl⟩

/-- Where a queue can lead on to: a queue of a host leads up, and one of an edge switch that
leads up leads to an aggregation switch. -/
def Leads (T : FatTree) : FatQueue → FatQueue → Prop
  | .host _, .edge _ _ => True
  | .host _, .toArbiter => True
  | .edge _ _, .agg _ _ => True
  | .agg _ _, .core _ _ => True
  | .agg _ _, .edge _ j => j < T.half
  | .agg _ _, .toArbiter => True
  | .core _ _, .agg _ _ => True
  | _, _ => False

lemma queueAt_edge {x i : ℕ} (hr : r = T.queueAt x (.edge i)) : ∀ r' ∈ r, r' = .edge i x := by
  intro r' hr'
  unfold queueAt at hr
  split_ifs at hr <;> simp_all

lemma queueAt_agg {x i : ℕ} (hr : r = T.queueAt x (.agg i)) : ∀ r' ∈ r, r' = .agg i x := by
  intro r' hr'
  unfold queueAt at hr
  split_ifs at hr <;> simp_all

lemma queueAt_core {x i : ℕ} (hr : r = T.queueAt x (.core i)) : ∀ r' ∈ r, r' = .core i x := by
  intro r' hr'
  unfold queueAt at hr
  split_ifs at hr <;> simp_all

/-- **What a step does**: the packet goes where the queue leads, and a port is chosen for it
where it needs one. -/
lemma getNextHopWith_cases (hhalf : 0 < T.half)
    (h : T.getNextHopWith choose s p q = some (p', s', r)) :
    (∀ r' ∈ r, T.Leads q r') ∧
      ((∃ level, T.asks p.packet.src p.packet.dst q = some level ∧
          p' = (choose level s (T.hopAt p q)).1) ∨
        (T.asks p.packet.src p.packet.dst q = none ∧ p' = T.hopAt p q)) := by
  unfold getNextHopWith at h
  cases q with
  | host id =>
    obtain ⟨i, hi⟩ : ∃ i, T.dst (.host id) = .edge i := by
      simp only [dst]
      split_ifs <;> exact ⟨_, rfl⟩
    simp only [hi, getHostNextHop, setHop_packet] at h
    split_ifs at h with h₁ h₂ h₃
    · obtain ⟨rfl, -, hr⟩ := goToArbiter_eq h
      refine ⟨fun r' hr' => ?_, .inr ⟨if_pos h₂, rfl⟩⟩
      rw [hr r' hr']
      trivial
    · obtain ⟨rfl, -, hr⟩ := goTo_eq h
      refine ⟨fun r' hr' => ?_, .inr ⟨if_pos h₂, rfl⟩⟩
      rw [queueAt_edge hr r' hr']
      trivial
    · obtain ⟨rfl, -, hr⟩ := goTo_eq h
      refine ⟨fun r' hr' => ?_, .inl ⟨.host, if_neg h₂, rfl⟩⟩
      rw [queueAt_edge hr r' hr']
      trivial
  | edge i j =>
    obtain ⟨hj, id, hid⟩ | ⟨hj, n, hn⟩ := dst_edge_cases (T := T) i j
    · simp only [hid] at h
      obtain ⟨rfl, -, rfl⟩ := arrive_eq h
      exact ⟨by simp, .inr ⟨if_pos (.inl hj), rfl⟩⟩
    · simp only [hn, getEdgeNextHop] at h
      split_ifs at h with h₁ <;> obtain ⟨rfl, -, hr⟩ := goTo_eq h
      · refine ⟨fun r' hr' => ?_, .inr ⟨if_pos (.inr h₁), rfl⟩⟩
        rw [queueAt_agg hr r' hr']
        trivial
      · refine ⟨fun r' hr' => ?_, .inl ⟨.edge, if_neg (not_or.2 ⟨hj, h₁⟩), rfl⟩⟩
        rw [queueAt_agg hr r' hr']
        trivial
  | agg i j =>
    obtain ⟨n, hn⟩ | ⟨n, hn⟩ :
        (∃ n, T.dst (.agg i j) = .edge n) ∨ ∃ n, T.dst (.agg i j) = .core n := by
      simp only [dst]
      split_ifs
      · exact .inl ⟨_, rfl⟩
      · exact .inr ⟨_, rfl⟩
    · simp only [hn, getAggNextHop] at h
      split_ifs at h with h₁
      · obtain ⟨rfl, -, hr⟩ := goToArbiter_eq h
        refine ⟨fun r' hr' => ?_, .inr ⟨rfl, rfl⟩⟩
        rw [hr r' hr']
        trivial
      · obtain ⟨rfl, -, hr⟩ := goTo_eq h
        refine ⟨fun r' hr' => ?_, .inr ⟨rfl, rfl⟩⟩
        rw [queueAt_edge hr r' hr']
        exact Nat.mod_lt _ hhalf
    · simp only [hn, getAggNextHop] at h
      obtain ⟨rfl, -, hr⟩ := goTo_eq h
      refine ⟨fun r' hr' => ?_, .inr ⟨rfl, rfl⟩⟩
      rw [queueAt_core hr r' hr']
      trivial
  | core i j =>
    have hn : T.dst (.core i j) = .agg (T.aggIdx i j) := rfl
    simp only [hn, getCoreNextHop] at h
    obtain ⟨rfl, -, hr⟩ := goTo_eq h
    refine ⟨fun r' hr' => ?_, .inr ⟨rfl, rfl⟩⟩
    rw [queueAt_agg hr r' hr']
    trivial
  | toArbiter =>
    obtain ⟨rfl, -, rfl⟩ := arrive_eq h
    exact ⟨by simp, .inr ⟨rfl, rfl⟩⟩

lemma hopAt_packet (p : HopPacket) (q : FatQueue) : (T.hopAt p q).packet = p.packet := by
  cases q <;> simp [hopAt]

lemma hopAt_hop (hp : T.HopSet p q) (hkind : T.kind = .sns) :
    (T.hopAt p q).hop = T.hops p.packet.src p.packet.dst := by
  cases q with
  | host id => simp [hopAt, setHop, hkind]
  | edge i j | agg i j | core i j => exact hp.resolve_left (by simp) hkind
  | toArbiter => exact hp.resolve_left (by simp) hkind

lemma getNextHopWith_keeps (hhalf : 0 < T.half) (hchoose : Keeps choose) (hp : T.HopSet p q)
    (h : T.getNextHopWith choose s p q = some (p', s', r)) :
    SameEnds p' p ∧ ∀ q, T.HopSet p' q := by
  have hhop := hopAt_hop hp
  have hends : SameEnds (T.hopAt p q) p := by simp [SameEnds, hopAt_packet]
  obtain ⟨-, ⟨level, -, rfl⟩ | ⟨-, rfl⟩⟩ := getNextHopWith_cases hhalf h
  · have hkeep := hchoose.ends level s (T.hopAt p q)
    have hends' : SameEnds (choose level s (T.hopAt p q)).1 p :=
      ⟨hkeep.1.trans hends.1, hkeep.2.trans hends.2⟩
    refine ⟨hends', fun q' => .inr fun hkind => ?_⟩
    rw [hends'.1, hends'.2, hchoose.hop, hhop hkind]
  · refine ⟨hends, fun q' => .inr fun hkind => ?_⟩
    rw [hends.1, hends.2, hhop hkind]

/-- A queue where a port is not needed, and will not be needed. -/
def Past (T : FatTree) : Level → FatQueue → Prop
  | _, .host _ => False
  | .edge, .edge _ j => j < T.half
  | _, _ => True

variable {level : Level} {q' : FatQueue}

lemma Past.leads (hq : T.Past level q) (h : T.Leads q q') : T.Past level q' := by
  cases level <;> cases q <;> cases q' <;> simp_all [Past, Leads]

lemma Past.not_asks {a b : HostId} (hq : T.Past level q) : T.asks a b q ≠ some level := by
  cases level <;> cases q <;> simp_all [Past, asks]

lemma past_of_asks {a b : HostId} (hq : T.asks a b q = some level) (h : T.Leads q q') :
    T.Past level q' := by
  cases level <;> cases q <;> cases q' <;> simp_all [Past, Leads, asks]

/-- **A packet whose ports are known goes by `route`.** -/
lemma follows {I : HopPacket → FatQueue → Prop} (hp₀ : ∀ q, T.HopSet p₀ q)
    (hI : ∀ {p q}, I p q → SameEnds p p₀ ∧ T.HopSet p q ∧ ∀ s, T.Chooses choose ports s p q)
    (hstep : ∀ {s s' p p' q r}, I p q → T.getNextHopWith choose s p q = some (p', s', r) →
      I p' q ∧ ∀ r' ∈ r, I p' r') :
    Follows (T.getNextHopWith choose) (T.route ports p₀) I where
  goes {s s' p p' q r} hp h := by
    obtain ⟨hends, hhop, hports⟩ := hI hp
    rw [← map_getNextHopWith hends hhop (hp₀ q) (hports s), h]
    rfl
  keeps hp h := hstep hp h
  can {p q r} hp h := by
    obtain ⟨hends, hhop, hports⟩ := hI hp
    rw [← map_getNextHopWith hends hhop (hp₀ q) (hports 0)] at h
    obtain ⟨⟨p', s', r'⟩, hr, rfl⟩ := Option.map_eq_some_iff.1 h
    exact ⟨0, s', p', hr⟩

end FatTree

end DcSim
