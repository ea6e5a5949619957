import DcSim.LeafSpine

/-!
The way between two hosts of a leaf-spine network.

The aggregation switches have `num_hosts / num_agg_switches` hosts each, and a host finds its
switch by the same quotient. If the division leaves a remainder, the hosts beyond the last full
rack are wired to a switch that does not exist. If it does not, a packet goes through two queues
in a rack and through four between two racks, whatever its uplink.

`LeafSpineTopology` has an arbiter as well, in the first rack, and chooses the same ways for the
packets of hosts.
-/

namespace DcSim

open Routing Word32

namespace LeafSpine

variable (T : LeafSpine)

/-- The switches and hosts that were created. -/
def HasNode : LeafNode → Prop
  | .host id => id < T.numHosts
  | .agg i => i < T.numAggSwitches
  | .core i => i < T.numCoreSwitches

def HasQueue : LeafQueue → Prop
  | .host id => id < T.numHosts
  | .agg i j => i < T.numAggSwitches ∧ j < T.hostsPerAggSwitch + T.numCoreSwitches
  | .core i j => i < T.numCoreSwitches ∧ j < T.numAggSwitches

/-- The way from an uplink of a switch to a host. -/
def spine (port i : ℕ) (b : HostId) : List LeafQueue :=
  [.agg i (T.hostsPerAggSwitch + port), .core port (b / T.hostsPerAggSwitch),
    .agg (b / T.hostsPerAggSwitch) (b % T.hostsPerAggSwitch)]

/-- The way between two hosts, with an uplink. -/
def way (port : ℕ) (a b : HostId) : List LeafQueue :=
  if T.IsSameRack a b then
    [.host a, .agg (a / T.hostsPerAggSwitch) (b % T.hostsPerAggSwitch)]
  else .host a :: T.spine port (a / T.hostsPerAggSwitch) b

/-- A network delivers: the uplinks of its hosts lead to switches that exist, each uplink port leads
from a host to another over queues that exist, two in a rack and four otherwise, and a packet
between them goes such a way, whatever the counters are. The queues are those of `LeafSpine`, as
`e` has them. -/
structure Delivers {Q : Type*} (e : LeafQueue → Q) (dst : Q → LeafNode) (HasQueue : Q → Prop)
    (route : ℕ → HostId → HostId → Q → Option (Option Q)) (R : Router Packet Q)
    (ok : Packet → Prop) : Prop where
  wired : ∀ id < T.numHosts, T.HasNode (dst (e (.host id)))
  routes : ∀ a < T.numHosts, ∀ b < T.numHosts, a ≠ b → ∀ port < T.numCoreSwitches,
    ∃ way, Chain (route port a b) (e (.host a)) way ∧ (∀ q ∈ way, HasQueue q) ∧
      way.getLast?.map dst = some (.host b) ∧ way.length = if T.IsSameRack a b then 2 else 4
  walks : ∀ p : Packet, p.src < T.numHosts → p.dst < T.numHosts → p.src ≠ p.dst → ok p →
    ∀ counters, ∃ port < T.numCoreSwitches, ∃ way,
      walk R counters 4 p (e (.host p.src)) = some way ∧
        Chain (route port p.src p.dst) (e (.host p.src)) way

structure Sized : Prop where
  hosts_lt : T.numHosts < 4294967296
  cores_lt : T.numCoreSwitches < 4294967296
  agg_pos : 1 ≤ T.numAggSwitches
  agg_le : T.numAggSwitches ≤ T.numHosts
  core_pos : 1 ≤ T.numCoreSwitches

structure Even : Prop where
  dvd : T.numAggSwitches ∣ T.numHosts
  ports : T.numAggSwitches = 1 ∨ T.hostsPerAggSwitch + T.numCoreSwitches ≤ 4294967296

variable {T} {a b : HostId} {port : ℕ} {p p' : Packet}

lemma Sized.rack_pos (h : T.Sized) : 0 < T.hostsPerAggSwitch :=
  Nat.div_pos h.agg_le h.agg_pos

/-- **The wiring of the hosts**: every uplink leads to a switch that exists exactly if the racks
are of one size. -/
lemma Sized.wired_iff (h : T.Sized) :
    (∀ id < T.numHosts, T.HasNode (T.dst (.host id))) ↔ T.numAggSwitches ∣ T.numHosts := by
  have hle : T.numHosts / T.numAggSwitches * T.numAggSwitches ≤ T.numHosts := Nat.div_mul_le_self ..
  constructor
  · intro hwired
    have hpos := h.agg_pos
    have hlast := hwired (T.numHosts - 1) (by have := h.agg_le; omega)
    have hlt : (T.numHosts - 1) / T.hostsPerAggSwitch < T.numAggSwitches := hlast
    rw [Nat.div_lt_iff_lt_mul h.rack_pos, Nat.mul_comm] at hlt
    have heq : T.numHosts / T.numAggSwitches * T.numAggSwitches = T.numHosts := by
      unfold hostsPerAggSwitch at hlt
      omega
    exact ⟨T.numHosts / T.numAggSwitches, by rw [Nat.mul_comm]; exact heq.symm⟩
  · intro hdvd id hid
    change id / T.hostsPerAggSwitch < T.numAggSwitches
    rw [Nat.div_lt_iff_lt_mul h.rack_pos, Nat.mul_comm]
    unfold hostsPerAggSwitch
    rwa [Nat.div_mul_cancel hdvd]

section Even

variable (hs : T.Sized) (he : T.numAggSwitches ∣ T.numHosts)
include hs he

lemma rack_lt (ha : a < T.numHosts) : a / T.hostsPerAggSwitch < T.numAggSwitches :=
  hs.wired_iff.2 he a ha

omit he in
lemma dst_rack (hb : b < T.numHosts) :
    T.dst (.agg (b / T.hostsPerAggSwitch) (b % T.hostsPerAggSwitch)) = .host b := by
  have hlt : b % T.hostsPerAggSwitch < T.hostsPerAggSwitch := Nat.mod_lt b hs.rack_pos
  have hdiv := Nat.div_add_mod' b T.hostsPerAggSwitch
  have hsize : b < 4294967296 := hb.trans hs.hosts_lt
  have hmul : mul32 (b / T.hostsPerAggSwitch) T.hostsPerAggSwitch =
      b / T.hostsPerAggSwitch * T.hostsPerAggSwitch :=
    Nat.mod_eq_of_lt ((Nat.div_mul_le_self _ _).trans_lt hsize)
  simp only [dst, if_pos hlt, hmul]
  rw [add32_eq (by rwa [hdiv]), hdiv]

omit he in
lemma route_rack (a : HostId) (hb : b < T.numHosts) :
    T.route port a b (.agg (b / T.hostsPerAggSwitch) (b % T.hostsPerAggSwitch)) = some none := by
  simp only [route, dst_rack hs hb, if_true]

omit he in
lemma queueAt_rack (b i : ℕ) : T.queueAt (b % T.hostsPerAggSwitch) (.agg i) =
    some (.agg i (b % T.hostsPerAggSwitch)) :=
  if_pos (Nat.lt_add_right _ (Nat.mod_lt b hs.rack_pos))

lemma chain_spine (a : HostId) (hb : b < T.numHosts) (i : ℕ) :
    Chain (T.route port a b) (.agg i (T.hostsPerAggSwitch + port)) (T.spine port i b) := by
  refine .cons ?_ (.cons ?_ (.last (route_rack hs a hb)))
  · have hdst : T.dst (.agg i (T.hostsPerAggSwitch + port)) = .core port := by
      simp [dst]
    have hqueue : T.queueAt (b / T.hostsPerAggSwitch) (.core port) =
        some (.core port (b / T.hostsPerAggSwitch)) := if_pos (rack_lt hs he hb)
    simp only [route, hdst, hqueue, Option.map_some]
  · simp only [route, dst, queueAt_rack hs, Option.map_some]

lemma chain_way (a : HostId) (hb : b < T.numHosts) (hport : port < T.numCoreSwitches)
    (hfit : T.IsSameRack a b ∨ T.hostsPerAggSwitch + T.numCoreSwitches ≤ 4294967296) :
    Chain (T.route port a b) (.host a) (T.way port a b) := by
  unfold way
  split_ifs with hsame
  · have hrack : a / T.hostsPerAggSwitch = b / T.hostsPerAggSwitch := hsame
    refine .cons ?_ (.last ?_)
    · simp only [route, dst, if_true, if_pos hsame, queueAt_rack hs, Option.map_some]
    · rw [hrack]
      exact route_rack hs a hb
  · have hfit := hfit.resolve_left hsame
    refine .cons ?_ (chain_spine hs he a hb _)
    have hcore : T.numCoreSwitches ≠ 0 := by omega
    have hqueue : T.queueAt (add32 T.hostsPerAggSwitch port) (.agg (a / T.hostsPerAggSwitch)) =
        some (.agg (a / T.hostsPerAggSwitch) (T.hostsPerAggSwitch + port)) := by
      rw [add32_eq (by omega)]
      exact if_pos (by omega)
    simp only [route, dst, if_true, if_neg hsame, if_neg hcore, hqueue, Option.map_some]

lemma hasQueue_way (ha : a < T.numHosts) (hb : b < T.numHosts) (hport : port < T.numCoreSwitches) :
    ∀ q ∈ T.way port a b, T.HasQueue q := by
  have hmod : b % T.hostsPerAggSwitch < T.hostsPerAggSwitch := Nat.mod_lt b hs.rack_pos
  have hra := rack_lt hs he ha
  have hrb := rack_lt hs he hb
  unfold way spine
  split_ifs <;>
    simp only [List.forall_mem_cons, HasQueue, List.not_mem_nil, false_imp_iff, implies_true,
      and_true]
  · exact ⟨ha, hra, Nat.lt_add_right _ hmod⟩
  · exact ⟨ha, ⟨hra, Nat.add_lt_add_left hport _⟩, ⟨hport, hrb⟩, hrb, Nat.lt_add_right _ hmod⟩

omit he in
lemma dst_way (hb : b < T.numHosts) : (T.way port a b).getLast?.map T.dst = some (.host b) := by
  have hdst := dst_rack hs hb
  unfold way
  split_ifs with hsame
  · have hrack : a / T.hostsPerAggSwitch = b / T.hostsPerAggSwitch := hsame
    rw [hrack]
    exact congrArg some hdst
  · exact congrArg some hdst

end Even

lemma length_way : (T.way port a b).length = if T.IsSameRack a b then 2 else 4 := by
  unfold way
  split_ifs <;> rfl

/-! ### The code's own choice -/

variable (T) in
/-- A port that is saved in a packet is one of the uplinks. -/
def PortOk (p : Packet) : Prop :=
  p.savedHashPort ≠ -1 → ofInt32 p.savedHashPort < T.numCoreSwitches

lemma PortOk.choosePort (hs : T.Sized) (hok : T.PortOk p) (s : ℕ) :
    T.PortOk (T.choosePort s p).1 ∧ (T.choosePort s p).2.2 < T.numCoreSwitches := by
  have hmode : (if T.loadBalancing = 3 then 2 else T.loadBalancing) ≠ 3 := by
    split_ifs with h
    · decide
    · exact h
  have hport : hashPort (if T.loadBalancing = 3 then 2 else T.loadBalancing) T.numCoreSwitches s 0
      p < T.numCoreSwitches :=
    hashPort_lt p hs.core_pos fun h => absurd h hmode
  have hlt := hs.cores_lt
  unfold LeafSpine.choosePort
  dsimp only
  generalize hashPort (if T.loadBalancing = 3 then 2 else T.loadBalancing) T.numCoreSwitches s 0 p =
    port at hport ⊢
  unfold savePort PortOk
  dsimp only
  split_ifs with hsim hsaved
  · exact ⟨fun _ => by rwa [ofInt32_toInt32 (hport.trans hlt)], hport⟩
  · exact ⟨hok, hok hsaved.1⟩
  · exact ⟨hok, hport⟩

lemma choosePort_ends (s : ℕ) (p : Packet) :
    (T.choosePort s p).1.src = p.src ∧ (T.choosePort s p).1.dst = p.dst := ⟨rfl, rfl⟩

lemma getNextHop_of_route {q : LeafQueue} {r : Option LeafQueue} (hasks : ¬ T.Asks p.src p.dst q)
    (hroute : T.route port p.src p.dst q = some r) (c : ℕ) :
    ∃ c', T.getNextHop c p q = some (p, c', r) := by
  have hinner : ∀ c, ∃ c', T.getNextHopInner c p q = some (p, c', r) := by
    intro c
    have hmap := map_getNextHopInner (T := T) c p q
    rw [route_congr port hasks, hroute] at hmap
    obtain ⟨⟨p', c', r'⟩, hstep, rfl⟩ := Option.map_eq_some_iff.1 hmap
    obtain ⟨-, -, ⟨hno, -⟩ | ⟨-, rfl⟩⟩ := getNextHopInner_cases hstep
    · exact absurd hno hasks
    · exact ⟨c', hstep⟩
  obtain ⟨c₁, h₁⟩ := hinner c
  cases r with
  | none => exact ⟨c₁, by simp only [getNextHop, h₁]⟩
  | some r =>
    obtain ⟨c₂, h₂⟩ := hinner c₁
    exact ⟨c₂, by simp only [getNextHop, h₁, h₂]⟩

lemma getNextHop_uplink (hs : T.Sized)
    (hfit : T.hostsPerAggSwitch + T.numCoreSwitches ≤ 4294967296) (hok : T.PortOk p)
    (hrack : ¬ T.IsSameRack p.src p.dst) (c : ℕ) :
    ∃ port < T.numCoreSwitches, ∃ c' p', p'.src = p.src ∧ p'.dst = p.dst ∧
      T.getNextHop c p (.host p.src) =
        some (p', c', some (.agg (p.src / T.hostsPerAggSwitch) (T.hostsPerAggSwitch + port))) := by
  have hcore : T.numCoreSwitches ≠ 0 := Nat.one_le_iff_ne_zero.1 hs.core_pos
  have hinner : ∀ {p₁ : Packet} (c), p₁.src = p.src → p₁.dst = p.dst → T.PortOk p₁ →
      T.getNextHopInner c p₁ (.host p.src) =
        some ((T.choosePort c p₁).1, (T.choosePort c p₁).2.1,
          some (.agg (p.src / T.hostsPerAggSwitch)
            (T.hostsPerAggSwitch + (T.choosePort c p₁).2.2))) := by
    intro p₁ c hsrc hdst hok₁
    have hport := (hok₁.choosePort hs c).2
    have hqueue : T.queueAt (add32 T.hostsPerAggSwitch (T.choosePort c p₁).2.2)
        (.agg (p.src / T.hostsPerAggSwitch)) = some (.agg (p.src / T.hostsPerAggSwitch)
          (T.hostsPerAggSwitch + (T.choosePort c p₁).2.2)) := by
      rw [add32_eq (by omega)]
      exact if_pos (by omega)
    simp only [getNextHopInner, LeafSpine.dst, hsrc, hdst, if_true, if_neg hrack, if_neg hcore,
      hqueue, Option.map_some]
  have h₁ := hinner c rfl rfl hok
  have hok₁ := (hok.choosePort hs c).1
  have h₂ := hinner (T.choosePort c p).2.1 (choosePort_ends c p).1 (choosePort_ends c p).2 hok₁
  have hstep : T.getNextHop c p (.host p.src) =
      T.getNextHopInner (T.choosePort c p).2.1 (T.choosePort c p).1 (.host p.src) := by
    simp only [getNextHop, h₁]
  refine ⟨_, (hok₁.choosePort hs (T.choosePort c p).2.1).2, _, _, ?_, ?_, hstep.trans h₂⟩
  · exact (choosePort_ends _ _).1.trans (choosePort_ends c p).1
  · exact (choosePort_ends _ _).2.trans (choosePort_ends c p).2

lemma walk_of_not_asks {counters : ℕ → ℕ} {q : LeafQueue} {way : List LeafQueue}
    (hchain : Chain (T.route port p.src p.dst) q way)
    (hasks : ∀ r ∈ way, ¬ T.Asks p.src p.dst r) {n : ℕ} (hn : way.length ≤ n) :
    walk T.getNextHop counters n p q = some way :=
  walk_of_chain hchain
    (fun _ hr c _ hroute => getNextHop_of_route (hasks _ hr) hroute c) hn

lemma Even.fits (he : T.Even) (hs : T.Sized) (ha : a < T.numHosts) (hb : b < T.numHosts) :
    T.IsSameRack a b ∨ T.hostsPerAggSwitch + T.numCoreSwitches ≤ 4294967296 := by
  refine he.ports.imp_left fun hone => ?_
  have h₁ := rack_lt hs he.dvd ha
  have h₂ := rack_lt hs he.dvd hb
  rw [hone, Nat.lt_one_iff] at h₁ h₂
  exact h₁.trans h₂.symm

/-- **The code's own choice** leads a packet from host to host by one of the uplinks. -/
theorem walk_way (hs : T.Sized) (he : T.Even) (ha : p.src < T.numHosts) (hb : p.dst < T.numHosts)
    (hok : T.PortOk p) (counters : ℕ → ℕ) : ∃ port < T.numCoreSwitches,
      walk T.getNextHop counters 4 p (.host p.src) = some (T.way port p.src p.dst) := by
  by_cases hrack : T.IsSameRack p.src p.dst
  · have hchain := chain_way hs he.dvd p.src hb hs.core_pos (.inl hrack)
    refine ⟨0, hs.core_pos, walk_of_not_asks hchain (fun r _ hask => hask.2 hrack) ?_⟩
    rw [length_way, if_pos hrack]
    decide
  · have hfit := (he.fits hs ha hb).resolve_left hrack
    obtain ⟨port, hport, c', p', hsrc, hdst, hstep⟩ :=
      getNextHop_uplink hs hfit hok hrack (counters 3)
    have hchain : Chain (T.route port p.src p.dst) _ _ :=
      chain_spine hs he.dvd p.src hb (p.src / T.hostsPerAggSwitch)
    have hrest : walk T.getNextHop counters 3 p' (.agg (p.src / T.hostsPerAggSwitch)
        (T.hostsPerAggSwitch + port)) =
          some (T.spine port (p.src / T.hostsPerAggSwitch) p.dst) := by
      refine walk_of_not_asks (by rwa [hsrc, hdst]) (fun r hr hask => ?_) le_rfl
      obtain ⟨id, rfl⟩ := hask.1
      simp [spine] at hr
    refine ⟨port, hport, ?_⟩
    unfold way
    rw [if_neg hrack, walk, hstep, Option.bind_some]
    dsimp only
    rw [hrest]
    rfl

lemma not_chain_of_overflow (hs : T.Sized)
    (hfit : ¬ T.hostsPerAggSwitch + T.numCoreSwitches ≤ 4294967296) (way : List LeafQueue) :
    ¬ Chain (T.route (T.numCoreSwitches - 1) 0 T.hostsPerAggSwitch) (.host 0) way := by
  have hpos := hs.rack_pos
  have hcores := hs.core_pos
  have hcores_lt := hs.cores_lt
  have hrack : T.hostsPerAggSwitch ≤ T.numHosts := Nat.div_le_self ..
  have hrack_lt := hrack.trans_lt hs.hosts_lt
  have hdiff : ¬ T.IsSameRack 0 T.hostsPerAggSwitch := by
    unfold IsSameRack
    rw [Nat.zero_div, Nat.div_self hpos]
    decide
  have hcore : T.numCoreSwitches ≠ 0 := Nat.one_le_iff_ne_zero.1 hcores
  -- the sum wraps
  obtain ⟨i, hi⟩ : ∃ i, add32 T.hostsPerAggSwitch (T.numCoreSwitches - 1) = i := ⟨_, rfl⟩
  have hlt : i < T.hostsPerAggSwitch := by
    unfold add32 at hi
    omega
  have hfirst : T.route (T.numCoreSwitches - 1) 0 T.hostsPerAggSwitch (.host 0) =
      some (some (.agg 0 i)) := by
    have hqueue : T.queueAt i (.agg 0) = some (.agg 0 i) := if_pos (by omega)
    simp only [route, dst, if_true, if_neg hdiff, if_neg hcore, hi, Nat.zero_div, hqueue,
      Option.map_some]
  have hsecond : T.route (T.numCoreSwitches - 1) 0 T.hostsPerAggSwitch (.agg 0 i) = none := by
    have hdst : T.dst (.agg 0 i) = .host i := by
      simp only [dst, if_pos hlt, mul32, add32, Nat.zero_mul, Nat.zero_mod, Nat.zero_add]
      rw [Nat.mod_eq_of_lt (by omega)]
    simp only [route, hdst, if_neg hlt.ne']
  intro h
  cases h with
  | last hlast => exact nomatch hlast.symm.trans hfirst
  | cons hnext hrest =>
    obtain rfl := Option.some.inj (Option.some.inj (hnext.symm.trans hfirst))
    cases hrest with
    | last hlast => exact nomatch hlast.symm.trans hsecond
    | cons hnext' _ => exact nomatch hnext'.symm.trans hsecond

lemma second_rack (hs : T.Sized) (hdvd : T.numAggSwitches ∣ T.numHosts)
    (hone : T.numAggSwitches ≠ 1) : T.hostsPerAggSwitch < T.numHosts := by
  have hpos := hs.rack_pos
  have hagg := hs.agg_pos
  calc T.hostsPerAggSwitch < T.hostsPerAggSwitch * 2 := by omega
    _ ≤ T.hostsPerAggSwitch * T.numAggSwitches := Nat.mul_le_mul_left _ (by omega)
    _ = T.numHosts := Nat.div_mul_cancel hdvd

lemma Sized.even (hs : T.Sized)
    (hwired : ∀ id < T.numHosts, T.HasNode (T.dst (.host id)))
    (hroutes : ∀ a < T.numHosts, ∀ b < T.numHosts, a ≠ b → ∀ port < T.numCoreSwitches,
      ∃ way, Chain (T.route port a b) (.host a) way) : T.Even := by
  have hdvd := hs.wired_iff.1 hwired
  refine ⟨hdvd, ?_⟩
  by_contra hnot
  obtain ⟨hone, hfit⟩ := not_or.1 hnot
  have hcores := hs.core_pos
  obtain ⟨way, hchain⟩ := hroutes 0 (hs.agg_pos.trans hs.agg_le) T.hostsPerAggSwitch
    (second_rack hs hdvd hone) hs.rack_pos.ne (T.numCoreSwitches - 1) (by omega)
  exact not_chain_of_overflow hs hfit way hchain

/-- **`SnsLeafSpineTopology`** delivers exactly if the racks are of one size. -/
theorem delivers_iff (hs : T.Sized) :
    T.Delivers id T.dst T.HasQueue T.route T.getNextHop T.PortOk ↔ T.Even := by
  constructor
  · intro h
    refine hs.even h.wired fun a ha b hb hne port hport => ?_
    obtain ⟨way, hchain, -⟩ := h.routes a ha b hb hne port hport
    exact ⟨way, hchain⟩
  · intro he
    refine ⟨hs.wired_iff.2 he.dvd, fun a ha b hb _ port hport => ?_,
      fun p ha hb _ hok counters => ?_⟩
    · exact ⟨T.way port a b, chain_way hs he.dvd a hb hport (he.fits hs ha hb),
        hasQueue_way hs he.dvd ha hb hport, dst_way hs hb, length_way⟩
    · obtain ⟨port, hport, hwalk⟩ := walk_way hs he ha hb hok counters
      exact ⟨port, hport, _, hwalk, chain_way hs he.dvd p.src hb hport (he.fits hs ha hb)⟩

end LeafSpine

/-! ### `LeafSpineTopology` -/

structure PlainLeafSpine extends LeafSpine where
  -- The arbiter, if there is one, is the host with the next id.
  hasArbiter : Bool

/-- A queue that `SnsLeafSpineTopology` has as well, and `queue_to_arbiter` of the first switch. -/
inductive PlainLeafQueue
  | leaf (q : LeafQueue)
  | toArbiter
  deriving DecidableEq

namespace PlainLeafSpine

variable (T : PlainLeafSpine)

def IsArbiter (id : HostId) : Prop := T.hasArbiter ∧ id = T.numHosts

instance (id : HostId) : Decidable (T.IsArbiter id) := by unfold IsArbiter; infer_instance

/-- The field `dst` of a queue. -/
def dst : PlainLeafQueue → LeafNode
  | .leaf (.host id) => if T.IsArbiter id then .agg 0 else T.toLeafSpine.dst (.host id)
  | .leaf q => T.toLeafSpine.dst q
  | .toArbiter => .host T.numHosts

def HasQueue : PlainLeafQueue → Prop
  | .leaf (.host id) => id < T.numHosts ∨ T.IsArbiter id
  | .leaf q => T.toLeafSpine.HasQueue q
  | .toArbiter => 0 < T.numAggSwitches

/-- `is_same_rack`; the arbiter is in the first rack. -/
def IsSameRack (a b : HostId) : Prop :=
  if T.IsArbiter a ∨ T.IsArbiter b then
    T.IsArbiter a ∧ T.IsArbiter b ∨ T.IsArbiter a ∧ b / T.hostsPerAggSwitch = 0 ∨
      T.IsArbiter b ∧ a / T.hostsPerAggSwitch = 0
  else T.toLeafSpine.IsSameRack a b

instance (a b : HostId) : Decidable (T.IsSameRack a b) := by unfold IsSameRack; infer_instance

/-- The field `queue_to_arbiter` of the switch a queue leads to. -/
def queueToArbiter : LeafNode → Option PlainLeafQueue
  | .agg 0 => some .toArbiter
  | _ => none

/-- The queue a packet to a host takes at the switch a queue leads to, of the `x`-th queue and the
one to the arbiter. -/
def queueFor (b : HostId) (x : ℕ) (n : LeafNode) : Option PlainLeafQueue :=
  if T.IsArbiter b then queueToArbiter n else (T.queueAt x n).map .leaf

/-- `load_balancing` where only the modes 0 and 1 have a branch. -/
def mode : ℕ := if T.loadBalancing = 3 then 2 else T.loadBalancing

def getNextHopInner : Router Packet PlainLeafQueue := fun sprayCounter p q =>
  match T.dst q with
  | .host id => if p.dst = id then some (p, sprayCounter, none) else none
  | n =>
    match q with
    | .leaf (.host id) =>
      if p.src = id then
        if T.IsSameRack p.src p.dst then
          (T.queueFor p.dst (p.dst % T.hostsPerAggSwitch) n).map fun r => (p, sprayCounter, some r)
        else if T.numCoreSwitches = 0 then none
        else
          let port := hashPort T.mode T.numCoreSwitches sprayCounter 0 p
          (T.queueAt (add32 T.hostsPerAggSwitch port) n).map fun r =>
            (p, nextSpray T.mode sprayCounter, some (.leaf r))
      else none
    | .leaf (.agg _ _) =>
      (T.queueAt (if T.IsArbiter p.dst then 0 else p.dst / T.hostsPerAggSwitch) n).map fun r =>
        (p, sprayCounter, some (.leaf r))
    | .leaf (.core _ _) =>
      (T.queueFor p.dst (p.dst % T.hostsPerAggSwitch) n).map fun r => (p, sprayCounter, some r)
    | .toArbiter => none

def getNextHop : Router Packet PlainLeafQueue := fun sprayCounter p q =>
  match T.getNextHopInner sprayCounter p q with
  | some (p, sprayCounter, some _) => T.getNextHopInner sprayCounter p q
  | r => r

/-- The next queue of a packet between two hosts, with a port. -/
def route (port : ℕ) (a b : HostId) (q : PlainLeafQueue) : Option (Option PlainLeafQueue) :=
  match T.dst q with
  | .host id => if b = id then some none else none
  | n =>
    match q with
    | .leaf (.host id) =>
      if a = id then
        if T.IsSameRack a b then (T.queueFor b (b % T.hostsPerAggSwitch) n).map some
        else if T.numCoreSwitches = 0 then none
        else (T.queueAt (add32 T.hostsPerAggSwitch port) n).map fun r => some (.leaf r)
      else none
    | .leaf (.agg _ _) =>
      (T.queueAt (if T.IsArbiter b then 0 else b / T.hostsPerAggSwitch) n).map fun r =>
        some (.leaf r)
    | .leaf (.core _ _) => (T.queueFor b (b % T.hostsPerAggSwitch) n).map some
    | .toArbiter => none

variable {T} {a b : HostId} {port : ℕ} {p : Packet}

lemma not_isArbiter (ha : a < T.numHosts) : ¬ T.IsArbiter a := fun h => ha.ne h.2

lemma isSameRack_iff (ha : ¬ T.IsArbiter a) (hb : ¬ T.IsArbiter b) :
    T.IsSameRack a b ↔ T.toLeafSpine.IsSameRack a b := by
  unfold IsSameRack
  rw [if_neg (not_or.2 ⟨ha, hb⟩)]

lemma dst_leaf {q : LeafQueue} (h : T.toLeafSpine.dst q = .host b) : T.dst (.leaf q) = .host b := by
  cases q with
  | host id => cases h
  | agg i j | core i j => exact h

lemma hasQueue_leaf {q : LeafQueue} (h : T.toLeafSpine.HasQueue q) : T.HasQueue (.leaf q) := by
  cases q with
  | host id => exact .inl h
  | agg i j | core i j => exact h

lemma route_leaf (ha : ¬ T.IsArbiter a) (hb : ¬ T.IsArbiter b) (q : LeafQueue) :
    T.route port a b (.leaf q) = (T.toLeafSpine.route port a b q).map (Option.map .leaf) := by
  unfold route LeafSpine.route
  cases q with
  | host id =>
    by_cases hid : a = id
    · subst hid
      simp only [dst, if_neg ha, LeafSpine.dst, if_true, isSameRack_iff ha hb, queueFor, if_neg hb]
      split_ifs <;> simp [Function.comp_def]
    · simp only [LeafSpine.dst, if_neg hid, dst]
      split_ifs <;> rfl
  | agg i j | core i j =>
    simp only [dst, if_neg hb, queueFor]
    generalize T.toLeafSpine.dst _ = n
    cases n with
    | host id =>
      dsimp only
      split_ifs <;> rfl
    | agg n | core n => simp [Function.comp_def]

/-- A packet as this class reads it. -/
def plain (p : Packet) : Packet := { p with snsType := .none, savedHashPort := -1 }

lemma choosePort_plain (s : ℕ) (p : Packet) : T.toLeafSpine.choosePort s (plain p) =
    (plain p, nextSpray T.mode s, hashPort T.mode T.numCoreSwitches s 0 p) := rfl

lemma getNextHopInner_leaf (ha : ¬ T.IsArbiter p.src) (hb : ¬ T.IsArbiter p.dst) (c : ℕ)
    (q : LeafQueue) : T.getNextHopInner c p (.leaf q) =
      (T.toLeafSpine.getNextHopInner c (plain p) q).map fun r => (p, r.2.1, r.2.2.map .leaf) := by
  have hsrc : (plain p).src = p.src := rfl
  have hdst : (plain p).dst = p.dst := rfl
  unfold getNextHopInner LeafSpine.getNextHopInner
  cases q with
  | host id =>
    by_cases hid : p.src = id
    · subst hid
      simp only [dst, if_neg ha, LeafSpine.dst, if_true, isSameRack_iff ha hb, queueFor, if_neg hb,
        hsrc, hdst, choosePort_plain]
      split_ifs <;> simp [Function.comp_def]
    · simp only [LeafSpine.dst, hsrc, if_neg hid, dst]
      split_ifs <;> rfl
  | agg i j | core i j =>
    simp only [dst, if_neg hb, queueFor, hdst]
    generalize T.toLeafSpine.dst _ = n
    cases n with
    | host id =>
      dsimp only
      split_ifs <;> rfl
    | agg n | core n => simp [Function.comp_def]

lemma getNextHop_leaf (ha : ¬ T.IsArbiter p.src) (hb : ¬ T.IsArbiter p.dst) (c : ℕ)
    (q : LeafQueue) : T.getNextHop c p (.leaf q) =
      (T.toLeafSpine.getNextHop c (plain p) q).map fun r => (p, r.2.1, r.2.2.map .leaf) := by
  unfold getNextHop LeafSpine.getNextHop
  rw [getNextHopInner_leaf ha hb]
  cases hinner : T.toLeafSpine.getNextHopInner c (plain p) q with
  | none => rfl
  | some r =>
    obtain ⟨p', c', o⟩ := r
    cases o with
    | none => rfl
    | some q' =>
      have hp : p' = plain p := by
        obtain ⟨-, -, ⟨-, -, hp⟩ | ⟨-, hp⟩⟩ := LeafSpine.getNextHopInner_cases hinner <;> exact hp
      subst hp
      exact getNextHopInner_leaf ha hb c' q

lemma walk_leaf (ha : ¬ T.IsArbiter p.src) (hb : ¬ T.IsArbiter p.dst) (counters : ℕ → ℕ) (n : ℕ)
    (q : LeafQueue) : walk T.getNextHop counters n p (.leaf q) =
      (walk T.toLeafSpine.getNextHop counters n (plain p) q).map (List.map .leaf) := by
  induction n generalizing q with
  | zero => rfl
  | succ n ih =>
    unfold walk
    rw [getNextHop_leaf ha hb]
    cases hnext : T.toLeafSpine.getNextHop (counters n) (plain p) q with
    | none => rfl
    | some r =>
      obtain ⟨p', c', o⟩ := r
      have hp : p' = plain p := by
        obtain ⟨s₁, p₁, hinner, hp₁⟩ := LeafSpine.getNextHop_cases hnext
        have hp₁ : p₁ = plain p := hp₁.elim id And.right
        subst hp₁
        obtain ⟨-, -, ⟨-, -, hp⟩ | ⟨-, hp⟩⟩ := LeafSpine.getNextHopInner_cases hinner <;> exact hp
      subst hp
      cases o with
      | none => rfl
      | some q' =>
        simp only [Option.map_some, Option.bind_some, ih, Option.map_map]
        rfl

/-- **`LeafSpineTopology`** delivers exactly if the racks are of one size. -/
theorem delivers_iff (hs : T.Sized) :
    T.Delivers .leaf T.dst T.HasQueue T.route T.getNextHop (fun _ => True) ↔ T.Even := by
  constructor
  · intro h
    refine hs.even (fun id hid => ?_) fun a ha b hb hne port hport => ?_
    · have hnode := h.wired id hid
      rwa [dst, if_neg (not_isArbiter hid)] at hnode
    · obtain ⟨way, hchain, -⟩ := h.routes a ha b hb hne port hport
      obtain ⟨way', -, hchain'⟩ :=
        (chain_map_iff (route_leaf (not_isArbiter ha) (not_isArbiter hb))).1 hchain
      exact ⟨way', hchain'⟩
  · intro he
    have hD := (LeafSpine.delivers_iff hs).2 he
    refine ⟨fun id hid => ?_, fun a ha b hb hne port hport => ?_, fun p ha hb hne _ counters => ?_⟩
    · rw [dst, if_neg (not_isArbiter hid)]
      exact hD.wired id hid
    · obtain ⟨way, hchain, hqueues, hlast, hlength⟩ := hD.routes a ha b hb hne port hport
      refine ⟨way.map .leaf,
        (chain_map_iff (route_leaf (not_isArbiter ha) (not_isArbiter hb))).2 ⟨way, rfl, hchain⟩,
        ?_, ?_, by rwa [List.length_map]⟩
      · exact List.forall_mem_map.2 fun q hq => hasQueue_leaf (hqueues q hq)
      · obtain ⟨q, hq, hdst⟩ := Option.map_eq_some_iff.1 hlast
        rw [List.getLast?_map, hq]
        exact congrArg some (dst_leaf hdst)
    · have hok : T.PortOk (plain p) := fun h => absurd rfl h
      obtain ⟨port, hport, way, hwalk, hchain⟩ := hD.walks (plain p) ha hb hne hok counters
      refine ⟨port, hport, way.map .leaf, ?_, ?_⟩
      · rw [walk_leaf (not_isArbiter ha) (not_isArbiter hb)]
        exact congrArg (Option.map _) hwalk
      · exact (chain_map_iff (route_leaf (not_isArbiter ha) (not_isArbiter hb))).2
          ⟨way, rfl, hchain⟩

end PlainLeafSpine

/-! ### Both classes -/

/-- What was meant: a network of either class delivers. -/
def PlainLeafSpine.BothDeliver (T : PlainLeafSpine) : Prop :=
  T.toLeafSpine.Delivers id T.toLeafSpine.dst T.toLeafSpine.HasQueue T.toLeafSpine.route
      T.toLeafSpine.getNextHop T.toLeafSpine.PortOk ∧
    T.toLeafSpine.Delivers .leaf T.dst T.HasQueue T.route T.getNextHop fun _ => True

/-- **A leaf-spine network delivers** exactly if the racks are of one size. -/
theorem PlainLeafSpine.bothDeliver_iff_even {T : PlainLeafSpine} (hs : T.Sized) :
    T.BothDeliver ↔ T.Even :=
  ⟨fun h => (LeafSpine.delivers_iff hs).1 h.1,
    fun h => ⟨(LeafSpine.delivers_iff hs).2 h, (PlainLeafSpine.delivers_iff hs).2 h⟩⟩

/-- The network of an experiment: 9 switches with 4 uplinks. -/
def experimentLeafSpine (numHosts : ℕ) : PlainLeafSpine := ⟨⟨numHosts, 9, 4, 0⟩, false⟩

theorem bothDeliver_experiment : (experimentLeafSpine 144).BothDeliver :=
  (PlainLeafSpine.bothDeliver_iff_even ⟨by decide, by decide, by decide, by decide, by decide⟩).2
    ⟨⟨16, rfl⟩, .inr (by decide)⟩

/-- With 10 hosts the last one is wired to the tenth of the 9 switches. -/
theorem not_bothDeliver_ten : (experimentLeafSpine 10).Sized ∧
    ¬ (experimentLeafSpine 10).HasNode ((experimentLeafSpine 10).dst (.leaf (.host 9))) ∧
    ¬ (experimentLeafSpine 10).BothDeliver := by
  have hnode : ¬ (experimentLeafSpine 10).HasNode
      ((experimentLeafSpine 10).dst (.leaf (.host 9))) := by
    change ¬ 9 < 9
    decide
  exact ⟨⟨by decide, by decide, by decide, by decide, by decide⟩, hnode,
    fun h => hnode (h.2.wired 9 (by decide))⟩

end DcSim
