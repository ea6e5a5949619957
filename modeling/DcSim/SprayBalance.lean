import DcSim.LeafSpinePath
import DcSim.Spray

/-!
The uplinks of a host under packet spraying.

With `load_balancing` 0 a host queue takes the uplinks of its switch in turns. `get_next_hop`
asks `get_next_hop_inner` a first time only to see whether the packet has arrived, and that
call takes a turn as well. So a queue comes to every other uplink: to all of them if their
number is odd, and to half of them if it is even.
-/

namespace DcSim

open Routing Word32

/-! ### `SnsLeafSpineTopology` -/

namespace LeafSpine

variable (T : LeafSpine)

/-- The queue to the `c`-th core switch, at the switch of a host. -/
def uplink (id : HostId) (c : ℕ) : LeafQueue :=
  .agg (id / T.hostsPerAggSwitch) (T.hostsPerAggSwitch + c)

/-- A packet at a host queue; one for another rack is a SIM or a SIM_ACK. -/
def IsProbeOf (id : HostId) (p : Packet) : Prop :=
  p.src = id ∧ (¬ T.IsSameRack id p.dst → p.snsType = .sim ∨ p.snsType = .simAck)

structure HostRun (id : HostId) (sprayCounter n : ℕ) (ps : List Packet) : Prop where
  probes : ∀ p ∈ ps, T.IsProbeOf id p
  interRack : ps.countP (fun p => ¬ T.IsSameRack id p.dst) = n * T.numCoreSwitches
  noWrap : sprayCounter + 2 * (n * T.numCoreSwitches) < 18446744073709551616

/-- Each uplink is chosen `n` times. -/
def Balanced (id : HostId) (sprayCounter n : ℕ) (ps : List Packet) : Prop :=
  ∃ rs ∈ nextHops T.getNextHop (.host id) sprayCounter ps,
    ∀ c < T.numCoreSwitches, rs.1.count (some (T.uplink id c)) = n

variable {T} {id : HostId}

lemma getNextHop_eq_twice : T.getNextHop = twice T.getNextHopInner := by
  funext s p q
  unfold getNextHop twice
  rcases T.getNextHopInner s p q with _ | ⟨_, _, _ | _⟩ <;> rfl

lemma uplink_inj {c c' : ℕ} (h : T.uplink id c = T.uplink id c') : c = c' := by
  simpa [uplink] using h

lemma inner_aside (hs : T.Sized) {p : Packet} (hsrc : p.src = id) (hrack : T.IsSameRack id p.dst)
    (s : ℕ) : ∃ r, T.getNextHopInner s p (.host id) = some (p, s, some r) ∧
      ∀ c < T.numCoreSwitches, r ≠ T.uplink id c := by
  have hlt : p.dst % T.hostsPerAggSwitch < T.hostsPerAggSwitch := Nat.mod_lt _ hs.rack_pos
  have hqueue : T.queueAt (p.dst % T.hostsPerAggSwitch) (.agg (id / T.hostsPerAggSwitch)) =
      some (.agg (id / T.hostsPerAggSwitch) (p.dst % T.hostsPerAggSwitch)) :=
    if_pos (Nat.lt_add_right _ hlt)
  refine ⟨.agg (id / T.hostsPerAggSwitch) (p.dst % T.hostsPerAggSwitch), ?_, fun c _ hc => ?_⟩
  · simp only [getNextHopInner, dst, hsrc, if_true, if_pos hrack, hqueue, Option.map_some]
  · have hport : p.dst % T.hostsPerAggSwitch = T.hostsPerAggSwitch + c := (LeafQueue.agg.inj hc).2
    rw [hport] at hlt
    exact absurd hlt (Nat.not_lt.2 (Nat.le_add_right _ _))

/-- **One call is fair**: with `load_balancing` 0 the probes take the uplinks in turns. -/
lemma inner_sprays (hs : T.Sized) (hlb : T.loadBalancing = 0)
    (hfit : T.hostsPerAggSwitch + T.numCoreSwitches ≤ 4294967296) :
    Sprays T.getNextHopInner (.host id) T.numCoreSwitches 1 0 18446744073709551616 (T.uplink id)
      (T.IsProbeOf id) (fun p => ¬ T.IsSameRack id p.dst) where
  choices_pos := hs.core_pos
  choice_inj _ _ _ _ := uplink_inj
  spray {s p} hp hrack hlimit := by
    obtain ⟨hsrc, hprobe⟩ := hp
    have hcore : T.numCoreSwitches ≠ 0 := Nat.one_le_iff_ne_zero.1 hs.core_pos
    have hport : s % T.numCoreSwitches < T.numCoreSwitches := Nat.mod_lt _ hs.core_pos
    have hchoice : ∃ z, T.choosePort s p =
        ({ p with savedHashPort := z }, s + 1, s % T.numCoreSwitches) := by
      have hnext : (s + 1) % 18446744073709551616 = s + 1 := Nat.mod_eq_of_lt hlimit
      rcases hprobe hrack with hsim | hack
      · exact ⟨toInt32 (s % T.numCoreSwitches),
          by simp [choosePort, savePort, hashPort, nextSpray, hlb, hsim, hnext]⟩
      · exact ⟨p.savedHashPort,
          by simp [choosePort, savePort, hashPort, nextSpray, hlb, hack, hnext]⟩
    obtain ⟨z, hz⟩ := hchoice
    have hqueue : T.queueAt (add32 T.hostsPerAggSwitch (s % T.numCoreSwitches))
        (.agg (id / T.hostsPerAggSwitch)) = some (T.uplink id (s % T.numCoreSwitches)) := by
      rw [add32_eq (by omega)]
      exact if_pos (by omega)
    refine ⟨{ p with savedHashPort := z }, ⟨hsrc, hprobe⟩, hrack, ?_⟩
    simp only [getNextHopInner, dst, hsrc, if_true, if_neg hrack, if_neg hcore, hz, hqueue,
      Option.map_some, Nat.add_zero]
  aside {s p} hp hrack := by
    obtain ⟨r, hr, hne⟩ := inner_aside hs hp.1 (not_not.1 hrack) s
    exact ⟨p, r, hp, hrack, hr, hne⟩

lemma inner_index (hs : T.Sized) {s s' i j : ℕ} {p p' : Packet}
    (h : T.getNextHopInner s p (.host id) = some (p', s', some (.agg i j))) : j < 4294967296 := by
  have hrack : T.hostsPerAggSwitch < 4294967296 := (Nat.div_le_self _ _).trans_lt hs.hosts_lt
  have hindex : ∀ {x : ℕ} {p₁ : Packet} {s₁ : ℕ}, x < 4294967296 →
      ((T.queueAt x (.agg (id / T.hostsPerAggSwitch))).map fun r => (p₁, s₁, some r)) =
        some (p', s', some (.agg i j)) → j < 4294967296 := by
    intro x p₁ s₁ hx h
    obtain ⟨r, hr, h⟩ := Option.map_eq_some_iff.1 h
    obtain ⟨-, hr'⟩ := Option.ite_none_right_eq_some.1 hr
    obtain ⟨rfl, rfl, rfl⟩ : p₁ = p' ∧ s₁ = s' ∧ r = .agg i j := by simpa using h
    obtain ⟨-, rfl⟩ := LeafQueue.agg.inj (Option.some.inj hr')
    exact hx
  simp only [getNextHopInner, dst] at h
  split_ifs at h
  · exact hindex ((Nat.mod_lt _ hs.rack_pos).trans hrack) h
  · exact hindex (Nat.mod_lt _ (by decide)) h

/-- **`SnsLeafSpineTopology` sprays its probes evenly** over an odd number of uplinks. -/
lemma balanced_iff_odd (hs : T.Sized) (hlb : T.loadBalancing = 0) {s n : ℕ} {ps : List Packet}
    (h : T.HostRun id s n ps) : T.Balanced id s n ps ↔
      n = 0 ∨ Odd T.numCoreSwitches ∧ T.hostsPerAggSwitch + T.numCoreSwitches ≤ 4294967296 := by
  have hrack : T.hostsPerAggSwitch < 4294967296 := (Nat.div_le_self _ _).trans_lt hs.hosts_lt
  unfold Balanced
  rw [getNextHop_eq_twice]
  refine twice_balanced_iff hs.core_pos (fun _ _ _ _ => uplink_inj)
    (fun hp hno => inner_aside hs hp.1 (not_not.1 hno) _) (inner_sprays hs hlb) (fun hfit => ?_)
    h.probes h.interRack h.noWrap
  -- the uplink at index `2 ^ 32` is out of reach
  refine ⟨4294967296 - T.hostsPerAggSwitch, by omega, fun s p p' s' hp => ?_⟩
  have hlt := inner_index hs hp
  omega

end LeafSpine

/-! ### `LeafSpineTopology` -/

namespace PlainLeafSpine

variable (T : PlainLeafSpine)

/-- The switch of a host, or of the arbiter. -/
def rack (id : HostId) : ℕ := if T.IsArbiter id then 0 else id / T.hostsPerAggSwitch

/-- The queue to the `c`-th core switch, at the switch of a host. -/
def uplink (id : HostId) (c : ℕ) : PlainLeafQueue :=
  .leaf (.agg (T.rack id) (T.hostsPerAggSwitch + c))

structure HostRun (id : HostId) (sprayCounter n : ℕ) (ps : List Packet) : Prop where
  src : ∀ p ∈ ps, p.src = id
  interRack : ps.countP (fun p => ¬ T.IsSameRack id p.dst) = n * T.numCoreSwitches
  noWrap : sprayCounter + 2 * (n * T.numCoreSwitches) < 18446744073709551616

/-- Each uplink is chosen `n` times. -/
def Balanced (id : HostId) (sprayCounter n : ℕ) (ps : List Packet) : Prop :=
  ∃ rs ∈ nextHops T.getNextHop (.leaf (.host id)) sprayCounter ps,
    ∀ c < T.numCoreSwitches, rs.1.count (some (T.uplink id c)) = n

variable {T} {id : HostId}

lemma getNextHop_eq_twice : T.getNextHop = twice T.getNextHopInner := by
  funext s p q
  unfold getNextHop twice
  rcases T.getNextHopInner s p q with _ | ⟨_, _, _ | _⟩ <;> rfl

lemma uplink_inj {c c' : ℕ} (h : T.uplink id c = T.uplink id c') : c = c' := by
  simpa [uplink] using h

lemma dst_host : T.dst (.leaf (.host id)) = .agg (T.rack id) := by
  simp only [dst, rack, LeafSpine.dst]
  split_ifs <;> rfl

lemma rack_of_isArbiter {b : HostId} (hb : T.IsArbiter b) (h : T.IsSameRack id b) :
    T.rack id = 0 := by
  unfold IsSameRack at h
  unfold rack
  rw [if_pos (.inr hb)] at h
  split_ifs with ha
  · rfl
  · exact (h.resolve_left fun h => ha h.1).elim (fun h => absurd h.1 ha) And.right

lemma inner_aside (hs : T.Sized) {p : Packet} (hsrc : p.src = id) (hrack : T.IsSameRack id p.dst)
    (s : ℕ) : ∃ r, T.getNextHopInner s p (.leaf (.host id)) = some (p, s, some r) ∧
      ∀ c < T.numCoreSwitches, r ≠ T.uplink id c := by
  have hlt : p.dst % T.hostsPerAggSwitch < T.hostsPerAggSwitch := Nat.mod_lt _ hs.rack_pos
  by_cases hb : T.IsArbiter p.dst
  · have hqueue : T.queueFor p.dst (p.dst % T.hostsPerAggSwitch) (.agg (T.rack id)) =
        some .toArbiter := by
      rw [queueFor, if_pos hb, rack_of_isArbiter hb hrack]
      rfl
    refine ⟨.toArbiter, ?_, fun c _ hc => PlainLeafQueue.noConfusion hc⟩
    simp only [getNextHopInner, dst_host, hsrc, if_true, if_pos hrack, hqueue, Option.map_some]
  · have hqueue : T.queueFor p.dst (p.dst % T.hostsPerAggSwitch) (.agg (T.rack id)) =
        some (.leaf (.agg (T.rack id) (p.dst % T.hostsPerAggSwitch))) := by
      rw [queueFor, if_neg hb]
      exact congrArg (Option.map _) (if_pos (Nat.lt_add_right _ hlt))
    refine ⟨.leaf (.agg (T.rack id) (p.dst % T.hostsPerAggSwitch)), ?_, fun c _ hc => ?_⟩
    · simp only [getNextHopInner, dst_host, hsrc, if_true, if_pos hrack, hqueue, Option.map_some]
    · have hport : p.dst % T.hostsPerAggSwitch = T.hostsPerAggSwitch + c :=
        (LeafQueue.agg.inj (PlainLeafQueue.leaf.inj hc)).2
      rw [hport] at hlt
      exact absurd hlt (Nat.not_lt.2 (Nat.le_add_right _ _))

/-- **One call is fair**: with `load_balancing` 0 the packets take the uplinks in turns. -/
lemma inner_sprays (hs : T.Sized) (hlb : T.loadBalancing = 0)
    (hfit : T.hostsPerAggSwitch + T.numCoreSwitches ≤ 4294967296) :
    Sprays T.getNextHopInner (.leaf (.host id)) T.numCoreSwitches 1 0 18446744073709551616
      (T.uplink id) (fun p => p.src = id) (fun p => ¬ T.IsSameRack id p.dst) where
  choices_pos := hs.core_pos
  choice_inj _ _ _ _ := uplink_inj
  spray {s p} hsrc hrack hlimit := by
    have hcore : T.numCoreSwitches ≠ 0 := Nat.one_le_iff_ne_zero.1 hs.core_pos
    have hlt : s % T.numCoreSwitches < T.numCoreSwitches := Nat.mod_lt _ hs.core_pos
    have hport : hashPort T.mode T.numCoreSwitches s 0 p = s % T.numCoreSwitches := by
      simp [hashPort, mode, hlb]
    have hnext : nextSpray T.mode s = s + 1 := by
      simpa [nextSpray, mode, hlb] using Nat.mod_eq_of_lt hlimit
    have hqueue : T.queueAt (add32 T.hostsPerAggSwitch (s % T.numCoreSwitches))
        (.agg (T.rack id)) = some (.agg (T.rack id)
          (T.hostsPerAggSwitch + s % T.numCoreSwitches)) := by
      rw [add32_eq (by omega)]
      exact if_pos (by omega)
    refine ⟨p, hsrc, hrack, ?_⟩
    simp only [getNextHopInner, dst_host, hsrc, if_true, if_neg hrack, if_neg hcore, hport, hnext,
      hqueue, Option.map_some, Nat.add_zero]
    rfl
  aside {s p} hsrc hrack := by
    obtain ⟨r, hr, hne⟩ := inner_aside hs hsrc (not_not.1 hrack) s
    exact ⟨p, r, hsrc, hrack, hr, hne⟩

lemma inner_index (hs : T.Sized) {s s' i j : ℕ} {p p' : Packet}
    (h : T.getNextHopInner s p (.leaf (.host id)) = some (p', s', some (.leaf (.agg i j)))) :
    j < 4294967296 := by
  have hrack : T.hostsPerAggSwitch < 4294967296 := (Nat.div_le_self _ _).trans_lt hs.hosts_lt
  simp only [getNextHopInner, dst_host] at h
  split_ifs at h with hsrc hsame hcore
  · obtain ⟨r, hr, h⟩ := Option.map_eq_some_iff.1 h
    obtain ⟨rfl, rfl, rfl⟩ : p = p' ∧ s = s' ∧ r = .leaf (.agg i j) := by simpa using h
    unfold queueFor at hr
    split_ifs at hr with hb
    · rw [← hsrc] at hr
      rw [rack_of_isArbiter hb hsame] at hr
      simp [queueToArbiter] at hr
    · obtain ⟨r, hr, hleaf⟩ := Option.map_eq_some_iff.1 hr
      obtain ⟨-, hr'⟩ := Option.ite_none_right_eq_some.1 hr
      obtain rfl := PlainLeafQueue.leaf.inj hleaf
      obtain ⟨-, rfl⟩ := LeafQueue.agg.inj (Option.some.inj hr')
      exact (Nat.mod_lt _ hs.rack_pos).trans hrack
  · obtain ⟨r, hr, h⟩ := Option.map_eq_some_iff.1 h
    obtain ⟨-, hr'⟩ := Option.ite_none_right_eq_some.1 hr
    obtain ⟨rfl, rfl, rfl⟩ : p = p' ∧ nextSpray T.mode s = s' ∧ r = .agg i j := by simpa using h
    obtain ⟨-, rfl⟩ := LeafQueue.agg.inj (Option.some.inj hr')
    exact Nat.mod_lt _ (by decide)

/-- **`LeafSpineTopology` sprays its packets evenly** over an odd number of uplinks. -/
lemma balanced_iff_odd (hs : T.Sized) (hlb : T.loadBalancing = 0) {s n : ℕ} {ps : List Packet}
    (h : T.HostRun id s n ps) : T.Balanced id s n ps ↔
      n = 0 ∨ Odd T.numCoreSwitches ∧ T.hostsPerAggSwitch + T.numCoreSwitches ≤ 4294967296 := by
  have hrack : T.hostsPerAggSwitch < 4294967296 := (Nat.div_le_self _ _).trans_lt hs.hosts_lt
  unfold Balanced
  rw [getNextHop_eq_twice]
  refine twice_balanced_iff hs.core_pos (fun _ _ _ _ => uplink_inj)
    (fun hp hno => inner_aside hs hp (not_not.1 hno) _) (inner_sprays hs hlb) (fun hfit => ?_)
    h.src h.interRack h.noWrap
  refine ⟨4294967296 - T.hostsPerAggSwitch, by omega, fun s p p' s' hp => ?_⟩
  have hlt := inner_index hs hp
  omega

/-! ### Both classes -/

/-- **Spraying is balanced** exactly if the number of core switches is odd. (The last condition is
that a `uint32_t` counts the queues of a switch.) -/
theorem sprayed_iff_odd (hs : T.Sized) (hlb : T.loadBalancing = 0) {s n : ℕ} {ps : List Packet} :
    (T.HostRun id s n ps → (T.Balanced id s n ps ↔
      n = 0 ∨ Odd T.numCoreSwitches ∧ T.hostsPerAggSwitch + T.numCoreSwitches ≤ 4294967296)) ∧
    (T.toLeafSpine.HostRun id s n ps → (T.toLeafSpine.Balanced id s n ps ↔
      n = 0 ∨ Odd T.numCoreSwitches ∧ T.hostsPerAggSwitch + T.numCoreSwitches ≤ 4294967296)) :=
  ⟨balanced_iff_odd hs hlb, LeafSpine.balanced_iff_odd hs hlb⟩

def interRackSim : Packet where
  snsType := .sim
  sendingTime := 1
  flow := 0
  seqNo := 0
  size := 40
  src := 0
  dst := 17

/-- With 3 core switches, 3 packets take an uplink each. -/
theorem sprayed_threeCores :
    PlainLeafSpine.Balanced ⟨⟨144, 9, 3, 0⟩, false⟩ 0 0 1 (List.replicate 3 interRackSim) ∧
    LeafSpine.Balanced ⟨144, 9, 3, 0⟩ 0 0 1 (List.replicate 3 interRackSim) := by
  have hboth := @sprayed_iff_odd ⟨⟨144, 9, 3, 0⟩, false⟩ 0
    ⟨by decide, by decide, by decide, by decide, by decide⟩ rfl 0 1
    (List.replicate 3 interRackSim)
  refine ⟨(hboth.1 ⟨by decide, by decide, by decide⟩).2 (.inr (by decide)),
    (hboth.2 ⟨?_, by decide, by decide⟩).2 (.inr (by decide))⟩
  intro p hp
  obtain ⟨-, rfl⟩ := List.mem_replicate.1 hp
  exact ⟨rfl, fun _ => .inl rfl⟩

/-- **With the 4 core switches of an experiment**, 4 packets take two of the uplinks. -/
theorem not_sprayed_experiment :
    (experimentLeafSpine 144).Sized ∧ (experimentLeafSpine 144).loadBalancing = 0 ∧
    (experimentLeafSpine 144).HostRun 0 0 1 (List.replicate 4 interRackSim) ∧
    ¬ (experimentLeafSpine 144).Balanced 0 0 1 (List.replicate 4 interRackSim) ∧
    (experimentLeafSpine 144).toLeafSpine.HostRun 0 0 1 (List.replicate 4 interRackSim) ∧
    ¬ (experimentLeafSpine 144).toLeafSpine.Balanced 0 0 1 (List.replicate 4 interRackSim) := by
  have hsns : nextHops (experimentLeafSpine 144).toLeafSpine.getNextHop (.host 0) 0
      (List.replicate 4 interRackSim) =
      some ([some (.agg 0 17), some (.agg 0 19), some (.agg 0 17), some (.agg 0 19)], 8) := by
    decide
  have hplain : nextHops (experimentLeafSpine 144).getNextHop (.leaf (.host 0)) 0
      (List.replicate 4 interRackSim) =
      some ([some (.leaf (.agg 0 17)), some (.leaf (.agg 0 19)), some (.leaf (.agg 0 17)),
        some (.leaf (.agg 0 19))], 8) := by
    decide
  refine ⟨⟨by decide, by decide, by decide, by decide, by decide⟩, rfl,
    ⟨by decide, by decide, by decide⟩, ?_, ⟨?_, by decide, by decide⟩, ?_⟩
  · rintro ⟨rs, hrs, h⟩
    obtain rfl := Option.some.inj (hplain.symm.trans hrs)
    exact absurd (h 0 (by decide)) (by decide)
  · intro p hp
    obtain ⟨-, rfl⟩ := List.mem_replicate.1 hp
    exact ⟨rfl, fun _ => .inl rfl⟩
  · rintro ⟨rs, hrs, h⟩
    obtain rfl := Option.some.inj (hsns.symm.trans hrs)
    exact absurd (h 0 (by decide)) (by decide)

end PlainLeafSpine

end DcSim
