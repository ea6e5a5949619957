import DcSim.Routing
import DcSim.UplinkPort

/-!
The leaf-spine network: `SnsLeafSpineTopology`.

Each aggregation switch has the queues of its hosts first, then one to each core switch, and a
core switch has one to each aggregation switch. `get_next_hop` asks `get_next_hop_inner` twice
when a packet goes on, so a packet gets the port of the second call, and the counter of the
queue goes up by two.
-/

namespace DcSim

open Routing Word32

structure LeafSpine where
  numHosts : ℕ
  numAggSwitches : ℕ
  numCoreSwitches : ℕ
  loadBalancing : ℕ

inductive LeafNode
  | host (id : HostId)
  | agg (i : ℕ)
  | core (i : ℕ)
  deriving DecidableEq

/-- The queue of a host, and the `j`-th queue of a switch. -/
inductive LeafQueue
  | host (id : HostId)
  | agg (i j : ℕ)
  | core (i j : ℕ)
  deriving DecidableEq

namespace LeafSpine

variable (T : LeafSpine)

def hostsPerAggSwitch : ℕ := T.numHosts / T.numAggSwitches

/-- The field `dst` of a queue. -/
def dst : LeafQueue → LeafNode
  | .host id => .agg (id / T.hostsPerAggSwitch)
  | .agg i j =>
    if j < T.hostsPerAggSwitch then .host (add32 (mul32 i T.hostsPerAggSwitch) j)
    else .core (j - T.hostsPerAggSwitch)
  | .core _ j => .agg j

def IsSameRack (a b : HostId) : Prop := a / T.hostsPerAggSwitch = b / T.hostsPerAggSwitch

instance (a b : HostId) : Decidable (T.IsSameRack a b) := by unfold IsSameRack; infer_instance

def queueAt (x : ℕ) : LeafNode → Option LeafQueue
  | .host _ => none
  | .agg i => if x < T.hostsPerAggSwitch + T.numCoreSwitches then some (.agg i x) else none
  | .core i => if x < T.numAggSwitches then some (.core i x) else none

/-- `hash_port`, and the packet and the counter after the choice. -/
def choosePort (sprayCounter : ℕ) (p : Packet) : Packet × ℕ × ℕ :=
  -- mode 3 has no branch here
  let mode := if T.loadBalancing = 3 then 2 else T.loadBalancing
  let port := hashPort mode T.numCoreSwitches sprayCounter 0 p
  let r := savePort (p.snsType = .sim) (p.snsType ≠ .simAck) p.savedHashPort port
  ({ p with savedHashPort := r.1 }, nextSpray mode sprayCounter, r.2)

def getNextHopInner : Router Packet LeafQueue := fun sprayCounter p q =>
  match T.dst q with
  | .host id => if p.dst = id then some (p, sprayCounter, none) else none
  | n =>
    match q with
    | .host id =>
      if p.src = id then
        if T.IsSameRack p.src p.dst then
          (T.queueAt (p.dst % T.hostsPerAggSwitch) n).map fun r => (p, sprayCounter, some r)
        else if T.numCoreSwitches = 0 then none
        else
          let c := T.choosePort sprayCounter p
          (T.queueAt (add32 T.hostsPerAggSwitch c.2.2) n).map fun r => (c.1, c.2.1, some r)
      else none
    | .agg _ _ =>
      (T.queueAt (p.dst / T.hostsPerAggSwitch) n).map fun r => (p, sprayCounter, some r)
    | .core _ _ =>
      (T.queueAt (p.dst % T.hostsPerAggSwitch) n).map fun r => (p, sprayCounter, some r)

def getNextHop : Router Packet LeafQueue := fun sprayCounter p q =>
  match T.getNextHopInner sprayCounter p q with
  | some (p, sprayCounter, some _) => T.getNextHopInner sprayCounter p q
  | r => r

/-! ### The port decides -/

/-- A packet between two hosts needs a port at a queue. -/
def Asks (a b : HostId) (q : LeafQueue) : Prop := (∃ id, q = .host id) ∧ ¬ T.IsSameRack a b

/-- The next queue of a packet between two hosts, with a port. -/
def route (port : ℕ) (a b : HostId) (q : LeafQueue) : Option (Option LeafQueue) :=
  match T.dst q with
  | .host id => if b = id then some none else none
  | n =>
    match q with
    | .host id =>
      if a = id then
        if T.IsSameRack a b then (T.queueAt (b % T.hostsPerAggSwitch) n).map some
        else if T.numCoreSwitches = 0 then none
        else (T.queueAt (add32 T.hostsPerAggSwitch port) n).map some
      else none
    | .agg _ _ => (T.queueAt (b / T.hostsPerAggSwitch) n).map some
    | .core _ _ => (T.queueAt (b % T.hostsPerAggSwitch) n).map some

variable {T} {p p' : Packet} {q : LeafQueue} {r : Option LeafQueue} {s s' port : ℕ} {a b : HostId}

lemma route_congr (port' : ℕ) (h : ¬ T.Asks a b q) : T.route port a b q = T.route port' a b q := by
  unfold route
  cases q with
  | host id =>
    have hsame : T.IsSameRack a b := by
      by_contra hne
      exact h ⟨⟨id, rfl⟩, hne⟩
    simp only [if_pos hsame]
  | agg i j | core i j => rfl

lemma queueAt_ne_host {x : ℕ} {n : LeafNode} {q' : LeafQueue} (h : T.queueAt x n = some q')
    (id : HostId) : q' ≠ .host id := by
  rintro rfl
  cases n <;> simp [queueAt] at h

@[simp] lemma map_queue (o : Option LeafQueue) (p : Packet) (s : ℕ) :
    (o.map fun r => (p, s, some r)).map (·.2.2) = o.map some := by
  cases o <;> rfl

lemma map_getNextHopInner (s : ℕ) (p : Packet) (q : LeafQueue) :
    (T.getNextHopInner s p q).map (·.2.2) = T.route (T.choosePort s p).2.2 p.src p.dst q := by
  unfold getNextHopInner route
  cases hdst : T.dst q with
  | host id =>
    simp only
    split_ifs <;> rfl
  | agg n | core n =>
    cases q with
    | host id =>
      simp only
      split_ifs <;> simp only [map_queue, Option.map_none]
    | agg i j | core i j => simp only [map_queue]

/-- **What a step does**: a port is chosen where one is needed, and the packet goes on with it. -/
lemma getNextHopInner_cases (h : T.getNextHopInner s p q = some (p', s', r)) :
    T.route (T.choosePort s p).2.2 p.src p.dst q = some r ∧
      (∀ q' ∈ r, ∀ id, q' ≠ .host id) ∧
      (T.Asks p.src p.dst q ∧ T.numCoreSwitches ≠ 0 ∧ p' = (T.choosePort s p).1 ∨
        ¬ T.Asks p.src p.dst q ∧ p' = p) := by
  have hroute : T.route (T.choosePort s p).2.2 p.src p.dst q = some r := by
    rw [← map_getNextHopInner, h]
    rfl
  refine ⟨hroute, ?_⟩
  unfold getNextHopInner at h
  -- a queue of a switch is not one of a host
  have hgo : ∀ {x n} {p₁ : Packet} {s₁ : ℕ},
      ((T.queueAt x n).map fun r => (p₁, s₁, some r)) = some (p', s', r) →
      (∀ q' ∈ r, ∀ id, q' ≠ .host id) ∧ p' = p₁ := by
    intro x n p₁ s₁ h
    obtain ⟨q', ho, hq'⟩ := Option.map_eq_some_iff.1 h
    obtain ⟨rfl, rfl, rfl⟩ : p₁ = p' ∧ s₁ = s' ∧ some q' = r := by simpa using hq'
    refine ⟨fun q'' hq'' => ?_, rfl⟩
    obtain rfl : q' = q'' := by simpa using hq''
    exact queueAt_ne_host ho
  cases q with
  | host id =>
    have hdst : T.dst (.host id) = .agg (id / T.hostsPerAggSwitch) := rfl
    simp only [hdst] at h
    split_ifs at h with h₁ h₂ h₃
    · obtain ⟨hne, hp⟩ := hgo h
      exact ⟨hne, .inr ⟨fun hasks => hasks.2 h₂, hp⟩⟩
    · obtain ⟨hne, hp⟩ := hgo h
      exact ⟨hne, .inl ⟨⟨⟨id, rfl⟩, h₂⟩, h₃, hp⟩⟩
  | agg i j | core i j =>
    have hasks : ∀ {q}, (∀ id, q ≠ .host id) → ¬ T.Asks p.src p.dst q :=
      fun hq hasks => hasks.1.elim hq
    split at h
    · split_ifs at h
      obtain ⟨rfl, rfl, rfl⟩ : p = p' ∧ s = s' ∧ none = r := by simpa using h
      exact ⟨by simp, .inr ⟨hasks (by simp), rfl⟩⟩
    · obtain ⟨hne, hp⟩ := hgo h
      exact ⟨hne, .inr ⟨hasks (by simp), hp⟩⟩

lemma getNextHop_cases (h : T.getNextHop s p q = some (p', s', r)) :
    ∃ s₁ p₁, T.getNextHopInner s₁ p₁ q = some (p', s', r) ∧
      (p₁ = p ∨ T.Asks p.src p.dst q ∧ p₁ = (T.choosePort s p).1) := by
  unfold getNextHop at h
  split at h
  · rename_i p₁ s₁ q' h₁
    refine ⟨s₁, p₁, h, ?_⟩
    obtain ⟨-, -, ⟨hasks, -, hp⟩ | ⟨-, hp⟩⟩ := getNextHopInner_cases h₁
    · exact .inr ⟨hasks, hp⟩
    · exact .inl hp
  · exact ⟨s, p, h, .inl rfl⟩

end LeafSpine

end DcSim
