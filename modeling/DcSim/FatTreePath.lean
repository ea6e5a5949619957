import DcSim.FatTreeShape

/-!
The way between two hosts of a fat tree.

With an uplink port at the host and one at the edge switch the way is a list of two, four or
six queues, the same in both classes but for the core switch. A packet with these ports goes
this way and no other, and whatever ports a packet gets, it goes one of these ways.
-/

namespace DcSim.FatTree

open Routing Word32

variable {T : FatTree} {h a b i j l₁ l₂ : ℕ}

namespace Shape

variable (S : Shape T h)
include S

/-! ### The next queue -/

def uplinks (l₁ l₂ : ℕ) : Level → ℕ
  | .host => l₁
  | .edge => l₂

lemma queueAt_of_lt {x : ℕ} (hx : x < h) (i : ℕ) :
    T.queueAt x (.edge i) = some (.edge i x) ∧ T.queueAt x (.agg i) = some (.agg i x) := by
  have hk : x < T.k := by rw [S.k]; omega
  simp [queueAt, hk]

lemma queueAt_up {x : ℕ} (hx : x < h) (i : ℕ) :
    T.queueAt (add32 h x) (.edge i) = some (.edge i (h + x)) ∧
      T.queueAt (add32 h x) (.agg i) = some (.agg i (h + x)) := by
  have hlt := S.lt
  have hk : h + x < T.k := by rw [S.k]; omega
  rw [add32_eq (by omega)]
  simp [queueAt, hk]

section Hops

variable {p : HopPacket} (hsrc : p.packet.src = a) (hdst : p.packet.dst = b)
  (ha : a < T.numHosts) (hb : b < T.numHosts)
include hsrc hdst ha hb

variable (l₁ l₂) in
lemma route_host_rack (hrack : a / h = b / h) :
    T.route (uplinks l₁ l₂) p (.host a) = some (some (.edge (a / h) (b % h))) := by
  have hsame : T.IsSameRack a b := (S.isSameRack_iff ha hb).2 hrack
  have hqueue := (S.queueAt_of_lt (Nat.mod_lt b S.pos) (a / h)).1
  simp only [route, getNextHopWith, S.dst_host ha, getHostNextHop, hsrc, if_true, setHop_packet,
    hdst, if_pos hsame, if_neg (not_isArbiter hb), S.half, hqueue, map_goTo, Option.map_some]

lemma route_host_up (h₁ : l₁ < h) (hrack : a / h ≠ b / h) :
    T.route (uplinks l₁ l₂) p (.host a) = some (some (.edge (a / h) (h + l₁))) := by
  have hsame : ¬ T.IsSameRack a b := fun hsame => hrack ((S.isSameRack_iff ha hb).1 hsame)
  have hqueue := (S.queueAt_up h₁ (a / h)).1
  simp only [route, getNextHopWith, S.dst_host ha, getHostNextHop, hsrc, if_true, setHop_packet,
    hdst, if_neg hsame, goUp, fixedPorts, uplinks, S.half, hqueue, map_goTo, Option.map_some]

variable (l₂) in
lemma route_edge_pod (h₁ : l₁ < h) (hpod : a / h / h = b / h / h) :
    T.route (uplinks l₁ l₂) p (.edge (a / h) (h + l₁)) =
      some (some (.agg (a / h / h * h + l₁) (b / h % h))) := by
  have hsame : T.IsSamePod a b := (S.isSamePod_iff ha hb).2 hpod
  have hqueue := (S.queueAt_of_lt (Nat.mod_lt (b / h) S.pos) (a / h / h * h + l₁)).2
  simp only [route, getNextHopWith, S.dst_edge_up (S.rack_lt ha) h₁, getEdgeNextHop, hsrc, hdst,
    if_pos hsame, S.getRackNum hb, S.half, hqueue, map_goTo, Option.map_some]

lemma route_edge_up (h₁ : l₁ < h) (h₂ : l₂ < h) (hpod : a / h / h ≠ b / h / h) :
    T.route (uplinks l₁ l₂) p (.edge (a / h) (h + l₁)) =
      some (some (.agg (a / h / h * h + l₁) (h + l₂))) := by
  have hsame : ¬ T.IsSamePod a b := fun hsame => hpod ((S.isSamePod_iff ha hb).1 hsame)
  have hqueue := (S.queueAt_up h₂ (a / h / h * h + l₁)).2
  simp only [route, getNextHopWith, S.dst_edge_up (S.rack_lt ha) h₁, getEdgeNextHop, hsrc, hdst,
    if_neg hsame, goUp, fixedPorts, uplinks, S.half, hqueue, map_goTo, Option.map_some]

omit hsrc ha in
lemma route_agg_down (h₁ : l₁ < h) :
    T.route (uplinks l₁ l₂) p (.agg (b / h / h * h + l₁) (b / h % h)) =
      some (some (.edge (b / h) (b % h))) := by
  have hqueue := (S.queueAt_of_lt (Nat.mod_lt b S.pos) (b / h)).1
  have hagg := podIdx_lt (S.rack_lt hb) h₁
  have hrack : (b / h / h * h + l₁) / h * h + b / h % h = b / h := by
    rw [Nat.mul_comm (b / h / h) h, Nat.mul_add_div S.pos, Nat.div_eq_of_lt h₁, Nat.add_zero,
      Nat.div_add_mod']
  have hdown := S.dst_agg_down hagg (Nat.mod_lt (b / h) S.pos)
  rw [hrack] at hdown
  simp only [route, getNextHopWith, hdown, getAggNextHop, hdst, if_neg (not_isArbiter hb), S.half,
    hqueue, map_goTo, Option.map_some]

omit hsrc ha in
lemma route_agg_up (h₁ : l₁ < h) (h₂ : l₂ < h) (x : ℕ) :
    T.route (uplinks l₁ l₂) p (.agg (x * h + l₁) (h + l₂)) =
      some (some (.core (coreOf T h l₁ l₂) (b / h / h))) := by
  have hk : b / h / h < T.k := by
    have := S.pod_lt hb
    rwa [S.k]
  simp only [route, getNextHopWith, S.dst_agg_up h₁ h₂, getAggNextHop, hdst, S.getPodNum hb,
    queueAt, if_pos hk, map_goTo, Option.map_some]

omit hsrc ha in
lemma route_core (h₁ : l₁ < h) (h₂ : l₂ < h) :
    T.route (uplinks l₁ l₂) p (.core (coreOf T h l₁ l₂) (b / h / h)) =
      some (some (.agg (b / h / h * h + l₁) (b / h % h))) := by
  have hqueue := (S.queueAt_of_lt (Nat.mod_lt (b / h) S.pos) (b / h / h * h + l₁)).2
  simp only [route, getNextHopWith, S.dst_core h₁ h₂ (S.pod_lt hb), getCoreNextHop, hdst,
    S.getRackNum hb, S.half, hqueue, map_goTo, Option.map_some]

omit ha in
lemma route_arrive (hhop : p.hop = T.hops a b) :
    T.route (uplinks l₁ l₂) p (.edge (b / h) (b % h)) = some none := by
  simp only [route, getNextHopWith, S.dst_edge_down hb, arrive, hsrc, hdst, hhop, if_true]
  cases T.kind <;> rfl

end Hops

end Shape

/-! ### The way -/

open Shape

/-- The queues from host `a` to host `b`, with two uplink ports. -/
def way (T : FatTree) (h a b l₁ l₂ : ℕ) : List FatQueue :=
  if a / h = b / h then [.host a, .edge (a / h) (b % h)]
  else if a / h / h = b / h / h then
    [.host a, .edge (a / h) (h + l₁), .agg (a / h / h * h + l₁) (b / h % h),
      .edge (b / h) (b % h)]
  else
    [.host a, .edge (a / h) (h + l₁), .agg (a / h / h * h + l₁) (h + l₂),
      .core (coreOf T h l₁ l₂) (b / h / h), .agg (b / h / h * h + l₁) (b / h % h),
      .edge (b / h) (b % h)]

section Way

variable (S : Shape T h) {a b l₁ l₂ : ℕ} (ha : a < T.numHosts) (hb : b < T.numHosts)
include S ha hb

lemma chain_way {p : HopPacket} (hsrc : p.packet.src = a) (hdst : p.packet.dst = b)
    (hhop : p.hop = T.hops a b) (h₁ : l₁ < h) (h₂ : l₂ < h) :
    Chain (T.route (uplinks l₁ l₂) p) (.host a) (way T h a b l₁ l₂) := by
  have harrive : Chain (T.route (uplinks l₁ l₂) p) (.edge (b / h) (b % h))
      [.edge (b / h) (b % h)] := .last (S.route_arrive hsrc hdst hb hhop)
  have hdown := Chain.cons (S.route_agg_down hdst hb h₁) harrive
  unfold way
  split_ifs with hrack hpod
  · have hhost := S.route_host_rack l₁ l₂ hsrc hdst ha hb hrack
    rw [hrack] at hhost ⊢
    exact .cons hhost harrive
  · have hedge := S.route_edge_pod l₂ hsrc hdst ha hb h₁ hpod
    rw [hpod] at hedge ⊢
    exact .cons (S.route_host_up hsrc hdst ha hb h₁ hrack) (.cons hedge hdown)
  · exact .cons (S.route_host_up hsrc hdst ha hb h₁ hrack)
      (.cons (S.route_edge_up hsrc hdst ha hb h₁ h₂ hpod)
        (.cons (S.route_agg_up hdst hb h₁ h₂ _) (.cons (S.route_core hdst hb h₁ h₂) hdown)))

lemma length_way (l₁ l₂ : ℕ) : (way T h a b l₁ l₂).length = T.hops a b := by
  simp only [way, hops, S.isSameRack_iff ha hb, S.isSamePod_iff ha hb]
  split_ifs <;> rfl

lemma hasQueue_way (h₁ : l₁ < h) (h₂ : l₂ < h) : ∀ q ∈ way T h a b l₁ l₂, T.HasQueue q := by
  have hmod : ∀ x, x % h < T.k := fun x => by
    have := Nat.mod_lt x S.pos
    have := S.k
    omega
  have hup : ∀ {x}, x < h → h + x < T.k := fun hx => by
    have := S.k
    omega
  have hedge : ∀ {x}, x < T.numHosts → x / h < T.numEdgeSwitches := fun hx => by
    rw [S.numEdgeSwitches]
    exact S.rack_lt hx
  have hagg : ∀ {x}, x < T.numHosts → x / h / h * h + l₁ < T.numAggSwitches := fun hx => by
    rw [S.numAggSwitches]
    exact podIdx_lt (S.rack_lt hx) h₁
  have hcore : coreOf T h l₁ l₂ < T.numCoreSwitches := by
    rw [S.numCoreSwitches]
    exact coreOf_lt h₁ h₂
  have hpod : b / h / h < T.k := by
    rw [S.k]
    exact S.pod_lt hb
  unfold way
  split_ifs
  · simp only [List.mem_cons, List.not_mem_nil, or_false, forall_eq_or_imp, forall_eq]
    exact ⟨.inl ha, hedge ha, hmod b⟩
  · simp only [List.mem_cons, List.not_mem_nil, or_false, forall_eq_or_imp, forall_eq]
    exact ⟨.inl ha, ⟨hedge ha, hup h₁⟩, ⟨hagg ha, hmod _⟩, hedge hb, hmod b⟩
  · simp only [List.mem_cons, List.not_mem_nil, or_false, forall_eq_or_imp, forall_eq]
    exact ⟨.inl ha, ⟨hedge ha, hup h₁⟩, ⟨hagg ha, hup h₂⟩, ⟨hcore, hpod⟩, ⟨hagg hb, hmod _⟩,
      hedge hb, hmod b⟩

omit ha in
lemma dst_way (l₁ l₂ : ℕ) : (way T h a b l₁ l₂).getLast?.map T.dst = some (.host b) := by
  have hlast : (way T h a b l₁ l₂).getLast? = some (.edge (b / h) (b % h)) := by
    unfold way
    split_ifs with hrack
    · rw [hrack]
      rfl
    · rfl
    · rfl
  rw [hlast, Option.map_some, S.dst_edge_down hb]

lemma core_mem_way (hpod : ¬ T.IsSamePod a b) {c j : ℕ} :
    .core c j ∈ way T h a b l₁ l₂ ↔ c = coreOf T h l₁ l₂ ∧ j = b / h / h := by
  rw [S.isSamePod_iff ha hb] at hpod
  have hrack : a / h ≠ b / h := fun hrack => hpod (by rw [hrack])
  simp [way, hpod, hrack]

lemma traverses_iff {p : HopPacket} (hsrc : p.packet.src = a) (hdst : p.packet.dst = b)
    (h₁ : l₁ < h) (h₂ : l₂ < h) {qs : List FatQueue} :
    (∃ p', Traverses (T.getNextHopWith (fixedPorts (uplinks l₁ l₂))) p (.host a) qs p') ↔
      qs = way T h a b l₁ l₂ := by
  have hhalf : 0 < T.half := S.half.symm ▸ S.pos
  have hp₀ : ∀ q, T.HopSet ⟨p.packet, T.hops a b⟩ q := fun q => .inr fun _ => by rw [hsrc, hdst]
  have hF : Follows (T.getNextHopWith (fixedPorts (uplinks l₁ l₂)))
      (T.route (uplinks l₁ l₂) ⟨p.packet, T.hops a b⟩)
      fun p' q => SameEnds p' p ∧ T.HopSet p' q := follows hp₀
    (fun hI => ⟨hI.1, hI.2, fun _ _ _ => rfl⟩)
    (fun hI hstep => by
      have hkeep := getNextHopWith_keeps hhalf (keeps_fixedPorts _) hI.2 hstep
      have hends : SameEnds _ p := ⟨hkeep.1.1.trans hI.1.1, hkeep.1.2.trans hI.1.2⟩
      exact ⟨⟨hends, hkeep.2 _⟩, fun r _ => ⟨hends, hkeep.2 r⟩⟩)
  rw [hF.traverses_iff ⟨⟨rfl, rfl⟩, .inl ⟨a, rfl⟩⟩]
  have hway := chain_way S ha hb (p := ⟨p.packet, T.hops a b⟩) hsrc hdst rfl h₁ h₂
  exact ⟨fun hqs => hqs.unique hway, fun hqs => hqs ▸ hway⟩

end Way

/-- **Routing between two hosts of a fat tree.** With any uplink ports the packet goes one way,
through queues that exist, in as many hops as it should, to the destination; and between two
pods each pair of ports leads over a core switch of its own. -/
theorem routes_of_constructed (heven : Even T.k) (hlt : T.k < 4294967296) (hT : T.Constructed)
    {a b : HostId} (ha : a < T.numHosts) (hb : b < T.numHosts) :
    ∃ way : ℕ → ℕ → List FatQueue,
      (∀ l₁ < T.half, ∀ l₂ < T.half,
        (∀ p : HopPacket, p.packet.src = a → p.packet.dst = b → ∀ qs,
          (∃ p', Traverses (T.getNextHopWith (fixedPorts (uplinks l₁ l₂))) p (.host a) qs p') ↔
            qs = way l₁ l₂) ∧
        (∀ q ∈ way l₁ l₂, T.HasQueue q) ∧
        (way l₁ l₂).getLast?.map T.dst = some (.host b) ∧
        (way l₁ l₂).length =
          if T.IsSameRack a b then 2 else if T.IsSamePod a b then 4 else 6) ∧
      (¬ T.IsSamePod a b → ∃ core : ℕ → ℕ → ℕ,
        (∀ l₁ < T.half, ∀ l₂ < T.half, ∀ c, (∃ j, .core c j ∈ way l₁ l₂) ↔ c = core l₁ l₂) ∧
        ∀ l₁ < T.half, ∀ l₂ < T.half, ∀ m₁ < T.half, ∀ m₂ < T.half,
          core l₁ l₂ = core m₁ m₂ → l₁ = m₁ ∧ l₂ = m₂) := by
  obtain ⟨h, hk⟩ := heven
  have hpos : 0 < h := by
    by_contra h0
    have hk0 : T.k = 0 := by omega
    simp [numHosts, hk0, mul32] at ha
  have S := shape_of_constructed (by omega) hpos hlt hT (Nat.zero_lt_of_lt ha)
  rw [S.half]
  refine ⟨way T h a b, fun l₁ h₁ l₂ h₂ => ⟨fun p hsrc hdst qs => ?_, ?_, ?_, ?_⟩, fun hpod => ?_⟩
  · exact traverses_iff S ha hb hsrc hdst h₁ h₂
  · exact hasQueue_way S ha hb h₁ h₂
  · exact dst_way S hb l₁ l₂
  · exact length_way S ha hb l₁ l₂
  · refine ⟨coreOf T h, fun l₁ _ l₂ _ c => ?_, fun l₁ h₁ l₂ h₂ m₁ h₁' m₂ h₂' heq => ?_⟩
    · simp [core_mem_way S ha hb hpod]
    · exact coreOf_inj h₁ h₂ h₁' h₂' heq

theorem routes_of_constructed_four :
    (¬ (snsFatTreeTopology 4 0 0).IsSamePod 0 15 ∧
      ∃ way : ℕ → ℕ → List FatQueue, (way 1 0).length = 6 ∧
        (way 1 0).getLast?.map (snsFatTreeTopology 4 0 0).dst = some (.host 15)) ∧
    ¬ (fatTreeTopology 4 false 0 2).IsSamePod 0 15 ∧
      ∃ way : ℕ → ℕ → List FatQueue, (way 1 0).length = 6 ∧
        (way 1 0).getLast?.map (fatTreeTopology 4 false 0 2).dst = some (.host 15) := by
  have hroutes : ∀ T ∈ [snsFatTreeTopology 4 0 0, fatTreeTopology 4 false 0 2],
      ¬ T.IsSamePod 0 15 ∧ ∃ way : ℕ → ℕ → List FatQueue, (way 1 0).length = 6 ∧
        (way 1 0).getLast?.map T.dst = some (.host 15) := by
    intro T hmem
    have hk : T.k = 2 * 2 := by
      rcases List.mem_pair.1 hmem with rfl | rfl <;> rfl
    have S : Shape T 2 := shape_of_cube_lt hk two_pos (by decide)
    rcases List.mem_pair.1 hmem with rfl | rfl
    all_goals
      obtain ⟨way, hway, -⟩ := routes_of_constructed (by decide) (by decide)
        (S.constructed (by decide)) (a := 0) (b := 15) (by decide) (by decide)
      obtain ⟨-, -, hlast, hlen⟩ := hway 1 (by decide) 0 (by decide)
      exact ⟨by decide, way, hlen.trans (by decide), hlast⟩
  exact ⟨hroutes _ List.mem_cons_self, hroutes _ (List.mem_cons_of_mem _ List.mem_cons_self)⟩

end DcSim.FatTree
