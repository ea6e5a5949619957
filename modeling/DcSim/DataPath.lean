import DcSim.FatTree
import DcSim.LeafSpine
import DcSim.SnsFlow

/-!
Data goes the way of its probe, in both SNS topologies.

A SIM writes the ports it gets into itself, also when it is asked for again at a queue, so that
at the end its way is the way of the ports it carries. The SIM_ACK takes them back, past the
choices of its own way, and the DATA packets carry them again and go by them, whatever the
counters are by then.
-/

namespace DcSim

open Routing Word32

/-! ### The leaf-spine network -/

namespace LeafSpine

variable {T : LeafSpine} {p p' : Packet} {q : LeafQueue} {qs : List LeafQueue} {s s' : ℕ}
  {r : Option LeafQueue}

lemma choosePort_sim (hsim : p.snsType = .sim) (hcore : T.numCoreSwitches ≠ 0)
    (hlt : T.numCoreSwitches < 4294967296) (s : ℕ) :
    (T.choosePort s p).2.2 = ofInt32 (T.choosePort s p).1.savedHashPort ∧
      (T.choosePort s p).1.savedHashPort ≠ -1 := by
  have hport : ∀ mode, mode ≠ 3 → hashPort mode T.numCoreSwitches s 0 p < T.numCoreSwitches :=
    fun mode hmode => hashPort_lt p (Nat.pos_of_ne_zero hcore) fun h => absurd h hmode
  have hmode : (if T.loadBalancing = 3 then 2 else T.loadBalancing) ≠ 3 := by
    split_ifs with h
    · decide
    · exact h
  have hlt' := hport _ hmode
  simp only [choosePort, savePort, hsim, decide_true, if_true]
  generalize hashPort _ _ s 0 p = port at hlt' ⊢
  refine ⟨(ofInt32_toInt32 (hlt'.trans hlt)).symm, ?_⟩
  unfold toInt32
  split_ifs <;> omega

lemma choosePort_frame (s : ℕ) (p : Packet) :
    ∃ port, (T.choosePort s p).1 = { p with savedHashPort := port } :=
  ⟨_, rfl⟩

structure SimFrom (p p' : Packet) : Prop where
  sim : p'.snsType = .sim
  src : p'.src = p.src
  dst : p'.dst = p.dst

lemma SimFrom.choosePort (h : SimFrom p p') (s : ℕ) : SimFrom p (T.choosePort s p').1 := by
  obtain ⟨port, hport⟩ := choosePort_frame (T := T) s p'
  rw [hport]
  exact ⟨h.sim, h.src, h.dst⟩

lemma sim_step (hlt : T.numCoreSwitches < 4294967296) (hsim : p.snsType = .sim)
    (h : T.getNextHop s p q = some (p', s', r)) :
    SimFrom p p' ∧ (∀ q' ∈ r, ∀ id, q' ≠ .host id) ∧
      T.route (ofInt32 p'.savedHashPort) p.src p.dst q = some r ∧
      (T.Asks p.src p.dst q ∧ p'.savedHashPort ≠ -1 ∨ ¬ T.Asks p.src p.dst q ∧ p' = p) := by
  obtain ⟨s₁, p₁, hlast, hp₁⟩ := getNextHop_cases h
  have hfrom : SimFrom p p₁ := by
    rcases hp₁ with rfl | ⟨-, rfl⟩
    · exact ⟨hsim, rfl, rfl⟩
    · exact SimFrom.choosePort ⟨hsim, rfl, rfl⟩ s
  obtain ⟨hroute, hne, hcase⟩ := getNextHopInner_cases hlast
  rw [hfrom.src, hfrom.dst] at hroute hcase
  rcases hcase with ⟨hasks, hcore, rfl⟩ | ⟨hasks, rfl⟩
  · obtain ⟨hport, hsaved⟩ := choosePort_sim hfrom.sim hcore hlt s₁
    rw [hport] at hroute
    exact ⟨hfrom.choosePort s₁, hne, hroute, .inl ⟨hasks, hsaved⟩⟩
  · obtain rfl : p' = p := hp₁.resolve_right fun hp => hasks hp.1
    rw [route_congr _ hasks] at hroute
    exact ⟨hfrom, hne, hroute, .inr ⟨hasks, rfl⟩⟩

/-- **A SIM goes the way of the port it carries at the end.** -/
lemma sim_learns (hlt : T.numCoreSwitches < 4294967296) (hsim : p.snsType = .sim)
    (h : Traverses T.getNextHop p q qs p') :
    SimFrom p p' ∧ ((∀ id, q ≠ .host id) → p' = p) ∧
      Chain (T.route (ofInt32 p'.savedHashPort) p.src p.dst) q qs ∧
      ∀ x ∈ qs, T.Asks p.src p.dst x → p'.savedHashPort ≠ -1 := by
  induction h with
  | arrive hstep =>
    obtain ⟨hfrom, -, hroute, hcase⟩ := sim_step hlt hsim hstep
    refine ⟨hfrom, fun hne => ?_, .last hroute, fun x hx hasks => ?_⟩
    · exact (hcase.resolve_left fun hasks => hasks.1.1.elim hne).2
    · obtain rfl := List.mem_singleton.1 hx
      exact (hcase.resolve_right fun hnot => hnot.1 hasks).2
  | next hstep _ ih =>
    obtain ⟨hfrom, hne, hroute, hcase⟩ := sim_step hlt hsim hstep
    obtain ⟨-, hkeep, hchain, hgood⟩ := ih hfrom.sim
    obtain rfl := hkeep (hne _ rfl)
    rw [hfrom.src, hfrom.dst] at hchain hgood
    refine ⟨hfrom, fun hne => ?_, .cons hroute hchain, fun x hx hasks => ?_⟩
    · exact (hcase.resolve_left fun hasks => hasks.1.1.elim hne).2
    · rcases List.mem_cons.1 hx with rfl | hx
      · exact (hcase.resolve_right fun hnot => hnot.1 hasks).2
      · exact hgood x hx hasks
  | again hstep _ ih =>
    obtain ⟨hfrom, -, -, hcase⟩ := sim_step hlt hsim hstep
    obtain ⟨hfrom', hkeep, hchain, hgood⟩ := ih hfrom.sim
    rw [hfrom.src, hfrom.dst] at hchain hgood
    refine ⟨⟨hfrom'.sim, hfrom'.src.trans hfrom.src, hfrom'.dst.trans hfrom.dst⟩, fun hne => ?_,
      hchain, hgood⟩
    rw [hkeep hne]
    exact (hcase.resolve_left fun hasks => hasks.1.1.elim hne).2

lemma choosePort_follows (hack : p.snsType ≠ .simAck) (hsim : p.snsType ≠ .sim)
    (hsaved : p.savedHashPort ≠ -1) (s : ℕ) :
    (T.choosePort s p).1 = p ∧ (T.choosePort s p).2.2 = ofInt32 p.savedHashPort := by
  simp [choosePort, savePort, hack, hsim, hsaved]

lemma choosePort_simAck (hack : p.snsType = .simAck) (s : ℕ) : (T.choosePort s p).1 = p := by
  have hsave : ∀ port, savePort (p.snsType = .sim) (p.snsType ≠ .simAck) p.savedHashPort port =
      (p.savedHashPort, port) := by
    intro port
    simp [savePort, hack]
  simp only [choosePort, hsave]

lemma traverses_simAck (hack : p.snsType = .simAck) (h : Traverses T.getNextHop p q qs p') :
    p' = p := by
  have hstep : ∀ {s s' p' q r}, T.getNextHop s p q = some (p', s', r) → p' = p := by
    intro s s' p' q r h
    obtain ⟨s₁, p₁, hlast, hp₁⟩ := getNextHop_cases h
    obtain rfl : p₁ = p := hp₁.elim id fun hp => hp.2.trans (choosePort_simAck hack s)
    obtain ⟨-, -, ⟨-, -, rfl⟩ | ⟨-, rfl⟩⟩ := getNextHopInner_cases hlast
    · exact choosePort_simAck hack s₁
    · rfl
  induction h with
  | arrive h => exact hstep h
  | next h _ ih | again h _ ih =>
    obtain rfl := hstep h
    exact ih hack fun h => hstep h

lemma follows_route {d : Packet} (hack : d.snsType ≠ .simAck) (hsim : d.snsType ≠ .sim)
    (hchain : Chain (T.route (ofInt32 d.savedHashPort) d.src d.dst) q qs)
    (hgood : ∀ x ∈ qs, T.Asks d.src d.dst x → d.savedHashPort ≠ -1) :
    Follows T.getNextHop (T.route (ofInt32 d.savedHashPort) d.src d.dst)
      fun p x => p = d ∧ x ∈ qs := by
  have hinner : ∀ {x s p' s' r}, x ∈ qs → T.getNextHopInner s d x = some (p', s', r) → p' = d := by
    intro x s p' s' r hx h
    obtain ⟨-, -, ⟨hasks, -, rfl⟩ | ⟨-, rfl⟩⟩ := getNextHopInner_cases h
    · exact (choosePort_follows hack hsim (hgood x hx hasks) s).1
    · rfl
  have hroute : ∀ {x} (s), x ∈ qs → T.route (T.choosePort s d).2.2 d.src d.dst x =
      T.route (ofInt32 d.savedHashPort) d.src d.dst x := by
    intro x s hx
    by_cases hasks : T.Asks d.src d.dst x
    · rw [(choosePort_follows hack hsim (hgood x hx hasks) s).2]
    · exact route_congr _ hasks
  have hgoes : ∀ {x s p' s' r}, x ∈ qs → T.getNextHop s d x = some (p', s', r) →
      p' = d ∧ T.route (ofInt32 d.savedHashPort) d.src d.dst x = some r := by
    intro x s p' s' r hx h
    obtain ⟨s₁, p₁, hlast, hp₁⟩ := getNextHop_cases h
    obtain rfl : p₁ = d :=
      hp₁.elim id fun hp => hp.2.trans (choosePort_follows hack hsim (hgood x hx hp.1) s).1
    refine ⟨hinner hx hlast, ?_⟩
    rw [← hroute s₁ hx, ← map_getNextHopInner, hlast]
    rfl
  refine ⟨?_, ?_, ?_⟩
  · rintro s s' p p' x r ⟨rfl, hx⟩ h
    exact (hgoes hx h).2
  · rintro s s' p p' x r ⟨rfl, hx⟩ h
    obtain ⟨rfl, hr⟩ := hgoes hx h
    refine ⟨⟨rfl, hx⟩, fun y hy => ⟨rfl, hchain.next_mem hx ?_⟩⟩
    rw [hr, Option.mem_def.1 hy]
  · rintro p x r ⟨rfl, hx⟩ h
    rw [← hroute 0 hx, ← map_getNextHopInner] at h
    obtain ⟨⟨p₁, s₁, r'⟩, hr, rfl⟩ := Option.map_eq_some_iff.1 h
    obtain rfl := hinner hx hr
    cases r' with
    | none => exact ⟨0, s₁, p₁, by simp only [getNextHop, hr]⟩
    | some y =>
      have h₁ := map_getNextHopInner (T := T) s₁ p₁ x
      rw [hroute s₁ hx, ← hroute 0 hx, ← map_getNextHopInner, hr] at h₁
      obtain ⟨⟨p₂, s₂, r₂⟩, hr₂, h₂⟩ := Option.map_eq_some_iff.1 h₁
      obtain rfl : r₂ = some y := h₂
      exact ⟨0, s₂, p₂, by simp only [getNextHop, hr, hr₂]⟩

end LeafSpine

/-! ### The fat tree -/

namespace FatTree

variable {T : FatTree} {p p' : HopPacket} {q : FatQueue} {qs : List FatQueue} {s s' : ℕ}
  {r : Option FatQueue} {level : Level}

def saved (p : HopPacket) : Level → ℤ
  | .host => p.packet.savedHashPort
  | .edge => p.packet.savedHashPortL2

def savedPorts (p : HopPacket) (level : Level) : ℕ := ofInt32 (saved p level)

/-- The saved port of a level can be used in place of the choice. -/
def Usable (T : FatTree) (p : HopPacket) (level : Level) : Prop :=
  T.loadBalancing = 3 ∨ saved p level ≠ -1

lemma hashPort_lt_two_pow (hhalf : 0 < T.half) (hlt : T.k < 4294967296) (z : ℤ) (p : Packet) :
    hashPort T.loadBalancing T.half s (ofInt32 z) p < 4294967296 ∧
      (T.loadBalancing ≠ 3 →
        hashPort T.loadBalancing T.half s (ofInt32 z) p < 2147483648) := by
  have hsmall : T.half < 2147483648 := by
    unfold half
    omega
  by_cases hmode : T.loadBalancing = 3
  · refine ⟨?_, fun hne => absurd hmode hne⟩
    rw [hmode]
    exact ofInt32_lt z
  · have hport : hashPort T.loadBalancing T.half s (ofInt32 z) p < T.half :=
      hashPort_lt p hhalf fun h => absurd h hmode
    exact ⟨by omega, fun _ => by omega⟩

lemma choosePort_sim (level : Level) (hkind : T.kind = .sns) (hhalf : 0 < T.half)
    (hlt : T.k < 4294967296) (hsim : p.packet.snsType = .sim) :
    (T.choosePort level s p).2.2 = savedPorts (T.choosePort level s p).1 level ∧
      T.Usable (T.choosePort level s p).1 level ∧
      (∀ level', level' ≠ level → saved (T.choosePort level s p).1 level' = saved p level') ∧
      (T.choosePort level s p).1.packet.snsType = .sim := by
  have hport := fun z => hashPort_lt_two_pow (s := s) hhalf hlt z p.packet
  have husable : ∀ {port}, (T.loadBalancing ≠ 3 → port < 2147483648) →
      T.loadBalancing = 3 ∨ toInt32 port ≠ -1 := by
    intro port hsmall
    by_cases hmode : T.loadBalancing = 3
    · exact .inl hmode
    · have := hsmall hmode
      refine .inr ?_
      unfold toInt32
      split_ifs
      omega
  unfold choosePort Usable savedPorts saved
  cases level with
  | host =>
    simp only [hkind, savePort, hsim, decide_true, if_true]
    refine ⟨(ofInt32_toInt32 (hport _).1).symm, husable (hport _).2, fun level' hne => ?_, trivial⟩
    cases level' <;> simp_all
  | edge =>
    simp only [hkind, savePort, hsim, decide_true, if_true]
    refine ⟨(ofInt32_toInt32 (hport _).1).symm, husable (hport _).2, fun level' hne => ?_, trivial⟩
    cases level' <;> simp_all

lemma choosePort_keeps (hsim : p.packet.snsType ≠ .sim) : (T.choosePort level s p).1 = p := by
  have hsave : ∀ z port, (savePort (p.packet.snsType = .sim) (p.packet.snsType = .data) z port).1
      = z := by
    intro z port
    simp only [savePort, hsim, decide_false, Bool.false_eq_true, if_false]
    split_ifs <;> rfl
  unfold choosePort
  cases T.kind <;> cases level <;> simp only [hsave]

lemma choosePort_data (hkind : T.kind = .sns) (hdata : p.packet.snsType = .data)
    (husable : T.Usable p level) : (T.choosePort level s p).2.2 = savedPorts p level := by
  have hsave : ∀ {z : ℤ}, T.loadBalancing = 3 ∨ z ≠ -1 →
      (savePort (p.packet.snsType = .sim) (p.packet.snsType = .data) z
        (hashPort T.loadBalancing T.half s (ofInt32 z) p.packet)).2 = ofInt32 z := by
    intro z hz
    simp only [savePort, hdata, reduceCtorEq, decide_false, Bool.false_eq_true, if_false]
    split_ifs with h
    · rfl
    · have hmode : T.loadBalancing = 3 := hz.resolve_right fun hne => h ⟨hne, by simp⟩
      rw [hmode]
      rfl
  unfold Usable saved at husable
  unfold choosePort savedPorts saved
  cases level with
  | host =>
    simp only [hkind]
    exact hsave husable
  | edge =>
    simp only [hkind]
    exact hsave husable

lemma sim_step (hkind : T.kind = .sns) (hhalf : 0 < T.half) (hlt : T.k < 4294967296)
    (hsim : p.packet.snsType = .sim) (hp : T.HopSet p q)
    (h : T.getNextHop s p q = some (p', s', r)) :
    p'.packet.snsType = .sim ∧ SameEnds p' p ∧ (∀ q, T.HopSet p' q) ∧ (∀ q' ∈ r, T.Leads q q') ∧
      (∀ level, T.Past level q → saved p' level = saved p level) ∧
      (∀ level, T.asks p.packet.src p.packet.dst q = some level → T.Usable p' level) ∧
      ∀ p₀, SameEnds p₀ p → (∀ q, T.HopSet p₀ q) → (∀ level,
        T.asks p.packet.src p.packet.dst q = some level → saved p₀ level = saved p' level) →
          T.route (savedPorts p₀) p₀ q = some r := by
  obtain ⟨hends, hhop⟩ := getNextHopWith_keeps hhalf keeps_choosePort hp h
  obtain ⟨hleads, hcase⟩ := getNextHopWith_cases hhalf h
  have hroute : ∀ p₀, SameEnds p₀ p → (∀ q, T.HopSet p₀ q) →
      T.Chooses T.choosePort (savedPorts p₀) s p q → T.route (savedPorts p₀) p₀ q = some r := by
    intro p₀ hends₀ hhop₀ hports
    rw [← map_getNextHopWith ⟨hends₀.1.symm, hends₀.2.symm⟩ hp (hhop₀ q) hports]
    exact congrArg (Option.map _) h
  have hsimAt : (T.hopAt p q).packet.snsType = .sim := by rw [hopAt_packet, hsim]
  have hsavedAt : ∀ level, saved (T.hopAt p q) level = saved p level := by
    intro level
    cases level <;> simp only [saved, hopAt_packet]
  rcases hcase with ⟨level, hasks, rfl⟩ | ⟨hasks, rfl⟩
  · obtain ⟨hport, husable, hother, htype⟩ :=
      choosePort_sim (s := s) level hkind hhalf hlt hsimAt
    refine ⟨htype, hends, hhop, hleads, fun level' hpast => ?_, fun level' h' => ?_,
      fun p₀ hends₀ hhop₀ heq => hroute p₀ hends₀ hhop₀ fun level' h' => ?_⟩
    · have hne : level' ≠ level := by
        rintro rfl
        exact hpast.not_asks hasks
      rw [hother level' hne, hsavedAt]
    · obtain rfl : level = level' := Option.some.inj (hasks.symm.trans h')
      exact husable
    · obtain rfl : level = level' := Option.some.inj (hasks.symm.trans h')
      rw [hport, savedPorts, savedPorts, heq level hasks]
  · refine ⟨hsimAt, hends, hhop, hleads, fun level _ => hsavedAt level, fun level h' => ?_,
      fun p₀ hends₀ hhop₀ _ => hroute p₀ hends₀ hhop₀ fun level h' => ?_⟩
    · exact nomatch hasks.symm.trans h'
    · exact nomatch hasks.symm.trans h'

/-- **A SIM goes the way of the ports it carries at the end.** -/
lemma sim_learns (hkind : T.kind = .sns) (hhalf : 0 < T.half) (hlt : T.k < 4294967296)
    (h : Traverses T.getNextHop p q qs p') (hsim : p.packet.snsType = .sim)
    (hp : T.HopSet p q) :
    SameEnds p' p ∧ (∀ q, T.HopSet p' q) ∧
      (∀ level, T.Past level q → saved p' level = saved p level) ∧
      Chain (T.route (savedPorts p') p') q qs ∧
      ∀ x ∈ qs, ∀ level, T.asks p.packet.src p.packet.dst x = some level →
        T.Usable p' level := by
  induction h with
  | arrive hstep =>
    obtain ⟨-, hends, hhop, -, hpast, husable, hroute⟩ :=
      sim_step hkind hhalf hlt hsim hp hstep
    refine ⟨hends, hhop, hpast, .last (hroute _ hends hhop fun _ _ => rfl), fun x hx => ?_⟩
    obtain rfl := List.mem_singleton.1 hx
    exact husable
  | @next c c' p p₁ p' q r qs hstep _ ih =>
    obtain ⟨hsim₁, hends, hhop, hleads, hpast, husable, hroute⟩ :=
      sim_step hkind hhalf hlt hsim hp hstep
    obtain ⟨hends', hhop', hpast', hchain, husable'⟩ := ih hsim₁ (hhop _)
    have hends'' := And.intro (hends'.1.trans hends.1) (hends'.2.trans hends.2)
    have hleads' := hleads _ rfl
    have hsaved : ∀ level, T.asks p.packet.src p.packet.dst q = some level →
        saved p' level = saved p₁ level := fun level hasks =>
       hpast' level (past_of_asks hasks hleads')
    refine ⟨hends'', hhop', fun level hq => ?_,
      .cons (hroute _ hends'' hhop' hsaved) hchain, fun x hx level hasks => ?_⟩
    · exact (hpast' level (hq.leads hleads')).trans (hpast level hq)
    · rcases List.mem_cons.1 hx with rfl | hx
      · unfold Usable
        rw [hsaved level hasks]
        exact husable level hasks
      · rw [← hends.1, ← hends.2] at hasks
        exact husable' x hx level hasks
  | again hstep _ ih =>
    obtain ⟨hsim₁, hends, hhop, -, hpast, -, -⟩ := sim_step hkind hhalf hlt hsim hp hstep
    obtain ⟨hends', hhop', hpast', hchain, husable⟩ := ih hsim₁ (hhop _)
    refine ⟨⟨hends'.1.trans hends.1, hends'.2.trans hends.2⟩, hhop', fun level hq => ?_, hchain,
      fun x hx level hasks => ?_⟩
    · exact (hpast' level hq).trans (hpast level hq)
    · rw [← hends.1, ← hends.2] at hasks
      exact husable x hx level hasks

lemma getNextHop_packet (hhalf : 0 < T.half) (hsim : p.packet.snsType ≠ .sim)
    (h : T.getNextHop s p q = some (p', s', r)) : p'.packet = p.packet := by
  obtain ⟨-, ⟨level, -, rfl⟩ | ⟨-, rfl⟩⟩ := getNextHopWith_cases hhalf h
  · rw [choosePort_keeps (by rwa [hopAt_packet]), hopAt_packet]
  · exact hopAt_packet p q

lemma traverses_packet (hhalf : 0 < T.half) (h : Traverses T.getNextHop p q qs p')
    (hsim : p.packet.snsType ≠ .sim) : p'.packet = p.packet := by
  induction h with
  | arrive h => exact getNextHop_packet hhalf hsim h
  | next h _ ih | again h _ ih =>
    have hpacket := getNextHop_packet hhalf hsim h
    rw [ih (by rwa [hpacket]), hpacket]

lemma data_follows (hkind : T.kind = .sns) (hhalf : 0 < T.half) {d p₀ : HopPacket}
    (hdata : d.packet.snsType = .data) (hends : SameEnds d p₀) (hp₀ : ∀ q, T.HopSet p₀ q)
    (hsaved : ∀ level, saved d level = saved p₀ level)
    (hchain : Chain (T.route (savedPorts p₀) p₀) q qs)
    (husable : ∀ x ∈ qs, ∀ level, T.asks p₀.packet.src p₀.packet.dst x = some level →
      T.Usable p₀ level) :
    Follows T.getNextHop (T.route (savedPorts p₀) p₀)
      fun p x => p.packet = d.packet ∧ T.HopSet p x ∧ x ∈ qs := by
  have hends' : ∀ {p : HopPacket}, p.packet = d.packet → SameEnds p p₀ := fun hp => by
    rw [SameEnds, hp]
    exact hends
  have hchooses : ∀ {p x s}, p.packet = d.packet → x ∈ qs →
      T.Chooses T.choosePort (savedPorts p₀) s p x := by
    intro p x s hp hx level hasks
    rw [(hends' hp).1, (hends' hp).2] at hasks
    have hat : ∀ level, saved (T.hopAt p x) level = saved p₀ level := by
      intro level
      rw [← hsaved]
      cases level <;> simp only [saved, hopAt_packet, hp]
    have hok : T.Usable (T.hopAt p x) level := by
      rw [Usable, hat]
      exact husable x hx level hasks
    rw [choosePort_data hkind (by rwa [hopAt_packet, hp]) hok, savedPorts, savedPorts, hat]
  refine follows hp₀ (fun hI => ⟨hends' hI.1, hI.2.1, fun s => hchooses hI.1 hI.2.2⟩) ?_
  rintro s s' p p' x r ⟨hp, hhop, hx⟩ h
  have hpacket : p'.packet = d.packet :=
    (getNextHop_packet hhalf (by rw [hp, hdata]; decide) h).trans hp
  have hroute : T.route (savedPorts p₀) p₀ x = some r := by
    rw [← map_getNextHopWith (hends' hp) hhop (hp₀ x) (hchooses hp hx), h]
    rfl
  obtain ⟨-, hset⟩ := getNextHopWith_keeps hhalf keeps_choosePort hhop h
  refine ⟨⟨hpacket, hset x, hx⟩, fun y hy => ⟨hpacket, hset y, hchain.next_mem hx ?_⟩⟩
  rw [hroute, Option.mem_def.1 hy]

end FatTree

/-! ### The two networks -/

namespace SnsFlow

variable (σ : SnsSpec)

lemma data_follows_leafSpine {T : LeafSpine} (hlt : T.numCoreSwitches < 4294967296)
    {sim sim' ack : Packet} {qs qsAck : List LeafQueue} (hsim : sim.snsType = .sim)
    (hsrc : sim.src = σ.src) (hdst : sim.dst = σ.dst)
    (hto : Traverses T.getNextHop sim (.host σ.src) qs sim') {now time : Time}
    (hback : Traverses T.getNextHop (simAckPacket σ now sim') (.host σ.dst) qsAck ack) (i : ℕ)
    (qsData : List LeafQueue) :
    (∃ data, Traverses T.getNextHop (dataPacket σ time ack i) (.host σ.src) qsData data) ↔
      qsData = qs := by
  obtain ⟨-, -, hchain, hgood⟩ := LeafSpine.sim_learns hlt hsim hto
  obtain rfl := LeafSpine.traverses_simAck rfl hback
  rw [hsrc, hdst] at hchain hgood
  have hF := LeafSpine.follows_route (T := T)
    (d := dataPacket σ time (simAckPacket σ now sim') i) (by simp [dataPacket, snsPacket])
    (by simp [dataPacket, snsPacket]) hchain hgood
  rw [hF.traverses_iff ⟨rfl, hchain.mem⟩]
  exact ⟨fun h => h.unique hchain, fun h => h ▸ hchain⟩

lemma data_follows_fatTree {T : FatTree} (hkind : T.kind = .sns) (hlt : T.k < 4294967296)
    (hhost : σ.src < T.numHosts) {sim sim' ack ack' data : HopPacket} {qs qsAck : List FatQueue}
    (hsim : sim.packet.snsType = .sim) (hsrc : sim.packet.src = σ.src)
    (hdst : sim.packet.dst = σ.dst) (hto : Traverses T.getNextHop sim (.host σ.src) qs sim')
    {now time : Time} (hack : ack.packet = simAckPacket σ now sim'.packet)
    (hback : Traverses T.getNextHop ack (.host σ.dst) qsAck ack') {i : ℕ}
    (hdata : data.packet = dataPacket σ time ack'.packet i) (qsData : List FatQueue) :
    (∃ data', Traverses T.getNextHop data (.host σ.src) qsData data') ↔ qsData = qs := by
  have hhalf : 0 < T.half := by
    by_contra h0
    have hk : T.k = 0 ∨ T.k = 1 := by
      unfold FatTree.half at h0
      omega
    unfold FatTree.numHosts mul32 at hhost
    rcases hk with hk | hk <;> rw [hk] at hhost <;> simp at hhost
  obtain ⟨hends, hhop, -, hchain, husable⟩ :=
    FatTree.sim_learns hkind hhalf hlt hto hsim (.inl ⟨_, rfl⟩)
  have hpacket := FatTree.traverses_packet hhalf hback
    (by rw [hack]; simp [simAckPacket, snsPacket])
  rw [hpacket, hack] at hdata
  have hsaved : ∀ level, FatTree.saved data level = FatTree.saved sim' level := by
    intro level
    cases level <;> simp only [FatTree.saved, hdata] <;> rfl
  have hendsData : FatTree.SameEnds data sim' := by
    rw [FatTree.SameEnds, hends.1, hends.2, hsrc, hdst, hdata]
    exact ⟨rfl, rfl⟩
  rw [← hends.1, ← hends.2] at husable
  have hF := FatTree.data_follows hkind hhalf (d := data) (by rw [hdata]; rfl) hendsData hhop
    hsaved hchain husable
  rw [hF.traverses_iff ⟨rfl, .inl ⟨_, rfl⟩, hchain.mem⟩]
  exact ⟨fun h => h.unique hchain, fun h => h ▸ hchain⟩

/-- **Data follows its probe.** The DATA packets that answer the SIM_ACK of a SIM go through the
queues the SIM went through, and no others, in both networks and all modes, whatever the
counters of the queues are at any time. -/
theorem data_follows_sim (now time : Time) (i : ℕ) :
    (∀ T : LeafSpine, T.numCoreSwitches < 4294967296 →
      ∀ (sim sim' ack : Packet) (qs qsAck : List LeafQueue), sim.snsType = .sim →
        sim.src = σ.src → sim.dst = σ.dst → Traverses T.getNextHop sim (.host σ.src) qs sim' →
        Traverses T.getNextHop (simAckPacket σ now sim') (.host σ.dst) qsAck ack →
        ∀ qsData, (∃ data, Traverses T.getNextHop (dataPacket σ time ack i) (.host σ.src)
          qsData data) ↔ qsData = qs) ∧
    ∀ k loadBalancing queueType : ℕ, k < 4294967296 →
      σ.src < (snsFatTreeTopology k loadBalancing queueType).numHosts →
      ∀ (sim sim' ack ack' data : HopPacket) (qs qsAck : List FatQueue),
        sim.packet.snsType = .sim → sim.packet.src = σ.src → sim.packet.dst = σ.dst →
        Traverses (snsFatTreeTopology k loadBalancing queueType).getNextHop sim
          (.host σ.src) qs sim' →
        ack.packet = simAckPacket σ now sim'.packet →
        Traverses (snsFatTreeTopology k loadBalancing queueType).getNextHop ack
          (.host σ.dst) qsAck ack' →
        data.packet = dataPacket σ time ack'.packet i →
        ∀ qsData, (∃ data', Traverses (snsFatTreeTopology k loadBalancing queueType).getNextHop
          data (.host σ.src) qsData data') ↔ qsData = qs :=
  ⟨fun _ hlt _ _ _ _ _ hsim hsrc hdst hto hback =>
      data_follows_leafSpine σ hlt hsim hsrc hdst hto hback i,
    fun _ _ _ hlt hhost _ _ _ _ _ _ _ hsim hsrc hdst hto hack hback hdata =>
      data_follows_fatTree σ rfl hlt hhost hsim hsrc hdst hto hack hback hdata⟩

/-- The first SIM of a flow of one segment, between hosts of different racks. -/
def firstSim : Packet := (SnsFlow.new oneSegment).simPacket oneSegment 0

theorem data_follows_sim_oneSegment :
    (∃ ack, ∀ qsData, (∃ data, Traverses (LeafSpine.mk 2 2 2 0).getNextHop
        (dataPacket oneSegment 0 ack 0) (.host 0) qsData data) ↔
      qsData = [.host 0, .agg 0 2, .core 1 1, .agg 1 0]) ∧
    ∃ data : HopPacket, ∀ qsData, (∃ data', Traverses (snsFatTreeTopology 2 0 0).getNextHop data
        (.host 0) qsData data') ↔
      qsData = [.host 0, .edge 0 1, .agg 0 1, .core 0 1, .agg 1 0, .edge 1 0] :=
  ⟨⟨_, (data_follows_sim oneSegment 0 0 0).1 ⟨2, 2, 2, 0⟩ (by decide) firstSim _ _ _
      [.host 1, .agg 1 2, .core 1 0, .agg 0 0] rfl rfl rfl
      (.next (c := 0) rfl <| .next (c := 0) rfl <| .next (c := 0) rfl <| .arrive (c := 0) rfl)
      (.next (c := 6) rfl <| .next (c := 0) rfl <| .next (c := 0) rfl <| .arrive (c := 0) rfl)⟩,
    ⟨⟨_, 0⟩, (data_follows_sim oneSegment 0 0 0).2 2 0 0 (by decide) (by decide) ⟨firstSim, 0⟩ _
      ⟨_, 0⟩ _ _ _ [.host 1, .edge 1 1, .agg 1 1, .core 0 0, .agg 0 0, .edge 0 0] rfl rfl rfl
      (.next (c := 0) rfl <| .next (c := 0) rfl <| .next (c := 0) rfl <| .next (c := 0) rfl <|
        .next (c := 0) rfl <| .arrive (c := 0) rfl)
      rfl
      (.next (c := 3) rfl <| .next (c := 0) rfl <| .next (c := 0) rfl <| .next (c := 0) rfl <|
        .next (c := 0) rfl <| .arrive (c := 0) rfl)
      rfl⟩⟩

end SnsFlow

end DcSim
