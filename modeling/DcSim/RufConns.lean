import DcSim.RufArbiter
import DcSim.RufStall
import Mathlib.Data.Finset.Card

/-!
The connections between racks that the arbiter of RUF counts.

A counter of a rack and the busy hosts of it whose connection leaves the rack add up to the
capacity. A grant, a timeout and the end of a grant keep this, as long as it is a busy host that
becomes free. A free host has round `-1` and is not local, and a receiver that uses the last token
of its grant before the end is announced announces round `-1`: the free host is freed again, and
the counter goes beyond the capacity.
-/

namespace DcSim

open Runs Word32

namespace ConnTable

variable {σ : RufArbiterSpec} {c : ConnTable} {h : HostId} {rack : ℕ}

variable (σ c) in
/-- The busy hosts of a rack whose connection is to another rack. -/
def crossing (rack : ℕ) : Finset HostId :=
  (Finset.range σ.numHosts).filter fun h =>
    σ.tor h = rack ∧ (c.state h).state = false ∧ (c.state h).isLocal = false

variable (σ c) in
/-- What is left of the capacity of a rack, and what is in use. -/
def Accounted : Prop := ∀ rack, c.cons rack + (c.crossing σ rack).card = σ.capacity

structure Tidy (c : ConnTable) : Prop where
  free : ∀ h, (c.state h).state = true → (c.state h).round = -1 ∧ (c.state h).isLocal = false
  busy : ∀ h, (c.state h).state = false → (c.state h).round ≠ -1

lemma mem_crossing {i : HostId} : i ∈ c.crossing σ rack ↔ i < σ.numHosts ∧ σ.tor i = rack ∧
    (c.state i).state = false ∧ (c.state i).isLocal = false := by
  simp [crossing]

lemma Accounted.le (hc : c.Accounted σ) (rack : ℕ) : c.cons rack ≤ σ.capacity := by
  have := hc rack
  omega

lemma Tidy.release (ht : Tidy c) : Tidy (c.release σ h) := by
  constructor <;> intro i hi <;> by_cases hih : i = h
  · subst hih
    simp [ConnTable.release]
  · simp only [ConnTable.release, Function.update_of_ne hih] at hi ⊢
    exact ht.free i hi
  · subst hih
    simp [ConnTable.release] at hi
  · simp only [ConnTable.release, Function.update_of_ne hih] at hi ⊢
    exact ht.busy i hi

lemma Tidy.occupy (ht : Tidy c) {timeout : Time} {round : ℤ} (hround : round ≠ -1) (b : Bool) :
    Tidy (c.occupy σ h timeout round b) := by
  constructor <;> intro i hi <;> by_cases hih : i = h
  · subst hih
    simp [ConnTable.occupy] at hi
  · simp only [ConnTable.occupy, Function.update_of_ne hih] at hi ⊢
    exact ht.free i hi
  · subst hih
    simpa [ConnTable.occupy] using hround
  · simp only [ConnTable.occupy, Function.update_of_ne hih] at hi ⊢
    exact ht.busy i hi

lemma crossing_release : (c.release σ h).crossing σ rack = (c.crossing σ rack).erase h := by
  ext i
  rw [Finset.mem_erase, mem_crossing, mem_crossing]
  by_cases hih : i = h
  · subst hih
    simp [ConnTable.release]
  · simp [ConnTable.release, hih]

lemma Accounted.release (hc : c.Accounted σ) (hh : h < σ.numHosts)
    (hbusy : (c.state h).state = false) : (c.release σ h).Accounted σ := by
  intro rack
  have hrack := hc rack
  rw [crossing_release]
  by_cases hmem : h ∈ c.crossing σ rack
  · obtain ⟨-, rfl, -, hlocal⟩ := mem_crossing.1 hmem
    have hcard := Finset.card_erase_add_one hmem
    simp only [ConnTable.release, hlocal, Bool.false_eq_true, if_false, Function.update_self]
    omega
  · rw [Finset.erase_eq_of_notMem hmem]
    have hcons : (c.release σ h).cons rack = c.cons rack := by
      unfold ConnTable.release
      dsimp only
      split_ifs with hlocal
      · rfl
      · -- a host of the rack with a connection to another one would be counted
        refine Function.update_of_ne (fun hrack => hmem ?_) _ _
        exact mem_crossing.2 ⟨hh, hrack.symm, hbusy, by simpa using hlocal⟩
    rw [hcons]
    exact hrack

lemma not_accounted_release (hc : c.Accounted σ) (ht : Tidy c)
    (hfree : (c.state h).state = true) : ¬ (c.release σ h).Accounted σ := by
  intro hc'
  have hbefore := hc (σ.tor h)
  have hafter := hc' (σ.tor h)
  have hmem : h ∉ c.crossing σ (σ.tor h) := fun hmem => by
    rw [(mem_crossing.1 hmem).2.2.1] at hfree
    cases hfree
  rw [crossing_release, Finset.erase_eq_of_notMem hmem] at hafter
  simp only [ConnTable.release, (ht.free h hfree).2, Bool.false_eq_true, if_false,
    Function.update_self] at hafter
  omega

lemma crossing_occupy (hh : h < σ.numHosts) (hfree : (c.state h).state = true) (timeout : Time)
    (round : ℤ) (b : Bool) : (c.occupy σ h timeout round b).crossing σ rack =
      if b = false ∧ σ.tor h = rack then insert h (c.crossing σ rack) else c.crossing σ rack := by
  ext i
  rw [mem_crossing]
  by_cases hih : i = h
  · subst hih
    split_ifs with hcond
    · simp [ConnTable.occupy, hh, hcond]
    · rw [mem_crossing]
      simp only [ConnTable.occupy, Function.update_self, hfree]
      tauto
  · split_ifs <;> simp [mem_crossing, ConnTable.occupy, hih]

lemma Accounted.occupy (hc : c.Accounted σ) (hh : h < σ.numHosts)
    (hfree : (c.state h).state = true) (timeout : Time) (round : ℤ) (b : Bool) :
    (c.occupy σ h timeout round b).Accounted σ := by
  intro rack
  have hrack := hc rack
  rw [crossing_occupy hh hfree]
  split_ifs with hcond
  · obtain ⟨rfl, rfl⟩ := hcond
    have hmem : h ∉ c.crossing σ (σ.tor h) := fun hmem => by
      rw [(mem_crossing.1 hmem).2.2.1] at hfree
      cases hfree
    rw [Finset.card_insert_of_notMem hmem]
    simp only [ConnTable.occupy, Bool.false_eq_true, if_false, Function.update_self]
    omega
  · have hcons : (c.occupy σ h timeout round b).cons rack = c.cons rack := by
      unfold ConnTable.occupy
      dsimp only
      split_ifs with hlocal
      · rfl
      · refine Function.update_of_ne (fun htor => hcond ?_) _ _
        exact ⟨by simpa using hlocal, htor.symm⟩
    rw [hcons]
    exact hrack

structure Sound (σ : RufArbiterSpec) (c : ConnTable) : Prop where
  accounted : c.Accounted σ
  tidy : Tidy c

lemma Sound.expire (hs : Sound σ c) (hh : h < σ.numHosts) (now : Time) :
    Sound σ (c.expire σ now h) := by
  unfold ConnTable.expire
  split_ifs with hbusy
  · exact ⟨hs.accounted.release hh hbusy.1, hs.tidy.release⟩
  · exact hs

lemma Sound.receiveNrts (hs : Sound σ c) (hh : h < σ.numHosts) {round : ℤ}
    (hround : ¬ (round = -1 ∧ (c.state h).state = true)) : Sound σ (c.receiveNrts σ h round) := by
  unfold ConnTable.receiveNrts
  split_ifs with heq
  · refine ⟨hs.accounted.release hh ?_, hs.tidy.release⟩
    by_contra hbusy
    have hfree : (c.state h).state = true := by simpa using hbusy
    exact hround ⟨heq.trans (hs.tidy.free h hfree).1, hfree⟩
  · exact hs

lemma Sound.not_accounted_receiveNrts (hs : Sound σ c) (hfree : (c.state h).state = true) :
    ¬ (c.receiveNrts σ h (-1)).Accounted σ := by
  unfold ConnTable.receiveNrts
  rw [if_pos (hs.tidy.free h hfree).1.symm]
  exact not_accounted_release hs.accounted hs.tidy hfree

lemma Sound.occupy (hs : Sound σ c) (hh : h < σ.numHosts) (hfree : (c.state h).state = true)
    (timeout : Time) {round : ℤ} (hround : round ≠ -1) (b : Bool) :
    Sound σ (c.occupy σ h timeout round b) :=
  ⟨hs.accounted.occupy hh hfree timeout round b, hs.tidy.occupy hround b⟩

end ConnTable

namespace RufArbiter

open ConnTable

variable {σ : RufArbiterSpec} {arb : RufArbiter} {now : Time}

structure Sound (σ : RufArbiterSpec) (arb : RufArbiter) : Prop where
  src : ConnTable.Sound σ arb.src
  dst : ConnTable.Sound σ arb.dst
  requests : ∀ e ∈ arb.rufQ, σ.Exists e
  round : 0 ≤ arb.round

lemma sound_init : Sound σ σ.init := by
  have hnone : ∀ rack, ConnTable.crossing σ ⟨fun _ => {}, fun _ => σ.capacity⟩ rack = ∅ := by
    intro rack
    simp [crossing]
  have htable : ConnTable.Sound σ ⟨fun _ => {}, fun _ => σ.capacity⟩ := by
    refine ⟨fun rack => ?_, fun _ _ => ⟨rfl, rfl⟩, nofun⟩
    rw [hnone]
    simp
  exact ⟨htable, htable, nofun, le_rfl⟩

lemma Sound.request (hs : Sound σ arb) {e : PqElement} (he : σ.Exists e) (maxGoSrc : ℕ) :
    Sound σ (arb.request σ now maxGoSrc e).1 := by
  have hround : arb.round ≠ -1 := by
    have := hs.round
    omega
  have hsrc := hs.src.expire he.1 now
  have hdst := hs.dst.expire he.2 now
  unfold RufArbiter.request
  dsimp only
  split_ifs with hbusy hlimit hmax
  · exact ⟨hsrc, hdst, hs.requests, hs.round⟩
  · exact ⟨hsrc, hdst, hs.requests, hs.round⟩
  all_goals
    obtain ⟨hfreeSrc, hfreeDst⟩ := not_or.1 hbusy
    exact ⟨hsrc.occupy he.1 (by simpa using hfreeSrc) _ hround _,
      hdst.occupy he.2 (by simpa using hfreeDst) _ hround _, hs.requests, hs.round⟩

lemma Sound.scheduleLoop (hs : Sound σ arb) (turns maxGoSrc : ℕ) :
    Sound σ (RufArbiter.scheduleLoop σ now turns arb maxGoSrc) := by
  induction turns generalizing arb maxGoSrc with
  | zero => exact hs
  | succ turns ih =>
    unfold RufArbiter.scheduleLoop
    split
    · exact hs
    · next e rest hpop =>
      have hperm := CustomPriorityQueue.pop_perm hpop
      have hrest : Sound σ { arb with rufQ := rest } :=
        ⟨hs.src, hs.dst, fun e' he' =>
          hs.requests e' (hperm.mem_iff.2 (List.mem_cons_of_mem _ he')), hs.round⟩
      exact ih (hrest.request (hs.requests e (hperm.mem_iff.2 List.mem_cons_self)) maxGoSrc) _

lemma Sound.scheduleEpoch (hs : Sound σ arb) {maxGoSrc : ℕ} {allFinished : Bool}
    {arb' : RufArbiter} (h : arb.scheduleEpoch σ now maxGoSrc allFinished = some arb') :
    Sound σ arb' := by
  unfold RufArbiter.scheduleEpoch at h
  split_ifs at h
  · exact Option.some.inj h ▸ hs
  · obtain ⟨arb₁, h₁, rfl⟩ := Option.map_eq_some_iff.1 h
    obtain ⟨-, h₁⟩ := Option.ite_none_right_eq_some.1 h₁
    obtain rfl := Option.some.inj h₁
    have hloop : Sound σ (RufArbiter.scheduleLoop σ now arb.rufQ.length arb maxGoSrc) :=
      hs.scheduleLoop _ _
    exact ⟨hloop.src, hloop.dst, hloop.requests, Int.emod_nonneg _ (by decide)⟩

variable (arb) in
lemma sendGosrcLoop_frame (maxGoSrc : ℕ) (queue : List (HostId × HostId)) :
    ∃ q l, sendGosrcLoop arb maxGoSrc queue = { arb with gosrcQueue := q, sent := l } := by
  induction queue generalizing arb maxGoSrc with
  | nil => exact ⟨_, _, rfl⟩
  | cons r queue ih =>
    unfold sendGosrcLoop
    dsimp only
    split_ifs
    · exact ⟨_, _, rfl⟩
    · obtain ⟨q, l, h⟩ := ih { arb with sent := _ } (sub32 maxGoSrc 1)
      exact ⟨q, l, h⟩

/-- The end of a grant of round `-1` does not come for a host that is free. -/
def GrantKnown (arb : RufArbiter) : RufArbiterAct → Prop
  | .listSrcs p => ∀ n ∈ p.nrts,
    ¬ (n.round = -1 ∧ ((arb.src.state n.src).state = true ∨ (arb.dst.state n.dst).state = true))
  | _ => True

instance (arb : RufArbiter) (a : RufArbiterAct) : Decidable (GrantKnown arb a) := by
  unfold GrantKnown
  split <;> infer_instance

variable (σ) in
structure Accounts (arb : RufArbiter) : Prop where
  inbound : arb.dst.Accounted σ
  outbound : arb.src.Accounted σ
  inbound_le : ∀ rack, arb.dst.cons rack ≤ σ.capacity
  outbound_le : ∀ rack, arb.src.cons rack ≤ σ.capacity

lemma Sound.accounts (hs : Sound σ arb) : Accounts σ arb :=
  ⟨hs.dst.accounted, hs.src.accounted, hs.dst.accounted.le, hs.src.accounted.le⟩

variable (arb) in
lemma receiveListsrcs_frame {p : RufListSrcs} (hp : σ.Names p) :
    ((arb.receiveListsrcs σ p).src = match p.nrts with
      | none => arb.src
      | some n => arb.src.receiveNrts σ n.src n.round) ∧
    ((arb.receiveListsrcs σ p).dst = match p.nrts with
      | none => arb.dst
      | some n => arb.dst.receiveNrts σ n.dst n.round) ∧
    (arb.receiveListsrcs σ p).round = arb.round ∧
    ∀ e ∈ (arb.receiveListsrcs σ p).rufQ, e ∈ arb.rufQ ∨ σ.Exists e := by
  have hnew : ∀ e ∈ (p.listSrcs.zip p.flowSizes).map fun e => PqElement.mk p.rtsDst e.1 e.2,
      σ.Exists e := by
    intro e he
    obtain ⟨⟨s, size⟩, hmem, rfl⟩ := List.mem_map.1 he
    exact ⟨hp.2.1 s (List.of_mem_zip hmem).1, hp.1⟩
  unfold receiveListsrcs
  cases p.nrts <;> dsimp only <;> split_ifs
  all_goals refine ⟨rfl, rfl, rfl, fun e he => ?_⟩
  · exact (List.mem_append.1 he).imp_right (hnew e)
  · exact .inl he
  · exact (List.mem_append.1 he).imp_right (hnew e)
  · exact .inl he

lemma Sound.receiveListsrcs (hs : Sound σ arb) {p : RufListSrcs} (hp : σ.Names p)
    (hknown : GrantKnown arb (.listSrcs p)) : Sound σ (arb.receiveListsrcs σ p) := by
  obtain ⟨hsrc, hdst, hround, hq⟩ := receiveListsrcs_frame arb hp
  refine ⟨?_, ?_, fun e he => (hq e he).elim (hs.requests e) id, hround ▸ hs.round⟩
  · rw [hsrc]
    cases hn : p.nrts with
    | none => exact hs.src
    | some n => exact hs.src.receiveNrts (hp.2.2 n hn).1 fun h => hknown n hn ⟨h.1, .inl h.2⟩
  · rw [hdst]
    cases hn : p.nrts with
    | none => exact hs.dst
    | some n => exact hs.dst.receiveNrts (hp.2.2 n hn).2 fun h => hknown n hn ⟨h.1, .inr h.2⟩

theorem sound_next {arb' : RufArbiter} {a : RufArbiterAct} (hs : Sound σ arb)
    (hknown : GrantKnown arb a) (hn : (machine σ).next arb a = some arb') : Sound σ arb' := by
  cases a with
  | listSrcs p =>
    obtain ⟨hp, hn⟩ := Option.ite_none_right_eq_some.1 hn
    exact Option.some.inj hn ▸ hs.receiveListsrcs hp hknown
  | epoch maxGoSrc allFinished =>
    obtain ⟨now, -, hn⟩ := Option.bind_eq_some_iff.1 hn
    have hs' : Sound σ { arb with procEvt := none } := ⟨hs.src, hs.dst, hs.requests, hs.round⟩
    exact hs'.scheduleEpoch hn
  | goSrcQueuing maxGoSrc =>
    obtain ⟨-, hn⟩ := Option.ite_none_right_eq_some.1 hn
    obtain ⟨-, hn⟩ := Option.ite_none_right_eq_some.1 hn
    obtain ⟨q, l, hq⟩ := sendGosrcLoop_frame { arb with gosrcQueueEvt := false } maxGoSrc
      arb.gosrcQueue
    rw [← Option.some.inj hn, hq]
    exact ⟨hs.src, hs.dst, hs.requests, hs.round⟩

theorem not_accounts_next {arb' : RufArbiter} {a : RufArbiterAct} (hs : Sound σ arb)
    (hknown : ¬ GrantKnown arb a) (hn : (machine σ).next arb a = some arb') :
    ¬ Accounts σ arb' := by
  cases a with
  | listSrcs p =>
    obtain ⟨hp, hn⟩ := Option.ite_none_right_eq_some.1 hn
    obtain rfl := Option.some.inj hn
    obtain ⟨hsrc, hdst, -, -⟩ := receiveListsrcs_frame arb hp
    simp only [GrantKnown, not_forall, not_not] at hknown
    obtain ⟨⟨s, d, r⟩, hmem, rfl, hfree⟩ := hknown
    rw [show p.nrts = _ from hmem] at hsrc hdst
    have hsrc : (receiveListsrcs σ arb p).src = arb.src.receiveNrts σ s (-1) := hsrc
    have hdst : (receiveListsrcs σ arb p).dst = arb.dst.receiveNrts σ d (-1) := hdst
    intro h
    rcases hfree with hfree | hfree
    · exact hs.src.not_accounted_receiveNrts hfree (hsrc ▸ h.outbound)
    · exact hs.dst.not_accounted_receiveNrts hfree (hdst ▸ h.inbound)
  | epoch => exact absurd trivial hknown
  | goSrcQueuing => exact absurd trivial hknown

/-- **The connections are accounted for** in a run exactly if no grant of round `-1` ends for a
host that is free. -/
theorem accounts_iff_grantKnown (as : List RufArbiterAct) :
    Always (machine σ) (Accounts σ) σ.init as ↔ Along (machine σ) GrantKnown σ.init as :=
  always_iff_along Sound.accounts sound_next not_accounts_next as sound_init

/-! ### A grant of one token that ends late -/

def threeRacks : RufArbiterSpec where
  numHosts := 6
  numHostsPerTor := 2
  capacity := 2
  sameRack a b := a / 2 = b / 2
  localize := false
  limitConns := true
  controlPktRtt _ := 1
  maxTokens := 1
  fullPktTranDelay := 1
  controllerEpoch := 10

/-- Host 0 has a long flow of source 2, and a short flow that holds its grant up. -/
def holdingHost : RufSpec := RufHost.secondsSpec 0 8 (fun id => id + 2) (fun id => 9 - id)

/-- Host 0 is granted one token at 2 s and uses it at 10 s. -/
def heldGrant : List RufAct :=
  [.rts 0 0, .rts (19 / 10) 1, .goSrc 2 2 1 0] ++ List.replicate 9 .tokenEvt

def otherHost : RufSpec := RufHost.secondsSpec 4 2 (fun id => 5 - 3 * id) (fun id => 3 + 2 * id)

/-- Source 2 is granted to host 0 in the first epoch. In the second, after its timeout, it is freed
by the request of host 4, and then again by the end of its grant. -/
def freedTwice : List RufArbiterAct :=
  [.listSrcs ⟨0, [2], [9], none⟩, .epoch 100 false, .listSrcs ⟨4, [5, 2], [3, 5], none⟩,
    .epoch 100 false, .listSrcs ⟨0, [], [], some ⟨2, 0, -1⟩⟩]

/-- The packets of this run are such as the two hosts send, and there is one connection more than
the capacity of rack 1 at its end. -/
theorem not_accounts_freedTwice :
    ((exec (RufHost.machine holdingHost) holdingHost.init heldGrant).any fun host =>
        .listSrcs ⟨0, [2], [9], none⟩ ∈ host.sent ∧
          .listSrcs ⟨0, [], [], some ⟨2, 0, -1⟩⟩ ∈ host.sent) = true ∧
      ((exec (RufHost.machine otherHost) otherHost.init [.rts 0 0, .rts 1 1]).any fun host =>
        .listSrcs ⟨4, [5, 2], [3, 5], none⟩ ∈ host.sent) = true ∧
      ¬ Always (machine threeRacks) (Accounts threeRacks) threeRacks.init freedTwice := by
  refine ⟨by decide +kernel, by decide +kernel, fun h => ?_⟩
  have hle : Always (machine threeRacks) (fun arb => arb.src.cons 1 ≤ 2) threeRacks.init
      freedTwice := h.mono fun _ ha => ha.outbound_le 1
  exact not_always_of_exec_any (by decide +kernel) hle

end RufArbiter

end DcSim
