import DcSim.FastpassArbiter
import DcSim.Greedy
import Mathlib.Data.List.Nodup
import Mathlib.Data.List.Count

/-!
What the arbiter of Fastpass gives away in a slot.

In whatever order the flows leave the queue, they are chosen greedily: a flow may join those that
were chosen before it if it has packets left, if its sender and its receiver are free, and if
neither of its racks has as many connections as it may. So no flow that is not finished could be
added in the end; those that are finished are dropped before they are tried.
-/

namespace DcSim.FastpassArbiter

open Greedy Runs

variable {σ : FastpassArbiterSpec} {A : FastpassArbiter} {c d ps : List ℕ} {f g : ℕ}

/-- The flow is between two racks. -/
def InterRack (σ : FastpassArbiterSpec) (f : ℕ) : Prop := σ.tor (σ.src f) ≠ σ.tor (σ.dst f)

instance (σ : FastpassArbiterSpec) (f : ℕ) : Decidable (InterRack σ f) :=
  inferInstanceAs (Decidable (¬ _ = _))

/-- How many flows between two racks have one end in a rack. -/
def cons (σ : FastpassArbiterSpec) (e : ℕ → HostId) (c : List ℕ)
    (t : ℕ) : ℕ :=
  c.countP fun g => InterRack σ g ∧ σ.tor (e g) = t

/-- How many flows to other racks a rack sends. -/
def sendCons (σ : FastpassArbiterSpec) (c : List ℕ) (t : ℕ) : ℕ := cons σ σ.src c t

/-- How many flows from other racks a rack receives. -/
def recvCons (σ : FastpassArbiterSpec) (c : List ℕ) (t : ℕ) : ℕ := cons σ σ.dst c t

/-- **The limits of a slot**: a flow may be given the slot next to others. -/
def CanJoin (σ : FastpassArbiterSpec) (c : List ℕ) (f : ℕ) : Prop :=
  (∀ g ∈ c, σ.src g ≠ σ.src f) ∧ (∀ g ∈ c, σ.dst g ≠ σ.dst f) ∧
    (σ.limitConns = true → InterRack σ f →
      (sendCons σ c (σ.tor (σ.src f)) : ℤ) < σ.conLimit ∧
        (recvCons σ c (σ.tor (σ.dst f)) : ℤ) < σ.conLimit)

instance (σ : FastpassArbiterSpec) (c : List ℕ) (f : ℕ) : Decidable (CanJoin σ c f) :=
  inferInstanceAs (Decidable (_ ∧ _ ∧ (_ → _ → _)))

/-- The flows that a schedule gives the slot to. -/
def scheduledFlows (σ : FastpassArbiterSpec) (A : FastpassArbiter) (S : HostId → Option ℕ) :
    List ℕ :=
  A.sendingFlows.toList.filter fun f => S (σ.src f) = some f

/-- The flow has packets left, was not given the slot and could have been. -/
def Addable (σ : FastpassArbiterSpec) (A : FastpassArbiter) (S : HostId → Option ℕ) (f : ℕ) :
    Prop :=
  0 < (A.flows f).remainingNumPkts ∧ S (σ.src f) ≠ some f ∧ CanJoin σ (scheduledFlows σ A S) f

instance (σ : FastpassArbiterSpec) (A : FastpassArbiter) (S : HostId → Option ℕ) (f : ℕ) :
    Decidable (Addable σ A S f) := inferInstanceAs (Decidable (_ ∧ _ ∧ _))

/-- **A right slot**: `A` is the arbiter before it, `S` the schedule and `B` the arbiter after it.
A limit below zero is as good as zero. -/
structure TimeslotRight (σ : FastpassArbiterSpec) (A : FastpassArbiter) (S : HostId → Option ℕ)
    (B : FastpassArbiter) : Prop where
  own : ∀ h f, S h = some f →
    σ.src f = h ∧ f ∈ A.sendingFlows ∧ 0 < (A.flows f).remainingNumPkts
  matching : ∀ h h' f f', h ≠ h' → S h = some f → S h' = some f' →
    σ.src f ≠ σ.src f' ∧ σ.dst f ≠ σ.dst f'
  limit : σ.limitConns = true → ∀ t, (sendCons σ (scheduledFlows σ A S) t : ℤ) ≤ max 0 σ.conLimit ∧
    (recvCons σ (scheduledFlows σ A S) t : ℤ) ≤ max 0 σ.conLimit
  flows : ∀ f, B.flows f = if S (σ.src f) = some f then
    { A.flows f with remainingNumPkts := (A.flows f).remainingNumPkts - 1 } else A.flows f
  kept : B.sendingFlows.toList.Nodup ∧
    ∀ f, f ∈ B.sendingFlows ↔ f ∈ A.sendingFlows ∧ (A.flows f).finished = false
  maximal : ∀ f ∈ A.sendingFlows, (A.flows f).finished = false → ¬ Addable σ A S f

/-! ### Connections -/

section Cons

variable {e : ℕ → HostId} {t : ℕ}

lemma cons_append (c : List ℕ) (f t : ℕ) : cons σ e (c ++ [f]) t =
    cons σ e c t + if InterRack σ f ∧ σ.tor (e f) = t then 1 else 0 := by
  rw [cons, List.countP_append, List.countP_singleton]
  simp only [cons, decide_eq_true_eq]

lemma cons_append_local (h : ¬ InterRack σ f) : cons σ e (c ++ [f]) t = cons σ e c t := by
  rw [cons_append, if_neg fun hf => h hf.1, Nat.add_zero]

lemma cons_append_far (h : InterRack σ f) (t : ℕ) : (cons σ e (c ++ [f]) t : ℤ) =
    Function.update (fun t => (cons σ e c t : ℤ)) (σ.tor (e f))
      (cons σ e c (σ.tor (e f)) + 1) t := by
  rw [cons_append]
  by_cases ht : t = σ.tor (e f)
  · subst ht
    rw [if_pos ⟨h, rfl⟩, Function.update_self]
    rfl
  · rw [if_neg fun hf => ht hf.2.symm, Function.update_of_ne ht, Nat.add_zero]

lemma cons_append_le (h : (cons σ e c t : ℤ) ≤ max 0 σ.conLimit)
    (hf : InterRack σ f → (cons σ e c (σ.tor (e f)) : ℤ) < σ.conLimit) :
    (cons σ e (c ++ [f]) t : ℤ) ≤ max 0 σ.conLimit := by
  rw [cons_append]
  split_ifs with hfar
  · obtain ⟨hfar, rfl⟩ := hfar
    have hlt := hf hfar
    exact le_max_of_le_right (by push_cast; omega)
  · exact h

lemma cons_mono (h : c.Sublist d) : cons σ e c t ≤ cons σ e d t := h.countP_le

lemma cons_perm (h : c.Perm d) : cons σ e c t = cons σ e d t := h.countP_eq _

end Cons

lemma CanJoin.mono (h : c.Sublist d) (hd : CanJoin σ d f) : CanJoin σ c f := by
  obtain ⟨hsrc, hdst, hracks⟩ := hd
  refine ⟨fun g hg => hsrc g (h.subset hg), fun g hg => hdst g (h.subset hg), fun hlim hfar => ?_⟩
  have hs := cons_mono (σ := σ) (e := σ.src) (t := σ.tor (σ.src f)) h
  have hr := cons_mono (σ := σ) (e := σ.dst) (t := σ.tor (σ.dst f)) h
  obtain ⟨hs', hr'⟩ := hracks hlim hfar
  unfold sendCons recvCons at *
  exact ⟨by omega, by omega⟩

lemma canJoin_perm (h : c.Perm d) : CanJoin σ c f ↔ CanJoin σ d f := by
  simp only [CanJoin, sendCons, recvCons, cons_perm h, h.mem_iff]

/-! ### One flow after the other -/

/-- The flow has packets left and may join. -/
def Fits (σ : FastpassArbiterSpec) (A : FastpassArbiter) (c : List ℕ) (f : ℕ) : Prop :=
  0 < (A.flows f).remainingNumPkts ∧ CanJoin σ c f

instance (σ : FastpassArbiterSpec) (A : FastpassArbiter) (c : List ℕ) (f : ℕ) :
    Decidable (Fits σ A c f) := inferInstanceAs (Decidable (_ ∧ _))

structure Given (σ : FastpassArbiterSpec) (A : FastpassArbiter) (c : List ℕ) (w : Slot) : Prop where
  flows : ∀ f, w.flows f = if f ∈ c then
    { A.flows f with remainingNumPkts := (A.flows f).remainingNumPkts - 1 } else A.flows f
  schedule : ∀ h f, w.schedule h = some f ↔ f ∈ c ∧ σ.src f = h
  sender : ∀ h, h ∈ w.senderUsed ↔ ∃ g ∈ c, σ.src g = h
  receiver : ∀ h, h ∈ w.receiverUsed ↔ ∃ g ∈ c, σ.dst g = h
  sendTor : σ.limitConns = true → ∀ t, w.sendTorCons t = sendCons σ c t
  recvTor : σ.limitConns = true → ∀ t, w.recvTorCons t = recvCons σ c t

section Give

variable (w : Slot)

@[simp] lemma give_flows : (w.give σ f).flows = Function.update w.flows f
    { w.flows f with remainingNumPkts := (w.flows f).remainingNumPkts - 1 } := rfl

@[simp] lemma give_schedule :
    (w.give σ f).schedule = Function.update w.schedule (σ.src f) (some f) := rfl

@[simp] lemma give_senderUsed : (w.give σ f).senderUsed = insert (σ.src f) w.senderUsed := rfl

@[simp] lemma give_receiverUsed :
    (w.give σ f).receiverUsed = insert (σ.dst f) w.receiverUsed := rfl

@[simp] lemma tryFlow_flowsTried : (w.tryFlow σ f).flowsTried = w.flowsTried := by
  unfold Slot.tryFlow Slot.connect
  dsimp only
  split_ifs <;> rfl

end Give

namespace Given

variable {w : Slot}

lemma init : Given σ A [] { flows := A.flows } :=
  ⟨fun f => rfl, fun h f => by simp, fun h => by simp, fun h => by simp, fun _ t => rfl,
    fun _ t => rfl⟩

lemma finished (hw : Given σ A c w) (f : ℕ) : (w.flows f).finished = (A.flows f).finished := by
  rw [hw.flows f]
  split_ifs <;> rfl

lemma not_mem_senderUsed (hw : Given σ A c w) :
    σ.src f ∉ w.senderUsed ↔ ∀ g ∈ c, σ.src g ≠ σ.src f := by
  rw [hw.sender]
  exact ⟨fun hnot g hg heq => hnot ⟨g, hg, heq⟩, fun hall ⟨g, hg, heq⟩ => hall g hg heq⟩

lemma not_mem_receiverUsed (hw : Given σ A c w) :
    σ.dst f ∉ w.receiverUsed ↔ ∀ g ∈ c, σ.dst g ≠ σ.dst f := by
  rw [hw.receiver]
  exact ⟨fun hnot g hg heq => hnot ⟨g, hg, heq⟩, fun hall ⟨g, hg, heq⟩ => hall g hg heq⟩

lemma connect (hw : Given σ A c w) (hlim : σ.limitConns = true) (f t : ℕ) :
    (w.connect σ f).sendTorCons t = sendCons σ (c ++ [f]) t ∧
      (w.connect σ f).recvTorCons t = recvCons σ (c ++ [f]) t := by
  have hs : w.sendTorCons = fun t => (cons σ σ.src c t : ℤ) := funext (hw.sendTor hlim)
  have hr : w.recvTorCons = fun t => (cons σ σ.dst c t : ℤ) := funext (hw.recvTor hlim)
  unfold Slot.connect sendCons recvCons
  dsimp only
  split_ifs with hfar
  · rw [cons_append_far hfar, cons_append_far hfar, hs, hr]
    exact ⟨rfl, rfl⟩
  · rw [cons_append_local hfar, cons_append_local hfar, hs, hr]
    exact ⟨rfl, rfl⟩

lemma give (hw : Given σ A c w) (hf : f ∉ c) (hsrc : ∀ g ∈ c, σ.src g ≠ σ.src f) {v : Slot}
    (hflows : v.flows = w.flows) (hschedule : v.schedule = w.schedule)
    (hsender : v.senderUsed = w.senderUsed) (hreceiver : v.receiverUsed = w.receiverUsed)
    (htor : σ.limitConns = true → ∀ t, v.sendTorCons t = sendCons σ (c ++ [f]) t ∧
      v.recvTorCons t = recvCons σ (c ++ [f]) t) : Given σ A (c ++ [f]) (v.give σ f) := by
  have hmem : ∀ {g}, g ∈ c ++ [f] ↔ g ∈ c ∨ g = f := by simp
  refine ⟨fun g => ?_, fun h g => ?_, fun h => ?_, fun h => ?_, fun hlim t => (htor hlim t).1,
    fun hlim t => (htor hlim t).2⟩
  · rcases eq_or_ne g f with rfl | hne
    · rw [if_pos (hmem.mpr (.inr rfl)), give_flows, Function.update_self, hflows, hw.flows g,
        if_neg hf]
    · rw [give_flows, Function.update_of_ne hne, hflows, hw.flows g]
      exact if_congr (by rw [hmem, or_iff_left hne]) rfl rfl
  · rcases eq_or_ne h (σ.src f) with rfl | hne
    · rw [give_schedule, Function.update_self, hmem, Option.some_inj]
      constructor
      · rintro rfl
        exact ⟨.inr rfl, rfl⟩
      · rintro ⟨hg | rfl, heq⟩
        · exact absurd heq (hsrc g hg)
        · rfl
    · rw [give_schedule, Function.update_of_ne hne, hschedule, hw.schedule h g, hmem]
      refine and_congr_left fun heq => (or_iff_left ?_).symm
      rintro rfl
      exact hne heq.symm
  · rw [give_senderUsed, Finset.mem_insert, hsender, hw.sender h]
    simp only [hmem, or_and_right, exists_or, exists_eq_left]
    exact ⟨fun h => h.symm.imp_right Eq.symm, fun h => (h.imp_right Eq.symm).symm⟩
  · rw [give_receiverUsed, Finset.mem_insert, hreceiver, hw.receiver h]
    simp only [hmem, or_and_right, exists_or, exists_eq_left]
    exact ⟨fun h => h.symm.imp_right Eq.symm, fun h => (h.imp_right Eq.symm).symm⟩

/-- **The resource checks** come to whether the flow fits. -/
lemma fits_iff (hw : Given σ A c w) (hf : f ∉ c) : Fits σ A c f ↔
    (0 < (w.flows f).remainingNumPkts ∧ σ.src f ∉ w.senderUsed ∧ σ.dst f ∉ w.receiverUsed) ∧
      (σ.limitConns = true → σ.tor (σ.src f) = σ.tor (σ.dst f) ∨
        w.sendTorCons (σ.tor (σ.src f)) < σ.conLimit ∧
          w.recvTorCons (σ.tor (σ.dst f)) < σ.conLimit) := by
  have hracks : (σ.limitConns = true → σ.tor (σ.src f) = σ.tor (σ.dst f) ∨
      w.sendTorCons (σ.tor (σ.src f)) < σ.conLimit ∧
        w.recvTorCons (σ.tor (σ.dst f)) < σ.conLimit) ↔
      (σ.limitConns = true → InterRack σ f →
        (sendCons σ c (σ.tor (σ.src f)) : ℤ) < σ.conLimit ∧
          (recvCons σ c (σ.tor (σ.dst f)) : ℤ) < σ.conLimit) := by
    refine forall_congr' fun hlim => ?_
    rw [hw.sendTor hlim, hw.recvTor hlim, or_iff_not_imp_left]
    rfl
  have hrem : (w.flows f).remainingNumPkts = (A.flows f).remainingNumPkts := by
    rw [hw.flows f, if_neg hf]
  rw [hracks, hrem, hw.not_mem_senderUsed, hw.not_mem_receiverUsed, and_assoc, and_assoc]
  rfl

lemma tryFlow (hw : Given σ A c w) (hf : f ∉ c) :
    Given σ A (if Fits σ A c f then c ++ [f] else c) (w.tryFlow σ f) := by
  have hiff := hw.fits_iff hf
  unfold Slot.tryFlow
  dsimp only
  by_cases hfree : 0 < (w.flows f).remainingNumPkts ∧ σ.src f ∉ w.senderUsed ∧
      σ.dst f ∉ w.receiverUsed
  · have hsrc := hw.not_mem_senderUsed.mp hfree.2.1
    rw [if_pos hfree]
    by_cases hlim : σ.limitConns = true
    · rw [if_pos hlim]
      by_cases hracks : σ.tor (σ.src f) = σ.tor (σ.dst f) ∨
          w.sendTorCons (σ.tor (σ.src f)) < σ.conLimit ∧
            w.recvTorCons (σ.tor (σ.dst f)) < σ.conLimit
      · rw [if_pos hracks, if_pos (hiff.mpr ⟨hfree, fun _ => hracks⟩)]
        refine hw.give hf hsrc ?_ ?_ ?_ ?_ fun _ t => hw.connect hlim f t
        all_goals
          unfold Slot.connect
          dsimp only
          split_ifs <;> rfl
      · rw [if_neg hracks, if_neg fun h => hracks ((hiff.mp h).2 hlim)]
        exact hw
    · rw [if_neg hlim, if_pos (hiff.mpr ⟨hfree, fun h => absurd h hlim⟩)]
      exact hw.give hf hsrc rfl rfl rfl rfl fun h => absurd h hlim
  · rw [if_neg hfree, if_neg fun h => hfree (hiff.mp h).1]
    exact hw

end Given

/-! ### All of them -/

def unfinished (A : FastpassArbiter) (f : ℕ) : Bool := !(A.flows f).finished

lemma Given.foldl_visit {w : Slot} (hw : Given σ A c w) (hps : ps.Nodup) (hout : ∀ f ∈ ps, f ∉ c) :
    Given σ A (select (Fits σ A) c (ps.filter A.unfinished)) (ps.foldl (Slot.visit σ) w) ∧
      (ps.foldl (Slot.visit σ) w).flowsTried = w.flowsTried ++ ps.filter A.unfinished := by
  induction ps generalizing c w with
  | nil => exact ⟨hw, (List.append_nil _).symm⟩
  | cons f ps ih =>
    obtain ⟨hfps, hps⟩ := List.nodup_cons.mp hps
    have hf := hout f List.mem_cons_self
    have hrest : ∀ g ∈ ps, g ∉ c := fun g hg => hout g (List.mem_cons_of_mem f hg)
    rw [List.foldl_cons, Slot.visit, hw.finished f]
    cases hfin : (A.flows f).finished with
    | true =>
      rw [if_pos rfl, List.filter_cons_of_neg (by simp [unfinished, hfin])]
      exact ih hw hps hrest
    | false =>
      have hnext := hw.tryFlow hf
      have hout' : ∀ g ∈ ps, g ∉ if Fits σ A c f then c ++ [f] else c := by
        intro g hg
        split_ifs
        · rw [List.mem_append, List.mem_singleton, not_or]
          exact ⟨hrest g hg, fun heq => hfps (heq ▸ hg)⟩
        · exact hrest g hg
      rw [if_neg Bool.false_ne_true, List.filter_cons_of_pos (by simp [unfinished, hfin]), select]
      obtain ⟨hgiven, htried⟩ := ih (w := { w.tryFlow σ f with
        flowsTried := (w.tryFlow σ f).flowsTried ++ [f] })
        ⟨hnext.flows, hnext.schedule, hnext.sender, hnext.receiver, hnext.sendTor, hnext.recvTor⟩
        hps hout'
      refine ⟨hgiven, htried.trans ?_⟩
      rw [tryFlow_flowsTried, List.append_assoc, List.singleton_append]

lemma timeslotLoop_eq {n : ℕ} {q : Array ℕ} (hn : q.size = n) (w : Slot) :
    ∃ ps, q.toList.Perm ps ∧ timeslotLoop σ n q w = ps.foldl (Slot.visit σ) w := by
  induction n generalizing q w with
  | zero =>
    rw [Array.eq_empty_of_size_eq_zero hn]
    exact ⟨[], .refl _, rfl⟩
  | succ n ih =>
    rw [timeslotLoop]
    cases hpop : HeapQueue.pop (comparator σ w.flows) q with
    | none =>
      rw [HeapQueue.pop_eq_none hpop] at hn
      exact absurd hn (Nat.succ_ne_zero n).symm
    | some r =>
      obtain ⟨f, q'⟩ := r
      have hperm := HeapQueue.pop_perm hpop
      have hsize : q'.size = n := by
        have hlen := hperm.length_eq
        rw [List.length_cons, Array.length_toList, Array.length_toList, hn] at hlen
        omega
      obtain ⟨ps, hps, hloop⟩ := ih hsize (w.visit σ f)
      exact ⟨f :: ps, hperm.trans (hps.cons f), hloop⟩

/-- **The slot is given away greedily**: the flows of the queue in some order, of which those that
are not finished are tried and put back. -/
lemma exists_order (hA : A.sendingFlows.toList.Nodup) : ∃ ps : List ℕ, ∃ w : Slot,
    A.sendingFlows.toList.Perm ps ∧
    Given σ A (select (Fits σ A) [] (ps.filter A.unfinished)) w ∧
    A.scheduleTimeslot σ = (w.schedule, ⟨w.flows,
      (ps.filter A.unfinished).foldl (HeapQueue.push (comparator σ w.flows)) #[]⟩) := by
  obtain ⟨ps, hperm, hloop⟩ := timeslotLoop_eq (σ := σ) rfl { flows := A.flows }
  obtain ⟨hgiven, htried⟩ := (Given.init (σ := σ) (A := A)).foldl_visit (hperm.nodup_iff.mp hA)
    fun f _ => List.not_mem_nil
  refine ⟨ps, _, hperm, hgiven, ?_⟩
  unfold scheduleTimeslot
  rw [hloop]
  dsimp only
  rw [htried]
  rfl

/-! ### The slot -/

structure Within (σ : FastpassArbiterSpec) (A : FastpassArbiter) (c : List ℕ) : Prop where
  left : ∀ f ∈ c, 0 < (A.flows f).remainingNumPkts
  apart : ∀ f ∈ c, ∀ g ∈ c, f ≠ g → σ.src f ≠ σ.src g ∧ σ.dst f ≠ σ.dst g
  limit : σ.limitConns = true → ∀ t, (sendCons σ c t : ℤ) ≤ max 0 σ.conLimit ∧
    (recvCons σ c t : ℤ) ≤ max 0 σ.conLimit

lemma Within.append (hc : Within σ A c) (hf : Fits σ A c f) : Within σ A (c ++ [f]) := by
  obtain ⟨hleft, hsrc, hdst, hracks⟩ := hf
  have hmem : ∀ {g}, g ∈ c ++ [f] ↔ g ∈ c ∨ g = f := by simp
  refine ⟨fun g hg => ?_, fun g hg x hx hne => ?_, fun hlim t => ⟨?_, ?_⟩⟩
  · rcases hmem.mp hg with hg | rfl
    · exact hc.left g hg
    · exact hleft
  · rcases hmem.mp hg with hgc | rfl
    · rcases hmem.mp hx with hxc | rfl
      · exact hc.apart g hgc x hxc hne
      · exact ⟨hsrc g hgc, hdst g hgc⟩
    · have hx := (hmem.mp hx).resolve_right hne.symm
      exact ⟨(hsrc x hx).symm, (hdst x hx).symm⟩
  · exact cons_append_le (hc.limit hlim t).1 fun hfar => (hracks hlim hfar).1
  · exact cons_append_le (hc.limit hlim t).2 fun hfar => (hracks hlim hfar).2

lemma within_select (xs : List ℕ) : Within σ A (select (Fits σ A) [] xs) := by
  have hnil : Within σ A [] := ⟨fun f hf => absurd hf List.not_mem_nil,
    fun f hf => absurd hf List.not_mem_nil, fun _ t => ⟨le_max_left 0 _, le_max_left 0 _⟩⟩
  exact select_inv (fun c f hc _ hf => hc.append hf) hnil

lemma nodup_select {xs : List ℕ} (hxs : xs.Nodup) : (select (Fits σ A) [] xs).Nodup := by
  obtain ⟨t, hsub, ht⟩ := exists_select (Fits σ A) [] xs
  rw [ht, List.nil_append]
  exact hxs.sublist hsub

lemma Given.scheduledFlows_perm {w : Slot} (hw : Given σ A c w) (hA : A.sendingFlows.toList.Nodup)
    (hc : c.Nodup) (hmem : ∀ f ∈ c, f ∈ A.sendingFlows) :
    (scheduledFlows σ A w.schedule).Perm c := by
  refine (List.perm_ext_iff_of_nodup (hA.filter _) hc).mpr fun f => ?_
  rw [List.mem_filter, decide_eq_true_eq, hw.schedule, Array.mem_toList_iff]
  exact ⟨fun h => h.2.1, fun hf => ⟨hmem f hf, hf, rfl⟩⟩

/-- **The slot comes out right** for all flows, whatever the arbiter knows of them. -/
lemma timeslotRight (hA : A.sendingFlows.toList.Nodup) :
    TimeslotRight σ A (A.scheduleTimeslot σ).1 (A.scheduleTimeslot σ).2 := by
  obtain ⟨ps, w, hperm, hw, heq⟩ := exists_order (σ := σ) hA
  have hps : (ps.filter A.unfinished).Nodup := (hperm.nodup_iff.mp hA).filter _
  have htried : ∀ f, f ∈ ps.filter A.unfinished ↔
      f ∈ A.sendingFlows ∧ (A.flows f).finished = false := by
    intro f
    rw [List.mem_filter, ← hperm.mem_iff, Array.mem_toList_iff, unfinished, Bool.not_eq_true']
  have hmem : ∀ f ∈ select (Fits σ A) [] (ps.filter A.unfinished), f ∈ A.sendingFlows := by
    intro f hf
    exact ((htried f).mp ((mem_of_mem_select hf).resolve_left List.not_mem_nil)).1
  have hwithin := within_select (σ := σ) (A := A) (ps.filter A.unfinished)
  have hsched := hw.scheduledFlows_perm hA (nodup_select hps) hmem
  have hback := HeapQueue.foldl_push_perm (comparator σ w.flows) #[] (ps.filter A.unfinished)
  rw [heq]
  refine ⟨fun h f hf => ?_, fun h h' f f' hne hf hf' => ?_, fun hlim t => ?_, fun f => ?_,
    ⟨?_, fun f => ?_⟩, fun f hf hfin => ?_⟩
  · obtain ⟨hfc, hsrc⟩ := (hw.schedule h f).mp hf
    exact ⟨hsrc, hmem f hfc, hwithin.left f hfc⟩
  · obtain ⟨hfc, rfl⟩ := (hw.schedule h f).mp hf
    obtain ⟨hfc', rfl⟩ := (hw.schedule h' f').mp hf'
    have hff' : f ≠ f' := fun heq => hne (heq ▸ rfl)
    exact hwithin.apart f hfc f' hfc' hff'
  · rw [sendCons, recvCons, cons_perm hsched, cons_perm hsched]
    exact hwithin.limit hlim t
  · exact (hw.flows f).trans (if_congr ((hw.schedule _ f).trans (and_iff_left rfl)).symm rfl rfl)
  · exact hback.nodup_iff.mpr hps
  · rw [← Array.mem_toList_iff, hback.mem_iff]
    exact htried f
  · rintro ⟨hleft, hnot, hjoin⟩
    have hout : f ∉ select (Fits σ A) [] (ps.filter A.unfinished) := fun hfc =>
      hnot ((hw.schedule _ f).mpr ⟨hfc, rfl⟩)
    refine select_maximal (fun c d g hcd hd => ⟨hd.1, hd.2.mono hcd.sublist⟩)
      ((htried f).mpr ⟨hf, hfin⟩) hout ⟨hleft, ?_⟩
    exact (canJoin_perm hsched).mp hjoin

/-! ### Runs of the arbiter -/

structure Queued (A : FastpassArbiter) : Prop where
  nodup : A.sendingFlows.toList.Nodup
  asked : ∀ f ∈ A.sendingFlows, (A.flows f).receivedRts = true

lemma Queued.receiveRts (hA : Queued A) (f : ℕ) (n : ℤ) : Queued (A.receiveRts σ f n) := by
  have hasked : ∀ g, (A.flows g).receivedRts = true ∨ g = f →
      ((A.receiveRts σ f n).flows g).receivedRts = true := by
    intro g hg
    unfold FastpassArbiter.receiveRts
    dsimp only
    rcases eq_or_ne g f with rfl | hne
    · rw [Function.update_self]
      split_ifs <;> rfl
    · rw [Function.update_of_ne hne]
      exact hg.resolve_right hne
  by_cases hf : (A.flows f).receivedRts = true
  · have hqueue : (A.receiveRts σ f n).sendingFlows = A.sendingFlows := if_pos hf
    exact ⟨hqueue ▸ hA.nodup, fun g hg => hasked g (.inl (hA.asked g (hqueue ▸ hg)))⟩
  · have hqueue : (A.receiveRts σ f n).sendingFlows =
        HeapQueue.push (comparator σ A.flows) A.sendingFlows f := if_neg hf
    have hperm : (A.receiveRts σ f n).sendingFlows.toList.Perm (A.sendingFlows.toList ++ [f]) := by
      rw [hqueue]
      exact HeapQueue.push_toList_perm (comparator σ A.flows) A.sendingFlows f
    have hout : f ∉ A.sendingFlows.toList := fun hmem =>
      hf (hA.asked f (Array.mem_toList_iff.mp hmem))
    refine ⟨hperm.nodup_iff.mpr (List.nodup_append'.mpr ⟨hA.nodup, List.nodup_singleton f, ?_⟩),
      fun g hg => hasked g ?_⟩
    · exact List.disjoint_singleton.mpr hout
    · rw [← Array.mem_toList_iff, hperm.mem_iff, List.mem_append, List.mem_singleton,
        Array.mem_toList_iff] at hg
      exact hg.imp_left (hA.asked g)

lemma Queued.scheduleTimeslot (hA : Queued A) : Queued (A.scheduleTimeslot σ).2 := by
  have hright := timeslotRight (σ := σ) hA.nodup
  refine ⟨hright.kept.1, fun f hf => ?_⟩
  rw [hright.flows f]
  have hasked := hA.asked f ((hright.kept.2 f).mp hf).1
  split_ifs <;> exact hasked

lemma Queued.epochLoop (hA : Queued A) (slots : ℕ) : Queued (A.epochLoop σ slots).2 := by
  induction slots generalizing A with
  | zero => exact hA
  | succ slots ih =>
    rw [FastpassArbiter.epochLoop]
    split_ifs
    · exact ih hA.scheduleTimeslot
    · exact ih hA

lemma queued (hA : Reach (machine σ) A) : Queued A := by
  refine hA.inv ⟨List.nodup_nil, fun f hf => absurd hf (Array.not_mem_empty f)⟩ ?_
  intro A B a _ hA hn
  cases a with
  | rts f n =>
    obtain rfl := Option.some.inj hn
    exact hA.receiveRts f n
  | epoch =>
    obtain rfl := Option.some.inj hn
    exact hA.epochLoop σ.epochPkts

/-- **A slot of Fastpass** comes out right for any flows of the queue, and so does every slot of an
epoch in every run. -/
theorem timeslot_right (σ : FastpassArbiterSpec) :
    (∀ A : FastpassArbiter, A.sendingFlows.toList.Nodup →
      TimeslotRight σ A (A.scheduleTimeslot σ).1 (A.scheduleTimeslot σ).2) ∧
    ∀ A, Reach (machine σ) A → ∀ slots, TimeslotRight σ (A.epochLoop σ slots).2
      ((A.epochLoop σ slots).2.scheduleTimeslot σ).1
      ((A.epochLoop σ slots).2.scheduleTimeslot σ).2 :=
  ⟨fun _ hA => timeslotRight hA,
    fun _ hA slots => timeslotRight ((queued hA).epochLoop slots).nodup⟩

/-- Flows from one rack of two hosts to another, of which each may have one connection. -/
def twoRacks : FastpassArbiterSpec where
  src f := f
  dst f := f + 2
  numHostsPerTor := 2
  conLimit := 1
  sameRack h h' := h / 2 == h' / 2
  localize := false
  limitConns := true
  epochPkts := 8

def twoAsked : FastpassArbiter :=
  ⟨fun f => if f < 2 then { receivedRts := true, remainingNumPkts := 5 } else {}, #[0, 1]⟩

theorem timeslot_right_twoAsked :
    twoAsked.sendingFlows.toList.Nodup ∧
      TimeslotRight twoRacks twoAsked (twoAsked.scheduleTimeslot twoRacks).1
        (twoAsked.scheduleTimeslot twoRacks).2 ∧
      (twoAsked.scheduleTimeslot twoRacks).1 0 = some 0 ∧
      (twoAsked.scheduleTimeslot twoRacks).1 1 = none :=
  ⟨by decide, (timeslot_right twoRacks).1 twoAsked (by decide), by decide, by decide⟩

/-- A request of a flow that is late, behind the last one: the flow has packets left again and
could have the slot, but it counts as finished. -/
theorem finished_flow_addable : ¬ ∀ A, Reach (machine twoRacks) A → ∀ f ∈ A.sendingFlows,
    ¬ Addable twoRacks A (A.scheduleTimeslot twoRacks).1 f := by
  obtain ⟨A, hA, hmem, hadd⟩ := exists_reach_of_exec_any (M := machine twoRacks)
    (P := fun A => 0 ∈ A.sendingFlows.toList ∧
      Addable twoRacks A (A.scheduleTimeslot twoRacks).1 0)
    [.rts 0 5, .rts 0 (-1), .rts 0 3] (by decide)
  exact fun hall => hall A hA 0 (Array.mem_toList_iff.mp hmem) hadd

end DcSim.FastpassArbiter
