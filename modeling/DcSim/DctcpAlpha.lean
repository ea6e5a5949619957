import DcSim.DctcpFlow
import Mathlib.Algebra.Order.Field.Basic
import Mathlib.Tactic.FieldSimp
import Mathlib.Tactic.Linarith

/-!
The estimate of congestion of DCTCP.

The history of marks begins with those of the new ACKs, the latest first, and is as long as the
window may ever be, so that the assertions hold. The share of marked ACKs is a quotient of two
integers, so that it is one if all of a window are marked and zero if any of it is not.
-/

namespace DcSim.DctcpFlow

open DcSim.Flow Runs Word32

variable {σ : FlowSpec} {f : Flow Dctcp} {g : ℚ}

/-! ### The steps -/

/-- What can happen to a flow: it starts, a timer runs out, or a packet comes in, any at all. -/
inductive DctcpAct
  | start (now : Time)
  | retxTimeout (now : Time) (id : ℕ)
  | packet (now : Time) (p : DctcpPacket)

def next (σ : FlowSpec) (f : Flow Dctcp) : DctcpAct → Option (Flow Dctcp)
  | .start now =>
    if f.started then none else some (sendPendingData σ { f with started := true } now).1
  | .retxTimeout now id =>
    (f.fireRetxEvent (fun f => handleTimeout σ f now) now id).map (·.1)
  | .packet now p => (receive σ f now p).map (·.1)

def machine (σ : FlowSpec) (g : ℚ) : Machine (Flow Dctcp) DctcpAct := ⟨new σ g, next σ⟩

def NewAck (f : Flow Dctcp) (p : DctcpPacket) : Prop :=
  f.finished = false ∧ p.type = .ack ∧ f.lastUnackedSeq < p.seqNo

instance (f : Flow Dctcp) (p : DctcpPacket) : Decidable (NewAck f p) :=
  inferInstanceAs (Decidable (_ ∧ _))

/-- The share of the marked among the last `n` of the new ACKs. -/
def markedShare (marks : List Bool) (n : ℕ) : ℚ := (marks.take n).count true / (marks.take n).length

/-- The step sets `dctcp_alpha` to what it should be after a new ACK. -/
def UpdatesExactly (σ : FlowSpec) (f : Flow Dctcp) : DctcpAct → Prop
  | .packet now p => NewAck f p → ∀ t, next σ f (.packet now p) = some t →
      t.own.dctcpAlpha = (1 - f.own.dctcpG) * f.own.dctcpAlpha +
        f.own.dctcpG * markedShare (p.ecn :: f.own.marks) f.cwndMss
  | _ => True

/-- With the mark of a new ACK, none of the last `cwnd_mss` is marked, or `cwnd_mss` are. -/
def NoneOrAll (f : Flow Dctcp) : DctcpAct → Prop
  | .packet _ p => NewAck f p →
      ((p.ecn :: f.own.marks).take f.cwndMss).count true = 0 ∨
        ((p.ecn :: f.own.marks).take f.cwndMss).count true = f.cwndMss
  | _ => True

instance (f : Flow Dctcp) : ∀ a, Decidable (NoneOrAll f a)
  | .packet _ _ => inferInstanceAs (Decidable (_ → _))
  | .start _ => isTrue trivial
  | .retxTimeout _ _ => isTrue trivial

/-! ### The history -/

lemma take_cons_take {α : Type} (a : α) (l : List α) (n : ℕ) :
    (a :: l.take n).take n = (a :: l).take n := by
  cases n with
  | zero => rfl
  | succ n => rw [List.take_succ_cons, List.take_succ_cons, List.take_take, min_eq_left (by omega)]

lemma count_take_append (l : List Bool) (n m : ℕ) :
    ((l ++ List.replicate m false).take n).count true = (l.take n).count true := by
  rw [List.take_append, List.count_append, List.take_replicate, List.count_replicate]
  simp

lemma count_div (l : List Bool) {n : ℕ} (hn : 0 < n) :
    (l.take n).count true / n = if (l.take n).count true = n then 1 else 0 := by
  have hle := (List.count_le_length (a := true) (l := l.take n)).trans (List.length_take_le n l)
  split_ifs with hall
  · rw [hall, Nat.div_self hn]
  · exact Nat.div_eq_of_lt (by omega)

/-- **The share is the quotient** exactly if none or all of the places are marked. -/
lemma markedShare_eq_iff (l : List Bool) {n : ℕ} (hn : 0 < n) :
    ((l.take n).count true / n : ℕ) = markedShare l n ↔
      (l.take n).count true = 0 ∨ (l.take n).count true = n := by
  have hle := List.count_le_length (a := true) (l := l.take n)
  have hlen := List.length_take_le n l
  rw [count_div l hn, markedShare]
  split_ifs with hall
  · have heq : (l.take n).length = n := by omega
    have hpos : (n : ℚ) ≠ 0 := by positivity
    simp [hall, heq, hpos]
  · constructor
    · intro h
      rcases div_eq_zero_iff.mp h.symm with h | h
      · exact .inl (by exact_mod_cast h)
      · have hzero : (l.take n).length = 0 := by exact_mod_cast h
        exact .inl (by omega)
    · rintro (h | h)
      · simp [h]
      · exact absurd h hall

/-! ### The invariant -/

structure Estimates (σ : FlowSpec) (g : ℚ) (f : Flow Dctcp) : Prop where
  dctcpG : f.own.dctcpG = g
  alpha_nonneg : 0 ≤ f.own.dctcpAlpha
  alpha_le : f.own.dctcpAlpha ≤ 1
  one_le : 1 ≤ f.cwndMss
  le_max : f.cwndMss ≤ σ.maxCwnd
  ecnHistory : f.own.ecnHistory =
    (f.own.marks ++ List.replicate σ.maxCwnd false).take σ.maxCwnd

lemma estimates_new (hinit : 1 ≤ σ.initialCwnd) (hmax : σ.initialCwnd ≤ σ.maxCwnd) (g : ℚ) :
    Estimates σ g (new σ g) where
  dctcpG := rfl
  alpha_nonneg := le_rfl
  alpha_le := zero_le_one
  one_le := hinit
  le_max := hmax
  ecnHistory := by simp [new, Flow.new]

namespace Estimates

lemma same (h : Estimates σ g f) {f' : Flow Dctcp} (hown : f'.own = f.own)
    (hcwnd : f'.cwndMss = f.cwndMss) : Estimates σ g f' := by
  refine ⟨?_, ?_, ?_, ?_, ?_, ?_⟩
  · rw [hown, h.dctcpG]
  · rw [hown]; exact h.alpha_nonneg
  · rw [hown]; exact h.alpha_le
  · rw [hcwnd]; exact h.one_le
  · rw [hcwnd]; exact h.le_max
  · rw [hown]; exact h.ecnHistory

lemma noteEcn (h : Estimates σ g f) (ecn : Bool) : Estimates σ g (noteEcn σ f ecn) := by
  refine { h with ecnHistory := ?_ }
  show (ecn :: f.own.ecnHistory).take σ.maxCwnd = _
  rw [h.ecnHistory, take_cons_take]
  rfl

lemma ecnSetCount (h : Estimates σ g f) :
    ecnSetCount f = (f.own.marks.take f.cwndMss).count true := by
  rw [DctcpFlow.ecnSetCount, h.ecnHistory, List.take_take, min_eq_left h.le_max,
    count_take_append]

lemma length_ecnHistory (h : Estimates σ g f) : f.own.ecnHistory.length = σ.maxCwnd := by
  rw [h.ecnHistory, List.length_take, List.length_append, List.length_replicate]
  omega

lemma fracEcn (h : Estimates σ g f) : fracEcn f = 0 ∨ fracEcn f = 1 := by
  rw [DctcpFlow.fracEcn, h.ecnSetCount, count_div _ h.one_le]
  split_ifs
  · exact .inr Nat.cast_one
  · exact .inl Nat.cast_zero

variable (hg₀ : 0 < g) (hg₁ : g < 1)
include hg₀ hg₁

lemma nextAlpha (h : Estimates σ g f) : 0 ≤ nextAlpha f ∧ nextAlpha f ≤ 1 := by
  have h₀ := h.alpha_nonneg
  have h₁ := h.alpha_le
  rw [DctcpFlow.nextAlpha, h.dctcpG]
  rcases h.fracEcn with hfrac | hfrac <;> rw [hfrac] <;> constructor <;> nlinarith

/-- **The assertions hold**. -/
lemma asserts (h : Estimates σ g f) : Asserts f := by
  refine ⟨?_, ?_, ?_, ?_, h.nextAlpha hg₀ hg₁⟩
  · have := h.one_le
    omega
  · exact List.count_le_length.trans (List.length_take_le _ _)
  · rw [h.length_ecnHistory]
    exact h.le_max
  · rcases h.fracEcn with hfrac | hfrac <;> rw [hfrac] <;> norm_num

lemma updateAlpha (h : Estimates σ g f) : ∃ t, updateAlpha f = some t ∧ Estimates σ g t ∧
    t.own.dctcpAlpha = DctcpFlow.nextAlpha f := by
  have hnext := h.nextAlpha hg₀ hg₁
  exact ⟨_, if_pos (h.asserts hg₀ hg₁),
    { h with alpha_nonneg := hnext.1, alpha_le := hnext.2 }, rfl⟩

omit hg₀ hg₁ in
lemma increaseCwnd (h : Estimates σ g f) (hmax : σ.maxCwnd < 4294967296) :
    Estimates σ g (increaseCwnd f) := by
  have h₀ := h.alpha_nonneg
  have h₁ := h.alpha_le
  have hone : (1 : ℚ) ≤ f.cwndMss := by exact_mod_cast h.one_le
  have hlow : 1 ≤ ⌊(f.cwndMss : ℚ) * (1 - f.own.dctcpAlpha / 2) + 1 / 2⌋ := by
    rw [Int.le_floor]
    push_cast
    nlinarith
  have hhigh : ⌊(f.cwndMss : ℚ) * (1 - f.own.dctcpAlpha / 2) + 1 / 2⌋ < f.cwndMss + 1 := by
    rw [Int.floor_lt]
    push_cast
    nlinarith
  have hle := h.le_max
  refine { h with one_le := ?_, le_max := ?_ }
  · show 1 ≤ ⌊(f.cwndMss : ℚ) * (1 - f.own.dctcpAlpha / 2) + 1 / 2⌋.toNat % 4294967296
    rw [Nat.mod_eq_of_lt (by omega)]
    omega
  · show ⌊(f.cwndMss : ℚ) * (1 - f.own.dctcpAlpha / 2) + 1 / 2⌋.toNat % 4294967296 ≤ σ.maxCwnd
    rw [Nat.mod_eq_of_lt (by omega)]
    omega

end Estimates

/-! ### The calls -/

lemma sendPendingData_same (now : Time) :
    (sendPendingData σ f now).1.own = f.own ∧ (sendPendingData σ f now).1.cwndMss = f.cwndMss := by
  unfold sendPendingData
  split_ifs
  · obtain ⟨n, r, es, c, hflow⟩ := sendLoop_frame (σ := σ) now
      (add32 (mul32 f.cwndMss σ.mss) f.scoreboardSackBytes) 1 (σ.size + 1) f.nextSeqNo f
    rw [hflow]
    exact ⟨rfl, rfl⟩
  · exact ⟨rfl, rfl⟩

lemma receiveDataPkt_same (p : DctcpPacket) : (receiveDataPkt σ f p).1.own = f.own ∧
    (receiveDataPkt σ f p).1.cwndMss = f.cwndMss := by
  obtain ⟨r, b, hacc, -⟩ := accept_frame f p.toPacket (σ := σ)
  unfold receiveDataPkt
  rw [hacc]
  exact ⟨rfl, rfl⟩

/-- The value that the code sets `dctcp_alpha` to after a new ACK with the mark `ecn`. -/
def codeAlpha (f : Flow Dctcp) (ecn : Bool) : ℚ :=
  (1 - f.own.dctcpG) * f.own.dctcpAlpha + f.own.dctcpG *
    (((ecn :: f.own.marks).take f.cwndMss).count true / f.cwndMss : ℕ)

namespace Estimates

variable (hg₀ : 0 < g) (hg₁ : g < 1) (hmax : σ.maxCwnd < 4294967296)
include hg₀ hg₁ hmax

lemma newAck (h : Estimates σ g f) (now : Time) (ack : ℕ) (ecn : Bool) :
    ∃ r, newAck σ f now ack ecn = some r ∧ Estimates σ g r.1 ∧
      r.1.own.dctcpAlpha = codeAlpha f ecn := by
  have hack : Estimates σ g { f with lastUnackedSeq := ack } := h.same rfl rfl
  have hnote : Estimates σ g (DctcpFlow.noteEcn σ { f with lastUnackedSeq := ack } ecn) :=
    hack.noteEcn ecn
  obtain ⟨u, hu, hest, halpha⟩ := hnote.updateAlpha hg₀ hg₁
  obtain ⟨hown, hcwnd⟩ := sendPendingData_same (σ := σ) (f := DctcpFlow.increaseCwnd u) now
  obtain ⟨e, es, c, hmove⟩ := moveTimeout_frame (σ := σ)
    (sendPendingData σ (DctcpFlow.increaseCwnd u) now).1 now
  refine ⟨_, by rw [DctcpFlow.newAck, hu]; rfl, ?_, ?_⟩
  · refine (hest.increaseCwnd hmax).same ?_ ?_ <;> dsimp only <;> rw [hmove]
    · exact hown
    · exact hcwnd
  · dsimp only
    rw [hmove, hown]
    refine halpha.trans ?_
    rw [DctcpFlow.nextAlpha, DctcpFlow.fracEcn, hnote.ecnSetCount]
    rfl

lemma receiveAck (h : Estimates σ g f) (now : Time) (ack : ℕ) (sackList : List ℕ) (ecn : Bool) :
    ∃ r, receiveAck σ f now ack sackList ecn = some r ∧ Estimates σ g r.1 ∧
      (f.lastUnackedSeq < ack → r.1.own.dctcpAlpha = codeAlpha f ecn) := by
  have hnote : Estimates σ g (f.noteAck σ ack sackList) := h.same rfl rfl
  obtain ⟨r, hr, hest, halpha⟩ : ∃ r, (if (f.noteAck σ ack sackList).lastUnackedSeq < ack then
        DctcpFlow.newAck σ (f.noteAck σ ack sackList) now ack ecn
        else some (f.noteAck σ ack sackList, [])) = some r ∧ Estimates σ g r.1 ∧
      (f.lastUnackedSeq < ack → r.1.own.dctcpAlpha = codeAlpha f ecn) := by
    split_ifs with hnew
    · obtain ⟨r, hr, hest, halpha⟩ := hnote.newAck hg₀ hg₁ hmax now ack ecn
      exact ⟨r, hr, hest, fun _ => halpha⟩
    · exact ⟨_, rfl, hnote, fun h => absurd h hnew⟩
  refine ⟨_, by rw [DctcpFlow.receiveAck, hr]; rfl, ?_⟩
  dsimp only
  split_ifs
  · exact ⟨hest.same rfl rfl, halpha⟩
  · exact ⟨hest, halpha⟩

/-- **What comes of a packet**; one that is neither data nor an ACK fails an assertion. -/
lemma receive (h : Estimates σ g f) (now : Time) (p : DctcpPacket) :
    ((p.type ≠ .ack ∧ p.type ≠ .normal) ∧ receive σ f now p = none) ∨
    ∃ r, receive σ f now p = some r ∧ Estimates σ g r.1 ∧
      (NewAck f p → r.1.own.dctcpAlpha = codeAlpha f p.ecn) := by
  unfold DctcpFlow.receive
  by_cases hfin : f.finished = true
  · rw [if_pos hfin]
    exact .inr ⟨_, rfl, h, fun hack => absurd (hack.1.symm.trans hfin) Bool.false_ne_true⟩
  · rw [if_neg hfin]
    split
    case h_1 =>
      obtain ⟨r, hr, hest, halpha⟩ := h.receiveAck hg₀ hg₁ hmax now p.seqNo p.sackList p.ecn
      exact .inr ⟨_, by rw [hr]; rfl, hest, fun hack => halpha hack.2.2⟩
    case h_2 hdata =>
      obtain ⟨hown, hcwnd⟩ := receiveDataPkt_same (σ := σ) (f := f) p
      exact .inr ⟨_, rfl, h.same hown hcwnd, fun hack => absurd (hack.2.1.symm.trans hdata) nofun⟩
    case h_3 hack hdata => exact .inl ⟨⟨hack, hdata⟩, rfl⟩

omit hg₀ hg₁ hmax in
lemma handleTimeout (h : Estimates σ g f) (now : Time) :
    Estimates σ g (handleTimeout σ f now).1 := by
  have hone : Estimates σ g { f with nextSeqNo := f.lastUnackedSeq, cwndMss := 1 } :=
    { h with one_le := le_rfl, le_max := h.one_le.trans h.le_max }
  obtain ⟨hown, hcwnd⟩ := sendPendingData_same (σ := σ)
    (f := { f with nextSeqNo := f.lastUnackedSeq, cwndMss := 1 }) now
  obtain ⟨e, es, c, hset⟩ := setTimeout_frame (σ := σ)
    (sendPendingData σ { f with nextSeqNo := f.lastUnackedSeq, cwndMss := 1 } now).1
    (now + σ.retxTimeout)
  unfold DctcpFlow.handleTimeout handleTimeoutWith
  refine hone.same ?_ ?_ <;> dsimp only <;> rw [hset]
  · exact hown
  · exact hcwnd

lemma next (h : Estimates σ g f) {a : DctcpAct} {t : Flow Dctcp} (hn : next σ f a = some t) :
    Estimates σ g t := by
  cases a with
  | start now =>
    obtain ⟨-, hn⟩ := Option.ite_none_left_eq_some.mp hn
    obtain rfl := Option.some.inj hn
    obtain ⟨hown, hcwnd⟩ := sendPendingData_same (σ := σ) (f := { f with started := true }) now
    exact h.same hown hcwnd
  | retxTimeout now id =>
    obtain ⟨r, hr, rfl⟩ := Option.map_eq_some_iff.mp hn
    obtain ⟨e, -, rfl⟩ := Option.map_eq_some_iff.mp hr
    dsimp only
    split_ifs
    · exact h.same rfl rfl
    · exact (h.handleTimeout now).same rfl rfl
  | packet now p =>
    obtain ⟨r, hr, rfl⟩ := Option.map_eq_some_iff.mp hn
    rcases h.receive hg₀ hg₁ hmax now p with ⟨-, hnone⟩ | ⟨r', hr', hest, -⟩
    · exact absurd (hr.symm.trans hnone) (Option.some_ne_none _)
    · obtain rfl := Option.some.inj (hr.symm.trans hr')
      exact hest

/-- **When the update is exact**. -/
lemma updatesExactly_iff (h : Estimates σ g f) {a : DctcpAct} {t : Flow Dctcp}
    (hn : DctcpFlow.next σ f a = some t) : UpdatesExactly σ f a ↔ NoneOrAll f a := by
  cases a with
  | start now => exact Iff.rfl
  | retxTimeout now id => exact Iff.rfl
  | packet now p =>
    refine forall_congr' fun hack => ?_
    have hpos : f.own.dctcpG ≠ 0 := h.dctcpG ▸ hg₀.ne'
    have hcode : t.own.dctcpAlpha = codeAlpha f p.ecn := by
      obtain ⟨r, hr, rfl⟩ := Option.map_eq_some_iff.mp hn
      rcases h.receive hg₀ hg₁ hmax now p with ⟨-, hnone⟩ | ⟨r', hr', -, halpha⟩
      · exact absurd (hr.symm.trans hnone) (Option.some_ne_none _)
      · obtain rfl := Option.some.inj (hr.symm.trans hr')
        exact halpha hack
    rw [← markedShare_eq_iff (p.ecn :: f.own.marks) h.one_le]
    constructor
    · intro hexact
      have := hcode.symm.trans (hexact t hn)
      exact mul_left_cancel₀ hpos (add_left_cancel this)
    · intro hshare u hu
      obtain rfl := Option.some.inj (hn.symm.trans hu)
      rw [hcode, codeAlpha, hshare]

end Estimates

/-- **The estimate of DCTCP**: in a run of any events, with any marks on the ACKs, each new ACK
moves `dctcp_alpha` by the exact share of marked ACKs among the last `cwnd_mss` exactly when,
each time, none of these or `cwnd_mss` are marked. In any run `dctcp_alpha` and `cwnd_mss` stay in
range and no assertion fails. -/
theorem alpha_exact_iff (hinit : 1 ≤ σ.initialCwnd) (hcwnd : σ.initialCwnd ≤ σ.maxCwnd)
    (hmax : σ.maxCwnd < 4294967296) (hg₀ : 0 < g) (hg₁ : g < 1) (as : List DctcpAct) :
    (Along (machine σ g) (UpdatesExactly σ) (new σ g) as ↔
      Along (machine σ g) NoneOrAll (new σ g) as) ∧
    Always (machine σ g) (fun f =>
      (0 ≤ f.own.dctcpAlpha ∧ f.own.dctcpAlpha ≤ 1) ∧
      (1 ≤ f.cwndMss ∧ f.cwndMss ≤ σ.maxCwnd) ∧
      ∀ now p, p.type = .ack ∨ p.type = .normal → (receive σ f now p).isSome) (new σ g) as := by
  have hnew := estimates_new hinit hcwnd g
  have hstep : ∀ {f t a}, Estimates σ g f → (machine σ g).next f a = some t → Estimates σ g t :=
    fun h hn => h.next hg₀ hg₁ hmax hn
  constructor
  · refine along_congr (fun {f t a} hf hn => ?_) as .init
    have hest : Estimates σ g f := hf.inv hnew fun _ h hn => hstep h hn
    exact hest.updatesExactly_iff hg₀ hg₁ hmax hn
  · refine (always_of_inv hstep as hnew).mono fun f h => ?_
    refine ⟨⟨h.alpha_nonneg, h.alpha_le⟩, ⟨h.one_le, h.le_max⟩, fun now p hp => ?_⟩
    rcases h.receive hg₀ hg₁ hmax now p with ⟨⟨hack, hdata⟩, -⟩ | ⟨r, hr, -⟩
    · exact absurd hp (not_or.mpr ⟨hack, hdata⟩)
    · exact hr ▸ rfl

def windowOfTwo : FlowSpec := { twoSegments with
  initialCwnd := 2
  maxCwnd := 2 }

/-- Of two new ACKs the second is marked. -/
def oneOfTwo : List DctcpAct :=
  [.start 1, .packet 2 ⟨sendAck windowOfTwo 1460 [], false⟩,
    .packet 3 ⟨sendAck windowOfTwo 2920 [], true⟩]

theorem alpha_exact_iff_oneOfTwo :
    ¬ Along (machine windowOfTwo (1 / 16)) (UpdatesExactly windowOfTwo)
        (new windowOfTwo (1 / 16)) oneOfTwo ∧
      Always (machine windowOfTwo (1 / 16)) (fun f =>
        (0 ≤ f.own.dctcpAlpha ∧ f.own.dctcpAlpha ≤ 1) ∧ (1 ≤ f.cwndMss ∧ f.cwndMss ≤ 2) ∧
        ∀ now p, p.type = .ack ∨ p.type = .normal → (receive windowOfTwo f now p).isSome)
        (new windowOfTwo (1 / 16)) oneOfTwo := by
  have h := alpha_exact_iff (σ := windowOfTwo) (g := 1 / 16) (by decide) (by decide) (by decide)
    (by norm_num) (by norm_num) oneOfTwo
  have hhalf : ¬ Along (machine windowOfTwo (1 / 16)) NoneOrAll (new windowOfTwo (1 / 16))
      oneOfTwo := by decide +kernel
  exact ⟨fun hexact => hhalf (h.1.mp hexact), h.2⟩

/-- **A marked ACK that is not seen**: one of the last two new ACKs is marked, and `dctcp_alpha`
is zero still. -/
theorem alpha_not_exact_oneOfTwo :
    ∃ f t, exec (machine windowOfTwo (1 / 16)) (new windowOfTwo (1 / 16))
        [.start 1, .packet 2 ⟨sendAck windowOfTwo 1460 [], false⟩] = some f ∧
      next windowOfTwo f (.packet 3 ⟨sendAck windowOfTwo 2920 [], true⟩) = some t ∧
      markedShare (true :: f.own.marks) f.cwndMss = 1 / 2 ∧
      f.own.dctcpAlpha = 0 ∧ t.own.dctcpAlpha = 0 := by
  obtain ⟨f, hf, hshare, hbefore, hafter⟩ :
      ∃ f, exec (machine windowOfTwo (1 / 16)) (new windowOfTwo (1 / 16))
          [.start 1, .packet 2 ⟨sendAck windowOfTwo 1460 [], false⟩] = some f ∧
        (markedShare (true :: f.own.marks) f.cwndMss = 1 / 2 ∧ f.own.dctcpAlpha = 0 ∧
          (next windowOfTwo f (.packet 3 ⟨sendAck windowOfTwo 2920 [], true⟩)).any
            (fun t => t.own.dctcpAlpha = 0) = true) :=
    exists_exec_of_any (by decide +kernel)
  obtain ⟨t, ht, hzero⟩ := (Option.any_eq_true _ _).mp hafter
  exact ⟨f, t, hf, ht, hshare, hbefore, of_decide_eq_true hzero⟩

end DcSim.DctcpFlow
