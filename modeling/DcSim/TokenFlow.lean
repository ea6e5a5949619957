import DcSim.LossyNet
import DcSim.Packet
import Mathlib.Data.Finset.Card

/-!
The flows that send a packet for each token they are given: PIM, RUF and the capability flows.

One object is both ends of a flow. The sender announces the flow by an RTS and holds tokens, each
for one data packet; a small flow begins with a token for each of its packets. The receiver has
the set of data packets it got, and its host a collection of flows that are to be given tokens. A
flow is registered there by its RTS, and in a capability flow by a data packet as well.

When the host of a receiver gives a flow a token is left open, and so is the order in which the
host of a sender takes the tokens of its flows. So the counters, windows and timers that only
decide this are left out, as are counters and logs that nothing reads back. A step that fails an
assertion has no next state.
-/

namespace DcSim

open LossyNet Runs

/-- The class of a flow: `PimFlow`, `CapabilityFlow` or `RufFlow`. -/
inductive TokenKind | pim | capability | ruf
  deriving DecidableEq

structure TokenSpec where
  -- A capability is a token of another name: `tokenInitial` and `tokenTimeout` are
  -- `capability_initial` and `capability_timeout` there.
  sizeInPkt : ℕ
  tokenInitial : ℕ
  tokenTimeout : Time
  fullPktTranDelay : Time
  pimEpoch : Time
  pimIterEpoch : Time
  pimIterLimit : ℕ
  pimK : ℕ
  controlPktRtt : Time

structure Token where
  timeout : Time
  dataSeqNum : ℕ
  deriving DecidableEq

inductive TokenPacket
  | rts
  | token (ttl : Time) (dataSeqNum : ℕ)
  | data (capaDataSeq : ℕ)
  | ack
  deriving DecidableEq

structure TokenFlow where
  -- `registered` says whether the collection of the receiver has it, and `finishEvents` counts its
  -- `FlowFinishedEvent`s in the event queue. The fields after `finishedAtReceiver` are history:
  -- whether the flow was started, and the data the receiver was handed.
  tokens : List Token := []
  finished : Bool := false
  finishEvents : ℕ := 0
  rtsReceived : Bool := false
  registered : Bool := false
  packetsReceived : Finset ℕ := ∅
  receivedCount : ℕ := 0
  receivedUntil : ℕ := 0
  lastTokenDataSeqNumSent : ℤ := -1
  finishedAtReceiver : Bool := false
  started : Bool := false
  delivered : Finset ℕ := ∅

namespace TokenFlow

variable (σ : TokenSpec) (kind : TokenKind) (now : Time) (f : TokenFlow)

/-- A `FlowFinishedEvent` of the flow has been created. -/
def Done : Prop := f.finished = true ∨ 0 < f.finishEvents

instance : Decidable f.Done := by unfold Done; infer_instance

/-- `init_token_size` and `init_capa_size` -/
def initTokenSize : ℕ := if σ.sizeInPkt ≤ σ.tokenInitial then σ.sizeInPkt else 0

/-! ### The sender -/

/-- The timeout of the tokens a flow begins with: those of PIM and RUF are never too late. -/
def initTimeout : Time :=
  match kind with
  | .capability =>
    now + initTokenSize σ * σ.fullPktTranDelay + σ.tokenTimeout * σ.fullPktTranDelay
  | .pim | .ruf => now + 100000000

/-- `assign_init_token` and `assign_init_capability` -/
def assignInitToken : TokenFlow :=
  { f with
    tokens := f.tokens ++ (List.range (initTokenSize σ)).map (⟨initTimeout σ kind now, ·⟩) }

def startFlow : Option (TokenFlow × List TokenPacket) :=
  if f.started then none
  else some ({ f.assignInitToken σ kind now with started := true }, [.rts])

/-- The token that the host of the sender may use. PIM keeps the tokens of all flows of a host in
one queue, where their priorities decide, and asks no flow whether it is finished; a capability
flow uses the token that times out first, and a RUF flow the one that came first. -/
def MayUse (t : Token) : Prop :=
  t ∈ f.tokens ∧ now ≤ t.timeout ∧
    match kind with
    | .pim => True
    | .capability => f.finished = false ∧ ∀ t' ∈ f.tokens, t.timeout ≤ t'.timeout
    | .ruf => f.finished = false ∧ f.tokens.head? = some t

instance (t : Token) : Decidable (f.MayUse kind now t) := by
  unfold MayUse
  cases kind <;> infer_instance

def sendPendingData (t : Token) : Option (TokenFlow × List TokenPacket) :=
  if f.MayUse kind now t then
    some ({ f with tokens := f.tokens.erase t }, [.data t.dataSeqNum])
  else none

/-- A token that is too late is deleted. -/
def dropToken (t : Token) : Option (TokenFlow × List TokenPacket) :=
  if t ∈ f.tokens ∧ t.timeout < now then some ({ f with tokens := f.tokens.erase t }, [])
  else none

def receiveToken (ttl : Time) (dataSeqNum : ℕ) : TokenFlow :=
  let timeout :=
    match kind with
    | .pim => ttl
    | .capability | .ruf => now + ttl
  { f with tokens := f.tokens ++ [⟨timeout, dataSeqNum⟩] }

/-- The arrival of an ACK; only RUF deletes the tokens of the flow. -/
def receiveAck : TokenFlow :=
  { f with
    packetsReceived := ∅
    tokens :=
      match kind with
      | .ruf => []
      | .pim | .capability => f.tokens
    finishEvents := f.finishEvents + 1 }

/-! ### The receiver -/

/-- `receive_short_flow` of PIM and RUF -/
def receiveShortFlow : Option TokenFlow :=
  if initTokenSize σ = 0 then none
  else some { f with rtsReceived := true, lastTokenDataSeqNumSent := initTokenSize σ - 1 }

def receiveRts : Option TokenFlow :=
  let f := { f with rtsReceived := true, registered := true }
  match kind with
  | .capability => some { f with lastTokenDataSeqNumSent := initTokenSize σ - 1 }
  | .pim | .ruf => if σ.tokenInitial < σ.sizeInPkt then some f else f.receiveShortFlow σ

def dataBeforeRts : Option TokenFlow :=
  match kind with
  | .capability => f.receiveRts σ .capability
  | .pim | .ruf => f.receiveShortFlow σ

/-- The loop that moves `received_until`, for at most so many turns. -/
def untilLoop (received : Finset ℕ) : ℕ → ℕ → ℕ
  | 0, seq => seq
  | turns + 1, seq =>
    if seq < σ.sizeInPkt ∧ seq ∈ received then untilLoop received turns (seq + 1) else seq

/-- A data packet is handed to the receiver, who counts it if it is new. -/
def accept (seq : ℕ) : TokenFlow :=
  let f := { f with delivered := insert seq f.delivered }
  if seq ∈ f.packetsReceived then f
  else
    let received := insert seq f.packetsReceived
    { f with
      packetsReceived := received
      receivedCount := f.receivedCount + 1
      receivedUntil := untilLoop σ received σ.sizeInPkt f.receivedUntil }

def receiveData (seq : ℕ) : Option (TokenFlow × List TokenPacket) :=
  (if f.rtsReceived then some f else f.dataBeforeRts σ kind).map fun f =>
    let f := f.accept σ seq
    if σ.sizeInPkt ≤ f.receivedCount then ({ f with finishedAtReceiver := true }, [.ack])
    else (f, [])

/-- `receive`, unless an assertion fails. -/
def receive? (p : TokenPacket) : Option (TokenFlow × List TokenPacket) :=
  if f.finished then some (f, [])
  else
    match p with
    | .rts => if f.rtsReceived then some (f, []) else (f.receiveRts σ kind).map (·, [])
    | .token ttl seq => some (f.receiveToken kind now ttl seq, [])
    | .data seq => f.receiveData σ kind seq
    | .ack => some (f.receiveAck kind, [])

/-- The loop of `get_next_token_seq_num`, for at most so many turns. -/
def nextLoop : ℕ → ℕ → Option ℕ
  | 0, _ => none
  | turns + 1, seq =>
    if seq ∉ f.packetsReceived then if seq < σ.sizeInPkt then some seq else none
    else nextLoop turns (if σ.sizeInPkt ≤ seq + 1 then f.receivedUntil else seq + 1)

/-- `get_next_token_seq_num` and `get_next_capa_seq_num` -/
def getNextTokenSeqNum : Option ℕ :=
  f.nextLoop σ σ.sizeInPkt ((f.lastTokenDataSeqNumSent + 1).toNat % σ.sizeInPkt)

/-- The time to live in a token; that of PIM is the end of the epoch. -/
def tokenTtl (epoch : ℤ) : Time :=
  match kind with
  | .pim =>
    1 + (epoch + 1) * (σ.pimEpoch - σ.pimIterEpoch * σ.pimIterLimit) +
      σ.pimIterEpoch * σ.pimIterLimit + σ.controlPktRtt / 2 + σ.fullPktTranDelay * σ.pimK
  | .capability => σ.tokenTimeout * σ.fullPktTranDelay
  | .ruf => σ.tokenTimeout

/-- `send_token_pkt` and `send_capability_pkt`, for a flow the host takes from its collection. -/
def sendTokenPkt (epoch : ℤ) : Option (TokenFlow × List TokenPacket) :=
  if f.registered = true ∧ f.finishedAtReceiver = false then
    (f.getNextTokenSeqNum σ).map fun seq : ℕ =>
      ({ f with lastTokenDataSeqNumSent := seq }, [.token (tokenTtl σ kind epoch) seq])
  else none

/-- A flow that is finished at the receiver is taken from the collection. -/
def unregister : Option (TokenFlow × List TokenPacket) :=
  if f.finishedAtReceiver then some ({ f with registered := false }, []) else none

/-- A `FlowFinishedEvent` is processed. -/
def finish : Option (TokenFlow × List TokenPacket) :=
  if f.finishEvents = 0 then none
  else some ({ f with finished := true, finishEvents := f.finishEvents - 1 }, [])

end TokenFlow

inductive TokenInput
  | start
  | send (t : Token)
  | drop (t : Token)
  | token (epoch : ℤ)
  | unregister
  | finish

namespace TokenFlow

variable (σ : TokenSpec) (kind : TokenKind)

def input (now : Time) (i : TokenInput) (f : TokenFlow) : Option (TokenFlow × List TokenPacket) :=
  match i with
  | .start => f.startFlow σ kind now
  | .send t => f.sendPendingData kind now t
  | .drop t => f.dropToken now t
  | .token epoch => f.sendTokenPkt σ kind epoch
  | .unregister => f.unregister
  | .finish => f.finish

def party : Party TokenFlow TokenPacket Time TokenInput where
  init := {}
  input := input σ kind
  receive now p f := (f.receive? σ kind now p).getD (f, [])

/-- No assertion fails when a packet is received. -/
def Asserts (s : State TokenFlow TokenPacket Time) : Act TokenPacket Time TokenInput → Prop
  | .deliver now p => (s.party.receive? σ kind now p).isSome
  | _ => True

instance (s : State TokenFlow TokenPacket Time) (a : Act TokenPacket Time TokenInput) :
    Decidable (Asserts σ kind s a) := by
  unfold Asserts
  split <;> infer_instance

/-- The flow in its network, from a time on. -/
def machine (t₀ : Time) : Machine (State TokenFlow TokenPacket Time)
    (Act TokenPacket Time TokenInput) :=
  (LossyNet.machine (party σ kind) t₀).restrict (Asserts σ kind)

end TokenFlow

end DcSim
