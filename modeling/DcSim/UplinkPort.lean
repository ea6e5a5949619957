import DcSim.Packet
import DcSim.Word32

/-!
The choice of an uplink port.

The topologies choose among the uplinks of a switch by the parameter `load_balancing`: by a
counter of the queue for each packet, by the flow, or by a port saved in the packet. A SIM
saves the port it got, and the packets that follow it use the port they carry.
-/

namespace DcSim

open Word32

/-- `hash_port`, of so many ports; `saved` is the port mode 3 takes. -/
def hashPort (loadBalancing ports sprayCounter saved : ℕ) (p : Packet) : ℕ :=
  match loadBalancing with
  | 0 => sprayCounter % ports
  | 1 => add32 (add32 p.src p.dst) p.flow % ports
  | 3 => saved
  | _ => 0

/-- `spray_counter`, a 64-bit number, after the choice. -/
def nextSpray (loadBalancing sprayCounter : ℕ) : ℕ :=
  match loadBalancing with
  | 0 => (sprayCounter + 1) % 18446744073709551616
  | _ => sprayCounter

/-- The saved port after the choice, and the port. A SIM saves the port, and a packet that
follows a SIM goes by the port it carries, unless that is `-1`. -/
def savePort (sim follows : Bool) (saved : ℤ) (port : ℕ) : ℤ × ℕ :=
  if sim then (toInt32 port, port)
  else if saved ≠ -1 ∧ follows then (saved, ofInt32 saved)
  else (saved, port)

lemma hashPort_lt {lb ports spray saved : ℕ} (p : Packet) (hports : 0 < ports)
    (hsaved : lb = 3 → saved < ports) : hashPort lb ports spray saved p < ports := by
  unfold hashPort
  split
  · exact Nat.mod_lt _ hports
  · exact Nat.mod_lt _ hports
  · exact hsaved rfl
  · exact hports

end DcSim
