import MbsClient.Answer
import MbsClient.Intent
import MbsClient.Text.Decimal
import MbsClient.Text.Hex

/-!
# Simulators — an MB-SMF that grants every request

What it creates it numbers from 1 on, sessions and subscriptions alike.
-/

namespace MbsClient

open Text

structure Simulator where
  /-- The last number given out. -/
  last : Nat := 0
deriving DecidableEq, Repr

namespace Simulator

/-- The TMGI that is allocated with a number. -/
def tmgi (n : Nat) : Tmgi :=
  { mbsServiceId := String.ofList (Hex.fixed 6 n), plmnId := { mcc := "001", mnc := "01" } }

def sessionId (n : Nat) : String := "mbs-" ++ Decimal.text n

def subscriptionId (n : Nat) : String := "sub-" ++ Decimal.text n

/-- The answer to an intent; what removes or deletes has none. -/
def answer (sim : Simulator) : Intent → Option TransportEvent × Simulator
  | .createResource session snapshot bundled =>
      let n := sim.last + 1
      let created : SessionCreated :=
        { resourceId := sessionId n
          tmgi := if snapshot.tmgiAllocReq && snapshot.tmgi.isNone then some (tmgi n) else none
          subscriptionId := bundled.map fun _ => subscriptionId (n + 1) }
      (some (.createResult session (.ok created)), ⟨if bundled.isSome then n + 1 else n⟩)
  | .patchResource session .. => (some (.patchResult session (.ok ())), sim)
  | .createSubscription _ sub .. =>
      let n := sim.last + 1
      (some (.subscriptionCreated sub (.ok { id := subscriptionId n })), ⟨n⟩)
  | .updateSubscription sub id _ => (some (.subscriptionUpdated sub (.ok { id })), sim)
  | .removeResource .. => (none, sim)
  | .deleteSubscription _ => (none, sim)

end Simulator

end MbsClient
