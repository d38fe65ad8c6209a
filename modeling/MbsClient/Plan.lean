import MbsClient.Context.Transport
import MbsClient.Request
import MbsClient.Simulator

/-!
# Plans — the requests that bring the sessions of a context up, round by round

A round pushes every session and takes the intents. With simulated success, the intents of a round
are answered before the next; without, there is only one round.
-/

namespace MbsClient

namespace Context

/-- Has the simulator answer an intent. -/
def simulate (c : Context) (sim : Simulator) (i : Intent) : Outcome × Simulator × Bool :=
  match sim.answer i with
  | (some event, sim) => (c.handle event, sim, true)
  | (none, sim) => ((c, []), sim, false)

/-- Has the simulator answer intents one after the other. -/
def simulateAll (c : Context) (sim : Simulator) (intents : List Intent) : Context × Simulator :=
  intents.foldl (fun (c, sim) i => let (outcome, sim, _) := c.simulate sim i; (outcome.1, sim))
    (c, sim)

end Context

structure Plan where
  /-- The intents of each round. -/
  rounds : List (List Intent)
  /-- The context afterwards. -/
  context : Context

namespace Plan

/-- The most rounds that a plan has. -/
def maxRounds : Nat := 16

/-- Plans at most `left` rounds. A round without intents ends the plan. -/
def build (acknowledge : Bool) : (left : Nat) → Simulator → Context → Plan
  | 0, _, c => ⟨[], c⟩
  | left + 1, sim, c =>
      let (intents, c) := c.pushAll.takeIntents
      if intents.isEmpty then ⟨[], c⟩
      else if acknowledge then
        let (c, sim) := c.simulateAll sim intents
        let rest := build acknowledge left sim c
        { rest with rounds := intents :: rest.rounds }
      else ⟨[intents], c⟩

/-- The plan for a context; `acknowledge` asks for simulated success. -/
def ofContext (acknowledge : Bool) (c : Context) : Plan := build acknowledge maxRounds {} c

/-- The requests with the numbers of their rounds. -/
def requests (p : Plan) : List (Nat × Request) :=
  (p.rounds.zipIdx 1).flatMap fun (intents, round) =>
    intents.map fun i => (round, Request.ofIntent i)

end Plan

end MbsClient
