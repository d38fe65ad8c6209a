import MbsClient.Codec.Source
import MbsClient.Patch.Difference

/-!
# Reservation priorities — `PRIO_1` (highest) to `PRIO_16`
-/

namespace MbsClient

open Text

structure ReservationPriority where
  level : Nat
  level_pos : 1 ≤ level
  level_le : level ≤ 16
deriving DecidableEq, Repr

namespace ReservationPriority

/-- Level 0 is no priority. -/
def ofLevel (level : Nat) : Except ValueFault (Option ReservationPriority) :=
  if level = 0 then .ok none
  else if h : 1 ≤ level ∧ level ≤ 16 then .ok (some ⟨level, h.1, h.2⟩)
  else .error (.reservationPriority level)

def text (p : ReservationPriority) : String :=
  String.ofList ("PRIO_".toList ++ Decimal.digits p.level)

/-- The level that a text names: at most 8 bits, with or without a plus sign. -/
def level? (s : String) : Option Nat := do
  let cs ← afterStart? "PRIO_".toList s.toList
  let n ← Decimal.value? (match cs with
    | '+' :: rest => rest
    | cs => cs)
  if n < 256 then some n else none

def parse (s : String) : Decoded ReservationPriority :=
  match level? s with
  | none => .error (.reservationPriority s)
  | some level =>
      match ofLevel level with
      | .ok (some p) => .ok p
      | .ok none => .error .zeroReservationPriority
      | .error fault => .error (.value fault)

instance : Encode ReservationPriority := ⟨fun p => .string p.text⟩

instance : Decode ReservationPriority where
  decode d := do
    let s : String ← decode d
    parse s

instance : Diff ReservationPriority := ⟨Diff.scalar⟩

end ReservationPriority

end MbsClient
