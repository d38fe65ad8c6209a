import MbsClient.Net.Address
import MbsClient.Text.Hex

/-!
# Errors — what can go wrong, and the wording of it

An error holds its cause; `message` is the only place that words it. A document that does not
decode has a wording only where a rule of the library, and not the shape of the document, is
broken.
-/

namespace MbsClient

/-- Names a session within one context. -/
abbrev SessionKey := Nat

/-- Names a subscription within one context. -/
abbrev SubscriptionKey := Nat

/-- Why a value is not allowed. -/
inductive ValueFault where
  /-- Not exactly `digits` hexadecimal digits. -/
  | hexDigits (field : String) (digits : Nat) (text : String)
  /-- More than 64 bits. -/
  | hexOverflow (field : String)
  | hexEmpty (field : String)
  | tooWide (field : String) (value bits : Nat)
  | bitRate (text : String)
  | reservationPriority (level : Nat)
  | arpPriority (level : Nat)
  | averagingWindow (most : Nat)
  /-- Frequency selection areas given to a session that is not broadcast. -/
  | fsaIdsNotBroadcast
deriving DecidableEq, Repr

namespace ValueFault

def field : ValueFault → String
  | .hexDigits f _ _ => f
  | .hexOverflow f => f
  | .hexEmpty f => f
  | .tooWide f _ _ => f
  | .bitRate _ => "bitRate"
  | .reservationPriority _ => "mbsSdfResPrio"
  | .arpPriority _ => "priorityLevel"
  | .averagingWindow _ => "averWindow"
  | .fsaIdsNotBroadcast => "mbsFsaIdList"

def reason : ValueFault → String
  | .hexDigits _ digits text => s!"expected {digits} hex digits, got '{text}'"
  | .hexOverflow _ => "number too large to fit in target type"
  | .hexEmpty _ => "cannot parse integer from empty string"
  | .tooWide _ value bits =>
      "0x" ++ String.ofList (Text.Hex.fixed 1 value) ++ s!" does not fit in {bits} bits"
  | .bitRate text => s!"malformed bit rate '{text}'"
  | .reservationPriority level => s!"priority {level} outside 1..=16"
  | .arpPriority level => s!"{level} outside 1..=15"
  | .averagingWindow most => s!"must be within 1..={most}"
  | .fsaIdsNotBroadcast => "only allowed for broadcast sessions"

def message (f : ValueFault) : String := "Invalid value for " ++ f.field ++ ": " ++ f.reason

end ValueFault

/-- Why two addresses are no source-specific multicast pair. -/
inductive SsmFault where
  | familyMismatch (source dest : Net.Address)
  | notMulticast (dest : Net.Address)
deriving DecidableEq, Repr

namespace SsmFault

def reason : SsmFault → String
  | .familyMismatch source dest =>
      "address family mismatch between source " ++ source.text ++ " and destination " ++ dest.text
  | .notMulticast dest => "destination " ++ dest.text ++ " is not a multicast address"

def message (f : SsmFault) : String := "Invalid SSM: " ++ f.reason

end SsmFault

/-- Why a document does not decode into a type of the model. -/
inductive DecodeError where
  /-- Wrong kind of value, unknown word, number out of range, missing or repeated member, or a date
  or address that does not parse. -/
  | shape
  | value (fault : ValueFault)
  | ssm (fault : SsmFault)
  /-- Not exactly one address of the two families under `member`. -/
  | addressCount (member : String)
  | reservationPriority (text : String)
  | zeroReservationPriority
  | codecCount (count : Nat)
deriving DecidableEq, Repr

/-- The wording, where a rule of the library is broken. -/
def DecodeError.message? : DecodeError → Option String
  | .shape => none
  | .value fault => some fault.message
  | .ssm fault => some fault.message
  | .addressCount member => some (member ++ " needs exactly one address")
  | .reservationPriority text => some s!"invalid reservation priority '{text}'"
  | .zeroReservationPriority => some "PRIO_0 is not a valid priority"
  | .codecCount count => some s!"at most 2 codecs allowed, got {count}"

/-- Why an answer cannot be understood. -/
inductive AnswerFault where
  | noSessionLocation
  | noResourceId (location : String)
  | noSubscriptionLocation
  | noSubscriptionId (location : String)
deriving DecidableEq, Repr

def AnswerFault.reason : AnswerFault → String
  | .noSessionLocation => "create response without Location"
  | .noResourceId location => s!"no resource id in Location '{location}'"
  | .noSubscriptionLocation => "subscription response without Location"
  | .noSubscriptionId location => s!"no subscription id in Location '{location}'"

/-- Why a configuration is not allowed. -/
inductive ConfigFault where
  | noSessions
  | apiRoot (root : String)
deriving DecidableEq, Repr

def ConfigFault.reason : ConfigFault → String
  | .noSessions => "max_sessions must be positive"
  | .apiRoot root => s!"notification server api_root '{root}' is not an http(s) URI"

/-- What an operation of the library can fail with. -/
inductive Error where
  | sessionNotFound (key : SessionKey)
  | subscriptionNotFound (key : SubscriptionKey)
  | tooManySessions (limit : Nat)
  | ssm (fault : SsmFault)
  | value (fault : ValueFault)
  | answer (fault : AnswerFault)
  | config (fault : ConfigFault)
  /-- A text that is no YAML, or one that does not decode. -/
  | yaml
  | document (fault : DecodeError)
deriving DecidableEq, Repr

namespace Error

/-- Whether a caller handed in a key that is not, or no longer, known. -/
def isNotFound : Error → Bool
  | .sessionNotFound _ => true
  | .subscriptionNotFound _ => true
  | _ => false

def message? : Error → Option String
  | .sessionNotFound key => some s!"MBS session not found: {key}"
  | .subscriptionNotFound key => some s!"MBS session subscription not found: {key}"
  | .tooManySessions limit => some s!"Maximum number of MBS sessions [{limit}] reached"
  | .ssm fault => some fault.message
  | .value fault => some fault.message
  | .answer fault => some ("Protocol error: " ++ fault.reason)
  | .config fault => some ("Configuration error: " ++ fault.reason)
  | .yaml => none
  | .document fault => fault.message?.map ("Serialization error: " ++ ·)

end Error

end MbsClient
