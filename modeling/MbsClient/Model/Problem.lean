import MbsClient.Codec.Encode
import MbsClient.Codec.Source

/-!
# Problem details — how the MB-SMF words a refusal (RFC 7807)
-/

namespace MbsClient

open Text

structure InvalidParam where
  param : String
  reason : Option String := none
deriving DecidableEq, Repr

namespace InvalidParam

instance : Encode InvalidParam where
  encode p := .record [("param", some (encode p.param)), ("reason", p.reason.map encode)]

instance : Decode InvalidParam where
  decode d := do
    let fields ← Fields.read ["param", "reason"] d
    let param ← fields.member? "param"
    let reason ← fields.optional "reason"
    return { param := ← needed param, reason }

end InvalidParam

structure ProblemDetails where
  type : Option String := none
  title : Option String := none
  /-- The HTTP status. -/
  status : Option UInt16 := none
  detail : Option String := none
  instanceUri : Option String := none
  cause : Option String := none
  invalidParams : List InvalidParam := []
deriving DecidableEq, Repr, Inhabited

namespace ProblemDetails

/-- Status, title, cause and detail, as far as they are given. -/
def text (p : ProblemDetails) : String :=
  let status := match p.status with
    | some n => Decimal.text n.toNat
    | none => "-"
  let given (before behind : String) : Option String → String
    | some s => before ++ s ++ behind
    | none => ""
  "[" ++ status ++ "]" ++ given " " "" p.title ++ given " (" ")" p.cause ++ given ": " "" p.detail

instance : Encode ProblemDetails where
  encode p := .record [("type", p.type.map encode), ("title", p.title.map encode),
    ("status", p.status.map encode), ("detail", p.detail.map encode),
    ("instance", p.instanceUri.map encode), ("cause", p.cause.map encode),
    ("invalidParams", if p.invalidParams.isEmpty then none else some (encode p.invalidParams))]

instance : Decode ProblemDetails where
  decode d := do
    let fields ← Fields.read
      ["type", "title", "status", "detail", "instance", "cause", "invalidParams"] d
    let cause ← fields.optional "cause"
    let detail ← fields.optional "detail"
    let instanceUri ← fields.optional "instance"
    let invalidParams ← fields.member? "invalidParams"
    let status ← fields.optional "status"
    let title ← fields.optional "title"
    let type ← fields.optional "type"
    return { type, title, status, detail, instanceUri, cause,
             invalidParams := invalidParams.getD [] }

end ProblemDetails

end MbsClient
