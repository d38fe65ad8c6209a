import MbsClient.Codec.Source
import MbsClient.Patch.Record

/-!
# Identities — PLMN, TMGI, SSM and the identity of an MBS session (TS 29.571)
-/

namespace MbsClient

open Net

/-- A public land mobile network: country code and network code. -/
structure PlmnId where
  mcc : String
  mnc : String
deriving DecidableEq, Repr, Inhabited

namespace PlmnId

def text (p : PlmnId) : String := p.mcc ++ p.mnc

instance : Record PlmnId := ⟨[.always "mcc" mcc, .always "mnc" mnc]⟩

instance : Decode PlmnId where
  decode d := do
    let fields ← Fields.read ["mcc", "mnc"] d
    let mcc ← fields.member? "mcc"
    let mnc ← fields.member? "mnc"
    return ⟨← needed mcc, ← needed mnc⟩

end PlmnId

/-- Temporary mobile group identity. -/
structure Tmgi where
  /-- Six hexadecimal digits; the text is taken as it is. -/
  mbsServiceId : String
  plmnId : PlmnId
deriving DecidableEq, Repr, Inhabited

namespace Tmgi

def text (t : Tmgi) : String := t.mbsServiceId ++ "-" ++ t.plmnId.text

instance : Record Tmgi := ⟨[.always "mbsServiceId" mbsServiceId, .always "plmnId" plmnId]⟩

instance : Decode Tmgi where
  decode d := do
    let fields ← Fields.read ["mbsServiceId", "plmnId"] d
    let mbsServiceId ← fields.member? "mbsServiceId"
    let plmnId ← fields.member? "plmnId"
    return ⟨← needed mbsServiceId, ← needed plmnId⟩

/-- By service, then by network. -/
instance : KeyOrder Tmgi :=
  .comap (fun t => (t.mbsServiceId, t.plmnId.mcc, t.plmnId.mnc)) (by
    rintro ⟨_, _, _⟩ ⟨_, _, _⟩ h
    simpa using h)

end Tmgi

/-! ## Addresses -/

instance : Encode Ipv4 := ⟨fun ip => .string ip.text⟩
instance : Encode Ipv6 := ⟨fun ip => .string ip.text⟩

instance : Decode Ipv4 where
  decode d := do
    let s : String ← decode d
    needed (Ipv4.parse? s)

instance : Decode Ipv6 where
  decode d := do
    let s : String ← decode d
    needed (Ipv6.parse? s)

/-- The document of an address: a record with the one family it is of. -/
def encodeAddress : Address → Json
  | .v4 ip => .record [("ipv4Addr", some (encode ip))]
  | .v6 ip => .record [("ipv6Addr", some (encode ip))]

/-- The address of a record, if it has exactly one. -/
def decodeAddress {σ : Type} [Source σ] (d : σ) : Decoded (Option Address) := do
  let fields ← Fields.read ["ipv4Addr", "ipv6Addr"] d
  let v4 : Option Ipv4 ← fields.optional "ipv4Addr"
  let v6 : Option Ipv6 ← fields.optional "ipv6Addr"
  return match v4, v6 with
    | some ip, none => some (.v4 ip)
    | none, some ip => some (.v6 ip)
    | _, _ => none

/-- A source-specific multicast pair: two addresses of one family, the second one multicast. -/
structure Ssm where
  source : Address
  dest : Address
  same_family : source.isV6 = dest.isV6
  dest_multicast : dest.isMulticast = true
deriving DecidableEq, Repr

namespace Ssm

def ofAddresses (source dest : Address) : Except SsmFault Ssm :=
  if hf : source.isV6 = dest.isV6 then
    if hm : dest.isMulticast = true then .ok ⟨source, dest, hf, hm⟩
    else .error (.notMulticast dest)
  else .error (.familyMismatch source dest)

def isV6 (s : Ssm) : Bool := s.source.isV6

def text (s : Ssm) : String := "(" ++ s.source.text ++ ", " ++ s.dest.text ++ ")"

instance : Encode Ssm where
  encode s := .record [("sourceIpAddr", some (encodeAddress s.source)),
    ("destIpAddr", some (encodeAddress s.dest))]

/-- Both records are read before either is asked for its one address. -/
instance : Decode Ssm where
  decode d := do
    let fields ← Fields.read ["sourceIpAddr", "destIpAddr"] d
    let dest ← address? fields "destIpAddr"
    let source ← address? fields "sourceIpAddr"
    let source ← needed source
    let dest ← needed dest
    match source, dest with
    | none, _ => .error (.addressCount "sourceIpAddr")
    | _, none => .error (.addressCount "destIpAddr")
    | some source, some dest => (ofAddresses source dest).mapError .ssm
where
  address? {σ : Type} [Source σ] (fields : Fields σ) (name : String) :
      Decoded (Option (Option Address)) :=
    match fields.given.find? fun m => m.1 = name with
    | some m => (decodeAddress m.2).map some
    | none => .ok none

/-- The pair is never changed piecewise. -/
instance : Diff Ssm := ⟨Diff.scalar⟩

end Ssm

/-- The identity of a session: a TMGI, an SSM, both or none yet. -/
structure MbsSessionId where
  tmgi : Option Tmgi := none
  ssm : Option Ssm := none
deriving DecidableEq, Repr, Inhabited

namespace MbsSessionId

def isEmpty (i : MbsSessionId) : Bool := i.tmgi.isNone && i.ssm.isNone

def text (i : MbsSessionId) : String :=
  match i.tmgi, i.ssm with
  | some tmgi, some ssm => "tmgi=" ++ tmgi.text ++ " ssm=" ++ ssm.text
  | some tmgi, none => "tmgi=" ++ tmgi.text
  | none, some ssm => "ssm=" ++ ssm.text
  | none, none => "<unset>"

instance : Record MbsSessionId := ⟨[.optional "tmgi" tmgi, .optional "ssm" ssm]⟩

instance : Decode MbsSessionId where
  decode d := do
    let fields ← Fields.read ["tmgi", "ssm"] d
    let ssm ← fields.optional "ssm"
    let tmgi ← fields.optional "tmgi"
    return { tmgi, ssm }

end MbsSessionId

/-- Where user data enters: addresses and a port. -/
structure TunnelAddress where
  ipv4Addr : Option Ipv4
  ipv6Addr : Option Ipv6
  portNumber : UInt16
deriving DecidableEq, Repr

namespace TunnelAddress

instance : Encode TunnelAddress where
  encode t := .record [("ipv4Addr", t.ipv4Addr.map encode), ("ipv6Addr", t.ipv6Addr.map encode),
    ("portNumber", some (encode t.portNumber))]

instance : Decode TunnelAddress where
  decode d := do
    let fields ← Fields.read ["ipv4Addr", "ipv6Addr", "portNumber"] d
    let ipv4Addr ← fields.optional "ipv4Addr"
    let ipv6Addr ← fields.optional "ipv6Addr"
    let portNumber ← fields.member? "portNumber"
    return { ipv4Addr, ipv6Addr, portNumber := ← needed portNumber }

end TunnelAddress

end MbsClient
