import MbsClient.Codec.Source
import MbsClient.Patch.Record

/-!
# Geographic areas — shapes on the earth's surface (TS 29.572)

A document names its shape under `shape`. Areas of one shape are compared member by member; an area
of another shape is another object and replaces the whole.
-/

namespace MbsClient

open Number Patch

/-- A position in WGS84 degrees. -/
structure GeographicalCoordinates where
  lon : Double
  lat : Double
deriving BEq, DecidableEq, Repr

namespace GeographicalCoordinates

instance : Record GeographicalCoordinates := ⟨[.always "lon" lon, .always "lat" lat]⟩

instance : Decode GeographicalCoordinates where
  decode d := do
    let fields ← Fields.read ["lon", "lat"] d
    let lat ← fields.member? "lat"
    let lon ← fields.member? "lon"
    return { lon := ← needed lon, lat := ← needed lat }

end GeographicalCoordinates

structure UncertaintyEllipse where
  semiMajor : Single
  semiMinor : Single
  orientationMajor : UInt8
deriving BEq, DecidableEq, Repr

namespace UncertaintyEllipse

instance : Record UncertaintyEllipse :=
  ⟨[.always "semiMajor" semiMajor, .always "semiMinor" semiMinor,
    .always "orientationMajor" orientationMajor]⟩

instance : Decode UncertaintyEllipse where
  decode d := do
    let fields ← Fields.read ["semiMajor", "semiMinor", "orientationMajor"] d
    let orientationMajor ← fields.member? "orientationMajor"
    let semiMajor ← fields.member? "semiMajor"
    let semiMinor ← fields.member? "semiMinor"
    return { semiMajor := ← needed semiMajor, semiMinor := ← needed semiMinor,
             orientationMajor := ← needed orientationMajor }

end UncertaintyEllipse

/-! ## The members of each shape -/

structure PointArea where
  point : GeographicalCoordinates
deriving BEq, DecidableEq, Repr

namespace PointArea

instance : Record PointArea := ⟨[.always "point" point]⟩

def ofFields {σ : Type} [Source σ] (fields : Fields σ) : Decoded PointArea := do
  let point ← fields.member? "point"
  return { point := ← needed point }

end PointArea

structure CircleArea where
  point : GeographicalCoordinates
  uncertainty : Single
deriving BEq, DecidableEq, Repr

namespace CircleArea

instance : Record CircleArea := ⟨[.always "point" point, .always "uncertainty" uncertainty]⟩

def ofFields {σ : Type} [Source σ] (fields : Fields σ) : Decoded CircleArea := do
  let point ← fields.member? "point"
  let uncertainty ← fields.member? "uncertainty"
  return { point := ← needed point, uncertainty := ← needed uncertainty }

end CircleArea

structure EllipseArea where
  point : GeographicalCoordinates
  uncertaintyEllipse : UncertaintyEllipse
  confidence : UInt8
deriving BEq, DecidableEq, Repr

namespace EllipseArea

instance : Record EllipseArea :=
  ⟨[.always "point" point, .always "uncertaintyEllipse" uncertaintyEllipse,
    .always "confidence" confidence]⟩

def ofFields {σ : Type} [Source σ] (fields : Fields σ) : Decoded EllipseArea := do
  let confidence ← fields.member? "confidence"
  let point ← fields.member? "point"
  let uncertaintyEllipse ← fields.member? "uncertaintyEllipse"
  return { point := ← needed point, uncertaintyEllipse := ← needed uncertaintyEllipse,
           confidence := ← needed confidence }

end EllipseArea

structure PolygonArea where
  pointList : List GeographicalCoordinates
deriving BEq, DecidableEq, Repr

namespace PolygonArea

instance : Record PolygonArea := ⟨[.always "pointList" pointList]⟩

def ofFields {σ : Type} [Source σ] (fields : Fields σ) : Decoded PolygonArea := do
  let pointList ← fields.member? "pointList"
  return { pointList := ← needed pointList }

end PolygonArea

structure AltitudeArea where
  point : GeographicalCoordinates
  altitude : Double
deriving BEq, DecidableEq, Repr

namespace AltitudeArea

instance : Record AltitudeArea := ⟨[.always "point" point, .always "altitude" altitude]⟩

def ofFields {σ : Type} [Source σ] (fields : Fields σ) : Decoded AltitudeArea := do
  let altitude ← fields.member? "altitude"
  let point ← fields.member? "point"
  return { point := ← needed point, altitude := ← needed altitude }

end AltitudeArea

structure AltitudeEllipseArea where
  point : GeographicalCoordinates
  altitude : Double
  uncertaintyEllipse : UncertaintyEllipse
  uncertaintyAltitude : Single
  confidence : UInt8
deriving BEq, DecidableEq, Repr

namespace AltitudeEllipseArea

instance : Record AltitudeEllipseArea :=
  ⟨[.always "point" point, .always "altitude" altitude,
    .always "uncertaintyEllipse" uncertaintyEllipse,
    .always "uncertaintyAltitude" uncertaintyAltitude, .always "confidence" confidence]⟩

def ofFields {σ : Type} [Source σ] (fields : Fields σ) : Decoded AltitudeEllipseArea := do
  let altitude ← fields.member? "altitude"
  let confidence ← fields.member? "confidence"
  let point ← fields.member? "point"
  let uncertaintyAltitude ← fields.member? "uncertaintyAltitude"
  let uncertaintyEllipse ← fields.member? "uncertaintyEllipse"
  return { point := ← needed point, altitude := ← needed altitude,
           uncertaintyEllipse := ← needed uncertaintyEllipse,
           uncertaintyAltitude := ← needed uncertaintyAltitude,
           confidence := ← needed confidence }

end AltitudeEllipseArea

structure ArcArea where
  point : GeographicalCoordinates
  innerRadius : Int32
  uncertaintyRadius : Single
  offsetAngle : Int32
  includedAngle : Int32
  confidence : UInt8
deriving BEq, DecidableEq

namespace ArcArea

instance : Record ArcArea :=
  ⟨[.always "point" point, .always "innerRadius" innerRadius,
    .always "uncertaintyRadius" uncertaintyRadius, .always "offsetAngle" offsetAngle,
    .always "includedAngle" includedAngle, .always "confidence" confidence]⟩

def ofFields {σ : Type} [Source σ] (fields : Fields σ) : Decoded ArcArea := do
  let confidence ← fields.member? "confidence"
  let includedAngle ← fields.member? "includedAngle"
  let innerRadius ← fields.member? "innerRadius"
  let offsetAngle ← fields.member? "offsetAngle"
  let point ← fields.member? "point"
  let uncertaintyRadius ← fields.member? "uncertaintyRadius"
  return { point := ← needed point, innerRadius := ← needed innerRadius,
           uncertaintyRadius := ← needed uncertaintyRadius, offsetAngle := ← needed offsetAngle,
           includedAngle := ← needed includedAngle, confidence := ← needed confidence }

end ArcArea

/-! ## Areas -/

inductive GeographicArea where
  | point (a : PointArea)
  | circle (a : CircleArea)
  | ellipse (a : EllipseArea)
  | polygon (a : PolygonArea)
  | altitude (a : AltitudeArea)
  | altitudeEllipse (a : AltitudeEllipseArea)
  | arc (a : ArcArea)
deriving BEq, DecidableEq

namespace GeographicArea

def shape : GeographicArea → String
  | .point _ => "POINT"
  | .circle _ => "POINT_UNCERTAINTY_CIRCLE"
  | .ellipse _ => "POINT_UNCERTAINTY_ELLIPSE"
  | .polygon _ => "POLYGON"
  | .altitude _ => "POINT_ALTITUDE"
  | .altitudeEllipse _ => "POINT_ALTITUDE_UNCERTAINTY"
  | .arc _ => "ELLIPSOID_ARC"

/-- The members of an area besides its shape. -/
def document : GeographicArea → List (String × Option Json)
  | .point a => Member.document Record.members a
  | .circle a => Member.document Record.members a
  | .ellipse a => Member.document Record.members a
  | .polygon a => Member.document Record.members a
  | .altitude a => Member.document Record.members a
  | .altitudeEllipse a => Member.document Record.members a
  | .arc a => Member.document Record.members a

instance : Encode GeographicArea where
  encode a := .record (("shape", some (.string a.shape)) :: a.document)

instance : Diff GeographicArea where
  edits
    | .point a, .point b => edits a b
    | .circle a, .circle b => edits a b
    | .ellipse a, .ellipse b => edits a b
    | .polygon a, .polygon b => edits a b
    | .altitude a, .altitude b => edits a b
    | .altitudeEllipse a, .altitudeEllipse b => edits a b
    | .arc a, .arc b => edits a b
    | _, b => [.replace [] (encode b)]

/-- The names of the members of a shape, in the order of their places. -/
def memberNames (shape : String) : Option (List String) :=
  [("POINT", ["point"]),
    ("POINT_UNCERTAINTY_CIRCLE", ["point", "uncertainty"]),
    ("POINT_UNCERTAINTY_ELLIPSE", ["point", "uncertaintyEllipse", "confidence"]),
    ("POLYGON", ["pointList"]),
    ("POINT_ALTITUDE", ["point", "altitude"]),
    ("POINT_ALTITUDE_UNCERTAINTY",
      ["point", "altitude", "uncertaintyEllipse", "uncertaintyAltitude", "confidence"]),
    ("ELLIPSOID_ARC",
      ["point", "innerRadius", "uncertaintyRadius", "offsetAngle", "includedAngle", "confidence"])
  ].lookup shape

/-- The shape that a document names, and the rest of the document. It is a member, or the first item
of a list. -/
def splitShape? (d : Settled) : Option (String × Settled) :=
  match d with
  | .record members =>
      match members.partition fun m => m.1 = some (.name "shape") with
      | ([(_, .text shape)], others) => some (shape, .record others)
      | _ => none
  | .list (.text shape :: others) => some (shape, .list others)
  | _ => none

def ofDocument (d : Settled) : Decoded GeographicArea := do
  let (shape, others) ← needed (splitShape? d)
  let fields ← Fields.read (← needed (memberNames shape)) others
  match shape with
  | "POINT" => return .point (← PointArea.ofFields fields)
  | "POINT_UNCERTAINTY_CIRCLE" => return .circle (← CircleArea.ofFields fields)
  | "POINT_UNCERTAINTY_ELLIPSE" => return .ellipse (← EllipseArea.ofFields fields)
  | "POLYGON" => return .polygon (← PolygonArea.ofFields fields)
  | "POINT_ALTITUDE" => return .altitude (← AltitudeArea.ofFields fields)
  | "POINT_ALTITUDE_UNCERTAINTY" => return .altitudeEllipse (← AltitudeEllipseArea.ofFields fields)
  | _ => return .arc (← ArcArea.ofFields fields)

/-- Only the shape tells what the other members are to be, so they are settled beforehand. -/
instance : Decode GeographicArea where
  decode d := do ofDocument (← needed (Source.settle? d))

end GeographicArea

end MbsClient
