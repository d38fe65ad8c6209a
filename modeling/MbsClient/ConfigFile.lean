import MbsClient.Config
import MbsClient.Yaml.Value

/-!
# Configuration files — the settings of a client in YAML

They are the section `mbsmf` of a document, or the whole document if it has no such section.
-/

namespace MbsClient.ClientConfig

/-- The name of the section. -/
def sectionName : String := "mbsmf"

/-- The settings of a section; an empty one has the defaults. -/
def ofSection (v : Yaml.Value) : Except Error ClientConfig :=
  if v.isNull then validate {}
  else
    match (decode v : Decoded ClientConfig) with
    | .ok c => c.validate
    | .error _ => .error .yaml

/-- The settings of a document. -/
def ofValue (v : Yaml.Value) : Except Error ClientConfig :=
  ofSection ((v.member? sectionName).getD v)

/-- The settings of a file. -/
def ofYaml (text : String) : Except Error ClientConfig :=
  match (Yaml.Node.parse? text).bind Yaml.Value.ofStrictNode? with
  | some v => ofValue v
  | none => .error .yaml

end MbsClient.ClientConfig
