import MbsClient.Codec.Encode
import MbsClient.Codec.Source

/-!
# Constants — enumerations that are written as words
-/

namespace MbsClient

/-- An enumeration whose values are written as their names. -/
class Constant (α : Type) where
  all : List α
  name : α → String

namespace Constant

variable {α : Type} [Constant α]

instance (priority := low) : Encode α := ⟨fun a => .string (name a)⟩

instance (priority := low) : Decode α := ⟨decodeWord (all.map fun a => (name a, a))⟩

end Constant

end MbsClient
