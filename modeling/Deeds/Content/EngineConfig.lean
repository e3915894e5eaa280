import Deeds.Toml.Document

/-!
# The configuration of an engine

* `EngineConfig.read` : the configuration that a text holds; keys that mean nothing are passed over.
-/

namespace Deeds

/-- How an engine is set up. -/
structure EngineConfig where
  /-- The seed of all rolls. -/
  chanceSeed : Option UInt64 := none
  /-- How many milliseconds a check may take. -/
  verificationTimeout : Option UInt64 := none
  deriving DecidableEq, Repr

namespace EngineConfig

/-- The value of a key, which must be a number of 64 bits if it is there. -/
def natural64? (es : Toml.Entries) (key : String) : Option (Option UInt64) :=
  match es.get? key with
  | none => some none
  | some (.value (.integer i)) =>
    if 0 ≤ i && i < Int.ofNat UInt64.size then some (some (UInt64.ofNat i.toNat)) else none
  | some _ => none

/-- The configuration that a text holds. -/
def read (text : String) : Option EngineConfig := do
  let es ← Toml.read text
  let chanceSeed ← natural64? es "chance_seed"
  let verificationTimeout ← natural64? es "verification_timeout_ms"
  some { chanceSeed, verificationTimeout }

end EngineConfig

end Deeds
