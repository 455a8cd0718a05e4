import RecordQuery.Cache
import RecordQuery.Shorthand

/-!
# Settings

Settings are read from a file: the lifetime of cached results in seconds and the soft-delete marker.
An absent marker is the default one, and null switches soft deletes off.
-/

namespace RecordQuery

structure Settings where
  seconds : Option UInt64 := none
  marker : Option (Option String) := none
  deriving DecidableEq, Repr, Inhabited

/-- What a service is configured with: where results are kept and for how long, and the field that
marks deleted rows. -/
structure Config (σ : Type) where
  cache : Option (CacheAdapter σ) := none
  lifetime : Option Lifetime := none
  marker : Option String := some defaultMarker

namespace Settings

def shape : RecordShape Settings where
  name := "ServiceSettings"
  fields := [
    ("ttlSec", fun doc settings => do
      return { settings with seconds := ← doc.optional Doc.unsigned }),
    ("softDeleteField", fun doc settings => do
      return { settings with marker := some (← doc.optional Doc.text) })]
  blank := {}

def toConfig {σ : Type} (settings : Settings) (cache : Option (CacheAdapter σ)) : Config σ where
  cache
  lifetime := settings.seconds.map (·.toNat * Lifetime.second)
  marker := settings.marker.getD (some defaultMarker)

end Settings

end RecordQuery
