import ApiLoom.Config
import ApiLoom.Model.Definition

/-!
# Managed fields

Which properties a client may set.  The server keeps the identifier and the
managed timestamps itself.
-/

namespace ApiLoom.Model

def timestamps (m : Model) (config : Config) : List String :=
  config.managedTimestamps.filter m.hasProperty

def isManaged (config : Config) (name : String) : Bool :=
  (config.identifierField :: config.managedTimestamps).contains name

def writableProperties (m : Model) (config : Config) : List Property :=
  m.properties.filter fun p => !isManaged config p.name

def writableFields (m : Model) (config : Config) : List String :=
  (m.writableProperties config).map (·.name)

/-- Timestamps that also come back in the zone of the caller: those of records that
the API itself keeps. -/
def localTimeFields (m : Model) (config : Config) : List String :=
  if config.hasLocalTimes && m.engine.isStored then m.timestampFields else []

end ApiLoom.Model
