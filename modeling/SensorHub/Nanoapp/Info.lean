import SensorHub.Text.Braces
import SensorHub.Text.Hex
/-!
The identity of a nanoapp.
-/

namespace SensorHub

/-- Version 1.0 of the nanoapp interface: a version has its major number in the top byte and its
minor number in the next one. -/
def apiVersion10 : UInt32 := 0x01000000

def apiVersion11 : UInt32 := 0x01010000

def currentApiVersion : UInt32 := 0x01090000

/-- What identifies a nanoapp. -/
structure Info where
  appId : UInt64
  version : UInt32
  /-- Assigned at load; 0 until then. -/
  instanceId : UInt16
  targetApi : UInt32
  isSystem : Bool
  deriving Repr, DecidableEq, Inhabited

namespace Info

/-- An app identity as it reads in hexadecimal. -/
def appIdText (appId : UInt64) : String :=
  Text.hex 16 appId.toNat

/-- The one-line description of a nanoapp. The version is split into its top byte, the next
byte and the low half. -/
def text (i : Info) : String :=
  let version := i.version.toNat
  s!"id {i.instanceId} app {appIdText i.appId} v{version / 0x1000000}." ++
    s!"{version / 0x10000 % 0x100}.{version % 0x10000} api {Text.hex 8 i.targetApi.toNat}" ++
    (if i.isSystem then " (system)" else "")

def debug (i : Info) : String :=
  Text.record "NanoappInfo"
    [("app_id", toString i.appId), ("version", toString i.version),
      ("instance_id", toString i.instanceId), ("target_api_version", toString i.targetApi),
      ("is_system", Text.truth i.isSystem)]

end Info

end SensorHub
