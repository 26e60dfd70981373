/-!
The resource domains whose leftovers are released when a nanoapp goes away.
-/

namespace SensorHub

/-- A resource domain. -/
inductive ResourceKind
  | wifi
  | gnss
  | sensor
  | audio
  | ble
  | timer
  | heap
  deriving Repr, DecidableEq, Inhabited

namespace ResourceKind

/-- Every domain, in the order of release. -/
def all : List ResourceKind :=
  [.wifi, .gnss, .sensor, .audio, .ble, .timer, .heap]

def name : ResourceKind → String
  | .wifi => "Wifi"
  | .gnss => "Gnss"
  | .sensor => "Sensor"
  | .audio => "Audio"
  | .ble => "Ble"
  | .timer => "Timer"
  | .heap => "Heap"

def ofName? (name : String) : Option ResourceKind :=
  all.find? fun k => k.name == name

/-- The noun under which leftovers are reported. -/
def label : ResourceKind → String
  | .wifi => "WIFI subscriptions"
  | .gnss => "GNSS subscriptions"
  | .sensor => "sensor subscriptions"
  | .audio => "audio requests"
  | .ble => "BLE scan requests"
  | .timer => "timers"
  | .heap => "heap blocks"

end ResourceKind

end SensorHub
