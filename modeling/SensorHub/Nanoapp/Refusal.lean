import SensorHub.Nanoapp.Info
/-!
The reasons for which a load or an unload is refused.
-/

namespace SensorHub

/-- Why a nanoapp was not loaded or not unloaded. After `startFailed` the app has been torn
down again; every other refusal leaves things as they were. -/
inductive Refusal
  | incompatibleApi (appId : UInt64) (target firstSupported : UInt32)
  | duplicateApp (appId : UInt64) (instanceId : UInt16)
  | idsExhausted (appId : UInt64)
  | startFailed (appId : UInt64) (instanceId : UInt16)
  | notFound (instanceId : UInt16)
  | systemNanoapp (instanceId : UInt16)
  deriving Repr, DecidableEq, Inhabited

namespace Refusal

def message : Refusal → String
  | .incompatibleApi appId target first =>
    s!"Incompatible nanoapp {Info.appIdText appId} (target API {Text.hex 8 target.toNat}, " ++
      s!"first supported {Text.hex 8 first.toNat})"
  | .duplicateApp appId instanceId =>
    s!"App with ID {Info.appIdText appId} already exists as instance ID {instanceId}"
  | .idsExhausted appId => s!"No free instance ID for app {Info.appIdText appId}"
  | .startFailed appId instanceId =>
    s!"Nanoapp {Info.appIdText appId} (instance {instanceId}) failed to start"
  | .notFound instanceId => s!"No nanoapp with instance ID {instanceId}"
  | .systemNanoapp instanceId => s!"Refusing to unload system nanoapp (instance {instanceId})"

end Refusal

end SensorHub
