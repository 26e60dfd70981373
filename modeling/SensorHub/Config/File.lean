import SensorHub.Config
import SensorHub.Toml.Document
/-!
Configuration files. A configuration is written as one `key = number` line per setting. Any
TOML document is read: keys that name no setting are ignored, and a setting without key keeps
its default.
-/

namespace SensorHub

/-- Why a file could not be read or written. -/
inductive FileFault
  | missing
  | isDirectory
  | notText
  /-- Any other fault, in the words of the system. -/
  | refused (reason : String)
  deriving Repr, DecidableEq, Inhabited

namespace FileFault

def message : FileFault → String
  | .missing => "No such file or directory (os error 2)"
  | .isDirectory => "Is a directory (os error 21)"
  | .notText => "stream did not contain valid UTF-8"
  | .refused reason => reason

end FileFault

/-- Why there is no configuration, or no text of one. -/
inductive ConfigError
  | file (fault : FileFault)
  /-- The text is no TOML document, or a setting in it is not a number in its range. -/
  | malformed
  /-- A setting is too large for a TOML number. -/
  | unwritable
  | invalid (defect : Config.Defect)
  deriving Repr, DecidableEq, Inhabited

namespace ConfigError

def message : ConfigError → String
  | .file fault => s!"I/O error: {fault.message}"
  | .malformed => "TOML parse error"
  | .unwritable => "TOML serialize error: out-of-range value for u64 type"
  | .invalid defect => s!"Invalid configuration: {defect.message}"

end ConfigError

namespace Config

open Toml (Entries)

/-- The number at `key`, which must not reach `bound`; `fallback` where the key is missing. -/
def setting (entries : Entries) (key : String) (bound fallback : Nat) : Option Nat :=
  match entries.get? key with
  | none => some fallback
  | some (.integer n) => if 0 ≤ n ∧ n < bound then some n.toNat else none
  | some _ => none

def setting64 (entries : Entries) (key : String) (fallback : UInt64) : Option UInt64 :=
  (setting entries key UInt64.size fallback.toNat).map Nat.toUInt64

def setting32 (entries : Entries) (key : String) (fallback : UInt32) : Option UInt32 :=
  (setting entries key UInt32.size fallback.toNat).map Nat.toUInt32

def ofEntries? (e : Entries) : Option Config := do
  return {
    eventBlocks := ← setting64 e "event_blocks" default.eventBlocks
    eventsPerBlock := ← setting64 e "events_per_block" default.eventsPerBlock
    evictTarget := ← setting64 e "low_priority_evict_target" default.evictTarget
    latencyWarnMillis := ← setting32 e "latency_warn_threshold_ms" default.latencyWarnMillis
    throttleMillis := ← setting64 e "throttle_interval_ms" default.throttleMillis
    throttleCount := ← setting32 e "throttle_count" default.throttleCount
    wakeupBucketSeconds :=
      ← setting64 e "wakeup_bucket_interval_secs" default.wakeupBucketSeconds
    wakeupBuckets := ← setting64 e "wakeup_bucket_count" default.wakeupBuckets
    firstSupportedApi := ← setting32 e "first_supported_api_version" default.firstSupportedApi
  }

/-- The settings as keys and numbers, in the order in which they are written. -/
def settings (c : Config) : List (String × Nat) :=
  [("event_blocks", c.eventBlocks.toNat),
    ("events_per_block", c.eventsPerBlock.toNat),
    ("low_priority_evict_target", c.evictTarget.toNat),
    ("latency_warn_threshold_ms", c.latencyWarnMillis.toNat),
    ("throttle_interval_ms", c.throttleMillis.toNat),
    ("throttle_count", c.throttleCount.toNat),
    ("wakeup_bucket_interval_secs", c.wakeupBucketSeconds.toNat),
    ("wakeup_bucket_count", c.wakeupBuckets.toNat),
    ("first_supported_api_version", c.firstSupportedApi.toNat)]

def settingLine (setting : String × Nat) : String :=
  s!"{setting.1} = {setting.2}\n"

/-- The text of a configuration. TOML numbers have 63 bits without sign. -/
def toToml (c : Config) : Except ConfigError String :=
  if c.settings.any fun s => Toml.integerBound ≤ s.2 then .error .unwritable
  else .ok (String.join (c.settings.map settingLine))

/-- The configuration itself if it meets every condition. -/
def validate (c : Config) : Except ConfigError Config :=
  match c.defect? with
  | none => .ok c
  | some defect => .error (.invalid defect)

def ofToml (text : String) : Except ConfigError Config :=
  match (Toml.parse? text).bind ofEntries? with
  | none => .error .malformed
  | some c => c.validate

def ofBytes (bytes : ByteArray) : Except ConfigError Config :=
  match String.fromUTF8? bytes with
  | none => .error (.file .notText)
  | some text => ofToml text

/-- Reads a configuration from a file, given its content or the fault met on reading it. -/
def ofFile : Except FileFault ByteArray → Except ConfigError Config
  | .ok bytes => ofBytes bytes
  | .error fault => .error (.file fault)

end Config

end SensorHub
