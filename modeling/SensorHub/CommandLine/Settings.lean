import SensorHub.CommandLine.Command
import SensorHub.Decimal.Digits
/-!
The values given to options. Each option is given at most once.
-/

namespace SensorHub.CommandLine

/-- A number of 64 bits without sign; a plus may stand in front of it. -/
def word64? (text : String) : Option UInt64 :=
  let digits :=
    match text.toList with
    | '+' :: digits => digits
    | digits => digits
  (Decimal.natural? digits).bind fun n => if n < UInt64.size then some n.toUInt64 else none

/-- A number of 32 bits; a sign may stand in front of it, so that `-0` is a number too. -/
def word32? (text : String) : Option UInt32 :=
  (Decimal.whole? text.toList).bind fun n =>
    if 0 ≤ n ∧ n < UInt32.size then some n.toNat.toUInt32 else none

def path? (text : String) : Option String :=
  if text.isEmpty then none else some text

/-- The options given so far. -/
structure Settings where
  config : Option String
  logLevel : Option String
  producers : Option UInt64
  events : Option UInt32
  pingEvery : Option UInt32
  output : Option String
  deriving Repr, DecidableEq, Inhabited

namespace Settings

def empty : Settings :=
  ⟨none, none, none, none, none, none⟩

/-- A value that was not given before. -/
def once {α : Type} : Option α → Option α → Option (Option α)
  | none, some value => some (some value)
  | _, _ => none

/-- Gives an option its value. There is no result if the option has one already or if `text`
is no value for it. -/
def put? (s : Settings) (key : Key) (text : String) : Option Settings :=
  match key with
  | .config => (once s.config (path? text)).map fun v => { s with config := v }
  | .logLevel => (once s.logLevel (some text)).map fun v => { s with logLevel := v }
  | .producers => (once s.producers (word64? text)).map fun v => { s with producers := v }
  | .events => (once s.events (word32? text)).map fun v => { s with events := v }
  | .pingEvery => (once s.pingEvery (word32? text)).map fun v => { s with pingEvery := v }
  | .output => (once s.output (path? text)).map fun v => { s with output := v }

/-- The options of a command together with those before it: the configuration may stand in
either place, and the one behind the command counts. -/
def within (inner outer : Settings) : Settings :=
  { inner with config := inner.config.or outer.config, logLevel := outer.logLevel }

end Settings

end SensorHub.CommandLine
