import Interhart.Outcome
import Interhart.Text.Numeral

/-!
# Log records

A record has a level and a message.  A limit names the least severe level that is
still kept; without one nothing is kept.  On a console a record becomes one line that
carries the time in seconds and milliseconds and the hart that wrote it.
-/

namespace Interhart

/-- Levels of log records, the most severe first. -/
inductive Level
  | error
  | warn
  | info
  | debug
  | trace
deriving DecidableEq, Repr

namespace Level

def all : List Level := [.error, .warn, .info, .debug, .trace]

def name : Level → String
  | .error => "ERROR"
  | .warn => "WARN"
  | .info => "INFO"
  | .debug => "DEBUG"
  | .trace => "TRACE"

def keyword : Level → String
  | .error => "error"
  | .warn => "warn"
  | .info => "info"
  | .debug => "debug"
  | .trace => "trace"

def rank : Level → Nat
  | .error => 1
  | .warn => 2
  | .info => 3
  | .debug => 4
  | .trace => 5

def ofKeyword? (word : List Char) : Option Level :=
  all.find? fun level => decide (level.keyword.toList = word)

end Level

/-- The least severe level that is kept, or `none` to keep nothing. -/
abbrev LogLimit := Option Level

namespace LogLimit

def admits : LogLimit → Level → Bool
  | none, _ => false
  | some limit, level => decide (level.rank ≤ limit.rank)

def name : LogLimit → String
  | none => "OFF"
  | some level => level.name

def title : LogLimit → String
  | none => "Off"
  | some .error => "Error"
  | some .warn => "Warn"
  | some .info => "Info"
  | some .debug => "Debug"
  | some .trace => "Trace"

end LogLimit

structure LogRecord where
  level : Level
  message : String
deriving DecidableEq

/-!
# Time stamps

The remainder of the division into whole seconds is scaled to milliseconds in 64 bits,
so a remainder above `2 ^ 64 / 1000` is a fault.
-/

/-- Seconds and milliseconds of a tick count; both are zero at frequency zero. -/
def timestamp (ticks frequency : UInt64) : Except Fault (Nat × Nat) :=
  if frequency = 0 then .ok (0, 0)
  else
    let scaled := ticks.toNat % frequency.toNat * 1000
    if scaled < UInt64.size then
      .ok (ticks.toNat / frequency.toNat, scaled / frequency.toNat)
    else .error .productOverflow

def LogRecord.line (record : LogRecord) (seconds millis hart : Nat) : String :=
  "[" ++ padLeft ' ' 6 (toString seconds) ++ "." ++ padLeft '0' 3 (toString millis) ++ "] hart"
    ++ toString hart ++ " " ++ padRight 5 record.level.name ++ ": " ++ record.message ++ "\n"

end Interhart
