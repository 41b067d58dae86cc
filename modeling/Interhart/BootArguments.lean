import Interhart.Log
import Interhart.Text.Blank

/-!
# Boot arguments

The command line is a list of words.  A word of the form `key=value` whose key is the
one below sets the log limit; the last such word decides, and a value that names no
level switches the log off.
-/

namespace Interhart

structure BootArguments where
  logLimit : LogLimit := none
deriving DecidableEq

namespace BootArguments

def limitKey : List Char := "hartlink.log_level".toList

def assignment? (word : List Char) : Option (List Char × List Char) :=
  match word.dropWhile (· ≠ '=') with
  | [] => none
  | _ :: value => some (word.takeWhile (· ≠ '='), value)

def limitOf? (word : List Char) : Option LogLimit :=
  match assignment? word with
  | some (key, value) => if key = limitKey then some (Level.ofKeyword? value) else none
  | none => none

def ofChars (line : List Char) : BootArguments :=
  { logLimit := (((words line).filterMap limitOf?).getLast?).getD none }

def ofCommandLine (line : String) : BootArguments := ofChars line.toList

def text (arguments : BootArguments) : String :=
  s!"BootArgs \x7b log_level: {arguments.logLimit.title} \x7d"

end BootArguments
end Interhart
