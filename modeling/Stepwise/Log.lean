/-
  Stepwise/Log.lean
  =================
  **Log levels and log entries.**

  Levels are ordered from debug to error.  An entry is kept when its level reaches the
  minimum that is set.  Sessions and the command line produce entries as values; where
  they are written is not decided here.
-/
import Stepwise.Text.Blank
import Stepwise.Text.Quoted

namespace Stepwise

namespace Log

/-- How much an entry matters, least first. -/
inductive Level where
  | debug
  | info
  | warn
  | error
deriving DecidableEq, Repr

namespace Level

def all : List Level := [.debug, .info, .warn, .error]

def rank : Level → Nat
  | .debug => 0
  | .info => 1
  | .warn => 2
  | .error => 3

def name : Level → Text
  | .debug => "DEBUG".toList
  | .info => "INFO".toList
  | .warn => "WARN".toList
  | .error => "ERROR".toList

/-- Entries of this level are kept when the minimum is the given one. -/
def reaches (level minimum : Level) : Bool := decide (minimum.rank ≤ level.rank)

def enabledUnder (minimum : Level) : List Level := all.filter (·.reaches minimum)

/-- The level that a text names: blanks around it and the case of ASCII letters do not
    count. -/
def parse? (t : Text) : Option Level :=
  let word := t.trim.map Char.toLower
  if word = "debug".toList then some .debug
  else if word = "info".toList then some .info
  else if word = "warn".toList ∨ word = "warning".toList then some .warn
  else if word = "error".toList then some .error
  else none

def unknownMessage (t : Text) : Text :=
  "unknown log level ".toList ++ t.quoted ++ ", expected debug, info, warn or error".toList

end Level

structure Entry where
  level : Level
  text : Text
deriving DecidableEq, Repr

/-- The line that shows an entry, without a time stamp. -/
def Entry.line (e : Entry) : Text :=
  '[' :: e.level.name ++ "] ".toList ++ e.text

end Log

end Stepwise
