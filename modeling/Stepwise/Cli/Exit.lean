/-
  Stepwise/Cli/Exit.lean
  ======================
  **What a command leaves behind: two streams of text and an exit code.**

  A command is a pure function to an `Exit`; writing it out is the outer layer's
  business.  The standard output is a list of lines.  The error stream is one text,
  because prompts on it have no line end.
-/
import Stepwise.Log

namespace Stepwise

namespace Cli

structure Screen where
  out : List Text := []
  err : Text := []
deriving DecidableEq, Repr

namespace Screen

def warn (s : Screen) (t : Text) : Screen := { s with err := s.err ++ t }

def warnLine (s : Screen) (t : Text) : Screen := s.warn (t ++ ['\n'])

def log (s : Screen) (minimum : Log.Level) (e : Log.Entry) : Screen :=
  if e.level.reaches minimum then s.warnLine e.line else s

def logAll (s : Screen) (minimum : Log.Level) (entries : List Log.Entry) : Screen :=
  entries.foldl (fun s e => s.log minimum e) s

def print (s : Screen) (lines : List Text) : Screen := { s with out := s.out ++ lines }

end Screen

structure Exit where
  code : Nat
  screen : Screen
deriving DecidableEq, Repr

def levelVariable : Text := "LENINEC_LOG".toList

/-- Lines as one text, every line with its line end. -/
def unlines (lines : List Text) : Text := lines.flatMap fun line => line ++ ['\n']

end Cli

end Stepwise
