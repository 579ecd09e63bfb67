import Outline.Archive
import Outline.Command.Run
import Outline.Json.Parser

/-!
# The program

Runs one command on a project.  The project is read from standard input as an archive (see
`Outline.Archive`), as syntax trees are built elsewhere; without input it is empty.  Output and
errors go to the usual places, and the configuration that `init` makes is written to its file,
which must not exist yet.
-/

open Outline

/-- All that is left on a stream. -/
partial def readAll (stream : IO.FS.Stream) (read : String) : IO String := do
  let line ← stream.getLine
  if line.isEmpty then pure read else readAll stream (read ++ line)

/-- The project that the input describes. -/
def projectOf (input : String) : Option Store :=
  if Text.blank input.toList then some Store.empty
  else (Json.parse? input.toList).bind Store.ofJson?

def main (args : List String) : IO UInt32 := do
  match projectOf (← readAll (← IO.getStdin) "") with
  | none =>
    IO.eprintln "Error: the input is no archive"
    pure 2
  | some store =>
    let request := Request.ofArguments (args.map String.toList)
    let (outcome, _) := Outcome.ofRequest store request
    IO.print (String.ofList outcome.stdout)
    match outcome.error with
    | some message => IO.eprintln (String.ofList message)
    | none => pure ()
    match request, outcome.code with
    | .run (.init path), 0 =>
      let file ← IO.FS.Handle.mk (String.ofList (Command.initPath path).display) .writeNew
      file.putStr (String.ofList Config.standard.write)
    | _, _ => pure ()
    pure (UInt32.ofNat outcome.code)
