/-
# The program

Reads the configuration file that the arguments name, runs the command on it and
writes what it leaves.
-/
import TemplatePasses.Cli.Command

open TemplatePasses.Cli

/-- The number of an error, which may come with its sign turned. -/
def errorNumber (code : UInt32) : UInt32 :=
  if code < 4096 then code else 0 - code

/-- What stands under a path of the file system. -/
def contentOf (path : String) : IO Content := do
  try
    return .file (← IO.FS.readBinFile path)
  catch e =>
    match e with
    | .noFileOrDirectory .. => return .unreadable .notFound
    | .inappropriateType _ code _ =>
      return if errorNumber code = 20 then .unreadable .notADirectory else .directory
    | .invalidArgument _ code _ =>
      return .unreadable (if errorNumber code = 36 then .nameTooLong else .other (toString e))
    | .permissionDenied .. => return .unreadable (.other "Permission denied (os error 13)")
    | other => return .unreadable (.other (toString other))

/-- Runs the command. -/
def main (args : List String) : IO UInt32 := do
  let content ← match configPath? args with
    | some path => contentOf path
    | none => pure (.unreadable .notFound)
  let outcome := command args fun _ => content
  (← IO.getStderr).putStr outcome.stderr
  (← IO.getStdout).putStr outcome.stdout
  return outcome.code
