import VBed.CommandLine.Report

/-!
The program: it reads its arguments and the files they name, and prints the answer.
-/

namespace VBed.CommandLine

def reasonOf : IO.Error → String
  | .noFileOrDirectory .. => missingReason
  | .inappropriateType _ code details | .invalidArgument _ code details
  | .permissionDenied _ code details | .resourceExhausted _ code details
  | .otherError code details =>
      details ++ " (os error " ++ Text.decimal code.toNat ++ ")"
  | error => toString error

def readToEnd (handle : IO.FS.Handle) : IO Contents := do
  try
    match String.fromUTF8? (← handle.readBinToEnd) with
    | some text => return .ok text
    | none => return .error .malformedDocument
  catch error => return .error (.interruptedDocument (reasonOf error))

def readContents (path : String) : IO Contents := do
  try readToEnd (← IO.FS.Handle.mk path .read)
  catch error => return .error (.unreadableFile (reasonOf error))

def readFiles (paths : List String) : IO (List (String × Contents)) :=
  paths.mapM fun path => return (path, ← readContents path)

end VBed.CommandLine

open VBed.CommandLine

def main (arguments : List String) : IO UInt32 := do
  let request := Request.ofArguments arguments
  let files ← readFiles request.files
  let outcome := request.answer fun path =>
    (files.lookup path).getD Contents.missing
  IO.print outcome.output
  IO.eprint outcome.complaint
  return outcome.exit.toUInt32
