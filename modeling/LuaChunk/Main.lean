import LuaChunk.CommandLine

/-!
# The program

Reads the files that its arguments name and writes the report of each before it takes the next
one. The environment variable `LUACHUNK_LOG` may name the severity up to which records are
logged on the standard error.
-/
namespace LuaChunk

/-- The severity with a name in any case, if there is one. -/
def Severity.ofName? (name : String) : Option Severity :=
  [error, warning, info, debug, trace].find? fun severity => severity.name = name.toUpper

/-- The number of the operating system in the code of an error, which may be its negative. -/
def errorNumber (code : UInt32) : Nat :=
  if code.toNat < Nat.pow 2 31 then code.toNat else Nat.pow 2 32 - code.toNat

/-- Why a file could not be read. Some errors of one kind are told apart by their numbers. -/
def FileError.ofError : IO.Error → FileError
  | .noFileOrDirectory _ _ _ => missing
  | .permissionDenied _ _ _ => ⟨"Permission denied", 13⟩
  | .inappropriateType _ code _ =>
    if errorNumber code = directory.code then directory else notDirectory
  | .invalidArgument _ code _ =>
    if errorNumber code = nameTooLong.code then nameTooLong else ⟨"Invalid argument", 22⟩
  | error => ⟨toString error, 5⟩

/-- The content of a file. -/
def readContent (file : String) : IO (Except FileError (List UInt8)) := do
  try
    return .ok (← IO.FS.readBinFile file).data.toList
  catch error => return .error (.ofError error)

end LuaChunk

open LuaChunk in
/-- Run the program on its arguments. -/
def main (arguments : List String) : IO UInt32 := do
  let limit := (← IO.getEnv "LUACHUNK_LOG").bind Severity.ofName?
  match Invocation.parse arguments with
  | none =>
    IO.eprint usage
    return 2
  | some invocation =>
    let mut outcome := Outcome.initial
    for file in invocation.files do
      let report := invocation.settings.report limit file (← readContent file)
      IO.print report.output
      IO.eprint report.diagnostics
      outcome := outcome.add report
    return outcome.status
