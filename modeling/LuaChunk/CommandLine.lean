import LuaChunk.FileTree
import LuaChunk.Listing
import LuaChunk.Text.ControlSequence
import LuaChunk.Tree
import LuaChunk.Wire.Chunk

/-!
# The command line

The program lists the contents of chunk files. Its arguments are file names and options in any
order. It treats every file on its own: a file that cannot be read or decoded leaves a message
and the next file is taken, and the exit status tells at the end whether any file failed.

What the program writes is computed here from the arguments and the answers of the file system.
-/
namespace LuaChunk

/-- An option that takes a number. -/
inductive LimitOption where
  /-- The depth of nested functions. -/
  | depth
  /-- The length of a list. -/
  | sequence
  /-- The size of a string. -/
  | string
  deriving DecidableEq

/-- The options given so far. -/
structure Settings where
  /-- Whether the tree view is asked for. -/
  tree : Bool
  /-- Whether bytes after the main function are refused. -/
  strict : Bool
  /-- The depth of nested functions, if given. -/
  depth : Option Nat
  /-- The length of a list, if given. -/
  sequence : Option Nat
  /-- The size of a string, if given. -/
  string : Option Nat
  deriving DecidableEq

/-- A call of the program. -/
structure Invocation where
  /-- The options. -/
  settings : Settings
  /-- The names of the files, of which there is at least one. -/
  files : List String
  deriving DecidableEq

namespace LimitOption

/-- All options that take a number. -/
def all : List LimitOption := [depth, sequence, string]

/-- The spelling of an option. -/
def spelling : LimitOption → String
  | depth => "--max-depth"
  | sequence => "--max-sequence-len"
  | string => "--max-string-len"

/-- The option with a spelling, if there is one. -/
def ofSpelling? (spelling : String) : Option LimitOption :=
  all.find? fun option => option.spelling = spelling

end LimitOption

namespace Settings

/-- No option is given. -/
def initial : Settings := ⟨false, false, none, none, none⟩

/-- Ask for the tree view. An option is given at most once. -/
def withTree? (settings : Settings) : Option Settings :=
  if settings.tree then none else some { settings with tree := true }

/-- Refuse bytes after the main function. An option is given at most once. -/
def withStrict? (settings : Settings) : Option Settings :=
  if settings.strict then none else some { settings with strict := true }

/-- Set a limit. An option is given at most once. -/
def withLimit? (settings : Settings) (option : LimitOption) (limit : Nat) : Option Settings :=
  match option with
  | .depth => if settings.depth.isSome then none else some { settings with depth := limit }
  | .sequence =>
    if settings.sequence.isSome then none else some { settings with sequence := limit }
  | .string => if settings.string.isSome then none else some { settings with string := limit }

/-- The policy that the options denote. -/
def policy (settings : Settings) : Policy where
  maxSequence := settings.sequence.getD Policy.default.maxSequence
  maxString := settings.string.getD Policy.default.maxString
  maxDepth := settings.depth.getD Policy.default.maxDepth
  allowTrailing := !settings.strict

end Settings

/-- The value of decimal digits after a value already read; nothing else may occur. -/
def decimalFrom? (value : Nat) : List Char → Option Nat
  | [] => some value
  | character :: further =>
    if character.isDigit then decimalFrom? (10 * value + (character.toNat - 48)) further else none

/-- A number of an option: decimal digits, perhaps after a plus sign, of a value below
`2 ^ 64`. -/
def limitOfText? (text : String) : Option Nat :=
  let digits :=
    match text.toList with
    | '+' :: digits => digits
    | digits => digits
  if digits.isEmpty then none else (decimalFrom? 0 digits).filter (· < Nat.pow 2 64)

/-- An argument up to its first equals sign, and what follows the sign. -/
def splitArgument (argument : String) : String × Option String :=
  let characters := argument.toList
  let name := characters.takeWhile (· ≠ '=')
  match characters.drop name.length with
  | [] => (argument, none)
  | _ :: value => (String.ofList name, some (String.ofList value))

namespace Invocation

/-- Whether an argument is a file name where options are still possible. A single hyphen is. -/
def isFile (argument : String) : Bool :=
  match argument.toList with
  | '-' :: _ :: _ => false
  | _ => true

/-- The call with the options and the files, given in reverse order; a call needs a file. -/
def finish (settings : Settings) (files : List String) : Option Invocation :=
  if files.isEmpty then none else some ⟨settings, files.reverse⟩

/-- Read arguments after options and files that are already read, the files in reverse order. -/
def parseFrom (settings : Settings) (files : List String) : List String → Option Invocation
  | [] => finish settings files
  | argument :: further =>
    if isFile argument then parseFrom settings (argument :: files) further
    else if argument = "--" then finish settings (further.reverse ++ files)
    else if argument = "--tree" then
      settings.withTree?.bind fun settings => parseFrom settings files further
    else if argument = "--strict" then
      settings.withStrict?.bind fun settings => parseFrom settings files further
    else
      match splitArgument argument with
      | (spelling, some value) => do
        let option ← LimitOption.ofSpelling? spelling
        let limit ← limitOfText? value
        parseFrom (← settings.withLimit? option limit) files further
      | (spelling, none) =>
        match further with
        | [] => none
        | value :: further => do
          let option ← LimitOption.ofSpelling? spelling
          let limit ← limitOfText? value
          parseFrom (← settings.withLimit? option limit) files further

/-- The call that arguments denote, if they denote one. -/
def parse (arguments : List String) : Option Invocation := parseFrom .initial [] arguments

end Invocation

/-- What the program writes for one file. -/
structure Report where
  /-- Text for the standard output. -/
  output : String
  /-- Text for the standard error. -/
  diagnostics : String
  /-- Whether the file could not be read or decoded. -/
  failed : Bool
  deriving DecidableEq

/-- What the program writes in all, and its exit status. -/
structure Outcome where
  /-- Text for the standard output. -/
  output : String
  /-- Text for the standard error. -/
  diagnostics : String
  /-- The exit status. -/
  status : UInt32
  deriving DecidableEq

/-- A message with every line but its first four spaces deeper. -/
def hanging (message : String) : String :=
  String.ofList (message.toList.flatMap fun character =>
    if character = '\n' then ['\n', ' ', ' ', ' ', ' '] else [character])

/-- A line of the log, if the log admits its severity. Control sequences in the message do not
reach the log; one that the message leaves open takes the end of the line with it. -/
def logLine (limit : Option Severity) (severity : Severity) (message : String) : String :=
  if severity.isAdmitted limit then
    Text.withoutControls (severity.name ++ " " ++ hanging message ++ "\n")
  else ""

/-- The lines of a log for several records. -/
def logLines (limit : Option Severity) (records : List Record) : String :=
  records.foldl (fun text record => text ++ logLine limit record.severity record.message) ""

namespace Settings

/-- What the program shows of a chunk. -/
def shown (settings : Settings) (main : Prototype) : String :=
  if settings.tree then main.tree ++ "\n" else main.listing

/-- What the program writes for a file, given the answer of the file system. -/
def report (settings : Settings) (limit : Option Severity) (file : String)
    (content : Except FileError (List UInt8)) : Report :=
  let opening := logLine limit .info ("Reading chunk: " ++ file)
  match content with
  | .error error =>
    ⟨"", opening ++ file ++ ": cannot read file: " ++ error.message ++ "\n", true⟩
  | .ok bytes =>
    let reading := read settings.policy bytes
    let log := opening ++ logLines limit reading.records
    match reading.outcome with
    | .error error => ⟨"", log ++ file ++ ": " ++ error.message ++ "\n", true⟩
    | .ok main =>
      let summary := "Decoded " ++ toString main.functionCount ++ " function(s) from " ++
        toString bytes.length ++ " bytes"
      ⟨settings.shown main, log ++ logLine limit .info summary, false⟩

end Settings

namespace Outcome

/-- Nothing is written yet and no file has failed. -/
def initial : Outcome := ⟨"", "", 0⟩

/-- Add what is written for one more file. -/
def add (outcome : Outcome) (report : Report) : Outcome where
  output := outcome.output ++ report.output
  diagnostics := outcome.diagnostics ++ report.diagnostics
  status := if report.failed then 1 else outcome.status

end Outcome

/-- How to call the program. -/
def usage : String :=
  "usage: luachunk [--tree] [--strict] [--max-depth N] [--max-sequence-len N] " ++
    "[--max-string-len N] [--] FILE...\n"

/-- What the program writes for arguments, given the contents of the files. -/
def run (limit : Option Severity) (contents : String → Except FileError (List UInt8))
    (arguments : List String) : Outcome :=
  match Invocation.parse arguments with
  | none => ⟨"", usage, 2⟩
  | some invocation =>
    invocation.files.foldl
      (fun outcome file => outcome.add (invocation.settings.report limit file (contents file)))
      .initial

end LuaChunk
