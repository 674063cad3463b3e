import LuaChunk.Prototype
import LuaChunk.Text.Utf8
import LuaChunk.Wire.Header

/-!
# The log of a reading

A reader keeps a record of each part it has read. A record holds what was read and where, its
severity and its wording follow from that.
-/
namespace LuaChunk

/-- How much a record matters. -/
inductive Severity where
  /-- Something failed. -/
  | error
  /-- Something is odd. -/
  | warning
  /-- What the program does. -/
  | info
  /-- What a reader found. -/
  | debug
  /-- Every detail. -/
  | trace
  deriving DecidableEq, Inhabited

namespace Severity

/-- The severities by number, the gravest first. -/
def rank : Severity → Nat
  | error => 1
  | warning => 2
  | info => 3
  | debug => 4
  | trace => 5

/-- The name of a severity in a log. -/
def name : Severity → String
  | error => "ERROR"
  | warning => "WARN"
  | info => "INFO"
  | debug => "DEBUG"
  | trace => "TRACE"

/-- Whether a log that admits records up to a severity admits this one; a log without such a
severity admits none. -/
def isAdmitted (severity : Severity) : Option Severity → Bool
  | none => false
  | some limit => severity.rank ≤ limit.rank

end Severity

/-- What a reader has read. -/
inductive Record where
  /-- The header was accepted. -/
  | header (accepted : Header)
  /-- The byte between the header and the main function, the upvalue count of its closure. -/
  | closure (upvalueCount : UInt8)
  /-- A constant whose tag byte stands at the offset. -/
  | constant (tag : Constant.Tag) (offset : Nat) (value : Constant)
  /-- A function that begins at the offset, with its name, its lines and the lengths of its
  code, constants, upvalues and nested functions. -/
  | function (source : ByteString) (lineDefined lastLineDefined : UInt32) (offset : Nat)
      (instructions constants upvalues functions : Nat)
  /-- Bytes after the main function. -/
  | trailing (count offset : Nat)
  /-- The whole chunk, with the name of its main function and the number of its functions. -/
  | chunk (source : ByteString) (functions : Nat)
  deriving DecidableEq

namespace Record

/-- How much a record matters. -/
def severity : Record → Severity
  | header _ => .debug
  | closure _ => .trace
  | constant _ _ _ => .trace
  | function _ _ _ _ _ _ _ _ => .debug
  | trailing _ _ => .warning
  | chunk _ _ => .debug

/-- The wording of a record. -/
def message : Record → String
  | header accepted => "Parsed header: " ++ accepted.outline.indented
  | closure upvalueCount => "main closure upvalue count: " ++ toString upvalueCount.toNat
  | constant tag offset value =>
    "constant " ++ tag.name ++ " at " ++ Text.offset offset ++ ": " ++ value.outline.inline
  | function source lineDefined lastLineDefined offset instructions constants upvalues functions =>
    "function <" ++ source.toText ++ ":" ++ toString lineDefined.toNat ++ "," ++
      toString lastLineDefined.toNat ++ "> at " ++ Text.offset offset ++ ": " ++
      toString instructions ++ " instructions, " ++ toString constants ++ " constants, " ++
      toString upvalues ++ " upvalues, " ++ toString functions ++ " functions"
  | trailing count offset =>
    "ignoring " ++ toString count ++ " trailing byte(s) after the main function at offset " ++
      Text.offset offset
  | chunk source functions =>
    "decoded chunk " ++ source.escaped ++ ": " ++ toString functions ++ " function(s)"

end Record

end LuaChunk
