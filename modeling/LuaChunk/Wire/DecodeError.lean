import LuaChunk.Text.Label
import LuaChunk.Wire.Header

/-!
# Why a chunk cannot be read

Every error ends the reading of a chunk. Its offset is the place in the chunk where the part
that cannot be read begins, or for a limit the place of the size that passes it.
-/
namespace LuaChunk

/-- Why a chunk cannot be read. -/
inductive DecodeError where
  /-- A header field differs from the only header that is accepted. -/
  | headerMismatch (field : HeaderField) (offset : Nat)
  /-- The bytes end before the part that begins at the offset is complete. -/
  | truncated (offset needed available : Nat)
  /-- No constant has the tag byte at the offset. -/
  | unknownTag (tag : UInt8) (offset : Nat)
  /-- A size that the chunk declares is above the limit for its kind. -/
  | limitExceeded (what : String) (declared limit offset : Nat)
  /-- A function begins at the offset that is nested too deeply. -/
  | nestedTooDeep (limit offset : Nat)
  /-- Bytes follow the main function. -/
  | trailingBytes (offset count : Nat)
  deriving DecidableEq, Inhabited

namespace DecodeError

/-- The place in the chunk that an error is about. -/
def offset : DecodeError → Nat
  | headerMismatch _ offset => offset
  | truncated offset _ _ => offset
  | unknownTag _ offset => offset
  | limitExceeded _ _ _ offset => offset
  | nestedTooDeep _ offset => offset
  | trailingBytes offset _ => offset

/-- The text of an error for the user. -/
def message : DecodeError → String
  | headerMismatch field offset =>
    "bad header: " ++ field.message ++ " (offset " ++ Text.offset offset ++ ")"
  | truncated offset needed available =>
    "truncated chunk: needed " ++ toString needed ++ " byte(s) at offset " ++
      Text.offset offset ++ ", " ++ toString available ++ " left"
  | unknownTag tag offset =>
    "corrupted constant tag 0x" ++ Text.hexadecimal 2 tag.toNat ++ " at offset " ++
      Text.offset offset
  | limitExceeded what declared limit offset =>
    what ++ " size " ++ toString declared ++ " exceeds limit " ++ toString limit ++
      " at offset " ++ Text.offset offset
  | nestedTooDeep limit offset =>
    "functions nested deeper than " ++ toString limit ++ " levels at offset " ++
      Text.offset offset
  | trailingBytes offset count =>
    toString count ++ " trailing byte(s) after the main function at offset " ++
      Text.offset offset

/-- An error laid out with the names of its parts. -/
def outline : DecodeError → Outline
  | headerMismatch field offset =>
    .record "HeaderMismatch" [.field "field" (.leaf field.name), .field "offset" (.natural offset)]
  | truncated offset needed available =>
    .record "TruncatedInput"
      [.field "offset" (.natural offset), .field "needed" (.natural needed),
        .field "available" (.natural available)]
  | unknownTag tag offset =>
    .record "CorruptedConstantTag"
      [.field "tag" (.natural tag.toNat), .field "offset" (.natural offset)]
  | limitExceeded what declared limit offset =>
    .record "AllocationLimitExceeded"
      [.field "what" (.leaf (Text.label what)), .field "declared" (.natural declared),
        .field "limit" (.natural limit), .field "offset" (.natural offset)]
  | nestedTooDeep limit offset =>
    .record "NestingTooDeep" [.field "limit" (.natural limit), .field "offset" (.natural offset)]
  | trailingBytes offset count =>
    .record "TrailingBytes" [.field "offset" (.natural offset), .field "count" (.natural count)]

end DecodeError

end LuaChunk
