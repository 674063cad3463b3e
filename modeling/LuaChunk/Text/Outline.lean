/-!
# Outlines

An outline is a value laid out for reading: named records, lists, constructors with an argument,
and plain text at the leaves. It has two layouts. `Outline.indented` gives every entry a line of
its own, four spaces deeper than its surroundings and closed by a comma; `Outline.inline` puts
the whole outline on one line.
-/
namespace LuaChunk

/-- A value laid out for reading. -/
inductive Outline where
  /-- Text that is written as it is. -/
  | leaf (text : String)
  /-- A field of a record. -/
  | field (name : String) (value : Outline)
  /-- A record with its fields. -/
  | record (name : String) (fields : List Outline)
  /-- A list of values. -/
  | list (items : List Outline)
  /-- A constructor with one argument. -/
  | variant (name : String) (argument : Outline)

namespace Outline

/-- The numeral of a natural number as a leaf. -/
def natural (value : Nat) : Outline := leaf (toString value)

/-- The spaces in front of a line at a nesting depth. -/
def margin (depth : Nat) : String := String.ofList (List.replicate (4 * depth) ' ')

mutual

/-- Append the indented layout of an outline that begins in a line at the given depth. -/
def appendIndented (depth : Nat) (text : String) : Outline → String
  | leaf own => text ++ own
  | field name value => appendIndented depth (text ++ name ++ ": ") value
  | record name fields =>
    appendLines (depth + 1) (text ++ name ++ " \x7b\n") fields ++ margin depth ++ "\x7d"
  | list [] => text ++ "[]"
  | list (first :: further) =>
    appendLines (depth + 1) (text ++ "[\n") (first :: further) ++ margin depth ++ "]"
  | variant name argument =>
    appendIndented (depth + 1) (text ++ name ++ "(\n" ++ margin (depth + 1)) argument ++ ",\n" ++
      margin depth ++ ")"

/-- Append each entry on lines of its own at the given depth. -/
def appendLines (depth : Nat) (text : String) : List Outline → String
  | [] => text
  | first :: further =>
    appendLines depth (appendIndented depth (text ++ margin depth) first ++ ",\n") further

end

/-- The layout with a line for every entry. -/
def indented (outline : Outline) : String := outline.appendIndented 0 ""

mutual

/-- The layout on one line. -/
def inline : Outline → String
  | leaf text => text
  | field name value => name ++ ": " ++ value.inline
  | record name fields => name ++ " \x7b " ++ ", ".intercalate (inlineAll fields) ++ " \x7d"
  | list items => "[" ++ ", ".intercalate (inlineAll items) ++ "]"
  | variant name argument => name ++ "(" ++ argument.inline ++ ")"

/-- The layouts on one line of several outlines. -/
def inlineAll : List Outline → List String
  | [] => []
  | first :: further => first.inline :: inlineAll further

end

end Outline

end LuaChunk
