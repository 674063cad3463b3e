import LuaChunk.ByteString

/-!
# Control sequences

A terminal does not show every character of a text: an escape character begins a control
sequence, which is a command to the terminal, and most other control characters act without
being seen. `Text.withoutControls` keeps the characters that are shown. White space that breaks
into a sequence is shown, and so is the text after it; the next unseen control character takes
the broken sequence up again.
-/
namespace LuaChunk.Text

/-- How far a control sequence is read. -/
inductive ControlSequence where
  /-- No sequence is open. -/
  | closed
  /-- After the escape character. -/
  | escape
  /-- After the escape character and intermediate characters. -/
  | intermediate
  /-- Among the parameters of a command with parameters. -/
  | parameters
  /-- At the beginning of a string for a device. -/
  | device
  /-- Among the parameters of a string for a device. -/
  | deviceParameters
  /-- Among the intermediate characters of a string for a device. -/
  | deviceIntermediate
  /-- In the characters of a string, up to a string terminator. -/
  | string
  /-- In the characters of a command to the operating system, up to a bell. -/
  | systemCommand
  deriving DecidableEq

/-- Whether a character lies in a range of code points. -/
def isWithin (first last : Nat) (character : Char) : Bool :=
  first ≤ character.toNat && character.toNat ≤ last

/-- A horizontal tab, a line feed, a form feed or a carriage return. -/
def isBreak (character : Char) : Bool :=
  isWithin 0x09 0x0A character || isWithin 0x0C 0x0D character

/-- Whether the byte of the string terminator is one of the UTF-8 bytes of a character. A string
ends there even when the byte belongs to a longer character. -/
def closesString (character : Char) : Bool :=
  (ByteString.ofText (String.singleton character)).bytes.contains 0x9C

namespace ControlSequence

/-- The sequence after one more character that is not shown. Two control characters close a
sequence wherever they occur, and an escape character begins a new one. -/
def next (sequence : ControlSequence) (character : Char) : ControlSequence :=
  if character.toNat = 0x18 || character.toNat = 0x1A then closed
  else if character.toNat = 0x1B then escape
  else
    match sequence with
    | closed => closed
    | escape =>
      if character = '[' then parameters
      else if character = ']' then systemCommand
      else if character = 'P' then device
      else if character = 'X' || character = '^' || character = '_' then string
      else if isWithin 0x20 0x2F character then intermediate
      else if isWithin 0x30 0x7E character then closed
      else escape
    | intermediate => if isWithin 0x30 0x7E character then closed else intermediate
    | parameters => if isWithin 0x40 0x7E character then closed else parameters
    | device =>
      if isWithin 0x20 0x2F character then deviceIntermediate
      else if isWithin 0x30 0x3F character then deviceParameters
      else if isWithin 0x40 0x7E character then string
      else device
    | deviceParameters =>
      if isWithin 0x20 0x2F character then deviceIntermediate
      else if isWithin 0x3C 0x7E character then string
      else deviceParameters
    | deviceIntermediate =>
      if isWithin 0x30 0x7E character then string else deviceIntermediate
    | string => if closesString character then closed else string
    | systemCommand => if character.toNat = 0x07 then closed else systemCommand

/-- Whether a character is shown while a sequence is open. Outside sequences all characters are
but the unseen controls; inside, white space breaks the shorter kinds of sequences. -/
def shows (sequence : ControlSequence) (character : Char) : Bool :=
  match sequence with
  | closed =>
    isBreak character || (0x20 ≤ character.toNat && character.toNat ≠ 0x7F)
  | escape | intermediate | parameters => isBreak character
  | device | deviceParameters | deviceIntermediate | string | systemCommand => false

/-- The characters that are shown after a beginning that left a sequence open, which white space
may have broken. A shown character past ASCII closes the broken sequence for good. -/
def shownFrom (sequence : ControlSequence) (broken : Bool) : List Char → List Char
  | [] => []
  | character :: further =>
    if (if broken then closed else sequence).shows character then
      character :: shownFrom (if character.toNat < 0x80 then sequence else closed) true further
    else shownFrom (sequence.next character) false further

end ControlSequence

/-- What a terminal shows of a text. -/
def withoutControls (text : String) : String :=
  String.ofList (ControlSequence.closed.shownFrom false text.toList)

end LuaChunk.Text
