import LuaChunk.Listing
import LuaChunk.Proofs.Text.Utf8
import Mathlib.Data.Nat.Find

/-!
# Damaged bytes in a text

What bytes show as can be said without a reader (`Utf8.Shows`): characters show as themselves, and
where no character stands, the longest run of bytes that could still become one is damaged and shows
as one replacement character. The reader shows all bytes in this way (`Utf8.shows_iff`), since a run
that it has in progress ends only where no byte continues it. What is known of texts follows from
the rules alone: a text in front of other bytes shows as itself (`ByteString.toText_append`), and
damage cannot be mistaken for a text without replacement characters
(`ByteString.eq_ofText_of_toText`).
-/
namespace LuaChunk

namespace Utf8

open String (utf8EncodeChar)

/-- A single byte, or several that begin a character. -/
def Opens (run : List UInt8) : Prop :=
  run.length = 1 ∨ ∃ character, run <+: utf8EncodeChar character

/-- A run of bytes in front of others is damaged: it is the longest one there that can be taken for
the beginning of a character, and no character is complete. -/
structure Damaged (front rest : List UInt8) : Prop where
  /-- There are bytes in the run. -/
  nonempty : front ≠ []
  /-- The bytes do not begin with a character. -/
  unspelled : ∀ character, ¬ utf8EncodeChar character <+: front ++ rest
  /-- The run is a single byte or begins a character. -/
  opens : Opens front
  /-- No longer run does so. -/
  longest : ∀ run, run <+: front ++ rest → Opens run → run.length ≤ front.length

/-- Bytes show as characters: each character shows as itself wherever its bytes stand, and each run
of bytes that stands for no character shows as one replacement character. -/
inductive Shows : List UInt8 → List Char → Prop
  /-- No bytes show as no characters. -/
  | nil : Shows [] []
  /-- The bytes of a character show as that character. -/
  | character {rest : List UInt8} {characters : List Char} (character : Char)
      (shown : Shows rest characters) :
      Shows (utf8EncodeChar character ++ rest) (character :: characters)
  /-- A damaged run shows as a replacement character. -/
  | damage {front rest : List UInt8} {characters : List Char} (damaged : Damaged front rest)
      (shown : Shows rest characters) : Shows (front ++ rest) (replacement :: characters)

section Reader

variable {front rest bytes : List UInt8} {characters : List Char}

/-- The reader has a damaged run in progress at its end, or else has replaced it already. -/
theorem Damaged.foldl_step (damaged : Damaged front rest) (text : String) :
    front.foldl step ⟨text, none⟩ = ⟨text.push replacement, none⟩ ∨
      ∃ pending : Pending, front.foldl step ⟨text, none⟩ = ⟨text, some pending⟩ ∧
        pending.Follows front := by
  rcases damaged.opens with single | ⟨character, back, spelled⟩
  · obtain ⟨byte, rfl⟩ := List.length_eq_one_iff.mp single
    cases meaning : lead byte with
    | character character =>
      refine absurd ?_ (damaged.unspelled character)
      rw [encode_of_lead meaning]
      exact List.prefix_append _ _
    | opening pending =>
      refine Or.inr ⟨pending, ?_, follows_of_lead meaning⟩
      simp [step, begin, meaning]
    | stray =>
      left
      simp [step, begin, meaning]
  · right
    have unfinished : back ≠ [] := by
      rintro rfl
      refine damaged.unspelled character ?_
      rw [← spelled, List.append_nil]
      exact List.prefix_append _ _
    obtain ⟨pending, read, follows, -, -⟩ :=
      foldl_step_of_append text spelled.symm damaged.nonempty unfinished
    exact ⟨pending, read, follows⟩

/-- What is read behind a damaged run is read behind a replacement character. -/
theorem Damaged.finish_foldl (damaged : Damaged front rest) (text : String) :
    ((front ++ rest).foldl step ⟨text, none⟩).finish =
      (rest.foldl step ⟨text.push replacement, none⟩).finish := by
  rw [List.foldl_append]
  rcases damaged.foldl_step text with replaced | ⟨pending, read, follows⟩
  · rw [replaced]
  rw [read]
  cases rest with
  | nil => rfl
  | cons byte rest =>
    -- A byte that continues the run would make a longer one.
    have outside : ¬ pending.Admits byte := by
      intro admitted
      obtain ⟨character, begins⟩ := follows.exists_prefix admitted
      have inside : front ++ [byte] <+: front ++ byte :: rest := ⟨rest, by simp⟩
      have length := damaged.longest _ inside (Or.inr ⟨character, begins⟩)
      rw [List.length_append, List.length_singleton] at length
      omega
    rw [List.foldl_cons, step_outside outside, List.foldl_cons]

/-- The reader shows bytes as the characters that they show as. -/
theorem Shows.finish_foldl (shown : Shows bytes characters) (text : String) :
    (bytes.foldl step ⟨text, none⟩).finish = text ++ String.ofList characters := by
  induction shown generalizing text with
  | nil => simp [State.finish]
  | character character _ ih =>
    rw [List.foldl_append, foldl_step_encode, ih, String.ofList_cons, ← String.append_assoc,
      String.push_eq_append]
  | damage damaged _ ih =>
    rw [damaged.finish_foldl, ih, String.ofList_cons, ← String.append_assoc,
      String.push_eq_append]

/-- Among the runs at the beginning of bytes that can be taken for the beginning of a character
there is a longest one. -/
theorem exists_longest_opens (nonempty : bytes ≠ []) :
    ∃ size ≤ bytes.length, Opens (bytes.take size) ∧
      ∀ other ≤ bytes.length, Opens (bytes.take other) → other ≤ size := by
  classical
  have single : Opens (bytes.take 1) :=
    Or.inl (List.length_take_of_le (List.length_pos_iff.mpr nonempty))
  exact ⟨Nat.findGreatest (fun size => Opens (bytes.take size)) bytes.length,
    Nat.findGreatest_le _,
    Nat.findGreatest_spec (P := fun size => Opens (bytes.take size))
      (List.length_pos_iff.mpr nonempty) single,
    fun _ inside opens => Nat.le_findGreatest inside opens⟩

/-- Bytes that do not begin with a character begin with a damaged run. -/
theorem exists_damaged (nonempty : bytes ≠ [])
    (unspelled : ∀ character, ¬ utf8EncodeChar character <+: bytes) :
    ∃ front rest, bytes = front ++ rest ∧ Damaged front rest := by
  obtain ⟨size, inside, opens, greatest⟩ := exists_longest_opens nonempty
  have whole := List.take_append_drop size bytes
  have length : (bytes.take size).length = size := List.length_take_of_le inside
  refine ⟨bytes.take size, bytes.drop size, whole.symm, ?_, ?_, opens, ?_⟩
  · have positive := List.length_pos_iff.mpr nonempty
    rw [← List.length_pos_iff, length]
    exact greatest 1 positive (Or.inl (List.length_take_of_le positive))
  · rwa [whole]
  · intro run begins other
    rw [whole] at begins
    rw [length]
    refine greatest _ begins.length_le ?_
    rwa [← List.prefix_iff_eq_take.mp begins]

/-- All bytes show as some characters. -/
theorem exists_shows (bytes : List UInt8) : ∃ characters, Shows bytes characters := by
  by_cases empty : bytes = []
  · exact ⟨[], empty ▸ Shows.nil⟩
  by_cases spelled : ∃ character, utf8EncodeChar character <+: bytes
  · obtain ⟨character, rest, rfl⟩ := spelled
    have shorter : rest.length < (utf8EncodeChar character ++ rest).length := by
      have positive := character.utf8Size_pos
      rw [List.length_append, String.length_utf8EncodeChar]
      omega
    obtain ⟨characters, shown⟩ := exists_shows rest
    exact ⟨_, shown.character character⟩
  · obtain ⟨front, rest, rfl, damaged⟩ := exists_damaged empty (not_exists.mp spelled)
    have shorter : rest.length < (front ++ rest).length := by
      have positive := List.length_pos_iff.mpr damaged.nonempty
      rw [List.length_append]
      omega
    obtain ⟨characters, shown⟩ := exists_shows rest
    exact ⟨_, shown.damage damaged⟩
termination_by bytes.length

/-- The text of bytes has the characters that they show as, and no others. -/
theorem shows_iff (text : String) :
    Shows bytes text.toList ↔ ByteString.toText ⟨bytes⟩ = text := by
  constructor
  · intro shown
    have read := shown.finish_foldl ""
    rwa [String.empty_append, String.ofList_toList] at read
  · rintro rfl
    obtain ⟨characters, shown⟩ := exists_shows bytes
    have read := shown.finish_foldl ""
    rw [String.empty_append] at read
    rwa [ByteString.toText, read, String.toList_ofList]

/-- A character that is cut off is replaced as one, and a surrogate byte by byte. -/
example : ByteString.toText ⟨[0xE2, 0x82, 0x41, 0xED, 0xA0]⟩ = "\uFFFDA\uFFFD\uFFFD" := by decide

end Reader

section Characters

variable {bytes : List UInt8} {characters : List Char}

/-- Characters in front of other bytes show as themselves. -/
theorem Shows.append (shown : Shows bytes characters) (front : List Char) :
    Shows (front.flatMap utf8EncodeChar ++ bytes) (front ++ characters) := by
  induction front with
  | nil => exact shown
  | cons character front ih =>
    rw [List.flatMap_cons, List.append_assoc]
    exact ih.character character

/-- Bytes that show as characters without a replacement character are the bytes of these
characters. -/
theorem Shows.eq_flatMap (shown : Shows bytes characters) (sound : replacement ∉ characters) :
    bytes = characters.flatMap utf8EncodeChar := by
  induction shown with
  | nil => rfl
  | character character _ ih => rw [List.flatMap_cons, ← ih (List.not_mem_of_not_mem_cons sound)]
  | damage _ _ _ => exact absurd List.mem_cons_self sound

end Characters

end Utf8

namespace ByteString

variable {string : ByteString} {text : String} {mark : Char}

/-- The bytes of a text are those of its characters. -/
theorem bytes_ofText (text : String) :
    (ofText text).bytes = text.toList.flatMap String.utf8EncodeChar := by
  rw [ofText, String.toUTF8_eq_toByteArray, ← String.ofList_toList (s := text),
    String.toByteArray_ofList, List.utf8Encode, List.data_toByteArray, String.toList_ofList]

/-- A text in front of other bytes shows as itself. -/
theorem toText_append (text : String) (string : ByteString) :
    toText ⟨(ofText text).bytes ++ string.bytes⟩ = text ++ string.toText := by
  have rest := (Utf8.shows_iff string.toText).mpr rfl
  rw [← Utf8.shows_iff, String.toList_append, bytes_ofText]
  exact rest.append text.toList

/-- The text of the bytes of a text is this text. -/
theorem toText_ofText (text : String) : (ofText text).toText = text := by
  have shown : toText ⟨(ofText text).bytes ++ []⟩ = text ++ "" := toText_append text empty
  rwa [List.append_nil, String.append_empty] at shown

/-- A string is the one of its text unless the text has a replacement character. -/
theorem eq_ofText_of_toText (shown : string.toText = text)
    (sound : Utf8.replacement ∉ text.toList) : string = ofText text := by
  have characters := (Utf8.shows_iff text).mpr shown
  have bytes : string.bytes = (ofText text).bytes := by
    rw [bytes_ofText, characters.eq_flatMap sound]
  exact congrArg mk bytes

/-- The name of a chunk is the text behind its mark. -/
theorem displayName_of_mark (marked : mark = '@' ∨ mark = '=') (string : ByteString) :
    displayName ⟨(ofText (String.singleton mark)).bytes ++ string.bytes⟩ = string.toText := by
  rcases marked with rfl | rfl
  · have byte : (ofText (String.singleton '@')).bytes = [0x40] := by decide
    rw [byte]
    rfl
  · have byte : (ofText (String.singleton '=')).bytes = [0x3D] := by decide
    rw [byte]
    rfl

/-- The text of a string is exact as far as there is one, and shows where there is none: it is what
the bytes show as, it is the text that they encode, and only the bytes of a text show as this text
if no replacement character occurs in it. A text in front of a string stays in front of what the
string shows as, and so the name of a chunk is the text of the string behind the mark. -/
theorem toText_exact (string source : ByteString) (text : String) (mark : Char) :
    (string.toText = text ↔ Utf8.Shows string.bytes text.toList) ∧
    (string = ofText text → string.toText = text) ∧
    (string.toText = text → Utf8.replacement ∉ text.toList → string = ofText text) ∧
    toText ⟨(ofText text).bytes ++ string.bytes⟩ = text ++ string.toText ∧
    (mark = '@' ∨ mark = '=' →
      source.bytes = (ofText (String.singleton mark)).bytes ++ string.bytes →
      source.displayName = string.toText ∧
        source.toText = String.singleton mark ++ source.displayName) := by
  refine ⟨(Utf8.shows_iff text).symm, ?_, eq_ofText_of_toText, toText_append text string, ?_⟩
  · rintro rfl
    exact toText_ofText text
  · intro marked parts
    obtain rfl : source = ⟨(ofText (String.singleton mark)).bytes ++ string.bytes⟩ :=
      congrArg mk parts
    rw [displayName_of_mark marked]
    exact ⟨rfl, toText_append _ _⟩

/-- A file name with an accent. -/
theorem toText_exact_accent :
    toText ⟨[0xC3, 0xA9]⟩ = "é" ∧ ⟨[0xC3, 0xA9]⟩ = ofText "é" ∧
      displayName ⟨[0x40, 0xC3, 0xA9]⟩ = toText ⟨[0xC3, 0xA9]⟩ ∧
      toText ⟨[0x40, 0xC3, 0xA9]⟩ = "@" ++ displayName ⟨[0x40, 0xC3, 0xA9]⟩ := by
  obtain ⟨-, encoded, sound, -, marked⟩ :=
    toText_exact ⟨[0xC3, 0xA9]⟩ ⟨[0x40, 0xC3, 0xA9]⟩ "é" '@'
  have shown := encoded (by decide)
  exact ⟨shown, sound shown (by decide), marked (Or.inl rfl) (by decide)⟩

end ByteString

end LuaChunk
