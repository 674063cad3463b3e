import LuaChunk.Proofs.Reader.Strings

/-!
# Words in one block

Words are taken in one block, all of them or none, while a loop that reads them one by one has moved
past the whole words that are there when it meets the end of the bytes. Where the bytes suffice the
two agree in everything, and where they do not they differ in the place of the error
(`Reader.times_word_of_le`, `Reader.times_word_of_lt`). So the block is the loop taken back when it
fails (`Reader.words_eq_undone`), and a list of words may be read in either way
(`Reader.words_one_by_one`).
-/
namespace LuaChunk

/-- The cursor behind a number of bytes. -/
def Cursor.behind (cursor : Cursor) (size : Nat) : Cursor :=
  ⟨cursor.position + size, cursor.unread.drop size⟩

/-- Behind some bytes there are so many fewer. -/
theorem Cursor.remaining_behind (cursor : Cursor) (size : Nat) :
    (cursor.behind size).remaining = cursor.remaining - size := List.length_drop

/-- Bytes are passed one after the other. -/
theorem Cursor.behind_behind (cursor : Cursor) (first second : Nat) :
    (cursor.behind first).behind second = cursor.behind (first + second) := by
  simp only [behind, List.drop_drop, Nat.add_assoc]

/-- Four bytes in front spell the first word. -/
theorem LittleEndian.words_append {front : List UInt8} (four : front.length = 4)
    (rest : List UInt8) :
    words (front ++ rest) = UInt32.ofNat (decode front) :: words rest := by
  match front, four with
  | [first, second, third, fourth], _ => exact words_cons first second third fourth rest

namespace Reader

variable {α : Type}

/-- A reader whose failures are taken back: it stays where it began, and the error says how many
bytes would have been needed. -/
def undone (announced : Nat) (read : Reader α) : Reader α := fun cursor =>
  match read cursor with
  | ⟨.ok value, stop, records⟩ => ⟨.ok value, stop, records⟩
  | ⟨.error _, _, _⟩ =>
    ⟨.error (.truncated cursor.position announced cursor.remaining), cursor, []⟩

/-- Four bytes are read as a word. -/
theorem word_of_le {cursor : Cursor} (enough : 4 ≤ cursor.remaining) :
    word cursor =
      ⟨.ok (UInt32.ofNat (LittleEndian.decode (cursor.unread.take 4))), cursor.behind 4, []⟩ :=
  bind_eq_of_eq_ok (bind_eq_of_eq_ok (block_of_le enough 4) _) _

/-- With fewer than four bytes a word is missing. -/
theorem word_of_lt {cursor : Cursor} (missing : cursor.remaining < 4) :
    word cursor = ⟨.error (.truncated cursor.position 4 cursor.remaining), cursor, []⟩ :=
  bind_eq_of_eq_error (unsigned_of_lt missing) _

/-- Where the bytes suffice for the words, these are read in one block. -/
theorem words_of_le {count : Nat} {cursor : Cursor} (enough : 4 * count ≤ cursor.remaining) :
    words count cursor =
      ⟨.ok (LittleEndian.words (cursor.unread.take (4 * count))), cursor.behind (4 * count), []⟩ :=
  bind_eq_of_eq_ok (block_of_le enough _) _

/-- Where they do not, the block is missing as a whole. -/
theorem words_of_lt {count : Nat} {cursor : Cursor} (missing : cursor.remaining < 4 * count) :
    words count cursor =
      ⟨.error (.truncated cursor.position (min (4 * count) (Nat.pow 2 64 - 1)) cursor.remaining),
        cursor, []⟩ :=
  bind_eq_of_eq_error (block_of_lt missing _) _

/-- Where the bytes suffice for the words, the same ones are read one by one. -/
theorem times_word_of_le {count : Nat} {cursor : Cursor} (enough : 4 * count ≤ cursor.remaining) :
    times word count cursor =
      ⟨.ok (LittleEndian.words (cursor.unread.take (4 * count))),
        cursor.behind (4 * count), []⟩ := by
  induction count generalizing cursor with
  | zero => rfl
  | succ count ih =>
    have first : 4 ≤ cursor.remaining := by omega
    have further : 4 * count ≤ (cursor.behind 4).remaining := by
      rw [Cursor.remaining_behind]
      omega
    have four : (cursor.unread.take 4).length = 4 := List.length_take_of_le first
    have bytes : cursor.unread.take (4 * (count + 1)) =
        cursor.unread.take 4 ++ (cursor.behind 4).unread.take (4 * count) := by
      rw [Nat.mul_succ, Nat.add_comm, List.take_add]
      rfl
    have stop : (cursor.behind 4).behind (4 * count) = cursor.behind (4 * (count + 1)) := by
      rw [Cursor.behind_behind, Nat.mul_succ, Nat.add_comm]
    rw [times_succ, bind_eq_of_eq_ok (word_of_le first), bind_eq_of_eq_ok (ih further), bytes,
      LittleEndian.words_append four, ← stop]
    rfl

/-- Where they do not, reading one by one stops behind the whole words that are there. -/
theorem times_word_of_lt {count : Nat} {cursor : Cursor} (missing : cursor.remaining < 4 * count) :
    let stop := cursor.behind (4 * (cursor.remaining / 4))
    times word count cursor =
      ⟨.error (.truncated stop.position 4 (cursor.remaining % 4)), stop, []⟩ := by
  induction count generalizing cursor with
  | zero => omega
  | succ count ih =>
    by_cases first : 4 ≤ cursor.remaining
    · have remaining : (cursor.behind 4).remaining = cursor.remaining - 4 :=
        cursor.remaining_behind 4
      have missing' : (cursor.behind 4).remaining < 4 * count := by omega
      have further := ih missing'
      have whole : 4 + 4 * ((cursor.remaining - 4) / 4) = 4 * (cursor.remaining / 4) := by omega
      have left : (cursor.remaining - 4) % 4 = cursor.remaining % 4 := by omega
      rw [remaining, Cursor.behind_behind, whole, left] at further
      rw [times_succ, bind_eq_of_eq_ok (word_of_le first)]
      exact bind_eq_of_eq_error further _
    · have few : cursor.remaining < 4 := by omega
      have none : cursor.remaining / 4 = 0 := by omega
      have left : cursor.remaining % 4 = cursor.remaining := by omega
      rw [none, left, times_succ]
      exact bind_eq_of_eq_error (word_of_lt few) _

/-- A block of words is the loop over its words, taken back as a whole when it fails. -/
theorem words_eq_undone (count : Nat) :
    words count = undone (min (4 * count) (Nat.pow 2 64 - 1)) (times word count) := by
  funext cursor
  by_cases enough : 4 * count ≤ cursor.remaining
  · rw [words_of_le enough, undone, times_word_of_le enough]
  · have missing : cursor.remaining < 4 * count := by omega
    rw [words_of_lt missing, undone, times_word_of_lt missing]

section Length

variable {policy : Policy} {part : Part} {cursor : Cursor}

/-- With fewer than four bytes the length of a list is missing. -/
theorem length_of_lt (missing : cursor.remaining < 4) :
    length policy part cursor =
      ⟨.error (.truncated cursor.position 4 cursor.remaining), cursor, []⟩ :=
  bind_eq_of_eq_error (word_of_lt missing) _

/-- Four bytes are read as the length of a list, which is compared with the limit. -/
theorem length_of_le (enough : 4 ≤ cursor.remaining) :
    let declared := LittleEndian.decode (cursor.unread.take 4)
    length policy part cursor =
      if declared ≤ policy.maxSequence then ⟨.ok declared, cursor.behind 4, []⟩
      else
        ⟨.error (.limitExceeded part.label declared policy.maxSequence cursor.position),
          cursor.behind 4, []⟩ := by
  intro declared
  have four : (cursor.unread.take 4).length = 4 := List.length_take_of_le enough
  have fits : declared < Nat.pow 2 32 := by
    have bound := LittleEndian.decode_lt (cursor.unread.take 4)
    rwa [four] at bound
  have same : (UInt32.ofNat declared).toNat = declared := UInt32.toNat_ofNat_of_lt' fits
  have behind := bind_eq_of_eq_ok (word_of_le enough) fun found : UInt32 =>
    if found.toNat ≤ policy.maxSequence then return found.toNat
    else (fail (.limitExceeded part.label found.toNat policy.maxSequence cursor.position) :
      Reader Nat)
  refine Eq.trans behind ?_
  rw [same]
  split <;> rfl

end Length

/-- The block of words yields what the loop over its words yields. -/
theorem words_yields_iff (count : Nat) (cursor : Cursor) (values : List UInt32) (stop : Cursor) :
    (words count).Yields cursor values stop ↔ (times word count).Yields cursor values stop := by
  by_cases enough : 4 * count ≤ cursor.remaining
  · rw [Yields, Yields, words_of_le enough, times_word_of_le enough]
  · have missing : cursor.remaining < 4 * count := by omega
    rw [Yields, Yields, words_of_lt missing, times_word_of_lt missing]
    simp

/-- What a block of words does wherever it stands. It is the loop over the words, taken back as a
whole when it fails: if there are bytes enough the two agree, and otherwise the block fails without
moving, where the loop moves past the whole words that are there. A list of words read in a block
and one read word by word are the same, and so are their errors if the length is missing or above
the limit. -/
theorem words_one_by_one (count : Nat) (cursor : Cursor) :
    words count = undone (min (4 * count) (Nat.pow 2 64 - 1)) (times word count) ∧
    (4 * count ≤ cursor.remaining →
      words count cursor = times word count cursor ∧
        ∃ values, values.length = count ∧
          words count cursor = ⟨.ok values, cursor.behind (4 * count), []⟩) ∧
    (cursor.remaining < 4 * count →
      let announced := min (4 * count) (Nat.pow 2 64 - 1)
      let stop := cursor.behind (4 * (cursor.remaining / 4))
      words count cursor =
          ⟨.error (.truncated cursor.position announced cursor.remaining), cursor, []⟩ ∧
        times word count cursor =
          ⟨.error (.truncated stop.position 4 (cursor.remaining % 4)), stop, []⟩) ∧
    ∀ (policy : Policy) (part : Part),
      (∀ values stop, (wordList policy part).Yields cursor values stop ↔
        (list policy part word).Yields cursor values stop) ∧
      (cursor.remaining < 4 →
        let missing := DecodeError.truncated cursor.position 4 cursor.remaining
        wordList policy part cursor = ⟨.error missing, cursor, []⟩ ∧
          list policy part word cursor = ⟨.error missing, cursor, []⟩) ∧
      (4 ≤ cursor.remaining →
        let declared := LittleEndian.decode (cursor.unread.take 4)
        let exceeded :=
          DecodeError.limitExceeded part.label declared policy.maxSequence cursor.position
        policy.maxSequence < declared →
          wordList policy part cursor = ⟨.error exceeded, cursor.behind 4, []⟩ ∧
            list policy part word cursor = ⟨.error exceeded, cursor.behind 4, []⟩) := by
  refine ⟨words_eq_undone count, ?_, ?_, fun policy part => ⟨?_, ?_, ?_⟩⟩
  · intro enough
    have full : (cursor.unread.take (4 * count)).length = 4 * count :=
      List.length_take_of_le enough
    have size := (LittleEndian.flatMap_encode_words count _ full).1
    exact ⟨(words_of_le enough).trans (times_word_of_le enough).symm, _, size, words_of_le enough⟩
  · intro missing announced stop
    exact ⟨words_of_lt missing, times_word_of_lt missing⟩
  · intro values stop
    simp only [wordList, list, yields_bind, words_yields_iff]
  · intro few missing
    have reading : length policy part cursor = ⟨.error missing, cursor, []⟩ := length_of_lt few
    exact ⟨bind_eq_of_eq_error reading _, bind_eq_of_eq_error reading _⟩
  · intro enough declared exceeded above
    have reading : length policy part cursor = ⟨.error exceeded, cursor.behind 4, []⟩ :=
      (length_of_le enough).trans (if_neg (Nat.not_le.mpr above))
    exact ⟨bind_eq_of_eq_error reading _, bind_eq_of_eq_error reading _⟩

/-- Nine bytes hold two words and a part of a third one. A block of two is read, a block of three
fails where it begins, and one of `2 ^ 62` words announces one byte less than it needs. As a list
the bytes declare more words than a limit of one admits. -/
theorem words_one_by_one_nine :
    let cursor : Cursor := ⟨7, [2, 0, 0, 0, 1, 0, 0, 0, 9]⟩
    words 2 cursor = times word 2 cursor ∧
      words 3 cursor = ⟨.error (.truncated 7 12 9), cursor, []⟩ ∧
      times word 3 cursor = ⟨.error (.truncated 15 4 1), ⟨15, [9]⟩, []⟩ ∧
      words (Nat.pow 2 62) cursor = ⟨.error (.truncated 7 (Nat.pow 2 64 - 1) 9), cursor, []⟩ ∧
      wordList ⟨1, 0, 0, true⟩ .code cursor =
        ⟨.error (.limitExceeded "code" 2 1 7), ⟨11, [1, 0, 0, 0, 9]⟩, []⟩ ∧
      wordList ⟨1, 0, 0, true⟩ .code ⟨7, [2, 0]⟩ =
        ⟨.error (.truncated 7 4 2), ⟨7, [2, 0]⟩, []⟩ := by
  intro cursor
  have two := ((words_one_by_one 2 cursor).2.1 (by decide)).1
  have three := (words_one_by_one 3 cursor).2.2.1 (by decide)
  have stop : cursor.behind (4 * (cursor.remaining / 4)) = ⟨15, [9]⟩ := by decide
  have left : cursor.remaining % 4 = 1 := by decide
  simp only [stop, left] at three
  have huge := ((words_one_by_one (Nat.pow 2 62) cursor).2.2.1 (by decide)).1
  have above :=
    ((words_one_by_one 0 cursor).2.2.2 ⟨1, 0, 0, true⟩ .code).2.2 (by decide) (by decide)
  have few := ((words_one_by_one 0 ⟨7, [2, 0]⟩).2.2.2 ⟨1, 0, 0, true⟩ .code).2.1 (by decide)
  exact ⟨two, three.1, three.2, huge, above.1, few.1⟩

end Reader

end LuaChunk
