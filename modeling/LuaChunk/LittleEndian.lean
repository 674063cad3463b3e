/-!
# Little-endian words

A chunk stores every number as a fixed number of bytes, the least significant byte first.
`encode` writes a number in a given width and `decode` reads bytes of any width; the two are
inverse on numbers that fit (`decode_encode`) and on byte lists of the width
(`encode_decode`).
-/
namespace LuaChunk.LittleEndian

/-- The lowest `width` bytes of a number, least significant first. -/
def encode : Nat → Nat → List UInt8
  | 0, _ => []
  | width + 1, value => UInt8.ofNat (value % 256) :: encode width (value / 256)

/-- The number that the bytes denote in base 256, least significant first. -/
def decode : List UInt8 → Nat
  | [] => 0
  | byte :: rest => byte.toNat + 256 * decode rest

/-- Words of four bytes each, in front of words already read in reverse order; up to three
bytes left over at the end are dropped. -/
def wordsInto (reversed : List UInt32) : List UInt8 → List UInt32
  | first :: second :: third :: fourth :: rest =>
    wordsInto (UInt32.ofNat (decode [first, second, third, fourth]) :: reversed) rest
  | _ => reversed.reverse

/-- The words of four bytes each that the bytes spell. -/
def words (bytes : List UInt8) : List UInt32 := wordsInto [] bytes

/-- An encoding has its width. -/
@[simp] theorem length_encode (width value : Nat) : (encode width value).length = width := by
  induction width generalizing value with
  | zero => rfl
  | succ width ih => simp [encode, ih]

/-- Bytes denote a number below the power of 256 that their count gives. -/
theorem decode_lt (bytes : List UInt8) : decode bytes < Nat.pow 256 bytes.length := by
  induction bytes with
  | nil => simp [decode]
  | cons byte rest ih =>
    have small := byte.toNat_lt
    simp only [Nat.pow_eq] at ih
    simp only [decode, List.length_cons, Nat.pow_eq, Nat.pow_succ]
    omega

/-- A number that fits the width is read back. -/
theorem decode_encode (width value : Nat) (fits : value < Nat.pow 256 width) :
    decode (encode width value) = value := by
  induction width generalizing value with
  | zero => simp only [Nat.pow_eq, Nat.pow_zero] at fits; simp only [encode, decode]; omega
  | succ width ih =>
    have low : (UInt8.ofNat (value % 256)).toNat = value % 256 := by
      simp only [UInt8.toNat_ofNat']
      omega
    simp only [Nat.pow_eq, Nat.pow_succ] at fits
    have high : value / 256 < Nat.pow 256 width := by
      simp only [Nat.pow_eq]
      omega
    simp only [encode, decode, low, ih (value / 256) high]
    omega

/-- Bytes are the encoding of the number they denote. -/
theorem encode_decode (bytes : List UInt8) : encode bytes.length (decode bytes) = bytes := by
  induction bytes with
  | nil => rfl
  | cons byte rest ih =>
    have small := byte.toNat_lt
    have low : (byte.toNat + 256 * decode rest) % 256 = byte.toNat := by omega
    have high : (byte.toNat + 256 * decode rest) / 256 = decode rest := by omega
    simp only [List.length_cons, decode, encode, low, high, ih, UInt8.ofNat_toNat]

/-- Four bytes are the encoding of their word. -/
theorem encode_ofNat_decode (first second third fourth : UInt8) :
    encode 4 (UInt32.ofNat (decode [first, second, third, fourth])).toNat =
      [first, second, third, fourth] := by
  have fits := decode_lt [first, second, third, fourth]
  simp only [List.length_cons, List.length_nil, Nat.pow_eq] at fits
  rw [UInt32.toNat_ofNat_of_lt' (by simpa using fits)]
  exact encode_decode [first, second, third, fourth]

/-- Words that are already read stay in front of those that the bytes spell. -/
theorem wordsInto_eq : ∀ (reversed : List UInt32) (bytes : List UInt8),
    wordsInto reversed bytes = reversed.reverse ++ words bytes
  | reversed, first :: second :: third :: fourth :: rest => by
    simp only [words, wordsInto]
    rw [wordsInto_eq (_ :: reversed) rest, wordsInto_eq [_] rest]
    simp
  | reversed, [] => by simp [words, wordsInto]
  | reversed, [_] => by simp [words, wordsInto]
  | reversed, [_, _] => by simp [words, wordsInto]
  | reversed, [_, _, _] => by simp [words, wordsInto]

/-- Four bytes in front spell one word in front. -/
theorem words_cons (first second third fourth : UInt8) (rest : List UInt8) :
    words (first :: second :: third :: fourth :: rest) =
      UInt32.ofNat (decode [first, second, third, fourth]) :: words rest := by
  rw [words, wordsInto, wordsInto_eq]
  rfl

/-- Whole words are encoded as the bytes that spell them. -/
theorem flatMap_encode_words (count : Nat) (bytes : List UInt8) (full : bytes.length = 4 * count) :
    (words bytes).length = count ∧
      (words bytes).flatMap (fun word => encode 4 word.toNat) = bytes := by
  induction count generalizing bytes with
  | zero =>
    obtain rfl := List.length_eq_zero_iff.mp full
    exact ⟨rfl, rfl⟩
  | succ count ih =>
    match bytes, full with
    | first :: second :: third :: fourth :: rest, full =>
      have further := ih rest (by simp only [List.length_cons] at full; omega)
      rw [words_cons]
      refine ⟨by rw [List.length_cons, further.1], ?_⟩
      rw [List.flatMap_cons, further.2, encode_ofNat_decode]
      rfl

/-- Words are read back from their encodings. -/
theorem words_flatMap_encode (values : List UInt32) :
    words (values.flatMap fun word => encode 4 word.toNat) = values := by
  induction values with
  | nil => rfl
  | cons value values ih =>
    have spelled := decode_encode 4 value.toNat value.toNat_lt
    simp only [encode] at spelled
    rw [List.flatMap_cons]
    simp only [encode, List.cons_append, List.nil_append]
    rw [words_cons, spelled, UInt32.ofNat_toNat]
    exact congrArg (value :: ·) ih

end LuaChunk.LittleEndian
