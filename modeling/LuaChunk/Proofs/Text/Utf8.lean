import LuaChunk.Text.Utf8
import Mathlib.Data.List.Basic
import Mathlib.Data.List.Induction
import Mathlib.Tactic.IntervalCases

/-!
# Characters read from their bytes

The reader of UTF-8 keeps of a character in progress only the bits read so far and how many bytes
are missing. What the bytes read so far have to do with it is an invariant (`Pending.Follows`): the
characters that they begin are those whose scalar value fits, and the missing bytes hold the other
bits (`continuation`). A first byte establishes it and every byte that continues the character keeps
it, so the reader has a character in progress exactly in front of its last byte
(`foldl_step_of_append`), and behind that byte it has the character (`foldl_step_encode`).
-/
namespace LuaChunk

namespace Utf8

open String (utf8EncodeChar)

/-- The bytes behind the first one of a character, six bits of its scalar value in each. -/
def continuation : ℕ → ℕ → List UInt8
  | 0, _ => []
  | further + 1, scalar =>
    UInt8.ofNat (scalar / 64 ^ further % 64 + 0x80) :: continuation further scalar

/-- A character in progress may become the character with a scalar value. -/
def Pending.Fits (pending : Pending) (scalar : ℕ) : Prop :=
  scalar / 64 ^ (pending.further + 1) = pending.scalar ∧
    pending.lowest.toNat ≤ scalar / 64 ^ pending.further % 64 + 0x80 ∧
    scalar / 64 ^ pending.further % 64 + 0x80 ≤ pending.highest.toNat

/-- A character in progress that any byte behind a first one may continue. -/
def Pending.inner (scalar further : ℕ) : Pending := ⟨scalar, 0x80, 0xBF, further⟩

/-- A character of three bytes behind its first one. What is below `0x800` has fewer bytes, and
surrogates are no characters. -/
def Pending.three (leading : ℕ) : Pending :=
  ⟨leading, if leading = 0 then 0xA0 else 0x80, if leading = 13 then 0x9F else 0xBF, 1⟩

/-- A character of four bytes behind its first one. What is below `0x10000` has fewer bytes, and
what is above `0x10FFFF` is no character. -/
def Pending.four (leading : ℕ) : Pending :=
  ⟨leading, if leading = 0 then 0x90 else 0x80, if leading = 4 then 0x8F else 0xBF, 2⟩

/-- Bytes are what is read of a character in progress. -/
structure Pending.Follows (pending : Pending) (front : List UInt8) : Prop where
  /-- The bytes that continue it begin no character. -/
  bounds : 0x80 ≤ pending.lowest.toNat ∧ pending.highest.toNat ≤ 0xBF
  /-- With the bytes that are missing they spell each character that it may become. -/
  spells : ∀ scalar, pending.Fits scalar → ∃ character : Char, character.toNat = scalar ∧
    utf8EncodeChar character = front ++ continuation (pending.further + 1) scalar

section Characters

variable {character : Char}

/-- Surrogates and numbers past the last code point are no characters. -/
theorem toNat_valid (character : Char) :
    character.toNat < 0xD800 ∨ 0xDFFF < character.toNat ∧ character.toNat < 0x110000 :=
  character.valid

/-- All other numbers are. -/
theorem exists_toNat {scalar : ℕ}
    (valid : scalar < 0xD800 ∨ 0xDFFF < scalar ∧ scalar < 0x110000) :
    ∃ character : Char, character.toNat = scalar :=
  ⟨Char.ofNatAux scalar valid, rfl⟩

/-- A character of one byte. -/
theorem encode_one (small : character.toNat < 0x80) :
    utf8EncodeChar character = [UInt8.ofNat character.toNat] := by
  unfold Char.toNat at small ⊢
  rw [utf8EncodeChar, if_pos (by omega)]

/-- A character of two bytes. -/
theorem encode_two (large : 0x80 ≤ character.toNat) (small : character.toNat < 0x800) :
    utf8EncodeChar character =
      UInt8.ofNat (character.toNat / 64 + 0xC0) :: continuation 1 character.toNat := by
  unfold Char.toNat at large small ⊢
  have first : character.val.toNat / 64 % 32 = character.val.toNat / 64 := by omega
  rw [utf8EncodeChar, if_neg (by omega), if_pos (by omega), first]
  simp [continuation]

/-- A character of three bytes. -/
theorem encode_three (large : 0x800 ≤ character.toNat) (small : character.toNat < 0x10000) :
    utf8EncodeChar character =
      UInt8.ofNat (character.toNat / 4096 + 0xE0) :: continuation 2 character.toNat := by
  unfold Char.toNat at large small ⊢
  have first : character.val.toNat / 4096 % 16 = character.val.toNat / 4096 := by omega
  rw [utf8EncodeChar, if_neg (by omega), if_neg (by omega), if_pos (by omega), first]
  simp [continuation]

/-- A character of four bytes. -/
theorem encode_four (large : 0x10000 ≤ character.toNat) :
    utf8EncodeChar character =
      UInt8.ofNat (character.toNat / 262144 + 0xF0) :: continuation 3 character.toNat := by
  have valid := toNat_valid character
  unfold Char.toNat at large valid ⊢
  have first : character.val.toNat / 262144 % 8 = character.val.toNat / 262144 := by omega
  rw [utf8EncodeChar, if_neg (by omega), if_neg (by omega), if_neg (by omega), first]
  simp [continuation]

end Characters

section Leads

variable {leading further scalar : ℕ}

/-- Where any byte may come next, the bits read so far are all that a character has to agree
with. -/
theorem fits_inner_iff (upper : ℕ) :
    (Pending.inner upper further).Fits scalar ↔ scalar / 64 ^ (further + 1) = upper := by
  have six := Nat.mod_lt (scalar / 64 ^ further) (by decide : 0 < 64)
  simp only [Pending.Fits, Pending.inner, and_iff_left_iff_imp]
  intro _
  constructor
  · exact Nat.le_add_left _ _
  · exact Nat.le_of_lt_succ (Nat.add_lt_add_right six _)

/-- The characters of three bytes with a given first one. -/
theorem fits_three_iff (small : leading < 16) :
    (Pending.three leading).Fits scalar ↔
      scalar / 4096 = leading ∧ 0x800 ≤ scalar ∧ (scalar < 0xD800 ∨ 0xDFFF < scalar) := by
  simp only [Pending.Fits, Pending.three, apply_ite UInt8.toNat, UInt8.reduceToNat,
    Nat.reducePow, Nat.reduceAdd]
  split <;> split <;> omega

/-- The characters of four bytes with a given first one. -/
theorem fits_four_iff (small : leading < 5) :
    (Pending.four leading).Fits scalar ↔
      scalar / 262144 = leading ∧ 0x10000 ≤ scalar ∧ scalar < 0x110000 := by
  simp only [Pending.Fits, Pending.four, apply_ite UInt8.toNat, UInt8.reduceToNat,
    Nat.reducePow, Nat.reduceAdd]
  split <;> split <;> omega

/-- A character of one byte is known from it. -/
theorem lead_one {character : Char} (small : character.toNat < 0x80) :
    lead (UInt8.ofNat character.toNat) = .character character := by
  have value : (UInt8.ofNat character.toNat).toNat = character.toNat := by
    rw [UInt8.toNat_ofNat']
    omega
  simp [lead, value, small]

/-- The first byte of a character of two bytes. -/
theorem lead_two (large : 2 ≤ leading) (small : leading < 32) :
    lead (UInt8.ofNat (leading + 0xC0)) = .opening (.inner leading 0) := by
  interval_cases leading <;> rfl

/-- The first byte of a character of three bytes. -/
theorem lead_three (small : leading < 16) :
    lead (UInt8.ofNat (leading + 0xE0)) = .opening (.three leading) := by
  interval_cases leading <;> rfl

/-- The first byte of a character of four bytes. -/
theorem lead_four (small : leading < 5) :
    lead (UInt8.ofNat (leading + 0xF0)) = .opening (.four leading) := by
  interval_cases leading <;> rfl

/-- A byte is a character of its own, begins a character of two, three or four bytes, or begins
none. -/
theorem lead_cases (byte : UInt8) :
    (byte.toNat < 0x80 ∧ lead byte = .character (Char.ofNat byte.toNat)) ∨
    (∃ leading, 2 ≤ leading ∧ leading < 32 ∧ byte = UInt8.ofNat (leading + 0xC0) ∧
      lead byte = .opening (.inner leading 0)) ∨
    (∃ leading < 16, byte = UInt8.ofNat (leading + 0xE0) ∧ lead byte = .opening (.three leading)) ∨
    (∃ leading < 5, byte = UInt8.ofNat (leading + 0xF0) ∧ lead byte = .opening (.four leading)) ∨
    lead byte = .stray := by
  have offset : ∀ base ≤ byte.toNat, byte = UInt8.ofNat (byte.toNat - base + base) := by
    intro base above
    rw [Nat.sub_add_cancel above, UInt8.ofNat_toNat]
  by_cases one : byte.toNat < 0x80
  · exact Or.inl ⟨one, if_pos one⟩
  right
  by_cases low : byte.toNat < 0xC2
  · simp [lead, one, low]
  by_cases two : byte.toNat < 0xE0
  · have same := offset 0xC0 (by omega)
    left
    refine ⟨byte.toNat - 0xC0, by omega, by omega, same, ?_⟩
    rw [← lead_two (by omega) (by omega), ← same]
  right
  by_cases three : byte.toNat < 0xF0
  · have same := offset 0xE0 (by omega)
    left
    refine ⟨byte.toNat - 0xE0, by omega, same, ?_⟩
    rw [← lead_three (by omega), ← same]
  right
  by_cases four : byte.toNat < 0xF5
  · have same := offset 0xF0 (by omega)
    left
    refine ⟨byte.toNat - 0xF0, by omega, same, ?_⟩
    rw [← lead_four (by omega), ← same]
  · right
    simp (disch := omega) only [lead, if_neg]

/-- A byte that is a character of its own is all that this character has. -/
theorem encode_of_lead {byte : UInt8} {character : Char}
    (single : lead byte = .character character) : utf8EncodeChar character = [byte] := by
  rcases lead_cases byte with ⟨small, meaning⟩ | ⟨_, _, _, _, meaning⟩ | ⟨_, _, _, meaning⟩ |
    ⟨_, _, _, meaning⟩ | meaning <;> rw [meaning] at single
  · obtain ⟨same, scalar⟩ := exists_toNat (by omega : byte.toNat < 0xD800 ∨ _)
    obtain rfl := Lead.character.inj single
    rw [← scalar, Char.ofNat_toNat, encode_one (by omega), scalar, UInt8.ofNat_toNat]
  all_goals contradiction

/-- A character of several bytes is one of those that may follow its first byte. -/
theorem exists_lead {character : Char} (large : 0x80 ≤ character.toNat) :
    ∃ byte pending, lead byte = .opening pending ∧ pending.Fits character.toNat ∧
      utf8EncodeChar character =
        byte :: continuation (pending.further + 1) character.toNat := by
  have valid := toNat_valid character
  by_cases two : character.toNat < 0x800
  · refine ⟨_, _, lead_two (by omega) (by omega), ?_, encode_two large two⟩
    exact (fits_inner_iff _).mpr rfl
  by_cases three : character.toNat < 0x10000
  · refine ⟨_, _, lead_three (by omega), ?_, encode_three (by omega) three⟩
    exact (fits_three_iff (by omega)).mpr ⟨rfl, by omega, by omega⟩
  · refine ⟨_, _, lead_four (by omega), ?_, encode_four (by omega)⟩
    exact (fits_four_iff (by omega)).mpr ⟨rfl, by omega, by omega⟩

/-- The first byte of a character of several bytes is what is read of it. -/
theorem follows_of_lead {byte : UInt8} {pending : Pending} (opens : lead byte = .opening pending) :
    pending.Follows [byte] := by
  rcases lead_cases byte with ⟨_, meaning⟩ | ⟨leading, large, small, rfl, meaning⟩ |
    ⟨leading, small, rfl, meaning⟩ | ⟨leading, small, rfl, meaning⟩ | meaning <;>
    rw [meaning] at opens
  · contradiction
  · obtain rfl := Lead.opening.inj opens
    refine ⟨by simp [Pending.inner], fun scalar fits => ?_⟩
    have first : scalar / 64 = leading := (fits_inner_iff _).mp fits
    obtain ⟨character, rfl⟩ := exists_toNat (by omega : scalar < 0xD800 ∨ _)
    exact ⟨character, rfl, by rw [encode_two (by omega) (by omega), first]; rfl⟩
  · obtain rfl := Lead.opening.inj opens
    refine ⟨by interval_cases leading <;> decide, fun scalar fits => ?_⟩
    obtain ⟨first, large, valid⟩ := (fits_three_iff small).mp fits
    obtain ⟨character, rfl⟩ := exists_toNat (by omega : scalar < 0xD800 ∨ _)
    exact ⟨character, rfl, by rw [encode_three large (by omega), first]; rfl⟩
  · obtain rfl := Lead.opening.inj opens
    refine ⟨by interval_cases leading <;> decide, fun scalar fits => ?_⟩
    obtain ⟨first, large, valid⟩ := (fits_four_iff small).mp fits
    obtain ⟨character, rfl⟩ := exists_toNat (by omega : _ ∨ 0xDFFF < scalar ∧ scalar < 0x110000)
    exact ⟨character, rfl, by rw [encode_four large, first]; rfl⟩
  · contradiction

end Leads

section Steps

variable {pending : Pending} {front : List UInt8} {byte : UInt8} {further scalar : ℕ}
  {text : String}

/-- A byte continues a character in progress. -/
def Pending.Admits (pending : Pending) (byte : UInt8) : Prop :=
  pending.lowest ≤ byte ∧ byte ≤ pending.highest

/-- The characters that fit behind one byte more are those that fit before and have this byte. -/
theorem fits_next_iff (more : pending.further = further + 1)
    (bounds : 0x80 ≤ pending.lowest.toNat ∧ pending.highest.toNat ≤ 0xBF)
    (admitted : pending.Admits byte) :
    (Pending.inner (64 * pending.scalar + (byte.toNat - 0x80)) further).Fits scalar ↔
      pending.Fits scalar ∧ byte.toNat = scalar / 64 ^ (further + 1) % 64 + 0x80 := by
  have shift : scalar / 64 ^ (further + 1 + 1) = scalar / 64 ^ (further + 1) / 64 := by
    rw [pow_succ, Nat.div_div_eq_div_mul]
  have above := UInt8.le_iff_toNat_le.mp admitted.1
  have below := UInt8.le_iff_toNat_le.mp admitted.2
  rw [fits_inner_iff, Pending.Fits, more, shift]
  generalize scalar / 64 ^ (further + 1) = upper
  omega

/-- A byte that continues a character whose last byte it is not leaves a character in progress. -/
theorem step_further (more : pending.further = further + 1) (admitted : pending.Admits byte) :
    step ⟨text, some pending⟩ byte =
      ⟨text, some (.inner (64 * pending.scalar + (byte.toNat - 0x80)) further)⟩ := by
  unfold Pending.Admits at admitted
  simp [step, admitted, more, Pending.inner]

/-- A byte that continues a character whose last byte it is completes it. -/
theorem step_last (last : pending.further = 0) (admitted : pending.Admits byte) :
    step ⟨text, some pending⟩ byte =
      ⟨text.push (Char.ofNat (64 * pending.scalar + (byte.toNat - 0x80))), none⟩ := by
  unfold Pending.Admits at admitted
  simp [step, admitted, last]

/-- A byte that does not continue a character in progress turns it into a replacement character and
begins a character itself. -/
theorem step_outside (outside : ¬ pending.Admits byte) :
    step ⟨text, some pending⟩ byte = step ⟨text.push replacement, none⟩ byte :=
  if_neg outside

/-- Another byte is read of a character in progress. -/
theorem Pending.Follows.next (follows : pending.Follows front)
    (more : pending.further = further + 1) (admitted : pending.Admits byte) :
    (Pending.inner (64 * pending.scalar + (byte.toNat - 0x80)) further).Follows
      (front ++ [byte]) := by
  refine ⟨by simp [Pending.inner], fun scalar fits => ?_⟩
  rw [fits_next_iff more follows.bounds admitted] at fits
  obtain ⟨character, same, spelled⟩ := follows.spells scalar fits.1
  refine ⟨character, same, ?_⟩
  have first : UInt8.ofNat (scalar / 64 ^ (further + 1) % 64 + 0x80) = byte := by
    rw [← fits.2, UInt8.ofNat_toNat]
  rw [spelled, more, continuation, first, List.append_assoc]
  rfl

/-- The next byte of a character that fits continues the one in progress. -/
theorem Pending.Fits.admits (fits : pending.Fits scalar)
    (value : byte.toNat = scalar / 64 ^ pending.further % 64 + 0x80) : pending.Admits byte := by
  simp only [Pending.Admits, UInt8.le_iff_toNat_le, value]
  exact fits.2

/-- The bytes behind the first one are known one after the other. -/
theorem eq_continuation_iff {bytes : List UInt8} :
    byte :: bytes = continuation (further + 1) scalar ↔
      byte.toNat = scalar / 64 ^ further % 64 + 0x80 ∧ bytes = continuation further scalar := by
  have value : (UInt8.ofNat (scalar / 64 ^ further % 64 + 0x80)).toNat =
      scalar / 64 ^ further % 64 + 0x80 := by
    rw [UInt8.toNat_ofNat']
    omega
  rw [continuation, List.cons.injEq, ← UInt8.toNat_inj, value]

/-- Some character fits a character in progress and any byte that continues it. -/
theorem Pending.Follows.exists_fits (follows : pending.Follows front)
    (admitted : pending.Admits byte) :
    ∃ scalar, pending.Fits scalar ∧
      byte.toNat = scalar / 64 ^ pending.further % 64 + 0x80 := by
  have above := UInt8.le_iff_toNat_le.mp admitted.1
  have below := UInt8.le_iff_toNat_le.mp admitted.2
  have bounds := follows.bounds
  have upper : ∀ read, read * 64 ^ pending.further / 64 ^ pending.further = read :=
    fun read => Nat.mul_div_cancel read (by positivity)
  refine ⟨(64 * pending.scalar + (byte.toNat - 0x80)) * 64 ^ pending.further, ?_, ?_⟩
  · rw [Pending.Fits, pow_succ, ← Nat.div_div_eq_div_mul, upper]
    omega
  · rw [upper]
    omega

/-- So the bytes of a character in progress and any byte that continues it begin a character. -/
theorem Pending.Follows.exists_prefix (follows : pending.Follows front)
    (admitted : pending.Admits byte) :
    ∃ character, front ++ [byte] <+: utf8EncodeChar character := by
  obtain ⟨scalar, fits, value⟩ := follows.exists_fits admitted
  obtain ⟨character, -, spelled⟩ := follows.spells scalar fits
  refine ⟨character, continuation pending.further scalar, ?_⟩
  rw [spelled, ← eq_continuation_iff.mpr ⟨value, rfl⟩, List.append_assoc]
  rfl

end Steps

section Reading

variable {character : Char} {front back : List UInt8}

/-- Behind some bytes of a character but not all of them the reader has it in progress, and the
bytes that are missing are the ones it waits for. -/
theorem foldl_step_of_append (text : String) (spelled : utf8EncodeChar character = front ++ back)
    (begun : front ≠ []) (unfinished : back ≠ []) :
    ∃ pending : Pending, front.foldl step ⟨text, none⟩ = ⟨text, some pending⟩ ∧
      pending.Follows front ∧ pending.Fits character.toNat ∧
      back = continuation (pending.further + 1) character.toNat := by
  -- The bytes are read from the left, so the induction is on their end.
  induction front using List.reverseRecOn generalizing back with
  | nil => exact absurd rfl begun
  | append_singleton front byte ih =>
    by_cases first : front = []
    · subst first
      have large : 0x80 ≤ character.toNat := by
        by_contra small
        rw [encode_one (by omega)] at spelled
        exact unfinished (List.cons.inj spelled).2.symm
      obtain ⟨leading, pending, opens, fits, encoded⟩ := exists_lead large
      obtain ⟨rfl, rfl⟩ := List.cons.inj (encoded.symm.trans spelled)
      refine ⟨pending, ?_, follows_of_lead opens, fits, rfl⟩
      simp [step, begin, opens]
    · rw [List.append_assoc] at spelled
      obtain ⟨pending, read, follows, fits, rest⟩ := ih spelled first (List.cons_ne_nil _ _)
      obtain ⟨value, rest⟩ := eq_continuation_iff.mp rest
      have admitted := fits.admits value
      cases more : pending.further with
      | zero =>
        rw [more] at rest
        exact absurd rest unfinished
      | succ further =>
        rw [more] at value rest
        refine ⟨_, ?_, follows.next more admitted, ?_, rest⟩
        · rw [List.foldl_append, read, List.foldl_cons, List.foldl_nil,
            step_further more admitted]
        · exact (fits_next_iff more follows.bounds admitted).mpr
            ⟨fits, value⟩

/-- The reader takes a character from its bytes. -/
theorem foldl_step_encode (character : Char) (text : String) :
    (utf8EncodeChar character).foldl step ⟨text, none⟩ = ⟨text.push character, none⟩ := by
  by_cases small : character.toNat < 0x80
  · rw [encode_one small]
    simp [step, begin, lead_one small]
  · obtain ⟨leading, opening, -, -, encoded⟩ := exists_lead (Nat.le_of_not_lt small)
    obtain empty | ⟨front, byte, spelled⟩ := List.eq_nil_or_concat' (utf8EncodeChar character)
    · exact absurd (encoded.symm.trans empty) (List.cons_ne_nil _ _)
    have begun : front ≠ [] := by
      rintro rfl
      exact absurd (List.cons.inj (encoded.symm.trans spelled)).2 (List.cons_ne_nil _ _)
    obtain ⟨pending, read, follows, fits, rest⟩ :=
      foldl_step_of_append text spelled begun (List.cons_ne_nil _ _)
    obtain ⟨value, rest⟩ := eq_continuation_iff.mp rest
    have admitted := fits.admits value
    have last : pending.further = 0 := by
      cases more : pending.further with
      | zero => rfl
      | succ further =>
        rw [more] at rest
        exact absurd rest.symm (List.cons_ne_nil _ _)
    have upper := fits.1
    rw [last, pow_zero, Nat.div_one] at value
    rw [last, Nat.zero_add, pow_one] at upper
    have scalar : 64 * pending.scalar + (byte.toNat - 0x80) = character.toNat := by omega
    rw [spelled, List.foldl_append, read, List.foldl_cons, List.foldl_nil, step_last last admitted,
      scalar, Char.ofNat_toNat]

end Reading

end Utf8

end LuaChunk
