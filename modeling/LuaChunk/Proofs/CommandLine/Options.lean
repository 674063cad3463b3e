import LuaChunk.CommandLine
import Mathlib.Data.List.Nodup

/-!
# The options of a call

A limit is given as a decimal numeral, and only numerals have a value (`limitOfText?_eq_some_iff`).
Options are taken one after the other, none of them twice (`Settings.give?_ofChoices`); what they
denote together does not depend on their order (`Settings.ofChoices_perm`).
-/
namespace LuaChunk

/-- A number as an option takes it. -/
structure Numeral where
  /-- Whether there is a plus sign in front. -/
  plus : Bool
  /-- The digits. -/
  digits : List Char
  /-- There is a digit. -/
  nonempty : digits ≠ []
  /-- Nothing but decimal digits occurs. -/
  decimal : digits.all Char.isDigit = true
  /-- The value is that of a word of 64 bits. -/
  bounded : Nat.ofDigitChars 10 digits 0 < Nat.pow 2 64
  deriving DecidableEq

namespace Numeral

/-- The number that the digits denote. -/
def value (numeral : Numeral) : Nat := Nat.ofDigitChars 10 numeral.digits 0

/-- The characters of the text. -/
def characters (numeral : Numeral) : List Char :=
  if numeral.plus then '+' :: numeral.digits else numeral.digits

/-- The text as it stands in an argument. -/
def text (numeral : Numeral) : String := String.ofList numeral.characters

end Numeral

/-- Digits, and only digits, have a value. -/
theorem decimalFrom?_eq (value : Nat) (characters : List Char) :
    decimalFrom? value characters =
      if characters.all Char.isDigit then
        some (Nat.ofDigitChars 10 characters value)
      else none := by
  induction characters generalizing value with
  | nil => rfl
  | cons character further ih =>
    by_cases digit : character.isDigit = true
    · simp only [decimalFrom?, ih, List.all_cons, digit, Bool.true_and]
      rfl
    · simp [decimalFrom?, digit]

/-- The digits of a number are those behind a plus sign, if there is one. -/
def withoutSign : List Char → List Char
  | '+' :: digits => digits
  | digits => digits

/-- A numeral, without its plus sign, is its digits. -/
theorem Numeral.withoutSign_characters (numeral : Numeral) :
    withoutSign numeral.characters = numeral.digits := by
  obtain ⟨plus, digits, nonempty, decimal, bounded⟩ := numeral
  cases plus with
  | true => rfl
  | false =>
    show withoutSign digits = digits
    cases digits with
    | nil => rfl
    | cons first further =>
      have digit : first.isDigit = true := List.all_eq_true.mp decimal first List.mem_cons_self
      unfold withoutSign
      split
      · next signed => exact absurd digit (by rw [(List.cons.inj signed).1]; decide)
      · rfl

/-- Digits that stand behind a plus sign, or on their own, are those of a numeral. -/
theorem Numeral.exists_characters (characters : List Char) (nonempty : withoutSign characters ≠ [])
    (decimal : (withoutSign characters).all Char.isDigit = true)
    (bounded : Nat.ofDigitChars 10 (withoutSign characters) 0 < Nat.pow 2 64) :
    ∃ numeral : Numeral, numeral.characters = characters ∧
      numeral.value = Nat.ofDigitChars 10 (withoutSign characters) 0 := by
  have sign : characters = '+' :: withoutSign characters ∨ characters = withoutSign characters := by
    unfold withoutSign
    split
    · exact .inl rfl
    · exact .inr rfl
  cases sign with
  | inl signed => exact ⟨⟨true, _, nonempty, decimal, bounded⟩, signed.symm, rfl⟩
  | inr plain => exact ⟨⟨false, _, nonempty, decimal, bounded⟩, plain.symm, rfl⟩

/-- The texts that have a value are the numerals. -/
theorem limitOfText?_eq_some_iff (text : String) (value : Nat) :
    limitOfText? text = some value ↔
      ∃ numeral : Numeral, numeral.text = text ∧ numeral.value = value := by
  have unfolded : limitOfText? text =
      if (withoutSign text.toList).isEmpty then none
      else (decimalFrom? 0 (withoutSign text.toList)).filter (· < Nat.pow 2 64) := rfl
  rw [unfolded, decimalFrom?_eq]
  constructor
  · intro found
    split at found
    · contradiction
    · next nonempty =>
      obtain ⟨digits, bounded⟩ := Option.filter_eq_some_iff.mp found
      split at digits
      · next decimal =>
        cases digits
        obtain ⟨numeral, same, denoted⟩ := Numeral.exists_characters text.toList
          (by simpa using nonempty) decimal (of_decide_eq_true bounded)
        exact ⟨numeral, by rw [Numeral.text, same, String.ofList_toList], denoted⟩
      · contradiction
  · rintro ⟨numeral, rfl, rfl⟩
    rw [Numeral.text, String.toList_ofList, numeral.withoutSign_characters, if_pos numeral.decimal,
      if_neg (by simpa using numeral.nonempty)]
    exact Option.filter_eq_some_iff.mpr ⟨rfl, decide_eq_true numeral.bounded⟩

/-- An option as it is given in a call. -/
inductive Choice where
  /-- The tree view instead of the listing. -/
  | tree
  /-- No bytes after the main function. -/
  | strict
  /-- A limit, with its number behind an equals sign or in an argument of its own. -/
  | limit (option : LimitOption) (number : Numeral) (joined : Bool)
  deriving DecidableEq

namespace Choice

/-- The spelling of the option. -/
def name : Choice → String
  | tree => "--tree"
  | strict => "--strict"
  | limit option _ _ => option.spelling

/-- The option in one argument or in two. -/
def arguments : Choice → List String
  | tree => ["--tree"]
  | strict => ["--strict"]
  | limit option number joined =>
    if joined then [option.spelling ++ "=" ++ number.text] else [option.spelling, number.text]

/-- An option has an argument. -/
theorem arguments_length_pos (choice : Choice) : 0 < choice.arguments.length := by
  cases choice with
  | tree => decide
  | strict => decide
  | limit option number joined => cases joined <;> exact Nat.succ_pos _

/-- The number that is given for a limit, if it is given here. -/
def limit? (wanted : LimitOption) : Choice → Option Nat
  | limit option number _ => if option = wanted then some number.value else none
  | _ => none

end Choice

/-- No option is given twice. -/
def Once (choices : List Choice) : Prop := (choices.map Choice.name).Nodup

instance decidableOnce (choices : List Choice) : Decidable (Once choices) :=
  inferInstanceAs (Decidable (choices.map Choice.name).Nodup)

/-- The number that is given for a limit by one of several options. -/
def givenLimit? (choices : List Choice) (wanted : LimitOption) : Option Nat :=
  choices.findSome? (Choice.limit? wanted)

namespace Settings

/-- The settings that options denote together. -/
def ofChoices (choices : List Choice) : Settings where
  tree := .tree ∈ choices
  strict := .strict ∈ choices
  depth := givenLimit? choices .depth
  sequence := givenLimit? choices .sequence
  string := givenLimit? choices .string

/-- Give one more option. An option is given at most once. -/
def give? (settings : Settings) : Choice → Option Settings
  | .tree => settings.withTree?
  | .strict => settings.withStrict?
  | .limit option number _ => settings.withLimit? option number.value

end Settings

/-- An option that takes a number is found by its spelling. -/
theorem LimitOption.ofSpelling?_eq_some_iff (spelling : String) (option : LimitOption) :
    ofSpelling? spelling = some option ↔ option.spelling = spelling := by
  constructor
  · intro found
    have holds : decide (option.spelling = spelling) = true :=
      List.find?_some (p := fun option : LimitOption => option.spelling = spelling) found
    exact of_decide_eq_true holds
  · rintro rfl
    cases option <;> decide

/-- The spelling of an option is the same as that of another one only if they are the same. -/
theorem LimitOption.spelling_inj {left right : LimitOption} :
    left.spelling = right.spelling ↔ left = right := by
  cases left <;> cases right <;> decide

/-- The spelling of a limit is none of the other arguments with hyphens. -/
theorem LimitOption.spelling_ne (option : LimitOption) :
    option.spelling ≠ "--" ∧ option.spelling ≠ "--tree" ∧ option.spelling ≠ "--strict" := by
  cases option <;> decide

/-- A limit is given by options with its spelling. -/
theorem Choice.name_of_limit? {wanted : LimitOption} {choice : Choice} {value : Nat}
    (given : choice.limit? wanted = some value) : choice.name = wanted.spelling := by
  cases choice with
  | tree => contradiction
  | strict => contradiction
  | limit option number joined =>
    by_cases same : option = wanted
    · rw [same, name]
    · rw [limit?, if_neg same] at given
      contradiction

/-- The first option that gives a limit decides. -/
@[simp] theorem givenLimit?_cons (choice : Choice) (choices : List Choice)
    (wanted : LimitOption) :
    givenLimit? (choice :: choices) wanted =
      (choice.limit? wanted).or (givenLimit? choices wanted) := by
  cases given : choice.limit? wanted <;> simp [givenLimit?, given]

/-- A limit is given exactly if an option with its spelling is. -/
theorem givenLimit?_isSome_iff (choices : List Choice) (wanted : LimitOption) :
    (givenLimit? choices wanted).isSome = true ↔
      wanted.spelling ∈ choices.map Choice.name := by
  rw [givenLimit?, List.findSome?_isSome_iff, List.mem_map]
  constructor
  · rintro ⟨choice, member, given⟩
    obtain ⟨value, given⟩ := Option.isSome_iff_exists.mp given
    exact ⟨choice, member, Choice.name_of_limit? given⟩
  · rintro ⟨choice, member, named⟩
    refine ⟨choice, member, ?_⟩
    cases choice with
    | tree => exact absurd named.symm wanted.spelling_ne.2.1
    | strict => exact absurd named.symm wanted.spelling_ne.2.2
    | limit option number joined =>
      rw [Choice.limit?, if_pos (LimitOption.spelling_inj.mp named)]
      rfl

/-- A flag is given exactly if its spelling is. -/
theorem flag_mem_iff_name_mem (choices : List Choice) {flag : Choice}
    (simple : flag = .tree ∨ flag = .strict) :
    flag ∈ choices ↔ flag.name ∈ choices.map Choice.name := by
  refine ⟨List.mem_map_of_mem, fun named => ?_⟩
  obtain ⟨choice, member, same⟩ := List.mem_map.mp named
  have equal : choice = flag := by
    rcases simple with rfl | rfl
    · cases choice with
      | tree => rfl
      | strict => exact absurd same (by decide)
      | limit option number joined => exact absurd same option.spelling_ne.2.1
    · cases choice with
      | tree => exact absurd same (by decide)
      | strict => rfl
      | limit option number joined => exact absurd same option.spelling_ne.2.2
  exact equal ▸ member

open Choice in
/-- One more option is taken if it has not been given before, and then it is given, too. -/
theorem Settings.give?_ofChoices (choices : List Choice) (choice : Choice) :
    (ofChoices choices).give? choice =
      if choice.name ∈ choices.map Choice.name then none
      else some (ofChoices (choice :: choices)) := by
  cases choice with
  | tree => simp [give?, withTree?, ofChoices, ← flag_mem_iff_name_mem, Choice.limit?]
  | strict => simp [give?, withStrict?, ofChoices, ← flag_mem_iff_name_mem, Choice.limit?]
  | limit option number joined =>
    have taken : (givenLimit? choices option).isSome = true ↔
        (limit option number joined).name ∈ choices.map name :=
      givenLimit?_isSome_iff choices option
    by_cases given : (givenLimit? choices option).isSome = true
    · rw [if_pos (taken.mp given)]
      cases option <;> exact if_pos given
    · rw [if_neg (mt taken.mpr given)]
      cases option <;> simp [give?, withLimit?, ofChoices, Choice.limit?, given]

/-- Of options that are given once, one with the spelling of a limit gives it. -/
theorem Once.givenLimit?_eq_some_iff {choices : List Choice} (once : Once choices)
    (wanted : LimitOption) (value : Nat) :
    givenLimit? choices wanted = some value ↔
      ∃ choice ∈ choices, choice.limit? wanted = some value := by
  constructor
  · exact List.exists_of_findSome?_eq_some
  · rintro ⟨choice, member, gives⟩
    have given : (givenLimit? choices wanted).isSome = true :=
      List.findSome?_isSome_iff.mpr ⟨choice, member, by rw [gives]; rfl⟩
    obtain ⟨found, same⟩ := Option.isSome_iff_exists.mp given
    obtain ⟨other, inside, first⟩ := List.exists_of_findSome?_eq_some same
    have equal : other = choice := List.inj_on_of_nodup_map once inside member
      ((Choice.name_of_limit? first).trans (Choice.name_of_limit? gives).symm)
    rw [same, ← first, equal, gives]

/-- The order of the options has no influence on the settings. -/
theorem Settings.ofChoices_perm {left right : List Choice} (once : Once left)
    (reordered : left.Perm right) : ofChoices left = ofChoices right := by
  have onceRight : Once right := (reordered.map Choice.name).nodup_iff.mp once
  have limits : ∀ wanted, givenLimit? left wanted = givenLimit? right wanted := by
    intro wanted
    apply Option.ext
    intro value
    rw [once.givenLimit?_eq_some_iff, onceRight.givenLimit?_eq_some_iff]
    simp only [reordered.mem_iff]
  simp only [ofChoices, reordered.mem_iff, limits]

end LuaChunk
