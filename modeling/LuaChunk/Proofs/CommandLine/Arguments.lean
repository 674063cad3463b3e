import LuaChunk.Proofs.CommandLine.Options
import Mathlib.Data.List.TakeWhile

/-!
# The arguments of a call

The arguments of a call are a row of file names and options in any order, perhaps with two hyphens
behind it and file names behind those (`Call`). Such arguments are read as the settings that the
options denote and the files in their order, and no other arguments are read
(`Invocation.parse_eq_some_iff`).
-/
namespace LuaChunk

/-- An argument that has an equals sign is split at the first one. -/
theorem splitArgument_joined {name : String} (value : String) (plain : '=' ∉ name.toList) :
    splitArgument (name ++ "=" ++ value) = (name, some value) := by
  have characters : (name ++ "=" ++ value).toList = name.toList ++ '=' :: value.toList := by
    simp
  have front : (name.toList ++ '=' :: value.toList).takeWhile (· ≠ '=') = name.toList := by
    rw [List.takeWhile_append_of_pos, List.takeWhile_cons_of_neg (by simp), List.append_nil]
    intro character member
    exact decide_eq_true fun same => plain (same ▸ member)
  unfold splitArgument
  simp only [characters, front, List.drop_left, String.ofList_toList]

/-- An argument without an equals sign stays whole. -/
theorem splitArgument_whole {argument : String} (plain : '=' ∉ argument.toList) :
    splitArgument argument = (argument, none) := by
  have front : argument.toList.takeWhile (· ≠ '=') = argument.toList := by
    rw [List.takeWhile_eq_self_iff]
    intro character member
    exact decide_eq_true fun same => plain (same ▸ member)
  unfold splitArgument
  simp only [front, List.drop_length]

/-- An argument stays whole or is split at an equals sign. -/
theorem splitArgument_cases (argument : String) :
    splitArgument argument = (argument, none) ∨
      ∃ name value : String, argument = name ++ "=" ++ value ∧
        splitArgument argument = (name, some value) := by
  by_cases sign : '=' ∈ argument.toList
  · obtain ⟨front, back, parts, first⟩ := List.eq_append_cons_of_mem sign
    have together : argument = String.ofList front ++ "=" ++ String.ofList back := by
      apply String.toList_inj.mp
      simp [parts]
    refine .inr ⟨_, _, together, ?_⟩
    rw [together]
    exact splitArgument_joined _ (by simpa using first)
  · exact .inl (splitArgument_whole sign)

/-- An argument in front of two hyphens that is an option with a number or the beginning of one. -/
structure TakesNumber (argument : String) : Prop where
  /-- It is no file. -/
  notFile : Invocation.isFile argument = false
  /-- It is not the mark in front of the last files. -/
  notEnd : argument ≠ "--"
  /-- It is not the option for the tree view. -/
  notTree : argument ≠ "--tree"
  /-- It is not the option against bytes after the main function. -/
  notStrict : argument ≠ "--strict"

/-- The spelling of a limit takes a number. -/
theorem LimitOption.takesNumber_spelling (option : LimitOption) : TakesNumber option.spelling := by
  cases option <;> exact ⟨by decide, by decide, by decide, by decide⟩

/-- The spelling of a limit has no equals sign. -/
theorem LimitOption.notMem_spelling (option : LimitOption) : '=' ∉ option.spelling.toList := by
  cases option <;> decide

/-- The spelling of a limit with a number behind an equals sign takes a number. -/
theorem LimitOption.takesNumber_joined (option : LimitOption) (value : String) :
    TakesNumber (option.spelling ++ "=" ++ value) := by
  have differs : ∀ other : String, '=' ∉ other.toList →
      option.spelling ++ "=" ++ value ≠ other := by
    rintro _ without rfl
    simp at without
  have file : Invocation.isFile (option.spelling ++ "=" ++ value) = false := by
    cases option <;> simp [Invocation.isFile, LimitOption.spelling]
  exact ⟨file, differs _ (by decide), differs _ (by decide), differs _ (by decide)⟩

/-- Give a limit by the texts of its option and of its number. -/
def Settings.giveText? (settings : Settings) (spelling value : String) : Option Settings :=
  (LimitOption.ofSpelling? spelling).bind fun option =>
    (limitOfText? value).bind fun limit => settings.withLimit? option limit

/-- An option with a number is given by its texts. -/
theorem Settings.giveText?_text (settings : Settings) (option : LimitOption) (number : Numeral) :
    settings.giveText? option.spelling number.text = settings.withLimit? option number.value := by
  have spelled := (LimitOption.ofSpelling?_eq_some_iff option.spelling option).mpr rfl
  have denoted := (limitOfText?_eq_some_iff number.text number.value).mpr ⟨number, rfl, rfl⟩
  rw [giveText?, spelled, denoted]
  rfl

/-- Texts that give a limit are those of an option with a number. -/
theorem Settings.exists_of_giveText? {settings : Settings} {spelling value : String}
    {given : Settings} (gives : settings.giveText? spelling value = some given) :
    ∃ (option : LimitOption) (number : Numeral),
      option.spelling = spelling ∧ number.text = value := by
  obtain ⟨option, spelled, gives⟩ := Option.bind_eq_some_iff.mp gives
  obtain ⟨limit, denoted, -⟩ := Option.bind_eq_some_iff.mp gives
  obtain ⟨number, text, -⟩ := (limitOfText?_eq_some_iff value limit).mp denoted
  exact ⟨option, number, (LimitOption.ofSpelling?_eq_some_iff spelling option).mp spelled, text⟩

namespace Invocation

variable (settings : Settings) (files : List String)

/-- A file is taken. -/
theorem parseFrom_file {file : String} (plain : isFile file = true) (further : List String) :
    parseFrom settings files (file :: further) = parseFrom settings (file :: files) further := by
  rw [parseFrom, if_pos plain]

/-- Behind two hyphens there are only files. -/
theorem parseFrom_end (further : List String) :
    parseFrom settings files ("--" :: further) = finish settings (further.reverse ++ files) := by
  rw [parseFrom, if_neg (by decide), if_pos rfl]

/-- An option whose number follows an equals sign is taken with the number. -/
theorem parseFrom_joined {argument spelling value : String} (takes : TakesNumber argument)
    (parts : splitArgument argument = (spelling, some value)) (further : List String) :
    parseFrom settings files (argument :: further) =
      (settings.giveText? spelling value).bind fun settings =>
        parseFrom settings files further := by
  rw [parseFrom, if_neg (by simp [takes.notFile]), if_neg takes.notEnd, if_neg takes.notTree,
    if_neg takes.notStrict, parts]
  simp only [Settings.giveText?, Option.bind_eq_bind, Option.bind_assoc]

/-- An option without an equals sign is taken with the next argument as its number. -/
theorem parseFrom_separate {argument spelling : String} (takes : TakesNumber argument)
    (whole : splitArgument argument = (spelling, none)) (value : String) (further : List String) :
    parseFrom settings files (argument :: value :: further) =
      (settings.giveText? spelling value).bind fun settings =>
        parseFrom settings files further := by
  rw [parseFrom, if_neg (by simp [takes.notFile]), if_neg takes.notEnd, if_neg takes.notTree,
    if_neg takes.notStrict, whole]
  simp only [Settings.giveText?, Option.bind_eq_bind, Option.bind_assoc]

/-- An option without an equals sign is not the last argument. -/
theorem parseFrom_last {argument spelling : String} (takes : TakesNumber argument)
    (whole : splitArgument argument = (spelling, none)) :
    parseFrom settings files [argument] = none := by
  rw [parseFrom, if_neg (by simp [takes.notFile]), if_neg takes.notEnd, if_neg takes.notTree,
    if_neg takes.notStrict, whole]

/-- An option is given, and reading goes on behind its arguments. -/
theorem parseFrom_choice (choice : Choice) (further : List String) :
    parseFrom settings files (choice.arguments ++ further) =
      (settings.give? choice).bind fun settings => parseFrom settings files further := by
  cases choice with
  | tree =>
    show parseFrom settings files ("--tree" :: further) = _
    rw [parseFrom, if_neg (by decide), if_neg (by decide), if_pos rfl, Settings.give?]
  | strict =>
    show parseFrom settings files ("--strict" :: further) = _
    rw [parseFrom, if_neg (by decide), if_neg (by decide), if_neg (by decide), if_pos rfl,
      Settings.give?]
  | limit option number joined =>
    rw [Settings.give?, ← Settings.giveText?_text]
    cases joined with
    | true =>
      exact parseFrom_joined settings files (option.takesNumber_joined _)
        (splitArgument_joined _ option.notMem_spelling) further
    | false =>
      exact parseFrom_separate settings files option.takesNumber_spelling
        (splitArgument_whole option.notMem_spelling) number.text further

/-- Arguments that are read begin with a file, with two hyphens, or with an option. -/
theorem begins_of_parseFrom {argument : String} {further : List String} {invocation : Invocation}
    (read : parseFrom settings files (argument :: further) = some invocation) :
    isFile argument = true ∨ argument = "--" ∨
      ∃ (choice : Choice) (rest : List String),
        argument :: further = choice.arguments ++ rest := by
  by_cases file : isFile argument = true
  · exact .inl file
  by_cases last : argument = "--"
  · exact .inr (.inl last)
  refine .inr (.inr ?_)
  by_cases tree : argument = "--tree"
  · exact ⟨.tree, further, by rw [tree]; rfl⟩
  by_cases strict : argument = "--strict"
  · exact ⟨.strict, further, by rw [strict]; rfl⟩
  have takes : TakesNumber argument := ⟨by simpa using file, last, tree, strict⟩
  rcases splitArgument_cases argument with whole | ⟨name, value, together, parts⟩
  · cases further with
    | nil =>
      rw [parseFrom_last settings files takes whole] at read
      contradiction
    | cons value further =>
      rw [parseFrom_separate settings files takes whole] at read
      obtain ⟨_, gives, -⟩ := Option.bind_eq_some_iff.mp read
      obtain ⟨option, number, rfl, rfl⟩ := Settings.exists_of_giveText? gives
      exact ⟨.limit option number false, further, rfl⟩
  · rw [parseFrom_joined settings files takes parts] at read
    obtain ⟨_, gives, -⟩ := Option.bind_eq_some_iff.mp read
    obtain ⟨option, number, rfl, rfl⟩ := Settings.exists_of_giveText? gives
    exact ⟨.limit option number true, further, by rw [together]; rfl⟩

end Invocation

/-- A file or an option where options are still possible. -/
inductive Token where
  /-- A file, whose name does not look like an option. -/
  | file (name : String) (plain : Invocation.isFile name = true)
  /-- An option. -/
  | option (choice : Choice)
  deriving DecidableEq

namespace Token

/-- The arguments of a file or of an option. -/
def arguments : Token → List String
  | file name _ => [name]
  | option choice => choice.arguments

/-- The name, if it is a file. -/
def file? : Token → Option String
  | file name _ => some name
  | option _ => none

/-- The option, if it is one. -/
def choice? : Token → Option Choice
  | file _ _ => none
  | option choice => some choice

end Token

/-- The files of a row. -/
def filesOf (tokens : List Token) : List String := tokens.filterMap Token.file?

/-- The options of a row. -/
def choicesOf (tokens : List Token) : List Choice := tokens.filterMap Token.choice?

section Rows

variable (name : String) (plain : Invocation.isFile name = true) (choice : Choice)
  (tokens : List Token)

@[simp] theorem filesOf_file : filesOf (.file name plain :: tokens) = name :: filesOf tokens := rfl

@[simp] theorem filesOf_option : filesOf (.option choice :: tokens) = filesOf tokens := rfl

@[simp] theorem choicesOf_file : choicesOf (.file name plain :: tokens) = choicesOf tokens := rfl

@[simp] theorem choicesOf_option :
    choicesOf (.option choice :: tokens) = choice :: choicesOf tokens := rfl

end Rows

/-- The files and options of a call of the program. -/
structure Call where
  /-- The files and options in the order in which they are given. -/
  tokens : List Token
  /-- The files behind two hyphens, if there are two hyphens. -/
  last : Option (List String)
  /-- No option is given twice. -/
  once : Once (choicesOf tokens)
  /-- There is a file. -/
  someFile : filesOf tokens ++ last.getD [] ≠ []

/-- The arguments behind the options: two hyphens and the last files. -/
def closing : Option (List String) → List String
  | none => []
  | some files => "--" :: files

namespace Call

/-- The options in the order in which they are given. -/
def choices (call : Call) : List Choice := choicesOf call.tokens

/-- The files in the order in which they are given. -/
def files (call : Call) : List String := filesOf call.tokens ++ call.last.getD []

/-- The arguments of the program. -/
def arguments (call : Call) : List String :=
  call.tokens.flatMap Token.arguments ++ closing call.last

end Call

namespace Invocation

/-- What is behind the options is read as the last files. -/
theorem parseFrom_closing (settings : Settings) (files : List String)
    (last : Option (List String)) :
    parseFrom settings files (closing last) =
      finish settings ((last.getD []).reverse ++ files) := by
  cases last with
  | none => rfl
  | some further => exact parseFrom_end settings files further

/-- A row of files and options is read: the options are given and the files are taken. -/
theorem parseFrom_tokens (before : List Choice) (files : List String) (tokens : List Token)
    (rest : List String) (once : Once ((choicesOf tokens).reverse ++ before)) :
    parseFrom (.ofChoices before) files (tokens.flatMap Token.arguments ++ rest) =
      parseFrom (.ofChoices ((choicesOf tokens).reverse ++ before))
        ((filesOf tokens).reverse ++ files) rest := by
  induction tokens generalizing before files with
  | nil => rfl
  | cons token tokens ih =>
    rw [List.flatMap_cons, List.append_assoc]
    cases token with
    | file name plain =>
      rw [Token.arguments, List.singleton_append, parseFrom_file _ _ plain, ih before _ once]
      simp
    | option choice =>
      rw [choicesOf_option, List.reverse_cons, List.append_assoc, List.singleton_append] at once ⊢
      have later : Once (choice :: before) :=
        once.sublist ((List.sublist_append_right _ _).map Choice.name)
      have new : choice.name ∉ before.map Choice.name := (List.nodup_cons.mp later).1
      rw [Token.arguments, parseFrom_choice, Settings.give?_ofChoices, if_neg new,
        Option.bind_some, ih (choice :: before) _ once, filesOf_option]

/-- The arguments of a call are read as its files and as the settings that its options denote. -/
theorem parse_arguments (call : Call) :
    parse call.arguments = some ⟨.ofChoices call.choices, call.files⟩ := by
  have reordered : call.choices.Perm call.choices.reverse := (List.reverse_perm _).symm
  have once : Once (call.choices.reverse ++ []) := by
    rw [List.append_nil]
    exact (reordered.map Choice.name).nodup_iff.mp call.once
  have settings : Settings.ofChoices (call.choices.reverse ++ []) = .ofChoices call.choices := by
    rw [List.append_nil]
    exact (Settings.ofChoices_perm call.once reordered).symm
  have files : (call.last.getD []).reverse ++ ((filesOf call.tokens).reverse ++ []) =
      call.files.reverse := by
    simp [Call.files]
  have someFile : call.files ≠ [] := call.someFile
  calc parse call.arguments
      = finish (.ofChoices (call.choices.reverse ++ []))
          ((call.last.getD []).reverse ++ ((filesOf call.tokens).reverse ++ [])) := by
        rw [Call.arguments, ← parseFrom_closing]
        exact parseFrom_tokens [] [] call.tokens _ once
    _ = finish (.ofChoices call.choices) call.files.reverse := by rw [files, settings]
    _ = some ⟨.ofChoices call.choices, call.files⟩ := by
        rw [finish, if_neg (by simpa using someFile), List.reverse_reverse]

/-- The arguments form a row of files and options that goes on after some options and files, which
are given in reverse order. -/
def Continues (before : List Choice) (files arguments : List String) : Prop :=
  ∃ (tokens : List Token) (last : Option (List String)),
    tokens.flatMap Token.arguments ++ closing last = arguments ∧
      Once ((choicesOf tokens).reverse ++ before) ∧
      files.reverse ++ filesOf tokens ++ last.getD [] ≠ []

/-- A row that goes on after a file begins with the file. -/
theorem Continues.file {before : List Choice} {files arguments : List String} {name : String}
    (plain : isFile name = true) (row : Continues before (name :: files) arguments) :
    Continues before files (name :: arguments) := by
  obtain ⟨tokens, last, rfl, once, someFile⟩ := row
  refine ⟨.file name plain :: tokens, last, rfl, once, ?_⟩
  simp

/-- A row that goes on after an option begins with the option. -/
theorem Continues.option {before : List Choice} {files arguments : List String} {choice : Choice}
    (row : Continues (choice :: before) files arguments) :
    Continues before files (choice.arguments ++ arguments) := by
  obtain ⟨tokens, last, rfl, once, someFile⟩ := row
  refine ⟨.option choice :: tokens, last, ?_, ?_, someFile⟩
  · rw [List.flatMap_cons, List.append_assoc, Token.arguments]
  · simpa using once

/-- What is read behind the options are the last files. -/
theorem continues_closing {settings : Settings} {before : List Choice} (once : Once before)
    {files : List String} (last : Option (List String)) {invocation : Invocation}
    (read : parseFrom settings files (closing last) = some invocation) :
    Continues before files (closing last) := by
  refine ⟨[], last, rfl, once, ?_⟩
  intro empty
  obtain ⟨earlier, later⟩ := List.append_eq_nil_iff.mp empty
  have noFiles : (last.getD []).reverse ++ files = [] := by simp_all [filesOf]
  rw [parseFrom_closing, noFiles] at read
  contradiction

/-- Arguments that are read are a row of files and options. -/
theorem continues_of_parseFrom {before : List Choice} (once : Once before)
    {files arguments : List String} {invocation : Invocation}
    (read : parseFrom (.ofChoices before) files arguments = some invocation) :
    Continues before files arguments := by
  -- An option takes one argument or two, so the induction is on their number.
  induction count : arguments.length using Nat.strongRecOn generalizing before files arguments with
  | ind size ih =>
    cases arguments with
    | nil => exact continues_closing once none read
    | cons argument further =>
      rw [List.length_cons] at count
      rcases begins_of_parseFrom _ _ read with plain | rfl | ⟨choice, rest, parts⟩
      · rw [parseFrom_file _ _ plain] at read
        exact .file plain (ih further.length (by omega) once read rfl)
      · exact continues_closing once (some further) read
      · rw [parts, parseFrom_choice, Settings.give?_ofChoices] at read
        split at read
        · contradiction
        · next new =>
          have shorter : rest.length < size := by
            have lengths := congrArg List.length parts
            have taken := choice.arguments_length_pos
            rw [List.length_cons, List.length_append] at lengths
            omega
          have given : Once (choice :: before) := List.nodup_cons.mpr ⟨new, once⟩
          rw [parts]
          exact .option (ih rest.length shorter given read rfl)

/-- Arguments are read exactly if they are those of a call, and then as its files and as the
settings that its options denote. -/
theorem parse_eq_some_iff (arguments : List String) (invocation : Invocation) :
    parse arguments = some invocation ↔
      ∃ call : Call, call.arguments = arguments ∧
        invocation = ⟨.ofChoices call.choices, call.files⟩ := by
  constructor
  · intro read
    have unused : Once [] := List.nodup_nil
    obtain ⟨tokens, last, rfl, once, someFile⟩ := continues_of_parseFrom unused read
    rw [List.append_nil] at once
    have reordered : (choicesOf tokens).reverse.Perm (choicesOf tokens) := List.reverse_perm _
    let call : Call :=
      ⟨tokens, last, (reordered.map Choice.name).nodup_iff.mp once, someFile⟩
    have same := (parse_arguments call).symm.trans read
    exact ⟨call, rfl, (Option.some.inj same).symm⟩
  · rintro ⟨call, rfl, rfl⟩
    exact parse_arguments call

end Invocation

end LuaChunk
