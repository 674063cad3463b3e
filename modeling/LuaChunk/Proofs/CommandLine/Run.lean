import LuaChunk.Proofs.CommandLine.Arguments

/-!
# What a call writes

Every file of a call is treated on its own: it is shown, or a message says what is wrong with it
(`Call.answer`). The outputs, the messages and the exit status of a call are put together from
those of its files (`run_arguments`), so a file more or less changes only its own part, and the
places of the options between the files have no influence. Other arguments are no call
(`run_of_forall_ne`).
-/
namespace LuaChunk

/-- No line is written to a log that is off. -/
theorem logLine_none (severity : Severity) (message : String) :
    logLine none severity message = "" := rfl

/-- Several records leave a log that is off empty. -/
theorem logLines_none (records : List Record) : logLines none records = "" := by
  rw [logLines]
  induction records with
  | nil => rfl
  | cons record records ih => exact ih

namespace Call

/-- The limits that the options of a call set. A limit that is not given is the usual one, and bytes
after the main function are allowed unless they are refused. -/
def policy (call : Call) : Policy where
  maxSequence := (givenLimit? call.choices .sequence).getD Policy.default.maxSequence
  maxString := (givenLimit? call.choices .string).getD Policy.default.maxString
  maxDepth := (givenLimit? call.choices .depth).getD Policy.default.maxDepth
  allowTrailing := Choice.strict ∉ call.choices

/-- What comes of the content of a file: what is shown of it, or what is wrong with it. -/
def answer (call : Call) : Except FileError (List UInt8) → Except String String
  | .error error => .error ("cannot read file: " ++ error.message)
  | .ok bytes =>
    match decode call.policy bytes with
    | .error error => .error error.message
    | .ok main => .ok (if Choice.tree ∈ call.choices then main.tree ++ "\n" else main.listing)

/-- The settings of a call set its limits. -/
theorem policy_ofChoices (call : Call) :
    (Settings.ofChoices call.choices).policy = call.policy := by
  simp [Settings.policy, Settings.ofChoices, policy]

/-- Without a log, a file is shown or there is a message about it. -/
theorem report_eq (call : Call) (file : String) (content : Except FileError (List UInt8)) :
    (Settings.ofChoices call.choices).report none file content =
      match call.answer content with
      | .error message => ⟨"", file ++ ": " ++ message ++ "\n", true⟩
      | .ok piece => ⟨piece, "", false⟩ := by
  cases content with
  | error error =>
    have parts : ": cannot read file: " = ": " ++ "cannot read file: " := by decide
    simp only [Settings.report, answer, logLine_none, parts, String.append_assoc,
      String.empty_append]
  | ok bytes =>
    have decoded : (read call.policy bytes).outcome = decode call.policy bytes := rfl
    simp only [Settings.report, answer, logLine_none, logLines_none, policy_ofChoices, decoded]
    cases decode call.policy bytes with
    | error error => simp
    | ok main => simp [Settings.shown, Settings.ofChoices]

section Account

variable (call : Call) (contents : String → Except FileError (List UInt8))

/-- What is shown of a file, if it is shown. -/
def piece? (file : String) : Option String :=
  match call.answer (contents file) with
  | .error _ => none
  | .ok piece => some piece

/-- The message about a file, if it is not shown. -/
def complaint? (file : String) : Option String :=
  match call.answer (contents file) with
  | .error message => some (file ++ ": " ++ message ++ "\n")
  | .ok _ => none

/-- What is written for files, in their order, and whether one of them is not shown. -/
def account (files : List String) : Outcome where
  output := String.join (files.filterMap (call.piece? contents))
  diagnostics := String.join (files.filterMap (call.complaint? contents))
  status := if files.any fun file => (call.complaint? contents file).isSome then 1 else 0

/-- The files further back are shown behind those in front. -/
theorem account_output_append (front back : List String) :
    (call.account contents (front ++ back)).output =
      (call.account contents front).output ++ (call.account contents back).output := by
  simp [account, String.join_append]

/-- The messages about files further back stand behind those about files in front. -/
theorem account_diagnostics_append (front back : List String) :
    (call.account contents (front ++ back)).diagnostics =
      (call.account contents front).diagnostics ++
        (call.account contents back).diagnostics := by
  simp [account, String.join_append]

/-- A file is shown, or there is a message about it. -/
theorem account_cons (file : String) (files : List String) :
    call.account contents (file :: files) =
      { output := (call.piece? contents file).getD "" ++ (call.account contents files).output
        diagnostics :=
          (call.complaint? contents file).getD "" ++ (call.account contents files).diagnostics
        status :=
          if (call.complaint? contents file).isSome then 1
          else (call.account contents files).status } := by
  cases shown : call.piece? contents file <;> cases message : call.complaint? contents file <;>
    simp [account, shown, message]

/-- It has no influence on the exit status where a file stands. -/
theorem account_status_middle (front back : List String) (file : String) :
    (call.account contents (front ++ file :: back)).status =
      (call.account contents (file :: (front ++ back))).status := by
  simp [account, Bool.or_left_comm]

/-- One more file adds what is written for it. -/
theorem account_concat (files : List String) (file : String) :
    (call.account contents files).add
        ((Settings.ofChoices call.choices).report none file (contents file)) =
      call.account contents (files ++ [file]) := by
  rw [report_eq]
  cases answered : call.answer (contents file) with
  | error message =>
    simp [Outcome.add, account, String.join_append, piece?, complaint?, answered]
  | ok piece =>
    simp [Outcome.add, account, String.join_append, piece?, complaint?, answered]

/-- The files of a call are accounted for one after the other. -/
theorem foldl_add (before files : List String) :
    files.foldl (fun outcome file =>
        outcome.add ((Settings.ofChoices call.choices).report none file (contents file)))
      (call.account contents before) = call.account contents (before ++ files) := by
  induction files generalizing before with
  | nil => rw [List.append_nil, List.foldl_nil]
  | cons file files ih =>
    rw [List.foldl_cons, account_concat, ih, List.append_assoc, List.singleton_append]

end Account

/-- What a call writes: the account of its files, also if the options are given in other places. -/
theorem run_eq_account (contents : String → Except FileError (List UInt8)) {call other : Call}
    (reordered : other.choices.Perm call.choices) :
    run none contents other.arguments = call.account contents other.files := by
  have settings : Settings.ofChoices other.choices = .ofChoices call.choices :=
    Settings.ofChoices_perm other.once reordered
  rw [run, Invocation.parse_arguments, settings]
  exact foldl_add call contents [] other.files

end Call

/-- A call shows its files one after the other, a piece for each file that can be read and decoded
within the limits of the options, and complains about the others; it fails if one of them fails.
A file more or less changes only its own part, and the options may be given in any places. -/
theorem run_arguments (contents : String → Except FileError (List UInt8)) (call : Call) :
    run none contents call.arguments = call.account contents call.files ∧
    (∀ (less : Call) (front back : List String) (file : String),
      less.choices.Perm call.choices → call.files = front ++ file :: back →
      less.files = front ++ back →
        (run none contents call.arguments).output =
            (call.account contents front).output ++ (call.piece? contents file).getD "" ++
              (call.account contents back).output ∧
          (run none contents less.arguments).output =
            (call.account contents front).output ++ (call.account contents back).output ∧
          (run none contents call.arguments).diagnostics =
            (call.account contents front).diagnostics ++
              (call.complaint? contents file).getD "" ++
              (call.account contents back).diagnostics ∧
          (run none contents less.arguments).diagnostics =
            (call.account contents front).diagnostics ++
              (call.account contents back).diagnostics ∧
          (run none contents call.arguments).status =
            if (call.complaint? contents file).isSome then 1
            else (run none contents less.arguments).status) ∧
    ∀ other : Call, other.choices.Perm call.choices → other.files = call.files →
      run none contents other.arguments = run none contents call.arguments := by
  have written := Call.run_eq_account contents (List.Perm.refl call.choices)
  refine ⟨written, ?_, ?_⟩
  · intro less front back file reordered files fewer
    -- Only the outputs depend on the order; for the status the file may as well stand first.
    rw [written, Call.run_eq_account contents reordered, files, fewer,
      Call.account_output_append, Call.account_output_append, Call.account_diagnostics_append,
      Call.account_diagnostics_append, Call.account_status_middle, Call.account_cons,
      Call.account_cons]
    refine ⟨?_, rfl, ?_, rfl, rfl⟩
    · exact String.append_assoc.symm
    · exact String.append_assoc.symm
  · intro other reordered same
    rw [written, Call.run_eq_account contents reordered, same]

/-- A call with a file that is refused and one that cannot be read, the call without the second of
them, and the call with its options in other places. -/
theorem run_arguments_refused :
    let bytes : List UInt8 := Header.standard.bytes ++ 1 :: List.replicate 40 0
    let main : Prototype := ⟨⟨[]⟩, 0, 0, 0, 0, 0, [], [], [], [], ⟨[], [], []⟩⟩
    let contents : String → Except FileError (List UInt8) := fun file =>
      if file = "a" then .ok (bytes ++ [7]) else if file = "b" then .error .missing else .ok bytes
    let refused := "a: 1 trailing byte(s) after the main function at offset 0x4a\n"
    let unread := "b: cannot read file: No such file or directory (os error 2)\n"
    let written := run none contents ["a", "--strict", "b", "--max-depth", "5", "--", "--tree"]
    let fewer := run none contents ["--max-depth", "5", "a", "--strict", "--", "--tree"]
    written = ⟨main.listing, refused ++ unread, 1⟩ ∧
      fewer.output = main.listing ∧ fewer.diagnostics = refused ∧ fewer.status = 1 ∧
      run none contents ["--max-depth", "5", "--strict", "a", "b", "--", "--tree"] = written := by
  intro bytes main contents refused unread written fewer
  let depth : Choice := .limit .depth ⟨false, ['5'], by decide, by decide, by decide⟩ false
  let first : Token := .file "a" (by decide)
  let second : Token := .file "b" (by decide)
  let call : Call :=
    ⟨[first, .option .strict, second, .option depth], some ["--tree"], by decide, by decide⟩
  let less : Call :=
    ⟨[.option depth, first, .option .strict], some ["--tree"], by decide, by decide⟩
  let other : Call :=
    ⟨[.option depth, .option .strict, first, second], some ["--tree"], by decide, by decide⟩
  have account : call.account contents call.files = ⟨main.listing, refused ++ unread, 1⟩ := by
    decide +kernel
  have front : call.account contents ["a"] = ⟨"", refused, 1⟩ := by decide +kernel
  have back : call.account contents ["--tree"] = ⟨main.listing, "", 0⟩ := by decide +kernel
  have failed : (less.account contents less.files).status = 1 := by decide +kernel
  obtain ⟨whole, without, moved⟩ := run_arguments contents call
  obtain ⟨-, output, -, diagnostics, -⟩ :=
    without less ["a"] ["--tree"] "b" (List.Perm.swap _ _ _) rfl rfl
  rw [front, back] at output diagnostics
  have status : fewer.status = 1 :=
    (congrArg Outcome.status (run_arguments contents less).1).trans failed
  exact ⟨whole.trans account, output, diagnostics, status, moved other (List.Perm.swap _ _ _) rfl⟩

/-- Arguments that are not those of a call are answered with the usage. -/
theorem run_of_forall_ne (limit : Option Severity)
    (contents : String → Except FileError (List UInt8)) {arguments : List String}
    (different : ∀ call : Call, call.arguments ≠ arguments) :
    run limit contents arguments = ⟨"", usage, 2⟩ := by
  cases read : Invocation.parse arguments with
  | none => rw [run, read]
  | some invocation =>
    obtain ⟨call, same, -⟩ := (Invocation.parse_eq_some_iff arguments invocation).mp read
    exact absurd same (different call)

end LuaChunk
