import LuaChunk.Proofs.Continuation
import LuaChunk.Proofs.LogLevels

/-!
# What a reading logs

The records of a chunk follow from its functions and from where they stand. Each constant is logged
where its tag byte stands, in the order of the list; then come the records of the nested functions;
and the function itself is logged last, with the place where it begins (`Prototype.LoggedAt`).
-/
namespace LuaChunk

/-- What is logged of a constant: its tag, the place of its tag byte, and its value. -/
inductive Constant.LoggedAt (place : Nat) (constant : Constant) :
    List UInt8 → List Record → Prop where
  /-- There is one record. -/
  | intro (tag : Tag) {back : List UInt8} (spelled : constant.SpelledBy (tag.byte :: back)) :
      LoggedAt place constant (tag.byte :: back) [.constant tag place constant]

/-- What is logged of a function that begins at a place: its constants in order, what is logged of
the functions nested in it in order, and then the function with its name, its lines, the place and
the lengths of its lists. -/
inductive Prototype.LoggedAt : Nat → Prototype → List UInt8 → List Record → Prop where
  /-- The fields in wire order. The name on the wire is empty where the function has the name of the
  one around it. -/
  | intro {place : Nat} {prototype : Prototype} {own : ByteString}
      {name code constants upvalues functions lines locals upvalueNames : List UInt8}
      {constantRecords functionRecords : List Record}
      (nameSpelled : own.SpelledBy name)
      (codeSpelled : Counted WordSpelledBy prototype.code code)
      (constantsFit : prototype.constants.length < Nat.pow 2 32)
      (constantsLogged : Row Constant.LoggedAt (place + name.length + 11 + code.length + 4)
        prototype.constants constants constantRecords)
      (upvaluesSpelled : Counted Upvalue.SpelledBy prototype.upvalues upvalues)
      (functionsFit : prototype.functions.length < Nat.pow 2 32)
      (functionsLogged : Row LoggedAt
        (place + name.length + 11 + code.length + 4 + constants.length + upvalues.length + 4)
        prototype.functions functions functionRecords)
      (linesSpelled : Counted WordSpelledBy prototype.debug.lines lines)
      (localsSpelled : Counted LocalVariable.SpelledBy prototype.debug.locals locals)
      (upvalueNamesSpelled :
        Counted ByteString.SpelledBy prototype.debug.upvalueNames upvalueNames) :
      LoggedAt place prototype
        (name ++ encodeWord prototype.lineDefined ++ encodeWord prototype.lastLineDefined ++
          [prototype.parameterCount, prototype.varargFlag, prototype.stackSize] ++ code ++
          (LittleEndian.encode 4 prototype.constants.length ++ constants) ++ upvalues ++
          (LittleEndian.encode 4 prototype.functions.length ++ functions) ++ lines ++ locals ++
          upvalueNames)
        (constantRecords ++ functionRecords ++
          [.function prototype.source prototype.lineDefined prototype.lastLineDefined place
            prototype.code.length prototype.constants.length prototype.upvalues.length
            prototype.functions.length])

/-- A record is about the main function or what is in front of it. -/
def Record.OfBeginning (record : Record) : Prop :=
  (∀ count offset, record ≠ .trailing count offset) ∧ ∀ source count, record ≠ .chunk source count

/-- The record about the bytes that a reader leaves unread, if there are any. -/
def Cursor.leftover (stop : Cursor) : List Record :=
  if stop.unread = [] then [] else [.trailing stop.remaining stop.position]

namespace Reader

/-- Reading the fields in front of the lists logs nothing. -/
theorem functionHead_quiet (policy : Policy) : (functionHead policy).Quiet :=
  (string_quiet _).bind fun _ => word_quiet.bind fun _ => word_quiet.bind fun _ =>
    byte_quiet.bind fun _ => byte_quiet.bind fun _ => byte_quiet.bind fun _ => logs_pure _

/-- Behind its tag byte a constant is reported with the tag and the place of the tag byte. -/
theorem payload_reports (policy : Policy) (tag : Constant.Tag) (offset : Nat) :
    (payload policy tag >>= fun value =>
      log (.constant tag offset value) >>= fun _ => pure value).Reports
        fun _ value back records =>
          value.SpelledBy (tag.byte :: back) ∧ records = [.constant tag offset value] := by
  refine (((payload_accepts policy tag).reports (payload_quiet policy tag)).bind fun value =>
    reports_log_bind (reports_pure value)).mono ?_
  intro place value written records told
  obtain ⟨_, front, _, _, _, ⟨⟨spelled, -⟩, rfl⟩, ⟨_, ⟨rfl, rfl, rfl⟩, rfl⟩, rfl, rfl⟩ := told
  rw [List.append_nil]
  exact ⟨spelled, rfl⟩

/-- A constant is reported with its tag and the place of its tag byte. -/
theorem constant_reports (policy : Policy) : (constant policy).Reports Constant.LoggedAt := by
  -- What is told behind the first byte depends on the tag, so it is given to the rule.
  let told (offset : Nat) (first : UInt8) (_ : Nat) (value : Constant) (back : List UInt8)
      (records : List Record) : Prop :=
    ∃ tag : Constant.Tag, tag.byte = first ∧ value.SpelledBy (tag.byte :: back) ∧
      records = [.constant tag offset value]
  refine (reports_position_bind fun offset =>
    @Reports.bind _ _ _ _ _ (told offset) (byte_accepts.reports byte_quiet) fun first => ?_).mono ?_
  · cases found : Constant.Tag.ofByte? first with
    | none => exact reports_fail _
    | some tag =>
      refine (payload_reports policy tag offset).mono ?_
      rintro place value back records ⟨spelled, logged⟩
      exact ⟨tag, Constant.Tag.byte_of_ofByte? found, spelled, logged⟩
  · intro place value written records logged
    obtain ⟨_, _, back, _, _, ⟨rfl, rfl⟩, ⟨tag, rfl, spelled, rfl⟩, rfl, rfl⟩ := logged
    exact .intro tag spelled

/-- The lists of a function are reported if the functions nested in it are: the constants in a row,
then the nested functions in a row. -/
theorem functionLists_reports (policy : Policy) {nested : Reader Prototype}
    {account : Nat → Prototype → List UInt8 → List Record → Prop}
    (reports : nested.Reports account) :
    (functionLists policy nested).Reports fun place lists written records =>
      ∃ (code constants upvalues functions debug : List UInt8)
        (constantRecords functionRecords : List Record),
        Counted WordSpelledBy lists.code code ∧
        CountedRow Constant.LoggedAt (place + code.length) lists.constants constants
          constantRecords ∧
        Counted Upvalue.SpelledBy lists.upvalues upvalues ∧
        CountedRow account (place + code.length + constants.length + upvalues.length)
          lists.functions functions functionRecords ∧
        lists.debug.SpelledWithin policy debug ∧
        written = code ++ (constants ++ (upvalues ++ (functions ++ debug))) ∧
        records = constantRecords ++ functionRecords := by
  refine (((wordList_accepts policy .code).reports (wordList_quiet policy .code)).bind fun code =>
    ((constant_reports policy).list policy .constants).bind fun constants =>
    ((list_accepts upvalue_accepts policy .upvalues).reports
      (upvalue_quiet.list policy .upvalues)).bind fun upvalues =>
    (reports.list policy .functions).bind fun functions =>
    ((debugInfo_accepts policy).reports (debugInfo_quiet policy)).bind fun debug =>
    reports_pure (FunctionLists.mk code constants upvalues functions debug)).mono ?_
  intro place lists written records told
  obtain ⟨_, code, _, _, _, ⟨⟨codeSpelled, -⟩, rfl⟩, told, rfl, rfl⟩ := told
  obtain ⟨_, constants, _, constantRecords, _, constantsTold, told, rfl, rfl⟩ := told
  obtain ⟨_, upvalues, _, _, _, ⟨⟨upvaluesSpelled, -⟩, rfl⟩, told, rfl, rfl⟩ := told
  obtain ⟨_, functions, _, functionRecords, _, functionsTold, told, rfl, rfl⟩ := told
  obtain ⟨_, debug, _, _, _, ⟨debugSpelled, rfl⟩, ⟨rfl, rfl, rfl⟩, rfl, rfl⟩ := told
  refine ⟨code, constants, upvalues, functions, debug, constantRecords, functionRecords,
    codeSpelled, constantsTold, upvaluesSpelled, functionsTold, debugSpelled, ?_, ?_⟩
  · rw [List.append_nil]
  · simp only [List.append_nil]

/-- A function is reported if the functions nested in it are. -/
theorem functionWith_reports (policy : Policy) {nested : ByteString → Reader Prototype}
    (reports : ∀ name, (nested name).Reports Prototype.LoggedAt) (inherited : ByteString) :
    (functionWith policy nested inherited).Reports Prototype.LoggedAt := by
  rw [functionWith_eq]
  refine (reports_position_bind fun offset =>
    ((functionHead_accepts policy).reports (functionHead_quiet policy)).bind fun head =>
    (functionLists_reports policy (reports (head.source.orElse inherited))).bind fun lists =>
    reports_log_bind (reports_pure
      (head.withLists (head.source.orElse inherited) lists))).mono ?_
  intro place tree written records told
  obtain ⟨head, _, _, _, _, ⟨⟨name, ⟨nameSpelled, -⟩, rfl⟩, rfl⟩, told, rfl, rfl⟩ := told
  obtain ⟨lists, _, _, _, _, listsTold, ⟨_, ⟨rfl, rfl, rfl⟩, rfl⟩, rfl, rfl⟩ := told
  obtain ⟨code, _, upvalues, _, _, constantRecords, functionRecords, codeSpelled, constantsTold,
    upvaluesSpelled, functionsTold, debugSpelled, rfl, rfl⟩ := listsTold
  obtain ⟨constantsFit, constantsLogged⟩ := constantsTold
  obtain ⟨functionsFit, functionsLogged⟩ := functionsTold
  obtain ⟨lines, locals, upvalueNames, ⟨linesSpelled, -⟩, ⟨localsSpelled, -⟩,
    ⟨upvalueNamesSpelled, -⟩, rfl⟩ := debugSpelled
  have headLength : (name ++ encodeWord head.lineDefined ++ encodeWord head.lastLineDefined ++
      [head.parameterCount, head.varargFlag, head.stackSize]).length = name.length + 11 := by
    simp [encodeWord]
  rw [headLength, ← Nat.add_assoc] at constantsLogged functionsLogged
  rw [List.length_append, LittleEndian.length_encode, ← Nat.add_assoc] at functionsLogged
  have logged :
      Prototype.LoggedAt place (head.withLists (head.source.orElse inherited) lists) _ _ :=
    .intro nameSpelled codeSpelled constantsFit constantsLogged upvaluesSpelled functionsFit
      functionsLogged linesSpelled localsSpelled upvalueNamesSpelled
  simp only [List.append_assoc, List.append_nil] at logged ⊢
  exact logged

/-- A function is reported with everything nested in it, however many levels are left. -/
theorem nestedFunction_reports (policy : Policy) (levels : Nat) (inherited : ByteString) :
    (nestedFunction policy levels inherited).Reports Prototype.LoggedAt := by
  induction levels generalizing inherited with
  | zero => exact (reports_position_bind fun _ => reports_fail _).mono fun _ _ _ _ => id
  | succ levels ih => exact functionWith_reports policy ih inherited

/-- The header is reported with one record. -/
theorem header_reports :
    header.Reports fun _ _ written records =>
      written = Header.standard.bytes ∧ records = [.header .standard] := by
  refine (((expect_accepts Header.standard.fields).reports (expect_quiet _)).bind fun _ =>
    reports_log_bind (reports_pure Header.standard)).mono ?_
  intro place value written records told
  obtain ⟨_, _, _, _, _, ⟨rfl, rfl⟩, ⟨_, ⟨_, rfl, rfl⟩, rfl⟩, rfl, rfl⟩ := told
  exact ⟨List.append_nil _, rfl⟩

/-- The beginning of a chunk is reported with its header, the byte behind the header, and the main
function, which stands behind these 34 bytes. -/
theorem mainFunction_reports (policy : Policy) :
    (mainFunction policy).Reports fun place tree written records =>
      ∃ (upvalueCount : UInt8) (body : List UInt8) (logged : List Record),
        tree.LoggedAt (place + 34) body logged ∧
        written = Header.standard.bytes ++ upvalueCount :: body ∧
        records = .header .standard :: .closure upvalueCount :: logged := by
  refine (header_reports.bind fun _ => (byte_accepts.reports byte_quiet).bind fun upvalueCount =>
    reports_log_bind (nestedFunction_reports policy (policy.maxDepth + 1) .empty)).mono ?_
  intro place tree written records told
  obtain ⟨_, _, _, _, _, ⟨rfl, rfl⟩, told, rfl, rfl⟩ := told
  obtain ⟨upvalueCount, _, body, _, _, ⟨rfl, rfl⟩, ⟨logged, mainLogged, rfl⟩, rfl, rfl⟩ := told
  rw [Header.length_bytes_standard] at mainLogged
  exact ⟨upvalueCount, body, logged, mainLogged, rfl, rfl⟩

/-- A constant logs itself. -/
theorem constant_logs (policy : Policy) : (constant policy).Logs Record.OfBeginning := by
  refine logs_position_bind fun offset => byte_quiet.logs.bind fun first => ?_
  cases Constant.Tag.ofByte? first with
  | none => exact logs_fail _
  | some tag =>
    exact (payload_quiet policy tag).logs.bind fun value =>
      (logs_log ⟨nofun, nofun⟩).bind fun _ => logs_pure value

/-- A function logs constants and functions. -/
theorem nestedFunction_logs (policy : Policy) (levels : Nat) (inherited : ByteString) :
    (nestedFunction policy levels inherited).Logs Record.OfBeginning := by
  induction levels generalizing inherited with
  | zero => exact logs_position_bind fun _ => logs_fail _
  | succ levels ih =>
    rw [nestedFunction, functionWith_eq]
    refine logs_position_bind fun offset => (functionHead_quiet policy).logs.bind fun head => ?_
    have lists : (functionLists policy
        (nestedFunction policy levels (head.source.orElse inherited))).Logs Record.OfBeginning :=
      (wordList_quiet policy .code).logs.bind fun _ =>
        ((constant_logs policy).list policy .constants).bind fun _ =>
          (Quiet.logs (upvalue_quiet.list policy .upvalues)).bind fun _ =>
            ((ih _).list policy .functions).bind fun _ =>
              (debugInfo_quiet policy).logs.bind fun _ => logs_pure _
    exact lists.bind fun _ => (logs_log ⟨nofun, nofun⟩).bind fun _ => logs_pure _

/-- Up to the end of the main function nothing is logged about what follows it or about the whole
chunk. -/
theorem mainFunction_logs (policy : Policy) : (mainFunction policy).Logs Record.OfBeginning := by
  have header : header.Logs Record.OfBeginning :=
    (expect_quiet Header.standard.fields).logs.bind fun _ =>
      (logs_log ⟨nofun, nofun⟩).bind fun _ => logs_pure _
  exact header.bind fun _ => byte_quiet.logs.bind fun _ => (logs_log ⟨nofun, nofun⟩).bind fun _ =>
    nestedFunction_logs policy (policy.maxDepth + 1) .empty

/-- Bytes that are left are logged if they are allowed, and refused without a record if not. -/
theorem trailing_eq (policy : Policy) (cursor : Cursor) :
    trailing policy cursor =
      if cursor.unread = [] ∨ policy.allowTrailing = true then ⟨.ok (), cursor, cursor.leftover⟩
      else ⟨.error (.trailingBytes cursor.position cursor.remaining), cursor, []⟩ := by
  rw [trailing_apply, Cursor.leftover]
  by_cases none : cursor.unread = []
  · simp [none]
  · simp [none]

/-- If a chunk is read, then the records of its beginning are followed by those of what it leaves
and of the whole. -/
theorem chunk_records_of_yields {policy : Policy} {cursor stop : Cursor} {tree : Prototype}
    (yields : (mainFunction policy).Yields cursor tree stop)
    (allowed : stop.unread = [] ∨ policy.allowTrailing = true) :
    (chunk policy cursor).records = (mainFunction policy cursor).records ++
      (stop.leftover ++ [.chunk tree.source tree.functionCount]) := by
  have dealt := (trailing_eq policy stop).trans (if_pos allowed)
  have answers : (trailing policy stop).outcome = .ok () := congrArg Reading.outcome dealt
  rw [chunk_eq, bind_eq_of_ok yields.1, yields.2, bind_eq_of_ok answers, dealt]
  rfl

/-- If a chunk cannot be read, then only the records of its beginning are kept. -/
theorem chunk_records_of_error {policy : Policy} {cursor : Cursor} {error : DecodeError}
    (failed : (chunk policy cursor).outcome = .error error) :
    (chunk policy cursor).records = (mainFunction policy cursor).records := by
  rcases (chunk_fails_iff policy cursor error).mp failed with
    beginning | ⟨tree, stop, yields, some, strict, -⟩
  · rw [chunk_eq, bind_eq_of_error beginning]
  · have refused : ¬(stop.unread = [] ∨ policy.allowTrailing = true) := by simp [some, strict]
    have dealt := (trailing_eq policy stop).trans (if_neg refused)
    have fails := congrArg Reading.outcome dealt
    rw [chunk_eq, bind_eq_of_ok yields.1, yields.2, bind_eq_of_error fails, dealt]
    exact List.append_nil _

/-- The beginning of longer bytes logs the same and possibly more. -/
theorem mainFunction_records_prefix (policy : Policy) (bytes more : List UInt8) :
    (mainFunction policy (.start bytes)).records <+:
      (mainFunction policy (.start (bytes ++ more))).records := by
  have grows := mainFunction_grows policy bytes more
  generalize mainFunction policy (.start bytes) = reading at grows ⊢
  generalize mainFunction policy (.start (bytes ++ more)) = longer at grows ⊢
  cases grows with
  | same outcome stop records settled => exact List.prefix_refl records
  | short needed stop records short => exact List.prefix_refl records
  | further needed stop records later missing enough reached kept => exact kept

end Reader

/-- A log at the level of every detail has all records. -/
theorem records_trace (policy : Policy) (bytes : List UInt8) :
    records policy (some .trace) bytes = (read policy bytes).records := by
  apply List.filter_eq_self.mpr
  intro record _
  cases record <;> rfl

/-- If bytes are read as a chunk, then the log has the header, the byte behind it, what is logged of
the main function, the bytes that are left if there are any, and the whole chunk. -/
theorem records_of_decode {policy : Policy} {bytes : List UInt8} {tree : Prototype}
    (succeeds : decode policy bytes = .ok tree) :
    ∃ main upvalueCount written rest logged,
      bytes = Header.standard.bytes ++ upvalueCount :: (written ++ rest) ∧
      SplitsInto bytes main written rest ∧ tree = main.inherit .empty ∧
      tree.LoggedAt 34 written logged ∧
      (read policy bytes).records = .header .standard :: .closure upvalueCount :: (logged ++
        ((if rest = [] then [] else [.trailing rest.length (34 + written.length)]) ++
          [.chunk tree.source tree.functionCount])) := by
  obtain ⟨yields, allowed⟩ := (Reader.chunk_yields_iff policy (.start bytes) tree
    (read policy bytes).stop).mp ⟨succeeds, rfl⟩
  have all := Reader.chunk_records_of_yields yields allowed
  obtain ⟨front, passes, upvalueCount, written, logged, mainLogged, rfl, beginning⟩ :=
    Reader.mainFunction_reports policy (.start bytes) tree yields.1
  generalize (read policy bytes).stop = stop at yields allowed all
  rw [yields.2] at passes
  have parts : bytes = Header.standard.bytes ++ upvalueCount :: (written ++ stop.unread) := by
    rw [← List.cons_append, ← List.append_assoc]
    exact passes.unread
  obtain ⟨main, spelling, splits, -, resolved, place⟩ :=
    (Reader.mainFunction_yields_iff policy bytes tree stop).mp yields
  obtain rfl : spelling = written := by
    obtain ⟨_, otherParts⟩ := splits.parts
    have same := List.append_cancel_left (otherParts.symm.trans parts)
    exact List.append_cancel_right (List.cons.inj same).2
  refine ⟨main, upvalueCount, spelling, stop.unread, logged, parts, splits, resolved, mainLogged,
    ?_⟩
  rw [← place]
  exact all.trans (congrArg (· ++ _) beginning)

/-- If bytes cannot be read as a chunk, then what is logged of them is logged first of all longer
bytes, and it is only about the beginning of the chunk. -/
theorem records_of_error {policy : Policy} {bytes : List UInt8} {error : DecodeError}
    (failed : decode policy bytes = .error error) :
    (∀ more, (read policy bytes).records <+: (read policy (bytes ++ more)).records) ∧
      ∀ record ∈ (read policy bytes).records, record.OfBeginning := by
  have kept : (read policy bytes).records =
      (Reader.mainFunction policy (.start bytes)).records := Reader.chunk_records_of_error failed
  rw [kept]
  constructor
  · intro more
    have beginning := Reader.mainFunction_records_prefix policy bytes more
    refine beginning.trans ?_
    rw [read, Reader.chunk_eq]
    exact Reader.bind_records_prefix _ _ _
  · exact Reader.mainFunction_logs policy (.start bytes)

/-- The log of a reading is determined by what was read. A chunk logs its header, the byte behind
it, its functions with their constants, the bytes that are left if there are any, and the whole; if
it cannot be read, its log is the beginning of the logs of all longer chunks and ends before the
bytes that are left; and with any other level the log has those of these records that the level
admits, whether records are kept or not being decided for each one, and nothing else changes. -/
theorem log_determined (policy : Policy) (bytes : List UInt8) :
    (∀ tree, decode policy bytes = .ok tree →
      ∃ main upvalueCount written rest logged,
        bytes = Header.standard.bytes ++ upvalueCount :: (written ++ rest) ∧
        SplitsInto bytes main written rest ∧ tree = main.inherit .empty ∧
        tree.LoggedAt 34 written logged ∧
        records policy (some .trace) bytes =
          .header .standard :: .closure upvalueCount :: (logged ++
            ((if rest = [] then [] else [.trailing rest.length (34 + written.length)]) ++
              [.chunk tree.source tree.functionCount]))) ∧
    (∀ error, decode policy bytes = .error error →
      (∀ more, records policy (some .trace) bytes <+:
        records policy (some .trace) (bytes ++ more)) ∧
      (∀ count offset, .trailing count offset ∉ records policy (some .trace) bytes) ∧
      ∀ source count, .chunk source count ∉ records policy (some .trace) bytes) ∧
    ∀ limit, readAt limit policy bytes =
      ⟨decode policy bytes, (read policy bytes).stop,
        (records policy (some .trace) bytes).filter fun record =>
          record.severity.isAdmitted limit⟩ := by
  refine ⟨?_, ?_, ?_⟩
  · intro tree succeeds
    simp only [records_trace]
    exact records_of_decode succeeds
  · intro error failed
    simp only [records_trace]
    obtain ⟨longer, beginning⟩ := records_of_error failed
    refine ⟨longer, ?_, ?_⟩
    · intro count offset member
      exact (beginning _ member).1 count offset rfl
    · intro source count member
      exact (beginning _ member).2 source count rfl
  · intro limit
    rw [readAt_eq, records_trace]
    rfl

/-- A function in a function, each with a constant, and a byte behind both: the inner function takes
the name of the outer one and is logged before it. Where the chunk is cut off behind the first
constant, the log ends there. -/
theorem log_determined_nested :
    let name : ByteString := ⟨[0x40, 0x6D]⟩
    let inner : Prototype := ⟨name, 1, 1, 0, 0, 0, [], [.boolean true], [], [], ⟨[], [], []⟩⟩
    let main : Prototype := ⟨name, 0, 0, 0, 0, 0, [], [.nil], [], [inner], ⟨[], [], []⟩⟩
    let innerBytes : List UInt8 := [0, 1, 0, 0, 0, 1, 0, 0, 0] ++ List.replicate 7 0 ++
      [1, 0, 0, 0, 0x01, 1] ++ List.replicate 20 0
    let bytes := Header.standard.bytes ++ [0, 3, 0x40, 0x6D] ++ List.replicate 15 0 ++
      [1, 0, 0, 0, 0x00] ++ List.replicate 4 0 ++ [1, 0, 0, 0] ++ innerBytes ++
      List.replicate 12 0 ++ [0xAB]
    let beginning : List Record :=
      [.header .standard, .closure 0, .constant .nil 56 .nil]
    let details : List Record := beginning ++
      [.constant .boolean 85 (.boolean true), .function name 1 1 65 0 1 0 0,
        .function name 0 0 34 0 1 0 1, .trailing 1 119, .chunk name 2]
    decode .default bytes = .ok main ∧ records .default (some .trace) bytes = details ∧
      (∃ (upvalueCount : UInt8) (written rest : List UInt8) (logged : List Record),
        bytes = Header.standard.bytes ++ upvalueCount :: (written ++ rest) ∧
        main.LoggedAt 34 written logged ∧
        details = .header .standard :: .closure upvalueCount :: (logged ++
          ((if rest = [] then [] else [.trailing rest.length (34 + written.length)]) ++
            [.chunk name 2]))) ∧
      decode .default (bytes.take 60) = .error (.truncated 57 4 3) ∧
      records .default (some .trace) (bytes.take 60) = beginning ∧ beginning <+: details ∧
      (readAt (some .warning) .default bytes).records = [.trailing 1 119] := by
  intro name inner main innerBytes bytes beginning details
  have succeeds : decode .default bytes = .ok main := by decide +kernel
  have logged : records .default (some .trace) bytes = details := by decide +kernel
  have failed : decode .default (bytes.take 60) = .error (.truncated 57 4 3) := by decide +kernel
  have cut : records .default (some .trace) (bytes.take 60) = beginning := by decide +kernel
  have whole : bytes.take 60 ++ bytes.drop 60 = bytes := List.take_append_drop 60 bytes
  obtain ⟨_, upvalueCount, written, rest, own, parts, _, _, ownLogged, all⟩ :=
    (log_determined .default bytes).1 main succeeds
  rw [logged] at all
  have longer := ((log_determined .default (bytes.take 60)).2.1 _ failed).1 (bytes.drop 60)
  rw [whole, cut, logged] at longer
  have warnings := (log_determined .default bytes).2.2 (some .warning)
  rw [logged] at warnings
  refine ⟨succeeds, logged, ⟨upvalueCount, written, rest, own, parts, ownLogged, all⟩, failed, cut,
    longer, ?_⟩
  rw [warnings]
  decide +kernel

end LuaChunk
