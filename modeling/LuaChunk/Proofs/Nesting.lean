import LuaChunk.Proofs.Parts

/-!
# Readers of functions

A function is read in two parts, the fields in front of its lists and its lists
(`Reader.functionWith_eq`), and its spelling is made of the same two parts
(`Prototype.spelled_iff`). The main statement is `Reader.function_accepts`: the reader of a
function accepts the spellings of the trees that the policy admits, and answers with the tree in
which names are filled in. It is an induction on the levels that are left for nesting, and one
level is `Reader.functionWith_accepts`.

A second reader fills in no names (`Reader.bareFunction`). It accepts the same spellings and
answers with the tree as it stands on the wire, so no byte list begins with spellings of two
trees (`Prototype.SpelledBy.unique`).
-/
namespace LuaChunk

/-- The fields of a function in front of its lists. -/
structure FunctionHead where
  /-- The name that stands on the wire. -/
  source : ByteString
  /-- The line where the function begins. -/
  lineDefined : UInt32
  /-- The line where the function ends. -/
  lastLineDefined : UInt32
  /-- The number of fixed parameters. -/
  parameterCount : UInt8
  /-- Not zero if the function takes further arguments. -/
  varargFlag : UInt8
  /-- The number of registers the function needs. -/
  stackSize : UInt8

/-- The lists of a function. -/
structure FunctionLists where
  /-- The instruction words. -/
  code : List UInt32
  /-- The constants. -/
  constants : List Constant
  /-- The upvalues. -/
  upvalues : List Upvalue
  /-- The functions nested directly in this one. -/
  functions : List Prototype
  /-- What is remembered of the source. -/
  debug : DebugInfo

/-- The function with these fields and lists, under a name. -/
def FunctionHead.withLists (head : FunctionHead) (name : ByteString) (lists : FunctionLists) :
    Prototype :=
  ⟨name, head.lineDefined, head.lastLineDefined, head.parameterCount, head.varargFlag,
    head.stackSize, lists.code, lists.constants, lists.upvalues, lists.functions, lists.debug⟩

/-- The fields of a function in front of its lists. -/
def Prototype.head (prototype : Prototype) : FunctionHead :=
  ⟨prototype.source, prototype.lineDefined, prototype.lastLineDefined, prototype.parameterCount,
    prototype.varargFlag, prototype.stackSize⟩

/-- The lists of a function. -/
def Prototype.lists (prototype : Prototype) : FunctionLists :=
  ⟨prototype.code, prototype.constants, prototype.upvalues, prototype.functions,
    prototype.debug⟩

/-- The ways to write the fields in front of the lists, with a name that a policy admits. -/
def FunctionHead.SpelledWithin (policy : Policy) (head : FunctionHead) (written : List UInt8) :
    Prop :=
  ∃ name : List UInt8, (head.source.SpelledBy name ∧ head.source.size ≤ policy.maxString) ∧
    written = name ++ encodeWord head.lineDefined ++ encodeWord head.lastLineDefined ++
      [head.parameterCount, head.varargFlag, head.stackSize]

/-- The ways to write the lists of a function when a policy admits them and the nested functions
have a property. -/
def FunctionLists.SpelledWithin (policy : Policy) (admitted : Prototype → Prop)
    (lists : FunctionLists) (written : List UInt8) : Prop :=
  ∃ code constants upvalues functions debug : List UInt8,
    (Counted WordSpelledBy lists.code code ∧ lists.code.length ≤ policy.maxSequence) ∧
    (Counted Constant.SpelledBy lists.constants constants ∧
      lists.constants.length ≤ policy.maxSequence ∧
      ∀ constant ∈ lists.constants, ∀ string, constant.string? = some string →
        string.size ≤ policy.maxString) ∧
    (Counted Upvalue.SpelledBy lists.upvalues upvalues ∧
      lists.upvalues.length ≤ policy.maxSequence) ∧
    (Counted Prototype.SpelledBy lists.functions functions ∧
      lists.functions.length ≤ policy.maxSequence ∧ ∀ inner ∈ lists.functions, admitted inner) ∧
    lists.debug.SpelledWithin policy debug ∧
    written = code ++ (constants ++ (upvalues ++ (functions ++ debug)))

/-- A function within bounds is spelled by its fields in front of its lists. -/
theorem Prototype.spelled_iff (policy : Policy) (admitted : Prototype → Prop)
    (prototype : Prototype) (written : List UInt8) :
    (prototype.SpelledBy written ∧ prototype.Within policy.maxSequence policy.maxString ∧
        ∀ inner ∈ prototype.functions, admitted inner) ↔
      ∃ (head : FunctionHead) (lists : FunctionLists) (front back : List UInt8),
        head.SpelledWithin policy front ∧ lists.SpelledWithin policy admitted back ∧
        written = front ++ back ∧ head.withLists head.source lists = prototype := by
  constructor
  · intro given
    obtain ⟨spelled, within, each⟩ := given
    obtain ⟨⟨codeWithin, constantsWithin, upvaluesWithin, functionsWithin, linesWithin,
      localsWithin, namesWithin⟩, nameWithin, textsWithin, localNamesWithin,
      upvalueNamesWithin⟩ := (within_iff _ _ _).mp within
    obtain ⟨nameSpelled, codeSpelled, constantsSpelled, upvaluesSpelled, functionsSpelled,
      linesSpelled, localsSpelled, namesSpelled⟩ := spelled
    have headSpelled : prototype.head.SpelledWithin policy _ :=
      ⟨_, ⟨nameSpelled, nameWithin⟩, rfl⟩
    have debugSpelled : prototype.debug.SpelledWithin policy _ :=
      ⟨_, _, _, ⟨linesSpelled, linesWithin⟩, ⟨localsSpelled, localsWithin, localNamesWithin⟩,
        ⟨namesSpelled, namesWithin, upvalueNamesWithin⟩, rfl⟩
    have listsSpelled : prototype.lists.SpelledWithin policy admitted _ :=
      ⟨_, _, _, _, _, ⟨codeSpelled, codeWithin⟩,
        ⟨constantsSpelled, constantsWithin, textsWithin⟩, ⟨upvaluesSpelled, upvaluesWithin⟩,
        ⟨functionsSpelled, functionsWithin, each⟩, debugSpelled, rfl⟩
    refine ⟨prototype.head, prototype.lists, _, _, headSpelled, listsSpelled, ?_, ?_⟩
    · simp only [List.append_assoc]
      rfl
    · cases prototype
      rfl
  · intro given
    obtain ⟨head, lists, _, _, headSpelled, listsSpelled, rfl, rfl⟩ := given
    obtain ⟨name, ⟨nameSpelled, nameWithin⟩, rfl⟩ := headSpelled
    obtain ⟨code, constants, upvalues, functions, _, codeGiven, constantsGiven, upvaluesGiven,
      functionsGiven, debugSpelled, rfl⟩ := listsSpelled
    obtain ⟨lines, locals, names, linesGiven, localsGiven, namesGiven, rfl⟩ := debugSpelled
    have spelled : (head.withLists head.source lists).SpelledBy _ :=
      .intro nameSpelled codeGiven.1 constantsGiven.1 upvaluesGiven.1 functionsGiven.1
        linesGiven.1 localsGiven.1 namesGiven.1
    have within : (head.withLists head.source lists).Within policy.maxSequence policy.maxString :=
      (within_iff _ _ _).mpr ⟨⟨codeGiven.2, constantsGiven.2.1, upvaluesGiven.2,
        functionsGiven.2.1, linesGiven.2, localsGiven.2.1, namesGiven.2.1⟩, nameWithin,
        constantsGiven.2.2, localsGiven.2.2, namesGiven.2.2⟩
    refine ⟨?_, within, functionsGiven.2.2⟩
    simp only [List.append_assoc] at spelled ⊢
    exact spelled

namespace Reader

/-- Read the fields of a function in front of its lists. -/
def functionHead (policy : Policy) : Reader FunctionHead :=
  return ⟨← string policy.maxString, ← word, ← word, ← byte, ← byte, ← byte⟩

/-- Read the lists of a function, given the reader of the functions nested in it. -/
def functionLists (policy : Policy) (nested : Reader Prototype) : Reader FunctionLists :=
  return ⟨← wordList policy .code, ← list policy .constants (constant policy),
    ← list policy .upvalues upvalue, ← list policy .functions nested, ← debugInfo policy⟩

/-- A function is read in two parts. -/
theorem functionWith_eq (policy : Policy) (nested : ByteString → Reader Prototype)
    (inherited : ByteString) :
    functionWith policy nested inherited = (do
      let offset ← position
      let head ← functionHead policy
      let lists ← functionLists policy (nested (head.source.orElse inherited))
      log (.function (head.source.orElse inherited) head.lineDefined head.lastLineDefined offset
        lists.code.length lists.constants.length lists.upvalues.length lists.functions.length)
      return head.withLists (head.source.orElse inherited) lists) := by
  simp only [functionHead, functionLists, bind_assoc, pure_bind, FunctionHead.withLists]
  rfl

/-- The fields in front of the lists are accepted. -/
theorem functionHead_accepts (policy : Policy) :
    (functionHead policy).Accepts (FunctionHead.SpelledWithin policy) := by
  refine ((string_accepts policy.maxString).bind fun source => word_accepts.bind fun first =>
    word_accepts.bind fun last => byte_accepts.bind fun parameters => byte_accepts.bind
      fun vararg => byte_accepts.map (FunctionHead.mk source first last parameters vararg)).congr ?_
  intro head written
  constructor
  · intro spelled
    obtain ⟨source, name, _, nameSpelled, afterName, rfl⟩ := spelled
    obtain ⟨first, _, _, rfl, afterFirst, rfl⟩ := afterName
    obtain ⟨last, _, _, rfl, afterLast, rfl⟩ := afterFirst
    obtain ⟨parameters, _, _, rfl, afterParameters, rfl⟩ := afterLast
    obtain ⟨vararg, _, _, rfl, stackSpelled, rfl⟩ := afterParameters
    obtain ⟨stack, rfl, rfl⟩ := stackSpelled
    refine ⟨name, nameSpelled, ?_⟩
    simp [encodeWord]
  · intro spelled
    obtain ⟨name, spelled, rfl⟩ := spelled
    refine ⟨_, name, _, spelled, ⟨_, _, _, rfl, ⟨_, _, _, rfl, ⟨_, _, _, rfl, ⟨_, _, _, rfl,
      ⟨_, rfl, rfl⟩, rfl⟩, rfl⟩, rfl⟩, rfl⟩, ?_⟩
    simp [encodeWord]

section Nested

variable {admitted : Prototype → Prop} {change : Prototype → Prototype}

/-- If the reader of nested functions accepts the trees with a property and changes them, then a
list of nested functions is accepted that way. -/
theorem functions_accepts (policy : Policy) {nested : Reader Prototype}
    (accepts : nested.Accepts fun tree written =>
      ∃ bare : Prototype, (bare.SpelledBy written ∧ admitted bare) ∧ change bare = tree) :
    (list policy .functions nested).Accepts fun trees written =>
      ∃ bares : List Prototype, (Counted Prototype.SpelledBy bares written ∧
        bares.length ≤ policy.maxSequence ∧ ∀ bare ∈ bares, admitted bare) ∧
        bares.map change = trees := by
  refine (list_accepts accepts policy .functions).congr ?_
  intro trees written
  rw [counted_map]
  simp only [counted_and]
  constructor
  · intro spelled
    obtain ⟨⟨bares, ⟨spelled, each⟩, rfl⟩, within⟩ := spelled
    exact ⟨bares, ⟨spelled, by rwa [List.length_map] at within, each⟩, rfl⟩
  · intro spelled
    obtain ⟨bares, ⟨spelled, within, each⟩, rfl⟩ := spelled
    exact ⟨⟨bares, ⟨spelled, each⟩, rfl⟩, by rwa [List.length_map]⟩

/-- The lists of a function are accepted with nested functions that are changed. -/
theorem functionLists_accepts (policy : Policy) {nested : Reader Prototype}
    (accepts : nested.Accepts fun tree written =>
      ∃ bare : Prototype, (bare.SpelledBy written ∧ admitted bare) ∧ change bare = tree) :
    (functionLists policy nested).Accepts fun result written =>
      ∃ lists : FunctionLists, lists.SpelledWithin policy admitted written ∧
        { lists with functions := lists.functions.map change } = result := by
  refine ((wordList_accepts policy .code).bind fun code =>
    (list_accepts_and (constant_accepts policy) policy .constants).bind fun constants =>
    (list_accepts upvalue_accepts policy .upvalues).bind fun upvalues =>
    (functions_accepts policy accepts).bind fun functions =>
    (debugInfo_accepts policy).map (FunctionLists.mk code constants upvalues functions)).congr ?_
  intro result written
  constructor
  · intro spelled
    obtain ⟨code, codeBytes, _, codeSpelled, afterCode, rfl⟩ := spelled
    obtain ⟨constants, constantBytes, _, constantsSpelled, afterConstants, rfl⟩ := afterCode
    obtain ⟨upvalues, upvalueBytes, _, upvaluesSpelled, afterUpvalues, rfl⟩ := afterConstants
    obtain ⟨_, functionBytes, debugBytes, functionsSpelled, debugSpelled, rfl⟩ := afterUpvalues
    obtain ⟨bares, functionsSpelled, rfl⟩ := functionsSpelled
    obtain ⟨debug, debugSpelled, rfl⟩ := debugSpelled
    exact ⟨⟨code, constants, upvalues, bares, debug⟩, ⟨codeBytes, constantBytes, upvalueBytes,
      functionBytes, debugBytes, codeSpelled, constantsSpelled, upvaluesSpelled,
      functionsSpelled, debugSpelled, rfl⟩, rfl⟩
  · intro spelled
    obtain ⟨lists, ⟨codeBytes, constantBytes, upvalueBytes, functionBytes, debugBytes, codeSpelled,
      constantsSpelled, upvaluesSpelled, functionsSpelled, debugSpelled, rfl⟩, rfl⟩ := spelled
    exact ⟨lists.code, codeBytes, _, codeSpelled, ⟨lists.constants, constantBytes, _,
      constantsSpelled, ⟨lists.upvalues, upvalueBytes, _, upvaluesSpelled, ⟨_,
      functionBytes, debugBytes, ⟨lists.functions, functionsSpelled, rfl⟩,
      ⟨lists.debug, debugSpelled, rfl⟩, rfl⟩, rfl⟩, rfl⟩, rfl⟩

end Nested

/-- One level of nesting: a function is accepted if it is within bounds and the functions nested
in it are accepted, and the names they inherit are filled in. -/
theorem functionWith_accepts (policy : Policy) {nested : ByteString → Reader Prototype}
    {admitted : Prototype → Prop}
    (accepts : ∀ name, (nested name).Accepts fun tree written =>
      ∃ bare : Prototype, (bare.SpelledBy written ∧ admitted bare) ∧ bare.inherit name = tree)
    (inherited : ByteString) :
    (functionWith policy nested inherited).Accepts fun tree written =>
      ∃ bare : Prototype, (bare.SpelledBy written ∧
        bare.Within policy.maxSequence policy.maxString ∧
          ∀ inner ∈ bare.functions, admitted inner) ∧ bare.inherit inherited = tree := by
  rw [functionWith_eq]
  refine (accepts_position_bind fun offset => (functionHead_accepts policy).bind fun head =>
    (functionLists_accepts policy (accepts (head.source.orElse inherited))).bind fun lists =>
      accepts_log_bind (accepts_pure
        (head.withLists (head.source.orElse inherited) lists))).congr ?_
  intro tree written
  simp only [Prototype.spelled_iff]
  constructor
  · intro spelled
    obtain ⟨head, front, _, headSpelled, afterHead, rfl⟩ := spelled
    obtain ⟨_, back, _, listsRead, ⟨rfl, rfl⟩, rfl⟩ := afterHead
    obtain ⟨lists, listsSpelled, rfl⟩ := listsRead
    refine ⟨_, ⟨head, lists, front, back, headSpelled, listsSpelled, ?_, rfl⟩, ?_⟩
    · rw [List.append_nil]
    · rw [Prototype.inherit_eq]
      rfl
  · intro spelled
    obtain ⟨_, ⟨head, lists, front, back, headSpelled, listsSpelled, rfl, rfl⟩, rfl⟩ := spelled
    refine ⟨head, front, _, headSpelled,
      ⟨_, back, [], ⟨lists, listsSpelled, rfl⟩, ⟨?_, rfl⟩, rfl⟩, ?_⟩
    · rw [Prototype.inherit_eq]
      rfl
    · rw [List.append_nil]

/-- A function at a depth is accepted if it and the functions nested in it are within the bounds
of the policy. The levels that are left and the depth of the function make up one more than the
greatest depth. -/
theorem nestedFunction_accepts (policy : Policy) (levels depth : Nat)
    (left : levels + depth = policy.maxDepth + 1) (inherited : ByteString) :
    (nestedFunction policy levels inherited).Accepts fun tree written =>
      ∃ bare : Prototype, (bare.SpelledBy written ∧ policy.AdmitsFrom depth bare) ∧
        bare.inherit inherited = tree := by
  induction levels generalizing depth inherited with
  | zero =>
    refine accepts_position_bind fun place => accepts_fail _ ?_
    intro tree written spelled
    obtain ⟨bare, ⟨-, admitted⟩, -⟩ := spelled
    have shallow := ((policy.admitsFrom_iff depth bare).mp admitted).1
    omega
  | succ levels ih =>
    refine (functionWith_accepts policy (ih (depth + 1) (by omega)) inherited).congr ?_
    intro tree written
    have shallow : depth ≤ policy.maxDepth := by omega
    simp only [policy.admitsFrom_iff depth, shallow, true_and]

/-- A function is accepted with everything nested in it if the policy admits the tree. -/
theorem function_accepts (policy : Policy) (inherited : ByteString) :
    (function policy inherited).Accepts fun tree written =>
      ∃ bare : Prototype, (bare.SpelledBy written ∧ policy.Admits bare) ∧
        bare.inherit inherited = tree :=
  nestedFunction_accepts policy (policy.maxDepth + 1) 0 rfl inherited

/-- Read a function as it stands on the wire, without names that are filled in. -/
def bareFunction (policy : Policy) : Nat → Reader Prototype
  | 0 => do fail (.nestedTooDeep policy.maxDepth (← position))
  | levels + 1 => do
    let head ← functionHead policy
    let lists ← functionLists policy (bareFunction policy levels)
    return head.withLists head.source lists

/-- The reader that fills in no names accepts the same spellings. -/
theorem bareFunction_accepts (policy : Policy) (levels depth : Nat)
    (left : levels + depth = policy.maxDepth + 1) :
    (bareFunction policy levels).Accepts fun tree written =>
      tree.SpelledBy written ∧ policy.AdmitsFrom depth tree := by
  induction levels generalizing depth with
  | zero =>
    refine accepts_position_bind fun place => accepts_fail _ ?_
    intro tree written spelled
    obtain ⟨-, admitted⟩ := spelled
    have shallow := ((policy.admitsFrom_iff depth tree).mp admitted).1
    omega
  | succ levels ih =>
    have nested : (bareFunction policy levels).Accepts fun tree written =>
        ∃ bare : Prototype, (bare.SpelledBy written ∧ policy.AdmitsFrom (depth + 1) bare) ∧
          id bare = tree := by
      refine (ih (depth + 1) (by omega)).congr ?_
      simp
    refine ((functionHead_accepts policy).bind fun head =>
      (functionLists_accepts policy nested).map (head.withLists head.source)).congr ?_
    intro tree written
    have shallow : depth ≤ policy.maxDepth := by omega
    simp only [policy.admitsFrom_iff depth, shallow, true_and, Prototype.spelled_iff, List.map_id]
    constructor
    · intro spelled
      obtain ⟨head, front, back, headSpelled, ⟨_, ⟨lists, listsSpelled, rfl⟩, rfl⟩, rfl⟩ := spelled
      exact ⟨head, lists, front, back, headSpelled, listsSpelled, rfl, rfl⟩
    · intro spelled
      obtain ⟨head, lists, front, back, headSpelled, listsSpelled, rfl, rfl⟩ := spelled
      exact ⟨head, front, back, headSpelled, ⟨lists, ⟨lists, listsSpelled, rfl⟩, rfl⟩, rfl⟩

end Reader

/-- No byte list begins with spellings of two trees, nor with two spellings of one tree. -/
theorem Prototype.SpelledBy.unique {left right : Prototype}
    {leftBytes rightBytes leftRest rightRest : List UInt8} (leftSpelled : left.SpelledBy leftBytes)
    (rightSpelled : right.SpelledBy rightBytes)
    (same : leftBytes ++ leftRest = rightBytes ++ rightRest) :
    left = right ∧ leftBytes = rightBytes ∧ leftRest = rightRest := by
  obtain ⟨policy, leftAdmitted, rightAdmitted⟩ := Policy.exists_admits left right
  have accepts := Reader.bareFunction_accepts policy (policy.maxDepth + 1) 0 rfl
  exact accepts.unique ⟨leftSpelled, leftAdmitted⟩ ⟨rightSpelled, rightAdmitted⟩ same

end LuaChunk
