import LuaChunk.Proofs.Acceptance
import LuaChunk.Proofs.Reader.Failure

/-!
# How reading a chunk fails

`Fault` lists the ways in which reading a function can fail: each error with the bytes that it
speaks about and the place where the reader stops. Every reader of a part of a function fails in
one of these ways. A function that is nested too deeply is found where the list of functions
around it begins, because the reader of that list fails before the first of them, and so the
length of the list stands right in front. `HeaderFault` lists the ways in which reading the
header can fail.
-/
namespace LuaChunk

/-- The ways in which reading a function can fail, with the place where the reader stops. -/
inductive Fault (policy : Policy) (bytes : List UInt8) : DecodeError → Nat → Prop where
  /-- Fewer bytes are left than are needed. -/
  | truncated {place needed available : Nat} (left : place + available = bytes.length)
      (short : available < needed) : Fault policy bytes (.truncated place needed available) place
  /-- The first byte of a constant is no tag. -/
  | unknownTag {place : Nat} {tag : UInt8} (stands : StandsAt bytes place [tag])
      (unknown : Constant.Tag.ofByte? tag = none) :
      Fault policy bytes (.unknownTag tag place) (place + 1)
  /-- The size of a string is above its bound. -/
  | longString {place declared : Nat} {size : List UInt8}
      (spelled : SizeSpelledBy (declared + 1) size) (stands : StandsAt bytes place size)
      (above : policy.maxString < declared) :
      Fault policy bytes (.limitExceeded "string" declared policy.maxString place)
        (place + size.length)
  /-- The length of a list is above its bound. -/
  | longList {place : Nat} (part : Part) {declared : UInt32}
      (stands : StandsAt bytes place (encodeWord declared))
      (above : policy.maxSequence < declared.toNat) :
      Fault policy bytes (.limitExceeded part.label declared.toNat policy.maxSequence place)
        (place + 4)
  /-- A list of functions lies below the greatest depth. -/
  | tooDeep {place : Nat} {count : UInt32} (stands : StandsAt bytes place (encodeWord count))
      (some : 0 < count.toNat) (within : count.toNat ≤ policy.maxSequence) :
      Fault policy bytes (.nestedTooDeep policy.maxDepth (place + 4)) (place + 4)

/-- The ways in which reading a header that begins at a place can fail, with the place where the
reader stops. The fields before the one that is wrong or missing are as they should be. -/
inductive HeaderFault (bytes : List UInt8) (start : Nat) : DecodeError → Nat → Prop where
  /-- A field is there and differs. -/
  | mismatch {earlier later : List (HeaderField × List UInt8)} {field : HeaderField}
      {expected found : List UInt8}
      (fields : Header.standard.fields = earlier ++ (field, expected) :: later)
      (stands : StandsAt bytes start (earlier.flatMap Prod.snd ++ found))
      (complete : found.length = expected.length) (differs : found ≠ expected) :
      HeaderFault bytes start
        (.headerMismatch field (start + (earlier.flatMap Prod.snd).length))
        (start + (earlier.flatMap Prod.snd).length + expected.length)
  /-- Fewer bytes are left than a field has. -/
  | truncated {earlier later : List (HeaderField × List UInt8)} {field : HeaderField}
      {expected : List UInt8} {available : Nat}
      (fields : Header.standard.fields = earlier ++ (field, expected) :: later)
      (stands : StandsAt bytes start (earlier.flatMap Prod.snd))
      (left : start + (earlier.flatMap Prod.snd).length + available = bytes.length)
      (short : available < expected.length) :
      HeaderFault bytes start
        (.truncated (start + (earlier.flatMap Prod.snd).length) expected.length available)
        (start + (earlier.flatMap Prod.snd).length)

/-- Bytes that end too early are a fault. -/
theorem Fault.short {policy : Policy} {bytes : List UInt8} (place needed : Nat)
    (within : place ≤ bytes.length) (short : bytes.length - place < needed) :
    Fault policy bytes (.truncated place needed (bytes.length - place)) place :=
  .truncated (by omega) short

namespace Reader

section Parts

variable {α : Type} {policy : Policy} {bytes : List UInt8} {place : Nat}

/-- A string fails if it is cut off or too long. -/
theorem string_failsBy (within : place ≤ bytes.length) :
    FailsBy bytes (Fault policy bytes) (string policy.maxString) place := by
  apply failsBy_position_bind
  apply (stringSize_failsBy Fault.short within).bind
  intro size last within yields
  obtain ⟨written, spelled, stands, stops⟩ := stringSize_accepts.stands yields
  obtain rfl : last = place + written.length := congrArg Cursor.position stops
  by_cases none : size = 0
  · rw [if_pos none]
    exact failsBy_pure _ within
  rw [if_neg none]
  by_cases above : policy.maxString < size - 1
  · rw [if_pos above]
    have counted : size - 1 + 1 = size := by omega
    rw [← counted] at spelled
    exact failsBy_fail _ within (.longString spelled stands above)
  · rw [if_neg above]
    exact (block_failsBy _ _ within (Fault.short _ _ within)).map ByteString.mk

/-- The length of a list fails if it is cut off or too large. -/
theorem length_failsBy (part : Part) (within : place ≤ bytes.length) :
    FailsBy bytes (Fault policy bytes) (length policy part) place := by
  apply failsBy_position_bind
  apply (word_failsBy Fault.short within).bind
  intro declared last within yields
  obtain ⟨written, rfl, stands, stops⟩ := word_accepts.stands yields
  obtain rfl : last = place + 4 := congrArg Cursor.position stops
  by_cases allowed : declared.toNat ≤ policy.maxSequence
  · rw [if_pos allowed]
    exact failsBy_pure _ within
  · rw [if_neg allowed]
    have above : policy.maxSequence < declared.toNat := by omega
    exact failsBy_fail _ within (.longList part stands above)

/-- A list fails if its length or one of its elements does. -/
theorem list_failsBy (part : Part) {element : Reader α}
    (every : ∀ place ≤ bytes.length, FailsBy bytes (Fault policy bytes) element place)
    (within : place ≤ bytes.length) :
    FailsBy bytes (Fault policy bytes) (list policy part element) place := by
  apply (length_failsBy part within).bind
  intro count last within _
  exact times_failsBy every count within

/-- A list of words fails if its length does or its words are cut off. -/
theorem wordList_failsBy (part : Part) (within : place ≤ bytes.length) :
    FailsBy bytes (Fault policy bytes) (wordList policy part) place := by
  apply (length_failsBy part within).bind
  intro count last within yields
  obtain ⟨written, ⟨fits, _⟩, _⟩ := (length_accepts policy part).stands yields
  exact words_failsBy Fault.short count fits within

/-- What follows a tag fails if it is cut off or a string that is too long. -/
theorem payload_failsBy (tag : Constant.Tag) (within : place ≤ bytes.length) :
    FailsBy bytes (Fault policy bytes) (payload policy tag) place := by
  cases tag with
  | nil => exact failsBy_pure _ within
  | boolean => exact (byte_failsBy Fault.short within).map _
  | number => exact (number_failsBy Fault.short within).map _
  | shortString => exact (string_failsBy within).map _
  | integer => exact (integer_failsBy Fault.short within).map _
  | longString => exact (string_failsBy within).map _

/-- A constant fails if its tag is missing or unknown or what follows the tag fails. -/
theorem constant_failsBy (within : place ≤ bytes.length) :
    FailsBy bytes (Fault policy bytes) (constant policy) place := by
  apply failsBy_position_bind
  apply (byte_failsBy Fault.short within).bind
  intro first last within yields
  obtain ⟨written, rfl, stands, stops⟩ := byte_accepts.stands yields
  obtain rfl : last = place + 1 := congrArg Cursor.position stops
  cases found : Constant.Tag.ofByte? first with
  | none => exact failsBy_fail _ within (.unknownTag stands found)
  | some tag =>
    apply (payload_failsBy tag within).bind
    intro value last within _
    exact failsBy_log_bind (failsBy_pure value within)

/-- An upvalue fails if it is cut off. -/
theorem upvalue_failsBy (within : place ≤ bytes.length) :
    FailsBy bytes (Fault policy bytes) upvalue place := by
  apply (byte_failsBy Fault.short within).bind
  intro flag last within _
  exact (byte_failsBy Fault.short within).map (Upvalue.mk flag)

/-- A local variable fails if its name does or if it is cut off. -/
theorem localVariable_failsBy (within : place ≤ bytes.length) :
    FailsBy bytes (Fault policy bytes) (localVariable policy) place := by
  apply (string_failsBy within).bind
  intro name last within _
  apply (word_failsBy Fault.short within).bind
  intro start last within _
  exact (word_failsBy Fault.short within).map (LocalVariable.mk name start)

/-- Debug information fails if one of its lists does. -/
theorem debugInfo_failsBy (within : place ≤ bytes.length) :
    FailsBy bytes (Fault policy bytes) (debugInfo policy) place := by
  apply (wordList_failsBy .lines within).bind
  intro lines last within _
  apply (list_failsBy .locals (fun _ within => localVariable_failsBy within) within).bind
  intro locals last within _
  exact (list_failsBy .upvalueNames (fun _ within => string_failsBy within) within).map
    (DebugInfo.mk lines locals)

/-- The fields in front of the lists fail if the name does or if they are cut off. -/
theorem functionHead_failsBy (within : place ≤ bytes.length) :
    FailsBy bytes (Fault policy bytes) (functionHead policy) place := by
  apply (string_failsBy within).bind
  intro source last within _
  apply (word_failsBy Fault.short within).bind
  intro lineDefined last within _
  apply (word_failsBy Fault.short within).bind
  intro lastLineDefined last within _
  apply (byte_failsBy Fault.short within).bind
  intro parameterCount last within _
  apply (byte_failsBy Fault.short within).bind
  intro varargFlag last within _
  exact (byte_failsBy Fault.short within).map
    (FunctionHead.mk source lineDefined lastLineDefined parameterCount varargFlag)

/-- The lists of a function fail if one of them does. -/
theorem functionLists_failsBy {nested : Reader Prototype}
    (functions : ∀ place ≤ bytes.length,
      FailsBy bytes (Fault policy bytes) (list policy .functions nested) place)
    (within : place ≤ bytes.length) :
    FailsBy bytes (Fault policy bytes) (functionLists policy nested) place := by
  apply (wordList_failsBy .code within).bind
  intro code last within _
  apply (list_failsBy .constants (fun _ within => constant_failsBy within) within).bind
  intro constants last within _
  apply (list_failsBy .upvalues (fun _ within => upvalue_failsBy within) within).bind
  intro upvalues last within _
  apply (functions last within).bind
  intro inner last within _
  exact (debugInfo_failsBy within).map (FunctionLists.mk code constants upvalues inner)

/-- A function fails if one of its parts does. -/
theorem functionWith_failsBy {nested : ByteString → Reader Prototype}
    (functions : ∀ name, ∀ place ≤ bytes.length,
      FailsBy bytes (Fault policy bytes) (list policy .functions (nested name)) place)
    (inherited : ByteString) (within : place ≤ bytes.length) :
    FailsBy bytes (Fault policy bytes) (functionWith policy nested inherited) place := by
  rw [functionWith_eq]
  apply failsBy_position_bind
  apply (functionHead_failsBy within).bind
  intro head last within _
  apply (functionLists_failsBy (functions _) within).bind
  intro lists last within _
  exact failsBy_log_bind (failsBy_pure _ within)

/-- Where no levels are left, a list of functions fails unless it is empty, right behind its
length. -/
theorem functions_failsBy_zero (inherited : ByteString) (within : place ≤ bytes.length) :
    FailsBy bytes (Fault policy bytes)
      (list policy .functions (nestedFunction policy 0 inherited)) place := by
  apply (length_failsBy .functions within).bind
  intro count last within yields
  obtain ⟨written, ⟨fits, allowed, rfl⟩, stands, stops⟩ :=
    (length_accepts policy .functions).stands yields
  obtain rfl : last = place + 4 := congrArg Cursor.position stops
  cases count with
  | zero =>
    rw [times_zero]
    exact failsBy_pure [] within
  | succ count =>
    have exact : (UInt32.ofNat (count + 1)).toNat = count + 1 := UInt32.toNat_ofNat_of_lt' fits
    have deep : Fault policy bytes (.nestedTooDeep policy.maxDepth (place + 4)) (place + 4) := by
      rw [← exact] at stands allowed
      exact .tooDeep stands (by omega) allowed
    have first : FailsBy bytes (Fault policy bytes) (nestedFunction policy 0 inherited)
        (place + 4) := by
      apply failsBy_position_bind
      exact failsBy_fail _ within deep
    rw [times_succ]
    apply first.bind
    intro tree last within yields
    -- The reader of the first function only fails.
    exact absurd yields.1 nofun

/-- A list of nested functions fails if its length or a part of one of the functions does, or
where no levels are left. -/
theorem functions_failsBy (levels : Nat) (inherited : ByteString)
    (within : place ≤ bytes.length) :
    FailsBy bytes (Fault policy bytes)
      (list policy .functions (nestedFunction policy levels inherited)) place := by
  induction levels generalizing inherited place with
  | zero => exact functions_failsBy_zero inherited within
  | succ levels ih =>
    apply list_failsBy .functions _ within
    intro place within
    exact functionWith_failsBy (fun name _ within => ih name within) inherited within

/-- A function with everything nested in it fails in one of the ways listed. -/
theorem function_failsBy (inherited : ByteString) (within : place ≤ bytes.length) :
    FailsBy bytes (Fault policy bytes) (function policy inherited) place :=
  functionWith_failsBy (fun name _ within => functions_failsBy policy.maxDepth name within)
    inherited within

/-- Header fields fail at the first one that is missing or differs, if the fields before them
stand where the header begins. -/
theorem expect_failsBy (start : Nat) (earlier fields : List (HeaderField × List UInt8))
    (split : Header.standard.fields = earlier ++ fields)
    (stands : StandsAt bytes start (earlier.flatMap Prod.snd))
    (within : start + (earlier.flatMap Prod.snd).length ≤ bytes.length) :
    FailsBy bytes (HeaderFault bytes start) (expect fields)
      (start + (earlier.flatMap Prod.snd).length) := by
  induction fields generalizing earlier with
  | nil => exact failsBy_pure () within
  | cons entry further ih =>
    obtain ⟨field, expected⟩ := entry
    apply failsBy_position_bind
    apply (block_failsBy expected.length expected.length within ?_).bind
    · intro found last within yields
      obtain ⟨written, ⟨complete, rfl⟩, standsHere, stops⟩ :=
        (block_accepts expected.length expected.length).stands yields
      obtain rfl : last = start + (earlier.flatMap Prod.snd).length + written.length :=
        congrArg Cursor.position stops
      have together : StandsAt bytes start (earlier.flatMap Prod.snd ++ written) :=
        (standsAt_append bytes start _ _).mpr ⟨stands, standsHere⟩
      by_cases matched : written = expected
      · rw [if_pos matched]
        have longer : (earlier ++ [(field, expected)]).flatMap Prod.snd =
            earlier.flatMap Prod.snd ++ written := by
          rw [List.flatMap_append, matched, List.flatMap_cons, List.flatMap_nil, List.append_nil]
        have rest := ih (earlier ++ [(field, expected)])
        rw [longer, List.length_append, ← Nat.add_assoc] at rest
        refine rest ?_ together within
        rw [split, List.append_assoc]
        rfl
      · rw [if_neg matched]
        rw [complete] at within ⊢
        exact failsBy_fail _ within (.mismatch split together complete matched)
    · intro short
      exact .truncated split stands (by omega) short

/-- The header fails at its first field that is missing or differs. -/
theorem header_failsBy (start : Nat) (within : start ≤ bytes.length) :
    FailsBy bytes (HeaderFault bytes start) header start := by
  have fields := expect_failsBy start [] Header.standard.fields rfl List.nil_prefix within
  apply fields.bind
  intro _ last within _
  exact failsBy_log_bind (failsBy_pure _ within)

end Parts

/-- A fault of one kind is a fault of more kinds. -/
theorem FailsBy.weaken {α : Type} {bytes : List UInt8} {fault other : DecodeError → Nat → Prop}
    {read : Reader α} {place : Nat} (fails : FailsBy bytes fault read place)
    (also : ∀ error stop, fault error stop → other error stop) :
    FailsBy bytes other read place where
  stays := fails.stays
  faults := fun error failed => also error _ (fails.faults error failed)

/-- The beginning of a chunk fails in its header, or otherwise in one of the ways listed. -/
theorem mainFunction_failsBy (policy : Policy) (bytes : List UInt8) :
    FailsBy bytes (fun error stop => HeaderFault bytes 0 error stop ∨ Fault policy bytes error stop)
      (mainFunction policy) 0 := by
  have start : FailsBy bytes _ header 0 := header_failsBy 0 (Nat.zero_le bytes.length)
  apply (start.weaken fun _ _ => .inl).bind
  intro _ last within _
  have count : FailsBy bytes (Fault policy bytes) byte last := byte_failsBy Fault.short within
  apply (count.weaken fun _ _ => .inr).bind
  intro _ last within _
  have main : FailsBy bytes _ (function policy .empty) last := function_failsBy .empty within
  exact failsBy_log_bind (main.weaken fun _ _ => .inr)

end Reader

end LuaChunk
