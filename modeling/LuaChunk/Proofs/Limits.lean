import LuaChunk.Proofs.Comparison
import LuaChunk.Proofs.Inheritance

/-!
# What the bounds of a policy change

Bytes are read under two policies, one of which has smaller bounds. `decode_of_tighter` says that
this makes a difference in one way only: the strict policy refuses a size or a function at a place
that the loose one gets to, with an error that names the bound. And it refuses exactly the trees
that pass one of its bounds.
-/
namespace LuaChunk

/-- An error names a bound of a policy that was passed. -/
def DecodeError.IsLimitOf (policy : Policy) : DecodeError → Prop
  | limitExceeded what _ limit _ =>
    (what = "string" ∧ limit = policy.maxString) ∨
      ((∃ part : Part, what = part.label) ∧ limit = policy.maxSequence)
  | nestedTooDeep limit _ => limit = policy.maxDepth
  | _ => False

/-- Smaller bounds refuse with errors that name them. -/
theorem Policy.tightens_of_le {strict loose : Policy}
    (allowTrailing : strict.allowTrailing = loose.allowTrailing)
    (maxSequence : strict.maxSequence ≤ loose.maxSequence)
    (maxString : strict.maxString ≤ loose.maxString)
    (maxDepth : strict.maxDepth ≤ loose.maxDepth) :
    strict.Tightens (DecodeError.IsLimitOf strict) loose where
  maxSequence_le := maxSequence
  maxString_le := maxString
  maxDepth_le := maxDepth
  allowTrailing_eq := allowTrailing
  refusesList := fun _ part _ _ => .inr ⟨⟨part, rfl⟩, rfl⟩
  refusesString := fun _ _ _ => .inl ⟨rfl, rfl⟩
  refusesDepth := fun _ _ => rfl

/-- If a policy reads bytes as a tree, then one that allows the same bytes after the main function
reads them so exactly if it admits the tree. -/
theorem decode_eq_ok_iff_admits {policy other : Policy} {bytes : List UInt8} {tree : Prototype}
    (allowTrailing : policy.allowTrailing = other.allowTrailing)
    (read : decode other bytes = .ok tree) :
    decode policy bytes = .ok tree ↔ policy.Admits tree := by
  obtain ⟨stop, yields, allowed⟩ := (decode_eq_ok_iff other bytes tree).mp read
  obtain ⟨main, written, splits, _, resolved, place⟩ :=
    (Reader.mainFunction_yields_iff other bytes tree stop).mp yields
  constructor
  · intro answers
    obtain ⟨_, yieldsToo, _⟩ := (decode_eq_ok_iff policy bytes tree).mp answers
    obtain ⟨found, _, _, admitted, rfl, _⟩ :=
      (Reader.mainFunction_yields_iff policy bytes tree _).mp yieldsToo
    exact (policy.admits_inherit_iff found).mpr admitted
  · intro admitted
    rw [resolved, policy.admits_inherit_iff] at admitted
    have yieldsToo := (Reader.mainFunction_yields_iff policy bytes tree stop).mpr
      ⟨main, written, splits, admitted, resolved, place⟩
    rw [← allowTrailing] at allowed
    exact (decode_eq_ok_iff policy bytes tree).mpr ⟨stop, yieldsToo, allowed⟩

/-- With bounds that are nowhere larger, the result of reading bytes stays the same or becomes an
error that names one of the bounds, at a place not behind that of the error with the larger bounds.
What is read with the larger bounds is read with the smaller ones exactly if the tree is within
them. -/
theorem decode_of_tighter (strict loose : Policy) (bytes : List UInt8)
    (allowTrailing : strict.allowTrailing = loose.allowTrailing)
    (maxSequence : strict.maxSequence ≤ loose.maxSequence)
    (maxString : strict.maxString ≤ loose.maxString)
    (maxDepth : strict.maxDepth ≤ loose.maxDepth) :
    (decode strict bytes = decode loose bytes ∨
      ∃ error, decode strict bytes = .error error ∧ error.IsLimitOf strict ∧
        ∀ other, decode loose bytes = .error other → error.offset ≤ other.offset) ∧
    ∀ tree, decode loose bytes = .ok tree →
      (decode strict bytes = .ok tree ↔ strict.Admits tree) := by
  have tightens := Policy.tightens_of_le allowTrailing maxSequence maxString maxDepth
  constructor
  · have follows : Reader.Follows _ 0 _ _ := Reader.chunk_follows tightens
    have compared := follows 0 (.start bytes) (Nat.le_refl 0)
    rw [Cursor.shift_zero] at compared
    cases compared with
    | same outcome stop onward =>
      rw [DecodeError.mapError_shift_zero] at outcome
      exact .inl outcome
    | refusal error isLimit failed behind onward =>
      rw [DecodeError.shift_zero] at failed
      exact .inr ⟨error, failed, isLimit, onward.offset⟩
  · exact fun tree read => decode_eq_ok_iff_admits allowTrailing read

/-- A function with one function in it is read where one level of nesting is allowed. Where none is,
the function inside is refused at the place where it begins. -/
theorem decode_of_tighter_nested :
    let bytes := Header.standard.bytes ++ List.replicate 25 0 ++ [1, 0, 0, 0] ++ List.replicate 52 0
    let inner : Prototype := ⟨.empty, 0, 0, 0, 0, 0, [], [], [], [], ⟨[], [], []⟩⟩
    let tree : Prototype := { inner with functions := [inner] }
    decode ⟨1, 1, 1, true⟩ bytes = .ok tree ∧
      decode ⟨1, 1, 0, true⟩ bytes = .error (.nestedTooDeep 0 62) ∧
      (decode ⟨1, 1, 0, true⟩ bytes = .ok tree ↔ Policy.Admits ⟨1, 1, 0, true⟩ tree) ∧
      ∃ error, decode ⟨1, 1, 0, true⟩ bytes = .error error ∧ error.IsLimitOf ⟨1, 1, 0, true⟩ := by
  intro bytes inner tree
  have read : decode ⟨1, 1, 1, true⟩ bytes = .ok tree := by decide +kernel
  have refused : decode ⟨1, 1, 0, true⟩ bytes = .error (.nestedTooDeep 0 62) := by decide +kernel
  obtain ⟨compared, admitted⟩ := decode_of_tighter ⟨1, 1, 0, true⟩ ⟨1, 1, 1, true⟩ bytes rfl
    (Nat.le_refl 1) (Nat.le_refl 1) (Nat.zero_le 1)
  refine ⟨read, refused, admitted tree read, ?_⟩
  rcases compared with same | ⟨error, failed, isLimit, _⟩
  · exact absurd (refused.symm.trans (same.trans read)) nofun
  · exact ⟨error, failed, isLimit⟩

end LuaChunk
