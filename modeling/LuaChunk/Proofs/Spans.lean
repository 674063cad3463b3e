import LuaChunk.Proofs.Acceptance
import LuaChunk.Proofs.Paths
import LuaChunk.Proofs.Reader.Failure

/-!
# Where functions stand

Every function of a tree that is read from a chunk has a span of the bytes for itself. The spans
of the functions nested in a function follow one another inside its own span, and the bytes of a
span are enough to read the function again, given the name that it inherits. Behind a standard
header they are a chunk. The spans cannot be computed from the tree, which does not tell how its
sizes were spelled, so `SpelledBy.exists_laidOut` finds them along the spelling, and
`exists_spans_of_decode` is the result for chunks.
-/
namespace LuaChunk

/-- A part of some bytes: those from a place on and before another place. -/
structure Span where
  /-- The place of the first byte. -/
  start : Nat
  /-- The place behind the last byte. -/
  stop : Nat
  /-- The part does not end before it begins. -/
  ordered : start ≤ stop

namespace Span

/-- The bytes in a span. -/
def part (span : Span) (bytes : List UInt8) : List UInt8 :=
  (bytes.drop span.start).take (span.stop - span.start)

/-- A span lies inside another one. -/
structure Within (inner outer : Span) : Prop where
  /-- It does not begin before the other one. -/
  start_le : outer.start ≤ inner.start
  /-- It does not end behind the other one. -/
  stop_le : inner.stop ≤ outer.stop

/-- A span inside a span that lies inside another one lies inside that one. -/
theorem Within.trans {inner middle outer : Span} (first : inner.Within middle)
    (second : middle.Within outer) : inner.Within outer where
  start_le := Nat.le_trans second.start_le first.start_le
  stop_le := Nat.le_trans first.stop_le second.stop_le

/-- What stands at a place is the part of the bytes in the span that it takes. -/
theorem part_of_standsAt {span : Span} {bytes written : List UInt8}
    (stands : StandsAt bytes span.start written)
    (length : span.stop = span.start + written.length) : span.part bytes = written := by
  obtain ⟨rest, same⟩ := stands
  have size : span.stop - span.start = written.length := by omega
  rw [part, size, ← same, List.take_left]

end Span

namespace Prototype

/-- The functions of a tree, each spelled by the bytes of a span. -/
structure LaidOut (tree : Prototype) (bytes : List UInt8) (span : List Nat → Span) : Prop where
  /-- Every function is spelled by the bytes of its span. -/
  spelled : ∀ path inner, tree.follow? path = some inner →
    inner.SpelledBy ((span path).part bytes)
  /-- A nested function stands inside the function around it. -/
  inside : ∀ path index inner, tree.follow? (path ++ [index]) = some inner →
    (span (path ++ [index])).Within (span path)
  /-- It begins where the function before it ends. -/
  adjacent : ∀ path index inner, tree.follow? (path ++ [index + 1]) = some inner →
    (span (path ++ [index + 1])).start = (span (path ++ [index])).stop

/-- Every function of a tree stands inside the root. -/
theorem LaidOut.within_root {tree : Prototype} {bytes : List UInt8} {span : List Nat → Span}
    (laidOut : tree.LaidOut bytes span) {path : List Nat} {inner : Prototype}
    (reaches : tree.follow? path = some inner) : (span path).Within (span []) := by
  -- The induction is on what is left of the path behind a front part of it.
  have below : ∀ (back front : List Nat) (inner : Prototype),
      tree.follow? (front ++ back) = some inner → (span (front ++ back)).Within (span front) := by
    intro back
    induction back with
    | nil =>
      intro front inner reaches
      rw [List.append_nil]
      exact ⟨Nat.le_refl _, Nat.le_refl _⟩
    | cons index back ih =>
      intro front inner reaches
      rw [List.append_cons] at reaches ⊢
      have whole := reaches
      rw [follow?_append] at reaches
      obtain ⟨middle, reachesMiddle, _⟩ := Option.bind_eq_some_iff.mp reaches
      have first := ih (front ++ [index]) inner whole
      exact first.trans (laidOut.inside front index middle reachesMiddle)
  exact below path [] inner reaches

/-- Where an element begins among elements that stand one behind the other: the number of bytes of
those in front of it. -/
def offset (entries : List (Prototype × List UInt8)) (index : Nat) : Nat :=
  ((entries.take index).flatMap Prod.snd).length

section Entries

variable {entries : List (Prototype × List UInt8)} {index : Nat} {entry : Prototype × List UInt8}

/-- An element ends where the next one begins. -/
theorem offset_succ (found : entries[index]? = some entry) :
    offset entries (index + 1) = offset entries index + entry.2.length := by
  have next : entries.take (index + 1) = entries.take index ++ [entry] := by
    rw [List.take_add_one, found]
    rfl
  simp [offset, next]

/-- No element begins behind the end of all of them. -/
theorem offset_le (entries : List (Prototype × List UInt8)) (index : Nat) :
    offset entries index ≤ (entries.flatMap Prod.snd).length := by
  have total := congrArg (fun items => (items.flatMap Prod.snd).length)
    (List.take_append_drop index entries)
  simp only [List.flatMap_append, List.length_append] at total
  unfold offset
  omega

/-- An element stands where the elements in front of it end. -/
theorem standsAt_offset {bytes : List UInt8} {place : Nat}
    (stands : StandsAt bytes place (entries.flatMap Prod.snd))
    (found : entries[index]? = some entry) :
    StandsAt bytes (place + offset entries index) entry.2 := by
  obtain ⟨inRange, here⟩ := List.getElem?_eq_some_iff.mp found
  have split : entries = entries.take index ++ entry :: entries.drop (index + 1) := by
    rw [← here, List.getElem_cons_drop, List.take_append_drop]
  rw [split, List.flatMap_append, List.flatMap_cons, standsAt_append, standsAt_append] at stands
  exact stands.2.1

end Entries

/-- The spans of a tree, given its own span and those of the trees nested in its root. -/
def spans (root : Span) (below : Nat → List Nat → Span) : List Nat → Span
  | [] => root
  | index :: path => below index path

/-- A tree is laid out if the trees nested in its root are, one behind the other and inside the
span of the root. -/
theorem laidOut_spans {tree : Prototype} {bytes : List UInt8} {root : Span}
    {below : Nat → List Nat → Span} (spelled : tree.SpelledBy (root.part bytes))
    (each : ∀ index inner, tree.functions[index]? = some inner →
      inner.LaidOut bytes (below index) ∧ (below index []).Within root)
    (next : ∀ index inner, tree.functions[index + 1]? = some inner →
      (below (index + 1) []).start = (below index []).stop) :
    tree.LaidOut bytes (spans root below) where
  spelled := by
    intro path inner reaches
    cases path with
    | nil =>
      rw [← Option.some.inj reaches]
      exact spelled
    | cons index path =>
      obtain ⟨middle, chosen, further⟩ := Option.bind_eq_some_iff.mp reaches
      exact (each index middle chosen).1.spelled path inner further
  inside := by
    intro path index inner reaches
    cases path with
    | nil =>
      rw [follow?_step rfl] at reaches
      exact (each index inner reaches).2
    | cons first path =>
      obtain ⟨middle, chosen, further⟩ := Option.bind_eq_some_iff.mp reaches
      exact (each first middle chosen).1.inside path index inner further
  adjacent := by
    intro path index inner reaches
    cases path with
    | nil =>
      rw [follow?_step rfl] at reaches
      exact next index inner reaches
    | cons first path =>
      obtain ⟨middle, chosen, further⟩ := Option.bind_eq_some_iff.mp reaches
      exact (each first middle chosen).1.adjacent path index inner further

/-- The trees nested in the root of a tree are spelled one behind the other. -/
theorem SpelledBy.exists_nested {tree : Prototype} {written : List UInt8}
    (spelled : tree.SpelledBy written) :
    ∃ (front back : List UInt8) (entries : List (Prototype × List UInt8)),
      tree.functions = entries.map Prod.fst ∧
      (∀ entry ∈ entries, entry.1.SpelledBy entry.2) ∧
      written = front ++ (entries.flatMap Prod.snd ++ back) := by
  cases spelled with
  | @intro _ name code constants upvalues functions lines locals names _ _ _ _ nestedSpelled =>
    obtain ⟨_, entries, spelledEach, nested, rfl⟩ := (counted_iff _ _).mp nestedSpelled
    let head := name ++ encodeWord tree.lineDefined ++ encodeWord tree.lastLineDefined ++
      [tree.parameterCount, tree.varargFlag, tree.stackSize]
    let lists := code ++ constants ++ upvalues ++ LittleEndian.encode 4 tree.functions.length
    refine ⟨head ++ lists, lines ++ locals ++ names, entries, nested, spelledEach, ?_⟩
    simp only [head, lists, List.append_assoc]

/-- The first parts of entries have their second parts at the same place of the list. -/
theorem exists_entry {trees : List Prototype} {entries : List (Prototype × List UInt8)}
    (same : trees = entries.map Prod.fst) {index : Nat} {inner : Prototype}
    (chosen : trees[index]? = some inner) : ∃ written, entries[index]? = some (inner, written) := by
  rw [same, List.getElem?_map] at chosen
  obtain ⟨⟨_, written⟩, found, rfl⟩ := Option.map_eq_some_iff.mp chosen
  exact ⟨written, found⟩

/-- If each of several trees is laid out wherever its spelling stands, then the trees are laid out
one behind the other where their spellings stand so. -/
theorem exists_laidOut_entries {bytes : List UInt8} {place : Nat}
    {entries : List (Prototype × List UInt8)}
    (each : ∀ entry ∈ entries, ∀ place, StandsAt bytes place entry.2 →
      ∃ span, (span []).start = place ∧ (span []).stop = place + entry.2.length ∧
        entry.1.LaidOut bytes span)
    (stands : StandsAt bytes place (entries.flatMap Prod.snd)) :
    ∃ below : Nat → List Nat → Span, ∀ index entry, entries[index]? = some entry →
      (below index []).start = place + offset entries index ∧
        (below index []).stop = place + offset entries (index + 1) ∧
        entry.1.LaidOut bytes (below index) := by
  have one : ∀ index, ∃ span : List Nat → Span, ∀ entry, entries[index]? = some entry →
      (span []).start = place + offset entries index ∧
        (span []).stop = place + offset entries (index + 1) ∧ entry.1.LaidOut bytes span := by
    intro index
    cases found : entries[index]? with
    | none => exact ⟨fun _ => ⟨place, place, Nat.le_refl place⟩, nofun⟩
    | some entry =>
      have here := standsAt_offset stands found
      obtain ⟨span, start, stop, laidOut⟩ := each entry (List.mem_of_getElem? found) _ here
      refine ⟨span, ?_⟩
      intro other same
      obtain rfl := Option.some.inj same
      have next := offset_succ found
      exact ⟨start, by omega, laidOut⟩
  exact Classical.skolem.mp one

/-- Wherever a spelling of a tree stands, it lays the tree out. -/
theorem SpelledBy.exists_laidOut {tree : Prototype} {written : List UInt8}
    (spelled : tree.SpelledBy written) {bytes : List UInt8} {place : Nat}
    (stands : StandsAt bytes place written) :
    ∃ span, (span []).start = place ∧ (span []).stop = place + written.length ∧
      tree.LaidOut bytes span := by
  induction tree using nestedInduction generalizing written place with
  | step tree ih =>
    let root : Span := ⟨place, place + written.length, Nat.le_add_right _ _⟩
    have rootSpelled : tree.SpelledBy (root.part bytes) := by
      rwa [Span.part_of_standsAt stands rfl]
    obtain ⟨front, back, entries, nested, spelledEach, parts⟩ := spelled.exists_nested
    have length := congrArg List.length parts
    rw [List.length_append, List.length_append] at length
    rw [parts, standsAt_append, standsAt_append] at stands
    have each : ∀ entry ∈ entries, ∀ place, StandsAt bytes place entry.2 →
        ∃ span, (span []).start = place ∧ (span []).stop = place + entry.2.length ∧
          entry.1.LaidOut bytes span := by
      intro entry member place here
      have memberNested : entry.1 ∈ tree.functions := by
        rw [nested]
        exact List.mem_map_of_mem member
      exact ih entry.1 memberNested (spelledEach entry member) here
    obtain ⟨below, placed⟩ := exists_laidOut_entries each stands.2.1
    refine ⟨spans root below, rfl, rfl, laidOut_spans rootSpelled ?_ ?_⟩
    · intro index inner chosen
      obtain ⟨own, found⟩ := exists_entry nested chosen
      obtain ⟨start, stop, laidOut⟩ := placed index (inner, own) found
      have last := offset_le entries (index + 1)
      refine ⟨laidOut, ?_, ?_⟩
      · show place ≤ (below index []).start
        omega
      · show (below index []).stop ≤ place + written.length
        omega
    · intro index inner chosen
      obtain ⟨own, found⟩ := exists_entry nested chosen
      obtain ⟨inRange, _⟩ := List.getElem?_eq_some_iff.mp found
      have earlier : index < entries.length := by omega
      have start := (placed (index + 1) (inner, own) found).1
      have stop := (placed index entries[index] (List.getElem?_eq_getElem earlier)).2.1
      omega

end Prototype

/-- A function can be read from its own bytes, given the name that it inherits, and behind a
standard header they are a chunk without anything else. -/
structure Prototype.ReadAlone (policy : Policy) (inherited : ByteString) (tree : Prototype)
    (part : List UInt8) : Prop where
  /-- The reader of functions answers with the function and stops at the end. -/
  yields : (Reader.function policy inherited).Yields (.start part) tree ⟨part.length, []⟩
  /-- The reader of chunks answers with the function, too, where only the names are missing that
  it took from outside. -/
  decodes : ∃ bare other : Prototype, bare.SpelledBy part ∧
    Prototype.Renames (Prototype.Nameless · bare) inherited .empty tree other ∧
    ∀ upvalueCount : UInt8, decode { policy with allowTrailing := false }
      (Header.standard.bytes ++ upvalueCount :: part) = .ok other

/-- The bytes of a function that a policy admits are read alone. -/
theorem Prototype.SpelledBy.readAlone {policy : Policy} {bare : Prototype} {part : List UInt8}
    (spelled : bare.SpelledBy part) (admitted : policy.Admits bare) (inherited : ByteString) :
    (bare.inherit inherited).ReadAlone policy inherited part where
  yields := by
    have accepts := Reader.function_accepts policy inherited
    refine (accepts.yields_iff _ _ _).mpr ⟨part, ⟨bare, ⟨spelled, admitted⟩, rfl⟩, ?_, ?_⟩
    · exact (List.append_nil part).symm
    · exact (Nat.zero_add part.length).symm
  decodes := by
    refine ⟨bare, bare.inherit .empty, spelled, bare.inherit_renames inherited .empty, ?_⟩
    intro upvalueCount
    let bytes := Header.standard.bytes ++ upvalueCount :: part
    have splits : SplitsInto bytes bare part [] := by
      refine ⟨spelled, upvalueCount, ?_⟩
      rw [List.append_nil]
    have yields := (Reader.mainFunction_yields_iff { policy with allowTrailing := false } bytes _
      ⟨34 + part.length, []⟩).mpr ⟨bare, part, splits, admitted, rfl, rfl⟩
    exact (decode_eq_ok_iff _ bytes _).mpr ⟨_, yields, .inl rfl⟩

/-- In a chunk the main function stands behind the header and one byte. -/
theorem SplitsInto.standsAt {bytes written rest : List UInt8} {main : Prototype}
    (splits : SplitsInto bytes main written rest) : StandsAt bytes 34 written := by
  obtain ⟨upvalueCount, parts⟩ := splits.parts
  have front : (Header.standard.bytes ++ [upvalueCount]).length = 34 := by
    rw [List.length_append, Header.length_bytes_standard]
    rfl
  refine ⟨rest, ?_⟩
  rw [parts, List.append_cons, ← front, List.drop_left]

/-- Spans of the functions of a tree that was read from some bytes up to a place. -/
structure Prototype.Spanned (policy : Policy) (bytes : List UInt8) (stop : Nat)
    (tree : Prototype) (span : List Nat → Span) : Prop where
  /-- The root begins behind the header and the byte after it, and ends where the reader stopped. -/
  root : (span []).start = 34 ∧ (span []).stop = stop
  /-- Every function stands inside the root. -/
  within : ∀ path inner, tree.follow? path = some inner → (span path).Within (span [])
  /-- A nested function stands inside the function around it. -/
  inside : ∀ path index inner, tree.follow? (path ++ [index]) = some inner →
    (span (path ++ [index])).Within (span path)
  /-- It begins where the function before it ends. -/
  adjacent : ∀ path index inner, tree.follow? (path ++ [index + 1]) = some inner →
    (span (path ++ [index + 1])).start = (span (path ++ [index])).stop
  /-- The root is read alone, with no name to inherit. -/
  rootAlone : tree.ReadAlone policy .empty ((span []).part bytes)
  /-- A nested function is read alone, given the name of the function around it. -/
  nestedAlone : ∀ path outer (index : Nat) (inner : Prototype), tree.follow? path = some outer →
    outer.functions[index]? = some inner →
      inner.ReadAlone policy outer.source ((span (path ++ [index])).part bytes)

/-- If bytes are read as a chunk, then every function of the tree has a span of the bytes. The
spans of nested functions follow one another inside the span of the function around them, and each
function can be read from the bytes of its span alone. -/
theorem exists_spans_of_decode (policy : Policy) (bytes : List UInt8) (tree : Prototype)
    (succeeds : decode policy bytes = .ok tree) :
    ∃ span, tree.Spanned policy bytes (read policy bytes).stop.position span := by
  obtain ⟨yields, _⟩ := (Reader.chunk_yields_iff policy (.start bytes) tree
    (read policy bytes).stop).mp ⟨succeeds, rfl⟩
  obtain ⟨main, written, splits, admitted, rfl, place⟩ :=
    (Reader.mainFunction_yields_iff policy bytes tree _).mp yields
  obtain ⟨span, start, stop, laidOut⟩ := splits.spelled.exists_laidOut splits.standsAt
  -- The functions of the tree are those of the tree on the wire with their names filled in.
  have onWire : ∀ path inner, (main.inherit .empty).follow? path = some inner →
      ∃ bare around, main.follow? path = some bare ∧ inner = bare.inherit around :=
    fun path inner => Prototype.exists_of_follow?_inherit
  refine ⟨span, ⟨start, stop.trans place.symm⟩, ?_, ?_, ?_, ?_, ?_⟩
  · intro path inner reaches
    obtain ⟨bare, _, reachesBare, _⟩ := onWire path inner reaches
    exact laidOut.within_root reachesBare
  · intro path index inner reaches
    obtain ⟨bare, _, reachesBare, _⟩ := onWire _ inner reaches
    exact laidOut.inside path index bare reachesBare
  · intro path index inner reaches
    obtain ⟨bare, _, reachesBare, _⟩ := onWire _ inner reaches
    exact laidOut.adjacent path index bare reachesBare
  · exact (laidOut.spelled [] main rfl).readAlone admitted .empty
  · intro path outer index inner reaches chosen
    obtain ⟨bareOuter, around, reachesOuter, rfl⟩ := onWire path outer reaches
    rw [Prototype.functions_inherit] at chosen
    obtain ⟨bare, chosenBare, rfl⟩ := Option.map_eq_some_iff.mp chosen
    have reachesBare : main.follow? (path ++ [index]) = some bare := by
      rw [Prototype.follow?_step reachesOuter, chosenBare]
    exact (laidOut.spelled _ bare reachesBare).readAlone (admitted.follow reachesBare) _

/-- The second of two functions in a function named a takes its name, and the function in it does
too. -/
theorem exists_spans_of_decode_inherited :
    let innermost : Prototype := ⟨⟨[0x61]⟩, 1, 1, 0, 0, 0, [], [], [], [], ⟨[], [], []⟩⟩
    let named : Prototype := ⟨⟨[0x62]⟩, 1, 1, 0, 0, 0, [], [], [], [], ⟨[], [], []⟩⟩
    let unnamed : Prototype := ⟨⟨[0x61]⟩, 1, 1, 0, 0, 0, [], [], [], [innermost], ⟨[], [], []⟩⟩
    let main : Prototype :=
      ⟨⟨[0x61]⟩, 0, 0, 0, 0, 0, [], [], [], [named, unnamed], ⟨[], [], []⟩⟩
    let head : List UInt8 := [1, 0, 0, 0, 1, 0, 0, 0, 0, 0, 0] ++ List.replicate 12 0
    let bytes := Header.standard.bytes ++ 0 :: ([2, 0x61] ++ List.replicate 23 0 ++ [2, 0, 0, 0] ++
      ([2, 0x62] ++ head ++ List.replicate 16 0) ++
      ([0] ++ head ++ [1, 0, 0, 0] ++ ([0] ++ head ++ List.replicate 16 0) ++
        List.replicate 12 0) ++ List.replicate 12 0)
    decode .default bytes = .ok main ∧
      ∃ span, main.Spanned .default bytes (read .default bytes).stop.position span := by
  intro innermost named unnamed main head bytes
  have succeeds : decode .default bytes = .ok main := by decide +kernel
  exact ⟨succeeds, exists_spans_of_decode .default bytes main succeeds⟩

end LuaChunk
