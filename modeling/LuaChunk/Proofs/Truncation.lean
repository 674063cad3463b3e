import LuaChunk.Proofs.Sequence

/-!
# Chunks that are cut off

A chunk is read from the bytes up to the end of its main function and from no others. So any
bytes that begin with these are read in the same way, and from fewer of them no chunk can be
read: wherever they are cut off, the reader runs out of bytes.
-/
namespace LuaChunk

/-- Whether bytes may follow the main function does not matter up to its end. -/
theorem Reader.mainFunction_yields_congr (policy : Policy) (allowTrailing : Bool)
    (bytes : List UInt8) (tree : Prototype) (stop : Cursor) :
    (mainFunction { policy with allowTrailing }).Yields (.start bytes) tree stop ↔
      (mainFunction policy).Yields (.start bytes) tree stop := by
  have same : ∀ main, Policy.Admits { policy with allowTrailing } main ↔ policy.Admits main :=
    fun _ => Iff.rfl
  rw [mainFunction_yields_iff, mainFunction_yields_iff]
  simp only [same]

/-- The bytes before the place where the reader of the main function stops and those behind it
are all bytes. -/
theorem Reader.mainFunction_stop_total (policy : Policy) (bytes : List UInt8) :
    (mainFunction policy (.start bytes)).stop.position +
      (mainFunction policy (.start bytes)).stop.remaining = bytes.length := by
  obtain ⟨written, passes⟩ := (mainFunction_sequential policy).passes (.start bytes)
  exact passes.total.trans (Nat.zero_add _)

/-- From fewer bytes than the main function takes, its reader runs out of them. -/
theorem Reader.mainFunction_truncated (policy : Policy) {bytes : List UInt8} {tree : Prototype}
    {stop : Cursor} (yields : (mainFunction policy).Yields (.start bytes) tree stop)
    {length : Nat} (shorter : length < stop.position) :
    ∃ offset needed available,
      (mainFunction policy (.start (bytes.take length))).outcome =
          .error (.truncated offset needed available) ∧
        offset + available = length ∧ available < needed := by
  have grows := (mainFunction_sequential policy).grows (.start (bytes.take length))
    (bytes.drop length)
  have whole : (Cursor.start (bytes.take length)).extend (bytes.drop length) = .start bytes :=
    congrArg (Cursor.mk 0) (List.take_append_drop length bytes)
  have total := mainFunction_stop_total policy (bytes.take length)
  have totalWhole := mainFunction_stop_total policy bytes
  have answers := yields.1
  have stops := yields.2
  have cut : (bytes.take length).length = length := by
    rw [stops] at totalWhole
    rw [List.length_take]
    omega
  rw [whole] at grows
  rw [cut] at total
  generalize mainFunction policy (.start (bytes.take length)) = before at grows total ⊢
  generalize mainFunction policy (.start bytes) = after at grows answers stops
  cases grows with
  | same outcome last records settled =>
    -- The reader would stop at the same place, which lies behind the bytes that are there.
    have samePlace : last.position = stop.position := by
      rw [← stops]
      rfl
    have within : last.position + last.remaining = length := total
    omega
  | short needed last records short => exact absurd answers nofun
  | further needed last records _ missing _ _ _ =>
    exact ⟨last.position, needed, last.remaining, rfl, total, missing⟩

/-- If bytes are read as a chunk where others may follow, then the tree and the place where the
reader stops depend only on the bytes up to that place, and from fewer bytes no chunk is read,
whether others may follow or not: the error says how many bytes are missing and where. -/
theorem read_of_take_eq (policy : Policy) (bytes : List UInt8) (tree : Prototype)
    (allowed : policy.allowTrailing = true) (succeeds : decode policy bytes = .ok tree) :
    (∀ other : List UInt8,
      other.take (read policy bytes).stop.position =
          bytes.take (read policy bytes).stop.position →
        decode policy other = .ok tree ∧
          (read policy other).stop.position = (read policy bytes).stop.position) ∧
    ∀ length < (read policy bytes).stop.position, ∀ allowTrailing : Bool,
      ∃ offset needed available,
        decode { policy with allowTrailing } (bytes.take length) =
            .error (.truncated offset needed available) ∧
          offset + available = length ∧ available < needed := by
  obtain ⟨yields, _⟩ := (Reader.chunk_yields_iff policy (.start bytes) tree
    (read policy bytes).stop).mp ⟨succeeds, rfl⟩
  constructor
  · intro other same
    have yieldsOther := Reader.mainFunction_yields_of_take_eq policy yields same
    obtain ⟨answers, stops⟩ := (Reader.chunk_yields_iff policy (.start other) tree _).mpr
      ⟨yieldsOther, .inr allowed⟩
    refine ⟨answers, ?_⟩
    rw [read, stops]
  · intro length shorter allowTrailing
    have yieldsEither := (Reader.mainFunction_yields_congr policy allowTrailing bytes tree _).mpr
      yields
    obtain ⟨offset, needed, available, failed, total, missing⟩ :=
      Reader.mainFunction_truncated { policy with allowTrailing } yieldsEither shorter
    have fails := (Reader.chunk_fails_iff { policy with allowTrailing }
      (.start (bytes.take length)) _).mpr (.inl failed)
    exact ⟨offset, needed, available, fails, total, missing⟩

/-- The smallest chunk takes 74 bytes: with other bytes behind it is read too, and without its
last byte it is cut off. -/
theorem read_of_take_eq_smallest :
    let main : Prototype := ⟨.empty, 0, 0, 0, 0, 0, [], [], [], [], ⟨[], [], []⟩⟩
    let bytes := Header.standard.bytes ++ List.replicate 41 0 ++ [7]
    decode .default bytes = .ok main ∧ (read .default bytes).stop.position = 74 ∧
      decode .default (Header.standard.bytes ++ List.replicate 41 0 ++ [8, 9]) = .ok main ∧
      ∃ offset needed available,
        decode { Policy.default with allowTrailing := false } (bytes.take 73) =
            .error (.truncated offset needed available) ∧
          offset + available = 73 ∧ available < needed := by
  intro main bytes
  have succeeds : decode .default bytes = .ok main := by decide +kernel
  have stops : (read .default bytes).stop.position = 74 := by decide +kernel
  obtain ⟨same, cut⟩ := read_of_take_eq .default bytes main rfl succeeds
  rw [stops] at same cut
  exact ⟨succeeds, stops, (same _ (by decide +kernel)).1, cut 73 (by decide) false⟩

end LuaChunk
