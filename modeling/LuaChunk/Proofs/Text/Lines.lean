/-!
# Texts cut at marks

A text that is put together from parts can be taken apart again where a mark stands that a part
cannot hold. A part without the first mark ends in front of it (`append_cons_inj_of_forall`), and a
part without the last mark begins behind it (`append_cons_inj_of_notMem`). Lines are the parts in
front of line feeds: lines without line feeds are determined by their text (`ofLines_inj`).
-/
namespace LuaChunk.Text

section Marks

variable {α : Type} {front front' back back' : List α} {mark mark' : α}

/-- If the items in front have a property that the marks behind them do not have, then equal lists
are equal part by part. -/
theorem append_cons_inj_of_forall {holds : α → Bool} (fronts : ∀ item ∈ front, holds item = true)
    (fronts' : ∀ item ∈ front', holds item = true) (ends : holds mark = false)
    (ends' : holds mark' = false) :
    front ++ mark :: back = front' ++ mark' :: back' ↔
      front = front' ∧ mark = mark' ∧ back = back' := by
  constructor
  · intro same
    have taken := congrArg (List.takeWhile holds) same
    rw [List.takeWhile_append_of_pos fronts, List.takeWhile_append_of_pos fronts',
      List.takeWhile_cons_of_neg (by simp [ends]), List.takeWhile_cons_of_neg (by simp [ends']),
      List.append_nil, List.append_nil] at taken
    rw [taken] at same
    have rest := List.append_cancel_left same
    exact ⟨taken, (List.cons.inj rest).1, (List.cons.inj rest).2⟩
  · intro same
    obtain ⟨rfl, rfl, rfl⟩ := same
    rfl

/-- If the mark does not occur behind, then equal lists are equal on both sides of it. -/
theorem append_cons_inj_of_notMem (last : mark ∉ back) (last' : mark ∉ back') :
    front ++ mark :: back = front' ++ mark :: back' ↔ front = front' ∧ back = back' := by
  constructor
  · intro same
    rcases List.append_eq_append_iff.mp same with
      ⟨between, rfl, shifted⟩ | ⟨between, rfl, shifted⟩
    · cases between with
      | nil => exact ⟨(List.append_nil front).symm, (List.cons.inj shifted).2⟩
      | cons first further =>
        have rest : back = further ++ mark :: back' := (List.cons.inj shifted).2
        exact absurd (by simp [rest]) last
    · cases between with
      | nil => exact ⟨List.append_nil front', (List.cons.inj shifted).2.symm⟩
      | cons first further =>
        have rest : back' = further ++ mark :: back := (List.cons.inj shifted).2
        exact absurd (by simp [rest]) last'
  · intro same
    obtain ⟨rfl, rfl⟩ := same
    rfl

end Marks

/-- The characters of lines, each with a line feed behind it. -/
def ofLines (lines : List (List Char)) : List Char := lines.flatMap (· ++ ['\n'])

/-- No line has a line feed in it. -/
def OneLined (lines : List (List Char)) : Prop := ∀ line ∈ lines, '\n' ∉ line

@[simp] theorem ofLines_nil : ofLines [] = [] := rfl

@[simp] theorem ofLines_cons (line : List Char) (lines : List (List Char)) :
    ofLines (line :: lines) = line ++ '\n' :: ofLines lines := by
  simp [ofLines]

@[simp] theorem ofLines_append (front back : List (List Char)) :
    ofLines (front ++ back) = ofLines front ++ ofLines back := List.flatMap_append

@[simp] theorem oneLined_nil : OneLined [] := nofun

@[simp] theorem oneLined_cons (line : List Char) (lines : List (List Char)) :
    OneLined (line :: lines) ↔ '\n' ∉ line ∧ OneLined lines := List.forall_mem_cons

@[simp] theorem oneLined_append (front back : List (List Char)) :
    OneLined (front ++ back) ↔ OneLined front ∧ OneLined back := List.forall_mem_append

/-- Lines without line feeds are determined by their text. -/
theorem ofLines_inj {left right : List (List Char)} (leftLines : OneLined left)
    (rightLines : OneLined right) : ofLines left = ofLines right ↔ left = right := by
  refine ⟨fun same => ?_, congrArg ofLines⟩
  induction left generalizing right with
  | nil =>
    cases right with
    | nil => rfl
    | cons line lines => simp at same
  | cons line lines ih =>
    cases right with
    | nil => simp at same
    | cons other others =>
      rw [oneLined_cons] at leftLines rightLines
      rw [ofLines_cons, ofLines_cons] at same
      have plain : ∀ text : List Char, '\n' ∉ text → ∀ item ∈ text, (item != '\n') = true := by
        intro text without item member
        exact bne_iff_ne.mpr fun feed => without (feed ▸ member)
      obtain ⟨first, -, rest⟩ := (append_cons_inj_of_forall (plain line leftLines.1)
        (plain other rightLines.1) (by decide) (by decide)).mp same
      rw [first, ih leftLines.2 rightLines.2 rest]

end LuaChunk.Text
