import LuaChunk.Proofs.Text.Escaped
import LuaChunk.Text.Outline

/-!
# Indented layouts read back

An outline is readable if its names and its plain leaves are words and its other leaves are strings
with escapes. Such an outline is known from its indented layout: the first character that belongs to
no word tells how the outline is built (`Readable.opening_inj`), and the lines of a list or a record
are deeper than the line that closes it, so that no entry is mistaken for the end. By induction the
layout in front of a comma determines the outline and what follows (`Readable.layout_append_inj`).
-/
namespace LuaChunk.Outline

open Text

mutual

/-- The characters of the indented layout. -/
def layout (depth : Nat) : Outline → List Char
  | leaf text => text.toList
  | field name value => name.toList ++ ':' :: ' ' :: layout depth value
  | record name fields =>
    name.toList ++ ' ' :: '\x7b' :: '\n' ::
      (layoutLines (depth + 1) fields ++ ((margin depth).toList ++ ['\x7d']))
  | list [] => ['[', ']']
  | list (first :: further) =>
    '[' :: '\n' ::
      (layoutLines (depth + 1) (first :: further) ++ ((margin depth).toList ++ [']']))
  | variant name argument =>
    name.toList ++ '(' :: '\n' ::
      ((margin (depth + 1)).toList ++ (layout (depth + 1) argument ++
        ',' :: '\n' :: ((margin depth).toList ++ [')'])))

/-- The characters of the lines of several outlines. -/
def layoutLines (depth : Nat) : List Outline → List Char
  | [] => []
  | first :: further =>
    (margin depth).toList ++ (layout depth first ++ ',' :: '\n' :: layoutLines depth further)

end

mutual

/-- An outline appends its layout. -/
theorem toList_appendIndented (depth : Nat) (text : String) :
    ∀ outline : Outline,
      (appendIndented depth text outline).toList = text.toList ++ layout depth outline
  | leaf own => by rw [appendIndented, layout, String.toList_append]
  | field name value => by
    rw [appendIndented, layout, toList_appendIndented depth _ value]
    simp [String.toList_append]
  | record name fields => by
    rw [appendIndented, layout, String.toList_append, String.toList_append,
      toList_appendLines (depth + 1) _ fields]
    simp [String.toList_append]
  | list [] => by
    rw [appendIndented, layout, String.toList_append]
    rfl
  | list (first :: further) => by
    rw [appendIndented, layout, String.toList_append, String.toList_append,
      toList_appendLines (depth + 1) _ (first :: further)]
    simp [String.toList_append]
  | variant name argument => by
    rw [appendIndented, layout, String.toList_append, String.toList_append, String.toList_append,
      toList_appendIndented (depth + 1) _ argument]
    simp [String.toList_append]

/-- Outlines append their lines. -/
theorem toList_appendLines (depth : Nat) (text : String) :
    ∀ outlines : List Outline,
      (appendLines depth text outlines).toList = text.toList ++ layoutLines depth outlines
  | [] => (List.append_nil text.toList).symm
  | first :: further => by
    rw [appendLines, layoutLines, toList_appendLines depth _ further, String.toList_append,
      toList_appendIndented depth _ first]
    simp [String.toList_append]

end

/-- The text of an outline consists of its layout. -/
theorem toList_indented (outline : Outline) : outline.indented.toList = layout 0 outline := by
  rw [indented, toList_appendIndented]
  rfl

/-- One level further down are four spaces more. -/
theorem toList_margin_succ (depth : Nat) :
    (margin (depth + 1)).toList = (margin depth).toList ++ ' ' :: List.replicate 3 ' ' := by
  have spaces : 4 * (depth + 1) = 4 * depth + 4 := by omega
  rw [margin, margin, String.toList_ofList, String.toList_ofList, spaces,
    ← List.replicate_append_replicate]
  rfl

/-- How an outline begins, after its name if it has one. -/
inductive Opening where
  /-- A leaf that is a word. -/
  | word
  /-- A leaf that is a string with escapes. -/
  | string
  /-- A field. -/
  | field
  /-- A record. -/
  | record
  /-- A list. -/
  | list
  /-- A constructor. -/
  | variant
  deriving DecidableEq

/-- The first character that belongs to no word, where a comma follows the outline. -/
def Opening.mark : Opening → Char
  | word => ','
  | string => '"'
  | field => ':'
  | record => ' '
  | list => '['
  | variant => '('

/-- The mark tells how an outline begins. -/
theorem Opening.mark_inj {left right : Opening} (same : left.mark = right.mark) : left = right := by
  revert same
  cases left <;> cases right <;> decide

/-- Marks occur in no word. -/
theorem Opening.isWordCharacter_mark (opening : Opening) :
    isWordCharacter opening.mark = false := by
  cases opening <;> decide

/-- An outline is built from words and from strings with escapes, and it begins in the given
way. -/
inductive Readable : Opening → Outline → Prop where
  /-- A word is readable. -/
  | word {text : String} (word : IsWord text.toList) : Readable .word (leaf text)
  /-- A string with escapes is readable. -/
  | string (string : ByteString) : Readable .string (leaf string.escaped)
  /-- A field is readable if its name is a word and its value is readable. -/
  | field {name : String} {value : Outline} {opening : Opening} (word : IsWord name.toList)
      (inner : Readable opening value) : Readable .field (.field name value)
  /-- A record is readable if its name is a word and it has readable fields. -/
  | record {name : String} {fields : List Outline} (word : IsWord name.toList)
      (each : ∀ field ∈ fields, Readable .field field) : Readable .record (.record name fields)
  /-- A list is readable if its items are, however each one begins. -/
  | list {items : List Outline} (opening : Outline → Opening)
      (each : ∀ item ∈ items, Readable (opening item) item) : Readable .list (.list items)
  /-- A constructor is readable if its name is a word and its argument is readable. -/
  | variant {name : String} {argument : Outline} {opening : Opening} (word : IsWord name.toList)
      (inner : Readable opening argument) : Readable .variant (.variant name argument)

/-- Numerals are readable. -/
theorem Readable.natural (value : Nat) : Readable .word (natural value) := by
  apply Readable.word
  rw [toList_toString_nat]
  exact isWord_toDigits value

/-- A list of outlines for given items is readable if each outline is. -/
theorem Readable.map {α : Type} {items : List α} {laidOut : α → Outline}
    (opening : Outline → Opening)
    (each : ∀ item ∈ items, Readable (opening (laidOut item)) (laidOut item)) :
    Readable .list (.list (items.map laidOut)) :=
  .list opening (List.forall_mem_map.mpr each)

section Lines

variable {depth : Nat} {close : Char} {left right : List Outline} {rest rest' : List Char}

/-- A line is not the end of its list: it is deeper than the line that closes the list. -/
theorem layoutLines_cons_ne_close (visible : close ≠ ' ') (item : Outline)
    (further : List Outline) :
    layoutLines (depth + 1) (item :: further) ++ rest ≠
      (margin depth).toList ++ close :: rest' := by
  intro same
  rw [layoutLines, toList_margin_succ, List.append_assoc, List.append_assoc,
    List.append_right_inj, List.cons_append] at same
  exact visible (List.cons.inj same).1.symm

/-- Lines up to the one that closes their list are told apart if the entries are. -/
theorem layoutLines_append_inj (visible : close ≠ ' ')
    (each : ∀ item ∈ left, ∀ other ∈ right, ∀ rest rest',
      layout (depth + 1) item ++ ',' :: rest = layout (depth + 1) other ++ ',' :: rest' →
        item = other ∧ rest = rest')
    (same : layoutLines (depth + 1) left ++ ((margin depth).toList ++ close :: rest) =
      layoutLines (depth + 1) right ++ ((margin depth).toList ++ close :: rest')) :
    left = right ∧ rest = rest' := by
  induction left generalizing right with
  | nil =>
    cases right with
    | nil => exact ⟨rfl, (List.cons.inj (List.append_cancel_left same)).2⟩
    | cons other others => exact absurd same.symm (layoutLines_cons_ne_close visible other others)
  | cons item further ih =>
    cases right with
    | nil => exact absurd same (layoutLines_cons_ne_close visible item further)
    | cons other others =>
      simp only [layoutLines, List.append_assoc, List.append_right_inj, List.cons_append] at same
      have first := each item List.mem_cons_self other List.mem_cons_self _ _ same
      have behind := ih
        (fun item inside other among =>
          each item (List.mem_cons_of_mem _ inside) other (List.mem_cons_of_mem _ among))
        (List.cons.inj first.2).2
      exact ⟨by rw [first.1, behind.1], behind.2⟩

end Lines

namespace Readable

variable {opening opening' : Opening} {left right : Outline}

/-- In front of a comma, a readable outline shows its mark behind a word. -/
theorem exists_layout_eq (readable : Readable opening left) (depth : Nat) (rest : List Char) :
    ∃ name tail, IsWord name ∧ layout depth left ++ ',' :: rest = name ++ opening.mark :: tail := by
  cases readable with
  | word word => exact ⟨_, rest, word, rfl⟩
  | string string =>
    refine ⟨[], string.bytes.flatMap escapedByte ++ '"' :: ',' :: rest, isWord_nil, ?_⟩
    simp [layout, ByteString.escaped, Opening.mark]
  | field word inner => exact ⟨_, _, word, List.append_assoc _ _ _⟩
  | record word each => exact ⟨_, _, word, List.append_assoc _ _ _⟩
  | @list items _ each =>
    cases items with
    | nil => exact ⟨[], _, isWord_nil, rfl⟩
    | cons first further => exact ⟨[], _, isWord_nil, rfl⟩
  | variant word inner => exact ⟨_, _, word, List.append_assoc _ _ _⟩

/-- Outlines with equal layouts begin in the same way. -/
theorem opening_inj {depth : Nat} {rest rest' : List Char} (readable : Readable opening left)
    (other : Readable opening' right)
    (same : layout depth left ++ ',' :: rest = layout depth right ++ ',' :: rest') :
    opening = opening' := by
  obtain ⟨name, tail, word, shows⟩ := readable.exists_layout_eq depth rest
  obtain ⟨name', tail', word', shows'⟩ := other.exists_layout_eq depth rest'
  rw [shows, shows', append_cons_inj_of_forall word word' opening.isWordCharacter_mark
    opening'.isWordCharacter_mark] at same
  exact Opening.mark_inj same.2.1

/-- Readable outlines are known from their layouts in front of a comma. -/
theorem layout_append_inj (readable : Readable opening left) (other : Readable opening right)
    {depth : Nat} {rest rest' : List Char}
    (same : layout depth left ++ ',' :: rest = layout depth right ++ ',' :: rest') :
    left = right ∧ rest = rest' := by
  induction readable generalizing right depth rest rest' with
  | word plain =>
    cases other with
    | word plain' =>
      rw [layout, layout, append_cons_inj_of_forall plain plain' (by decide) (by decide),
        String.toList_inj] at same
      exact ⟨by rw [same.1], same.2.2⟩
  | string string =>
    cases other with
    | string string' =>
      rw [layout, layout] at same
      obtain ⟨strings, behind⟩ := ByteString.selfDelimiting_escaped _ _ _ _ same
      exact ⟨by rw [strings], (List.cons.inj behind).2⟩
  | field name inner ih =>
    cases other with
    | field name' inner' =>
      simp only [layout, List.append_assoc, List.cons_append] at same
      rw [append_cons_inj_of_forall name name' (by decide) (by decide), String.toList_inj,
        List.cons_inj_right] at same
      obtain ⟨names, -, below⟩ := same
      obtain rfl := inner.opening_inj inner' below
      obtain ⟨values, behind⟩ := ih inner' below
      exact ⟨by rw [names, values], behind⟩
  | record name each ih =>
    cases other with
    | record name' each' =>
      simp only [layout, List.append_assoc, List.cons_append, List.nil_append] at same
      rw [append_cons_inj_of_forall name name' (by decide) (by decide), String.toList_inj] at same
      obtain ⟨names, -, below⟩ := same
      have lines := (List.cons.inj (List.cons.inj below).2).2
      obtain ⟨fields, behind⟩ := layoutLines_append_inj (by decide)
        (fun item inside other among _ _ => ih item inside (each' other among)) lines
      exact ⟨by rw [names, fields], (List.cons.inj behind).2⟩
  | @list items openings each ih =>
    cases other with
    | @list items' openings' each' =>
      have told : ∀ item ∈ items, ∀ other ∈ items', ∀ rest rest',
          layout (depth + 1) item ++ ',' :: rest = layout (depth + 1) other ++ ',' :: rest' →
            item = other ∧ rest = rest' := by
        intro item inside other among rest rest' shows
        have begins := (each item inside).opening_inj (each' other among) shows
        exact ih item inside (begins ▸ each' other among) shows
      cases items with
      | nil =>
        cases items' with
        | nil => exact ⟨rfl, by simpa [layout] using same⟩
        | cons other others => simp [layout] at same
      | cons first further =>
        cases items' with
        | nil => simp [layout] at same
        | cons other others =>
          simp only [layout, List.append_assoc, List.cons_append, List.nil_append] at same
          have lines := (List.cons.inj (List.cons.inj same).2).2
          obtain ⟨items, behind⟩ := layoutLines_append_inj (by decide) told lines
          exact ⟨by rw [items], (List.cons.inj behind).2⟩
  | variant name inner ih =>
    cases other with
    | variant name' inner' =>
      simp only [layout, List.append_assoc, List.cons_append, List.nil_append] at same
      rw [append_cons_inj_of_forall name name' (by decide) (by decide), String.toList_inj,
        List.cons_inj_right, List.append_right_inj] at same
      obtain ⟨names, -, below⟩ := same
      obtain rfl := inner.opening_inj inner' below
      obtain ⟨arguments, behind⟩ := ih inner' below
      rw [List.cons_inj_right, List.append_right_inj] at behind
      exact ⟨by rw [names, arguments], (List.cons.inj (List.cons.inj behind).2).2⟩

/-- Readable outlines are known from their texts. -/
theorem indented_inj (readable : Readable opening left) (other : Readable opening right) :
    left.indented = right.indented ↔ left = right := by
  refine ⟨fun same => ?_, congrArg indented⟩
  have layouts : layout 0 left ++ [','] = layout 0 right ++ [','] := by
    rw [← toList_indented, ← toList_indented, same]
  exact (readable.layout_append_inj other layouts).1

end Readable

end LuaChunk.Outline
