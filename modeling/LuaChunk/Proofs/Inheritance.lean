import LuaChunk.Proofs.Grammar

/-!
# Names that are filled in

Filling in names changes no sizes that matter: a tree and the tree with its names filled in are
admitted by the same policies (`Policy.admits_inherit_iff`), because a name that is filled in is
the name of a function further up or empty. In the result every function inside a named one is
named, and a tree in which this holds already stays as it is (`Prototype.inherit_eq_self`).
-/
namespace LuaChunk

namespace ByteString

/-- A string with bytes stays. -/
theorem orElse_of_ne_empty {string : ByteString} (some : string ≠ empty) (fallback : ByteString) :
    string.orElse fallback = string := by
  have notEmpty : ¬string.isEmpty = true := mt string.isEmpty_iff.mp some
  rw [orElse, if_neg notEmpty]

/-- The string without bytes gives way. -/
theorem empty_orElse (fallback : ByteString) : empty.orElse fallback = fallback := rfl

/-- If the string to fall back to is within a bound, then a choice is within it exactly if the
first string is. -/
theorem size_orElse_le_iff (string : ByteString) {fallback : ByteString} {bound : Nat}
    (within : fallback.size ≤ bound) :
    (string.orElse fallback).size ≤ bound ↔ string.size ≤ bound := by
  by_cases none : string = empty
  · rw [none, empty_orElse]
    exact iff_of_true within (Nat.zero_le bound)
  · rw [orElse_of_ne_empty none]

end ByteString

namespace Prototype

mutual

/-- A property that passes from the functions nested in a function to the function itself holds
of every function. -/
theorem nestedInduction {holds : Prototype → Prop}
    (step : ∀ prototype, (∀ inner ∈ prototype.functions, holds inner) → holds prototype) :
    ∀ prototype, holds prototype
  | ⟨_, _, _, _, _, _, _, _, _, functions, _⟩ => step _ (nestedInductionAll step functions)

/-- Such a property holds of every function in a list. -/
theorem nestedInductionAll {holds : Prototype → Prop}
    (step : ∀ prototype, (∀ inner ∈ prototype.functions, holds inner) → holds prototype) :
    ∀ functions : List Prototype, ∀ inner ∈ functions, holds inner
  | [] => nofun
  | first :: further =>
    List.forall_mem_cons.mpr ⟨nestedInduction step first, nestedInductionAll step further⟩

end

/-- All functions of a tree have a property. -/
def Everywhere (holds : Prototype → Prop) (tree : Prototype) : Prop :=
  ∀ entry ∈ tree.preorder 0, holds entry.2

instance decidableEverywhere (holds : Prototype → Prop) [DecidablePred holds] :
    DecidablePred (Everywhere holds) := fun tree =>
  inferInstanceAs (Decidable (∀ entry ∈ tree.preorder 0, holds entry.2))

/-- What holds of functions alone does not depend on the depth of the root. -/
theorem forall_preorder_congr (holds : Prototype → Prop) (tree : Prototype) (depth other : Nat) :
    (∀ entry ∈ tree.preorder depth, holds entry.2) ↔
      ∀ entry ∈ tree.preorder other, holds entry.2 := by
  induction tree using nestedInduction generalizing depth other with
  | step tree ih =>
    rw [forall_preorder_iff fun _ => holds, forall_preorder_iff fun _ => holds]
    exact and_congr_right fun _ => forall₂_congr fun inner member => ih inner member _ _

/-- A property holds in a tree if it holds of its root and in the trees below the root. -/
theorem everywhere_iff (holds : Prototype → Prop) (tree : Prototype) :
    tree.Everywhere holds ↔
      holds tree ∧ ∀ inner ∈ tree.functions, inner.Everywhere holds := by
  rw [Everywhere, forall_preorder_iff fun _ => holds]
  exact and_congr_right fun _ =>
    forall₂_congr fun inner _ => forall_preorder_congr holds inner _ _

/-- The sizes in a tree can be expressed if those of its root and those in the trees below the root
can. -/
theorem representable_iff (tree : Prototype) :
    tree.Representable ↔ tree.Within (Nat.pow 2 32 - 1) (Nat.pow 2 64 - 2) ∧
      ∀ inner ∈ tree.functions, inner.Representable :=
  everywhere_iff (Within · (Nat.pow 2 32 - 1) (Nat.pow 2 64 - 2)) tree

/-- The functions nested directly in a named function are named. -/
def NamesNested (prototype : Prototype) : Prop :=
  prototype.source ≠ .empty → ∀ inner ∈ prototype.functions, inner.source ≠ .empty

/-- Where names are filled in, every function inside a named one is named. -/
theorem inherit_namesNested (tree : Prototype) (inherited : ByteString) :
    (tree.inherit inherited).Everywhere NamesNested := by
  induction tree using nestedInduction generalizing inherited with
  | step tree ih =>
    rw [everywhere_iff, inherit_eq]
    constructor
    · intro named inner member
      obtain ⟨origin, _, rfl⟩ := List.mem_map.mp member
      rw [inherit_eq]
      by_cases none : origin.source = .empty
      · rwa [none, ByteString.empty_orElse]
      · rwa [ByteString.orElse_of_ne_empty none]
    · intro inner member
      obtain ⟨origin, found, rfl⟩ := List.mem_map.mp member
      exact ih origin found _

/-- If every function inside a named one is named, then no names are to be filled in but that of
a root without one. -/
theorem inherit_eq_self (tree : Prototype) (inherited : ByteString)
    (named : tree.Everywhere NamesNested) (root : tree.source = .empty → inherited = .empty) :
    tree.inherit inherited = tree := by
  induction tree using nestedInduction generalizing inherited with
  | step tree ih =>
    obtain ⟨namesNested, below⟩ := (everywhere_iff _ _).mp named
    have own : tree.source.orElse inherited = tree.source := by
      by_cases none : tree.source = .empty
      · rw [none, root none, ByteString.empty_orElse]
      · exact ByteString.orElse_of_ne_empty none inherited
    have each : ∀ inner ∈ tree.functions, inner.inherit tree.source = id inner := by
      intro inner member
      apply ih inner member _ (below inner member)
      intro unnamed
      exact Decidable.byContradiction fun nameless => namesNested nameless inner member unnamed
    have functions : tree.functions.map (inherit tree.source) = tree.functions :=
      (List.map_congr_left each).trans (List.map_id _)
    rw [inherit_eq, own, functions]
    cases tree
    rfl

end Prototype

namespace Policy

/-- A tree is within the bounds of a policy exactly if it is with its names filled in, as long as
the name that it inherits is. -/
theorem admitsFrom_inherit_iff (policy : Policy) (depth : Nat) (tree : Prototype)
    (inherited : ByteString) (short : inherited.size ≤ policy.maxString) :
    policy.AdmitsFrom depth (tree.inherit inherited) ↔ policy.AdmitsFrom depth tree := by
  induction tree using Prototype.nestedInduction generalizing depth inherited with
  | step tree ih =>
    have own := tree.source.size_orElse_le_iff short
    rw [admitsFrom_iff, admitsFrom_iff policy depth tree, Prototype.inherit_eq,
      Prototype.within_iff, Prototype.within_iff]
    simp only [List.length_map, own, List.forall_mem_map]
    refine and_congr_right fun _ => and_congr_right fun within => ?_
    exact forall₂_congr fun inner member => ih inner member _ _ (own.mpr within.2.1)

/-- A tree is within the bounds of a policy exactly if it is with its names filled in. -/
theorem admits_inherit_iff (policy : Policy) (tree : Prototype) :
    policy.Admits (tree.inherit .empty) ↔ policy.Admits tree :=
  policy.admitsFrom_inherit_iff 0 tree .empty (Nat.zero_le _)

end Policy

end LuaChunk
