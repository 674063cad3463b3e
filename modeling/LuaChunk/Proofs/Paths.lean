import LuaChunk.Proofs.Inheritance

/-!
# Functions on paths

A path leads from the root of a tree to one of its functions (`Prototype.follow?`). What a policy
admits in a tree it admits in every function on a path. And a path shows how far a name reaches that
a tree takes from outside: filling in one name or another gives trees that differ in names alone,
and only along paths on which no function has a name of its own (`Prototype.inherit_renames`).
-/
namespace LuaChunk

namespace Prototype

/-- The empty path stays at the root. -/
@[simp] theorem follow?_nil (tree : Prototype) : tree.follow? [] = some tree := rfl

/-- A longer path chooses a nested function and goes on from there. -/
@[simp] theorem follow?_cons (index : Nat) (path : List Nat) (tree : Prototype) :
    tree.follow? (index :: path) = tree.functions[index]?.bind (follow? path) := rfl

/-- Two paths are followed one after the other. -/
theorem follow?_append (front back : List Nat) (tree : Prototype) :
    tree.follow? (front ++ back) = (tree.follow? front).bind (follow? back) := by
  induction front generalizing tree with
  | nil => rfl
  | cons index front ih =>
    rw [List.cons_append, follow?_cons, follow?_cons, Option.bind_assoc]
    congr 1
    funext inner
    exact ih inner

/-- The function behind one more step is nested directly in the one in front of it. -/
theorem follow?_step {tree outer : Prototype} {path : List Nat}
    (reaches : tree.follow? path = some outer) (index : Nat) :
    tree.follow? (path ++ [index]) = outer.functions[index]? := by
  rw [follow?_append, reaches, Option.bind_some, follow?_cons]
  cases outer.functions[index]? <;> rfl

/-- The root takes the name from outside if it has none. -/
theorem source_inherit (tree : Prototype) (inherited : ByteString) :
    (tree.inherit inherited).source = tree.source.orElse inherited := by
  rw [inherit_eq]

/-- Names are filled in below a function with the name that it then has. -/
theorem functions_inherit (tree : Prototype) (inherited : ByteString) (index : Nat) :
    (tree.inherit inherited).functions[index]? =
      tree.functions[index]?.map (inherit (tree.inherit inherited).source) := by
  rw [source_inherit, inherit_eq, List.getElem?_map]

/-- A path through a tree whose names are filled in goes on in a nested function, which takes the
name that the root then has. -/
theorem exists_of_follow?_cons_inherit {tree full : Prototype} {inherited : ByteString}
    {index : Nat} {path : List Nat}
    (reaches : (tree.inherit inherited).follow? (index :: path) = some full) :
    ∃ inner, tree.functions[index]? = some inner ∧
      (inner.inherit (tree.inherit inherited).source).follow? path = some full := by
  rw [follow?_cons, functions_inherit] at reaches
  cases chosen : tree.functions[index]? with
  | none =>
    rw [chosen] at reaches
    contradiction
  | some inner =>
    rw [chosen] at reaches
    exact ⟨inner, rfl, reaches⟩

/-- In a tree whose names are filled in, every function comes from the function on the same path
with its names filled in. -/
theorem exists_of_follow?_inherit {tree full : Prototype} {inherited : ByteString}
    {path : List Nat} (reaches : (tree.inherit inherited).follow? path = some full) :
    ∃ bare around, tree.follow? path = some bare ∧ full = bare.inherit around := by
  induction path generalizing tree inherited with
  | nil => exact ⟨tree, inherited, rfl, (Option.some.inj reaches).symm⟩
  | cons index path ih =>
    obtain ⟨inner, chosen, further⟩ := exists_of_follow?_cons_inherit reaches
    rw [follow?_cons, chosen]
    exact ih further

/-- If names are filled in and the root then has a name, so does every function of the tree. -/
theorem source_ne_empty_of_follow?_inherit {tree full : Prototype} {inherited : ByteString}
    {path : List Nat} (named : (tree.inherit inherited).source ≠ .empty)
    (reaches : (tree.inherit inherited).follow? path = some full) : full.source ≠ .empty := by
  induction path generalizing tree inherited with
  | nil => rwa [← Option.some.inj reaches]
  | cons index path ih =>
    obtain ⟨inner, _, further⟩ := exists_of_follow?_cons_inherit reaches
    refine ih ?_ further
    rw [source_inherit inner]
    by_cases own : inner.source = .empty
    · rwa [own, ByteString.empty_orElse]
    · rwa [ByteString.orElse_of_ne_empty own]

/-- The root of a tree and the functions on a path to one of its functions all have no name. -/
def Nameless : List Nat → Prototype → Prop
  | [], tree => tree.source = .empty
  | index :: path, tree =>
    tree.source = .empty ∧ ∃ inner, tree.functions[index]? = some inner ∧ Nameless path inner

/-- A function without its name and without the functions nested in it. -/
def alone (tree : Prototype) : Prototype := { tree with source := .empty, functions := [] }

/-- Filling in names changes nothing else in the functions on a path. -/
theorem follow?_inherit_alone (tree : Prototype) (inherited : ByteString) (path : List Nat) :
    ((tree.inherit inherited).follow? path).map alone = (tree.follow? path).map alone := by
  induction path generalizing tree inherited with
  | nil =>
    rw [follow?_nil, inherit_eq]
    rfl
  | cons index path ih =>
    rw [follow?_cons, follow?_cons, functions_inherit]
    cases tree.functions[index]? with
    | none => rfl
    | some inner => exact ih inner _

/-- How two trees differ if one name or another is filled in from outside. -/
structure Renames (unnamed : List Nat → Prop) (left right : ByteString)
    (first second : Prototype) : Prop where
  /-- The same paths lead to functions, and these differ in names alone. -/
  alone_eq : ∀ path, (first.follow? path).map alone = (second.follow? path).map alone
  /-- Functions that take their name from outside have the one name here and the other there. -/
  source_eq : ∀ path, unnamed path → ∀ one other, first.follow? path = some one →
    second.follow? path = some other → one.source = left ∧ other.source = right
  /-- All others are the same with everything nested in them, and they have names. -/
  eq_of_named : ∀ path, ¬unnamed path → ∀ one other, first.follow? path = some one →
    second.follow? path = some other → one = other ∧ one.source ≠ .empty

/-- If a function has a name then nothing nested in it takes a name from outside. -/
theorem inherit_eq_of_named {tree : Prototype} (named : tree.source ≠ .empty)
    (left right : ByteString) : tree.inherit left = tree.inherit right := by
  rw [inherit_eq, inherit_eq right, ByteString.orElse_of_ne_empty named,
    ByteString.orElse_of_ne_empty named]

/-- The functions that take their name from outside are those that have no name and are nested in
functions without a name only. -/
theorem inherit_renames (tree : Prototype) (left right : ByteString) :
    Renames (Nameless · tree) left right (tree.inherit left) (tree.inherit right) where
  alone_eq := by
    intro path
    rw [follow?_inherit_alone, follow?_inherit_alone]
  source_eq := by
    intro path unnamed one other reaches reachesOther
    induction path generalizing tree with
    | nil =>
      have bare : tree.source = .empty := unnamed
      rw [← Option.some.inj reaches, ← Option.some.inj reachesOther, source_inherit,
        source_inherit, bare]
      exact ⟨rfl, rfl⟩
    | cons index path ih =>
      obtain ⟨bare, inner, chosen, unnamedInner⟩ := unnamed
      rw [follow?_cons, functions_inherit, chosen, source_inherit, bare] at reaches reachesOther
      exact ih inner unnamedInner reaches reachesOther
  eq_of_named := by
    intro path named one other reaches reachesOther
    induction path generalizing tree with
    | nil =>
      have own : tree.source ≠ .empty := named
      have same := inherit_eq_of_named own left right
      rw [← Option.some.inj reaches, ← Option.some.inj reachesOther, source_inherit,
        ByteString.orElse_of_ne_empty own]
      exact ⟨same, own⟩
    | cons index path ih =>
      by_cases own : tree.source = .empty
      · obtain ⟨inner, chosen, further⟩ := exists_of_follow?_cons_inherit reaches
        obtain ⟨_, chosenOther, furtherOther⟩ := exists_of_follow?_cons_inherit reachesOther
        obtain rfl := Option.some.inj (chosen.symm.trans chosenOther)
        rw [source_inherit, own] at further furtherOther
        have namedInner : ¬Nameless path inner :=
          fun unnamed => named ⟨own, inner, chosen, unnamed⟩
        exact ih inner namedInner further furtherOther
      · have named : (tree.inherit left).source ≠ .empty := by
          rwa [source_inherit, ByteString.orElse_of_ne_empty own]
        rw [← inherit_eq_of_named own left right, reaches] at reachesOther
        exact ⟨Option.some.inj reachesOther, source_ne_empty_of_follow?_inherit named reaches⟩

end Prototype

namespace Policy

/-- A tree that is admitted at a depth is admitted at a lesser one. -/
theorem AdmitsFrom.shallower {policy : Policy} {depth less : Nat} {tree : Prototype}
    (admitted : policy.AdmitsFrom depth tree) (le : less ≤ depth) :
    policy.AdmitsFrom less tree := by
  induction tree using Prototype.nestedInduction generalizing depth less with
  | step tree ih =>
    obtain ⟨shallow, within, below⟩ := (policy.admitsFrom_iff depth tree).mp admitted
    refine (policy.admitsFrom_iff less tree).mpr ⟨Nat.le_trans le shallow, within, ?_⟩
    intro inner member
    exact ih inner member (below inner member) (Nat.succ_le_succ le)

/-- With a tree every function on a path is admitted, as deep as the path is long. -/
theorem AdmitsFrom.follow {policy : Policy} {depth : Nat} {tree inner : Prototype}
    {path : List Nat} (admitted : policy.AdmitsFrom depth tree)
    (reaches : tree.follow? path = some inner) :
    policy.AdmitsFrom (depth + path.length) inner := by
  induction path generalizing tree depth with
  | nil =>
    rw [← Option.some.inj reaches]
    exact admitted
  | cons index path ih =>
    obtain ⟨middle, chosen, further⟩ := Option.bind_eq_some_iff.mp reaches
    have below := ((policy.admitsFrom_iff depth tree).mp admitted).2.2
    have nested := below middle (List.mem_of_getElem? chosen)
    have deeper := ih nested further
    rw [List.length_cons]
    rwa [Nat.add_right_comm] at deeper

/-- The functions on the paths of an admitted tree are admitted as trees of their own. -/
theorem Admits.follow {policy : Policy} {tree inner : Prototype} {path : List Nat}
    (admitted : policy.Admits tree) (reaches : tree.follow? path = some inner) :
    policy.Admits inner :=
  (AdmitsFrom.follow admitted reaches).shallower (Nat.zero_le _)

end Policy

end LuaChunk
