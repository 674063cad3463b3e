import LuaChunk.Proofs.Paths
import Mathlib.Data.List.Basic

/-!
# Places in preorder

The functions of a tree in preorder, found by their paths: the place of a path counts the functions
that are visited before it (`Prototype.place`). The functions of the tree that a path leads to stand
together from the place of the path on (`Prototype.preorder_eq_append`), and paths are visited by
the first number in which they differ, a path before its own continuations
(`Prototype.place_lt_place`).
-/
namespace LuaChunk

namespace Prototype

/-- The place of a path in preorder: behind the function that it leaves and behind all functions of
the trees that it passes by. -/
def place : List Nat → Prototype → Nat
  | [], _ => 0
  | index :: path, tree =>
    1 + functionCountAll (tree.functions.take index) +
      (tree.functions[index]?.map (place path)).getD 0

/-- The functions of a tree are the same at every depth. -/
theorem preorder_map_snd (tree : Prototype) (depth other : Nat) :
    (tree.preorder depth).map Prod.snd = (tree.preorder other).map Prod.snd := by
  induction tree using nestedInduction generalizing depth other with
  | step tree ih =>
    rw [preorder_eq, preorder_eq, preorderAll_eq_flatMap, preorderAll_eq_flatMap]
    simp only [List.map_cons, List.map_flatMap]
    have below := List.flatMap_congr fun inner member => ih inner member (depth + 1) (other + 1)
    rw [below]

mutual

/-- A tree has as many functions as its preorder has entries. -/
theorem length_preorder (depth : Nat) :
    ∀ tree : Prototype, (tree.preorder depth).length = tree.functionCount
  | ⟨_, _, _, _, _, _, _, _, _, functions, _⟩ => by
    rw [preorder, functionCount, List.length_cons, length_preorderAll _ functions, Nat.add_comm]

/-- So do several trees. -/
theorem length_preorderAll (depth : Nat) :
    ∀ trees : List Prototype, (preorderAll depth trees).length = functionCountAll trees
  | [] => rfl
  | first :: further => by
    rw [preorderAll, functionCountAll, List.length_append, length_preorder depth first,
      length_preorderAll depth further]

end

/-- The number of functions in the trees of two lists. -/
theorem functionCountAll_append (front back : List Prototype) :
    functionCountAll (front ++ back) = functionCountAll front + functionCountAll back := by
  rw [← length_preorderAll 0, ← length_preorderAll 0, ← length_preorderAll 0,
    preorderAll_eq_flatMap, List.flatMap_append, List.length_append, preorderAll_eq_flatMap,
    preorderAll_eq_flatMap]

section Nested

variable {tree inner : Prototype} {index : Nat} (chosen : tree.functions[index]? = some inner)

include chosen

/-- The place of a path is found in the nested function that the path chooses first. -/
theorem place_cons (path : List Nat) :
    tree.place (index :: path) =
      1 + functionCountAll (tree.functions.take index) + inner.place path := by
  rw [place, chosen, Option.map_some, Option.getD_some]

/-- A nested function stands in preorder behind the trees in front of it. -/
theorem preorder_nested (depth : Nat) :
    tree.preorder depth =
      (depth, tree) :: preorderAll (depth + 1) (tree.functions.take index) ++
        inner.preorder (depth + 1) ++
        preorderAll (depth + 1) (tree.functions.drop (index + 1)) := by
  have inside : index < tree.functions.length := (List.getElem?_eq_some_iff.mp chosen).1
  have here : tree.functions[index] = inner := (List.getElem?_eq_some_iff.mp chosen).2
  have cut : tree.functions =
      tree.functions.take index ++ inner :: tree.functions.drop (index + 1) := by
    rw [← here, ← List.drop_eq_getElem_cons inside, List.take_append_drop]
  conv_lhs => rw [preorder_eq, cut]
  simp only [preorderAll_eq_flatMap, List.flatMap_append, List.flatMap_cons, List.cons_append,
    List.append_assoc]

/-- The trees up to a nested function have the functions of those in front of it and its own. -/
theorem functionCountAll_take_succ :
    functionCountAll (tree.functions.take (index + 1)) =
      functionCountAll (tree.functions.take index) + inner.functionCount := by
  rw [List.take_add_one, chosen, functionCountAll_append]
  rfl

end Nested

/-- Fewer trees have no more functions. -/
theorem functionCountAll_take_le (trees : List Prototype) {fewer more : Nat} (le : fewer ≤ more) :
    functionCountAll (trees.take fewer) ≤ functionCountAll (trees.take more) := by
  have parts : trees.take more = trees.take fewer ++ (trees.drop fewer).take (more - fewer) := by
    rw [← List.take_add, Nat.add_sub_cancel' le]
  rw [parts, functionCountAll_append]
  exact Nat.le_add_right _ _

/-- The functions of the tree that a path leads to stand together in preorder, behind as many others
as the place of the path says. -/
theorem preorder_eq_append {tree inner : Prototype} {path : List Nat}
    (reaches : tree.follow? path = some inner) (depth : Nat) :
    ∃ front back, tree.preorder depth = front ++ inner.preorder (depth + path.length) ++ back ∧
      front.length = tree.place path := by
  induction path generalizing tree depth with
  | nil =>
    have here : tree = inner := Option.some.inj reaches
    exact ⟨[], [], by simp [here], rfl⟩
  | cons index path ih =>
    rw [follow?_cons, Option.bind_eq_some_iff] at reaches
    obtain ⟨child, chosen, further⟩ := reaches
    obtain ⟨front, back, parts, size⟩ := ih further (depth + 1)
    have deeper : depth + 1 + path.length = depth + (index :: path).length := by
      rw [List.length_cons, Nat.add_assoc, Nat.add_comm 1]
    refine ⟨(depth, tree) :: preorderAll (depth + 1) (tree.functions.take index) ++ front,
      back ++ preorderAll (depth + 1) (tree.functions.drop (index + 1)), ?_, ?_⟩
    · rw [preorder_nested chosen, parts, deeper]
      simp only [List.append_assoc, List.cons_append]
    · rw [place_cons chosen, List.length_append, List.length_cons, length_preorderAll, size]
      omega

/-- The functions of the tree that a path leads to have places in the whole tree. -/
theorem place_add_functionCount_le {tree inner : Prototype} {path : List Nat}
    (reaches : tree.follow? path = some inner) :
    tree.place path + inner.functionCount ≤ tree.functionCount := by
  obtain ⟨front, back, parts, size⟩ := preorder_eq_append reaches 0
  have lengths := congrArg List.length parts
  rw [List.length_append, List.length_append, length_preorder, length_preorder, size] at lengths
  omega

/-- In preorder a path comes before its continuations, and of two paths that differ the one with the
smaller number where they first do. -/
theorem place_lt_place {left right : List Nat} (before : List.Lex (· < ·) left right)
    {tree first second : Prototype} (reachesFirst : tree.follow? left = some first)
    (reachesSecond : tree.follow? right = some second) : tree.place left < tree.place right := by
  induction before generalizing tree with
  | nil =>
    rw [follow?_cons, Option.bind_eq_some_iff] at reachesSecond
    obtain ⟨child, chosen, -⟩ := reachesSecond
    rw [place_cons chosen, place]
    omega
  | rel smaller =>
    rw [follow?_cons, Option.bind_eq_some_iff] at reachesFirst reachesSecond
    obtain ⟨child, chosen, further⟩ := reachesFirst
    obtain ⟨other, chosenOther, -⟩ := reachesSecond
    have passed := functionCountAll_take_le tree.functions (Nat.succ_le_of_lt smaller)
    have inside := place_add_functionCount_le further
    have some := functionCount_eq first
    rw [functionCountAll_take_succ chosen] at passed
    rw [place_cons chosen, place_cons chosenOther]
    omega
  | cons _ ih =>
    rw [follow?_cons, Option.bind_eq_some_iff] at reachesFirst reachesSecond
    obtain ⟨child, chosen, further⟩ := reachesFirst
    obtain ⟨other, chosenOther, furtherOther⟩ := reachesSecond
    have same : other = child := Option.some.inj (chosenOther.symm.trans chosen)
    rw [same] at furtherOther
    have below := ih further furtherOther
    rw [place_cons chosen, place_cons chosen]
    omega

end Prototype

end LuaChunk
