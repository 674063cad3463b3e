import LuaChunk.Proofs.Listing.Lines
import LuaChunk.Proofs.Preorder

/-!
# Listings are put together from blocks

A listing has one block for each function of its tree, in preorder, and a block says nothing of the
functions nested in its function but how many they are. So the listing of a function anywhere in a
tree stands in the listing of the tree, from the place of its path on, and a listing is appended to
a text that is there already (`Prototype.listing_in_blocks`).
-/
namespace LuaChunk

namespace Prototype

/-- The block of a function, without the functions nested in it. -/
def block (prototype : Prototype) : String := prototype.appendBlock ""

/-- The blocks of all functions of a tree in preorder. -/
def blocks (tree : Prototype) : List String := (tree.preorder 0).map fun entry => entry.2.block

/-- A listing is appended to a text. -/
theorem appendListing_eq (text : String) (tree : Prototype) :
    tree.appendListing text = text ++ tree.listing := by
  rw [← String.toList_inj, String.toList_append, toList_appendListing, toList_listing]

/-- The listings of several functions are appended to a text one after the other. -/
theorem appendListings_eq (text : String) (trees : List Prototype) :
    appendListings text trees = text ++ String.join (trees.map listing) := by
  induction trees generalizing text with
  | nil => rw [appendListings, List.map_nil, String.join_nil, String.append_empty]
  | cons first further ih =>
    rw [appendListings, ih, appendListing_eq, List.map_cons, String.join_cons, String.append_assoc]

/-- The listing of a tree is the block of its root and then the listings of the trees below it. -/
theorem listing_eq (tree : Prototype) :
    tree.listing = tree.block ++ String.join (tree.functions.map listing) := by
  rw [← appendListings_eq]
  cases tree
  rfl

/-- The blocks of a tree are that of its root and then those of the trees below it. -/
theorem blocks_eq (tree : Prototype) :
    tree.blocks = tree.block :: tree.functions.flatMap blocks := by
  have below : ∀ inner ∈ tree.functions,
      ((inner.preorder 1).map fun entry => entry.2.block) = inner.blocks := by
    intro inner _
    have same := congrArg (List.map block) (inner.preorder_map_snd 1 0)
    rwa [List.map_map, List.map_map] at same
  rw [blocks, preorder_eq, List.map_cons, preorderAll_eq_flatMap, List.map_flatMap,
    List.flatMap_congr below]

/-- A listing is the blocks of its tree one after the other. -/
theorem listing_eq_join (tree : Prototype) : tree.listing = String.join tree.blocks := by
  induction tree using nestedInduction with
  | step tree ih =>
    have below : String.join (tree.functions.map listing) =
        String.join (tree.functions.flatMap blocks) := by
      rw [List.map_congr_left ih]
      induction tree.functions with
      | nil => rfl
      | cons first further rest =>
        rw [List.map_cons, String.join_cons, rest, List.flatMap_cons, String.join_append]
    rw [listing_eq, blocks_eq, String.join_cons, below]

/-- The block of a function with other functions nested in it, if these are as many. -/
theorem block_congr (prototype : Prototype) {functions : List Prototype}
    (size : functions.length = prototype.functions.length) :
    { prototype with functions }.block = prototype.block := by
  unfold block appendBlock banner
  rw [size]
  rfl

/-- There are as many blocks as functions. -/
theorem length_blocks (tree : Prototype) : tree.blocks.length = tree.functionCount := by
  rw [blocks, List.length_map, length_preorder]

section Path

variable {tree inner : Prototype} {path : List Nat} (reaches : tree.follow? path = some inner)

include reaches

/-- The blocks of the tree that a path leads to stand together in the blocks of the whole tree. -/
theorem blocks_eq_append :
    ∃ front back, tree.blocks = front ++ inner.blocks ++ back ∧
      front.length = tree.place path := by
  obtain ⟨front, back, parts, size⟩ := preorder_eq_append reaches 0
  have deeper : ((inner.preorder (0 + path.length)).map fun entry => entry.2.block) =
      inner.blocks := by
    have same := congrArg (List.map block) (inner.preorder_map_snd (0 + path.length) 0)
    rwa [List.map_map, List.map_map] at same
  refine ⟨front.map fun entry => entry.2.block, back.map fun entry => entry.2.block, ?_, ?_⟩
  · rw [blocks, parts, List.map_append, List.map_append, deeper]
  · rw [List.length_map, size]

/-- They begin at the place of the path. -/
theorem take_drop_blocks :
    (tree.blocks.drop (tree.place path)).take inner.functionCount = inner.blocks := by
  obtain ⟨front, back, parts, size⟩ := blocks_eq_append reaches
  rw [parts, ← size, List.append_assoc, List.drop_left, ← length_blocks, List.take_left]

/-- The listing of the tree that a path leads to stands in the listing of the whole tree, between
the blocks in front of the place of the path and those behind its own. -/
theorem listing_eq_append :
    tree.listing = String.join (tree.blocks.take (tree.place path)) ++ inner.listing ++
      String.join (tree.blocks.drop (tree.place path + inner.functionCount)) := by
  have behind : tree.blocks.drop (tree.place path + inner.functionCount) =
      (tree.blocks.drop (tree.place path)).drop inner.functionCount := by rw [List.drop_drop]
  have own : tree.blocks.drop (tree.place path) =
      inner.blocks ++ (tree.blocks.drop (tree.place path)).drop inner.functionCount := by
    rw [← take_drop_blocks reaches, List.take_append_drop]
  rw [tree.listing_eq_join, inner.listing_eq_join, behind, String.append_assoc,
    ← String.join_append, ← own, ← String.join_append, List.take_append_drop]

/-- At the place of a path stands the function that it leads to, as deep as the path is long. -/
theorem getElem?_place : (tree.preorder 0)[tree.place path]? = some (path.length, inner) := by
  obtain ⟨front, back, parts, size⟩ := preorder_eq_append reaches 0
  rw [parts, List.append_assoc, List.getElem?_append_right (Nat.le_of_eq size), size, Nat.sub_self,
    preorder_eq, Nat.zero_add]
  rfl

end Path

/-- A listing is the blocks of the functions of its tree in preorder, as many as there are
functions, and a block depends on the fields of its function and on the number of the functions
nested in it. The listing of the function that a path leads to is the part of these blocks that
begins at the place of the path, which is the place of that function in preorder: paths have their
places in the order in which they are visited. A listing that is appended to a text follows it. -/
theorem listing_in_blocks (tree : Prototype) :
    tree.listing = String.join tree.blocks ∧
    tree.blocks.length = tree.functionCount ∧
    (∀ functions : List Prototype, functions.length = tree.functions.length →
      { tree with functions }.block = tree.block) ∧
    (∀ path inner, tree.follow? path = some inner →
      (tree.preorder 0)[tree.place path]? = some (path.length, inner) ∧
      (tree.blocks.drop (tree.place path)).take inner.functionCount = inner.blocks ∧
      tree.listing = String.join (tree.blocks.take (tree.place path)) ++ inner.listing ++
        String.join (tree.blocks.drop (tree.place path + inner.functionCount))) ∧
    (∀ left right first second, List.Lex (· < ·) left right → tree.follow? left = some first →
      tree.follow? right = some second → tree.place left < tree.place right) ∧
    ∀ text, tree.appendListing text = text ++ tree.listing := by
  refine ⟨tree.listing_eq_join, tree.length_blocks, ?_, ?_, ?_, ?_⟩
  · intro functions size
    exact tree.block_congr size
  · intro path inner reaches
    exact ⟨getElem?_place reaches, take_drop_blocks reaches, listing_eq_append reaches⟩
  · intro left right first second before reachesFirst reachesSecond
    exact place_lt_place before reachesFirst reachesSecond
  · intro text
    exact tree.appendListing_eq text

/-- The second function nested in a main function is the last of four, because another one is nested
in the first. Its listing follows the blocks of the other three. -/
theorem listing_in_blocks_nested :
    let inner : Prototype := ⟨⟨[0x40, 0x61]⟩, 3, 4, 0, 0, 2, [], [], [], [], ⟨[], [], []⟩⟩
    let outer : Prototype := { inner with lineDefined := 2, functions := [inner] }
    let last : Prototype := { inner with lineDefined := 6 }
    let main : Prototype := { inner with lineDefined := 0, functions := [outer, last] }
    main.follow? [1] = some last ∧ main.place [1] = 3 ∧ main.place [0, 0] < 3 ∧
      main.listing = String.join (main.blocks.take 3) ++ last.listing ++
        String.join (main.blocks.drop 4) ∧
      { main with functions := [last, last] }.block = main.block := by
  intro inner outer last main
  obtain ⟨-, -, own, parts, order, -⟩ := listing_in_blocks main
  have behind : List.Lex (· < ·) [0, 0] [1] := .rel Nat.one_pos
  exact ⟨rfl, rfl, order [0, 0] [1] inner last behind rfl rfl, (parts [1] last rfl).2.2,
    own [last, last] rfl⟩

end Prototype

end LuaChunk
