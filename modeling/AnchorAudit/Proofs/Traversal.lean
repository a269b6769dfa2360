import AnchorAudit.Proofs.Node
import Mathlib.Data.List.Basic
import Mathlib.Logic.Function.Iterate

/-! The walk through a tree, turn by turn. The stack holds the part of the tree that is not listed yet as
a forest; the forest loses one node in every turn, although the stack may grow, so the walk ends when
every node of the tree has been listed. -/
namespace AnchorAudit.Node

theorem preorderAll_eq_flatMap (cs : List Node) : preorderAll cs = cs.flatMap preorder := by
  induction cs with
  | nil => rw [preorderAll, List.flatMap_nil]
  | cons c cs ih => rw [preorderAll, List.flatMap_cons, ih]

theorem subtree_eq_flatMap (n : Node) : n.subtree = n :: n.children.flatMap subtree := by
  have hsubtree : subtree = preorder := funext subtree_eq
  rw [hsubtree]
  cases n with
  | mk l cs => rw [preorder, preorderAll_eq_flatMap, children]

theorem length_unstack (stack : List Node) : (unstack stack).length = sizeAll stack := by
  induction stack using unstack.induct with
  | case1 => rw [unstack, sizeAll]; rfl
  | case2 n rest ih =>
    rw [unstack, List.length_cons, ih, sizeAll_append, sizeAll, size_eq]
    omega

theorem sizeAll_singleton (n : Node) : sizeAll [n] = n.size := by
  rw [sizeAll, sizeAll, Nat.add_zero]

theorem sizeAll_reverse (ns : List Node) : sizeAll ns.reverse = sizeAll ns := by
  induction ns with
  | nil => rfl
  | cons n ns ih =>
    rw [List.reverse_cons, sizeAll_append, ih, sizeAll_singleton, sizeAll, Nat.add_comm]

theorem sizeAll_eq_zero_iff {ns : List Node} : sizeAll ns = 0 ↔ ns = [] := by
  cases ns with
  | nil => simp only [sizeAll]
  | cons n ns =>
    rw [sizeAll, size_eq]
    simp only [List.cons_ne_nil, iff_false]
    omega

/-- A walk under way: the nodes listed so far, and the trees that wait on the stack, the next one
last. -/
structure Walk where
  listed : List Node
  stack : List Node

namespace Walk

def start (n : Node) : Walk := ⟨[], [n]⟩

/-- The next tree leaves the stack. Its root is listed, and its children are pushed, the last child
first. Nothing happens once the stack is empty. -/
def turn (w : Walk) : Walk :=
  match w.stack.getLast? with
  | some n => ⟨w.listed ++ [n], w.stack.dropLast ++ n.children.reverse⟩
  | none => w

theorem turn_nil (listed : List Node) : turn ⟨listed, []⟩ = ⟨listed, []⟩ := rfl

theorem turn_concat (listed rest : List Node) (n : Node) :
    turn ⟨listed, rest ++ [n]⟩ = ⟨listed ++ [n], rest ++ n.children.reverse⟩ := by
  unfold turn
  simp only [List.getLast?_concat, List.dropLast_concat]

/-- What has been listed, and then what is on the stack: no turn changes the whole. -/
def whole (w : Walk) : List Node := w.listed ++ unstack w.stack.reverse

theorem whole_turn (w : Walk) : w.turn.whole = w.whole := by
  obtain ⟨listed, stack⟩ := w
  rcases List.eq_nil_or_concat' stack with rfl | ⟨rest, n, rfl⟩
  · rw [turn_nil]
  · rw [turn_concat]
    simp only [whole, List.reverse_append, List.reverse_reverse, List.reverse_singleton,
      List.singleton_append]
    rw [unstack, List.append_assoc]
    rfl

/-- A turn takes one node away from the forest on the stack. -/
theorem sizeAll_turn (w : Walk) : sizeAll w.turn.stack = sizeAll w.stack - 1 := by
  obtain ⟨listed, stack⟩ := w
  rcases List.eq_nil_or_concat' stack with rfl | ⟨rest, n, rfl⟩
  · rfl
  · rw [turn_concat]
    simp only [sizeAll_append, sizeAll_reverse, sizeAll_singleton, size_eq]
    omega

theorem whole_iterate (n : Node) (k : Nat) : (turn^[k] (start n)).whole = n.subtree := by
  induction k with
  | zero => rfl
  | succ k ih => rw [Function.iterate_succ_apply', whole_turn, ih]

theorem sizeAll_iterate (n : Node) (k : Nat) :
    sizeAll (turn^[k] (start n)).stack = n.size - k := by
  induction k with
  | zero => exact sizeAll_singleton n
  | succ k ih => rw [Function.iterate_succ_apply', sizeAll_turn, ih, Nat.sub_sub]

theorem stack_iterate_eq_nil_iff (n : Node) (k : Nat) :
    (turn^[k] (start n)).stack = [] ↔ n.size ≤ k := by
  rw [← sizeAll_eq_zero_iff, sizeAll_iterate, Nat.sub_eq_zero_iff_le]

end Walk

theorem length_subtree (n : Node) : n.subtree.length = n.size := by
  rw [subtree, length_unstack, sizeAll_singleton]

theorem Walk.listed_iterate (n : Node) (k : Nat) :
    (turn^[k] (start n)).listed = n.subtree.take k := by
  have hwhole := whole_iterate n k
  have hwaiting := sizeAll_iterate n k
  generalize turn^[k] (start n) = w at hwhole hwaiting ⊢
  have hlength := congrArg List.length hwhole
  rw [whole, List.length_append, length_unstack, sizeAll_reverse, hwaiting, length_subtree] at hlength
  have htake : n.subtree.take k = n.subtree.take w.listed.length := by
    apply List.take_eq_take_iff.mpr
    rw [length_subtree]
    omega
  rw [htake, ← hwhole, whole, List.take_left]

theorem not_append_lt (p q : List Nat) : ¬p ++ q < p := by
  induction p with
  | nil => exact List.not_lt_nil q
  | cons i p ih =>
    rw [List.cons_append, List.cons_lt_cons_iff]
    rintro (hlt | ⟨-, hlt⟩)
    · exact Nat.lt_irrefl i hlt
    · exact ih hlt

/-- No path comes after one that leads through its node. -/
theorem pairwise_not_prefix_paths (n : Node) : n.paths.Pairwise fun p q => ¬q <+: p := by
  apply (pairwise_paths n).imp
  rintro p q hlt ⟨below, rfl⟩
  exact not_append_lt q below hlt

theorem mem_paths_iff {n : Node} {path : List Nat} : path ∈ n.paths ↔ (n.at? path).isSome = true := by
  rw [Option.isSome_iff_exists]
  constructor
  · intro hpath
    have hmem : n.at? path ∈ n.paths.map n.at? := List.mem_map_of_mem hpath
    rw [map_at?_paths] at hmem
    obtain ⟨m, -, hm⟩ := List.mem_map.mp hmem
    exact ⟨m, hm.symm⟩
  · rintro ⟨m, hm⟩
    exact mem_paths_of_at? hm

/-- The walk through a tree ends after as many turns as the tree has nodes, and lists one node in each of
them: the root, and then all that the walks through its children list, one after the other. Every place
in the tree has its turn exactly once, and before all places below it. -/
theorem subtree_walk (n : Node) :
    (∀ k, ((Walk.turn^[k] (.start n)).stack = [] ↔ n.size ≤ k) ∧
      (Walk.turn^[k] (.start n)).listed = n.subtree.take k) ∧
    n.subtree.length = n.size ∧
    n.subtree = n :: n.children.flatMap subtree ∧
    n.paths.map n.at? = n.subtree.map some ∧
    (∀ path, path ∈ n.paths ↔ (n.at? path).isSome = true) ∧
    n.paths.Pairwise fun p q => ¬q <+: p := by
  refine ⟨fun k => ⟨Walk.stack_iterate_eq_nil_iff n k, Walk.listed_iterate n k⟩, length_subtree n,
    subtree_eq_flatMap n, ?_, fun path => mem_paths_iff, pairwise_not_prefix_paths n⟩
  rw [map_at?_paths, subtree_eq]

example :
    let leaf (kind : String) : Node := .mk ⟨kind, true, false, false, none, 0, 0⟩ []
    let pair (kind : String) (a b : Node) : Node := .mk ⟨kind, true, false, false, none, 0, 0⟩ [a, b]
    let walk := Walk.turn^[3] (.start (pair "1" (pair "2" (leaf "3") (leaf "4")) (leaf "5")))
    walk.listed.map kind = ["1", "2", "3"] ∧ walk.stack.map kind = ["5", "4"] := by
  decide

end AnchorAudit.Node
