import AnchorAudit.Node

/-! Induction over trees, and nodes by their paths. A path lists child numbers from the root of a tree
downwards; the nodes of a tree come in source order when their paths come in lexicographic order. -/
namespace AnchorAudit.Node

@[elab_as_elim]
theorem treeInduction {motive : Node → Prop}
    (mk : ∀ l cs, (∀ c ∈ cs, motive c) → motive (.mk l cs)) : ∀ n, motive n
  | .mk l cs => mk l cs fun c _ => treeInduction mk c

/-- A node is reached from those that are two steps below it. -/
@[elab_as_elim]
theorem grandchildInduction {motive : Node → Prop}
    (mk : ∀ n, (∀ c ∈ n.children, ∀ b ∈ c.children, motive b) → motive n) (n : Node) : motive n := by
  have hboth : motive n ∧ ∀ c ∈ n.children, motive c := by
    induction n using treeInduction with
    | mk l cs ih =>
      exact ⟨mk (.mk l cs) fun c hc b hb => (ih c hc).2 b hb, fun c hc => (ih c hc).1⟩
  exact hboth.1

def at? : Node → List Nat → Option Node
  | n, [] => some n
  | n, i :: path => n.children[i]?.bind (at? · path)

/-- All of the tree at the first path comes before the node at the second. -/
def EndsBefore (p q : List Nat) : Prop := ∀ below, p ++ below < q

/-- The tree at the first path is completed before the tree at the second: it lies before that tree,
or inside it. -/
def ClosesBefore (p q : List Nat) : Prop := EndsBefore p q ∨ q <+: p ∧ q ≠ p

theorem endsBefore_cons {i j : Nat} {p q : List Nat} :
    EndsBefore (i :: p) (j :: q) ↔ i < j ∨ i = j ∧ EndsBefore p q := by
  unfold EndsBefore
  simp only [List.cons_append, List.cons_lt_cons_iff]
  constructor
  · intro h
    rcases h [] with hlt | ⟨heq, -⟩
    · exact .inl hlt
    · refine .inr ⟨heq, fun below => ?_⟩
      rcases h below with hlt | ⟨-, hbelow⟩
      · exact absurd heq (Nat.ne_of_lt hlt)
      · exact hbelow
  · rintro (hlt | ⟨heq, h⟩) below
    · exact .inl hlt
    · exact .inr ⟨heq, h below⟩

/-- Nothing in a tree comes after all of it. -/
theorem not_endsBefore_of_nil (q : List Nat) : ¬EndsBefore [] q := by
  intro h
  exact List.lt_irrefl q (h q)

theorem not_endsBefore_nil (p : List Nat) : ¬EndsBefore p [] := by
  intro h
  exact List.not_lt_nil _ (h [])

theorem closesBefore_cons {i j : Nat} {p q : List Nat} :
    ClosesBefore (i :: p) (j :: q) ↔ i < j ∨ i = j ∧ ClosesBefore p q := by
  unfold ClosesBefore
  rw [endsBefore_cons, List.cons_prefix_cons]
  simp only [ne_eq, List.cons.injEq]
  constructor
  · rintro ((hlt | ⟨heq, h⟩) | ⟨⟨heq, hinside⟩, hne⟩)
    · exact .inl hlt
    · exact .inr ⟨heq, .inl h⟩
    · exact .inr ⟨heq.symm, .inr ⟨hinside, fun h => hne ⟨heq, h⟩⟩⟩
  · rintro (hlt | ⟨heq, h | ⟨hinside, hne⟩⟩)
    · exact .inl (.inl hlt)
    · exact .inl (.inr ⟨heq, h⟩)
    · exact .inr ⟨⟨heq.symm, hinside⟩, fun h => hne h.2⟩

theorem closesBefore_nil (i : Nat) (p : List Nat) : ClosesBefore (i :: p) [] :=
  .inr ⟨List.nil_prefix, (List.cons_ne_nil i p).symm⟩

theorem not_closesBefore_of_nil (q : List Nat) : ¬ClosesBefore [] q := by
  rintro (h | ⟨hinside, hne⟩)
  · exact not_endsBefore_of_nil q h
  · exact hne (List.prefix_nil.mp hinside)

theorem ClosesBefore.asymm {p q : List Nat} (h : ClosesBefore p q) : ¬ClosesBefore q p := by
  induction p generalizing q with
  | nil => exact absurd h (not_closesBefore_of_nil q)
  | cons i p ih =>
    cases q with
    | nil => exact not_closesBefore_of_nil (i :: p)
    | cons j q =>
      intro hback
      rcases closesBefore_cons.mp h with hlt | ⟨rfl, hinner⟩
      · rcases closesBefore_cons.mp hback with hgt | ⟨heq, -⟩
        · exact Nat.lt_asymm hlt hgt
        · exact Nat.ne_of_gt hlt heq
      · rcases closesBefore_cons.mp hback with hlt | ⟨-, hback⟩
        · exact Nat.lt_irrefl i hlt
        · exact ih hinner hback

theorem preorderAll_append (xs ys : List Node) :
    preorderAll (xs ++ ys) = preorderAll xs ++ preorderAll ys := by
  induction xs with
  | nil => rw [preorderAll]; rfl
  | cons x xs ih => rw [List.cons_append, preorderAll, preorderAll, ih, List.append_assoc]

theorem mem_preorderAll {n : Node} {cs : List Node} :
    n ∈ preorderAll cs ↔ ∃ c ∈ cs, n ∈ c.preorder := by
  induction cs with
  | nil =>
    rw [preorderAll]
    simp only [List.not_mem_nil, false_and, exists_false]
  | cons c cs ih =>
    rw [preorderAll, List.mem_append, ih]
    simp only [List.mem_cons, exists_eq_or_imp]

/-- The stack hands out a forest in preorder. -/
theorem unstack_eq (stack : List Node) : unstack stack = preorderAll stack := by
  induction stack using unstack.induct with
  | case1 => rw [unstack, preorderAll]
  | case2 n rest ih =>
    rw [unstack, ih, preorderAll_append, preorderAll]
    cases n with
    | mk l cs => rw [preorder]; rfl

theorem subtree_eq (n : Node) : n.subtree = n.preorder := by
  rw [subtree, unstack_eq, preorderAll, preorderAll, List.append_nil]

mutual

def paths : Node → List (List Nat)
  | .mk _ cs => [] :: pathsAll 0 cs

def pathsAll (k : Nat) : List Node → List (List Nat)
  | [] => []
  | c :: cs => c.paths.map (k :: ·) ++ pathsAll (k + 1) cs

end

theorem paths_eq (n : Node) : n.paths = [] :: pathsAll 0 n.children := by
  cases n with
  | mk l cs => rw [paths]; rfl

theorem exists_cons_of_mem_pathsAll {cs : List Node} {k : Nat} {path : List Nat}
    (h : path ∈ pathsAll k cs) : ∃ i rest, path = i :: rest ∧ k ≤ i := by
  induction cs generalizing k with
  | nil =>
    rw [pathsAll] at h
    cases h
  | cons c cs ih =>
    rw [pathsAll] at h
    rcases List.mem_append.mp h with h | h
    · obtain ⟨rest, -, rfl⟩ := List.mem_map.mp h
      exact ⟨k, rest, rfl, Nat.le_refl k⟩
    · obtain ⟨i, rest, hpath, hle⟩ := ih h
      exact ⟨i, rest, hpath, Nat.le_of_succ_le hle⟩

theorem pairwise_paths (n : Node) : n.paths.Pairwise (· < ·) := by
  induction n using treeInduction with
  | mk l cs ih =>
    have hall (k : Nat) : (pathsAll k cs).Pairwise (· < ·) := by
      induction cs generalizing k with
      | nil =>
        rw [pathsAll]
        exact List.Pairwise.nil
      | cons c cs ihcs =>
        have hhead : (c.paths.map (k :: ·)).Pairwise (· < ·) := by
          rw [List.pairwise_map]
          apply (ih c List.mem_cons_self).imp
          intro p q hpq
          exact List.cons_lt_cons_iff.mpr (.inr ⟨rfl, hpq⟩)
        have htail := ihcs (fun c' hc' => ih c' (List.mem_cons_of_mem c hc')) (k + 1)
        rw [pathsAll]
        refine List.pairwise_append.mpr ⟨hhead, htail, ?_⟩
        intro p hp q hq
        obtain ⟨p', -, rfl⟩ := List.mem_map.mp hp
        obtain ⟨i, q', rfl, hle⟩ := exists_cons_of_mem_pathsAll hq
        exact List.cons_lt_cons_iff.mpr (.inl hle)
    rw [paths]
    refine List.pairwise_cons.mpr ⟨?_, hall 0⟩
    intro p hp
    obtain ⟨i, rest, rfl, -⟩ := exists_cons_of_mem_pathsAll hp
    exact List.nil_lt_cons i rest

theorem nodup_paths (n : Node) : n.paths.Nodup := by
  apply (pairwise_paths n).imp
  intro p q hlt heq
  rw [heq] at hlt
  exact List.lt_irrefl q hlt

/-- The paths of a tree lead to its nodes in preorder. -/
theorem map_at?_paths (n : Node) : n.paths.map n.at? = n.preorder.map some := by
  induction n using treeInduction with
  | mk l cs ih =>
    have hall (front back : List Node) (hcs : cs = front ++ back) :
        (pathsAll front.length back).map (mk l cs).at? = (preorderAll back).map some := by
      induction back generalizing front with
      | nil => rw [pathsAll, preorderAll]; rfl
      | cons c back ihback =>
        have hc : cs[front.length]? = some c := by
          rw [hcs, List.getElem?_append_right (Nat.le_refl _), Nat.sub_self]
          rfl
        have hhead : (c.paths.map (front.length :: ·)).map (mk l cs).at? = c.preorder.map some := by
          rw [List.map_map, ← ih c (List.mem_of_getElem? hc)]
          apply List.map_congr_left
          intro path _
          change cs[front.length]?.bind (at? · path) = c.at? path
          rw [hc]
          rfl
        have htail := ihback (front ++ [c]) (by rw [hcs, List.append_assoc]; rfl)
        rw [List.length_append] at htail
        rw [pathsAll, preorderAll, List.map_append, List.map_append, hhead]
        exact congrArg (c.preorder.map some ++ ·) htail
    rw [paths, preorder, List.map_cons, List.map_cons, at?]
    exact congrArg (some (mk l cs) :: ·) (hall [] cs rfl)

theorem mem_pathsAll_of_getElem? {cs : List Node} {k i : Nat} {c : Node} {rest : List Nat}
    (hc : cs[i]? = some c) (hrest : rest ∈ c.paths) : (k + i) :: rest ∈ pathsAll k cs := by
  induction cs generalizing k i with
  | nil => cases hc
  | cons first cs ih =>
    rw [pathsAll]
    cases i with
    | zero =>
      cases hc
      exact List.mem_append_left _ (List.mem_map_of_mem hrest)
    | succ i =>
      have hmem := ih (k := k + 1) (i := i) hc
      rw [show k + 1 + i = k + (i + 1) by omega] at hmem
      exact List.mem_append_right _ hmem

theorem mem_paths_of_at? {n m : Node} {path : List Nat} (h : n.at? path = some m) :
    path ∈ n.paths := by
  induction path generalizing n with
  | nil =>
    rw [paths_eq]
    exact List.mem_cons_self
  | cons i path ih =>
    obtain ⟨c, hc, hpath⟩ := Option.bind_eq_some_iff.mp h
    have hmem := mem_pathsAll_of_getElem? (k := 0) hc (ih hpath)
    rw [Nat.zero_add] at hmem
    rw [paths_eq]
    exact List.mem_cons_of_mem _ hmem

/-- The walk through a tree comes to every node that a path leads to, and to no other. -/
theorem mem_subtree_iff {n m : Node} : m ∈ n.subtree ↔ ∃ path, n.at? path = some m := by
  have hpaths : n.paths.map n.at? = n.subtree.map some := by rw [map_at?_paths, subtree_eq]
  constructor
  · intro hm
    have hsome : some m ∈ n.paths.map n.at? := hpaths ▸ List.mem_map_of_mem hm
    obtain ⟨path, -, hpath⟩ := List.mem_map.mp hsome
    exact ⟨path, hpath⟩
  · intro h
    obtain ⟨path, hpath⟩ := h
    have hsome : some m ∈ n.paths.map n.at? := List.mem_map.mpr ⟨path, mem_paths_of_at? hpath, hpath⟩
    rw [hpaths] at hsome
    obtain ⟨m', hm', heq⟩ := List.mem_map.mp hsome
    exact Option.some.inj heq ▸ hm'

theorem at?_append (n : Node) (p q : List Nat) : n.at? (p ++ q) = (n.at? p).bind (at? · q) := by
  induction p generalizing n with
  | nil => rfl
  | cons i p ih =>
    rw [List.cons_append, at?, at?]
    cases n.children[i]? with
    | none => rfl
    | some c => exact ih c

theorem exists_at?_of_child? {n c : Node} {field : String} (h : n.child? field = some c) :
    ∃ path, n.at? path = some c := by
  obtain ⟨i, hi⟩ := List.getElem?_of_mem (List.mem_of_find?_eq_some h)
  have hpath : n.at? [i] = some c := by rw [at?, hi]; rfl
  exact ⟨[i], hpath⟩

end AnchorAudit.Node
