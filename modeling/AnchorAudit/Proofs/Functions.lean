import AnchorAudit.Proofs.Node
import AnchorAudit.Query
import Mathlib.Data.List.Forall2
import Mathlib.Tactic.SplitIfs

/-! Which functions a query finds in a file: those that stand in the file itself or in a module that is
written out in it, and those in the implementation blocks of either. -/
namespace AnchorAudit

namespace Node

def partIndex? (n : Node) (field : String) : Option Nat :=
  n.children.findIdx? (·.label.field == some field)

def ItemAt (n : Node) (kind : String) (i : Nat) (item : Node) : Prop :=
  n.children[i]? = some item ∧ item.isNamed = true ∧ item.kind = kind

def BodyAt (n : Node) (j : Nat) (body : Node) : Prop :=
  n.partIndex? "body" = some j ∧ n.children[j]? = some body

/-- The containers of a file: the file itself, and the body of every module in a container. -/
inductive ContainerAt : Node → List Nat → Node → Prop where
  | root (n : Node) : ContainerAt n [] n
  | inner {n item body container : Node} {i j : Nat} {path : List Nat}
      (hitem : n.ItemAt "mod_item" i item) (hbody : item.BodyAt j body)
      (hpath : ContainerAt body path container) : ContainerAt n (i :: j :: path) container

/-- The functions of a file: those in its containers, and those in the implementation blocks there. -/
inductive FunctionAt (root : Node) : List Nat → Role → Prop where
  | free {path : List Nat} {container item : Node} {i : Nat}
      (hpath : ContainerAt root path container) (hitem : container.ItemAt "function_item" i item) :
      FunctionAt root (path ++ [i]) .function
  | method {path : List Nat} {container block body item : Node} {i j k : Nat}
      (hpath : ContainerAt root path container) (hblock : container.ItemAt "impl_item" i block)
      (hbody : block.BodyAt j body) (hitem : body.ItemAt "function_item" k item) :
      FunctionAt root (path ++ [i, j, k]) .associatedFunction

theorem child?_eq (n : Node) (field : String) :
    n.child? field = (n.partIndex? field).bind (n.children[·]?) :=
  List.find?_eq_bind_findIdx?_getElem?

def methodRole? (body : Node) : List Nat → Option Role
  | [k] => (body.children[k]?.filter fun n => n.isNamed && n.kind == "function_item").map
      fun _ => .associatedFunction
  | _ => none

mutual

/-- The role in which the node at a path below a container is listed. -/
def roleAt? : Node → List Nat → Option Role
  | _, [] => none
  | n, i :: path => n.children[i]?.bind (itemRole? · path)

def itemRole? : Node → List Nat → Option Role
  | item, [] => if item.isNamed && item.kind == "function_item" then some .function else none
  | item, j :: path =>
    if item.isNamed && item.partIndex? "body" == some j then
      item.children[j]?.bind fun body =>
        if item.kind == "mod_item" then roleAt? body path
        else if item.kind == "impl_item" then methodRole? body path
        else none
    else none

end

theorem methodRole?_eq_some_iff {body : Node} {path : List Nat} {role : Role} :
    body.methodRole? path = some role ↔
      ∃ k item, path = [k] ∧ body.ItemAt "function_item" k item ∧ role = .associatedFunction := by
  unfold methodRole? ItemAt
  split
  · rename_i k
    simp [Option.filter_eq_some_iff, and_assoc, @eq_comm _ role]
  · rename_i hpath
    simp only [reduceCtorEq, false_iff]
    rintro ⟨k, item, rfl, -, -⟩
    exact hpath k rfl

theorem itemRole?_nil_eq_some_iff {item : Node} {role : Role} :
    item.itemRole? [] = some role ↔
      item.isNamed = true ∧ item.kind = "function_item" ∧ role = .function := by
  rw [itemRole?]
  simp [and_assoc, @eq_comm _ role]

theorem itemRole?_cons_eq_some_iff {item : Node} {j : Nat} {path : List Nat} {role : Role} :
    item.itemRole? (j :: path) = some role ↔ item.isNamed = true ∧ ∃ body, item.BodyAt j body ∧
      (item.kind = "mod_item" ∧ body.roleAt? path = some role ∨
        item.kind = "impl_item" ∧ body.methodRole? path = some role) := by
  rw [itemRole?]
  unfold BodyAt
  by_cases hmodule : item.kind = "mod_item"
  · simp [hmodule, and_assoc, Option.bind_eq_some_iff]
  · by_cases himpl : item.kind = "impl_item" <;>
      simp [hmodule, himpl, and_assoc, Option.bind_eq_some_iff]

theorem FunctionAt.inner {n item body : Node} {i j : Nat} {path : List Nat} {role : Role}
    (hitem : n.ItemAt "mod_item" i item) (hbody : item.BodyAt j body)
    (h : FunctionAt body path role) : FunctionAt n (i :: j :: path) role := by
  cases h with
  | free hpath hfunction => exact .free (.inner hitem hbody hpath) hfunction
  | method hpath hblock hblockBody hfunction =>
    exact .method (.inner hitem hbody hpath) hblock hblockBody hfunction

theorem functionAt_of_roleAt? : ∀ {n : Node} {path : List Nat} {role : Role},
    n.roleAt? path = some role → FunctionAt n path role
  | n, [], role, h => by
    rw [roleAt?] at h
    cases h
  | n, [i], role, h => by
    rw [roleAt?] at h
    obtain ⟨item, hitem, hrole⟩ := Option.bind_eq_some_iff.mp h
    obtain ⟨hnamed, hkind, rfl⟩ := itemRole?_nil_eq_some_iff.mp hrole
    exact .free (.root n) ⟨hitem, hnamed, hkind⟩
  | n, i :: j :: path, role, h => by
    rw [roleAt?] at h
    obtain ⟨item, hitem, hrole⟩ := Option.bind_eq_some_iff.mp h
    obtain ⟨hnamed, body, hbody, hrole⟩ := itemRole?_cons_eq_some_iff.mp hrole
    rcases hrole with ⟨hmodule, hrole⟩ | ⟨himpl, hrole⟩
    · exact .inner ⟨hitem, hnamed, hmodule⟩ hbody (functionAt_of_roleAt? hrole)
    · obtain ⟨k, method, rfl, hmethod, rfl⟩ := methodRole?_eq_some_iff.mp hrole
      exact .method (.root n) ⟨hitem, hnamed, himpl⟩ hbody hmethod

theorem ContainerAt.roleAt?_append {n container : Node} {path : List Nat}
    (h : ContainerAt n path container) {rest : List Nat} {role : Role}
    (hrole : container.roleAt? rest = some role) : n.roleAt? (path ++ rest) = some role := by
  induction h with
  | root n => exact hrole
  | inner hitem hbody hpath ih =>
    obtain ⟨hchild, hnamed, hmodule⟩ := hitem
    have hinner := itemRole?_cons_eq_some_iff.mpr ⟨hnamed, _, hbody, .inl ⟨hmodule, ih hrole⟩⟩
    rw [List.cons_append, List.cons_append, roleAt?, hchild]
    exact hinner

theorem roleAt?_eq_some_iff {n : Node} {path : List Nat} {role : Role} :
    n.roleAt? path = some role ↔ FunctionAt n path role := by
  constructor
  · exact functionAt_of_roleAt?
  · intro h
    cases h with
    | free hpath hitem =>
      obtain ⟨hchild, hnamed, hkind⟩ := hitem
      apply hpath.roleAt?_append
      rw [roleAt?, hchild]
      exact itemRole?_nil_eq_some_iff.mpr ⟨hnamed, hkind, rfl⟩
    | method hpath hblock hbody hitem =>
      obtain ⟨hchild, hnamed, hkind⟩ := hblock
      have hmethod := methodRole?_eq_some_iff.mpr ⟨_, _, rfl, hitem, rfl⟩
      apply hpath.roleAt?_append
      rw [roleAt?, hchild]
      exact itemRole?_cons_eq_some_iff.mpr ⟨hnamed, _, hbody, .inr ⟨hkind, hmethod⟩⟩

section Listing
variable {α : Type} {f : List Nat → Option α}

theorem filterMap_paths_root {n : Node} (h : ∀ i path, f (i :: path) = none) :
    n.paths.filterMap f = (f []).toList := by
  have hbelow : (pathsAll 0 n.children).filterMap f = [] := by
    apply List.filterMap_eq_nil_iff.mpr
    intro path hpath
    obtain ⟨i, rest, rfl, -⟩ := exists_cons_of_mem_pathsAll hpath
    exact h i rest
  rw [paths_eq, List.filterMap_cons, hbelow]
  cases f [] <;> rfl

theorem filterMap_pathsAll_child {cs : List Node} {c : Node} {k j : Nat} (hc : cs[j]? = some c)
    (hothers : ∀ i path, i ≠ k + j → f (i :: path) = none) :
    (pathsAll k cs).filterMap f = c.paths.filterMap fun path => f ((k + j) :: path) := by
  induction cs generalizing k j with
  | nil => cases hc
  | cons first cs ih =>
    rw [pathsAll, List.filterMap_append, List.filterMap_map]
    cases j with
    | zero =>
      have hlater : (pathsAll (k + 1) cs).filterMap f = [] := by
        apply List.filterMap_eq_nil_iff.mpr
        intro path hpath
        obtain ⟨i, rest, rfl, hle⟩ := exists_cons_of_mem_pathsAll hpath
        exact hothers i rest (by omega)
      cases hc
      rw [hlater, List.append_nil]
      rfl
    | succ j =>
      have hearlier : first.paths.filterMap (f ∘ (k :: ·)) = [] := by
        apply List.filterMap_eq_nil_iff.mpr
        intro path _
        exact hothers k path (by omega)
      have hrest := ih (k := k + 1) (j := j) hc fun i path hi => hothers i path (by omega)
      rw [hearlier, List.nil_append, hrest]
      simp only [show k + 1 + j = k + (j + 1) by omega]

theorem filterMap_paths_child {n c : Node} {j : Nat} (hc : n.children[j]? = some c)
    (hroot : f [] = none) (hothers : ∀ i path, i ≠ j → f (i :: path) = none) :
    n.paths.filterMap f = c.paths.filterMap fun path => f (j :: path) := by
  have hall := filterMap_pathsAll_child (k := 0) hc fun i path hi =>
    hothers i path (by rwa [Nat.zero_add] at hi)
  rw [paths_eq, List.filterMap_cons, hroot, hall]
  simp only [Nat.zero_add]

end Listing

end Node

namespace Place

def at? : Place → List Nat → Option Place
  | p, [] => some p
  | p, i :: path => p.children[i]?.bind (at? · path)

def subject? (p : Place) (path : List Nat) (role : Option Role) : Option Subject :=
  role.bind fun r => (p.at? path).map (.placed r)

def below (p : Place) (i : Nat) (c : Node) : Place :=
  ⟨p.source, c, (p.node.children.take i).reverse⟩

theorem subject?_eq_some_iff {p : Place} {path : List Nat} {role? : Option Role} {s : Subject} :
    p.subject? path role? = some s ↔
      ∃ role place, s = .placed role place ∧ role? = some role ∧ p.at? path = some place := by
  unfold subject?
  constructor
  · intro h
    obtain ⟨role, hrole, hs⟩ := Option.bind_eq_some_iff.mp h
    obtain ⟨place, hplace, rfl⟩ := Option.map_eq_some_iff.mp hs
    exact ⟨role, place, rfl, hrole, hplace⟩
  · rintro ⟨role, place, rfl, rfl, hplace⟩
    rw [hplace]
    rfl

theorem getElem?_side (source : Source) (before ns : List Node) (i : Nat) :
    (side source before ns)[i]? =
      ns[i]?.map fun n => ⟨source, n, (ns.take i).reverse ++ before⟩ := by
  induction ns generalizing before i with
  | nil => rfl
  | cons n ns ih =>
    cases i with
    | zero => rfl
    | succ i =>
      rw [side, List.getElem?_cons_succ, List.getElem?_cons_succ, ih, List.take_succ_cons,
        List.reverse_cons, List.append_assoc]
      rfl

theorem getElem?_children (p : Place) (i : Nat) :
    p.children[i]? = p.node.children[i]?.map (p.below i) := by
  unfold children
  rw [getElem?_side]
  simp only [List.append_nil]
  rfl

theorem subject?_cons {p : Place} {i : Nat} {c : Node} (hc : p.node.children[i]? = some c)
    (path : List Nat) (role : Option Role) :
    p.subject? (i :: path) role = (p.below i c).subject? path role := by
  unfold subject?
  rw [at?, getElem?_children, hc]
  rfl

/-- What is found child by child is found path by path. -/
theorem flatMap_children {p : Place} {one : Place → List Subject} {f : List Nat → Option Subject}
    (hroot : f [] = none)
    (hone : ∀ i c, p.node.children[i]? = some c →
      one (p.below i c) = c.paths.filterMap fun path => f (i :: path)) :
    p.children.flatMap one = p.node.paths.filterMap f := by
  have hall (front back : List Node) (h : p.node.children = front ++ back) :
      (side p.source front.reverse back).flatMap one =
        (Node.pathsAll front.length back).filterMap f := by
    induction back generalizing front with
    | nil => rw [Node.pathsAll]; rfl
    | cons c back ih =>
      have hc : p.node.children[front.length]? = some c := by
        rw [h, List.getElem?_append_right (Nat.le_refl _), Nat.sub_self]
        rfl
      have hhead := hone front.length c hc
      have hplace : p.below front.length c = ⟨p.source, c, front.reverse⟩ := by
        unfold below
        rw [h, List.take_left]
      have htail := ih (front ++ [c]) (by rw [h, List.append_assoc]; rfl)
      rw [List.reverse_append, List.length_append] at htail
      rw [side, List.flatMap_cons, Node.pathsAll, List.filterMap_append, List.filterMap_map, ← hplace,
        hhead]
      exact congrArg (_ ++ ·) htail
  have hchildren := hall [] p.node.children rfl
  rw [Node.paths_eq, List.filterMap_cons, hroot]
  exact hchildren

theorem node_of_at? {p q : Place} {path : List Nat} (h : p.at? path = some q) :
    p.node.at? path = some q.node := by
  induction path generalizing p with
  | nil =>
    cases h
    rfl
  | cons i path ih =>
    rw [at?, getElem?_children] at h
    obtain ⟨child, hchild, hpath⟩ := Option.bind_eq_some_iff.mp h
    obtain ⟨c, hc, rfl⟩ := Option.map_eq_some_iff.mp hchild
    rw [Node.at?, hc]
    exact ih hpath

end Place

namespace Query

def functionsOfItem (p : Place) : List Subject :=
  if !p.node.isNamed then []
  else if p.node.kind == "function_item" then [.placed .function p]
  else if p.node.kind == "mod_item" then functionsOfModule p.source p.node
  else if p.node.kind == "impl_item" then methodsOf p.source p.node
  else []

theorem functionsOfModule_eq (source : Source) (item : Node) : functionsOfModule source item =
    match item.child? "body" with
    | some body => functionsIn source body
    | none => [] := by
  have hbody (cs : List Node) : functionsOfBody source cs =
      match cs.find? (·.label.field == some "body") with
      | some body => functionsIn source body
      | none => [] := by
    induction cs with
    | nil => rw [functionsOfBody]; rfl
    | cons c cs ih =>
      rw [functionsOfBody, List.find?_cons]
      cases hc : c.label.field == some "body" with
      | true => rfl
      | false => exact ih
  cases item with
  | mk l cs =>
    rw [functionsOfModule, hbody]
    rfl

theorem functionsAmong_eq (source : Source) (before cs : List Node) :
    functionsAmong source before cs = (Place.side source before cs).flatMap functionsOfItem := by
  induction cs generalizing before with
  | nil => rw [functionsAmong]; rfl
  | cons c cs ih =>
    rw [functionsAmong, ih, Place.side, List.flatMap_cons]
    rfl

theorem functionsIn_eq_flatMap (p : Place) :
    functionsIn p.source p.node = p.children.flatMap functionsOfItem := by
  unfold Place.children
  rw [← functionsAmong_eq]
  cases p.node with
  | mk l cs => rw [functionsIn]; rfl

theorem methodsAmong_eq (places : List Place) :
    methodsAmong places = places.flatMap fun p =>
      if p.node.isNamed && p.node.kind == "function_item" then [.placed .associatedFunction p]
      else [] := by
  unfold methodsAmong
  induction places with
  | nil => rfl
  | cons p places ih =>
    rw [List.flatMap_cons, ← ih, List.filter_cons]
    split <;> rfl

theorem methodsAmong_children (p : Place) :
    methodsAmong p.children =
      p.node.paths.filterMap fun path => p.subject? path (p.node.methodRole? path) := by
  rw [methodsAmong_eq]
  refine Place.flatMap_children rfl fun i c hc => ?_
  have hbelow (j : Nat) (path : List Nat) :
      p.subject? (i :: j :: path) (p.node.methodRole? (i :: j :: path)) = none := rfl
  rw [Node.filterMap_paths_root hbelow, Place.subject?_cons hc, Node.methodRole?, hc, Option.filter_some]
  change (if c.isNamed && c.kind == "function_item" then _ else _) = _
  split <;> rfl

/-- An item with a body adds what is found below its body. -/
theorem match_body_eq {p : Place} {collect : Node → List Subject}
    (role : Node → List Nat → Option Role) (hroot : p.node.itemRole? [] = none)
    (hrole : ∀ j path, p.node.itemRole? (j :: path) =
      if p.node.partIndex? "body" = some j then p.node.children[j]?.bind (role · path) else none)
    (hcollect : ∀ j body, p.node.BodyAt j body → collect body =
      body.paths.filterMap fun path => (p.below j body).subject? path (role body path)) :
    (match p.node.child? "body" with
      | some body => collect body
      | none => []) =
      p.node.paths.filterMap fun path => p.subject? path (p.node.itemRole? path) := by
  rw [Node.child?_eq]
  cases hindex : p.node.partIndex? "body" with
  | none =>
    have hnone (j : Nat) (path : List Nat) :
        p.subject? (j :: path) (p.node.itemRole? (j :: path)) = none := by
      rw [hrole, hindex, if_neg (by simp)]
      rfl
    rw [Node.filterMap_paths_root hnone, hroot]
    rfl
  | some j =>
    obtain ⟨hj, -⟩ := List.findIdx?_eq_some_iff_getElem.mp hindex
    have hbody : p.node.children[j]? = some p.node.children[j] := List.getElem?_eq_getElem hj
    generalize p.node.children[j] = body at hbody
    have hothers (i : Nat) (path : List Nat) (hi : i ≠ j) :
        p.subject? (i :: path) (p.node.itemRole? (i :: path)) = none := by
      rw [hrole, hindex, if_neg (by simpa using hi.symm)]
      rfl
    have hinner (path : List Nat) : p.subject? (j :: path) (p.node.itemRole? (j :: path)) =
        (p.below j body).subject? path (role body path) := by
      rw [hrole, hindex, if_pos rfl, hbody, Place.subject?_cons hbody]
      rfl
    have hroot' : p.subject? [] (p.node.itemRole? []) = none := by
      rw [hroot]
      rfl
    rw [Node.filterMap_paths_child hbody hroot' hothers]
    simp only [hinner, Option.bind_some, hbody]
    exact hcollect j body ⟨hindex, hbody⟩

/-- The functions of an item, if those of the containers in it are known. -/
theorem functionsOfItem_eq (p : Place)
    (ih : ∀ q : Place, q.node ∈ p.node.children → functionsIn q.source q.node =
      q.node.paths.filterMap fun path => q.subject? path (q.node.roleAt? path)) :
    functionsOfItem p =
      p.node.paths.filterMap fun path => p.subject? path (p.node.itemRole? path) := by
  unfold functionsOfItem
  by_cases hnamed : p.node.isNamed = true
  · rw [if_neg (by simp [hnamed])]
    split_ifs with hfunction hmodule himpl
    · have hkind := beq_iff_eq.mp hfunction
      have hroot : p.node.itemRole? [] = some .function := by simp [Node.itemRole?, hnamed, hkind]
      have hbelow (j : Nat) (path : List Nat) :
          p.subject? (j :: path) (p.node.itemRole? (j :: path)) = none := by
        simp [Node.itemRole?, hkind, Place.subject?]
      rw [Node.filterMap_paths_root hbelow, hroot]
      rfl
    · have hkind := beq_iff_eq.mp hmodule
      rw [functionsOfModule_eq]
      refine match_body_eq Node.roleAt? ?_ ?_ ?_
      · simp [Node.itemRole?, hkind]
      · intro j path
        simp [Node.itemRole?, hnamed, hkind]
      · intro j body hbody
        exact ih (p.below j body) (List.mem_of_getElem? hbody.2)
    · have hkind := beq_iff_eq.mp himpl
      refine match_body_eq Node.methodRole? ?_ ?_ ?_
      · simp [Node.itemRole?, hkind]
      · intro j path
        simp [Node.itemRole?, hnamed, hkind]
      · intro j body hbody
        exact methodsAmong_children (p.below j body)
    · have hnone (path : List Nat) : p.node.itemRole? path = none := by
        cases path <;> simp_all [Node.itemRole?]
      simp [hnone, Place.subject?]
  · have hnone (path : List Nat) : p.node.itemRole? path = none := by
      cases path <;> simp [Node.itemRole?, hnamed]
    simp [hnamed, hnone, Place.subject?]

theorem functionsIn_eq (p : Place) : functionsIn p.source p.node =
    p.node.paths.filterMap fun path => p.subject? path (p.node.roleAt? path) := by
  obtain ⟨source, n, before⟩ := p
  induction n using Node.grandchildInduction generalizing source before with
  | mk n ih =>
    rw [functionsIn_eq_flatMap]
    refine Place.flatMap_children rfl fun i c hc => ?_
    have hitem := functionsOfItem_eq (Place.below ⟨source, n, before⟩ i c) fun q hq =>
      ih c (List.mem_of_getElem? hc) q.node hq q.source q.before
    rw [hitem]
    apply List.filterMap_congr
    intro path _
    rw [Place.subject?_cons hc, Node.roleAt?, hc]
    rfl

def files (q : Query) : List Place :=
  q.subjects.filterMap fun s => match s with
    | .placed .file p => some p
    | _ => none

structure Census (file : Place) (found : List (List Nat × Subject)) : Prop where
  exact : ∀ path s, (path, s) ∈ found ↔ ∃ role place, s = .placed role place ∧
    file.node.FunctionAt path role ∧ file.at? path = some place
  ordered : (found.map Prod.fst).Sublist file.node.paths
  once : (found.map Prod.fst).Nodup

def census (file : Place) : List (List Nat × Subject) :=
  file.node.paths.filterMap fun path =>
    (file.subject? path (file.node.roleAt? path)).map (path, ·)

theorem map_snd_census (file : Place) :
    (census file).map Prod.snd = functionsIn file.source file.node := by
  rw [functionsIn_eq, census, List.map_filterMap]
  apply List.filterMap_congr
  intro path _
  rw [Option.map_map]
  exact Option.map_id_apply

theorem census_isCensus (file : Place) : Census file (census file) := by
  have hordered : ((census file).map Prod.fst).Sublist file.node.paths := by
    unfold census
    induction file.node.paths with
    | nil => exact List.Sublist.refl []
    | cons path paths ih =>
      rw [List.filterMap_cons]
      cases file.subject? path (file.node.roleAt? path) with
      | none => exact ih.cons path
      | some s => exact ih.cons_cons path
  refine ⟨?_, hordered, (Node.nodup_paths file.node).sublist hordered⟩
  intro path s
  have hlisted : (path, s) ∈ census file ↔
      path ∈ file.node.paths ∧ file.subject? path (file.node.roleAt? path) = some s := by
    simp [census, List.mem_filterMap]
  rw [hlisted, Place.subject?_eq_some_iff]
  simp only [Node.roleAt?_eq_some_iff]
  constructor
  · rintro ⟨-, h⟩
    exact h
  · rintro ⟨role, place, hs, hfunction, hplace⟩
    have hmem := Node.mem_paths_of_at? (Place.node_of_at? hplace)
    exact ⟨hmem, role, place, hs, hfunction, hplace⟩

theorem functions_eq (q : Query) :
    q.functions.subjects = q.files.flatMap fun p => functionsIn p.source p.node := by
  unfold functions fromFiles files
  dsimp only
  induction q.subjects with
  | nil => rfl
  | cons s subjects ih =>
    rw [List.flatMap_cons, List.filterMap_cons, ih]
    cases s with
    | placed role p => cases role <;> rfl
    | other name => rfl

/-- The functions of a query are those of its files, one file after the other. In each file they are the
functions that stand in a container of the file or in an implementation block there, each of them once,
in the order in which the nodes of the file are visited. -/
theorem functions_census (q : Query) :
    (∃ found : List (List (List Nat × Subject)),
      q.functions.subjects = found.flatten.map Prod.snd ∧ List.Forall₂ Census q.files found) ∧
    (∀ dialect file, (ofFile dialect file).files = [⟨file.source, file.root, []⟩]) ∧
    ∀ n : Node, n.paths.map n.at? = n.subtree.map some ∧ n.paths.Nodup := by
  refine ⟨⟨q.files.map census, ?_, ?_⟩, fun _ _ => rfl, ?_⟩
  · rw [functions_eq, List.map_flatten, List.map_map, ← List.flatMap_def]
    apply List.flatMap_congr
    intro p _
    exact (map_snd_census p).symm
  · rw [List.forall₂_map_right_iff, List.forall₂_same]
    intro p _
    exact census_isCensus p
  · intro n
    rw [Node.subtree_eq]
    exact ⟨Node.map_at?_paths n, Node.nodup_paths n⟩

end Query

end AnchorAudit
