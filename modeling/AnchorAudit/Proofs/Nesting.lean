import AnchorAudit.Proofs.Catalogue
import AnchorAudit.Proofs.Node
import AnchorAudit.Proofs.Query
import AnchorAudit.Proofs.Utf8
import Mathlib.Data.List.Infix
import Mathlib.Tactic.SplitIfs

/-! Trees whose nodes are nested like the stretches of text that they cover. The subjects that are
selected from such a tree do not overlap and come in source order. -/
namespace AnchorAudit

instance (cs : List Char) (offset : Nat) : Decidable (Utf8.IsBoundary cs offset) :=
  decidable_of_iff (∃ front ∈ cs.inits, (Utf8.encode front).length = offset) <| by
    unfold Utf8.IsBoundary
    simp only [List.mem_inits]

namespace Node

/-- The children of a node lie in it, one after the other. Functions and structs are not empty, and no
node begins or ends inside a character. -/
structure Nested (text : List Char) (n : Node) : Prop where
  apart : n.children.Pairwise fun a b => a.label.stop ≤ b.label.start
  inside : ∀ c ∈ n.children, n.label.start ≤ c.label.start ∧ c.label.stop ≤ n.label.stop
  nonempty : n.kind = "function_item" ∨ n.kind = "struct_item" → n.label.start < n.label.stop
  start : Utf8.IsBoundary text n.label.start
  stop : Utf8.IsBoundary text n.label.stop

instance (text : List Char) (n : Node) : Decidable (n.Nested text) :=
  decidable_of_iff (_ ∧ _ ∧ _ ∧ _ ∧ _)
    ⟨fun ⟨apart, inside, nonempty, start, stop⟩ => ⟨apart, inside, nonempty, start, stop⟩,
      fun h => ⟨h.apart, h.inside, h.nonempty, h.start, h.stop⟩⟩

def WellNested (text : List Char) (root : Node) : Prop := ∀ n ∈ root.preorder, n.Nested text

instance (text : List Char) (root : Node) : Decidable (root.WellNested text) :=
  inferInstanceAs (Decidable (∀ n ∈ _, _))

theorem WellNested.nested {text : List Char} {n : Node} (h : n.WellNested text) : n.Nested text := by
  cases n with
  | mk l cs =>
    apply h
    rw [preorder]
    exact List.mem_cons_self

theorem WellNested.child {text : List Char} {n c : Node} (h : n.WellNested text)
    (hc : c ∈ n.children) : c.WellNested text := by
  cases n with
  | mk l cs =>
    intro m hm
    apply h
    rw [preorder]
    exact List.mem_cons_of_mem _ (mem_preorderAll.mpr ⟨c, hc, hm⟩)

end Node

namespace Subject
variable (text : String) (lo hi : Nat)

/-- The subject covers a stretch of the text between two offsets. -/
def Fits : Subject → Prop
  | placed _ p => p.source = .ofText text ∧ p.node.Nested text.toList ∧ lo ≤ p.node.label.start ∧
      p.node.label.start < p.node.label.stop ∧ p.node.label.stop ≤ hi
  | other _ => False

def EndsBefore : Subject → Subject → Prop
  | placed _ p, placed _ q => p.node.label.stop ≤ q.node.label.start
  | _, _ => False

/-- Subjects between two offsets, one after the other. -/
structure Arranged (subjects : List Subject) : Prop where
  fits : ∀ s ∈ subjects, s.Fits text lo hi
  ordered : subjects.Pairwise EndsBefore

variable {text lo hi}

theorem Fits.mono {lo' hi' : Nat} (hlo : lo' ≤ lo) (hhi : hi ≤ hi') {s : Subject}
    (h : s.Fits text lo hi) : s.Fits text lo' hi' := by
  cases s with
  | placed role p =>
    obtain ⟨hsource, hnested, hstart, hlt, hstop⟩ := h
    exact ⟨hsource, hnested, hlo.trans hstart, hlt, hstop.trans hhi⟩
  | other name => exact h.elim

namespace Arranged

theorem nil : Arranged text lo hi [] := ⟨List.forall_mem_nil _, List.Pairwise.nil⟩

theorem mono {lo' hi' : Nat} (hlo : lo' ≤ lo) (hhi : hi ≤ hi') {subjects : List Subject}
    (h : Arranged text lo hi subjects) : Arranged text lo' hi' subjects :=
  ⟨fun s hs => (h.fits s hs).mono hlo hhi, h.ordered⟩

theorem sublist {kept subjects : List Subject} (hkept : kept.Sublist subjects)
    (h : Arranged text lo hi subjects) : Arranged text lo hi kept :=
  ⟨fun s hs => h.fits s (hkept.subset hs), h.ordered.sublist hkept⟩

theorem append {mid : Nat} (hmid : mid ≤ hi) {xs ys : List Subject}
    (hxs : Arranged text lo mid xs) (hys : Arranged text (max lo mid) hi ys) :
    Arranged text lo hi (xs ++ ys) := by
  have hlo := Nat.le_max_left lo mid
  have hseam : ∀ x ∈ xs, ∀ y ∈ ys, EndsBefore x y := by
    intro x hx y hy
    have hxfits := hxs.fits x hx
    have hyfits := hys.fits y hy
    cases x with
    | placed role p =>
      cases y with
      | placed role' q =>
        obtain ⟨-, -, -, -, hstop⟩ := hxfits
        obtain ⟨-, -, hstart, -, -⟩ := hyfits
        exact (hstop.trans (Nat.le_max_right lo mid)).trans hstart
      | other name => exact hyfits.elim
    | other name => exact hxfits.elim
  constructor
  · rw [List.forall_mem_append]
    exact ⟨(hxs.mono le_rfl hmid).fits, (hys.mono hlo le_rfl).fits⟩
  · exact List.pairwise_append.mpr ⟨hxs.ordered, hys.ordered, hseam⟩

/-- A single function or struct. -/
theorem singleton (role : Role) (before : List Node) {n : Node} (hn : n.Nested text.toList)
    (hkind : n.kind = "function_item" ∨ n.kind = "struct_item") :
    Arranged text n.label.start n.label.stop [placed role ⟨.ofText text, n, before⟩] :=
  ⟨List.forall_mem_singleton.mpr ⟨rfl, hn, le_rfl, hn.nonempty hkind, le_rfl⟩,
    List.pairwise_singleton _ _⟩

end Arranged

end Subject

namespace Node

/-- Well nested trees between two offsets, one after the other. -/
structure SideBySide (text : List Char) (lo hi : Nat) (ns : List Node) : Prop where
  nested : ∀ n ∈ ns, n.WellNested text
  bounds : ∀ n ∈ ns, lo ≤ n.label.start ∧ n.label.stop ≤ hi
  apart : ns.Pairwise fun a b => a.label.stop ≤ b.label.start

theorem WellNested.children {text : List Char} {n : Node} (h : n.WellNested text) :
    SideBySide text n.label.start n.label.stop n.children :=
  ⟨fun _ hc => h.child hc, h.nested.inside, h.nested.apart⟩

theorem SideBySide.tail {text : List Char} {lo hi : Nat} {n : Node} {ns : List Node}
    (h : SideBySide text lo hi (n :: ns)) : SideBySide text (max lo n.label.stop) hi ns := by
  have hns : ∀ m ∈ ns, m ∈ n :: ns := fun m hm => List.mem_cons_of_mem n hm
  obtain ⟨hfirst, hrest⟩ := List.pairwise_cons.mp h.apart
  refine ⟨fun m hm => h.nested m (hns m hm), ?_, hrest⟩
  intro m hm
  obtain ⟨hlo, hhi⟩ := h.bounds m (hns m hm)
  exact ⟨max_le hlo (hfirst m hm), hhi⟩

end Node

namespace Query
open Subject (Arranged)

variable {text : String}

/-- What the first of some trees gives and what the others give make up a whole. -/
theorem arranged_cons {lo hi : Nat} {n : Node} {ns : List Node} {xs ys : List Subject}
    (h : Node.SideBySide text.toList lo hi (n :: ns))
    (hxs : Arranged text n.label.start n.label.stop xs)
    (hys : Arranged text (max lo n.label.stop) hi ys) : Arranged text lo hi (xs ++ ys) := by
  obtain ⟨hlo, hhi⟩ := h.bounds n List.mem_cons_self
  exact (hxs.mono hlo le_rfl).append hhi hys

theorem arranged_side (role : Role) {kind : String}
    (hkind : kind = "function_item" ∨ kind = "struct_item") {lo hi : Nat} {ns : List Node}
    (h : Node.SideBySide text.toList lo hi ns) (before : List Node) :
    Arranged text lo hi (((Place.side (.ofText text) before ns).filter fun p =>
      p.node.isNamed && p.node.kind == kind).map (.placed role)) := by
  induction ns generalizing lo before with
  | nil => exact Arranged.nil
  | cons n ns ih =>
    have hrest := ih h.tail (n :: before)
    rw [Place.side, List.filter_cons]
    split_ifs with hn
    · obtain ⟨-, hnkind⟩ := Bool.and_eq_true_iff.mp hn
      rw [← eq_of_beq hnkind] at hkind
      have hnested := (h.nested n List.mem_cons_self).nested
      exact arranged_cons h (.singleton role before hnested hkind) hrest
    · exact hrest.mono (Nat.le_max_left lo _) le_rfl

theorem arranged_structsIn {n : Node} (h : n.WellNested text.toList) :
    Arranged text n.label.start n.label.stop (structsIn (.ofText text) n) :=
  arranged_side .struct (.inr rfl) h.children []

theorem arranged_methodsOf {n : Node} (h : n.WellNested text.toList) :
    Arranged text n.label.start n.label.stop (methodsOf (.ofText text) n) := by
  unfold methodsOf
  cases hbody : n.child? "body" with
  | none => exact Arranged.nil
  | some body =>
    have hmem : body ∈ n.children := List.mem_of_find?_eq_some hbody
    obtain ⟨hstart, hstop⟩ := h.nested.inside body hmem
    have hmethods := arranged_side .associatedFunction (.inl rfl) (h.child hmem).children []
    exact hmethods.mono hstart hstop

mutual

theorem arranged_functionsIn : ∀ n : Node, n.WellNested text.toList →
    Arranged text n.label.start n.label.stop (functionsIn (.ofText text) n)
  | .mk l cs => by
    intro h
    rw [functionsIn]
    exact arranged_functionsAmong cs l.start l.stop [] h.children

theorem arranged_functionsAmong : ∀ (ns : List Node) (lo hi : Nat) (before : List Node),
    Node.SideBySide text.toList lo hi ns →
      Arranged text lo hi (functionsAmong (.ofText text) before ns)
  | [], _, _, _ => by
    intro _
    rw [functionsAmong]
    exact Arranged.nil
  | n :: ns, lo, hi, before => by
    intro h
    have hn := h.nested n List.mem_cons_self
    have hrest := arranged_functionsAmong ns (max lo n.label.stop) hi (n :: before) h.tail
    rw [functionsAmong]
    apply arranged_cons h ?_ hrest
    split_ifs with hnamed hfunction hmodule himpl
    · exact Arranged.nil
    · exact .singleton .function before hn.nested (.inl (eq_of_beq hfunction))
    · exact arranged_functionsOfModule n hn
    · exact arranged_methodsOf hn
    · exact Arranged.nil

theorem arranged_functionsOfModule : ∀ n : Node, n.WellNested text.toList →
    Arranged text n.label.start n.label.stop (functionsOfModule (.ofText text) n)
  | .mk l cs => by
    intro h
    rw [functionsOfModule]
    exact arranged_functionsOfBody cs l.start l.stop h.children

theorem arranged_functionsOfBody : ∀ (ns : List Node) (lo hi : Nat),
    Node.SideBySide text.toList lo hi ns →
      Arranged text lo hi (functionsOfBody (.ofText text) ns)
  | [], _, _ => by
    intro _
    rw [functionsOfBody]
    exact Arranged.nil
  | n :: ns, lo, hi => by
    intro h
    obtain ⟨hlo, hhi⟩ := h.bounds n List.mem_cons_self
    have hrest := arranged_functionsOfBody ns (max lo n.label.stop) hi h.tail
    rw [functionsOfBody]
    split_ifs with hbody
    · exact (arranged_functionsIn n (h.nested n List.mem_cons_self)).mono hlo hhi
    · exact hrest.mono (Nat.le_max_left lo _) le_rfl

end

theorem arranged_functions (dialect : Dialect) (path : String) {root : Node}
    (h : root.WellNested text.toList) :
    Arranged text root.label.start root.label.stop
      (ofFile dialect (.withTree path text root)).functions.subjects := by
  have hsubjects : (ofFile dialect (.withTree path text root)).functions.subjects =
      functionsIn (.ofText text) root := List.append_nil _
  rw [hsubjects]
  exact arranged_functionsIn root h

theorem arranged_structs (dialect : Dialect) (path : String) {root : Node}
    (h : root.WellNested text.toList) :
    Arranged text root.label.start root.label.stop
      (ofFile dialect (.withTree path text root)).structs.subjects := by
  have hsubjects : (ofFile dialect (.withTree path text root)).structs.subjects =
      structsIn (.ofText text) root := List.append_nil _
  rw [hsubjects]
  exact arranged_structsIn h

end Query

/-- The subjects that a rule of the catalogue selects in a well nested tree do not overlap and come in
source order. -/
theorem Catalogue.exists_select_arranged {r : Rule} (hr : r ∈ rules) :
    ∃ select, r.detector = detector select ∧ ∀ (path text : String) (root : Node) (q : Query),
      root.WellNested text.toList → select (.ofFile .solana (.withTree path text root)) = .ok q →
      Subject.Arranged text root.label.start root.label.stop q.subjects := by
  refine exists_select ?_ ?_ ?_ hr
  · intro path text root q h hq
    cases hq
    exact (Query.arranged_functions .solana path h).sublist List.filter_sublist
  · intro check path text root q h hq
    exact (Query.arranged_functions .solana path h).sublist (Query.sublist_of_having_eq_ok hq)
  · intro first second path text root q h hq
    obtain ⟨kept, hkept, hq⟩ := bind_eq_ok_iff.mp hq
    have hsublist :=
      (Query.sublist_of_having_eq_ok hq).trans (Query.sublist_of_having_eq_ok hkept)
    exact (Query.arranged_structs .solana path h).sublist hsublist

end AnchorAudit
