import AnchorAudit.Listing
import AnchorAudit.Proofs.Utf8
import Mathlib.Data.List.Nodup

/-! Walks through directory trees without links. A walk meets every file that it can get to once, in each
directory the files before the subdirectories, and in an order that is not that of the listings. -/
namespace AnchorAudit

def Path.descend (p : Path) (names : List String) : Path := ⟨p.root, p.names ++ names⟩

theorem Path.child_descend (p : Path) (name : String) (names : List String) :
    (p.child name).descend names = p.descend (name :: names) := by
  unfold child descend
  rw [List.append_assoc]
  rfl

namespace FileTree

/-- What stands in a directory at the end of some names, each but the last that of a subdirectory. -/
inductive EntryAt : Directory → List String → Entry → Prop
  | here {d : Directory} {name : String} {e : Entry} (h : (name, e) ∈ d) : EntryAt d [name] e
  | inside {d inner : Directory} {access : Access} {name : String} {names : List String} {e : Entry}
      (h : (name, .directory access inner) ∈ d) (rest : EntryAt inner names e) :
      EntryAt d (name :: names) e

/-- A directory tree without links. No directory in it has a name twice. -/
inductive Plain : Directory → Prop
  | mk {d : Directory} (nodup : (d.map Prod.fst).Nodup) (noLink : ∀ name target, (name, .link target) ∉ d)
      (inside : ∀ name access inner, (name, .directory access inner) ∈ d → Plain inner) : Plain d

theorem Plain.inside {d inner : Directory} (h : Plain d) {name : String} {access : Access}
    (hmem : (name, .directory access inner) ∈ d) : Plain inner := by
  obtain ⟨-, -, inside⟩ := h
  exact inside name access inner hmem

theorem Plain.entry_eq {d : Directory} (h : Plain d) {name : String} {e e' : Entry}
    (hmem : (name, e) ∈ d) (hmem' : (name, e') ∈ d) : e = e' := by
  obtain ⟨nodup, -, -⟩ := h
  exact (Prod.ext_iff.mp (List.inj_on_of_nodup_map nodup hmem hmem' rfl)).2

/-- The order of a walk: in each directory its files by their names, and then its subdirectories, with all
that is in them, by theirs. -/
inductive Precedes : List String → List String → Prop
  | files {a b : String} (h : a < b) : Precedes [a] [b]
  | fileFirst {a b : String} {others : List String} (h : others ≠ []) : Precedes [a] (b :: others)
  | directories {a b : String} {names others : List String} (h : a < b) (hnames : names ≠ [])
      (hothers : others ≠ []) : Precedes (a :: names) (b :: others)
  | inside {a : String} {names others : List String} (h : Precedes names others) :
      Precedes (a :: names) (a :: others)

theorem EntryAt.ne_nil {d : Directory} {names : List String} {e : Entry} (h : EntryAt d names e) :
    names ≠ [] := by
  cases h with
  | here h => exact List.cons_ne_nil _ _
  | inside h rest => exact List.cons_ne_nil _ _

namespace Precedes

theorem ne_nil {names others : List String} (h : Precedes names others) : others ≠ [] := by
  cases h <;> exact List.cons_ne_nil _ _

theorem asymm {names others : List String} (h : Precedes names others) : ¬Precedes others names := by
  induction h with
  | files hlt =>
    intro hback
    cases hback with
    | files hgt => exact String.lt_irrefl _ (String.lt_trans hlt hgt)
    | fileFirst hne => exact hne rfl
    | directories _ hne _ => exact hne rfl
    | inside _ => exact String.lt_irrefl _ hlt
  | fileFirst hne =>
    intro hback
    cases hback with
    | files _ => exact hne rfl
    | fileFirst hne' => exact hne' rfl
    | directories _ _ hne' => exact hne' rfl
    | inside hback => exact hback.ne_nil rfl
  | directories hlt hnames hothers =>
    intro hback
    cases hback with
    | files _ => exact hothers rfl
    | fileFirst _ => exact hothers rfl
    | directories hgt _ _ => exact String.lt_irrefl _ (String.lt_trans hlt hgt)
    | inside _ => exact String.lt_irrefl _ hlt
  | inside h ih =>
    intro hback
    cases hback with
    | files hlt => exact String.lt_irrefl _ hlt
    | fileFirst _ => exact h.ne_nil rfl
    | directories hlt _ _ => exact String.lt_irrefl _ hlt
    | inside hback => exact ih hback

theorem append_left (base : List String) {names others : List String} (h : Precedes names others) :
    Precedes (base ++ names) (base ++ others) := by
  induction base with
  | nil => exact h
  | cons name base ih => exact .inside ih

end Precedes

theorem nodup_of_precedes {α : Type} {names : α → List String} {l : List α}
    (h : l.Pairwise fun a b => Precedes (names a) (names b)) : l.Nodup := by
  apply h.imp
  intro a b hab heq
  rw [heq] at hab
  exact hab.asymm hab

def InOrder (candidates : List Candidate) : Prop :=
  candidates.Pairwise fun a b => Precedes a.1.names b.1.names

/-- The order and the members of a list of candidates determine it. -/
theorem InOrder.eq {candidates others : List Candidate} (h : InOrder candidates) (h' : InOrder others)
    (hmem : ∀ c, c ∈ candidates ↔ c ∈ others) : candidates = others := by
  have hnodup := nodup_of_precedes h
  have hperm := (List.perm_ext_iff_of_nodup hnodup (nodup_of_precedes h')).mpr hmem
  apply hperm.eq_of_pairwise _ h h'
  intro a b _ _ hab hba
  exact absurd hba hab.asymm

/-- What a walk meets under a name stands below it, in order. -/
def Visit.Ordered (base : List String) (name : String) : Visit → Prop
  | .file c => c.1.names = base ++ [name]
  | .directory candidates => InOrder candidates ∧
      ∀ c ∈ candidates, ∃ names, names ≠ [] ∧ c.1.names = base ++ name :: names
  | .nothing => True

namespace Visit.Ordered
variable {base : List String} {name : String} {v : Visit} (h : v.Ordered base name)
include h

theorem names_file? {c : Candidate} (hc : v.file? = some c) : c.1.names = base ++ [name] := by
  cases v with
  | file _ =>
    cases hc
    exact h
  | directory _ => cases hc
  | nothing => cases hc

theorem inOrder_below : InOrder v.below := by
  cases v with
  | file _ => exact .nil
  | directory _ => exact h.1
  | nothing => exact .nil

theorem names_below {c : Candidate} (hc : c ∈ v.below) :
    ∃ names, names ≠ [] ∧ c.1.names = base ++ name :: names := by
  cases v with
  | file _ => cases hc
  | directory _ => exact h.2 c hc
  | nothing => cases hc

end Visit.Ordered

section Gather
variable {visits : List (String × Visit)}

theorem mem_gather {c : Candidate} :
    c ∈ gather visits ↔ ∃ v ∈ visits, v.2.file? = some c ∨ c ∈ v.2.below := by
  unfold gather
  dsimp only
  rw [List.mem_append, List.mem_filterMap, List.mem_flatMap]
  simp only [List.mem_mergeSort]
  constructor
  · intro h
    rcases h with ⟨v, hv, hc⟩ | ⟨v, hv, hc⟩
    · exact ⟨v, hv, .inl hc⟩
    · exact ⟨v, hv, .inr hc⟩
  · intro ⟨v, hv, hc⟩
    rcases hc with hc | hc
    · exact .inl ⟨v, hv, hc⟩
    · exact .inr ⟨v, hv, hc⟩

theorem pairwise_sorted (hnodup : (visits.map Prod.fst).Nodup) :
    (visits.mergeSort fun a b => decide (a.1 ≤ b.1)).Pairwise fun a b => a.1 < b.1 := by
  have hle : (visits.mergeSort fun a b => decide (a.1 ≤ b.1)).Pairwise
      fun a b => decide (a.1 ≤ b.1) = true := by
    apply List.pairwise_mergeSort
    · intro a b c hab hbc
      exact decide_eq_true (String.le_trans (of_decide_eq_true hab) (of_decide_eq_true hbc))
    · intro a b
      simp only [Bool.or_eq_true, decide_eq_true_eq]
      exact String.le_total a.1 b.1
  have hne : (visits.mergeSort fun a b => decide (a.1 ≤ b.1)).Pairwise fun a b => a.1 ≠ b.1 := by
    have hperm := (List.mergeSort_perm visits fun a b => decide (a.1 ≤ b.1)).map Prod.fst
    exact List.pairwise_map.mp (hperm.nodup_iff.mpr hnodup)
  apply (hle.and hne).imp
  intro a b hab
  apply String.not_le.mp
  intro hba
  exact hab.2 (String.le_antisymm (of_decide_eq_true hab.1) hba)

/-- One directory: its files by their names, and its subdirectories as they are by theirs. -/
theorem inOrder_gather {base : List String} (hnodup : (visits.map Prod.fst).Nodup)
    (hvisits : ∀ v ∈ visits, v.2.Ordered base v.1) : InOrder (gather visits) := by
  have hsorted := pairwise_sorted hnodup
  have hordered : ∀ v ∈ visits.mergeSort fun a b => decide (a.1 ≤ b.1), v.2.Ordered base v.1 :=
    fun v hv => hvisits v (List.mem_mergeSort.mp hv)
  unfold gather
  dsimp only
  generalize (visits.mergeSort fun a b => decide (a.1 ≤ b.1)) = sorted at hsorted hordered
  apply List.pairwise_append.mpr
  refine ⟨?_, ?_, ?_⟩
  · apply List.pairwise_filterMap.mpr
    apply hsorted.imp_of_mem
    intro v w hv hw hlt c hc c' hc'
    rw [(hordered v hv).names_file? hc, (hordered w hw).names_file? hc']
    exact (Precedes.files hlt).append_left base
  · apply List.pairwise_flatMap.mpr
    refine ⟨fun v hv => (hordered v hv).inOrder_below, ?_⟩
    apply hsorted.imp_of_mem
    intro v w hv hw hlt c hc c' hc'
    obtain ⟨names, hnames, hpath⟩ := (hordered v hv).names_below hc
    obtain ⟨others, hothers, hpath'⟩ := (hordered w hw).names_below hc'
    rw [hpath, hpath']
    exact (Precedes.directories hlt hnames hothers).append_left base
  · intro c hc c' hc'
    obtain ⟨v, hv, hc⟩ := List.mem_filterMap.mp hc
    obtain ⟨w, hw, hc'⟩ := List.mem_flatMap.mp hc'
    obtain ⟨others, hothers, hpath'⟩ := (hordered w hw).names_below hc'
    rw [(hordered v hv).names_file? hc, hpath']
    exact (Precedes.fileFirst hothers).append_left base

end Gather

theorem visitAll_eq (follow : Follow) (budget : Nat) (stop : Stop) (d : Directory) :
    visitAll follow budget stop d = d.map fun x => (x.1, visit follow budget stop x.1 x.2) := by
  induction d with
  | nil => rw [visitAll]; rfl
  | cons x d ih =>
    obtain ⟨name, e⟩ := x
    rw [visitAll, ih]
    rfl

theorem octets_append (text more : String) : octets (text ++ more) = octets text + octets more := by
  unfold octets
  rw [String.toList_append, Utf8.encode_append, List.length_append]

/-- A walk that stands in a directory with some access meets a file at the end of some names, in a
directory with some access. -/
inductive Met : Access → Directory → List String → File → Access → Prop
  | here {a : Access} {d : Directory} {name : String} {f : File} (h : (name, .file f) ∈ d) :
      Met a d [name] f a
  | inside {a access b : Access} {d inner : Directory} {name : String} {names : List String} {f : File}
      (h : (name, .directory access inner) ∈ d) (hsearch : a.search = true) (hlist : access.list = true)
      (rest : Met access inner names f b) : Met a d (name :: names) f b

theorem Met.entryAt {a b : Access} {d : Directory} {names : List String} {f : File}
    (h : Met a d names f b) : EntryAt d names (.file f) := by
  induction h with
  | here h => exact .here h
  | inside h _ _ _ ih => exact .inside h ih

theorem Met.ne_nil {a b : Access} {d : Directory} {names : List String} {f : File}
    (h : Met a d names f b) : names ≠ [] := h.entryAt.ne_nil

/-- What a walk makes of a file below a stop, in a directory with some access. -/
def Stop.candidate (stop : Stop) (names : List String) (access : Access) (f : File) : Candidate :=
  (stop.path.descend names,
    if pathLimit ≤ octets (stop.path.descend names).render then .error .nameTooLong
    else if !access.search then .error .accessDenied
    else .ok f)

/-- The text of the directory that holds a file below a stop is not too long. -/
def Stop.Reaches (stop : Stop) (names : List String) : Prop :=
  names.dropLast ≠ [] → stop.lead + octets ("/".intercalate names.dropLast) < pathLimit

theorem Stop.reaches_singleton (stop : Stop) (name : String) : stop.Reaches [name] :=
  fun h => absurd rfl h

theorem Stop.candidate_enter (stop : Stop) (name : String) (site : Site) (names : List String)
    (access : Access) (f : File) :
    (stop.enter name site).candidate names access f = stop.candidate (name :: names) access f := by
  unfold candidate enter
  rw [Path.child_descend]

/-- A text that is not too long below a directory is not too long at it. -/
theorem Stop.reaches_cons (stop : Stop) (name : String) (site : Site) {names : List String}
    (hnames : names ≠ []) :
    stop.Reaches (name :: names) ↔ stop.isTooLong name = false ∧ (stop.enter name site).Reaches names := by
  have hlong : stop.isTooLong name = false ↔ stop.lead + octets name < pathLimit := by
    unfold isTooLong
    rw [decide_eq_false_iff_not, Nat.not_le]
  rw [hlong]
  unfold Reaches enter
  rw [List.dropLast_cons_of_ne_nil hnames]
  cases names.dropLast with
  | nil => simp
  | cons next dirs =>
    have htext : octets ("/".intercalate (name :: next :: dirs)) =
        octets name + 1 + octets ("/".intercalate (next :: dirs)) := by
      rw [String.intercalate_cons_cons, octets_append, octets_append]
      rfl
    simp only [ne_eq, reduceCtorEq, not_false_eq_true, forall_const]
    rw [htext]
    omega

section Visits
variable (follow : Follow) (budget : Nat) (stop : Stop) (name : String)

theorem visit_file (f : File) :
    visit follow budget stop name (.file f) = .file (stop.candidate [name] stop.site.access f) := by
  rw [visit]
  rfl

theorem visit_directory (access : Access) (inner : Directory) :
    visit follow budget stop name (.directory access inner) =
      if stop.isTooLong name || !stop.site.access.search || !access.list then .nothing
      else .directory (gather
        (visitAll follow budget (stop.enter name (⟨name, access, inner⟩ :: stop.site)) inner)) := by
  rw [visit]

end Visits

section Plain
variable {d : Directory} (hplain : Plain d) (follow : Follow) (budget : Nat)
include hplain

/-- A walk meets the files that it can get to, and nothing else. -/
theorem mem_gather_visitAll (stop : Stop) {c : Candidate} :
    c ∈ gather (visitAll follow budget stop d) ↔ ∃ names f access,
      Met stop.site.access d names f access ∧ stop.Reaches names ∧ c = stop.candidate names access f := by
  induction hplain generalizing stop c with
  | mk nodup noLink inside ih =>
    rw [mem_gather, visitAll_eq]
    constructor
    · intro ⟨v, hv, hc⟩
      obtain ⟨⟨name, e⟩, he, rfl⟩ := List.mem_map.mp hv
      dsimp only at hc
      cases e with
      | file f =>
        rw [visit_file] at hc
        rcases hc with hc | hc
        · cases hc
          exact ⟨[name], f, _, .here he, stop.reaches_singleton name, rfl⟩
        · cases hc
      | directory access inner =>
        rw [visit_directory] at hc
        split_ifs at hc with hclosed
        · rcases hc with hc | hc <;> cases hc
        · rcases hc with hc | hc
          · cases hc
          · obtain ⟨names, f, b, hmet, hreaches, rfl⟩ := (ih name access inner he _).mp hc
            simp only [Bool.or_eq_true, Bool.not_eq_true', not_or, Bool.not_eq_false,
              Bool.not_eq_true] at hclosed
            obtain ⟨⟨hlong, hsearch⟩, hlist⟩ := hclosed
            refine ⟨name :: names, f, b, .inside he hsearch hlist hmet, ?_, stop.candidate_enter ..⟩
            exact (stop.reaches_cons name _ hmet.ne_nil).mpr ⟨hlong, hreaches⟩
      | link target => exact absurd he (noLink name target)
    · intro ⟨names, f, b, hmet, hreaches, hc⟩
      cases hmet with
      | here he =>
        refine ⟨_, List.mem_map_of_mem he, .inl ?_⟩
        dsimp only
        rw [visit_file, hc]
        rfl
      | inside he hsearch hlist hmet =>
        rename_i access inner name names
        obtain ⟨hlong, hreaches⟩ :=
          (stop.reaches_cons name (⟨name, access, inner⟩ :: stop.site) hmet.ne_nil).mp hreaches
        refine ⟨_, List.mem_map_of_mem he, .inr ?_⟩
        dsimp only
        rw [visit_directory, if_neg (by simp [hlong, hsearch, hlist])]
        apply (ih name access inner he _).mpr
        exact ⟨names, f, b, hmet, hreaches, hc.trans (stop.candidate_enter ..).symm⟩

theorem inOrder_gather_visitAll (stop : Stop) :
    InOrder (gather (visitAll follow budget stop d)) := by
  induction hplain generalizing stop with
  | mk nodup noLink inside ih =>
    rw [visitAll_eq]
    apply @inOrder_gather _ stop.path.names
    · rw [List.map_map]
      exact nodup
    · intro v hv
      obtain ⟨⟨name, e⟩, he, rfl⟩ := List.mem_map.mp hv
      dsimp only
      cases e with
      | file f =>
        rw [visit_file]
        rfl
      | directory access inner =>
        rw [visit_directory]
        split_ifs
        · trivial
        · refine ⟨ih name access inner he _, ?_⟩
          intro c hc
          obtain ⟨names, f, b, hmet, -, rfl⟩ :=
            (mem_gather_visitAll (inside name access inner he) follow budget _).mp hc
          refine ⟨names, hmet.ne_nil, ?_⟩
          rw [stop.candidate_enter]
          rfl
      | link target => exact absurd he (noLink name target)

end Plain

/-- The same directory tree, with the entries of its directories listed in another order. -/
inductive Rearranged : Directory → Directory → Prop
  | nil : Rearranged [] []
  | cons (x : String × Entry) {d d' : Directory} (h : Rearranged d d') : Rearranged (x :: d) (x :: d')
  | inside (name : String) (access : Access) {inner inner' d d' : Directory}
      (hinner : Rearranged inner inner') (h : Rearranged d d') :
      Rearranged ((name, .directory access inner) :: d) ((name, .directory access inner') :: d')
  | swap (x y : String × Entry) (d : Directory) : Rearranged (y :: x :: d) (x :: y :: d)
  | trans {d d' d'' : Directory} (h : Rearranged d d') (h' : Rearranged d' d'') : Rearranged d d''

inductive Entry.Rearranged : Entry → Entry → Prop
  | same (e : Entry) : Entry.Rearranged e e
  | directory (access : Access) {d d' : Directory} (h : FileTree.Rearranged d d') :
      Entry.Rearranged (.directory access d) (.directory access d')

namespace Rearranged

theorem refl (d : Directory) : Rearranged d d := by
  induction d with
  | nil => exact .nil
  | cons x d ih => exact .cons x ih

theorem symm {d d' : Directory} (h : Rearranged d d') : Rearranged d' d := by
  induction h with
  | nil => exact .nil
  | cons x _ ih => exact .cons x ih
  | inside name access _ _ ihinner ih => exact .inside name access ihinner ih
  | swap x y d => exact .swap y x d
  | trans _ _ ih ih' => exact .trans ih' ih

theorem perm_names {d d' : Directory} (h : Rearranged d d') :
    (d.map Prod.fst).Perm (d'.map Prod.fst) := by
  induction h with
  | nil => exact .nil
  | cons x _ ih => exact .cons x.1 ih
  | inside name _ _ _ _ ih => exact .cons name ih
  | swap x y d => exact .swap x.1 y.1 _
  | trans _ _ ih ih' => exact .trans ih ih'

end Rearranged

theorem Entry.Rearranged.trans {e e' e'' : Entry} (h : Entry.Rearranged e e')
    (h' : Entry.Rearranged e' e'') : Entry.Rearranged e e'' := by
  cases h with
  | same => exact h'
  | directory access h =>
    cases h' with
    | same => exact .directory access h
    | directory _ h' => exact .directory access (h.trans h')

namespace Rearranged

/-- Each entry is listed again, as what it was. -/
theorem exists_mem {d d' : Directory} (h : Rearranged d d') {name : String} {e : Entry}
    (he : (name, e) ∈ d) : ∃ e', (name, e') ∈ d' ∧ Entry.Rearranged e e' := by
  induction h generalizing e with
  | nil => cases he
  | cons x _ ih =>
    rcases List.mem_cons.mp he with rfl | he
    · exact ⟨e, List.mem_cons_self, .same e⟩
    · obtain ⟨e', he', hsame⟩ := ih he
      exact ⟨e', List.mem_cons_of_mem _ he', hsame⟩
  | inside _ access hinner _ _ ih =>
    rcases List.mem_cons.mp he with heq | he
    · cases heq
      exact ⟨_, List.mem_cons_self, .directory access hinner⟩
    · obtain ⟨e', he', hsame⟩ := ih he
      exact ⟨e', List.mem_cons_of_mem _ he', hsame⟩
  | swap x y d => exact ⟨e, (List.Perm.swap x y d).mem_iff.mp he, .same e⟩
  | trans _ _ ih ih' =>
    obtain ⟨e', he', hsame⟩ := ih he
    obtain ⟨e'', he'', hsame'⟩ := ih' he'
    exact ⟨e'', he'', hsame.trans hsame'⟩

theorem plain {d d' : Directory} (h : Rearranged d d') (hplain : Plain d) : Plain d' := by
  induction hplain generalizing d' with
  | mk nodup noLink inside ih =>
    refine ⟨h.perm_names.nodup_iff.mp nodup, ?_, ?_⟩
    · intro name target he
      obtain ⟨e, he, hsame⟩ := h.symm.exists_mem he
      cases hsame
      exact noLink name target he
    · intro name access inner he
      obtain ⟨e, he, hsame⟩ := h.symm.exists_mem he
      cases hsame with
      | same => exact inside name access inner he
      | directory _ hinner => exact ih name access _ he hinner.symm

theorem met {a b : Access} {d d' : Directory} (h : Rearranged d d') {names : List String} {f : File}
    (hmet : Met a d names f b) : Met a d' names f b := by
  induction hmet generalizing d' with
  | here hmem =>
    obtain ⟨e', hmem', hsame⟩ := h.exists_mem hmem
    cases hsame
    exact .here hmem'
  | inside hmem hsearch hlist rest ih =>
    obtain ⟨e', hmem', hsame⟩ := h.exists_mem hmem
    cases hsame with
    | same => exact .inside hmem' hsearch hlist (ih (.refl _))
    | directory _ hinner => exact .inside hmem' hsearch hlist (ih hinner)

end Rearranged

end FileTree

end AnchorAudit
