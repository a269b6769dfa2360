import AnchorAudit.Proofs.Batch
import AnchorAudit.Report
import Mathlib.Algebra.Ring.Nat

/-! The sections of a report hold the findings of an analysis in a stable order by severity, under
numbers that run through all of them. -/
namespace AnchorAudit.Report

def graverFirst (f g : Finding) : Bool := f.severity.rank ≤ g.severity.rank

/-- The gravest findings first. Findings of one severity keep their order. -/
def byRank (findings : List Finding) : List Finding := findings.mergeSort graverFirst

theorem graverFirst_iff {f g : Finding} :
    graverFirst f g = true ↔ f.severity.rank ≤ g.severity.rank := decide_eq_true_iff

theorem graverFirst_trans (f g h : Finding) (hfg : graverFirst f g = true)
    (hgh : graverFirst g h = true) : graverFirst f h = true := by
  rw [graverFirst_iff] at hfg hgh ⊢
  omega

theorem graverFirst_total (f g : Finding) : (graverFirst f g || graverFirst g f) = true := by
  rw [Bool.or_eq_true, graverFirst_iff, graverFirst_iff]
  omega

section Order
variable (findings : List Finding)

theorem byRank_perm : (byRank findings).Perm findings := List.mergeSort_perm findings graverFirst

theorem pairwise_byRank :
    (byRank findings).Pairwise fun f g => f.severity.rank ≤ g.severity.rank := by
  have hsorted := List.pairwise_mergeSort graverFirst_trans graverFirst_total findings
  exact hsorted.imp graverFirst_iff.mp

theorem filter_byRank (severity : Severity) :
    (byRank findings).filter (·.severity == severity) =
      findings.filter (·.severity == severity) := by
  have hequal : (findings.filter (·.severity == severity)).Pairwise
      fun f g => graverFirst f g = true := by
    apply List.pairwise_iff_forall_sublist.mpr
    intro f g hpair
    have hf := (List.mem_filter.mp (hpair.subset List.mem_cons_self)).2
    have hg := (List.mem_filter.mp (hpair.subset (List.mem_cons_of_mem f List.mem_cons_self))).2
    rw [beq_iff_eq] at hf hg
    rw [graverFirst_iff, hf, hg]
  have hsublist := List.sublist_mergeSort graverFirst_trans graverFirst_total hequal
    List.filter_sublist
  have hkept := hsublist.filter (·.severity == severity)
  rw [List.filter_filter] at hkept
  simp only [Bool.and_self] at hkept
  have hlength := ((byRank_perm findings).filter (·.severity == severity)).length_eq
  exact (hkept.eq_of_length hlength.symm).symm

end Order

/-- Findings rearranged by severity, the gravest first. Those of one severity keep their order. -/
structure StableOrder (order findings : List Finding) : Prop where
  perm : order.Perm findings
  ranked : order.Pairwise fun f g => f.severity.rank ≤ g.severity.rank
  stable : ∀ severity, order.filter (·.severity == severity) = findings.filter (·.severity == severity)

theorem stableOrder_byRank (findings : List Finding) : StableOrder (byRank findings) findings :=
  ⟨byRank_perm findings, pairwise_byRank findings, filter_byRank findings⟩

theorem pairwise_ordered : Severity.ordered.Pairwise fun s t => s.rank < t.rank := by decide

theorem mem_ordered (severity : Severity) : severity ∈ Severity.ordered := by
  cases severity <;> decide

/-- Findings in order are the findings of each severity in turn. -/
theorem flatMap_filter_of_pairwise {fs : List Finding}
    (h : fs.Pairwise fun f g => f.severity.rank ≤ g.severity.rank) :
    (Severity.ordered.flatMap fun s => fs.filter (·.severity == s)) = fs := by
  induction fs with
  | nil => rfl
  | cons f fs ih =>
    obtain ⟨hfirst, hrest⟩ := List.pairwise_cons.mp h
    have hfs := ih hrest
    obtain ⟨graver, lighter, hsplit⟩ := List.append_of_mem (mem_ordered f.severity)
    have hranks := pairwise_ordered
    rw [hsplit] at hranks hfs ⊢
    obtain ⟨-, hlighter, hgraver⟩ := List.pairwise_append.mp hranks
    have hnone : ∀ s ∈ graver, ∀ g ∈ f :: fs, ¬(g.severity == s) = true := by
      intro s hs g hg heq
      have hbelow := hgraver s hs f.severity List.mem_cons_self
      rw [beq_iff_eq] at heq
      rcases List.mem_cons.mp hg with rfl | hg
      · rw [heq] at hbelow
        omega
      · have hle := hfirst g hg
        rw [heq] at hle
        omega
    have hempty (gs : List Finding) (hgs : ∀ g ∈ gs, g ∈ f :: fs) :
        (graver.flatMap fun s => gs.filter (·.severity == s)) = [] := by
      apply List.flatMap_eq_nil_iff.mpr
      intro s hs
      exact List.filter_eq_nil_iff.mpr fun g hg => hnone s hs g (hgs g hg)
    have hothers : (lighter.flatMap fun s => (f :: fs).filter (·.severity == s)) =
        lighter.flatMap fun s => fs.filter (·.severity == s) := by
      apply List.flatMap_congr
      intro s hs
      have hbelow := (List.pairwise_cons.mp hlighter).1 s hs
      apply List.filter_cons_of_neg
      intro heq
      rw [beq_iff_eq] at heq
      rw [heq] at hbelow
      omega
    rw [List.flatMap_append, List.flatMap_cons, hempty fs fun g hg => List.mem_cons_of_mem f hg] at hfs
    have hfound : (f :: fs).filter (·.severity == f.severity) =
        f :: fs.filter (·.severity == f.severity) := by
      apply List.filter_cons_of_pos
      exact beq_self_eq_true f.severity
    rw [List.flatMap_append, List.flatMap_cons, hempty (f :: fs) fun g hg => hg, hothers, hfound]
    exact congrArg (f :: ·) hfs

section Sections
variable (findings : List Finding)

theorem mem_groups {severity : Severity} {fs : List Finding} :
    (severity, fs) ∈ groups findings ↔ fs = findings.filter (·.severity == severity) ∧ fs ≠ [] := by
  unfold groups
  rw [List.mem_filterMap]
  constructor
  · rintro ⟨s, -, hs⟩
    cases hfs : findings.filter (·.severity == s) with
    | nil => simp [hfs] at hs
    | cons f rest =>
      rw [hfs] at hs
      cases hs
      exact ⟨hfs.symm, List.cons_ne_nil f rest⟩
  · rintro ⟨rfl, hne⟩
    refine ⟨severity, mem_ordered severity, ?_⟩
    cases hfs : findings.filter (·.severity == severity) with
    | nil => exact absurd hfs hne
    | cons f rest => rfl

theorem flatMap_groups : (groups findings).flatMap Prod.snd = byRank findings := by
  have hparts : (groups findings).flatMap Prod.snd =
      Severity.ordered.flatMap fun s => findings.filter (·.severity == s) := by
    unfold groups
    generalize Severity.ordered = severities
    induction severities with
    | nil => rfl
    | cons s severities ih =>
      rw [List.filterMap_cons, List.flatMap_cons]
      cases findings.filter (·.severity == s) with
      | nil => exact ih
      | cons f rest => exact congrArg (f :: rest ++ ·) ih
  have hsorted := flatMap_filter_of_pairwise (pairwise_byRank findings)
  simp only [filter_byRank] at hsorted
  rw [hparts, hsorted]

theorem severities_groups : ((groups findings).map Prod.fst).Sublist Severity.ordered := by
  unfold groups
  generalize Severity.ordered = severities
  induction severities with
  | nil => exact List.Sublist.refl []
  | cons s severities ih =>
    rw [List.filterMap_cons]
    cases findings.filter (·.severity == s) with
    | nil => exact ih.cons s
    | cons f rest => exact ih.cons_cons s

theorem map_mapIdx {α β γ : Type} (g : β → γ) (f : Nat → α → β) (l : List α) :
    (l.mapIdx f).map g = l.mapIdx fun i a => g (f i a) := by
  apply List.ext_getElem?
  intro i
  rw [List.getElem?_map, List.getElem?_mapIdx, List.getElem?_mapIdx, Option.map_map]
  rfl

theorem map_snd_mapIdx (next : Nat) (fs : List Finding) :
    (fs.mapIdx fun i f => (next + i, f)).map Prod.snd = fs := by
  rw [map_mapIdx]
  apply List.ext_getElem?
  intro i
  rw [List.getElem?_mapIdx]
  exact Option.map_id'

theorem entries_number (next : Nat) (gs : List (Severity × List Finding)) :
    (number next gs).flatMap (·.entries) =
      (gs.flatMap Prod.snd).mapIdx fun i f => (next + i, f) := by
  induction gs generalizing next with
  | nil => rfl
  | cons g gs ih =>
    obtain ⟨s, fs⟩ := g
    have hshift (i : Nat) : next + fs.length + i = next + (i + fs.length) := by omega
    rw [number, List.flatMap_cons, List.flatMap_cons, List.mapIdx_append, ih]
    simp only [hshift]

theorem groups_number (next : Nat) (gs : List (Severity × List Finding)) :
    (number next gs).map (fun s => (s.severity, s.entries.map Prod.snd)) = gs := by
  induction gs generalizing next with
  | nil => rfl
  | cons g gs ih =>
    obtain ⟨s, fs⟩ := g
    rw [number, List.map_cons, ih, map_snd_mapIdx]

theorem mem_groups_of_mem_sections {s : Section} (h : s ∈ sections findings) :
    (s.severity, s.entries.map Prod.snd) ∈ groups findings := by
  rw [← groups_number 1 (groups findings)]
  exact List.mem_map_of_mem h

theorem entries_sections :
    (sections findings).flatMap (·.entries) = (byRank findings).mapIdx fun i f => (i + 1, f) := by
  have hnumbers := entries_number 1 (groups findings)
  rw [flatMap_groups] at hnumbers
  simp only [Nat.add_comm 1] at hnumbers
  exact hnumbers

theorem mem_of_mem_sections {s : Section} (hs : s ∈ sections findings) {e : Nat × Finding}
    (he : e ∈ s.entries) : e.2 ∈ findings ∧ e.2.severity = s.severity := by
  obtain ⟨hentries, -⟩ := (mem_groups findings).mp (mem_groups_of_mem_sections findings hs)
  have hmem : e.2 ∈ s.entries.map Prod.snd := List.mem_map_of_mem he
  rw [hentries, List.mem_filter, beq_iff_eq] at hmem
  exact hmem

theorem entriesOf_sections (severity : Severity) :
    (((sections findings).filter (·.severity == severity)).flatMap (·.entries)).map Prod.snd =
      findings.filter (·.severity == severity) := by
  have huniform : ∀ s ∈ sections findings, ∀ e ∈ s.entries,
      (e.2.severity == severity) = (s.severity == severity) := by
    intro s hs e he
    rw [(mem_of_mem_sections findings hs he).2]
  have hall : ((sections findings).flatMap (·.entries)).map Prod.snd = byRank findings := by
    rw [sections, entries_number, flatMap_groups, map_snd_mapIdx]
  rw [flatMap_filter_eq huniform, ← filter_byRank, ← hall, List.filter_map]
  rfl

theorem exists_section_iff (severity : Severity) :
    (∃ s ∈ sections findings, s.severity = severity) ↔ ∃ f ∈ findings, f.severity = severity := by
  constructor
  · rintro ⟨s, hs, rfl⟩
    obtain ⟨hentries, hne⟩ := (mem_groups findings).mp (mem_groups_of_mem_sections findings hs)
    rw [hentries] at hne
    obtain ⟨f, hf⟩ := List.exists_mem_of_ne_nil _ hne
    obtain ⟨hmem, heq⟩ := List.mem_filter.mp hf
    exact ⟨f, hmem, beq_iff_eq.mp heq⟩
  · rintro ⟨f, hf, rfl⟩
    have hmem : f ∈ findings.filter (·.severity == f.severity) :=
      List.mem_filter.mpr ⟨hf, beq_self_eq_true f.severity⟩
    have hgroup := (mem_groups findings).mpr ⟨rfl, List.ne_nil_of_mem hmem⟩
    rw [← groups_number 1 (groups findings)] at hgroup
    obtain ⟨s, hs, heq⟩ := List.mem_map.mp hgroup
    exact ⟨s, hs, congrArg Prod.fst heq⟩

theorem pairwise_sections :
    (sections findings).Pairwise fun s t => s.severity.rank < t.severity.rank := by
  have hranks := pairwise_ordered.sublist (severities_groups findings)
  rw [← groups_number 1 (groups findings), List.map_map, List.pairwise_map] at hranks
  exact hranks

end Sections

/-- What a report says: the number of findings of each severity as far as it is given, the number of
all findings, and the numbered entries under each severity. -/
structure Sheet (α : Type) where
  counts : List (Severity × Nat)
  total : Nat
  sections : List (Severity × List (Nat × α))

namespace Sheet
variable {α : Type}

def count (sheet : Sheet α) (severity : Severity) : Nat := (sheet.counts.lookup severity).getD 0

def entries (sheet : Sheet α) : List (Nat × α) := sheet.sections.flatMap Prod.snd

def entriesOf (sheet : Sheet α) (severity : Severity) : List (Nat × α) :=
  (sheet.sections.filter (·.1 == severity)).flatMap Prod.snd

/-- A sheet agrees with findings, each of which it shows in some way, and with itself. -/
structure Agrees (sheet : Sheet α) (shown : Finding → α) (findings : List Finding) : Prop where
  listed : ∃ order, StableOrder order findings ∧
    sheet.entries = order.mapIdx fun i f => (i + 1, shown f)
  grouped : ∀ severity, (sheet.entriesOf severity).map Prod.snd =
    (findings.filter (·.severity == severity)).map shown
  ranked : sheet.sections.Pairwise fun s t => s.1.rank < t.1.rank
  present : ∀ severity, (∃ s ∈ sheet.sections, s.1 = severity) ↔
    ∃ f ∈ findings, f.severity = severity
  counted : ∀ severity, sheet.count severity = (sheet.entriesOf severity).length
  total : sheet.total = findings.length
  sum : (Severity.ordered.map sheet.count).sum = sheet.total

end Sheet

section Sheet
variable {α : Type} (shown : Finding → α)

def Section.display (s : Section) : Severity × List (Nat × α) :=
  (s.severity, s.entries.map fun e => (e.1, shown e.2))

def sheetOf (counts : List (Severity × Nat)) (findings : List Finding) : Sheet α :=
  ⟨counts, findings.length, (sections findings).map (Section.display shown)⟩

variable (counts : List (Severity × Nat)) (findings : List Finding)

theorem entries_sheetOf :
    (sheetOf shown counts findings).entries = (byRank findings).mapIdx fun i f => (i + 1, shown f) := by
  have hentries := congrArg (List.map fun e => (e.1, shown e.2)) (entries_sections findings)
  rw [List.map_flatMap, map_mapIdx] at hentries
  unfold sheetOf Sheet.entries
  rw [List.flatMap_map]
  exact hentries

theorem entriesOf_sheetOf (severity : Severity) :
    ((sheetOf shown counts findings).entriesOf severity).map Prod.snd =
      (findings.filter (·.severity == severity)).map shown := by
  rw [← entriesOf_sections, List.map_map]
  unfold sheetOf Sheet.entriesOf
  rw [List.filter_map, List.flatMap_map, List.map_flatMap, List.map_flatMap]
  simp only [Section.display, List.map_map]
  rfl

theorem sum_count_sheetOf
    (hcounts : ∀ severity, (counts.lookup severity).getD 0 = occurrences findings severity) :
    (Severity.ordered.map (sheetOf shown counts findings).count).sum = findings.length := by
  have hcount : (sheetOf shown counts findings).count = occurrences findings := funext hcounts
  have hsum := sum_occurrences findings
  rw [hcount]
  simp only [Severity.ordered, List.map_cons, List.map_nil, List.sum_cons, List.sum_nil] at hsum ⊢
  omega

theorem sheetOf_agrees
    (hcounts : ∀ severity, (counts.lookup severity).getD 0 = occurrences findings severity) :
    (sheetOf shown counts findings).Agrees shown findings where
  listed := ⟨byRank findings, stableOrder_byRank findings, entries_sheetOf shown counts findings⟩
  grouped := entriesOf_sheetOf shown counts findings
  ranked := List.pairwise_map.mpr (pairwise_sections findings)
  present severity := by
    rw [← exists_section_iff]
    simp only [sheetOf, List.mem_map, Section.display, exists_exists_and_eq_and]
  counted severity := by
    have hlength := congrArg List.length (entriesOf_sheetOf shown counts findings severity)
    rw [List.length_map, List.length_map, ← List.countP_eq_length_filter] at hlength
    rw [hlength]
    exact hcounts severity
  total := rfl
  sum := sum_count_sheetOf shown counts findings hcounts

end Sheet

end AnchorAudit.Report
