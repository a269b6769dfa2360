import AnchorAudit.Proofs.Analyzer
import AnchorAudit.Proofs.Nesting
import AnchorAudit.Proofs.Position

/-! The findings in one file come in blocks, one for each rule, in the order of the catalogue. In a
well nested tree the findings of a block do not overlap and come in source order. -/
namespace AnchorAudit

theorem Rule.location_report_precedes (r : Rule) (path : String) (lines : SourceLines)
    {text : String} {lo hi : Nat} {s t : Subject} (hs : s.Fits text lo hi) (ht : t.Fits text lo hi)
    (hst : s.EndsBefore t) :
    (r.report path lines s).location.Precedes (r.report path lines t).location := by
  cases s with
  | placed role p =>
    cases t with
    | placed role' q =>
      obtain ⟨hp, hpnested, -, hplt, -⟩ := hs
      obtain ⟨hq, hqnested, -, -, -⟩ := ht
      change (lines.location (.ofNode p.source p.node)).Precedes
        (lines.location (.ofNode q.source q.node))
      rw [hp, hq]
      exact lines.location_precedes hplt hst hpnested.start hpnested.stop hqnested.start
    | other name => exact ht.elim
  | other name => exact hs.elim

theorem Rule.file_location_report (r : Rule) (path text : String) (s : Subject) :
    (r.report path (.ofText text path) s).location.file = path := by
  cases s with
  | placed role p =>
    change ((SourceLines.ofText text path).location (.ofNode p.source p.node)).file = path
    rw [SourceLines.location_ofNode]
    rfl
  | other name => rfl

namespace Catalogue
variable {r : Rule} (hr : r ∈ rules) {path text : String} {block : List Finding}
include hr

theorem exists_check_eq {file : SyntaxFile} (hok : ∀ fault, r.check file path text ≠ .error fault) :
    ∃ block, r.check file path text = .ok (some block) := by
  cases hcheck : r.check file path text with
  | error fault => exact absurd hcheck (hok fault)
  | ok found =>
    cases found with
    | none => exact absurd hcheck ((plain_of_mem hr).check_ne_none file path text)
    | some block => exact ⟨block, rfl⟩

theorem file_location_of_check {file : SyntaxFile}
    (hblock : r.check file path text = .ok (some block)) {f : Finding} (hf : f ∈ block) :
    f.location.file = path := by
  obtain ⟨result, hcheck⟩ := (plain_of_mem hr).check_eq file path text
  rw [hblock] at hcheck
  cases result with
  | error fault => cases hcheck
  | ok q =>
    cases hcheck
    obtain ⟨s, -, rfl⟩ := List.mem_map.mp hf
    exact r.file_location_report path text s

theorem pairwise_precedes_of_check {filePath sourceText : String} {root : Node}
    (hroot : root.WellNested sourceText.toList)
    (hblock : r.check (.withTree filePath sourceText root) path text = .ok (some block)) :
    block.Pairwise fun f g => f.location.Precedes g.location := by
  obtain ⟨select, hdetector, harranged⟩ := exists_select_arranged hr
  have hcheck := (plain_of_mem hr).check_of_query (.withTree filePath sourceText root) path text
    hdetector
  rw [hblock] at hcheck
  cases hq : select (.ofFile .solana (.withTree filePath sourceText root)) with
  | error fault =>
    rw [hq] at hcheck
    cases hcheck
  | ok q =>
    have hsubjects := harranged filePath sourceText root q hroot hq
    rw [hq] at hcheck
    cases hcheck
    apply List.pairwise_map.mpr
    apply hsubjects.ordered.imp_of_mem
    intro s t hs ht hst
    exact r.location_report_precedes path _ (hsubjects.fits s hs) (hsubjects.fits t ht) hst

end Catalogue

namespace Analyzer

theorem analyzeFile_new_eq_flatMap (s : Selection) (path : String) (file : SyntaxFile) :
    (new s).analyzeFile path file =
      .ok ((Catalogue.rules.filter (s.Admits ·)).flatMap (·.found file path file.text)) := by
  rw [analyzeFile_new, filter_catalogued]

/-- What a rule finds stands in one piece among the findings of several rules of the catalogue. -/
theorem exists_block {rules : List Rule} (hrules : rules.Sublist Catalogue.rules) {r : Rule}
    (hr : r ∈ rules) (file : SyntaxFile) (path text : String) :
    ∃ before after, rules.flatMap (·.found file path text) =
        before ++ r.found file path text ++ after ∧
      ∀ f ∈ before ++ after, f.ruleId ≠ r.id := by
  obtain ⟨earlier, later, rfl⟩ := List.append_of_mem hr
  have hnodup := (hrules.map Rule.id).nodup Catalogue.nodup_ids
  rw [List.map_append, List.map_cons, List.nodup_middle, ← List.map_append] at hnodup
  refine ⟨earlier.flatMap (·.found file path text), later.flatMap (·.found file path text), ?_, ?_⟩
  · rw [List.flatMap_append, List.flatMap_cons, List.append_assoc]
  · intro f hf hid
    rw [← List.flatMap_append] at hf
    obtain ⟨other, hother, hf⟩ := List.mem_flatMap.mp hf
    have hmem : other ∈ Catalogue.rules := by
      apply hrules.subset
      rw [List.mem_append, List.mem_cons]
      obtain hearlier | hlater := List.mem_append.mp hother
      · exact .inl hearlier
      · exact .inr (.inr hlater)
    have hmark := ((Catalogue.plain_of_mem hmem).marks file path text hf).1
    apply (List.nodup_cons.mp hnodup).1
    rw [← hid, hmark]
    exact List.mem_map_of_mem hother

/-- The findings in a file are those of the admitted rules, in the order of the catalogue. What a rule
that gets through the file finds is one block of them, bears the marks of the rule and the given path,
and comes in source order without overlaps. -/
theorem analyzeFile_blocks (s : Selection) (filePath path text : String) (root : Node)
    (hroot : root.WellNested text.toList) :
    let file := SyntaxFile.withTree filePath text root
    let admitted := Catalogue.rules.filter (s.Admits ·)
    ∃ findings, (new s).analyzeFile path file = .ok findings ∧
      findings = admitted.flatMap (·.found file path file.text) ∧
      ∀ r ∈ admitted, (∀ fault, r.check file path file.text ≠ .error fault) →
        ∃ block, r.check file path file.text = .ok (some block) ∧
        (∃ before after, findings = before ++ block ++ after ∧
          ∀ f ∈ before ++ after, f.ruleId ≠ r.id) ∧
        (∀ f ∈ block, f.ruleId = r.id ∧ f.title = r.title ∧ f.severity = r.severity ∧
          f.recommendations = r.recommendations ∧ f.location.file = path) ∧
        (block.Pairwise fun f g => f.location.Precedes g.location) ∧
        (block.map (·.location)).Nodup := by
  intro file admitted
  refine ⟨_, analyzeFile_new_eq_flatMap s path file, rfl, ?_⟩
  intro r hr hok
  have hmem := List.mem_of_mem_filter hr
  obtain ⟨block, hblock⟩ := Catalogue.exists_check_eq hmem hok
  have hfound := Rule.found_eq_of_check hblock
  have hpiece := exists_block List.filter_sublist hr file path file.text
  have hordered := Catalogue.pairwise_precedes_of_check hmem hroot hblock
  rw [hfound] at hpiece
  refine ⟨block, hblock, hpiece, ?_, hordered, List.pairwise_map.mpr (hordered.imp fun h => h.ne)⟩
  intro f hf
  have hfile := Catalogue.file_location_of_check hmem hblock hf
  rw [← hfound] at hf
  obtain ⟨hid, hseverity, htitle, hadvice⟩ :=
    (Catalogue.plain_of_mem hmem).marks file path file.text hf
  exact ⟨hid, htitle, hseverity, hadvice, hfile⟩

/-- Two functions on one line, the first of them with a name of two octets. -/
theorem analyzeFile_blocks_one_line :
    let text := "fn é() \x7b 1 / x \x7d fn g() \x7b 1 / x \x7d"
    let node (kind : String) (field : Option String) (start stop : Nat) (children : List Node) :=
      Node.mk ⟨kind, true, false, false, field, start, stop⟩ children
    let function (start body stop : Nat) :=
      node "function_item" none start stop
        [node "identifier" (some "name") (start + 3) (body - 3) [],
          node "block" (some "body") body stop
            [node "binary_expression" none (body + 2) (body + 7)
              [node "integer_literal" (some "left") (body + 2) (body + 3) [],
                node "/" (some "operator") (body + 4) (body + 5) [],
                node "identifier" (some "right") (body + 6) (body + 7) []]]]
    let root := node "source_file" none 0 34 [function 0 8 17, function 18 25 34]
    let file := SyntaxFile.withTree "lib.rs" text root
    let s : Selection := { ignoredRules := ["solana-unsafe-code"] }
    root.WellNested text.toList ∧
      ∃ before block after, (new s).analyzeFile "src/lib.rs" file = .ok (before ++ block ++ after) ∧
        Catalogue.divisionByZero.check file "src/lib.rs" file.text = .ok (some block) ∧
        block.map (fun f => (f.location.column, f.location.endColumn)) =
          [(some 1, some 17), (some 18, some 34)] ∧
        (block.Pairwise fun f g => f.location.Precedes g.location) := by
  intro text node function root file s
  have hroot : root.WellNested text.toList := by decide +kernel
  have hadmitted : Catalogue.divisionByZero ∈ Catalogue.rules.filter (s.Admits ·) := by
    apply List.mem_filter.mpr
    exact ⟨by simp [Catalogue.rules], by decide⟩
  have hcolumns : (Catalogue.divisionByZero.found file "src/lib.rs" file.text).map
      (fun f => (f.location.column, f.location.endColumn)) =
        [(some 1, some 17), (some 18, some 34)] := by decide +kernel
  have hne : Catalogue.divisionByZero.found file "src/lib.rs" file.text ≠ [] := by
    intro hnil
    rw [hnil] at hcolumns
    cases hcolumns
  have hok := Rule.check_ne_error_of_found_ne_nil hne
  obtain ⟨findings, hfindings, -, hblocks⟩ :=
    analyzeFile_blocks s "lib.rs" "src/lib.rs" text root hroot
  obtain ⟨block, hblock, ⟨before, after, hpiece, -⟩, -, hordered, -⟩ := hblocks _ hadmitted hok
  rw [hpiece] at hfindings
  rw [Rule.found_eq_of_check hblock] at hcolumns
  exact ⟨hroot, before, block, after, hfindings, hblock, hcolumns, hordered⟩

end Analyzer

end AnchorAudit
