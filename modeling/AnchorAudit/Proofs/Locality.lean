import AnchorAudit.Proofs.Catalogue
import AnchorAudit.Proofs.Query
import Mathlib.Data.List.TakeWhile
import Mathlib.Tactic.SplitIfs

/-! What the rules of the catalogue find in a file is what they find in its front part and then what
they find in the rest. An item is seen together with the attributes that lead up to it, so a file can
be cut at any place that no attribute leads across. -/
namespace AnchorAudit

/-- No attribute at the end of the items waits for an item behind them. -/
def Settled (items : List Node) : Prop :=
  ∀ n ∈ (items.filter fun n => n.isNamed && !Place.isComment n).getLast?, n.kind ≠ "attribute_item"

instance (items : List Node) : Decidable (Settled items) :=
  inferInstanceAs (Decidable (∀ n ∈ List.getLast? _, _))

namespace Place

def bare (p : Place) : Place := { p with before := p.leadingAttributes.reverse }

theorem isAttributeItem_eq_false_of_isComment {n : Node} (h : isComment n = true) :
    isAttributeItem n = false := by
  unfold isComment at h
  unfold isAttributeItem
  simp only [Bool.or_eq_true, beq_iff_eq] at h
  obtain h | h := h
  · rw [h]
    decide
  · rw [h]
    decide

/-- The attributes at the front of a run of attributes and comments. -/
theorem filter_takeWhile_eq_nil {ns : List Node}
    (h : ∀ n ∈ ns.find? (!isComment ·), isAttributeItem n = false) :
    (ns.takeWhile fun n => isAttributeItem n || isComment n).filter isAttributeItem = [] := by
  induction ns with
  | nil => rfl
  | cons n ns ih =>
    cases hn : isComment n with
    | true =>
      have hitem := isAttributeItem_eq_false_of_isComment hn
      have hns : ∀ m ∈ ns.find? (!isComment ·), isAttributeItem m = false := by
        intro m hm
        apply h m
        rw [List.find?_cons_of_neg (by simp [hn])]
        exact hm
      rw [List.takeWhile_cons_of_pos (by simp [hn]), List.filter_cons_of_neg (by simp [hitem])]
      exact ih hns
    | false =>
      have hitem : isAttributeItem n = false := by
        apply h n
        rw [List.find?_cons_of_pos (by simp [hn])]
        rfl
      rw [List.takeWhile_cons_of_neg (by simp [hn, hitem])]
      rfl

theorem leadingAttributes_bare (p : Place) : p.bare.leadingAttributes = p.leadingAttributes := by
  have hmem : ∀ n ∈ p.leadingAttributes.reverse, n.isNamed = true ∧ isAttributeItem n = true := by
    intro n hn
    unfold leadingAttributes waiting at hn
    rw [List.reverse_reverse] at hn
    obtain ⟨hrun, hitem⟩ := List.mem_filter.mp hn
    have hnamed := (List.takeWhile_sublist _).subset hrun
    exact ⟨(List.mem_filter.mp hnamed).2, hitem⟩
  unfold bare
  generalize p.leadingAttributes = items at hmem
  have hnamed : items.reverse.filter (·.isNamed) = items.reverse :=
    List.filter_eq_self.mpr fun n hn => (hmem n hn).1
  have hrun : items.reverse.takeWhile (fun n => isAttributeItem n || isComment n) =
      items.reverse := by
    apply List.takeWhile_eq_self_iff.mpr
    intro n hn
    rw [(hmem n hn).2, Bool.true_or]
  have hitems : items.reverse.filter isAttributeItem = items.reverse :=
    List.filter_eq_self.mpr fun n hn => (hmem n hn).2
  unfold leadingAttributes waiting
  dsimp only
  rw [hnamed, hrun, hitems, List.reverse_reverse]

theorem attributes_bare (p : Place) : p.bare.attributes = p.attributes := by
  unfold attributes
  rw [leadingAttributes_bare]
  rfl

/-- Behind a settled front an item keeps its attributes when the front is taken away. -/
theorem bare_behind (source : Source) (n : Node) (before : List Node) {front : List Node}
    (hfront : Settled front) :
    bare ⟨source, n, before ++ front.reverse⟩ = bare ⟨source, n, before⟩ := by
  have hnone : ((front.reverse.filter (·.isNamed)).takeWhile
      fun n => isAttributeItem n || isComment n).filter isAttributeItem = [] := by
    apply filter_takeWhile_eq_nil
    intro m hm
    rw [← List.head?_filter, List.filter_filter, List.filter_reverse, List.head?_reverse] at hm
    have hkind : m.kind ≠ "attribute_item" := by
      apply hfront m
      simpa only [Bool.and_comm] using hm
    exact beq_eq_false_iff_ne.mpr hkind
  have hleading : leadingAttributes ⟨source, n, before ++ front.reverse⟩ =
      leadingAttributes ⟨source, n, before⟩ := by
    unfold leadingAttributes waiting
    dsimp only
    rw [List.filter_append, List.takeWhile_append]
    split_ifs with hall
    · have hrun := (List.takeWhile_prefix _).eq_of_length hall
      rw [List.filter_append, hnone, List.append_nil, hrun]
    · rfl
  unfold bare
  rw [hleading]

theorem side_append (source : Source) (before front back : List Node) :
    side source before (front ++ back) =
      side source before front ++ side source (front.reverse ++ before) back := by
  induction front generalizing before with
  | nil => rfl
  | cons n front ih =>
    rw [List.cons_append, side, side, ih, List.reverse_cons, List.append_assoc]
    rfl

theorem side_behind (source : Source) (before : List Node) {front : List Node}
    (hfront : Settled front) (back : List Node) :
    (side source (before ++ front.reverse) back).map bare = (side source before back).map bare := by
  induction back generalizing before with
  | nil => rfl
  | cons n back ih =>
    have hrest := ih (n :: before)
    rw [List.cons_append] at hrest
    rw [side, side, List.map_cons, List.map_cons, bare_behind source n before hfront, hrest]

end Place

namespace Subject

def bare : Subject → Subject
  | placed role p => placed role p.bare
  | other name => other name

theorem attributes_bare (s : Subject) : s.bare.attributes = s.attributes := by
  cases s with
  | placed role p => exact p.attributes_bare
  | other name => rfl

end Subject

/-- No check looks beyond the attributes that lead up to a subject. -/
theorem Check.verdict_bare (check : Check) (s : Subject) :
    check.verdict s.bare = check.verdict s := by
  have hattributes := s.attributes_bare
  cases s with
  | placed role p =>
    cases check with
    | derivesAccounts =>
      simp only [verdict, Accounts.derivesAccounts, hattributes]
      cases role <;> rfl
    | duplicateMutableAccounts =>
      simp only [verdict, Accounts.duplicateMutableAccounts, hattributes]
      cases role <;> rfl
    | _ => cases role <;> rfl
  | other name => rfl

theorem Rule.report_bare (r : Rule) (path : String) (lines : SourceLines) (s : Subject) :
    r.report path lines s.bare = r.report path lines s := by
  cases s <;> rfl

namespace Query

theorem usesUnsafeCode_bare (s : Subject) : usesUnsafeCode s.bare = usesUnsafeCode s := by
  cases s with
  | placed role p => cases role <;> rfl
  | other name => rfl

theorem functionsAmong_append (source : Source) (before front back : List Node) :
    functionsAmong source before (front ++ back) =
      functionsAmong source before front ++
        functionsAmong source (front.reverse ++ before) back := by
  induction front generalizing before with
  | nil => rw [functionsAmong]; rfl
  | cons n front ih =>
    rw [List.cons_append, functionsAmong, functionsAmong, ih, List.reverse_cons, List.append_assoc,
      List.append_assoc]
    rfl

theorem functionsAmong_behind (source : Source) (before : List Node) {front : List Node}
    (hfront : Settled front) (back : List Node) :
    (functionsAmong source (before ++ front.reverse) back).map Subject.bare =
      (functionsAmong source before back).map Subject.bare := by
  induction back generalizing before with
  | nil => rw [functionsAmong, functionsAmong]
  | cons n back ih =>
    have hrest := ih (n :: before)
    rw [List.cons_append] at hrest
    have hplace := Place.bare_behind source n before hfront
    rw [functionsAmong, functionsAmong, List.map_append, List.map_append, hrest]
    congr 1
    split_ifs
    · rfl
    · simp only [List.map_cons, List.map_nil, Subject.bare, hplace]
    · rfl
    · rfl
    · rfl

/-- The subjects of a query are those of two others, one after the other, as far as rules can see. -/
def Joins (q front back : Query) : Prop :=
  q.subjects.map Subject.bare = (front.subjects ++ back.subjects).map Subject.bare

theorem joins_functions (dialect : Dialect) (path : String) (source : Source) (l : Label)
    {front : List Node} (hfront : Settled front) (back : List Node) :
    (ofFile dialect ⟨path, source, .mk l (front ++ back)⟩).functions.Joins
      (ofFile dialect ⟨path, source, .mk l front⟩).functions
      (ofFile dialect ⟨path, source, .mk l back⟩).functions := by
  have hsubjects (cs : List Node) :
      (ofFile dialect ⟨path, source, .mk l cs⟩).functions.subjects = functionsAmong source [] cs := by
    simp [functions, fromFiles, ofFile, functionsIn]
  have hback := functionsAmong_behind source [] hfront back
  rw [List.nil_append] at hback
  unfold Joins
  rw [hsubjects, hsubjects, hsubjects, functionsAmong_append, List.append_nil, List.map_append,
    List.map_append, hback]

/-- Whether a place holds a struct does not depend on what stands before it. -/
theorem map_bare_structs (places : List Place) :
    ((places.filter fun p => p.node.isNamed && p.node.kind == "struct_item").map
        (Subject.placed .struct)).map Subject.bare =
      ((places.map Place.bare).filter fun p => p.node.isNamed && p.node.kind == "struct_item").map
        (Subject.placed .struct) := by
  rw [List.filter_map, List.map_map, List.map_map]
  rfl

theorem joins_structs (dialect : Dialect) (path : String) (source : Source) (l : Label)
    {front : List Node} (hfront : Settled front) (back : List Node) :
    (ofFile dialect ⟨path, source, .mk l (front ++ back)⟩).structs.Joins
      (ofFile dialect ⟨path, source, .mk l front⟩).structs
      (ofFile dialect ⟨path, source, .mk l back⟩).structs := by
  have hsubjects (cs : List Node) : (ofFile dialect ⟨path, source, .mk l cs⟩).structs.subjects =
      ((Place.side source [] cs).filter fun p =>
        p.node.isNamed && p.node.kind == "struct_item").map (.placed .struct) := by
    simp [structs, fromFiles, ofFile, structsIn, Node.children]
  have hback := Place.side_behind source [] hfront back
  rw [List.nil_append] at hback
  unfold Joins
  rw [hsubjects, hsubjects, hsubjects, ← List.map_append, ← List.filter_append, map_bare_structs,
    map_bare_structs, Place.side_append, List.append_nil, List.map_append, List.map_append, hback]

section
variable {q front back : Query} (h : q.Joins front back)
include h

theorem Joins.usesUnsafe : q.usesUnsafe.Joins front.usesUnsafe back.usesUnsafe := by
  have hbare (l : List Subject) :
      (l.filter usesUnsafeCode).map Subject.bare = (l.map Subject.bare).filter usesUnsafeCode := by
    have htest : usesUnsafeCode ∘ Subject.bare = usesUnsafeCode := funext usesUnsafeCode_bare
    rw [List.filter_map, htest]
  unfold Joins Query.usesUnsafe narrow
  dsimp only
  rw [← List.filter_append, hbare, hbare]
  exact congrArg _ h

/-- A check that fails on no subject of the whole fails on no subject of the parts. -/
theorem Joins.having {check : Check} {found : Query} (hq : q.having check = .ok found) :
    ∃ a b, front.having check = .ok a ∧ back.having check = .ok b ∧ found.Joins a b := by
  have hbare (l : List Subject) : (l.map Subject.bare).filterM check.verdict =
      (l.filterM check.verdict).map (List.map Subject.bare) := by
    have htest : check.verdict ∘ Subject.bare = check.verdict := funext check.verdict_bare
    rw [filterM_map, htest]
  have hall := hbare q.subjects
  rw [h, hbare, filterM_append] at hall
  unfold Query.having narrowM at hq ⊢
  cases hwhole : q.subjects.filterM check.verdict with
  | error fault =>
    rw [hwhole] at hq
    cases hq
  | ok kept =>
    rw [hwhole] at hq hall
    cases hq
    cases hx : front.subjects.filterM check.verdict with
    | error fault =>
      rw [hx] at hall
      cases hall
    | ok xs =>
      cases hy : back.subjects.filterM check.verdict with
      | error fault =>
        rw [hx, hy] at hall
        cases hall
      | ok ys =>
        rw [hx, hy] at hall
        exact ⟨_, _, rfl, rfl, (Except.ok.inj hall).symm⟩

end

end Query

namespace Catalogue

/-- A selection from a file that can be cut is the selection from the front and then that from the
rest. -/
def Local (select : Query → Except Fault Query) : Prop :=
  ∀ (path : String) (source : Source) (l : Label) (front back : List Node) (q : Query),
    Settled front → select (.ofFile .solana ⟨path, source, .mk l (front ++ back)⟩) = .ok q →
    ∃ a b, select (.ofFile .solana ⟨path, source, .mk l front⟩) = .ok a ∧
      select (.ofFile .solana ⟨path, source, .mk l back⟩) = .ok b ∧ q.Joins a b

theorem local_usesUnsafe : Local fun q => .ok q.functions.usesUnsafe := by
  intro path source l front back q hfront hq
  have hjoins := (Query.joins_functions .solana path source l hfront back).usesUnsafe
  cases hq
  exact ⟨_, _, rfl, rfl, hjoins⟩

theorem local_functions (check : Check) : Local fun q => q.functions.having check := by
  intro path source l front back q hfront hq
  exact (Query.joins_functions .solana path source l hfront back).having hq

theorem local_structs (first second : Check) :
    Local (fun q => do (← q.structs.having first).having second) := by
  intro path source l front back q hfront hq
  obtain ⟨kept, hkept, hq⟩ := bind_eq_ok_iff.mp hq
  obtain ⟨a, b, ha, hb, hjoins⟩ :=
    (Query.joins_structs .solana path source l hfront back).having hkept
  obtain ⟨a', b', ha', hb', hjoins'⟩ := hjoins.having hq
  exact ⟨a', b', bind_eq_ok_iff.mpr ⟨a, ha, ha'⟩, bind_eq_ok_iff.mpr ⟨b, hb, hb'⟩, hjoins'⟩

/-- A rule of the catalogue that gets through a file gets through its two parts, and reports about
the file what it reports about the front and then what it reports about the rest. -/
theorem check_joins {r : Rule} (hr : r ∈ rules) (filePath path text : String) (source : Source)
    (l : Label) (front back : List Node) (hfront : Settled front) :
    let part (items : List Node) : SyntaxFile := ⟨filePath, source, .mk l items⟩
    (∀ fault, r.check (part (front ++ back)) path text ≠ .error fault) →
      ∃ xs ys, r.check (part front) path text = .ok (some xs) ∧
        r.check (part back) path text = .ok (some ys) ∧
        r.check (part (front ++ back)) path text = .ok (some (xs ++ ys)) := by
  intro part hok
  obtain ⟨select, hdetector, hlocal⟩ :=
    exists_select local_usesUnsafe local_functions local_structs hr
  have hcheck (file : SyntaxFile) :=
    (plain_of_mem hr).check_of_query file path text hdetector
  let report := r.report path (.ofText text path)
  have hreport (l : List Subject) : (l.map Subject.bare).map report = l.map report := by
    rw [List.map_map]
    exact List.map_congr_left fun s _ => r.report_bare path _ s
  cases hq : select (.ofFile .solana (part (front ++ back))) with
  | error fault =>
    have hfault := hcheck (part (front ++ back))
    rw [hq] at hfault
    exact absurd hfault (hok fault)
  | ok q =>
    obtain ⟨a, b, ha, hb, hjoins⟩ := hlocal filePath source l front back q hfront hq
    have hsubjects : q.subjects.map report = a.subjects.map report ++ b.subjects.map report := by
      rw [← hreport, hjoins, hreport, List.map_append]
    refine ⟨a.subjects.map report, b.subjects.map report, ?_, ?_, ?_⟩
    · rw [hcheck, ha]
      rfl
    · rw [hcheck, hb]
      rfl
    · rw [hcheck, hq, ← hsubjects]
      rfl

/-- The cut goes through between a comment and the attribute of the second of two structs. -/
theorem check_joins_structs :
    let text := "#[derive(Accounts)]\nstruct A \x7b a: AccountInfo \x7d\n// -\n" ++
      "#[derive(Accounts)]\nstruct B \x7b b: AccountInfo \x7d"
    let node (kind : String) (field : Option String) (start stop : Nat) (children : List Node) :=
      Node.mk ⟨kind, true, false, false, field, start, stop⟩ children
    let struct (start : Nat) :=
      [node "attribute_item" none start (start + 19)
          [node "attribute" none (start + 2) (start + 18) []],
        node "struct_item" none (start + 20) (start + 47)
          [node "type_identifier" (some "name") (start + 27) (start + 28) [],
            node "field_declaration_list" (some "body") (start + 29) (start + 47)
              [node "field_declaration" none (start + 31) (start + 45)
                [node "field_identifier" (some "name") (start + 31) (start + 32) [],
                  node "type_identifier" (some "type") (start + 34) (start + 45) []]]]]
    let front := struct 0 ++ [node "line_comment" none 48 52 []]
    let back := struct 53
    let part (items : List Node) :=
      SyntaxFile.withTree "lib.rs" text (node "source_file" none 0 100 items)
    let r := missingSignerCheck
    r ∈ rules ∧ Settled front ∧
      (∀ fault, r.check (part (front ++ back)) "lib.rs" text ≠ .error fault) ∧
      ∃ xs ys, xs.map (·.location.line) = [2] ∧ ys.map (·.location.line) = [5] ∧
        r.check (part front) "lib.rs" text = .ok (some xs) ∧
        r.check (part back) "lib.rs" text = .ok (some ys) ∧
        r.check (part (front ++ back)) "lib.rs" text = .ok (some (xs ++ ys)) := by
  intro text node struct front back part r
  have hr : r ∈ rules := by simp [rules, r]
  have hfront : Settled front := by decide
  have hlines : (r.found (part (front ++ back)) "lib.rs" text).map (·.location.line) = [2, 5] := by
    decide +kernel
  have hne : r.found (part (front ++ back)) "lib.rs" text ≠ [] := by
    intro hnil
    rw [hnil] at hlines
    cases hlines
  have hok := Rule.check_ne_error_of_found_ne_nil hne
  obtain ⟨xs, ys, hxs, hys, hall⟩ :=
    check_joins hr "lib.rs" "lib.rs" text (.ofText text) _ front back hfront hok
  have hfirst : (r.found (part front) "lib.rs" text).map (·.location.line) = [2] := by
    decide +kernel
  have hx : r.found (part front) "lib.rs" text = xs := Rule.found_eq_of_check hxs
  have hxy : r.found (part (front ++ back)) "lib.rs" text = xs ++ ys := Rule.found_eq_of_check hall
  rw [hx] at hfirst
  rw [hxy, List.map_append, hfirst] at hlines
  exact ⟨hr, hfront, hok, xs, ys, hfirst, (List.cons.inj hlines).2, hxs, hys, hall⟩

end Catalogue

end AnchorAudit
