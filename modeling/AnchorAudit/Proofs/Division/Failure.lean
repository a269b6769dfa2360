import AnchorAudit.Proofs.Catalogue
import AnchorAudit.Proofs.Division.Meaning
import AnchorAudit.Proofs.Numeral
import AnchorAudit.Proofs.Query

/-! When the search for risky divisions fails, and what its failure costs. A literal can be out of
range wherever the search reads one, and a single one in a file takes all findings of the rule for
divisions with it. -/
namespace AnchorAudit.Division

/-- A literal that spells an integer beyond the doubles. -/
def OutOfRange (source : Source) (n : Node) : Prop :=
  isNumber n = true ∧ ∃ k,
    Numeral.integer? (source.textOf n).toList (n.kind == "float_literal") = some k ∧
      Double.leastOverflow ≤ k.natAbs

theorem nonzero?_eq_error_iff {source : Source} {n : Node} :
    nonzero? source n = .error .tooLarge ↔ OutOfRange source n := by
  unfold nonzero? OutOfRange
  by_cases hnumber : isNumber n = true
  · rw [if_pos hnumber, Numeral.nonzero?_eq_error_iff]
    simp [hnumber]
  · simp [hnumber]

theorem isRisky_eq_error_iff {source : Source} {safe : List String} {divisor : Node} :
    isRisky source safe divisor = .error .tooLarge ↔ OutOfRange source (unwrap divisor) := by
  rw [← nonzero?_eq_error_iff]
  unfold isRisky
  generalize unwrap divisor = e
  dsimp only
  by_cases hnumber : isNumber e = true
  · rw [if_pos hnumber]
    cases nonzero? source e <;> simp [Except.map]
  · have hok : nonzero? source e = .ok none := if_neg hnumber
    rw [if_neg hnumber, hok]
    split
    · simp
    split <;> simp

/-- The node that an event makes the search read: the divisor inside its parentheses and casts, or the
value that is bound. -/
def Event.operand? : Event → Option Node
  | .division _ divisor => some (unwrap divisor)
  | .binding _ value => value

/-- Whether an event ends the search does not depend on what the search knows. -/
theorem step_eq_error_iff {source : Source} {s : Search} {e : Event} :
    s.step source e = .error .tooLarge ↔ ∃ n, e.operand? = some n ∧ OutOfRange source n := by
  have hmap {α β : Type} (x : Except Numeral.TooLarge α) (f : α → β) :
      x.map f = .error .tooLarge ↔ x = .error .tooLarge := by
    cases x <;> simp [Except.map]
  cases e with
  | division whole divisor =>
    rw [step_division, hmap, isRisky_eq_error_iff]
    simp [Event.operand?]
  | binding pattern value =>
    rw [step_binding, hmap]
    cases value with
    | none => simp [known?, Event.operand?]
    | some v => simp [known?, Event.operand?, nonzero?_eq_error_iff]

theorem search_failure_iff {source : Source} {s : Search} {es : List Event} :
    (search source s es).failure = some .tooLarge ↔
      ∃ e ∈ es, ∃ n, e.operand? = some n ∧ OutOfRange source n := by
  induction es generalizing s with
  | nil => simp [search]
  | cons e es ih =>
    rw [search]
    simp only [List.mem_cons, exists_eq_or_imp]
    cases hstep : s.step source e with
    | error failure =>
      cases failure
      exact ⟨fun _ => .inl (step_eq_error_iff.mp hstep), fun _ => rfl⟩
    | ok next =>
      have hreads : ¬∃ n, e.operand? = some n ∧ OutOfRange source n := by
        rw [← step_eq_error_iff (s := s), hstep]
        intro h
        cases h
      simpa [hreads] using ih

/-- What a body divides by, parentheses and casts apart, and what it binds to plain names. -/
def Consults (source : Source) (body n : Node) : Prop :=
  (∃ path divisor, DivisionAt body path divisor ∧ unwrap divisor = n) ∨
    ∃ path name, BindingAt source body path name (some n)

theorem consults_iff {source : Source} {body n : Node} :
    Consults source body n ↔ ∃ e ∈ events body, e.operand? = some n := by
  rw [← chronicle_events]
  constructor
  · rintro (⟨path, divisor, ⟨whole, hat, hkind, hop, hright⟩, rfl⟩ | ⟨path, name, hb⟩)
    · have hmem := mem_chronicle_division.mpr ⟨hat, hkind, hop, hright⟩
      exact ⟨.division whole divisor, List.mem_map_of_mem hmem, rfl⟩
    · obtain ⟨pattern, hmem, -⟩ := bindingAt_iff.mp hb
      exact ⟨.binding pattern (some n), List.mem_map_of_mem hmem, rfl⟩
  · rintro ⟨e, he, hn⟩
    obtain ⟨⟨path, e⟩, hmem, rfl⟩ := List.mem_map.mp he
    cases e with
    | division whole divisor =>
      obtain ⟨hat, hkind, hop, hright⟩ := mem_chronicle_division.mp hmem
      exact .inl ⟨path, divisor, ⟨whole, hat, hkind, hop, hright⟩, Option.some.inj hn⟩
    | binding pattern value =>
      obtain rfl : value = some n := hn
      exact .inr ⟨path, _, bindingAt_iff.mpr ⟨pattern, hmem, rfl⟩⟩

/-- A function that consults a literal out of range. -/
def Overflows (s : Subject) : Prop :=
  s.isFunction = true ∧ ∃ body, s.body? = some body ∧
    ∃ n, Consults s.source body n ∧ OutOfRange s.source n

/-- A function with a division at a place where its divisor is a risk. -/
def DividesAtRisk (s : Subject) : Prop :=
  s.isFunction = true ∧ ∃ body, s.body? = some body ∧
    ∃ path divisor, DivisionAt body path divisor ∧ Risk s.source body path (unwrap divisor)

theorem searchBody_failure_iff {source : Source} {body : Node} :
    (searchBody source body).failure = none ↔
      ¬∃ n, Consults source body n ∧ OutOfRange source n := by
  have hsome : (∃ n, Consults source body n ∧ OutOfRange source n) ↔
      (searchBody source body).failure = some .tooLarge := by
    unfold searchBody
    rw [search_failure_iff]
    simp only [consults_iff]
    constructor
    · rintro ⟨n, ⟨e, he, hn⟩, hrange⟩
      exact ⟨e, he, n, hn, hrange⟩
    · rintro ⟨e, he, n, hn, hrange⟩
      exact ⟨n, ⟨e, he, hn⟩, hrange⟩
  rw [hsome]
  cases (searchBody source body).failure with
  | none => simp
  | some failure =>
    cases failure
    simp

theorem riskyDivision_eq_ok_iff {s : Subject} {b : Bool} :
    riskyDivision s = .ok b ↔ ¬Overflows s ∧ (b = true ↔ DividesAtRisk s) := by
  unfold riskyDivision searchFunction? Overflows DividesAtRisk
  by_cases hs : s.isFunction = true
  · rw [if_pos hs]
    cases hbody : s.body? with
    | none => cases b <;> simp
    | some body =>
      simp only [Option.map_some, hs, true_and, Option.some.injEq, exists_eq_left']
      rw [found_eq_ok_iff, searchBody_failure_iff]
      refine and_congr_right fun hrange => ?_
      rw [← risky_searchBody_iff (searchBody_failure_iff.mpr hrange)]
      exact Bool.eq_iff_iff
  · rw [if_neg hs]
    cases b <;> simp [hs]

theorem riskyDivision_eq_error_iff {s : Subject} :
    riskyDivision s = .error .tooLarge ↔ Overflows s := by
  constructor
  · intro h
    by_contra hs
    obtain ⟨b, hb⟩ : ∃ b, riskyDivision s = .ok b := by
      by_cases hrisk : DividesAtRisk s
      · exact ⟨true, riskyDivision_eq_ok_iff.mpr ⟨hs, by simpa using hrisk⟩⟩
      · exact ⟨false, riskyDivision_eq_ok_iff.mpr ⟨hs, by simpa using hrisk⟩⟩
    rw [h] at hb
    cases hb
  · intro hs
    cases h : riskyDivision s with
    | error failure => rfl
    | ok b => exact absurd hs (riskyDivision_eq_ok_iff.mp h).1

theorem verdict_eq_ok_iff {s : Subject} {b : Bool} :
    Check.riskyDivision.verdict s = .ok b ↔ ¬Overflows s ∧ (b = true ↔ DividesAtRisk s) := by
  rw [← riskyDivision_eq_ok_iff]
  cases h : riskyDivision s <;> simp [Check.verdict, Except.mapError, h]

theorem verdict_eq_error_iff {s : Subject} {fault : Fault} :
    Check.riskyDivision.verdict s = .error fault ↔ Overflows s ∧ fault = .numberTooLarge := by
  rw [← riskyDivision_eq_error_iff]
  cases h : riskyDivision s with
  | error failure =>
    cases failure
    simp [Check.verdict, Except.mapError, h, eq_comm]
  | ok b => simp [Check.verdict, Except.mapError, h]

section Rule
variable (file : SyntaxFile) (path text : String)

theorem check_divisionByZero_eq : Catalogue.divisionByZero.check file path text =
    ((Query.ofFile .solana file).functions.subjects.filterM Check.riskyDivision.verdict).map
      fun found => some (found.map (Catalogue.divisionByZero.report path (.ofText text path))) := by
  have hplain : Catalogue.Plain Catalogue.divisionByZero :=
    Catalogue.plain_of_mem (by simp [Catalogue.rules])
  rw [hplain.check_of_query file path text rfl]
  unfold Query.having Query.narrowM
  dsimp only
  cases (Query.ofFile .solana file).functions.subjects.filterM Check.riskyDivision.verdict <;> rfl

theorem check_divisionByZero_eq_error_iff :
    Catalogue.divisionByZero.check file path text = .error .numberTooLarge ↔
      ∃ s ∈ (Query.ofFile .solana file).functions.subjects, Overflows s := by
  have honly (s : Subject) (fault : Fault) (h : Check.riskyDivision.verdict s = .error fault) :
      fault = .numberTooLarge := (verdict_eq_error_iff.mp h).2
  have hfails := Query.filterM_eq_error_iff honly (Query.ofFile .solana file).functions.subjects
  simp only [verdict_eq_error_iff, and_true] at hfails
  rw [check_divisionByZero_eq, ← hfails]
  cases (Query.ofFile .solana file).functions.subjects.filterM Check.riskyDivision.verdict <;>
    simp [Except.map]

open Classical in
theorem check_divisionByZero_eq_ok
    (h : ¬∃ s ∈ (Query.ofFile .solana file).functions.subjects, Overflows s) :
    Catalogue.divisionByZero.check file path text = .ok (some
      (((Query.ofFile .solana file).functions.subjects.filter (DividesAtRisk ·)).map
        (Catalogue.divisionByZero.report path (.ofText text path)))) := by
  have hverdict : ∀ s ∈ (Query.ofFile .solana file).functions.subjects,
      Check.riskyDivision.verdict s = .ok (decide (DividesAtRisk s)) := by
    intro s hs
    have hrange : ¬Overflows s := fun hover => h ⟨s, hs, hover⟩
    exact verdict_eq_ok_iff.mpr ⟨hrange, decide_eq_true_iff⟩
  rw [check_divisionByZero_eq, Query.filterM_eq_ok hverdict]
  rfl

end Rule

open Classical in
/-- A function is judged, and judged by its meaning, exactly when it consults no literal out of range.
The rule reports every function at risk, in order, exactly when no function of the file consults one;
otherwise it reports none at all. -/
theorem divisionByZero_answers_iff (s : Subject) (b : Bool) (file : SyntaxFile)
    (path text : String) :
    let rule := Catalogue.divisionByZero
    let functions := (Query.ofFile .solana file).functions.subjects
    (Check.riskyDivision.verdict s = .ok b ↔ ¬Overflows s ∧ (b = true ↔ DividesAtRisk s)) ∧
      (rule.check file path text = .ok (some
          ((functions.filter (DividesAtRisk ·)).map (rule.report path (.ofText text path)))) ↔
        ¬∃ f ∈ functions, Overflows f) ∧
      (rule.check file path text = .error .numberTooLarge ↔ ∃ f ∈ functions, Overflows f) := by
  intro rule functions
  have hfails := check_divisionByZero_eq_error_iff file path text
  refine ⟨verdict_eq_ok_iff, ⟨?_, check_divisionByZero_eq_ok file path text⟩, hfails⟩
  intro hok hover
  have hfailed := hfails.mpr hover
  rw [hok] at hfailed
  cases hfailed

/-- The first function divides at risk and is not reported, since the second one binds a literal out
of range. -/
theorem divisionByZero_loses_findings :
    let node (kind : String) (field : Option String) (start stop : Nat) (children : List Node) :=
      Node.mk ⟨kind, true, false, false, field, start, stop⟩ children
    let chars := "fn f(x: u64) \x7b x / y \x7d\nfn g() \x7b let z = 0x".toList ++
      List.replicate 256 'f' ++ "; \x7d".toList
    let quotient := node "binary_expression" none 15 20
      [node "identifier" (some "left") 15 16 [], node "/" (some "operator") 17 18 [],
        node "identifier" (some "right") 19 20 []]
    let binding := node "let_declaration" none 32 299
      [node "identifier" (some "pattern") 36 37 [], node "integer_literal" (some "value") 40 298 []]
    let divides := node "function_item" none 0 22
      [node "identifier" (some "name") 3 4 [], node "block" (some "body") 13 22 [quotient]]
    let binds := node "function_item" none 23 301
      [node "identifier" (some "name") 26 27 [], node "block" (some "body") 30 301 [binding]]
    let file := SyntaxFile.withTree "lib.rs" (.ofList chars)
      (node "source_file" none 0 301 [divides, binds])
    let first : Subject := .placed .function ⟨file.source, divides, []⟩
    let second : Subject := .placed .function ⟨file.source, binds, [divides]⟩
    (Query.ofFile .solana file).functions.subjects = [first, second] ∧
      Check.riskyDivision.verdict first = .ok true ∧
      Check.riskyDivision.verdict second = .error .numberTooLarge ∧
      Catalogue.divisionByZero.check file "lib.rs" (.ofList chars) = .error .numberTooLarge := by
  intro node chars quotient binding divides binds file first second
  have hsource : file.source = ⟨Utf8.encode chars⟩ := by
    change Source.ofText (.ofList chars) = _
    rw [Source.ofText, String.toList_ofList]
  have hfunctions : (Query.ofFile .solana file).functions.subjects = [first, second] := rfl
  have hfirst : Check.riskyDivision.verdict first = .ok true := by
    unfold first
    rw [hsource]
    decide +kernel
  have hsecond : Overflows second := by
    have hspells : Numeral.integer? (file.source.between 40 298).toList false =
        some ((Nat.pow 2 1024 - 1 : Nat) : Int) := by
      rw [hsource, Source.between, String.toList_ofList]
      decide +kernel
    have hbinding : BindingAt file.source (node "block" (some "body") 30 301 [binding]) [0]
        (file.source.between 36 37) (some (node "integer_literal" (some "value") 40 298 [])) :=
      ⟨binding, _, rfl, rfl, rfl, rfl, rfl, rfl⟩
    exact ⟨rfl, _, rfl, _, .inr ⟨[0], _, hbinding⟩, rfl, _, hspells, by decide +kernel⟩
  have hmem : second ∈ (Query.ofFile .solana file).functions.subjects := by
    rw [hfunctions]
    exact List.mem_cons_of_mem _ List.mem_cons_self
  have hlost := (check_divisionByZero_eq_error_iff file "lib.rs" (.ofList chars)).mpr
    ⟨second, hmem, hsecond⟩
  exact ⟨hfunctions, hfirst, verdict_eq_error_iff.mpr ⟨hsecond, rfl⟩, hlost⟩

end AnchorAudit.Division
