import AnchorAudit.Proofs.Division.Chronicle
import AnchorAudit.Proofs.Division.Search

/-! What the search for risky divisions finds, said about the tree itself: which divisions there are,
and which binding of a name is the last to be completed before a division. -/
namespace AnchorAudit.Division
open Node (EndsBefore ClosesBefore)

/-- A division at a path of a body, with its divisor. -/
def DivisionAt (body : Node) (path : List Nat) (divisor : Node) : Prop :=
  ∃ n, body.at? path = some n ∧ n.kind = "binary_expression" ∧ operator? n = some "/" ∧
    n.child? "right" = some divisor

/-- A binding of a plain name at a path of a body, with its value if it has one. -/
def BindingAt (source : Source) (body : Node) (path : List Nat) (name : String)
    (value : Option Node) : Prop :=
  ∃ n pattern, body.at? path = some n ∧ n.kind = "let_declaration" ∧
    n.child? "pattern" = some pattern ∧ pattern.kind = "identifier" ∧
    source.textOf pattern = name ∧ n.child? "value" = value

/-- Of the bindings of a name at the paths in question, the one that is completed last. -/
def LastBinding (source : Source) (body : Node) (within : List Nat → Prop) (name : String)
    (value : Option Node) : Prop :=
  ∃ path, within path ∧ BindingAt source body path name value ∧
    ∀ other value', within other → BindingAt source body other name value' → other ≠ path →
      ClosesBefore other path

/-- What makes the divisor of a division at a path risky, parentheses and casts apart. -/
inductive Risk (source : Source) (body : Node) (path : List Nat) (divisor : Node) : Prop where
  | zero (number : isNumber divisor = true) (isZero : nonzero? source divisor = .ok (some false))
  | remote (kind : divisor.kind ∈ ["scoped_identifier", "call_expression", "field_expression"])
  | difference (kind : divisor.kind = "binary_expression") (minus : operator? divisor = some "-")
  | unbound (kind : divisor.kind = "identifier")
      (free : ∀ p value, EndsBefore p path →
        ¬BindingAt source body p (source.textOf divisor) value)
  | untrusted (kind : divisor.kind = "identifier") (value : Option Node)
      (last : LastBinding source body (EndsBefore · path) (source.textOf divisor) value)
      (possiblyZero : ¬Nonzero source value)

theorem mem_chronicle_division {body whole divisor : Node} {path : List Nat} :
    (path, .division whole divisor) ∈ chronicle body ↔ body.at? path = some whole ∧
      whole.kind = "binary_expression" ∧ operator? whole = some "/" ∧
      whole.child? "right" = some divisor := by
  rw [mem_chronicle]
  constructor
  · rintro ⟨m, hm, he | he⟩
    · obtain ⟨divisor', he, hkind, hop, hright⟩ := mem_divisionEvent.mp he
      cases he
      exact ⟨hm, hkind, hop, hright⟩
    · obtain ⟨pattern, he, -⟩ := mem_bindingEvent.mp he
      cases he
  · rintro ⟨hm, hkind, hop, hright⟩
    exact ⟨whole, hm, .inl (mem_divisionEvent.mpr ⟨divisor, rfl, hkind, hop, hright⟩)⟩

theorem bindingAt_iff {source : Source} {body : Node} {path : List Nat} {name : String}
    {value : Option Node} : BindingAt source body path name value ↔
      ∃ pattern, (path, .binding pattern value) ∈ chronicle body ∧ source.textOf pattern = name := by
  constructor
  · rintro ⟨n, pattern, hn, hkind, hpattern, hid, hname, rfl⟩
    have he : .binding pattern (n.child? "value") ∈ bindingEvent n :=
      mem_bindingEvent.mpr ⟨pattern, rfl, hkind, hpattern, hid⟩
    exact ⟨pattern, mem_chronicle.mpr ⟨n, hn, .inr he⟩, hname⟩
  · rintro ⟨pattern, hmem, hname⟩
    obtain ⟨n, hn, he | he⟩ := mem_chronicle.mp hmem
    · obtain ⟨divisor, he, -⟩ := mem_divisionEvent.mp he
      cases he
    · obtain ⟨pattern', he, hkind, hpattern, hid⟩ := mem_bindingEvent.mp he
      cases he
      exact ⟨n, pattern, hn, hkind, hpattern, hid, hname, rfl⟩

theorem BindingAt.value_unique {source : Source} {body : Node} {path : List Nat} {name : String}
    {v w : Option Node} (hv : BindingAt source body path name v)
    (hw : BindingAt source body path name w) : v = w := by
  obtain ⟨n, _, hn, -, -, -, -, rfl⟩ := hv
  obtain ⟨m, _, hm, -, -, -, -, rfl⟩ := hw
  rw [hn] at hm
  cases hm
  rfl

theorem LastBinding.value_unique {source : Source} {body : Node} {within : List Nat → Prop}
    {name : String} {v w : Option Node} (hv : LastBinding source body within name v)
    (hw : LastBinding source body within name w) : v = w := by
  obtain ⟨p, hp, hbp, hlastp⟩ := hv
  obtain ⟨q, hq, hbq, hlastq⟩ := hw
  by_cases hpq : p = q
  · subst hpq
    exact hbp.value_unique hbq
  · have hforth := hlastq p v hp hbp hpq
    have hback := hlastp q w hq hbq (Ne.symm hpq)
    exact absurd hback hforth.asymm

section Part
/- Part of the chronicle of a body: all of it, or what comes before a division. -/
variable {source : Source} {body : Node} {within : List Nat → Prop}
  {part : List (List Nat × Event)} (hpart : part.Pairwise Earlier)
  (hwithin : ∀ path name value, within path ∧ BindingAt source body path name value ↔
    ∃ pattern, (path, .binding pattern value) ∈ part ∧ source.textOf pattern = name)
include hwithin

theorem lastValue?_eq_none_iff {name : String} :
    lastValue? source name (part.map Prod.snd) = none ↔
      ∀ path value, within path → ¬BindingAt source body path name value := by
  unfold lastValue?
  rw [List.findSome?_eq_none_iff]
  constructor
  · intro h path value hpath hb
    obtain ⟨pattern, hmem, hname⟩ := (hwithin path name value).mp ⟨hpath, hb⟩
    have hnone := h (.binding pattern value) (by simpa using ⟨path, hmem⟩)
    simp [boundValue?, hname] at hnone
  · intro h e he
    cases e with
    | division whole divisor => rfl
    | binding pattern value =>
      obtain ⟨path, hmem⟩ : ∃ path, (path, .binding pattern value) ∈ part := by simpa using he
      refine if_neg fun hname => ?_
      obtain ⟨hpath, hb⟩ := (hwithin path name value).mpr ⟨pattern, hmem, hname⟩
      exact h path value hpath hb

include hpart

theorem lastBinding_of_lastValue? {name : String} {value : Option Node}
    (h : lastValue? source name (part.map Prod.snd) = some value) :
    LastBinding source body within name value := by
  unfold lastValue? at h
  rw [← List.map_reverse, List.findSome?_map, List.findSome?_eq_some_iff] at h
  obtain ⟨after, ⟨path, e⟩, before, hsplit, hvalue, hafter⟩ := h
  have hsplit : part = before.reverse ++ (path, e) :: after.reverse := by
    have hreverse := congrArg List.reverse hsplit
    simpa [List.reverse_append, List.append_assoc] using hreverse
  obtain ⟨pattern, rfl, hname⟩ : ∃ pattern, e = .binding pattern value ∧
      source.textOf pattern = name := by
    cases e with
    | division whole divisor => cases hvalue
    | binding pattern bound =>
      simp only [Function.comp_apply, boundValue?] at hvalue
      split at hvalue
      · cases hvalue
        exact ⟨pattern, rfl, by assumption⟩
      · cases hvalue
  have hmem : (path, .binding pattern value) ∈ part := by rw [hsplit]; simp
  obtain ⟨hpath, hb⟩ := (hwithin path name value).mpr ⟨pattern, hmem, hname⟩
  refine ⟨path, hpath, hb, fun other value' hother hb' hne => ?_⟩
  obtain ⟨pattern', hmem', hname'⟩ := (hwithin other name value').mp ⟨hother, hb'⟩
  rw [hsplit] at hpart hmem'
  rcases List.mem_append.mp hmem' with hbefore | hlater
  · exact (List.pairwise_append.mp hpart).2.2 _ hbefore _ List.mem_cons_self
  · rcases List.mem_cons.mp hlater with heq | hlater
    · cases heq
      exact absurd rfl hne
    · have hnone := hafter _ (List.mem_reverse.mp hlater)
      simp [boundValue?, hname'] at hnone

theorem lastValue?_eq_some_iff {name : String} {value : Option Node} :
    lastValue? source name (part.map Prod.snd) = some value ↔
      LastBinding source body within name value := by
  constructor
  · exact lastBinding_of_lastValue? hpart hwithin
  · intro h
    cases hlast : lastValue? source name (part.map Prod.snd) with
    | none =>
      obtain ⟨path, hpath, hb, -⟩ := h
      exact absurd hb ((lastValue?_eq_none_iff hwithin).mp hlast path value hpath)
    | some found => rw [(lastBinding_of_lastValue? hpart hwithin hlast).value_unique h]

end Part

section Split
variable (source : Source) {body whole divisor : Node} {path : List Nat}
  {before later : List (List Nat × Event)}
  (hsplit : chronicle body = before ++ (path, .division whole divisor) :: later)
include hsplit

/-- The bindings that a chronicle tells of before a division are those that are completed before its
node begins. -/
theorem mem_before_iff (p : List Nat) (name : String) (value : Option Node) :
    EndsBefore p path ∧ BindingAt source body p name value ↔
      ∃ pattern, (p, .binding pattern value) ∈ before ∧ source.textOf pattern = name := by
  have hpart := pairwise_chronicle body
  rw [hsplit] at hpart
  obtain ⟨-, hlater, hbefore⟩ := List.pairwise_append.mp hpart
  rw [bindingAt_iff, hsplit]
  constructor
  · rintro ⟨hends, pattern, hmem, hname⟩
    refine ⟨pattern, ?_, hname⟩
    rcases List.mem_append.mp hmem with hmem | hmem
    · exact hmem
    · rcases List.mem_cons.mp hmem with heq | hmem
      · cases heq
      · exact absurd hends ((List.pairwise_cons.mp hlater).1 _ hmem)
  · rintro ⟨pattern, hmem, hname⟩
    exact ⟨hbefore _ hmem _ List.mem_cons_self, pattern, List.mem_append_left _ hmem, hname⟩

theorem isRisky_before_iff
    (hfailure : (search source .start (before.map Prod.snd)).failure = none) :
    isRisky source (search source .start (before.map Prod.snd)).last.safe divisor = .ok true ↔
      Risk source body path (unwrap divisor) := by
  have hpart : before.Pairwise Earlier :=
    (pairwise_chronicle body).sublist (hsplit ▸ List.sublist_append_left _ _)
  have hwithin := mem_before_iff source hsplit
  have hsafe := mem_search_safe hfailure (source.textOf (unwrap divisor))
  rw [isRisky_eq_true_iff]
  constructor
  · rintro (⟨hnumber, hzero⟩ | hremote | ⟨hbinary, hminus⟩ | ⟨hname, hunsafe⟩)
    · exact .zero hnumber hzero
    · exact .remote hremote
    · exact .difference hbinary hminus
    · rw [hsafe] at hunsafe
      cases hlast : lastValue? source (source.textOf (unwrap divisor)) (before.map Prod.snd) with
      | none => exact .unbound hname ((lastValue?_eq_none_iff hwithin).mp hlast)
      | some value =>
        rw [hlast] at hunsafe
        exact .untrusted hname value ((lastValue?_eq_some_iff hpart hwithin).mp hlast) hunsafe
  · rintro (⟨hnumber, hzero⟩ | hremote | ⟨hbinary, hminus⟩ | ⟨hname, hfree⟩ |
      ⟨hname, value, hlast, hzero⟩)
    · exact .inl ⟨hnumber, hzero⟩
    · exact .inr (.inl hremote)
    · exact .inr (.inr (.inl ⟨hbinary, hminus⟩))
    · refine .inr (.inr (.inr ⟨hname, ?_⟩))
      rw [hsafe, (lastValue?_eq_none_iff hwithin).mpr hfree]
      exact List.not_mem_nil
    · refine .inr (.inr (.inr ⟨hname, ?_⟩))
      rw [hsafe, (lastValue?_eq_some_iff hpart hwithin).mpr hlast]
      exact hzero

end Split

theorem meetsRisk_events_iff {source : Source} {body : Node}
    (hfailure : (searchBody source body).failure = none) :
    MeetsRisk source .start (events body) ↔
      ∃ path divisor, DivisionAt body path divisor ∧ Risk source body path (unwrap divisor) := by
  have hbefore {before later : List Event} (hes : events body = before ++ later) :
      (search source .start before).failure = none := by
    unfold searchBody at hfailure
    rw [hes] at hfailure
    exact failure_eq_none_of_append hfailure
  constructor
  · rintro ⟨before, whole, divisor, later, hes, hrisk⟩
    have hchronicle := chronicle_events body
    rw [hes, List.map_eq_append_iff] at hchronicle
    obtain ⟨front, back, hsplit, rfl, hback⟩ := hchronicle
    obtain ⟨⟨path, e⟩, rest, rfl, rfl, -⟩ := List.map_eq_cons_iff.mp hback
    have hmem : (path, .division whole divisor) ∈ chronicle body := by rw [hsplit]; simp
    obtain ⟨hat, hkind, hop, hright⟩ := mem_chronicle_division.mp hmem
    exact ⟨path, divisor, ⟨whole, hat, hkind, hop, hright⟩,
      (isRisky_before_iff source hsplit (hbefore hes)).mp hrisk⟩
  · rintro ⟨path, divisor, ⟨whole, hat, hkind, hop, hright⟩, hrisk⟩
    have hmem := mem_chronicle_division.mpr ⟨hat, hkind, hop, hright⟩
    obtain ⟨before, later, hsplit⟩ := List.append_of_mem hmem
    have hes : events body =
        before.map Prod.snd ++ .division whole divisor :: later.map Prod.snd := by
      rw [← chronicle_events, hsplit, List.map_append, List.map_cons]
    exact ⟨before.map Prod.snd, whole, divisor, later.map Prod.snd, hes,
      (isRisky_before_iff source hsplit (hbefore hes)).mpr hrisk⟩

theorem found_eq_ok_iff {o : Outcome} {b : Bool} :
    o.found = .ok b ↔ o.failure = none ∧ b = !o.last.risky.isEmpty := by
  unfold Outcome.found
  cases o.failure with
  | some failure => simp
  | none => simp [eq_comm]

theorem risky_searchBody_iff {source : Source} {body : Node}
    (hfailure : (searchBody source body).failure = none) :
    (!(searchBody source body).last.risky.isEmpty) = true ↔
      ∃ path divisor, DivisionAt body path divisor ∧ Risk source body path (unwrap divisor) := by
  have hrisky := risky_search_ne_nil hfailure
  rw [← meetsRisk_events_iff hfailure]
  simpa [searchBody, Search.start] using hrisky

theorem mem_searchBody_safe {source : Source} {body : Node}
    (hfailure : (searchBody source body).failure = none) (name : String) :
    name ∈ (searchBody source body).last.safe ↔
      ∃ value, LastBinding source body (fun _ => True) name value ∧ Nonzero source value := by
  have hsafe := mem_search_safe hfailure name
  have hlast (value : Option Node) : lastValue? source name (events body) = some value ↔
      LastBinding source body (fun _ => True) name value := by
    rw [← chronicle_events]
    refine lastValue?_eq_some_iff (pairwise_chronicle body) fun path name value => ?_
    rw [true_and, bindingAt_iff]
  cases hv : lastValue? source name (events body) with
  | none =>
    rw [hv] at hsafe
    constructor
    · intro hmem
      exact absurd (hsafe.mp hmem) List.not_mem_nil
    · rintro ⟨value, hl, -⟩
      rw [← hlast value, hv] at hl
      cases hl
  | some value =>
    rw [hv] at hsafe
    constructor
    · intro hmem
      exact ⟨value, (hlast value).mp hv, hsafe.mp hmem⟩
    · rintro ⟨value', hl, hn⟩
      obtain rfl := ((hlast value).mp hv).value_unique hl
      exact hsafe.mpr hn

/-- A search that comes to its end has found a division exactly when the body has one at a place
where its divisor is a risk. The names that it holds for safe are those whose last binding in the
body is to a literal other than zero. -/
theorem searchBody_found_iff {source : Source} {body : Node} {b : Bool}
    (h : (searchBody source body).found = .ok b) :
    (b = true ↔
        ∃ path divisor, DivisionAt body path divisor ∧ Risk source body path (unwrap divisor)) ∧
      (searchBody source body).last.safe.Nodup ∧
      ∀ name, name ∈ (searchBody source body).last.safe ↔
        ∃ value, LastBinding source body (fun _ => True) name value ∧ Nonzero source value := by
  obtain ⟨hfailure, rfl⟩ := found_eq_ok_iff.mp h
  exact ⟨risky_searchBody_iff hfailure, nodup_search_safe List.nodup_nil _,
    mem_searchBody_safe hfailure⟩

/-- In `{let z=5;{let z=x/z;}x/z}` the binding inside the block is the last one to be completed before
the second division, and it takes the safety of the name away for the rest of the body. -/
theorem searchBody_found_shadowed :
    let source := Source.ofText "{let z=5;{let z=x/z;}x/z}"
    let node (kind : String) (field : Option String) (start stop : Nat) (children : List Node) :=
      Node.mk ⟨kind, true, false, false, field, start, stop⟩ children
    let word (field : String) (start : Nat) := node "identifier" (some field) start (start + 1) []
    let quotient (field : Option String) (start : Nat) :=
      node "binary_expression" field start (start + 3)
        [word "left" start, node "/" (some "operator") (start + 1) (start + 2) [],
          word "right" (start + 2)]
    let body := node "block" (some "body") 0 25
      [node "let_declaration" none 1 9
        [word "pattern" 5, node "integer_literal" (some "value") 7 8 []],
      node "block" none 9 21
        [node "let_declaration" none 10 20 [word "pattern" 14, quotient (some "value") 16]],
      quotient none 21]
    (searchBody source body).found = .ok true ∧
      (∃ path divisor, DivisionAt body path divisor ∧ Risk source body path (unwrap divisor)) ∧
      ¬∃ value, LastBinding source body (fun _ => True) "z" value ∧ Nonzero source value := by
  intro source node word quotient body
  have hfound : (searchBody source body).found = .ok true :=
    found_eq_ok_iff.mpr (by decide +kernel)
  have hsafe : (searchBody source body).last.safe = [] := by decide +kernel
  obtain ⟨hrisk, -, hlast⟩ := searchBody_found_iff hfound
  refine ⟨hfound, hrisk.mp rfl, ?_⟩
  rw [← hlast "z", hsafe]
  exact List.not_mem_nil

end AnchorAudit.Division
