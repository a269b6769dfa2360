import AnchorAudit.Check.Accounts
import Mathlib.Data.List.Perm.Basic

/-! Mutable accounts that may be the same. Every field is judged by all constraints of the struct and of
its fields: more fields and fewer constraints never clear a struct. That the order of fields and attributes
does not count is the case of as many of both. -/
namespace AnchorAudit.Accounts
open Text (mentions)

/-- A mutable field that nothing of its own and none of the constraints in force tells apart. -/
structure Exposed (inForce : List String) (f : Field) : Prop where
  isMut : ∃ a ∈ f.accountAttributes, mentions a.tokens "mut" = true
  unmarked : ∀ a ∈ f.accountAttributes, ∀ m ∈ guardMarkers, mentions a.tokens m = false
  uncompared : ∀ c ∈ inForce, f.name ≠ "" → mentions c "!=" = true → mentions c f.name = false

theorem comparesField_eq_false {f : Field} {c : String} :
    comparesField f c = false ↔
      (f.name ≠ "" → mentions c "!=" = true → mentions c f.name = false) := by
  by_cases hname : f.name = ""
  · simp [comparesField, hname]
  · cases hdiffer : mentions c "!=" <;> simp [comparesField, hname, hdiffer]

theorem isNone_guard?_iff {inForce : List String} {f : Field} :
    (guard? inForce f).isNone = true ↔
      (∀ a ∈ f.accountAttributes, guardMarkers.any (mentions a.tokens) = false) ∧
        ∀ c ∈ inForce, comparesField f c = false := by
  unfold guard?
  cases hown : f.accountAttributes.find? fun a => guardMarkers.any (mentions a.tokens) with
  | some a =>
    have hmarked := List.find?_some hown
    have hmem := List.mem_of_find?_eq_some hown
    constructor
    · intro h
      cases h
    · intro h
      rw [h.1 a hmem] at hmarked
      cases hmarked
  | none =>
    rw [List.find?_eq_none] at hown
    simpa using fun _ => hown

theorem exposed_iff {inForce : List String} {f : Field} :
    (isMutable f && (guard? inForce f).isNone) = true ↔ Exposed inForce f := by
  rw [Bool.and_eq_true, isMutable, List.any_eq_true, isNone_guard?_iff]
  constructor
  · rintro ⟨hmut, hown, hothers⟩
    refine ⟨hmut, ?_, fun c hc => comparesField_eq_false.mp (hothers c hc)⟩
    intro a ha m hm
    exact Bool.eq_false_iff.mpr (List.any_eq_false.mp (hown a ha) m hm)
  · intro h
    refine ⟨h.isMut, ?_, fun c hc => comparesField_eq_false.mpr (h.uncompared c hc)⟩
    intro a ha
    exact List.any_eq_false.mpr fun m hm => Bool.eq_false_iff.mp (h.unmarked a ha m hm)

/-- Fewer constraints tell fewer fields apart. -/
theorem Exposed.anti {few many : List String} (h : few ⊆ many) {f : Field} (hf : Exposed many f) :
    Exposed few f :=
  ⟨hf.isMut, hf.unmarked, fun c hc => hf.uncompared c (h hc)⟩

theorem mem_unguarded {attributes : List Attribute} {fields : List Field} {f : Field} :
    f ∈ unguarded attributes fields ↔ f ∈ fields ∧ Exposed (constraints attributes fields) f := by
  rw [unguarded, List.mem_filter, exposed_iff]

/-- Two accounts at two places of the struct: the pair carries that, also where the fields are equal. -/
theorem mayAlias_iff {attributes : List Attribute} {fields : List Field} :
    mayAlias attributes fields = true ↔
      ∃ f g, [f, g].Subperm fields ∧ Exposed (constraints attributes fields) f ∧
        Exposed (constraints attributes fields) g := by
  rw [mayAlias, decide_eq_true_iff]
  constructor
  · intro htwo
    match hfound : unguarded attributes fields with
    | [] => simp [hfound] at htwo
    | [_] => simp [hfound] at htwo
    | f :: g :: rest =>
      have hpair : [f, g].Sublist (unguarded attributes fields) := by
        rw [hfound]
        exact List.sublist_append_left [f, g] rest
      have hf := mem_unguarded.mp (hpair.subset (by simp : f ∈ [f, g]))
      have hg := mem_unguarded.mp (hpair.subset (by simp : g ∈ [f, g]))
      exact ⟨f, g, (hpair.trans List.filter_sublist).subperm, hf.2, hg.2⟩
  · rintro ⟨f, g, hpair, hf, hg⟩
    have hkept : ∀ x ∈ [f, g],
        (isMutable x && (guard? (constraints attributes fields) x).isNone) = true := by
      intro x hx
      rw [exposed_iff]
      rcases List.mem_pair.mp hx with rfl | rfl
      · exact hf
      · exact hg
    have hboth := hpair.filter fun x => isMutable x && (guard? (constraints attributes fields) x).isNone
    rw [List.filter_eq_self.mpr hkept] at hboth
    exact hboth.length_le

/-- More fields and fewer constraints keep the suspicion. -/
theorem mayAlias_mono {attributes attributes' : List Attribute} {fields fields' : List Field}
    (hfields : fields.Subperm fields')
    (hconstraints : constraints attributes' fields' ⊆ constraints attributes fields)
    (h : mayAlias attributes fields = true) : mayAlias attributes' fields' = true := by
  obtain ⟨f, g, hpair, hf, hg⟩ := mayAlias_iff.mp h
  exact mayAlias_iff.mpr ⟨f, g, hpair.trans hfields, hf.anti hconstraints, hg.anti hconstraints⟩

theorem constraints_perm {attributes attributes' : List Attribute} {fields fields' : List Field}
    (ha : attributes.Perm attributes') (hf : fields.Perm fields') :
    (constraints attributes fields).Perm (constraints attributes' fields') :=
  ((ha.append (hf.flatMap_right _)).filter _).map _

theorem constraints_cons_field {f : Field} (h : ∀ a ∈ f.accountAttributes, isConstraint a = false)
    (attributes : List Attribute) (fields : List Field) :
    constraints attributes (f :: fields) = constraints attributes fields := by
  have hnone : f.accountAttributes.filter isConstraint = [] :=
    List.filter_eq_nil_iff.mpr fun a ha => Bool.eq_false_iff.mp (h a ha)
  unfold constraints
  rw [List.flatMap_cons, List.filter_append, List.filter_append, List.filter_append, hnone,
    List.nil_append]

theorem constraints_subset_cons (a : Attribute) (attributes : List Attribute) (fields : List Field) :
    constraints attributes fields ⊆ constraints (a :: attributes) fields := by
  unfold constraints
  apply List.map_subset
  apply List.filter_subset
  exact List.subset_cons_self a _

theorem duplicateMutableAccounts_eq {s : Subject} (hs : s.isStruct = true) :
    duplicateMutableAccounts s = mayAlias s.attributes s.fields := by
  rw [duplicateMutableAccounts, hs, Bool.true_and]

/-- A struct is suspected when two of its fields are exposed. The order of its fields and attributes does
not count, a further field without a constraint never clears it, and a further attribute of the struct
never brings it under suspicion. -/
theorem duplicateMutableAccounts_laws {s t : Subject} (hs : s.isStruct = true)
    (ht : t.isStruct = true) :
    (duplicateMutableAccounts s = true ↔
      ∃ f g, [f, g].Subperm s.fields ∧ Exposed (constraints s.attributes s.fields) f ∧
        Exposed (constraints s.attributes s.fields) g) ∧
    (s.fields.Perm t.fields → s.attributes.Perm t.attributes →
      duplicateMutableAccounts s = duplicateMutableAccounts t) ∧
    (∀ f : Field, (f :: s.fields).Perm t.fields → s.attributes.Perm t.attributes →
      (∀ a ∈ f.accountAttributes, mentions a.tokens "constraint" = false) →
      duplicateMutableAccounts s = true → duplicateMutableAccounts t = true) ∧
    (∀ a : Attribute, s.fields.Perm t.fields → (a :: s.attributes).Perm t.attributes →
      duplicateMutableAccounts s = false → duplicateMutableAccounts t = false) := by
  rw [duplicateMutableAccounts_eq hs, duplicateMutableAccounts_eq ht]
  refine ⟨mayAlias_iff, ?_, ?_, ?_⟩
  · intro hfields hattributes
    have hsame := constraints_perm hattributes hfields
    rw [Bool.eq_iff_iff]
    exact ⟨mayAlias_mono hfields.subperm hsame.symm.subset,
      mayAlias_mono hfields.symm.subperm hsame.subset⟩
  · intro f hfields hattributes hf
    have hsame := constraints_perm hattributes hfields
    rw [constraints_cons_field hf] at hsame
    exact mayAlias_mono (List.Subperm.cons_self.trans hfields.subperm) hsame.symm.subset
  · intro a hfields hattributes
    have hmore : constraints s.attributes s.fields ⊆ constraints t.attributes t.fields :=
      List.Subset.trans (constraints_subset_cons a _ _) (constraints_perm hattributes hfields).subset
    rw [← Bool.not_eq_true, ← Bool.not_eq_true]
    exact mt (mayAlias_mono hfields.symm.subperm hmore)

/-- The fields in the other order, with one more between them that guards itself. -/
theorem duplicateMutableAccounts_laws_three_fields :
    let node (kind : String) (field : Option String) (start stop : Nat) (children : List Node) :=
      Node.mk ⟨kind, true, false, false, field, start, stop⟩ children
    let item (start stop : Nat) :=
      node "attribute_item" none start stop [node "attribute" none (start + 2) (stop - 1) []]
    let field (start : Nat) :=
      node "field_declaration" none start (start + 4)
        [node "field_identifier" (some "name") start (start + 1) [],
         node "type_identifier" (some "type") (start + 3) (start + 4) []]
    let struct (text : String) (members : List Node) : Subject :=
      .placed .struct ⟨.ofText text,
        node "struct_item" none 0 text.length
          [node "field_declaration_list" (some "body") 9 text.length members], []⟩
    let s := struct "struct S \x7b #[account(mut)] a: A, #[account(mut)] b: A \x7d"
      [item 11 26, field 27, item 33 48, field 49]
    let t := struct
      "struct S \x7b #[account(mut)] b: A, #[account(mut, bump)] c: A, #[account(mut)] a: A \x7d"
      [item 11 26, field 27, item 33 54, field 55, item 61 76, field 77]
    let account (name tokens : String) : Field :=
      ⟨name, "A", [⟨"account", tokens, "account(" ++ tokens ++ ")"⟩]⟩
    s.fields = [account "a" "mut", account "b" "mut"] ∧
      t.fields = [account "b" "mut", account "c" "mut, bump", account "a" "mut"] ∧
      duplicateMutableAccounts s = true ∧ duplicateMutableAccounts t = true := by
  intro node item field struct s t account
  have hs : s.fields = [account "a" "mut", account "b" "mut"] := by decide +kernel
  have ht : t.fields = [account "b" "mut", account "c" "mut, bump", account "a" "mut"] := by
    decide +kernel
  have hfields : (account "c" "mut, bump" :: s.fields).Perm t.fields := by
    rw [hs, ht]
    exact List.perm_append_singleton _ [account "c" "mut, bump", account "a" "mut"]
  have hattributes : s.attributes = t.attributes := by decide +kernel
  have hsuspected : duplicateMutableAccounts s = true := by decide +kernel
  have hlaws := duplicateMutableAccounts_laws (s := s) (t := t) rfl rfl
  exact ⟨hs, ht, hsuspected,
    hlaws.2.2.1 _ hfields (.of_eq hattributes) (by decide +kernel) hsuspected⟩

end AnchorAudit.Accounts
