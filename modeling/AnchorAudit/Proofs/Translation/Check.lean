import AnchorAudit.Check
import AnchorAudit.Proofs.Query
import AnchorAudit.Proofs.Translation.Division
import Mathlib.Tactic.SplitIfs

/-! Queries and checks on a text that comes later in a longer one: they select the same subjects, each
at its new place. -/
namespace AnchorAudit

variable (front : List UInt8)

def SyntaxFile.after (file : SyntaxFile) : SyntaxFile :=
  ⟨file.path, file.source.after front, file.root.shift front.length⟩

def Subject.IsPlaced (s : Subject) : Prop := ∃ role p, s = .placed role p

namespace Owner

theorem speaksOfOwner_after (source : Source) (n : Node) :
    speaksOfOwner (source.after front) (n.shift front.length) = speaksOfOwner source n := by
  simp [speaksOfOwner]

theorem ownerEvidence?_after (source : Source) (n : Node) :
    ownerEvidence? (source.after front) (n.shift front.length) = ownerEvidence? source n := by
  have hcompares : comparesOwner (source.after front) (n.shift front.length) =
      comparesOwner source n := by
    simp [comparesOwner, speaksOfOwner_after, Option.any_map]
  have hmacro : ((n.shift front.length).child? "macro").map (source.after front).textOf =
      (n.child? "macro").map source.textOf := by
    simp [Function.comp_def]
  have htokens : ((n.shift front.length).namedOfKind "token_tree").any
      (speaksOfOwner (source.after front)) =
        (n.namedOfKind "token_tree").any (speaksOfOwner source) := by
    simp [Function.comp_def, speaksOfOwner_after]
  unfold ownerEvidence?
  rw [Node.kind_shift, hcompares, hmacro, htokens]

theorem ownerEvidence_after (source : Source) (body : Node) :
    ownerEvidence (source.after front) (body.shift front.length) = ownerEvidence source body := by
  unfold ownerEvidence
  rw [Node.subtree_shift, List.filterMap_map]
  simp only [Function.comp_def, ownerEvidence?_after]

theorem bodyEvidence_after (s : Subject) : bodyEvidence (s.after front) = bodyEvidence s := by
  have hbody := s.body_reading_after front ownerEvidence (ownerEvidence_after front)
  have hread (t : Subject) : bodyEvidence t = (t.body?.map (ownerEvidence t.source)).getD [] := by
    unfold bodyEvidence
    cases t.body? <;> rfl
  rw [hread, hread, hbody]

end Owner

/-- A check does not see what stands before the text. -/
theorem Check.verdict_after (check : Check) (s : Subject) :
    check.verdict (s.after front) = check.verdict s := by
  cases check with
  | derivesAccounts => simp [verdict, Accounts.derivesAccounts]
  | duplicateMutableAccounts => simp [verdict, Accounts.duplicateMutableAccounts]
  | missingSignerChecks => simp [verdict, Accounts.missingSignerChecks]
  | ownerCheck => simp [verdict, Owner.ownerCheck, Owner.bodyEvidence_after]
  | anchorInstruction => simp [verdict, Interface.anchorInstruction, Interface.isPublicFunction]
  | riskyDivision => rw [verdict, verdict, Division.riskyDivision_after]
  | missingErrorHandling =>
    simp [verdict, Interface.missingErrorHandling, Interface.isPublicFunction]

namespace Query

theorem containsUnsafe_after (source : Source) (n : Node) :
    containsUnsafe (source.after front) (n.shift front.length) = containsUnsafe source n := by
  simp [containsUnsafe, Function.comp_def, hasUnsafeModifier_after]

theorem usesUnsafeCode_after (s : Subject) :
    usesUnsafeCode (s.after front) = usesUnsafeCode s := by
  cases s with
  | placed role p =>
    by_cases hrole : role = .block
    · subst hrole
      exact containsUnsafe_after front p.source p.node
    · have hfunction (q : Place) : usesUnsafeCode (.placed role q) = (role.isFunction &&
          ((Subject.placed role q).isUnsafeFunction ||
            (((Subject.placed role q).body?.map (containsUnsafe q.source)).getD false))) := by
        cases role with
        | block => exact absurd rfl hrole
        | _ =>
          unfold usesUnsafeCode
          dsimp only [Subject.source]
          cases Subject.body? _ <;> rfl
      have hunsafe := Subject.isUnsafeFunction_after front (.placed role p)
      have hbody := (Subject.placed role p).body_reading_after front containsUnsafe
        (containsUnsafe_after front)
      rw [Subject.after] at hunsafe hbody ⊢
      rw [hfunction, hfunction, hunsafe]
      exact congrArg (fun found => role.isFunction && (_ || found.getD false)) hbody
  | other name => rfl

def after (q : Query) : Query := { q with subjects := q.subjects.map (.after front) }

theorem methodsOf_after (source : Source) (item : Node) :
    methodsOf (source.after front) (item.shift front.length) =
      (methodsOf source item).map (.after front) := by
  have hamong (places : List Place) : methodsAmong (places.map (.after front)) =
      (methodsAmong places).map (.after front) := by
    simp [methodsAmong, List.filter_map, Function.comp_def, Place.after, Subject.after]
  unfold methodsOf
  rw [Node.child?_shift]
  cases item.child? "body" with
  | none => rfl
  | some body =>
    have hside := Place.side_after front source [] body.children
    rw [List.map_nil] at hside
    rw [Option.map_some]
    dsimp only
    rw [Node.children_shift, hside, hamong]

mutual

theorem functionsIn_after (source : Source) : ∀ n,
    functionsIn (source.after front) (n.shift front.length) =
      (functionsIn source n).map (.after front)
  | .mk l cs => by
    rw [Node.shift, functionsIn, functionsIn]
    exact functionsAmong_after source [] cs

theorem functionsAmong_after (source : Source) : ∀ before cs,
    functionsAmong (source.after front) (before.map (.shift front.length))
        (Node.shiftAll front.length cs) =
      (functionsAmong source before cs).map (.after front)
  | _, [] => rfl
  | before, c :: cs => by
    have hrest := functionsAmong_after source (c :: before) cs
    rw [List.map_cons] at hrest
    rw [Node.shiftAll, functionsAmong, functionsAmong, hrest, Node.isNamed_shift, Node.kind_shift,
      functionsOfModule_after source c, methodsOf_after, List.map_append]
    congr 1
    split_ifs <;> rfl

theorem functionsOfModule_after (source : Source) : ∀ n,
    functionsOfModule (source.after front) (n.shift front.length) =
      (functionsOfModule source n).map (.after front)
  | .mk l cs => by
    rw [Node.shift, functionsOfModule, functionsOfModule]
    exact functionsOfBody_after source cs

theorem functionsOfBody_after (source : Source) : ∀ cs,
    functionsOfBody (source.after front) (Node.shiftAll front.length cs) =
      (functionsOfBody source cs).map (.after front)
  | [] => rfl
  | c :: cs => by
    rw [Node.shiftAll, functionsOfBody, functionsOfBody, functionsIn_after source c,
      functionsOfBody_after source cs, Node.label_shift, Node.field_shift]
    split_ifs <;> rfl

end

theorem structsIn_after (source : Source) (container : Node) :
    structsIn (source.after front) (container.shift front.length) =
      (structsIn source container).map (.after front) := by
  have hside := Place.side_after front source [] container.children
  rw [List.map_nil] at hside
  unfold structsIn
  rw [Node.children_shift, hside]
  simp [List.filter_map, Function.comp_def, Place.after, Subject.after]

theorem functions_after (dialect : Dialect) (file : SyntaxFile) :
    (ofFile dialect (file.after front)).functions = (ofFile dialect file).functions.after front := by
  simp [functions, fromFiles, ofFile, after, SyntaxFile.after, functionsIn_after]

theorem structs_after (dialect : Dialect) (file : SyntaxFile) :
    (ofFile dialect (file.after front)).structs = (ofFile dialect file).structs.after front := by
  simp [structs, fromFiles, ofFile, after, SyntaxFile.after, structsIn_after]

theorem usesUnsafe_after (q : Query) : (q.after front).usesUnsafe = q.usesUnsafe.after front := by
  simp [usesUnsafe, narrow, after, List.filter_map, Function.comp_def, usesUnsafeCode_after]

theorem having_after (check : Check) (q : Query) :
    (q.after front).having check = (q.having check).map (after front) := by
  have hverdict : check.verdict ∘ Subject.after front = check.verdict :=
    funext fun s => check.verdict_after front s
  unfold having narrowM
  rw [after, filterM_map, hverdict]
  cases q.subjects.filterM check.verdict <;> rfl

mutual

theorem placed_functionsIn (source : Source) : ∀ n, ∀ s ∈ functionsIn source n, s.IsPlaced
  | .mk l cs => by
    rw [functionsIn]
    exact placed_functionsAmong source [] cs

theorem placed_functionsAmong (source : Source) :
    ∀ before cs, ∀ s ∈ functionsAmong source before cs, s.IsPlaced
  | _, [] => List.forall_mem_nil _
  | before, c :: cs => by
    have hmethods : ∀ s ∈ methodsOf source c, s.IsPlaced := by
      intro s hs
      unfold methodsOf at hs
      split at hs
      · obtain ⟨p, -, rfl⟩ := List.mem_map.mp hs
        exact ⟨_, p, rfl⟩
      · cases hs
    rw [functionsAmong, List.forall_mem_append]
    refine ⟨?_, placed_functionsAmong source (c :: before) cs⟩
    split_ifs
    · exact List.forall_mem_nil _
    · exact List.forall_mem_singleton.mpr ⟨_, _, rfl⟩
    · exact placed_functionsOfModule source c
    · exact hmethods
    · exact List.forall_mem_nil _

theorem placed_functionsOfModule (source : Source) :
    ∀ n, ∀ s ∈ functionsOfModule source n, s.IsPlaced
  | .mk l cs => by
    rw [functionsOfModule]
    exact placed_functionsOfBody source cs

theorem placed_functionsOfBody (source : Source) :
    ∀ cs, ∀ s ∈ functionsOfBody source cs, s.IsPlaced
  | [] => List.forall_mem_nil _
  | c :: cs => by
    rw [functionsOfBody]
    split_ifs
    · exact placed_functionsIn source c
    · exact placed_functionsOfBody source cs

end

def Placed (q : Query) : Prop := ∀ s ∈ q.subjects, s.IsPlaced

theorem Placed.fromFiles {find : Source → Node → List Subject}
    (hfind : ∀ source n, ∀ s ∈ find source n, s.IsPlaced) (q : Query) : (q.fromFiles find).Placed := by
  intro s hs
  obtain ⟨t, -, hs⟩ := List.mem_flatMap.mp hs
  split at hs
  · exact hfind _ _ s hs
  · cases hs

theorem placed_functions (q : Query) : q.functions.Placed := .fromFiles placed_functionsIn q

theorem placed_structs (q : Query) : q.structs.Placed := by
  refine .fromFiles (fun source n s hs => ?_) q
  obtain ⟨p, -, rfl⟩ := List.mem_map.mp hs
  exact ⟨_, p, rfl⟩

theorem Placed.having {q r : Query} (hq : q.Placed) {check : Check} (h : q.having check = .ok r) :
    r.Placed := fun s hs => hq s ((sublist_of_having_eq_ok h).subset hs)

end Query

end AnchorAudit
