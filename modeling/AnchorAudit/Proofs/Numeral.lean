import AnchorAudit.Numeral
import AnchorAudit.Proofs.Double

/-! Which literals have no value because the integer that they spell is beyond the doubles. -/
namespace AnchorAudit.Numeral

/-- The integer that a literal spells. Literals with a point or an exponent spell none, and are never
out of range: they go to infinity. -/
def integer? (cs : List Char) (isFloat : Bool) : Option Int :=
  let cleaned := cs.filter (· ≠ '_')
  match radix? cleaned with
  | some base => (readRadix? base (dropType integerTypes cleaned)).map Int.ofNat
  | none =>
    if isFloat then none else readInt? (dropType floatTypes (dropType integerTypes cleaned))

theorem finite_eq (n : Int) : finite n =
    if Double.leastOverflow ≤ n.natAbs then .error .tooLarge else .ok (Double.ofInt n) := by
  unfold finite
  by_cases hinfinite : (Double.ofInt n).isInfinite = true
  · rw [if_pos ((Double.isInfinite_ofInt n).mp hinfinite), if_pos hinfinite]
  · rw [if_neg (fun h => hinfinite ((Double.isInfinite_ofInt n).mpr h)), if_neg hinfinite]

theorem finite_eq_error_iff {n : Int} :
    finite n = .error .tooLarge ↔ Double.leastOverflow ≤ n.natAbs := by
  rw [finite_eq]
  by_cases hlarge : Double.leastOverflow ≤ n.natAbs <;> simp [hlarge]

theorem value_eq_of_integer? {text : String} {n : Int} {isFloat : Bool}
    (h : integer? text.toList isFloat = some n) : value text isFloat = (finite n).map some := by
  unfold integer? at h
  unfold value
  generalize text.toList.filter (· ≠ '_') = cleaned at h ⊢
  dsimp only at h ⊢
  cases hradix : radix? cleaned with
  | some base =>
    rw [hradix] at h
    obtain ⟨k, hk, rfl⟩ := Option.map_eq_some_iff.mp h
    dsimp only
    rw [hk]
    rfl
  | none =>
    rw [hradix] at h
    cases isFloat with
    | true => cases h
    | false =>
      have hread : readInt? (dropType floatTypes (dropType integerTypes cleaned)) = some n := h
      dsimp only
      rw [hread]
      rfl

theorem value_eq_error_iff {text : String} {isFloat : Bool} :
    value text isFloat = .error .tooLarge ↔
      ∃ n, integer? text.toList isFloat = some n ∧ Double.leastOverflow ≤ n.natAbs := by
  have hfinite (n : Int) : (finite n).map some = .error .tooLarge ↔
      Double.leastOverflow ≤ n.natAbs := by
    rw [← finite_eq_error_iff]
    cases finite n <;> simp [Except.map]
  unfold value integer?
  generalize text.toList.filter (· ≠ '_') = cleaned
  dsimp only
  cases radix? cleaned with
  | some base =>
    cases hread : readRadix? base (dropType integerTypes cleaned) with
    | none => simp [hread]
    | some n => simpa [hread] using hfinite n
  | none =>
    cases isFloat with
    | true => simp
    | false =>
      cases hread : readInt? (dropType floatTypes (dropType integerTypes cleaned)) with
      | none => simp
      | some n => simpa using hfinite n

theorem nonzero?_eq_error_iff {text : String} {isFloat : Bool} :
    nonzero? text isFloat = .error .tooLarge ↔
      ∃ n, integer? text.toList isFloat = some n ∧ Double.leastOverflow ≤ n.natAbs := by
  have hmap : nonzero? text isFloat = .error .tooLarge ↔ value text isFloat = .error .tooLarge := by
    unfold nonzero?
    cases value text isFloat <;> simp [Except.map]
  rw [hmap, value_eq_error_iff]

end AnchorAudit.Numeral
