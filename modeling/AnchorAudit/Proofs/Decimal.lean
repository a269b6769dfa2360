import AnchorAudit.Proofs.Lines

/-! Numbers in a text. A number ends where no digit follows, so numbers that come with a sign before each
of them can be told apart. -/
namespace AnchorAudit.Text

theorem toList_toString_of_nonneg {n : Int} (hn : 0 ≤ n) :
    (toString n).toList = Nat.toDigits 10 n.toNat := by
  rw [Int.toString_eq_repr, Int.repr_eq_if, if_pos hn, Nat.toList_repr]

theorem toList_toString_nat (n : Nat) : (toString n).toList = Nat.toDigits 10 n := Nat.toList_repr

def endsNumber (rest : List Char) : Bool := rest.head?.all (!·.isDigit)

def leadingNumber (cs : List Char) : Nat × List Char :=
  (Nat.ofDigitChars 10 (cs.takeWhile Char.isDigit) 0, cs.dropWhile Char.isDigit)

theorem leadingNumber_toDigits {rest : List Char} (hrest : endsNumber rest = true) (n : Nat) :
    leadingNumber (Nat.toDigits 10 n ++ rest) = (n, rest) := by
  have hdigits (c : Char) (hc : c ∈ Nat.toDigits 10 n) : c.isDigit = true :=
    Nat.isDigit_of_mem_toDigits (by decide) (by decide) hc
  obtain ⟨hrun, hafter⟩ := run_append hdigits hrest
  rw [leadingNumber, hrun, hafter, Nat.ofDigitChars_ten_toDigits]

def signed (marks : List (Char × Nat)) : List Char :=
  marks.flatMap fun mark => mark.1 :: Nat.toDigits 10 mark.2

theorem signed_nil : signed [] = [] := rfl

theorem signed_cons (sign : Char) (n : Nat) (marks : List (Char × Nat)) :
    signed ((sign, n) :: marks) = sign :: (Nat.toDigits 10 n ++ signed marks) :=
  List.flatMap_cons

theorem endsNumber_signed {marks : List (Char × Nat)} (h : ∀ mark ∈ marks, mark.1.isDigit = false) :
    endsNumber (signed marks) = true := by
  cases marks with
  | nil => rfl
  | cons mark marks =>
    have hsign : mark.1.isDigit = false := h mark List.mem_cons_self
    rw [signed_cons, endsNumber, List.head?_cons, Option.all_some, hsign]
    rfl

theorem signed_injective {xs ys : List (Char × Nat)} (hxs : ∀ mark ∈ xs, mark.1.isDigit = false)
    (hys : ∀ mark ∈ ys, mark.1.isDigit = false) (h : signed xs = signed ys) : xs = ys := by
  induction xs generalizing ys with
  | nil =>
    cases ys with
    | nil => rfl
    | cons mark ys => cases h
  | cons x xs ih =>
    cases ys with
    | nil => cases h
    | cons y ys =>
      rw [List.forall_mem_cons] at hxs hys
      rw [signed_cons, signed_cons, List.cons.injEq] at h
      have hread := congrArg leadingNumber h.2
      rw [leadingNumber_toDigits (endsNumber_signed hxs.2),
        leadingNumber_toDigits (endsNumber_signed hys.2), Prod.mk.injEq] at hread
      have hmark : x = y := Prod.ext h.1 hread.1
      rw [hmark, ih hxs.2 hys.2 hread.2]

end AnchorAudit.Text
