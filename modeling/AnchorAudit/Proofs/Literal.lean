import AnchorAudit.Check.Division
import AnchorAudit.Proofs.Numeral
import Mathlib.Data.List.Infix
import Mathlib.Data.Nat.Digits.Defs

/-! Integer literals as they are written, and the exact number that each of them is read as. The digits
of the largest base overlap with the letters of the types, so that no digit may be taken for a type. -/
namespace AnchorAudit.Numeral

inductive Radix where
  | decimal
  | hexadecimal
  | octal
  | binary
  deriving DecidableEq

namespace Radix

def base : Radix → Nat
  | decimal => 10
  | hexadecimal => 16
  | octal => 8
  | binary => 2

def mark : Radix → List Char
  | decimal => []
  | hexadecimal => ['0', 'x']
  | octal => ['0', 'o']
  | binary => ['0', 'b']

def integerSuffixes : List String :=
  ["i", "u"].flatMap fun sign => ["8", "16", "32", "64", "128", "size"].map (sign ++ ·)

def floatSuffixes : List String := ["f32", "f64"]

/-- What may follow the digits. Only a decimal number can be given the type of a float. -/
def suffixes : Radix → List String
  | decimal => "" :: integerSuffixes ++ floatSuffixes
  | _ => "" :: integerSuffixes

theorem suffixes_subset (r : Radix) : r.suffixes ⊆ decimal.suffixes := by
  cases r <;> decide

end Radix

def digitOf? (c : Char) : Option Nat :=
  ("0123456789abcdef".toList.idxOf? c).or ("0123456789ABCDEF".toList.idxOf? c)

/-- An integer literal. Underscores stand anywhere among the digits and after them. -/
structure Literal where
  radix : Radix
  digits : List Char
  suffix : String
  digit_or_underscore : ∀ c ∈ digits, c = '_' ∨ ∃ d ∈ digitOf? c, d < radix.base
  exists_digit : ∃ c ∈ digits, c ≠ '_'
  suffix_mem : suffix ∈ radix.suffixes
  length_le : radix = .decimal → (digits.filter (· ≠ '_')).length ≤ 4300

def digitChars : List Char := "0123456789abcdefABCDEF".toList

theorem mem_digitChars {c : Char} {d : Nat} (h : d ∈ digitOf? c) : c ∈ digitChars := by
  by_contra hc
  have hlower : c ∉ "0123456789abcdef".toList := fun hmem =>
    hc ((by decide : "0123456789abcdef".toList ⊆ digitChars) hmem)
  have hupper : c ∉ "0123456789ABCDEF".toList := fun hmem =>
    hc ((by decide : "0123456789ABCDEF".toList ⊆ digitChars) hmem)
  have hnone : digitOf? c = none := by
    unfold digitOf?
    rw [List.idxOf?_eq_none_iff.mpr hlower, List.idxOf?_eq_none_iff.mpr hupper]
    rfl
  rw [hnone] at h
  cases h

theorem hexValue?_eq_digitOf? {c : Char} (h : c ∈ digitChars) : hexValue? c = digitOf? c := by
  have hall : digitChars.all (fun c => hexValue? c == digitOf? c) = true := by decide +kernel
  exact eq_of_beq (List.all_eq_true.mp hall c h)

theorem digit?_eq_some {base d : Nat} {c : Char} (h : d ∈ digitOf? c) (hd : d < base) :
    digit? base c = some d := by
  unfold digit?
  rw [hexValue?_eq_digitOf? (mem_digitChars h), Option.mem_def.mp h]
  simp [hd]

theorem ofDigits_eq (base : Nat) (ds : List Nat) : ofDigits base ds = Nat.ofDigits base ds.reverse := by
  rw [Nat.ofDigits_eq_foldr, List.foldr_reverse]
  unfold ofDigits
  congr 1
  funext n d
  simp only [Nat.cast_id]
  ring

theorem body_eq_self {cs : List Char} (h : ∀ c ∈ cs, isNumberBlank c = false) : body cs = cs := by
  have hkeep (ds : List Char) (hds : ∀ c ∈ ds, isNumberBlank c = false) :
      ds.dropWhile isNumberBlank = ds := by
    cases ds with
    | nil => rfl
    | cons d ds => rw [List.dropWhile_cons_of_neg (by simp [hds d List.mem_cons_self])]
  unfold body
  rw [hkeep cs h, hkeep cs.reverse (fun c hc => h c (List.mem_reverse.mp hc)), List.reverse_reverse]

theorem radix?_eq_none {cs : List Char} (h : ∀ c ∈ cs, "xXoObB".toList.contains c = false) :
    radix? cs = none := by
  unfold radix?
  split
  · rename_i c rest
    have hc := h c (by simp)
    simp_all
  · rfl

theorem splitSign_eq {cs : List Char} (hminus : '-' ∉ cs) (hplus : '+' ∉ cs) :
    splitSign cs = (false, cs) := by
  unfold splitSign
  split <;> simp_all

section Types
variable {types : List String} {front : List Char} {t : String}
  (hletter : ∀ s ∈ types, ∃ c, s.toList.head? = some c ∧ c ∉ front)
  (hends : ∀ s ∈ types, s.toList <:+ t.toList → s = t)
include hletter hends

theorem eq_of_suffix_append {s : String} (hs : s ∈ types) (hsuffix : s.toList <:+ front ++ t.toList) :
    s = t := by
  rcases List.suffix_or_suffix_of_suffix hsuffix (List.suffix_append front t.toList) with h | h
  · exact hends s hs h
  · obtain ⟨extra, hextra⟩ := h
    obtain ⟨before, hbefore⟩ := hsuffix
    have hfront : before ++ extra = front := by
      rw [← hextra, ← List.append_assoc] at hbefore
      exact List.append_cancel_right hbefore
    cases extra with
    | nil => exact String.toList_inj.mp hextra.symm
    | cons e extra =>
      obtain ⟨c, hc, hnot⟩ := hletter s hs
      have he : e = c := by simpa [← hextra] using hc
      refine absurd ?_ hnot
      rw [← hfront, ← he]
      simp

/-- A type is dropped whole, and nothing else is: `front` has none of the letters that types begin
with, and no other type ends the one that is there. -/
theorem dropType_append (hline : '\n' ∉ front ++ t.toList) :
    dropType types (front ++ t.toList) = if t ∈ types then front else front ++ t.toList := by
  have hlast : (front ++ t.toList).getLast? ≠ some '\n' := fun h =>
    hline (List.mem_of_getLast? h)
  unfold dropType
  rw [if_neg hlast]
  dsimp only
  by_cases ht : t ∈ types
  · have hfind : types.find? (·.toList.isSuffixOf (front ++ t.toList)) = some t := by
      cases hfound : types.find? (·.toList.isSuffixOf (front ++ t.toList)) with
      | none =>
        have hno := List.find?_eq_none.mp hfound t ht
        exact absurd (List.isSuffixOf_iff_suffix.mpr (List.suffix_append front t.toList)) hno
      | some s =>
        have hs := List.find?_some hfound
        rw [eq_of_suffix_append hletter hends (List.mem_of_find?_eq_some hfound)
          (List.isSuffixOf_iff_suffix.mp hs)]
    rw [hfind, if_pos ht]
    simp [← String.length_toList]
  · have hfind : types.find? (·.toList.isSuffixOf (front ++ t.toList)) = none := by
      rw [List.find?_eq_none]
      intro s hs hsuffix
      have hst := eq_of_suffix_append hletter hends hs (List.isSuffixOf_iff_suffix.mp hsuffix)
      exact ht (hst ▸ hs)
    rw [hfind, if_neg ht]

end Types

namespace Literal
variable (l : Literal)

def text : String := .ofList (l.radix.mark ++ l.digits ++ l.suffix.toList)

def number : Nat := Nat.ofDigits l.radix.base (l.digits.filterMap digitOf?).reverse

def plain : List Char := l.digits.filter (· ≠ '_')

/-- The literal without its underscores and its type. -/
def front : List Char := l.radix.mark ++ l.plain

theorem filter_text : l.text.toList.filter (· ≠ '_') = l.front ++ l.suffix.toList := by
  have hmark : l.radix.mark.filter (· ≠ '_') = l.radix.mark := by cases l.radix <;> decide
  have hsuffix : ∀ t ∈ Radix.decimal.suffixes, t.toList.filter (· ≠ '_') = t.toList := by decide
  unfold text front plain
  rw [String.toList_ofList, List.filter_append, List.filter_append, hmark,
    hsuffix l.suffix (l.radix.suffixes_subset l.suffix_mem)]

variable {l}

theorem digit_of_mem_plain {c : Char} (h : c ∈ l.plain) : ∃ d ∈ digitOf? c, d < l.radix.base := by
  obtain ⟨hmem, hne⟩ := List.mem_filter.mp h
  exact (l.digit_or_underscore c hmem).resolve_left (by simpa using hne)

theorem plain_ne_nil : l.plain ≠ [] := by
  obtain ⟨c, hmem, hne⟩ := l.exists_digit
  exact List.ne_nil_of_mem (List.mem_filter.mpr ⟨hmem, by simpa using hne⟩)

theorem mem_of_mem_front {c : Char} (h : c ∈ l.front) : c ∈ 'x' :: 'o' :: digitChars := by
  rcases List.mem_append.mp h with hmark | hplain
  · have hall : ∀ r : Radix, r.mark ⊆ 'x' :: 'o' :: digitChars := by
      intro r
      cases r <;> decide
    exact hall l.radix hmark
  · obtain ⟨d, hd, -⟩ := digit_of_mem_plain hplain
    exact List.mem_cons_of_mem _ (List.mem_cons_of_mem _ (mem_digitChars hd))

theorem mem_decimals_of_mem_plain (hradix : l.radix = .decimal) {c : Char} (h : c ∈ l.plain) :
    c ∈ "0123456789".toList := by
  have hall : digitChars.all (fun c =>
      (digitOf? c).all (10 ≤ ·) || "0123456789".toList.contains c) = true := by decide +kernel
  obtain ⟨d, hd, hlt⟩ := digit_of_mem_plain h
  have hc := List.all_eq_true.mp hall c (mem_digitChars hd)
  rw [hradix] at hlt
  have hsmall : ¬ 10 ≤ d := Nat.not_le.mpr hlt
  rw [Option.mem_def.mp hd, Option.all_some, decide_eq_false hsmall, Bool.false_or] at hc
  exact List.contains_iff_mem.mp hc

theorem front_of_decimal (hradix : l.radix = .decimal) : l.front = l.plain := by
  unfold front
  rw [hradix]
  rfl

theorem body_front : body l.front = l.front := by
  have hall : ('x' :: 'o' :: digitChars).all (!isNumberBlank ·) = true := by decide +kernel
  refine body_eq_self fun c hc => ?_
  simpa using List.all_eq_true.mp hall c (mem_of_mem_front hc)

section Types
variable {t : String} (ht : t ∈ Radix.decimal.suffixes)
include ht

theorem newline_notMem : '\n' ∉ l.front ++ t.toList := by
  have hall : ∀ t ∈ Radix.decimal.suffixes, '\n' ∉ t.toList := by decide
  intro h
  rcases List.mem_append.mp h with hfront | hsuffix
  · exact absurd (mem_of_mem_front hfront) (by decide)
  · exact hall t ht hsuffix

theorem dropType_integerTypes : dropType integerTypes (l.front ++ t.toList) =
    if t ∈ integerTypes then l.front else l.front ++ t.toList := by
  have hhead : ∀ s ∈ integerTypes, s.toList.head? = some 'i' ∨ s.toList.head? = some 'u' := by
    decide
  have hends : ∀ t ∈ Radix.decimal.suffixes, ∀ s ∈ integerTypes,
      s.toList <:+ t.toList → s = t := by decide +kernel
  refine dropType_append (fun s hs => ?_) (hends t ht) (newline_notMem ht)
  rcases hhead s hs with h | h
  · exact ⟨'i', h, fun hmem => absurd (mem_of_mem_front hmem) (by decide)⟩
  · exact ⟨'u', h, fun hmem => absurd (mem_of_mem_front hmem) (by decide)⟩

/-- In the largest base `f` is a digit, so that this holds of decimal numbers only. -/
theorem dropType_floatTypes (hradix : l.radix = .decimal) :
    dropType floatTypes (l.front ++ t.toList) =
      if t ∈ floatTypes then l.front else l.front ++ t.toList := by
  have hhead : ∀ s ∈ floatTypes, s.toList.head? = some 'f' := by decide
  have hends : ∀ t ∈ Radix.decimal.suffixes, ∀ s ∈ floatTypes,
      s.toList <:+ t.toList → s = t := by decide +kernel
  refine dropType_append (fun s hs => ⟨'f', hhead s hs, ?_⟩) (hends t ht) (newline_notMem ht)
  rw [front_of_decimal hradix]
  exact fun hmem => absurd (mem_decimals_of_mem_plain hradix hmem) (by decide)

end Types

theorem readNat?_plain : readNat? l.radix.base l.plain = some l.number := by
  have hmapM (cs : List Char) (h : ∀ c ∈ cs, ∃ d ∈ digitOf? c, d < l.radix.base) :
      cs.mapM (digit? l.radix.base) = some (cs.filterMap digitOf?) := by
    induction cs with
    | nil => rfl
    | cons c cs ih =>
      obtain ⟨d, hd, hlt⟩ := h c List.mem_cons_self
      rw [List.mapM_cons, digit?_eq_some hd hlt, ih fun c' hc' => h c' (List.mem_cons_of_mem c hc'),
        List.filterMap_cons_some hd]
      rfl
  have hunderscores : l.plain.filterMap digitOf? = l.digits.filterMap digitOf? := by
    have hnone : digitOf? '_' = none := by decide
    unfold plain
    rw [List.filterMap_filter]
    refine List.filterMap_congr fun c _ => ?_
    by_cases hc : c = '_' <;> simp [hc, hnone]
  have hnonempty : l.plain.isEmpty = false := by simpa using plain_ne_nil
  unfold readNat? number
  rw [hnonempty, hmapM l.plain fun c hc => digit_of_mem_plain hc, hunderscores, ← ofDigits_eq]
  rfl

theorem integer?_of_marked (hradix : l.radix ≠ .decimal) :
    integer? l.text.toList false = some (l.number : Int) := by
  have hbase : radix? (l.front ++ l.suffix.toList) = some l.radix.base := by
    unfold front
    cases hr : l.radix with
    | decimal => exact absurd hr hradix
    | hexadecimal | octal | binary => rfl
  have hmark : l.front.drop 2 = l.plain := by
    unfold front
    cases hr : l.radix with
    | decimal => exact absurd hr hradix
    | hexadecimal | octal | binary => rfl
  have hdrop : dropType integerTypes (l.front ++ l.suffix.toList) = l.front := by
    have hall : ∀ t ∈ Radix.binary.suffixes, t ∈ integerTypes ∨ t = "" := by decide
    have hsuffix : l.suffix ∈ Radix.binary.suffixes := by
      have hmem := l.suffix_mem
      cases hr : l.radix with
      | decimal => exact absurd hr hradix
      | hexadecimal | octal | binary => rwa [hr] at hmem
    rw [dropType_integerTypes (l.radix.suffixes_subset l.suffix_mem)]
    rcases hall l.suffix hsuffix with h | h
    · exact if_pos h
    · simp [h]
  unfold integer?
  dsimp only
  rw [filter_text, hbase]
  dsimp only
  rw [hdrop, readRadix?, body_front, hmark, readNat?_plain]
  rfl

section Decimal
variable (hradix : l.radix = .decimal)
include hradix

theorem radix?_of_decimal : radix? (l.front ++ l.suffix.toList) = none := by
  have htypes : ∀ t ∈ Radix.decimal.suffixes,
      t.toList.all (!"xXoObB".toList.contains ·) = true := by decide +kernel
  have hdigits : "0123456789".toList.all (!"xXoObB".toList.contains ·) = true := by decide +kernel
  refine radix?_eq_none fun c hc => ?_
  rw [front_of_decimal hradix] at hc
  rw [← Bool.not_eq_true']
  rcases List.mem_append.mp hc with hc | hc
  · exact List.all_eq_true.mp hdigits c (mem_decimals_of_mem_plain hradix hc)
  · have hsuffix := l.radix.suffixes_subset l.suffix_mem
    exact List.all_eq_true.mp (htypes l.suffix hsuffix) c hc

theorem dropTypes_of_decimal :
    dropType floatTypes (dropType integerTypes (l.front ++ l.suffix.toList)) = l.front := by
  have hall : ∀ t ∈ Radix.decimal.suffixes, t ∈ integerTypes ∨ t ∈ floatTypes ∨ t = "" := by
    decide
  have hsuffix : l.suffix ∈ Radix.decimal.suffixes := l.radix.suffixes_subset l.suffix_mem
  rw [dropType_integerTypes hsuffix]
  by_cases hinteger : l.suffix ∈ integerTypes
  · have hempty := dropType_floatTypes (l := l) (t := "") (by decide) hradix
    rw [if_pos hinteger]
    simpa [floatTypes] using hempty
  · rw [if_neg hinteger, dropType_floatTypes hsuffix hradix]
    rcases (hall l.suffix hsuffix).resolve_left hinteger with h | h
    · exact if_pos h
    · simp [h]

theorem integer?_of_decimal : integer? l.text.toList false = some (l.number : Int) := by
  have hsign : splitSign l.plain = (false, l.plain) := by
    apply splitSign_eq
    · exact fun h => absurd (mem_decimals_of_mem_plain hradix h) (by decide)
    · exact fun h => absurd (mem_decimals_of_mem_plain hradix h) (by decide)
  have hlength : ¬ digitLimit < l.plain.length := Nat.not_lt.mpr (l.length_le hradix)
  have hread : readNat? 10 l.plain = some l.number := by
    have h := readNat?_plain (l := l)
    rwa [hradix] at h
  unfold integer?
  dsimp only
  rw [filter_text, radix?_of_decimal hradix]
  dsimp only
  rw [dropTypes_of_decimal hradix, if_neg Bool.false_ne_true, readInt?, body_front,
    front_of_decimal hradix, hsign]
  dsimp only
  rw [if_neg hlength, hread]
  rfl

end Decimal

theorem integer?_text : integer? l.text.toList false = some (l.number : Int) := by
  by_cases hradix : l.radix = .decimal
  · exact integer?_of_decimal hradix
  · exact integer?_of_marked hradix

theorem isZero_number : (Double.ofInt l.number).isZero = true ↔ l.number = 0 := by
  rw [Double.isZero_ofInt, Int.natCast_eq_zero]

theorem value_text : value l.text false =
    if Double.leastOverflow ≤ l.number then .error .tooLarge
    else .ok (some (Double.ofInt l.number)) := by
  rw [value_eq_of_integer? integer?_text, finite_eq, Int.natAbs_natCast]
  split <;> rfl

theorem nonzero?_text : nonzero? l.text false =
    if Double.leastOverflow ≤ l.number then .error .tooLarge
    else .ok (some (decide (l.number ≠ 0))) := by
  have hanswer : (!(Double.ofInt l.number).isZero) = decide (l.number ≠ 0) := by
    rw [Bool.eq_iff_iff]
    simp [← isZero_number]
  unfold nonzero?
  rw [value_text, ← hanswer]
  split <;> rfl

/-- A literal is out of range from the least overflow on. Below it the value is the nearest double, which
is zero for zero only, and so the answer for a node of the syntax tree is exact. -/
theorem value_literal (l : Literal) :
    (value l.text false = .error .tooLarge ↔ Double.leastOverflow ≤ l.number) ∧
      (l.number < Double.leastOverflow →
        value l.text false = .ok (some (Double.ofInt l.number)) ∧
          ((Double.ofInt l.number).isZero = true ↔ l.number = 0)) ∧
      ∀ (source : Source) (node : Node), node.kind = "integer_literal" →
        source.textOf node = l.text →
          Division.nonzero? source node =
            if Double.leastOverflow ≤ l.number then .error .tooLarge
            else .ok (some (decide (l.number ≠ 0))) := by
  refine ⟨?_, fun hlt => ⟨?_, isZero_number⟩, fun source node hkind htext => ?_⟩
  · rw [value_text]
    split <;> simp [*]
  · rw [value_text, if_neg (Nat.not_le.mpr hlt)]
  · have hnumber : Division.isNumber node = true := by simp [Division.isNumber, hkind]
    have hfloat : (node.kind == "float_literal") = false := by simp [hkind]
    rw [Division.nonzero?, if_pos hnumber, hfloat, htext, nonzero?_text]

/-- The digits `f32` of the largest base are no type, and the type behind them is no digit. -/
theorem value_literal_hexadecimal :
    let l : Literal := {
      radix := .hexadecimal
      digits := ['_', 'f', '3', '2', '_']
      suffix := "u64"
      digit_or_underscore := by
        intro c hc
        simp only [List.mem_cons, List.not_mem_nil, or_false] at hc
        rcases hc with rfl | rfl | rfl | rfl | rfl <;> decide
      exists_digit := ⟨'f', by simp, by simp⟩
      suffix_mem := by decide
      length_le := by decide }
    let source := Source.ofText "x / 0x_f32_u64"
    let node := Node.mk ⟨"integer_literal", true, false, false, some "right", 4, 14⟩ []
    l.text = "0x_f32_u64" ∧ l.number = 3890 ∧ l.number < Double.leastOverflow ∧
      value l.text false = .ok (some (Double.ofInt l.number)) ∧
      node.kind = "integer_literal" ∧ source.textOf node = l.text ∧
      Division.nonzero? source node = .ok (some true) := by
  intro l source node
  have hnumber : l.number = 3890 := by decide
  have hlt : l.number < Double.leastOverflow := by decide +kernel
  have htext : source.textOf node = l.text := by decide +kernel
  obtain ⟨-, hvalue, hanswer⟩ := value_literal l
  refine ⟨by decide +kernel, hnumber, hlt, (hvalue hlt).1, rfl, htext, ?_⟩
  rw [hanswer source node rfl htext, if_neg (Nat.not_le.mpr hlt), hnumber]
  rfl

end Literal

end AnchorAudit.Numeral
