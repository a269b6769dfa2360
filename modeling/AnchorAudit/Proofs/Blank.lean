import AnchorAudit.Text.Blank
import Mathlib.Data.List.DropRight
import Mathlib.Tactic.SplitIfs

/-! Trimming. White space goes at the two ends of a text, and nothing else goes. -/
namespace AnchorAudit.Text

def Blank (cs : List Char) : Prop := ∀ c ∈ cs, isBlank c = true

instance (cs : List Char) : Decidable (Blank cs) :=
  decidable_of_iff (cs.all isBlank = true) List.all_eq_true

theorem blank_append_iff {xs ys : List Char} : Blank (xs ++ ys) ↔ Blank xs ∧ Blank ys :=
  List.forall_mem_append

theorem trimLeft_append {xs : List Char} (hx : Blank xs) (ys : List Char) :
    trimLeft (xs ++ ys) = trimLeft ys :=
  List.dropWhile_append_of_pos hx

theorem trimRight_append {ys : List Char} (hy : Blank ys) (xs : List Char) :
    trimRight (xs ++ ys) = trimRight xs := by
  have hreverse : ∀ c ∈ ys.reverse, isBlank c = true := fun c hc => hy c (List.mem_reverse.mp hc)
  unfold trimRight
  rw [List.reverse_append, List.dropWhile_append_of_pos hreverse]

theorem exists_trimLeft (cs : List Char) : ∃ xs, Blank xs ∧ cs = xs ++ trimLeft cs :=
  ⟨cs.takeWhile isBlank, fun _ hc => List.mem_takeWhile_imp hc, List.takeWhile_append_dropWhile.symm⟩

theorem exists_trimRight (cs : List Char) : ∃ ys, Blank ys ∧ cs = trimRight cs ++ ys :=
  ⟨cs.rtakeWhile isBlank, fun _ hc => List.mem_rtakeWhile_imp hc,
    List.rdropWhile_append_rtakeWhile.symm⟩

theorem exists_trim (cs : List Char) : ∃ xs ys, Blank xs ∧ Blank ys ∧ cs = xs ++ trim cs ++ ys := by
  obtain ⟨xs, hx, hcs⟩ := exists_trimLeft cs
  obtain ⟨ys, hy, hleft⟩ := exists_trimRight (trimLeft cs)
  refine ⟨xs, ys, hx, hy, ?_⟩
  rw [List.append_assoc]
  exact hleft ▸ hcs

theorem mem_of_mem_trimLeft {cs : List Char} {c : Char} (hc : c ∈ trimLeft cs) : c ∈ cs :=
  (List.dropWhile_suffix isBlank).mem hc

theorem mem_of_mem_trim {cs : List Char} {c : Char} (hc : c ∈ trim cs) : c ∈ cs := by
  obtain ⟨xs, ys, -, -, hcs⟩ := exists_trim cs
  rw [hcs]
  simp [hc]

section Around
variable {c : Char} (hc : isBlank c = false) (xs ys : List Char)
include hc

theorem trimLeft_around : trimLeft (xs ++ c :: ys) = trimLeft xs ++ c :: ys := by
  unfold trimLeft
  rw [List.dropWhile_append]
  split_ifs with hempty
  · rw [List.isEmpty_iff.mp hempty, List.dropWhile_cons_of_neg (by simp [hc])]
    rfl
  · rfl

theorem trimRight_around : trimRight (xs ++ c :: ys) = xs ++ c :: trimRight ys := by
  have hflip : trimRight (xs ++ c :: ys) = (trimLeft (ys.reverse ++ c :: xs.reverse)).reverse := by
    simp [trimRight, trimLeft]
  rw [hflip, trimLeft_around hc]
  simp [trimRight, trimLeft]

/-- White space is cut off on both sides of a character that is none. -/
theorem trim_around : trim (xs ++ c :: ys) = trimLeft xs ++ c :: trimRight ys := by
  rw [trim, trimLeft_around hc, trimRight_around hc]

end Around

theorem trim_append_left {xs : List Char} (hx : Blank xs) (ys : List Char) :
    trim (xs ++ ys) = trim ys := by
  rw [trim, trimLeft_append hx, trim]

theorem trim_trimLeft (cs : List Char) : trim (trimLeft cs) = trim cs := by
  obtain ⟨xs, hx, hcs⟩ := exists_trimLeft cs
  calc trim (trimLeft cs) = trim (xs ++ trimLeft cs) := (trim_append_left hx _).symm
    _ = trim cs := by rw [← hcs]

theorem trim_of_blank {cs : List Char} (h : Blank cs) : trim cs = [] := by
  have hleft := trimLeft_append h []
  rw [List.append_nil] at hleft
  rw [trim, hleft]
  rfl

theorem exists_not_blank {cs : List Char} (h : ¬Blank cs) :
    ∃ xs c ys, isBlank c = false ∧ cs = xs ++ c :: ys := by
  unfold Blank at h
  push Not at h
  obtain ⟨c, hmem, hc⟩ := h
  obtain ⟨xs, ys, hcs⟩ := List.append_of_mem hmem
  exact ⟨xs, c, ys, by simpa using hc, hcs⟩

/-- The two ends of a text can be trimmed in either order. -/
theorem trimLeft_trimRight (cs : List Char) : trimLeft (trimRight cs) = trim cs := by
  by_cases h : Blank cs
  · have hright := trimRight_append h []
    rw [List.nil_append] at hright
    rw [hright, trim_of_blank h]
    rfl
  · obtain ⟨xs, c, ys, hc, rfl⟩ := exists_not_blank h
    rw [trimRight_around hc, trimLeft_around hc, trim_around hc]

theorem trim_append_right {ys : List Char} (hy : Blank ys) (xs : List Char) :
    trim (xs ++ ys) = trim xs := by
  by_cases hx : Blank xs
  · rw [trim_of_blank (blank_append_iff.mpr ⟨hx, hy⟩), trim_of_blank hx]
  · obtain ⟨before, c, after, hc, rfl⟩ := exists_not_blank hx
    rw [List.append_assoc, List.cons_append, trim_around hc, trim_around hc, trimRight_append hy]

theorem trim_trimRight (cs : List Char) : trim (trimRight cs) = trim cs := by
  obtain ⟨ys, hy, hcs⟩ := exists_trimRight cs
  calc trim (trimRight cs) = trim (trimRight cs ++ ys) := (trim_append_right hy _).symm
    _ = trim cs := by rw [← hcs]

theorem unspaced_eq_nil_iff {cs : List Char} : unspaced cs = [] ↔ Blank cs := by
  simp [unspaced, Blank]

theorem unspaced_append (xs ys : List Char) : unspaced (xs ++ ys) = unspaced xs ++ unspaced ys :=
  List.filter_append xs ys

theorem unspaced_trim (cs : List Char) : unspaced (trim cs) = unspaced cs := by
  obtain ⟨xs, ys, hx, hy, hcs⟩ := exists_trim cs
  have h := congrArg unspaced hcs
  rw [unspaced_append, unspaced_append, unspaced_eq_nil_iff.mpr hx, unspaced_eq_nil_iff.mpr hy,
    List.nil_append, List.append_nil] at h
  exact h.symm

/-- Text behind a text shows after trimming, unless it is white space. -/
theorem trim_append_eq_iff {xs ys : List Char} : trim (xs ++ ys) = trim xs ↔ Blank ys := by
  constructor
  · intro h
    have hchars := congrArg unspaced h
    rw [unspaced_trim, unspaced_trim, unspaced_append] at hchars
    exact unspaced_eq_nil_iff.mp (List.append_right_eq_self.mp hchars)
  · exact fun hy => trim_append_right hy xs

theorem trim_trim (cs : List Char) : trim (trim cs) = trim cs := by
  obtain ⟨xs, ys, hx, hy, hcs⟩ := exists_trim cs
  calc trim (trim cs) = trim (xs ++ trim cs ++ ys) := by
        rw [trim_append_right hy, trim_append_left hx]
    _ = trim cs := by rw [← hcs]

/-- Only the front of what comes last needs trimming. -/
theorem trim_append_trim (xs ys : List Char) : trim (xs ++ trim ys) = trim (xs ++ trimLeft ys) := by
  obtain ⟨zs, hz, hys⟩ := exists_trimRight (trimLeft ys)
  have hleft : trimLeft ys = trim ys ++ zs := hys
  calc trim (xs ++ trim ys) = trim (xs ++ trim ys ++ zs) := (trim_append_right hz _).symm
    _ = trim (xs ++ trimLeft ys) := by rw [List.append_assoc, ← hleft]

theorem blank_trim_iff {cs : List Char} : Blank (trim cs) ↔ Blank cs := by
  rw [← unspaced_eq_nil_iff, unspaced_trim, unspaced_eq_nil_iff]

theorem trim_dropReturn (line : List Char) : trim (dropReturn line) = trim line := by
  unfold dropReturn
  split_ifs with hlast
  · obtain ⟨front, rfl⟩ := List.getLast?_eq_some_iff.mp hlast
    have hreturn : Blank ['\r'] := by decide
    rw [List.dropLast_concat, trim_append_right hreturn]
  · rfl

end AnchorAudit.Text
