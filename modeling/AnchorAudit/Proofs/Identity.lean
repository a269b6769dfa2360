import AnchorAudit.Proofs.Blank
import AnchorAudit.Proofs.Lines
import AnchorAudit.Subject

/-! What makes two subjects the same. A text without the amount of its white space is the list of its
words: squeezing keeps the words, and nothing else. -/
namespace AnchorAudit

namespace Text

/-- Some characters, and no white space among them. -/
structure IsWord (w : List Char) : Prop where
  nonempty : w ≠ []
  solid : ∀ c ∈ w, isBlank c = false

theorem isWord_of_mem_words {cs w : List Char} (h : w ∈ words cs) : IsWord w := by
  obtain ⟨hpiece, hne⟩ := List.mem_filter.mp h
  exact ⟨by simpa using hne, isSep_of_mem_pieces hpiece⟩

theorem IsWord.words_eq {w : List Char} (h : IsWord w) : words w = [w] := by
  rw [words, pieces_of_forall h.solid]
  simp [h.nonempty]

theorem words_append_cons {c : Char} (hc : isBlank c = true) (xs ys : List Char) :
    words (xs ++ c :: ys) = words xs ++ words ys := by
  unfold words
  rw [pieces_append_cons hc, List.filter_append]

/-- The words of a text can be read back from a text that has single spaces between them. -/
theorem words_intercalate {ws : List (List Char)} (h : ∀ w ∈ ws, IsWord w) :
    words ([' '].intercalate ws) = ws := by
  induction ws with
  | nil => rfl
  | cons w ws ih =>
    rw [List.forall_mem_cons] at h
    cases ws with
    | nil => rw [List.intercalate_singleton, h.1.words_eq]
    | cons v ws =>
      rw [List.intercalate_cons_cons, List.append_assoc, List.singleton_append,
        words_append_cons rfl, h.1.words_eq, ih h.2, List.singleton_append]

theorem collapse_cons {c : Char} (hc : isBlank c = false) (cs : List Char) :
    collapse (c :: cs) = c :: collapse cs := by
  cases cs with
  | nil => simp [collapse, hc]
  | cons d cs => simp [collapse, hc]

theorem collapse_append {w : List Char} (hw : ∀ c ∈ w, isBlank c = false) (cs : List Char) :
    collapse (w ++ cs) = w ++ collapse cs := by
  induction w with
  | nil => rfl
  | cons c w ih =>
    rw [List.forall_mem_cons] at hw
    rw [List.cons_append, collapse_cons hw.1, ih hw.2, List.cons_append]

/-- White space becomes one space, whether more of it follows or not. -/
theorem collapse_blank_cons {c : Char} (hc : isBlank c = true) (cs : List Char) :
    collapse (c :: cs) = ' ' :: trimLeft (collapse cs) := by
  induction cs generalizing c with
  | nil => simp [collapse, hc, trimLeft]
  | cons d cs ih =>
    rw [collapse, if_pos hc]
    split_ifs with hd
    · have hspace : Blank [' '] := by decide
      have hfixed : trimLeft (trimLeft (collapse cs)) = trimLeft (collapse cs) :=
        List.dropWhile_idempotent isBlank (collapse cs)
      have hmore := trimLeft_append hspace (trimLeft (collapse cs))
      rw [List.singleton_append, hfixed] at hmore
      rw [ih hd, hmore]
    · rw [collapse_cons (by simpa using hd), trimLeft, List.dropWhile_cons_of_neg hd]

theorem squeeze_blank_cons {c : Char} (hc : isBlank c = true) (cs : List Char) :
    squeeze (c :: cs) = squeeze cs := by
  have hspace : Blank [' '] := by decide
  rw [squeeze, collapse_blank_cons hc, ← List.singleton_append, trim_append_left hspace,
    trim_trimLeft, squeeze]

namespace IsWord
variable {w : List Char} (hw : IsWord w)
include hw

theorem trimLeft_append (ys : List Char) : trimLeft (w ++ ys) = w ++ ys := by
  cases w with
  | nil => exact absurd rfl hw.nonempty
  | cons c w =>
    have hc := hw.solid c List.mem_cons_self
    exact List.dropWhile_cons_of_neg (by simp [hc])

theorem trimRight_append (xs ys : List Char) :
    trimRight (xs ++ (w ++ ys)) = xs ++ (w ++ trimRight ys) := by
  obtain ⟨front, last, rfl⟩ : ∃ front last, w = front ++ [last] :=
    ⟨_, _, (List.dropLast_concat_getLast hw.nonempty).symm⟩
  have haround := trimRight_around (hw.solid last List.mem_concat_self) (xs ++ front) ys
  simpa only [List.append_assoc, List.singleton_append] using haround

/-- Between white space and what follows it, a word stays with one space before it. -/
theorem trimRight_collapse {c : Char} (hc : isBlank c = true) (cs : List Char) :
    trimRight (collapse (c :: (w ++ cs))) = ' ' :: w ++ trimRight (collapse cs) := by
  rw [collapse_blank_cons hc, collapse_append hw.solid, hw.trimLeft_append]
  exact hw.trimRight_append [' '] (collapse cs)

end IsWord

/-- Behind white space, every word of a text stays with one space before it. -/
theorem trimRight_collapse {c : Char} (hc : isBlank c = true) (cs : List Char) :
    trimRight (collapse (c :: cs)) = (words cs).flatMap (' ' :: ·) := by
  induction cs using pieceInduction isBlank generalizing c with
  | last x hx =>
    by_cases hne : x = []
    · rw [hne, collapse_blank_cons hc]
      rfl
    · have hw : IsWord x := ⟨hne, hx⟩
      have hcollapse := hw.trimRight_collapse hc []
      rw [List.append_nil] at hcollapse
      rw [hcollapse, hw.words_eq, List.flatMap_singleton]
      exact List.append_nil _
  | piece x d y hx hd ih =>
    rw [words_append_cons hd, List.flatMap_append, ← ih hd]
    by_cases hne : x = []
    · rw [hne, List.nil_append, collapse, if_pos hc, if_pos hd]
      rfl
    · have hw : IsWord x := ⟨hne, hx⟩
      rw [hw.trimRight_collapse hc, hw.words_eq, List.flatMap_singleton]

/-- Squeezed, a text is its words with single spaces between them. -/
theorem squeeze_eq (cs : List Char) : squeeze cs = [' '].intercalate (words cs) := by
  have hspace : isBlank ' ' = true := rfl
  have hcollapse := congrArg trimLeft (trimRight_collapse hspace cs)
  rw [trimLeft_trimRight, ← squeeze, squeeze_blank_cons hspace] at hcollapse
  rw [hcollapse]
  cases hws : words cs with
  | nil => rfl
  | cons w ws =>
    have hw : IsWord w := isWord_of_mem_words (hws ▸ List.mem_cons_self)
    have hfront := trimLeft_append (by decide : Blank [' ']) (w ++ ws.flatMap (' ' :: ·))
    rw [hw.trimLeft_append] at hfront
    rw [intercalate_cons_eq, List.flatMap_cons]
    exact hfront

example : squeeze " a\t+\u3000\nb ".toList = "a + b".toList := by decide

theorem words_squeeze (cs : List Char) : words (squeeze cs) = words cs := by
  rw [squeeze_eq, words_intercalate fun _ => isWord_of_mem_words]

theorem squeeze_eq_iff {xs ys : List Char} : squeeze xs = squeeze ys ↔ words xs = words ys := by
  constructor
  · intro h
    rw [← words_squeeze xs, h, words_squeeze]
  · intro h
    rw [squeeze_eq, h, ← squeeze_eq]

end Text

open Text

theorem Role.name_inj {r s : Role} : r.name = s.name ↔ r = s := by
  cases r <;> cases s <;> simp [name]

namespace Subject

theorem beq_iff {s t : Subject} : (s == t) = true ↔ s.key = t.key :=
  beq_iff_eq (α := Key)

/-- Two nodes count as the same when they have the same role, are of the same kind and their texts
consist of the same words. The key holds these words with single spaces between them, and a text that
has been squeezed is not changed by squeezing it again. -/
theorem placed_beq_iff (r s : Role) (p q : Place) :
    ((placed r p == placed s q) = true ↔
      r = s ∧ p.node.kind = q.node.kind ∧ words p.text.toList = words q.text.toList) ∧
    (placed r p).key.text = .ofList ([' '].intercalate (words p.text.toList)) ∧
    ∀ cs, squeeze (squeeze cs) = squeeze cs := by
  refine ⟨?_, ?_, ?_⟩
  · rw [beq_iff]
    simp only [key, Key.mk.injEq, Role.name_inj, String.ofList_inj, squeeze_eq_iff]
  · rw [← squeeze_eq]
    rfl
  · intro cs
    rw [squeeze_eq_iff, words_squeeze]

end Subject

end AnchorAudit
