import AnchorAudit.Proofs.Lines
import AnchorAudit.Proofs.Utf8
import AnchorAudit.SourceLines
import Mathlib.Tactic.ByContra

/-! Quoting undoes locating: the snippet of the span between two offsets is the text between them,
up to the carriage returns of line ends. -/
namespace AnchorAudit
open Text

namespace Source

theorem lastLine_of_not_mem {xs : List UInt8} (h : 10 ∉ xs) : lastLine xs = xs := by
  have hall : ∀ b ∈ xs.reverse, (b != 10) = true := by
    intro b hb
    simpa using fun he : b = 10 => h (he ▸ List.mem_reverse.mp hb)
  have htake : (xs.reverse ++ []).takeWhile (· != 10) = xs.reverse ++ [] :=
    List.takeWhile_append_of_pos hall
  rw [List.append_nil] at htake
  rw [lastLine, htake, List.reverse_reverse]

theorem lastLine_newline (xs ys : List UInt8) : lastLine (xs ++ 10 :: ys) = lastLine ys := by
  unfold lastLine
  rw [List.reverse_append, List.reverse_cons, List.append_assoc, List.takeWhile_append]
  split_ifs with h
  · have hys : ys.reverse.takeWhile (· != 10) <+: ys.reverse := List.takeWhile_prefix _
    rw [hys.eq_of_length h]
    simp
  · rfl

theorem lastLine_encode (cs : List Char) :
    lastLine (Utf8.encode cs) = Utf8.encode (begun cs) := by
  induction cs using lineInduction with
  | last x hx => rw [lastLine_of_not_mem (Utf8.newline_not_mem_encode hx), begun_of_not_mem hx]
  | line x y _ ih =>
    rw [Utf8.encode_append, Utf8.encode_cons, Utf8.encodeChar_newline, List.singleton_append,
      lastLine_newline, ih, begun_line]

/-- The position of an offset between characters, from the characters before it. -/
theorem position_front {text : String} {front rest : List Char}
    (h : text.toList = front ++ rest) :
    (ofText text).position (Utf8.encode front).length =
      ⟨front.count '\n' + 1, (begun front).length⟩ := by
  have htake : (ofText text).bytes.take (Utf8.encode front).length = Utf8.encode front := by
    rw [ofText, h, Utf8.encode_append, List.take_left]
  unfold position
  rw [htake, Utf8.count_newline_encode, lastLine_encode, Utf8.decode_encode]

theorem between_mid {text : String} {front mid rest : List Char}
    (h : text.toList = front ++ mid ++ rest) :
    (ofText text).between (Utf8.encode front).length (Utf8.encode (front ++ mid)).length =
      .ofList mid := by
  unfold between ofText
  rw [h, Utf8.encode_append (front ++ mid), List.take_left, Utf8.encode_append, List.drop_left,
    Utf8.decode_encode]

end Source

theorem Span.isKnown_iff {span : Span} :
    span.isKnown = true ↔ 0 < span.startLine ∧ 0 < span.endLine := by
  simp only [isKnown, Bool.and_eq_true, decide_eq_true_eq]

namespace SourceLines

def cut (s : SourceLines) (span : Span) : List (List Char) := (s.cutBy s.lineOrEmpty span).run

theorem snippet_of_known {s : SourceLines} {span : Span} (hknown : span.isKnown = true) :
    s.snippet span =
      if (s.lines.length : Int) < span.startLine ∨ (s.lines.length : Int) < span.endLine then
        snippetOutOfBounds
      else .ofList (['\n'].intercalate (s.cut span)) := by
  unfold snippet snippetBy
  rw [hknown, if_neg (by decide)]
  split_ifs <;> rfl

theorem drop_min_take {α : Type} (xs : List α) (a b : Nat) :
    (xs.take b).drop (min a xs.length) = (xs.take b).drop a := by
  rcases Nat.le_total a xs.length with ha | ha
  · rw [Nat.min_eq_left ha]
  · have hlen : (xs.take b).length ≤ xs.length := List.length_take_le' b xs
    rw [Nat.min_eq_right ha, List.drop_eq_nil_of_le hlen,
      List.drop_eq_nil_of_le (Nat.le_trans hlen ha)]

theorem clampPosition_natCast (length n : Nat) : clampPosition length n = min n length := by
  unfold clampPosition
  rw [if_neg (by omega), Int.toNat_natCast]

theorem clampPosition_min (length : Nat) (i : Int) :
    clampPosition length (min i length) = clampPosition length i := by
  unfold clampPosition
  split_ifs <;> omega

theorem slice_natCast {α : Type} (xs : List α) (a b : Nat) :
    slice xs a b = (xs.take b).drop a := by
  rw [slice, clampPosition_natCast, clampPosition_natCast, ← List.take_eq_take_min, drop_min_take]

theorem cutLine_eq (line : List Char) (a b : Int) :
    cutLine line a b =
      (line.take (clampPosition line.length (max b (min a line.length)))).drop
        (clampPosition line.length a) := by
  unfold cutLine slice
  dsimp only
  rw [clampPosition_min, clampPosition_min]

theorem cutHead_eq (line : List Char) (a : Int) :
    cutHead line a = line.drop (clampPosition line.length a) := by
  unfold cutHead slice
  rw [clampPosition_min, clampPosition_natCast, Nat.min_self, List.take_length]

theorem cutTail_eq (line : List Char) (b : Int) :
    cutTail line b = line.take (clampPosition line.length b) := by
  have hzero : clampPosition line.length 0 = 0 := by
    rw [← Int.natCast_zero, clampPosition_natCast, Nat.zero_min]
  unfold cutTail slice
  rw [clampPosition_min, hzero, List.drop_zero]

theorem cutLine_natCast (line : List Char) {a b : Nat} (hab : a ≤ b) :
    cutLine line a b = (line.take b).drop a := by
  have hstop : max (b : Int) (min (a : Int) line.length) = (b : Int) := by omega
  rw [cutLine_eq, hstop, clampPosition_natCast, clampPosition_natCast, ← List.take_eq_take_min,
    drop_min_take]

theorem cutHead_natCast (line : List Char) (a : Nat) : cutHead line a = line.drop a := by
  have hdrop := drop_min_take line a line.length
  rw [List.take_length] at hdrop
  rw [cutHead_eq, clampPosition_natCast, hdrop]

theorem cutTail_natCast (line : List Char) (b : Nat) : cutTail line b = line.take b := by
  rw [cutTail_eq, clampPosition_natCast, ← List.take_eq_take_min]

theorem lineAt_of_lines {s : SourceLines} {before after : List (List Char)} {line : List Char}
    (hs : s.lines = before ++ line :: after) : s.lineAt before.length = line := by
  unfold lineAt
  rw [hs, List.getElem?_append_right (Nat.le_refl _), Nat.sub_self]
  rfl

theorem cut_eq (s : SourceLines) (span : Span) :
    s.cut span =
      if span.endLine ≤ span.startLine then
        [cutLine (s.lineAt (span.startLine - 1).toNat) span.startColumn span.endColumn]
      else
        cutHead (s.lineAt (span.startLine - 1).toNat) span.startColumn ::
          slice s.lines span.startLine (span.endLine - 1) ++
          [cutTail (s.lineAt (span.endLine - 1).toNat) span.endColumn] := by
  unfold cut cutBy
  split_ifs <;> rfl

section Cut
variable {s : SourceLines} {span : Span}

theorem cut_within {before after : List (List Char)} {line : List Char}
    (hs : s.lines = before ++ line :: after) (hstart : span.startLine = (before.length + 1 : Nat))
    (hend : span.endLine ≤ span.startLine) :
    s.cut span = [cutLine line span.startColumn span.endColumn] := by
  have hindex : (span.startLine - 1).toNat = before.length := by omega
  rw [cut_eq, if_pos hend, hindex, lineAt_of_lines hs]

theorem cut_across {before middle after : List (List Char)} {first last : List Char}
    (hs : s.lines = before ++ first :: (middle ++ last :: after))
    (hstart : span.startLine = (before.length + 1 : Nat))
    (hend : span.endLine = (before.length + middle.length + 2 : Nat)) :
    s.cut span =
      cutHead first span.startColumn :: middle ++ [cutTail last span.endColumn] := by
  have hindex : (span.startLine - 1).toNat = before.length := by omega
  have hstop : (span.endLine - 1).toNat = (before ++ first :: middle).length := by
    rw [List.length_append, List.length_cons]
    omega
  have hs' : s.lines = (before ++ first :: middle) ++ last :: after := by
    rw [hs, List.append_assoc, List.cons_append]
  have hlast : span.endLine - 1 = ((before ++ first :: middle).length : Nat) := by
    rw [List.length_append, List.length_cons]
    omega
  have hmiddle : slice s.lines span.startLine (span.endLine - 1) = middle := by
    rw [hstart, hlast, slice_natCast, hs', List.take_left, ← List.drop_drop, List.drop_left]
    rfl
  rw [cut_eq, if_neg (by omega), hmiddle, hindex, hstop, lineAt_of_lines hs, lineAt_of_lines hs']

end Cut

theorem drop_dropReturn (before x : List Char) :
    (dropReturn (before ++ x)).drop before.length = dropReturn x := by
  by_cases hx : x = []
  · rw [hx, List.append_nil, dropReturn_nil, List.drop_eq_nil_of_le (length_dropReturn_le before)]
  · rw [dropReturn_append hx, List.drop_left]

/-- On one line, cutting columns out of what is left of the line agrees with deleting returns from
what lies between the columns. -/
theorem cut_dropReturn {mid tail rest : List Char} (hmid : '\n' ∉ mid)
    (htail : tail = [] ↔ endsLine rest) (before : List Char) :
    ((dropReturn (before ++ mid ++ tail)).take (before ++ mid).length).drop before.length =
      dropReturns rest mid := by
  rw [dropReturns_of_not_mem hmid]
  by_cases ht : tail = []
  · rw [if_pos (htail.mp ht), ht, List.append_nil,
      List.take_of_length_le (length_dropReturn_le (before ++ mid)), drop_dropReturn]
  · rw [if_neg (fun he => ht (htail.mpr he)), dropReturn_append ht, List.take_left, List.drop_left]

/-- The cut of the stretch `mid` of a text, joined again, is that stretch without its line end
returns, when the stretch does not reach past the last line. -/
theorem cut_between (path : String) {text : String} {front mid rest : List Char}
    (h : text.toList = front ++ mid ++ rest)
    (hin : ¬(rest = [] ∧ text.toList.getLast? = some '\n')) :
    ['\n'].intercalate ((ofText text path).cut (.between (.ofText text)
      (Utf8.encode front).length (Utf8.encode (front ++ mid)).length)) = dropReturns rest mid := by
  rw [h] at hin
  obtain ⟨tail, others, htail, hn, hsplit⟩ := splitLines_append hin
  have hlines : (ofText text path).lines =
      (pieces isNewline (front ++ mid ++ tail)).map dropReturn ++ others := by
    rw [← hsplit, ← h]
    rfl
  have hbefore : ((completed front).map dropReturn).length = front.count '\n' := by
    rw [List.length_map, length_completed]
  have hstart := Source.position_front (h.trans (List.append_assoc front mid rest))
  have hstop := Source.position_front h
  simp only [Span.between, hstart, hstop]
  by_cases hmid : '\n' ∈ mid
  · obtain ⟨x, y, rfl, hx⟩ := List.eq_append_cons_of_mem hmid
    have hcount : (front ++ (x ++ '\n' :: y)).count '\n' + 1 =
        ((completed front).map dropReturn).length + ((completed y).map dropReturn).length + 2 := by
      rw [hbefore, List.length_map, length_completed, List.count_append, List.count_append,
        List.count_cons_self, List.count_eq_zero.mpr hx]
      omega
    have hbegun : begun (front ++ (x ++ '\n' :: y)) = begun y := by
      rw [← List.append_assoc, begun_line]
    rw [pieces_append_line hx hn] at hlines
    simp only [List.map_append, List.map_cons, List.map_nil, List.append_assoc, List.cons_append,
      List.nil_append] at hlines
    rw [hcount, hbegun, ← hbefore, cut_across hlines rfl rfl, cutHead_natCast, cutTail_natCast]
    have hlast : (dropReturn (begun y ++ tail)).take (begun y).length =
        dropReturns rest (begun y) := cut_dropReturn (newline_not_mem_begun y) htail []
    have hjoin := intercalate_completed rest (x ++ '\n' :: y)
    rw [completed_line hx, begun_line, List.map_cons] at hjoin
    rw [drop_dropReturn, hlast, hjoin]
  · have hmt : '\n' ∉ mid ++ tail := by
      rw [List.mem_append]
      exact fun hc => hc.elim hmid hn
    have hcount : (front ++ mid).count '\n' = front.count '\n' := by
      rw [List.count_append, List.count_eq_zero.mpr hmid, Nat.add_zero]
    rw [List.append_assoc, pieces_append_of_not_mem hmt, ← List.append_assoc] at hlines
    simp only [List.map_append, List.map_cons, List.map_nil, List.append_assoc, List.cons_append,
      List.nil_append] at hlines
    have hle : (begun front).length ≤ (begun front ++ mid).length := by
      rw [List.length_append]
      omega
    rw [hcount, begun_append hmid, ← hbefore, cut_within hlines rfl (Int.le_refl _),
      cutLine_natCast _ hle, List.intercalate_singleton, ← List.append_assoc,
      cut_dropReturn hmid htail]

/-- A span ends past the last line exactly when it reaches the end of a text that ends with a line
feed. -/
theorem lines_lt_iff (path : String) {text : String} {front rest : List Char}
    (h : text.toList = front ++ rest) :
    (ofText text path).lines.length < front.count '\n' + 1 ↔
      rest = [] ∧ text.toList.getLast? = some '\n' := by
  have hlen : (ofText text path).lines.length = text.toList.count '\n' +
      if text.toList.getLast? = some '\n' then 0 else 1 := length_splitLines text.toList
  have hcount : text.toList.count '\n' = front.count '\n' + rest.count '\n' := by
    rw [h, List.count_append]
  rw [hlen, hcount]
  split_ifs with hlast
  · constructor
    · intro hlt
      refine ⟨?_, hlast⟩
      by_contra hne
      rw [h] at hlast
      have := List.count_pos_iff.mpr (mem_of_getLast?_append hne hlast)
      omega
    · rintro ⟨rfl, -⟩
      rw [List.count_nil]
      omega
  · constructor
    · intro hlt
      omega
    · exact fun hc => absurd hc.2 hlast

theorem snippet_between (path : String) {text : String} {front mid rest : List Char}
    (h : text.toList = front ++ mid ++ rest) :
    (ofText text path).snippet (.between (.ofText text)
      (Utf8.encode front).length (Utf8.encode (front ++ mid)).length) =
      if rest = [] ∧ text.toList.getLast? = some '\n' then snippetOutOfBounds
      else .ofList (dropReturns rest mid) := by
  have hstart := Source.position_front (h.trans (List.append_assoc front mid rest))
  have hstop := Source.position_front h
  have hlines : (ofText text path).lines.length < (front ++ mid).count '\n' + 1 ↔
      rest = [] ∧ text.toList.getLast? = some '\n' := lines_lt_iff path h
  have hcount : (front ++ mid).count '\n' = front.count '\n' + mid.count '\n' :=
    List.count_append
  have hcut (hin) := cut_between path h hin
  generalize hspan : Span.between (.ofText text) (Utf8.encode front).length
    (Utf8.encode (front ++ mid)).length = span at hcut ⊢
  have hfirst : span.startLine = (front.count '\n' + 1 : Nat) := by
    rw [← hspan, Span.between, hstart]
  have hlast : span.endLine = ((front ++ mid).count '\n' + 1 : Nat) := by
    rw [← hspan, Span.between, hstop]
  have hknown : span.isKnown = true := Span.isKnown_iff.mpr (by omega)
  have hpast : ((ofText text path).lines.length : Int) < span.startLine ∨
      ((ofText text path).lines.length : Int) < span.endLine ↔
      rest = [] ∧ text.toList.getLast? = some '\n' := by
    rw [← hlines, hfirst, hlast]
    omega
  rw [snippet_of_known hknown]
  simp only [hpast]
  split_ifs with hin
  · rfl
  · rw [hcut hin]

/-- The snippet of a node between two characters is the text of the node without the carriage
returns that end a line of the source. Only a node that reaches behind the line feed at the very
end of the source is out of bounds. -/
theorem snippet_ofNode (text path : String) (n : Node)
    (hstart : Utf8.IsBoundary text.toList n.label.start)
    (hstop : Utf8.IsBoundary text.toList n.label.stop) (hle : n.label.start ≤ n.label.stop) :
    let source := Source.ofText text
    let quoted := (ofText text path).snippet (.ofNode source n)
    let behind := (source.between n.label.stop source.bytes.length).toList
    let past := n.label.stop = source.bytes.length ∧ text.toList.getLast? = some '\n'
    (past → quoted = snippetOutOfBounds) ∧
      (¬past → quoted = .ofList (dropReturns behind (source.textOf n).toList)) ∧
      (¬past → '\r' ∉ text.toList → quoted = source.textOf n) := by
  obtain ⟨front, mid, rest, h, hfront, hmid⟩ := hstart.cut hstop hle
  have hbytes : (Source.ofText text).bytes = Utf8.encode (front ++ mid ++ rest) := by
    rw [← h]
    rfl
  have hend : n.label.stop = (Source.ofText text).bytes.length ↔ rest = [] := by
    rw [hbytes, ← hmid]
    constructor
    · intro he
      have hall := Utf8.eq_of_prefix_of_length_encode_le (List.prefix_append (front ++ mid) rest)
        (Nat.le_of_eq he.symm)
      exact List.append_right_eq_self.mp hall.symm
    · rintro rfl
      rw [List.append_nil]
  have htext : (Source.ofText text).textOf n = .ofList mid := by
    rw [Source.textOf, ← hfront, ← hmid, Source.between_mid h]
  have hbehind : (Source.ofText text).between n.label.stop (Source.ofText text).bytes.length =
      .ofList rest := by
    have hrest : text.toList = (front ++ mid) ++ rest ++ [] := by rw [List.append_nil, h]
    rw [hbytes, ← hmid, Source.between_mid hrest]
  have hquoted := snippet_between path h
  rw [hfront, hmid] at hquoted
  dsimp only
  rw [hend, htext, hbehind, Span.ofNode, hquoted, String.toList_ofList, String.toList_ofList]
  refine ⟨fun hp => if_pos hp, fun hp => if_neg hp, fun hp hr => ?_⟩
  have hmr : '\r' ∉ mid := by
    intro hc
    exact hr (by rw [h]; simp [hc])
  rw [if_neg hp, dropReturns_eq_self hmr]

/-- A node that begins between the two characters of a line end and stops at the end of the source,
behind a letter of two octets. -/
theorem snippet_ofNode_returns :
    let text := "é\r\nb\r"
    let n : Node := .mk ⟨"block", true, false, false, none, 2, 6⟩ []
    Utf8.IsBoundary text.toList n.label.start ∧ Utf8.IsBoundary text.toList n.label.stop ∧
      n.label.start ≤ n.label.stop ∧
      (ofText text "lib.rs").snippet (.ofNode (.ofText text) n) = "\nb" := by
  intro text n
  have hstart : Utf8.IsBoundary text.toList n.label.start := ⟨['é'], by decide, by decide⟩
  have hstop : Utf8.IsBoundary text.toList n.label.stop :=
    ⟨['é', '\r', '\n', 'b', '\r'], by decide, by decide⟩
  have hle : n.label.start ≤ n.label.stop := by decide
  refine ⟨hstart, hstop, hle, ?_⟩
  rw [(snippet_ofNode text "lib.rs" n hstart hstop hle).2.1 (by decide)]
  decide

end SourceLines

end AnchorAudit
