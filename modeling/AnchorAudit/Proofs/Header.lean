import AnchorAudit.Proofs.Blank
import AnchorAudit.Proofs.Lookup

/-! Headers of functions. A header is read line by line up to the brace that opens the body. A semicolon
ends the reading too, and what stands below it is lost. -/
namespace AnchorAudit
open Text

theorem Utf8.exists_of_head?_encode {cs : List Char} (h : (encode cs).head? = some 0x7B) :
    ∃ rest, cs = '\x7b' :: rest := by
  cases cs with
  | nil => cases h
  | cons c rest =>
    obtain ⟨b, bs, hc, hfirst⟩ := first_encodeChar c []
    rw [encode_cons, hc, List.cons_append, List.head?_cons, Option.some.injEq] at h
    have hbrace : first 0x7B (bs ++ []) = .char '\x7b' 0 := rfl
    rw [h, hbrace, Chunk.char.injEq] at hfirst
    exact ⟨rest, by rw [hfirst.1]⟩

namespace SourceLines

/-- Lines on one line: each trimmed, with single spaces between them. -/
def oneLine (lines : List (List Char)) : List Char := [' '].intercalate (lines.map trim)

def continuation (lines : List (List Char)) : List Char := lines.flatMap (' ' :: trim ·)

@[simp] theorem continuation_nil : continuation [] = [] := rfl

@[simp] theorem continuation_cons (line : List Char) (lines : List (List Char)) :
    continuation (line :: lines) = ' ' :: trim line ++ continuation lines :=
  List.flatMap_cons

@[simp] theorem continuation_append (xs ys : List (List Char)) :
    continuation (xs ++ ys) = continuation xs ++ continuation ys :=
  List.flatMap_append

theorem oneLine_cons (line : List Char) (lines : List (List Char)) :
    oneLine (line :: lines) = trim line ++ continuation lines := by
  induction lines generalizing line with
  | nil => simp [oneLine]
  | cons next lines ih =>
    have hnext := ih next
    unfold oneLine at hnext ⊢
    rw [List.map_cons, List.intercalate_cons_of_ne_nil (by simp), hnext]
    simp

theorem oneLine_append {xs : List (List Char)} (hx : xs ≠ []) (ys : List (List Char)) :
    oneLine (xs ++ ys) = oneLine xs ++ continuation ys := by
  cases xs with
  | nil => exact absurd rfl hx
  | cons x xs =>
    rw [List.cons_append, oneLine_cons, oneLine_cons, continuation_append, List.append_assoc]

theorem blank_continuation_iff {lines : List (List Char)} :
    Blank (continuation lines) ↔ ∀ line ∈ lines, Blank line := by
  have hspace : Blank [' '] := by decide
  induction lines with
  | nil => simp [Blank]
  | cons line lines ih =>
    have hline : Blank (' ' :: trim line) ↔ Blank line := by
      rw [← List.singleton_append, blank_append_iff, blank_trim_iff]
      exact and_iff_right hspace
    rw [continuation_cons, blank_append_iff, hline, List.forall_mem_cons]
    exact and_congr_right' ih

/-- The lines that continue a header as it is read, up to the first that seems to end it. -/
def readOn : List (List Char) → List (List Char)
  | [] => []
  | line :: rest => line :: if line.any endsHeader then [] else readOn rest

theorem extendHeader_eq (header : List Char) (lines : List (List Char)) :
    extendHeader header lines = header ++ continuation (readOn lines) := by
  induction lines generalizing header with
  | nil => simp [extendHeader, readOn]
  | cons line rest ih =>
    rw [extendHeader, readOn]
    split_ifs
    · simp
    · rw [ih]
      simp

theorem readOn_append (xs ys : List (List Char)) :
    readOn (xs ++ ys) = if xs.any (·.any endsHeader) then readOn xs else xs ++ readOn ys := by
  induction xs with
  | nil => rfl
  | cons x xs ih =>
    rw [List.cons_append, readOn, readOn, ih, List.any_cons]
    by_cases hx : x.any endsHeader = true
    · simp [hx]
    · by_cases hxs : xs.any (·.any endsHeader) = true <;> simp [hx, hxs]

/-- The lines of a declaration that are read. -/
def readLines : List (List Char) → List (List Char)
  | [] => []
  | first :: rest => first :: if (trim first).getLast?.any endsHeader then [] else readOn rest

/-- A semicolon ends the reading of a header that goes on below it: at the end of the first line, or
anywhere in a later one. -/
def BreaksOff (lines : List (List Char)) : Prop :=
  ∃ above line below, lines = above ++ line :: below ∧
    (if above = [] then (trim line).getLast? = some ';' else ';' ∈ line) ∧ ∃ l ∈ below, ¬Blank l

section LosesText
variable {stops stops' : List (List Char) → List Char → Prop} {first : List Char}
  {lines rest : List (List Char)}

/-- Text stands below a line at which the reading stops, given the lines above it. -/
def LosesText (stops : List (List Char) → List Char → Prop) (lines : List (List Char)) : Prop :=
  ∃ above line below, lines = above ++ line :: below ∧ stops above line ∧ ∃ l ∈ below, ¬Blank l

theorem not_losesText_nil : ¬LosesText stops [] := by
  rintro ⟨above, line, below, hsplit, -⟩
  simp at hsplit

theorem losesText_cons_of_stops (h : stops [] first) :
    LosesText stops (first :: rest) ↔ ∃ l ∈ rest, ¬Blank l := by
  constructor
  · rintro ⟨above, line, below, hsplit, -, l, hl, htext⟩
    cases above with
    | nil =>
      cases hsplit
      exact ⟨l, hl, htext⟩
    | cons x above =>
      cases hsplit
      exact ⟨l, by simp [hl], htext⟩
  · exact fun htext => ⟨[], first, rest, rfl, h, htext⟩

theorem losesText_cons_of_not_stops (h : ¬stops [] first) :
    LosesText stops (first :: rest) ↔ LosesText (fun above => stops (first :: above)) rest := by
  constructor
  · rintro ⟨above, line, below, hsplit, hstops, htext⟩
    cases above with
    | nil =>
      cases hsplit
      exact absurd hstops h
    | cons x above =>
      cases hsplit
      exact ⟨above, line, below, rfl, hstops, htext⟩
  · rintro ⟨above, line, below, rfl, hstops, htext⟩
    exact ⟨first :: above, line, below, rfl, hstops, htext⟩

theorem LosesText.imp (h : ∀ above, ∀ line ∈ lines, stops above line → stops' above line)
    (hlost : LosesText stops lines) : LosesText stops' lines := by
  obtain ⟨above, line, below, rfl, hstops, htext⟩ := hlost
  exact ⟨above, line, below, rfl, h above line (by simp) hstops, htext⟩

end LosesText

/-- Of the lines that continue a header, what is left unread has text exactly when a line that ends the
reading has text below it. -/
theorem exists_unread_readOn (lines : List (List Char)) :
    ∃ unread, lines = readOn lines ++ unread ∧
      ((∃ l ∈ unread, ¬Blank l) ↔ LosesText (fun _ line => line.any endsHeader = true) lines) := by
  induction lines with
  | nil => exact ⟨[], rfl, iff_of_false (by simp) not_losesText_nil⟩
  | cons first rest ih =>
    by_cases hfirst : first.any endsHeader = true
    · refine ⟨rest, ?_, (losesText_cons_of_stops hfirst).symm⟩
      rw [readOn, if_pos hfirst]
      rfl
    · obtain ⟨unread, hrest, htext⟩ := ih
      refine ⟨unread, ?_, ?_⟩
      · rw [readOn, if_neg hfirst, List.cons_append, ← hrest]
      · rw [losesText_cons_of_not_stops hfirst]
        exact htext

section Braceless
variable {lines : List (List Char)} (hplain : ∀ l ∈ lines, '\x7b' ∉ l)

theorem any_endsHeader_iff {line : List Char} (hline : '\x7b' ∉ line) :
    line.any endsHeader = true ↔ ';' ∈ line := by
  have hends : ∀ c ∈ line, (endsHeader c = true ↔ c = ';') := by
    intro c hc
    have hbrace : c ≠ '\x7b' := fun he => hline (he ▸ hc)
    simp [endsHeader, isBrace, hbrace]
  rw [List.any_eq_true]
  constructor
  · rintro ⟨c, hc, h⟩
    exact (hends c hc).mp h ▸ hc
  · exact fun h => ⟨';', h, rfl⟩

theorem getLast?_any_endsHeader_iff {line : List Char} (hline : '\x7b' ∉ line) :
    (trim line).getLast?.any endsHeader = true ↔ (trim line).getLast? = some ';' := by
  cases hlast : (trim line).getLast? with
  | none => simp
  | some c =>
    have hmem : c ∈ line := mem_of_mem_trim (List.mem_of_getLast? hlast)
    have hbrace : c ≠ '\x7b' := fun he => hline (he ▸ hmem)
    simp [endsHeader, isBrace, hbrace]

include hplain

theorem exists_unread_readLines :
    ∃ unread, lines = readLines lines ++ unread ∧ ((∃ l ∈ unread, ¬Blank l) ↔ BreaksOff lines) := by
  cases lines with
  | nil => exact ⟨[], rfl, iff_of_false (by simp) not_losesText_nil⟩
  | cons first rest =>
    have hfirst := getLast?_any_endsHeader_iff (hplain first List.mem_cons_self)
    have hlater : ∀ line ∈ rest, (line.any endsHeader = true ↔ ';' ∈ line) :=
      fun line hline => any_endsHeader_iff (hplain line (List.mem_cons_of_mem first hline))
    by_cases hstop : (trim first).getLast?.any endsHeader = true
    · refine ⟨rest, ?_, (losesText_cons_of_stops (hfirst.mp hstop)).symm⟩
      rw [readLines, if_pos hstop]
      rfl
    · obtain ⟨unread, hrest, htext⟩ := exists_unread_readOn rest
      refine ⟨unread, ?_, htext.trans (Iff.trans ?_ (losesText_cons_of_not_stops ?_).symm)⟩
      · rw [readLines, if_neg hstop, List.cons_append, ← hrest]
      · exact ⟨.imp fun _ line hline => (hlater line hline).mp,
          .imp fun _ line hline => (hlater line hline).mpr⟩
      · exact mt hfirst.mpr hstop

/-- The lines that are read give the whole header unless the reading breaks off. -/
theorem trim_oneLine_readLines_iff :
    trim (oneLine (readLines lines)) = trim (oneLine lines) ↔ ¬BreaksOff lines := by
  obtain ⟨unread, hlines, htext⟩ := exists_unread_readLines hplain
  have hwhole : oneLine lines = oneLine (readLines lines) ++ continuation unread := by
    cases lines with
    | nil =>
      obtain rfl : unread = [] := hlines.symm
      rfl
    | cons first rest => exact (congrArg oneLine hlines).trans (oneLine_append (by simp [readLines]) unread)
  rw [hwhole, eq_comm, trim_append_eq_iff, blank_continuation_iff, ← htext]
  push Not
  rfl

end Braceless

theorem takeWhile_not_isBrace {cs : List Char} (h : '\x7b' ∉ cs) (rest : List Char) :
    (cs ++ rest).takeWhile (!isBrace ·) = cs ++ rest.takeWhile (!isBrace ·) := by
  apply List.takeWhile_append_of_pos
  intro c hc
  have hbrace : c ≠ '\x7b' := fun he => h (he ▸ hc)
  simp [isBrace, hbrace]

theorem beforeBrace_of_not_mem {cs : List Char} (h : '\x7b' ∉ cs) : beforeBrace cs = trim cs := by
  have htake := takeWhile_not_isBrace h []
  rw [List.takeWhile_nil, List.append_nil] at htake
  rw [beforeBrace, htake]

theorem beforeBrace_append {cs : List Char} (h : '\x7b' ∉ cs) (rest : List Char) :
    beforeBrace (cs ++ '\x7b' :: rest) = trim cs := by
  rw [beforeBrace, takeWhile_not_isBrace h, List.takeWhile_cons_of_neg (by decide), List.append_nil]

/-- The header of a function on the line with its brace. -/
theorem headerOf_within {header rest : List Char} (hplain : '\x7b' ∉ header)
    (hopens : opensWith functionOpenings (trim (header ++ '\x7b' :: rest)) = true)
    (following : List (List Char)) :
    headerOf (header ++ '\x7b' :: rest) following = trim header := by
  have hstripped : trim (header ++ '\x7b' :: rest) = trimLeft header ++ '\x7b' :: trimRight rest :=
    trim_around (by decide) header rest
  have hleft : '\x7b' ∉ trimLeft header := fun hc => hplain (mem_of_mem_trimLeft hc)
  unfold headerOf
  dsimp only
  rw [if_pos hopens, hstripped]
  split_ifs
  · rw [beforeBrace_append hleft, trim_trimLeft]
  · rw [extendHeader_eq, List.append_assoc, List.cons_append, beforeBrace_append hleft, trim_trimLeft]

/-- A line with a brace gives what it has before the brace. -/
theorem beforeBrace_line {start line : List Char} (hstart : '\x7b' ∉ start) (hline : '\x7b' ∉ line)
    (rest : List Char) :
    beforeBrace (start ++ ' ' :: trim (line ++ '\x7b' :: rest)) = trim (start ++ ' ' :: trim line) := by
  have hstripped : trim (line ++ '\x7b' :: rest) = trimLeft line ++ '\x7b' :: trimRight rest :=
    trim_around (by decide) line rest
  have hspaced : '\x7b' ∉ start ++ [' '] ++ trimLeft line := by
    simpa [hstart] using fun hc => hline (mem_of_mem_trimLeft hc)
  calc beforeBrace (start ++ ' ' :: trim (line ++ '\x7b' :: rest))
      = beforeBrace (start ++ [' '] ++ trimLeft line ++ '\x7b' :: trimRight rest) := by
        rw [hstripped]
        simp
    _ = trim (start ++ [' '] ++ trimLeft line) := beforeBrace_append hspaced _
    _ = trim (start ++ [' '] ++ trim line) := (trim_append_trim _ line).symm
    _ = trim (start ++ ' ' :: trim line) := by simp

theorem not_mem_joined {c : Char} {first : List Char} {lines : List (List Char)} (hspace : c ≠ ' ')
    (h : ∀ l ∈ first :: lines, c ∉ l) : c ∉ trim first ++ continuation lines := by
  intro hc
  rcases List.mem_append.mp hc with hfirst | hlater
  · exact h first List.mem_cons_self (mem_of_mem_trim hfirst)
  · obtain ⟨line, hline, hmem⟩ := List.mem_flatMap.mp hlater
    rcases List.mem_cons.mp hmem with he | htrim
    · exact hspace he
    · exact h line (List.mem_cons_of_mem first hline) (mem_of_mem_trim htrim)

/-- The header of a function with its brace on a later line. -/
theorem headerOf_across {first last : List Char} {middle : List (List Char)}
    (hplain : ∀ l ∈ first :: middle ++ [last], '\x7b' ∉ l)
    (hopens : opensWith functionOpenings (trim first) = true) (rest : List Char)
    (others : List (List Char)) :
    headerOf first (middle ++ (last ++ '\x7b' :: rest) :: others) =
      trim (oneLine (readLines (first :: middle ++ [last]))) := by
  have hfirst : '\x7b' ∉ trim first := fun hc => hplain first (by simp) (mem_of_mem_trim hc)
  have hbrace : (last ++ '\x7b' :: rest).any endsHeader = true := by simp [endsHeader, isBrace]
  unfold headerOf
  dsimp only
  rw [if_pos hopens, List.cons_append, readLines]
  by_cases hstop : (trim first).getLast?.any endsHeader = true
  · rw [if_pos hstop, if_pos hstop, oneLine_cons, continuation_nil, List.append_nil,
      beforeBrace_of_not_mem hfirst]
  · rw [if_neg hstop, if_neg hstop, oneLine_cons, extendHeader_eq, readOn_append, readOn_append]
    by_cases hmiddle : middle.any (·.any endsHeader) = true
    · obtain ⟨unread, hread, -⟩ := exists_unread_readOn middle
      rw [if_pos hmiddle, if_pos hmiddle]
      apply beforeBrace_of_not_mem
      apply not_mem_joined (by decide)
      intro l hl
      have hmem : l ∈ first :: middle := by
        rw [hread]
        exact List.mem_append_left unread hl
      exact hplain l (List.mem_append_left [last] hmem)
    · have hstart : '\x7b' ∉ trim first ++ continuation middle := by
        apply not_mem_joined (by decide)
        exact fun l hl => hplain l (List.mem_append_left [last] hl)
      have hreached := beforeBrace_line hstart (hplain last (by simp)) rest
      have hsingle : readOn [last] = [last] := by simp [readOn]
      rw [if_neg hmiddle, if_neg hmiddle, hsingle, readOn, if_pos hbrace]
      simpa using hreached

theorem opensWith_iff {openings : List String} {cs : List Char} :
    opensWith openings cs = true ↔ ∃ o ∈ openings, o.toList <+: cs := by
  simp [opensWith]

/-- An opening stands on one line, begins with a letter and ends with one. -/
theorem functionOpenings_shape : ∀ o ∈ functionOpenings, '\n' ∉ o.toList ∧
    trimLeft o.toList.dropLast = o.toList.dropLast ∧ o.toList.getLast? = some 'n' := by
  decide

theorem opensWith_trim {indent cs : List Char} (hindent : Blank indent)
    (h : opensWith functionOpenings cs = true) :
    opensWith functionOpenings (trim (indent ++ cs)) = true := by
  obtain ⟨o, ho, rest, rfl⟩ := opensWith_iff.mp h
  obtain ⟨-, hfront, hlast⟩ := functionOpenings_shape o ho
  have hsplit : o.toList = o.toList.dropLast ++ ['n'] :=
    (List.dropLast_append_getLast? 'n' hlast).symm
  have htrim : trim (indent ++ (o.toList ++ rest)) = o.toList ++ trimRight rest := by
    rw [trim_append_left hindent, hsplit, List.append_assoc, List.singleton_append,
      trim_around (by decide), hfront, List.append_assoc]
    rfl
  rw [htrim]
  exact opensWith_iff.mpr ⟨o, ho, List.prefix_append _ _⟩

theorem opensWith_line {line below : List Char}
    (h : opensWith functionOpenings (line ++ '\n' :: below) = true) :
    opensWith functionOpenings line = true := by
  obtain ⟨o, ho, hprefix⟩ := opensWith_iff.mp h
  refine opensWith_iff.mpr ⟨o, ho, ?_⟩
  rcases List.prefix_or_prefix_of_prefix hprefix (List.prefix_append line _) with hle | ⟨more, hmore⟩
  · exact hle
  · rw [← hmore, List.prefix_append_right_inj] at hprefix
    cases more with
    | nil => exact ⟨[], by rw [List.append_nil, ← hmore, List.append_nil]⟩
    | cons c more =>
      have hnewline : c = '\n' := (List.cons_prefix_cons.mp hprefix).1
      have hmem : '\n' ∈ o.toList := by simp [← hmore, hnewline]
      exact absurd hmem (functionOpenings_shape o ho).1

theorem signature_of_lines {s : SourceLines} {before following : List (List Char)} {line : List Char}
    (hs : s.lines = before ++ line :: following) (hbound : (s.lines.length : Int) ≤ positionBound)
    {span : Span} (hspan : span.startLine = (before.length + 1 : Nat)) :
    s.signature span = .ok (.ofList (headerOf line (following.take 3))) := by
  have hlength : s.lines.length = before.length + (following.length + 1) := by
    rw [hs, List.length_append, List.length_cons]
  have hindex : span.startLine - 1 = (before.length : Int) := by omega
  have hget : signedGet s.lines (span.startLine - 1) = .ok line := by
    rw [hindex]
    exact signedGet_eq_ok (by simp [hs]) hbound
  have hslice : slice s.lines span.startLine (span.startLine + 3) = following.take 3 := by
    have hstop : span.startLine + 3 = ((before.length + 1 + 3 : Nat) : Int) := by omega
    rw [hstop, hspan, slice_natCast, hs, List.drop_take]
    simp
  unfold signature
  rw [if_neg (by omega), if_neg (by omega), hget, hslice]
  rfl

theorem exists_dropReturn_brace (tail : List Char) :
    ∃ tail', dropReturn ('\x7b' :: tail) = '\x7b' :: tail' := by
  unfold dropReturn
  split_ifs with hlast
  · cases tail with
    | nil => simp at hlast
    | cons c tail => exact ⟨(c :: tail).dropLast, rfl⟩
  · exact ⟨tail, rfl⟩

/-- The lines of a text from the line of a place in it on, up to a brace behind that place. -/
theorem exists_lines_brace (path : String) {text : String} {front header rest : List Char}
    (h : text.toList = front ++ header ++ '\x7b' :: rest) :
    ∃ tail others, (ofText text path).lines = (completed front).map dropReturn ++
      ((completed (begun front ++ header)).map dropReturn ++
        (begun (begun front ++ header) ++ '\x7b' :: tail) :: others) := by
  have htext : text.toList = front ++ header ++ ['\x7b'] ++ rest := by rw [h]; simp
  have hend : ¬(rest = [] ∧ (front ++ header ++ ['\x7b'] ++ rest).getLast? = some '\n') := by
    rintro ⟨rfl, hlast⟩
    simp at hlast
  obtain ⟨tail, others, -, htail, hsplit⟩ := splitLines_append hend
  have hbrace : '\n' ∉ '\x7b' :: tail := by simpa using htail
  obtain ⟨tail', htail'⟩ := exists_dropReturn_brace tail
  refine ⟨tail', others, ?_⟩
  have hlines : (ofText text path).lines = splitLines (front ++ header ++ ['\x7b'] ++ rest) := by
    rw [← htext]
    rfl
  have hassoc : front ++ header ++ ['\x7b'] ++ tail = front ++ (header ++ '\x7b' :: tail) := by simp
  rw [hlines, hsplit, hassoc, pieces_append, ← List.append_assoc, pieces_append_of_not_mem hbrace]
  simp [dropReturn_append, htail']

theorem oneLine_readLines_cons (first : List Char) (rest : List (List Char)) :
    oneLine (readLines (first :: rest)) =
      trim first ++ if (trim first).getLast?.any endsHeader then [] else continuation (readOn rest) := by
  rw [readLines, oneLine_cons]
  split_ifs <;> rfl

/-- The white space around lines makes no difference, nor does a last line that has nothing else. -/
theorem trim_oneLine_readLines_congr {first first' last : List Char} {ending : List (List Char)}
    (hfirst : trim first = trim first')
    (hlast : Blank last ∧ ending = [] ∨ ∃ last', trim last = trim last' ∧ ending = [last'])
    (middle : List (List Char)) :
    trim (oneLine (readLines (first :: (middle ++ [last])))) =
      trim (oneLine (readLines (first' :: (middle ++ ending)))) := by
  have hsingle (l : List Char) : readOn [l] = [l] := by simp [readOn]
  rw [oneLine_readLines_cons, oneLine_readLines_cons, hfirst, readOn_append, readOn_append, hsingle]
  split_ifs with hstop hmiddle
  · rfl
  · rfl
  · rcases hlast with ⟨hblank, rfl⟩ | ⟨last', htrim, rfl⟩
    · have hspace : Blank (continuation [last]) := blank_continuation_iff.mpr (by simpa using hblank)
      rw [continuation_append, ← List.append_assoc, trim_append_right hspace, readOn, List.append_nil]
    · rw [hsingle, continuation_append, continuation_append, continuation_cons, continuation_cons, htrim]

theorem not_mem_of_mem_lines {c : Char} {cs line : List Char} (h : c ∉ cs)
    (hline : line ∈ (completed cs).map dropReturn ++ [begun cs]) : c ∉ line := by
  intro hc
  rcases List.mem_append.mp hline with hmem | hmem
  · obtain ⟨l, hl, rfl⟩ := List.mem_map.mp hmem
    have hpiece : l ∈ pieces isNewline cs := by rw [pieces_eq]; exact List.mem_append_left _ hl
    exact h (mem_of_mem_pieces hpiece (mem_of_mem_dropReturn hc))
  · have hpiece : line ∈ pieces isNewline cs := by rw [pieces_eq]; exact List.mem_append_right _ hmem
    exact h (mem_of_mem_pieces hpiece hc)

section Reading
variable {path text : String} {front rest : List Char} {span : Span}
  (hsize : (text.length : Int) < positionBound)
  (hspan : span.startLine = (front.count '\n' + 1 : Nat))
include hsize hspan

theorem signature_at_front {line : List Char} {following : List (List Char)}
    (hlines : (ofText text path).lines = (completed front).map dropReturn ++ line :: following) :
    (ofText text path).signature span = .ok (.ofList (headerOf line (following.take 3))) := by
  have hlength : (ofText text path).lines.length ≤ text.length + 1 := length_splitLines_le text.toList
  refine signature_of_lines hlines (by omega) ?_
  rw [List.length_map, length_completed, hspan]

variable (hindent : Blank (begun front))
include hindent

theorem signature_within {header : List Char} (h : text.toList = front ++ header ++ '\x7b' :: rest)
    (hopens : opensWith functionOpenings header = true) (hplain : '\x7b' ∉ header)
    (hline : '\n' ∉ header) : (ofText text path).signature span = .ok (.ofList (trim header)) := by
  have hindented : '\n' ∉ begun front ++ header := fun hc =>
    (List.mem_append.mp hc).elim (newline_not_mem_begun front) hline
  have hclear : '\x7b' ∉ begun front ++ header := fun hc =>
    (List.mem_append.mp hc).elim (fun hb => absurd (hindent _ hb) (by decide)) hplain
  obtain ⟨tail, others, hlines⟩ := exists_lines_brace path h
  rw [completed_of_not_mem hindented, begun_of_not_mem hindented] at hlines
  have hopening : opensWith functionOpenings (trim (begun front ++ header ++ '\x7b' :: tail)) = true := by
    obtain ⟨o, ho, hprefix⟩ := opensWith_iff.mp hopens
    rw [List.append_assoc]
    exact opensWith_trim hindent (opensWith_iff.mpr ⟨o, ho, hprefix.trans (List.prefix_append _ _)⟩)
  rw [signature_at_front hsize hspan hlines, headerOf_within hclear hopening, trim_append_left hindent]

theorem signature_across {line below : List Char}
    (h : text.toList = front ++ (line ++ '\n' :: below) ++ '\x7b' :: rest)
    (hopens : opensWith functionOpenings line = true) (hplain : '\x7b' ∉ line ++ '\n' :: below)
    (hline : '\n' ∉ line) (hnear : below.count '\n' ≤ 2) :
    (ofText text path).signature span = .ok (.ofList (trim (oneLine (readLines
      (dropReturn (begun front ++ line) :: ((completed below).map dropReturn ++ [begun below])))))) := by
  have hindented : '\n' ∉ begun front ++ line := fun hc =>
    (List.mem_append.mp hc).elim (newline_not_mem_begun front) hline
  obtain ⟨tail, others, hlines⟩ := exists_lines_brace path h
  rw [← List.append_assoc (begun front), completed_line hindented, begun_line, List.map_cons,
    List.cons_append] at hlines
  have hclear : ∀ l ∈ dropReturn (begun front ++ line) :: (completed below).map dropReturn ++
      [begun below], '\x7b' ∉ l := by
    intro l hl
    rcases List.mem_cons.mp hl with rfl | hl
    · intro hc
      rcases List.mem_append.mp (mem_of_mem_dropReturn hc) with hb | hb
      · exact absurd (hindent _ hb) (by decide)
      · exact hplain (List.mem_append_left _ hb)
    · exact not_mem_of_mem_lines (fun hc => hplain (by simp [hc])) hl
  have hopening : opensWith functionOpenings (trim (dropReturn (begun front ++ line))) = true := by
    rw [trim_dropReturn]
    exact opensWith_trim hindent hopens
  generalize hmiddle : (completed below).map dropReturn = middle at hlines hclear ⊢
  have hlength : middle.length ≤ 2 := by
    rw [← hmiddle, List.length_map, length_completed]
    exact hnear
  obtain ⟨k, hk⟩ : ∃ k, 3 - middle.length = k + 1 := ⟨2 - middle.length, by omega⟩
  have htake : (middle ++ (begun below ++ '\x7b' :: tail) :: others).take 3 =
      middle ++ (begun below ++ '\x7b' :: tail) :: others.take k := by
    rw [List.take_append, List.take_of_length_le (by omega), hk, List.take_succ_cons]
  rw [signature_at_front hsize hspan hlines, htake, headerOf_across hclear hopening tail,
    List.cons_append]

end Reading

/-- The last line of a text and the line that it begins: the latter is empty behind a line feed. -/
theorem splitLines_below {line : List Char} (hline : '\n' ∉ line) (below : List Char) :
    ∃ ending, splitLines (line ++ '\n' :: below) =
        dropReturn line :: ((completed below).map dropReturn ++ ending) ∧
      (Blank (begun below) ∧ ending = [] ∨
        ∃ last, trim (begun below) = trim last ∧ ending = [last]) := by
  rw [splitLines_eq, completed_line hline, begun_line]
  split_ifs with hlast
  · have hnil : begun below = [] := begun_line line below ▸ begun_eq_nil hlast
    refine ⟨[], by simp, Or.inl ⟨?_, rfl⟩⟩
    simp [hnil, Blank]
  · exact ⟨[dropReturn (begun below)], by simp, Or.inr ⟨_, (trim_dropReturn _).symm, rfl⟩⟩

/-- What is read of a header that opens a line, when its brace is not more than three lines below. -/
theorem signature_of_header (path : String) {text : String} {front header rest : List Char}
    (h : text.toList = front ++ header ++ '\x7b' :: rest)
    (hsize : (text.length : Int) < positionBound) (hindent : Blank (begun front))
    (hopens : opensWith functionOpenings header = true) (hplain : '\x7b' ∉ header)
    (hnear : header.count '\n' ≤ 3) {span : Span}
    (hspan : span.startLine = (front.count '\n' + 1 : Nat)) :
    (ofText text path).signature span =
      .ok (.ofList (trim (oneLine (readLines (splitLines header))))) := by
  by_cases hwrap : '\n' ∈ header
  · obtain ⟨line, below, rfl, hline⟩ := List.eq_append_cons_of_mem hwrap
    have hbelow : below.count '\n' ≤ 2 := by
      rw [List.count_append, List.count_cons_self] at hnear
      omega
    have hfirst : trim (dropReturn (begun front ++ line)) = trim (dropReturn line) := by
      rw [trim_dropReturn, trim_dropReturn, trim_append_left hindent]
    obtain ⟨ending, hsplit, hending⟩ := splitLines_below hline below
    rw [signature_across hsize hspan hindent h (opensWith_line hopens) hplain hline hbelow, hsplit,
      trim_oneLine_readLines_congr hfirst hending]
  · have hlast : header.getLast? ≠ some '\n' := fun hc => hwrap (List.mem_of_getLast? hc)
    have hsingle : splitLines header = [dropReturn header] := by
      rw [splitLines_eq, completed_of_not_mem hwrap, begun_of_not_mem hwrap, if_neg hlast]
      rfl
    have hread : oneLine (readLines [dropReturn header]) = trim header := by
      rw [oneLine_readLines_cons, trim_dropReturn, readOn, continuation_nil, ite_self, List.append_nil]
    rw [signature_within hsize hspan hindent h hopens hplain hwrap, hsingle, hread, trim_trim]

def headerText (text : String) (n body : Node) : List Char :=
  ((Source.ofText text).between n.label.start body.label.start).toList

/-- A function that begins its line, whose header opens in a known way, has no brace in it and reaches
over at most four lines. -/
structure HasHeader (text : String) (n body : Node) : Prop where
  isBody : n.child? "body" = some body
  startsBetween : Utf8.IsBoundary text.toList n.label.start
  opensBetween : Utf8.IsBoundary text.toList body.label.start
  startsBefore : n.label.start ≤ body.label.start
  opensWithBrace : (Source.ofText text).bytes[body.label.start]? = some 0x7B
  beginsLine : Blank (begun ((Source.ofText text).between 0 n.label.start).toList)
  opening : opensWith functionOpenings (headerText text n body) = true
  plain : '\x7b' ∉ headerText text n body
  near : ((Source.ofText text).position body.label.start).line ≤
    ((Source.ofText text).position n.label.start).line + 3

theorem headerText_eq {text : String} {n body : Node} {front header rest : List Char}
    (htext : text.toList = front ++ header ++ rest)
    (hstart : (Utf8.encode front).length = n.label.start)
    (hopen : (Utf8.encode (front ++ header)).length = body.label.start) :
    headerText text n body = header := by
  rw [headerText, ← hstart, ← hopen, Source.between_mid htext, String.toList_ofList]

theorem between_zero {text : String} {front rest : List Char} (htext : text.toList = front ++ rest) :
    (Source.ofText text).between 0 (Utf8.encode front).length = .ofList front := by
  have hnil : text.toList = [] ++ front ++ rest := htext
  exact Source.between_mid hnil

theorem HasHeader.cut {text : String} {n body : Node} (h : HasHeader text n body) :
    ∃ front rest, text.toList = front ++ headerText text n body ++ '\x7b' :: rest ∧
      Blank (begun front) ∧ (headerText text n body).count '\n' ≤ 3 ∧
      (Span.ofNode (.ofText text) n).startLine = (front.count '\n' + 1 : Nat) := by
  obtain ⟨front, header, rest, htext, hfront, hheader⟩ :=
    h.startsBetween.cut h.opensBetween h.startsBefore
  have hassoc := htext.trans (List.append_assoc front header rest)
  have hstart := Source.position_front hassoc
  have hopen := Source.position_front htext
  have hindent := h.beginsLine
  rw [← hfront, between_zero hassoc, String.toList_ofList] at hindent
  have hnear := h.near
  rw [← hfront, ← hheader, hstart, hopen, List.count_append] at hnear
  dsimp only at hnear
  have hbrace := h.opensWithBrace
  rw [← hheader, Source.ofText, htext, Utf8.encode_append, List.getElem?_append_right (Nat.le_refl _),
    Nat.sub_self, ← List.head?_eq_getElem?] at hbrace
  obtain ⟨rest, rfl⟩ := Utf8.exists_of_head?_encode hbrace
  rw [headerText_eq htext hfront hheader]
  refine ⟨front, rest, htext, hindent, by omega, ?_⟩
  rw [Span.ofNode, Span.between, ← hfront, hstart]

/-- The parts of a text around a header make it one. -/
theorem HasHeader.of_cut {text : String} {n body : Node} {front header rest : List Char}
    (htext : text.toList = front ++ header ++ '\x7b' :: rest) (hbody : n.child? "body" = some body)
    (hstart : (Utf8.encode front).length = n.label.start)
    (hopen : (Utf8.encode (front ++ header)).length = body.label.start)
    (hindent : Blank (begun front)) (hopening : opensWith functionOpenings header = true)
    (hplain : '\x7b' ∉ header) (hnear : header.count '\n' ≤ 3) : HasHeader text n body := by
  have hassoc := htext.trans (List.append_assoc front header _)
  have hshown := headerText_eq htext hstart hopen
  exact
    { isBody := hbody
      startsBetween := ⟨front, hassoc ▸ List.prefix_append _ _, hstart⟩
      opensBetween := ⟨front ++ header, htext ▸ List.prefix_append _ _, hopen⟩
      startsBefore := by
        rw [← hstart, ← hopen, Utf8.encode_append, List.length_append]
        omega
      opensWithBrace := by
        rw [← hopen, Source.ofText, htext, Utf8.encode_append,
          List.getElem?_append_right (Nat.le_refl _), Nat.sub_self]
        rfl
      beginsLine := by rwa [← hstart, between_zero hassoc, String.toList_ofList]
      opening := by rwa [hshown]
      plain := by rwa [hshown]
      near := by
        rw [← hstart, ← hopen, Source.position_front hassoc, Source.position_front htext,
          List.count_append]
        dsimp only
        omega }

/-- The signature of a function is its whole header, each line trimmed, exactly when its reading does not
break off; otherwise it is what is read. -/
theorem signature_ofNode_iff (path : String) {text : String} {n body : Node}
    (hsize : (text.length : Int) < positionBound) (h : HasHeader text n body) :
    let lines := splitLines (headerText text n body)
    let signature := (ofText text path).signature (.ofNode (.ofText text) n)
    (signature = .ok (.ofList (trim (oneLine lines))) ↔ ¬BreaksOff lines) ∧
      signature = .ok (.ofList (trim (oneLine (readLines lines)))) := by
  intro lines signature
  obtain ⟨front, rest, htext, hindent, hnear, hspan⟩ := h.cut
  have hread : signature = .ok (.ofList (trim (oneLine (readLines lines)))) :=
    signature_of_header path htext hsize hindent h.opening h.plain hnear hspan
  have hplain : ∀ l ∈ lines, '\x7b' ∉ l := fun l hl hc => h.plain (mem_of_mem_splitLines hl hc)
  refine ⟨?_, hread⟩
  rw [hread, Except.ok.injEq, String.ofList_inj]
  exact trim_oneLine_readLines_iff hplain

/-- A semicolon inside the first line does no harm, and the body may open three lines below it. -/
theorem signature_ofNode_wrapped :
    let text := "impl S \x7b\n    pub fn f(a: [u8; 4],\r\n        n: u64,\n    )\n    \x7b n \x7d\n\x7d"
    let body : Node := .mk ⟨"block", true, false, false, some "body", 61, 66⟩ []
    let n : Node := .mk ⟨"function_item", true, false, false, none, 13, 66⟩ [body]
    (text.length : Int) < positionBound ∧ HasHeader text n body ∧
      ¬BreaksOff (splitLines (headerText text n body)) ∧
      (ofText text "lib.rs").signature (.ofNode (.ofText text) n) =
        .ok "pub fn f(a: [u8; 4], n: u64, )" := by
  intro text body n
  have hsize : (text.length : Int) < positionBound := by decide
  have htext : text.toList = "impl S \x7b\n    ".toList ++
      "pub fn f(a: [u8; 4],\r\n        n: u64,\n    )\n    ".toList ++ '\x7b' :: " n \x7d\n\x7d".toList := by
    decide +kernel
  have hstart : (Utf8.encode "impl S \x7b\n    ".toList).length = n.label.start := by decide +kernel
  have hopen : (Utf8.encode ("impl S \x7b\n    ".toList ++
      "pub fn f(a: [u8; 4],\r\n        n: u64,\n    )\n    ".toList)).length = body.label.start := by
    decide +kernel
  have hheader : HasHeader text n body := .of_cut htext rfl hstart hopen (by decide +kernel)
    (by decide +kernel) (by decide +kernel) (by decide +kernel)
  have hshown := headerText_eq htext hstart hopen
  have hplain : ∀ l ∈ splitLines (headerText text n body), '\x7b' ∉ l :=
    fun l hl hc => hheader.plain (mem_of_mem_splitLines hl hc)
  have hwhole : ¬BreaksOff (splitLines (headerText text n body)) := by
    rw [← trim_oneLine_readLines_iff hplain, hshown]
    decide +kernel
  refine ⟨hsize, hheader, hwhole, ?_⟩
  rw [(signature_ofNode_iff "lib.rs" hsize hheader).1.mpr hwhole, hshown]
  decide +kernel

/-- The semicolon of an array type on the second line ends the reading, and two parts of the header are
lost. -/
theorem signature_loses_parameters :
    let text := "fn f(\n    key: [u8; 32],\n    n: u64,\n) -> u64 \x7b\n    n\n\x7d\n"
    let body : Node := .mk ⟨"block", true, false, false, some "body", 46, 55⟩ []
    let n : Node := .mk ⟨"function_item", true, false, false, none, 0, 55⟩ [body]
    let header := String.ofList (trim (oneLine (splitLines (headerText text n body))))
    HasHeader text n body ∧ header = "fn f( key: [u8; 32], n: u64, ) -> u64" ∧
      (ofText text "lib.rs").signature (.ofNode (.ofText text) n) = .ok "fn f( key: [u8; 32]," := by
  intro text body n header
  have htext : text.toList = [] ++ "fn f(\n    key: [u8; 32],\n    n: u64,\n) -> u64 ".toList ++
      '\x7b' :: "\n    n\n\x7d\n".toList := by
    decide +kernel
  have hopen : (Utf8.encode ([] ++ "fn f(\n    key: [u8; 32],\n    n: u64,\n) -> u64 ".toList)).length =
      body.label.start := by
    decide +kernel
  have hheader : HasHeader text n body := .of_cut htext rfl rfl hopen (by decide +kernel)
    (by decide +kernel) (by decide +kernel) (by decide +kernel)
  have hshown : headerText text n body = _ := headerText_eq htext rfl hopen
  refine ⟨hheader, ?_, ?_⟩
  · dsimp only [header]
    rw [hshown]
    decide +kernel
  · decide +kernel

end SourceLines

end AnchorAudit
