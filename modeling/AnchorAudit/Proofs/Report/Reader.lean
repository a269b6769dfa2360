import AnchorAudit.Proofs.Decimal
import AnchorAudit.Proofs.Report.Sections
import Mathlib.Data.List.Basic

/-! The report for a console, read back from its lines. The readers know the wording of a report and
nothing of how it is put together. -/
namespace AnchorAudit.Report

open Text

def titles : List (String × Severity) :=
  [("High", .high), ("Medium", .medium), ("Low", .low), ("Informational", .informational)]

def after? (front : String) (cs : List Char) : Option (List Char) := cs.dropPrefix? front.toList

/-- The severity whose word comes after a text at the front, and what follows it. -/
def titled? (front : String) (line : String) : Option (Severity × List Char) := do
  let cs ← after? front line.toList
  let severity ← titles.lookup (.ofList (cs.takeWhile Char.isAlpha))
  return (severity, cs.dropWhile Char.isAlpha)

def heading? (front back : String) (line : String) : Option Severity := do
  let (severity, rest) ← titled? front line
  if rest = back.toList then some severity else none

def numberBefore? (back : String) (cs : List Char) : Option Nat :=
  let (n, rest) := leadingNumber cs
  if rest = back.toList then some n else none

def count? (front between back : String) (line : String) : Option (Severity × Nat) := do
  let (severity, rest) ← titled? front line
  return (severity, ← numberBefore? back (← after? between rest))

def total? (front back : String) (line : String) : Option Nat := do
  numberBefore? back (← after? front line.toList)

def numbered? (mark : String) (cs : List Char) : Option (Nat × String) :=
  if endsNumber cs then none
  else (after? mark (leadingNumber cs).2).map fun rest => ((leadingNumber cs).1, .ofList rest)

def enclosed? (front back : String) (line : String) : Option String := do
  let cs ← after? front line.toList
  (cs.dropSuffix? back.toList).map .ofList

/-- What can be read from the first lines, as far as it can, and the rest of the lines. -/
def leading {α : Type} (read? : String → Option α) : List String → List α × List String
  | [] => ([], [])
  | line :: lines =>
    match read? line with
    | none => ([], line :: lines)
    | some a => let (as, rest) := leading read? lines; (a :: as, rest)

section Lines

theorem after?_append (front : String) (cs : List Char) : after? front (front.toList ++ cs) = some cs :=
  List.dropPrefix?_append_of_beq cs (beq_self_eq_true _)

theorem titled?_append (front : String) (severity : Severity) {rest : String}
    (hrest : rest.toList.head?.all (!·.isAlpha) = true) :
    titled? front (front ++ severity.title ++ rest) = some (severity, rest.toList) := by
  have hletters : ∀ c ∈ severity.title.toList, c.isAlpha = true := by
    rw [← List.all_eq_true]
    cases severity <;> decide +kernel
  have htitle : titles.lookup severity.title = some severity := by
    cases severity <;> decide +kernel
  obtain ⟨htake, hdrop⟩ := run_append hletters hrest
  unfold titled?
  rw [String.toList_append, String.toList_append, List.append_assoc, after?_append]
  simp only [Option.bind_eq_bind, Option.bind_some, htake, hdrop, String.ofList_toList, htitle]
  rfl

theorem heading?_append (front : String) (severity : Severity) {back : String}
    (hback : back.toList.head?.all (!·.isAlpha) = true) :
    heading? front back (front ++ severity.title ++ back) = some severity := by
  unfold heading?
  rw [titled?_append front severity hback]
  exact if_pos rfl

theorem numberBefore?_append {back : String} (hback : endsNumber back.toList = true) (n : Nat) :
    numberBefore? back ((toString n).toList ++ back.toList) = some n := by
  unfold numberBefore?
  rw [toList_toString_nat, leadingNumber_toDigits hback]
  exact if_pos rfl

theorem count?_append (front between back : String) (severity : Severity) (n : Nat)
    (hbetween : between.toList.head?.any (!·.isAlpha) = true) (hback : endsNumber back.toList = true) :
    count? front between back (front ++ severity.title ++ between ++ toString n ++ back) =
      some (severity, n) := by
  have hrest : (between ++ toString n ++ back).toList.head?.all (!·.isAlpha) = true := by
    cases hcs : between.toList with
    | nil => simp [hcs] at hbetween
    | cons c cs => simpa [String.toList_append, hcs] using hbetween
  have hassoc : front ++ severity.title ++ between ++ toString n ++ back =
      front ++ severity.title ++ (between ++ toString n ++ back) := by
    simp only [String.append_assoc]
  unfold count?
  rw [hassoc, titled?_append front severity hrest]
  simp only [Option.bind_eq_bind, Option.bind_some, String.toList_append, List.append_assoc,
    after?_append, numberBefore?_append hback]
  rfl

theorem total?_append (front back : String) (hback : endsNumber back.toList = true) (n : Nat) :
    total? front back (front ++ toString n ++ back) = some n := by
  unfold total?
  rw [String.toList_append, String.toList_append, List.append_assoc, after?_append]
  exact numberBefore?_append hback n

theorem numbered?_append {mark : String} (hmark : mark.toList.head?.any (!·.isDigit) = true) (n : Nat)
    (text : String) : numbered? mark ((toString n).toList ++ mark.toList ++ text.toList) = some (n, text) := by
  have hends : endsNumber (mark.toList ++ text.toList) = true := by
    cases hcs : mark.toList with
    | nil => simp [hcs] at hmark
    | cons c cs => simpa [endsNumber, hcs] using hmark
  have hbegins : endsNumber (Nat.toDigits 10 n ++ (mark.toList ++ text.toList)) = false := by
    cases hcs : Nat.toDigits 10 n with
    | nil => exact absurd hcs Nat.toDigits_ne_nil
    | cons c cs =>
      have hc : c.isDigit = true :=
        Nat.isDigit_of_mem_toDigits (by decide) (by decide) (hcs ▸ List.mem_cons_self)
      simp [endsNumber, hc]
  unfold numbered?
  rw [List.append_assoc, toList_toString_nat, hbegins, leadingNumber_toDigits hends]
  simp only [Bool.false_eq_true, if_false, after?_append, Option.map_some, String.ofList_toList]

theorem enclosed?_append (front text back : String) :
    enclosed? front back (front ++ text ++ back) = some text := by
  have hsuffix : (text.toList ++ back.toList).dropSuffix? back.toList = some text.toList :=
    List.dropSuffix?_eq_some_iff.mpr ⟨back.toList, rfl, beq_self_eq_true _⟩
  unfold enclosed?
  rw [String.toList_append, String.toList_append, List.append_assoc, after?_append]
  simp only [Option.bind_eq_bind, Option.bind_some, hsuffix, Option.map_some, String.ofList_toList]

theorem leading_map {α : Type} {read? : String → Option α} {line : α → String} {items : List α}
    (hitems : ∀ a ∈ items, read? (line a) = some a) {rest : List String}
    (hrest : ∀ first ∈ rest.head?, read? first = none) :
    leading read? (items.map line ++ rest) = (items, rest) := by
  induction items with
  | nil =>
    cases rest with
    | nil => rfl
    | cons first rest =>
      rw [List.map_nil, List.nil_append, leading, hrest first rfl]
  | cons a items ih =>
    rw [List.forall_mem_cons] at hitems
    rw [List.map_cons, List.cons_append, leading, hitems.1]
    dsimp only
    rw [ih hitems.2]

end Lines

inductive Mark (α : Type) where
  | heading (severity : Severity)
  | entry (number : Nat) (shown : α)

/-- The entries before the first heading, and those under each heading. -/
def gather {α : Type} : List (Mark α) → List (Nat × α) × List (Severity × List (Nat × α))
  | [] => ([], [])
  | .heading severity :: marks => ([], (severity, (gather marks).1) :: (gather marks).2)
  | .entry number shown :: marks => ((number, shown) :: (gather marks).1, (gather marks).2)

def sections? {α : Type} (marks : List (Mark α)) : Option (List (Severity × List (Nat × α))) :=
  match gather marks with
  | ([], sections) => some sections
  | _ => none

section Marks
variable {α : Type} (shown : Finding → α)

def Section.marks (s : Section) : List (Mark α) :=
  .heading s.severity :: s.entries.map fun e => .entry e.1 (shown e.2)

theorem gather_entries (entries : List (Nat × Finding)) (marks : List (Mark α)) :
    gather (entries.map (fun e => .entry e.1 (shown e.2)) ++ marks) =
      (entries.map (fun e => (e.1, shown e.2)) ++ (gather marks).1, (gather marks).2) := by
  induction entries with
  | nil => rfl
  | cons e entries ih => rw [List.map_cons, List.cons_append, gather, ih]; rfl

theorem gather_sections (sections : List Section) :
    gather (sections.flatMap (Section.marks shown)) = ([], sections.map (Section.display shown)) := by
  induction sections with
  | nil => rfl
  | cons s sections ih =>
    rw [List.flatMap_cons, Section.marks, List.cons_append, gather, gather_entries, ih, List.append_nil]
    rfl

theorem sections?_marks (sections : List Section) :
    sections? (sections.flatMap (Section.marks shown)) = some (sections.map (Section.display shown)) := by
  unfold sections?
  rw [gather_sections]

end Marks

theorem lookup_map_pair (value : Severity → Nat) (severity : Severity) (severities : List Severity) :
    (severities.map fun s => (s, value s)).lookup severity =
      if severity ∈ severities then some (value severity) else none := by
  induction severities with
  | nil => rfl
  | cons s severities ih =>
    by_cases hs : severity = s
    · simp [hs]
    · simp [List.lookup_cons, beq_eq_false_iff_ne.mpr hs, hs, ih]

theorem mapM_flatMap {α β : Type} {read? : String → Option β} {lines : α → List String}
    {marks : α → List β} {items : List α} (h : ∀ a ∈ items, (lines a).mapM read? = some (marks a)) :
    (items.flatMap lines).mapM read? = some (items.flatMap marks) := by
  induction items with
  | nil => rfl
  | cons a items ih =>
    rw [List.forall_mem_cons] at h
    rw [List.flatMap_cons, List.mapM_append, h.1, ih h.2]
    rfl

section Text

def linesOf (text : String) : List String := (pieces isNewline text.toList).map .ofList

def OneLine (text : String) : Prop := '\n' ∉ text.toList

instance (text : String) : Decidable (OneLine text) := inferInstanceAs (Decidable (_ ∉ _))

theorem oneLine_append {a b : String} : OneLine (a ++ b) ↔ OneLine a ∧ OneLine b := by
  unfold OneLine
  rw [String.toList_append, List.mem_append, not_or]

theorem oneLine_enclosed {front text back : String} (h : OneLine text)
    (hfront : OneLine front := by decide +kernel) (hback : OneLine back := by decide +kernel) :
    OneLine (front ++ text ++ back) :=
  oneLine_append.mpr ⟨oneLine_append.mpr ⟨hfront, h⟩, hback⟩

theorem OneLine.linesOf {text : String} (h : OneLine text) : linesOf text = [text] := by
  rw [Report.linesOf, pieces_of_not_mem h, List.map_singleton, String.ofList_toList]

theorem linesOf_intercalate {parts : List String} (h : parts ≠ []) :
    linesOf ("\n".intercalate parts) = parts.flatMap linesOf := by
  induction parts with
  | nil => exact absurd rfl h
  | cons part parts ih =>
    cases parts with
    | nil => rw [String.intercalate_singleton, List.flatMap_singleton]
    | cons next parts =>
      have hfeed : "\n".toList = ['\n'] := rfl
      have hline : linesOf (part ++ "\n" ++ "\n".intercalate (next :: parts)) =
          linesOf part ++ linesOf ("\n".intercalate (next :: parts)) := by
        unfold linesOf
        rw [String.toList_append, String.toList_append, hfeed, List.append_assoc, List.singleton_append,
          pieces_line, List.map_append]
      rw [String.intercalate_cons_cons, hline, ih (List.cons_ne_nil next parts), ← List.flatMap_cons]

theorem intercalate_linesOf (text : String) : "\n".intercalate (linesOf text) = text := by
  have hfeed : "\n".toList = ['\n'] := rfl
  have hlines : (linesOf text).map String.toList = pieces isNewline text.toList := by
    simp [linesOf, Function.comp_def]
  rw [← String.toList_inj, String.toList_intercalate, hlines, hfeed, intercalate_pieces]

theorem oneLine_toString (n : Nat) : OneLine (toString n) := by
  unfold OneLine
  rw [toList_toString_nat]
  intro h
  have hdigit := Nat.isDigit_of_mem_toDigits (by decide) (by decide) h
  cases hdigit

theorem oneLine_toString_int (n : Int) : OneLine (toString n) := by
  rw [Int.toString_eq_repr, Int.repr_eq_if]
  split_ifs
  · exact oneLine_toString n.toNat
  · exact oneLine_append.mpr ⟨by decide +kernel, oneLine_toString (-n).toNat⟩

theorem oneLine_title (severity : Severity) : OneLine severity.title := by
  cases severity <;> decide +kernel

end Text

namespace Console

def mark? (line : String) : Option (Mark String) :=
  match numbered? ".\t" line.toList with
  | some (number, text) => some (.entry number text)
  | none => (heading? "----- " " Severity Findings -----" line).map .heading

def read? (messages : List String) : Option (Sheet String) :=
  match leading (count? "- " ": " "") messages with
  | (_, []) => none
  | (counts, first :: rest) =>
    match total? "Found " " vulnerabilities:" first with
    | some total => do return ⟨counts, total, ← sections? (← rest.mapM mark?)⟩
    | none => if first :: rest = ["No vulnerabilities found"] then some ⟨counts, 0, []⟩ else none

def shown (f : Finding) : String := f.description ++ " (" ++ f.location.render ++ ")"

def counts (findings : List Finding) : List (Severity × Nat) :=
  (Severity.ordered.filter (occurrences findings · ≠ 0)).map fun s => (s, occurrences findings s)

theorem summary_eq {findings : List Finding} {stats : Stats}
    (h : stats.bySeverity = tally findings) :
    summary stats = (counts findings).map fun c => "- " ++ c.1.title ++ ": " ++ toString c.2 := by
  unfold summary counts
  generalize Severity.ordered = severities
  induction severities with
  | nil => rfl
  | cons s severities ih =>
    have hcount : stats.count? s = if occurrences findings s = 0 then none
        else some (occurrences findings s : Int) := by
      unfold Stats.count?
      rw [h, lookup_tally]
    rw [List.filterMap_cons, List.filter_cons, ih, hcount]
    by_cases hs : occurrences findings s = 0
    · simp [hs]
    · have hne : (occurrences findings s : Int) ≠ 0 := Int.natCast_ne_zero.mpr hs
      simp only [hs, hne, if_false, decide_true, if_true, ne_eq, not_false_eq_true, List.map_cons]
      rfl

theorem lookup_counts (findings : List Finding) (severity : Severity) :
    ((counts findings).lookup severity).getD 0 = occurrences findings severity := by
  rw [counts, lookup_map_pair]
  by_cases hn : occurrences findings severity = 0
  · rw [if_neg (by simp [hn]), hn]
    rfl
  · rw [if_pos (by simp [hn, mem_ordered])]
    rfl

theorem mark?_entry (e : Nat × Finding) : mark? (entry e) = some (.entry e.1 (shown e.2)) := by
  have hline : (entry e).toList = (toString e.1).toList ++ ".\t".toList ++ (shown e.2).toList := by
    simp only [entry, shown, String.toList_append, List.append_assoc]
  unfold mark?
  rw [hline, numbered?_append rfl]

theorem mark?_heading (severity : Severity) :
    mark? ("----- " ++ severity.title ++ " Severity Findings -----") = some (.heading severity) := by
  have hnumber : numbered? ".\t" ("----- " ++ severity.title ++ " Severity Findings -----").toList = none := by
    rw [String.toList_append, String.toList_append]
    rfl
  unfold mark?
  rw [hnumber, heading?_append _ _ rfl]
  rfl

theorem mapM_sectionLines (s : Section) : (sectionLines s).mapM mark? = some (s.marks shown) := by
  have hentries : (s.entries.map entry).mapM mark? =
      some (s.entries.map fun e => Mark.entry e.1 (shown e.2)) := by
    have hmark : mark? ∘ entry = fun e => pure (.entry e.1 (shown e.2)) := funext mark?_entry
    rw [List.mapM_map, hmark, List.mapM_pure]
    rfl
  unfold sectionLines Section.marks
  rw [List.mapM_cons, mark?_heading, hentries]
  rfl

theorem count?_summary (c : Severity × Nat) :
    count? "- " ": " "" ("- " ++ c.1.title ++ ": " ++ toString c.2) = some c := by
  have hread := count?_append "- " ": " "" c.1 c.2 rfl rfl
  rwa [String.append_empty] at hread

theorem leading_messages {findings : List Finding} {stats : Stats}
    (h : stats.bySeverity = tally findings) :
    leading (count? "- " ": " "") (messages findings stats) = (counts findings, body findings) := by
  have hbody : ∀ first ∈ (body findings).head?, count? "- " ": " "" first = none := by
    intro first hfirst
    cases findings with
    | nil =>
      cases hfirst
      rfl
    | cons f findings =>
      cases hfirst
      unfold count? titled?
      rw [String.toList_append, String.toList_append]
      rfl
  unfold messages
  rw [summary_eq h, leading_map (fun c _ => count?_summary c) hbody]

theorem read?_messages {findings : List Finding} {stats : Stats}
    (h : stats.bySeverity = tally findings) :
    read? (messages findings stats) = some (sheetOf shown (counts findings) findings) := by
  unfold read?
  rw [leading_messages h]
  cases findings with
  | nil => rfl
  | cons f findings =>
    have htotal := total?_append "Found " " vulnerabilities:" rfl (f :: findings).length
    have hmarks : ((sections (f :: findings)).flatMap sectionLines).mapM mark? = some _ :=
      mapM_flatMap fun s _ => mapM_sectionLines s
    have hsections := sections?_marks shown (sections (f :: findings))
    change (match total? "Found " " vulnerabilities:" _ with | some total => _ | none => _) = _
    rw [htotal]
    dsimp only
    rw [hmarks]
    simp only [Option.bind_eq_bind, Option.bind_some, hsections]
    rfl

theorem oneLine_of_mem_messages {findings : List Finding} {stats : Stats}
    (hstats : stats.bySeverity = tally findings) (h : ∀ f ∈ findings, OneLine (shown f)) :
    ∀ message ∈ messages findings stats, OneLine message := by
  have hsummary : ∀ message ∈ summary stats, OneLine message := by
    rw [summary_eq hstats, List.forall_mem_map]
    intro c _
    have htitle : OneLine ("- " ++ c.1.title ++ ": ") := oneLine_enclosed (oneLine_title c.1)
    exact oneLine_append.mpr ⟨htitle, oneLine_toString c.2⟩
  have hentry : ∀ s ∈ sections findings, ∀ e ∈ s.entries, OneLine (entry e) := by
    intro s hs e he
    have hshown := h e.2 (mem_of_mem_sections findings hs he).1
    have hnumber : OneLine (toString e.1 ++ ".\t") :=
      oneLine_append.mpr ⟨oneLine_toString e.1, by decide +kernel⟩
    have hline : entry e = toString e.1 ++ ".\t" ++ shown e.2 := by
      simp only [entry, shown, String.append_assoc]
    rw [hline]
    exact oneLine_append.mpr ⟨hnumber, hshown⟩
  have hbody : ∀ message ∈ body findings, OneLine message := by
    unfold body
    split_ifs
    · decide +kernel
    · refine List.forall_mem_cons.mpr ⟨oneLine_enclosed (oneLine_toString _), ?_⟩
      intro message hmessage
      obtain ⟨s, hs, hline⟩ := List.mem_flatMap.mp hmessage
      rcases List.mem_cons.mp hline with rfl | hline
      · exact oneLine_enclosed (oneLine_title s.severity)
      · obtain ⟨e, he, rfl⟩ := List.mem_map.mp hline
        exact hentry s hs e he
  exact List.forall_mem_append.mpr ⟨hsummary, hbody⟩

theorem linesOf_render {findings : List Finding} {stats : Stats}
    (hstats : stats.bySeverity = tally findings) (h : ∀ f ∈ findings, OneLine (shown f)) :
    linesOf (render findings stats) = messages findings stats := by
  have hne : messages findings stats ≠ [] := by
    unfold messages body
    split_ifs <;> simp
  have hlines : (messages findings stats).flatMap linesOf = (messages findings stats).flatMap fun m => [m] :=
    List.flatMap_congr fun message hmessage =>
      (oneLine_of_mem_messages hstats h message hmessage).linesOf
  rw [render, linesOf_intercalate hne, hlines, List.flatMap_singleton']

end Console

end AnchorAudit.Report
