import AnchorAudit.Proofs.Report.Reader

/-! The report as a document, read back from its lines. What is read from the reports on an analysis
agrees with what was found. -/
namespace AnchorAudit.Report

open Text

namespace Markdown

structure Shown where
  heading : String
  rule : Option String
  location : String
  description : String
  code : Option String
  recommendations : List String

def shown (f : Finding) : Shown where
  heading := ([f.title, f.ruleId].find? (· ≠ "")).getD "Finding"
  rule := if f.ruleId = "" then none else some f.ruleId
  location := f.location.render
  description := f.description
  code := if f.snippet = some "" then none else f.snippet
  recommendations := f.recommendations

/-- Reads the inside of a block of code and the line that ends it. -/
abbrev CodeReader := List String → Option (String × List String)

def onePart : CodeReader
  | code :: "```" :: rest => some (code, rest)
  | _ => none

/-- The code goes on to the line that ends it. -/
def upToFence : CodeReader := fun lines =>
  match lines.span (· ≠ "```") with
  | (code, _ :: rest) => some ("\n".intercalate code, rest)
  | _ => none

def next? : List String → Option (String × List String)
  | [] => none
  | line :: lines => some (line, lines)

def optional (read? : String → Option String) : List String → Option String × List String
  | [] => (none, [])
  | line :: lines =>
    match read? line with
    | none => (none, line :: lines)
    | some text => (some text, lines)

def block? (code? : CodeReader) (lines : List String) : Option (Option String × List String) :=
  match lines.dropPrefix? ["```rust"] with
  | none => some (none, lines)
  | some rest => do
    let (code, rest) ← code? rest
    return (some code, ← rest.dropPrefix? [""])

def recommendations? (lines : List String) : Option (List String × List String) :=
  match lines.dropPrefix? ["**Recommendations:**", ""] with
  | none => some ([], lines)
  | some rest => do
    let (items, rest) := leading (enclosed? "- " "") rest
    return (items, ← rest.dropPrefix? [""])

def entry? (code? : CodeReader) (lines : List String) : Option (Mark Shown × List String) := do
  let (line, rest) ← next? lines
  let (number, heading) ← numbered? ". " (← after? "### " line.toList)
  let (rule, rest) := optional (enclosed? "**Rule:** `" "`  ") (← rest.dropPrefix? [""])
  let (line, rest) ← next? rest
  let location ← enclosed? "**Location:** `" "`" line
  let (description, rest) ← next? (← rest.dropPrefix? [""])
  let (code, rest) ← block? code? (← rest.dropPrefix? [""])
  let (recommendations, rest) ← recommendations? rest
  return (.entry number { heading, rule, location, description, code, recommendations }, rest)

def mark? (code? : CodeReader) (lines : List String) : Option (Mark Shown × List String) := do
  let (line, rest) ← next? lines
  match heading? "## " " Severity" line with
  | some severity => return (.heading severity, ← rest.dropPrefix? [""])
  | none => entry? code? lines

/-- Reads entries and headings to the end. Each of them takes a line. -/
def marks? (code? : CodeReader) : Nat → List String → Option (List (Mark Shown))
  | _, [] => some []
  | 0, _ :: _ => none
  | fuel + 1, line :: lines => do
    let (mark, rest) ← mark? code? (line :: lines)
    return mark :: (← marks? code? fuel rest)

def top? (lines : List String) : Option (Nat × List String) := do
  let lines ← lines.dropPrefix? ["# SolGuard Security Report", ""]
  let (_, lines) := optional (enclosed? "**Target:** `" "`  ") lines
  let (line, lines) ← next? (lines.drop 3)
  return (← total? "**Total findings:** " "" line, ← lines.dropPrefix? [""])

def table? (lines : List String) : Option (List (Severity × Nat) × List String) := do
  let lines ← lines.dropPrefix? ["## Summary", "", "| Severity | Count |", "|----------|-------|"]
  let (counts, lines) := leading (count? "| " " | " " |") lines
  return (counts, ← lines.dropPrefix? [""])

def body? (code? : CodeReader) (lines : List String) : Option (List (Severity × List (Nat × Shown))) :=
  if lines = ["No vulnerabilities found.", ""] then some []
  else do sections? (← marks? code? lines.length lines)

def read? (code? : CodeReader) (lines : List String) : Option (Sheet Shown) := do
  let (total, lines) ← top? lines
  let (counts, lines) ← table? lines
  return ⟨counts, total, ← body? code? lines⟩

theorem upToFence_linesOf {code : String} (h : "```" ∉ linesOf code) (rest : List String) :
    upToFence (linesOf code ++ "```" :: rest) = some (code, rest) := by
  have hlines : ∀ line ∈ linesOf code, (decide (line ≠ "```")) = true := by
    intro line hline
    exact decide_eq_true fun heq => h (heq ▸ hline)
  unfold upToFence
  rw [List.span_eq_takeWhile_dropWhile, List.takeWhile_append_of_pos hlines,
    List.dropWhile_append_of_pos hlines, List.takeWhile_cons_of_neg (by simp),
    List.dropWhile_cons_of_neg (by simp), List.append_nil]
  exact congrArg (fun text => some (text, rest)) (intercalate_linesOf code)

/-- How the parts of a document are cut into lines, and code is read from them. -/
structure Cut where
  split : String → List String
  code? : CodeReader
  split_line : ∀ part, OneLine part → split part = [part]

namespace Cut

def parts : Cut := ⟨fun part => [part], onePart, fun _ _ => rfl⟩

def lines : Cut := ⟨linesOf, upToFence, fun _ => OneLine.linesOf⟩

/-- A finding can be read from lines that were cut so. -/
structure Fits (cut : Cut) (f : Finding) : Prop where
  parts : ∀ n, ∀ part ∈ entry (n, { f with snippet := none }), cut.split part = [part]
  code : ∀ code ∈ f.snippet, ∀ rest, cut.code? (cut.split code ++ "```" :: rest) = some (code, rest)

theorem flatMap_split {cut : Cut} {parts : List String} (h : ∀ part ∈ parts, cut.split part = [part]) :
    parts.flatMap cut.split = parts := by
  induction parts with
  | nil => rfl
  | cons part parts ih =>
    rw [List.forall_mem_cons] at h
    rw [List.flatMap_cons, h.1, ih h.2, List.singleton_append]

end Cut

section Entries
variable {cut : Cut} {f : Finding}

theorem flatMap_entry (h : cut.Fits f) (n : Nat) :
    (entry (n, f)).flatMap cut.split =
      ["### " ++ toString n ++ ". " ++ heading f, ""] ++ ruleLines f ++
        ["**Location:** `" ++ f.location.render ++ "`", "", f.description, ""] ++
        (snippetLines f).flatMap cut.split ++ recommendationLines f := by
  have hparts := h.parts n
  unfold entry at hparts
  simp only [List.forall_mem_append] at hparts
  obtain ⟨⟨⟨⟨htop, hrule⟩, hplace⟩, -⟩, hadvice⟩ := hparts
  have htop' : ["### " ++ toString n ++ ". " ++ heading f, ""].flatMap cut.split = _ :=
    Cut.flatMap_split htop
  have hrule' : (ruleLines f).flatMap cut.split = ruleLines f := Cut.flatMap_split hrule
  have hadvice' : (recommendationLines f).flatMap cut.split = recommendationLines f :=
    Cut.flatMap_split hadvice
  unfold entry
  simp only [List.flatMap_append, htop', hrule', Cut.flatMap_split hplace, hadvice']

theorem heading_eq (f : Finding) : heading f = (shown f).heading := by
  unfold heading shown
  by_cases ht : f.title = ""
  · by_cases hi : f.ruleId = "" <;> simp [ht, hi]
  · simp [ht]

theorem optional_ruleLines (place : String) (rest : List String) :
    optional (enclosed? "**Rule:** `" "`  ") (ruleLines f ++ ("**Location:** `" ++ place ++ "`") :: rest) =
      ((shown f).rule, ("**Location:** `" ++ place ++ "`") :: rest) := by
  unfold ruleLines
  by_cases hi : f.ruleId = ""
  · have hother : enclosed? "**Rule:** `" "`  " ("**Location:** `" ++ place ++ "`") = none := by
      unfold enclosed?
      rw [String.toList_append, String.toList_append]
      rfl
    simp [shown, hi, optional, hother]
  · simp [shown, hi, optional, enclosed?_append]

theorem dropPrefix?_self (front rest : List String) : (front ++ rest).dropPrefix? front = some rest :=
  List.dropPrefix?_append_of_beq rest (beq_self_eq_true front)

theorem dropPrefix?_head {first : String} {front rest : List String} (h : rest.head? ≠ some first) :
    rest.dropPrefix? (first :: front) = none := by
  cases rest with
  | nil => rfl
  | cons line rest =>
    have hne : (line == first) = false := beq_eq_false_iff_ne.mpr fun heq => h (congrArg some heq)
    simp [List.dropPrefix?, hne]

theorem block?_snippetLines (h : cut.Fits f) {rest : List String} (hrest : rest.head? ≠ some "```rust") :
    block? cut.code? ((snippetLines f).flatMap cut.split ++ rest) = some ((shown f).code, rest) := by
  have hopen : cut.split "```rust" = ["```rust"] := cut.split_line _ (by decide +kernel)
  have hclose : cut.split "```" = ["```"] := cut.split_line _ (by decide +kernel)
  have hblank : cut.split "" = [""] := cut.split_line _ (by decide +kernel)
  have hnone : block? cut.code? rest = some (none, rest) := by
    unfold block?
    rw [dropPrefix?_head hrest]
  cases hcode : f.snippet with
  | none => simpa [snippetLines, shown, hcode] using hnone
  | some code =>
    by_cases hempty : code = ""
    · simpa [snippetLines, shown, hcode, hempty] using hnone
    · have hlines : (snippetLines f).flatMap cut.split ++ rest =
          ["```rust"] ++ (cut.split code ++ "```" :: ([""] ++ rest)) := by
        simp [snippetLines, hcode, hempty, hopen, hclose, hblank]
      have hshown : (shown f).code = some code := by simp [shown, hcode, hempty]
      unfold block?
      rw [hlines, dropPrefix?_self]
      simp only [h.code code hcode, Option.bind_eq_bind, Option.bind_some, dropPrefix?_self, hshown]
      rfl

theorem recommendations?_lines {rest : List String}
    (hrest : rest.head? ≠ some "**Recommendations:**") :
    recommendations? (recommendationLines f ++ rest) = some (f.recommendations, rest) := by
  unfold recommendations? recommendationLines
  by_cases hempty : f.recommendations = []
  · simp [hempty, dropPrefix?_head hrest]
  · have hitem : ∀ item ∈ f.recommendations, enclosed? "- " "" ("- " ++ item) = some item := by
      intro item _
      have hread := enclosed?_append "- " item ""
      rwa [String.append_empty] at hread
    have hblank : ∀ first ∈ ([""] ++ rest).head?, enclosed? "- " "" first = none := by
      intro first hfirst
      cases hfirst
      rfl
    have hlines : ["**Recommendations:**", ""] ++ f.recommendations.map ("- " ++ ·) ++ [""] ++ rest =
        ["**Recommendations:**", ""] ++ (f.recommendations.map ("- " ++ ·) ++ ([""] ++ rest)) := by
      simp
    rw [if_neg (by simpa using hempty), hlines, dropPrefix?_self]
    dsimp only
    rw [leading_map hitem hblank]
    dsimp only
    rw [dropPrefix?_self]
    rfl

/-- No part of an entry can come next. -/
def Starts (rest : List String) : Prop :=
  rest.head? ≠ some "```rust" ∧ rest.head? ≠ some "**Recommendations:**"

theorem entry?_entry (h : cut.Fits f) (n : Nat) {rest : List String} (hrest : Starts rest) :
    entry? cut.code? ((entry (n, f)).flatMap cut.split ++ rest) = some (.entry n (shown f), rest) := by
  have hnext : ((recommendationLines f) ++ rest).head? ≠ some "```rust" := by
    unfold recommendationLines
    by_cases hempty : f.recommendations = []
    · simpa [hempty] using hrest.1
    · simp [hempty]
  have hlines : (entry (n, f)).flatMap cut.split ++ rest =
      ("### " ++ toString n ++ ". " ++ (shown f).heading) :: ([""] ++ (ruleLines f ++
        ("**Location:** `" ++ f.location.render ++ "`") :: ([""] ++ f.description :: ([""] ++
          ((snippetLines f).flatMap cut.split ++ (recommendationLines f ++ rest)))))) := by
    rw [flatMap_entry h, heading_eq]
    simp
  have hfirst : ("### " ++ toString n ++ ". " ++ (shown f).heading).toList =
      "### ".toList ++ ((toString n).toList ++ ". ".toList ++ (shown f).heading.toList) := by
    simp only [String.toList_append, List.append_assoc]
  have hnumber : numbered? ". " ((toString n).toList ++ ". ".toList ++ (shown f).heading.toList) =
      some (n, (shown f).heading) := numbered?_append rfl n _
  unfold entry?
  rw [hlines]
  simp only [next?, Option.bind_eq_bind, Option.bind_some, hfirst, after?_append, hnumber,
    dropPrefix?_self, optional_ruleLines, enclosed?_append, block?_snippetLines h hnext,
    recommendations?_lines hrest.2]
  rfl

theorem mark?_entry (h : cut.Fits f) (n : Nat) {rest : List String} (hrest : Starts rest) :
    mark? cut.code? ((entry (n, f)).flatMap cut.split ++ rest) = some (.entry n (shown f), rest) := by
  have hread := entry?_entry h n hrest
  have hother : heading? "## " " Severity" ("### " ++ toString n ++ ". " ++ heading f) = none := by
    unfold heading? titled?
    rw [String.toList_append, String.toList_append, String.toList_append]
    rfl
  rw [flatMap_entry h] at hread ⊢
  unfold mark?
  simp only [List.cons_append, next?, Option.bind_eq_bind, Option.bind_some, hother] at hread ⊢
  exact hread

theorem mark?_heading (code? : CodeReader) (severity : Severity) (rest : List String) :
    mark? code? (["## " ++ severity.title ++ " Severity", ""] ++ rest) =
      some (.heading severity, rest) := by
  have hheading : heading? "## " " Severity" ("## " ++ severity.title ++ " Severity") = some severity :=
    heading?_append _ _ rfl
  have hblank : ("" :: rest).dropPrefix? [""] = some rest := dropPrefix?_self [""] rest
  unfold mark?
  simp only [List.cons_append, List.nil_append, next?, Option.bind_eq_bind, Option.bind_some, hheading,
    hblank]
  rfl

end Entries

/-- Lines from which marks are read, however much more fuel there is. -/
def Reads (code? : CodeReader) (lines : List String) (marks : List (Mark Shown)) : Prop :=
  ∀ fuel, lines.length ≤ fuel → marks? code? fuel lines = some marks

section Sections
variable {cut : Cut}

theorem Reads.append {code? : CodeReader} {line : String} {front rest : List String}
    {mark : Mark Shown} {marks : List (Mark Shown)}
    (hmark : mark? code? (line :: front ++ rest) = some (mark, rest)) (hrest : Reads code? rest marks) :
    Reads code? (line :: front ++ rest) (mark :: marks) := by
  intro fuel hfuel
  rw [List.length_append, List.length_cons] at hfuel
  cases fuel with
  | zero => omega
  | succ fuel =>
    rw [List.cons_append, marks?, ← List.cons_append, hmark]
    simp only [Option.bind_eq_bind, Option.bind_some, hrest fuel (by omega)]
    rfl

theorem starts_append {line : String} (h : line.toList.head? = some '#') (rest : List String) :
    Starts (line :: rest) := by
  constructor <;>
  · intro heq
    cases heq
    cases h

theorem exists_flatMap_entry {f : Finding} (h : cut.Fits f) (n : Nat) :
    ∃ line front, (entry (n, f)).flatMap cut.split = line :: front ∧ line.toList.head? = some '#' := by
  refine ⟨_, _, flatMap_entry h n, ?_⟩
  rw [String.toList_append, String.toList_append, String.toList_append]
  rfl

theorem reads_entries {entries : List (Nat × Finding)} (h : ∀ e ∈ entries, cut.Fits e.2)
    {rest : List String} {marks : List (Mark Shown)} (hstarts : Starts rest)
    (hrest : Reads cut.code? rest marks) :
    Starts ((entries.flatMap entry).flatMap cut.split ++ rest) ∧
      Reads cut.code? ((entries.flatMap entry).flatMap cut.split ++ rest)
        (entries.map (fun e => .entry e.1 (shown e.2)) ++ marks) := by
  induction entries with
  | nil => exact ⟨hstarts, hrest⟩
  | cons e entries ih =>
    rw [List.forall_mem_cons] at h
    obtain ⟨hnext, hreads⟩ := ih h.2
    obtain ⟨line, front, hlines, hline⟩ := exists_flatMap_entry h.1 e.1
    have hmark := mark?_entry h.1 e.1 hnext
    rw [List.flatMap_cons, List.flatMap_append, List.append_assoc]
    rw [hlines] at hmark ⊢
    exact ⟨starts_append hline _, hreads.append hmark⟩

theorem flatMap_sectionLines (s : Section) :
    (sectionLines s).flatMap cut.split =
      ["## " ++ s.severity.title ++ " Severity", ""] ++ (s.entries.flatMap entry).flatMap cut.split := by
  have htop : ∀ part ∈ ["## " ++ s.severity.title ++ " Severity", ""], cut.split part = [part] := by
    intro part hpart
    apply cut.split_line
    rcases List.mem_pair.mp hpart with rfl | rfl
    · cases s.severity <;> decide +kernel
    · decide +kernel
  unfold sectionLines
  rw [List.flatMap_append, Cut.flatMap_split htop]

theorem reads_sections {sections : List Section} (h : ∀ s ∈ sections, ∀ e ∈ s.entries, cut.Fits e.2) :
    Starts ((sections.flatMap sectionLines).flatMap cut.split) ∧
      Reads cut.code? ((sections.flatMap sectionLines).flatMap cut.split)
        (sections.flatMap (Section.marks shown)) := by
  induction sections with
  | nil => exact ⟨⟨nofun, nofun⟩, fun fuel _ => by cases fuel <;> rfl⟩
  | cons s sections ih =>
    rw [List.forall_mem_cons] at h
    obtain ⟨hnext, hreads⟩ := ih h.2
    obtain ⟨-, hentries⟩ := reads_entries h.1 hnext hreads
    rw [List.flatMap_cons, List.flatMap_append, flatMap_sectionLines, List.append_assoc]
    refine ⟨starts_append ?_ _, ?_⟩
    · rw [String.toList_append, String.toList_append]
      rfl
    · rw [List.flatMap_cons, Section.marks, List.cons_append]
      exact hentries.append (mark?_heading cut.code? s.severity _)

end Sections

def counts (findings : List Finding) : List (Severity × Nat) :=
  Severity.ordered.map fun s => (s, occurrences findings s)

theorem lookup_counts (findings : List Finding) (severity : Severity) :
    ((counts findings).lookup severity).getD 0 = occurrences findings severity := by
  rw [counts, lookup_map_pair, if_pos (mem_ordered severity)]
  rfl

section Document
variable {cut : Cut} (target time : String) {findings : List Finding} {stats : Stats}

theorem summary_eq (h : stats.bySeverity = tally findings) :
    summary stats = ["## Summary", "", "| Severity | Count |", "|----------|-------|"] ++
      (counts findings).map (fun c => "| " ++ c.1.title ++ " | " ++ toString c.2 ++ " |") ++ [""] := by
  have hrow (s : Severity) : summaryRow stats s =
      "| " ++ s.title ++ " | " ++ toString (occurrences findings s) ++ " |" := by
    unfold summaryRow Stats.count?
    rw [h, getD_lookup_tally]
    rfl
  unfold summary counts
  rw [List.map_map, List.map_congr_left fun s _ => hrow s]
  rfl

theorem oneLine_of_mem_summary (h : stats.bySeverity = tally findings) :
    ∀ part ∈ summary stats, OneLine part := by
  rw [summary_eq h]
  simp only [List.forall_mem_append, List.forall_mem_map]
  refine ⟨⟨by decide +kernel, fun c _ => ?_⟩, by decide +kernel⟩
  have htitle : OneLine ("| " ++ c.1.title ++ " | ") := oneLine_enclosed (oneLine_title c.1)
  exact oneLine_enclosed (oneLine_toString c.2) htitle

theorem top?_header (rest : List String) :
    top? (header target time findings stats ++ rest) = some (findings.length, rest) := by
  have htotal := total?_append "**Total findings:** " "" rfl findings.length
  rw [String.append_empty] at htotal
  have hother : enclosed? "**Target:** `" "`  " ("**Generated:** " ++ time ++ "  ") = none := by
    unfold enclosed?
    rw [String.toList_append, String.toList_append]
    rfl
  have hblank : ("" :: rest).dropPrefix? [""] = some rest := dropPrefix?_self [""] rest
  unfold top? header
  rw [List.append_assoc, List.append_assoc, dropPrefix?_self]
  generalize "**Total findings:** " ++ toString findings.length = line at htotal ⊢
  by_cases ht : target = ""
  · simp [ht, optional, hother, next?, htotal, hblank]
  · simp [ht, optional, enclosed?_append, next?, htotal, hblank]

theorem table?_summary (h : stats.bySeverity = tally findings) (rest : List String) :
    table? (summary stats ++ rest) = some (counts findings, rest) := by
  have hrow : ∀ c ∈ counts findings,
      count? "| " " | " " |" ("| " ++ c.1.title ++ " | " ++ toString c.2 ++ " |") = some c :=
    fun c _ => count?_append "| " " | " " |" c.1 c.2 rfl rfl
  have hblank : ∀ first ∈ ([""] ++ rest).head?, count? "| " " | " " |" first = none := by
    intro first hfirst
    cases hfirst
    rfl
  unfold table?
  rw [summary_eq h, List.append_assoc, List.append_assoc, dropPrefix?_self]
  simp only [Option.bind_eq_bind, Option.bind_some, leading_map hrow hblank, dropPrefix?_self]
  rfl

theorem body?_body (hfits : ∀ f ∈ findings, cut.Fits f) :
    body? cut.code? ((body findings).flatMap cut.split) =
      some ((sections findings).map (Section.display shown)) := by
  cases findings with
  | nil =>
    have hlines : (body []).flatMap cut.split = ["No vulnerabilities found.", ""] :=
      Cut.flatMap_split fun part hpart => cut.split_line part (by
        rcases List.mem_pair.mp hpart with rfl | rfl <;> decide +kernel)
    rw [hlines]
    rfl
  | cons f findings =>
    have hentries : ∀ s ∈ sections (f :: findings), ∀ e ∈ s.entries, cut.Fits e.2 := by
      intro s hs e he
      exact hfits e.2 (mem_of_mem_sections (f :: findings) hs he).1
    obtain ⟨s, hs, -⟩ := (exists_section_iff (f :: findings) f.severity).mpr ⟨f, List.mem_cons_self, rfl⟩
    have hreads := (reads_sections hentries).2 _ (Nat.le_refl _)
    have hbody : body (f :: findings) = (sections (f :: findings)).flatMap sectionLines := rfl
    have hfirst : (body (f :: findings)).flatMap cut.split ≠ ["No vulnerabilities found.", ""] := by
      rw [hbody]
      cases hsections : sections (f :: findings) with
      | nil =>
        rw [hsections] at hs
        cases hs
      | cons t others =>
        rw [List.flatMap_cons, List.flatMap_append, flatMap_sectionLines]
        intro heq
        have hhead := congrArg (fun line => line.toList.head?) (List.cons.inj heq).1
        rw [String.toList_append, String.toList_append] at hhead
        cases hhead
    unfold body?
    rw [if_neg hfirst, hbody, hreads]
    exact sections?_marks shown _

theorem read?_lines (cut : Cut)
    (hheader : ∀ part ∈ header target time findings stats, cut.split part = [part])
    (hstats : stats.bySeverity = tally findings) (hfits : ∀ f ∈ findings, cut.Fits f) :
    read? cut.code? ((lines target time findings stats).flatMap cut.split) =
      some (sheetOf shown (counts findings) findings) := by
  have hsummary : (summary stats).flatMap cut.split = summary stats :=
    Cut.flatMap_split fun part hpart =>
      cut.split_line part (oneLine_of_mem_summary hstats part hpart)
  unfold read? lines
  rw [List.flatMap_append, List.flatMap_append, Cut.flatMap_split hheader, hsummary, List.append_assoc,
    top?_header]
  simp only [Option.bind_eq_bind, Option.bind_some, table?_summary hstats, body?_body hfits]
  rfl

/-- Only the code of a finding goes over several lines, and none of these ends the code. -/
def Plain (f : Finding) : Prop :=
  (∀ text ∈ [f.title, f.ruleId, f.location.render, f.description] ++ f.recommendations, OneLine text) ∧
  ∀ code ∈ f.snippet, "```" ∉ linesOf code

theorem fits_parts (f : Finding) : Cut.parts.Fits f := ⟨fun _ _ _ => rfl, fun _ _ _ => rfl⟩

theorem Plain.oneLine {f : Finding} (h : Plain f) (n : Nat) :
    ∀ part ∈ entry (n, { f with snippet := none }), OneLine part := by
  obtain ⟨htexts, -⟩ := h
  simp only [List.cons_append, List.nil_append, List.forall_mem_cons] at htexts
  obtain ⟨htitle, hrule, hplace, hdescription, hadvice⟩ := htexts
  have hblank : OneLine "" := by decide +kernel
  have hheading : OneLine (heading f) := by
    unfold heading
    split_ifs
    · exact htitle
    · exact hrule
    · decide +kernel
  have hrules : ∀ part ∈ ruleLines f, OneLine part := by
    unfold ruleLines
    split_ifs
    · exact List.forall_mem_nil _
    · exact List.forall_mem_singleton.mpr (oneLine_enclosed hrule)
  have hrecommendations : ∀ part ∈ recommendationLines f, OneLine part := by
    unfold recommendationLines
    split_ifs
    · exact List.forall_mem_nil _
    · simp only [List.forall_mem_append, List.forall_mem_map]
      exact ⟨⟨by decide +kernel, fun text htext => oneLine_append.mpr ⟨by decide +kernel, hadvice text htext⟩⟩,
        by decide +kernel⟩
  unfold entry
  simp only [List.forall_mem_append]
  refine ⟨⟨⟨⟨?_, hrules⟩, ?_⟩, List.forall_mem_nil _⟩, hrecommendations⟩
  · exact List.forall_mem_cons.mpr
      ⟨oneLine_append.mpr ⟨oneLine_enclosed (oneLine_toString n), hheading⟩, by decide +kernel⟩
  · exact List.forall_mem_cons.mpr ⟨oneLine_enclosed hplace, List.forall_mem_cons.mpr ⟨hblank,
      List.forall_mem_cons.mpr ⟨hdescription, List.forall_mem_singleton.mpr hblank⟩⟩⟩

theorem Plain.fits {f : Finding} (h : Plain f) : Cut.lines.Fits f :=
  ⟨fun n part hpart => (h.oneLine n part hpart).linesOf, fun code hcode => upToFence_linesOf (h.2 code hcode)⟩

variable {target time} in
theorem oneLine_of_mem_header (htarget : OneLine target) (htime : OneLine time) :
    ∀ part ∈ header target time findings stats, OneLine part := by
  have htotal : OneLine ("**Total findings:** " ++ toString findings.length) :=
    oneLine_append.mpr ⟨by decide +kernel, oneLine_toString _⟩
  unfold header
  simp only [List.forall_mem_append]
  refine ⟨⟨by decide +kernel, ?_⟩, ?_⟩
  · split_ifs
    · exact List.forall_mem_nil _
    · exact List.forall_mem_singleton.mpr (oneLine_enclosed htarget)
  · exact List.forall_mem_cons.mpr ⟨oneLine_enclosed htime,
      List.forall_mem_cons.mpr ⟨oneLine_enclosed (oneLine_toString_int _),
        List.forall_mem_cons.mpr ⟨oneLine_enclosed (oneLine_toString_int _),
          List.forall_mem_cons.mpr ⟨htotal, by decide +kernel⟩⟩⟩⟩

theorem linesOf_render (findings : List Finding) (stats : Stats) :
    linesOf (render target time findings stats) =
      (lines target time findings stats).flatMap linesOf :=
  linesOf_intercalate (by simp [lines, header])

end Document

end Markdown

/-- Both reports on an analysis are lines from which a sheet is read that agrees with what was found. The
lines are those of the text itself if no text that is shown has a line feed in it. In a document the code
of a finding may have line feeds, as long as no line of it looks like the end of the code. -/
theorem analyze_read_back (a : Analyzer) (files : List (String × SyntaxFile)) (target time : String) :
    let result := a.analyze files
    let console := Console.render result.findings result.stats
    let document := Markdown.render target time result.findings result.stats
    (∃ messages sheet, console = "\n".intercalate messages ∧ Console.read? messages = some sheet ∧
      sheet.Agrees Console.shown result.findings ∧
      ((∀ f ∈ result.findings, OneLine (Console.shown f)) → linesOf console = messages)) ∧
    ∃ parts sheet, document = "\n".intercalate parts ∧
      Markdown.read? Markdown.onePart parts = some sheet ∧
      sheet.Agrees Markdown.shown result.findings ∧
      (OneLine target → OneLine time → (∀ f ∈ result.findings, Markdown.Plain f) →
        Markdown.read? Markdown.upToFence (linesOf document) = some sheet) := by
  intro result console document
  have hstats : result.stats.bySeverity = tally result.findings := rfl
  constructor
  · exact ⟨_, _, rfl, Console.read?_messages hstats,
      sheetOf_agrees _ _ _ (Console.lookup_counts result.findings), Console.linesOf_render hstats⟩
  · refine ⟨_, _, rfl, ?_, sheetOf_agrees _ _ _ (Markdown.lookup_counts result.findings), ?_⟩
    · have hread := Markdown.read?_lines target time .parts (fun _ _ => rfl) hstats fun f _ => Markdown.fits_parts f
      rwa [Markdown.Cut.parts, List.flatMap_singleton'] at hread
    · intro htarget htime hplain
      have hheader : ∀ part ∈ Markdown.header target time result.findings result.stats,
          linesOf part = [part] := fun part hpart =>
        (Markdown.oneLine_of_mem_header htarget htime part hpart).linesOf
      rw [Markdown.linesOf_render]
      exact Markdown.read?_lines target time .lines hheader hstats fun f hf => (hplain f hf).fits

/-- A grave finding comes before a light one that was found first, and the two lines of its code are read
as one text. -/
theorem analyze_read_back_two_findings :
    let light : Finding := { description := "b", severity := .low, location := .fallback "lib.rs" }
    let grave : Finding := { light with description := "a", severity := .high, snippet := some "fn f()\n;" }
    let rule : Rule :=
      { id := "", title := "", description := "", severity := .low, ruleType := .solana
        detector := .raw fun _ => .ok (some [light, grave]) }
    let result := (Analyzer.ofRules {} [rule]).analyze [("lib.rs", .withTree "lib.rs" "" .empty)]
    result.findings = [light, grave] ∧
      (∃ sheet, Console.read? (linesOf (Console.render result.findings result.stats)) = some sheet ∧
        sheet.total = 2 ∧ (sheet.entriesOf .high).map Prod.snd = ["a (lib.rs:1)"]) ∧
      ∃ sheet, Markdown.read? Markdown.upToFence
          (linesOf (Markdown.render "lib.rs" "" result.findings result.stats)) = some sheet ∧
        sheet.total = 2 ∧ (sheet.entriesOf .high).map Prod.snd = [Markdown.shown grave] := by
  intro light grave rule result
  have hfindings : result.findings = [light, grave] := rfl
  have hplain : Markdown.Plain light ∧ Markdown.Plain grave := by
    unfold Markdown.Plain
    decide +kernel
  obtain ⟨⟨messages, sheet, -, hread, hagrees, hlines⟩, parts, document, -, -, hdocument, hparts⟩ :=
    analyze_read_back (Analyzer.ofRules {} [rule]) [("lib.rs", .withTree "lib.rs" "" .empty)] "lib.rs" ""
  refine ⟨hfindings, ⟨sheet, ?_, hagrees.total, hagrees.grouped .high⟩, document, ?_, hdocument.total,
    hdocument.grouped .high⟩
  · rw [hlines (by decide +kernel)]
    exact hread
  · exact hparts (by decide +kernel) (by decide +kernel)
      (List.forall_mem_cons.mpr ⟨hplain.1, List.forall_mem_singleton.mpr hplain.2⟩)

end AnchorAudit.Report
