import AnchorAudit.Proofs.Batch
import AnchorAudit.Proofs.FirstError
import AnchorAudit.Proofs.Rule
import AnchorAudit.Proofs.Walk
import Mathlib.Data.List.Perm.Subperm
import Mathlib.Data.Set.List

/-! Listings of directory trees. A listing accounts for every file of the tree with the ending that is
asked for, unless the text of a path on the way is too long or a directory on it is locked. -/
namespace AnchorAudit

namespace FileTree

/-- The text of a path leads to a directory with the given access and entries. -/
structure Opens (here : Site) (root : String) (access : Access) (d : Directory) : Prop where
  noNull : '\x00' ∉ root.toList
  nonempty : root ≠ ""
  short : octets root < pathLimit
  leads : ∃ site budget, site.access = access ∧ site.entries = d ∧
    resolve .reading linkLimit (start here root) (steps root) = .ok (.directory site, budget)

def walkText (root : String) (names : List String) : String :=
  root ++ (if root.toList.getLast? = some '/' then "" else "/") ++ "/".intercalate names

/-- The texts that a walk needs for a file below its root are not too long: that of the directory which
holds it, and that of its own path. -/
structure Fits (root : String) (names : List String) : Prop where
  directory : names.dropLast ≠ [] → octets (walkText root names.dropLast) < pathLimit
  file : octets ((Path.ofString root).descend names).render < pathLimit

theorem octets_walkText (root : String) (site : Site) (names : List String) :
    octets (walkText root names) = (Stop.first root site).lead + octets ("/".intercalate names) := by
  unfold walkText Stop.first
  rw [octets_append, octets_append]
  split_ifs <;> rfl

theorem fits_iff (root : String) (site : Site) (names : List String) {access : Access}
    (hsearch : access.search = true) (f : File) :
    Fits root names ↔
      (Stop.first root site).Reaches names ∧
        ((Stop.first root site).candidate names access f).2 = .ok f := by
  have hreaches : (names.dropLast ≠ [] → octets (walkText root names.dropLast) < pathLimit) ↔
      (Stop.first root site).Reaches names := by
    rw [octets_walkText root site]
    rfl
  have hcandidate : octets ((Path.ofString root).descend names).render < pathLimit ↔
      ((Stop.first root site).candidate names access f).2 = .ok f := by
    unfold Stop.candidate Stop.first
    simp only [hsearch, Bool.not_true, Bool.false_eq_true, if_false]
    split_ifs with hlong
    · simp [hlong]
    · simp [Nat.not_le.mp hlong]
  constructor
  · intro h
    exact ⟨hreaches.mp h.directory, hcandidate.mp h.file⟩
  · intro h
    exact ⟨hreaches.mpr h.1, hcandidate.mpr h.2⟩

/-- A directory can be listed and searched, and so can all directories below it on the way to the end of
some names. -/
structure Unlocked (access : Access) (d : Directory) (names : List String) : Prop where
  first : access.list = true ∧ access.search = true
  others : ∀ front access inner, EntryAt d front (.directory access inner) → front <+: names →
    access.list = true ∧ access.search = true

theorem Unlocked.inside {a access : Access} {d inner : Directory} {name : String} {names : List String}
    (h : Unlocked a d (name :: names)) (hmem : (name, .directory access inner) ∈ d) :
    Unlocked access inner names := by
  refine ⟨h.others [name] access inner (.here hmem) (by simp), ?_⟩
  intro front access' inner' hat hfront
  exact h.others (name :: front) access' inner' (.inside hmem hat) (List.cons_prefix_cons.mpr ⟨rfl, hfront⟩)

theorem exists_met_of_unlocked {a : Access} {d : Directory} {names : List String} {f : File}
    (hat : EntryAt d names (.file f)) (h : Unlocked a d names) :
    ∃ b, Met a d names f b ∧ b.search = true := by
  generalize hentry : Entry.file f = e at hat
  induction hat generalizing a with
  | here hmem =>
    subst hentry
    exact ⟨a, .here hmem, h.first.2⟩
  | inside hmem _ ih =>
    have hinside := h.inside hmem
    obtain ⟨b, hmet, hsearch⟩ := ih hinside hentry
    exact ⟨b, .inside hmem h.first.2 hinside.first.1 hmet, hsearch⟩

theorem Met.search_of_unlocked {a b : Access} {d : Directory} {names : List String} {f : File}
    (hmet : Met a d names f b) (h : Unlocked a d names) : b.search = true := by
  induction hmet with
  | here _ => exact h.first.2
  | inside hmem _ _ _ ih => exact ih (h.inside hmem)

theorem Met.unlocked {a b : Access} {d : Directory} {names : List String} {f : File}
    (hmet : Met a d names f b) (hplain : Plain d) (hlist : a.list = true) (hsearch : b.search = true) :
    Unlocked a d names := by
  induction hmet with
  | here hmem =>
    refine ⟨⟨hlist, hsearch⟩, ?_⟩
    intro front access inner hat hfront
    cases hat with
    | here hmem' =>
      obtain ⟨rfl, -⟩ := List.cons_prefix_cons.mp hfront
      cases hplain.entry_eq hmem hmem'
    | inside hmem' hat =>
      exact absurd (List.prefix_nil.mp (List.cons_prefix_cons.mp hfront).2) hat.ne_nil
  | inside hmem hsearch' hlist' _ ih =>
    have hinner := hplain.inside hmem
    have hinside := ih hinner hlist' hsearch
    refine ⟨⟨hlist, hsearch'⟩, ?_⟩
    intro front access inner hat hfront
    cases hat with
    | here hmem' =>
      obtain ⟨rfl, -⟩ := List.cons_prefix_cons.mp hfront
      cases hplain.entry_eq hmem hmem'
      exact hinside.first
    | inside hmem' hat =>
      obtain ⟨rfl, hrest⟩ := List.cons_prefix_cons.mp hfront
      cases hplain.entry_eq hmem hmem'
      exact hinside.others _ access inner hat hrest

section Candidates
variable {here : Site} {root : String} {access : Access} {d : Directory}
  (hopens : Opens here root access d)
include hopens

theorem Opens.candidates_eq : ∃ site budget, site.access = access ∧
    candidates here root =
      if access.list then gather (visitAll (follow linkLimit) budget (.first root site) d) else [] := by
  obtain ⟨site, budget, haccess, hentries, hresolve⟩ := hopens.leads
  refine ⟨site, budget, haccess, ?_⟩
  have hguard : ¬(root.isEmpty ∨ pathLimit ≤ octets root) := by
    rw [String.isEmpty_iff, not_or, Nat.not_le]
    exact ⟨hopens.nonempty, hopens.short⟩
  unfold candidates
  rw [if_neg hguard, hresolve, ← hentries, ← haccess]

variable (hplain : Plain d)
include hplain

theorem Opens.exists_stop : ∃ site : Site, ∀ c, c ∈ candidates here root ↔ access.list = true ∧
    ∃ names f b, Met access d names f b ∧ (Stop.first root site).Reaches names ∧
      c = (Stop.first root site).candidate names b f := by
  obtain ⟨site, budget, rfl, heq⟩ := hopens.candidates_eq
  refine ⟨site, fun c => ?_⟩
  rw [heq]
  cases site.access.list with
  | false => simp
  | true =>
    rw [if_pos rfl, mem_gather_visitAll hplain]
    exact ⟨fun h => ⟨rfl, h⟩, fun h => h.2⟩

theorem Opens.inOrder_candidates : InOrder (candidates here root) := by
  obtain ⟨site, budget, -, heq⟩ := hopens.candidates_eq
  rw [heq]
  split_ifs
  · exact inOrder_gather_visitAll hplain _ _ _
  · exact .nil

theorem Opens.exists_of_mem_candidates {c : Candidate} (hc : c ∈ candidates here root) :
    ∃ names f, EntryAt d names (.file f) ∧ c.1 = (Path.ofString root).descend names ∧
      (Fits root names → Unlocked access d names → c.2 = .ok f) := by
  obtain ⟨site, hmem⟩ := hopens.exists_stop hplain
  obtain ⟨-, names, f, b, hmet, -, rfl⟩ := (hmem c).mp hc
  refine ⟨names, f, hmet.entryAt, rfl, ?_⟩
  intro hfits hunlocked
  exact ((fits_iff root site names (hmet.search_of_unlocked hunlocked) f).mp hfits).2

theorem Opens.mem_candidates {p : Path} {f : File} : (p, .ok f) ∈ candidates here root ↔
    ∃ names, EntryAt d names (.file f) ∧ p = (Path.ofString root).descend names ∧ Fits root names ∧
      Unlocked access d names := by
  obtain ⟨site, hmem⟩ := hopens.exists_stop hplain
  rw [hmem]
  constructor
  · intro ⟨hlist, names, f', b, hmet, hreaches, hc⟩
    obtain ⟨rfl, hsearch⟩ : f = f' ∧ b.search = true := by
      have h := congrArg Prod.snd hc
      unfold Stop.candidate at h
      dsimp only at h
      split_ifs at h with _ hsearch
      injection h with h
      exact ⟨h, by simpa using hsearch⟩
    have hfits := (fits_iff root site names hsearch f).mpr ⟨hreaches, (congrArg Prod.snd hc).symm⟩
    exact ⟨names, hmet.entryAt, congrArg Prod.fst hc, hfits, hmet.unlocked hplain hlist hsearch⟩
  · intro ⟨names, hat, hp, hfits, hunlocked⟩
    obtain ⟨b, hmet, hsearch⟩ := exists_met_of_unlocked hat hunlocked
    obtain ⟨hreaches, hok⟩ := (fits_iff root site names hsearch f).mp hfits
    exact ⟨hunlocked.first.1, names, f, b, hmet, hreaches, Prod.ext hp hok.symm⟩

end Candidates

/-- The order in which directories are listed makes no difference. -/
theorem candidates_rearranged {here here' : Site} {root : String} {access : Access} {d d' : Directory}
    (hopens : Opens here root access d) (hopens' : Opens here' root access d') (hplain : Plain d)
    (h : Rearranged d d') : candidates here' root = candidates here root := by
  have hplain' := h.plain hplain
  apply (hopens'.inOrder_candidates hplain').eq (hopens.inOrder_candidates hplain)
  obtain ⟨site, hmem⟩ := hopens.exists_stop hplain
  obtain ⟨site', hmem'⟩ := hopens'.exists_stop hplain'
  intro c
  rw [hmem, hmem']
  constructor
  · intro ⟨hlist, names, f, b, hmet, hc⟩
    exact ⟨hlist, names, f, b, h.symm.met hmet, hc⟩
  · intro ⟨hlist, names, f, b, hmet, hc⟩
    exact ⟨hlist, names, f, b, h.met hmet, hc⟩

theorem resolve_dots (purpose : Purpose) (budget : Nat) {site : Site} (hsearch : site.access.search = true)
    (n : Nat) : resolve purpose budget site (List.replicate n ".") = .ok (.directory site, budget) := by
  induction n with
  | zero =>
    rw [List.replicate_zero, resolve]
  | succ n ih =>
    rw [List.replicate_succ, resolve, if_neg (by decide), hsearch, if_neg (by decide), if_pos rfl]
    exact ih

/-- The text of a path is the name of a directory, with single dots after it. -/
theorem opens_of_steps {root name : String} {n : Nat} (d : Directory) (hnull : '\x00' ∉ root.toList)
    (hshort : octets root < pathLimit) (hhead : root.toList.head? ≠ some '/')
    (hsteps : steps root = name :: List.replicate n ".") (hempty : name ≠ "") (hdot : name ≠ ".")
    (hup : name ≠ "..") (hlimit : octets name ≤ nameLimit) :
    Opens (within [(name, .directory {} d)]) root {} d := by
  have hstart : start (within [(name, .directory {} d)]) root = within [(name, .directory {} d)] :=
    if_neg hhead
  have hentry : entry? (within [(name, .directory {} d)]) name = some (.directory {} d) := by
    unfold entry?
    exact List.lookup_cons_self
  refine ⟨hnull, ?_, hshort, ⟨name, {}, d⟩ :: within [(name, .directory {} d)], linkLimit, rfl, rfl, ?_⟩
  · intro hempty
    rw [hempty] at hsteps
    cases hsteps
  · have hreading : ¬(Purpose.reading = .writing ∧ List.replicate n "." = [""]) := by
      intro h
      cases h.1
    have hsearch : ¬(!(within [(name, .directory {} d)]).access.search) = true := Bool.false_ne_true
    rw [hsteps, hstart, resolve, if_neg hempty, if_neg hsearch, if_neg hdot, if_neg hup,
      if_neg hreading, if_neg (Nat.not_lt.mpr hlimit), hentry]
    exact resolve_dots _ _ rfl n

end FileTree

namespace File

def loaded? (path : Path) (f : File) : Option (Path × SyntaxFile) :=
  match f.load path with
  | .ok file => some (path, file)
  | .error _ => none

def refusal? (path : Path) (f : File) : Option ParseError :=
  match f.load path with
  | .ok _ => none
  | .error e => some e

/-- The file can be read, and its octets are a text whose tree has no syntax error. -/
def isSound (f : File) : Bool := f.readable && (Utf8.decode? f.bytes).isOk && !f.tree.hasError

section
variable {path : Path} {f : File}

theorem of_load_eq_ok {file : SyntaxFile} (h : f.load path = .ok file) :
    f.loaded? path = some (path, file) ∧ f.refusal? path = none := by
  unfold loaded? refusal?
  rw [h]
  exact ⟨rfl, rfl⟩

theorem of_load_eq_error {e : ParseError} (h : f.load path = .error e) :
    f.loaded? path = none ∧ f.refusal? path = some e := by
  unfold loaded? refusal?
  rw [h]
  exact ⟨rfl, rfl⟩

theorem isOk_load (path : Path) (f : File) : (f.load path).isOk = f.isSound := by
  unfold load isSound SyntaxFile.load
  cases f.readable with
  | false => rfl
  | true =>
    cases Utf8.decode? f.bytes with
    | error e => rfl
    | ok cs =>
      cases f.tree.hasError with
      | true => rfl
      | false => rfl

theorem path_of_load_eq_error {e : ParseError} (h : f.load path = .error e) : e.path = path.render := by
  unfold load at h
  split_ifs at h
  · cases h
    rfl
  · split at h
    · cases h
      rfl
    · obtain ⟨-, rfl⟩ := SyntaxFile.load_eq_error_iff.mp h
      rfl

end

end File

namespace Listing
open FileTree

/-- A listing holds the files that load and the errors of the others, both in the order of the files. -/
structure Holds (listing : Listing) (files : List (Path × File)) : Prop where
  parsed : listing.parsed = files.filterMap fun x => x.2.loaded? x.1
  errors : listing.errors = files.filterMap fun x => x.2.refusal? x.1

theorem ofFiles_holds (files : List (Path × File)) : (ofFiles files).Holds files := by
  induction files with
  | nil => exact ⟨rfl, rfl⟩
  | cons x files ih =>
    obtain ⟨path, f⟩ := x
    rw [ofFiles]
    cases hload : f.load path with
    | ok file =>
      obtain ⟨hloaded, hrefusal⟩ := File.of_load_eq_ok hload
      constructor
      · simp [hloaded, ih.parsed]
      · simp [hrefusal, ih.errors]
    | error e =>
      obtain ⟨hloaded, hrefusal⟩ := File.of_load_eq_error hload
      constructor
      · simp [hloaded, ih.parsed]
      · simp [hrefusal, ih.errors]

section Holds
variable {listing : Listing} {files : List (Path × File)} (h : listing.Holds files)
include h

theorem Holds.paths :
    listing.parsed.map Prod.fst = (files.filter (·.2.isSound)).map Prod.fst ∧
      listing.errors.map ParseError.path = (files.filter (!·.2.isSound)).map (·.1.render) := by
  rw [h.parsed, h.errors]
  clear h
  induction files with
  | nil => exact ⟨rfl, rfl⟩
  | cons x files ih =>
    cases hload : x.2.load x.1 with
    | ok file =>
      obtain ⟨hloaded, hrefusal⟩ := File.of_load_eq_ok hload
      have hsound : x.2.isSound = true := by
        rw [← File.isOk_load x.1, hload]
        rfl
      simp [hloaded, hrefusal, hsound, ih]
    | error e =>
      obtain ⟨hloaded, hrefusal⟩ := File.of_load_eq_error hload
      have hsound : x.2.isSound = false := by
        rw [← File.isOk_load x.1, hload]
        rfl
      have hpath := File.path_of_load_eq_error hload
      simp [hloaded, hrefusal, hsound, hpath, ih]

/-- Every file is in one of the two lists of a listing. -/
theorem Holds.length_add : listing.parsed.length + listing.errors.length = files.length := by
  obtain ⟨hparsed, herrors⟩ := h.paths
  have hparsed := congrArg List.length hparsed
  have herrors := congrArg List.length herrors
  rw [List.length_map, List.length_map] at hparsed herrors
  rw [hparsed, herrors]
  exact (List.length_eq_length_filter_add _).symm

theorem Holds.analyzed_add_failed (a : Analyzer) :
    (a.analyzeListing listing).stats.filesAnalyzed + (a.analyzeListing listing).stats.filesFailed =
      files.length := by
  have hanalyze := a.analyze_filesAnalyzed_add listing.files
  have hfiles : listing.files.length = listing.parsed.length := List.length_map _
  have hlength := h.length_add
  unfold Analyzer.analyzeListing AnalysisResult.addFailed
  dsimp only
  omega

end Holds

/-- All the chosen candidates have to be files. -/
theorem mapM_eq_ok_iff {chosen : List Candidate} {files : List (Path × File)} :
    (chosen.mapM fun (path, f) => (f.map (path, ·)).mapError (PathError.failure · path)) = .ok files ↔
      chosen = files.map fun x => (x.1, .ok x.2) := by
  induction chosen generalizing files with
  | nil =>
    rw [List.mapM_nil]
    cases files with
    | nil => simp [pure, Except.pure]
    | cons x files => simp [pure, Except.pure]
  | cons c chosen ih =>
    obtain ⟨path, found⟩ := c
    rw [List.mapM_cons, bind_eq_ok_iff]
    constructor
    · intro ⟨x, hx, h⟩
      obtain ⟨others, hothers, h⟩ := bind_eq_ok_iff.mp h
      cases found with
      | error failure => cases hx
      | ok f =>
        cases hx
        cases h
        rw [ih.mp hothers]
        rfl
    · intro h
      cases files with
      | nil => cases h
      | cons x files =>
        rw [List.map_cons, List.cons.injEq] at h
        refine ⟨x, ?_, bind_eq_ok_iff.mpr ⟨files, ih.mpr h.2, rfl⟩⟩
        cases h.1
        rfl

section Walk
variable {here : Site} {root extension : String}

theorem sources_eq_ok_iff (hnull : '\x00' ∉ root.toList) {files : List (Path × File)} :
    sources here root extension = .ok files ↔
      (candidates here root).filter (·.1.suffix == extension) = files.map fun x => (x.1, .ok x.2) := by
  have hcontains : ¬root.toList.contains '\x00' = true := fun h => hnull (List.contains_iff_mem.mp h)
  unfold sources
  rw [if_neg hcontains]
  exact mapM_eq_ok_iff

theorem exists_sources_of_walk {listing : Listing} (h : walk here root extension = .ok listing) :
    ∃ files, sources here root extension = .ok files ∧ listing.Holds files := by
  obtain ⟨files, hfiles, h⟩ := bind_eq_ok_iff.mp h
  cases h
  have hholds := ofFiles_holds files
  exact ⟨files, hfiles, hholds.parsed, hholds.errors⟩

theorem exists_walk_of_sources {files : List (Path × File)} (h : sources here root extension = .ok files) :
    ∃ listing, walk here root extension = .ok listing ∧ listing.Holds files := by
  have hholds := ofFiles_holds files
  refine ⟨_, bind_eq_ok_iff.mpr ⟨files, h, rfl⟩, ?_⟩
  exact ⟨hholds.parsed, hholds.errors⟩

end Walk

/-- Some files are those below a directory with the given ending, each of them once and in the order of
a walk. -/
structure Covers (files : List (Path × File)) (d : Directory) (root extension : String) : Prop where
  ordered : files.Pairwise fun x y => Precedes x.1.names y.1.names
  complete : ∀ p f, (p, f) ∈ files ↔
    ∃ names, EntryAt d names (.file f) ∧ p = (Path.ofString root).descend names ∧ p.suffix = extension

section Accounts
variable {here : Site} {root : String} {access : Access} {d : Directory}
  (hopens : Opens here root access d) (hplain : Plain d) {extension : String}
include hopens hplain

theorem ordered_of_sources {files : List (Path × File)} (h : sources here root extension = .ok files) :
    files.Pairwise fun x y => Precedes x.1.names y.1.names := by
  have hchosen := (sources_eq_ok_iff hopens.noNull).mp h
  have hordered := (hopens.inOrder_candidates hplain).filter (·.1.suffix == extension)
  rwa [hchosen, List.pairwise_map] at hordered

theorem mem_of_sources {files : List (Path × File)} (h : sources here root extension = .ok files)
    (p : Path) (f : File) : (p, f) ∈ files ↔ ∃ names, EntryAt d names (.file f) ∧
      p = (Path.ofString root).descend names ∧ p.suffix = extension ∧ Fits root names ∧
      Unlocked access d names := by
  have hchosen := (sources_eq_ok_iff hopens.noNull).mp h
  have hmem : (p, f) ∈ files ↔ (p, .ok f) ∈ files.map fun x => ((x.1, .ok x.2) : Candidate) := by
    simp
  rw [hmem, ← hchosen, List.mem_filter, hopens.mem_candidates hplain, beq_iff_eq]
  constructor
  · intro ⟨⟨names, hat, hp, hway⟩, hsuffix⟩
    exact ⟨names, hat, hp, hsuffix, hway⟩
  · intro ⟨names, hat, hp, hsuffix, hway⟩
    exact ⟨⟨names, hat, hp, hway⟩, hsuffix⟩

theorem exists_sources_of_fits (hfits : ∀ names f, EntryAt d names (.file f) →
      ((Path.ofString root).descend names).suffix = extension →
        Fits root names ∧ Unlocked access d names) :
    ∃ files, sources here root extension = .ok files := by
  have hall : ∀ c ∈ (candidates here root).filter (·.1.suffix == extension),
      c ∈ Set.range fun x : Path × File => ((x.1, .ok x.2) : Candidate) := by
    intro c hc
    obtain ⟨hc, hsuffix⟩ := List.mem_filter.mp hc
    obtain ⟨names, f, hat, hpath, hok⟩ := hopens.exists_of_mem_candidates hplain hc
    rw [beq_iff_eq, hpath] at hsuffix
    obtain ⟨hfits, hunlocked⟩ := hfits names f hat hsuffix
    exact ⟨(c.1, f), Prod.ext rfl (hok hfits hunlocked).symm⟩
  have hrange := Set.range_list_map fun x : Path × File => ((x.1, .ok x.2) : Candidate)
  obtain ⟨files, hfiles⟩ := hrange.symm.subset hall
  exact ⟨files, (sources_eq_ok_iff hopens.noNull).mpr hfiles.symm⟩

theorem fits_of_covers {listing : Listing} {files : List (Path × File)}
    (hwalk : walk here root extension = .ok listing) (hholds : listing.Holds files)
    (hcovers : Covers files d root extension) {names : List String} {f : File}
    (hat : EntryAt d names (.file f))
    (hsuffix : ((Path.ofString root).descend names).suffix = extension) :
    Fits root names ∧ Unlocked access d names := by
  obtain ⟨met, hmet, hholds'⟩ := exists_sources_of_walk hwalk
  have hnodup := nodup_of_precedes (ordered_of_sources hopens hplain hmet)
  have hsubset : met ⊆ files := by
    intro ⟨p, f⟩ hmem
    obtain ⟨names, hat, hp, hsuffix, -⟩ := (mem_of_sources hopens hplain hmet p f).mp hmem
    exact (hcovers.complete p f).mpr ⟨names, hat, hp, hsuffix⟩
  have hlength : files.length ≤ met.length := by
    rw [← hholds.length_add, ← hholds'.length_add]
  have hperm := (hnodup.subperm hsubset).perm_of_length_le hlength
  have hmem : ((Path.ofString root).descend names, f) ∈ met :=
    hperm.mem_iff.mpr ((hcovers.complete _ f).mpr ⟨names, hat, rfl, hsuffix⟩)
  obtain ⟨names', -, hpath, -, hway⟩ := (mem_of_sources hopens hplain hmet _ f).mp hmem
  have hnames : names = names' := List.append_cancel_left (congrArg Path.names hpath)
  rwa [hnames]

end Accounts

/-- The listing of a directory tree without links does not depend on the order in which its directories
are listed. All files with the ending that is asked for are in it once and in the order of a walk, under
their paths or, if they cannot be read, are no text or have a syntax error, as errors, and an analysis
counts each of them, if and only if no text that the walk needs for one of them is too long and no
directory on the way is locked. -/
theorem walk_accounts_iff {here : Site} {root : String} {access : Access} {d : Directory}
    (hopens : Opens here root access d) (hplain : Plain d) (extension : String) :
    (∀ here' d', Opens here' root access d' → Rearranged d d' →
      walk here' root extension = walk here root extension) ∧
    ((∃ files listing, walk here root extension = .ok listing ∧ Covers files d root extension ∧
        listing.Holds files ∧
        listing.parsed.map Prod.fst = (files.filter (·.2.isSound)).map Prod.fst ∧
        listing.errors.map ParseError.path = (files.filter (!·.2.isSound)).map (·.1.render) ∧
        ∀ a : Analyzer, (a.analyzeListing listing).stats.filesAnalyzed +
          (a.analyzeListing listing).stats.filesFailed = files.length) ↔
      ∀ names f, EntryAt d names (.file f) →
        ((Path.ofString root).descend names).suffix = extension →
          Fits root names ∧ Unlocked access d names) := by
  refine ⟨?_, ?_, ?_⟩
  · intro here' d' hopens' h
    have hcandidates := candidates_rearranged hopens hopens' hplain h
    unfold walk sources
    rw [hcandidates]
  · intro ⟨files, listing, hwalk, hcovers, hholds, _⟩ names f hat hsuffix
    exact fits_of_covers hopens hplain hwalk hholds hcovers hat hsuffix
  · intro hfits
    obtain ⟨files, hfiles⟩ := exists_sources_of_fits hopens hplain hfits
    obtain ⟨listing, hwalk, hholds⟩ := exists_walk_of_sources hfiles
    refine ⟨files, listing, hwalk, ?_, hholds, hholds.paths.1, hholds.paths.2, hholds.analyzed_add_failed⟩
    refine ⟨ordered_of_sources hopens hplain hfiles, ?_⟩
    intro p f
    rw [mem_of_sources hopens hplain hfiles]
    constructor
    · intro ⟨names, hat, hp, hsuffix, _⟩
      exact ⟨names, hat, hp, hsuffix⟩
    · intro ⟨names, hat, hp, hsuffix⟩
      exact ⟨names, hat, hp, hsuffix, hfits names f hat (hp ▸ hsuffix)⟩

/-- Two listings of one directory, with a subdirectory and a file that is no text. -/
theorem walk_accounts_iff_two_orders :
    let f : File := { bytes := [], tree := .empty }
    let g : File := { bytes := [255], tree := .empty }
    let d : Directory := [("c.rs", .file g), ("a.rs", .file f),
      ("lib", .directory {} [("b.rs", .file f), ("notes.md", .file f)])]
    let d' : Directory := [("c.rs", .file g),
      ("lib", .directory {} [("notes.md", .file f), ("b.rs", .file f)]), ("a.rs", .file f)]
    let here := within [("src", .directory {} d)]
    Opens here "src" {} d ∧ Plain d ∧ Rearranged d d' ∧
      walk (within [("src", .directory {} d')]) "src" ".rs" = walk here "src" ".rs" ∧
      ∃ files listing, walk here "src" ".rs" = .ok listing ∧
        Covers files d "src" ".rs" ∧ listing.Holds files := by
  intro f g d d' here
  have hopens (d : Directory) : Opens (within [("src", .directory {} d)]) "src" {} d := by
    have hsteps : steps "src" = "src" :: List.replicate 0 "." := by decide +kernel
    exact opens_of_steps d (by decide) (by decide) (by decide) hsteps (by decide) (by decide) (by decide)
      (by decide)
  have hlib : Plain [("b.rs", .file f), ("notes.md", .file f)] :=
    ⟨by decide, by simp, by simp⟩
  have hinner {name : String} {access : Access} {inner : Directory}
      (h : (name, .directory access inner) ∈ d) :
      name = "lib" ∧ access = {} ∧ inner = [("b.rs", .file f), ("notes.md", .file f)] := by
    simpa [d] using h
  have hplain : Plain d := by
    refine ⟨by decide, by simp [d], ?_⟩
    intro name access inner h
    rw [(hinner h).2.2]
    exact hlib
  have hrearranged : Rearranged d d' :=
    .cons _ (.trans (.swap _ _ _) (.inside "lib" {} (.swap _ _ _) (.refl _)))
  obtain ⟨horder, haccounts⟩ := walk_accounts_iff (hopens d) hplain ".rs"
  refine ⟨hopens d, hplain, hrearranged, horder _ _ (hopens d') hrearranged, ?_⟩
  have hfits : ∀ names f, EntryAt d names (.file f) → Fits "src" names := by
    intro names f hat
    cases hat with
    | here he =>
      simp only [d, List.mem_cons, Prod.mk.injEq, List.not_mem_nil, or_false, reduceCtorEq, and_false] at he
      rcases he with ⟨rfl, -⟩ | ⟨rfl, -⟩ <;> exact ⟨fun h => absurd rfl h, by decide +kernel⟩
    | inside he rest =>
      obtain ⟨rfl, rfl, rfl⟩ := hinner he
      cases rest with
      | here he =>
        simp only [List.mem_cons, Prod.mk.injEq, List.not_mem_nil, or_false] at he
        rcases he with ⟨rfl, -⟩ | ⟨rfl, -⟩ <;> exact ⟨fun _ => by decide +kernel, by decide +kernel⟩
      | inside he _ => simp at he
  have hunlocked (names : List String) : Unlocked {} d names := by
    refine ⟨⟨rfl, rfl⟩, ?_⟩
    intro front access inner hat _
    cases hat with
    | here he =>
      obtain ⟨-, rfl, -⟩ := hinner he
      exact ⟨rfl, rfl⟩
    | inside he rest =>
      obtain ⟨-, -, rfl⟩ := hinner he
      cases rest with
      | here he => simp at he
      | inside he _ => simp at he
  obtain ⟨files, listing, hwalk, hcovers, hholds, -⟩ :=
    haccounts.mpr fun names f hat _ => ⟨hfits names f hat, hunlocked names⟩
  exact ⟨files, listing, hwalk, hcovers, hholds⟩

section Dots
open Text

def dots (n : Nat) : List Char := (List.replicate n ['/', '.']).flatten

theorem dots_succ (n : Nat) : dots (n + 1) = '/' :: '.' :: dots n := rfl

theorem pieces_dots (n : Nat) : pieces Path.isSlash (dots n) = [] :: List.replicate n ['.'] := by
  induction n with
  | zero => rfl
  | succ n ih =>
    have hslash : Path.isSlash '/' = true := rfl
    have hdot : ¬Path.isSlash '.' = true := by decide
    rw [dots_succ, pieces, if_pos hslash, pieces, if_neg hdot, ih]
    rfl

theorem null_not_mem_dotted (n : Nat) : '\x00' ∉ (String.ofList ('a' :: dots n)).toList := by
  rw [String.toList_ofList]
  simp [dots]

theorem octets_dotted (n : Nat) : octets (.ofList ('a' :: dots n)) = 2 * n + 1 := by
  have hletter : (Utf8.encodeChar 'a').length = 1 := rfl
  have hslash : (Utf8.encodeChar '/').length = 1 := rfl
  have hdot : (Utf8.encodeChar '.').length = 1 := rfl
  unfold octets
  rw [String.toList_ofList, Utf8.encode_cons, List.length_append, hletter]
  induction n with
  | zero => rfl
  | succ n ih =>
    rw [dots_succ, Utf8.encode_cons, Utf8.encode_cons, List.length_append, List.length_append, hslash,
      hdot]
    omega

theorem getLast?_cons_dots {c : Char} (hc : c ≠ '/') (n : Nat) :
    (c :: dots n).getLast? ≠ some '/' := by
  induction n generalizing c with
  | zero => simpa [dots] using hc
  | succ n ih =>
    rw [dots_succ, List.getLast?_cons_cons, List.getLast?_cons_cons]
    exact ih (by decide)

theorem pieces_dotted (n : Nat) :
    (pieces Path.isSlash ('a' :: dots n)).map String.ofList = "a" :: List.replicate n "." := by
  have hslash : ¬Path.isSlash 'a' = true := by decide
  rw [pieces, if_neg hslash, pieces_dots, List.map_cons, List.map_replicate]

theorem steps_dotted (n : Nat) : steps (.ofList ('a' :: dots n)) = "a" :: List.replicate n "." := by
  unfold steps
  rw [String.toList_ofList, pieces_dotted, if_neg (getLast?_cons_dots (by decide) n)]
  simp

theorem ofString_dotted (n : Nat) : Path.ofString (.ofList ('a' :: dots n)) = ⟨"", ["a"]⟩ := by
  unfold Path.ofString Path.namesOf Path.rootOf
  rw [String.toList_ofList, pieces_dotted]
  simp [Path.isSlash]

end Dots

/-- A file is lost below a text that is long enough to leave no room for the name of a subdirectory. -/
theorem walk_misses_file :
    let root := String.ofList ('a' :: dots 2047)
    let f : File := { bytes := [], tree := .empty }
    let d : Directory := [("b", .directory {} [("x.rs", .file f)])]
    let here := within [("a", .directory {} d)]
    Opens here root {} d ∧ Plain d ∧ EntryAt d ["b", "x.rs"] (.file f) ∧
      ((Path.ofString root).descend ["b", "x.rs"]).suffix = ".rs" ∧
      ∃ listing, walk here root ".rs" = .ok listing ∧
        listing.parsed = [] ∧ listing.errors = [] := by
  intro root f d here
  have hoctets : octets root = 4095 := octets_dotted 2047
  have hnull : '\x00' ∉ root.toList := null_not_mem_dotted 2047
  have hopens : Opens here root {} d := by
    have hshort : octets root < pathLimit := by
      rw [hoctets]
      decide
    have hhead : root.toList.head? ≠ some '/' := by
      rw [String.toList_ofList]
      simp
    exact opens_of_steps d hnull hshort hhead (steps_dotted 2047) (by decide) (by decide) (by decide)
      (by decide)
  have hb : Plain [("x.rs", .file f)] := ⟨by decide, by simp, by simp⟩
  have hplain : Plain d := by
    refine ⟨by decide, by simp [d], ?_⟩
    intro name access inner h
    simp only [d, List.mem_singleton, Prod.mk.injEq, Entry.directory.injEq] at h
    rw [h.2.2]
    exact hb
  have hat : EntryAt d ["b", "x.rs"] (.file f) :=
    .inside (List.mem_singleton_self _) (.here (List.mem_singleton_self _))
  have hsuffix : ((Path.ofString root).descend ["b", "x.rs"]).suffix = ".rs" := by
    rw [ofString_dotted]
    decide +kernel
  have hnone : candidates here root = [] := by
    obtain ⟨site, hmem⟩ := hopens.exists_stop hplain
    rw [List.eq_nil_iff_forall_not_mem]
    intro c hc
    obtain ⟨-, names, f', b, hmet, hreaches, -⟩ := (hmem c).mp hc
    cases hmet with
    | here he => simp [d] at he
    | inside he _ _ rest =>
      simp only [d, List.mem_singleton, Prod.mk.injEq, Entry.directory.injEq] at he
      obtain ⟨rfl, rfl, rfl⟩ := he
      cases rest with
      | here he =>
        have hlong := hreaches (List.cons_ne_nil _ _)
        have hlead : (Stop.first root site).lead = 4096 := by
          unfold Stop.first
          dsimp only
          rw [hoctets, String.toList_ofList, if_neg (getLast?_cons_dots (by decide) 2047)]
        rw [hlead] at hlong
        exact absurd hlong (Nat.not_lt.mpr (Nat.le_add_right _ _))
      | inside he _ _ _ => simp at he
  have hsources : sources here root ".rs" = .ok [] := by
    apply (sources_eq_ok_iff hnull).mpr
    rw [hnone]
    rfl
  obtain ⟨listing, hwalk, hholds⟩ := exists_walk_of_sources hsources
  exact ⟨hopens, hplain, hat, hsuffix, listing, hwalk, hholds.parsed, hholds.errors⟩

end Listing

end AnchorAudit
