import AnchorAudit.Dotenv.Expansion
import AnchorAudit.Text.Encoding
import AnchorAudit.Text.Blank

/-! Files of variables: one `NAME=value` a line, with comments and quoted values. -/
namespace AnchorAudit.Dotenv

def isGap (c : Char) : Bool := Text.isBlank c && c != '\n' && c != '\r'

def isLineEnd (c : Char) : Bool := c == '\n' || c == '\r'

/-- A text that begins with another, without it. -/
def after? : List Char → List Char → Option (List Char)
  | [], cs => some cs
  | _ :: _, [] => none
  | p :: ps, c :: cs => if p = c then after? ps cs else none

def skipLine (cs : List Char) : List Char := (cs.dropWhile (!isLineEnd ·)).drop 1

/-- The text after the word that marks a variable for export, if it stands there. -/
def skipExport (cs : List Char) : List Char :=
  match after? "export".toList cs with
  | some rest => if (rest.head?.map isGap).getD false then rest.dropWhile isGap else cs
  | none => cs

/-- What stands before the closing quote, and what follows the quote. A backslash takes the next
character of its line with it, and there has to be one. -/
def upToQuote (quote : Char) : List Char → Option (List Char × List Char)
  | [] => none
  | ['\\'] => none
  | '\\' :: c :: rest =>
    if c = '\n' then none
    else (upToQuote quote rest).map fun (inside, after) => ('\\' :: c :: inside, after)
  | c :: rest =>
    if c = quote then some ([], rest)
    else (upToQuote quote rest).map fun (inside, after) => (c :: inside, after)

/-- The character that a backslash and a letter stand for between the given quotes. -/
def escaped? (quote c : Char) : Option Char :=
  if c = '\\' ∨ c = '\'' then some c
  else if quote = '\'' then none
  else match c with
    | '"' => some '"'
    | 'a' => some '\x07'
    | 'b' => some '\x08'
    | 'f' => some '\x0c'
    | 'n' => some '\n'
    | 'r' => some '\r'
    | 't' => some '\t'
    | 'v' => some '\x0b'
    | _ => none

def unescape (quote : Char) : List Char → List Char
  | [] => []
  | [c] => [c]
  | c :: d :: rest =>
    if c = '\\' then match escaped? quote d with
      | some e => e :: unescape quote rest
      | none => c :: unescape quote (d :: rest)
    else c :: unescape quote (d :: rest)

/-- A value without quotes, up to a comment that white space sets off. -/
def beforeComment : List Char → List Char
  | [] => []
  | [c] => [c]
  | c :: d :: rest =>
    if Text.isBlank c && d == '#' then [] else c :: beforeComment (d :: rest)

/-- The name of a variable, which a comment does not have, and the rest of the text. -/
def readName? (cs : List Char) : Option (Option String × List Char) :=
  match cs with
  | '#' :: _ => some (none, cs)
  | '\'' :: rest =>
    let inside := rest.takeWhile (· != '\'')
    match rest.dropWhile (· != '\'') with
    | _ :: after => if inside.isEmpty then none else some (some (.ofList inside), after)
    | [] => none
  | _ =>
    let isPart := fun c => c != '=' && c != '#' && !Text.isBlank c
    let name := cs.takeWhile isPart
    if name.isEmpty then none else some (some (.ofList name), cs.dropWhile isPart)

def readValue? (cs : List Char) : Option (String × List Char) :=
  match cs with
  | [] => some ("", [])
  | c :: rest =>
    if c = '\'' ∨ c = '"' then
      (upToQuote c rest).map fun (inside, after) => (.ofList (unescape c inside), after)
    else
      let line := cs.takeWhile (!isLineEnd ·)
      some (.ofList (Text.trimRight (beforeComment line)), cs.dropWhile (!isLineEnd ·))

/-- A value after an equals sign and the rest of the text. After white space, a comment can stand in
the place of the value. -/
def readAssigned? (cs : List Char) : Option (String × List Char) :=
  let rest := cs.dropWhile isGap
  if rest.length < cs.length && rest.head? = some '#' then some ("", rest) else readValue? rest

/-- The text after a comment and the end of a line, if nothing else stands there. -/
def endLine? (cs : List Char) : Option (List Char) :=
  let rest := cs.dropWhile isGap
  let rest := if rest.head? = some '#' then rest.dropWhile (!isLineEnd ·) else rest
  match rest with
  | [] => some []
  | c :: after => if isLineEnd c then some after else none

/-- One line: the variable that it names with its value, if any, and the rest of the text. A line that
cannot be read names nothing. -/
def readLine (cs : List Char) : Bindings × List Char :=
  match readName? (skipExport cs) with
  | none => ([], skipLine cs)
  | some (name?, rest) =>
    let rest := rest.dropWhile isGap
    let value? := match rest with
      | '=' :: after => (readAssigned? after).map fun (v, r) => (some v, r)
      | _ => some (none, rest)
    match value? with
    | none => ([], skipLine rest)
    | some (value, rest) =>
      match endLine? rest with
      | none => ([], skipLine rest)
      | some after => (name?.toList.map (·, value), after)

/-- Reads lines. Each one takes at least one character, so that the length of the text is enough
fuel. -/
def readLines : Nat → List Char → Bindings
  | 0, _ => []
  | fuel + 1, cs =>
    match Text.trimLeft cs with
    | [] => []
    | c :: rest =>
      let (bindings, after) := readLine (c :: rest)
      bindings ++ readLines fuel after

/-- The variables that a file names, in an environment that its values may refer to. The last value
of a variable counts. A byte order mark at the front of the file is left out. -/
def read (environment : List (String × String)) (text : String) : Bindings :=
  let cs := Text.unifyLineEnds (Text.dropMark text.toList)
  bindAll (environment.map fun (name, value) => (name, some value)) (readLines (cs.length + 1) cs)

end AnchorAudit.Dotenv
