/-! White space and lines, and the operations that trim, collapse and split by them. -/
namespace AnchorAudit.Text

/-- Code points in one of some ranges. Both ends of a range belong to it. -/
def inRanges (table : List (Nat × Nat)) (n : Nat) : Bool :=
  table.any fun r => r.1 ≤ n && n ≤ r.2

/-- Tabs, line ends, the four information separators, the spaces of every width and the line and
paragraph separators. Zero-width characters are not white space. -/
def blankRanges : List (Nat × Nat) :=
  [(0x9, 0xD), (0x1C, 0x20), (0x85, 0x85), (0xA0, 0xA0), (0x1680, 0x1680), (0x2000, 0x200A),
   (0x2028, 0x2029), (0x202F, 0x202F), (0x205F, 0x205F), (0x3000, 0x3000)]

def isBlank (c : Char) : Bool := inRanges blankRanges c.toNat

def trimLeft (cs : List Char) : List Char := cs.dropWhile isBlank

def trimRight (cs : List Char) : List Char := (cs.reverse.dropWhile isBlank).reverse

def trim (cs : List Char) : List Char := trimRight (trimLeft cs)

/-- The pieces between the separators, one more than there are separators. -/
def pieces (isSep : Char → Bool) : List Char → List (List Char)
  | [] => [[]]
  | c :: cs =>
    if isSep c then [] :: pieces isSep cs
    else match pieces isSep cs with
      | [] => [[c]]
      | p :: ps => (c :: p) :: ps

/-- The maximal runs of characters that are not white space. -/
def words (cs : List Char) : List (List Char) := (pieces isBlank cs).filter (!·.isEmpty)

/-- Every run of white space becomes one space. -/
def collapse : List Char → List Char
  | [] => []
  | [c] => if isBlank c then [' '] else [c]
  | c :: d :: cs =>
    if isBlank c then if isBlank d then collapse (d :: cs) else ' ' :: collapse (d :: cs)
    else c :: collapse (d :: cs)

/-- The form of a text that is independent of the amount of white space in it. -/
def squeeze (cs : List Char) : List Char := trim (collapse cs)

def unspaced (cs : List Char) : List Char := cs.filter (!isBlank ·)

def strip (s : String) : String := .ofList (trim s.toList)

def isNewline (c : Char) : Bool := c == '\n'

/-- A line without the carriage return at its end. -/
def dropReturn (line : List Char) : List Char :=
  if line.getLast? = some '\r' then line.dropLast else line

/-- The lines of a text. A line feed ends a line, a carriage return just before it or at the end of
the text belongs to the line end, and nothing follows a final line feed. -/
def splitLines (cs : List Char) : List (List Char) :=
  let lines := (pieces isNewline cs).map dropReturn
  if cs.getLast? = some '\n' then lines.dropLast else lines

/-- Every line end, of whichever kind, becomes a line feed. -/
def unifyLineEnds : List Char → List Char
  | [] => []
  | ['\r'] => ['\n']
  | '\r' :: '\n' :: cs => '\n' :: unifyLineEnds cs
  | '\r' :: c :: cs => '\n' :: unifyLineEnds (c :: cs)
  | c :: cs => c :: unifyLineEnds cs

end AnchorAudit.Text
