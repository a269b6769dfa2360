import AnchorAudit.Text.Word

/-! Occurrences of one text in another. -/
namespace AnchorAudit.Text

/-- The needle stands somewhere in the text, with nothing between its characters. -/
def occurs (needle : List Char) : List Char → Bool
  | [] => needle.isEmpty
  | c :: cs => needle.isPrefixOf (c :: cs) || occurs needle cs

/-- The string `s` mentions `t` when `t` stands somewhere in it. -/
def mentions (s t : String) : Bool := occurs t.toList s.toList

/-- The needle opens the text and no word character follows it. -/
def opensWord (needle cs : List Char) : Bool :=
  needle.isPrefixOf cs && ((cs.drop needle.length).head?.all (!isWord ·))

/-- The needle stands in the text as a whole word. The flag tells whether a word character
comes before the text. -/
def occursAsWord (needle : List Char) : Bool → List Char → Bool
  | _, [] => false
  | inWord, c :: cs =>
    (!inWord && opensWord needle (c :: cs)) || occursAsWord needle (isWord c) cs

/-- The string `s` has the word `t`, not merely as a part of a longer word. -/
def hasWord (s t : String) : Bool := occursAsWord t.toList false s.toList

/-- Lower case for the letters A to Z; all other characters stay. -/
def lowerAscii (s : String) : String := .ofList (s.toList.map Char.toLower)

end AnchorAudit.Text
