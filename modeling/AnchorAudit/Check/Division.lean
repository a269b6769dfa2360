import AnchorAudit.Numeral
import AnchorAudit.Subject

/-! Divisions whose divisor may be zero. A body is read as a sequence of events: a division counts
where it begins, a binding counts where it ends. -/
namespace AnchorAudit.Division

/-- What the search for risky divisions meets in a body. -/
inductive Event where
  /-- A division with the given divisor. -/
  | division (whole divisor : Node)
  /-- A binding of a name, with its value if it has one. -/
  | binding (pattern : Node) (value : Option Node)

def operator? (n : Node) : Option String := (n.child? "operator").map (·.kind)

/-- The division that a node is. -/
def divisionEvent (n : Node) : List Event :=
  if n.kind == "binary_expression" && operator? n == some "/" then
    match n.child? "right" with
    | some divisor => [.division n divisor]
    | none => []
  else []

/-- The binding that a node is. Patterns other than a plain name bind nothing that is tracked. -/
def bindingEvent (n : Node) : List Event :=
  if n.kind == "let_declaration" then
    match n.child? "pattern" with
    | some pattern =>
      if pattern.kind == "identifier" then [.binding pattern (n.child? "value")] else []
    | none => []
  else []

mutual

def events : Node → List Event
  | .mk l cs => divisionEvent (.mk l cs) ++ eventsAll cs ++ bindingEvent (.mk l cs)

def eventsAll : List Node → List Event
  | [] => []
  | c :: cs => events c ++ eventsAll cs

end

def isNumber (n : Node) : Bool := n.kind == "integer_literal" || n.kind == "float_literal"

/-- Whether a numeric literal is different from zero. Other nodes, and literals that cannot be read,
give `none`. -/
def nonzero? (source : Source) (n : Node) : Except Numeral.TooLarge (Option Bool) :=
  if isNumber n then Numeral.nonzero? (source.textOf n) (n.kind == "float_literal") else .ok none

mutual

/-- The expression inside parentheses and casts. -/
def unwrap : Node → Node
  | .mk l cs =>
    if l.kind == "parenthesized_expression" then unwrapFirst (.mk l cs) cs
    else if l.kind == "type_cast_expression" then unwrapValue (.mk l cs) cs
    else .mk l cs

/-- The first named node, unwrapped. -/
def unwrapFirst (whole : Node) : List Node → Node
  | [] => whole
  | c :: cs => if c.isNamed then unwrap c else unwrapFirst whole cs

/-- The first node that is a value, unwrapped. -/
def unwrapValue (whole : Node) : List Node → Node
  | [] => whole
  | c :: cs => if c.label.field == some "value" then unwrap c else unwrapValue whole cs

end

/-- A divisor that may be zero, given the names that are known not to be. -/
def isRisky (source : Source) (safe : List String) (divisor : Node) :
    Except Numeral.TooLarge Bool :=
  let e := unwrap divisor
  if isNumber e then (nonzero? source e).map (· == some false)
  else if e.kind == "identifier" then .ok (!safe.contains (source.textOf e))
  else if e.kind == "scoped_identifier" || e.kind == "call_expression" ||
      e.kind == "field_expression" then .ok true
  else .ok (e.kind == "binary_expression" && operator? e == some "-")

/-- The state of the search: the names that are known not to be zero, and the risky divisions so
far, the latest first. -/
structure Search where
  safe : List String
  risky : List Node

def Search.start : Search := ⟨[], []⟩

/-- A name becomes safe by a binding to a literal other than zero, and loses that by any other. -/
def Search.bind (s : Search) (name : String) (isSafe : Bool) : Search :=
  let others := s.safe.filter (· != name)
  { s with safe := if isSafe then name :: others else others }

def Search.step (source : Source) (s : Search) : Event → Except Numeral.TooLarge Search
  | .division whole divisor => do
    if ← isRisky source s.safe divisor then return { s with risky := whole :: s.risky }
    else return s
  | .binding pattern value => do
    let known ← match value with
      | some v => nonzero? source v
      | none => pure none
    return s.bind (source.textOf pattern) (known == some true)

/-- The end of a search: the last state, and the failure that ended it early. -/
structure Outcome where
  last : Search
  failure : Option Numeral.TooLarge

/-- Runs through events until one fails. -/
def search (source : Source) (s : Search) : List Event → Outcome
  | [] => ⟨s, none⟩
  | e :: es =>
    match s.step source e with
    | .ok next => search source next es
    | .error failure => ⟨s, some failure⟩

def searchBody (source : Source) (body : Node) : Outcome := search source .start (events body)

/-- Whether a body has a risky division. -/
def Outcome.found (o : Outcome) : Except Numeral.TooLarge Bool :=
  match o.failure with
  | some failure => .error failure
  | none => .ok (!o.last.risky.isEmpty)

def Outcome.notes (source : Source) (o : Outcome) : List String :=
  o.last.risky.reverse.map fun n => "Found unsafe division: " ++ source.textOf n

def searchFunction? (s : Subject) : Option Outcome :=
  if s.isFunction then s.body?.map (searchBody s.source) else none

/-- Functions with a division whose divisor may be zero. -/
def riskyDivision (s : Subject) : Except Numeral.TooLarge Bool :=
  match searchFunction? s with
  | some outcome => outcome.found
  | none => .ok false

def riskyDivisionNotes (s : Subject) : List String :=
  match searchFunction? s with
  | some outcome => outcome.notes s.source
  | none => []

end AnchorAudit.Division
