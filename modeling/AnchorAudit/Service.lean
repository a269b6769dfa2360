import AnchorAudit.Scan
import AnchorAudit.Service.Target

/-! The service that answers requests for scans. -/
namespace AnchorAudit.Service

open Schema

structure Request where
  method : String
  path : String
  body : String

structure Reply where
  status : Nat
  body : Json
  log : Log := []

def version : String := "0.1.0"

/-- The number of characters of an invalid body that are sent back. -/
def excerptLength : Nat := 100

def message : Cause → String
  | .missing => "Field required"
  | .notString => "Input should be a valid string"
  | .notText => "Input should be a valid string, unable to parse raw data as a unicode string"
  | .notList => "Input should be a valid list"
  | .notBool => "Input should be a valid boolean"
  | .boolUnreadable => "Input should be a valid boolean, unable to interpret input"
  | .notObject => "Input should be a valid dictionary or object to extract fields from"
  | cause => cause.code

def stepJson : Step → Json
  | .index i => .int i
  | step => .string step.render

def part : Json → List Step → Json
  | v, [] => v
  | v, .field name :: rest => part ((v.member? name).getD .null) rest
  | .array items, .index i :: rest => part (items.getD i .null) rest
  | _, _ => .null

/-- An issue as it is sent back. A missing part is shown by the object that lacks it. -/
def detail (body : Json) (issue : Issue) : Json :=
  let shown := if issue.cause = .missing then issue.path.dropLast else issue.path
  .object [("type", .string issue.cause.code),
    ("loc", .array (.string "body" :: issue.path.map stepJson)),
    ("msg", .string (message issue.cause)), ("input", part body shown)]

def invalid (body : String) (details : List Json) : Reply where
  status := 422
  body := .object [("detail", .array details),
    ("body", .text (.ofList (body.toList.take excerptLength)))]

def refusal (status : Nat) (text : String) : Reply where
  status := status
  body := .object [("detail", .string text)]

def unreadable (e : Json.ReadError) : Json :=
  .object [("type", .string "json_invalid"), ("loc", .array [.string "body", .int e.position]),
    ("msg", .string "JSON decode error"), ("input", .object []),
    ("ctx", .object [("error", .string e.cause.message)])]

/-- Files with their trees. A file for which there is no tree gets an empty one. -/
def withTrees (trees : List Node) (files : List FileInput) : List (FileInput × Node) :=
  files.mapIdx fun i f => (f, trees.getD i .empty)

inductive Failure where
  | target (error : TargetError)
  | templates (error : FileTree.PathError)
  | scan (failure : Scan.Failure)
  /-- The reply would hold a number that JSON cannot hold. -/
  | notFinite
  /-- The reply would hold a string that is no text. -/
  | notText
  /-- The reply has no body, which is not JSON. -/
  | noBody

def Failure.message : Failure → String
  | .target e => e.message
  | .templates e | .scan (.templates e) => e.message
  | .scan (.content e) => e.message
  | .scan .path | .notText => "surrogates not allowed"
  | .notFinite => "Out of range float values are not JSON compliant"
  | .noBody => "Expecting value: line 1 column 1 (char 0)"

/-- The points of a body. The encoding of its octets shows in the first of them. -/
def decodeBody? (body : String) : Option Text.Points :=
  match Text.Encoding.detect (Utf8.encode (body.toList.take 4)) with
  | .utf8 => some ((Text.dropMark body.toList).map .char)
  | encoding => encoding.decode? (Utf8.encode body.toList)

/-- The value that a body holds, or the reply to a body that holds none. -/
def readBody (body : String) : Except Reply Json :=
  let unusable := refusal 400 "There was an error parsing the body"
  match decodeBody? body with
  | none => .error unusable
  | some text =>
    match Json.read text with
    | .ok v => .ok v
    | .error e => .error (if e.cause = .integerTooLong then unusable else invalid body [unreadable e])

/-- Scans the files of a body, whose syntax trees are given in their order. -/
def scan (settings : Settings) (here : FileTree.Site) (time : String) (trees : List Node)
    (body : String) : Except Failure Reply :=
  if body.isEmpty then .ok (invalid body [detail .null ⟨[], .missing⟩])
  else match readBody body with
    | .error reply => .ok reply
    | .ok v =>
      match ScanRequest.read .notObject v with
      | .error issues => .ok (invalid body (issues.map (detail v)))
      | .ok request => do
        let (response, log) ← (Scan.run settings here time (withTrees trees request.files)
          request.markdownReport).mapError .scan
        return { status := 200, body := response.write, log }

def health (settings : Settings) (here : FileTree.Site) : Except Failure Reply := do
  let built ← (Analyzer.build settings.selection here).mapError .templates
  return { status := 200
           body := .object [("status", .string "ok"), ("version", .string version),
             ("rules", .int built.analyzer.registry.count)] }

inductive Route where
  | scan
  | health
  deriving DecidableEq

def Route.path : Route → String
  | .scan => "/scan"
  | .health => "/health"

def Route.method : Route → String
  | .scan => "POST"
  | .health => "GET"

/-- A route also accepts its path with a line feed at the end. -/
def Route.accepts (route : Route) (path : String) : Bool :=
  path == route.path || path == route.path ++ "\n"

/-- The route that a path leads to, with or without slashes at its end. -/
def route? (path : String) : Option Route :=
  let short := String.ofList (path.toList.reverse.dropWhile Path.isSlash).reverse
  [Route.scan, .health].find? fun route => route.accepts path || route.accepts short

def capitals (method : String) : String := .ofList (method.toList.map Char.toUpper)

def answer (settings : Settings) (here : FileTree.Site) (time : String) (trees : List Node)
    (path method body : String) : Except Failure Reply :=
  match route? path with
  | none => .ok (refusal 404 "Not Found")
  | some route =>
    if method ≠ route.method then .ok (refusal 405 "Method Not Allowed")
    else match route with
      | .scan => scan settings here time trees body
      | .health => health settings here

section Every
variable (number : String → Bool) (string : Text.Points → Bool)

mutual

/-- All numbers with a point or an exponent in a value and all strings, names included, pass a test. -/
def every : Json → Bool
  | .real literal => number literal
  | .string s => string s
  | .array items => everyItem items
  | .object members => everyMember members
  | _ => true

def everyItem : List Json → Bool
  | [] => true
  | v :: rest => every v && everyItem rest

def everyMember : List (Text.Points × Json) → Bool
  | [] => true
  | (name, v) :: rest => string name && every v && everyMember rest

end

end Every

/-- A value all of whose numbers are finite. -/
def isFinite : Json → Bool := every (fun literal => (realOf literal).isFinite) fun _ => true

/-- A value all of whose strings are texts. -/
def isText : Json → Bool := every (fun _ => true) Text.Points.isText

/-- Answers a request under some settings, in a working directory, at a time, with the trees of the files
in it. -/
def handle (settings : Settings) (here : FileTree.Site) (time : String) (trees : List Node)
    (r : Request) : Except Failure Reply := do
  let path ← (targetPath r.path).mapError .target
  let method := capitals r.method
  let reply ← answer settings here time trees path method r.body
  if !isFinite reply.body then throw .notFinite
  else if !isText reply.body then throw .notText
  else if method = "HEAD" then throw .noBody
  else return reply

end AnchorAudit.Service
