import AnchorAudit.Subject
import Mathlib.Data.List.TakeWhile

/-! Attributes of fields. The fields of a struct collect their attributes on the way forward through its
body, and a field by itself looks for them on the way back: both find the same ones. -/
namespace AnchorAudit.Place

def isField (n : Node) : Bool := n.isNamed && n.kind == "field_declaration"

def trailingAttributes (body : Node) : List Node :=
  ((body.namedChildren.reverse.takeWhile (·.kind != "field_declaration")).filter isAttributeItem).reverse

def fieldPlaces (source : Source) (body : Node) : List Place :=
  (side source [] body.children).filter (isField ·.node)

/-- A body with nothing but attributes, comments and fields, and no attributes inside the fields. -/
structure HasPlainFields (p : Place) (body : Node) : Prop where
  isBody : p.node.child? "body" = some body
  isList : body.kind = "field_declaration_list"
  members : ∀ n ∈ body.namedChildren,
    n.kind ∈ ["attribute_item", "line_comment", "block_comment", "field_declaration"]
  plain : ∀ n ∈ body.namedChildren, n.kind = "field_declaration" → n.namedOfKind "attribute_item" = []

section Step
variable {n : Node} {before : List Node}

theorem member_cases
    (h : n.kind ∈ ["attribute_item", "line_comment", "block_comment", "field_declaration"]) :
    n.kind = "attribute_item" ∨ n.kind = "field_declaration" ∨
      isComment n = true ∧ n.kind ≠ "attribute_item" ∧ n.kind ≠ "field_declaration" := by
  simp only [List.mem_cons, List.not_mem_nil, or_false] at h
  rcases h with h | h | h | h
  · exact Or.inl h
  · exact Or.inr (Or.inr (by simp [isComment, h]))
  · exact Or.inr (Or.inr (by simp [isComment, h]))
  · exact Or.inr (Or.inl h)

theorem waiting_anonymous (h : n.isNamed = false) : waiting (n :: before) = waiting before := by
  simp [waiting, h]

variable (hnamed : n.isNamed = true)
include hnamed

theorem waiting_attribute (h : n.kind = "attribute_item") :
    waiting (n :: before) = waiting before ++ [n] := by
  simp [waiting, hnamed, isAttributeItem, h]

theorem waiting_comment (h : isComment n = true) (hitem : n.kind ≠ "attribute_item") :
    waiting (n :: before) = waiting before := by
  simp [waiting, hnamed, isAttributeItem, h, hitem]

theorem waiting_field (h : n.kind = "field_declaration") : waiting (n :: before) = [] := by
  simp [waiting, hnamed, isAttributeItem, isComment, h]

end Step

/-- The scan forward from any place in a body, with the attributes that wait there: each field gets what
a scan back from it finds, and every attribute item goes to one field or is left at the end. -/
theorem scan_eq (source : Source) {cs : List Node} (before : List Node)
    (h : ∀ n ∈ cs.filter Node.isNamed,
      n.kind ∈ ["attribute_item", "line_comment", "block_comment", "field_declaration"]) :
    let fields := (side source before cs).filter (isField ·.node)
    (fieldsAmong source ((waiting before).map (.ofNode source)) (cs.filter Node.isNamed)).map
        (·.attributes) = fields.map (·.leadingAttributes.map (.ofNode source)) ∧
      waiting before ++ (cs.filter Node.isNamed).filter isAttributeItem =
        fields.flatMap leadingAttributes ++ waiting (cs.reverse ++ before) := by
  induction cs generalizing before with
  | nil => simp [side, fieldsAmong]
  | cons n cs ih =>
    rw [side, List.reverse_cons, List.append_assoc, List.singleton_append]
    cases hnamed : n.isNamed with
    | false =>
      have hskip : (n :: cs).filter Node.isNamed = cs.filter Node.isNamed :=
        List.filter_cons_of_neg (by simp [hnamed])
      have hfield : isField n = false := by simp [isField, hnamed]
      rw [hskip] at h ⊢
      have hrest := ih (n :: before) h
      rw [waiting_anonymous hnamed] at hrest
      rw [List.filter_cons_of_neg (by simp [hfield])]
      exact hrest
    | true =>
      have hkeep : (n :: cs).filter Node.isNamed = n :: cs.filter Node.isNamed :=
        List.filter_cons_of_pos hnamed
      rw [hkeep] at h ⊢
      rw [List.forall_mem_cons] at h
      obtain ⟨hkind, h⟩ := h
      have hrest := ih (n :: before) h
      rcases member_cases hkind with hitem | hfield | ⟨hcomment, hitem, hfield⟩
      · rw [waiting_attribute hnamed hitem] at hrest
        simpa [fieldsAmong, isField, isAttributeItem, hitem] using hrest
      · have hleading : leadingAttributes ⟨source, n, before⟩ = waiting before := rfl
        rw [waiting_field hnamed hfield] at hrest
        simpa [fieldsAmong, isField, isAttributeItem, hfield, hnamed, fieldOf, hleading] using hrest
      · rw [waiting_comment hnamed hcomment hitem] at hrest
        simpa [fieldsAmong, isField, isAttributeItem, hitem, hfield] using hrest

theorem takeWhile_congr {f g : Node → Bool} {ns : List Node} (h : ∀ n ∈ ns, f n = g n) :
    ns.takeWhile f = ns.takeWhile g := by
  induction ns with
  | nil => rfl
  | cons n ns ih =>
    rw [List.forall_mem_cons] at h
    rw [List.takeWhile_cons, List.takeWhile_cons, h.1, ih h.2]

theorem mem_of_mem_side {source : Source} {before cs : List Node} {q : Place}
    (hq : q ∈ side source before cs) : q.source = source ∧ q.node ∈ cs := by
  induction cs generalizing before with
  | nil => cases hq
  | cons n cs ih =>
    rw [side, List.mem_cons] at hq
    rcases hq with rfl | hq
    · exact ⟨rfl, List.mem_cons_self⟩
    · obtain ⟨hsource, hnode⟩ := ih hq
      exact ⟨hsource, List.mem_cons_of_mem n hnode⟩

namespace HasPlainFields
variable {p : Place} {body : Node} (h : p.HasPlainFields body)
include h

theorem fields_eq : p.fields = fieldsAmong p.source [] body.namedChildren := by
  unfold fields
  rw [h.isBody]
  simp [h.isList]

/-- A field has no attributes but those that lead up to it. -/
theorem attributes_eq {q : Place} (hq : q ∈ fieldPlaces p.source body) :
    q.attributes = q.leadingAttributes.map (.ofNode p.source) := by
  obtain ⟨hside, hfield⟩ := List.mem_filter.mp hq
  obtain ⟨hsource, hnode⟩ := mem_of_mem_side hside
  obtain ⟨hnamed, hkind⟩ : q.node.isNamed = true ∧ q.node.kind = "field_declaration" := by
    simpa [isField] using hfield
  have hnone := h.plain q.node (List.mem_filter.mpr ⟨hnode, hnamed⟩) hkind
  rw [attributes, hnone, List.append_nil, hsource]

theorem waiting_reverse : waiting body.children.reverse = trailingAttributes body := by
  have hnamed : body.children.reverse.filter (·.isNamed) = body.namedChildren.reverse :=
    List.filter_reverse
  unfold waiting trailingAttributes
  rw [hnamed]
  congr 2
  apply takeWhile_congr
  intro n hn
  rcases member_cases (h.members n (List.mem_reverse.mp hn)) with hk | hk | ⟨hcomment, -, hk⟩
  · simp [isAttributeItem, hk]
  · simp [isAttributeItem, isComment, hk]
  · simp [hcomment, hk]

end HasPlainFields

/-- Each field of a struct has the attributes that the field has by itself, in whatever role it is taken.
The attributes of the fields, one after the other, and those behind the last field are all attributes of
the body, each once. -/
theorem fields_attributes (role : Role) {p : Place} {body : Node} (h : p.HasPlainFields body) :
    let fields := (Subject.placed .struct p).fields
    let places := fieldPlaces p.source body
    fields.map (·.attributes) = places.map (fun q => (Subject.placed role q).attributes) ∧
      places.flatMap leadingAttributes ++ trailingAttributes body = body.namedOfKind "attribute_item" ∧
      fields.flatMap (·.attributes) ++ (trailingAttributes body).map (.ofNode p.source) =
        (body.namedOfKind "attribute_item").map (.ofNode p.source) := by
  intro fields places
  obtain ⟨hscan, hitems⟩ := scan_eq p.source [] h.members
  have hfields : fields.map (·.attributes) = places.map (·.leadingAttributes.map (.ofNode p.source)) := by
    have heq : fields = fieldsAmong p.source [] body.namedChildren := h.fields_eq
    rw [heq]
    exact hscan
  have hparts : places.flatMap leadingAttributes ++ trailingAttributes body =
      body.namedOfKind "attribute_item" := by
    rw [List.append_nil, h.waiting_reverse] at hitems
    exact hitems.symm
  refine ⟨?_, hparts, ?_⟩
  · rw [hfields]
    apply List.map_congr_left
    intro q hq
    exact (h.attributes_eq hq).symm
  · rw [← hparts, List.map_append, List.flatMap_def, hfields, List.map_flatMap, List.flatMap_def]

/-- A comment between two attributes, a field without any, and an attribute that no field follows. -/
theorem fields_attributes_between_comments :
    let source := Source.ofText "struct S \x7b #[a] /* c */ #[b] x: u8, y: u8, #[z] \x7d"
    let node (kind : String) (field : Option String) (start stop : Nat) (children : List Node) :=
      Node.mk ⟨kind, kind != ",", false, false, field, start, stop⟩ children
    let item (start : Nat) :=
      node "attribute_item" none start (start + 4) [node "attribute" none (start + 2) (start + 3) []]
    let field (start : Nat) :=
      node "field_declaration" none start (start + 5)
        [node "field_identifier" (some "name") start (start + 1) [],
         node "primitive_type" (some "type") (start + 3) (start + 5) []]
    let body := node "field_declaration_list" (some "body") 9 49
      [item 11, node "block_comment" none 16 23 [], item 24, field 29, node "," none 34 35 [], field 36,
       node "," none 41 42 [], item 43]
    let p : Place := ⟨source, node "struct_item" none 0 49 [body], []⟩
    p.HasPlainFields body ∧
      (fieldPlaces source body).map (fun q => (Subject.placed .expression q).attributes) =
        [[⟨"a", "", "a"⟩, ⟨"b", "", "b"⟩], []] := by
  intro source node item field body p
  have hplain : p.HasPlainFields body := ⟨rfl, rfl, by decide, by decide⟩
  refine ⟨hplain, ?_⟩
  rw [← (fields_attributes .expression hplain).1]
  decide +kernel

end AnchorAudit.Place
