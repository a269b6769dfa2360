import AnchorAudit.Query

/-! Trees and subjects of a text that comes later in a longer one. All that is read from them stays as
it was: only the offsets know what stands before the text. -/
namespace AnchorAudit

def Label.shift (k : Nat) (l : Label) : Label := { l with start := l.start + k, stop := l.stop + k }

namespace Node

mutual

/-- The tree that lies `k` octets later. -/
def shift (k : Nat) : Node → Node
  | mk l cs => mk (l.shift k) (shiftAll k cs)

def shiftAll (k : Nat) : List Node → List Node
  | [] => []
  | c :: cs => shift k c :: shiftAll k cs

end

variable (k : Nat)

theorem shiftAll_eq (cs : List Node) : shiftAll k cs = cs.map (shift k) := by
  induction cs with
  | nil => rfl
  | cons c cs ih => rw [shiftAll, ih, List.map_cons]

@[simp] theorem label_shift (n : Node) : (n.shift k).label = n.label.shift k := by
  cases n
  rfl

@[simp] theorem kind_shift (n : Node) : (n.shift k).kind = n.kind := by
  cases n
  rfl

@[simp] theorem isNamed_shift (n : Node) : (n.shift k).isNamed = n.isNamed := by
  cases n
  rfl

@[simp] theorem field_shift (l : Label) : (l.shift k).field = l.field := rfl

@[simp] theorem children_shift (n : Node) : (n.shift k).children = n.children.map (shift k) := by
  cases n
  rw [shift, children, children, shiftAll_eq]

@[simp] theorem child?_shift (n : Node) (field : String) :
    (n.shift k).child? field = (n.child? field).map (shift k) := by
  unfold child?
  simp only [children_shift, List.find?_map, Function.comp_def, label_shift, field_shift]

@[simp] theorem namedChildren_shift (n : Node) :
    (n.shift k).namedChildren = n.namedChildren.map (shift k) := by
  unfold namedChildren
  rw [children_shift, List.filter_map]
  simp [Function.comp_def]

@[simp] theorem namedOfKind_shift (n : Node) (kind : String) :
    (n.shift k).namedOfKind kind = (n.namedOfKind kind).map (shift k) := by
  unfold namedOfKind
  rw [namedChildren_shift, List.filter_map]
  simp [Function.comp_def]

theorem unstack_shift (stack : List Node) :
    unstack (stack.map (shift k)) = (unstack stack).map (shift k) := by
  induction stack using unstack.induct with
  | case1 => simp [unstack]
  | case2 n rest ih =>
    rw [List.map_cons, unstack, unstack, children_shift, ← List.map_append, ih, List.map_cons]

@[simp] theorem subtree_shift (n : Node) : (n.shift k).subtree = n.subtree.map (shift k) :=
  unstack_shift k [n]

end Node

def Source.after (front : List UInt8) (s : Source) : Source := ⟨front ++ s.bytes⟩

variable (front : List UInt8)

theorem Source.take_after (s : Source) (offset : Nat) :
    (s.after front).bytes.take (offset + front.length) = front ++ s.bytes.take offset := by
  rw [Nat.add_comm]
  exact List.take_length_add_append offset

@[simp] theorem Source.textOf_after (s : Source) (n : Node) :
    (s.after front).textOf (n.shift front.length) = s.textOf n := by
  have hdrop (bytes : List UInt8) (offset : Nat) :
      (front ++ bytes).drop (offset + front.length) = bytes.drop offset := by
    rw [Nat.add_comm]
    exact List.drop_length_add_append offset
  unfold textOf between
  rw [Node.label_shift, Label.shift, take_after, hdrop]

@[simp] theorem Attribute.ofNode_after (s : Source) (n : Node) :
    ofNode (s.after front) (n.shift front.length) = ofNode s n := by
  have hfind : (n.shift front.length).namedChildren.find? (·.kind == "attribute") =
      (n.namedChildren.find? (·.kind == "attribute")).map (.shift front.length) := by
    simp only [Node.namedChildren_shift, List.find?_map, Function.comp_def, Node.kind_shift]
  unfold ofNode
  rw [hfind]
  cases n.namedChildren.find? (·.kind == "attribute") <;> simp

theorem hasUnsafeModifier_after (s : Source) (n : Node) :
    hasUnsafeModifier (s.after front) (n.shift front.length) = hasUnsafeModifier s n := by
  simp [hasUnsafeModifier, Function.comp_def]

namespace Place

def after (p : Place) : Place :=
  ⟨p.source.after front, p.node.shift front.length, p.before.map (.shift front.length)⟩

theorem side_after (source : Source) (before ns : List Node) :
    side (source.after front) (before.map (.shift front.length)) (ns.map (.shift front.length)) =
      (side source before ns).map (after front) := by
  induction ns generalizing before with
  | nil => rfl
  | cons n ns ih =>
    have hnext := ih (n :: before)
    rw [List.map_cons] at hnext
    rw [List.map_cons, side, side, List.map_cons, hnext]
    rfl

theorem childText?_after (p : Place) (field : String) :
    (p.after front).childText? field = p.childText? field := by
  simp [childText?, after, Function.comp_def]

theorem leadingAttributes_after (p : Place) :
    (p.after front).leadingAttributes = p.leadingAttributes.map (.shift front.length) := by
  have hitem (n : Node) : isAttributeItem (n.shift front.length) = isAttributeItem n := by
    simp [isAttributeItem]
  have hcomment (n : Node) : isComment (n.shift front.length) = isComment n := by
    simp [isComment]
  simp [leadingAttributes, waiting, after, hitem, hcomment, List.filter_map, List.takeWhile_map,
    Function.comp_def]

theorem attributes_after (p : Place) : (p.after front).attributes = p.attributes := by
  unfold attributes
  rw [leadingAttributes_after]
  simp [after, Function.comp_def]

theorem fieldOf_after (source : Source) (pending : List Attribute) (n : Node) :
    fieldOf (source.after front) pending (n.shift front.length) = fieldOf source pending n := by
  simp [fieldOf, Function.comp_def]

theorem fieldsAmong_after (source : Source) (pending : List Attribute) (ns : List Node) :
    fieldsAmong (source.after front) pending (ns.map (.shift front.length)) =
      fieldsAmong source pending ns := by
  induction ns generalizing pending with
  | nil => rfl
  | cons n ns ih => simp [fieldsAmong, fieldOf_after, ih]

theorem fields_after (p : Place) : (p.after front).fields = p.fields := by
  unfold fields
  simp only [after, Node.child?_shift]
  cases p.node.child? "body" with
  | none => rfl
  | some body => simp [fieldsAmong_after]

theorem visibility_after (p : Place) : (p.after front).visibility = p.visibility := by
  have hfind : (p.after front).node.children.find? (·.kind == "visibility_modifier") =
      (p.node.children.find? (·.kind == "visibility_modifier")).map (.shift front.length) := by
    simp only [after, Node.children_shift, List.find?_map, Function.comp_def, Node.kind_shift]
  unfold visibility
  rw [hfind]
  cases p.node.children.find? (·.kind == "visibility_modifier") <;> simp [after]

theorem parameters_after (p : Place) : (p.after front).parameters = p.parameters := by
  unfold parameters
  simp only [after, Node.child?_shift]
  cases p.node.child? "parameters" with
  | none => rfl
  | some list => simp [Function.comp_def]

end Place

namespace Subject

def after : Subject → Subject
  | placed role p => placed role (p.after front)
  | other name => other name

@[simp] theorem name?_after (s : Subject) : (s.after front).name? = s.name? := by
  cases s with
  | placed role p => simp [after, name?, Place.childText?_after]
  | other name => rfl

@[simp] theorem isFunction_after (s : Subject) : (s.after front).isFunction = s.isFunction := by
  cases s <;> rfl

@[simp] theorem isStruct_after (s : Subject) : (s.after front).isStruct = s.isStruct := by
  cases s with
  | placed role p => cases role <;> rfl
  | other name => rfl

@[simp] theorem attributes_after (s : Subject) : (s.after front).attributes = s.attributes := by
  cases s with
  | placed role p => exact Place.attributes_after front p
  | other name => rfl

@[simp] theorem fields_after (s : Subject) : (s.after front).fields = s.fields := by
  cases s with
  | placed role p => exact Place.fields_after front p
  | other name => rfl

@[simp] theorem isPublic_after (s : Subject) : (s.after front).isPublic = s.isPublic := by
  cases s with
  | placed role p => simp [isPublic, visibility, after, Place.visibility_after]
  | other name => rfl

@[simp] theorem parameters_after (s : Subject) : (s.after front).parameters = s.parameters := by
  cases s with
  | placed role p => exact Place.parameters_after front p
  | other name => rfl

@[simp] theorem returnType?_after (s : Subject) : (s.after front).returnType? = s.returnType? := by
  cases s with
  | placed role p => exact Place.childText?_after front p "return_type"
  | other name => rfl

@[simp] theorem isUnsafeFunction_after (s : Subject) :
    (s.after front).isUnsafeFunction = s.isUnsafeFunction := by
  cases s with
  | placed role p => simp [isUnsafeFunction, after, Place.after, hasUnsafeModifier_after]
  | other name => rfl

@[simp] theorem body?_after (s : Subject) :
    (s.after front).body? = s.body?.map (.shift front.length) := by
  cases s with
  | placed role p => cases role <;> simp [body?, after, Place.after]
  | other name => rfl

/-- A reading of the body that does not see where the source stands. -/
theorem body_reading_after {α : Type} (read : Source → Node → α)
    (hread : ∀ source n, read (source.after front) (n.shift front.length) = read source n)
    (s : Subject) :
    (s.after front).body?.map (read (s.after front).source) = s.body?.map (read s.source) := by
  cases s with
  | placed role p =>
    have hsource : ((placed role p).after front).source = p.source.after front := rfl
    rw [body?_after, hsource, Option.map_map]
    simp only [Function.comp_def, hread]
    rfl
  | other name => rfl

end Subject

end AnchorAudit
