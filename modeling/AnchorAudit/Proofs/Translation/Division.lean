import AnchorAudit.Proofs.Division.Search
import AnchorAudit.Proofs.Translation.Subject

/-! The search for risky divisions in a text that comes later in a longer one goes the same way, event
by event. -/
namespace AnchorAudit.Division

def Event.shift (k : Nat) : Event → Event
  | .division whole divisor => .division (whole.shift k) (divisor.shift k)
  | .binding pattern value => .binding (pattern.shift k) (value.map (Node.shift k))

def Search.shift (k : Nat) (s : Search) : Search := ⟨s.safe, s.risky.map (Node.shift k)⟩

section Tree
variable (k : Nat)

@[simp] theorem operator?_shift (n : Node) : operator? (n.shift k) = operator? n := by
  simp [operator?, Function.comp_def]

@[simp] theorem isNumber_shift (n : Node) : isNumber (n.shift k) = isNumber n := by
  simp [isNumber]

theorem divisionEvent_shift (n : Node) :
    divisionEvent (n.shift k) = (divisionEvent n).map (Event.shift k) := by
  unfold divisionEvent
  rw [Node.kind_shift, operator?_shift, Node.child?_shift]
  split
  · cases n.child? "right" <;> rfl
  · rfl

theorem bindingEvent_shift (n : Node) :
    bindingEvent (n.shift k) = (bindingEvent n).map (Event.shift k) := by
  unfold bindingEvent
  rw [Node.kind_shift, Node.child?_shift, Node.child?_shift]
  split
  · cases n.child? "pattern" with
    | none => rfl
    | some pattern =>
      simp only [Option.map_some, Node.kind_shift]
      split <;> rfl
  · rfl

mutual

theorem events_shift : ∀ n, events (n.shift k) = (events n).map (Event.shift k)
  | .mk l cs => by
    have hdivision := divisionEvent_shift k (.mk l cs)
    have hbinding := bindingEvent_shift k (.mk l cs)
    rw [Node.shift] at hdivision hbinding ⊢
    rw [events, events, hdivision, hbinding, eventsAll_shift cs, List.map_append, List.map_append]

theorem eventsAll_shift :
    ∀ cs, eventsAll (Node.shiftAll k cs) = (eventsAll cs).map (Event.shift k)
  | [] => rfl
  | c :: cs => by
    rw [Node.shiftAll, eventsAll, eventsAll, events_shift c, eventsAll_shift cs, List.map_append]

end

mutual

theorem unwrap_shift : ∀ n, unwrap (n.shift k) = (unwrap n).shift k
  | .mk l cs => by
    have hkind : (l.shift k).kind = l.kind := rfl
    have hfirst := unwrapFirst_shift (.mk l cs) cs
    have hvalue := unwrapValue_shift (.mk l cs) cs
    rw [Node.shift] at hfirst hvalue ⊢
    rw [unwrap, unwrap, hkind, hfirst, hvalue]
    split
    · rfl
    split
    · rfl
    · rw [Node.shift]

theorem unwrapFirst_shift (whole : Node) :
    ∀ cs, unwrapFirst (whole.shift k) (Node.shiftAll k cs) = (unwrapFirst whole cs).shift k
  | [] => rfl
  | c :: cs => by
    rw [Node.shiftAll, unwrapFirst, unwrapFirst, Node.isNamed_shift, unwrap_shift c,
      unwrapFirst_shift whole cs]
    split <;> rfl

theorem unwrapValue_shift (whole : Node) :
    ∀ cs, unwrapValue (whole.shift k) (Node.shiftAll k cs) = (unwrapValue whole cs).shift k
  | [] => rfl
  | c :: cs => by
    rw [Node.shiftAll, unwrapValue, unwrapValue, Node.label_shift, Node.field_shift,
      unwrap_shift c, unwrapValue_shift whole cs]
    split <;> rfl

end

end Tree

variable (front : List UInt8)

@[simp] theorem nonzero?_after (source : Source) (n : Node) :
    nonzero? (source.after front) (n.shift front.length) = nonzero? source n := by
  simp [nonzero?]

theorem isRisky_after (source : Source) (safe : List String) (divisor : Node) :
    isRisky (source.after front) safe (divisor.shift front.length) =
      isRisky source safe divisor := by
  simp [isRisky, unwrap_shift]

theorem known?_after (source : Source) (value : Option Node) :
    known? (source.after front) (value.map (Node.shift front.length)) = known? source value := by
  cases value <;> simp [known?]

theorem step_after (source : Source) (s : Search) (e : Event) :
    (s.shift front.length).step (source.after front) (e.shift front.length) =
      (s.step source e).map (·.shift front.length) := by
  cases e with
  | division whole divisor =>
    rw [Event.shift, step_division, step_division, isRisky_after]
    change (isRisky source s.safe divisor).map _ = _
    cases isRisky source s.safe divisor with
    | error failure => rfl
    | ok risky => cases risky <;> rfl
  | binding pattern value =>
    rw [Event.shift, step_binding, step_binding, known?_after, Source.textOf_after]
    cases known? source value <;> rfl

theorem search_after (source : Source) (s : Search) (es : List Event) :
    search (source.after front) (s.shift front.length) (es.map (Event.shift front.length)) =
      ⟨(search source s es).last.shift front.length, (search source s es).failure⟩ := by
  induction es generalizing s with
  | nil => rfl
  | cons e es ih =>
    rw [List.map_cons, search, search, step_after]
    cases s.step source e with
    | error failure => rfl
    | ok next => exact ih next

theorem found_after (source : Source) (body : Node) :
    (searchBody (source.after front) (body.shift front.length)).found =
      (searchBody source body).found := by
  have hsearch : searchBody (source.after front) (body.shift front.length) =
      ⟨(searchBody source body).last.shift front.length, (searchBody source body).failure⟩ := by
    unfold searchBody
    rw [events_shift]
    exact search_after front source .start (events body)
  rw [hsearch]
  unfold Outcome.found
  cases (searchBody source body).failure with
  | some failure => rfl
  | none => simp [Search.shift]

theorem riskyDivision_after (s : Subject) :
    riskyDivision (s.after front) = riskyDivision s := by
  have hbody := s.body_reading_after front (fun source body => (searchBody source body).found)
    (found_after front)
  have hread (t : Subject) : riskyDivision t =
      if t.isFunction then
        (t.body?.map fun body => (searchBody t.source body).found).getD (.ok false)
      else .ok false := by
    unfold riskyDivision searchFunction?
    cases t.isFunction with
    | false => rfl
    | true => cases t.body? <;> rfl
  rw [hread, hread, Subject.isFunction_after, hbody]

end AnchorAudit.Division
