import AnchorAudit.Check.Division

/-! The search for risky divisions, event by event. What it knows about a name is decided by the last
binding of that name, and it finds the divisions that are risky by what is known when they are met. -/
namespace AnchorAudit.Division

def boundValue? (source : Source) (name : String) : Event → Option (Option Node)
  | .binding pattern value => if source.textOf pattern = name then some value else none
  | .division _ _ => none

def lastValue? (source : Source) (name : String) (es : List Event) : Option (Option Node) :=
  es.reverse.findSome? (boundValue? source name)

/-- A value that is itself a literal, read as a number other than zero. -/
def Nonzero (source : Source) (value : Option Node) : Prop :=
  ∃ v, value = some v ∧ isNumber v = true ∧ nonzero? source v = .ok (some true)

theorem lastValue?_cons (source : Source) (name : String) (e : Event) (es : List Event) :
    lastValue? source name (e :: es) =
      (lastValue? source name es).or (boundValue? source name e) := by
  unfold lastValue?
  rw [List.reverse_cons, List.findSome?_append]
  cases h : boundValue? source name e <;> simp [h]

/-- What is known about a value: whether it is a literal other than zero. -/
def known? (source : Source) : Option Node → Except Numeral.TooLarge (Option Bool)
  | some v => nonzero? source v
  | none => .ok none

theorem nonzero_iff {source : Source} {value : Option Node} :
    Nonzero source value ↔ known? source value = .ok (some true) := by
  cases value with
  | none => simp [Nonzero, known?]
  | some v =>
    have hnumber : nonzero? source v = .ok (some true) → isNumber v = true := by
      intro h
      unfold nonzero? at h
      split at h
      · assumption
      · cases h
    simpa [Nonzero, known?] using hnumber

theorem step_division (source : Source) (s : Search) (whole divisor : Node) :
    s.step source (.division whole divisor) = (isRisky source s.safe divisor).map fun risky =>
      if risky then { s with risky := whole :: s.risky } else s := by
  rw [Search.step]
  cases isRisky source s.safe divisor with
  | error failure => rfl
  | ok risky => cases risky <;> rfl

theorem step_binding (source : Source) (s : Search) (pattern : Node) (value : Option Node) :
    s.step source (.binding pattern value) = (known? source value).map fun known =>
      s.bind (source.textOf pattern) (known == some true) := by
  cases value with
  | none => rfl
  | some v =>
    unfold Search.step known?
    dsimp only
    cases nonzero? source v <;> rfl

/-- All that an event can do to a search that goes on. -/
theorem step_eq_ok {source : Source} {s next : Search} {e : Event}
    (h : s.step source e = .ok next) :
    (∃ whole divisor risky, e = .division whole divisor ∧
        isRisky source s.safe divisor = .ok risky ∧
        next = if risky then { s with risky := whole :: s.risky } else s) ∨
      ∃ pattern value known, e = .binding pattern value ∧ known? source value = .ok known ∧
        next = s.bind (source.textOf pattern) (known == some true) := by
  cases e with
  | division whole divisor =>
    rw [step_division] at h
    cases hr : isRisky source s.safe divisor with
    | error failure =>
      rw [hr] at h
      cases h
    | ok risky =>
      rw [hr] at h
      cases h
      exact .inl ⟨whole, divisor, risky, rfl, hr, rfl⟩
  | binding pattern value =>
    rw [step_binding] at h
    cases hk : known? source value with
    | error failure =>
      rw [hk] at h
      cases h
    | ok known =>
      rw [hk] at h
      cases h
      exact .inr ⟨pattern, value, known, rfl, hk, rfl⟩

theorem mem_bind_safe {s : Search} {bound name : String} {isSafe : Bool} :
    name ∈ (s.bind bound isSafe).safe ↔
      if bound = name then isSafe = true else name ∈ s.safe := by
  unfold Search.bind
  by_cases hname : bound = name
  · subst hname
    cases isSafe <;> simp
  · cases isSafe <;> simp [hname, Ne.symm hname]

theorem nodup_bind_safe {s : Search} (hs : s.safe.Nodup) (name : String) (isSafe : Bool) :
    (s.bind name isSafe).safe.Nodup := by
  have hothers : (s.safe.filter (· != name)).Nodup := hs.filter _
  cases isSafe with
  | false => exact hothers
  | true => exact List.nodup_cons.mpr ⟨by simp, hothers⟩

/-- After one event a name is safe by what the event binds to it, or as before. -/
theorem mem_step_safe {source : Source} {s next : Search} {e : Event}
    (h : s.step source e = .ok next) (name : String) :
    name ∈ next.safe ↔ match boundValue? source name e with
      | some value => Nonzero source value
      | none => name ∈ s.safe := by
  obtain ⟨whole, divisor, risky, rfl, -, rfl⟩ | ⟨pattern, value, known, rfl, hk, rfl⟩ := step_eq_ok h
  · cases risky <;> rfl
  · rw [mem_bind_safe, boundValue?]
    by_cases hname : source.textOf pattern = name <;> simp [hname, nonzero_iff, hk]

theorem nodup_step_safe {source : Source} {s next : Search} {e : Event} (hs : s.safe.Nodup)
    (h : s.step source e = .ok next) : next.safe.Nodup := by
  obtain ⟨whole, divisor, risky, rfl, -, rfl⟩ | ⟨pattern, value, known, rfl, hk, rfl⟩ := step_eq_ok h
  · cases risky <;> exact hs
  · exact nodup_bind_safe hs _ _

theorem search_cons {source : Source} {s next : Search} {e : Event}
    (h : s.step source e = .ok next) (es : List Event) :
    search source s (e :: es) = search source next es := by
  rw [search, h]

theorem exists_step_of_failure_eq_none {source : Source} {s : Search} {e : Event} {es : List Event}
    (h : (search source s (e :: es)).failure = none) : ∃ next, s.step source e = .ok next := by
  rw [search] at h
  cases hstep : s.step source e with
  | ok next => exact ⟨next, rfl⟩
  | error failure =>
    rw [hstep] at h
    cases h

theorem nodup_search_safe {source : Source} {s : Search} (hs : s.safe.Nodup) (es : List Event) :
    (search source s es).last.safe.Nodup := by
  induction es generalizing s with
  | nil => exact hs
  | cons e es ih =>
    rw [search]
    cases hstep : s.step source e with
    | error failure => exact hs
    | ok next => exact ih (nodup_step_safe hs hstep)

/-- What is safe after events is decided by the last binding of each name. -/
theorem mem_search_safe {source : Source} {s : Search} {es : List Event}
    (h : (search source s es).failure = none) (name : String) :
    name ∈ (search source s es).last.safe ↔ match lastValue? source name es with
      | some value => Nonzero source value
      | none => name ∈ s.safe := by
  induction es generalizing s with
  | nil => rfl
  | cons e es ih =>
    obtain ⟨next, hstep⟩ := exists_step_of_failure_eq_none h
    rw [search_cons hstep] at h ⊢
    rw [ih h, lastValue?_cons]
    cases lastValue? source name es with
    | some value => rfl
    | none => simpa using mem_step_safe hstep name

theorem failure_eq_none_of_append {source : Source} {s : Search} {before later : List Event}
    (h : (search source s (before ++ later)).failure = none) :
    (search source s before).failure = none := by
  induction before generalizing s with
  | nil => rfl
  | cons e before ih =>
    rw [List.cons_append] at h
    obtain ⟨next, hstep⟩ := exists_step_of_failure_eq_none h
    rw [search_cons hstep] at h ⊢
    exact ih h

/-- Among the events is a division that is risky when the search meets it. -/
def MeetsRisk (source : Source) (s : Search) (es : List Event) : Prop :=
  ∃ before whole divisor later, es = before ++ .division whole divisor :: later ∧
    isRisky source (search source s before).last.safe divisor = .ok true

theorem meetsRisk_cons {source : Source} {s next : Search} {e : Event}
    (hstep : s.step source e = .ok next) (es : List Event) :
    MeetsRisk source s (e :: es) ↔
      (∃ whole divisor, e = .division whole divisor ∧ isRisky source s.safe divisor = .ok true) ∨
        MeetsRisk source next es := by
  constructor
  · rintro ⟨before, whole, divisor, later, hes, hrisk⟩
    cases before with
    | nil =>
      cases hes
      exact .inl ⟨whole, divisor, rfl, hrisk⟩
    | cons first before =>
      cases hes
      rw [search_cons hstep] at hrisk
      exact .inr ⟨before, whole, divisor, later, rfl, hrisk⟩
  · rintro (⟨whole, divisor, rfl, hrisk⟩ | ⟨before, whole, divisor, later, rfl, hrisk⟩)
    · exact ⟨[], whole, divisor, es, rfl, hrisk⟩
    · refine ⟨e :: before, whole, divisor, later, rfl, ?_⟩
      rw [search_cons hstep]
      exact hrisk

theorem risky_step_ne_nil {source : Source} {s next : Search} {e : Event}
    (h : s.step source e = .ok next) :
    next.risky ≠ [] ↔ s.risky ≠ [] ∨
      ∃ whole divisor, e = .division whole divisor ∧ isRisky source s.safe divisor = .ok true := by
  obtain ⟨whole, divisor, risky, rfl, hr, rfl⟩ | ⟨pattern, value, known, rfl, hk, rfl⟩ := step_eq_ok h
  · cases risky with
    | true => exact ⟨fun _ => .inr ⟨whole, divisor, rfl, hr⟩, fun _ => List.cons_ne_nil whole s.risky⟩
    | false => simp [hr]
  · simp [Search.bind]

theorem risky_search_ne_nil {source : Source} {s : Search} {es : List Event}
    (h : (search source s es).failure = none) :
    (search source s es).last.risky ≠ [] ↔ s.risky ≠ [] ∨ MeetsRisk source s es := by
  induction es generalizing s with
  | nil => simp [search, MeetsRisk]
  | cons e es ih =>
    obtain ⟨next, hstep⟩ := exists_step_of_failure_eq_none h
    rw [search_cons hstep] at h ⊢
    rw [ih h, meetsRisk_cons hstep, risky_step_ne_nil hstep, or_assoc]

theorem isRisky_eq_true_iff {source : Source} {safe : List String} {divisor : Node} :
    isRisky source safe divisor = .ok true ↔
      (isNumber (unwrap divisor) = true ∧ nonzero? source (unwrap divisor) = .ok (some false)) ∨
      (unwrap divisor).kind ∈ ["scoped_identifier", "call_expression", "field_expression"] ∨
      ((unwrap divisor).kind = "binary_expression" ∧ operator? (unwrap divisor) = some "-") ∨
      ((unwrap divisor).kind = "identifier" ∧ source.textOf (unwrap divisor) ∉ safe) := by
  unfold isRisky
  generalize unwrap divisor = e
  dsimp only
  by_cases hn : isNumber e = true
  · have hkind : e.kind = "integer_literal" ∨ e.kind = "float_literal" := by
      simpa [isNumber] using hn
    rw [if_pos hn]
    have hmap : (nonzero? source e).map (· == some false) = .ok true ↔
        nonzero? source e = .ok (some false) := by
      cases nonzero? source e <;> simp [Except.map]
    rw [hmap]
    rcases hkind with hk | hk <;> simp [hn, hk]
  · rw [if_neg hn]
    by_cases hi : e.kind = "identifier"
    · simp [hn, hi]
    · by_cases hc : e.kind ∈ ["scoped_identifier", "call_expression", "field_expression"]
      · have hcases := hc
        simp only [List.mem_cons, List.not_mem_nil, or_false] at hcases
        rcases hcases with hk | hk | hk <;> simp [hk]
      · have hcases := hc
        simp only [List.mem_cons, List.not_mem_nil, or_false, not_or] at hcases
        simp [hn, hi, hcases]

end AnchorAudit.Division
