import AnchorAudit.Check.Division
import AnchorAudit.Proofs.Node

/-! The events that the search for risky divisions meets, each at the path of its node. They come in
the order of the source, where a division counts as its node begins and a binding as its node ends. -/
namespace AnchorAudit.Division
open Node (EndsBefore ClosesBefore)

mutual

/-- The events of a tree in source order, each with the path of its node. -/
def chronicle : Node → List (List Nat × Event)
  | .mk l cs =>
    (divisionEvent (.mk l cs)).map (Prod.mk []) ++ chronicleAll 0 cs ++
      (bindingEvent (.mk l cs)).map (Prod.mk [])

def chronicleAll (k : Nat) : List Node → List (List Nat × Event)
  | [] => []
  | c :: cs => (chronicle c).map (Prod.map (k :: ·) id) ++ chronicleAll (k + 1) cs

end

mutual

theorem chronicle_events : ∀ n, (chronicle n).map Prod.snd = events n
  | .mk l cs => by
    simp [chronicle, events, chronicleAll_events 0 cs, Function.comp_def]

theorem chronicleAll_events : ∀ k cs, (chronicleAll k cs).map Prod.snd = eventsAll cs
  | _, [] => rfl
  | k, c :: cs => by
    have hfirst : (chronicle c).map (fun entry => entry.2) = events c := chronicle_events c
    simp [chronicleAll, eventsAll, chronicleAll_events (k + 1) cs, hfirst, Function.comp_def]

end

theorem chronicleAll_eq (k : Nat) (cs : List Node) :
    chronicleAll k cs =
      (cs.zipIdx k).flatMap fun child => (chronicle child.1).map (Prod.map (child.2 :: ·) id) := by
  induction cs generalizing k with
  | nil => rfl
  | cons c cs ih => rw [chronicleAll, ih, List.zipIdx_cons, List.flatMap_cons]

theorem mem_chronicleAll {cs : List Node} {path : List Nat} {e : Event} :
    (path, e) ∈ chronicleAll 0 cs ↔
      ∃ i c rest, cs[i]? = some c ∧ path = i :: rest ∧ (rest, e) ∈ chronicle c := by
  rw [chronicleAll_eq, List.mem_flatMap]
  constructor
  · rintro ⟨⟨c, i⟩, hchild, hentry⟩
    obtain ⟨⟨rest, e'⟩, hmem, heq⟩ := List.mem_map.mp hentry
    cases heq
    exact ⟨i, c, rest, List.mem_zipIdx_iff_getElem?.mp hchild, rfl, hmem⟩
  · rintro ⟨i, c, rest, hc, rfl, hmem⟩
    exact ⟨(c, i), List.mem_zipIdx_iff_getElem?.mpr hc, List.mem_map.mpr ⟨(rest, e), hmem, rfl⟩⟩

theorem mem_divisionEvent {n : Node} {e : Event} :
    e ∈ divisionEvent n ↔ ∃ divisor, e = .division n divisor ∧ n.kind = "binary_expression" ∧
      operator? n = some "/" ∧ n.child? "right" = some divisor := by
  unfold divisionEvent
  split
  · rename_i h
    simp only [Bool.and_eq_true, beq_iff_eq] at h
    cases n.child? "right" <;> simp [h]
  · rename_i h
    simp only [Bool.and_eq_true, beq_iff_eq] at h
    simp only [List.not_mem_nil, false_iff]
    rintro ⟨divisor, -, hkind, hop, -⟩
    exact h ⟨hkind, hop⟩

theorem mem_bindingEvent {n : Node} {e : Event} :
    e ∈ bindingEvent n ↔ ∃ pattern, e = .binding pattern (n.child? "value") ∧
      n.kind = "let_declaration" ∧ n.child? "pattern" = some pattern ∧
      pattern.kind = "identifier" := by
  unfold bindingEvent
  split
  · rename_i h
    rw [beq_iff_eq] at h
    cases n.child? "pattern" with
    | none => simp
    | some pattern =>
      simp only [h, Option.some.injEq, true_and]
      split
      · rename_i hp
        rw [beq_iff_eq] at hp
        constructor
        · intro he
          exact ⟨pattern, List.mem_singleton.mp he, rfl, hp⟩
        · rintro ⟨pattern', he, rfl, -⟩
          exact List.mem_singleton.mpr he
      · rename_i hp
        rw [beq_iff_eq] at hp
        simp only [List.not_mem_nil, false_iff]
        rintro ⟨pattern', -, rfl, hp'⟩
        exact hp hp'
  · rename_i h
    rw [beq_iff_eq] at h
    simp only [List.not_mem_nil, false_iff]
    rintro ⟨pattern, -, hkind, -⟩
    exact h hkind

/-- A chronicle tells of every node at its own path, and of nothing else. -/
theorem mem_chronicle {n : Node} {path : List Nat} {e : Event} : (path, e) ∈ chronicle n ↔
    ∃ m, n.at? path = some m ∧ (e ∈ divisionEvent m ∨ e ∈ bindingEvent m) := by
  induction n using Node.treeInduction generalizing path with
  | mk l cs ih =>
    cases path with
    | nil => simp [chronicle, mem_chronicleAll, Node.at?]
    | cons i path =>
      have hroot (es : List Event) : (i :: path, e) ∉ es.map (Prod.mk []) := by simp
      simp only [chronicle, List.mem_append, hroot, false_or, or_false, mem_chronicleAll, Node.at?,
        Node.children, List.cons.injEq, Option.bind_eq_some_iff]
      constructor
      · rintro ⟨j, c, rest, hc, ⟨rfl, rfl⟩, hmem⟩
        obtain ⟨m, hm, he⟩ := (ih c (List.mem_of_getElem? hc)).mp hmem
        exact ⟨m, ⟨c, hc, hm⟩, he⟩
      · rintro ⟨m, ⟨c, hc, hm⟩, he⟩
        exact ⟨i, c, path, hc, ⟨rfl, rfl⟩, (ih c (List.mem_of_getElem? hc)).mpr ⟨m, hm, he⟩⟩

/-- What comes first in a chronicle: a division counts where its node begins, a binding where its
node ends. -/
def Earlier : List Nat × Event → List Nat × Event → Prop
  | (p, .binding _ _), (q, .division _ _) => EndsBefore p q
  | (p, .division _ _), (q, .binding _ _) => ¬EndsBefore q p
  | (p, .binding _ _), (q, .binding _ _) => ClosesBefore p q
  | (_, .division _ _), (_, .division _ _) => True

theorem earlier_of_lt {i j : Nat} (h : i < j) (p q : List Nat) (d e : Event) :
    Earlier (i :: p, d) (j :: q, e) := by
  have hback : ¬EndsBefore (j :: q) (i :: p) := by
    rw [Node.endsBefore_cons]
    omega
  cases d <;> cases e
  · trivial
  · exact hback
  · exact Node.endsBefore_cons.mpr (.inl h)
  · exact Node.closesBefore_cons.mpr (.inl h)

theorem Earlier.cons {p q : List Nat} {d e : Event} (h : Earlier (p, d) (q, e)) (i : Nat) :
    Earlier (i :: p, d) (i :: q, e) := by
  cases d <;> cases e
  · trivial
  · intro hback
    rcases Node.endsBefore_cons.mp hback with hlt | ⟨-, hback⟩
    · exact Nat.lt_irrefl i hlt
    · exact h hback
  · exact Node.endsBefore_cons.mpr (.inr ⟨rfl, h⟩)
  · exact Node.closesBefore_cons.mpr (.inr ⟨rfl, h⟩)

theorem earlier_root_division {n : Node} {d : Event} (hd : d ∈ divisionEvent n) (i : Nat)
    (q : List Nat) (e : Event) : Earlier ([], d) (i :: q, e) := by
  obtain ⟨divisor, rfl, -⟩ := mem_divisionEvent.mp hd
  cases e
  · trivial
  · exact Node.not_endsBefore_nil (i :: q)

theorem earlier_root_binding {n : Node} {e : Event} (he : e ∈ bindingEvent n) (i : Nat)
    (p : List Nat) (d : Event) : Earlier (i :: p, d) ([], e) := by
  obtain ⟨pattern, rfl, -⟩ := mem_bindingEvent.mp he
  cases d
  · exact Node.not_endsBefore_of_nil (i :: p)
  · exact Node.closesBefore_nil i p

theorem pairwise_divisionEvent (n : Node) :
    ((divisionEvent n).map (Prod.mk [])).Pairwise Earlier := by
  unfold divisionEvent
  split
  · cases n.child? "right" <;> simp
  · exact .nil

theorem pairwise_bindingEvent (n : Node) :
    ((bindingEvent n).map (Prod.mk [])).Pairwise Earlier := by
  unfold bindingEvent
  split
  · cases n.child? "pattern" with
    | none => exact .nil
    | some pattern =>
      dsimp only
      split
      · simp
      · exact .nil
  · exact .nil

theorem pairwise_chronicle (n : Node) : (chronicle n).Pairwise Earlier := by
  induction n using Node.treeInduction with
  | mk l cs ih =>
    have hall : (chronicleAll 0 cs).Pairwise Earlier := by
      rw [chronicleAll_eq, List.pairwise_flatMap]
      constructor
      · rintro ⟨c, i⟩ hchild
        have hc : c ∈ cs := List.mem_of_getElem? (List.mem_zipIdx_iff_getElem?.mp hchild)
        exact (ih c hc).map _ fun _ _ h => h.cons i
      · have hnumbers : ((cs.zipIdx 0).map Prod.snd).Pairwise (· < ·) := by
          rw [List.zipIdx_map_snd]
          exact List.pairwise_lt_range' 1
        refine (List.pairwise_map.mp hnumbers).imp ?_
        rintro ⟨c, i⟩ ⟨c', j⟩ hlt x hx y hy
        obtain ⟨⟨p, d⟩, -, rfl⟩ := List.mem_map.mp hx
        obtain ⟨⟨q, e⟩, -, rfl⟩ := List.mem_map.mp hy
        exact earlier_of_lt hlt p q d e
    rw [chronicle, List.pairwise_append, List.pairwise_append]
    refine ⟨⟨pairwise_divisionEvent _, hall, ?_⟩, pairwise_bindingEvent _, ?_⟩
    · rintro x hx ⟨q, e⟩ hy
      obtain ⟨d, hd, rfl⟩ := List.mem_map.mp hx
      obtain ⟨i, c, rest, -, rfl, -⟩ := mem_chronicleAll.mp hy
      exact earlier_root_division hd i rest e
    · rintro ⟨p, d⟩ hx y hy
      obtain ⟨e, he, rfl⟩ := List.mem_map.mp hy
      rcases List.mem_append.mp hx with hx | hx
      · obtain ⟨d', hd, heq⟩ := List.mem_map.mp hx
        cases heq
        obtain ⟨divisor, rfl, -⟩ := mem_divisionEvent.mp hd
        obtain ⟨pattern, rfl, -⟩ := mem_bindingEvent.mp he
        exact Node.not_endsBefore_nil []
      · obtain ⟨i, c, rest, -, rfl, -⟩ := mem_chronicleAll.mp hx
        exact earlier_root_binding he i rest d

end AnchorAudit.Division
