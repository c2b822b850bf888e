import Mathlib.Data.List.Basic

/-!
# Null-terminated singly linked lists

A linked list is read off a successor function: starting from a head pointer,
follow successors until the null pointer.  `Segment next null head nodes tail`
says that the walk from `head` passes exactly the given nodes and then stands
at `tail`; a whole list is a segment that ends at null.  Segments compose, do
not depend on the successors of nodes outside them, and are determined by
their two ends, which is all an algorithm that splices a list needs.
-/

namespace Kernull.Library.LinkedList

variable {Pointer : Type}

/-- Walking from `head` passes `nodes` and then stands at `tail`. -/
def Segment (next : Pointer → Pointer) (null : Pointer) :
    Pointer → List Pointer → Pointer → Prop
  | head, [], tail => head = tail
  | head, node :: rest, tail =>
      head = node ∧ node ≠ null ∧ Segment next null (next node) rest tail

/-- A complete list: a segment that ends at the null pointer. -/
def Chain (next : Pointer → Pointer) (null : Pointer)
    (head : Pointer) (nodes : List Pointer) : Prop :=
  Segment next null head nodes null

variable {next : Pointer → Pointer} {null : Pointer}

theorem segment_cons
    {head node tail : Pointer} {rest : List Pointer} :
    Segment next null head (node :: rest) tail ↔
      head = node ∧ node ≠ null ∧
        Segment next null (next node) rest tail :=
  Iff.rfl

@[simp]
theorem chain_nil {head : Pointer} :
    Chain next null head [] ↔ head = null :=
  Iff.rfl

theorem chain_cons
    {head node : Pointer} {rest : List Pointer} :
    Chain next null head (node :: rest) ↔
      head = node ∧ node ≠ null ∧ Chain next null (next node) rest :=
  Iff.rfl

/-- Segments compose at the pointer between them. -/
theorem segment_append
    {head tail : Pointer} {left right : List Pointer} :
    Segment next null head (left ++ right) tail ↔
      ∃ middle, Segment next null head left middle ∧
        Segment next null middle right tail := by
  induction left generalizing head with
  | nil =>
      constructor
      · intro walk
        exact ⟨head, rfl, walk⟩
      · rintro ⟨middle, rfl, walk⟩
        exact walk
  | cons node rest inductionHypothesis =>
      rw [List.cons_append, segment_cons, inductionHypothesis]
      constructor
      · rintro ⟨same, nonnull, middle, first, second⟩
        exact ⟨middle, ⟨same, nonnull, first⟩, second⟩
      · rintro ⟨middle, ⟨same, nonnull, first⟩, second⟩
        exact ⟨same, nonnull, middle, first, second⟩

/-- Splitting a chain in front of one of its nodes. -/
theorem chain_append_cons
    {head node : Pointer} {left right : List Pointer} :
    Chain next null head (left ++ node :: right) ↔
      Segment next null head left node ∧ node ≠ null ∧
        Chain next null (next node) right := by
  rw [Chain, segment_append]
  constructor
  · rintro ⟨middle, first, rfl, nonnull, second⟩
    exact ⟨first, nonnull, second⟩
  · rintro ⟨first, nonnull, second⟩
    exact ⟨node, first, rfl, nonnull, second⟩

/-- A segment reads the successors of its own nodes only. -/
theorem Segment.congr
    {other : Pointer → Pointer} {head tail : Pointer}
    {nodes : List Pointer}
    (walk : Segment next null head nodes tail)
    (agree : ∀ node ∈ nodes, other node = next node) :
    Segment other null head nodes tail := by
  induction nodes generalizing head with
  | nil => exact walk
  | cons node rest inductionHypothesis =>
      obtain ⟨same, nonnull, walk⟩ := walk
      refine ⟨same, nonnull, ?_⟩
      rw [agree node List.mem_cons_self]
      exact inductionHypothesis walk fun other member =>
        agree other (List.mem_cons_of_mem node member)

/-- A chain reads the successors of its own nodes only. -/
theorem Chain.congr
    {other : Pointer → Pointer} {head : Pointer}
    {nodes : List Pointer}
    (walk : Chain next null head nodes)
    (agree : ∀ node ∈ nodes, other node = next node) :
    Chain other null head nodes :=
  Segment.congr walk agree

/-- Pointing the last node of a segment elsewhere moves its end there. -/
theorem Segment.redirect
    {other : Pointer → Pointer} {head last tail entry : Pointer}
    {nodes : List Pointer}
    (walk : Segment next null head (nodes ++ [last]) tail)
    (agree : ∀ node ∈ nodes, other node = next node)
    (target : other last = entry) :
    Segment other null head (nodes ++ [last]) entry := by
  obtain ⟨middle, front, same, nonnull, _⟩ := segment_append.mp walk
  exact segment_append.mpr
    ⟨middle, front.congr agree, same, nonnull, target⟩

/-- The nodes of a chain are determined by its head. -/
theorem Chain.unique
    {head : Pointer} {left right : List Pointer}
    (first : Chain next null head left)
    (second : Chain next null head right) :
    left = right := by
  induction left generalizing head right with
  | nil =>
      cases right with
      | nil => rfl
      | cons node rest =>
          exact absurd ((chain_cons.mp second).1.symm.trans first)
            (chain_cons.mp second).2.1
  | cons node rest inductionHypothesis =>
      obtain ⟨rfl, nonnull, walk⟩ := first
      cases right with
      | nil => exact absurd second nonnull
      | cons other others =>
          obtain ⟨rfl, _, otherWalk⟩ := second
          rw [inductionHypothesis walk otherWalk]

/-- A chain that ends passes no node twice. -/
theorem Chain.nodup
    {head : Pointer} {nodes : List Pointer}
    (walk : Chain next null head nodes) :
    nodes.Nodup := by
  induction nodes generalizing head with
  | nil => exact List.nodup_nil
  | cons node rest inductionHypothesis =>
      obtain ⟨_, _, onwards⟩ := chain_cons.mp walk
      refine List.nodup_cons.mpr ⟨?_, inductionHypothesis onwards⟩
      intro again
      obtain ⟨before, after, split⟩ := List.append_of_mem again
      rw [split] at onwards
      -- the rest of the list would be its own tail
      have shorter := onwards.unique (chain_append_cons.mp onwards).2.2
      have lengths := congrArg List.length shorter
      simp only [List.length_append, List.length_cons] at lengths
      omega

/-- The head of a chain is null exactly when the chain is empty. -/
theorem Chain.head_eq_null_iff
    {head : Pointer} {nodes : List Pointer}
    (walk : Chain next null head nodes) :
    head = null ↔ nodes = [] := by
  cases nodes with
  | nil => simpa using walk
  | cons node rest =>
      obtain ⟨rfl, nonnull, _⟩ := walk
      simp [nonnull]

end Kernull.Library.LinkedList
