import Mathlib
import JoinOrder.Plan
/-!
Places in a plan: the ways down from its root, to one side or the other at every join. Where inputs are
shared or alike, one node stands at several places, and lists of nodes have it as often. So whatever is
said of the order of nodes is said of their places.

Nodes are listed from the top down and joins from the bottom up, each place once.
-/

namespace JoinOrder

inductive Side where
  | left
  | right
deriving DecidableEq, Repr

/-- The sides that are taken on the way down. -/
abbrev Place := List Side

/-- One place is further down on the way to which the other is. -/
def Place.Below (q p : Place) : Prop := p <+: q ∧ p ≠ q

namespace Plan

/-- The node at a place, unless the way leads past a leaf. -/
def at? : Plan → Place → Option Plan
  | p, [] => some p
  | .scan .., _ :: _ => none
  | .join left _ _, .left :: rest => left.at? rest
  | .join _ right _, .right :: rest => right.at? rest

/-- A list has the nodes of a kind at all places where such nodes stand. -/
structure ListsAt (p : Plan) (kind : Plan → Bool) (listed : List Plan) (places : List Place) :
    Prop where
  nodup : places.Nodup
  mem_iff : ∀ place, place ∈ places ↔ ∃ n, p.at? place = some n ∧ kind n = true
  nodes : places.map p.at? = listed.map some

/-- The places of both sides of a join, given those of each side. -/
def bothSides (lefts rights : List Place) : List Place :=
  lefts.map (.left :: ·) ++ rights.map (.right :: ·)

/-- All places, each before those further down. -/
def placesDown : Plan → List Place
  | .scan .. => [[]]
  | .join left right _ => [] :: bothSides left.placesDown right.placesDown

/-- The places of joins, each behind those further down. -/
def joinPlacesUp : Plan → List Place
  | .scan .. => []
  | .join left right _ => bothSides left.joinPlacesUp right.joinPlacesUp ++ [[]]

section Sides

variable {lefts rights : List Place} {place : Place} {left right : Plan} {tuples : Value}

theorem root_not_mem_bothSides : [] ∉ bothSides lefts rights := by
  simp [bothSides]

theorem left_mem_bothSides : .left :: place ∈ bothSides lefts rights ↔ place ∈ lefts := by
  simp [bothSides]

theorem right_mem_bothSides : .right :: place ∈ bothSides lefts rights ↔ place ∈ rights := by
  simp [bothSides]

/-- Relations of places that do not look at the way above hold on both sides if they hold on each. -/
theorem pairwise_bothSides {R : Place → Place → Prop}
    (further : ∀ side p q, R p q → R (side :: p) (side :: q))
    (across : ∀ p q, R (.left :: p) (.right :: q)) (hl : lefts.Pairwise R) (hr : rights.Pairwise R) :
    (bothSides lefts rights).Pairwise R := by
  refine List.pairwise_append.mpr ⟨List.pairwise_map.mpr (hl.imp (further .left _ _)),
    List.pairwise_map.mpr (hr.imp (further .right _ _)), ?_⟩
  intro p hp q hq
  obtain ⟨p, _, rfl⟩ := List.mem_map.mp hp
  obtain ⟨q, _, rfl⟩ := List.mem_map.mp hq
  exact across p q

theorem nodup_bothSides (hl : lefts.Nodup) (hr : rights.Nodup) : (bothSides lefts rights).Nodup :=
  pairwise_bothSides (fun _ _ _ apart same => apart (List.cons.inj same).2)
    (fun _ _ same => Side.noConfusion (List.cons.inj same).1) hl hr

/-- What is listed on both sides of a join is all that stands below its root. -/
theorem mem_bothSides_iff {kind : Plan → Bool} {ns ms : List Plan} (deep : place ≠ [])
    (hl : left.ListsAt kind ns lefts) (hr : right.ListsAt kind ms rights) :
    place ∈ bothSides lefts rights ↔
      ∃ n, (join left right tuples).at? place = some n ∧ kind n = true := by
  rcases place with _ | ⟨_ | _, rest⟩
  · contradiction
  · exact left_mem_bothSides.trans (hl.mem_iff rest)
  · exact right_mem_bothSides.trans (hr.mem_iff rest)

theorem map_at?_bothSides (left right : Plan) (tuples : Value) (lefts rights : List Place) :
    (bothSides lefts rights).map (join left right tuples).at? =
      lefts.map left.at? ++ rights.map right.at? := by
  rw [bothSides, List.map_append, List.map_map, List.map_map]
  rfl

end Sides

end Plan

namespace Place

theorem not_below_root (q : Place) : ¬ Below [] q := fun h => h.2 (List.prefix_nil.mp h.1)

theorem below_cons_iff {side : Side} {p q : Place} : Below (side :: q) (side :: p) ↔ Below q p := by
  simp [Below]

theorem not_below_across {side other : Side} (apart : side ≠ other) (p q : Place) :
    ¬ Below (side :: p) (other :: q) := fun h => apart (List.cons_prefix_cons.mp h.1).1.symm

end Place

namespace Plan

open Place

theorem listsAt_nodes (p : Plan) : p.ListsAt (fun _ => true) p.nodes p.placesDown := by
  induction p with
  | scan r tuples =>
    refine ⟨List.nodup_singleton _, fun place => ?_, rfl⟩
    cases place <;> simp [placesDown, at?]
  | join left right tuples ihl ihr =>
    refine ⟨List.nodup_cons.mpr ⟨root_not_mem_bothSides, nodup_bothSides ihl.nodup ihr.nodup⟩,
      fun place => ?_, ?_⟩
    · rw [placesDown, List.mem_cons]
      by_cases root : place = []
      · simp [root, at?]
      · rw [or_iff_right root, mem_bothSides_iff root ihl ihr]
    · rw [placesDown, List.map_cons, map_at?_bothSides, ihl.nodes, ihr.nodes, nodes, List.map_cons,
        List.map_append]
      rfl

/-- No node is listed behind one further down. -/
theorem pairwise_placesDown (p : Plan) : p.placesDown.Pairwise fun p q => ¬ Below p q := by
  induction p with
  | scan r tuples => exact List.pairwise_singleton ..
  | join left right tuples ihl ihr =>
    refine List.pairwise_cons.mpr ⟨fun q _ => not_below_root q, ?_⟩
    exact pairwise_bothSides (fun _ _ _ => mt below_cons_iff.mp) (not_below_across (by simp)) ihl ihr

theorem listsAt_joins (p : Plan) : p.ListsAt isJoin p.joins p.joinPlacesUp := by
  induction p with
  | scan r tuples =>
    refine ⟨List.nodup_nil, fun place => ?_, rfl⟩
    cases place <;> simp [joinPlacesUp, at?, isJoin, isScan]
  | join left right tuples ihl ihr =>
    refine ⟨?_, fun place => ?_, ?_⟩
    · refine List.nodup_append.mpr ⟨nodup_bothSides ihl.nodup ihr.nodup, List.nodup_singleton _, ?_⟩
      intro p member q last same
      rw [same, List.mem_singleton.mp last] at member
      exact root_not_mem_bothSides member
    · rw [joinPlacesUp, List.mem_append, List.mem_singleton]
      by_cases root : place = []
      · simp [root, at?, isJoin, isScan]
      · rw [or_iff_left root, mem_bothSides_iff root ihl ihr]
    · rw [joinPlacesUp, List.map_append, map_at?_bothSides, ihl.nodes, ihr.nodes, joins,
        List.map_append, List.map_append]
      rfl

/-- No join is listed before one further down. -/
theorem pairwise_joinPlacesUp (p : Plan) : p.joinPlacesUp.Pairwise fun p q => ¬ Below q p := by
  induction p with
  | scan r tuples => exact .nil
  | join left right tuples ihl ihr =>
    refine List.pairwise_append.mpr ⟨?_, List.pairwise_singleton .., fun p _ q last => ?_⟩
    · exact pairwise_bothSides (fun _ _ _ => mt below_cons_iff.mp)
        (fun p q => not_below_across (by simp) q p) ihl ihr
    · rw [List.mem_singleton.mp last]
      exact not_below_root p

end Plan

end JoinOrder
