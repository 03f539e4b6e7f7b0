import JoinOrder.Dot.Drawing
import JoinOrder.Proofs.DotStatements
import JoinOrder.Proofs.EdgeWalk
import JoinOrder.Proofs.Frames
import JoinOrder.Proofs.Listing
import JoinOrder.Proofs.Messages
import JoinOrder.Proofs.PlanMap
import JoinOrder.Proofs.WrittenScalars
/-!
Drawings of join graphs. Read by the rules of the language, each statement names the relations that it is
about; the label of a node shows its relation, and that of an edge the attributes in common as long as
their text is plain.
-/

namespace JoinOrder

/-! ### The label of an edge -/

theorem Scalar.text_of_atom {x : Scalar} {s : String} (same : x.atom = .text s) : x = .text s := by
  cases x with
  | text t =>
    cases same
    rfl
  | real x =>
    simp only [atom] at same
    split at same
    · have ranks := (Atom.rank_reduce _ _).symm.trans (congrArg Atom.rank same)
      cases ranks
    · split at same <;> cases same
    · cases same
  | _ => cases same

theorem Attributes.text_mem_iff {attributes : Attributes} {a : String} :
    Scalar.text a ∈ attributes.toList ↔ Atom.text a ∈ attributes.identities := by
  refine ⟨fun member => List.mem_map_of_mem member, fun member => ?_⟩
  obtain ⟨x, inside, same⟩ := List.mem_map.mp member
  rwa [← Scalar.text_of_atom same]

namespace Dot

/-- The names of the attributes that two relations have in common, in their order and joined. -/
def SharedText (pair : Relation × Relation) (text : String) : Prop :=
  ∃ names : List String, names.Pairwise (· < ·) ∧
    (∀ a, a ∈ names ↔ Scalar.text a ∈ pair.1.attributes.toList ∧ Scalar.text a ∈ pair.2.attributes.toList) ∧
    text = ", ".intercalate names

theorem exists_names {scalars : List Scalar} (texts : ∀ s ∈ scalars, s.isText = true) :
    ∃ names : List String, scalars = names.map .text ∧
      scalars.mapM (fun s => (Value.scalar s).text?) = some names := by
  induction scalars with
  | nil => exact ⟨[], rfl, rfl⟩
  | cons s scalars ih =>
    obtain ⟨first, rest⟩ := List.forall_mem_cons.mp texts
    obtain ⟨name, rfl⟩ := Scalar.isText_iff.mp first
    obtain ⟨names, rfl, read⟩ := ih rest
    refine ⟨name :: names, rfl, ?_⟩
    rw [List.mapM_cons, read]
    rfl

theorem lt_of_below {a b : String} (below : SortKey.Below (.text a) (.text b)) : a < b :=
  compareOfLessAndEq_eq_lt.mp below

theorem edgeLabel_isOk {attributes : Attributes} (texts : ∀ s ∈ attributes.toList, s.isText = true) :
    ∃ names : List String, names.Pairwise (· < ·) ∧ (∀ a, a ∈ names ↔ Scalar.text a ∈ attributes.toList) ∧
      Drawing.edgeLabel attributes = .ok (", ".intercalate names) := by
  have perm := SortKey.arranged_perm (fun s : Scalar => .atom s.atom) attributes.toList
  have sorts : Attributes.sorted attributes =
      .ok (SortKey.arranged (fun s => .atom s.atom) attributes.toList) := by
    have comparable : ∀ s ∈ attributes.toList, ∀ t ∈ attributes.toList,
        SortKey.comparable (.atom s.atom) (.atom t.atom) = true := by
      intro s hs t ht
      obtain ⟨s, rfl⟩ := Scalar.isText_iff.mp (texts s hs)
      obtain ⟨t, rfl⟩ := Scalar.isText_iff.mp (texts t ht)
      exact Bool.or_true _
    rw [Attributes.sorted, SortKey.sortBy?_of_comparable comparable]
    rfl
  obtain ⟨names, listed, read⟩ := exists_names fun s member => texts s (perm.subset member)
  have distinct : names.Nodup := by
    have apart := (Distinct.perm attributes.nodup_identities perm).nodup
    rw [listed] at apart
    exact apart.of_map _
  have ordered := SortKey.arranged_pairwise (fun s : Scalar => .atom s.atom) attributes.toList
  rw [listed, List.pairwise_map] at ordered
  refine ⟨names, (ordered.and distinct).imp ?_, fun a => ?_, ?_⟩
  · intro a b both
    refine lt_of_below (SortKey.below_of_atMost both.1 fun same => both.2 ?_)
    exact Atom.text.inj (SortKey.atom.inj same)
  · rw [← perm.mem_iff, listed, List.mem_map]
    exact ⟨fun member => ⟨a, member, rfl⟩, fun ⟨b, member, same⟩ => Scalar.text.inj same ▸ member⟩
  · rw [Drawing.edgeLabel, sorts]
    show (fitting (List.mapM _ _) >>= _) = _
    rw [read]
    rfl

/-! ### Drawings -/

/-- The statement for a relation names it and shows its text. -/
def ShowsNode (r : Relation) (x : Reading) : Prop :=
  ∃ text, r.shown = .ok text ∧ x = .node r.id.shown (.literal text)

/-- The statement for an edge names its ends and shows what they have in common. -/
def ShowsEdge (pair : Relation × Relation) (x : Reading) : Prop :=
  ∃ text, SharedText pair text ∧ x = .edge pair.1.id.shown pair.2.id.shown (.literal text)

def nodeOf (r : Relation) : Except Error Statement := do
  return .node (← (Value.scalar r.id).written) (.text (← r.shown)) (.object [])

def edgeOf (e : Edge) : Except Error Statement := do
  return .edge e.first.id.shown e.second.id.shown (some (← Drawing.edgeLabel e.shared))

theorem graphStatements_eq (g : JoinGraph) : Drawing.graphStatements g = do
    return (← g.relations.mapM nodeOf) ++ (← g.walk.mapM edgeOf) := rfl

theorem ofGraph_nil (g : JoinGraph) : Drawing.ofGraph [] g = do
    let lines ← (← Drawing.graphStatements g).mapM Statement.line
    return ⟨"graph \x7b\n" ++ String.join lines ++ "\x7d\n", none⟩ := by
  unfold Drawing.ofGraph Drawing.draw
  cases Drawing.graphStatements g with
  | error e => rfl
  | ok statements =>
    show (List.mapM Statement.line statements >>= _) = (List.mapM Statement.line statements >>= _)
    cases List.mapM Statement.line statements <;> rfl

variable {r : Relation} {statement : Statement}

theorem nodeOf_isOk_iff (texts : ∀ s ∈ r.attributes.toList, s.isText = true) :
    (∃ statement, nodeOf r = .ok statement) ↔
      (Value.scalar r.id).isWritable = true ∧ r.tuples.isWritable = true := by
  rw [← Value.written_isOk_iff, ← Relation.shown_isOk_iff texts, nodeOf]
  cases (Value.scalar r.id).written with
  | error e => exact iff_of_false (by rintro ⟨_, ⟨⟩⟩) (by rintro ⟨⟨_, ⟨⟩⟩, _⟩)
  | ok name =>
    cases r.shown with
    | error e => exact iff_of_false (by rintro ⟨_, ⟨⟩⟩) (by rintro ⟨_, _, ⟨⟩⟩)
    | ok text => exact iff_of_true ⟨_, rfl⟩ ⟨⟨name, rfl⟩, text, rfl⟩

theorem exists_node (numbered : r.IsNumbered) (ok : nodeOf r = .ok statement) :
    ∃ x, ShowsNode r x ∧ Means statement x := by
  obtain ⟨n, id⟩ := numbered
  obtain ⟨name, written, ok⟩ := ok_of_bind ok
  obtain ⟨text, shown, same⟩ := ok_of_bind ok
  cases same
  rw [id] at written
  obtain rfl := Value.eq_shown_of_written written
  refine ⟨_, ⟨text, shown, rfl⟩, ?_⟩
  rw [id]
  exact .node n (Relation.bracket_mem_shown shown)

theorem exists_edge {pair : Relation × Relation} (numbered : pair.1.IsNumbered ∧ pair.2.IsNumbered)
    (texts : ∀ s ∈ pair.1.attributes.toList, s.isText = true) :
    ∃ statement x, edgeOf ⟨pair.1, pair.2, pair.1.attributes.inter pair.2.attributes⟩ = .ok statement ∧
      ShowsEdge pair x ∧ Means statement x := by
  obtain ⟨⟨n, first⟩, m, second⟩ := numbered
  have inBoth (a : String) : Scalar.text a ∈ (pair.1.attributes.inter pair.2.attributes).toList ↔
      Scalar.text a ∈ pair.1.attributes.toList ∧ Scalar.text a ∈ pair.2.attributes.toList := by
    rw [Attributes.text_mem_iff, Attributes.text_mem_iff, Attributes.text_mem_iff, IdSet.mem_identities_inter]
  have shared : ∀ s ∈ (pair.1.attributes.inter pair.2.attributes).toList, s.isText = true := by
    intro s member
    obtain ⟨x, inside, same⟩ := List.mem_map.mp
      (IdSet.mem_identities_inter.mp (List.mem_map_of_mem member : identity s ∈ _)).1
    obtain ⟨t, rfl⟩ := Scalar.isText_iff.mp (texts x inside)
    rw [Scalar.text_of_atom same.symm]
    rfl
  obtain ⟨names, ordered, members, label⟩ := edgeLabel_isOk shared
  refine ⟨.edge pair.1.id.shown pair.2.id.shown (some (", ".intercalate names)), _, ?_,
    ⟨", ".intercalate names, ⟨names, ordered, fun a => (members a).trans (inBoth a), rfl⟩, rfl⟩, ?_⟩
  · rw [edgeOf, label]
    rfl
  · rw [first, second]
    exact .edge n m _

/-- Whatever is related to both, stands between them. -/
theorem exists_between {α β γ : Type} {left : α → γ → Prop} {right : β → γ → Prop} {xs : List α} {ys : List β}
    (each : List.Forall₂ (fun x y => ∃ z, left x z ∧ right y z) xs ys) :
    ∃ zs, List.Forall₂ left xs zs ∧ List.Forall₂ right ys zs := by
  induction each with
  | nil => exact ⟨[], .nil, .nil⟩
  | cons first _ ih =>
    obtain ⟨z, here, there⟩ := first
    obtain ⟨zs, lefts, rights⟩ := ih
    exact ⟨z :: zs, .cons here lefts, .cons there rights⟩

theorem mapM_isOk_iff {α β : Type} {f : α → Except Error β} {xs : List α} :
    (∃ ys, xs.mapM f = .ok ys) ↔ ∀ x ∈ xs, ∃ y, f x = .ok y := by
  constructor
  · rintro ⟨ys, ok⟩ x member
    obtain ⟨y, -, is⟩ := exists_of_forall₂ (forall₂_of_mapM ok).flip x member
    exact ⟨y, is⟩
  · intro each
    obtain ⟨ys, ok, -⟩ := mapM_ok each
    exact ⟨ys, ok⟩

theorem Means.line_isOk {x : Reading} (means : Means statement x) : ∃ line, statement.line = .ok line := by
  cases means with
  | node n bracket => exact ⟨_, line_node n _⟩
  | edge n m text => exact ⟨_, line_edge n m text⟩

open JoinGraph (LinkedOnce links linkedOnce walk_eq)

variable {sorted : List Relation}

/-- The edges of relations whose attributes are texts can all be written. -/
theorem exists_edges (distinct : Distinct sorted) (numbered : ∀ r ∈ sorted, r.IsNumbered)
    (texts : ∀ r ∈ sorted, ∀ s ∈ r.attributes.toList, s.isText = true) :
    ∃ statements edges, (JoinGraph.ofSorted sorted).walk.mapM edgeOf = .ok statements ∧
      List.Forall₂ ShowsEdge (links sorted) edges ∧ List.Forall₂ Means statements edges := by
  have each : ∀ pair ∈ links sorted, ∃ statement x,
      edgeOf ⟨pair.1, pair.2, pair.1.attributes.inter pair.2.attributes⟩ = .ok statement ∧
        ShowsEdge pair x ∧ Means statement x := by
    intro pair member
    have inside := mem_of_pairsOf (List.mem_filter.mp member).1
    exact exists_edge ⟨numbered _ inside.1, numbered _ inside.2⟩ (texts _ inside.1)
  obtain ⟨statements, ok⟩ : ∃ statements, (JoinGraph.ofSorted sorted).walk.mapM edgeOf = .ok statements := by
    rw [walk_eq distinct]
    refine mapM_isOk_iff.mpr (List.forall_mem_map.mpr fun pair member => ?_)
    obtain ⟨statement, _, ok, _⟩ := each pair member
    exact ⟨statement, ok⟩
  have matched := forall₂_of_mapM ok
  rw [walk_eq distinct, List.forall₂_map_left_iff] at matched
  obtain ⟨edges, shows, means⟩ := exists_between
    ((List.forall₂_and_left _ _ |>.mpr ⟨each, matched⟩).imp fun pair statement both => by
      obtain ⟨other, x, is, shows, means⟩ := both.1
      obtain rfl := Except.ok.inj (is.symm.trans both.2)
      exact ⟨x, shows, means⟩)
  exact ⟨statements, edges, ok, shows, means⟩

theorem exists_nodes {statements : List Statement} (numbered : ∀ r ∈ sorted, r.IsNumbered)
    (ok : sorted.mapM nodeOf = .ok statements) :
    ∃ nodes, List.Forall₂ ShowsNode sorted nodes ∧ List.Forall₂ Means statements nodes :=
  exists_between ((List.forall₂_and_left _ _ |>.mpr ⟨numbered, forall₂_of_mapM ok⟩).imp
    fun _ _ both => exists_node both.1 both.2)

/-- Every line is read as what was meant, provided that is plain. -/
theorem reads_lines {statements : List Statement} {xs : List Reading} {lines : List String}
    (means : List.Forall₂ Means statements xs) (ok : statements.mapM Statement.line = .ok lines) :
    List.Forall₂ (fun line x => IsReadAs line x ↔ x.IsPlain) lines xs := by
  have written := forall₂_of_mapM ok
  clear ok
  induction means generalizing lines with
  | nil =>
    cases written
    exact .nil
  | cons first _ ih =>
    cases written with
    | cons line others => exact .cons (first.reads_iff line) (ih others)

/-- What a drawing is made of, if there is one. -/
theorem ofGraph_eq_ok_iff {edgeStatements : List Statement} {d : Drawing}
    (edgesOk : (JoinGraph.ofSorted sorted).walk.mapM edgeOf = .ok edgeStatements) :
    Drawing.ofGraph [] (.ofSorted sorted) = .ok d ↔ ∃ nodeStatements lines,
      sorted.mapM nodeOf = .ok nodeStatements ∧
      (nodeStatements ++ edgeStatements).mapM Statement.line = .ok lines ∧
      d = ⟨"graph \x7b\n" ++ String.join lines ++ "\x7d\n", none⟩ := by
  have statements : Drawing.graphStatements (.ofSorted sorted) =
      (sorted.mapM nodeOf).map (· ++ edgeStatements) := by
    rw [graphStatements_eq, edgesOk]
    show (List.mapM nodeOf sorted >>= _) = _
    cases List.mapM nodeOf sorted <;> rfl
  rw [ofGraph_nil, statements]
  cases List.mapM nodeOf sorted with
  | error e => exact iff_of_false nofun (by rintro ⟨_, _, ⟨⟩, _⟩)
  | ok nodeStatements =>
    constructor
    · intro drawn
      obtain ⟨_, statements, drawn⟩ := ok_of_bind drawn
      cases statements
      obtain ⟨lines, written, same⟩ := ok_of_bind drawn
      cases same
      exact ⟨nodeStatements, lines, rfl, written, rfl⟩
    · rintro ⟨_, lines, ⟨⟩, written, rfl⟩
      show ((nodeStatements ++ edgeStatements).mapM Statement.line >>= _) = _
      rw [written]
      rfl

/-- The drawing of a join graph over relations with distinct integer identities, text names and texts for
attributes. There is one unless a number is too long. Its lines are statements for the relations in their
order, and behind them for the pairs with an attribute in common, one for each. A statement for a relation
is always read as it is meant, and one for an edge exactly if its text is plain; if all are, the statements
make up what is read of the whole text. -/
theorem ofGraph_faithful {X : Collected} (distinct : Distinct X.relations)
    (proper : RelationSet.Proper X.relations)
    (texts : ∀ r ∈ X.relations, ∀ s ∈ r.attributes.toList, s.isText = true) :
    ∃ sorted pairs, JoinGraph.ofItem X.item = .ok (.ofSorted sorted) ∧
      sorted.Perm X.relations ∧ Relation.Ordered sorted ∧ LinkedOnce X.relations pairs ∧
      ((∃ d, Drawing.ofGraph [] (.ofSorted sorted) = .ok d) ↔
        ∀ r ∈ X.relations, (Value.scalar r.id).isWritable = true ∧ r.tuples.isWritable = true) ∧
      ∀ d, Drawing.ofGraph [] (.ofSorted sorted) = .ok d → ∃ lines nodes edges,
        d.source = "graph \x7b\n" ++ String.join lines ++ "\x7d\n" ∧
        List.Forall₂ ShowsNode sorted nodes ∧ List.Forall₂ ShowsEdge pairs edges ∧
        List.Forall₂ (fun line x => IsReadAs line x ↔ x.IsPlain) lines (nodes ++ edges) ∧
        ((∀ x ∈ edges, x.IsPlain) → readGraph d.source = some (nodes ++ edges)) := by
  obtain ⟨sorted, sorts⟩ := proper.orderly.sort_isOk
  have perm := Relation.perm_of_sort sorts
  have distinct' : Distinct sorted := distinct.perm perm
  have numbered : ∀ r ∈ sorted, r.IsNumbered := fun r member => (proper r (perm.subset member)).1
  have graph : JoinGraph.ofItem X.item = .ok (.ofSorted sorted) := by
    rw [JoinGraph.ofItem, Relation.sortItems_eq X.elements_eq, sorts]
    rfl
  have once : LinkedOnce X.relations (links sorted) := by
    have once := linkedOnce distinct'
    exact ⟨fun r s => by rw [once.touching, perm.mem_iff, perm.mem_iff], once.once, once.oneWay⟩
  obtain ⟨edgeStatements, edges, edgesOk, showsEdges, meansEdges⟩ :=
    exists_edges distinct' numbered fun r member => texts r (perm.subset member)
  refine ⟨sorted, links sorted, graph, perm, Relation.ordered_of_sort distinct sorts, once, ?_, ?_⟩
  · -- The edges can always be written, and so can every line: all depends on the nodes.
    have written : (∃ d, Drawing.ofGraph [] (.ofSorted sorted) = .ok d) ↔
        ∃ nodeStatements, sorted.mapM nodeOf = .ok nodeStatements := by
      constructor
      · rintro ⟨d, drawn⟩
        obtain ⟨nodeStatements, _, ok, _⟩ := (ofGraph_eq_ok_iff edgesOk).mp drawn
        exact ⟨nodeStatements, ok⟩
      · rintro ⟨nodeStatements, ok⟩
        obtain ⟨nodes, _, meansNodes⟩ := exists_nodes numbered ok
        obtain ⟨lines, written⟩ := mapM_isOk_iff.mpr fun statement member => by
          have each := List.rel_append meansNodes meansEdges
          obtain ⟨x, _, means⟩ := exists_of_forall₂ each.flip statement member
          exact means.line_isOk
        exact ⟨_, (ofGraph_eq_ok_iff edgesOk).mpr ⟨nodeStatements, lines, ok, written, rfl⟩⟩
    rw [written, mapM_isOk_iff]
    refine forall_congr' fun r => ?_
    rw [perm.mem_iff]
    exact forall_congr' fun member => nodeOf_isOk_iff (texts r member)
  · intro d drawn
    obtain ⟨nodeStatements, lines, ok, written, rfl⟩ := (ofGraph_eq_ok_iff edgesOk).mp drawn
    obtain ⟨nodes, showsNodes, meansNodes⟩ := exists_nodes numbered ok
    have reads := reads_lines (List.rel_append meansNodes meansEdges) written
    refine ⟨lines, nodes, edges, rfl, showsNodes, showsEdges, reads, fun plain => readGraph_lines ?_⟩
    have all : ∀ x ∈ nodes ++ edges, x.IsPlain := by
      refine List.forall_mem_append.mpr ⟨fun x member => ?_, plain⟩
      obtain ⟨r, _, text, _, rfl⟩ := exists_of_forall₂ showsNodes x member
      trivial
    exact ((List.forall₂_and_left _ _ |>.mpr ⟨all, reads.flip⟩).imp fun x line both =>
      both.2.mpr both.1).flip

section Examples

open Touch (gathered sort_pair)

/-- Two relations with one attribute, which they have in common. -/
def sharing (a : String) : List Relation :=
  [⟨.int 1, .text "A", .int 1, .ofList [.text a], [.text a]⟩,
    ⟨.int 2, .text "B", .int 2, .ofList [.text a], [.text a]⟩]

theorem proper_sharing (a : String) : Distinct (sharing a) ∧ RelationSet.Proper (sharing a) ∧
    ∀ r ∈ sharing a, ∀ s ∈ r.attributes.toList, s.isText = true := by
  refine ⟨show ([.ofInt 1, .ofInt 2] : List Atom).Nodup by decide, ?_, ?_⟩
  · intro r member
    rcases List.mem_pair.mp member with rfl | rfl <;> exact ⟨⟨_, rfl⟩, _, rfl⟩
  · intro r member s inside
    rcases List.mem_pair.mp member with rfl | rfl
    all_goals
      obtain rfl : s = .text a := List.mem_singleton.mp inside
      rfl

theorem ofItem_sharing (a : String) :
    JoinGraph.ofItem (gathered .list (sharing a)).item = .ok (.ofSorted (sharing a)) := by
  have below : (Natural.ofValue (.text "A")).order (Natural.ofValue (.text "B")) = .lt := by decide +kernel
  have sorts : Relation.sort (gathered .list (sharing a)).relations = .ok (sharing a) :=
    (sort_pair ⟨_, rfl⟩ ⟨_, rfl⟩ below (show Atom.ofInt 1 ≠ .ofInt 2 by decide)).1
  rw [JoinGraph.ofItem, Relation.sortItems_eq (Collected.elements_eq _), sorts]
  rfl

/-- What is read of the drawing of the two. -/
def readSharing (a : String) : Option (List Reading) :=
  (Drawing.ofGraph [] (.ofSorted (sharing a))).toOption.bind fun d => readGraph d.source

theorem ofGraph_sharing : Distinct (sharing "x \"y\"") ∧ RelationSet.Proper (sharing "x \"y\"") ∧
    (∀ r ∈ sharing "x \"y\"", ∀ s ∈ r.attributes.toList, s.isText = true) ∧
    (∃ d, Drawing.ofGraph [] (.ofSorted (sharing "x \"y\"")) = .ok d ∧ ∃ nodes edges,
      List.Forall₂ ShowsNode (sharing "x \"y\"") nodes ∧
      ((∀ x ∈ edges, x.IsPlain) → readGraph d.source = some (nodes ++ edges))) ∧
    readSharing "x \"y\"" = some [.node "1" (.literal "A[x \"y\"]: 1"), .node "2" (.literal "B[x \"y\"]: 2"),
      .edge "1" "2" (.literal "x \"y\"")] := by
  obtain ⟨distinct, proper, texts⟩ := proper_sharing "x \"y\""
  refine ⟨distinct, proper, texts, ?_, by decide +kernel⟩
  obtain ⟨sorted, pairs, graph, -, -, -, drawn, reads⟩ :=
    ofGraph_faithful (X := gathered .list (sharing "x \"y\"")) distinct proper texts
  obtain rfl : sorted = sharing "x \"y\"" :=
    congrArg JoinGraph.relations (Except.ok.inj (graph.symm.trans (ofItem_sharing "x \"y\"")))
  obtain ⟨d, ok⟩ := drawn.mpr <| by
    have short (n : Int) (small : n.natAbs < 10) : (Value.int n).isWritable = true :=
      (Value.isWritable_int n).mpr (small.trans_le Value.ten_le_digitEnd)
    intro r member
    rcases List.mem_pair.mp member with rfl | rfl
    · exact ⟨short 1 (by decide), short 1 (by decide)⟩
    · exact ⟨short 2 (by decide), short 2 (by decide)⟩
  obtain ⟨_, nodes, edges, -, shows, -, -, whole⟩ := reads d ok
  exact ⟨d, ok, nodes, edges, shows, whole⟩

/-- Angle brackets make markup of an attribute, and a backslash makes a reference of it. -/
theorem sharing_unfaithful :
    (Distinct (sharing "<b>") ∧ RelationSet.Proper (sharing "<b>") ∧
      JoinGraph.ofItem (gathered .list (sharing "<b>")).item = .ok (.ofSorted (sharing "<b>")) ∧
      readSharing "<b>" = some [.node "1" (.literal "A[<b>]: 1"), .node "2" (.literal "B[<b>]: 2"),
        .edge "1" "2" (.markup ['b'])]) ∧
    Distinct (sharing "\\E") ∧ RelationSet.Proper (sharing "\\E") ∧
      JoinGraph.ofItem (gathered .list (sharing "\\E")).item = .ok (.ofSorted (sharing "\\E")) ∧
      readSharing "\\E" = some [.node "1" (.literal "A[\\E]: 1"), .node "2" (.literal "B[\\E]: 2"),
        .edge "1" "2" (.text [.reference 'E'])] :=
  ⟨⟨(proper_sharing _).1, (proper_sharing _).2.1, ofItem_sharing _, by decide +kernel⟩,
    (proper_sharing _).1, (proper_sharing _).2.1, ofItem_sharing _, by decide +kernel⟩

end Examples

end Dot

end JoinOrder
