import JoinOrder.Dot.Graph
import JoinOrder.Proofs.DecimalText
import JoinOrder.Proofs.DotLabels
/-!
Statements for nodes and edges that are named by integers. A line is read as the statement that was
written; what is shown by it is what was meant, unless the text of an edge is not plain. Lines that are
all read so make up what is read of a whole graph.
-/

namespace JoinOrder.Dot

/-! ### Names -/

theorem isUnsigned_digits {cs : List Char} (some : cs ≠ []) (digits : ∀ c ∈ cs, isDigit c = true) :
    isUnsigned cs = true := by
  have whole := span_append digits (nofun : ∀ c, [].head? = Option.some c → isDigit c = false)
  rw [List.append_nil] at whole
  unfold isUnsigned
  rw [whole]
  cases cs with
  | nil => exact absurd rfl some
  | cons c cs => rfl

theorem digits_toDigits (m : Nat) : ∀ c ∈ Nat.toDigits 10 m, isDigit c = true := Json.areDigits_toDigits m

/-- An integer is written as digits, perhaps with a sign before them. -/
theorem exists_digits (n : Int) : ∃ digits : List Char, digits ≠ [] ∧ (∀ c ∈ digits, isDigit c = true) ∧
    ((toString n).toList = digits ∨ (toString n).toList = '-' :: digits) := by
  cases n with
  | ofNat m =>
    exact ⟨Nat.toDigits 10 m, Nat.toDigits_ne_nil, digits_toDigits m, .inl (Json.toList_toString m)⟩
  | negSucc m =>
    refine ⟨Nat.toDigits 10 (m + 1), Nat.toDigits_ne_nil, digits_toDigits _, .inr ?_⟩
    show ("-" ++ toString (m + 1)).toList = _
    rw [String.toList_append, Json.toList_toString]
    rfl

theorem isNumeral_int (n : Int) : isNumeral (toString n).toList = true := by
  obtain ⟨digits, some, all, is | is⟩ := exists_digits n
  · rw [is]
    unfold isNumeral
    split
    case h_1 => exact absurd (all '-' List.mem_cons_self) (by decide)
    case h_2 => exact isUnsigned_digits some all
  · rw [is]
    exact isUnsigned_digits some all

theorem isPart_int (n : Int) : ∀ c ∈ (toString n).toList, isPart c = true :=
  isPart_of_bare (by rw [isNumeral_int, Bool.or_true])

theorem toLower_of_isDigit {c : Char} (digit : isDigit c = true) : c.toLower = c := by
  refine dif_neg fun upper => ?_
  have low : 65 ≤ c.toNat := upper.1
  have high := (toNat_of_isDigit digit).2
  omega

/-- There are no digits in keywords. -/
theorem isKeyword_of_digit {s : String} {c : Char} (member : c ∈ s.toList) (digit : isDigit c = true) :
    isKeyword s = false := by
  refine Bool.eq_false_iff.mpr fun keyword => ?_
  have known : s.toLower ∈ keywords := List.contains_iff_mem.mp keyword
  have kept : c ∈ s.toLower.toList := by
    rw [String.toLower, String.toList_map]
    exact List.mem_map.mpr ⟨c, member, toLower_of_isDigit digit⟩
  have letters : (keywords.all fun k => k.toList.all fun d => !isDigit d) = true := rfl
  have letter := List.all_eq_true.mp (List.all_eq_true.mp letters _ known) c kept
  rw [digit] at letter
  cases letter

theorem quote_int (n : Int) : quote (toString n) = toString n := by
  have noMarkup : isMarkup (toString n) = false := by
    refine Bool.eq_false_iff.mpr fun markup => ?_
    obtain ⟨cs, is⟩ := head_of_isMarkup markup
    have part := isPart_int n '<' (is ▸ List.mem_cons_self)
    exact absurd part (by decide)
  have noBreak : (toString n).toList.getLast? ≠ some '\n' := fun ends =>
    absurd (isPart_int n '\n' (List.mem_of_getLast? ends)) (by decide)
  have noKeyword : isKeyword (toString n) = false := by
    obtain ⟨digits, some, all, is⟩ := exists_digits n
    obtain ⟨c, member⟩ := List.exists_mem_of_ne_nil _ some
    refine isKeyword_of_digit (c := c) ?_ (all c member)
    rcases is with is | is
    · rw [is]
      exact member
    · rw [is]
      exact List.mem_cons_of_mem _ member
  have bare : isBare (toString n) = true := by
    show ((isWord (trimBreak (toString n).toList) || isNumeral (trimBreak (toString n).toList)) &&
      !isKeyword (toString n)) = true
    rw [trimBreak_of_noBreak noBreak, isNumeral_int, noKeyword, Bool.or_true]
    rfl
  rw [quote, noMarkup, if_neg Bool.false_ne_true, quoteText, bare, if_pos rfl]

theorem quoteEnd_int (n : Int) : quoteEnd (toString n) = toString n := by
  have noColon : ∀ c ∈ (toString n).toList, (decide (c ≠ ':')) = true := by
    refine fun c member => decide_eq_true ?_
    rintro rfl
    exact absurd (isPart_int n ':' member) (by decide)
  have whole := span_append noColon (nofun : ∀ c, [].head? = some c → (decide (c ≠ ':')) = false)
  rw [List.append_nil] at whole
  have split : splitColon (toString n) = (toString n, "") := by
    unfold splitColon
    rw [whole]
    exact Prod.ext String.ofList_toList rfl
  unfold quoteEnd
  rw [split]
  exact quote_int n

/-! ### Statements -/

theorem readName_int (n : Int) {c : Char} (blank : isBlank c = true) {rest : List Char} (stops : Stops rest) :
    readName (c :: ((toString n).toList ++ rest)) = some (toString n, rest) := by
  have skip : skipBlank (c :: ((toString n).toList ++ rest)) = (toString n).toList ++ rest := by
    rw [skipBlank, List.dropWhile_cons_of_pos blank]
    exact skipBlank_of_bare (by rw [isNumeral_int, Bool.or_true]) rest
  unfold readName
  rw [skip, readIdent_numeral (isNumeral_int n) stops]
  dsimp only
  rw [String.ofList_toList]

theorem readLabel_value (cs : List Char) :
    readLabel ('[' :: 'l' :: 'a' :: 'b' :: 'e' :: 'l' :: '=' :: cs) = readValue cs := by
  have stops : Stops ('=' :: cs) := by
    rintro c ⟨⟩
    decide
  have word : readIdent ('l' :: 'a' :: 'b' :: 'e' :: 'l' :: '=' :: cs) =
      some (.plain ['l', 'a', 'b', 'e', 'l'], '=' :: cs) :=
    (@readIdent_word ['l', 'a', 'b', 'e', 'l'] _ (by decide) stops).trans (if_neg (by decide +kernel))
  have name : readName ('l' :: 'a' :: 'b' :: 'e' :: 'l' :: '=' :: cs) = some ("label", '=' :: cs) := by
    unfold readName
    rw [skipBlank_cons (by decide), word]
  show (readName ('l' :: 'a' :: 'b' :: 'e' :: 'l' :: '=' :: cs) >>= _) = _
  rw [name]
  rfl

theorem readStatement_node {cs after inside : List Char} {name : String}
    (named : readName cs = some (name, after)) (next : skipBlank after = '[' :: inside) :
    readStatement cs = (readLabel ('[' :: inside)).map fun (label, cs) => (.node name label, cs) := by
  unfold readStatement
  rw [named]
  dsimp only [Bind.bind, Option.bind]
  rw [next]
  show (readLabel ('[' :: inside) >>= fun x => some (Reading.node name x.1, x.2)) = _
  cases readLabel ('[' :: inside) <;> rfl

theorem readStatement_edge {cs after inside behind : List Char} {tail head : String}
    (named : readName cs = some (tail, after)) (next : skipBlank after = '-' :: '-' :: inside)
    (named' : readName inside = some (head, behind)) :
    readStatement cs = (readLabel behind).map fun (label, cs) => (.edge tail head label, cs) := by
  unfold readStatement
  rw [named]
  dsimp only [Bind.bind, Option.bind]
  rw [next]
  show (readName inside >>= _) = _
  rw [named']
  show (readLabel behind >>= fun x => some (Reading.edge tail head x.1, x.2)) = _
  cases readLabel behind <;> rfl

theorem attributeTexts_nil : Statement.attributeTexts (.object []) = .ok [] := by
  have none : byName (([] : List (String × Value)).filter fun entry => entry.1 ≠ Statement.listName) = [] := by
    simp [byName]
  show (do
    let named ← attributeParts (byName ([].filter fun entry => entry.1 ≠ Statement.listName))
    return named ++ (← Statement.listParts .null)) = _
  rw [none]
  rfl

/-- The statement is for relations with integer identities, and meant to be read as the other one. -/
inductive Means : Statement → Reading → Prop where
  | node (n : Int) {text : String} (bracket : '[' ∈ text.toList) :
    Means (.node (toString n) (.text text) (.object [])) (.node (toString n) (.literal text))
  | edge (n m : Int) (text : String) :
    Means (.edge (toString n) (toString m) (some text)) (.edge (toString n) (toString m) (.literal text))

/-- Only on edges a text may have to be plain. -/
def Reading.IsPlain : Reading → Prop
  | .node .. => True
  | .edge _ _ label => ∃ text, label = .literal text ∧ Dot.IsPlain text

theorem literal_inj {s t : String} (same : Label.literal s = .literal t) : s = t := by
  have chars : Function.Injective Piece.char := fun _ _ same => Piece.char.inj same
  exact String.toList_injective (List.map_injective_iff.mpr chars (Label.text.inj same))

theorem line_node (n : Int) (text : String) :
    Statement.line (.node (toString n) (.text text) (.object [])) =
      .ok ("\t" ++ toString n ++ (" [" ++ ("label=" ++ quoteLabel text) ++ "]") ++ "\n") := by
  show (Statement.attributeTexts (.object []) >>= _) = _
  rw [attributeTexts_nil]
  show Except.ok ("\t" ++ quote (toString n) ++ bracket ["label=" ++ quoteLabel text] ++ "\n") = _
  rw [quote_int]
  rfl

theorem line_edge (n m : Int) (text : String) :
    Statement.line (.edge (toString n) (toString m) (some text)) =
      .ok ("\t" ++ toString n ++ " -- " ++ toString m ++
        (" [" ++ ("label=" ++ quote text) ++ "]") ++ "\n") := by
  show Except.ok ("\t" ++ quoteEnd (toString n) ++ " -- " ++ quoteEnd (toString m) ++
    bracket ["label=" ++ quote text] ++ "\n") = _
  rw [quoteEnd_int, quoteEnd_int]
  rfl

theorem stops_blank (rest : List Char) : Stops (' ' :: rest) := by
  rintro c ⟨⟩
  decide

/-- A line from which a statement is read, whatever comes behind the line. -/
def IsReadAs (line : String) (x : Reading) : Prop :=
  ∀ rest, readStatement (line.toList ++ rest) = some (x, '\n' :: rest)

/-- A line is read as what its statement means exactly if that is plain. -/
theorem Means.reads_iff {statement : Statement} {x : Reading} {line : String} (means : Means statement x)
    (written : statement.line = .ok line) : IsReadAs line x ↔ x.IsPlain := by
  cases means with
  | node n bracket =>
    rename_i text
    refine iff_of_true (fun rest => ?_) trivial
    rw [line_node] at written
    obtain rfl := Except.ok.inj written
    have chars : ("\t" ++ toString n ++
        (" [" ++ ("label=" ++ quoteLabel text) ++ "]") ++ "\n").toList ++ rest =
        '\t' :: ((toString n).toList ++ (' ' :: '[' :: 'l' :: 'a' :: 'b' :: 'e' :: 'l' :: '=' ::
          ((quoteLabel text).toList ++ ']' :: '\n' :: rest))) := by
      simp [String.toList_append]
    rw [chars, readStatement_node (readName_int n rfl (stops_blank _)) rfl, readLabel_value,
      readValue_quoteLabel bracket]
    rfl
  | edge n m text =>
    rw [line_edge] at written
    obtain rfl := Except.ok.inj written
    have reads (rest : List Char) : readStatement (("\t" ++ toString n ++ " -- " ++ toString m ++
        (" [" ++ ("label=" ++ quote text) ++ "]") ++ "\n").toList ++ rest) =
        (readValue ((quote text).toList ++ ']' :: '\n' :: rest)).map fun (label, cs) =>
          (.edge (toString n) (toString m) label, cs) := by
      have chars : ("\t" ++ toString n ++ " -- " ++ toString m ++
          (" [" ++ ("label=" ++ quote text) ++ "]") ++ "\n").toList ++ rest =
          '\t' :: ((toString n).toList ++ (' ' :: '-' :: '-' :: ' ' :: ((toString m).toList ++
            (' ' :: '[' :: 'l' :: 'a' :: 'b' :: 'e' :: 'l' :: '=' ::
              ((quote text).toList ++ ']' :: '\n' :: rest))))) := by
        simp [String.toList_append]
      rw [chars, readStatement_edge (readName_int n rfl (stops_blank _)) rfl
        (readName_int m rfl (stops_blank _)), ← readLabel_value]
      rfl
    constructor
    · -- What comes behind the line makes no difference, so nothing does.
      intro all
      have read := all []
      rw [reads] at read
      obtain ⟨⟨label, after⟩, value, same⟩ := Option.map_eq_some_iff.mp read
      obtain ⟨same, rfl⟩ := Prod.mk.inj same
      cases same
      exact ⟨text, rfl, isPlain_of_readValue value⟩
    · rintro ⟨other, same, plain⟩ rest
      obtain rfl := literal_inj same
      rw [reads, readValue_quote plain]
      rfl

/-! ### Graphs -/

theorem readName_skipBlank (cs : List Char) : readName (skipBlank cs) = readName cs := by
  have once : skipBlank (skipBlank cs) = skipBlank cs := List.dropWhile_idempotent isBlank cs
  rw [readName, readName, once]

theorem readStatement_skipBlank (cs : List Char) : readStatement (skipBlank cs) = readStatement cs := by
  rw [readStatement, readStatement, readName_skipBlank]

theorem readStatements_step {cs after : List Char} {x : Reading} (read : readStatement cs = some (x, after))
    (n : Nat) : readStatements (n + 1) cs = (readStatements n after).map (x :: ·) := by
  rw [← readStatement_skipBlank] at read
  rw [readStatements]
  split
  case h_1 rest next =>
    rw [next] at read
    cases read
  case h_2 =>
    rw [read]
    show (readStatements n after >>= fun xs => some (x :: xs)) = _
    cases readStatements n after <;> rfl

/-- Lines are read one after the other, up to the end of the graph. -/
theorem readStatements_lines {lines : List String} {xs : List Reading}
    (each : List.Forall₂ IsReadAs lines xs) {n : Nat} (enough : lines.length < n) :
    readStatements n ('\n' :: (lines.flatMap String.toList ++ ['}', '\n'])) = some xs := by
  induction each generalizing n with
  | nil =>
    obtain ⟨n, rfl⟩ := Nat.exists_eq_add_one.mpr enough
    rfl
  | @cons line x lines xs first _ ih =>
    obtain ⟨n, rfl⟩ := Nat.exists_eq_add_one.mpr (Nat.zero_lt_of_lt enough)
    have read := first (lines.flatMap String.toList ++ ['}', '\n'])
    rw [← List.append_assoc] at read
    have read : readStatement ('\n' :: ((line :: lines).flatMap String.toList ++ ['}', '\n'])) = _ := read
    rw [readStatements_step read, ih (Nat.lt_of_succ_lt_succ enough)]
    rfl

theorem length_lines_le {lines : List String} {xs : List Reading}
    (each : List.Forall₂ IsReadAs lines xs) : lines.length ≤ (lines.flatMap String.toList).length := by
  induction each with
  | nil => exact Nat.le_refl 0
  | @cons line x lines xs first _ ih =>
    have some : 0 < line.toList.length := by
      refine List.length_pos_iff.mpr fun none => ?_
      have read := first ['}']
      rw [none] at read
      cases read
    rw [List.flatMap_cons, List.length_append, List.length_cons]
    omega

theorem readGraph_lines {lines : List String} {xs : List Reading}
    (each : List.Forall₂ IsReadAs lines xs) :
    readGraph ("graph \x7b\n" ++ String.join lines ++ "\x7d\n") = some xs := by
  have chars : ("graph \x7b\n" ++ String.join lines ++ "\x7d\n").toList =
      'g' :: 'r' :: 'a' :: 'p' :: 'h' :: ' ' :: '\x7b' :: '\n' ::
        (lines.flatMap String.toList ++ ['}', '\n']) := by
    simp [String.toList_append]
  have enough := length_lines_le each
  unfold readGraph
  rw [chars]
  show readStatements _ ('\n' :: (lines.flatMap String.toList ++ ['}', '\n'])) = _
  refine readStatements_lines each ?_
  rw [List.length_cons, List.length_cons, List.length_cons, List.length_append]
  omega

end JoinOrder.Dot
