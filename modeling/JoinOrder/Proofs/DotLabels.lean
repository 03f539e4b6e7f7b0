import JoinOrder.Proofs.DotReader
/-!
What labels show once they are written and read. A text whose backslashes were doubled shows itself. Any
other text does so exactly if it has no backslash, is no markup, and is no word or numeral that a line
break ends.
-/

namespace JoinOrder.Dot

variable {t : String} {cs rest : List Char} {escaped : Bool}

/-! ### Quotes -/

/-- What is read of a text that was put in quotes; the flag says that a backslash comes before it. -/
def quoted : Bool → List Char → List Char
  | _, [] => []
  | _, '"' :: cs => '"' :: quoted false cs
  | false, '\\' :: cs => quoted true cs
  | true, '\n' :: cs => quoted false cs
  | escaped, c :: cs => if escaped then '\\' :: c :: quoted false cs else c :: quoted false cs

/-- Whether a text ends with a backslash that nothing behind it has been read for. -/
def leavesEscaped : Bool → List Char → Bool
  | escaped, [] => escaped
  | false, '\\' :: cs => leavesEscaped true cs
  | _, _ :: cs => leavesEscaped false cs

theorem readQuoted_escapeQuotes (escaped : Bool) (cs rest : List Char) :
    readQuoted escaped (escapeQuotes escaped cs ++ rest) =
      (readQuoted (leavesEscaped escaped cs) rest).map fun (s, rest) => (quoted escaped cs ++ s, rest) := by
  induction cs generalizing escaped with
  | nil => cases escaped <;> simp [escapeQuotes, leavesEscaped, quoted]
  | cons c cs ih =>
    by_cases quote : c = '"'
    · subst quote
      cases escaped <;> simp [escapeQuotes, readQuoted, leavesEscaped, quoted, ih, Function.comp_def]
    by_cases backslash : c = '\\'
    · subst backslash
      cases escaped <;> simp [escapeQuotes, readQuoted, leavesEscaped, quoted, ih, Function.comp_def]
    by_cases lineBreak : c = '\n'
    · subst lineBreak
      cases escaped <;> simp [escapeQuotes, readQuoted, leavesEscaped, quoted, ih, Function.comp_def]
    · cases escaped <;> simp [escapeQuotes, readQuoted, leavesEscaped, quoted, ih, Function.comp_def, quote,
        backslash, lineBreak]

theorem readIdent_quoted (closed : leavesEscaped false cs = false) :
    readIdent ('"' :: escapeQuotes false cs ++ '"' :: rest) = some (.plain (quoted false cs), rest) := by
  show (readQuoted false (escapeQuotes false cs ++ '"' :: rest)).map _ = _
  rw [readQuoted_escapeQuotes, closed]
  simp [readQuoted]

/-- A backslash at the very end takes the quote that was meant to close the text. -/
theorem readIdent_open (opens : leavesEscaped false cs = true) (unclosed : readQuoted false rest = none) :
    readIdent ('"' :: escapeQuotes false cs ++ '"' :: rest) = none := by
  show (readQuoted false (escapeQuotes false cs ++ '"' :: rest)).map _ = _
  rw [readQuoted_escapeQuotes, opens]
  simp [readQuoted, unclosed]

/-! ### Pieces -/

theorem pieces_cons {c : Char} (plain : c ≠ '\\') (cs : List Char) :
    pieces (c :: cs) = .char c :: pieces cs := by
  cases cs <;> simp [pieces, plain]

theorem length_pieces_le (cs : List Char) : (pieces cs).length ≤ cs.length := by
  fun_induction pieces cs with
  | case1 => exact Nat.le_refl 0
  | case2 c cs ih =>
    rw [List.length_cons, List.length_cons, List.length_cons]
    omega
  | case3 c cs _ ih => exact Nat.succ_le_succ ih

theorem length_pieces_quoted (escaped : Bool) (cs : List Char) :
    (pieces (quoted escaped cs)).length ≤ cs.length := by
  -- A backslash that comes before makes the first character part of a piece that is counted there.
  induction cs generalizing escaped with
  | nil => cases escaped <;> simp [quoted, pieces]
  | cons c cs ih =>
    have here := ih false
    by_cases quote : c = '"'
    · subst quote
      rw [quoted, pieces_cons (by decide), List.length_cons, List.length_cons]
      omega
    by_cases backslash : c = '\\'
    · subst backslash
      have behind := ih true
      cases escaped <;> simp [quoted, pieces] <;> omega
    by_cases lineBreak : c = '\n'
    · subst lineBreak
      cases escaped
      · simp [quoted, pieces_cons]; omega
      · simp [quoted]; omega
    · cases escaped
      · simp [quoted, pieces_cons, backslash]; omega
      · simp [quoted, pieces, lineBreak]; omega

/-- A backslash is never shown along with what stands behind it. -/
theorem length_pieces_lt (backslash : '\\' ∈ cs) : (pieces (quoted false cs)).length < cs.length := by
  induction cs with
  | nil => cases backslash
  | cons c cs ih =>
    by_cases first : c = '\\'
    · subst first
      rw [quoted, List.length_cons]
      exact Nat.lt_succ_of_le (length_pieces_quoted true cs)
    · have later := ih ((List.mem_cons.mp backslash).resolve_left (Ne.symm first))
      have same : quoted false (c :: cs) = c :: quoted false cs := by
        by_cases quote : c = '"'
        · rw [quote, quoted]
        · simp [quoted, first]
      rw [same, pieces_cons first, List.length_cons, List.length_cons]
      exact Nat.succ_lt_succ later

theorem quoted_of_noBackslash (none : '\\' ∉ cs) :
    quoted false cs = cs ∧ leavesEscaped false cs = false ∧ pieces cs = cs.map .char := by
  induction cs with
  | nil => exact ⟨rfl, rfl, rfl⟩
  | cons c cs ih =>
    obtain ⟨first, rest⟩ := not_or.mp (List.mem_cons.not.mp none)
    obtain ⟨same, closed, shown⟩ := ih rest
    have first : c ≠ '\\' := Ne.symm first
    refine ⟨?_, ?_, ?_⟩
    · by_cases quote : c = '"'
      · rw [quote, quoted, same]
      · simp [quoted, first, same]
    · simp [leavesEscaped, first, closed]
    · rw [pieces_cons first, shown, List.map_cons]

theorem quoted_doubled (cs : List Char) :
    let doubled := cs.flatMap fun c => if c = '\\' then ['\\', '\\'] else [c]
    leavesEscaped false doubled = false ∧ pieces (quoted false doubled) = cs.map .char := by
  induction cs with
  | nil => exact ⟨rfl, rfl⟩
  | cons c cs ih =>
    obtain ⟨closed, shown⟩ := ih
    by_cases backslash : c = '\\'
    · subst backslash
      simp [leavesEscaped, quoted, pieces, closed, shown, Piece.escaped]
    · by_cases quote : c = '"'
      · subst quote
        simp [leavesEscaped, quoted, pieces_cons, closed, shown]
      · simp [leavesEscaped, quoted, pieces_cons, closed, shown, backslash]

/-! ### Words and numerals -/

/-- Neither words nor numerals go on. -/
def Stops (rest : List Char) : Prop :=
  ∀ c, rest.head? = some c → isLetter c = false ∧ isDigit c = false ∧ c ≠ '.'

theorem span_append {p : Char → Bool} {rest : List Char} (all : ∀ c ∈ cs, p c = true)
    (stops : ∀ c, rest.head? = some c → p c = false) : (cs ++ rest).span p = (cs, rest) := by
  induction cs with
  | nil =>
    cases rest with
    | nil => rfl
    | cons c rest => simp [List.span_eq_takeWhile_dropWhile, stops c rfl]
  | cons c cs ih =>
    obtain ⟨first, others⟩ := List.forall_mem_cons.mp all
    have ih := ih others
    rw [List.span_eq_takeWhile_dropWhile] at ih ⊢
    obtain ⟨taken, left⟩ := Prod.mk.inj ih
    simp [first, taken, left]

/-- A numeral without a sign has digits on at least one side of its point, if it has one. -/
theorem shape_of_isUnsigned (unsigned : isUnsigned cs = true) :
    (cs ≠ [] ∧ ∀ c ∈ cs, isDigit c = true) ∨ ∃ whole places, cs = whole ++ '.' :: places ∧
      (∀ c ∈ whole, isDigit c = true) ∧ (∀ c ∈ places, isDigit c = true) ∧
      (whole.isEmpty && places.isEmpty) = false := by
  have parts : cs = (cs.span isDigit).1 ++ (cs.span isDigit).2 := by
    rw [List.span_eq_takeWhile_dropWhile, List.takeWhile_append_dropWhile]
  have digits : ∀ c ∈ (cs.span isDigit).1, isDigit c = true := fun c member => by
    rw [List.span_eq_takeWhile_dropWhile] at member
    exact List.mem_takeWhile_imp member
  unfold isUnsigned at unsigned
  generalize cs.span isDigit = split at parts digits unsigned
  split at unsigned
  case h_1 places =>
    obtain ⟨some, all⟩ := Bool.and_eq_true_iff.mp unsigned
    exact .inr ⟨[], places, parts, nofun, List.all_eq_true.mp all, by simpa using some⟩
  case h_2 => cases unsigned
  case h_3 whole some =>
    rw [List.append_nil] at parts
    exact .inl ⟨fun none => some (parts.symm.trans none), parts ▸ digits⟩
  case h_4 whole places some =>
    refine .inr ⟨whole, places, parts, digits, List.all_eq_true.mp unsigned, ?_⟩
    rw [List.isEmpty_eq_false_iff.mpr some, Bool.false_and]
  case h_5 => cases unsigned

theorem readUnsigned_append (unsigned : isUnsigned cs = true) (stops : Stops rest) :
    readUnsigned (cs ++ rest) = some (cs, rest) := by
  have behind : ∀ c, rest.head? = some c → isDigit c = false := fun c head => (stops c head).2.1
  rcases shape_of_isUnsigned unsigned with ⟨some, digits⟩ | ⟨whole, places, rfl, digits, digits', some⟩
  · unfold readUnsigned
    rw [span_append digits behind]
    split
    case h_1 whole behind same =>
      obtain ⟨-, rfl⟩ := Prod.mk.inj same
      exact absurd rfl (stops '.' rfl).2.2
    case h_2 whole behind _ same =>
      obtain ⟨rfl, rfl⟩ := Prod.mk.inj same
      rw [List.isEmpty_eq_false_iff.mpr some, if_neg Bool.false_ne_true]
  · have point : ∀ c, ('.' :: places ++ rest).head? = Option.some c → isDigit c = false := by
      rintro c ⟨⟩
      decide
    unfold readUnsigned
    rw [List.append_assoc, span_append digits point]
    show (let (places, rest) := (places ++ rest).span isDigit
      if whole.isEmpty && places.isEmpty then none else Option.some (whole ++ '.' :: places, rest)) = _
    rw [span_append digits' behind]
    simp only [some, Bool.false_eq_true, if_false]

theorem readIdent_bare {c : Char} (noQuote : c ≠ '"') (noBracket : c ≠ '<') (cs : List Char) :
    readIdent (c :: cs) = (readBare (c :: cs)).map fun (s, rest) => (.plain s, rest) := by
  unfold readIdent
  split
  case h_1 same => exact absurd (List.cons.inj same).1 noQuote
  case h_2 same => exact absurd (List.cons.inj same).1 noBracket
  case h_3 => rfl

theorem readBare_unsigned {c : Char} (noSign : c ≠ '-') (noLetter : isLetter c = false) (cs : List Char) :
    readBare (c :: cs) = readUnsigned (c :: cs) := by
  unfold readBare
  split
  case h_1 same => exact absurd (List.cons.inj same).1 noSign
  case h_2 => rw [List.head?_cons, Option.any_some, noLetter, if_neg Bool.false_ne_true]

theorem toNat_of_isDigit {c : Char} (digit : isDigit c = true) : 48 ≤ c.toNat ∧ c.toNat ≤ 57 := by
  obtain ⟨low, high⟩ := Bool.and_eq_true_iff.mp digit
  exact ⟨of_decide_eq_true low, of_decide_eq_true high⟩

theorem isLetter_of_isDigit {c : Char} (digit : isDigit c = true) : isLetter c = false := by
  obtain ⟨low, high⟩ := toNat_of_isDigit digit
  have lower : ¬ 'a' ≤ c := fun le => by
    have : 97 ≤ c.toNat := le
    omega
  have upper : ¬ 'A' ≤ c := fun le => by
    have : 65 ≤ c.toNat := le
    omega
  have line : c ≠ '_' := by
    rintro rfl
    exact absurd high (by decide)
  have small : ¬ 0x80 ≤ c.toNat := by omega
  simp [isLetter, isWordStart, lower, upper, line, small]

/-- Digits and points are no letters, and begin nothing else either. -/
theorem begins_unsigned {c : Char} (begins : isDigit c = true ∨ c = '.') :
    c ≠ '"' ∧ c ≠ '<' ∧ c ≠ '-' ∧ isLetter c = false := by
  rcases begins with digit | rfl
  · have apart (d : Char) (other : isDigit d = false) : c ≠ d := by
      rintro rfl
      rw [other] at digit
      cases digit
    exact ⟨apart _ (by decide), apart _ (by decide), apart _ (by decide), isLetter_of_isDigit digit⟩
  · decide

theorem exists_head_of_isUnsigned (unsigned : isUnsigned cs = true) :
    ∃ c tail, cs = c :: tail ∧ (isDigit c = true ∨ c = '.') := by
  rcases shape_of_isUnsigned unsigned with ⟨some, digits⟩ | ⟨whole, places, rfl, digits, -, -⟩
  · obtain ⟨c, tail, rfl⟩ := List.exists_cons_of_ne_nil some
    exact ⟨c, tail, rfl, .inl (digits c List.mem_cons_self)⟩
  · cases whole with
    | nil => exact ⟨'.', places, rfl, .inr rfl⟩
    | cons c whole => exact ⟨c, _, rfl, .inl (digits c List.mem_cons_self)⟩

theorem readIdent_numeral (numeral : isNumeral cs = true) (stops : Stops rest) :
    readIdent (cs ++ rest) = some (.plain cs, rest) := by
  unfold isNumeral at numeral
  split at numeral
  case h_1 cs =>
    show ((readUnsigned (cs ++ rest)).map fun (s, rest) => ('-' :: s, rest)).map _ = _
    rw [readUnsigned_append numeral stops]
    rfl
  case h_2 =>
    obtain ⟨c, tail, rfl, begins⟩ := exists_head_of_isUnsigned numeral
    obtain ⟨noQuote, noBracket, noSign, noLetter⟩ := begins_unsigned begins
    rw [List.cons_append, readIdent_bare noQuote noBracket, readBare_unsigned noSign noLetter,
      ← List.cons_append, readUnsigned_append numeral stops]
    rfl

theorem readIdent_word (word : isWord cs = true) (stops : Stops rest) :
    readIdent (cs ++ rest) = if isKeyword (String.ofList cs) then none else some (.plain cs, rest) := by
  cases cs with
  | nil => cases word
  | cons c cs =>
    obtain ⟨first, others⟩ := Bool.and_eq_true_iff.mp word
    have apart (d : Char) (other : isWordStart d = false) : c ≠ d := by
      rintro rfl
      rw [other] at first
      cases first
    have letter : isLetter c = true := by rw [isLetter, first, Bool.true_or]
    have parts : ∀ d ∈ c :: cs, (isLetter d || isDigit d) = true := by
      refine List.forall_mem_cons.mpr ⟨by rw [letter, Bool.true_or], fun d member => ?_⟩
      have part := List.all_eq_true.mp others d member
      rw [isLetter, Bool.or_assoc, Bool.or_left_comm, part, Bool.or_true]
    have behind : ∀ d, rest.head? = some d → (isLetter d || isDigit d) = false := fun d head => by
      obtain ⟨noLetter, noDigit, -⟩ := stops d head
      rw [noLetter, noDigit, Bool.or_false]
    rw [List.cons_append, readIdent_bare (apart '"' (by decide)) (apart '<' (by decide))]
    unfold readBare
    split
    case h_1 same => exact absurd (List.cons.inj same).1 (apart '-' (by decide))
    case h_2 =>
      rw [List.head?_cons, Option.any_some, letter, if_pos rfl, ← List.cons_append, span_append parts behind]
      dsimp only
      split <;> rfl

/-- What words and numerals are made of. -/
def isPart (c : Char) : Bool := isWordStart c || isDigit c || c = '.' || c = '-'

theorem isPart_of_isUnsigned (unsigned : isUnsigned cs = true) : ∀ c ∈ cs, isPart c = true := by
  have digit {c : Char} (digit : isDigit c = true) : isPart c = true := by
    rw [isPart, digit, Bool.or_true, Bool.true_or, Bool.true_or]
  rcases shape_of_isUnsigned unsigned with ⟨-, digits⟩ | ⟨whole, places, rfl, digits, digits', -⟩
  · exact fun c member => digit (digits c member)
  · refine List.forall_mem_append.mpr ⟨fun c member => digit (digits c member), ?_⟩
    exact List.forall_mem_cons.mpr ⟨by decide, fun c member => digit (digits' c member)⟩

theorem isPart_of_bare (bare : (isWord cs || isNumeral cs) = true) : ∀ c ∈ cs, isPart c = true := by
  rcases Bool.or_eq_true_iff.mp bare with word | numeral
  · cases cs with
    | nil => nofun
    | cons c cs =>
      obtain ⟨first, others⟩ := Bool.and_eq_true_iff.mp word
      refine List.forall_mem_cons.mpr ⟨by rw [isPart, first, Bool.true_or, Bool.true_or, Bool.true_or], ?_⟩
      intro d member
      rw [isPart, List.all_eq_true.mp others d member, Bool.true_or, Bool.true_or]
  · unfold isNumeral at numeral
    split at numeral
    case h_1 => exact List.forall_mem_cons.mpr ⟨by decide, isPart_of_isUnsigned numeral⟩
    case h_2 => exact isPart_of_isUnsigned numeral

theorem skipBlank_cons {c : Char} (ink : isBlank c = false) (cs : List Char) :
    skipBlank (c :: cs) = c :: cs := List.dropWhile_cons_of_neg (by simp [ink])

theorem isBlank_of_isPart {c : Char} (part : isPart c = true) : isBlank c = false := by
  refine Bool.eq_false_iff.mpr fun blank => ?_
  simp only [isBlank, Bool.or_eq_true, decide_eq_true_eq] at blank
  rcases blank with ((rfl | rfl) | rfl) | rfl <;> exact absurd part (by decide)

/-- Words and numerals are not empty, and have no blanks before them. -/
theorem skipBlank_of_bare (bare : (isWord cs || isNumeral cs) = true) (rest : List Char) :
    skipBlank (cs ++ rest) = cs ++ rest := by
  have parts := isPart_of_bare bare
  cases cs with
  | nil => cases bare
  | cons c cs => exact skipBlank_cons (isBlank_of_isPart (parts c List.mem_cons_self)) (cs ++ rest)

/-! ### What is written -/

theorem trimBreak_of_break (ends : cs.getLast? = some '\n') : trimBreak cs = cs.dropLast := if_pos ends

theorem trimBreak_of_noBreak (noBreak : cs.getLast? ≠ some '\n') : trimBreak cs = cs := if_neg noBreak

/-- The break at the end is all that is cut off. -/
theorem mem_trimBreak {c : Char} (other : c ≠ '\n') (member : c ∈ cs) : c ∈ trimBreak cs := by
  unfold trimBreak
  split
  case isTrue ends =>
    obtain ⟨init, rfl⟩ := List.getLast?_eq_some_iff.mp ends
    rw [List.dropLast_concat]
    rcases List.mem_append.mp member with inside | last
    · exact inside
    · exact absurd (List.mem_singleton.mp last) other
  case isFalse => exact member

/-- Characters that words and numerals are not made of do not stand for themselves. -/
theorem isBare_of_mem {c : Char} (member : c ∈ t.toList) (other : c ≠ '\n') (noPart : isPart c = false) :
    isBare t = false := by
  refine Bool.eq_false_iff.mpr fun bare => ?_
  have part := isPart_of_bare (Bool.and_eq_true_iff.mp bare).1 c (mem_trimBreak other member)
  rw [noPart] at part
  cases part

theorem readIdent_of_isBare (bare : isBare t = true) (noBreak : t.toList.getLast? ≠ some '\n')
    (stops : Stops rest) : readIdent (t.toList ++ rest) = some (.plain t.toList, rest) := by
  obtain ⟨shape, noKeyword⟩ := Bool.and_eq_true_iff.mp bare
  rw [trimBreak_of_noBreak noBreak] at shape
  rcases Bool.or_eq_true_iff.mp shape with word | numeral
  · have noKeyword : isKeyword (String.ofList t.toList) = false := by
      rw [String.ofList_toList]
      simpa using noKeyword
    rw [readIdent_word word stops, noKeyword, if_neg Bool.false_ne_true]
  · exact readIdent_numeral numeral stops

/-- A break behind a word or a numeral is taken for a blank. -/
theorem label_of_isBare_break (bare : isBare t = true) (ends : t.toList.getLast? = some '\n')
    {value : Ident} {after : List Char}
    (read : readIdent (skipBlank (t.toList ++ rest)) = some (value, after)) :
    value = .plain t.toList.dropLast := by
  obtain ⟨init, whole⟩ := List.getLast?_eq_some_iff.mp ends
  have shape := (Bool.and_eq_true_iff.mp bare).1
  rw [trimBreak_of_break ends, whole, List.dropLast_concat] at shape
  have stops : Stops ('\n' :: rest) := by
    rintro c ⟨⟩
    decide
  rw [whole, List.append_assoc, List.singleton_append, skipBlank_of_bare shape] at read
  rw [whole, List.dropLast_concat]
  rcases Bool.or_eq_true_iff.mp shape with word | numeral
  · rw [readIdent_word word stops] at read
    split at read
    · cases read
    · cases read
      rfl
  · rw [readIdent_numeral numeral stops] at read
    cases read
    rfl

/-- A text that is written as a label and shows itself. -/
structure IsPlain (t : String) : Prop where
  noBackslash : '\\' ∉ t.toList
  noMarkup : isMarkup t = false
  noBreak : isBare t = true → t.toList.getLast? ≠ some '\n'

theorem readValue_of_readIdent {value : Ident} (ink : skipBlank cs = cs)
    (read : readIdent cs = some (value, ']' :: rest)) : readValue cs = some (value.label, rest) := by
  rw [readValue, ink, read]
  rfl

theorem toList_inQuotes (t : String) : (inQuotes t).toList = '"' :: escapeQuotes false t.toList ++ ['"'] :=
  String.toList_ofList

theorem readValue_inQuotes (closed : leavesEscaped false t.toList = false) (rest : List Char) :
    readValue ((inQuotes t).toList ++ ']' :: rest) = some (.text (pieces (quoted false t.toList)), rest) := by
  rw [toList_inQuotes, List.append_assoc, List.singleton_append]
  exact readValue_of_readIdent (skipBlank_cons (by decide) _) (readIdent_quoted closed)

theorem readValue_quote (plain : IsPlain t) (rest : List Char) :
    readValue ((quote t).toList ++ ']' :: rest) = some (.literal t, rest) := by
  obtain ⟨same, closed, shown⟩ := quoted_of_noBackslash plain.noBackslash
  rw [quote, plain.noMarkup, if_neg Bool.false_ne_true, quoteText]
  split
  case isTrue bare =>
    have stops : Stops (']' :: rest) := by
      rintro c ⟨⟩
      decide
    have shape := (Bool.and_eq_true_iff.mp bare).1
    rw [trimBreak_of_noBreak (plain.noBreak bare)] at shape
    have read := readIdent_of_isBare bare (plain.noBreak bare) stops
    rw [readValue_of_readIdent (skipBlank_of_bare shape _) read, Ident.label, shown, Label.literal]
  case isFalse => rw [readValue_inQuotes closed, same, shown, Label.literal]

/-- What was read before the bracket is what the label shows. -/
theorem exists_ident_of_readValue {label : Label} (read : readValue cs = some (label, rest)) :
    ∃ value after, readIdent (skipBlank cs) = some (value, after) ∧ label = value.label := by
  unfold readValue at read
  cases ident : readIdent (skipBlank cs) with
  | none =>
    rw [ident] at read
    cases read
  | some found =>
    obtain ⟨value, after⟩ := found
    rw [ident] at read
    change ((readMark ']' after).bind fun cs => some (value.label, cs)) = _ at read
    obtain ⟨left, -, same⟩ := Option.bind_eq_some_iff.mp read
    exact ⟨value, after, rfl, (Prod.mk.inj (Option.some.inj same)).1.symm⟩

theorem head_of_isMarkup (markup : isMarkup t = true) : ∃ cs, t.toList = '<' :: cs := by
  unfold isMarkup at markup
  split at markup
  case h_2 => cases markup
  case h_1 inside trimmed =>
    by_cases ends : t.toList.getLast? = some '\n'
    · rw [trimBreak_of_break ends] at trimmed
      obtain ⟨init, whole⟩ := List.getLast?_eq_some_iff.mp ends
      rw [whole, List.dropLast_concat] at trimmed
      exact ⟨inside ++ ['\n'], by rw [whole, trimmed, List.cons_append]⟩
    · rw [trimBreak_of_noBreak ends] at trimmed
      exact ⟨inside, trimmed⟩

theorem literal_ne_markup {inside : List Char} : Label.literal t ≠ .markup inside := nofun

theorem length_of_literal {ps : List Piece} (same : Label.literal t = .text ps) :
    ps.length = t.toList.length := by
  rw [← Label.text.inj same, List.length_map]

/-- At the end of a line a label is only read as the text that was meant if that is plain. -/
theorem isPlain_of_readValue (read : readValue ((quote t).toList ++ [']', '\n']) = some (.literal t, rest)) :
    IsPlain t := by
  obtain ⟨value, after, ident, same⟩ := exists_ident_of_readValue read
  -- Of the three forms, markup is no text, and the other two lose something unless the text is plain.
  cases markup : isMarkup t with
  | true =>
    obtain ⟨inside, whole⟩ := head_of_isMarkup markup
    rw [quote, markup, if_pos rfl, whole, List.cons_append, skipBlank_cons (by decide)] at ident
    obtain ⟨found, -, is⟩ := Option.map_eq_some_iff.mp ident
    rw [← (Prod.mk.inj is).1] at same
    exact absurd same literal_ne_markup
  | false =>
    rw [quote, markup, if_neg Bool.false_ne_true, quoteText] at ident
    cases bare : isBare t with
    | true =>
      rw [bare, if_pos rfl] at ident
      have noBackslash : '\\' ∉ t.toList := fun member => by
        have := isBare_of_mem member (by decide) (by decide)
        rw [bare] at this
        cases this
      refine ⟨noBackslash, markup, fun _ ends => ?_⟩
      rw [label_of_isBare_break bare ends ident] at same
      obtain ⟨init, whole⟩ := List.getLast?_eq_some_iff.mp ends
      have short := length_pieces_le t.toList.dropLast
      rw [length_of_literal same, whole, List.dropLast_concat, List.length_append] at short
      exact Nat.not_succ_le_self _ short
    | false =>
      rw [bare, if_neg Bool.false_ne_true, toList_inQuotes, List.append_assoc, List.singleton_append] at ident
      refine ⟨fun backslash => ?_, markup, fun is => by rw [bare] at is; cases is⟩
      cases opens : leavesEscaped false t.toList with
      | true =>
        rw [List.cons_append, skipBlank_cons (by decide), ← List.cons_append,
          readIdent_open opens rfl] at ident
        cases ident
      | false =>
        rw [List.cons_append, skipBlank_cons (by decide), ← List.cons_append,
          readIdent_quoted opens] at ident
        obtain ⟨rfl, -⟩ := Prod.mk.inj (Option.some.inj ident)
        have short := length_pieces_lt backslash
        rw [length_of_literal same] at short
        exact Nat.lt_irrefl _ short

/-- A text with a bracket is no word or numeral, so it is put in quotes; and its backslashes were doubled
before. -/
theorem readValue_quoteLabel (bracket : '[' ∈ t.toList) (rest : List Char) :
    readValue ((quoteLabel t).toList ++ ']' :: rest) = some (.literal t, rest) := by
  obtain ⟨closed, shown⟩ := quoted_doubled t.toList
  have doubled : (doubleBackslashes t).toList =
      t.toList.flatMap fun c => if c = '\\' then ['\\', '\\'] else [c] := String.toList_ofList
  have kept : '[' ∈ (doubleBackslashes t).toList := by
    rw [doubled]
    exact List.mem_flatMap.mpr ⟨'[', bracket, by decide⟩
  rw [quoteLabel, quoteText, isBare_of_mem kept (by decide) (by decide), if_neg Bool.false_ne_true]
  rw [← doubled] at closed shown
  rw [readValue_inQuotes closed, shown, Label.literal]

end JoinOrder.Dot
