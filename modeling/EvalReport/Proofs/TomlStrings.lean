import EvalReport.Proofs.Numerals
import EvalReport.Toml.Reader
import EvalReport.Toml.Writer

/-! A text written as a TOML string is read back, whichever of the four forms it was written in.
Of quotes in a row, what closes the string takes the last three. -/
namespace EvalReport.Toml

/- What is written behind a value: a comma, a line end, or the bracket that closes an array. -/
def Follows (rest : List Char) : Prop :=
  ∃ c more, rest = c :: more ∧ (c = ',' ∨ c = '\n' ∨ c = ']')

theorem followsOther {rest : List Char} (follows : Follows rest) {c : Char} (comma : c ≠ ',')
    (line : c ≠ '\n') (bracket : c ≠ ']') : rest.head? ≠ some c := by
  obtain ⟨d, more, rfl, same⟩ := follows
  rintro first
  cases Option.some.inj first
  exact same.elim comma (·.elim line bracket)

/-! ### Characters -/

theorem hexValueDigit {d : Nat} (below : d < 16) :
    isHex (upperHex (Text.hexDigit d)) = true ∧ hexValue (upperHex (Text.hexDigit d)) = d := by
  revert d
  decide

theorem numberedByte {c : Char} (below : c.toNat < 256) :
    ∃ a b d e, (Text.hexPadded 4 c.toNat).map upperHex = [a, b, d, e] ∧
      numbered [a, b, d, e] = some c := by
  obtain ⟨high, highValue⟩ := hexValueDigit (by omega : c.toNat / 16 < 16)
  obtain ⟨low, lowValue⟩ := hexValueDigit (by omega : c.toNat % 16 < 16)
  obtain ⟨zero, zeroValue⟩ : isHex '0' = true ∧ hexValue '0' = 0 := by decide
  refine ⟨'0', '0', _, _, by rw [Text.hexPaddedByte below]; rfl, ?_⟩
  have value : ofHex ['0', '0', upperHex (Text.hexDigit (c.toNat / 16)),
      upperHex (Text.hexDigit (c.toNat % 16))] = c.toNat := by
    simp only [ofHex, List.foldl_cons, List.foldl_nil, zeroValue, highValue, lowValue]
    omega
  rw [numbered, value]
  simp [high, low, zero]
  omega

/- How a character other than a quote stands in a string: by an escape that is read back as it, as
a line end, or as itself. -/
inductive Stands (several : Bool) (c : Char) : List Char → Prop where
  | escape (mark : List Char) (back : ∀ rest, escape (mark ++ rest) = some (c, rest))
      (here : ∀ rest, joined (mark ++ rest) = none) : Stands several c ('\\' :: mark)
  | line (broken : several = true) (same : c = '\n') : Stands several c ['\n']
  | itself (text : isText c = true) (backslash : c ≠ '\\') : Stands several c [c]

theorem joinedNone {d : Char} (other : isSpace d = false) (line : d ≠ '\n') (turn : d ≠ '\r')
    (rest : List Char) : joined (d :: rest) = none := by
  rw [joined, skipSpaces, List.dropWhile_cons_of_neg (by simp [other])]
  unfold newline
  split <;> simp_all

theorem controlStands {several : Bool} {c : Char} (below : c.toNat < 256) :
    Stands several c (['\\', 'u'] ++ (Text.hexPadded 4 c.toNat).map upperHex) := by
  obtain ⟨a, b, d, e, written, back⟩ := numberedByte below
  rw [written]
  refine .escape ['u', a, b, d, e] (fun rest => ?_) fun rest => joinedNone rfl (by decide)
    (by decide) _
  simp [escape, back]

theorem escapedStands (several : Bool) {c : Char} (quote : c ≠ '"') :
    Stands several c (escapedChar several c) := by
  have short {d : Char} (mark : Char) (back : ∀ rest, escape (mark :: rest) = some (d, rest))
      (here : ∀ rest, joined (mark :: rest) = none) : Stands several d ['\\', mark] :=
    .escape [mark] back here
  unfold escapedChar
  split
  case h_3 =>
    cases several with
    | true => exact .line rfl rfl
    | false => exact short 'n' (fun _ => rfl) fun _ => rfl
  case h_7 backslash =>
    simp only [Bool.or_eq_true, decide_eq_true_eq]
    split
    · exact controlStands (by omega)
    · refine .itself ?_ backslash
      simp only [isText, Bool.or_eq_true, Bool.and_eq_true, decide_eq_true_eq]
      omega
  all_goals exact short _ (fun _ => rfl) fun _ => rfl

/-! ### Between double quotes -/

theorem standsLead {several : Bool} {c : Char} {written : List Char} (quote : c ≠ '"')
    (stands : Stands several c written) : ∃ d more, written = d :: more ∧ d ≠ '"' := by
  cases stands with
  | escape mark => exact ⟨_, mark, rfl, by decide⟩
  | line => exact ⟨_, [], rfl, by decide⟩
  | itself => exact ⟨c, [], rfl, quote⟩

theorem escapedRoom (several : Bool) (free run : Nat) (cs : List Char) :
    cs.length ≤ (escaped several free run cs).length := by
  induction cs generalizing run with
  | nil => exact Nat.zero_le _
  | cons c cs ih =>
    rw [escaped]
    split
    · split
      · exact Nat.succ_le_succ (ih (run + 1))
      · exact Nat.succ_le_succ ((ih 0).trans (Nat.le_succ _))
    · rename_i quote
      obtain ⟨d, more, lead, _⟩ := standsLead quote (escapedStands several quote)
      rw [lead, List.length_append, List.length_cons, List.length_cons]
      have later := ih 0
      omega

theorem basicEscaped (cs : List Char) {fuel : Nat} (room : cs.length < fuel) (run : Nat)
    (rest : List Char) : basic fuel (escaped false 0 run cs ++ '"' :: rest) = some (cs, rest) := by
  induction cs generalizing fuel run with
  | nil =>
    obtain ⟨fuel, rfl⟩ := Nat.exists_eq_add_one.mpr room
    rfl
  | cons c cs ih =>
    obtain ⟨fuel, rfl⟩ := Nat.exists_eq_add_one_of_ne_zero (Nat.ne_zero_of_lt room)
    have later := ih (Nat.lt_of_succ_lt_succ room) 0
    rw [escaped]
    split
    · rename_i same
      subst same
      simp [basic, escape, shortEscape, later]
    · rename_i quote
      have stands := escapedStands false quote
      generalize escapedChar false c = written at stands
      rw [List.append_assoc]
      cases stands with
      | escape mark back => simp [basic, back, later]
      | line broken => contradiction
      | itself text backslash => simp [basic, quote, backslash, text, later]

/-! ### Several lines -/

section Closing

variable {quote : Char}

theorem closingQuotes {k : Nat} (few : k ≤ 2) {rest : List Char} (ended : rest.head? ≠ some quote) :
    closing quote (List.replicate k quote ++ (tripled quote ++ rest)) =
      some (List.replicate k quote, rest) := by
  have next {d : Char} {more : List Char} (same : rest = d :: more) : d ≠ quote := by
    rintro rfl
    exact ended (by rw [same]; rfl)
  match k, few with
  | 0, _ =>
    rcases rest with _ | ⟨d, _ | ⟨e, more⟩⟩
    · simp [closing, tripled]
    · simp [closing, tripled, next rfl]
    · simp [closing, tripled, next rfl]
  | 1, _ =>
    rcases rest with _ | ⟨d, more⟩
    · simp [closing, tripled]
    · simp [closing, tripled, next rfl]
  | 2, _ => simp [closing, tripled, List.replicate]

theorem closingShort {k : Nat} (few : k ≤ 2) {d : Char} (other : d ≠ quote) (more : List Char) :
    closing quote (List.replicate k quote ++ d :: more) = none := by
  match k, few with
  | 0, _ => rcases more with _ | ⟨e, _ | ⟨f, more⟩⟩ <;> simp [closing, other]
  | 1, _ => rcases more with _ | ⟨e, more⟩ <;> simp [closing, other]
  | 2, _ => simp [closing, List.replicate, other]

theorem linesClosed {fuel : Nat} {cs : List Char} {e : List Char × List Char}
    (closed : closing quote cs = some e) : lines quote (fuel + 1) cs = some e := by
  simp [lines, closed]

theorem linesBreak {fuel : Nat} {cs xs rest : List Char} (apart : closing quote ('\n' :: cs) = none)
    (read : lines quote fuel cs = some (xs, rest)) :
    lines quote (fuel + 1) ('\n' :: cs) = some ('\n' :: xs, rest) := by
  simp [lines, apart, newline, read]

theorem newlineText {c : Char} (text : isText c = true) (cs : List Char) :
    newline (c :: cs) = none := by
  unfold newline
  split
  · rename_i same
    cases (List.cons.inj same).1
    contradiction
  · rename_i same
    cases (List.cons.inj same).1
    contradiction
  · rfl

theorem linesItself {fuel : Nat} {c : Char} {cs xs rest : List Char}
    (apart : closing quote (c :: cs) = none) (text : isText c = true)
    (plain : ¬ (c = '\\' ∧ quote = '"')) (read : lines quote fuel cs = some (xs, rest)) :
    lines quote (fuel + 1) (c :: cs) = some (c :: xs, rest) := by
  rw [lines, apart, newlineText text]
  simp [plain, text, read]

theorem linesEscape {fuel : Nat} {c : Char} {mark cs xs rest : List Char}
    (back : escape mark = some (c, cs)) (here : joined mark = none)
    (read : lines '"' fuel cs = some (xs, rest)) :
    lines '"' (fuel + 1) ('\\' :: mark) = some (c :: xs, rest) := by
  have apart : closing '"' ('\\' :: mark) = none := closingShort (Nat.zero_le 2) (by decide) mark
  rw [lines, apart, newlineText rfl]
  simp [back, here, read]

end Closing

/- Of a text, quotes stand in front, no more than are free; then it ends or something else comes. -/
theorem escapedFront (cs : List Char) {run : Nat} (few : run ≤ 2) (more : List Char) :
    ∃ k, run + k ≤ 2 ∧ (cs = List.replicate k '"' ∧
        escaped true 2 run cs ++ more = List.replicate k '"' ++ more ∨
      cs ≠ [] ∧ ∃ d tail, d ≠ '"' ∧
        escaped true 2 run cs ++ more = List.replicate k '"' ++ d :: tail) := by
  induction cs generalizing run with
  | nil => exact ⟨0, few, .inl ⟨rfl, rfl⟩⟩
  | cons c cs ih =>
    rw [escaped]
    split
    · rename_i same
      subst same
      split
      · rename_i free
        have next : run + 1 ≤ 2 := free
        obtain ⟨k, fits, front⟩ := ih next
        refine ⟨k + 1, by omega, front.imp ?_ ?_⟩
        · rintro ⟨only, written⟩
          exact ⟨congrArg _ only, congrArg _ written⟩
        · rintro ⟨_, d, tail, other, written⟩
          exact ⟨List.cons_ne_nil _ _, d, tail, other, congrArg _ written⟩
      · exact ⟨0, few, .inr ⟨List.cons_ne_nil _ _, _, _, by decide, rfl⟩⟩
    · rename_i quote
      obtain ⟨d, tail, lead, other⟩ := standsLead quote (escapedStands true quote)
      exact ⟨0, few, .inr ⟨List.cons_ne_nil _ _, d, _, other, by rw [lead]; rfl⟩⟩

theorem closingEscaped (cs : List Char) {run : Nat} (few : run ≤ 2) {rest : List Char}
    (ended : rest.head? ≠ some '"') :
    closing '"' (escaped true 2 run cs ++ (tripled '"' ++ rest)) = some (cs, rest) ∨
      cs ≠ [] ∧ closing '"' (escaped true 2 run cs ++ (tripled '"' ++ rest)) = none := by
  obtain ⟨k, fits, ⟨only, written⟩ | ⟨filled, d, tail, other, written⟩⟩ :=
    escapedFront cs few (tripled '"' ++ rest)
  · rw [written, closingQuotes (by omega) ended, only]
    exact .inl rfl
  · rw [written, closingShort (by omega) other]
    exact .inr ⟨filled, rfl⟩

theorem linesEscaped (cs : List Char) {fuel : Nat} (room : cs.length < fuel) {run : Nat}
    (few : run ≤ 2) {rest : List Char} (ended : rest.head? ≠ some '"') :
    lines '"' fuel (escaped true 2 run cs ++ (tripled '"' ++ rest)) = some (cs, rest) := by
  induction cs generalizing fuel run with
  | nil =>
    obtain ⟨fuel, rfl⟩ := Nat.exists_eq_add_one.mpr room
    obtain closed | ⟨filled, _⟩ := closingEscaped [] few ended
    · exact linesClosed closed
    · contradiction
  | cons c cs ih =>
    obtain ⟨fuel, rfl⟩ := Nat.exists_eq_add_one_of_ne_zero (Nat.ne_zero_of_lt room)
    have shorter := Nat.lt_of_succ_lt_succ room
    obtain closed | ⟨_, apart⟩ := closingEscaped (c :: cs) few ended
    · exact linesClosed closed
    rw [escaped] at apart ⊢
    split at apart
    · rename_i same
      subst same
      rw [if_pos rfl]
      split at apart
      · rename_i free
        rw [if_pos free]
        exact linesItself apart rfl (by decide) (ih shorter free)
      · rename_i none
        rw [if_neg none]
        exact linesEscape rfl rfl (ih shorter (Nat.zero_le 2))
    · rename_i quote
      rw [if_neg quote]
      have stands := escapedStands true quote
      have later := ih shorter (Nat.zero_le 2)
      generalize escapedChar true c = written at stands apart
      rw [List.append_assoc] at apart ⊢
      cases stands with
      | escape mark back here => exact linesEscape (back _) (here _) later
      | line _ same =>
        subst same
        exact linesBreak apart later
      | itself text backslash => exact linesItself apart text (fun both => backslash both.1) later

/-! ### As it is -/

theorem runLeast (q : Char) (here : Nat) (cs : List Char) : here ≤ longestRun q here cs := by
  induction cs generalizing here with
  | nil => exact le_rfl
  | cons c cs ih =>
    rw [longestRun]
    split
    · exact (Nat.le_succ here).trans (ih _)
    · exact le_max_left _ _

theorem runMono (q : Char) {here more : Nat} (ordered : here ≤ more) (cs : List Char) :
    longestRun q here cs ≤ longestRun q more cs := by
  induction cs generalizing here more with
  | nil => exact ordered
  | cons c cs ih =>
    rw [longestRun, longestRun]
    split
    · exact ih (Nat.succ_le_succ ordered)
    · omega

theorem runTail (q c : Char) (cs : List Char) : longestRun q 0 cs ≤ longestRun q 0 (c :: cs) := by
  rw [longestRun]
  split
  · exact runMono q (Nat.zero_le 1) cs
  · exact le_max_right _ _

theorem runNone {q : Char} {cs : List Char} (none : longestRun q 0 cs = 0) : q ∉ cs := by
  induction cs with
  | nil => exact List.not_mem_nil
  | cons c cs ih =>
    have tail := runTail q c cs
    rw [List.mem_cons, not_or]
    refine ⟨?_, ih (by omega)⟩
    rintro rfl
    have one := runLeast q (0 + 1) cs
    rw [longestRun, if_pos rfl] at none
    omega

theorem runFront (q : Char) (cs : List Char) {here : Nat} (few : longestRun q here cs ≤ 2) :
    ∃ k, here + k ≤ 2 ∧ (cs = List.replicate k q ∨
      ∃ d tail, d ≠ q ∧ cs = List.replicate k q ++ d :: tail) := by
  induction cs generalizing here with
  | nil => exact ⟨0, few, .inl rfl⟩
  | cons c cs ih =>
    rw [longestRun] at few
    split at few
    · rename_i same
      subst same
      obtain ⟨k, fits, front⟩ := ih few
      refine ⟨k + 1, by omega, front.imp (congrArg _) ?_⟩
      rintro ⟨d, tail, other, written⟩
      exact ⟨d, tail, other, congrArg _ written⟩
    · rename_i other
      exact ⟨0, (le_max_left _ _).trans few, .inr ⟨c, cs, other, rfl⟩⟩

theorem linesPlain {q : Char} (quote : q ≠ '"') {cs : List Char}
    (text : ∀ c ∈ cs, c = '\n' ∨ isText c = true) (few : longestRun q 0 cs ≤ 2) {fuel : Nat}
    (room : cs.length < fuel) {rest : List Char} (ended : rest.head? ≠ some q) :
    lines q fuel (cs ++ (tripled q ++ rest)) = some (cs, rest) := by
  induction cs generalizing fuel with
  | nil =>
    obtain ⟨fuel, rfl⟩ := Nat.exists_eq_add_one.mpr room
    exact linesClosed (closingQuotes (Nat.zero_le 2) ended)
  | cons c cs ih =>
    obtain ⟨fuel, rfl⟩ := Nat.exists_eq_add_one_of_ne_zero (Nat.ne_zero_of_lt room)
    obtain ⟨first, others⟩ := List.forall_mem_cons.mp text
    have later := ih others ((runTail q c cs).trans few) (Nat.lt_of_succ_lt_succ room)
    obtain ⟨k, fits, only | ⟨d, tail, other, written⟩⟩ := runFront q (c :: cs) few
    · rw [only]
      exact linesClosed (closingQuotes (by omega) ended)
    · have apart : closing q (c :: cs ++ (tripled q ++ rest)) = none := by
        rw [written, List.append_assoc]
        exact closingShort (by omega) other _
      rcases first with same | itself
      · subst same
        exact linesBreak apart later
      · exact linesItself apart itself (fun both => quote both.2) later

theorem verbatimPlain {q : Char} {cs : List Char} (text : ∀ c ∈ cs, isText c = true)
    (absent : q ∉ cs) (rest : List Char) : verbatim q (cs ++ q :: rest) = some (cs, rest) := by
  induction cs with
  | nil => simp [verbatim]
  | cons c cs ih =>
    obtain ⟨first, others⟩ := List.forall_mem_cons.mp text
    obtain ⟨other, later⟩ := not_or.mp (mt List.mem_cons.mpr absent)
    simp [verbatim, Ne.symm other, first, ih others later]

/-! ### The four forms -/

theorem controlText {c : Char} (plain : isControl c = false) : c = '\n' ∨ isText c = true := by
  by_cases line : c = '\n'
  · exact .inl line
  · by_cases tab : c = '\t'
    · exact .inr (by simp [isText, tab])
    · right
      simp only [isControl, ne_eq, tab, not_false_eq_true, decide_true, Bool.and_true, line,
        Bool.or_eq_false_iff, decide_eq_false_iff_not, not_lt] at plain
      simp only [isText, Bool.or_eq_true, Bool.and_eq_true, decide_eq_true_eq]
      exact .inr plain

theorem noControls {cs : List Char} (none : cs.any isControl = false) :
    ∀ c ∈ cs, c = '\n' ∨ isText c = true :=
  fun c member => controlText (Bool.eq_false_iff.mpr fun control =>
    Bool.false_ne_true (none.symm.trans (List.any_eq_true.mpr ⟨c, member, control⟩)))

theorem chosenLiteral {cs : List Char} (chosen : Form.choose cs = .literal) :
    cs ≠ [] ∧ apostrophe ∉ cs ∧ ∀ c ∈ cs, isText c = true := by
  refine ⟨by rintro rfl; contradiction, ?_⟩
  simp only [Form.choose] at chosen
  split at chosen
  · contradiction
  split at chosen
  · rename_i plain
    simp only [Bool.and_eq_true, Bool.not_eq_true', decide_eq_true_eq] at plain
    obtain ⟨⟨controls, single⟩, broken⟩ := plain
    refine ⟨runNone single, fun c member => (noControls controls c member).resolve_left ?_⟩
    rintro rfl
    simp [member] at broken
  split at chosen
  · contradiction
  split at chosen
  · contradiction
  split at chosen <;> contradiction

theorem chosenLines {cs : List Char} (chosen : Form.choose cs = .literalLines) :
    longestRun apostrophe 0 cs ≤ 2 ∧ ∀ c ∈ cs, c = '\n' ∨ isText c = true := by
  simp only [Form.choose] at chosen
  split at chosen
  · contradiction
  split at chosen
  · contradiction
  split at chosen
  · contradiction
  split at chosen
  · rename_i plain
    simp only [Bool.and_eq_true, Bool.not_eq_true', decide_eq_true_eq] at plain
    exact ⟨plain.2, noControls plain.1⟩
  split at chosen <;> contradiction

theorem stringOneLine {q d : Char} (other : d ≠ q) (more : List Char) :
    string (q :: d :: more) = oneLine (q :: d :: more) := by
  cases more with
  | nil => rfl
  | cons e more => exact if_neg fun same => other same.1.symm

theorem stringEmpty {q : Char} {more : List Char} (ended : more.head? ≠ some q) :
    string (q :: q :: more) = oneLine (q :: q :: more) := by
  cases more with
  | nil => rfl
  | cons e more => exact if_neg fun same => ended (congrArg some same.2.1.symm)

theorem stringLines {q : Char} (delimits : q = '"' ∨ q = apostrophe) (more : List Char) :
    string (tripled q ++ more) = lines q (more.length + 1) (trimmed more) :=
  if_pos ⟨rfl, rfl, delimits⟩

theorem trimmedSame {cs : List Char} (none : newline cs = none) : trimmed cs = cs := by
  rw [trimmed, none, Option.getD_none]

theorem basicBack (cs : List Char) {rest : List Char} (quote : rest.head? ≠ some '"') :
    string ('"' :: (escaped false 0 0 cs ++ ['"']) ++ rest) = some (cs, rest) := by
  have read : oneLine ('"' :: (escaped false 0 0 cs ++ '"' :: rest)) = some (cs, rest) := by
    have room := escapedRoom false 0 0 cs
    exact basicEscaped cs (by rw [List.length_append]; omega) 0 rest
  rw [List.cons_append, List.append_assoc, List.singleton_append, ← read]
  cases cs with
  | nil => exact stringEmpty quote
  | cons c cs =>
    obtain ⟨d, more, lead, other⟩ :
        ∃ d more, escaped false 0 0 (c :: cs) = d :: more ∧ d ≠ '"' := by
      rw [escaped]
      split
      · exact ⟨_, _, rfl, by decide⟩
      · rename_i plain
        obtain ⟨d, more, lead, other⟩ := standsLead plain (escapedStands false plain)
        exact ⟨d, _, by rw [lead]; rfl, other⟩
    rw [lead]
    exact stringOneLine other _

theorem literalBack {cs : List Char} (filled : cs ≠ []) (absent : apostrophe ∉ cs)
    (text : ∀ c ∈ cs, isText c = true) (rest : List Char) :
    string (apostrophe :: (cs ++ [apostrophe]) ++ rest) = some (cs, rest) := by
  obtain ⟨c, tail, rfl⟩ := List.exists_cons_of_ne_nil filled
  have other : c ≠ apostrophe := fun same => absent (same ▸ List.mem_cons_self)
  rw [List.cons_append, List.append_assoc, List.singleton_append, List.cons_append,
    stringOneLine other]
  exact verbatimPlain text absent rest

theorem trimmedOpened {cs written : List Char}
    (plain : '\n' ∉ cs → newline written = none) :
    trimmed ((if cs.contains '\n' then ['\n'] else []) ++ written) = written := by
  by_cases broken : '\n' ∈ cs
  · simp [broken, trimmed, newline]
  · rw [if_neg (by simpa using broken)]
    exact trimmedSame (plain broken)

theorem basicLinesBack (cs : List Char) {rest : List Char} (quote : rest.head? ≠ some '"') :
    string (tripled '"' ++ (if cs.contains '\n' then ['\n'] else []) ++ escaped true 2 0 cs ++
      tripled '"' ++ rest) = some (cs, rest) := by
  have plain : '\n' ∉ cs → newline (escaped true 2 0 cs ++ (tripled '"' ++ rest)) = none := by
    intro unbroken
    cases cs with
    | nil => rfl
    | cons c cs =>
      rw [escaped]
      split
      · rfl
      · rename_i other
        have stands := escapedStands true other
        generalize escapedChar true c = written at stands
        cases stands with
        | escape => rfl
        | line _ same => exact absurd List.mem_cons_self (same ▸ unbroken)
        | itself text => exact newlineText text _
  have room := escapedRoom true 2 0 cs
  simp only [List.append_assoc]
  rw [stringLines (.inl rfl), trimmedOpened plain]
  exact linesEscaped cs (by simp only [List.length_append]; omega) (Nat.zero_le 2) quote

theorem literalLinesBack {cs : List Char} (few : longestRun apostrophe 0 cs ≤ 2)
    (text : ∀ c ∈ cs, c = '\n' ∨ isText c = true) {rest : List Char}
    (single : rest.head? ≠ some apostrophe) :
    string (tripled apostrophe ++ opened cs ++ tripled apostrophe ++ rest) = some (cs, rest) := by
  have plain : '\n' ∉ cs → newline (cs ++ (tripled apostrophe ++ rest)) = none := by
    intro unbroken
    cases cs with
    | nil => rfl
    | cons c cs =>
      refine newlineText ((text c List.mem_cons_self).resolve_left ?_) _
      rintro rfl
      exact unbroken List.mem_cons_self
  have spread : opened cs = (if cs.contains '\n' then ['\n'] else []) ++ cs := by
    unfold opened
    split <;> rfl
  rw [spread]
  simp only [List.append_assoc]
  rw [stringLines (.inr rfl), trimmedOpened plain]
  exact linesPlain (by decide) text few (by simp only [List.length_append]; omega) single

theorem stringBack (cs : List Char) {rest : List Char} (quote : rest.head? ≠ some '"')
    (single : rest.head? ≠ some apostrophe) :
    string (stringChars cs ++ rest) = some (cs, rest) := by
  unfold stringChars
  dsimp only
  split
  · exact basicBack cs quote
  · rename_i chosen
    obtain ⟨filled, absent, text⟩ := chosenLiteral chosen
    exact literalBack filled absent text rest
  · exact basicLinesBack cs quote
  · rename_i chosen
    obtain ⟨few, text⟩ := chosenLines chosen
    exact literalLinesBack few text single

end EvalReport.Toml
