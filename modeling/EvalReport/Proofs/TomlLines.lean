import EvalReport.Proofs.TomlScalars
import Mathlib.Data.List.Forall2

/-! A TOML document of one pair a line is read back: arrays on one line or on several, keys that
need no quotes and differ, and nothing else. -/
namespace EvalReport.Toml

/-! ### Between the items -/

structure Solid (c : Char) : Prop where
  space : c ≠ ' '
  tab : c ≠ '\t'
  line : c ≠ '\n'
  turn : c ≠ '\r'
  comment : c ≠ '#'

structure Leads (c : Char) : Prop extends Solid c where
  array : c ≠ '['
  close : c ≠ ']'
  table : c ≠ '\x7b'

theorem solidPlain {c : Char} (plain : c ∉ [' ', '\t', '\n', '\r', '#']) : Solid c := by
  simp only [List.mem_cons, List.not_mem_nil, or_false, not_or] at plain
  obtain ⟨space, tab, line, turn, comment⟩ := plain
  exact ⟨space, tab, line, turn, comment⟩

theorem leadsPlain {c : Char} (solid : Solid c) (plain : c ∉ ['[', ']', '\x7b']) : Leads c := by
  simp only [List.mem_cons, List.not_mem_nil, or_false, not_or] at plain
  obtain ⟨array, close, table⟩ := plain
  exact ⟨solid, array, close, table⟩

theorem skipSpacesSolid {c : Char} (solid : Solid c) (cs : List Char) :
    skipSpaces (c :: cs) = c :: cs := by
  refine List.dropWhile_cons_of_neg ?_
  simp [isSpace, solid.space, solid.tab]

theorem skipCommentSolid {c : Char} (solid : Solid c) (cs : List Char) :
    skipComment (c :: cs) = c :: cs := by
  unfold skipComment
  split
  · rename_i same
    exact absurd (List.cons.inj same).1 solid.comment
  · rfl

theorem newlineSolid {c : Char} (solid : Solid c) (cs : List Char) :
    newline (skipComment (c :: cs)) = none := by
  rw [skipCommentSolid solid]
  unfold newline
  split
  · rename_i same
    exact absurd (List.cons.inj same).1 solid.line
  · rename_i same
    exact absurd (List.cons.inj same).1 solid.turn
  · rfl

theorem lineTailSolid {c : Char} (solid : Solid c) (cs : List Char) :
    lineTail (c :: cs) = none := by
  have ends := newlineSolid solid cs
  rw [skipCommentSolid solid] at ends
  rw [lineTail, skipSpacesSolid solid, skipCommentSolid solid]
  exact ends

theorem skipLinesSolid {c : Char} (solid : Solid c) (cs : List Char) (fuel : Nat) :
    skipLines fuel (c :: cs) = c :: cs := by
  cases fuel with
  | zero => rfl
  | succ fuel =>
    rw [skipLines, skipSpacesSolid solid]
    rw [newlineSolid solid]

theorem skipSpacesIndent (n : Nat) {c : Char} (solid : Solid c) (cs : List Char) :
    skipSpaces (List.replicate n ' ' ++ c :: cs) = c :: cs := by
  rw [skipSpaces, List.dropWhile_append_of_pos]
  · exact skipSpacesSolid solid cs
  · intro d member
    rw [(List.mem_replicate.mp member).2]
    rfl

theorem skipLinesIndent (n : Nat) {c : Char} (solid : Solid c) (cs : List Char) {fuel : Nat}
    (two : 2 ≤ fuel) : skipLines fuel ('\n' :: (List.replicate n ' ' ++ c :: cs)) = c :: cs := by
  obtain ⟨fuel, rfl⟩ := Nat.exists_eq_add_of_le' two
  have indented : skipLines (fuel + 1) (List.replicate n ' ' ++ c :: cs) = c :: cs := by
    rw [skipLines, skipSpacesIndent n solid]
    rw [newlineSolid solid]
  exact indented

/-! ### Arrays -/

structure Back (v : Value) (d : Document) : Prop where
  lead : ∃ c more, v.chars = c :: more ∧ Leads c
  scalar : ScalarBack v d

theorem valueScalar {c : Char} (leads : Leads c) (cs : List Char) (fuel depth : Nat) :
    value (fuel + 1) depth (c :: cs) = scalar (c :: cs) := by
  rw [value]
  · rintro _ same
    exact leads.array (List.cons.inj same).1
  · rintro _ same
    exact leads.table (List.cons.inj same).1

theorem Back.value {v : Value} {d : Document} (back : Back v d) {rest : List Char}
    (follows : Follows rest) (fuel depth : Nat) :
    Toml.value (fuel + 1) depth (v.chars ++ rest) = some (d, rest) := by
  obtain ⟨c, more, same, leads⟩ := back.lead
  have read := back.scalar rest follows
  rw [same, List.cons_append] at read ⊢
  rw [valueScalar leads, read]

def afterItem (fuel depth : Nat) (cs : List Char) : Option (List Document × List Char) :=
  match skipLines cs.length cs with
  | ']' :: rest => some ([], rest)
  | ',' :: rest => items fuel depth (skipLines rest.length rest)
  | _ => none

theorem itemsStep {v : Value} {d : Document} (back : Back v d) {rest left : List Char}
    (follows : Follows rest) {fuel depth : Nat} {ds : List Document}
    (after : afterItem (fuel + 1) depth rest = some (ds, left)) :
    items (fuel + 2) depth (v.chars ++ rest) = some (d :: ds, left) := by
  have read := back.value follows fuel depth
  obtain ⟨c, more, same, leads⟩ := back.lead
  rw [same, List.cons_append] at read ⊢
  rw [items]
  · unfold afterItem at after
    split at after
    · rename_i closed
      cases Option.some.inj after
      simp [read, closed]
    · rename_i further
      simp [read, further, after]
    · contradiction
  · rintro _ same
    exact leads.close (List.cons.inj same).1

def itemLines (vs : List Value) : List Char :=
  vs.flatMap fun v => List.replicate 4 ' ' ++ v.chars ++ [',', '\n']

theorem bracketSolid : Solid ']' := solidPlain (by decide)

theorem commaSolid : Solid ',' := solidPlain (by decide)

theorem itemsLines {vs : List Value} {ds : List Document} (back : List.Forall₂ Back vs ds)
    {fuel : Nat} (room : vs.length < fuel) (depth : Nat) (rest : List Char) {skips : Nat}
    (two : 2 ≤ skips) :
    items fuel depth (skipLines skips ('\n' :: (itemLines vs ++ ']' :: rest))) =
      some (ds, rest) := by
  induction back generalizing fuel skips with
  | nil =>
    obtain ⟨fuel, rfl⟩ := Nat.exists_eq_add_one.mpr room
    have bracket := skipLinesIndent 0 bracketSolid rest two
    rw [show itemLines [] ++ ']' :: rest = List.replicate 0 ' ' ++ ']' :: rest from rfl, bracket]
    rfl
  | @cons v d vs ds first _ ih =>
    simp only [List.length_cons] at room
    obtain ⟨fuel, rfl⟩ := Nat.exists_eq_add_of_le' (by omega : 2 ≤ fuel)
    obtain ⟨c, more, same, leads⟩ := first.lead
    have behind : items (fuel + 1) depth
        (skipLines ('\n' :: (itemLines vs ++ ']' :: rest)).length
          ('\n' :: (itemLines vs ++ ']' :: rest))) = some (ds, rest) := by
      apply ih (by omega)
      simp only [List.length_cons, List.length_append]
      omega
    have after : afterItem (fuel + 1) depth (',' :: '\n' :: (itemLines vs ++ ']' :: rest)) =
        some (ds, rest) := by
      rw [afterItem, skipLinesSolid commaSolid]
      exact behind
    have all := itemsStep first ⟨_, _, rfl, .inl rfl⟩ after
    have front : itemLines (v :: vs) ++ ']' :: rest =
        List.replicate 4 ' ' ++ c :: (more ++ ',' :: '\n' :: (itemLines vs ++ ']' :: rest)) := by
      simp [itemLines, same]
    rw [front, skipLinesIndent 4 leads.toSolid _ two, ← List.cons_append, ← same]
    exact all

theorem arrayOpened {cs : List Char} {fuel depth : Nat} (deep : 2 ≤ depth) :
    value (fuel + 1) depth ('[' :: cs) =
      (items fuel (depth - 1) (skipLines cs.length cs)).map fun e => (.list e.1, e.2) := by
  rw [value, if_neg (by omega)]

theorem arrayBack {vs : List Value} {ds : List Document} (back : List.Forall₂ Back vs ds)
    {fuel : Nat} (room : vs.length + 2 ≤ fuel) {depth : Nat} (deep : 2 ≤ depth)
    (rest : List Char) :
    value fuel depth (arrayChars vs ++ rest) = some (.list ds, rest) := by
  match vs, back with
  | [], .nil =>
    obtain ⟨fuel, rfl⟩ := Nat.exists_eq_add_of_le' room
    have text : arrayChars [] ++ rest = '[' :: ']' :: rest := rfl
    show value (fuel + 1 + 1) depth _ = _
    rw [text, arrayOpened deep, skipLinesSolid bracketSolid]
    rfl
  | [v], .cons first .nil =>
    obtain ⟨fuel, rfl⟩ := Nat.exists_eq_add_of_le' room
    have after : afterItem (fuel + 1) (depth - 1) (']' :: rest) = some ([], rest) := by
      rw [afterItem, skipLinesSolid bracketSolid]
      rfl
    have read := itemsStep first ⟨_, _, rfl, .inr (.inr rfl)⟩ after
    obtain ⟨c, more, same, leads⟩ := first.lead
    have text : arrayChars [v] ++ rest = '[' :: c :: (more ++ ']' :: rest) := by
      simp [arrayChars, same]
    rw [same, List.cons_append] at read
    rw [text]
    show value (fuel + 2 + 1) depth _ = _
    rw [arrayOpened deep, skipLinesSolid leads.toSolid, read]
    rfl
  | v :: w :: vs, back =>
    obtain ⟨fuel, rfl⟩ := Nat.exists_eq_add_of_le' (by omega : 1 ≤ fuel)
    have read : items fuel (depth - 1)
        (skipLines ('\n' :: (itemLines (v :: w :: vs) ++ ']' :: rest)).length
          ('\n' :: (itemLines (v :: w :: vs) ++ ']' :: rest))) = some (ds, rest) := by
      apply itemsLines back (by omega)
      simp only [List.length_cons, List.length_append]
      omega
    have text : arrayChars (v :: w :: vs) ++ rest =
        '[' :: '\n' :: (itemLines (v :: w :: vs) ++ ']' :: rest) := by
      simp [arrayChars, itemLines]
    rw [text, arrayOpened deep, read]
    rfl

theorem arrayRoom {vs : List Value} {ds : List Document} (back : List.Forall₂ Back vs ds) :
    vs.length + 2 ≤ (arrayChars vs).length := by
  match vs, back with
  | [], _ => exact Nat.le_refl _
  | [v], .cons first .nil =>
    obtain ⟨c, more, same, _⟩ := first.lead
    simp [arrayChars, same]
  | v :: w :: vs, _ =>
    have lines (us : List Value) : us.length ≤ (itemLines us).length := by
      induction us with
      | nil => exact Nat.zero_le _
      | cons u us ih =>
        simp only [itemLines, List.flatMap_cons, List.length_append, List.length_cons] at ih ⊢
        omega
    have several := lines (v :: w :: vs)
    simp only [arrayChars, List.length_append, List.length_cons, List.length_nil]
    simp only [itemLines, List.length_cons] at several
    omega

/-! ### Values -/

theorem quoteLeads {c : Char} (quote : c = '"' ∨ c = apostrophe) : Leads c := by
  rcases quote with rfl | rfl
  · exact leadsPlain (solidPlain (by decide)) (by decide)
  · exact leadsPlain (solidPlain (by decide)) (by decide)

theorem numericLeads {c : Char} (numeric : Numeric c) : Leads c := by
  have other (d : Char) (minus : d ≠ '-') (plus : d ≠ '+') (digit : Decimal.isDigit d = false) :
      c ≠ d := numericOther numeric minus plus digit
  refine ⟨⟨?_, ?_, ?_, ?_, ?_⟩, ?_, ?_, ?_⟩
  all_goals exact other _ (by decide) (by decide) rfl

theorem backText (s : String) : Back (.string s) (.text (some s)) := by
  obtain ⟨c, more, lead, quote⟩ := stringLead s.toList
  exact ⟨⟨c, more, lead, quoteLeads quote⟩, textBack s⟩

theorem backFlag (b : Bool) : Back (.boolean b) (.flag b) := by
  refine ⟨?_, flagBack b⟩
  cases b with
  | false => exact ⟨_, _, rfl, leadsPlain (solidPlain (by decide)) (by decide)⟩
  | true => exact ⟨_, _, rfl, leadsPlain (solidPlain (by decide)) (by decide)⟩

theorem backCount {n : Nat} (fits : n < 0x8000000000000000) :
    Back (.integer n) (.number (some (.integer n))) := by
  have text : (Value.integer n).chars = Decimal.digits n := Decimal.signedCount n
  obtain ⟨c, more, lead⟩ := List.exists_cons_of_ne_nil (Decimal.digitsSome n)
  have digit := Decimal.digitsAll n c (lead ▸ List.mem_cons_self)
  exact ⟨⟨c, more, text.trans lead, numericLeads (.inr (.inr digit))⟩, countBack fits⟩

theorem backFloat {x : Float}
    (back : decimalFloat (Value.float x).chars = some (.number (some (.real x)), [])) :
    Back (.float x) (.number (some (.real x))) := by
  obtain ⟨c, more, lead, numeric, _⟩ := decimalFloatNoDate back
  exact ⟨⟨c, more, lead, numericLeads numeric⟩, floatBack back⟩

/-! ### Lines -/

structure Written (written : List Char) (d : Document) : Prop where
  lead : ∃ c more, written = c :: more ∧ Solid c
  back : ∀ rest fuel, Follows rest → written.length ≤ fuel →
    value fuel depthLimit (written ++ rest) = some (d, rest)

theorem Back.written {v : Value} {d : Document} (back : Back v d) : Written v.chars d := by
  obtain ⟨c, more, same, leads⟩ := back.lead
  refine ⟨⟨c, more, same, leads.toSolid⟩, ?_⟩
  intro rest fuel follows room
  rw [same, List.length_cons] at room
  obtain ⟨fuel, rfl⟩ := Nat.exists_eq_add_of_le' (Nat.le_of_add_left_le room)
  exact back.value follows fuel depthLimit

theorem arrayWritten {vs : List Value} {ds : List Document} (back : List.Forall₂ Back vs ds) :
    Written (arrayChars vs) (.list ds) := by
  constructor
  · have opening : Solid '[' := solidPlain (by decide)
    unfold arrayChars
    split
    · exact ⟨_, _, rfl, opening⟩
    · exact ⟨_, _, rfl, opening⟩
    · exact ⟨_, _, rfl, opening⟩
  · intro rest fuel _ room
    exact arrayBack back ((arrayRoom back).trans room) (by decide) rest

structure Line where
  key : String
  written : List Char
  means : Document

structure Line.Plain (l : Line) : Prop where
  filled : l.key.toList ≠ []
  bare : ∀ c ∈ l.key.toList, isBareKey c = true
  value : Written l.written l.means

theorem bareSolid {c : Char} (bare : isBareKey c = true) : Solid c ∧ c ≠ '[' := by
  have other (d : Char) (refused : isBareKey d = false) : c ≠ d := by
    rintro rfl
    rw [refused] at bare
    contradiction
  exact ⟨⟨other _ rfl, other _ rfl, other _ rfl, other _ rfl, other _ rfl⟩, other _ rfl⟩

theorem simpleKeyBare {cs : List Char} (filled : cs ≠ []) (bare : ∀ c ∈ cs, isBareKey c = true)
    {c : Char} (stops : isBareKey c = false) (rest : List Char) :
    simpleKey (cs ++ c :: rest) = some (String.ofList cs, c :: rest) := by
  have behind : ∀ d ∈ (c :: rest).head?, isBareKey d = false := by
    rintro d same
    cases Option.some.inj same
    exact stops
  obtain ⟨taken, left⟩ := takeWhileThrough bare behind
  unfold simpleKey
  rw [taken, left]
  cases cs with
  | nil => contradiction
  | cons d cs => rfl

theorem dottedKeyBare {key : String} (filled : key.toList ≠ [])
    (bare : ∀ c ∈ key.toList, isBareKey c = true) (rest : List Char) :
    dottedKey (key.toList ++ ' ' :: '=' :: rest) = some ([], key, '=' :: rest) := by
  have simple := simpleKeyBare filled bare (by decide : isBareKey ' ' = false) ('=' :: rest)
  rw [String.ofList_toList] at simple
  have start : skipSpaces (key.toList ++ ' ' :: '=' :: rest) =
      key.toList ++ ' ' :: '=' :: rest := by
    obtain ⟨c, more, lead⟩ := List.exists_cons_of_ne_nil filled
    rw [lead, List.cons_append]
    exact skipSpacesSolid (bareSolid (bare c (lead ▸ List.mem_cons_self))).1 _
  have parts : dottedParts (depthLimit - 1) (key.toList ++ ' ' :: '=' :: rest) =
      some ([key], '=' :: rest) := by
    show dottedParts (78 + 1) _ = _
    rw [dottedParts, start, simple]
    rfl
  rw [dottedKey, parts]
  rfl

theorem enterNew {key : String} {ms : Members} (new : ms.lookup key = none) (d : Document) :
    enterAt [] [] key d ms = some (ms ++ [(key, .value d)]) := by
  simp [enterAt, within, enter, new]

theorem Line.text (l : Line) (rest : List Char) : pairChars l.key l.written ++ rest =
    l.key.toList ++ ' ' :: '=' :: (' ' :: (l.written ++ '\n' :: rest)) := by
  simp [pairChars]

theorem Line.Plain.keyValue {l : Line} (plain : l.Plain) {ms : Members}
    (new : ms.lookup l.key = none) (rest : List Char) :
    Toml.keyValue ⟨[], ms⟩ (pairChars l.key l.written ++ rest) =
      some (⟨[], ms ++ [(l.key, .value l.means)]⟩, '\n' :: rest) := by
  obtain ⟨c, more, same, solid⟩ := plain.value.lead
  have blank : skipSpaces (' ' :: (l.written ++ '\n' :: rest)) = l.written ++ '\n' :: rest := by
    rw [same, List.cons_append]
    exact skipSpacesIndent 1 solid _
  have room : l.written.length ≤ 2 * (pairChars l.key l.written ++ rest).length + 2 := by
    simp only [pairChars, List.length_append]
    omega
  have read := plain.value.back _ _ ⟨'\n', rest, rfl, .inr (.inl rfl)⟩ room
  rw [Toml.keyValue]
  generalize 2 * (pairChars l.key l.written ++ rest).length + 2 = fuel at read ⊢
  rw [l.text, dottedKeyBare plain.filled plain.bare]
  simp [mark, blank, read, enterNew new]

theorem documentStep {l : Line} (plain : l.Plain) {ms : Members}
    (new : ms.lookup l.key = none) (fuel : Nat) (rest : List Char) :
    document (fuel + 1) ⟨[], ms⟩ (pairChars l.key l.written ++ rest) =
      document fuel ⟨[], ms ++ [(l.key, .value l.means)]⟩ rest := by
  have entered := plain.keyValue new rest
  obtain ⟨c, more, lead⟩ := List.exists_cons_of_ne_nil plain.filled
  obtain ⟨solid, bracket⟩ := bareSolid (plain.bare c (lead ▸ List.mem_cons_self))
  have text : pairChars l.key l.written ++ rest =
      c :: (more ++ ' ' :: '=' :: (' ' :: (l.written ++ '\n' :: rest))) := by
    rw [l.text, lead, List.cons_append]
  rw [text] at entered ⊢
  rw [document, skipSpacesSolid solid]
  split
  · contradiction
  · rename_i same
    exact absurd (List.cons.inj same).1 bracket
  · rw [lineTailSolid solid, entered]
    rfl

/- The lines are read in order, each behind the members found so far. -/
theorem documentLines {ls : List Line} (plain : ∀ l ∈ ls, l.Plain) {ms : Members}
    (distinct : (ms.map (·.1) ++ ls.map (·.key)).Nodup) {fuel : Nat} (room : ls.length < fuel) :
    document fuel ⟨[], ms⟩ (ls.flatMap fun l => pairChars l.key l.written) =
      some (ms ++ ls.map fun l => (l.key, .value l.means)) := by
  obtain ⟨fuel, rfl⟩ := Nat.exists_eq_add_one.mpr (Nat.zero_lt_of_lt room)
  induction ls generalizing ms fuel with
  | nil => simp [document, skipSpaces]
  | cons l ls ih =>
    obtain ⟨first, later⟩ := List.forall_mem_cons.mp plain
    simp only [List.length_cons] at room
    obtain ⟨fuel, rfl⟩ := Nat.exists_eq_add_of_le' (by omega : 1 ≤ fuel)
    have new : ms.lookup l.key = none := by
      rw [List.lookup_eq_none_iff]
      intro m member
      have apart := (List.nodup_append.mp distinct).2.2 m.1 (List.mem_map_of_mem member) l.key
        List.mem_cons_self
      simpa using apart.symm
    have distinct' : ((ms ++ [(l.key, Item.value l.means)]).map (·.1) ++ ls.map (·.key)).Nodup := by
      simpa using distinct
    have behind := ih later distinct' fuel (by omega)
    rw [List.flatMap_cons, documentStep first new, behind, List.map_cons, List.append_assoc]
    rfl

theorem memberValues (ls : List Line) :
    memberDocuments (ls.map fun l => (l.key, .value l.means)) =
      ls.map fun l => (some l.key, l.means) := by
  induction ls with
  | nil => rfl
  | cons l ls ih => simp [memberDocuments, Item.document, ih]

theorem lineRoom (ls : List Line) :
    ls.length ≤ (ls.flatMap fun l => pairChars l.key l.written).length := by
  induction ls with
  | nil => exact Nat.zero_le _
  | cons l ls ih =>
    have line : 1 ≤ (pairChars l.key l.written).length := by
      simp only [pairChars, List.length_append, List.length_singleton]
      omega
    simp only [List.flatMap_cons, List.length_append, List.length_cons]
    omega

theorem readLines {ls : List Line} (plain : ∀ l ∈ ls, l.Plain) (distinct : (ls.map (·.key)).Nodup) :
    read (String.ofList (ls.flatMap fun l => pairChars l.key l.written)) =
      some (.record (ls.map fun l => (some l.key, l.means))) := by
  have lines : document ((ls.flatMap fun l => pairChars l.key l.written).length + 1) ⟨[], []⟩
      (ls.flatMap fun l => pairChars l.key l.written) =
        some ([] ++ ls.map fun l => (l.key, .value l.means)) :=
    documentLines plain (by simpa using distinct) (Nat.lt_add_one_of_le (lineRoom ls))
  have unmarked : ∀ rest, (ls.flatMap fun l => pairChars l.key l.written) ≠ '\ufeff' :: rest := by
    cases ls with
    | nil => simp
    | cons l ls =>
      obtain ⟨filled, bare, _⟩ := plain l List.mem_cons_self
      obtain ⟨c, more, lead⟩ := List.exists_cons_of_ne_nil filled
      intro rest same
      have bom := bare c (lead ▸ List.mem_cons_self)
      simp only [List.flatMap_cons, pairChars, lead, List.cons_append, List.cons.injEq] at same
      rw [same.1] at bom
      contradiction
  rw [read, String.toList_ofList, readChars]
  · rw [lines, Option.map_some, List.nil_append, memberValues]
  · exact unmarked

end EvalReport.Toml
