import EvalReport.Proofs.JsonNumbers

/-! JSON text read back. Whatever characters its strings are made of, and in either written form, a
value is read as a tree that says the same. -/
namespace EvalReport

namespace Json

/-! ### Strings -/

theorem hexValueDigit {d : Nat} (below : d < 16) : hexValue (Text.hexDigit d) = some d := by
  revert d
  decide

theorem controlPiece {c : Char} (control : c.toNat < 0x20) (rest : List Char) :
    piece ('\\' :: 'u' :: (Text.hexPadded 4 c.toNat ++ rest)) = some (.char c, rest) := by
  have quad : hexQuad '0' '0' (Text.hexDigit (c.toNat / 16)) (Text.hexDigit (c.toNat % 16)) =
      some c.toNat := by
    rw [hexQuad, hexValueDigit (by omega), hexValueDigit (by omega)]
    change some (((0 * 16 + 0) * 16 + c.toNat / 16) * 16 + c.toNat % 16) = _
    rw [Option.some.injEq]
    omega
  have whole : (isHighHalf c.toNat || isLowHalf c.toNat) = false := by
    simp only [isHighHalf, isLowHalf, Bool.or_eq_false_iff, Bool.and_eq_false_iff,
      decide_eq_false_iff_not]
    omega
  rw [Text.hexPaddedByte (by omega)]
  simp only [List.cons_append, List.nil_append, piece, quad, Option.bind_eq_bind,
    Option.bind_some, whole, Bool.false_eq_true, if_false, Char.ofNat_toNat]

theorem plainPiece {c : Char} (quote : c ≠ '"') (backslash : c ≠ '\\')
    (plain : ¬ c.toNat < 0x20) (rest : List Char) : piece (c :: rest) = some (.char c, rest) := by
  unfold piece
  split
  · rename_i same
    exact absurd (List.cons.inj same).1 quote
  · rename_i same
    exact absurd (List.cons.inj same).1 backslash
  · rename_i same
    exact absurd (List.cons.inj same).1 backslash
  · rename_i same
    obtain ⟨rfl, rfl⟩ := List.cons.inj same
    exact if_neg plain
  · contradiction

theorem pieceEscaped (c : Char) (rest : List Char) :
    piece (escapedChar c ++ rest) = some (.char c, rest) := by
  unfold escapedChar
  split
  case h_8 quote backslash _ _ _ _ _ =>
    split
    · rename_i control
      exact controlPiece control rest
    · rename_i plain
      exact plainPiece quote backslash plain rest
  all_goals rfl

theorem escapedRoom (cs : List Char) : cs.length ≤ (cs.flatMap escapedChar).length := by
  induction cs with
  | nil => exact le_rfl
  | cons c cs ih =>
    have one : 1 ≤ (escapedChar c).length := by
      unfold escapedChar
      split
      case h_8 => split <;> simp
      all_goals decide
    rw [List.length_cons, List.flatMap_cons, List.length_append]
    omega

theorem bodyEscaped (cs : List Char) {fuel : Nat} (room : cs.length < fuel) (rest : List Char) :
    body fuel none (cs.flatMap escapedChar ++ '"' :: rest) = some (some cs, rest) := by
  induction cs generalizing fuel with
  | nil =>
    obtain ⟨fuel, rfl⟩ := Nat.exists_eq_add_one.mpr room
    rfl
  | cons c cs ih =>
    obtain ⟨fuel, rfl⟩ := Nat.exists_eq_add_one_of_ne_zero (Nat.ne_zero_of_lt room)
    have later := ih (Nat.lt_of_succ_lt_succ room)
    rw [List.flatMap_cons, List.append_assoc, body, pieceEscaped]
    simp only [Option.bind_eq_bind, Option.bind_some, later, Option.map_some]

/-! ### Values -/

mutual

inductive ReadAs : Json → Document → Prop
  | null : ReadAs .null .null
  | bool (b : Bool) : ReadAs (.bool b) (.flag b)
  | number {n : Number} {d : Document} (read : n.ReadAs d) : ReadAs (.number n) d
  | string (s : String) : ReadAs (.string s) (.text (some s))
  | array {items : List Json} {ds : List Document} (read : List.Forall₂ ReadAs items ds) :
    ReadAs (.array items) (.list ds)
  | object {members : List (String × Json)} {ds : List (Option String × Document)}
    (read : List.Forall₂ MemberReadAs members ds) : ReadAs (.object members) (.record ds)

inductive MemberReadAs : String × Json → Option String × Document → Prop
  | named {key : String} {j : Json} {d : Document} (read : ReadAs j d) :
    MemberReadAs (key, j) (some key, d)

end

def Spells (text : String) (j : Json) : Prop := ∃ d, read text = some d ∧ j.ReadAs d

mutual

def NumbersBack : Json → Prop
  | .number n => n.ReadsBack
  | .array items => ItemsBack items
  | .object members => MembersBack members
  | _ => True

def ItemsBack : List Json → Prop
  | [] => True
  | x :: xs => NumbersBack x ∧ ItemsBack xs

def MembersBack : List (String × Json) → Prop
  | [] => True
  | (_, x) :: xs => NumbersBack x ∧ MembersBack xs

end

mutual

theorem ofJsonRead (j : Json) {d : Document} (back : NumbersBack j) (read : j.ReadAs d) :
    d = .ofJson j := by
  cases read with
  | null => rfl
  | bool b => rfl
  | string s => rfl
  | number read => exact read.back back
  | array read => rw [ofJsonItemsRead _ back read, Document.ofJson]
  | object read => rw [ofJsonMembersRead _ back read, Document.ofJson]
termination_by structural j

theorem ofJsonItemsRead (xs : List Json) {ds : List Document} (back : ItemsBack xs)
    (read : List.Forall₂ ReadAs xs ds) : ds = Document.ofJsonItems xs := by
  cases read with
  | nil => rfl
  | cons head tail =>
    rw [ofJsonRead _ back.1 head, ofJsonItemsRead _ back.2 tail, Document.ofJsonItems]
termination_by structural xs

theorem ofJsonMembersRead (xs : List (String × Json)) {ds : List (Option String × Document)}
    (back : MembersBack xs) (read : List.Forall₂ MemberReadAs xs ds) :
    ds = Document.ofJsonMembers xs := by
  cases read with
  | nil => rfl
  | cons head tail =>
    cases head with
    | named head =>
      rw [ofJsonRead _ back.1 head, ofJsonMembersRead _ back.2 tail, Document.ofJsonMembers]
termination_by structural xs

end

/-! ### Blanks -/

structure Spacing.Blank (s : Spacing) : Prop where
  line : ∀ depth, ∀ c ∈ s.line depth, isBlank c = true
  value : ∀ c ∈ s.value, isBlank c = true

theorem packedBlank : Spacing.packed.Blank := ⟨fun _ => nofun, nofun⟩

theorem spreadBlank : Spacing.spread.Blank := by
  constructor
  · intro depth c member
    rcases List.mem_cons.mp member with rfl | later
    · rfl
    · rw [(List.mem_replicate.mp later).2]
      rfl
  · intro c member
    rw [List.mem_singleton.mp member]
    rfl

theorem skipAll {blanks : List Char} (blank : ∀ c ∈ blanks, isBlank c = true) (cs : List Char) :
    skipBlanks (blanks ++ cs) = skipBlanks cs :=
  List.dropWhile_append_of_pos blank

theorem skipNone {c : Char} (solid : isBlank c = false) (cs : List Char) :
    skipBlanks (c :: cs) = c :: cs :=
  List.dropWhile_cons_of_neg (by simp [solid])

section Skip

variable {blanks : List Char} (blank : ∀ c ∈ blanks, isBlank c = true)
include blank

theorem valueSkip (fuel : Nat) (cs : List Char) : value fuel (blanks ++ cs) = value fuel cs := by
  cases fuel with
  | zero => rfl
  | succ fuel => rw [value, value, skipAll blank]

theorem itemsSkip (fuel : Nat) (cs : List Char) : items fuel (blanks ++ cs) = items fuel cs := by
  cases fuel with
  | zero => rfl
  | succ fuel => rw [items, items, valueSkip blank]

theorem membersSkip (fuel : Nat) (cs : List Char) :
    members fuel (blanks ++ cs) = members fuel cs := by
  cases fuel with
  | zero => rfl
  | succ fuel => rw [members, members, skipAll blank]

end Skip

/-! ### Reading what is written -/

theorem valueList {fuel : Nat} {c : Char} {cs tail left : List Char} {xs : List Document}
    (begins : skipBlanks cs = c :: tail) (other : c ≠ ']')
    (read : items fuel (c :: tail) = some (xs, left)) :
    value (fuel + 1) ('[' :: cs) = some (.list xs, left) := by
  simp [value, skipNone (c := '[') rfl, begins, other, read]

theorem valueRecord {fuel : Nat} {c : Char} {cs tail left : List Char}
    {xs : List (Option String × Document)} (begins : skipBlanks cs = c :: tail)
    (other : c ≠ '\x7d') (read : members fuel (c :: tail) = some (xs, left)) :
    value (fuel + 1) ('\x7b' :: cs) = some (.record xs, left) := by
  simp [value, skipNone (c := '\x7b') rfl, begins, other, read]

theorem leadOther {c d : Char} (lead : c = '-' ∨ Decimal.isDigit c = true) (minus : d ≠ '-')
    (digit : Decimal.isDigit d = false) : c ≠ d := by
  rintro rfl
  rcases lead with same | numeral
  · exact minus same
  · rw [digit] at numeral
    contradiction

theorem leadSolid {c : Char} (lead : c = '-' ∨ Decimal.isDigit c = true) :
    isBlank c = false := by
  have other (d : Char) (minus : d ≠ '-') (digit : Decimal.isDigit d = false) : (c == d) = false :=
    beq_eq_false_iff_ne.mpr (leadOther lead minus digit)
  rw [isBlank, other ' ' (by decide) rfl, other '\n' (by decide) rfl, other '\t' (by decide) rfl,
    other '\r' (by decide) rfl]
  rfl

theorem valueLiteral {cs rest : List Char} {l : Literal} (read : literal cs = some (l, rest))
    (fuel : Nat) : value (fuel + 1) cs = some (.number l.value, rest) := by
  obtain ⟨c, tail, rfl, lead⟩ := literalLead read
  have other {d : Char} {more : List Char} (same : c :: tail = d :: more) (minus : d ≠ '-')
      (digit : Decimal.isDigit d = false) : False :=
    leadOther lead minus digit (List.cons.inj same).1
  rw [value, skipNone (leadSolid lead)]
  split
  case h_7 =>
    rw [read]
    rfl
  all_goals
    rename_i same
    exact (other same (by decide) rfl).elim

theorem valueNumber {n : Number} {d : Document} (read : n.ReadAs d) {rest : List Char}
    (ends : Ends rest) (fuel : Nat) : value (fuel + 1) (n.chars ++ rest) = some (d, rest) := by
  cases read with
  | finite l text =>
    exact valueLiteral (literalScans.more text fun _ => ends) fuel
  | other none text =>
    rw [text]
    rfl

theorem numberLead (n : Number) : ∃ c cs, n.chars = c :: cs ∧ isBlank c = false ∧ c ≠ ']' := by
  obtain ⟨d, read⟩ := numberReadAs n
  cases read with
  | finite l text =>
    obtain ⟨c, rest, same, lead⟩ := literalLead text
    exact ⟨c, rest, same, leadSolid lead, leadOther lead (by decide) rfl⟩
  | other none text => exact ⟨_, _, text, rfl, by decide⟩

theorem valueLead (s : Spacing) (depth : Nat) (j : Json) :
    ∃ c cs, chars s depth j = c :: cs ∧ isBlank c = false ∧ c ≠ ']' := by
  cases j with
  | null => exact ⟨_, _, rfl, rfl, by decide⟩
  | bool b => cases b <;> exact ⟨_, _, rfl, rfl, by decide⟩
  | number n => exact numberLead n
  | string t => exact ⟨_, _, rfl, rfl, by decide⟩
  | array items => cases items <;> exact ⟨_, _, rfl, rfl, by decide⟩
  | object members => rcases members with _ | ⟨⟨key, x⟩, rest⟩ <;> exact ⟨_, _, rfl, rfl, by decide⟩

def afterItem (fuel : Nat) (cs : List Char) : Option (List Document × List Char) :=
  match skipBlanks cs with
  | ']' :: rest => some ([], rest)
  | ',' :: rest => items fuel rest
  | _ => none

def afterMember (fuel : Nat) (cs : List Char) :
    Option (List (Option String × Document) × List Char) :=
  match skipBlanks cs with
  | '\x7d' :: rest => some ([], rest)
  | ',' :: rest => members fuel rest
  | _ => none

theorem itemsStep {fuel : Nat} {cs rest left : List Char} {x : Document} {xs : List Document}
    (read : value fuel cs = some (x, rest)) (after : afterItem fuel rest = some (xs, left)) :
    items (fuel + 1) cs = some (x :: xs, left) := by
  unfold afterItem at after
  split at after
  · rename_i closed
    cases Option.some.inj after
    simp [items, read, closed]
  · rename_i further
    simp [items, read, further, after]
  · contradiction

theorem membersStep {fuel : Nat} {blanks cs rest left : List Char} {x : Document}
    {xs : List (Option String × Document)} (key : String) (room : key.toList.length < fuel)
    (blank : ∀ c ∈ blanks, isBlank c = true)
    (read : value fuel cs = some (x, rest)) (after : afterMember fuel rest = some (xs, left)) :
    members (fuel + 1) (stringChars key ++ ':' :: (blanks ++ cs)) =
      some ((some key, x) :: xs, left) := by
  have name : stringBody fuel (key.toList.flatMap escapedChar ++ '"' :: ':' :: (blanks ++ cs)) =
      some (some key, ':' :: (blanks ++ cs)) := by
    simp [stringBody, bodyEscaped key.toList room]
  have held : value fuel (blanks ++ cs) = some (x, rest) := by rw [valueSkip blank, read]
  have quote : skipBlanks (stringChars key ++ ':' :: (blanks ++ cs)) =
      '"' :: (key.toList.flatMap escapedChar ++ '"' :: ':' :: (blanks ++ cs)) := by
    rw [stringChars, List.cons_append, skipNone rfl, List.append_assoc, List.singleton_append]
  have colon : skipBlanks (':' :: (blanks ++ cs)) = ':' :: (blanks ++ cs) := skipNone rfl _
  unfold afterMember at after
  split at after
  · rename_i closed
    cases Option.some.inj after
    simp [members, quote, name, colon, held, closed]
  · rename_i further
    simp [members, quote, name, colon, held, further, after]
  · contradiction

theorem endsCons {c : Char} (stops : carriesOn c = false) (cs : List Char) : Ends (c :: cs) := by
  rintro d same
  cases Option.some.inj same
  exact stops

theorem blankStops {c : Char} (blank : isBlank c = true) : carriesOn c = false := by
  simp only [isBlank, Bool.or_eq_true, beq_iff_eq] at blank
  rcases blank with ((rfl | rfl) | rfl) | rfl <;> rfl

theorem endsBlanks {blanks : List Char} (blank : ∀ c ∈ blanks, isBlank c = true) {c : Char}
    (stops : carriesOn c = false) (cs : List Char) : Ends (blanks ++ c :: cs) := by
  cases blanks with
  | nil => exact endsCons stops cs
  | cons b rest => exact endsCons (blankStops (blank b List.mem_cons_self)) _

section Written

variable {s : Spacing} (blank : s.Blank)
include blank

theorem itemsEnd (depth : Nat) (xs : List Json) (rest : List Char) :
    Ends (itemChars s depth xs ++ rest) := by
  cases xs with
  | nil =>
    rw [itemChars, List.append_assoc]
    exact endsBlanks (blank.line depth) rfl rest
  | cons x xs => exact endsCons rfl _

theorem membersEnd (depth : Nat) (xs : List (String × Json)) (rest : List Char) :
    Ends (memberChars s depth xs ++ rest) := by
  cases xs with
  | nil =>
    rw [memberChars, List.append_assoc]
    exact endsBlanks (blank.line depth) rfl rest
  | cons x xs => exact endsCons rfl _

omit blank in
theorem itemsRoom (depth : Nat) (xs : List Json) : 1 ≤ (itemChars s depth xs).length := by
  cases xs <;> simp [itemChars]

omit blank in
theorem membersRoom (depth : Nat) (xs : List (String × Json)) :
    1 ≤ (memberChars s depth xs).length := by
  cases xs <;> simp [memberChars]

mutual

theorem readValue (j : Json) (depth fuel : Nat) {rest : List Char}
    (room : (chars s depth j).length ≤ fuel) (ends : Ends rest) :
    ∃ d, j.ReadAs d ∧ value fuel (chars s depth j ++ rest) = some (d, rest) := by
  obtain ⟨fuel, rfl⟩ : ∃ less, fuel = less + 1 := by
    obtain ⟨c, cs, lead, _⟩ := valueLead s depth j
    rw [lead, List.length_cons] at room
    exact Nat.exists_eq_add_one.mpr (by omega)
  cases j with
  | null => exact ⟨_, .null, rfl⟩
  | bool b => cases b <;> exact ⟨_, .bool _, rfl⟩
  | number n =>
    obtain ⟨d, read⟩ := numberReadAs n
    exact ⟨d, .number read, valueNumber read ends fuel⟩
  | string t =>
    have escaped := escapedRoom t.toList
    simp only [chars, stringChars, List.length_cons, List.length_append] at room
    refine ⟨_, .string t, ?_⟩
    rw [chars, stringChars, List.cons_append, value, skipNone rfl]
    simp [stringBody, bodyEscaped t.toList (by omega : t.toList.length < fuel)]
  | array items =>
    cases items with
    | nil => exact ⟨_, .array .nil, rfl⟩
    | cons x xs =>
      -- The same text as behind a comma.
      obtain ⟨ds, read, all⟩ := readItems (x :: xs) depth fuel rest room
      obtain ⟨c, cs, begins, solid, other⟩ := valueLead s (depth + 1) x
      rw [itemChars, List.cons_append, afterItem, skipNone rfl] at all
      simp only [List.append_assoc, itemsSkip (blank.line _), begins, List.cons_append] at all
      refine ⟨_, .array read, ?_⟩
      rw [chars, List.cons_append]
      refine valueList ?_ other all
      simp only [List.append_assoc, skipAll (blank.line _), begins, List.cons_append,
        skipNone solid]
  | object members =>
    rcases members with _ | ⟨⟨key, x⟩, xs⟩
    · exact ⟨_, .object .nil, rfl⟩
    · obtain ⟨ds, read, all⟩ := readMembers ((key, x) :: xs) depth fuel rest room
      rw [memberChars, List.cons_append, afterMember, skipNone rfl] at all
      simp only [List.append_assoc, membersSkip (blank.line _), stringChars, List.cons_append]
        at all
      refine ⟨_, .object read, ?_⟩
      rw [chars, List.cons_append]
      refine valueRecord ?_ (by decide) all
      simp only [List.append_assoc, skipAll (blank.line _), stringChars, List.cons_append]
      exact skipNone rfl _
termination_by structural j

theorem readItems (xs : List Json) (depth fuel : Nat) (rest : List Char)
    (room : (itemChars s depth xs).length ≤ fuel + 1) :
    ∃ ds, List.Forall₂ ReadAs xs ds ∧
      afterItem fuel (itemChars s depth xs ++ rest) = some (ds, rest) := by
  cases xs with
  | nil =>
    refine ⟨[], .nil, ?_⟩
    rw [itemChars, List.append_assoc, List.singleton_append, afterItem, skipAll (blank.line depth),
      skipNone rfl]
    rfl
  | cons x xs =>
    have more := itemsRoom (s := s) depth xs
    simp only [itemChars, List.length_cons, List.length_append] at room
    obtain ⟨fuel, rfl⟩ := Nat.exists_eq_add_one.mpr (by omega : 0 < fuel)
    obtain ⟨d, head, read⟩ := readValue x (depth + 1) fuel (by omega)
      (itemsEnd blank depth xs rest)
    obtain ⟨ds, tail, after⟩ := readItems xs depth fuel rest (by omega)
    refine ⟨d :: ds, .cons head tail, ?_⟩
    have all := itemsStep read after
    rw [← itemsSkip (blank.line (depth + 1))] at all
    rw [itemChars, List.cons_append, afterItem, skipNone rfl]
    simpa only [List.append_assoc] using all
termination_by structural xs

theorem readMembers (xs : List (String × Json)) (depth fuel : Nat) (rest : List Char)
    (room : (memberChars s depth xs).length ≤ fuel + 1) :
    ∃ ds, List.Forall₂ MemberReadAs xs ds ∧
      afterMember fuel (memberChars s depth xs ++ rest) = some (ds, rest) := by
  rcases xs with _ | ⟨⟨key, x⟩, xs⟩
  · refine ⟨[], .nil, ?_⟩
    rw [memberChars, List.append_assoc, List.singleton_append, afterMember,
      skipAll (blank.line depth), skipNone rfl]
    rfl
  · have more := membersRoom (s := s) depth xs
    have escaped := escapedRoom key.toList
    simp only [memberChars, stringChars, List.length_cons, List.length_append] at room
    obtain ⟨fuel, rfl⟩ := Nat.exists_eq_add_one.mpr (by omega : 0 < fuel)
    obtain ⟨d, head, read⟩ := readValue x (depth + 1) fuel (by omega)
      (membersEnd blank depth xs rest)
    obtain ⟨ds, tail, after⟩ := readMembers xs depth fuel rest (by omega)
    refine ⟨(some key, d) :: ds, .cons (.named head) tail, ?_⟩
    have all := membersStep key (by omega) blank.value read after
    rw [← membersSkip (blank.line (depth + 1))] at all
    rw [memberChars, List.cons_append, afterMember, skipNone rfl]
    simpa only [List.append_assoc, List.cons_append] using all
termination_by structural xs

end

theorem textSpells (j : Json) : Spells (String.ofList (j.chars s 0)) j := by
  have ends : Ends [] := by simp [Ends]
  obtain ⟨d, as, whole⟩ := readValue blank j 0 (2 * (j.chars s 0).length + 2) (by omega) ends
  refine ⟨d, ?_, as⟩
  rw [List.append_nil] at whole
  rw [read, String.toList_ofList, readChars, whole]
  rfl

end Written

theorem compactSpells (j : Json) : Spells j.compact j := textSpells packedBlank j

/-! ### In running text -/

/- How a value stands in running text: a string as it is, anything else as a text that spells it. -/
inductive ShownAs : Json → String → Prop
  | string (s : String) : ShownAs (.string s) s
  | other {j : Json} {s : String} (notString : ∀ t, j ≠ .string t) (compact : s = j.compact)
    (spells : Spells s j) : ShownAs j s

theorem shownAsExact (j : Json) (s : String) : j.ShownAs s ↔ j.plainText = s := by
  constructor
  · intro shown
    cases shown with
    | string => rfl
    | other notString compact =>
      unfold plainText
      split
      · exact absurd rfl (notString _)
      · exact compact.symm
  · rintro rfl
    unfold plainText
    split
    · exact .string _
    · rename_i notString
      exact .other notString rfl (compactSpells j)

/-! ### Indented -/

theorem readIndented {j : Json} (back : NumbersBack j) : read j.indented = some (.ofJson j) := by
  obtain ⟨d, here, as⟩ := textSpells spreadBlank j
  exact here.trans (congrArg some (ofJsonRead j back as))

end Json

end EvalReport
