import EvalReport.Proofs.TomlStrings

/-! Numbers, flags and texts written as TOML are read back in front of what may follow a value.
A number is tried as a date first, and is none: no dash and no colon stands behind its digits. -/
namespace EvalReport.Toml

/-! ### Numbers -/

theorem moreDigitsStop {rest : List Char}
    (stops : ∀ c ∈ rest.head?, Decimal.isDigit c = false ∧ c ≠ '_') :
    moreDigits Decimal.isDigit rest = some ([], rest) := by
  unfold moreDigits
  split
  · rfl
  · exact absurd rfl (stops '_' rfl).2
  · obtain ⟨digit, under⟩ := stops _ rfl
    simp [digit, under]

theorem moreDigitsDigit {c : Char} (digit : Decimal.isDigit c = true) (cs : List Char) :
    moreDigits Decimal.isDigit (c :: cs) =
      (moreDigits Decimal.isDigit cs).map fun e => (c :: e.1, e.2) := by
  rw [moreDigits]
  · rw [if_pos digit]
  · rintro _ _ rfl _
    contradiction

theorem endsRun {rest : List Char} (ends : Ends rest) :
    ∀ c ∈ rest.head?, Decimal.isDigit c = false ∧ c ≠ '_' := by
  intro c first
  refine ⟨endsDigit ends c first, ?_⟩
  rintro rfl
  exact endsOther ends rfl first

def IsRun (cs : List Char) : Prop := ∀ c ∈ cs, Decimal.isDigit c = true ∨ c = '_'

theorem moreDigitsRun {cs ds left : List Char}
    (read : moreDigits Decimal.isDigit cs = some (ds, left)) :
    ∃ front, IsRun front ∧ cs = front ++ left := by
  fun_induction moreDigits Decimal.isDigit cs generalizing ds with
  | case1 =>
    cases Option.some.inj read
    exact ⟨[], by simp [IsRun], rfl⟩
  | case2 c rest digit ih =>
    obtain ⟨⟨more, after⟩, later, same⟩ := Option.map_eq_some_iff.mp read
    cases same
    obtain ⟨front, run, rfl⟩ := ih later
    exact ⟨'_' :: c :: front, by simpa [IsRun, digit] using run, rfl⟩
  | case3 => contradiction
  | case4 c rest _ digit ih =>
    obtain ⟨⟨more, after⟩, later, same⟩ := Option.map_eq_some_iff.mp read
    cases same
    obtain ⟨front, run, rfl⟩ := ih later
    exact ⟨c :: front, by simpa [IsRun, digit] using run, rfl⟩
  | case5 => contradiction
  | case6 =>
    cases Option.some.inj read
    exact ⟨[], by simp [IsRun], rfl⟩

theorem moreDigitsScans : Scans (moreDigits Decimal.isDigit) := by
  constructor
  · intro cs ds left read
    obtain ⟨front, _, rfl⟩ := moreDigitsRun read
    simp
  · intro cs ds left rest read ends
    fun_induction moreDigits Decimal.isDigit cs generalizing ds with
    | case1 =>
      cases Option.some.inj read
      exact moreDigitsStop (endsRun (ends rfl))
    | case2 c cs digit ih =>
      obtain ⟨⟨more, after⟩, later, same⟩ := Option.map_eq_some_iff.mp read
      cases same
      simp [moreDigits, digit, ih later]
    | case3 => contradiction
    | case4 c cs _ digit ih =>
      obtain ⟨⟨more, after⟩, later, same⟩ := Option.map_eq_some_iff.mp read
      cases same
      rw [List.cons_append, moreDigitsDigit digit, ih later]
      rfl
    | case5 => contradiction
    | case6 c cs _ digit under =>
      cases Option.some.inj read
      refine moreDigitsStop fun d first => ?_
      cases Option.some.inj first
      exact ⟨Bool.eq_false_iff.mpr digit, under⟩

theorem someDigitsCons (c : Char) (cs : List Char) : someDigits Decimal.isDigit (c :: cs) =
    if Decimal.isDigit c then
      (moreDigits Decimal.isDigit cs).map fun e => (c :: e.1, e.2)
    else none :=
  rfl

theorem someDigitsScans : Scans (someDigits Decimal.isDigit) := by
  have tail (c : Char) := moreDigitsScans.map (c :: ·)
  constructor
  · intro cs ds left read
    cases cs with
    | nil => contradiction
    | cons c cs =>
      rw [someDigitsCons] at read
      split at read
      · exact ((tail c).shorter read).trans (Nat.le_succ _)
      · contradiction
  · intro cs ds left rest read ends
    cases cs with
    | nil => contradiction
    | cons c cs =>
      rw [List.cons_append, someDigitsCons]
      rw [someDigitsCons] at read
      split at read
      · rename_i digit
        rw [if_pos digit]
        exact (tail c).more read ends
      · contradiction

theorem wholePartDigits {cs : List Char} (other : cs.head? ≠ some '0') :
    wholePart cs = someDigits Decimal.isDigit cs := by
  unfold wholePart
  split
  · simp at other
  · rfl

theorem wholePartScans : Scans wholePart := by
  constructor
  · intro cs ds left read
    unfold wholePart at read
    split at read
    · cases Option.some.inj read
      simp
    · exact someDigitsScans.shorter read
  · intro cs ds left rest read ends
    cases cs with
    | nil => contradiction
    | cons c cs =>
      by_cases zero : c = '0'
      · subst zero
        cases Option.some.inj read
        rfl
      · rw [wholePartDigits (by simpa using zero)] at read ⊢
        exact someDigitsScans.more read ends

theorem wholePartRun {cs ds left : List Char} (read : wholePart cs = some (ds, left)) :
    ∃ c front, Decimal.isDigit c = true ∧ IsRun (c :: front) ∧ cs = c :: front ++ left := by
  cases cs with
  | nil => contradiction
  | cons c cs =>
    by_cases zero : c = '0'
    · subst zero
      cases Option.some.inj read
      exact ⟨'0', [], rfl, by simp [IsRun, Decimal.isDigit], rfl⟩
    · rw [wholePartDigits (by simpa using zero), someDigitsCons] at read
      split at read
      · rename_i digit
        obtain ⟨⟨more, after⟩, later, same⟩ := Option.map_eq_some_iff.mp read
        cases same
        obtain ⟨front, run, rfl⟩ := moreDigitsRun later
        exact ⟨c, front, digit, by simpa [IsRun, digit] using run, rfl⟩
      · contradiction

/-! ### Fractions -/

theorem signPlain {cs : List Char} (minus : cs.head? ≠ some '-') (plus : cs.head? ≠ some '+') :
    sign cs = (false, cs) := by
  unfold sign
  split
  · simp at minus
  · simp at plus
  · rfl

theorem signedScans {α : Type} {p : Bool → List Char → Option (α × List Char)}
    (scans : ∀ negative, Scans (p negative)) (empty : p false [] = none) :
    Scans fun cs => p (sign cs).1 (sign cs).2 := by
  constructor
  · intro cs a left read
    refine ((scans _).shorter read).trans ?_
    unfold sign
    split <;> simp
  · intro cs a left rest read ends
    cases cs with
    | nil =>
      rw [show sign [] = (false, []) from rfl, empty] at read
      contradiction
    | cons c cs =>
      by_cases minus : c = '-'
      · subst minus
        exact (scans true).more read ends
      by_cases plus : c = '+'
      · subst plus
        exact (scans false).more read ends
      rw [signPlain (by simpa using minus) (by simpa using plus)] at read
      rw [signPlain (by simpa using minus) (by simpa using plus)]
      exact (scans false).more read ends

def powerDigits (negative : Bool) (cs : List Char) : Option (Int × List Char) := do
  let (ds, rest) ← someDigits Decimal.isDigit cs
  let n : Int := Decimal.ofDigits ds
  some (if negative then -n else n, rest)

theorem powerDigitsScans (negative : Bool) : Scans (powerDigits negative) :=
  someDigitsScans.bind fun ds =>
    .pure (if negative then -(Decimal.ofDigits ds : Int) else Decimal.ofDigits ds)

theorem powerPartCons (c : Char) (cs : List Char) : powerPart (c :: cs) =
    if c = 'e' ∨ c = 'E' then powerDigits (sign cs).1 (sign cs).2 else none :=
  rfl

theorem powerPartScans : Scans powerPart := by
  have signed := signedScans powerDigitsScans rfl
  constructor
  · intro cs power left read
    cases cs with
    | nil => contradiction
    | cons c cs =>
      rw [powerPartCons] at read
      split at read
      · exact (signed.shorter read).trans (Nat.le_succ _)
      · contradiction
  · intro cs power left rest read ends
    cases cs with
    | nil => contradiction
    | cons c cs =>
      rw [powerPartCons] at read
      rw [List.cons_append, powerPartCons]
      split at read
      · rename_i marked
        rw [if_pos marked]
        exact signed.more read ends
      · contradiction

theorem powerPartStop {rest : List Char} (ends : Ends rest) : powerPart rest = none := by
  cases rest with
  | nil => rfl
  | cons c rest =>
    rw [powerPartCons, if_neg]
    rintro (rfl | rfl)
    · exact endsOther ends rfl rfl
    · exact endsOther ends rfl rfl

def decimalTail : List Char → Option (List Char × Int × List Char)
  | '.' :: rest => do
    let (places, rest) ← someDigits Decimal.isDigit rest
    match powerPart rest with
    | some (power, rest) => some (places, power, rest)
    | none => some (places, 0, rest)
  | cs => do
    let (power, rest) ← powerPart cs
    some ([], power, rest)

def decimalValue (negative : Bool) (whole places : List Char) (power : Int) (rest : List Char) :
    Option (Document × List Char) :=
  let x := nearest (Decimal.ofDigits (whole ++ places)) (power - places.length)
  let x := if negative then -x else x
  if x.isInf && !negative then none else some (.number (some (.real x)), rest)

theorem decimalTailPoint (rest : List Char) : decimalTail ('.' :: rest) =
    (someDigits Decimal.isDigit rest).bind fun e =>
      match powerPart e.2 with
      | some (power, left) => some (e.1, power, left)
      | none => some (e.1, 0, e.2) :=
  rfl

theorem decimalTailPlain {cs : List Char} (plain : cs.head? ≠ some '.') :
    decimalTail cs = (powerPart cs).bind fun e => some ([], e.1, e.2) := by
  unfold decimalTail
  split
  · simp at plain
  · rfl

theorem decimalFloatParts (cs : List Char) : decimalFloat cs =
    (wholePart (sign cs).2).bind fun e => (decimalTail e.2).bind fun t =>
      decimalValue (sign cs).1 e.1 t.1 t.2.1 t.2.2 := by
  unfold decimalFloat
  generalize sign cs = signed
  obtain ⟨negative, body⟩ := signed
  dsimp only
  cases wholePart body with
  | none => rfl
  | some e =>
    obtain ⟨whole, tail⟩ := e
    simp only [Option.bind_eq_bind, Option.bind_some]
    split
    · rename_i rest
      rw [decimalTailPoint]
      cases someDigits Decimal.isDigit rest with
      | none => rfl
      | some e =>
        simp only [Option.bind_some]
        cases powerPart e.2 <;> rfl
    · rename_i other
      rw [decimalTailPlain fun point => by
        obtain ⟨rest, same⟩ := List.head?_eq_some_iff.mp point
        exact other rest same]
      cases powerPart tail <;> rfl

theorem decimalTailMore {cs places : List Char} {power : Int} {rest : List Char}
    (read : decimalTail cs = some (places, power, [])) (ends : Ends rest) :
    decimalTail (cs ++ rest) = some (places, power, rest) := by
  cases cs with
  | nil => contradiction
  | cons c cs =>
    by_cases point : c = '.'
    · subst point
      rw [decimalTailPoint] at read
      obtain ⟨⟨ds, left⟩, digits, after⟩ := Option.bind_eq_some_iff.mp read
      rw [List.cons_append, decimalTailPoint]
      cases marked : powerPart left with
      | some e =>
        obtain ⟨value, tail⟩ := e
        simp only [marked, Option.some.injEq, Prod.mk.injEq] at after
        obtain ⟨rfl, rfl, rfl⟩ := after
        have filled : left ≠ [] := by
          rintro rfl
          contradiction
        rw [someDigitsScans.more digits fun none => absurd none filled]
        simp [powerPartScans.more marked fun _ => ends]
      | none =>
        simp only [marked, Option.some.injEq, Prod.mk.injEq] at after
        obtain ⟨rfl, rfl, rfl⟩ := after
        rw [someDigitsScans.more digits fun _ => ends]
        simp [powerPartStop ends]
    · have plain (cs : List Char) : (c :: cs).head? ≠ some '.' := by simpa using point
      rw [decimalTailPlain (plain cs)] at read
      rw [List.cons_append, decimalTailPlain (plain _), ← List.cons_append]
      obtain ⟨⟨value, tail⟩, marked, same⟩ := Option.bind_eq_some_iff.mp read
      cases Option.some.inj same
      rw [powerPartScans.more marked fun _ => ends]
      rfl

theorem decimalTailLead {cs : List Char} {t : List Char × Int × List Char}
    (read : decimalTail cs = some t) :
    ∃ c rest, cs = c :: rest ∧ (c = '.' ∨ c = 'e' ∨ c = 'E') := by
  cases cs with
  | nil => contradiction
  | cons c cs =>
    refine ⟨c, cs, rfl, ?_⟩
    by_cases point : c = '.'
    · exact .inl point
    · rw [decimalTailPlain (by simpa using point), powerPartCons] at read
      split at read
      · rename_i marked
        exact .inr marked
      · contradiction

theorem signAppend {cs : List Char} (filled : cs ≠ []) (rest : List Char) :
    sign (cs ++ rest) = ((sign cs).1, (sign cs).2 ++ rest) := by
  obtain ⟨c, cs, rfl⟩ := List.exists_cons_of_ne_nil filled
  by_cases minus : c = '-'
  · subst minus
    rfl
  by_cases plus : c = '+'
  · subst plus
    rfl
  have alone : sign (c :: cs) = (false, c :: cs) :=
    signPlain (by simpa using minus) (by simpa using plus)
  rw [alone]
  exact signPlain (by simpa using minus) (by simpa using plus)

theorem decimalValueRest {negative : Bool} {whole places left tail : List Char} {power : Int}
    {d : Document} (read : decimalValue negative whole places power left = some (d, tail)) :
    tail = left ∧ ∀ rest, decimalValue negative whole places power rest = some (d, rest) := by
  unfold decimalValue at read ⊢
  dsimp only at read ⊢
  generalize (if negative = true then _ else _ : Float) = x at read ⊢
  by_cases refused : (x.isInf && !negative) = true
  · rw [if_pos refused] at read
    contradiction
  · rw [if_neg refused] at read
    obtain ⟨rfl, rfl⟩ := Prod.mk.inj (Option.some.inj read)
    exact ⟨rfl, fun rest => if_neg refused⟩

theorem decimalFloatMore {cs : List Char} {d : Document} (read : decimalFloat cs = some (d, []))
    {rest : List Char} (ends : Ends rest) : decimalFloat (cs ++ rest) = some (d, rest) := by
  have filled : cs ≠ [] := by
    rintro rfl
    contradiction
  rw [decimalFloatParts] at read
  obtain ⟨⟨whole, mid⟩, first, tailed⟩ := Option.bind_eq_some_iff.mp read
  obtain ⟨⟨places, power, left⟩, second, last⟩ := Option.bind_eq_some_iff.mp tailed
  obtain ⟨c, more, rfl, _⟩ := decimalTailLead second
  have through : wholePart ((sign cs).2 ++ rest) = some (whole, c :: more ++ rest) :=
    wholePartScans.more first (by simp)
  obtain ⟨rfl, again⟩ := decimalValueRest last
  rw [decimalFloatParts, signAppend filled, through, Option.bind_some,
    decimalTailMore second ends, Option.bind_some]
  exact again rest

/-! ### No dates -/

theorem digitsWithin {front more : List Char} {c : Char} (run : IsRun front)
    (other : Decimal.isDigit c = false) {n : Nat}
    (digits : ((front ++ c :: more).take n).all Decimal.isDigit = true) :
    ∃ d tail, (front ++ c :: more).drop n = d :: tail ∧
      (Decimal.isDigit d = true ∨ d = '_' ∨ d = c) := by
  induction front generalizing n with
  | nil =>
    cases n with
    | zero => exact ⟨c, more, rfl, .inr (.inr rfl)⟩
    | succ n => simp [other] at digits
  | cons f front ih =>
    obtain ⟨first, later⟩ := List.forall_mem_cons.mp run
    cases n with
    | zero => exact ⟨f, _, rfl, first.imp_right .inl⟩
    | succ n =>
      rw [List.cons_append, List.take_succ_cons, List.all_cons, Bool.and_eq_true] at digits
      exact ih later digits.2

/- Behind the digits of a numeral comes nothing that divides a date or a time. -/
theorem fixedUnmarked {front more left : List Char} {c m : Char} {n v : Nat} (run : IsRun front)
    (other : Decimal.isDigit c = false) (apart : m ≠ c) (under : m ≠ '_')
    (digit : Decimal.isDigit m = false)
    (read : fixedDigits n (front ++ c :: more) = some (v, left)) : mark m left = none := by
  unfold fixedDigits at read
  dsimp only at read
  split at read
  · rename_i digits
    obtain ⟨_, rfl⟩ := Prod.mk.inj (Option.some.inj read)
    obtain ⟨d, tail, same, kind⟩ := digitsWithin run other digits.2
    rw [same, mark, if_neg]
    rintro rfl
    rcases kind with numeral | same | same
    · rw [digit] at numeral
      contradiction
    · exact under same
    · exact apart same
  · contradiction

theorem noDate {front more : List Char} {c : Char} (run : IsRun front)
    (other : Decimal.isDigit c = false) (dash : c ≠ '-') (colon : c ≠ ':') :
    dateTime (front ++ c :: more) = none := by
  have date : fullDate (front ++ c :: more) = none := by
    unfold fullDate
    cases year : fixedDigits 4 (front ++ c :: more) with
    | none => rfl
    | some e =>
      have unmarked := fixedUnmarked run other (Ne.symm dash) (by decide) rfl year
      simp [unmarked]
  have clocked : time (front ++ c :: more) = none := by
    unfold time clock
    cases hour : fixedDigits 2 (front ++ c :: more) with
    | none => rfl
    | some e =>
      have unmarked := fixedUnmarked run other (Ne.symm colon) (by decide) rfl hour
      simp [unmarked]
  rw [dateTime, date, clocked]
  rfl

theorem noSignedDate {c : Char} (other : Decimal.isDigit c = false) (cs : List Char) :
    dateTime (c :: cs) = none := by
  simp [dateTime, fullDate, time, clock, fixedDigits, other]

theorem decimalFloatNoDate {cs : List Char} {d : Document}
    (read : decimalFloat cs = some (d, [])) :
    ∃ c more, cs = c :: more ∧ (c = '-' ∨ c = '+' ∨ Decimal.isDigit c = true) ∧
      ∀ rest, dateTime (cs ++ rest) = none := by
  cases cs with
  | nil => contradiction
  | cons c more =>
    refine ⟨c, more, rfl, ?_⟩
    by_cases minus : c = '-'
    · subst minus
      exact ⟨.inl rfl, fun rest => noSignedDate rfl (more ++ rest)⟩
    by_cases plus : c = '+'
    · subst plus
      exact ⟨.inr (.inl rfl), fun rest => noSignedDate rfl (more ++ rest)⟩
    rw [decimalFloatParts, signPlain (by simpa using minus) (by simpa using plus)] at read
    obtain ⟨⟨whole, mid⟩, first, tailed⟩ := Option.bind_eq_some_iff.mp read
    obtain ⟨t, second, _⟩ := Option.bind_eq_some_iff.mp tailed
    obtain ⟨m, tail, rfl, marks⟩ := decimalTailLead second
    obtain ⟨lead, front, digit, run, same⟩ := wholePartRun first
    obtain ⟨rfl, rfl⟩ : c = lead ∧ more = front ++ m :: tail := List.cons.inj same
    refine ⟨.inr (.inr digit), fun rest => ?_⟩
    change dateTime (c :: (front ++ m :: tail ++ rest)) = none
    rw [List.append_assoc, ← List.cons_append]
    rcases marks with rfl | rfl | rfl
    all_goals exact noDate run rfl (by decide) (by decide)

/-! ### Scalars -/

theorem followsEnds {rest : List Char} (follows : Follows rest) : Ends rest := by
  obtain ⟨c, more, rfl, same⟩ := follows
  intro d first
  cases Option.some.inj first
  rcases same with rfl | rfl | rfl <;> rfl

def Numeric (c : Char) : Prop := c = '-' ∨ c = '+' ∨ Decimal.isDigit c = true

theorem numericOther {c d : Char} (numeric : Numeric c) (minus : d ≠ '-') (plus : d ≠ '+')
    (digit : Decimal.isDigit d = false) : c ≠ d := by
  rintro rfl
  rcases numeric with same | same | numeral
  · exact minus same
  · exact plus same
  · rw [digit] at numeral
    contradiction

theorem scalarNumeric {c : Char} (numeric : Numeric c) (cs : List Char) : scalar (c :: cs) =
    (dateTime (c :: cs) <|> decimalFloat (c :: cs) <|> specialFloat (c :: cs) <|>
      integer (c :: cs)) := by
  have other {d : Char} {more : List Char} (same : c :: cs = d :: more) (minus : d ≠ '-')
      (plus : d ≠ '+') (digit : Decimal.isDigit d = false) : False :=
    numericOther numeric minus plus digit (List.cons.inj same).1
  unfold scalar
  split
  · rename_i same
    exact (other same (by decide) (by decide) rfl).elim
  · rename_i same
    exact (other same (by decide) (by decide) rfl).elim
  · rename_i same
    obtain ⟨rfl, rfl⟩ := List.cons.inj same
    rw [if_neg]
    rintro (quote | single)
    · exact numericOther numeric (by decide) (by decide) rfl quote
    · exact numericOther numeric (by decide) (by decide) rfl single
  · contradiction

def ScalarBack (v : Value) (d : Document) : Prop :=
  ∀ rest, Follows rest → scalar (v.chars ++ rest) = some (d, rest)

theorem floatBack {x : Float}
    (back : decimalFloat (Value.float x).chars = some (.number (some (.real x)), [])) :
    ScalarBack (.float x) (.number (some (.real x))) := by
  intro rest follows
  obtain ⟨c, more, same, numeric, noDate⟩ := decimalFloatNoDate back
  have read := decimalFloatMore back (followsEnds follows)
  have dateless := noDate rest
  rw [same] at read dateless ⊢
  rw [List.cons_append] at read dateless ⊢
  rw [scalarNumeric numeric, dateless, read]
  rfl

theorem flagBack (b : Bool) : ScalarBack (.boolean b) (.flag b) := by
  intro rest _
  cases b <;> rfl

theorem stringLead (cs : List Char) :
    ∃ c more, stringChars cs = c :: more ∧ (c = '"' ∨ c = apostrophe) := by
  unfold stringChars
  dsimp only
  split
  · exact ⟨_, _, rfl, .inl rfl⟩
  · exact ⟨_, _, rfl, .inr rfl⟩
  · exact ⟨_, _, rfl, .inl rfl⟩
  · exact ⟨_, _, rfl, .inr rfl⟩

theorem scalarText {c : Char} (quote : c = '"' ∨ c = apostrophe) (cs : List Char) :
    scalar (c :: cs) =
      (string (c :: cs)).map fun e => (.text (some (String.ofList e.1)), e.2) := by
  rcases quote with rfl | rfl <;> rfl

theorem textBack (s : String) : ScalarBack (.string s) (.text (some s)) := by
  intro rest follows
  have read : string (stringChars s.toList ++ rest) = some (s.toList, rest) :=
    stringBack s.toList (followsOther follows (by decide) (by decide) (by decide))
      (followsOther follows (by decide) (by decide) (by decide))
  obtain ⟨c, more, lead, quote⟩ := stringLead s.toList
  rw [lead] at read
  rw [Value.chars, lead, List.cons_append, scalarText quote, ← List.cons_append, read]
  simp

theorem moreDigitsAll {ds rest : List Char} (all : ∀ c ∈ ds, Decimal.isDigit c = true)
    (ends : Ends rest) : moreDigits Decimal.isDigit (ds ++ rest) = some (ds, rest) := by
  induction ds with
  | nil => exact moreDigitsStop (endsRun ends)
  | cons d ds ih =>
    obtain ⟨digit, later⟩ := List.forall_mem_cons.mp all
    rw [List.cons_append, moreDigitsDigit digit, ih later]
    rfl

theorem wholePartAll (n : Nat) {rest : List Char} (ends : Ends rest) :
    wholePart (Decimal.digits n ++ rest) = some (Decimal.digits n, rest) := by
  rcases Nat.eq_zero_or_pos n with rfl | positive
  · rw [Decimal.digitsZero]
    rfl
  · obtain ⟨c, ds, lead⟩ := List.exists_cons_of_ne_nil (Decimal.digitsSome n)
    have all := Decimal.digitsAll n
    have head := Decimal.digitsHead positive.ne'
    rw [lead] at all head ⊢
    obtain ⟨digit, later⟩ := List.forall_mem_cons.mp all
    rw [List.cons_append, wholePartDigits (by simpa using head), someDigitsCons, if_pos digit,
      moreDigitsAll later ends]
    rfl

/- A zero in front stands alone, so it opens no other base. -/
theorem zeroAlone {n : Nat} {m : Char} {rest tail : List Char}
    (same : Decimal.digits n ++ rest = '0' :: m :: tail) : rest.head? = some m := by
  obtain ⟨c, ds, lead⟩ := List.exists_cons_of_ne_nil (Decimal.digitsSome n)
  rw [lead, List.cons_append] at same
  obtain ⟨rfl, behind⟩ := List.cons.inj same
  obtain ⟨_, rfl⟩ := Decimal.digitsLead lead
  rw [List.nil_append] at behind
  rw [behind]
  rfl

theorem digitsApart (n : Nat) (rest : List Char) {c : Char} (other : Decimal.isDigit c = false) :
    (Decimal.digits n ++ rest).head? ≠ some c := by
  obtain ⟨d, more, lead⟩ := List.exists_cons_of_ne_nil (Decimal.digitsSome n)
  have digit : Decimal.isDigit d = true := Decimal.digitsAll n d (lead ▸ List.mem_cons_self)
  rw [lead]
  rintro first
  cases Option.some.inj first
  rw [digit] at other
  contradiction

theorem digitsUnsigned (n : Nat) (rest : List Char) :
    sign (Decimal.digits n ++ rest) = (false, Decimal.digits n ++ rest) :=
  signPlain (digitsApart n rest rfl) (digitsApart n rest rfl)

theorem digitsDateless (n : Nat) {rest : List Char} (follows : Follows rest) :
    dateTime (Decimal.digits n ++ rest) = none := by
  obtain ⟨d, tail, rfl, same⟩ := follows
  have run : IsRun (Decimal.digits n) := fun c member => .inl (Decimal.digitsAll n c member)
  rcases same with rfl | rfl | rfl
  all_goals exact noDate run rfl (by decide) (by decide)

theorem digitsFractionless (n : Nat) {rest : List Char} (follows : Follows rest) :
    decimalFloat (Decimal.digits n ++ rest) = none := by
  rw [decimalFloatParts, digitsUnsigned, wholePartAll n (followsEnds follows), Option.bind_some,
    decimalTailPlain (followsOther follows (by decide) (by decide) (by decide)),
    powerPartStop (followsEnds follows)]
  rfl

theorem specialFloatPlain {cs : List Char} (infinite : (sign cs).2.head? ≠ some 'i')
    (nan : (sign cs).2.head? ≠ some 'n') : specialFloat cs = none := by
  simp only [specialFloat]
  split
  · rename_i same
    exact absurd (by rw [same]; rfl) infinite
  · rename_i same
    exact absurd (by rw [same]; rfl) nan
  · rfl

theorem countInRange {n : Nat} (fits : n < 0x8000000000000000) :
    inRange n = some (.number (some (.integer n))) := by
  rw [inRange, if_pos]
  constructor
  · omega
  · omega

theorem integerPlain {cs : List Char}
    (other : ∀ m rest, cs = '0' :: m :: rest → m ≠ 'x' ∧ m ≠ 'o' ∧ m ≠ 'b') :
    integer cs = (wholePart (sign cs).2).bind fun e =>
      (inRange (if (sign cs).1 then -(Decimal.ofDigits e.1 : Int) else Decimal.ofDigits e.1)).bind
        fun d => some (d, e.2) := by
  unfold integer
  split
  · exact absurd rfl (other _ _ rfl).1
  · exact absurd rfl (other _ _ rfl).2.1
  · exact absurd rfl (other _ _ rfl).2.2
  · rfl

theorem digitsInteger {n : Nat} (fits : n < 0x8000000000000000) {rest : List Char}
    (follows : Follows rest) :
    integer (Decimal.digits n ++ rest) = some (.number (some (.integer n)), rest) := by
  have other : ∀ m tail, Decimal.digits n ++ rest = '0' :: m :: tail →
      m ≠ 'x' ∧ m ≠ 'o' ∧ m ≠ 'b' := by
    intro m tail same
    have first := zeroAlone same
    refine ⟨?_, ?_, ?_⟩ <;> rintro rfl
    all_goals exact followsOther follows (by decide) (by decide) (by decide) first
  rw [integerPlain other, digitsUnsigned, wholePartAll n (followsEnds follows), Option.bind_some,
    if_neg Bool.false_ne_true, Decimal.ofDigitsOfNat, countInRange fits]
  rfl

theorem countBack {n : Nat} (fits : n < 0x8000000000000000) :
    ScalarBack (.integer n) (.number (some (.integer n))) := by
  intro rest follows
  have text : (Value.integer n).chars = Decimal.digits n := Decimal.signedCount n
  have dateless := digitsDateless n follows
  have fractionless := digitsFractionless n follows
  have ordinary : specialFloat (Decimal.digits n ++ rest) = none := by
    apply specialFloatPlain
    · rw [digitsUnsigned]
      exact digitsApart n rest rfl
    · rw [digitsUnsigned]
      exact digitsApart n rest rfl
  have whole := digitsInteger fits follows
  obtain ⟨c, more, lead⟩ := List.exists_cons_of_ne_nil (Decimal.digitsSome n)
  have numeric : Numeric c :=
    .inr (.inr (Decimal.digitsAll n c (lead ▸ List.mem_cons_self)))
  rw [text]
  rw [lead, List.cons_append] at dateless fractionless ordinary whole ⊢
  rw [scalarNumeric numeric, dateless, fractionless, ordinary, whole]
  rfl

end EvalReport.Toml
