import EvalReport.Json.Reader
import EvalReport.Proofs.ShortestDigits

/-! Numbers in JSON text. Every finite number is written as a literal, and of all the words of its
format it is the one nearest to what the literal spells out. A number that is not finite is
written as `null`. -/
namespace EvalReport

namespace Json

/-! ### Scanning -/

theorem someDigitsExact {cs ds left : List Char} : someDigits cs = some (ds, left) ↔
    ds ≠ [] ∧ cs = ds ++ left ∧ (∀ c ∈ ds, Decimal.isDigit c = true) ∧
      ∀ c ∈ left.head?, Decimal.isDigit c = false := by
  constructor
  · intro read
    unfold someDigits at read
    split at read
    · contradiction
    · rename_i some
      cases Option.some.inj read
      refine ⟨some, List.takeWhile_append_dropWhile.symm, fun c => List.mem_takeWhile_imp, ?_⟩
      intro c first
      have stops := List.head?_dropWhile_not Decimal.isDigit cs
      rw [first] at stops
      exact stops
  · rintro ⟨some, rfl, all, stops⟩
    obtain ⟨taken, dropped⟩ := takeWhileThrough all stops
    unfold someDigits
    rw [taken, dropped]
    cases ds with
    | nil => contradiction
    | cons d ds => rfl

theorem someDigitsScans : Scans someDigits := by
  constructor
  · intro cs ds left read
    rw [(someDigitsExact.mp read).2.1, List.length_append]
    omega
  · intro cs ds left rest read ends
    obtain ⟨some, same, all, stops⟩ := someDigitsExact.mp read
    refine someDigitsExact.mpr ⟨some, by rw [same, List.append_assoc], all, ?_⟩
    cases left with
    | nil => exact endsDigit (ends rfl)
    | cons c left => exact stops

theorem wholePartDigits {cs : List Char} (other : cs.head? ≠ some '0') :
    wholePart cs = someDigits cs := by
  unfold wholePart
  split
  · simp at other
  · rfl

theorem wholePartScans : Scans wholePart := by
  constructor
  · intro cs ds left read
    unfold wholePart at read
    split at read
    · cases Option.some.inj read
      simp
    · exact someDigitsScans.shorter read
  · intro cs ds left rest read ends
    cases cs with
    | nil => contradiction
    | cons c cs =>
      by_cases zero : c = '0'
      · subst zero
        cases Option.some.inj read
        rfl
      · rw [wholePartDigits (by simpa using zero)] at read ⊢
        exact someDigitsScans.more read ends

theorem fractionPartPlain {cs : List Char} (other : cs.head? ≠ some '.') :
    fractionPart cs = some (none, cs) := by
  unfold fractionPart
  split
  · simp at other
  · rfl

theorem fractionPartScans : Scans fractionPart := by
  have fraction := someDigitsScans.map some
  constructor
  · intro cs ds left read
    unfold fractionPart at read
    split at read
    · exact (fraction.shorter read).trans (by simp)
    · cases Option.some.inj read
      exact le_rfl
  · intro cs ds left rest read ends
    cases cs with
    | nil =>
      cases Option.some.inj read
      exact fractionPartPlain (endsOther (ends rfl) rfl)
    | cons c cs =>
      by_cases point : c = '.'
      · subst point
        exact fraction.more read ends
      · rw [fractionPartPlain (by simpa using point)] at read
        cases Option.some.inj read
        exact fractionPartPlain (by simpa using point)

def signedPower : List Char → Option (Option Int × List Char)
  | '-' :: rest =>
    (someDigits rest).map fun (ds, rest) => (some (-(Decimal.ofDigits ds : Int)), rest)
  | '+' :: rest =>
    (someDigits rest).map fun (ds, rest) => (some (Decimal.ofDigits ds : Int), rest)
  | rest => (someDigits rest).map fun (ds, rest) => (some (Decimal.ofDigits ds : Int), rest)

theorem signedPowerPlain {cs : List Char} (minus : cs.head? ≠ some '-')
    (plus : cs.head? ≠ some '+') : signedPower cs =
      (someDigits cs).map fun e => (some (Decimal.ofDigits e.1 : Int), e.2) := by
  unfold signedPower
  split
  · simp at minus
  · simp at plus
  · rfl

theorem signedPowerScans : Scans signedPower := by
  have negative := someDigitsScans.map fun ds => some (-(Decimal.ofDigits ds : Int))
  have positive := someDigitsScans.map fun ds => some (Decimal.ofDigits ds : Int)
  constructor
  · intro cs power left read
    unfold signedPower at read
    split at read
    · exact (negative.shorter read).trans (by simp)
    · exact (positive.shorter read).trans (by simp)
    · exact positive.shorter read
  · intro cs power left rest read ends
    cases cs with
    | nil => contradiction
    | cons c cs =>
      by_cases minus : c = '-'
      · subst minus
        exact negative.more read ends
      by_cases plus : c = '+'
      · subst plus
        exact positive.more read ends
      rw [signedPowerPlain (by simpa using minus) (by simpa using plus)] at read ⊢
      exact positive.more read ends

theorem powerPartCons (c : Char) (cs : List Char) : powerPart (c :: cs) =
    if c == 'e' || c == 'E' then signedPower cs else some (none, c :: cs) :=
  rfl

theorem powerPartPlain {cs : List Char} (small : cs.head? ≠ some 'e') (big : cs.head? ≠ some 'E') :
    powerPart cs = some (none, cs) := by
  cases cs with
  | nil => rfl
  | cons c cs =>
    rw [powerPartCons, if_neg]
    simp only [List.head?_cons, ne_eq, Option.some.injEq] at small big
    simp [small, big]

theorem powerPartScans : Scans powerPart := by
  constructor
  · intro cs power left read
    cases cs with
    | nil =>
      cases Option.some.inj read
      exact le_rfl
    | cons c cs =>
      rw [powerPartCons] at read
      split at read
      · exact (signedPowerScans.shorter read).trans (by simp)
      · cases Option.some.inj read
        exact le_rfl
  · intro cs power left rest read ends
    cases cs with
    | nil =>
      cases Option.some.inj read
      exact powerPartPlain (endsOther (ends rfl) rfl) (endsOther (ends rfl) rfl)
    | cons c cs =>
      rw [powerPartCons] at read
      rw [List.cons_append, powerPartCons]
      split at read
      · rename_i marked
        rw [if_pos marked]
        exact signedPowerScans.more read ends
      · rename_i plain
        cases Option.some.inj read
        exact if_neg plain

theorem magnitudeScans (negative : Bool) : Scans (magnitudePart negative) :=
  wholePartScans.bind fun whole => fractionPartScans.bind fun fraction =>
    powerPartScans.bind fun power => .pure (Literal.mk negative whole fraction power)

theorem literalPlain {cs : List Char} (plain : cs.head? ≠ some '-') :
    literal cs = magnitudePart false cs := by
  unfold literal
  split
  · simp at plain
  · rfl

theorem literalScans : Scans literal := by
  constructor
  · intro cs l left read
    unfold literal at read
    split at read
    · exact ((magnitudeScans true).shorter read).trans (by simp)
    · exact (magnitudeScans false).shorter read
  · intro cs l left rest read ends
    cases cs with
    | nil => contradiction
    | cons c cs =>
      by_cases minus : c = '-'
      · subst minus
        exact (magnitudeScans true).more read ends
      · rw [literalPlain (by simpa using minus)] at read ⊢
        exact (magnitudeScans false).more read ends

theorem literalLead {cs : List Char} {e : Literal × List Char} (read : literal cs = some e) :
    ∃ c rest, cs = c :: rest ∧ (c = '-' ∨ Decimal.isDigit c = true) := by
  cases cs with
  | nil => contradiction
  | cons c cs =>
    refine ⟨c, cs, rfl, ?_⟩
    by_contra other
    obtain ⟨minus, digit⟩ := not_or.mp other
    have none : someDigits (c :: cs) = none := by
      rw [someDigits, List.takeWhile_cons_of_neg digit]
    have zero : (c :: cs).head? ≠ some '0' := by
      rintro same
      cases Option.some.inj same
      exact digit rfl
    rw [literalPlain (by simpa using minus), magnitudePart, wholePartDigits zero, none] at read
    contradiction

/-! ### Literals and their texts -/

/- The number a literal spells out, before anything rounds it. -/
def Literal.exact (l : Literal) : ℚ :=
  (if l.negative then -1 else 1) * (Decimal.ofDigits (l.whole ++ l.fraction.getD []) *
    10 ^ (l.power.getD 0 - ((l.fraction.getD []).length : Int)))

def fractionChars : Option (List Char) → List Char
  | none => []
  | some ds => '.' :: ds

def powerChars : Option Int → List Char
  | none => []
  | some e => Decimal.exponentMark e

def Literal.magnitude (l : Literal) : List Char :=
  l.whole ++ (fractionChars l.fraction ++ powerChars l.power)

def Literal.chars (l : Literal) : List Char :=
  if l.negative then '-' :: l.magnitude else l.magnitude

structure Literal.Proper (l : Literal) : Prop where
  filled : l.whole ≠ []
  whole : ∀ c ∈ l.whole, Decimal.isDigit c = true
  lead : l.whole.head? = some '0' → l.whole = ['0']
  fraction : ∀ ds ∈ l.fraction, ds ≠ [] ∧ ∀ c ∈ ds, Decimal.isDigit c = true

theorem wholePartRead {ds rest : List Char} (filled : ds ≠ [])
    (all : ∀ c ∈ ds, Decimal.isDigit c = true) (lead : ds.head? = some '0' → ds = ['0'])
    (stops : ∀ c ∈ rest.head?, Decimal.isDigit c = false) :
    wholePart (ds ++ rest) = some (ds, rest) := by
  by_cases zero : ds.head? = some '0'
  · rw [lead zero]
    rfl
  · have other : (ds ++ rest).head? ≠ some '0' := by rwa [List.head?_append_of_ne_nil ds filled]
    rw [wholePartDigits other]
    exact someDigitsExact.mpr ⟨filled, rfl, all, stops⟩

theorem fractionPartRead {fraction : Option (List Char)} {rest : List Char}
    (all : ∀ ds ∈ fraction, ds ≠ [] ∧ ∀ c ∈ ds, Decimal.isDigit c = true)
    (stops : ∀ c ∈ rest.head?, Decimal.isDigit c = false) (point : rest.head? ≠ some '.') :
    fractionPart (fractionChars fraction ++ rest) = some (fraction, rest) := by
  cases fraction with
  | none => exact fractionPartPlain point
  | some ds =>
    obtain ⟨filled, digits⟩ := all ds rfl
    have read : someDigits (ds ++ rest) = some (ds, rest) :=
      someDigitsExact.mpr ⟨filled, rfl, digits, stops⟩
    rw [fractionChars, List.cons_append, fractionPart, read]
    rfl

theorem powerPartRead (power : Option Int) : powerPart (powerChars power) = some (power, []) := by
  cases power with
  | none => rfl
  | some e =>
    have read : someDigits (Decimal.digits e.natAbs) = some (Decimal.digits e.natAbs, []) :=
      someDigitsExact.mpr ⟨Decimal.digitsSome _, (List.append_nil _).symm, Decimal.digitsAll _,
        by simp⟩
    rw [powerChars, Decimal.exponentMark, powerPartCons, if_pos (by decide)]
    by_cases negative : e < 0
    · simp only [if_pos negative, signedPower, read, Option.map_some, Decimal.ofDigitsOfNat]
      congr 3
      omega
    · simp only [if_neg negative, signedPower, read, Option.map_some, Decimal.ofDigitsOfNat]
      congr 3
      omega

theorem powerStops (power : Option Int) :
    (∀ c ∈ (powerChars power).head?, Decimal.isDigit c = false) ∧
      (powerChars power).head? ≠ some '.' := by
  cases power with
  | none => exact ⟨by simp [powerChars], by simp [powerChars]⟩
  | some e => exact ⟨by simp [powerChars, Decimal.exponentMark, Decimal.isDigit],
      by simp [powerChars, Decimal.exponentMark]⟩

theorem literalChars {l : Literal} (proper : l.Proper) : literal l.chars = some (l, []) := by
  obtain ⟨stops, point⟩ := powerStops l.power
  have behind : ∀ c ∈ (fractionChars l.fraction ++ powerChars l.power).head?,
      Decimal.isDigit c = false := by
    cases l.fraction with
    | none => exact stops
    | some ds => simp [fractionChars, Decimal.isDigit]
  have read (negative : Bool) : magnitudePart negative l.magnitude =
      some (⟨negative, l.whole, l.fraction, l.power⟩, []) := by
    rw [magnitudePart, Literal.magnitude,
      wholePartRead proper.filled proper.whole proper.lead behind]
    simp only [Option.bind_eq_bind, Option.bind_some, fractionPartRead proper.fraction stops point,
      powerPartRead]
  obtain ⟨negative, whole, fraction, power⟩ := l
  cases negative with
  | true => exact read true
  | false =>
    rw [Literal.chars, if_neg Bool.false_ne_true, literalPlain]
    · exact read false
    · intro minus
      rw [Literal.magnitude, List.head?_append_of_ne_nil _ proper.filled] at minus
      have digit := proper.whole '-' (List.mem_of_mem_head? minus)
      contradiction

end Json

/-! ### Layouts -/

namespace Decimal

theorem ofDigitsBehind (ds es : List Char) :
    ofDigits (ds ++ es) = ofDigits ds * 10 ^ es.length + ofDigits es := by
  induction es using List.reverseRecOn with
  | nil => simp [ofDigits]
  | append_singleton es e ih =>
    rw [← List.append_assoc, ofDigitsAppend, ofDigitsAppend, ih, List.length_append,
      List.length_singleton, pow_succ]
    ring

theorem ofDigitsZeros (n : Nat) : ofDigits (zeros n) = 0 := by
  induction n with
  | zero => rfl
  | succ n ih =>
    rw [zeros, List.replicate_succ', ofDigitsAppend]
    change 10 * ofDigits (zeros n) + 0 = 0
    rw [ih]

theorem zerosDigits (n : Nat) : ∀ c ∈ zeros n, isDigit c = true := by
  intro c member
  rw [(List.mem_replicate.mp member).2]
  rfl

/- What a magnitude is laid out as: a literal with no sign that spells it out. -/
def Spelled (s : Scientific) (cs : List Char) : Prop :=
  ∃ whole fraction power, (Json.Literal.mk false whole fraction power).Proper ∧
    (Json.Literal.mk false whole fraction power).magnitude = cs ∧
      (ofDigits (whole ++ fraction.getD []) : ℚ) * 10 ^ (power.getD 0 - (fraction.getD []).length) =
        s.value

section Texts

variable {s : Scientific} {e : Int}

theorem wholeSpelled (pointed : Bool) (zero : s.coefficient = 0 → s.exponent = 0)
    (whole : 0 ≤ s.exponent) : Spelled s (digits s.coefficient ++ zeros s.exponent.toNat ++
      (if pointed then ['.', '0'] else [])) := by
  let fraction : Option (List Char) := if pointed then some ['0'] else none
  have filled : digits s.coefficient ++ zeros s.exponent.toNat ≠ [] :=
    List.append_ne_nil_of_left_ne_nil (digitsSome _) _
  refine ⟨digits s.coefficient ++ zeros s.exponent.toNat, fraction, none, ⟨filled, ?_, ?_, ?_⟩,
    ?_, ?_⟩
  · exact List.forall_mem_append.mpr ⟨digitsAll _, zerosDigits _⟩
  · intro lead
    dsimp only at lead ⊢
    rw [List.head?_append_of_ne_nil _ (digitsSome _)] at lead
    have nothing : s.coefficient = 0 := by_contra fun positive => digitsHead positive lead
    rw [nothing, zero nothing, digitsZero]
    rfl
  · cases pointed <;> simp [fraction, isDigit]
  · cases pointed <;> simp [fraction, Json.Literal.magnitude, Json.fractionChars, Json.powerChars]
  · have scaled : (ofDigits (digits s.coefficient ++ zeros s.exponent.toNat) : ℚ) = s.value := by
      rw [ofDigitsBehind, ofDigitsOfNat, ofDigitsZeros, zeros, List.length_replicate,
        Scientific.value]
      obtain ⟨p, same⟩ := Int.eq_ofNat_of_zero_le whole
      rw [same, Int.toNat_natCast, zpow_natCast, Nat.add_zero]
      push_cast
      rfl
    rw [← scaled]
    cases pointed with
    | false => simp [fraction]
    | true =>
      simp only [fraction, if_true, Option.getD_some, Option.getD_none, ofDigitsAppend]
      simp [digitValue]
      ring

theorem pointSpelled (place : e = (digits s.coefficient).length - 1 + s.exponent)
    (broken : s.exponent < 0) (zero : s.coefficient = 0 → s.exponent = 0) (lead : 0 ≤ e) :
    Spelled s ((digits s.coefficient).take (e.toNat + 1) ++
      '.' :: (digits s.coefficient).drop (e.toNat + 1)) := by
  have positive : s.coefficient ≠ 0 := fun nothing => broken.ne (zero nothing)
  have filled := List.length_pos_iff.mpr (digitsSome s.coefficient)
  have short : e.toNat + 1 < (digits s.coefficient).length := by omega
  have first : (digits s.coefficient).take (e.toNat + 1) ≠ [] := by
    rw [ne_eq, List.take_eq_nil_iff, not_or]
    exact ⟨Nat.succ_ne_zero _, digitsSome _⟩
  refine ⟨(digits s.coefficient).take (e.toNat + 1),
    some ((digits s.coefficient).drop (e.toNat + 1)), none,
    ⟨first, fun c member => digitsAll _ c (List.mem_of_mem_take member), ?_, ?_⟩, ?_, ?_⟩
  · intro nought
    dsimp only at nought
    rw [List.head?_take, if_neg (Nat.succ_ne_zero _)] at nought
    exact absurd nought (digitsHead positive)
  · rintro ds same
    cases Option.some.inj same
    exact ⟨by simpa using short, fun c member => digitsAll _ c (List.mem_of_mem_drop member)⟩
  · simp [Json.Literal.magnitude, Json.fractionChars, Json.powerChars]
  · rw [Option.getD_some, Option.getD_none, List.take_append_drop, ofDigitsOfNat, List.length_drop,
      Scientific.value]
    congr 2
    omega

theorem belowSpelled (place : e = (digits s.coefficient).length - 1 + s.exponent) (below : e < 0) :
    Spelled s ('0' :: '.' :: (zeros (-e - 1).toNat ++ digits s.coefficient)) := by
  refine ⟨['0'], some (zeros (-e - 1).toNat ++ digits s.coefficient), none,
    ⟨by simp, by simp [isDigit], fun _ => rfl, ?_⟩, ?_, ?_⟩
  · rintro ds same
    cases Option.some.inj same
    exact ⟨List.append_ne_nil_of_right_ne_nil _ (digitsSome _),
      List.forall_mem_append.mpr ⟨zerosDigits _, digitsAll _⟩⟩
  · simp [Json.Literal.magnitude, Json.fractionChars, Json.powerChars]
  · rw [Option.getD_some, Option.getD_none, ← List.append_assoc, ofDigitsBehind, ofDigitsOfNat]
    change ((ofDigits (zeros ((-e - 1).toNat + 1)) * _ + _ : Nat) : ℚ) * _ = _
    rw [ofDigitsZeros, Nat.zero_mul, Nat.zero_add, Scientific.value, List.length_append, zeros,
      List.length_replicate]
    congr 2
    omega

theorem digitSpelled {d : Char} (place : e = (digits s.coefficient).length - 1 + s.exponent)
    (split : digits s.coefficient = [d]) : Spelled s (d :: exponentMark e) := by
  have all := digitsAll s.coefficient
  have value := ofDigitsOfNat s.coefficient
  rw [split] at all value place
  refine ⟨[d], none, some e, ⟨by simp, all, ?_, by simp⟩, rfl, ?_⟩
  · intro lead
    rw [Option.some.inj lead]
  · simp [value, Scientific.value, place]

theorem digitsSpelled {d c : Char} {rest : List Char}
    (place : e = (digits s.coefficient).length - 1 + s.exponent)
    (split : digits s.coefficient = d :: c :: rest) :
    Spelled s (d :: '.' :: (c :: rest ++ exponentMark e)) := by
  have all := digitsAll s.coefficient
  have value := ofDigitsOfNat s.coefficient
  rw [split] at all value place
  obtain ⟨first, later⟩ := List.forall_mem_cons.mp all
  refine ⟨[d], some (c :: rest), some e, ⟨by simp, by simpa using first, ?_, ?_⟩, rfl, ?_⟩
  · intro lead
    rw [Option.some.inj lead]
  · rintro ds same
    cases Option.some.inj same
    exact ⟨by simp, later⟩
  · rw [Option.getD_some, Option.getD_some, List.singleton_append, value, Scientific.value, place]
    congr 2
    simp

theorem magnitudeSpelled (l : Layout) (zero : s.coefficient = 0 → s.exponent = 0) :
    Spelled s (l.magnitude s) := by
  unfold Layout.magnitude
  dsimp only
  split
  · split
    · exact wholeSpelled l.pointed zero ‹_›
    · split
      · exact pointSpelled rfl (by omega) zero ‹_›
      · exact belowSpelled rfl (by omega)
  · split
    · rename_i none
      exact absurd none (digitsSome _)
    · rename_i one
      exact digitSpelled rfl one
    · rename_i d rest several split
      cases rest with
      | nil => exact (several rfl).elim
      | cons c rest => exact digitsSpelled rfl split

end Texts

end Decimal

/-! ### Numbers -/

def Number.ReadsBack (n : Number) : Prop :=
  ∃ l, Json.literal n.chars = some (l, []) ∧ l.value = some n

def Number.rational? : Number → Option ℚ
  | .integer i => some i
  | .real x => (binaryOfFloat x).rational?
  | .single s => s.binary.rational?

def Number.negative : Number → Bool
  | .integer i => decide (i < 0)
  | .real x => (binaryOfFloat x).isNegative
  | .single s => s.binary.isNegative

def Number.Nearest : Number → ℚ → Prop
  | .integer i, x => x = i
  | .real r, x => Binary.binary64.Nearest r.toBits.toNat x
  | .single s, x => Binary.binary32.Nearest s.bits.toNat x

inductive Number.ReadAs (n : Number) : Document → Prop
  | finite (l : Json.Literal) (text : Json.literal n.chars = some (l, []))
      (sign : l.negative = n.negative) (nearest : n.Nearest l.exact) : ReadAs n (.number l.value)
  | other (none : n.rational? = none) (text : n.chars = ['n', 'u', 'l', 'l']) : ReadAs n .null

theorem Decimal.Spelled.literal {s : Scientific} {cs : List Char} (spelled : Spelled s cs)
    (negative : Bool) : ∃ l : Json.Literal,
      Json.literal (if negative then '-' :: cs else cs) = some (l, []) ∧ l.negative = negative ∧
        l.exact = (if negative then -1 else 1) * s.value := by
  obtain ⟨whole, fraction, power, proper, rfl, value⟩ := spelled
  refine ⟨⟨negative, whole, fraction, power⟩, ?_, rfl, by rw [← value]; rfl⟩
  exact Json.literalChars (l := ⟨negative, whole, fraction, power⟩)
    ⟨proper.filled, proper.whole, proper.lead, proper.fraction⟩

theorem wordSpelled {f : Binary.Format} {word m : Nat} {q : Int} {narrow negative : Bool}
    (l : Decimal.Layout) (wide : 0 < f.fractionBits) (fits : f.fractionBits ≤ 52)
    (decoded : Binary.decode f word = .finite negative m q narrow) : ∃ t : Json.Literal,
      Json.literal (l.chars (Binary.decode f word)) = some (t, []) ∧ t.negative = negative ∧
        f.Nearest word t.exact := by
  obtain ⟨holds, narrowed, _, _⟩ := Binary.decodedFinite decoded
  have bits : 2 ^ f.fractionBits ≤ 2 ^ 52 := Nat.pow_le_pow_right two_pos fits
  have small : m < 2 ^ 53 := holds.fits.trans_le (Nat.pow_le_pow_right two_pos (by omega))
  have halved : narrow = true → m ≤ 2 ^ 52 := fun below => (narrowed below).le.trans bits
  obtain ⟨inside, zero⟩ := Decimal.shortestInside l.tie (q := q) small halved
  obtain ⟨t, read, sign, spells⟩ := (Decimal.magnitudeSpelled l zero).literal negative
  refine ⟨t, by rw [decoded]; exact read, sign, ?_⟩
  rw [spells]
  refine Binary.nearestWord wide decoded ?_ inside
  rw [Decimal.Scientific.value]
  positivity

theorem wordReadAs {n : Number} {f : Binary.Format} {word : Nat} (l : Decimal.Layout)
    (wide : 0 < f.fractionBits) (fits : f.fractionBits ≤ 52)
    (text : n.chars = l.chars (Binary.decode f word))
    (value : n.rational? = (Binary.decode f word).rational?)
    (sign : n.negative = (Binary.decode f word).isNegative)
    (nearest : ∀ {x}, f.Nearest word x → n.Nearest x)
    (other : l.nan = "null" ∧ l.infinity = "null" ∧ l.negativeInfinity = "null") :
    ∃ d, n.ReadAs d := by
  obtain ⟨nan, infinity, negativeInfinity⟩ := other
  cases decoded : Binary.decode f word with
  | nan =>
    rw [decoded] at text value
    exact ⟨.null, .other value (text.trans (by rw [Decimal.Layout.chars, nan]; rfl))⟩
  | infinite negative =>
    rw [decoded] at text value
    refine ⟨.null, .other value (text.trans ?_)⟩
    cases negative <;> simp [Decimal.Layout.chars, infinity, negativeInfinity]
  | finite negative m q narrow =>
    obtain ⟨t, read, same, near⟩ := wordSpelled l wide fits decoded
    rw [decoded] at sign
    exact ⟨_, .finite t (text ▸ read) (same.trans sign.symm) (nearest near)⟩

theorem integerReadAs (i : Int) : ∃ d, (Number.integer i).ReadAs d := by
  have spelled : Decimal.Spelled ⟨i.natAbs, 0⟩ (Decimal.digits i.natAbs) := by
    have whole := Decimal.wholeSpelled (s := ⟨i.natAbs, 0⟩) false (fun _ => rfl) le_rfl
    simpa [Decimal.zeros] using whole
  obtain ⟨l, read, sign, value⟩ := spelled.literal (decide (i < 0))
  refine ⟨_, .finite l (by simpa [Number.chars, Decimal.signed] using read) sign ?_⟩
  rw [Number.Nearest, value, Decimal.Scientific.value, zpow_zero, mul_one]
  rw [Nat.cast_natAbs]
  rcases lt_or_ge i 0 with negative | positive
  · rw [if_pos (decide_eq_true negative), abs_of_neg negative, Int.cast_neg, neg_one_mul, neg_neg]
  · rw [if_neg (by simpa using positive), abs_of_nonneg positive, one_mul]

theorem numberReadAs (n : Number) : ∃ d, n.ReadAs d := by
  cases n with
  | integer i => exact integerReadAs i
  | real x =>
    exact wordReadAs Number.doubleLayout (by decide) (by decide) rfl rfl rfl id ⟨rfl, rfl, rfl⟩
  | single s =>
    exact wordReadAs Number.singleLayout (by decide) (by decide) rfl rfl rfl id ⟨rfl, rfl, rfl⟩

theorem Number.ReadAs.back {n : Number} {d : Document} (read : n.ReadAs d) (back : n.ReadsBack) :
    d = .number (some n) := by
  obtain ⟨l, text, value⟩ := back
  cases read with
  | finite t here =>
    obtain ⟨rfl, _⟩ := Prod.mk.inj (Option.some.inj (here.symm.trans text))
    rw [value]
  | other _ here =>
    rw [here] at text
    contradiction

/-! ### Counts -/

namespace Json

theorem digitsGrow (ds : List Char) (n : Nat) :
    n ≤ ds.foldl (fun n c => 10 * n + Decimal.digitValue c) n := by
  induction ds generalizing n with
  | nil => exact le_rfl
  | cons d ds ih =>
    have grown := ih (10 * n + Decimal.digitValue d)
    rw [List.foldl_cons]
    omega

theorem gatherAll {n : Nat} {ds : List Char}
    (fits : ds.foldl (fun n c => 10 * n + Decimal.digitValue c) n < 0x10000000000000000) :
    gather n ds = (ds.foldl (fun n c => 10 * n + Decimal.digitValue c) n, []) := by
  induction ds generalizing n with
  | nil => rfl
  | cons d ds ih =>
    rw [List.foldl_cons] at fits
    rw [gather, if_pos ((digitsGrow ds _).trans_lt fits)]
    exact ih fits

theorem countReadsBack {n : Nat} (fits : n < 0x10000000000000000) :
    (Number.integer n).ReadsBack := by
  let l : Literal := ⟨false, Decimal.digits n, none, none⟩
  have lead : (Decimal.digits n).head? = some '0' → Decimal.digits n = ['0'] := by
    intro zero
    have nothing : n = 0 := by_contra fun positive => Decimal.digitsHead positive zero
    rw [nothing, Decimal.digitsZero]
  have text : l.chars = (Number.integer n).chars :=
    (List.append_nil _).trans (Decimal.signedCount n).symm
  refine ⟨l, ?_, ?_⟩
  · rw [← text]
    exact literalChars ⟨Decimal.digitsSome n, Decimal.digitsAll n, lead, nofun⟩
  · have value : Decimal.ofDigits (Decimal.digits n) = n := Decimal.ofDigitsOfNat n
    have gathered : gather 0 (Decimal.digits n) = (Decimal.ofDigits (Decimal.digits n), []) :=
      gatherAll (value.trans_lt fits)
    rw [Literal.value, gathered]
    change some (Number.integer (Decimal.ofDigits (Decimal.digits n))) = _
    rw [value]

end Json

end EvalReport
