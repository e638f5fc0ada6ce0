import EvalReport.Decimal.Digits
import EvalReport.Text.Quoted
import Mathlib.Data.List.TakeWhile

/-! Numerals in running text. The digits of a number give it back, and what reads a numeral up to
its end reads the same where more follows, as long as that does not carry the numeral on. -/
namespace EvalReport

namespace Decimal

theorem digitCharRead {d : Nat} (below : d < 10) :
    isDigit (digitChar d) = true ∧ digitValue (digitChar d) = d := by
  revert d
  decide

theorem digitsSome (n : Nat) : digits n ≠ [] := by
  rw [digits]
  split <;> simp

theorem digitsAll (n : Nat) : ∀ c ∈ digits n, isDigit c = true := by
  induction n using digits.induct with
  | case1 n below =>
    rw [digits, if_pos below, List.forall_mem_singleton]
    exact (digitCharRead below).1
  | case2 n above ih =>
    rw [digits, if_neg above, List.forall_mem_append, List.forall_mem_singleton]
    exact ⟨ih, (digitCharRead (Nat.mod_lt n (by omega))).1⟩

theorem ofDigitsAppend (ds : List Char) (c : Char) :
    ofDigits (ds ++ [c]) = 10 * ofDigits ds + digitValue c := by
  simp [ofDigits]

theorem ofDigitsOfNat (n : Nat) : ofDigits (digits n) = n := by
  induction n using digits.induct with
  | case1 n below =>
    rw [digits, if_pos below, ofDigits, List.foldl_cons, List.foldl_nil, (digitCharRead below).2]
    omega
  | case2 n above ih =>
    rw [digits, if_neg above, ofDigitsAppend, ih, (digitCharRead (Nat.mod_lt n (by omega))).2]
    omega

theorem digitsZero : digits 0 = ['0'] := by
  rw [digits]
  rfl

theorem digitsLead {n : Nat} {rest : List Char} (zero : digits n = '0' :: rest) :
    n = 0 ∧ rest = [] := by
  induction n using digits.induct generalizing rest with
  | case1 n below =>
    rw [digits, if_pos below] at zero
    obtain ⟨lead, rfl⟩ := List.cons.inj zero
    have value := (digitCharRead below).2
    rw [lead] at value
    exact ⟨value.symm, rfl⟩
  | case2 n above ih =>
    rw [digits, if_neg above] at zero
    obtain ⟨d, ds, split⟩ := List.exists_cons_of_ne_nil (digitsSome (n / 10))
    rw [split] at zero
    obtain ⟨rfl, _⟩ := List.cons.inj zero
    have none := (ih split).1
    omega

theorem digitsHead {n : Nat} (positive : n ≠ 0) : (digits n).head? ≠ some '0' := by
  intro zero
  obtain ⟨rest, same⟩ := List.head?_eq_some_iff.mp zero
  exact positive (digitsLead same).1

theorem signedCount (n : Nat) : signed n = digits n := by
  rw [signed, if_neg (Int.not_lt.mpr (Int.natCast_nonneg n)), Int.natAbs_natCast]

end Decimal

theorem Text.hexPaddedByte {n : Nat} (below : n < 256) :
    hexPadded 4 n = ['0', '0', hexDigit (n / 16), hexDigit (n % 16)] := by
  have two : n / 16 < 16 := by omega
  rw [hexPadded, hex]
  split
  · rename_i one
    rw [Nat.div_eq_of_lt one, Nat.mod_eq_of_lt one]
    rfl
  · rw [hex, if_pos two]
    rfl

/-! ### Scanners -/

def carriesOn (c : Char) : Bool :=
  Decimal.isDigit c || c == '_' || c == '.' || c == 'e' || c == 'E'

def Ends (rest : List Char) : Prop := ∀ c ∈ rest.head?, carriesOn c = false

/- What reads from the front of a text, and reads the same where more follows. -/
structure Scans {α : Type} (p : List Char → Option (α × List Char)) : Prop where
  shorter : ∀ {cs a left}, p cs = some (a, left) → left.length ≤ cs.length
  more : ∀ {cs a left rest}, p cs = some (a, left) → (left = [] → Ends rest) →
    p (cs ++ rest) = some (a, left ++ rest)

theorem endsDigit {rest : List Char} (ends : Ends rest) :
    ∀ c ∈ rest.head?, Decimal.isDigit c = false := by
  intro c first
  have stops := ends c first
  simp only [carriesOn, Bool.or_eq_false_iff] at stops
  exact stops.1.1.1.1

theorem endsOther {rest : List Char} (ends : Ends rest) {c : Char} (goes : carriesOn c = true) :
    rest.head? ≠ some c := by
  intro first
  have stops := ends c first
  rw [goes] at stops
  contradiction

theorem takeWhileEnd {p : Char → Bool} {rest : List Char}
    (stops : ∀ c ∈ rest.head?, p c = false) :
    rest.takeWhile p = [] ∧ rest.dropWhile p = rest := by
  cases rest with
  | nil => exact ⟨rfl, rfl⟩
  | cons c rest =>
    have stop := stops c rfl
    exact ⟨List.takeWhile_cons_of_neg (by simp [stop]), List.dropWhile_cons_of_neg (by simp [stop])⟩

theorem takeWhileThrough {p : Char → Bool} {ds rest : List Char} (all : ∀ c ∈ ds, p c = true)
    (stops : ∀ c ∈ rest.head?, p c = false) :
    (ds ++ rest).takeWhile p = ds ∧ (ds ++ rest).dropWhile p = rest := by
  obtain ⟨taken, dropped⟩ := takeWhileEnd stops
  rw [List.takeWhile_append_of_pos all, List.dropWhile_append_of_pos all, taken, dropped]
  exact ⟨List.append_nil ds, rfl⟩

namespace Scans

variable {α β : Type} {p : List Char → Option (α × List Char)}

theorem pure (a : α) : Scans fun cs => some (a, cs) := by
  constructor
  · intro cs b left read
    cases Option.some.inj read
    exact le_rfl
  · intro cs b left rest read _
    cases Option.some.inj read
    rfl

theorem bind (first : Scans p) {q : α → List Char → Option (β × List Char)}
    (second : ∀ a, Scans (q a)) : Scans fun cs => (p cs).bind fun e => q e.1 e.2 := by
  constructor
  · intro cs b left read
    obtain ⟨⟨a, mid⟩, here, there⟩ := Option.bind_eq_some_iff.mp read
    exact ((second a).shorter there).trans (first.shorter here)
  · intro cs b left rest read ends
    obtain ⟨⟨a, mid⟩, here, there⟩ := Option.bind_eq_some_iff.mp read
    refine Option.bind_eq_some_iff.mpr ⟨(a, mid ++ rest), first.more here ?_, ?_⟩
    · intro none
      have room := (second a).shorter there
      exact ends (List.length_eq_zero_iff.mp (by simpa [none] using room))
    · exact (second a).more there ends

theorem map (first : Scans p) (f : α → β) : Scans fun cs => (p cs).map fun e => (f e.1, e.2) := by
  constructor
  · intro cs b left read
    obtain ⟨⟨a, mid⟩, here, same⟩ := Option.map_eq_some_iff.mp read
    cases same
    exact first.shorter here
  · intro cs b left rest read ends
    obtain ⟨⟨a, mid⟩, here, same⟩ := Option.map_eq_some_iff.mp read
    cases same
    exact Option.map_eq_some_iff.mpr ⟨(a, mid ++ rest), first.more here ends, rfl⟩

end Scans

end EvalReport
