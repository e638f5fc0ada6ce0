import EvalReport.Proofs.OrderFree

/-! Score rows of another width than the catalogue. The first example that does not carry a row of
the catalogue's width ends the scan: a row of another width is a fault, a withheld one hides all
that stand behind it. So such a row is found wherever no withheld one comes first, and the order of
the examples matters exactly where both kinds are among them. -/
namespace EvalReport

namespace Example

variable {t : Task}

def Spans (catalogue : Nat) (x : Example t) : Prop :=
  ∃ row, x.scores = some row ∧ row.length = catalogue

def Misfits (catalogue : Nat) (x : Example t) : Prop :=
  ∃ row, x.scores = some row ∧ row.length ≠ catalogue

theorem misfitsNot {catalogue : Nat} {x : Example t} (misfits : x.Misfits catalogue) :
    ¬ x.Spans catalogue := by
  obtain ⟨row, present, other⟩ := misfits
  rintro ⟨row', again, wide⟩
  obtain rfl := Option.some.inj (present.symm.trans again)
  exact other wide

end Example

namespace Report

variable {t : Task}

def WithheldFirst (catalogue : Nat) (xs : List (Example t)) : Prop :=
  ∃ before x after, xs = before ++ x :: after ∧
    (∀ y ∈ before, y.Spans catalogue) ∧ x.scores = none

def Stray (catalogue : Nat) (xs : List (Example t)) : Prop :=
  ∃ x ∈ xs, ∃ label ∈ x.referenced, catalogue ≤ label

section Scan

variable {catalogue : Nat} {x : Example t} {xs : List (Example t)}

theorem withheldFirstCons :
    WithheldFirst catalogue (x :: xs) ↔
      x.scores = none ∨ x.Spans catalogue ∧ WithheldFirst catalogue xs := by
  constructor
  · intro first
    obtain ⟨before, y, after, split, spans, withheld⟩ := first
    cases before with
    | nil =>
      cases split
      exact .inl withheld
    | cons z before =>
      obtain ⟨rfl, rest⟩ := List.cons.inj split
      obtain ⟨here, later⟩ := List.forall_mem_cons.mp spans
      exact .inr ⟨here, before, y, after, rest, later, withheld⟩
  · intro cases
    obtain withheld | ⟨spans, before, y, after, rfl, later, withheld⟩ := cases
    · exact ⟨[], x, xs, rfl, by simp, withheld⟩
    · exact ⟨x :: before, y, after, rfl, List.forall_mem_cons.mpr ⟨spans, later⟩, withheld⟩

theorem scoreRowsFails :
    (∃ fault, scoreRows catalogue xs = .error fault) ↔
      (∃ x ∈ xs, x.Misfits catalogue) ∧ ¬ WithheldFirst catalogue xs := by
  induction xs with
  | nil => simp [scoreRows]
  | cons x xs ih =>
    rw [withheldFirstCons, List.exists_mem_cons_iff, scoreRows]
    cases present : x.scores with
    | none => simp
    | some row =>
      by_cases wide : row.length = catalogue
      · have spans : x.Spans catalogue := ⟨row, present, wide⟩
        have fine : ¬ x.Misfits catalogue := fun misfits => Example.misfitsNot misfits spans
        simp only [if_pos wide, fine, spans, false_or, true_and, reduceCtorEq]
        rw [← ih]
        cases scoreRows catalogue xs <;> simp [Except.map]
      · have misfits : x.Misfits catalogue := ⟨row, present, wide⟩
        simp [wide, misfits, Example.misfitsNot misfits]

theorem strayExact : Stray catalogue xs ↔ ∃ label, strayLabel catalogue xs = some label := by
  rw [← Option.isSome_iff_exists, ← not_iff_not, Option.not_isSome_iff_eq_none, strayLabelNone]
  simp [Stray]

end Scan

section Fails

variable {α : Type} [Arithmetic α] {labels : List String} {loss : Option α}
  {options : ReportOptions α}

theorem computeFails (ranked : t.isRanked = true) (soft : options.soft = true)
    {xs : List (Example t)} :
    (∃ fault, compute labels xs loss options = .error fault) ↔
      Stray labels.length xs ∨
        (∃ x ∈ xs, x.Misfits labels.length) ∧ ¬ WithheldFirst labels.length xs := by
  rw [strayExact, ← scoreRowsFails, compute]
  cases strayLabel labels.length xs with
  | some label => simp
  | none =>
    simp only [ranked, soft, Bool.and_self, if_true, reduceCtorEq, exists_false, false_or]
    cases scoreRows labels.length xs with
    | error fault => simp
    | ok found => cases found <;> simp

theorem strayPerm {catalogue : Nat} {xs ys : List (Example t)} (perm : xs.Perm ys) :
    Stray catalogue ys ↔ Stray catalogue xs := by
  simp only [Stray, perm.mem_iff]

/- The first example decides, and any example can be the first. -/
theorem orderDecides (labels : List String) (loss : Option α) (ranked : t.isRanked = true)
    (soft : options.soft = true) {xs : List (Example t)} (inside : ¬ Stray labels.length xs)
    {w m : Example t} (inW : w ∈ xs) (withheld : w.scores = none) (inM : m ∈ xs)
    (misfits : m.Misfits labels.length) :
    ∃ ys zs, xs.Perm ys ∧ xs.Perm zs ∧ (¬ ∃ fault, compute labels ys loss options = .error fault) ∧
      ∃ fault, compute labels zs loss options = .error fault := by
  have brought : ∀ x ∈ xs, ∃ rest, xs.Perm (x :: rest) := by
    intro x member
    obtain ⟨front, back, rfl⟩ := List.append_of_mem member
    exact ⟨front ++ back, List.perm_middle⟩
  obtain ⟨others, permW⟩ := brought w inW
  obtain ⟨rest, permM⟩ := brought m inM
  refine ⟨_, _, permW, permM, ?_, ?_⟩
  · rw [computeFails ranked soft, strayPerm permW, withheldFirstCons]
    simp [inside, withheld]
  · have narrow := Example.misfitsNot misfits
    rw [computeFails ranked soft, withheldFirstCons]
    refine .inr ⟨⟨m, List.mem_cons_self, misfits⟩, ?_⟩
    obtain ⟨row, present, _⟩ := misfits
    simp [present, narrow]

end Fails

end Report

open Report in
theorem widthFaultsFound {t : Task} (ranked : t.isRanked = true) {α : Type} [Arithmetic α]
    (labels : List String) (xs : List (Example t)) (loss : Option α) (options : ReportOptions α)
    (soft : options.soft = true) :
    ((∃ fault, compute labels xs loss options = .error fault) ↔
      Stray labels.length xs ∨
        (∃ x ∈ xs, x.Misfits labels.length) ∧ ¬ WithheldFirst labels.length xs) ∧
    ((∀ ys, xs.Perm ys → ((∃ fault, compute labels ys loss options = .error fault) ↔
        ∃ fault, compute labels xs loss options = .error fault)) ↔
      Stray labels.length xs ∨ (∀ x ∈ xs, x.scores ≠ none) ∨
        ∀ x ∈ xs, ¬ x.Misfits labels.length) := by
  refine ⟨computeFails ranked soft, ?_⟩
  constructor
  · intro orderFree
    by_contra mixed
    simp only [not_or, not_forall, not_not] at mixed
    obtain ⟨inside, ⟨w, inW, withheld⟩, m, inM, misfits⟩ := mixed
    obtain ⟨ys, zs, permYs, permZs, passes, fails⟩ := orderDecides labels loss ranked soft
      inside inW withheld inM misfits
    exact passes ((orderFree ys permYs).mpr ((orderFree zs permZs).mp fails))
  · intro cases ys perm
    simp only [computeFails ranked soft, strayPerm perm, perm.mem_iff.symm]
    obtain stray | present | fitting := cases
    · simp [stray]
    · have shown : ∀ zs, xs.Perm zs → ¬ WithheldFirst labels.length zs := by
        intro zs perm first
        obtain ⟨before, x, after, rfl, _, withheld⟩ := first
        exact present x (perm.mem_iff.mpr (by simp)) withheld
      simp [shown ys perm, shown xs (.refl _)]
    · have none : ¬ ∃ x ∈ xs, x.Misfits labels.length := by simpa using fitting
      simp [none]

def misfitAhead : List (Example .singleLabel) := [⟨some [⟨0⟩], 0, 0⟩, ⟨none, 1, 1⟩]

theorem misfitAheadFound :
    (∃ fault, Report.compute ["no", "yes"] misfitAhead none .default = .error fault) ∧
    ¬ ∀ ys, misfitAhead.Perm ys →
      ((∃ fault, Report.compute ["no", "yes"] ys none .default = .error fault) ↔
        ∃ fault, Report.compute ["no", "yes"] misfitAhead none .default = .error fault) := by
  have misfits : Example.Misfits 2 (t := .singleLabel) ⟨some [⟨0⟩], 0, 0⟩ := ⟨_, rfl, by decide⟩
  have shown : ¬ Report.WithheldFirst 2 misfitAhead := by
    rw [misfitAhead, Report.withheldFirstCons]
    simp [Example.misfitsNot misfits]
  have inside : ¬ Report.Stray 2 misfitAhead := by
    rw [Report.strayExact, show Report.strayLabel 2 misfitAhead = none from rfl]
    simp
  obtain ⟨fails, order⟩ :=
    widthFaultsFound rfl ["no", "yes"] misfitAhead none ReportOptions.default rfl
  refine ⟨fails.mpr (.inr ⟨⟨_, List.mem_cons_self, misfits⟩, shown⟩), fun orderFree => ?_⟩
  obtain stray | present | fitting := order.mp orderFree
  · exact inside stray
  · exact present _ (List.mem_cons_of_mem _ List.mem_cons_self) rfl
  · exact fitting _ List.mem_cons_self misfits

theorem misfitBehindPasses :
    (∃ made, Report.compute ["no", "yes"] misfitAhead.reverse none .default = .ok made) ∧
    (∃ x ∈ misfitAhead.reverse, x.Misfits 2) ∧
    Report.compute ["no", "yes"] misfitAhead none .default =
      .error (.dimensionMismatch (.scoreWidth 2 1)) :=
  ⟨⟨_, rfl⟩, ⟨_, List.mem_cons_of_mem _ List.mem_cons_self, _, rfl, by decide⟩, rfl⟩

end EvalReport
