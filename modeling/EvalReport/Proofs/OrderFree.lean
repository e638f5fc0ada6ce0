import EvalReport.Proofs.Alignment
import EvalReport.Proofs.Runs
import EvalReport.Proofs.Table

/-! Reports do not depend on the order of the examples. Counts are sums. A ranking is read run
by run: so many examples, so many of them relevant, and the last score, which is the same for
every order since a run ends with the least of its words. -/
namespace EvalReport

/-! ### Counts -/

theorem Counts.recordSwap (c : Counts) (o p : Outcome) (n m : Nat) :
    (c.record o n).record p m = (c.record p m).record o n := by
  cases o <;> cases p <;> simp [Counts.record, Nat.add_right_comm]

theorem Tracker.recordSwap (t : Tracker) (a b : String) (o p : Outcome) (n m : Nat) :
    (t.record a o n).record b p m = (t.record b p m).record a o n := by
  apply Table.eqOfFind
  intro name
  simp only [Tracker.record, Table.findAlter]
  by_cases same : a = b
  · subst same
    by_cases asked : a = name <;> simp [asked, Counts.recordSwap]
  · simp only [same, Ne.symm same, if_false]
    by_cases first : a = name
    · subst first
      simp [Ne.symm same]
    · simp [first]

namespace Report

variable {t : Task} {xs ys : List (Example t)}

theorem tallyAlike (labels : List String)
    (perm : (xs.flatMap (·.confusions)).Perm (ys.flatMap (·.confusions))) :
    tally labels xs = tally labels ys :=
  perm.foldl_eq' (fun _ _ _ _ tracker => tracker.recordSwap _ _ _ _ 1 1) ∅

theorem tallyPerm (labels : List String) (perm : xs.Perm ys) :
    tally labels xs = tally labels ys :=
  tallyAlike labels (perm.flatMap_right _)

theorem totalPerm (count : Example t → Nat) (perm : xs.Perm ys) :
    total count xs = total count ys :=
  perm.foldl_eq' (fun _ _ _ _ n => Nat.add_right_comm n _ _) 0

theorem hardOnlyPerm {α : Type} [Arithmetic α] (labels : List String) (perm : xs.Perm ys)
    (loss : Option α) (keepLabels : Bool) :
    hardOnly labels xs loss keepLabels = hardOnly labels ys loss keepLabels := by
  simp only [hardOnly, totalPerm _ perm, tallyPerm labels perm]

end Report

/-! ### Rankings -/

namespace Ranking

variable {xs ys : List Judged}

section Sorted

variable (ordered : Int → Int → Prop) [Std.Antisymm ordered]

theorem lastAlike (perm : xs.Perm ys)
    (first : xs.Pairwise fun a b => ordered a.score.place b.score.place)
    (second : ys.Pairwise fun a b => ordered a.score.place b.score.place) :
    xs.getLast?.map (·.score) = ys.getLast?.map (·.score) := by
  have left : (xs.map (·.score)).Pairwise fun a b => ordered a.place b.place :=
    List.pairwise_map.mpr first
  have right : (ys.map (·.score)).Pairwise fun a b => ordered a.place b.place :=
    List.pairwise_map.mpr second
  have words : xs.map (·.score) = ys.map (·.score) := by
    refine List.Perm.eq_of_pairwise ?_ left right (perm.map _)
    intro a b _ _ below above
    exact Score.placeInjective (antisymm_of ordered below above)
  rw [← List.getLast?_map, ← List.getLast?_map, words]

theorem permAlike {rs ss : List (List Judged)} (perms : List.Forall₂ List.Perm rs ss)
    (first : rs.flatten.Pairwise fun a b => ordered a.score.place b.score.place)
    (second : ss.flatten.Pairwise fun a b => ordered a.score.place b.score.place) :
    List.Forall₂ ReadAlike rs ss := by
  induction perms with
  | nil => exact .nil
  | cons perm _ ih =>
    obtain ⟨sortedR, laterR, _⟩ := List.pairwise_append.mp first
    obtain ⟨sortedS, laterS, _⟩ := List.pairwise_append.mp second
    have one := ReadAlike.mk perm.length_eq (perm.countP_eq _)
      (lastAlike ordered perm sortedR sortedS)
    exact .cons one (ih laterR laterS)

end Sorted

theorem descendingAlike (numbers : Numbers xs) (perm : xs.Perm ys) :
    List.Forall₂ ReadAlike (runs (descending xs)) (runs (descending ys)) := by
  have others := numbersPerm numbers perm
  have same := (descendingPerm xs).trans (perm.trans (descendingPerm ys).symm)
  rw [← runsWhole (descending xs), ← runsWhole (descending ys)] at same
  have perms := tiersAlike (descendingTiers numbers) (descendingTiers others) same
  exact permAlike (· ≥ ·) perms ((runsWhole _).symm ▸ descendingSorted xs)
    ((runsWhole _).symm ▸ descendingSorted ys)

theorem ascendingAlike (numbers : Numbers xs) (perm : xs.Perm ys) :
    List.Forall₂ ReadAlike (runs (ascending xs)) (runs (ascending ys)) := by
  have others := numbersPerm numbers perm
  have same := (ascendingPerm xs).trans (perm.trans (ascendingPerm ys).symm)
  rw [← runsWhole (ascending xs), ← runsWhole (ascending ys)] at same
  have perms := tiersAlike (ascendingTiers numbers) (ascendingTiers others) same
  exact permAlike (· ≤ ·) perms ((runsWhole _).symm ▸ ascendingSorted xs)
    ((runsWhole _).symm ▸ ascendingSorted ys)

variable {α : Type} [Arithmetic α]

theorem rocAucPerm (numbers : Numbers xs) (perm : xs.Perm ys) :
    (rocAuc xs : Option α) = rocAuc ys :=
  rocAucAlike (ascendingAlike numbers perm)

theorem computePerm (numbers : Numbers xs) (perm : xs.Perm ys) (thresholds : List α) :
    SoftScores.compute xs thresholds = SoftScores.compute ys thresholds :=
  computeAlike (descendingAlike numbers perm) (ascendingAlike numbers perm) thresholds

end Ranking

/-! ### Reports -/

namespace Report

open Ranking

variable {t : Task} {xs ys : List (Example t)} {α : Type} [Arithmetic α]

structure Scored (catalogue : Nat) (x : Example t) (row : List Score) : Prop where
  scores : x.scores = some row
  width : row.length = catalogue
  numbers : ∀ s ∈ row, s.isNaN = false

def keptRow (x : Example t) : List Score := x.scores.getD []

theorem scoreRowsWide {catalogue : Nat}
    (wide : ∀ x ∈ xs, ∃ row, x.scores = some row ∧ row.length = catalogue) :
    scoreRows catalogue xs = .ok (some (xs.map keptRow)) := by
  refine scoreRowsExact.mpr ⟨?_, ?_⟩
  · rw [List.map_map]
    apply List.map_congr_left
    intro x member
    obtain ⟨row, kept, _⟩ := wide x member
    simp [keptRow, kept]
  · simp only [List.mem_map, forall_exists_index, and_imp, forall_apply_eq_imp_iff₂]
    intro x member
    obtain ⟨row, kept, width⟩ := wide x member
    simp [keptRow, kept, width]

theorem scoreRowsFound {catalogue : Nat} {rows : List (List Score)}
    (read : scoreRows catalogue xs = .ok (some rows)) :
    ∀ x ∈ xs, ∃ row, x.scores = some row ∧ row.length = catalogue := by
  obtain ⟨same, wide⟩ := scoreRowsExact.mp read
  intro x member
  have inside : x.scores ∈ rows.map some := same ▸ List.mem_map_of_mem member
  obtain ⟨row, among, present⟩ := List.mem_map.mp inside
  exact ⟨row, present.symm, wide row among⟩

theorem scoreRowsKept {catalogue : Nat} (scored : ∀ x ∈ xs, ∃ row, Scored catalogue x row) :
    scoreRows catalogue xs = .ok (some (xs.map keptRow)) :=
  scoreRowsWide fun x member => (scored x member).imp fun _ kept => ⟨kept.scores, kept.width⟩

theorem scoreRowsWithheld {catalogue : Nat} (some : xs ≠ [])
    (withheld : ∀ x ∈ xs, x.scores = none) : scoreRows catalogue xs = .ok none := by
  obtain ⟨x, others, rfl⟩ := List.exists_cons_of_ne_nil some
  simp [scoreRows, withheld x List.mem_cons_self]

def judgedOnce (label : Nat) (x : Example t) : Judged :=
  ⟨x.expects label, (keptRow x).getD label ⟨0⟩⟩

theorem judgedKept (xs : List (Example t)) (label : Nat) :
    judged xs (xs.map keptRow) label = xs.map (judgedOnce label) := by
  simp [judged, judgedOnce, List.zipWith_map_right, List.zipWith_self]

theorem judgedNumbers {catalogue : Nat} (scored : ∀ x ∈ xs, ∃ row, Scored catalogue x row)
    (label : Nat) : Numbers (xs.map (judgedOnce label)) := by
  simp only [Numbers, List.mem_map, forall_exists_index, and_imp, forall_apply_eq_imp_iff₂]
  intro x member
  obtain ⟨row, kept⟩ := scored x member
  simp only [judgedOnce, keptRow, kept.scores, Option.getD_some, List.getD_eq_getElem?_getD]
  cases found : row[label]? with
  | none => rfl
  | some s => exact kept.numbers s (List.mem_of_getElem? found)

theorem withScoresPerm {labels : List String} (perm : xs.Perm ys)
    (scored : ∀ x ∈ xs, ∃ row, Scored labels.length x row) (thresholds : List α)
    (r : Report α) :
    withScores labels xs (xs.map keptRow) thresholds r =
      withScores labels ys (ys.map keptRow) thresholds r := by
  have columns : ∀ label, (xs.map (judgedOnce label)).Perm (ys.map (judgedOnce label)) :=
    fun label => perm.map _
  have soft : softScores labels thresholds xs (xs.map keptRow) =
      softScores labels thresholds ys (ys.map keptRow) := by
    simp only [softScores, judgedKept,
      fun label => computePerm (judgedNumbers scored label) (columns label) thresholds]
  simp only [withScores, soft, tallyPerm labels perm, judgedKept,
    rocAucPerm (judgedNumbers scored 0) (columns 0)]

end Report

open Report in
theorem reportOrderFree {t : Task} {α : Type} [Arithmetic α] (labels : List String)
    {xs ys : List (Example t)} (perm : xs.Perm ys)
    (referenced : ∀ x ∈ xs, ∀ label ∈ x.referenced, label < labels.length)
    (scores : (∀ x ∈ xs, ∃ row, Scored labels.length x row) ∨ ∀ x ∈ xs, x.scores = none)
    (loss : Option α) (options : ReportOptions α) :
    ∃ made, compute labels xs loss options = .ok made ∧
      compute labels ys loss options = .ok made := by
  have clear : strayLabel labels.length xs = none := strayLabelNone.mpr referenced
  have clearToo : strayLabel labels.length ys = none :=
    strayLabelNone.mpr fun y member => referenced y (perm.mem_iff.mpr member)
  simp only [compute, clear, clearToo, hardOnlyPerm labels perm loss options.keepLabels]
  by_cases ranked : (t.isRanked && options.soft) = true
  · simp only [ranked, if_true]
    rcases scores with scored | withheld
    · have scoredToo := fun y member => scored y (perm.mem_iff.mpr member)
      rw [scoreRowsKept scored, scoreRowsKept scoredToo]
      exact ⟨_, rfl, by rw [withScoresPerm perm scored]⟩
    · have withheldToo := fun y member => withheld y (perm.mem_iff.mpr member)
      by_cases empty : xs = []
      · subst empty
        rw [← perm.nil_eq]
        exact ⟨_, rfl, rfl⟩
      · have some : ys ≠ [] := fun none => empty (none ▸ perm).eq_nil
        rw [scoreRowsWithheld empty withheld, scoreRowsWithheld some withheldToo]
        exact ⟨_, rfl, rfl⟩
  · simp only [ranked]
    exact ⟨_, rfl, rfl⟩

def tiedZeros : List (Example .singleLabel) :=
  [⟨some [⟨0x80000000⟩, ⟨0x3f800000⟩], 1, 0⟩, ⟨some [⟨0⟩, ⟨0xbf800000⟩], 0, 1⟩]

theorem tiedZerosTurned :
    Report.compute ["no", "yes"] tiedZeros none .default =
      Report.compute ["no", "yes"] tiedZeros.reverse none .default := by
  have referenced : ∀ x ∈ tiedZeros, ∀ label ∈ x.referenced, label < 2 := by decide
  have scored : ∀ x ∈ tiedZeros, ∃ row, Report.Scored 2 x row := by
    intro x member
    rcases List.mem_cons.mp member with rfl | second
    · exact ⟨_, rfl, rfl, by decide⟩
    · rw [List.mem_singleton.mp second]
      exact ⟨_, rfl, rfl, by decide⟩
  obtain ⟨made, first, second⟩ := reportOrderFree ["no", "yes"] tiedZeros.reverse_perm.symm
    referenced (.inl scored) none .default
  rw [first, second]

end EvalReport
