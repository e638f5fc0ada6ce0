import EvalReport.Proofs.Availability
import EvalReport.Proofs.MemoryMode
import EvalReport.Proofs.OrderFree

/-! What each part of a scored report reads. Accuracy, confusion scores and correlation read the
labels of the examples and no score. The soft scores of a label read its own column: whether it is
expected, and the score it was given. -/
namespace EvalReport

open Arithmetic Ranking

structure Example.Fits {t : Task} (catalogue : Nat) (x : Example t) : Prop where
  referenced : ∀ label ∈ x.referenced, label < catalogue
  scored : ∃ row, x.scores = some row ∧ row.length = catalogue

def Example.column {t : Task} (label : Nat) (x : Example t) : Bool × Option Score :=
  (x.expects label, x.scores.bind (·[label]?))

namespace Report

variable {t : Task} {xs ys : List (Example t)} {α : Type} [Arithmetic α]

theorem judgedColumn (label : Nat) (x : Example t) :
    judgedOnce label x = ⟨(x.column label).1, (x.column label).2.getD ⟨0⟩⟩ := by
  unfold judgedOnce keptRow Example.column
  cases x.scores with
  | none => rfl
  | some row => simp [List.getD_eq_getElem?_getD]

theorem judgedColumns {label : Nat} (alike : xs.map (·.column label) = ys.map (·.column label)) :
    judged xs (xs.map keptRow) label = judged ys (ys.map keptRow) label := by
  have columns := congrArg
    (List.map fun c : Bool × Option Score => Judged.mk c.1 (c.2.getD ⟨0⟩)) alike
  simp only [List.map_map, Function.comp_def, ← judgedColumn] at columns
  rw [judgedKept, judgedKept]
  exact columns

theorem softKeys {labels : List String} (distinct : labels.Nodup) (thresholds : List α)
    (xs : List (Example t)) (rows : List (List Score)) (name : String) :
    name ∈ (softScores labels thresholds xs rows).keys ↔ name ∈ labels :=
  Table.keyOfNames distinct (fun label => SoftScores.compute (judged xs rows label) thresholds) name

theorem hardOnlyLabels (labels : List String)
    (same : xs.map Example.withhold = ys.map Example.withhold) (loss : Option α)
    (keepLabels : Bool) :
    hardOnly labels xs loss keepLabels = hardOnly labels ys loss keepLabels := by
  rw [← hardOnlyWithheld, same, hardOnlyWithheld]

theorem tallyLabels (labels : List String)
    (same : xs.map Example.withhold = ys.map Example.withhold) :
    tally labels xs = tally labels ys := by
  unfold tally
  rw [← confusionsWithheld xs, same, confusionsWithheld]

theorem mccLabels {labels : List String}
    (same : xs.map Example.withhold = ys.map Example.withhold) (rows rows' : List (List Score))
    (thresholds : List α) {r r' : Report α} (plain : r.mcc = r'.mcc) :
    (withScores labels xs rows thresholds r).mcc =
      (withScores labels ys rows' thresholds r').mcc := by
  unfold withScores
  rw [tallyLabels labels same]
  dsimp only
  split
  · rfl
  · exact plain

theorem computeFits {labels : List String} {options : ReportOptions α} (ranked : t.isRanked = true)
    (soft : options.soft = true) (fits : ∀ x ∈ xs, x.Fits labels.length) (loss : Option α) :
    compute labels xs loss options =
      .ok (withScores labels xs (xs.map keptRow) options.thresholds
        (hardOnly labels xs loss options.keepLabels), []) := by
  have clear := strayLabelNone.mpr fun x member => (fits x member).referenced
  have rows := scoreRowsWide fun x member => (fits x member).scored
  simp only [compute, clear, ranked, soft, rows, Bool.and_self, if_true]

end Report

open Report in
theorem metricsIndependent {t : Task} (ranked : t.isRanked = true) {labels : List String}
    (distinct : labels.Nodup) {α : Type} [Arithmetic α] {options : ReportOptions α}
    (soft : options.soft = true) {xs ys : List (Example t)}
    (fits : ∀ x ∈ xs, x.Fits labels.length) (fitsToo : ∀ y ∈ ys, y.Fits labels.length)
    (loss loss' : Option α) :
    ∃ r s softR softS, compute labels xs loss options = .ok (r, []) ∧
      compute labels ys loss' options = .ok (s, []) ∧
      r.soft = some softR ∧ s.soft = some softS ∧
      (xs.map Example.withhold = ys.map Example.withhold →
        r.accuracy = s.accuracy ∧ r.hard = s.hard ∧ r.mcc = s.mcc) ∧
      (∀ name, name ∈ softR.keys ↔ name ∈ labels) ∧
      (∀ label name, labels[label]? = some name →
        xs.map (·.column label) = ys.map (·.column label) →
        ∃ entry, softR.find? name = some entry ∧ softS.find? name = some entry) ∧
      (t = .singleLabel → labels.length = 2 → ∀ first, labels[0]? = some first →
        ∃ entry, softR.find? first = some entry ∧ r.rocAuc = entry.rocAuc) := by
  refine ⟨_, _, _, _, computeFits ranked soft fits loss, computeFits ranked soft fitsToo loss',
    withScoresSoft .., withScoresSoft .., ?_, softKeys distinct _ _ _, ?_, ?_⟩
  · intro same
    have hard := hardOnlyLabels labels same loss options.keepLabels
    obtain ⟨accuracy, scores, _⟩ := withScoresParts labels xs (xs.map keptRow) options.thresholds
      (hardOnly labels xs loss options.keepLabels)
    obtain ⟨accuracy', scores', _⟩ := withScoresParts labels ys (ys.map keptRow) options.thresholds
      (hardOnly labels ys loss' options.keepLabels)
    rw [accuracy, accuracy', scores, scores', hard]
    exact ⟨rfl, rfl, mccLabels same _ _ _ rfl⟩
  · intro label name here alike
    refine ⟨_, softFound distinct _ _ _ here, ?_⟩
    rw [softFound distinct _ _ _ here, judgedColumns alike]
  · rintro rfl two first here
    refine ⟨_, softFound distinct _ _ _ here, ?_⟩
    exact (withScoresBinary rfl two xs (xs.map keptRow) options.thresholds _).2

def oneColumn (scores : List Score) (guess : Nat) : List (Example .singleLabel) :=
  [⟨some (⟨0x80000000⟩ :: scores), guess, 0⟩, ⟨some (⟨0⟩ :: scores), 1, 1⟩]

theorem oneColumnRanked :
    ∃ r s : Report Float, ∃ softR softS,
      Report.compute ["no", "yes"] (oneColumn [⟨0x7fc00000⟩] 0) none .default = .ok (r, []) ∧
      Report.compute ["no", "yes"] (oneColumn [⟨0x3f800000⟩] 1) none .default = .ok (s, []) ∧
      r.soft = some softR ∧ s.soft = some softS ∧
      ∃ entry, softR.find? "no" = some entry ∧ softS.find? "no" = some entry ∧
        r.rocAuc = entry.rocAuc := by
  have fits : ∀ score guess, guess < 2 → ∀ x ∈ oneColumn [score] guess, x.Fits 2 := by
    intro score guess below x member
    rcases List.mem_cons.mp member with rfl | second
    · have referenced : ∀ label ∈ [guess, 0], label < 2 := by simpa using below
      exact ⟨referenced, _, rfl, rfl⟩
    · have referenced : ∀ label ∈ [1, 1], label < 2 := by decide
      rw [List.mem_singleton.mp second]
      exact ⟨referenced, _, rfl, rfl⟩
  have distinct : ["no", "yes"].Nodup := by decide
  have soft : ReportOptions.default.soft = true := rfl
  obtain ⟨r, s, softR, softS, first, second, present, presentToo, _, _, columns, binary⟩ :=
    metricsIndependent rfl distinct soft (fits ⟨0x7fc00000⟩ 0 (by decide))
      (fits ⟨0x3f800000⟩ 1 (by decide)) none none
  obtain ⟨entry, here, there⟩ := columns 0 "no" rfl rfl
  obtain ⟨_, again, area⟩ := binary rfl rfl "no" rfl
  cases here.symm.trans again
  exact ⟨r, s, softR, softS, first, second, present, presentToo, entry, here, there, area⟩

end EvalReport
