import EvalReport.Proofs.Conservation
import EvalReport.Proofs.Exact

/-! Reports of passes without a mistake. In the fractions the F1 of a label is one only where the
label was hit and neither missed nor wrongly charged, and values of at most one have the average
one only if each of them is one. So a single mistake shows in every number. -/
namespace EvalReport

open Arithmetic

theorem sumTop {xs : List ℚ} (top : ∀ x ∈ xs, x ≤ 1) : xs.sum ≤ xs.length := by
  simpa using xs.sum_le_card_nsmul 1 top

theorem sumFull {xs : List ℚ} (top : ∀ x ∈ xs, x ≤ 1) :
    xs.sum = xs.length ↔ ∀ x ∈ xs, x = 1 := by
  induction xs with
  | nil => simp
  | cons x rest ih =>
    obtain ⟨first, later⟩ := List.forall_mem_cons.mp top
    rw [List.forall_mem_cons, ← ih later, List.sum_cons, List.length_cons, Nat.cast_succ]
    have room := sumTop later
    constructor
    · intro full
      constructor <;> linarith
    · rintro ⟨rfl, full⟩
      linarith

section Scores

variable [Fractions]

theorem Arithmetic.ratioFraction (part whole : ℚ) : ratio part whole = part / whole := by
  simp only [ratio, isZero, zero, ofCount, decide_eq_true_eq]
  split
  · rename_i none
    simp [none]
  · rfl

namespace Counts

theorem f1Fraction (c : Counts) : (c.scores : LabelScores ℚ).f1 =
    2 * c.truePositives / (2 * c.truePositives + c.falsePositives + c.falseNegatives) := by
  simp only [scores, Arithmetic.harmonic, ratioFraction, shareFraction, ofCount, Nat.cast_add,
    Nat.cast_ofNat]
  rcases Nat.eq_zero_or_pos c.truePositives with none | some
  · simp [none]
  · have positive : (0 : ℚ) < c.truePositives := Nat.cast_pos.mpr some
    field_simp
    ring

theorem f1Top (c : Counts) : (c.scores : LabelScores ℚ).f1 ≤ 1 := by
  rw [f1Fraction]
  refine div_le_one_of_le₀ ?_ (by positivity)
  have charged : (0 : ℚ) ≤ c.falsePositives := Nat.cast_nonneg _
  have missed : (0 : ℚ) ≤ c.falseNegatives := Nat.cast_nonneg _
  linarith

theorem f1One (c : Counts) : (c.scores : LabelScores ℚ).f1 = 1 ↔
    0 < c.truePositives ∧ c.falsePositives = 0 ∧ c.falseNegatives = 0 := by
  rw [f1Fraction]
  constructor
  · intro full
    have some : (2 * c.truePositives + c.falsePositives + c.falseNegatives : ℚ) ≠ 0 := by
      intro none
      rw [none, div_zero] at full
      exact zero_ne_one full
    have even : 2 * c.truePositives =
        2 * c.truePositives + c.falsePositives + c.falseNegatives := by
      exact_mod_cast (div_eq_one_iff_eq some).mp full
    norm_cast at some
    omega
  · rintro ⟨hit, charged, missed⟩
    rw [charged, missed, Nat.cast_zero, add_zero, add_zero]
    exact div_self (by positivity)

end Counts

namespace Tracker

theorem averageFraction (t : Tracker) (part : LabelScores ℚ → ℚ) :
    t.average part = (t.entries.map fun e => part e.2.scores).sum / t.entries.length := by
  rw [average, ratioFraction, List.sum_eq_foldl]
  simp only [zero, ofCount, Nat.cast_zero, Table.size]

theorem averageFull (t : Tracker) : (t.average (·.f1) : ℚ) = 1 ↔
    t.entries ≠ [] ∧ ∀ e ∈ t.entries, (e.2.scores : LabelScores ℚ).f1 = 1 := by
  rw [averageFraction]
  by_cases none : t.entries = []
  · simp [none]
  · have some : (t.entries.length : ℚ) ≠ 0 := by simpa using none
    have top : ∀ x ∈ t.entries.map fun e => (e.2.scores : LabelScores ℚ).f1, x ≤ 1 :=
      List.forall_mem_map.mpr fun e _ => e.2.f1Top
    have full := sumFull top
    rw [List.length_map, List.forall_mem_map] at full
    rw [div_eq_one_iff_eq some, full, and_iff_right none]

end Tracker

end Scores

/-! ### One example -/

namespace Example

variable {t : Task}

/- What was predicted is what was expected: the label, the labels in any order, or the label
among the candidates. -/
def Right : {t : Task} → Example t → Prop
  | .singleLabel, x => x.predicted = x.expected
  | .multiLabel, x => ∀ label : Nat, label ∈ x.predicted ↔ label ∈ x.expected
  | .topK, x => x.expected ∈ x.predicted

theorem hitsFull (x : Example t) :
    x.hits = x.opportunities ↔ ∀ label ∈ x.expectedLabels, x.predicts label :=
  List.countP_eq_length

theorem rightHit (x : Example t) (one : t ≠ .multiLabel) :
    x.Right ↔ ∀ label ∈ x.expectedLabels, x.predicts label := by
  cases t with
  | singleLabel =>
    simp [Right, predicts, expectedLabels, predictedLabels, Task.expectedLabels,
      Task.predictedLabels, eq_comm]
  | multiLabel => contradiction
  | topK =>
    simp [Right, predicts, expectedLabels, predictedLabels, Task.expectedLabels,
      Task.predictedLabels]

theorem rightCharged (x : Example t) :
    x.Right ↔ (∀ label ∈ x.expectedLabels, x.predicts label) ∧ x.charged = [] := by
  cases t with
  | singleLabel =>
    refine (rightHit x (by decide)).trans (iff_self_and.mpr fun hit => ?_)
    have same : x.Right := (rightHit x (by decide)).mpr hit
    refine List.filter_eq_nil_iff.mpr fun label predicted => ?_
    rw [List.mem_singleton.mp predicted, same]
    simp [expects, expectedLabels, Task.expectedLabels]
  | multiLabel =>
    have charged : x.charged = [] ↔ ∀ label ∈ x.predictedLabels, x.expects label := by
      simp [Example.charged]
    simp only [charged, predicts, expects, List.contains_iff_mem]
    exact ⟨fun same => ⟨fun label => (same label).mpr, fun label => (same label).mp⟩,
      fun both label => ⟨both.2 label, both.1 label⟩⟩
  | topK =>
    refine (rightHit x (by decide)).trans (iff_self_and.mpr fun hit => ?_)
    exact if_pos (hit x.expected List.mem_cons_self)

theorem rightConfusions (x : Example t) :
    x.Right ↔ ∀ e ∈ x.confusions, e.2 = .truePositive := by
  rw [rightCharged, confusions, List.forall_mem_append, List.forall_mem_map, List.forall_mem_map]
  refine and_congr (forall₂_congr fun label _ => ?_) ?_
  · cases x.predicts label <;> simp
  · simp [List.eq_nil_iff_forall_not_mem]

theorem noTrueNegative (x : Example t) (label : Nat) : (label, .trueNegative) ∉ x.confusions := by
  rw [← List.count_eq_zero, confusionCount]
  cases x.predicts label <;> simp

theorem referencedSome (x : Example t) (one : t ≠ .multiLabel) : x.referenced ≠ [] := by
  cases t with
  | singleLabel | topK => exact List.append_ne_nil_of_right_ne_nil _ (List.cons_ne_nil _ _)
  | multiLabel => contradiction

theorem confusionsSome (x : Example t) (some : x.referenced ≠ []) : x.confusions ≠ [] := by
  intro none
  have absent : ∀ label, ¬ (label ∈ x.expectedLabels ∨ label ∈ x.charged) := by
    intro label
    rw [← x.confused, none]
    simp
  have right : x.Right := by
    rw [rightConfusions, none]
    simp
  obtain ⟨label, member⟩ := List.exists_mem_of_ne_nil _ some
  rcases List.mem_append.mp member with predicted | expected
  · cases t with
    | singleLabel | topK => exact absent x.expected (.inl List.mem_cons_self)
    | multiLabel => exact absent label (.inl ((right label).mp predicted))
  · exact absent label (.inl expected)

end Example

/-! ### Whole reports -/

theorem Table.mapFound {β γ : Type} (t : Table β) (f : β → γ) (P : γ → Prop) :
    (∀ name value, (t.map f).find? name = some value → P value) ↔ ∀ e ∈ t.entries, P (f e.2) := by
  simp only [findMap, Option.map_eq_some_iff, forall_exists_index, and_imp,
    forall_apply_eq_imp_iff₂, ← memberFound, Prod.forall]

namespace Report

variable {t : Task} {labels : List String} {xs : List (Example t)}

theorem totalFull (count top : Example t → Nat) (within : ∀ x ∈ xs, count x ≤ top x) :
    total count xs = total top xs ↔ ∀ x ∈ xs, count x = top x := by
  rw [totalSum, totalSum]
  induction xs with
  | nil => simp
  | cons x rest ih =>
    obtain ⟨first, later⟩ := List.forall_mem_cons.mp within
    have room : (rest.map count).sum ≤ (rest.map top).sum := List.sum_le_sum later
    rw [List.forall_mem_cons, ← ih later, List.map_cons, List.map_cons, List.sum_cons,
      List.sum_cons]
    omega

theorem opportunitiesSome (one : t ≠ .multiLabel) (some : xs ≠ []) :
    total Example.opportunities xs ≠ 0 := by
  obtain ⟨x, member⟩ := List.exists_mem_of_ne_nil _ some
  have single : x.opportunities = 1 := by
    cases t with
    | singleLabel | topK => rfl
    | multiLabel => contradiction
  have part : x.opportunities ≤ (xs.map Example.opportunities).sum :=
    List.single_le_sum (by simp) _ (List.mem_map_of_mem member)
  rw [totalSum]
  omega

theorem accuracyFull [Fractions] (one : t ≠ .multiLabel) (some : xs ≠ []) :
    (share (total Example.hits xs) (total Example.opportunities xs) : ℚ) = 1 ↔
      ∀ x ∈ xs, x.Right := by
  have count : (total Example.opportunities xs : ℚ) ≠ 0 :=
    Nat.cast_ne_zero.mpr (opportunitiesSome one some)
  have full := totalFull Example.hits Example.opportunities fun x (_ : x ∈ xs) =>
    List.countP_le_length
  rw [shareFraction, div_eq_one_iff_eq count, Nat.cast_inj, full]
  exact forall₂_congr fun x _ => x.hitsFull.trans (x.rightHit one).symm

section Tallied

variable (distinct : labels.Nodup)
  (below : ∀ x ∈ xs, ∀ label ∈ x.referenced, label < labels.length)

include distinct below

theorem tallySome (some : ∃ x ∈ xs, x.referenced ≠ []) : (tally labels xs).entries ≠ [] := by
  obtain ⟨x, member, referenced⟩ := some
  obtain ⟨entry, confused⟩ := List.exists_mem_of_ne_nil _ (x.confusionsSome referenced)
  have inside := below x member entry.1 (confusionReferenced confused)
  have found := (tallyFound distinct below labels[entry.1]).mpr
    ⟨entry.1, List.getElem?_eq_getElem inside, x, member, entry.2, confused⟩
  obtain ⟨c, here⟩ := Option.isSome_iff_exists.mp found
  exact List.ne_nil_of_mem ((Table.memberFound _).mpr here)

theorem labelFull [Fractions] {name : String} {label : Nat} {c : Counts}
    (here : labels[label]? = some name) (found : (tally labels xs).find? name = some c) :
    (c.scores : LabelScores ℚ).f1 = 1 ↔
      ∀ x ∈ xs, ∀ o, (label, o) ∈ x.confusions → o = .truePositive := by
  have counted : ∀ p, c.of p = (xs.flatMap (·.confusions)).count (label, p) := by
    intro p
    rw [← tallyCounts distinct below here p, Tracker.counts, found, Option.getD_some]
  have hits : c.truePositives = _ := counted .truePositive
  have charges : c.falsePositives = _ := counted .falsePositive
  have misses : c.falseNegatives = _ := counted .falseNegative
  rw [Counts.f1One, hits, charges, misses, List.count_pos_iff, List.count_eq_zero,
    List.count_eq_zero]
  simp only [List.mem_flatMap, not_exists, not_and]
  constructor
  · rintro ⟨_, notCharged, notMissed⟩ x member o confused
    cases o with
    | truePositive => rfl
    | falsePositive => exact absurd confused (notCharged x member)
    | falseNegative => exact absurd confused (notMissed x member)
    | trueNegative => exact absurd confused (x.noTrueNegative label)
  · intro only
    refine ⟨?_, fun x member charged => ?_, fun x member missed => ?_⟩
    · have touched := Option.isSome_iff_exists.mpr ⟨c, found⟩
      obtain ⟨other, there, x, member, o, confused⟩ := (tallyFound distinct below name).mp touched
      obtain ⟨inside, _⟩ := List.getElem?_eq_some_iff.mp there
      cases (List.getElem?_inj inside distinct).mp (there.trans here.symm)
      exact ⟨x, member, only x member o confused ▸ confused⟩
    · exact Outcome.noConfusion (only x member _ charged)
    · exact Outcome.noConfusion (only x member _ missed)

theorem labelsFull [Fractions] :
    (∀ e ∈ (tally labels xs).entries, (e.2.scores : LabelScores ℚ).f1 = 1) ↔
      ∀ x ∈ xs, x.Right := by
  simp only [Example.rightConfusions]
  constructor
  · intro full x member entry confused
    have here := List.getElem?_eq_getElem (below x member entry.1 (confusionReferenced confused))
    have touched := (tallyFound distinct below _).mpr ⟨entry.1, here, x, member, entry.2, confused⟩
    obtain ⟨c, found⟩ := Option.isSome_iff_exists.mp touched
    have one := full _ ((Table.memberFound _).mpr found)
    exact (labelFull distinct below here found).mp one x member entry.2 confused
  · rintro right ⟨name, c⟩ member
    have found := (Table.memberFound _).mp member
    have touched := Option.isSome_iff_exists.mpr ⟨c, found⟩
    obtain ⟨label, here, _⟩ := (tallyFound distinct below name).mp touched
    exact (labelFull distinct below here found).mpr fun x inside o confused =>
      right x inside _ confused

end Tallied

end Report

open Report in
theorem perfectionDetected [Fractions] {t : Task} (labels : List String) (distinct : labels.Nodup)
    {xs : List (Example t)}
    (referenced : ∀ x ∈ xs, ∀ label ∈ x.referenced, label < labels.length) (nonempty : xs ≠ [])
    (labelled : t = .multiLabel → ∃ x ∈ xs, x.referenced ≠ []) (loss : Option ℚ)
    (options : ReportOptions ℚ) :
    ((∃ made, compute labels xs loss options = .ok made) ∨
      ∃ x ∈ xs, ∃ row, x.scores = some row ∧ row.length ≠ labels.length) ∧
    ∀ r log, compute labels xs loss options = .ok (r, log) →
      (t ≠ .multiLabel → (r.accuracy = 1 ↔ ∀ x ∈ xs, x.Right)) ∧
      (r.hard.overall.f1 = 1 ↔ ∀ x ∈ xs, x.Right) ∧
      (options.keepLabels = true →
        ((∀ name s, r.hard.perLabel.find? name = some s → s.f1 = 1) ↔ ∀ x ∈ xs, x.Right)) := by
  refine ⟨computeMade referenced loss options, fun r log made => ?_⟩
  obtain ⟨accuracy, hard, _⟩ := computeParts made
  have full := labelsFull distinct referenced
  have touched : ∃ x ∈ xs, x.referenced ≠ [] := by
    by_cases several : t = .multiLabel
    · exact labelled several
    · obtain ⟨x, member⟩ := List.exists_mem_of_ne_nil _ nonempty
      exact ⟨x, member, x.referencedSome several⟩
  refine ⟨fun one => ?_, ?_, fun kept => ?_⟩
  · rw [accuracy, accuracyFull one nonempty]
  · rw [hard, ← full]
    exact (Tracker.averageFull _).trans (and_iff_right (tallySome distinct referenced touched))
  · rw [← full, hard, kept]
    exact (tally labels xs).mapFound Counts.scores fun s => s.f1 = 1

def missedFirst : List (Example .topK) := [⟨none, [0, 2], 1⟩, ⟨none, [1, 0], 1⟩]

def bothRight : List (Example .multiLabel) := [⟨none, [2, 0], [0, 2]⟩, ⟨none, [], []⟩]

theorem mistakesShow :
    (∃ r log, Report.compute ["a", "b", "c"] missedFirst (none : Option ℚ) ⟨true, [], true⟩ =
        .ok (r, log) ∧ r.accuracy ≠ 1 ∧ r.hard.overall.f1 ≠ 1 ∧
        ∃ name s, r.hard.perLabel.find? name = some s ∧ s.f1 ≠ 1) ∧
    ∃ r log, Report.compute ["a", "b", "c"] bothRight (none : Option ℚ) ⟨true, [], true⟩ =
      .ok (r, log) ∧ r.hard.overall.f1 = 1 := by
  have wrong : ¬ ∀ x ∈ missedFirst, x.Right := by
    intro right
    have first : (1 : Nat) ∈ [0, 2] := right _ List.mem_cons_self
    contradiction
  have right : ∀ x ∈ bothRight, x.Right := by
    refine List.forall_mem_cons.mpr ⟨fun label => ?_, List.forall_mem_singleton.mpr fun _ => ?_⟩
    · exact List.Perm.mem_iff (by decide : ([2, 0] : List Nat).Perm [0, 2])
    · exact Iff.rfl
  constructor
  · obtain ⟨r, log, made⟩ : ∃ r log, Report.compute ["a", "b", "c"] missedFirst (none : Option ℚ)
        ⟨true, [], true⟩ = .ok (r, log) := ⟨_, _, rfl⟩
    obtain ⟨_, each⟩ := perfectionDetected ["a", "b", "c"] (by decide)
      (by decide : ∀ x ∈ missedFirst, ∀ label ∈ x.referenced, label < 3) (by decide) (by decide)
      none ⟨true, [], true⟩
    obtain ⟨accuracy, average, labels⟩ := each r log made
    refine ⟨r, log, made, mt (accuracy (by decide)).mp wrong, mt average.mp wrong, ?_⟩
    simpa using mt (labels rfl).mp wrong
  · obtain ⟨r, log, made⟩ : ∃ r log, Report.compute ["a", "b", "c"] bothRight (none : Option ℚ)
        ⟨true, [], true⟩ = .ok (r, log) := ⟨_, _, rfl⟩
    obtain ⟨_, each⟩ := perfectionDetected ["a", "b", "c"] (by decide)
      (by decide : ∀ x ∈ bothRight, ∀ label ∈ x.referenced, label < 3) (by decide) (by decide)
      none ⟨true, [], true⟩
    exact ⟨r, log, made, (each r log made).2.1.mpr right⟩

end EvalReport
