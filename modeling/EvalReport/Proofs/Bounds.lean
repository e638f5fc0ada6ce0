import EvalReport.Proofs.Decoding
import EvalReport.Proofs.TieRuns

/-! Reports with every access by position checked. The checked report is none as soon as a label
has no name, a score row has no entry for a label, or a loop of a ranking looks past an end. It is
never none: what is looked up is in range, whatever the examples. -/
namespace EvalReport.Report

open Arithmetic Ranking

variable {t : Task}

def tally? (labels : List String) (xs : List (Example t)) : Option Tracker :=
  (xs.flatMap (·.confusions)).foldlM (fun tracker (label, outcome) =>
    labels[label]?.map fun name => tracker.record name outcome 1) ∅

def judged? (xs : List (Example t)) (rows : List (List Score)) (label : Nat) :
    Option (List Judged) :=
  (xs.zip rows).mapM fun (x, row) => row[label]?.map fun score => ⟨x.expects label, score⟩

variable {α : Type} [Arithmetic α]

/- The metrics of a ranking, and the area alone, by the loops that check each position. -/
def ranking? (xs : List Judged) (thresholds : List α) : Option (SoftScores α) :=
  Ranking.compute? (xs.map (·.relevant)) (xs.map (·.score)) thresholds

def area? (xs : List Judged) : Option (Option α) :=
  Ranking.rocAuc? (xs.map (·.relevant)) (xs.map (·.score))

def softScores? (labels : List String) (thresholds : List α) (xs : List (Example t))
    (rows : List (List Score)) : Option (Table (SoftScores α)) :=
  (labels.zipIdx.mapM fun ((name, label) : String × Nat) => do
    let soft ← ranking? (← judged? xs rows label) thresholds
    some (name, soft)).map Table.ofList

def binaryMcc? (labels : List String) (tracker : Tracker) : Option α := do
  let positive := tracker.counts (← labels[0]?)
  let negative := tracker.counts (← labels[1]?)
  some (matthews positive.truePositives positive.falsePositives positive.falseNegatives
    negative.truePositives)

def withScores? (labels : List String) (xs : List (Example t)) (rows : List (List Score))
    (thresholds : List α) (r : Report α) : Option (Report α) := do
  let soft ← softScores? labels thresholds xs rows
  if t.isBinary && labels.length == 2 then
    let mcc ← binaryMcc? labels (← tally? labels xs)
    let first ← judged? xs rows 0
    let area ← area? first
    some { r with soft := some soft, mcc := some mcc, rocAuc := area }
  else some { r with soft := some soft }

def compute? (labels : List String) (xs : List (Example t)) (loss : Option α)
    (options : ReportOptions α) : Option (Except Fault (Report α × List LogLine)) :=
  match strayLabel labels.length xs with
  | some label => some (.error (.labelOutOfBounds label labels.length))
  | none => do
    let tracker ← tally? labels xs
    let report := { hardOnly labels xs loss options.keepLabels with
      hard := tracker.scores options.keepLabels }
    if t.isRanked && options.soft then
      match scoreRows labels.length xs with
      | .error fault => some (.error fault)
      | .ok none => some (.ok (report, [withheldWarning]))
      | .ok (some rows) =>
        (withScores? labels xs rows options.thresholds report).map fun r => .ok (r, [])
    else some (.ok (report, []))

/-! ### Lists -/

theorem foldlMSome {β γ : Type} {f : γ → β → Option γ} {g : γ → β → γ} {xs : List β}
    (each : ∀ x ∈ xs, ∀ acc, f acc x = some (g acc x)) (start : γ) :
    xs.foldlM f start = some (xs.foldl g start) := by
  induction xs generalizing start with
  | nil => rfl
  | cons x xs ih =>
    rw [List.foldlM_cons, each x List.mem_cons_self]
    exact ih (fun y member => each y (List.mem_cons_of_mem _ member)) (g start x)

/-! ### Labels -/

theorem strayLabelNone {catalogue : Nat} {xs : List (Example t)} :
    strayLabel catalogue xs = none ↔ ∀ x ∈ xs, ∀ label ∈ x.referenced, label < catalogue := by
  simp only [strayLabel, List.find?_eq_none, List.mem_flatMap, decide_eq_true_eq, Nat.not_le]
  constructor
  · intro below x member label referenced
    exact below label ⟨x, member, referenced⟩
  · rintro below label ⟨x, member, referenced⟩
    exact below x member label referenced

theorem chargedPredicted {x : Example t} {label : Nat} (member : label ∈ x.charged) :
    label ∈ x.predictedLabels := by
  cases t with
  | singleLabel => exact (List.mem_filter.mp member).1
  | multiLabel => exact (List.mem_filter.mp member).1
  | topK =>
    simp only [Example.charged] at member
    split at member
    · simp at member
    · have first : x.predicted.head? = some label := by simpa using member
      exact List.mem_of_mem_head? first

theorem confusionReferenced {x : Example t} {entry : Nat × Outcome}
    (member : entry ∈ x.confusions) : entry.1 ∈ x.referenced := by
  rcases List.mem_append.mp member with expected | charged
  · obtain ⟨label, inside, rfl⟩ := List.mem_map.mp expected
    exact List.mem_append_right _ inside
  · obtain ⟨label, inside, rfl⟩ := List.mem_map.mp charged
    exact List.mem_append_left _ (chargedPredicted inside)

theorem tallyInBounds {labels : List String} {xs : List (Example t)}
    (below : ∀ x ∈ xs, ∀ label ∈ x.referenced, label < labels.length) :
    tally? labels xs = some (tally labels xs) := by
  apply foldlMSome
  rintro ⟨label, outcome⟩ member tracker
  obtain ⟨x, inside, entry⟩ := List.mem_flatMap.mp member
  have bound : label < labels.length := below x inside label (confusionReferenced entry)
  simp [bound]

/-! ### Score rows -/

theorem scoreRowsExact {catalogue : Nat} {xs : List (Example t)} {rows : List (List Score)} :
    scoreRows catalogue xs = .ok (some rows) ↔
      xs.map (·.scores) = rows.map some ∧ ∀ row ∈ rows, row.length = catalogue := by
  induction xs generalizing rows with
  | nil => cases rows <;> simp [scoreRows]
  | cons x xs ih =>
    unfold scoreRows
    cases present : x.scores with
    | none => cases rows <;> simp [present]
    | some row =>
      dsimp only
      split
      · rename_i wide
        rw [mapOk]
        constructor
        · intro facts
          obtain ⟨read, ok, same⟩ := facts
          obtain ⟨rest, rfl, rfl⟩ := Option.map_eq_some_iff.mp same
          obtain ⟨scores, even⟩ := ih.mp ok
          exact ⟨by simp [present, scores], by simpa [wide] using even⟩
        · intro facts
          obtain ⟨scores, even⟩ := facts
          cases rows with
          | nil => simp at scores
          | cons first rest =>
            simp only [List.map_cons, List.cons.injEq, present, Option.some.injEq] at scores
            obtain ⟨rfl, scores⟩ := scores
            have later := fun row member => even row (List.mem_cons_of_mem _ member)
            exact ⟨some rest, ih.mpr ⟨scores, later⟩, rfl⟩
      · rename_i uneven
        constructor
        · intro failed
          contradiction
        · intro facts
          obtain ⟨scores, even⟩ := facts
          cases rows with
          | nil => simp at scores
          | cons first rest =>
            simp only [List.map_cons, List.cons.injEq, present, Option.some.injEq] at scores
            exact absurd (even first List.mem_cons_self) (scores.1 ▸ uneven)

theorem judgedInBounds {xs : List (Example t)} {rows : List (List Score)} {label : Nat}
    (wide : ∀ row ∈ rows, label < row.length) :
    judged? xs rows label = some (judged xs rows label) := by
  have zipped : judged xs rows label =
      (xs.zip rows).map fun e => ⟨e.1.expects label, e.2.getD label ⟨0⟩⟩ := by
    simp [judged, List.zip, List.map_zipWith]
  rw [zipped]
  apply mapMSome
  rintro ⟨x, row⟩ member
  have bound := wide row (List.of_mem_zip member).2
  simp [bound]

/-! ### Rankings -/

theorem pairUnzip (xs : List Judged) : pair (xs.map (·.relevant)) (xs.map (·.score)) = xs := by
  simp [pair]

theorem rankingInBounds (xs : List Judged) (thresholds : List α) :
    ranking? xs thresholds = some (SoftScores.compute xs thresholds) := by
  rw [ranking?, Ranking.computeInBounds, pairUnzip]

theorem areaInBounds (xs : List Judged) :
    (area? xs : Option (Option α)) = some (Ranking.rocAuc xs) := by
  rw [area?, Ranking.rocAucInBounds, pairUnzip]

/-! ### Reports -/

theorem softScoresInBounds {labels : List String} {thresholds : List α} {xs : List (Example t)}
    {rows : List (List Score)} (wide : ∀ row ∈ rows, row.length = labels.length) :
    softScores? labels thresholds xs rows = some (softScores labels thresholds xs rows) := by
  unfold softScores?
  rw [mapMSome (g := fun entry : String × Nat =>
    (entry.1, SoftScores.compute (judged xs rows entry.2) thresholds))]
  · rfl
  · rintro ⟨name, label⟩ member
    have bound : label < labels.length := by simpa using List.snd_lt_of_mem_zipIdx member
    have inBounds : judged? xs rows label = some (judged xs rows label) :=
      judgedInBounds fun row inside => (wide row inside).symm ▸ bound
    simp [inBounds, rankingInBounds]

theorem withScoresInBounds {labels : List String} {xs : List (Example t)}
    {rows : List (List Score)} {thresholds : List α} {r : Report α}
    (below : ∀ x ∈ xs, ∀ label ∈ x.referenced, label < labels.length)
    (wide : ∀ row ∈ rows, row.length = labels.length) :
    withScores? labels xs rows thresholds r = some (withScores labels xs rows thresholds r) := by
  unfold withScores? withScores
  rw [softScoresInBounds wide]
  simp only [Option.bind_eq_bind, Option.bind_some]
  split
  · rename_i binary
    have two : labels.length = 2 := by simpa using (Bool.and_eq_true_iff.mp binary).2
    have first : judged? xs rows 0 = some (judged xs rows 0) :=
      judgedInBounds fun row inside => by rw [wide row inside, two]; omega
    have mcc : binaryMcc? labels (tally labels xs) =
        some (binaryMcc labels (tally labels xs) : α) := by
      simp [binaryMcc?, binaryMcc, two]
    simp [tallyInBounds below, mcc, first, areaInBounds]
  · rfl

theorem computeInBounds (labels : List String) (xs : List (Example t)) (loss : Option α)
    (options : ReportOptions α) :
    compute? labels xs loss options = some (compute labels xs loss options) := by
  unfold compute? compute
  cases stray : strayLabel labels.length xs with
  | some label => rfl
  | none =>
    have below := strayLabelNone.mp stray
    simp only [tallyInBounds below, Option.bind_eq_bind, Option.bind_some]
    split
    · cases read : scoreRows labels.length xs with
      | error fault => rfl
      | ok found =>
        cases found with
        | none => rfl
        | some rows =>
          dsimp only
          rw [withScoresInBounds below (scoreRowsExact.mp read).2]
          rfl
    · rfl

end EvalReport.Report
