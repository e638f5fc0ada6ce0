import EvalReport.Pass
import Mathlib.Data.List.Forall2

/-! What each decoder of a batch accepts, and the rows it yields. A decoder is a check of
shapes followed by a check of every row on its own, so acceptance is said row by row, and a
batch is accepted as a whole or not at all. -/
namespace EvalReport

theorem bindOk {ε α β : Type} {x : Except ε α} {f : α → Except ε β} {b : β} :
    x >>= f = .ok b ↔ ∃ a, x = .ok a ∧ f a = .ok b := by
  cases x with
  | error fault => simp [bind, Except.bind]
  | ok a => simp [bind, Except.bind]

theorem mapOk {ε α β : Type} {x : Except ε α} {f : α → β} {b : β} :
    x.map f = .ok b ↔ ∃ a, x = .ok a ∧ f a = b := by
  cases x with
  | error fault => simp [Except.map]
  | ok a => simp [Except.map]

theorem bindFault {α β : Type} {x : Except Fault α} {f : α → Except Fault β} {fault : Fault} :
    x >>= f = .error fault ↔ x = .error fault ∨ ∃ a, x = .ok a ∧ f a = .error fault := by
  cases x with
  | error cause => simp [bind, Except.bind]
  | ok a => simp [bind, Except.bind]

theorem mapFault {α β : Type} {x : Except Fault α} {f : α → β} {fault : Fault} :
    x.map f = .error fault ↔ x = .error fault := by
  cases x with
  | error cause => simp [Except.map]
  | ok a => simp [Except.map]

section Collect

variable {α β : Type} {f : α → Except Fault β}

theorem collectOkExact {xs : List α} {ys : List β} :
    collectOk f xs = .ok ys ↔ List.Forall₂ (fun x y => f x = .ok y) xs ys := by
  induction xs generalizing ys with
  | nil => simp [collectOk, eq_comm]
  | cons x xs ih =>
    simp only [collectOk, bindOk, Except.ok.injEq, List.forall₂_cons_left_iff]
    constructor
    · intro facts
      obtain ⟨y, hy, rest, hrest, same⟩ := facts
      exact ⟨y, rest, hy, ih.mp hrest, same.symm⟩
    · intro facts
      obtain ⟨y, rest, hy, hrest, same⟩ := facts
      exact ⟨y, hy, rest, ih.mpr hrest, same.symm⟩

theorem collectOkLength {xs : List α} {ys : List β} (ok : collectOk f xs = .ok ys) :
    ys.length = xs.length :=
  (collectOkExact.mp ok).length_eq.symm

theorem collectOkAppend {xs ys : List α} {zs : List β} :
    collectOk f (xs ++ ys) = .ok zs ↔
      ∃ as bs, collectOk f xs = .ok as ∧ collectOk f ys = .ok bs ∧ zs = as ++ bs := by
  simp only [collectOkExact]
  constructor
  · intro rows
    exact ⟨zs.take xs.length, zs.drop xs.length,
      (List.forall₂_take_append _ _ _ rows.flip).flip,
      (List.forall₂_drop_append _ _ _ rows.flip).flip,
      (List.take_append_drop ..).symm⟩
  · intro facts
    obtain ⟨as, bs, left, right, rfl⟩ := facts
    exact List.rel_append left right

theorem collectOkMember {xs : List α} {ys : List β} (ok : collectOk f xs = .ok ys) {y : β}
    (member : y ∈ ys) : ∃ x ∈ xs, f x = .ok y := by
  have rows := collectOkExact.mp ok
  clear ok
  induction rows with
  | nil => simp at member
  | cons head _ ih =>
    rcases List.mem_cons.mp member with rfl | rest
    · exact ⟨_, List.mem_cons_self, head⟩
    · obtain ⟨x, inside, made⟩ := ih rest
      exact ⟨x, List.mem_cons_of_mem _ inside, made⟩

theorem collectOkEach {xs : List α} {ys : List β} (ok : collectOk f xs = .ok ys) {x : α}
    (member : x ∈ xs) : ∃ y, f x = .ok y := by
  have rows := collectOkExact.mp ok
  clear ok
  induction rows with
  | nil => simp at member
  | cons head _ ih =>
    rcases List.mem_cons.mp member with rfl | rest
    · exact ⟨_, head⟩
    · exact ih rest

theorem collectOkAll {xs : List α} (each : ∀ x ∈ xs, ∃ y, f x = .ok y) :
    ∃ ys, collectOk f xs = .ok ys := by
  induction xs with
  | nil => exact ⟨[], rfl⟩
  | cons x xs ih =>
    obtain ⟨y, hy⟩ := each x List.mem_cons_self
    obtain ⟨ys, hys⟩ := ih fun x member => each x (List.mem_cons_of_mem _ member)
    exact ⟨y :: ys, collectOkExact.mpr (.cons hy (collectOkExact.mp hys))⟩

theorem collectOkFault {xs : List α} {fault : Fault} (failed : collectOk f xs = .error fault) :
    ∃ x ∈ xs, f x = .error fault := by
  induction xs with
  | nil => contradiction
  | cons x xs ih =>
    rcases bindFault.mp failed with here | ⟨_, _, later⟩
    · exact ⟨x, List.mem_cons_self, here⟩
    · rcases bindFault.mp later with there | ⟨_, _, made⟩
      · obtain ⟨y, member, cause⟩ := ih there
        exact ⟨y, List.mem_cons_of_mem _ member, cause⟩
      · contradiction

end Collect

/-! ### Labels of the catalogue -/

theorem labelOffsetOk {catalogue label : Nat} {raw : Int} :
    labelOffset catalogue raw = .ok label ↔ raw = label ∧ label < catalogue := by
  unfold labelOffset
  split
  · rename_i inside
    simp only [Except.ok.injEq]
    omega
  · rename_i outside
    simp only [reduceCtorEq, false_iff]
    omega

theorem indicatedBelow {row : List Int} {label : Nat} (member : label ∈ indicated row) :
    label < row.length := by
  obtain ⟨entry, kept, rfl⟩ := List.mem_map.mp member
  have found := (List.mem_filter.mp kept).1
  simpa using List.snd_lt_of_mem_zipIdx found

theorem topKBelow {k : Nat} {scores : List Score} {label : Nat}
    (member : label ∈ Ranking.topK k scores) : label < scores.length := by
  obtain ⟨entry, kept, rfl⟩ := List.mem_map.mp (List.mem_of_mem_take member)
  have found := (List.mergeSort_perm scores.zipIdx _).mem_iff.mp kept
  simpa using List.snd_lt_of_mem_zipIdx found

theorem paddedLabelsBelow {catalogue : Nat} {row : List Int} {labels : List Nat}
    (ok : paddedLabels catalogue row = .ok labels) : ∀ label ∈ labels, label < catalogue := by
  simp only [paddedLabels, bindOk] at ok
  obtain ⟨read, _, ok⟩ := ok
  cases stray : read.find? (fun label => catalogue ≤ label) with
  | some label => simp [stray] at ok
  | none =>
    simp only [stray, Except.ok.injEq] at ok
    subst ok
    intro label member
    simpa using List.find?_eq_none.mp stray label member

def Task.rowLabels : (t : Task) → t.Row → List Nat
  | singleLabel, row => [row]
  | multiLabel, row => row
  | topK, row => row.argmax :: row.candidates

theorem labelVectorExact {catalogue : Nat} {side : Side} {t : Tensor Int} {labels : List Nat} :
    labelVector catalogue side t = .ok labels ↔
      ∃ raws, t.vector? = some raws ∧
        List.Forall₂ (fun raw label => labelOffset catalogue raw = .ok label) raws labels := by
  unfold labelVector vectorOf
  cases t.vector? with
  | none => simp [bindOk]
  | some raws => simp [bindOk, collectOkExact]

theorem labelVectorBelow {catalogue : Nat} {side : Side} {t : Tensor Int} {labels : List Nat}
    (ok : labelVector catalogue side t = .ok labels) : ∀ label ∈ labels, label < catalogue := by
  obtain ⟨raws, _, rows⟩ := labelVectorExact.mp ok
  intro label member
  obtain ⟨raw, _, read⟩ := collectOkMember (collectOkExact.mpr rows) member
  exact (labelOffsetOk.mp read).2

theorem matrixOfExact {side : Side} {t : Tensor Int} {m : Matrix Int} :
    matrixOf side t = .ok m ↔ t.matrix? = some m := by
  unfold matrixOf
  cases t.matrix? with
  | none => simp
  | some m => simp

theorem indicatorRowsExact {catalogue : Nat} {t : Tensor Int} {rows : List (List Nat)} :
    indicatorRows catalogue t = .ok rows ↔
      ∃ m, t.matrix? = some m ∧ m.width = catalogue ∧ rows = m.rows.map indicated := by
  simp only [indicatorRows, bindOk, matrixOfExact]
  constructor
  · intro facts
    obtain ⟨m, read, ok⟩ := facts
    split at ok
    · rename_i wide
      exact ⟨m, read, wide, (Except.ok.inj ok).symm⟩
    · contradiction
  · intro facts
    obtain ⟨m, read, wide, rfl⟩ := facts
    exact ⟨m, read, if_pos wide⟩

theorem topKRowsExact {k catalogue : Nat} {t : Tensor Int} {scores : Option (Matrix Score)}
    {rows : List TopKRow} :
    topKRows k catalogue t scores = .ok rows ↔
      ∃ m raws, scores = some m ∧ t.vector? = some raws ∧ m.rows.length = raws.length ∧
        m.width = catalogue ∧
        List.Forall₂ (fun x row => labelOffset catalogue x.1 = .ok row.argmax ∧
          row.candidates = Ranking.topK k x.2) (raws.zip m.rows) rows := by
  have oneRow : ∀ (x : Int × List Score) (row : TopKRow),
      (do .ok ⟨← labelOffset catalogue x.1, Ranking.topK k x.2⟩ : Except Fault TopKRow) = .ok row ↔
        labelOffset catalogue x.1 = .ok row.argmax ∧ row.candidates = Ranking.topK k x.2 := by
    intro x row
    simp only [bindOk, Except.ok.injEq]
    constructor
    · intro facts
      obtain ⟨label, read, rfl⟩ := facts
      exact ⟨read, rfl⟩
    · intro facts
      obtain ⟨read, same⟩ := facts
      exact ⟨row.argmax, read, by rw [← same]⟩
  unfold topKRows vectorOf
  cases scores with
  | none => simp
  | some m =>
    cases t.vector? with
    | none => simp [bindOk]
    | some raws =>
      simp only [bindOk, Except.ok.injEq, exists_eq_left', Option.some.injEq]
      split
      · rename_i uneven
        simp [uneven]
      · split
        · rename_i wide
          simp [wide]
        · rename_i even wide
          simp only [collectOkExact, oneRow]
          constructor
          · intro each
            exact ⟨m, raws, rfl, rfl, not_not.mp even, not_not.mp wide, each⟩
          · intro facts
            obtain ⟨_, _, rfl, rfl, _, _, each⟩ := facts
            exact each

theorem predictedRowsBelow {kind : Kind} {catalogue : Nat} {t : Tensor Int}
    {scores : Option (Matrix Score)} {rows : List kind.task.Row}
    (ok : kind.predictedRows catalogue t scores = .ok rows) :
    ∀ row ∈ rows, ∀ label ∈ kind.task.rowLabels row, label < catalogue := by
  intro row member label inRow
  cases kind with
  | singleLabel =>
    obtain rfl : label = row := by simpa [Task.rowLabels] using inRow
    exact labelVectorBelow ok _ member
  | multiLabel =>
    obtain ⟨m, _, wide, rfl⟩ := indicatorRowsExact.mp ok
    obtain ⟨source, inside, rfl⟩ := List.mem_map.mp member
    have bound := indicatedBelow inRow
    rw [m.even source inside, wide] at bound
    exact bound
  | topK k =>
    obtain ⟨m, raws, _, _, _, wide, each⟩ := topKRowsExact.mp ok
    obtain ⟨i, inside, rfl⟩ := List.mem_iff_getElem.mp member
    have bound : i < (raws.zip m.rows).length := each.length_eq ▸ inside
    obtain ⟨read, best⟩ := each.get bound inside
    rcases List.mem_cons.mp inRow with rfl | candidate
    · exact (labelOffsetOk.mp read).2
    · have source : (raws.zip m.rows)[i].2 ∈ m.rows :=
        (List.of_mem_zip (List.getElem_mem bound)).2
      have below := topKBelow (best ▸ candidate)
      rw [List.get_eq_getElem, m.even _ source, wide] at below
      exact below

theorem expectedRowsBelow {task : Task} {catalogue : Nat} {t : Tensor Int}
    {rows : List task.Expected} (ok : task.expectedRows catalogue t = .ok rows) :
    ∀ row ∈ rows, ∀ label ∈ task.expectedLabels row, label < catalogue := by
  intro row member label inRow
  cases task with
  | singleLabel =>
    obtain rfl : label = row := by simpa [Task.expectedLabels] using inRow
    exact labelVectorBelow ok _ member
  | multiLabel =>
    simp only [Task.expectedRows, bindOk] at ok
    obtain ⟨m, _, each⟩ := ok
    obtain ⟨source, _, read⟩ := collectOkMember each member
    exact paddedLabelsBelow read label inRow
  | topK =>
    obtain rfl : label = row := by simpa [Task.expectedLabels] using inRow
    exact labelVectorBelow ok _ member

/-! ### Whole batches -/

theorem keptScoresExact {rules : PassRules} {n : Nat} {batch : Batch} {rows : List (List Score)} :
    rules.keptScores n batch = .ok rows ↔
      (∀ scores, batch.scores = some scores → scores.rows.length = n) ∧
      if rules.memoryEfficient then rows = []
      else ∃ scores, batch.scores = some scores ∧ scores.width = rules.catalogue ∧
        rows = scores.rows := by
  unfold PassRules.keptScores
  cases batch.scores with
  | none => cases rules.memoryEfficient <;> simp [eq_comm]
  | some scores =>
    simp only [Option.some.injEq, forall_eq', exists_eq_left']
    split
    · rename_i uneven
      simp [uneven]
    · rename_i even
      rw [not_not] at even
      cases rules.memoryEfficient with
      | true => simp [even, eq_comm]
      | false =>
        by_cases wide : scores.width = rules.catalogue
        · simp [even, wide, eq_comm]
        · simp [wide]

structure DecodedSource (rules : PassRules) (batch : Batch) (d : Decoded rules.kind.task) :
    Prop where
  predicted : rules.kind.predictedRows rules.catalogue batch.predictions batch.scores =
    .ok d.predicted
  expected : rules.kind.task.expectedRows rules.catalogue batch.targets = .ok d.expected
  aligned : d.expected.length = d.predicted.length
  kept : rules.keptScores d.predicted.length batch = .ok d.scores

theorem decodedExact {rules : PassRules} {batch : Batch} {d : Decoded rules.kind.task} :
    rules.decode batch = .ok d ↔ DecodedSource rules batch d := by
  simp only [PassRules.decode, bindOk]
  constructor
  · intro facts
    obtain ⟨predicted, hp, expected, he, ok⟩ := facts
    split at ok
    · contradiction
    · rename_i aligned
      obtain ⟨scores, hs, last⟩ := bindOk.mp ok
      cases Except.ok.inj last
      exact ⟨hp, he, not_not.mp aligned, hs⟩
  · intro source
    refine ⟨d.predicted, source.predicted, d.expected, source.expected, ?_⟩
    rw [if_neg (not_not.mpr source.aligned)]
    exact bindOk.mpr ⟨d.scores, source.kept, rfl⟩

end EvalReport
