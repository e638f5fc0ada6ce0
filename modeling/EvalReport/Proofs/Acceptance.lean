import EvalReport.Proofs.PassRun
import EvalReport.Proofs.Slices

/-! What a batch has to be for a pass to take it, told by shapes and entries alone, and the rows
that it adds. The pass, the context, the loss, the model input and the number of the batch have
no say in either. -/
namespace EvalReport

/-! ### Shapes and entries -/

abbrev IsLabel (catalogue : Nat) (raw : Int) : Prop := 0 ≤ raw ∧ raw < catalogue

def LabelVector (catalogue n : Nat) (t : Tensor Int) : Prop :=
  t.shape = [n] ∧ ∀ raw ∈ t.data, IsLabel catalogue raw

def ScoreMatrix (n width : Nat) (scores : Option (Matrix Score)) : Prop :=
  ∃ m, scores = some m ∧ m.rows.length = n ∧ m.width = width

/- Scores may stay away only where they would not be kept; there their width is not looked at. -/
def OptionalScores (n width : Nat) (memoryEfficient : Bool) (scores : Option (Matrix Score)) :
    Prop :=
  (∃ m, scores = some m ∧ m.rows.length = n ∧ (memoryEfficient = false → m.width = width)) ∨
    (scores = none ∧ memoryEfficient = true)

def PassRules.Admits (rules : PassRules) (n : Nat) (predictions targets : Tensor Int)
    (scores : Option (Matrix Score)) : Prop :=
  match rules.kind with
  | .singleLabel =>
    LabelVector rules.catalogue n predictions ∧ LabelVector rules.catalogue n targets ∧
      OptionalScores n rules.catalogue rules.memoryEfficient scores
  | .multiLabel =>
    predictions.shape = [n, rules.catalogue] ∧ (∃ width, targets.shape = [n, width]) ∧
      (∀ raw ∈ targets.data, raw = noLabel ∨ IsLabel rules.catalogue raw) ∧
      OptionalScores n rules.catalogue rules.memoryEfficient scores
  | .topK _ =>
    LabelVector rules.catalogue n predictions ∧ LabelVector rules.catalogue n targets ∧
      ScoreMatrix n rules.catalogue scores

def Tensor.line {α : Type} (t : Tensor α) (width i : Nat) : List α :=
  window (i * width) width t.data

structure Marks (flags : List Int) (labels : List Nat) : Prop where
  ascending : labels.Pairwise (· < ·)
  marked : ∀ label, label ∈ labels ↔ ∃ flag, flags[label]? = some flag ∧ 0 < flag

def Unpads (padded : List Int) (labels : List Nat) : Prop :=
  labels.map Int.ofNat = padded.filter (· ≠ noLabel)

def Kind.Reads (catalogue n : Nat) (predictions targets : Tensor Int)
    (scores : Option (Matrix Score)) : (kind : Kind) → List kind.task.Row →
      List kind.task.Expected → Prop
  | .singleLabel, predicted, expected =>
    predicted.map Int.ofNat = predictions.data ∧ expected.map Int.ofNat = targets.data
  | .multiLabel, predicted, expected =>
    List.Forall₂ (fun i => Marks (predictions.line catalogue i)) (List.range n) predicted ∧
      ∃ width, targets.shape = [n, width] ∧
        List.Forall₂ (fun i => Unpads (targets.line width i)) (List.range n) expected
  | .topK k, predicted, expected =>
    predicted.map (fun row => Int.ofNat row.argmax) = predictions.data ∧
      expected.map Int.ofNat = targets.data ∧
      ∃ m, scores = some m ∧ predicted.map (·.candidates) = m.rows.map (Ranking.topK k)

/-! ### Vectors of labels -/

theorem labelOffsetReads {catalogue label : Nat} {raw : Int} :
    labelOffset catalogue raw = .ok label ↔ Int.ofNat label = raw ∧ IsLabel catalogue raw := by
  rw [labelOffsetOk, IsLabel, Int.ofNat_eq_natCast]
  omega

theorem labelOffsetsRead {catalogue : Nat} {raws : List Int} {labels : List Nat} :
    List.Forall₂ (fun raw label => labelOffset catalogue raw = .ok label) raws labels ↔
      labels.map Int.ofNat = raws ∧ ∀ raw ∈ raws, IsLabel catalogue raw := by
  induction raws generalizing labels with
  | nil => simp
  | cons raw rest ih =>
    cases labels with
    | nil => simp
    | cons label more =>
      rw [List.forall₂_cons, labelOffsetReads, ih, List.map_cons, List.cons.injEq,
        List.forall_mem_cons]
      exact and_and_and_comm

theorem vectorRead {t : Tensor Int} {raws : List Int} :
    t.vector? = some raws ↔ t.shape = [raws.length] ∧ t.data = raws := by
  obtain ⟨shape, data, full⟩ := t
  cases shape with
  | nil => simp [Tensor.vector?]
  | cons n rest =>
    cases rest with
    | cons m rest => simp [Tensor.vector?]
    | nil =>
      have counted : data.length = n := by simpa [volume] using full
      simp only [Tensor.vector?, Option.some.injEq, List.cons.injEq, and_true]
      constructor
      · rintro rfl
        exact ⟨counted.symm, rfl⟩
      · exact And.right

theorem labelVectorRead {catalogue : Nat} {side : Side} {t : Tensor Int} {labels : List Nat} :
    labelVector catalogue side t = .ok labels ↔
      LabelVector catalogue labels.length t ∧ labels.map Int.ofNat = t.data := by
  simp only [labelVectorExact, vectorRead, labelOffsetsRead, LabelVector]
  constructor
  · rintro ⟨raws, ⟨shape, rfl⟩, read, below⟩
    refine ⟨⟨?_, below⟩, read⟩
    rw [shape, ← read, List.length_map]
  · rintro ⟨⟨shape, below⟩, read⟩
    refine ⟨t.data, ⟨?_, rfl⟩, read, below⟩
    rw [shape, ← read, List.length_map]

theorem labelVectorTotal {catalogue n : Nat} (side : Side) {t : Tensor Int}
    (vector : LabelVector catalogue n t) :
    ∃ labels, labelVector catalogue side t = .ok labels ∧ labels.length = n := by
  obtain ⟨shape, below⟩ := vector
  have counted : t.data.length = n := by rw [t.full, shape]; simp [volume]
  have read : (t.data.map Int.toNat).map Int.ofNat = t.data := by
    rw [List.map_map]
    exact (List.map_congr_left fun raw member => Int.toNat_of_nonneg (below raw member).1).trans
      (List.map_id _)
  have length : (t.data.map Int.toNat).length = n := by rw [List.length_map, counted]
  exact ⟨_, labelVectorRead.mpr ⟨⟨by rw [length]; exact shape, below⟩, read⟩, length⟩

/-! ### Rows of flags and padded rows -/

theorem piecesLines {α : Type} (width count : Nat) (xs : List α) :
    pieces width count xs = (List.range count).map fun i => window (i * width) width xs := by
  induction count generalizing xs with
  | zero => rfl
  | succ count ih =>
    rw [pieces, ih, List.range_succ_eq_map, List.map_cons, List.map_map]
    congr 1
    · simp [window]
    · refine List.map_congr_left fun i _ => ?_
      simp [window, List.drop_drop, Nat.succ_mul, Nat.add_comm]

theorem piecesFlatten {α : Type} {width count : Nat} {xs : List α}
    (full : xs.length = count * width) : (pieces width count xs).flatten = xs := by
  induction count generalizing xs with
  | zero =>
    rw [Nat.zero_mul] at full
    rw [List.length_eq_zero_iff.mp full]
    rfl
  | succ count ih =>
    have rest : (xs.drop width).length = count * width := by
      rw [List.length_drop, full, Nat.succ_mul, Nat.add_sub_cancel]
    rw [pieces, List.flatten_cons, ih rest, List.take_append_drop]

theorem matrixRead {t : Tensor Int} {m : Matrix Int} (read : t.matrix? = some m) :
    t.shape = [m.rows.length, m.width] ∧ m.rows.flatten = t.data ∧
      m.rows = (List.range m.rows.length).map (t.line m.width) := by
  obtain ⟨shape, data, full⟩ := t
  match shape with
  | [n, width] =>
    have counted : data.length = n * width := by rw [full]; simp [volume]
    obtain rfl := Option.some.inj read
    dsimp only
    rw [piecesLength]
    exact ⟨rfl, piecesFlatten counted, piecesLines ..⟩
  | [] => contradiction
  | [_] => contradiction
  | _ :: _ :: _ :: _ => contradiction

theorem matrixTotal {t : Tensor Int} {n width : Nat} (shape : t.shape = [n, width]) :
    ∃ m, t.matrix? = some m ∧ m.rows.length = n ∧ m.width = width := by
  obtain ⟨_, data, full⟩ := t
  obtain rfl : _ = [n, width] := shape
  exact ⟨_, rfl, piecesLength .., rfl⟩

theorem indicatedMarks (flags : List Int) : Marks flags (indicated flags) where
  ascending := by
    have positions : (flags.zipIdx.map (·.2)).Pairwise (· < ·) := by
      rw [List.zipIdx_map_snd]
      exact List.pairwise_lt_range'
    exact positions.sublist (List.filter_sublist.map _)
  marked label := by
    simp only [indicated, List.mem_map, List.mem_filter, decide_eq_true_eq, Prod.exists,
      exists_eq_right, List.mem_zipIdx_iff_getElem?]

theorem unpaddedReads {catalogue : Nat} {padded : List Int} {labels : List Nat} :
    unpadded catalogue padded = .ok labels ↔ Unpads padded labels := by
  unfold Unpads
  induction padded generalizing labels with
  | nil => simp [unpadded, eq_comm]
  | cons raw rest ih =>
    rw [unpadded, List.filter_cons]
    by_cases padding : raw = noLabel
    · simp only [padding, if_true, ne_eq, not_true_eq_false, decide_false, Bool.false_eq_true,
        if_false]
      exact ih
    · simp only [padding, if_false, ne_eq, not_false_eq_true, decide_true, if_true]
      split
      · rename_i negative
        constructor
        · intro failed
          contradiction
        · intro read
          cases labels with
          | nil => contradiction
          | cons label more =>
            have nonnegative : Int.ofNat label = raw := (List.cons.inj read).1
            exact absurd negative (nonnegative ▸ (by simp))
      · rename_i nonnegative
        rw [mapOk]
        constructor
        · rintro ⟨more, read, rfl⟩
          rw [List.map_cons, ih.mp read]
          congr 1
          exact Int.toNat_of_nonneg (by omega)
        · intro read
          cases labels with
          | nil => contradiction
          | cons label more =>
            obtain ⟨first, tail⟩ := List.cons.inj read
            refine ⟨more, ih.mpr tail, ?_⟩
            rw [← first]
            rfl

theorem paddedReads {catalogue : Nat} {padded : List Int} {labels : List Nat}
    (ok : paddedLabels catalogue padded = .ok labels) :
    Unpads padded labels ∧ ∀ raw ∈ padded, raw = noLabel ∨ IsLabel catalogue raw := by
  have below := paddedLabelsBelow ok
  simp only [paddedLabels, bindOk] at ok
  obtain ⟨read, unpads, ok⟩ := ok
  obtain rfl : read = labels := by
    split at ok
    · contradiction
    · exact Except.ok.inj ok
  have unpads := unpaddedReads.mp unpads
  refine ⟨unpads, fun raw member => ?_⟩
  by_cases padding : raw = noLabel
  · exact .inl padding
  · have kept : raw ∈ padded.filter (· ≠ noLabel) := by simp [member, padding]
    rw [← unpads] at kept
    obtain ⟨label, inside, rfl⟩ := List.mem_map.mp kept
    exact .inr ⟨Int.natCast_nonneg label, Int.ofNat_lt.mpr (below label inside)⟩

theorem paddedTotal {catalogue : Nat} {padded : List Int}
    (entries : ∀ raw ∈ padded, raw = noLabel ∨ IsLabel catalogue raw) :
    ∃ labels, paddedLabels catalogue padded = .ok labels := by
  have inside : ∀ raw ∈ padded.filter (· ≠ noLabel), IsLabel catalogue raw := by
    intro raw member
    obtain ⟨member, labelled⟩ := List.mem_filter.mp member
    exact (entries raw member).resolve_left (by simpa using labelled)
  have unpads : Unpads padded ((padded.filter (· ≠ noLabel)).map Int.toNat) := by
    rw [Unpads, List.map_map]
    exact (List.map_congr_left fun raw member => Int.toNat_of_nonneg (inside raw member).1).trans
      (List.map_id _)
  have none : ((padded.filter (· ≠ noLabel)).map Int.toNat).find?
      (fun label => catalogue ≤ label) = none := by
    refine List.find?_eq_none.mpr fun label member => ?_
    obtain ⟨raw, source, rfl⟩ := List.mem_map.mp member
    have bounds := inside raw source
    simp only [IsLabel] at bounds
    simp only [decide_eq_true_eq]
    omega
  refine ⟨(padded.filter (· ≠ noLabel)).map Int.toNat, ?_⟩
  rw [paddedLabels, unpaddedReads.mpr unpads]
  simp only [bind, Except.bind, none]

theorem indicatorRead {catalogue : Nat} {t : Tensor Int} {rows : List (List Nat)}
    (ok : indicatorRows catalogue t = .ok rows) :
    t.shape = [rows.length, catalogue] ∧
      List.Forall₂ (fun i => Marks (t.line catalogue i)) (List.range rows.length) rows := by
  obtain ⟨m, read, rfl, rfl⟩ := indicatorRowsExact.mp ok
  obtain ⟨shape, _, lines⟩ := matrixRead read
  rw [List.length_map]
  refine ⟨shape, ?_⟩
  have marked : m.rows.map indicated =
      (List.range m.rows.length).map fun i => indicated (t.line m.width i) := by
    conv_lhs => rw [lines, List.map_map]
    rfl
  rw [marked, List.forall₂_map_right_iff]
  exact List.forall₂_same.mpr fun i _ => indicatedMarks _

theorem paddedRowsRead {catalogue : Nat} {t : Tensor Int} {rows : List (List Nat)}
    (ok : Task.multiLabel.expectedRows catalogue t = .ok rows) :
    (∀ raw ∈ t.data, raw = noLabel ∨ IsLabel catalogue raw) ∧
      ∃ width, t.shape = [rows.length, width] ∧
        List.Forall₂ (fun i => Unpads (t.line width i)) (List.range rows.length) rows := by
  simp only [Task.expectedRows, bindOk, matrixOfExact] at ok
  obtain ⟨m, read, ok⟩ := ok
  obtain ⟨shape, whole, lines⟩ := matrixRead read
  have each := collectOkExact.mp ok
  constructor
  · intro raw member
    rw [← whole] at member
    obtain ⟨padded, inRows, inside⟩ := List.mem_flatten.mp member
    obtain ⟨i, bound, rfl⟩ := List.mem_iff_getElem.mp inRows
    have here := each.get bound (each.length_eq ▸ bound)
    exact (paddedReads here).2 raw inside
  · refine ⟨m.width, by rw [← each.length_eq]; exact shape, ?_⟩
    rw [← each.length_eq]
    rw [lines, List.forall₂_map_left_iff] at each
    exact each.imp fun i labels read => (paddedReads read).1

/-! ### Ranked rows -/

theorem forallZip {α β γ : Type} {P : α → γ → Prop} {Q : β → γ → Prop} {xs : List α} {ys : List β}
    {zs : List γ} (even : xs.length = ys.length) :
    List.Forall₂ (fun x z => P x.1 z ∧ Q x.2 z) (xs.zip ys) zs ↔
      List.Forall₂ P xs zs ∧ List.Forall₂ Q ys zs := by
  induction xs generalizing ys zs with
  | nil =>
    obtain rfl : ys = [] := List.length_eq_zero_iff.mp even.symm
    simp
  | cons x xs ih =>
    obtain ⟨y, ys, rfl⟩ := List.exists_cons_of_length_eq_add_one even.symm
    cases zs with
    | nil => simp
    | cons z zs =>
      rw [List.zip_cons_cons, List.forall₂_cons, List.forall₂_cons, List.forall₂_cons,
        ih (Nat.succ.inj even)]
      exact and_and_and_comm

theorem forallMapped {α β γ : Type} {f : α → γ} {g : β → γ} {xs : List α} {ys : List β} :
    List.Forall₂ (fun x y => g y = f x) xs ys ↔ ys.map g = xs.map f := by
  induction xs generalizing ys with
  | nil => simp
  | cons x xs ih =>
    cases ys with
    | nil => simp
    | cons y ys => rw [List.forall₂_cons, ih, List.map_cons, List.map_cons, List.cons.injEq]

theorem topKRowsRead {k catalogue : Nat} {t : Tensor Int} {scores : Option (Matrix Score)}
    {rows : List TopKRow} :
    topKRows k catalogue t scores = .ok rows ↔
      LabelVector catalogue rows.length t ∧ ScoreMatrix rows.length catalogue scores ∧
        rows.map (fun row => Int.ofNat row.argmax) = t.data ∧
        ∃ m, scores = some m ∧ rows.map (·.candidates) = m.rows.map (Ranking.topK k) := by
  have argmaxes : ∀ raws, List.Forall₂ (fun raw (row : TopKRow) =>
      labelOffset catalogue raw = .ok row.argmax) raws rows ↔
      rows.map (fun row => Int.ofNat row.argmax) = raws ∧ ∀ raw ∈ raws, IsLabel catalogue raw := by
    intro raws
    rw [← List.forall₂_map_right_iff (f := TopKRow.argmax)
      (R := fun raw label => labelOffset catalogue raw = .ok label), labelOffsetsRead, List.map_map]
    rfl
  have zipped : ∀ raws lines, raws.length = lines.length →
      (List.Forall₂ (fun x (row : TopKRow) => labelOffset catalogue x.1 = .ok row.argmax ∧
        row.candidates = Ranking.topK k x.2) (raws.zip lines) rows ↔
      (rows.map (fun row => Int.ofNat row.argmax) = raws ∧
        ∀ raw ∈ raws, IsLabel catalogue raw) ∧
      rows.map (·.candidates) = lines.map (Ranking.topK k)) := by
    intro raws lines even
    rw [← argmaxes, ← forallMapped]
    exact forallZip (P := fun raw (row : TopKRow) => labelOffset catalogue raw = .ok row.argmax)
      (Q := fun line row => row.candidates = Ranking.topK k line) even
  rw [topKRowsExact]
  constructor
  · rintro ⟨m, raws, present, vector, even, wide, each⟩
    obtain ⟨shape, rfl⟩ := vectorRead.mp vector
    obtain ⟨⟨read, below⟩, best⟩ := (zipped _ _ even.symm).mp each
    have length : rows.length = t.data.length := by rw [← read, List.length_map]
    rw [length]
    exact ⟨⟨shape, below⟩, ⟨m, present, even, wide⟩, read, m, present, best⟩
  · rintro ⟨⟨shape, below⟩, ⟨m, present, counted, wide⟩, read, same, again, best⟩
    obtain rfl : m = same := Option.some.inj (present.symm.trans again)
    have length : rows.length = t.data.length := by rw [← read, List.length_map]
    rw [length] at shape counted
    exact ⟨m, t.data, present, vectorRead.mpr ⟨shape, rfl⟩, counted, wide,
      (zipped _ _ counted.symm).mpr ⟨⟨read, below⟩, best⟩⟩

theorem topKRowsTotal {catalogue n : Nat} (k : Nat) {t : Tensor Int}
    {scores : Option (Matrix Score)} (vector : LabelVector catalogue n t)
    (scored : ScoreMatrix n catalogue scores) :
    ∃ rows, topKRows k catalogue t scores = .ok rows ∧ rows.length = n := by
  obtain ⟨labels, read, counted⟩ := labelVectorTotal .predictions vector
  obtain ⟨vector, read⟩ := labelVectorRead.mp read
  obtain ⟨m, present, even, wide⟩ := scored
  have aligned : labels.length = (m.rows.map (Ranking.topK k)).length := by
    rw [counted, List.length_map, even]
  obtain ⟨rows, argmaxes, candidates⟩ : ∃ rows : List TopKRow,
      rows.map (·.argmax) = labels ∧ rows.map (·.candidates) = m.rows.map (Ranking.topK k) := by
    refine ⟨(labels.zip (m.rows.map (Ranking.topK k))).map fun e => ⟨e.1, e.2⟩, ?_, ?_⟩
    · rw [List.map_map]
      exact List.map_fst_zip aligned.le
    · rw [List.map_map]
      exact List.map_snd_zip aligned.ge
  have length : rows.length = n := by rw [← counted, ← argmaxes, List.length_map]
  refine ⟨rows, topKRowsRead.mpr ?_, length⟩
  rw [length]
  refine ⟨counted ▸ vector, ⟨m, present, even, wide⟩, ?_, m, present, candidates⟩
  rw [← read, ← argmaxes]
  exact List.map_map.symm

/-! ### Whole batches -/

theorem keptOptional {rules : PassRules} {n : Nat} {batch : Batch} :
    (∃ rows, rules.keptScores n batch = .ok rows) ↔
      OptionalScores n rules.catalogue rules.memoryEfficient batch.scores := by
  simp only [keptScoresExact, OptionalScores]
  cases batch.scores with
  | none => cases rules.memoryEfficient <;> simp
  | some m => cases rules.memoryEfficient <;> simp [and_comm]

theorem decodedReads {rules : PassRules} {batch : Batch} {d : Decoded rules.kind.task}
    (ok : rules.decode batch = .ok d) :
    rules.Admits d.predicted.length batch.predictions batch.targets batch.scores ∧
      rules.kind.Reads rules.catalogue d.predicted.length batch.predictions batch.targets
        batch.scores d.predicted d.expected := by
  obtain ⟨predicted, expected, aligned, kept⟩ := decodedExact.mp ok
  have scored := keptOptional.mp ⟨_, kept⟩
  obtain ⟨kind, catalogue, memoryEfficient⟩ := rules
  cases kind with
  | singleLabel =>
    obtain ⟨predictions, readPredicted⟩ := labelVectorRead.mp predicted
    obtain ⟨targets, readExpected⟩ := labelVectorRead.mp expected
    rw [aligned] at targets
    exact ⟨⟨predictions, targets, scored⟩, readPredicted, readExpected⟩
  | multiLabel =>
    obtain ⟨predictions, marked⟩ := indicatorRead predicted
    obtain ⟨entries, width, targets, unpadded⟩ := paddedRowsRead expected
    rw [aligned] at targets unpadded
    exact ⟨⟨predictions, ⟨width, targets⟩, entries, scored⟩, marked, width, targets, unpadded⟩
  | topK k =>
    obtain ⟨predictions, scores, readPredicted, best⟩ := topKRowsRead.mp predicted
    obtain ⟨targets, readExpected⟩ := labelVectorRead.mp expected
    rw [aligned] at targets
    exact ⟨⟨predictions, targets, scores⟩, readPredicted, readExpected, best⟩

theorem admittedDecodes {rules : PassRules} {batch : Batch} {n : Nat}
    (admitted : rules.Admits n batch.predictions batch.targets batch.scores) :
    ∃ d, rules.decode batch = .ok d ∧ d.predicted.length = n := by
  obtain ⟨predicted, expected, readPredicted, readExpected, countPredicted, countExpected, scored⟩ :
      ∃ predicted expected,
        rules.kind.predictedRows rules.catalogue batch.predictions batch.scores = .ok predicted ∧
        rules.kind.task.expectedRows rules.catalogue batch.targets = .ok expected ∧
        predicted.length = n ∧ expected.length = n ∧
        OptionalScores n rules.catalogue rules.memoryEfficient batch.scores := by
    obtain ⟨kind, catalogue, memoryEfficient⟩ := rules
    cases kind with
    | singleLabel =>
      obtain ⟨predictions, targets, scored⟩ := admitted
      obtain ⟨predicted, readPredicted, countPredicted⟩ := labelVectorTotal .predictions predictions
      obtain ⟨expected, readExpected, countExpected⟩ := labelVectorTotal .targets targets
      exact ⟨predicted, expected, readPredicted, readExpected, countPredicted, countExpected,
        scored⟩
    | multiLabel =>
      obtain ⟨predictions, ⟨width, targets⟩, entries, scored⟩ := admitted
      obtain ⟨flags, readFlags, countFlags, wide⟩ := matrixTotal predictions
      obtain ⟨padded, readPadded, countPadded, _⟩ := matrixTotal targets
      have whole := (matrixRead readPadded).2.1
      obtain ⟨expected, readExpected⟩ : ∃ expected,
          collectOk (paddedLabels catalogue) padded.rows = .ok expected :=
        collectOkAll fun row member => paddedTotal fun raw inside =>
          entries raw (whole ▸ List.mem_flatten_of_mem member inside)
      refine ⟨flags.rows.map indicated, expected,
        indicatorRowsExact.mpr ⟨flags, readFlags, wide, rfl⟩,
        bindOk.mpr ⟨padded, matrixOfExact.mpr readPadded, readExpected⟩, ?_, ?_, scored⟩
      · rw [List.length_map, countFlags]
      · rw [collectOkLength readExpected, countPadded]
    | topK k =>
      obtain ⟨predictions, targets, scored⟩ := admitted
      obtain ⟨predicted, readPredicted, countPredicted⟩ := topKRowsTotal k predictions scored
      obtain ⟨expected, readExpected, countExpected⟩ := labelVectorTotal .targets targets
      obtain ⟨m, present, even, wide⟩ := scored
      exact ⟨predicted, expected, readPredicted, readExpected, countPredicted, countExpected,
        .inl ⟨m, present, even, fun _ => wide⟩⟩
  subst countPredicted
  obtain ⟨scores, kept⟩ := keptOptional.mpr scored
  exact ⟨⟨predicted, expected, scores⟩,
    decodedExact.mpr ⟨readPredicted, readExpected, countExpected, kept⟩, rfl⟩

theorem admittedExactly (rules : PassRules) (p : Pass rules.kind.task) (a : Arrival) :
    ((rules.receive p a).result = .ok () ↔
      ∃ n, rules.Admits n a.batch.predictions a.batch.targets a.batch.scores) ∧
    ∀ n, rules.Admits n a.batch.predictions a.batch.targets a.batch.scores →
      ∃ predicted expected, predicted.length = n ∧ expected.length = n ∧
        rules.kind.Reads rules.catalogue n a.batch.predictions a.batch.targets a.batch.scores
          predicted expected ∧
        (rules.receive p a).pass.predicted = p.predicted ++ predicted ∧
        (rules.receive p a).pass.expected = p.expected ++ expected := by
  constructor
  · rw [rules.receiveOk]
    constructor
    · rintro ⟨d, decoded⟩
      exact ⟨d.predicted.length, (decodedReads decoded).1⟩
    · rintro ⟨n, admitted⟩
      obtain ⟨d, decoded, _⟩ := admittedDecodes admitted
      exact ⟨d, decoded⟩
  · intro n admitted
    obtain ⟨d, decoded, rfl⟩ := admittedDecodes admitted
    rw [rules.receivePass p decoded]
    exact ⟨d.predicted, d.expected, rfl, (decodedExact.mp decoded).aligned,
      (decodedReads decoded).2, rfl, rfl⟩

def paddedPair : Arrival where
  batch := ⟨0, ⟨[2, 3], [-9223372036854775808, 7, 9223372036854775807, 0, 1, 0], rfl⟩,
    ⟨[2, 2], [-1, 2, 0, -1], rfl⟩, none, none⟩
  input := .ready []
  context := ∅

theorem paddedPairAdmitted :
    (PassRules.receive ⟨.multiLabel, 3, true⟩ {} paddedPair).result = .ok () ∧
    (PassRules.receive ⟨.multiLabel, 3, true⟩ {} paddedPair).pass.predicted =
      ([[1, 2], [1]] : List (List Nat)) ∧
    Marks [-9223372036854775808, 7, 9223372036854775807] [1, 2] := by
  have entries : ∀ raw ∈ paddedPair.batch.targets.data, raw = noLabel ∨ IsLabel 3 raw := by
    decide
  have admitted : PassRules.Admits ⟨.multiLabel, 3, true⟩ 2 paddedPair.batch.predictions
      paddedPair.batch.targets paddedPair.batch.scores :=
    ⟨rfl, ⟨2, rfl⟩, entries, .inr ⟨rfl, rfl⟩⟩
  obtain ⟨accepted, read⟩ := admittedExactly ⟨.multiLabel, 3, true⟩ {} paddedPair
  obtain ⟨predicted, _, _, _, ⟨marked, _⟩, added, _⟩ := read 2 admitted
  obtain rfl : ([[1, 2], [1]] : List (List Nat)) = predicted := added
  refine ⟨accepted.mpr ⟨2, admitted⟩, rfl, ?_⟩
  cases marked with
  | cons first _ => exact first

end EvalReport
