import EvalReport.Proofs.Files
import EvalReport.Proofs.JsonText
import EvalReport.Proofs.PassEnd

/-! The table of predictions read back. The reader knows tabs between fields, line ends behind
records and quotes around fields, with a quote inside written twice; it refuses everything else.
What a prediction file holds is read as its header and one record for each example. -/
namespace EvalReport

namespace Tsv

/- Where a reader stands in a field: in front of it, in it, between its quotes, or behind a quote
that closes it unless another quote follows. -/
inductive Place where
  | front
  | plain
  | quoted
  | closed
  deriving DecidableEq

structure Reading where
  place : Place := .front
  field : List Char := []
  fields : List String := []
  records : List (List String) := []

namespace Reading

def into (s : Reading) (place : Place) (c : Char) : Reading :=
  { s with place := place, field := s.field ++ [c] }

def endField (s : Reading) : Reading :=
  ⟨.front, [], s.fields ++ [String.ofList s.field], s.records⟩

def endRecord (s : Reading) : Reading :=
  ⟨.front, [], [], s.records ++ [s.fields ++ [String.ofList s.field]]⟩

def bare (s : Reading) (c : Char) : Option Reading :=
  if c = '\t' then some s.endField
  else if c = '\n' then some s.endRecord
  else if c = '"' ∨ s.place = .closed then none
  else some (s.into .plain c)

def step (s : Reading) (c : Char) : Option Reading :=
  match s.place with
  | .front => if c = '"' then some { s with place := .quoted } else s.bare c
  | .plain => s.bare c
  | .quoted => some (if c = '"' then { s with place := .closed } else s.into .quoted c)
  | .closed => if c = '"' then some (s.into .quoted c) else s.bare c

def run (s : Reading) (cs : List Char) : Option Reading := cs.foldlM step s

/- The last record may lack its line end, but not its closing quote. -/
def finish (s : Reading) : Option (List (List String)) :=
  if s.place = .quoted then none
  else if s.place = .front ∧ s.fields = [] then some s.records
  else some s.endRecord.records

end Reading

def read? (text : String) : Option (List (List String)) :=
  (Reading.run {} text.toList).bind Reading.finish

/-! ### Fields and records -/

namespace Reading

theorem runAppend (s : Reading) (xs ys : List Char) :
    s.run (xs ++ ys) = (s.run xs).bind fun s => s.run ys :=
  List.foldlM_append

theorem runCons (s : Reading) (c : Char) (cs : List Char) :
    s.run (c :: cs) = (s.step c).bind fun s => s.run cs :=
  List.foldlM_cons

theorem runDoubled (s : Reading) (cs : List Char) :
    run { s with place := .quoted } (doubled cs) =
      some { s with place := .quoted, field := s.field ++ cs } := by
  induction cs generalizing s with
  | nil =>
    rw [List.append_nil]
    rfl
  | cons c rest ih =>
    have more := ih { s with field := s.field ++ [c] }
    rw [List.append_assoc] at more
    rw [doubled, List.flatMap_cons, runAppend]
    by_cases quote : c = '"'
    · subst quote
      exact more
    · rw [if_neg quote, runCons]
      simp only [step, if_neg quote]
      exact more

theorem runPlain (s : Reading) {cs : List Char} (safe : needsQuotes cs = false)
    (outside : s.place = .front ∨ s.place = .plain) :
    ∃ place, (place = .front ∨ place = .plain) ∧
      s.run cs = some { s with place := place, field := s.field ++ cs } := by
  induction cs generalizing s with
  | nil => exact ⟨s.place, outside, by rw [List.append_nil]; rfl⟩
  | cons c rest ih =>
    simp only [needsQuotes, List.any_cons, Bool.or_eq_false_iff, beq_eq_false_iff_ne] at safe ih
    obtain ⟨⟨⟨⟨tab, quote⟩, _⟩, newline⟩, later⟩ := safe
    have read : s.step c = some (s.into .plain c) := by
      rcases outside with here | here <;> simp [step, bare, here, tab, quote, newline]
    obtain ⟨place, known, more⟩ := ih (s.into .plain c) later (.inr rfl)
    refine ⟨place, known, ?_⟩
    rw [runCons, read]
    refine more.trans ?_
    simp only [into, List.append_assoc, List.singleton_append]

theorem stepBare {s : Reading} {c : Char} (outside : s.place ≠ .quoted) (other : c ≠ '"') :
    s.step c = s.bare c := by
  obtain ⟨place, field, fields, records⟩ := s
  cases place with
  | quoted => contradiction
  | front => exact if_neg other
  | plain => rfl
  | closed => exact if_neg other

theorem stepTab {s : Reading} (outside : s.place ≠ .quoted) : s.step '\t' = some s.endField :=
  stepBare outside (by decide)

theorem stepNewline {s : Reading} (outside : s.place ≠ .quoted) :
    s.step '\n' = some s.endRecord :=
  stepBare outside (by decide)

theorem runField (field : String) (fields : List String) (records : List (List String)) :
    ∃ place, place ≠ .quoted ∧
      run ⟨.front, [], fields, records⟩ (fieldChars field) =
        some ⟨place, field.toList, fields, records⟩ := by
  unfold fieldChars
  dsimp only
  split
  · refine ⟨.closed, by decide, ?_⟩
    have opened : step ⟨.front, [], fields, records⟩ '"' = some ⟨.quoted, [], fields, records⟩ :=
      rfl
    have inside : run ⟨.quoted, [], fields, records⟩ (doubled field.toList) =
        some ⟨.quoted, field.toList, fields, records⟩ :=
      runDoubled ⟨.front, [], fields, records⟩ field.toList
    rw [runCons, opened, Option.bind_some, runAppend, inside]
    rfl
  · rename_i safe
    obtain ⟨place, known, read⟩ := runPlain ⟨.front, [], fields, records⟩
      (Bool.eq_false_iff.mpr safe) (.inl rfl)
    refine ⟨place, ?_, read⟩
    rcases known with rfl | rfl <;> decide

theorem runRecord {record : List String} (filled : record ≠ []) (fields : List String)
    (records : List (List String)) :
    run ⟨.front, [], fields, records⟩ (recordChars record) =
      some ⟨.front, [], [], records ++ [fields ++ record]⟩ := by
  induction record generalizing fields with
  | nil => contradiction
  | cons field rest ih =>
    obtain ⟨place, outside, read⟩ := runField field fields records
    cases rest with
    | nil =>
      have last : run ⟨place, field.toList, fields, records⟩ ['\n'] =
          some ⟨.front, [], [], records ++ [fields ++ [field]]⟩ := by
        rw [runCons, stepNewline outside, endRecord, String.ofList_toList]
        rfl
      rw [recordChars, runAppend, read]
      exact last
    | cons next more =>
      have first : step ⟨place, field.toList, fields, records⟩ '\t' =
          some ⟨.front, [], fields ++ [field], records⟩ := by
        rw [stepTab outside, endField, String.ofList_toList]
      have split : recordChars (field :: next :: more) =
          fieldChars field ++ '\t' :: recordChars (next :: more) := rfl
      rw [split, runAppend, read, Option.bind_some, runCons, first, Option.bind_some,
        ih (List.cons_ne_nil next more), List.append_assoc]
      rfl

theorem runRecords {rows : List (List String)} (filled : ∀ row ∈ rows, row ≠ [])
    (records : List (List String)) :
    run ⟨.front, [], [], records⟩ (rows.flatMap recordChars) =
      some ⟨.front, [], [], records ++ rows⟩ := by
  induction rows generalizing records with
  | nil =>
    rw [List.append_nil]
    rfl
  | cons row rest ih =>
    obtain ⟨first, later⟩ := List.forall_mem_cons.mp filled
    rw [List.flatMap_cons, runAppend, runRecord first, Option.bind_some, List.nil_append, ih later,
      List.append_assoc]
    rfl

end Reading

theorem readText {records : List (List String)} (filled : ∀ record ∈ records, record ≠ []) :
    read? (text records) = some records := by
  have read := Reading.runRecords filled []
  rw [read?, text, String.toList_ofList]
  exact (congrArg (Option.bind · Reading.finish) read).trans rfl

end Tsv

/-! ### Records of examples -/

namespace PredictionFile

/- The cell is read as a list of numbers, to each of which the score in its place is nearest. -/
def ScoresIn (cell : String) (row : List Score) : Prop :=
  ∃ ds, Json.read cell = some (.list ds) ∧
    List.Forall₂ (fun score d => (Number.single score).ReadAs d) row ds

structure Shows (f : PredictionFile) (report : StageReport) (i : Nat) (record : List String) :
    Prop where
  fields : record.length = f.columns.length + 3
  prediction : ∃ label, report.predictions[i]? = some label ∧ record[0]? = some label.text
  target : ∃ label, report.targets[i]? = some label ∧ record[1]? = some label.text
  scores : ∀ row, report.scores[i]? = some row → ∃ cell, record[2]? = some cell ∧
    cell = (Json.array (row.map .single)).compact ∧ ScoresIn cell row
  kept : report.scores ≠ [] → ∃ row, report.scores[i]? = some row
  withheld : report.scores = [] → record[2]? = some ""
  column : ∀ j name values, f.columns[j]? = some name → report.context.find? name = some values →
    ∃ value cell, values[i]? = some value ∧ record[j + 3]? = some cell ∧ value.ShownAs cell
  absent : ∀ j name, f.columns[j]? = some name → report.context.find? name = none →
    record[j + 3]? = some ""

variable {report : StageReport} {n : Nat} {memoryEfficient : Bool}

namespace Shows

variable {f : PredictionFile} {i : Nat} {record : List String}

theorem predictionCell (shows : f.Shows report i record) {label : ReportedLabel}
    (here : report.predictions[i]? = some label) : record[0]? = some label.text := by
  obtain ⟨_, same, cell⟩ := shows.prediction
  rwa [Option.some.inj (here.symm.trans same)]

theorem targetCell (shows : f.Shows report i record) {label : ReportedLabel}
    (here : report.targets[i]? = some label) : record[1]? = some label.text := by
  obtain ⟨_, same, cell⟩ := shows.target
  rwa [Option.some.inj (here.symm.trans same)]

theorem scoreCell (shows : f.Shows report i record) {row : List Score}
    (here : report.scores[i]? = some row) :
    record[2]? = some (Json.array (row.map .single)).compact := by
  obtain ⟨_, cell, rfl, _⟩ := shows.scores row here
  exact cell

theorem columnCell (shows : f.Shows report i record) {j : Nat} {name : String}
    {values : List Json} {value : Json} (asked : f.columns[j]? = some name)
    (found : report.context.find? name = some values) (here : values[i]? = some value) :
    record[j + 3]? = some value.plainText := by
  obtain ⟨_, _, same, cell, shown⟩ := shows.column j name values asked found
  rwa [Option.some.inj (here.symm.trans same), (Json.shownAsExact _ _).mp shown]

end Shows

theorem scoresWritten (row : List Score) :
    ScoresIn (Json.array (row.map .single)).compact row := by
  obtain ⟨d, read, as⟩ := Json.compactSpells (.array (row.map .single))
  cases as with
  | array each =>
    refine ⟨_, read, (List.forall₂_map_left_iff.mp each).imp fun score d as => ?_⟩
    cases as with
    | number as => exact as

theorem rowShows (f : PredictionFile) (covers : report.Covers n memoryEfficient)
    (withheld : memoryEfficient = true → report.scores = []) {i : Nat} (inside : i < n)
    {prediction target : ReportedLabel} (predicted : report.predictions[i]? = some prediction)
    (expected : report.targets[i]? = some target) :
    f.Shows report i (f.row report (prediction, target) i) where
  fields := by
    simp only [row, List.length_append, List.length_map, List.length_cons, List.length_nil]
    omega
  prediction := ⟨prediction, predicted, rfl⟩
  target := ⟨target, expected, rfl⟩
  scores row present := ⟨_, by simp [PredictionFile.row, scoreCell, present], rfl,
    scoresWritten row⟩
  kept some := by
    cases mode : memoryEfficient with
    | true => exact absurd (withheld mode) some
    | false =>
      have bound : i < report.scores.length := (covers.scores mode).symm ▸ inside
      exact ⟨_, List.getElem?_eq_getElem bound⟩
  withheld none := by simp [row, scoreCell, none]
  column j name values asked found := by
    have bound : i < values.length :=
      (covers.columns (name, values) (report.context.memberFound.mpr found)).symm ▸ inside
    refine ⟨values[i], values[i].plainText, List.getElem?_eq_getElem bound, ?_,
      (Json.shownAsExact _ _).mpr rfl⟩
    simp [row, asked, contextCell, found, bound]
  absent j name asked none := by simp [row, asked, contextCell, none]

theorem rowsShow (f : PredictionFile) (covers : report.Covers n memoryEfficient)
    (withheld : memoryEfficient = true → report.scores = []) :
    (f.rows report).length = n ∧
      ∀ i record, (f.rows report)[i]? = some record → f.Shows report i record := by
  have counted : (report.predictions.zip report.targets).length = n := by
    rw [List.length_zip, covers.predictions, covers.targets, Nat.min_self]
  constructor
  · rw [rows, List.length_map, List.length_zipIdx, counted]
  · intro i record here
    simp only [rows, List.getElem?_map, List.getElem?_zipIdx, Option.map_eq_some_iff] at here
    obtain ⟨_, ⟨⟨prediction, target⟩, paired, rfl⟩, rfl⟩ := here
    obtain ⟨predicted, expected⟩ := List.getElem?_zip_eq_some.mp paired
    have inside : i < n := counted ▸ (List.getElem?_eq_some_iff.mp paired).1
    rw [Nat.zero_add]
    exact f.rowShows covers withheld inside predicted expected

end PredictionFile

theorem predictionsReadBack (f : PredictionFile) {report : StageReport} {n : Nat}
    {memoryEfficient : Bool} (covers : report.Covers n memoryEfficient)
    (withheld : memoryEfficient = true → report.scores = []) (folder : Folder) :
    (∃ records,
      Tsv.read? (f.text report) =
        some ((["prediction", "target", "scores"] ++ f.columns) :: records) ∧
      records.length = n ∧
      ∀ i record, records[i]? = some record → f.Shows report i record) ∧
    let delivery := (Channel.file f).deliver report folder
    ((∃ place, folder.locate true f.path = .ok place ∧
        delivery = ⟨folder.put place (.text (f.text report)), [f.writtenNote report], none⟩ ∧
        delivery.folder.readText f.path = .ok (f.text report)) ∨
      ∃ cause, folder.locate true f.path = .error cause ∧
        delivery = ⟨folder, [], some (.csv cause.message)⟩) := by
  obtain ⟨counted, shown⟩ := f.rowsShow covers withheld
  constructor
  · refine ⟨f.rows report, Tsv.readText ?_, counted, shown⟩
    intro record member
    rcases List.mem_cons.mp member with rfl | inRows
    · exact List.cons_ne_nil _ _
    · obtain ⟨i, here⟩ := List.mem_iff_getElem?.mp inRows
      intro none
      have fields := (shown i record here).fields
      rw [none] at fields
      contradiction
  · intro delivery
    cases located : folder.locate true f.path with
    | ok place =>
      have written : folder.write f.path (.text (f.text report)) =
          .ok (folder.put place (.text (f.text report))) := Folder.writeOk.mpr ⟨place, located, rfl⟩
      have delivered : delivery =
          ⟨folder.put place (.text (f.text report)), [f.writtenNote report], none⟩ := by
        simp only [delivery, Channel.deliver, written]
      refine .inl ⟨place, rfl, delivered, ?_⟩
      rw [delivered]
      exact Folder.readWritten written
    | error cause =>
      have written : folder.write f.path (.text (f.text report)) = .error cause := by
        rw [Folder.write, located]
        rfl
      refine .inr ⟨cause, rfl, ?_⟩
      simp only [delivery, Channel.deliver, written]

/- Tabs, quotes and line ends in every kind of cell, scores of every kind, numbers in a context
column, and a column that nothing fills. -/
def crossedCells : StageReport where
  stage := .test
  epoch := 0
  metrics := ⟨0, ⟨∅, ⟨0, 0, 0, 0⟩⟩, none, none, none, none⟩
  selected := 0
  predictions := [.one "to\tfro", .several ["x\r", "y"]]
  targets := [.one "say \"so\"", .several []]
  scores := [[⟨0x3f000000⟩, ⟨0x3e800000⟩], [⟨0x80000000⟩, ⟨0x7fc00000⟩]]
  context := ⟨[("n", [.count 7, .array [.bool true]]), ("text", [.string "one\ntwo", .string ""])],
    by decide⟩
  labels := []

def crossedFile : PredictionFile := ⟨"p.tsv", [], ["text", "id", "n"]⟩

theorem crossedCellsReadBack :
    (crossedCells.Covers 2 false ∧ ∃ first second,
      Tsv.read? (crossedFile.text crossedCells) =
        some [["prediction", "target", "scores", "text", "id", "n"], first, second] ∧
      first[0]? = some "to\tfro" ∧ first[2]? = some "[0.5,0.25]" ∧ first[3]? = some "one\ntwo" ∧
      first[5]? = some "7" ∧ second[0]? = some "x\r,y" ∧ second[1]? = some "" ∧
      second[2]? = some "[-0.0,null]" ∧ second[4]? = some "" ∧ second[5]? = some "[true]") ∧
    StageReport.Covers { crossedCells with scores := [] } 2 true ∧ ∃ first second,
      Tsv.read? (crossedFile.text { crossedCells with scores := [] }) =
        some [["prediction", "target", "scores", "text", "id", "n"], first, second] ∧
      first[2]? = some "" ∧ second[2]? = some "" := by
  constructor
  · have covers : crossedCells.Covers 2 false := ⟨rfl, rfl, by decide, by decide⟩
    obtain ⟨⟨records, read, counted, shown⟩, _⟩ :=
      predictionsReadBack crossedFile covers nofun .empty
    obtain ⟨first, second, rfl⟩ := List.length_eq_two.mp counted
    have one := shown 0 first rfl
    have two := shown 1 second rfl
    have halves : (Json.array ([⟨0x3f000000⟩, ⟨0x3e800000⟩].map .single)).compact =
      "[0.5,0.25]" := by decide +kernel
    have signed : (Json.array ([⟨0x80000000⟩, ⟨0x7fc00000⟩].map .single)).compact =
      "[-0.0,null]" := by decide +kernel
    have seven : (Json.count 7).compact = "7" := by decide +kernel
    have flags : (Json.array [.bool true]).compact = "[true]" := by decide +kernel
    exact ⟨covers, first, second, read, one.predictionCell rfl,
      (one.scoreCell rfl).trans (congrArg some halves), one.columnCell (j := 0) rfl rfl rfl,
      (one.columnCell (j := 2) rfl rfl rfl).trans (congrArg some seven), two.predictionCell rfl,
      two.targetCell rfl, (two.scoreCell rfl).trans (congrArg some signed),
      two.absent 1 "id" rfl rfl, (two.columnCell (j := 2) rfl rfl rfl).trans (congrArg some flags)⟩
  · have covers : StageReport.Covers { crossedCells with scores := [] } 2 true :=
      ⟨rfl, rfl, by decide, by decide⟩
    obtain ⟨⟨records, read, counted, shown⟩, _⟩ :=
      predictionsReadBack crossedFile covers (fun _ => rfl) .empty
    obtain ⟨first, second, rfl⟩ := List.length_eq_two.mp counted
    exact ⟨covers, first, second, read, (shown 0 first rfl).withheld rfl,
      (shown 1 second rfl).withheld rfl⟩

end EvalReport
