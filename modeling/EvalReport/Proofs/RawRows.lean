import EvalReport.Proofs.JsonText
import EvalReport.Proofs.ReporterRun
import EvalReport.Proofs.Table

/-! The context that raw rows are turned into. Rows that lack a configured column are refused;
otherwise each configured name holds one value for each row, in the order of the rows. All names
share one table and the additional columns are entered last, so where one of them has the name of
the joined text, the joined text is lost. -/
namespace EvalReport

namespace Reporter

def Holds (row : Table Json) (column : String) (value : Json) : Prop :=
  row.find? column = some value

def Joins (columns : List String) (row : Table Json) (value : Json) : Prop :=
  ∃ cells parts, List.Forall₂ (Holds row) columns cells ∧ List.Forall₂ Json.ShownAs cells parts ∧
    value = .string (" | ".intercalate parts)

def PerRow (rows : List (Table Json)) (each : Table Json → Json → Prop)
    (found : Option ContextValue) : Prop :=
  ∃ values, found = some (.sequence values) ∧ List.Forall₂ each rows values

/-! ### One row -/

theorem cellOk {row : Table Json} {column : String} {value : Json} :
    cell row column = .ok value ↔ Holds row column value := by
  unfold cell Holds
  cases row.find? column <;> simp

theorem holdsFound {row : Table Json} {column : String} {value : Json}
    (held : Holds row column value) : row.find? column ≠ none :=
  Option.ne_none_iff_exists'.mpr ⟨value, held⟩

theorem cellFault {row : Table Json} {column : String} {fault : Fault} :
    cell row column = .error fault ↔
      row.find? column = none ∧ fault = .dataContract (.missingColumn column) := by
  unfold cell
  cases row.find? column <;> simp [eq_comm]

theorem textOfOk {columns : List String} {row : Table Json} {value : Json} :
    textOf columns row = .ok value ↔ Joins columns row value := by
  have shown : ∀ cells parts, List.Forall₂ Json.ShownAs cells parts ↔
      cells.map Json.plainText = parts := by
    intro cells parts
    have same : Json.ShownAs = fun j s => j.plainText = s :=
      funext fun j => funext fun s => propext (j.shownAsExact s)
    rw [same, ← List.forall₂_map_left_iff (R := (· = ·)), List.forall₂_eq_eq_eq]
  simp only [textOf, mapOk, collectOkExact, cellOk, Joins, shown]
  constructor
  · rintro ⟨cells, found, rfl⟩
    exact ⟨cells, _, found, rfl, rfl⟩
  · rintro ⟨cells, _, found, rfl, rfl⟩
    exact ⟨cells, found, rfl⟩

theorem textOfFault {columns : List String} {row : Table Json} {fault : Fault}
    (failed : textOf columns row = .error fault) :
    ∃ column ∈ columns, row.find? column = none ∧
      fault = .dataContract (.missingColumn column) := by
  obtain ⟨column, member, cause⟩ := collectOkFault (mapFault.mp failed)
  exact ⟨column, member, cellFault.mp cause⟩

/-! ### All rows -/

theorem addColumnOk {rows : List (Table Json)} {context made : Table ContextValue}
    {column : String} : addColumn rows context column = .ok made ↔
      ∃ values, List.Forall₂ (Holds · column) rows values ∧
        context.insert column (.sequence values) = made := by
  simp only [addColumn, mapOk, collectOkExact, cellOk]

theorem addColumnsFault {rows : List (Table Json)} {columns : List String}
    {context : Table ContextValue} {fault : Fault}
    (failed : addColumns rows columns context = .error fault) :
    ∃ row ∈ rows, ∃ column ∈ columns, row.find? column = none ∧
      fault = .dataContract (.missingColumn column) := by
  induction columns generalizing context with
  | nil => contradiction
  | cons column rest ih =>
    rcases bindFault.mp failed with here | ⟨_, _, later⟩
    · obtain ⟨row, member, cause⟩ := collectOkFault (mapFault.mp here)
      exact ⟨row, member, column, List.mem_cons_self, cellFault.mp cause⟩
    · obtain ⟨row, member, other, inRest, cause⟩ := ih later
      exact ⟨row, member, other, List.mem_cons_of_mem _ inRest, cause⟩

/- A column entered later under the same name replaces one entered before, but holds the same
cells; what the context held under any other name stays. -/
theorem addColumnsFound {rows : List (Table Json)} {columns : List String}
    {context made : Table ContextValue} (ok : addColumns rows columns context = .ok made)
    (name : String) :
    (name ∈ columns → PerRow rows (Holds · name) (made.find? name)) ∧
      (name ∉ columns → made.find? name = context.find? name) := by
  induction columns generalizing context with
  | nil =>
    cases Except.ok.inj ok
    exact ⟨fun member => by contradiction, fun _ => rfl⟩
  | cons column rest ih =>
    obtain ⟨next, added, later⟩ := bindOk.mp ok
    obtain ⟨values, held, rfl⟩ := addColumnOk.mp added
    obtain ⟨entered, kept⟩ := ih later
    have inserted : (context.insert column (.sequence values)).find? name =
        if column = name then some (.sequence values) else context.find? name :=
      context.findAlter column _ name
    by_cases again : name ∈ rest
    · exact ⟨fun _ => entered again, fun absent => absurd (List.mem_cons_of_mem _ again) absent⟩
    · rw [kept again, inserted]
      by_cases here : column = name
      · subst here
        rw [if_pos rfl]
        exact ⟨fun _ => ⟨values, rfl, held⟩, fun absent => absurd List.mem_cons_self absent⟩
      · rw [if_neg here]
        refine ⟨fun member => ?_, fun _ => rfl⟩
        rcases List.mem_cons.mp member with rfl | inRest
        · exact absurd rfl here
        · exact absurd inRest again

/-! ### The whole context -/

def asked (config : Config) : List String := config.textColumns ++ config.additionalColumns

structure Delivers (config : Config) (rows : List (Table Json)) (context : Table ContextValue) :
    Prop where
  names : ∀ name, name ∈ context.keys ↔ name = "text" ∨ name ∈ config.additionalColumns
  sequences : ∀ name value, context.find? name = some value →
    ∃ values, value = .sequence values ∧ values.length = rows.length
  joined : "text" ∉ config.additionalColumns →
    PerRow rows (Joins config.textColumns) (context.find? "text")
  additional : ∀ name ∈ config.additionalColumns,
    PerRow rows (Holds · name) (context.find? name)

variable {r : Reporter} {rows : List (Table Json)} {context : Table ContextValue}

theorem contextFault {fault : Fault} (failed : r.batchContext rows = .error fault) :
    ∃ row ∈ rows, ∃ column ∈ asked r.config, row.find? column = none ∧
      fault = .dataContract (.missingColumn column) := by
  rcases bindFault.mp failed with texts | ⟨_, _, columns⟩
  · obtain ⟨row, member, cause⟩ := collectOkFault texts
    obtain ⟨column, inText, missing⟩ := textOfFault cause
    exact ⟨row, member, column, List.mem_append_left _ inText, missing⟩
  · obtain ⟨row, member, column, inAdditional, missing⟩ := addColumnsFault columns
    exact ⟨row, member, column, List.mem_append_right _ inAdditional, missing⟩

theorem perRowHeld {column : String} {found : Option ContextValue}
    (perRow : PerRow rows (Holds · column) found) {row : Table Json} (member : row ∈ rows) :
    row.find? column ≠ none := by
  obtain ⟨values, _, held⟩ := perRow
  have cells : collectOk (fun row => cell row column) rows = .ok values :=
    collectOkExact.mpr (held.imp fun _ _ here => cellOk.mpr here)
  obtain ⟨value, here⟩ := collectOkEach cells member
  exact holdsFound (cellOk.mp here)

theorem joinsHeld {columns : List String} {row : Table Json} {value : Json}
    (joins : Joins columns row value) {column : String} (member : column ∈ columns) :
    row.find? column ≠ none := by
  obtain ⟨cells, _, held, _⟩ := joins
  have found : collectOk (cell row) columns = .ok cells :=
    collectOkExact.mpr (held.imp fun _ _ here => cellOk.mpr here)
  obtain ⟨value, here⟩ := collectOkEach found member
  exact holdsFound (cellOk.mp here)

theorem contextDelivers (ok : r.batchContext rows = .ok context) :
    (∀ row ∈ rows, ∀ column ∈ asked r.config, row.find? column ≠ none) ∧
      Delivers r.config rows context := by
  obtain ⟨texts, joined, columns⟩ := bindOk.mp ok
  have found := addColumnsFound columns
  have start : ∀ name, (Table.empty.insert textKey (.sequence texts)).find? name =
      if "text" = name then some (ContextValue.sequence texts) else none :=
    fun name => Table.findAlter .empty textKey _ name
  constructor
  · intro row member column inAsked
    rcases List.mem_append.mp inAsked with inText | inAdditional
    · obtain ⟨value, made⟩ := collectOkEach joined member
      exact joinsHeld (textOfOk.mp made) inText
    · exact perRowHeld ((found column).1 inAdditional) member
  · refine ⟨fun name => ?_, fun name value here => ?_, fun absent => ?_, fun name member =>
      (found name).1 member⟩
    · rw [Table.keyFound]
      by_cases additional : name ∈ r.config.additionalColumns
      · obtain ⟨values, here, _⟩ := (found name).1 additional
        simp [here, additional]
      · rw [(found name).2 additional, start]
        by_cases text : name = "text"
        · simp [text]
        · simp [text, Ne.symm text, additional]
    · by_cases additional : name ∈ r.config.additionalColumns
      · obtain ⟨values, there, held⟩ := (found name).1 additional
        cases Option.some.inj (here.symm.trans there)
        exact ⟨values, rfl, held.length_eq.symm⟩
      · rw [(found name).2 additional, start] at here
        split at here
        · cases Option.some.inj here
          exact ⟨texts, rfl, collectOkLength joined⟩
        · contradiction
    · rw [(found "text").2 absent, start, if_pos rfl]
      exact ⟨texts, rfl, (collectOkExact.mp joined).imp fun _ _ made => textOfOk.mp made⟩

end Reporter

open Reporter in
theorem rowsDelivered {kind : Kind} {labels : List String} {config : Config} {r : Reporter}
    {log : List LogLine} (made : Reporter.new kind labels config = .ok (r, log))
    (rows : List (Table Json)) :
    ((∃ fault, r.batchContext rows = .error fault) ↔
      ∃ row ∈ rows, ∃ column ∈ asked config, row.find? column = none) ∧
    (∀ fault, r.batchContext rows = .error fault → ∃ row ∈ rows, ∃ column ∈ asked config,
      row.find? column = none ∧ fault = .dataContract (.missingColumn column)) ∧
    ∀ context, r.batchContext rows = .ok context → Delivers config rows context := by
  obtain ⟨selection, rfl⟩ := newFields made
  refine ⟨⟨fun failed => ?_, fun lacking => ?_⟩, fun fault => contextFault,
    fun context ok => (contextDelivers ok).2⟩
  · obtain ⟨fault, failed⟩ := failed
    obtain ⟨row, member, column, inAsked, missing, _⟩ := contextFault failed
    exact ⟨row, member, column, inAsked, missing⟩
  · obtain ⟨row, member, column, inAsked, missing⟩ := lacking
    cases ok : batchContext ⟨config, labels, selection, kind, {}, fileChannels config⟩ rows with
    | error fault => exact ⟨fault, rfl⟩
    | ok context => exact absurd missing ((contextDelivers ok).1 row member column inAsked)

def titled : Config where
  textColumns := ["title", "year", "title"]
  additionalColumns := ["id", "id"]
  thresholds := []

def titledRows : List (Table Json) := [
  .ofList [("id", .null), ("title", .string "a | b"), ("year", .count 7)],
  .ofList [("title", .array [.string "c"]), ("id", .bool true), ("year", .string "")]]

theorem titledTexts : collectOk (Reporter.textOf titled.textColumns) titledRows =
    .ok [.string "a | b | 7 | a | b", .string "[\"c\"] |  | [\"c\"]"] := by
  have number : (Json.count 7).compact = "7" := by decide +kernel
  have list : (Json.array [.string "c"]).compact = "[\"c\"]" := by decide +kernel
  have joined : collectOk (Reporter.textOf titled.textColumns) titledRows =
      .ok [.string (" | ".intercalate ["a | b", (Json.count 7).compact, "a | b"]),
        .string (" | ".intercalate [(Json.array [.string "c"]).compact, "",
          (Json.array [.string "c"]).compact])] := rfl
  rw [number, list] at joined
  exact joined

theorem titledRowsJoined :
    ∃ r log, Reporter.new .singleLabel ["no", "yes"] titled = .ok (r, log) ∧
      ∃ context, r.batchContext titledRows = .ok context ∧
        Reporter.PerRow titledRows (Reporter.Joins ["title", "year", "title"])
          (context.find? "text") ∧
        context.find? "text" = some (.sequence
          [.string "a | b | 7 | a | b", .string "[\"c\"] |  | [\"c\"]"]) ∧
        Reporter.PerRow titledRows (Reporter.Holds · "id") (context.find? "id") := by
  have made : Reporter.new .singleLabel ["no", "yes"] titled = .ok
      (⟨titled, ["no", "yes"], .accuracy, .singleLabel, {}, []⟩,
        [Reporter.startedNote .singleLabel ["no", "yes"] .accuracy]) := rfl
  obtain ⟨fails, _, delivers⟩ := rowsDelivered made titledRows
  refine ⟨_, _, made, ?_⟩
  cases ok : Reporter.batchContext
      ⟨titled, ["no", "yes"], .accuracy, .singleLabel, {}, []⟩ titledRows with
  | error fault => exact absurd (fails.mp ⟨fault, ok⟩) (by decide)
  | ok context =>
    have delivered := delivers context ok
    have joined := delivered.joined (by decide)
    refine ⟨context, rfl, joined, ?_, delivered.additional "id" (by decide)⟩
    obtain ⟨values, here, joins⟩ := joined
    have texts : collectOk (Reporter.textOf titled.textColumns) titledRows = .ok values :=
      collectOkExact.mpr (joins.imp fun _ _ made => Reporter.textOfOk.mpr made)
    rw [here, Except.ok.inj (titledTexts.symm.trans texts)]

def passedText : Config where
  textColumns := ["title"]
  additionalColumns := ["text"]
  thresholds := []

def passedRow : Table Json := .ofList [("title", .string "seen"), ("text", .string "raw")]

theorem joinedTextLost :
    ∃ r log context, Reporter.new .singleLabel ["no", "yes"] passedText = .ok (r, log) ∧
      r.batchContext [passedRow] = .ok context ∧
      ¬ Reporter.PerRow [passedRow] (Reporter.Joins passedText.textColumns)
        (context.find? "text") := by
  refine ⟨⟨passedText, ["no", "yes"], .accuracy, .singleLabel, {}, []⟩, _, _, rfl, rfl, ?_⟩
  rintro ⟨values, here, joined⟩
  cases Option.some.inj here
  have text : Reporter.textOf ["title"] passedRow = .ok (.string "raw") :=
    Reporter.textOfOk.mpr (List.forall₂_cons.mp joined).1
  have seen : Reporter.textOf ["title"] passedRow = .ok (.string "seen") := rfl
  exact absurd (Json.string.inj (Except.ok.inj (seen.symm.trans text))) (by decide)

end EvalReport
