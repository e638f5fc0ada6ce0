import EvalReport.Config.File
import EvalReport.Proofs.Files
import EvalReport.Proofs.JsonText
import EvalReport.Proofs.TomlLines

/-! Settings written to a file are the settings read from it. The two notations leave a setting
unset in different ways; they meet in the fields of one record. -/
namespace EvalReport.Config

open Document

/-! ### Fields -/

def optionalField (unset : Option Document) (setting : Option String) : Option Document :=
  match setting with
  | none => unset
  | some s => some (.text (some s))

def textsField (ss : List String) : Document := .list (ss.map fun s => .text (some s))

def fields (unset : Option Document) (c : Config) : List (Option Document) :=
  [some (.text (some c.metric.name)),
    optionalField unset c.targetLabel,
    some (textsField c.textColumns),
    some (textsField c.additionalColumns),
    some (.list (c.thresholds.map fun x => .number (some (.real x)))),
    some (.flag c.memoryEfficient),
    some (.number (some (.integer c.topK))),
    optionalField unset c.outputPath,
    some (textsField (c.fileStages.map (·.name)))]

theorem collectBack {α β : Type} {f : α → Option β} {g : β → α} (back : ∀ x, f (g x) = some x)
    (xs : List β) : collect f (xs.map g) = some xs := by
  induction xs with
  | nil => rfl
  | cons x xs ih => simp [collect, back, ih]

theorem criterionBack (bare : Bare) (m : Criterion) :
    readCriterion bare (.text (some m.name)) = some m := by
  cases m <;> rfl

theorem stageBack (bare : Bare) (s : Stage) : readStage bare (.text (some s.name)) = some s := by
  cases s <;> rfl

theorem stagesBack (bare : Bare) (ss : List Stage) :
    list? (readStage bare) (textsField (ss.map (·.name))) = some ss := by
  rw [textsField, List.map_map]
  exact collectBack (stageBack bare) ss

theorem textsBack (ss : List String) : list? text? (textsField ss) = some ss :=
  have each (s : String) : text? (.text (some s)) = some s := rfl
  collectBack each ss

theorem realsBack (xs : List Float) :
    list? real? (.list (xs.map fun x => .number (some (.real x)))) = some xs :=
  have each (x : Float) : real? (.number (some (.real x))) = some x := rfl
  collectBack each xs

theorem optionalBack {unset : Option Document} (nothing : unset = none ∨ unset = some .null)
    (setting : Option String) :
    given (optional? text?) none (optionalField unset setting) = some setting := by
  cases setting with
  | none => rcases nothing with rfl | rfl <;> rfl
  | some s => rfl

theorem countBack {n : Nat} (fits : n < 0x10000000000000000) :
    count? (.number (some (.integer n))) = some n :=
  if_pos fits

theorem givenThere {α : Type} (read : Reader α) (default : α) (d : Document) :
    given read default (some d) = read d :=
  rfl

theorem fieldsBack (bare : Bare) {unset : Option Document}
    (nothing : unset = none ∨ unset = some .null) {c : Config}
    (fits : c.topK < 0x10000000000000000) : ofFields? bare (c.fields unset) = some c := by
  have target := optionalBack nothing c.targetLabel
  have path := optionalBack nothing c.outputPath
  simp only [fields, ofFields?, givenThere, criterionBack, textsBack, realsBack, countBack fits,
    stagesBack, flag?, target, path]
  rfl

/-! ### JSON -/

theorem ofJsonEach (items : List Json) : ofJsonItems items = items.map ofJson := by
  induction items with
  | nil => rfl
  | cons x xs ih => rw [ofJsonItems, ih, List.map_cons]

theorem ofJsonStrings (ss : List String) : ofJson (Json.strings ss) = textsField ss := by
  rw [Json.strings, ofJson, ofJsonEach, List.map_map]
  rfl

theorem ofJsonReals (xs : List Float) : ofJson (.array (xs.map .real)) =
    .list (xs.map fun x => .number (some (.real x))) := by
  rw [ofJson, ofJsonEach, List.map_map]
  rfl

theorem ofJsonOptional (setting : Option String) :
    some (Document.ofJson (Json.optional .string setting)) =
      optionalField (some .null) setting := by
  cases setting <;> rfl

theorem jsonFields (c : Config) : (Fields.mk true fieldNames).read (.ofJson c.toJson) =
    some (false, c.fields (some .null)) := by
  rw [toJson, ofJson]
  simp only [ofJsonMembers, ofJsonStrings, ofJsonReals]
  simp [Fields.read, fieldNames, collect, fields, ofJsonOptional, ofJson, Json.count]

/- The decimal text written for the double reads back as the same value. -/
def Format.Keeps (format : Format) (x : Float) : Prop :=
  match format with
  | json => (Number.real x).ReadsBack
  | toml => Toml.decimalFloat (Toml.Value.float x).chars = some (.number (some (.real x)), [])

theorem itemsBack {items : List Json} (each : ∀ x ∈ items, Json.NumbersBack x) :
    Json.ItemsBack items := by
  induction items with
  | nil => trivial
  | cons x xs ih =>
    obtain ⟨first, later⟩ := List.forall_mem_cons.mp each
    exact ⟨first, ih later⟩

theorem stringsBack (ss : List String) : Json.NumbersBack (Json.strings ss) := by
  apply itemsBack
  intro x member
  obtain ⟨s, _, rfl⟩ := List.mem_map.mp member
  trivial

theorem settingBack (setting : Option String) :
    Json.NumbersBack (Json.optional .string setting) := by
  cases setting <;> trivial

theorem jsonNumbersBack {c : Config} (fits : c.topK < 0x10000000000000000)
    (kept : ∀ x ∈ c.thresholds, Format.json.Keeps x) : c.toJson.NumbersBack := by
  have thresholds : Json.NumbersBack (.array (c.thresholds.map .real)) := by
    apply itemsBack
    intro x member
    obtain ⟨y, inside, rfl⟩ := List.mem_map.mp member
    exact kept y inside
  exact ⟨trivial, settingBack _, stringsBack _, stringsBack _, thresholds, trivial,
    Json.countReadsBack fits, settingBack _, stringsBack _, trivial⟩

theorem parseJson {c : Config} (fits : c.topK < 0x10000000000000000)
    (kept : ∀ x ∈ c.thresholds, Format.json.Keeps x) :
    parse .json c.toJson.indented = .ok c := by
  have fields : ofDocument? .json (.ofJson c.toJson) = some c := by
    simp [ofDocument?, jsonFields, fieldsBack .null (.inr rfl) fits]
  rw [parse, Json.readIndented (jsonNumbersBack fits kept), Option.bind_some, fields]

/-! ### TOML -/

def textLine (key s : String) : Toml.Line := ⟨key, (Toml.Value.string s).chars, .text (some s)⟩

def textsLine (key : String) (ss : List String) : Toml.Line :=
  ⟨key, Toml.arrayChars (ss.map .string), textsField ss⟩

def tomlLines (c : Config) : List Toml.Line :=
  [textLine "model_select_metric" c.metric.name] ++
    c.targetLabel.toList.map (textLine "target_label") ++
    [textsLine "text_column_names" c.textColumns,
      textsLine "additional_column_names" c.additionalColumns,
      ⟨"recall_at_precision_thresholds", Toml.arrayChars (c.thresholds.map .float),
        .list (c.thresholds.map fun x => .number (some (.real x)))⟩,
      ⟨"is_memory_efficient", (Toml.Value.boolean c.memoryEfficient).chars,
        .flag c.memoryEfficient⟩,
      ⟨"topk", (Toml.Value.integer c.topK).chars, .number (some (.integer c.topK))⟩] ++
    c.outputPath.toList.map (textLine "output_path") ++
    [textsLine "file_channel_stages" (c.fileStages.map (·.name))]

theorem tomlCharsLines (c : Config) :
    c.tomlChars = c.tomlLines.flatMap fun l => Toml.pairChars l.key l.written := by
  unfold tomlChars tomlLines
  cases c.targetLabel with
  | none => cases c.outputPath <;> simp [textLine, textsLine]
  | some label => cases c.outputPath <;> simp [textLine, textsLine]

theorem tomlKeys (c : Config) : (c.tomlLines.map (·.key)).Sublist fieldNames := by
  have setting (key : String) (o : Option String) :
      ((o.toList.map (textLine key)).map (·.key)).Sublist [key] := by
    cases o <;> simp [textLine]
  have unset := ((List.Sublist.refl ["model_select_metric"]).append
    (setting "target_label" c.targetLabel)).append
      (List.Sublist.refl ["text_column_names", "additional_column_names",
        "recall_at_precision_thresholds", "is_memory_efficient", "topk"])
  have all := (unset.append (setting "output_path" c.outputPath)).append
    (List.Sublist.refl ["file_channel_stages"])
  simp only [tomlLines, List.map_append]
  exact all

theorem tomlFields (c : Config) :
    (Fields.mk false fieldNames).read (.record (c.tomlLines.map fun l => (some l.key, l.means))) =
      some (false, c.fields none) := by
  unfold tomlLines fields optionalField
  cases c.targetLabel with
  | none =>
    cases c.outputPath <;> simp [Fields.read, fieldNames, collect, textLine, textsLine]
  | some label =>
    cases c.outputPath <;> simp [Fields.read, fieldNames, collect, textLine, textsLine]

theorem fieldNameBare {name : String} (member : name ∈ fieldNames) :
    name.toList ≠ [] ∧ ∀ c ∈ name.toList, Toml.isBareKey c = true := by
  have all : fieldNames.all
      (fun name => !name.toList.isEmpty && name.toList.all Toml.isBareKey) = true := rfl
  simpa using List.all_eq_true.mp all name member

theorem fieldNamesDistinct : fieldNames.Nodup := by
  simp [fieldNames]

theorem textsWritten (ss : List String) :
    Toml.Written (Toml.arrayChars (ss.map .string)) (textsField ss) := by
  apply Toml.arrayWritten
  rw [List.forall₂_map_left_iff, List.forall₂_map_right_iff, List.forall₂_same]
  exact fun s _ => Toml.backText s

theorem realsWritten {xs : List Float} (kept : ∀ x ∈ xs, Format.toml.Keeps x) :
    Toml.Written (Toml.arrayChars (xs.map .float))
      (.list (xs.map fun x => .number (some (.real x)))) := by
  apply Toml.arrayWritten
  rw [List.forall₂_map_left_iff, List.forall₂_map_right_iff, List.forall₂_same]
  exact fun x member => Toml.backFloat (kept x member)

theorem settingWritten (key : String) (setting : Option String) :
    ∀ l ∈ setting.toList.map (textLine key), Toml.Written l.written l.means := by
  intro l member
  obtain ⟨s, _, rfl⟩ := List.mem_map.mp member
  exact (Toml.backText s).written

theorem tomlWritten {c : Config} (fits : c.topK < 0x8000000000000000)
    (kept : ∀ x ∈ c.thresholds, Format.toml.Keeps x) :
    ∀ l ∈ c.tomlLines, Toml.Written l.written l.means := by
  simp only [tomlLines, List.forall_mem_append, List.forall_mem_cons]
  refine ⟨⟨⟨⟨?metric, ?target⟩, ?middle⟩, ?path⟩, ?stages⟩
  case metric => exact ⟨(Toml.backText c.metric.name).written, nofun⟩
  case target => exact settingWritten _ c.targetLabel
  case middle =>
    exact ⟨textsWritten _, textsWritten _, realsWritten kept,
      (Toml.backFlag c.memoryEfficient).written, (Toml.backCount fits).written, nofun⟩
  case path => exact settingWritten _ c.outputPath
  case stages => exact ⟨textsWritten _, nofun⟩

theorem parseToml {c : Config} (fits : c.topK < 0x8000000000000000)
    (kept : ∀ x ∈ c.thresholds, Format.toml.Keeps x) :
    parse .toml (String.ofList c.tomlChars) = .ok c := by
  have plain : ∀ l ∈ c.tomlLines, l.Plain := by
    intro l member
    have known := (tomlKeys c).subset (List.mem_map_of_mem member)
    obtain ⟨filled, bare⟩ := fieldNameBare known
    exact ⟨filled, bare, tomlWritten fits kept l member⟩
  have distinct : (c.tomlLines.map (·.key)).Nodup := fieldNamesDistinct.sublist (tomlKeys c)
  have fields : ofDocument? .toml
      (.record (c.tomlLines.map fun l => (some l.key, l.means))) = some c := by
    have narrow : (Format.toml == Format.json) = false := rfl
    have read := fieldsBack .empty (.inl rfl) (fits.trans (by decide))
    simp [ofDocument?, narrow, tomlFields, read]
  rw [parse, tomlCharsLines, Toml.readLines plain distinct, Option.bind_some, fields]

/-! ### Files -/

def Format.room : Format → Nat
  | json => 0x10000000000000000
  | toml => 0x8000000000000000

theorem textBack {format : Format} {c : Config} (fits : c.topK < format.room)
    (kept : ∀ x ∈ c.thresholds, format.Keeps x) :
    ∃ content, c.text format = .ok content ∧ parse format content = .ok c := by
  cases format with
  | json => exact ⟨_, rfl, parseJson fits kept⟩
  | toml => exact ⟨_, if_pos fits, parseToml fits kept⟩

theorem loadedValid {folder : Folder} {path : String} {c : Config}
    (loaded : load folder path = .ok c) : c.validate = .ok () := by
  unfold load at loaded
  split at loaded
  · contradiction
  · split at loaded
    · contradiction
    · simp only [bindOk] at loaded
      obtain ⟨read, _, _, valid, same⟩ := loaded
      cases same
      exact valid

/- Settings within their limits are saved to any file that can be written, as JSON or TOML by the
extension of its name, and loaded from it as they were; whatever a file holds, the settings
loaded from it are within their limits. -/
theorem settingsSurvive :
    (∀ (c : Config) (folder : Folder) (path : String) (place : Place) (format : Format),
      c.validate = .ok () → Format.ofPath path = some format →
      folder.locate true path = .ok place →
      c.topK < format.room → (∀ x ∈ c.thresholds, format.Keeps x) →
      ∃ content, c.save folder path = .ok (folder.put place (.text content)) ∧
        load (folder.put place (.text content)) path = .ok c) ∧
    ∀ (folder : Folder) (path : String) (c : Config),
      load folder path = .ok c → c.validate = .ok () := by
  refine ⟨?_, fun _ _ _ => loadedValid⟩
  intro c folder path place format valid extension located fits kept
  obtain ⟨content, text, parsed⟩ := textBack fits kept
  have written : folder.write path (.text content) = .ok (folder.put place (.text content)) :=
    Folder.writeOk.mpr ⟨place, located, rfl⟩
  refine ⟨content, ?_, ?_⟩
  · simp only [save, extension, text, bind, Except.bind, written]
  · simp only [load, Folder.readWritten written, extension, parsed, valid, bind, Except.bind]

theorem halfKept (format : Format) : format.Keeps 0.5 := by
  cases format with
  | json =>
    have text : (Number.real 0.5).chars = ['0', '.', '5'] := by decide +kernel
    have value : Json.scaled 5 (-1) = some 0.5 := by decide +kernel
    refine ⟨⟨false, ['0'], some ['5'], none⟩, ?_, ?_⟩
    · rw [text]
      rfl
    · show (Json.scaled 5 (-1)).map Number.real = _
      rw [value]
      rfl
  | toml =>
    have text : (Toml.Value.float 0.5).chars = ['0', '.', '5'] := by decide +kernel
    have value : Toml.nearest 5 (-1) = 0.5 := by decide +kernel
    have finite : (0.5 : Float).isInf = false := by decide +kernel
    show Toml.decimalFloat (Toml.Value.float 0.5).chars = _
    rw [text]
    show (if (Toml.nearest 5 (-1)).isInf && !false then none
      else some (Document.number (some (.real (Toml.nearest 5 (-1)))), [])) = _
    rw [value, finite]
    rfl

def awkward : Config where
  metric := .labelF1
  targetLabel := some "say \"no\" \\ it\x27s\n\t\x01\x7f"
  textColumns := ["\"\"\"", "\x27\x27\x27\n", "größe"]
  additionalColumns := [""]
  thresholds := [0.5]
  outputPath := some "out\\1.tsv"

def runFolders : Folder := ⟨["home", "work"], [["home", "work", "runs"], ["tmp", "run-1"]], []⟩

theorem awkwardSettingsSurvive :
    awkward.validate = .ok () ∧
      (∃ saved, awkward.save runFolders "/tmp/run-1/settings.toml" = .ok saved ∧
        load saved "/tmp/run-1/settings.toml" = .ok awkward) ∧
      ∃ saved, awkward.save runFolders "runs/settings.json" = .ok saved ∧
        load saved "runs/settings.json" = .ok awkward := by
  have valid : awkward.validate = .ok () := by decide +kernel
  have kept (format : Format) : ∀ x ∈ awkward.thresholds, format.Keeps x := by
    intro x member
    rw [List.mem_singleton.mp member]
    exact halfKept format
  have outside : runFolders.locate true "/tmp/run-1/settings.toml" =
      .ok ["tmp", "run-1", "settings.toml"] := by
    have path : pathOf true ["tmp", "run-1", "settings.toml"] = "/tmp/run-1/settings.toml" := rfl
    rw [← path]
    exact plainLocated runFolders true ["tmp", "run-1"] (by decide) rfl rfl true
  have inside : runFolders.locate true "runs/settings.json" =
      .ok ["home", "work", "runs", "settings.json"] := by
    have path : pathOf false ["runs", "settings.json"] = "runs/settings.json" := rfl
    rw [← path]
    exact plainLocated runFolders false ["runs"] (by decide) rfl rfl true
  refine ⟨valid, ?_, ?_⟩
  · obtain ⟨content, saved, loaded⟩ := settingsSurvive.1 awkward runFolders
      "/tmp/run-1/settings.toml" _ .toml valid (by decide) outside (by decide) (kept .toml)
    exact ⟨_, saved, loaded⟩
  · obtain ⟨content, saved, loaded⟩ := settingsSurvive.1 awkward runFolders
      "runs/settings.json" _ .json valid (by decide) inside (by decide) (kept .json)
    exact ⟨_, saved, loaded⟩

end EvalReport.Config
