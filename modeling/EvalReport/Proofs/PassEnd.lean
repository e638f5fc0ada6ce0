import EvalReport.Proofs.Alignment

/-! The end of a pass. A pass is left as it was unless everything went through and a reset was
asked for. Channels are called only once there is a report and a selected value: those that take
the stage, in order, all with the same report, up to the first that fails. -/
namespace EvalReport

/-! ### Deliveries -/

inductive Served (report : StageReport) :
    Folder → List (Channel × Nat) → Folder → List LogLine → Prop where
  | none (folder) : Served report folder [] folder []
  | next {folder c rest after log}
      (took : (c.1.deliver report folder).fault = Option.none)
      (more : Served report (c.1.deliver report folder).folder rest after log) :
      Served report folder (c :: rest) after ((c.1.deliver report folder).log ++ log)

/- What comes of showing a report to listeners: who was called, what was left behind, and whose
failure ended it. -/
inductive Delivered (report : StageReport) (folder : Folder) (listeners : List (Channel × Nat)) :
    List Nat → Folder → List LogLine → Option Fault → Prop where
  | all {after log} (served : Served report folder listeners after log) :
      Delivered report folder listeners (listeners.map (·.2)) after log none
  | stopped {before failing rest between log fault}
      (split : listeners = before ++ failing :: rest)
      (served : Served report folder before between log)
      (refused : (failing.1.deliver report between).fault = some fault) :
      Delivered report folder listeners (before.map (·.2) ++ [failing.2])
        (failing.1.deliver report between).folder
        (log ++ (failing.1.deliver report between).log) (some fault)

theorem Delivered.next {report : StageReport} {folder after : Folder} {c : Channel × Nat}
    {listeners : List (Channel × Nat)} {called : List Nat} {log : List LogLine}
    {fault : Option Fault} (took : (c.1.deliver report folder).fault = none)
    (more : Delivered report (c.1.deliver report folder).folder listeners called after log fault) :
    Delivered report folder (c :: listeners) (c.2 :: called) after
      ((c.1.deliver report folder).log ++ log) fault := by
  cases more with
  | all served => exact .all (.next took served)
  | stopped split served refused =>
    rw [← List.append_assoc]
    exact .stopped (congrArg (c :: ·) split) (.next took served) refused

theorem dispatchDelivered (report : StageReport) (folder : Folder) (cs : List (Channel × Nat)) :
    Delivered report folder (cs.filter fun c => c.1.accepts report.stage)
      (dispatch report folder cs).called (dispatch report folder cs).folder
      (dispatch report folder cs).log (dispatch report folder cs).fault := by
  induction cs generalizing folder with
  | nil => exact .all (.none folder)
  | cons c rest ih =>
    obtain ⟨channel, i⟩ := c
    rw [List.filter_cons]
    cases accepted : channel.accepts report.stage with
    | false =>
      simp only [dispatch, accepted, Bool.false_eq_true, if_false]
      exact ih folder
    | true =>
      cases outcome : (channel.deliver report folder).fault with
      | some fault =>
        simp only [dispatch, accepted, outcome, if_true]
        exact .stopped (List.nil_append _).symm (.none folder) outcome
      | none =>
        simp only [dispatch, accepted, outcome, if_true]
        exact Delivered.next outcome (ih _)

theorem Delivered.inOrder {report : StageReport} {folder after : Folder}
    {listeners : List (Channel × Nat)} {called : List Nat} {log : List LogLine}
    {fault : Option Fault} (delivered : Delivered report folder listeners called after log fault) :
    called <+: listeners.map (·.2) := by
  cases delivered with
  | all served => exact List.prefix_rfl
  | @stopped before failing rest between log fault split served refused =>
    rw [split, List.map_append, List.map_cons]
    exact ⟨rest.map (·.2), by simp⟩

/-! ### Reports that line up -/

structure StageReport.Covers (report : StageReport) (examples : Nat) (memoryEfficient : Bool) :
    Prop where
  predictions : report.predictions.length = examples
  targets : report.targets.length = examples
  columns : ∀ column ∈ report.context.entries, column.2.length = examples
  scores : memoryEfficient = false → report.scores.length = examples

namespace Reporter

variable {r : Reporter} {m : Report Float} {log : List LogLine}

theorem stageReportMade (aligned : Aligned r.rules r.pass) (reported : r.metrics = .ok (m, log))
    (stage : Stage) (epoch : Nat) (selected : Float) :
    ∃ report, r.stageReport stage epoch m selected = .ok report ∧ report.stage = stage ∧
      report.Covers r.pass.examples r.config.memoryEfficient := by
  obtain ⟨predictions, shownPredictions, countPredictions⟩ := predictionsOk aligned
  obtain ⟨targets, shownTargets, countTargets⟩ := targetsOk aligned
  refine ⟨⟨stage, epoch, m, selected, predictions, targets, r.pass.scores, r.pass.context,
    r.labels⟩, ?_, rfl, countPredictions, countTargets, ?_, fun full => (aligned.kept full).1⟩
  · simp only [stageReport, shownPredictions, shownTargets]
    rfl
  · obtain ⟨_, _, _, failed⟩ | ⟨even, _, _⟩ := metricsCases aligned
    · rw [failed] at reported
      contradiction
    · exact Pass.strayColumnNone.mp even

def listeners (r : Reporter) (stage : Stage) : List (Channel × Nat) :=
  r.channels.zipIdx.filter fun c => c.1.accepts stage

theorem listenersInOrder (r : Reporter) (stage : Stage) :
    ((r.listeners stage).map (·.2)).Pairwise (· < ·) := by
  have positions : (r.channels.zipIdx.map (·.2)).Pairwise (· < ·) := by
    rw [List.zipIdx_map_snd]
    exact List.pairwise_lt_range'
  exact positions.sublist (List.filter_sublist.map _)

theorem listenersNone {stage : Stage} :
    r.listeners stage = [] ↔ r.channels.any (·.accepts stage) = false := by
  have channels : r.channels.zipIdx.any (fun c => c.1.accepts stage) =
      r.channels.any (·.accepts stage) := by
    conv_rhs => rw [← List.zipIdx_map_fst 0 r.channels, List.any_map]
    rfl
  rw [← channels, listeners, List.filter_eq_nil_iff, List.any_eq_false]

structure Unheard (r : Reporter) (folder : Folder) (fault : Fault) (e : Ended) : Prop where
  reporter : e.reporter = r
  folder : e.folder = folder
  shown : e.shown = none
  called : e.called = []
  result : e.result = .error fault

structure Heard (r : Reporter) (folder : Folder) (stage : Stage) (epoch : Nat) (clear : Bool)
    (m : Report Float) (selected : Float) (notes : List LogLine) (report : StageReport)
    (e : Ended) : Prop where
  made : r.stageReport stage epoch m selected = .ok report
  covers : report.Covers r.pass.examples r.config.memoryEfficient
  delivered : ∃ log fault,
    Delivered report folder (r.listeners stage) e.called e.folder log fault ∧
    e.log = notes ++ [r.summary stage epoch m selected] ++ log ∧
    e.result = fault.elim (.ok m) .error ∧
    e.reporter = if fault.isNone && clear then r.reset else r
  shown : e.shown = if r.listeners stage = [] then none else some report

theorem endPassHeard (aligned : Aligned r.rules r.pass) (reported : r.metrics = .ok (m, log))
    {selected : Float} (extracted : r.selection.extract m = .ok selected) (folder : Folder)
    (stage : Stage) (epoch : Nat) (clear : Bool) :
    ∃ report, Heard r folder stage epoch clear m selected log report
      (r.endPass folder stage epoch clear) := by
  obtain ⟨report, made, sameStage, covers⟩ := stageReportMade aligned reported stage epoch selected
  have delivered := dispatchDelivered report folder r.channels.zipIdx
  rw [sameStage] at delivered
  cases heard : r.channels.any (·.accepts stage) with
  | false =>
    have none := listenersNone.mpr heard
    have ended : r.endPass folder stage epoch clear =
        ⟨if clear then r.reset else r, folder, log ++ [r.summary stage epoch m selected],
          Option.none, [], .ok m⟩ := by
      simp [endPass, reported, extracted, heard]
    rw [ended]
    refine ⟨report, made, covers, ⟨[], Option.none, ?_, by simp, rfl, by simp⟩, by simp [none]⟩
    rw [none]
    exact .all (.none folder)
  | true =>
    have some : r.listeners stage ≠ [] := fun none => by simp [listenersNone.mp none] at heard
    have ended : r.endPass folder stage epoch clear =
        let d := dispatch report folder r.channels.zipIdx
        ⟨if d.fault.isNone && clear then r.reset else r, d.folder,
          log ++ [r.summary stage epoch m selected] ++ d.log, Option.some report, d.called,
          d.fault.elim (.ok m) .error⟩ := by
      simp only [endPass, reported, extracted, heard, made, if_true]
      cases (dispatch report folder r.channels.zipIdx).fault <;> rfl
    rw [ended]
    exact ⟨report, made, covers, ⟨_, _, delivered, rfl, rfl, rfl⟩, by rw [if_neg some]⟩

theorem endPassUnheard (folder : Folder) (stage : Stage) (epoch : Nat) (clear : Bool)
    {fault : Fault} (failed : r.metrics = .error fault ∨
      ∃ m log, r.metrics = .ok (m, log) ∧ r.selection.extract m = .error fault) :
    Unheard r folder fault (r.endPass folder stage epoch clear) := by
  rcases failed with failed | ⟨m, log, reported, failed⟩
  · simp only [endPass, failed]
    exact ⟨rfl, rfl, rfl, rfl, rfl⟩
  · simp only [endPass, reported, failed]
    exact ⟨rfl, rfl, rfl, rfl, rfl⟩

theorem endPassCases (aligned : Aligned r.rules r.pass) (folder : Folder) (stage : Stage)
    (epoch : Nat) (clear : Bool) :
    (∃ fault, Unheard r folder fault (r.endPass folder stage epoch clear)) ∨
    ∃ m selected notes report, Heard r folder stage epoch clear m selected notes report
      (r.endPass folder stage epoch clear) := by
  cases reported : r.metrics with
  | error fault => exact .inl ⟨fault, r.endPassUnheard folder stage epoch clear (.inl reported)⟩
  | ok made =>
    obtain ⟨m, notes⟩ := made
    cases extracted : r.selection.extract m with
    | error fault =>
      exact .inl ⟨fault,
        r.endPassUnheard folder stage epoch clear (.inr ⟨m, notes, reported, extracted⟩)⟩
    | ok selected =>
      exact .inr ⟨m, selected, notes,
        endPassHeard aligned reported extracted folder stage epoch clear⟩

theorem endPassReporter (aligned : Aligned r.rules r.pass) (folder : Folder) (stage : Stage)
    (epoch : Nat) (clear : Bool) :
    (∀ fault, (r.endPass folder stage epoch clear).result = .error fault →
      (r.endPass folder stage epoch clear).reporter = r) ∧
    (∀ m, (r.endPass folder stage epoch clear).result = .ok m →
      (r.endPass folder stage epoch clear).reporter = if clear then r.reset else r) := by
  obtain ⟨fault, unheard⟩ | ⟨m, selected, notes, report, heard⟩ :=
    endPassCases aligned folder stage epoch clear
  · refine ⟨fun _ _ => unheard.reporter, fun m succeeded => ?_⟩
    rw [unheard.result] at succeeded
    contradiction
  · obtain ⟨log, fault, _, _, result, reporter⟩ := heard.delivered
    rw [result, reporter]
    cases fault with
    | none => exact ⟨fun _ failed => by contradiction, fun _ _ => by simp⟩
    | some fault => exact ⟨fun _ _ => by simp, fun _ succeeded => by contradiction⟩

theorem endPassCalled (aligned : Aligned r.rules r.pass) (folder : Folder) (stage : Stage)
    (epoch : Nat) (clear : Bool) :
    (r.endPass folder stage epoch clear).called <+: (r.listeners stage).map (·.2) := by
  obtain ⟨fault, unheard⟩ | ⟨m, selected, notes, report, heard⟩ :=
    endPassCases aligned folder stage epoch clear
  · rw [unheard.called]
    exact List.nil_prefix
  · obtain ⟨_, _, delivered, _⟩ := heard.delivered
    exact delivered.inOrder

/-! ### Channels of a reporter -/

def Call.channel? : Call → Option Channel
  | .attach channel => some channel
  | _ => none

theorem afterForm (r : Reporter) (call : Call) : ∃ pass,
    r.after call = { r with pass := pass, channels := r.channels ++ call.channel?.toList } := by
  cases call with
  | attach channel => exact ⟨r.pass, rfl⟩
  | add a =>
    exact ⟨(r.addBatch a.batch a.input a.context).1.pass,
      by simp [after, addBatch, Call.channel?]⟩
  | report folder stage epoch clear =>
    rcases r.endPassLeaves folder stage epoch clear with same | same
    · exact ⟨r.pass, by simp [after, same, Call.channel?]⟩
    · exact ⟨{}, by simp [after, same, reset, Call.channel?]⟩
  | reset => exact ⟨{}, by simp [after, reset, Call.channel?]⟩

theorem afterAllForm (r : Reporter) (calls : List Call) : ∃ pass,
    r.afterAll calls =
      { r with pass := pass, channels := r.channels ++ calls.filterMap Call.channel? } := by
  induction calls generalizing r with
  | nil => exact ⟨r.pass, by simp [afterAll]⟩
  | cons call rest ih =>
    obtain ⟨pass, here⟩ := r.afterForm call
    change ∃ pass, (r.after call).afterAll rest = _
    rw [here]
    obtain ⟨last, more⟩ := ih { r with
      pass := pass
      channels := r.channels ++ call.channel?.toList }
    refine ⟨last, more.trans ?_⟩
    cases attached : call.channel? <;> simp [attached]

end Reporter

theorem passEndAllOrNothing {kind : Kind} {labels : List String} {config : Config} {r : Reporter}
    {log : List LogLine} (made : Reporter.new kind labels config = .ok (r, log))
    (calls : List Reporter.Call) (folder : Folder) (stage : Stage) (epoch : Nat) (clear : Bool) :
    let s := r.afterAll calls
    let e := s.endPass folder stage epoch clear
    s.channels = Reporter.fileChannels config ++ calls.filterMap Reporter.Call.channel? ∧
    (∀ fault, e.result = .error fault → e.reporter = s) ∧
    (∀ m, e.result = .ok m → e.reporter = if clear then { r with channels := s.channels } else s) ∧
    (∀ fault, (s.metrics = .error fault ∨
        ∃ m notes, s.metrics = .ok (m, notes) ∧ s.selection.extract m = .error fault) →
      Reporter.Unheard s folder fault e) ∧
    (∀ m notes selected, s.metrics = .ok (m, notes) → s.selection.extract m = .ok selected →
      ∃ report, Reporter.Heard s folder stage epoch clear m selected notes report e) ∧
    e.called <+: (s.listeners stage).map (·.2) ∧
    ((s.listeners stage).map (·.2)).Pairwise (· < ·) := by
  intro s e
  obtain ⟨selection, rfl⟩ := Reporter.newFields made
  obtain ⟨pass, form⟩ := Reporter.afterAllForm _ calls
  have aligned : Aligned s.rules s.pass := Reporter.reachedAligned made calls
  have fresh : s.reset = { (⟨config, labels, selection, kind, {}, Reporter.fileChannels config⟩ :
      Reporter) with channels := s.channels } := by
    rw [show s = _ from form]
    rfl
  obtain ⟨failed, succeeded⟩ := Reporter.endPassReporter aligned folder stage epoch clear
  refine ⟨by rw [show s = _ from form], failed, ?_,
    fun _ => s.endPassUnheard folder stage epoch clear,
    fun m notes selected reported extracted =>
      Reporter.endPassHeard aligned reported extracted folder stage epoch clear,
    Reporter.endPassCalled aligned folder stage epoch clear, s.listenersInOrder stage⟩
  intro m ok
  rw [← fresh]
  exact succeeded m ok

/- Of four channels the second is for another stage and the third refuses. -/
def thirdRefuses : List Reporter.Call :=
  [.attach (.relay [.eval] fun _ => none), .attach (.relay [.train] fun _ => none),
    .attach (.relay [.eval] fun _ => some (.internal "full")),
    .attach (.relay [.eval] fun _ => none),
    .add (scoredPair (labelPair 0 1) (labelPair 0 1))]

theorem thirdRefusesKeepsPass :
    let s := (Reporter.yesNo .singleLabel).afterAll thirdRefuses
    (s.endPass .empty .eval 0 true).called = [0, 2] ∧
    (s.endPass .empty .eval 0 true).result = .error (.internal "full") ∧
    (s.endPass .empty .eval 0 true).reporter = s := by
  intro s
  have refused : (s.endPass .empty .eval 0 true).result = .error (.internal "full") := rfl
  obtain ⟨_, failed, _⟩ := passEndAllOrNothing (Reporter.yesNoMade .singleLabel) thirdRefuses
    .empty .eval 0 true
  exact ⟨rfl, refused, failed _ refused⟩

end EvalReport
