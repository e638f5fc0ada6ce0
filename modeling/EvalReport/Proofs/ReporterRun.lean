import EvalReport.Proofs.PassRun
import EvalReport.Reporter

/-! Everything a caller can do to a reporter once it is made. Of all this only arrivals, resets
and the end of a pass touch the pass; the settings stay, so a property of passes that is kept
by arrivals and holds of the empty pass holds after any calls. -/
namespace EvalReport

def PassRules.outcomes (rules : PassRules) (p : Pass rules.kind.task) :
    List Arrival → List (Except Fault Unit)
  | [] => []
  | a :: rest => (rules.receive p a).result :: rules.outcomes (rules.receive p a).pass rest

theorem PassRules.outcomesPrefix (rules : PassRules) (p : Pass rules.kind.task)
    {before xs : List Arrival} (inFront : before <+: xs) :
    rules.outcomes p before <+: rules.outcomes p xs := by
  obtain ⟨rest, rfl⟩ := inFront
  induction before generalizing p with
  | nil => exact List.nil_prefix
  | cons a before ih => exact List.cons_prefix_cons.mpr ⟨rfl, ih _⟩

/- What one arrival keeps up between two passes, a run keeps up, and the second pass takes all that
the first one takes. -/
theorem PassRules.runSimulated (rules other : PassRules)
    {Sim : Pass rules.kind.task → Pass other.kind.task → Prop} {Along : Arrival → Arrival → Prop}
    (step : ∀ {p q a b}, Sim p q → Along a b → (rules.receive p a).result = .ok () →
      (other.receive q b).result = .ok () ∧ Sim (rules.receive p a).pass (other.receive q b).pass)
    {xs ys : List Arrival} (along : List.Forall₂ Along xs ys) {p : Pass rules.kind.task}
    {q : Pass other.kind.task} (start : Sim p q)
    (accepted : ∀ outcome ∈ rules.outcomes p xs, outcome = .ok ()) :
    (∀ outcome ∈ other.outcomes q ys, outcome = .ok ()) ∧
      Sim (rules.run p (xs.map .add)) (other.run q (ys.map .add)) := by
  induction along generalizing p q with
  | nil => exact ⟨by simp [outcomes], start⟩
  | cons here _ ih =>
    obtain ⟨first, later⟩ := List.forall_mem_cons.mp accepted
    obtain ⟨ok, next⟩ := step start here first
    obtain ⟨allOk, last⟩ := ih next later
    exact ⟨List.forall_mem_cons.mpr ⟨ok, allOk⟩, last⟩

theorem PassRules.runTogether (rules other : PassRules)
    {Sim : Pass rules.kind.task → Pass other.kind.task → Prop} {Along : Arrival → Arrival → Prop}
    (step : ∀ {p q a b}, Sim p q → Along a b →
      (rules.receive p a).result = (other.receive q b).result ∧
        Sim (rules.receive p a).pass (other.receive q b).pass)
    {xs ys : List Arrival} (along : List.Forall₂ Along xs ys) {p : Pass rules.kind.task}
    {q : Pass other.kind.task} (start : Sim p q) :
    rules.outcomes p xs = other.outcomes q ys ∧
      Sim (rules.run p (xs.map .add)) (other.run q (ys.map .add)) := by
  induction along generalizing p q with
  | nil => exact ⟨rfl, start⟩
  | cons here _ ih =>
    obtain ⟨same, next⟩ := step start here
    obtain ⟨allSame, last⟩ := ih next
    exact ⟨congrArg₂ List.cons same allSame, last⟩

namespace Reporter

inductive Call where
  | attach (channel : Channel)
  | add (arrival : Arrival)
  | report (folder : Folder) (stage : Stage) (epoch : Nat) (clear : Bool)
  | reset

def after (r : Reporter) : Call → Reporter
  | .attach channel => r.addChannel channel
  | .add a => (r.addBatch a.batch a.input a.context).1
  | .report folder stage epoch clear => (r.endPass folder stage epoch clear).reporter
  | .reset => r.reset

def afterAll (r : Reporter) (calls : List Call) : Reporter := calls.foldl after r

def feed (r : Reporter) (xs : List Arrival) : Reporter :=
  { r with pass := r.rules.run r.pass (xs.map .add) }

def outcomes (r : Reporter) (xs : List Arrival) : List (Except Fault Unit) :=
  r.rules.outcomes r.pass xs

theorem feedAfterAll (r : Reporter) (xs : List Arrival) :
    r.feed xs = r.afterAll (xs.map .add) := by
  induction xs generalizing r with
  | nil => rfl
  | cons a rest ih => exact ih (r.after (.add a))

theorem endPassLeaves (r : Reporter) (folder : Folder) (stage : Stage) (epoch : Nat)
    (clear : Bool) :
    (r.endPass folder stage epoch clear).reporter = r ∨
      (r.endPass folder stage epoch clear).reporter = r.reset := by
  have left : (if clear then r.reset else r) = r ∨ (if clear then r.reset else r) = r.reset := by
    cases clear with
    | true => exact .inr rfl
    | false => exact .inl rfl
  unfold endPass
  cases r.metrics with
  | error fault => exact .inl rfl
  | ok made =>
    obtain ⟨m, log⟩ := made
    dsimp only
    cases r.selection.extract m with
    | error fault => exact .inl rfl
    | ok selected =>
      dsimp only
      split
      · cases r.stageReport stage epoch m selected with
        | error fault => exact .inl rfl
        | ok report =>
          dsimp only
          split
          · exact .inl rfl
          · exact left
      · exact left

theorem afterCases (r : Reporter) (call : Call) :
    ∃ pass channels, r.after call = { r with pass := pass, channels := channels } ∧
      (pass = r.pass ∨ pass = {} ∨ ∃ a, pass = (r.rules.receive r.pass a).pass) := by
  cases call with
  | attach channel => exact ⟨r.pass, r.channels ++ [channel], rfl, .inl rfl⟩
  | add a => exact ⟨_, r.channels, rfl, .inr (.inr ⟨a, rfl⟩)⟩
  | report folder stage epoch clear =>
    rcases r.endPassLeaves folder stage epoch clear with same | same
    · exact ⟨r.pass, r.channels, same, .inl rfl⟩
    · exact ⟨{}, r.channels, same, .inr (.inl rfl)⟩
  | reset => exact ⟨{}, r.channels, rfl, .inr (.inl rfl)⟩

theorem afterAllSettings (r : Reporter) (calls : List Call) :
    (r.afterAll calls).kind = r.kind ∧ (r.afterAll calls).labels = r.labels ∧
      (r.afterAll calls).config = r.config ∧ (r.afterAll calls).selection = r.selection := by
  induction calls generalizing r with
  | nil => exact ⟨rfl, rfl, rfl, rfl⟩
  | cons call rest ih =>
    obtain ⟨pass, channels, same, _⟩ := r.afterCases call
    change ((r.after call).afterAll rest).kind = _ ∧ ((r.after call).afterAll rest).labels = _ ∧
      ((r.after call).afterAll rest).config = _ ∧ ((r.after call).afterAll rest).selection = _
    rw [same]
    exact ih { r with pass := pass, channels := channels }

theorem afterAllInvariant {Good : (rules : PassRules) → Pass rules.kind.task → Prop}
    (fresh : ∀ rules, Good rules {})
    (received : ∀ rules p a, Good rules p → Good rules (rules.receive p a).pass)
    (r : Reporter) (start : Good r.rules r.pass) (calls : List Call) :
    Good (r.afterAll calls).rules (r.afterAll calls).pass := by
  induction calls generalizing r with
  | nil => exact start
  | cons call rest ih =>
    obtain ⟨pass, channels, same, change⟩ := r.afterCases call
    have next : Good r.rules pass := by
      rcases change with rfl | rfl | ⟨a, rfl⟩
      · exact start
      · exact fresh r.rules
      · exact received r.rules r.pass a start
    show Good ((r.after call).afterAll rest).rules ((r.after call).afterAll rest).pass
    rw [same]
    exact ih { r with pass := pass, channels := channels } next

theorem newFields {kind : Kind} {labels : List String} {config : Config} {r : Reporter}
    {log : List LogLine} (made : Reporter.new kind labels config = .ok (r, log)) :
    ∃ selection, r = ⟨config, labels, selection, kind, {}, fileChannels config⟩ := by
  simp only [new, bindOk, Except.ok.injEq, Prod.mk.injEq] at made
  obtain ⟨_, _, _, _, selection, _, same, _⟩ := made
  exact ⟨selection, same.symm⟩

end Reporter

theorem firstRepeatedNone {seen xs : List String} :
    firstRepeated seen xs = none ↔ xs.Nodup ∧ ∀ x ∈ xs, x ∉ seen := by
  induction xs generalizing seen with
  | nil => simp [firstRepeated]
  | cons x rest ih =>
    by_cases known : x ∈ seen
    · simp [firstRepeated, known]
    · rw [firstRepeated, if_neg (by simpa using known), ih, List.nodup_cons, List.forall_mem_cons]
      constructor
      · intro facts
        obtain ⟨distinct, fresh⟩ := facts
        exact ⟨⟨fun again => fresh x again List.mem_cons_self, distinct⟩, known,
          fun y member old => fresh y member (List.mem_cons_of_mem _ old)⟩
      · intro facts
        obtain ⟨⟨first, distinct⟩, _, fresh⟩ := facts
        refine ⟨distinct, fun y member old => ?_⟩
        rcases List.mem_cons.mp old with rfl | older
        · exact first member
        · exact fresh y member older

namespace Reporter

theorem checkLabelsOk {labels : List String} (ok : checkLabels labels = .ok ()) :
    labels ≠ [] ∧ labels.Nodup := by
  unfold checkLabels at ok
  split at ok
  · contradiction
  · rename_i some
    cases repeated : firstRepeated [] labels with
    | some name => simp [repeated] at ok
    | none => exact ⟨some, (firstRepeatedNone.mp repeated).1⟩

theorem newChecked {kind : Kind} {labels : List String} {config : Config} {r : Reporter}
    {log : List LogLine} (made : Reporter.new kind labels config = .ok (r, log)) :
    labels.Nodup ∧ config.metric.resolve config.targetLabel labels = .ok r.selection := by
  simp only [new, bindOk, Except.ok.injEq, Prod.mk.injEq] at made
  obtain ⟨_, _, _, checked, selection, resolved, same, _⟩ := made
  exact ⟨(checkLabelsOk checked).2, by rw [← same]; exact resolved⟩

theorem newOther {kind : Kind} {labels : List String} {config : Config} {r : Reporter}
    {log : List LogLine} (made : Reporter.new kind labels config = .ok (r, log)) (other : Kind) :
    labels ≠ [] ∧ ∃ s notes, Reporter.new other labels config = .ok (s, notes) := by
  simp only [new, bindOk, Except.ok.injEq, Prod.mk.injEq] at made
  obtain ⟨valid, validated, distinct, checked, selection, resolved, _⟩ := made
  have again : new other labels config =
      .ok (⟨config, labels, selection, other, {}, fileChannels config⟩,
        [startedNote other labels selection]) := by
    simp only [new, bindOk]
    exact ⟨valid, validated, distinct, checked, selection, resolved, rfl⟩
  exact ⟨(checkLabelsOk checked).1, _, _, again⟩

def yesNo (kind : Kind) : Reporter :=
  ⟨{ thresholds := [] }, ["no", "yes"], .accuracy, kind, {}, []⟩

theorem yesNoMade (kind : Kind) :
    Reporter.new kind ["no", "yes"] { thresholds := [] } =
      .ok (yesNo kind, [startedNote kind ["no", "yes"] .accuracy]) :=
  rfl

end Reporter

end EvalReport
