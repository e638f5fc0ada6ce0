import EvalReport.Proofs.Acceptance
import EvalReport.Proofs.Availability
import EvalReport.Proofs.MemoryMode

/-! Two passes side by side. If each batch that the first one takes is read by the second one as
rows that belong together, the passes stay together row by row, their judged examples do, and they
have a report or go without one for the same reason. -/
namespace EvalReport

section Pairs

variable {t u : Task} (R : t.Row → u.Row → Prop) (E : t.Expected → u.Expected → Prop)

structure Decoded.Pairs (d : Decoded t) (e : Decoded u) : Prop where
  predicted : List.Forall₂ R d.predicted e.predicted
  expected : List.Forall₂ E d.expected e.expected

structure Pass.Pairs (p : Pass t) (q : Pass u) : Prop where
  predicted : List.Forall₂ R p.predicted q.predicted
  expected : List.Forall₂ E p.expected q.expected
  losses : p.losses = q.losses
  context : p.context = q.context

end Pairs

/-! ### Runs -/

section Runs

variable (rules other : PassRules) (R : rules.kind.task.Row → other.kind.task.Row → Prop)
  (E : rules.kind.task.Expected → other.kind.task.Expected → Prop)

structure Alongside (a b : Arrival) : Prop where
  rows : ∀ d, rules.decode a.batch = .ok d → ∃ e, other.decode b.batch = .ok e ∧ d.Pairs R E e
  loss : a.batch.loss = b.batch.loss
  context : a.context = b.context

variable {rules other R E}

theorem receivePaired {p : Pass rules.kind.task} {q : Pass other.kind.task} {a b : Arrival}
    (paired : p.Pairs R E q) (along : Alongside rules other R E a b)
    (ok : (rules.receive p a).result = .ok ()) :
    (other.receive q b).result = .ok () ∧
      (rules.receive p a).pass.Pairs R E (other.receive q b).pass := by
  obtain ⟨d, decoded⟩ := (rules.receiveOk p a).mp ok
  obtain ⟨e, alike, rows⟩ := along.rows d decoded
  refine ⟨(other.receiveOk q b).mpr ⟨e, alike⟩, ?_⟩
  rw [rules.receivePass p decoded, other.receivePass q alike]
  exact {
    predicted := List.rel_append paired.predicted rows.predicted
    expected := List.rel_append paired.expected rows.expected
    losses := by simp only [Pass.append, paired.losses, along.loss]
    context := by simp only [Pass.append, paired.context, along.context] }

theorem runPaired {xs ys : List Arrival}
    (along : List.Forall₂ (Alongside rules other R E) xs ys)
    (accepted : ∀ outcome ∈ rules.outcomes {} xs, outcome = .ok ()) :
    (∀ outcome ∈ other.outcomes {} ys, outcome = .ok ()) ∧
      (rules.run {} (xs.map .add)).Pairs R E (other.run {} (ys.map .add)) :=
  rules.runSimulated other receivePaired along ⟨.nil, .nil, rfl, rfl⟩ accepted

end Runs

/-! ### Rows of candidates -/

theorem forallJoin {α β γ : Type} {P : α → β → Prop} {Q : α → γ → Prop} {xs : List α} {ys : List β}
    {zs : List γ} (first : List.Forall₂ P xs ys) (second : List.Forall₂ Q xs zs) :
    List.Forall₂ (fun y z => ∃ x ∈ xs, P x y ∧ Q x z) ys zs := by
  induction first generalizing zs with
  | nil =>
    cases second
    exact .nil
  | cons here _ ih =>
    cases second with
    | cons there rest =>
      refine .cons ⟨_, List.mem_cons_self, here, there⟩ ((ih rest).imp ?_)
      rintro y z ⟨x, member, facts⟩
      exact ⟨x, List.mem_cons_of_mem _ member, facts⟩

theorem candidatesRead {k catalogue : Nat} {memoryEfficient : Bool} {batch : Batch}
    {d : Decoded .topK}
    (decoded : PassRules.decode ⟨.topK k, catalogue, memoryEfficient⟩ batch = .ok d) :
    ∃ m, batch.scores = some m ∧ m.width = catalogue ∧
      List.Forall₂ (fun row x => x.candidates = Ranking.topK k row) m.rows d.predicted := by
  obtain ⟨⟨_, _, m, present, _, wide⟩, _, _, _, again, best⟩ := decodedReads decoded
  obtain rfl := Option.some.inj (present.symm.trans again)
  exact ⟨m, present, wide, forallMapped.mpr best⟩

/-! ### Examples and reports -/

section Reports

variable {t u : Task} {R : t.Row → u.Row → Prop} {E : t.Expected → u.Expected → Prop}
  {p : Pass t} {q : Pass u}

theorem assembledRelated {S : Option (List Score) → Option (List Score) → Prop}
    {T : Example t → Example u → Prop}
    (rows : ∀ row row' expected expected' scores scores', R row row' → E expected expected' →
      S scores scores' → T (t.assemble row expected scores) (u.assemble row' expected' scores'))
    (paired : p.Pairs R E q) {mode mode' : Bool}
    (scored : ∀ i : Nat,
      S (if mode then none else p.scores[i]?) (if mode' then none else q.scores[i]?)) :
    List.Forall₂ T (p.assembled mode) (q.assembled mode') := by
  have predicted := paired.predicted.length_eq
  have expected := paired.expected.length_eq
  rw [List.forall₂_iff_get]
  refine ⟨by simp [Pass.assembled, predicted, expected], fun i left right => ?_⟩
  simp only [Pass.assembled, List.get_eq_getElem, List.getElem_map, List.getElem_zipIdx,
    List.getElem_zip]
  exact rows _ _ _ _ _ _ (paired.predicted.get _ _) (paired.expected.get _ _) (scored _)

theorem assembledPaired {T : Example t → Example u → Prop}
    (rows : ∀ row row' expected expected' scores scores', R row row' → E expected expected' →
      T (t.assemble row expected scores) (u.assemble row' expected' scores'))
    (paired : p.Pairs R E q) (mode mode' : Bool) :
    List.Forall₂ T (p.assembled mode) (q.assembled mode') := by
  refine assembledRelated (S := fun _ _ => True) ?_ paired fun _ => trivial
  intro row row' expected expected' scores scores' predicts expects _
  exact rows row row' expected expected' scores scores' predicts expects

theorem examplesPaired (paired : p.Pairs R E q) : p.examples = q.examples :=
  paired.predicted.length_eq

def Pass.fault? (p : Pass t) : Option Fault :=
  p.strayColumn.map fun column =>
    .dimensionMismatch (.contextValues column.1 p.examples column.2.length)

theorem faultPaired (paired : p.Pairs R E q) : p.fault? = q.fault? := by
  unfold Pass.fault? Pass.strayColumn
  rw [paired.context, examplesPaired paired]

theorem Aligned.finishExact {rules : PassRules} {p : Pass rules.kind.task}
    (aligned : Aligned rules p) : p.finish rules.memoryEfficient =
      p.fault?.elim (.ok (p.assembled rules.memoryEfficient)) .error := by
  unfold Pass.fault?
  cases stray : p.strayColumn with
  | some column => exact aligned.finishStray stray
  | none => exact aligned.finishEven stray

def Pass.plainReport (p : Pass t) (labels : List String) (memoryEfficient : Bool) :
    Except Fault (Report Float) :=
  match p.fault? with
  | some fault => .error fault
  | none => .ok (Report.hardOnly labels (p.assembled memoryEfficient) p.loss true)

namespace Reporter

theorem plainMetrics {r : Reporter} (aligned : Aligned r.rules r.pass) :
    r.metrics.map (fun made => made.1.withoutScores) =
      r.pass.plainReport r.labels r.config.memoryEfficient := by
  unfold Pass.plainReport Pass.fault?
  obtain ⟨key, values, stray, failed⟩ | ⟨none, _, ⟨m, log⟩, reported⟩ := metricsCases aligned
  · rw [failed, stray]
    rfl
  · rw [none, reported]
    change Except.ok m.withoutScores = Except.ok _
    obtain ⟨_, rfl⟩ | ⟨_, _, rfl⟩ | ⟨rows, _, _, rfl⟩ :=
      Report.computeCases (metricsReport aligned reported)
    · rfl
    · rfl
    · rw [Report.withScoresForgotten]
      rfl

theorem metricsFaulty {r : Reporter} (aligned : Aligned r.rules r.pass) {fault : Fault} :
    r.metrics = .error fault ↔ r.pass.fault? = some fault := by
  have plain := plainMetrics aligned
  unfold Pass.plainReport at plain
  cases faulty : r.pass.fault? with
  | some cause =>
    rw [faulty] at plain
    cases reported : r.metrics with
    | error found =>
      rw [reported] at plain
      obtain rfl : found = cause := Except.error.inj plain
      simp
    | ok made =>
      rw [reported] at plain
      contradiction
  | none =>
    rw [faulty] at plain
    cases reported : r.metrics with
    | error found =>
      rw [reported] at plain
      contradiction
    | ok made => simp

end Reporter

end Reports

end EvalReport
