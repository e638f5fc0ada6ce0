import EvalReport.Proofs.Alignment
import Mathlib.Algebra.Order.BigOperators.Group.List
import Mathlib.Algebra.Order.Ring.Nat

/-! What the end of a pass sees of its context. Only the length of each whole column is compared
with the number of examples, so batches that err may make up for each other. A column that gets
through is either right batch by batch, each value beside its own example, or some batch gave too
few values and another too many. -/
namespace EvalReport

namespace Accepted

variable {rules : PassRules}

def examples (x : Accepted rules) : Nat := x.rows.predicted.length

def given (x : Accepted rules) (key : String) : List Json := (x.values? key).getD []

def judged (x : Accepted rules) : List (rules.kind.task.Row × rules.kind.task.Expected) :=
  x.rows.predicted.zip x.rows.expected

theorem judgedLength (x : Accepted rules) : x.judged.length = x.examples := by
  have aligned := (decodedExact.mp x.source).aligned
  simp [judged, examples, aligned]

theorem columnGiven {key : String} {xs : List (Accepted rules)} {values : List Json}
    (column : column? key xs = some values) : values = xs.flatMap (·.given key) := by
  have parts : (xs.filterMap (·.values? key)).flatten = xs.flatMap (·.given key) := by
    rw [← List.flatMap_id, List.filterMap_eq_flatMap_toList, List.flatMap_assoc]
    congr
    funext x
    rw [given]
    cases x.values? key <;> simp
  unfold column? at column
  split at column
  · contradiction
  · rename_i same
    cases Option.some.inj column
    rw [← parts]

end Accepted

/-! ### Equal totals -/

section Totals

variable {α β γ : Type} {xs : List α}

/- Two counts with one total agree everywhere, or each is somewhere the smaller one. -/
theorem agreeOrCancel {f g : α → Nat} (same : (xs.map f).sum = (xs.map g).sum) :
    (∀ x ∈ xs, f x = g x) ∨ (∃ x ∈ xs, f x < g x) ∧ ∃ x ∈ xs, g x < f x := by
  by_cases fewer : ∃ x ∈ xs, f x < g x
  · by_cases more : ∃ x ∈ xs, g x < f x
    · exact .inr ⟨fewer, more⟩
    · have below : ∀ x ∈ xs, f x ≤ g x := by simpa using more
      exact absurd same (List.sum_lt_sum f g below fewer).ne
  · by_cases more : ∃ x ∈ xs, g x < f x
    · have above : ∀ x ∈ xs, g x ≤ f x := by simpa using fewer
      exact absurd same (List.sum_lt_sum g f above more).ne'
    · refine .inl fun x member => ?_
      have above : g x ≤ f x := by simpa using fun less => fewer ⟨x, member, less⟩
      have below : f x ≤ g x := by simpa using fun less => more ⟨x, member, less⟩
      omega

theorem zipFlatMap {f : α → List β} {g : α → List γ}
    (even : ∀ x ∈ xs, (f x).length = (g x).length) :
    (xs.flatMap f).zip (xs.flatMap g) = xs.flatMap fun x => (f x).zip (g x) := by
  induction xs with
  | nil => rfl
  | cons x xs ih =>
    obtain ⟨here, later⟩ := List.forall_mem_cons.mp even
    simp only [List.flatMap_cons]
    rw [List.zip_append here, ih later]

end Totals

/-! ### The end of a run -/

/- Each batch gave one value for each of its examples, so each value stands beside its own. -/
structure Pass.InStep {rules : PassRules} (p : Pass rules.kind.task) (xs : List (Accepted rules))
    (key : String) (values : List Json) : Prop where
  exact : ∀ x ∈ xs, (x.given key).length = x.examples
  beside : values.zip (p.predicted.zip p.expected) =
    xs.flatMap fun x => (x.given key).zip x.judged

structure Cancelling {rules : PassRules} (xs : List (Accepted rules)) (key : String) : Prop where
  fewer : ∃ x ∈ xs, (x.given key).length < x.examples
  more : ∃ x ∈ xs, x.examples < (x.given key).length

namespace Pass.Holds

variable {rules : PassRules} {p : Pass rules.kind.task} {xs : List (Accepted rules)}
  {key : String} {values : List Json}

theorem examplesTotal (holds : p.Holds xs) : p.examples = (xs.map (·.examples)).sum := by
  rw [Pass.examples, holds.predicted, List.length_flatMap]
  rfl

theorem columnValues (holds : p.Holds xs) (found : p.context.find? key = some values) :
    values = xs.flatMap (·.given key) :=
  Accepted.columnGiven ((holds.context key).symm.trans found)

theorem columnTotal (holds : p.Holds xs) (found : p.context.find? key = some values) :
    values.length = (xs.map fun x => (x.given key).length).sum := by
  rw [holds.columnValues found, List.length_flatMap]

theorem judgedTogether (holds : p.Holds xs) :
    p.predicted.zip p.expected = xs.flatMap (·.judged) := by
  rw [holds.predicted, holds.expected]
  exact zipFlatMap fun x _ => (decodedExact.mp x.source).aligned.symm

theorem inStep (holds : p.Holds xs) (found : p.context.find? key = some values)
    (exact : ∀ x ∈ xs, (x.given key).length = x.examples) : p.InStep xs key values where
  exact := exact
  beside := by
    rw [holds.judgedTogether, holds.columnValues found]
    exact zipFlatMap fun x member => (exact x member).trans x.judgedLength.symm

end Pass.Holds

namespace PassRules

variable {rules : PassRules}

theorem runAligned (p : Pass rules.kind.task) (aligned : Aligned rules p) (steps : List PassStep) :
    Aligned rules (rules.run p steps) := by
  induction steps generalizing p with
  | nil => exact aligned
  | cons step rest ih =>
    cases step with
    | add a => exact ih _ (aligned.received p a)
    | reset => exact ih _ (Aligned.fresh rules)

end PassRules

theorem Aligned.finishes {rules : PassRules} {p : Pass rules.kind.task}
    (aligned : Aligned rules p) :
    (∃ examples, p.finish rules.memoryEfficient = .ok examples) ↔
      ∀ key values, p.context.find? key = some values → values.length = p.examples := by
  have even : p.strayColumn = none ↔
      ∀ key values, p.context.find? key = some values → values.length = p.examples := by
    simp only [← Table.memberFound]
    exact Pass.strayColumnNone.trans Prod.forall
  rw [← even]
  cases stray : p.strayColumn with
  | none => simp [aligned.finishEven stray]
  | some column => simp [aligned.finishStray stray]

theorem finishComparesTotals (rules : PassRules) (steps : List PassStep) :
    let p := rules.run {} steps
    let xs := rules.acceptedSinceReset steps
    ((∃ examples, p.finish rules.memoryEfficient = .ok examples) ↔
      ∀ key values, p.context.find? key = some values →
        (xs.map fun x => (x.given key).length).sum = (xs.map (·.examples)).sum) ∧
    ∀ examples, p.finish rules.memoryEfficient = .ok examples →
      ∀ key values, p.context.find? key = some values →
        p.InStep xs key values ∨ Cancelling xs key := by
  intro p xs
  have holds : p.Holds xs := PassRules.runHolds steps
  have aligned : Aligned rules p := PassRules.runAligned {} (Aligned.fresh rules) steps
  have totals : ∀ {key values}, p.context.find? key = some values →
      (values.length = p.examples ↔
        (xs.map fun x => (x.given key).length).sum = (xs.map (·.examples)).sum) := by
    intro key values found
    rw [holds.columnTotal found, holds.examplesTotal]
  refine ⟨aligned.finishes.trans (forall₃_congr fun key values found => totals found), ?_⟩
  intro examples finished key values found
  have even := aligned.finishes.mp ⟨examples, finished⟩ key values found
  rcases agreeOrCancel ((totals found).mp even) with exact | ⟨fewer, more⟩
  · exact .inl (holds.inStep found exact)
  · exact .inr ⟨fewer, more⟩

def tightRules : PassRules := ⟨.singleLabel, 2, true⟩

def withTexts (labels : Tensor Int) (texts : List String) : PassStep :=
  .add ⟨⟨0, labels, labels, none, none⟩, .ready [], ⟨[("text", .ofStrings texts)], by simp⟩⟩

/- One text for two examples, then two for one: a text of the second batch stands beside the
second example of the first. -/
def shiftedTexts : List PassStep :=
  [withTexts (labelPair 0 1) ["a"], withTexts ⟨[1], [0], rfl⟩ ["b", "c"]]

theorem shiftedTextsCancel :
    (tightRules.run {} shiftedTexts).finish true =
      .ok ((tightRules.run {} shiftedTexts).assembled true) ∧
    Cancelling (tightRules.acceptedSinceReset shiftedTexts) "text" := by
  have finished : (tightRules.run {} shiftedTexts).finish tightRules.memoryEfficient =
      .ok ((tightRules.run {} shiftedTexts).assembled true) := rfl
  refine ⟨finished, ?_⟩
  obtain ⟨_, columns⟩ := finishComparesTotals tightRules shiftedTexts
  rcases columns _ finished "text" [.string "a", .string "b", .string "c"] rfl with
    inStep | cancelling
  · have one : 1 = 2 := inStep.exact _ List.mem_cons_self
    contradiction
  · exact cancelling

theorem misalignmentPasses :
    ¬ ∀ (rules : PassRules) (steps : List PassStep) (examples : List (Example rules.kind.task)),
      (rules.run {} steps).finish rules.memoryEfficient = .ok examples →
      ∀ key values, (rules.run {} steps).context.find? key = some values →
        ∀ x ∈ rules.acceptedSinceReset steps, (x.given key).length = x.examples := by
  intro claimed
  have one : 1 = 2 := claimed tightRules shiftedTexts _ rfl "text" _ rfl _ List.mem_cons_self
  contradiction

end EvalReport
