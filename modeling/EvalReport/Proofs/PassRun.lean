import EvalReport.Proofs.Decoding
import EvalReport.Proofs.Exact
import EvalReport.Proofs.Table
import Mathlib.Data.List.DropRight

/-! Runs of a pass. Batches arrive one after the other, each accepted or rejected on its own,
and a reset may come between any two. After every run the pass is the concatenation of the
batches accepted since the last reset; a rejected one leaves no trace, and no model input is
used up by the look at its first element. -/
namespace EvalReport

structure Arrival where
  batch : Batch
  input : ModelInput
  context : Table ContextValue

inductive PassStep where
  | add (arrival : Arrival)
  | reset

def PassStep.arrival? : PassStep → Option Arrival
  | add arrival => some arrival
  | reset => none

structure Accepted (rules : PassRules) where
  arrival : Arrival
  rows : Decoded rules.kind.task
  source : rules.decode arrival.batch = .ok rows

namespace PassRules

variable (rules : PassRules)

def receive (p : Pass rules.kind.task) (a : Arrival) : Ingested rules.kind.task :=
  rules.ingest p a.batch a.input a.context

def step (p : Pass rules.kind.task) : PassStep → Pass rules.kind.task
  | .add a => (rules.receive p a).pass
  | .reset => {}

def run (p : Pass rules.kind.task) (steps : List PassStep) : Pass rules.kind.task :=
  steps.foldl rules.step p

def accept? (a : Arrival) : Option (Accepted rules) :=
  match source : rules.decode a.batch with
  | .ok rows => some ⟨a, rows, source⟩
  | .error _ => none

def acceptedSinceReset (steps : List PassStep) : List (Accepted rules) :=
  ((steps.rtakeWhile (·.arrival?.isSome)).filterMap PassStep.arrival?).filterMap rules.accept?

end PassRules

namespace Accepted

variable {rules : PassRules}

def size (x : Accepted rules) : Nat := x.arrival.input.batchSize.1.getD x.rows.predicted.length

def values? (x : Accepted rules) (key : String) : Option (List Json) :=
  (x.arrival.context.find? key).bind ContextValue.perExample

def scoreRows (x : Accepted rules) : List (List Score) :=
  (x.arrival.batch.scores.map (·.rows)).getD []

def column? (key : String) (xs : List (Accepted rules)) : Option (List Json) :=
  match xs.filterMap (·.values? key) with
  | [] => none
  | parts => some parts.flatten

end Accepted

structure Pass.Holds {rules : PassRules} (p : Pass rules.kind.task) (xs : List (Accepted rules)) :
    Prop where
  predicted : p.predicted = xs.flatMap (·.rows.predicted)
  expected : p.expected = xs.flatMap (·.rows.expected)
  scores : p.scores = if rules.memoryEfficient then [] else xs.flatMap (·.scoreRows)
  losses : p.losses = xs.filterMap (·.arrival.batch.loss)
  batchSizes : p.batchSizes = xs.map (·.size)
  context : ∀ key, p.context.find? key = Accepted.column? key xs
  batches : p.batches = xs.length

/-! ### One arrival -/

namespace PassRules

variable {rules : PassRules}

theorem receiveOk (rules : PassRules) (p : Pass rules.kind.task) (a : Arrival) :
    (rules.receive p a).result = .ok () ↔ ∃ d, rules.decode a.batch = .ok d := by
  unfold receive ingest
  cases rules.decode a.batch with
  | error fault => simp
  | ok d => simp

theorem receivePass (rules : PassRules) (p : Pass rules.kind.task) {a : Arrival}
    {d : Decoded rules.kind.task} (decoded : rules.decode a.batch = .ok d) :
    (rules.receive p a).pass = p.append d (a.input.batchSize.1.getD d.predicted.length)
      a.batch.loss a.context := by
  unfold receive ingest
  rw [decoded]

/- Everything an arrival can do to a pass: it is either turned away at some check and changes
nothing, or accepted and appended in full. -/
theorem receiveCases (p : Pass rules.kind.task) (a : Arrival) :
    (∃ fault, rules.accept? a = none ∧ rules.receive p a = ⟨p, a.input, [], .error fault⟩) ∨
    ∃ x log, rules.accept? a = some x ∧
      rules.receive p a = ⟨p.append x.rows x.size x.arrival.batch.loss x.arrival.context,
        a.input.batchSize.2, log, .ok ()⟩ := by
  cases decoded : rules.decode a.batch with
  | error fault =>
    refine .inl ⟨fault, ?_, ?_⟩
    · unfold accept?
      split
      · rename_i source
        rw [decoded] at source
        contradiction
      · rfl
    · simp only [receive, ingest, decoded]
  | ok rows =>
    refine .inr ⟨⟨a, rows, decoded⟩, (rules.receive p a).log, ?_, ?_⟩
    · unfold accept?
      split
      · rename_i source
        rw [decoded] at source
        cases Except.ok.inj source
        rfl
      · rename_i source
        rw [decoded] at source
        contradiction
    · simp only [receive, ingest, decoded]
      rfl

theorem receiveRejected {p : Pass rules.kind.task} {a : Arrival} {fault : Fault}
    (failed : (rules.receive p a).result = .error fault) : (rules.receive p a).pass = p := by
  obtain ⟨_, _, same⟩ | ⟨_, _, _, same⟩ := receiveCases p a
  · rw [same]
  · rw [same] at failed
    contradiction

end PassRules

/-! ### Context columns -/

theorem extendContextFind (context : Table (List Json)) (added : Table ContextValue)
    (key : String) :
    (extendContext context added).find? key =
      match (added.find? key).bind ContextValue.perExample with
      | none => context.find? key
      | some values => some ((context.find? key).getD [] ++ values) := by
  change (extendContext context added).find? key =
    match (Table.findIn key added.entries).bind ContextValue.perExample with
    | none => context.find? key
    | some values => some ((context.find? key).getD [] ++ values)
  have differ := added.namesDiffer
  unfold extendContext
  generalize added.entries = entries at differ ⊢
  -- names differ, so what comes behind an entry leaves its column alone
  induction entries generalizing context with
  | nil => rfl
  | cons head rest ih =>
    obtain ⟨name, value⟩ := head
    obtain ⟨first, tail⟩ := List.pairwise_cons.mp differ
    rw [List.foldl_cons, ih _ tail, Table.findInCons]
    by_cases here : name = key
    · subst here
      rw [Table.findInAbsent fun e member => (first e member).symm]
      cases given : value.perExample with
      | none => simp [given]
      | some values => simp [given, Table.findAlter]
    · cases given : value.perExample with
      | none => simp [given, here]
      | some values => simp [given, here, Table.findAlter]

theorem columnAppend {rules : PassRules} (key : String) (xs : List (Accepted rules))
    (x : Accepted rules) :
    Accepted.column? key (xs ++ [x]) =
      match x.values? key with
      | none => Accepted.column? key xs
      | some values => some ((Accepted.column? key xs).getD [] ++ values) := by
  unfold Accepted.column?
  rw [List.filterMap_append]
  cases added : x.values? key with
  | none => simp [added]
  | some values =>
    cases xs.filterMap (·.values? key) with
    | nil => simp [added]
    | cons part parts => simp [added]

/-! ### Whole runs -/

namespace Pass.Holds

variable {rules : PassRules}

theorem nothing : Pass.Holds ({} : Pass rules.kind.task) ([] : List (Accepted rules)) :=
  ⟨rfl, rfl, by simp, rfl, rfl, fun _ => rfl, rfl⟩

theorem keptRows (x : Accepted rules) :
    x.rows.scores = if rules.memoryEfficient then [] else x.scoreRows := by
  have kept := (keptScoresExact.mp (decodedExact.mp x.source).kept).2
  split
  · rename_i efficient
    simpa [efficient] using kept
  · rename_i full
    simp only [full] at kept
    obtain ⟨scores, present, _, same⟩ := kept
    simp [Accepted.scoreRows, present, same]

theorem appended {p : Pass rules.kind.task} {xs : List (Accepted rules)} (holds : p.Holds xs)
    (x : Accepted rules) :
    (p.append x.rows x.size x.arrival.batch.loss x.arrival.context).Holds (xs ++ [x]) where
  predicted := by simp [Pass.append, holds.predicted]
  expected := by simp [Pass.append, holds.expected]
  scores := by
    rw [Pass.append, holds.scores, keptRows x]
    cases rules.memoryEfficient with
    | true => simp
    | false => simp
  losses := by
    rw [Pass.append, holds.losses, List.filterMap_append]
    cases loss : x.arrival.batch.loss with
    | none => simp [loss]
    | some value => simp [loss]
  batchSizes := by simp [Pass.append, holds.batchSizes]
  context := by
    intro key
    rw [Pass.append, extendContextFind, columnAppend, holds.context key]
    rfl
  batches := by simp [Pass.append, holds.batches]

end Pass.Holds

namespace PassRules

variable {rules : PassRules}

theorem runAppend (p : Pass rules.kind.task) (before after : List PassStep) :
    rules.run p (before ++ after) = rules.run (rules.run p before) after :=
  List.foldl_append

theorem acceptedReset (steps : List PassStep) :
    rules.acceptedSinceReset (steps ++ [.reset]) = [] := by
  simp [acceptedSinceReset, PassStep.arrival?]

theorem acceptedAdd (steps : List PassStep) (a : Arrival) :
    rules.acceptedSinceReset (steps ++ [.add a]) =
      rules.acceptedSinceReset steps ++ (rules.accept? a).toList := by
  simp only [acceptedSinceReset, List.rtakeWhile_concat, PassStep.arrival?, Option.isSome_some,
    if_true, List.filterMap_append]
  cases accepted : rules.accept? a with
  | none => simp [PassStep.arrival?, accepted]
  | some x => simp [PassStep.arrival?, accepted]

theorem runHolds (steps : List PassStep) :
    (rules.run {} steps).Holds (rules.acceptedSinceReset steps) := by
  induction steps using List.reverseRecOn with
  | nil => exact Pass.Holds.nothing
  | append_singleton steps last ih =>
    rw [runAppend]
    cases last with
    | reset =>
      rw [acceptedReset]
      exact Pass.Holds.nothing
    | add a =>
      rw [acceptedAdd]
      change (rules.receive (rules.run {} steps) a).pass.Holds _
      obtain ⟨_, none, same⟩ | ⟨x, _, some, same⟩ := receiveCases (rules.run {} steps) a
      · rw [none, same, Option.toList_none, List.append_nil]
        exact ih
      · rw [some, same]
        exact ih.appended x

end PassRules

/-! ### What is left of the input -/

namespace Stream

variable {α : Type}

end Stream

namespace PassRules

variable (rules : PassRules)

end PassRules

def labelPair (x y : Int) : Tensor Int := ⟨[2], [x, y], rfl⟩

def scoredPair (predicted expected : Tensor Int) : Arrival where
  batch := ⟨0, predicted, expected, some ⟨2, [[⟨1⟩, ⟨0⟩], [⟨0⟩, ⟨1⟩]], by decide⟩, some 0.5⟩
  input := .stream (.ofList [[2, 4], [2]])
  context := ⟨[("text", .sequence [.string "a", .string "b"]), ("unit", .scalar .null)],
    by decide⟩

def binaryRules : PassRules := ⟨.singleLabel, 2, false⟩

end EvalReport
