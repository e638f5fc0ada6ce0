import EvalReport.Proofs.Acceptance

/-! How context is unpacked. A tensor with an axis for the examples gives one value for each of
them, nested along the other axes down to the first of size zero, and every entry is found again
in its row-major place. What belongs to a batch as a whole gives nothing, and no run of a pass
starts a column for it. -/
namespace EvalReport

/-! ### Nested values -/

namespace Json

mutual

def depth : Json → Nat
  | array items => itemsDepth items + 1
  | _ => 0

def itemsDepth : List Json → Nat
  | [] => 0
  | x :: xs => max (depth x) (itemsDepth xs)

end

mutual

def leaves : Json → List Float
  | number (.real x) => [x]
  | array items => itemsLeaves items
  | _ => []

def itemsLeaves : List Json → List Float
  | [] => []
  | x :: xs => leaves x ++ itemsLeaves xs

end

def under? : List Nat → Json → Option Json
  | [], v => some v
  | i :: path, array items => items[i]?.bind (under? path)
  | _ :: _, _ => none

/- Arrays of these lengths around numbers, level after level. An empty array has nothing below
it that could have a length. -/
inductive Nested : List Nat → Json → Prop where
  | entry (x : Float) : Nested [] (.real x)
  | empty : Nested [0] (.array [])
  | axis {lengths items} (some : items ≠ []) (inner : ∀ item ∈ items, Nested lengths item) :
      Nested (items.length :: lengths) (.array items)

theorem itemsLeavesFlatMap (items : List Json) : itemsLeaves items = items.flatMap leaves := by
  induction items with
  | nil => rfl
  | cons x xs ih => rw [itemsLeaves, ih, List.flatMap_cons]

theorem itemsDepthEven {d : Nat} {items : List Json} (some : items ≠ [])
    (even : ∀ item ∈ items, item.depth = d) : itemsDepth items = d := by
  induction items with
  | nil => contradiction
  | cons x xs ih =>
    obtain ⟨first, later⟩ := List.forall_mem_cons.mp even
    rw [itemsDepth, first]
    by_cases more : xs = []
    · rw [more, itemsDepth, Nat.max_zero]
    · rw [ih more later, Nat.max_self]

theorem Nested.deep {lengths : List Nat} {v : Json} (nested : v.Nested lengths) :
    v.depth = lengths.length := by
  induction nested with
  | entry x => rfl
  | empty => rfl
  | axis some _ ih => rw [depth, itemsDepthEven some ih, List.length_cons]

end Json

/- The axes that nested arrays can show: all down to the first of size zero. -/
def shownAxes : List Nat → List Nat
  | [] => []
  | 0 :: _ => [0]
  | (n + 1) :: shape => (n + 1) :: shownAxes shape

theorem allAxesShown {shape : List Nat} (filled : 0 ∉ shape) : shownAxes shape = shape := by
  induction shape with
  | nil => rfl
  | cons n shape ih =>
    rw [List.mem_cons, not_or] at filled
    obtain ⟨n, rfl⟩ := Nat.exists_eq_succ_of_ne_zero (Ne.symm filled.1)
    rw [shownAxes, ih filled.2]

def rowMajor : List Nat → List Nat → Nat
  | _ :: shape, i :: path => i * volume shape + rowMajor shape path
  | _, _ => 0

/-! ### Entries along a shape -/

structure Fills (shape : List Nat) (data : List Float) : Prop where
  full : data.length = volume shape
  finite : ∀ x ∈ data, x.isFinite

namespace Fills

variable {n : Nat} {shape : List Nat} {data : List Float}

theorem single (fills : Fills [] data) : ∃ x, data = [x] ∧ nested [] data = .real x := by
  obtain ⟨x, rfl⟩ := List.length_eq_one_iff.mp fills.full
  have finite : x.isFinite := fills.finite x List.mem_cons_self
  exact ⟨x, rfl, if_pos finite⟩

theorem piece (fills : Fills (n :: shape) data) {row : List Float}
    (member : row ∈ pieces (volume shape) n data) : Fills shape row where
  full := piecesWidth fills.full row member
  finite := by
    intro x inRow
    refine fills.finite x ?_
    rw [← piecesFlatten fills.full]
    exact List.mem_flatten_of_mem member inRow

theorem leaves (fills : Fills shape data) : (nested shape data).leaves = data := by
  induction shape generalizing data with
  | nil =>
    obtain ⟨x, rfl, same⟩ := fills.single
    rw [same]
    rfl
  | cons n shape ih =>
    have back : (pieces (volume shape) n data).map (fun row => (nested shape row).leaves) =
        pieces (volume shape) n data :=
      (List.map_congr_left fun row member => ih (fills.piece member)).trans (List.map_id _)
    rw [nested, Json.leaves, Json.itemsLeavesFlatMap, List.flatMap_map, List.flatMap_def, back]
    exact piecesFlatten fills.full

theorem lengths (fills : Fills shape data) : (nested shape data).Nested (shownAxes shape) := by
  induction shape generalizing data with
  | nil =>
    obtain ⟨x, _, same⟩ := fills.single
    rw [same]
    exact .entry x
  | cons n shape ih =>
    cases n with
    | zero => exact .empty
    | succ n =>
      have inner : ∀ item ∈ (pieces (volume shape) (n + 1) data).map (nested shape),
          item.Nested (shownAxes shape) := by
        intro item member
        obtain ⟨row, inPieces, rfl⟩ := List.mem_map.mp member
        exact ih (fills.piece inPieces)
      have counted : ((pieces (volume shape) (n + 1) data).map (nested shape)).length = n + 1 := by
        rw [List.length_map, piecesLength]
      have axis := Json.Nested.axis (List.ne_nil_of_length_eq_add_one counted) inner
      rwa [counted] at axis

theorem placed (fills : Fills shape data) {path : List Nat}
    (within : List.Forall₂ (· < ·) path shape) :
    ∃ x, data[rowMajor shape path]? = some x ∧
      (nested shape data).under? path = some (.real x) := by
  induction within generalizing data with
  | nil =>
    obtain ⟨x, rfl, same⟩ := fills.single
    exact ⟨x, rfl, congrArg some same⟩
  | @cons i n path shape below _ ih =>
    have row : (pieces (volume shape) n data)[i]? =
        some (window (i * volume shape) (volume shape) data) := by
      rw [piecesLines, List.getElem?_map, List.getElem?_range below, Option.map_some]
    obtain ⟨x, found, here⟩ := ih (fills.piece (List.mem_of_getElem? row))
    refine ⟨x, ?_, ?_⟩
    · rw [window, List.getElem?_take, List.getElem?_drop] at found
      exact (Option.ite_none_right_eq_some.mp found).2
    · rw [nested, Json.under?, List.getElem?_map, row]
      exact here

end Fills

/-! ### Values for the examples -/

/- The values that a tensor with these entries, `n` examples and the further axes `shape` has to
give. -/
structure Unpacks (n : Nat) (shape : List Nat) (data : List Float) (values : List Json) :
    Prop where
  counted : values.length = n
  lengths : ∀ v ∈ values, v.Nested (shownAxes shape)
  depth : ∀ v ∈ values, v.depth = (shownAxes shape).length
  whole : 0 ∉ shape → ∀ v ∈ values, v.Nested shape ∧ v.depth = shape.length
  flat : values.flatMap Json.leaves = data
  placed : ∀ path, List.Forall₂ (· < ·) path (n :: shape) →
    ∃ x, data[rowMajor (n :: shape) path]? = some x ∧
      (Json.array values).under? path = some (.real x)

theorem tensorUnpacked {t : Tensor Float} {n : Nat} {shape : List Nat}
    (axes : t.shape = n :: shape) (finite : ∀ x ∈ t.data, x.isFinite) :
    ∃ values, (ContextValue.tensor t).perExample = some values ∧
      Unpacks n shape t.data values := by
  have fills : Fills (n :: shape) t.data := ⟨by rw [t.full, axes], finite⟩
  have lengths : ∀ v ∈ (pieces (volume shape) n t.data).map (nested shape),
      v.Nested (shownAxes shape) := by
    intro v member
    obtain ⟨row, inPieces, rfl⟩ := List.mem_map.mp member
    exact (fills.piece inPieces).lengths
  refine ⟨(pieces (volume shape) n t.data).map (nested shape), ?_, ?_⟩
  · rw [ContextValue.perExample, axes]
  · exact {
      counted := by rw [List.length_map, piecesLength]
      lengths := lengths
      depth := fun v member => (lengths v member).deep
      whole := by
        intro filled v member
        have nested := lengths v member
        rw [allAxesShown filled] at nested
        exact ⟨nested, nested.deep⟩
      flat := by
        rw [← Json.itemsLeavesFlatMap]
        exact fills.leaves
      placed := fun path within => fills.placed within }

inductive ContextValue.BatchWide : ContextValue → Prop where
  | scalar (value : Json) : BatchWide (.scalar value)
  | rankZero (t : Tensor Float) (zero : t.rank = 0) : BatchWide (.tensor t)

theorem batchWideExact (value : ContextValue) : value.perExample = none ↔ value.BatchWide := by
  constructor
  · intro nothing
    match value with
    | .scalar value => exact .scalar value
    | .sequence _ => contradiction
    | .tensor ⟨[], data, full⟩ => exact .rankZero _ rfl
    | .tensor ⟨_ :: _, _, _⟩ => contradiction
  · intro wide
    cases wide with
    | scalar value => rfl
    | rankZero t zero => rw [ContextValue.perExample, List.length_eq_zero_iff.mp zero]

/-! ### Columns of a pass -/

namespace PassRules

variable {rules : PassRules} {p : Pass rules.kind.task} {key : String}

theorem receiveColumn {a : Arrival} (accepted : (rules.receive p a).result = .ok ()) :
    (rules.receive p a).pass.context.find? key =
      match (a.context.find? key).bind ContextValue.perExample with
      | none => p.context.find? key
      | some values => some ((p.context.find? key).getD [] ++ values) := by
  obtain ⟨d, decoded⟩ := (receiveOk rules p a).mp accepted
  rw [receivePass rules p decoded]
  exact extendContextFind ..

theorem receiveBatchWide {a : Arrival}
    (wide : ∀ value, a.context.find? key = some value → value.BatchWide) :
    (rules.receive p a).pass.context.find? key = p.context.find? key := by
  have nothing : (a.context.find? key).bind ContextValue.perExample = none := by
    cases found : a.context.find? key with
    | none => rfl
    | some value => exact (batchWideExact value).mpr (wide value found)
  cases result : (rules.receive p a).result with
  | error fault => rw [receiveRejected result]
  | ok _ => rw [receiveColumn result, nothing]

theorem runBatchWide {steps : List PassStep}
    (wide : ∀ a, .add a ∈ steps → ∀ value, a.context.find? key = some value → value.BatchWide)
    (absent : p.context.find? key = none) : (rules.run p steps).context.find? key = none := by
  induction steps generalizing p with
  | nil => exact absent
  | cons step steps ih =>
    refine ih (fun a later => wide a (List.mem_cons_of_mem _ later)) ?_
    cases step with
    | reset => rfl
    | add a => exact (receiveBatchWide (wide a List.mem_cons_self)).trans absent

end PassRules

theorem contextUnpacked :
    (∀ (t : Tensor Float) (n : Nat) (shape : List Nat), t.shape = n :: shape →
      (∀ x ∈ t.data, x.isFinite) → ∃ values,
        (ContextValue.tensor t).perExample = some values ∧ Unpacks n shape t.data values ∧
        ∀ (rules : PassRules) (p : Pass rules.kind.task) (a : Arrival) (key : String),
          a.context.find? key = some (.tensor t) → (rules.receive p a).result = .ok () →
            (rules.receive p a).pass.context.find? key =
              some ((p.context.find? key).getD [] ++ values)) ∧
    (∀ value : ContextValue, value.perExample = none ↔ value.BatchWide) ∧
    ∀ (rules : PassRules) (p : Pass rules.kind.task) (key : String),
      (∀ a : Arrival, (∀ value, a.context.find? key = some value → value.BatchWide) →
        (rules.receive p a).pass.context.find? key = p.context.find? key) ∧
      ∀ steps : List PassStep,
        (∀ a, .add a ∈ steps → ∀ value, a.context.find? key = some value → value.BatchWide) →
          p.context.find? key = none → (rules.run p steps).context.find? key = none := by
  refine ⟨?_, batchWideExact, ?_⟩
  · intro t n shape axes finite
    obtain ⟨values, given, unpacks⟩ := tensorUnpacked axes finite
    refine ⟨values, given, unpacks, ?_⟩
    intro rules p a key found accepted
    rw [PassRules.receiveColumn accepted, found, Option.bind_some, given]
  · exact fun rules p key =>
      ⟨fun a => PassRules.receiveBatchWide, fun steps => PassRules.runBatchWide⟩

def rowPair : Tensor Float := ⟨[2, 1, 2], [1.5, -0.0, 3, 0.25], rfl⟩

def rowsAndStep : Arrival :=
  { scoredPair (labelPair 0 1) (labelPair 0 1) with
    context := ⟨[("hollow", .tensor ⟨[2, 0, 3], [], rfl⟩), ("rows", .tensor rowPair),
      ("step", .tensor ⟨[], [7], rfl⟩)], by decide⟩ }

theorem rowsAndStepColumns :
    (binaryRules.receive {} rowsAndStep).pass.context.find? "rows" =
      some [.array [.array [.real 1.5, .real (-0.0)]], .array [.array [.real 3, .real 0.25]]] ∧
    (binaryRules.receive {} rowsAndStep).pass.context.find? "hollow" =
      some [.array [], .array []] ∧
    (binaryRules.run {} [.add rowsAndStep, .add rowsAndStep]).context.find? "step" = none := by
  obtain ⟨unpack, _, batchWide⟩ := contextUnpacked
  have finite : ∀ x ∈ rowPair.data, x.isFinite := List.all_eq_true.mp (by rfl)
  obtain ⟨rows, givenRows, _, appendRows⟩ := unpack rowPair 2 [1, 2] rfl finite
  obtain ⟨hollow, givenHollow, _, appendHollow⟩ :=
    unpack ⟨[2, 0, 3], [], rfl⟩ 2 [0, 3] rfl (by simp)
  have accepted : (binaryRules.receive {} rowsAndStep).result = .ok () := rfl
  refine ⟨?_, ?_, ?_⟩
  · rw [appendRows binaryRules {} rowsAndStep "rows" rfl accepted]
    rw [← Option.some.inj givenRows]
    rfl
  · rw [appendHollow binaryRules {} rowsAndStep "hollow" rfl accepted]
    rw [← Option.some.inj givenHollow]
    rfl
  · refine (batchWide binaryRules {} "step").2 _ ?_ rfl
    intro a member value found
    obtain rfl : a = rowsAndStep := by simpa using member
    cases found
    exact .rankZero _ rfl

end EvalReport
