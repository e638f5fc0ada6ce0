import EvalReport.Proofs.Bounds
import EvalReport.Proofs.Table
import Mathlib.Algebra.BigOperators.Group.List.Basic
import Mathlib.Algebra.GroupWithZero.Nat
import Mathlib.Data.List.Nodup

/-! Trackers as sums. A counter holds what was recorded for its label and outcome, a label is in
the tracker exactly where something was recorded for it, and over all labels nothing is lost and
nothing counted twice. A tally of examples is the case of one count for each confusion. -/
namespace EvalReport

def Counts.of (c : Counts) : Outcome → Nat
  | .truePositive => c.truePositives
  | .falsePositive => c.falsePositives
  | .falseNegative => c.falseNegatives
  | .trueNegative => c.trueNegatives

theorem Counts.ofRecord (c : Counts) (o p : Outcome) (n : Nat) :
    (c.record o n).of p = c.of p + if o = p then n else 0 := by
  cases o <;> cases p <;> rfl

theorem Counts.ofNone (p : Outcome) : ({} : Counts).of p = 0 := by
  cases p <;> rfl

/-! ### Sums over the entries of a table -/

namespace Table

variable {β γ : Type}

def total (part : β → Nat) (t : Table β) : Nat := (t.entries.map fun e => part e.2).sum

theorem totalMap (part : γ → Nat) (f : β → γ) (t : Table β) :
    (t.map f).total part = t.total fun value => part (f value) := by
  simp [total, Table.map, Function.comp_def]

theorem totalPlus (part other : β → Nat) (t : Table β) :
    t.total (fun value => part value + other value) = t.total part + t.total other :=
  List.sum_map_add

/- What stood under the name leaves the sum, and what stands there now enters it. -/
theorem totalAlter (part : β → Nat) (t : Table β) (key : String) (change : Option β → β) :
    (t.alter key change).total part + (t.find? key).elim 0 part =
      t.total part + part (change (t.find? key)) := by
  change ((alterEntries key change t.entries).map fun e => part e.2).sum +
    (findIn key t.entries).elim 0 part =
      (t.entries.map fun e => part e.2).sum + part (change (findIn key t.entries))
  have ordered := t.ordered
  generalize t.entries = entries at ordered
  induction entries with
  | nil => simp [alterEntries, findIn]
  | cons head rest ih =>
    obtain ⟨here, value⟩ := head
    obtain ⟨first, tail⟩ := List.pairwise_cons.mp ordered
    simp only [alterEntries]
    split
    · rename_i below
      simp only [findInBelow first below, Option.elim_none, List.map_cons, List.sum_cons]
      omega
    · split
      · rename_i same
        subst same
        simp only [findInCons, if_true, Option.elim_some, List.map_cons, List.sum_cons]
        omega
      · rename_i different
        have later := ih tail
        simp only [findInCons, if_neg (Ne.symm different), List.map_cons, List.sum_cons]
        omega

end Table

/-! ### Runs of a tracker -/

structure Update where
  label : String
  outcome : Outcome
  count : Nat

namespace Tracker

def recordAll (t : Tracker) (updates : List Update) : Tracker :=
  updates.foldl (fun t u => t.record u.label u.outcome u.count) t

theorem foundRecord (t : Tracker) (label : String) (o : Outcome) (n : Nat) (name : String) :
    ((t.record label o n).find? name).isSome ↔ (t.find? name).isSome ∨ label = name := by
  rw [record, Table.findAlter]
  by_cases same : label = name
  · simp [same]
  · simp [same]

theorem countsRecord (t : Tracker) (label : String) (o : Outcome) (n : Nat) (name : String)
    (p : Outcome) :
    ((t.record label o n).counts name).of p =
      (t.counts name).of p + if label = name ∧ o = p then n else 0 := by
  rw [counts, record, Table.findAlter]
  by_cases same : label = name
  · subst same
    simp [counts, Counts.ofRecord]
  · simp [counts, same]

theorem totalRecord (t : Tracker) (label : String) (o : Outcome) (n : Nat) (p : Outcome) :
    Table.total (·.of p) (t.record label o n) =
      Table.total (·.of p) t + if o = p then n else 0 := by
  have exchanged := Table.totalAlter (fun c : Counts => c.of p) t label
    fun old => (old.getD {}).record o n
  have left : (t.find? label).elim 0 (fun c : Counts => c.of p) =
      ((t.find? label).getD {}).of p := by
    cases t.find? label with
    | none => exact (Counts.ofNone p).symm
    | some c => rfl
  rw [left, Counts.ofRecord] at exchanged
  rw [record]
  omega

theorem foundRecordAll (t : Tracker) (updates : List Update) (name : String) :
    ((t.recordAll updates).find? name).isSome ↔
      (t.find? name).isSome ∨ ∃ u ∈ updates, u.label = name := by
  induction updates generalizing t with
  | nil => simp [recordAll]
  | cons u rest ih =>
    change (((t.record u.label u.outcome u.count).recordAll rest).find? name).isSome ↔ _
    rw [ih, foundRecord]
    simp [or_assoc]

theorem countsRecordAll (t : Tracker) (updates : List Update) (name : String) (p : Outcome) :
    ((t.recordAll updates).counts name).of p = (t.counts name).of p +
      ((updates.filter fun u => u.label = name ∧ u.outcome = p).map (·.count)).sum := by
  induction updates generalizing t with
  | nil => simp [recordAll]
  | cons u rest ih =>
    change (((t.record u.label u.outcome u.count).recordAll rest).counts name).of p = _
    rw [ih, countsRecord, List.filter_cons]
    by_cases here : u.label = name ∧ u.outcome = p
    · simp [here, Nat.add_assoc]
    · simp [here]

theorem totalRecordAll (t : Tracker) (updates : List Update) (p : Outcome) :
    Table.total (·.of p) (t.recordAll updates) = Table.total (·.of p) t +
      ((updates.filter fun u => u.outcome = p).map (·.count)).sum := by
  induction updates generalizing t with
  | nil => simp [recordAll]
  | cons u rest ih =>
    change Table.total (·.of p) ((t.record u.label u.outcome u.count).recordAll rest) = _
    rw [ih, totalRecord, List.filter_cons]
    by_cases here : u.outcome = p
    · simp [here, Nat.add_assoc]
    · simp [here]

end Tracker

/-! ### Tallies of examples -/

namespace Report

variable {t : Task} {labels : List String} {xs : List (Example t)}

def updates (labels : List String) (xs : List (Example t)) : List Update :=
  (xs.flatMap (·.confusions)).map fun e => ⟨labels.getD e.1 "", e.2, 1⟩

theorem tallyUpdates (labels : List String) (xs : List (Example t)) :
    tally labels xs = Tracker.recordAll ∅ (updates labels xs) := by
  rw [tally, Tracker.recordAll, updates, List.foldl_map]

theorem tallyTotal (labels : List String) (xs : List (Example t)) (p : Outcome) :
    Table.total (·.of p) (tally labels xs) =
      (xs.flatMap (·.confusions)).countP fun e => e.2 = p := by
  rw [tallyUpdates, Tracker.totalRecordAll, updates, List.filter_map, List.map_map]
  simp only [Function.comp_def, List.map_const', List.sum_replicate_nat,
    List.countP_eq_length_filter, Nat.mul_one]
  exact Nat.zero_add _

theorem nameOf (distinct : labels.Nodup) {label other : Nat} {name : String}
    (here : labels[label]? = some name) (below : other < labels.length) :
    labels.getD other "" = name ↔ other = label := by
  obtain ⟨inside, same⟩ := List.getElem?_eq_some_iff.mp here
  rw [← same, List.getD_eq_getElem?_getD, List.getElem?_eq_getElem below, Option.getD_some]
  exact distinct.getElem_inj_iff

theorem confusionBelow (below : ∀ x ∈ xs, ∀ label ∈ x.referenced, label < labels.length)
    {entry : Nat × Outcome} (member : entry ∈ xs.flatMap (·.confusions)) :
    entry.1 < labels.length := by
  obtain ⟨x, inside, inEntries⟩ := List.mem_flatMap.mp member
  exact below x inside entry.1 (confusionReferenced inEntries)

theorem tallyCounts (distinct : labels.Nodup)
    (below : ∀ x ∈ xs, ∀ label ∈ x.referenced, label < labels.length) {label : Nat}
    {name : String} (here : labels[label]? = some name) (p : Outcome) :
    ((tally labels xs).counts name).of p = (xs.flatMap (·.confusions)).count (label, p) := by
  have alike : ∀ entry ∈ xs.flatMap (·.confusions),
      labels.getD entry.1 "" = name ∧ entry.2 = p ↔ entry = (label, p) := by
    intro entry member
    rw [nameOf distinct here (confusionBelow below member), Prod.ext_iff]
  rw [tallyUpdates, Tracker.countsRecordAll, updates, List.filter_map, List.map_map]
  simp only [Function.comp_def, List.map_const', List.sum_replicate_nat, Nat.mul_one]
  rw [← List.countP_eq_length_filter, List.count]
  change ({} : Counts).of p + _ = _
  rw [Counts.ofNone, Nat.zero_add]
  refine List.countP_congr fun entry member => ?_
  rw [decide_eq_true_eq, alike entry member, beq_iff_eq]

theorem tallyFound (distinct : labels.Nodup)
    (below : ∀ x ∈ xs, ∀ label ∈ x.referenced, label < labels.length) (name : String) :
    ((tally labels xs).find? name).isSome ↔
      ∃ label, labels[label]? = some name ∧ ∃ x ∈ xs, ∃ o, (label, o) ∈ x.confusions := by
  rw [tallyUpdates, Tracker.foundRecordAll]
  constructor
  · rintro (missing | ⟨u, member, named⟩)
    · contradiction
    · obtain ⟨entry, inside, rfl⟩ := List.mem_map.mp member
      obtain ⟨x, inExamples, confused⟩ := List.mem_flatMap.mp inside
      have bound := confusionBelow below inside
      refine ⟨entry.1, ?_, x, inExamples, entry.2, confused⟩
      rw [← named, List.getElem?_eq_getElem bound]
      simp [bound]
  · rintro ⟨label, here, x, inExamples, o, confused⟩
    have inside : (label, o) ∈ xs.flatMap (·.confusions) :=
      List.mem_flatMap.mpr ⟨x, inExamples, confused⟩
    refine .inr ⟨_, List.mem_map.mpr ⟨(label, o), inside, rfl⟩, ?_⟩
    exact (nameOf distinct here (confusionBelow below inside)).mpr rfl

end Report

end EvalReport
