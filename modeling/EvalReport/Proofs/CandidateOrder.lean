import EvalReport.Proofs.Candidates
import EvalReport.Proofs.ScoreOrder
import Mathlib.Data.List.Perm.Subperm

/-! The candidates of a score row are exactly its best labels: by the total order of scores, and the
lower label first where the scores are the same word. No other list of as many labels has its
members in this order and before all that it leaves out. -/
namespace EvalReport

def Ahead (row : List Score) (a b : Nat) : Prop :=
  ∃ s t, row[a]? = some s ∧ row[b]? = some t ∧ (t.Under s ∨ t = s ∧ a < b)

structure Selected (ahead : Nat → Nat → Prop) (n k : Nat) (labels : List Nat) : Prop where
  count : labels.length = min k n
  distinct : labels.Nodup
  below : ∀ label ∈ labels, label < n
  ordered : labels.Pairwise ahead
  rest : ∀ label ∈ labels, ∀ other < n, other ∉ labels → ahead label other

theorem aheadBelow {key : Score → Int} {row : List Score} {a b : Nat}
    (ahead : AheadBy key row a b) : a < row.length ∧ b < row.length := by
  obtain ⟨_, _, atA, atB, _⟩ := ahead
  exact ⟨(List.getElem?_eq_some_iff.mp atA).1, (List.getElem?_eq_some_iff.mp atB).1⟩

theorem aheadAsymm {key : Score → Int} {row : List Score} (a b : Nat)
    (first : AheadBy key row a b) : ¬ AheadBy key row b a := by
  intro second
  obtain ⟨s, t, atA, atB, better⟩ := first
  obtain ⟨t', s', atB', atA', worse⟩ := second
  obtain rfl := Option.some.inj (atA.symm.trans atA')
  obtain rfl := Option.some.inj (atB.symm.trans atB')
  omega

theorem aheadExact {row : List Score} {a b : Nat} :
    Ahead row a b ↔ AheadBy Score.place row a b := by
  have same : ∀ s t : Score, t = s ↔ t.place = s.place :=
    fun s t => ⟨congrArg Score.place, Score.placeInjective⟩
  simp only [Ahead, AheadBy, Score.underExact, same]

namespace Selected

variable {ahead : Nat → Nat → Prop} {n k : Nat} {labels others : List Nat}

theorem imp {beyond : Nat → Nat → Prop} (selected : Selected ahead n k labels)
    (weaker : ∀ a b, ahead a b → beyond a b) : Selected beyond n k labels where
  count := selected.count
  distinct := selected.distinct
  below := selected.below
  ordered := selected.ordered.imp (weaker _ _)
  rest label member other below absent :=
    weaker _ _ (selected.rest label member other below absent)

variable (asymm : ∀ a b, ahead a b → ¬ ahead b a)
include asymm

/- A label that only one of two selections has would stand before and behind one of the other. -/
theorem subset (first : Selected ahead n k labels) (second : Selected ahead n k others) :
    labels ⊆ others := by
  intro label member
  by_contra absent
  obtain ⟨other, inside, missing⟩ : ∃ other ∈ others, other ∉ labels := by
    by_contra covered
    push Not at covered
    have full := (List.subperm_of_subset second.distinct covered).perm_of_length_le
      (first.count.trans second.count.symm).le
    exact absent (full.mem_iff.mpr member)
  exact asymm _ _ (first.rest label member other (second.below other inside) missing)
    (second.rest other inside label (first.below label member) absent)

theorem unique (first : Selected ahead n k labels) (second : Selected ahead n k others) :
    labels = others := by
  have perm : labels.Perm others := (List.perm_ext_iff_of_nodup first.distinct second.distinct).mpr
    fun label => ⟨fun member => first.subset asymm second member,
      fun member => second.subset asymm first member⟩
  refine List.Perm.eq_of_pairwise ?_ first.ordered second.ordered perm
  intro a b _ _ forwards backwards
  exact absurd backwards (asymm a b forwards)

end Selected

namespace Ranking

theorem topKSelected (k : Nat) (row : List Score) :
    Selected (AheadBy Score.place row) row.length k (topK k row) := by
  have distinct : ((ranked row).map (·.2)).Nodup :=
    (rankedLabels row).nodup_iff.mpr List.nodup_range
  have ordered := rankedAhead row
  rw [← List.take_append_drop k ((ranked row).map (·.2))] at ordered distinct
  obtain ⟨taken, _, across⟩ := List.pairwise_append.mp ordered
  refine ⟨topKLength k row, distinct.of_append_left, ?_, taken, ?_⟩
  · intro label member
    exact List.mem_range.mp ((rankedLabels row).mem_iff.mp (List.mem_of_mem_take member))
  · intro label member other below absent
    have inside := (rankedLabels row).mem_iff.mpr (List.mem_range.mpr below)
    rw [← List.take_append_drop k ((ranked row).map (·.2))] at inside
    exact across label member other ((List.mem_append.mp inside).resolve_left absent)

theorem topKSelects (k : Nat) (row : List Score) (labels : List Nat) :
    Selected (Ahead row) row.length k labels ↔ labels = topK k row := by
  constructor
  · intro selected
    exact (selected.imp fun _ _ => aheadExact.mp).unique aheadAsymm (topKSelected k row)
  · rintro rfl
    exact (topKSelected k row).imp fun _ _ => aheadExact.mpr

end Ranking

end EvalReport
