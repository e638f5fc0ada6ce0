import EvalReport.Example
import EvalReport.Ranking
import Mathlib.Data.List.Infix
import Mathlib.Data.List.Sort

/-! The candidates of a score row. Asking for more of them adds to the end, the first is the label
of the best score and, among equal ones, the lowest, and a row runs out when every label is in. An
example is hit by any of its candidates; a miss is charged to the first. -/
namespace EvalReport

def Best (row : List Score) (label : Nat) : Prop :=
  ∃ best, row[label]? = some best ∧ ∀ other score, row[other]? = some score →
    score.place < best.place ∨ score.place = best.place ∧ label ≤ other

instance (row : List Score) (label : Nat) : Decidable (Best row label) :=
  decidable_of_iff (∃ best ∈ row[label]?, ∀ other < row.length, ∀ score ∈ row[other]?,
      score.place < best.place ∨ score.place = best.place ∧ label ≤ other)
    (exists_congr fun _ => and_congr_right fun _ =>
      ⟨fun each other score there => each other (List.getElem?_eq_some_iff.mp there).1 score there,
        fun each other _ score there => each other score there⟩)

/- Label `a` stands before label `b` where scores are told apart by `key`: its score is better, or
it is the lower label of a tie. -/
def AheadBy (key : Score → Int) (row : List Score) (a b : Nat) : Prop :=
  ∃ s t, row[a]? = some s ∧ row[b]? = some t ∧ (key t < key s ∨ key t = key s ∧ a < b)

namespace Ranking

def ranked (row : List Score) : List (Score × Nat) :=
  row.zipIdx.mergeSort fun a b => b.1.place ≤ a.1.place

theorem topKRanked (k : Nat) (row : List Score) : topK k row = ((ranked row).map (·.2)).take k :=
  rfl

theorem rankedPerm (row : List Score) : (ranked row).Perm row.zipIdx :=
  List.mergeSort_perm _ _

theorem rankedLabels (row : List Score) :
    ((ranked row).map (·.2)).Perm (List.range row.length) := by
  rw [List.range_eq_range', ← List.zipIdx_map_snd 0 row]
  exact (rankedPerm row).map _

/-! ### More candidates -/

theorem topKPrefix {j k : Nat} (fewer : j ≤ k) (row : List Score) : topK j row <+: topK k row :=
  List.take_prefix_take_left fewer

theorem topKLength (k : Nat) (row : List Score) : (topK k row).length = min k row.length := by
  rw [topKRanked, List.length_take, (rankedLabels row).length_eq, List.length_range]

theorem topKFirst {k : Nat} (some : 1 ≤ k) (row : List Score) :
    (topK k row).head? = (topK 1 row).head? := by
  rw [topKRanked, topKRanked, List.head?_take, List.head?_take, if_neg (by omega),
    if_neg Nat.one_ne_zero]

theorem topKAll {k : Nat} {row : List Score} (enough : row.length ≤ k) {label : Nat}
    (below : label < row.length) : label ∈ topK k row := by
  have length : ((ranked row).map (·.2)).length ≤ k := by
    rw [(rankedLabels row).length_eq, List.length_range]
    exact enough
  rw [topKRanked, List.take_of_length_le length]
  exact (rankedLabels row).mem_iff.mpr (List.mem_range.mpr below)

/-! ### The order of the labels -/

theorem rankedMember {row : List Score} {s : Score} {label : Nat} :
    (s, label) ∈ ranked row ↔ row[label]? = some s := by
  rw [(rankedPerm row).mem_iff, List.mk_mem_zipIdx_iff_getElem?]

theorem noWorseTrans (a b c : Score × Nat) (first : decide (b.1.place ≤ a.1.place) = true)
    (second : decide (c.1.place ≤ b.1.place) = true) : decide (c.1.place ≤ a.1.place) = true :=
  decide_eq_true ((of_decide_eq_true second).trans (of_decide_eq_true first))

theorem noWorseTotal (a b : Score × Nat) :
    (decide (b.1.place ≤ a.1.place) || decide (a.1.place ≤ b.1.place)) = true := by
  simpa using le_total b.1.place a.1.place

theorem rankedDescending (row : List Score) :
    (ranked row).Pairwise fun a b => b.1.place ≤ a.1.place :=
  (List.pairwise_mergeSort noWorseTrans noWorseTotal row.zipIdx).imp of_decide_eq_true

theorem rankedTies (row : List Score) (place : Int) :
    (ranked row).filter (·.1.place = place) = row.zipIdx.filter (·.1.place = place) := by
  have tied : (row.zipIdx.filter (·.1.place = place)).Pairwise
      fun a b => decide (b.1.place ≤ a.1.place) = true := by
    refine List.pairwise_of_forall_mem_list fun a inA b inB => ?_
    have first := (List.mem_filter.mp inA).2
    have second := (List.mem_filter.mp inB).2
    simp only [decide_eq_true_eq] at first second ⊢
    rw [first, second]
  have kept : (row.zipIdx.filter (·.1.place = place)).Sublist (ranked row) :=
    List.sublist_mergeSort noWorseTrans noWorseTotal tied List.filter_sublist
  have inside := kept.filter (·.1.place = place)
  rw [List.filter_filter] at inside
  simp only [Bool.and_self] at inside
  exact (inside.eq_of_length ((rankedPerm row).filter _).length_eq.symm).symm

theorem rankedAhead (row : List Score) :
    ((ranked row).map (·.2)).Pairwise (AheadBy Score.place row) := by
  refine List.pairwise_map.mpr (List.pairwise_iff_forall_sublist.mpr ?_)
  rintro ⟨s, a⟩ ⟨t, b⟩ pair
  have atA := rankedMember.mp (pair.subset List.mem_cons_self)
  have atB := rankedMember.mp (pair.subset (List.mem_cons_of_mem _ List.mem_cons_self))
  have sorted := List.pairwise_iff_forall_sublist.mp (rankedDescending row) pair
  refine ⟨s, t, atA, atB, ?_⟩
  rcases sorted.lt_or_eq with better | tie
  · exact .inl better
  · -- both stay, in this order, among the labels of this one score
    have tied := pair.filter (·.1.place = s.place)
    have positions : (row.zipIdx.map (·.2)).Pairwise (· < ·) := by
      rw [List.zipIdx_map_snd]
      exact List.pairwise_lt_range'
    rw [rankedTies, List.filter_cons_of_pos (by simp), List.filter_cons_of_pos (by simpa using tie),
      List.filter_nil] at tied
    have lower := List.pairwise_iff_forall_sublist.mp (List.pairwise_map.mp positions)
      (tied.trans List.filter_sublist)
    exact .inr ⟨tie, lower⟩

/-! ### The best one -/

theorem bestAntisymm {row : List Score} {label other : Nat} (first : Best row label)
    (second : Best row other) : label = other := by
  obtain ⟨score, here, above⟩ := first
  obtain ⟨best, there, above'⟩ := second
  have left := above other best there
  have right := above' label score here
  omega

theorem bestBelow {row : List Score} {label : Nat} (best : Best row label) :
    label < row.length := by
  obtain ⟨score, here, _⟩ := best
  exact (List.getElem?_eq_some_iff.mp here).1

theorem headBest {row : List Score} {score : Score} {label : Nat} {rest : List (Score × Nat)}
    (listed : ranked row = (score, label) :: rest) : Best row label := by
  have ahead := rankedAhead row
  rw [listed, List.map_cons, List.pairwise_cons] at ahead
  have here := rankedMember.mp (listed ▸ List.mem_cons_self)
  refine ⟨score, here, fun other s there => ?_⟩
  have member := rankedMember.mpr there
  rw [listed] at member
  rcases List.mem_cons.mp member with same | later
  · obtain ⟨rfl, rfl⟩ := Prod.mk.inj same
    exact .inr ⟨rfl, le_refl _⟩
  · obtain ⟨best, t, atLabel, atOther, better⟩ := ahead.1 other (List.mem_map_of_mem later)
    obtain rfl := Option.some.inj (here.symm.trans atLabel)
    obtain rfl := Option.some.inj (there.symm.trans atOther)
    exact better.imp_right fun tie => ⟨tie.1, tie.2.le⟩

theorem bestFirst {row : List Score} {label : Nat} :
    topK 1 row = [label] ↔ Best row label := by
  rw [topKRanked]
  cases listed : ranked row with
  | nil =>
    have empty : row = [] := by
      have length := (rankedLabels row).length_eq
      rw [listed, List.length_range] at length
      exact List.length_eq_zero_iff.mp length.symm
    simp [empty, Best]
  | cons first rest =>
    have best : Best row first.2 := headBest listed
    simp only [List.map_cons, List.take_succ_cons, List.take_zero, List.cons.injEq, and_true]
    exact ⟨fun same => same ▸ best, bestAntisymm best⟩

theorem bestExists {row : List Score} (some : row ≠ []) : ∃ label, Best row label := by
  obtain ⟨label, listed⟩ : ∃ label, topK 1 row = [label] := by
    rw [← List.length_eq_one_iff, topKLength]
    have := List.length_pos_iff.mpr some
    omega
  exact ⟨label, bestFirst.mp listed⟩

end Ranking

/-! ### Hits and misses -/

namespace Example

variable {x : Example .topK}

theorem candidateHit (hit : x.expected ∈ x.predicted) :
    x.hits = 1 ∧ x.confusions = [(x.expected, .truePositive)] := by
  have predicts : x.predicts x.expected = true := List.contains_iff_mem.mpr hit
  constructor
  · change ([x.expected] : List Nat).countP x.predicts = 1
    simp [predicts]
  · change [(x.expected, if x.predicts x.expected then Outcome.truePositive else .falseNegative)] ++
      (if x.predicts x.expected then [] else x.predicted.head?.toList).map _ = _
    simp [predicts]

theorem candidateMiss (missed : x.expected ∉ x.predicted) :
    x.hits = 0 ∧ x.confusions = (x.expected, .falseNegative) ::
      x.predicted.head?.toList.map fun label => (label, .falsePositive) := by
  have predicts : x.predicts x.expected = false := by
    simpa [predicts, predictedLabels, Task.predictedLabels] using missed
  constructor
  · change ([x.expected] : List Nat).countP x.predicts = 0
    simp [predicts]
  · change [(x.expected, if x.predicts x.expected then Outcome.truePositive else .falseNegative)] ++
      (if x.predicts x.expected then [] else x.predicted.head?.toList).map _ = _
    simp [predicts]

end Example

end EvalReport
