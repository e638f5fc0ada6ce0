import EvalReport.Proofs.Cuts
import EvalReport.Proofs.Exact

/-! Operating points: the best recall that keeps a precision, attained. Recall only grows down
the ranking while precision comes and goes, so the last cut that keeps the precision has both the
greatest recall and the lowest score; and what any cut-off selects, some cut does. -/
namespace EvalReport.Ranking

open Arithmetic

/-! ### The last accepted cut -/

noncomputable def improve (total : Nat) : Option (EReal × Score) → Cut → Option (EReal × Score)
  | none, c => some (c.recallRate total, c.score)
  | some (r, s), c =>
    some (if below r (c.recallRate total) then c.recallRate total else r, s.lesser c.score)

theorem bestImproves (total : Nat) (accepts : EReal → Bool) (cs : List Cut) :
    best total accepts cs =
      (cs.filter fun c => accepts c.precision).foldl (improve total) none := by
  rw [best]
  congr 1
  funext best c
  cases best <;> rfl

theorem recallMonotone {c d : Cut} (ordered : c.positives ≤ d.positives) (total : Nat) :
    (c.recallRate total : EReal) ≤ d.recallRate total := by
  rw [Cut.recallRate, Cut.recallRate, shareExtended, shareExtended]
  exact extendedMono ordered total

theorem improveLower {c d : Cut} (total : Nat) (number : c.score.isNaN = false)
    (other : d.score.isNaN = false) (lower : d.score.level < c.score.level)
    (ordered : c.positives ≤ d.positives) :
    improve total (some (c.recallRate total, c.score)) d =
      some (d.recallRate total, d.score) := by
  have lesser : c.score.lesser d.score = d.score := by
    simp [Score.lesser, (Score.belowExact other number).mpr lower]
  have greater : (if below (c.recallRate total : EReal) (d.recallRate total)
      then d.recallRate total else c.recallRate total : EReal) = d.recallRate total := by
    split
    · rfl
    · rename_i notBelow
      exact le_antisymm (recallMonotone ordered total) (not_lt.mp (by simpa [below] using notBelow))
  rw [improve, lesser, greater]

/- Of falling cuts the last is the best in both respects. -/
theorem improveLast {kept : List Cut} (total : Nat)
    (numbers : ∀ c ∈ kept, c.score.isNaN = false)
    (falling : kept.Pairwise fun c d =>
      d.score.level < c.score.level ∧ c.positives ≤ d.positives) :
    kept.foldl (improve total) none = kept.getLast?.map fun c => (c.recallRate total, c.score) := by
  induction kept using List.reverseRecOn with
  | nil => rfl
  | append_singleton kept d ih =>
    obtain ⟨falling, _, lowest⟩ := List.pairwise_append.mp falling
    rw [List.foldl_append, ih (fun c member => numbers c (List.mem_append_left _ member)) falling,
      List.getLast?_concat]
    cases last : kept.getLast? with
    | none => rfl
    | some c =>
      have member := List.mem_of_getLast? last
      obtain ⟨lower, ordered⟩ := lowest c member d List.mem_cons_self
      exact improveLower total (numbers c (List.mem_append_left _ member))
        (numbers d (List.mem_append_right _ List.mem_cons_self)) lower ordered

/-! ### Cut-offs that keep a precision -/

structure Reaches (xs : List Judged) (t c : EReal) : Prop where
  some : 0 < selectedBy xs c
  precise : t ≤ ((precisionBy xs c : ℝ) : EReal)

noncomputable def recallBy (xs : List Judged) (c : EReal) : EReal :=
  (((foundBy xs c / positives xs : ℚ) : ℝ) : EReal)

noncomputable def kept (xs : List Judged) (t : EReal) : List Cut :=
  (cuts (descending xs)).filter fun c => !below c.precision t

section Kept

variable {xs : List Judged} {t c : EReal} {d : Cut}

theorem recallAntitone (xs : List Judged) : Antitone (recallBy xs) := by
  intro low high ordered
  exact extendedMono (foundAntitone xs ordered) (positives xs)

theorem cutRecall (numbers : Numbers xs) (member : d ∈ cuts (descending xs)) :
    (d.recallRate (positives xs) : EReal) = recallBy xs d.score.value := by
  rw [Cut.recallRate, shareExtended, cutFound numbers member, recallBy]

theorem keptReaches (numbers : Numbers xs) :
    d ∈ kept xs t ↔ d ∈ cuts (descending xs) ∧ Reaches xs t d.score.value := by
  rw [kept, List.mem_filter]
  refine and_congr_right fun member => ?_
  have precision : (d.precision : EReal) = ((precisionBy xs d.score.value : ℝ) : EReal) := by
    rw [Cut.precision, shareExtended, cutFound numbers member, cutSelected numbers member,
      precisionBy]
  obtain ⟨x, listed, same⟩ := (cutsSweep numbers).attained d member
  have some : 0 < selectedBy xs d.score.value :=
    List.countP_pos_iff.mpr ⟨x, listed, by simp [same]⟩
  simp only [precision, below, Bool.not_eq_true', decide_eq_false_iff_not, not_lt]
  exact ⟨fun precise => ⟨some, precise⟩, Reaches.precise⟩

theorem reachesKept (numbers : Numbers xs) (reaches : Reaches xs t c) :
    ∃ d ∈ kept xs t, ∀ x ∈ xs, c ≤ x.score.value ↔ d.score.value ≤ x.score.value := by
  obtain ⟨d, member, same⟩ := cutOffCut numbers reaches.some
  refine ⟨d, (keptReaches numbers).mpr ⟨member, ?_, ?_⟩, same⟩
  · exact selectedSame same ▸ reaches.some
  · rw [precisionBy, ← foundSame same, ← selectedSame same]
    exact reaches.precise

theorem keptFalling (numbers : Numbers xs) (t : EReal) : (kept xs t).Pairwise fun c d =>
    d.score.level < c.score.level ∧ c.positives ≤ d.positives := by
  refine (List.Pairwise.imp_of_mem ?_ (cutsSweep numbers).falling).filter _
  intro c d first second lower
  have below := Score.valueLt (cutNumber numbers second) (cutNumber numbers first) |>.mpr lower
  rw [cutFound numbers first, cutFound numbers second]
  exact ⟨lower, foundAntitone xs below.le⟩

theorem lastLowest (numbers : Numbers xs) (last : (kept xs t).getLast? = some d) :
    ∀ e ∈ kept xs t, d.score.value ≤ e.score.value := by
  obtain ⟨others, split⟩ := List.getLast?_eq_some_iff.mp last
  have falling := keptFalling numbers t
  rw [split] at falling
  intro e member
  have numeric := cutNumber numbers (List.mem_of_mem_filter member)
  have number := cutNumber numbers (List.mem_of_mem_filter (List.mem_of_getLast? last))
  rw [Score.valueLe number numeric]
  rw [split] at member
  rcases List.mem_append.mp member with before | here
  · exact ((List.pairwise_append.mp falling).2.2 e before d List.mem_cons_self).1.le
  · rw [List.mem_singleton.mp here]

end Kept

/-! ### Operating points -/

/- The recall is the greatest of all cut-offs that keep the precision, the cut-off the least score
among them, and the cut-off has that recall. -/
structure Optimal (xs : List Judged) (entry : OperatingPoint EReal) : Prop where
  greatest : IsGreatest (recallBy xs '' {c | Reaches xs entry.threshold c}) entry.recallRate
  lowest : IsLeast {c | Reaches xs entry.threshold c ∧ ∃ x ∈ xs, x.score.value = c} entry.cutOff
  attained : Reaches xs entry.threshold entry.cutOff ∧ recallBy xs entry.cutOff = entry.recallRate

section Points

variable {xs : List Judged} {t : EReal} {d : Cut}

theorem bestKept (numbers : Numbers xs) (t : EReal) :
    best (positives xs) (fun p => !below p t) (cuts (descending xs)) =
      (kept xs t).getLast?.map fun c => ((c.recallRate (positives xs) : EReal), c.score) := by
  rw [bestImproves]
  exact improveLast (positives xs)
    (fun c member => cutNumber numbers (List.mem_of_mem_filter member)) (keptFalling numbers t)

theorem pointThreshold (total : Nat) (cs : List Cut) (t : EReal) :
    (operatingPoint total cs t).threshold = t := by
  rw [operatingPoint]
  split
  · rfl
  · split <;> rfl

theorem pointMissed (numbers : Numbers xs) (missed : positives xs = 0 ∨ kept xs t = []) :
    operatingPoint (positives xs) (cuts (descending xs)) t = ⟨t, 0, 0⟩ := by
  have none : (zero : EReal) = 0 := Nat.cast_zero
  rw [operatingPoint, bestKept numbers, none]
  rcases missed with absent | empty
  · rw [if_pos absent]
  · rw [empty]
    exact ite_self _

theorem pointLast (numbers : Numbers xs) (present : positives xs ≠ 0)
    (last : (kept xs t).getLast? = some d) :
    operatingPoint (positives xs) (cuts (descending xs)) t =
      ⟨t, recallBy xs d.score.value, d.score.value⟩ := by
  have member := List.mem_of_mem_filter (List.mem_of_getLast? last)
  rw [operatingPoint, bestKept numbers, if_neg present, last, Option.map_some,
    cutRecall numbers member]
  rfl

theorem lastOptimal (numbers : Numbers xs) (last : (kept xs t).getLast? = some d) :
    Optimal xs ⟨t, recallBy xs d.score.value, d.score.value⟩ := by
  have member := List.mem_of_getLast? last
  have lowest := lastLowest numbers last
  obtain ⟨among, reaches⟩ := (keptReaches numbers).mp member
  constructor
  case greatest =>
    refine ⟨⟨_, reaches, rfl⟩, ?_⟩
    rintro _ ⟨c, other, rfl⟩
    -- precision may rise again further down, so all kept cuts are compared, not neighbours
    obtain ⟨e, listed, same⟩ := reachesKept numbers other
    have alike : recallBy xs c = recallBy xs e.score.value := by
      rw [recallBy, foundSame same, recallBy]
    exact alike.le.trans (recallAntitone xs (lowest e listed))
  case lowest =>
    obtain ⟨x, listed, same⟩ := (cutsSweep numbers).attained d among
    refine ⟨⟨reaches, x, listed, congrArg Score.value same⟩, ?_⟩
    rintro _ ⟨other, y, scored, rfl⟩
    obtain ⟨e, counted, alike⟩ := reachesKept numbers other
    exact (lowest e counted).trans ((alike y scored).mp le_rfl)
  case attained => exact ⟨reaches, rfl⟩

end Points

theorem operatingPointsOptimal (relevant : List Bool) (scores : List Score)
    (even : relevant.length = scores.length) (numbers : ∀ s ∈ scores, s.isNaN = false)
    (thresholds : List EReal) :
    let xs := pair relevant scores
    let table := (SoftScores.compute xs thresholds).recallAtPrecision
    table.map (·.threshold) = thresholds ∧ ∀ entry ∈ table,
      (true ∈ relevant → (∃ c, Reaches xs entry.threshold c) → Optimal xs entry) ∧
      ((true ∉ relevant ∨ ¬∃ c, Reaches xs entry.threshold c) →
        entry.recallRate = 0 ∧ entry.cutOff = 0) := by
  intro xs table
  have numeric : Numbers xs := pairNumbers relevant numbers
  have counted : positives xs = relevant.count true := pairPositivesEven even
  refine ⟨?_, fun entry member => ?_⟩
  · simp [table, SoftScores.compute, Function.comp_def, pointThreshold]
  · obtain ⟨t, asked, rfl⟩ := List.mem_map.mp member
    rw [pointThreshold]
    refine ⟨fun some reached => ?_, fun missed => ?_⟩
    · obtain ⟨c, reaches⟩ := reached
      obtain ⟨e, listed, _⟩ := reachesKept numeric reaches
      have last := List.getLast?_eq_some_getLast (List.ne_nil_of_mem listed)
      rw [pointLast numeric (counted ▸ (List.count_pos_iff.mpr some).ne') last]
      exact lastOptimal numeric last
    · rw [pointMissed numeric]
      · exact ⟨rfl, rfl⟩
      · refine missed.imp (fun absent => counted.trans (List.count_eq_zero.mpr absent)) ?_
        intro unreached
        refine List.eq_nil_iff_forall_not_mem.mpr fun d member => unreached ?_
        exact ⟨_, ((keptReaches numeric).mp member).2⟩

/- The precisions down the ranking are 1, 1/2, 3/4 at the two ones, and 3/5. -/
def onesRelevant : List Bool := [true, false, true, true, false]

def onesBetween : List Score :=
  [⟨0x7f800000⟩, ⟨0x40000000⟩, ⟨0x3f800000⟩, ⟨0x3f800000⟩, ⟨0xff800000⟩]

theorem onesReached : Reaches (pair onesRelevant onesBetween) ((2 / 3 : ℝ) : EReal)
    (Score.value ⟨0x3f800000⟩) := by
  have numbers : Numbers (pair onesRelevant onesBetween) := by decide
  have selected : selectedBy (pair onesRelevant onesBetween) (Score.value ⟨0x3f800000⟩) = 4 :=
    (selectedLevels numbers (by decide)).trans (by decide)
  have found : foundBy (pair onesRelevant onesBetween) (Score.value ⟨0x3f800000⟩) = 3 :=
    (foundLevels numbers (by decide)).trans (by decide)
  refine ⟨by rw [selected]; decide, ?_⟩
  rw [precisionBy, selected, found, EReal.coe_le_coe_iff]
  norm_num

theorem onesOptimal : onesRelevant.length = onesBetween.length ∧
    (∀ s ∈ onesBetween, s.isNaN = false) ∧
    ∃ first second, (SoftScores.compute (pair onesRelevant onesBetween)
        [((2 / 3 : ℝ) : EReal), ⊤]).recallAtPrecision = [first, second] ∧
      Optimal (pair onesRelevant onesBetween) first ∧
      second.recallRate = 0 ∧ second.cutOff = 0 := by
  have numbers : ∀ s ∈ onesBetween, s.isNaN = false := by decide
  obtain ⟨_, entries⟩ := operatingPointsOptimal onesRelevant onesBetween rfl numbers
    [((2 / 3 : ℝ) : EReal), ⊤]
  obtain ⟨reached, _⟩ := entries _ List.mem_cons_self
  obtain ⟨_, unreached⟩ := entries _ (List.mem_cons_of_mem _ List.mem_cons_self)
  simp only [pointThreshold] at reached unreached
  refine ⟨rfl, numbers, _, _, rfl, reached (by decide) ⟨_, onesReached⟩, unreached (.inr ?_)⟩
  rintro ⟨c, reaches⟩
  exact EReal.coe_ne_top _ (top_le_iff.mp reaches.precise)

end EvalReport.Ranking
