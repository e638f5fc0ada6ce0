import EvalReport.Proofs.Cuts
import EvalReport.Proofs.Exact
import Mathlib.Algebra.Order.BigOperators.Group.List

/-! Average precision without sorting: the mean, over the relevant examples, of the precision of
a cut-off at their own scores. It is worked out from the cuts, each worth its precision times the
recall gained there. -/
namespace EvalReport.Ranking

open Arithmetic

def precisionAt (xs : List Judged) (level : Int) : ℚ := foundAt xs level / selectedAt xs level

theorem precisionPerm {xs ys : List Judged} (perm : xs.Perm ys) :
    precisionAt xs = precisionAt ys := by
  funext level
  rw [precisionAt, foundPerm perm, selectedPerm perm, precisionAt]

theorem precisionLevels {xs : List Judged} (numbers : Numbers xs) {s : Score}
    (number : s.isNaN = false) : precisionBy xs s.value = precisionAt xs s.level := by
  rw [precisionBy, foundLevels numbers number, selectedLevels numbers number, precisionAt]

/-! ### Area under the cuts -/

theorem sumTied {run : List Judged} {level : Int} (tied : ∀ x ∈ run, x.score.level = level)
    (worth : Int → ℚ) : ((run.filter (·.relevant)).map fun x => worth x.score.level).sum =
      positives run * worth level := by
  have alike : (run.filter (·.relevant)).map (fun x => worth x.score.level) =
      (run.filter (·.relevant)).map fun _ => worth level :=
    List.map_congr_left fun x member => congrArg worth (tied x (List.mem_of_mem_filter member))
  rw [alike, List.map_const', List.sum_replicate, nsmul_eq_mul, positives,
    List.countP_eq_length_filter]

/- The area up to a cut and the recall reached there, from those at the cut before. -/
def areaStep (total : Nat) : ℚ × ℚ → Cut → ℚ × ℚ
  | (area, before), c =>
    (area + (c.positives / total - before) * (c.positives / c.selected), c.positives / total)

/- A run gains the recall of its own positives, at the precision of its cut. -/
theorem areaExact {rs : List (List Judged)} (tiers : Tiers (· > ·) rs) {front : List Judged}
    (above : Above front rs) (total : Nat) (area : ℚ) :
    ((cutsFrom (positives front) front.length rs).foldl (areaStep total)
      (area, positives front / total)).1 = area + ((rs.flatten.filter (·.relevant)).map
        fun x => precisionAt (front ++ rs.flatten) x.score.level).sum / total := by
  induction tiers generalizing front area with
  | nil => simp [cutsFrom]
  | @cons run rest level filled tied apart later ih =>
    have before := aboveRun above filled tied
    have counted : positives (front ++ run) = positives front + positives run :=
      List.countP_append
    have here : precisionAt (front ++ (run ++ rest.flatten)) level =
        positives (front ++ run) / (front ++ run).length := by
      rw [precisionAt, foundFrom before tied apart, selectedFrom before tied apart]
    -- the recall before is carried along, so the difference leaves the positives of the run
    rw [cutsFromCons filled, List.foldl_cons, areaStep, ih (aboveRest above tied apart),
      List.flatten_cons, List.filter_append, List.map_append, List.sum_append,
      sumTied tied (precisionAt (front ++ (run ++ rest.flatten))), here, List.append_assoc]
    simp only [counted]
    push_cast
    ring

section Average

variable [Fractions]

theorem averagePrecisionArea (total : Nat) (cs : List Cut) : (averagePrecision total cs : ℚ) =
    if total = 0 then 0 else (cs.foldl (areaStep total) (0, 0)).1 := by
  have step : (fun (state : ℚ × ℚ) (c : Cut) => (state.1 + (c.recallRate total - state.2) *
      c.precision, (c.recallRate total : ℚ))) = areaStep total := by
    funext ⟨area, before⟩ c
    simp only [areaStep, Cut.recallRate, Cut.precision, shareFraction]
  rw [← step]
  rfl

theorem averagePrecisionLevels {xs : List Judged} (numbers : Numbers xs) :
    (averagePrecision (positives xs) (cuts (descending xs)) : ℚ) = if positives xs = 0 then 0
      else ((xs.filter (·.relevant)).map fun x => precisionAt xs x.score.level).sum /
        positives xs := by
  have same := descendingPerm xs
  have area := areaExact (descendingTiers numbers) (by simp [Above] : Above [] _) (positives xs) 0
  rw [List.nil_append, runsWhole, precisionPerm same, ((same.filter _).map _).sum_eq] at area
  rw [averagePrecisionArea]
  congr 1
  simpa [cuts, positives] using area

end Average

/-! ### Numeric comparison -/

noncomputable def meanPrecision (xs : List Judged) : ℚ :=
  ((xs.filter (·.relevant)).map fun x => precisionBy xs x.score.value).sum / positives xs

theorem meanPrecisionLevels {xs : List Judged} (numbers : Numbers xs) : meanPrecision xs =
    ((xs.filter (·.relevant)).map fun x => precisionAt xs x.score.level).sum / positives xs := by
  rw [meanPrecision, List.map_congr_left fun x member =>
    precisionLevels numbers (numbers x (List.mem_of_mem_filter member))]

theorem averagePrecisionMean [Fractions] {xs : List Judged} (numbers : Numbers xs) :
    (averagePrecision (positives xs) (cuts (descending xs)) : ℚ) =
      if positives xs = 0 then 0 else meanPrecision xs := by
  rw [averagePrecisionLevels numbers, meanPrecisionLevels numbers]

theorem precisionPositive {xs : List Judged} {x : Judged} (member : x ∈ xs)
    (relevant : x.relevant = true) : 0 < precisionBy xs x.score.value := by
  have found : 0 < foundBy xs x.score.value :=
    List.countP_pos_iff.mpr ⟨x, member, by simp [relevant]⟩
  have selected := Nat.lt_of_lt_of_le found (foundSelected xs x.score.value)
  exact div_pos (Nat.cast_pos.mpr found) (Nat.cast_pos.mpr selected)

theorem precisionBounded (xs : List Judged) (c : EReal) : precisionBy xs c ≤ 1 :=
  div_le_one_of_le₀ (Nat.cast_le.mpr (foundSelected xs c)) (Nat.cast_nonneg _)

theorem meanPrecisionPositive {xs : List Judged} (some : positives xs ≠ 0) :
    0 < meanPrecision xs := by
  have counted : 0 < positives xs := Nat.pos_of_ne_zero some
  refine div_pos (List.sum_pos _ ?_ ?_) (Nat.cast_pos.mpr counted)
  · intro precision member
    obtain ⟨x, kept, rfl⟩ := List.mem_map.mp member
    obtain ⟨listed, relevant⟩ := List.mem_filter.mp kept
    exact precisionPositive listed relevant
  · rw [positives, List.countP_eq_length_filter] at counted
    simpa using List.ne_nil_of_length_pos counted

theorem meanPrecisionBounded (xs : List Judged) : meanPrecision xs ≤ 1 := by
  refine div_le_one_of_le₀ ?_ (Nat.cast_nonneg _)
  have bound := List.sum_le_card_nsmul
    ((xs.filter (·.relevant)).map fun x => precisionBy xs x.score.value) 1 ?_
  · simpa [positives, List.countP_eq_length_filter] using bound
  · intro precision member
    obtain ⟨x, _, rfl⟩ := List.mem_map.mp member
    exact precisionBounded xs _

/-! ### Relative order -/

def SameOrder (scores others : List Score) : Prop :=
  scores.length = others.length ∧ ∀ p ∈ scores.zip others, ∀ q ∈ scores.zip others,
    p.1.value ≤ q.1.value ↔ p.2.value ≤ q.2.value

def firstOf (t : Bool × Score × Score) : Judged := ⟨t.1, t.2.1⟩
def secondOf (t : Bool × Score × Score) : Judged := ⟨t.1, t.2.2⟩

theorem meanPrecisionOrder {ts : List (Bool × Score × Score)}
    (alike : ∀ s ∈ ts, ∀ t ∈ ts, (firstOf s).score.value ≤ (firstOf t).score.value ↔
      (secondOf s).score.value ≤ (secondOf t).score.value) :
    meanPrecision (ts.map firstOf) = meanPrecision (ts.map secondOf) := by
  have counted : positives (ts.map firstOf) = positives (ts.map secondOf) := by
    rw [positives, positives, List.countP_map, List.countP_map]
    rfl
  have precise : ∀ t ∈ ts, precisionBy (ts.map firstOf) (firstOf t).score.value =
      precisionBy (ts.map secondOf) (secondOf t).score.value := by
    intro t member
    have found : foundBy (ts.map firstOf) (firstOf t).score.value =
        foundBy (ts.map secondOf) (secondOf t).score.value := by
      rw [foundBy, foundBy, List.countP_map, List.countP_map]
      exact foundCongr (alike t member)
    have selected : selectedBy (ts.map firstOf) (firstOf t).score.value =
        selectedBy (ts.map secondOf) (secondOf t).score.value := by
      rw [selectedBy, selectedBy, List.countP_map, List.countP_map]
      exact selectedCongr (alike t member)
    rw [precisionBy, found, selected, precisionBy]
  rw [meanPrecision, meanPrecision, counted, List.filter_map, List.filter_map, List.map_map,
    List.map_map]
  congr 2
  exact List.map_congr_left fun t member => precise t (List.mem_of_mem_filter member)

theorem meanPrecisionSameOrder (relevant : List Bool) {scores others : List Score}
    (same : SameOrder scores others) :
    meanPrecision (pair relevant scores) = meanPrecision (pair relevant others) := by
  obtain ⟨even, alike⟩ := same
  have first : (relevant.zip (scores.zip others)).map firstOf = pair relevant scores := by
    have left : (scores.zip others).map Prod.fst = scores := List.map_fst_zip even.le
    rw [pair, ← left, List.zipWith_map_right, List.zip, List.map_zipWith, left]
    rfl
  have second : (relevant.zip (scores.zip others)).map secondOf = pair relevant others := by
    have right : (scores.zip others).map Prod.snd = others := List.map_snd_zip even.ge
    rw [pair, ← right, List.zipWith_map_right, List.zip, List.map_zipWith, right]
    rfl
  rw [← first, ← second]
  refine meanPrecisionOrder fun s left t right => ?_
  exact alike _ (List.of_mem_zip left).2 _ (List.of_mem_zip right).2

theorem sameOrderLevels {scores others : List Score} (numbers : ∀ s ∈ scores, s.isNaN = false)
    (otherNumbers : ∀ s ∈ others, s.isNaN = false) (even : scores.length = others.length)
    (alike : ∀ p ∈ scores.zip others, ∀ q ∈ scores.zip others,
      p.1.level ≤ q.1.level ↔ p.2.level ≤ q.2.level) : SameOrder scores others := by
  refine ⟨even, fun p first q second => ?_⟩
  obtain ⟨left, right⟩ := List.of_mem_zip first
  obtain ⟨leftToo, rightToo⟩ := List.of_mem_zip second
  rw [Score.valueLe (numbers _ left) (numbers _ leftToo),
    Score.valueLe (otherNumbers _ right) (otherNumbers _ rightToo)]
  exact alike p first q second

theorem averagePrecisionSortFree [Fractions] (relevant : List Bool) (scores : List Score)
    (even : relevant.length = scores.length) (numbers : ∀ s ∈ scores, s.isNaN = false)
    (thresholds : List ℚ) :
    let xs := pair relevant scores
    let average := (SoftScores.compute xs thresholds).averagePrecision
    (true ∉ relevant → average = 0) ∧
    (true ∈ relevant → 0 < average ∧ average ≤ 1 ∧
      average = ((xs.filter (·.relevant)).map fun x =>
        (foundBy xs x.score.value : ℚ) / selectedBy xs x.score.value).sum /
          relevant.count true) ∧
    ∀ others, (∀ s ∈ others, s.isNaN = false) → SameOrder scores others →
      (SoftScores.compute (pair relevant others) thresholds).averagePrecision = average := by
  intro xs average
  have counted : positives xs = relevant.count true := pairPositivesEven even
  have mean : average = if positives xs = 0 then 0 else meanPrecision xs :=
    averagePrecisionMean (pairNumbers relevant numbers)
  refine ⟨fun none => ?_, fun some => ?_, fun others otherNumbers same => ?_⟩
  · rw [mean, if_pos (counted.trans (List.count_eq_zero.mpr none))]
  · have present : positives xs ≠ 0 := counted ▸ (List.count_pos_iff.mpr some).ne'
    rw [mean, if_neg present]
    refine ⟨meanPrecisionPositive present, meanPrecisionBounded xs, ?_⟩
    rw [← counted]
    rfl
  · have total : positives (pair relevant others) = positives xs :=
      (pairPositivesEven (even.trans same.1)).trans counted.symm
    rw [mean, meanPrecisionSameOrder relevant same, ← total]
    exact averagePrecisionMean (pairNumbers relevant otherNumbers)

/- The second and third example tie; a relevant one is at either end. -/
def endsRelevant : List Bool := [true, false, true, false, true]

def zerosAmid : List Score := [⟨0x7f800000⟩, ⟨0⟩, ⟨0x80000000⟩, ⟨0x3f000000⟩, ⟨0xbf800000⟩]

def onesAmid : List Score :=
  [⟨0x40000000⟩, ⟨0x3f800000⟩, ⟨0x3f800000⟩, ⟨0x3fc00000⟩, ⟨0x3f000000⟩]

theorem zerosAmidAveraged : endsRelevant.length = zerosAmid.length ∧
    (∀ s ∈ zerosAmid, s.isNaN = false) ∧ SameOrder zerosAmid onesAmid ∧
    (SoftScores.compute (pair endsRelevant zerosAmid) ([] : List ℚ)).averagePrecision = 7 / 10 ∧
    (SoftScores.compute (pair endsRelevant onesAmid) ([] : List ℚ)).averagePrecision = 7 / 10 := by
  have numbers : ∀ s ∈ zerosAmid, s.isNaN = false := by decide
  have otherNumbers : ∀ s ∈ onesAmid, s.isNaN = false := by decide
  have same : SameOrder zerosAmid onesAmid :=
    sameOrderLevels numbers otherNumbers rfl (by decide)
  obtain ⟨_, mean, order⟩ := averagePrecisionSortFree endsRelevant zerosAmid rfl numbers []
  obtain ⟨_, _, average⟩ := mean (by decide)
  have value : ((SoftScores.compute (pair endsRelevant zerosAmid) []).averagePrecision : ℚ) =
      7 / 10 := by
    have numeric : Numbers (pair endsRelevant zerosAmid) := by decide
    refine average.trans ((meanPrecisionLevels numeric).trans ?_)
    decide +kernel
  exact ⟨rfl, numbers, same, value, (order onesAmid otherNumbers same).trans value⟩

end EvalReport.Ranking
