import EvalReport.Proofs.Exact
import EvalReport.Proofs.Runs

/-! The area under the ROC curve counts pairs. Of every relevant and irrelevant example it asks
whether the relevant one scores higher, a tie being worth a half; it is worked out from ranks,
run by run of the ascending order. -/
namespace EvalReport.Ranking

open Arithmetic

/-! ### Pairs -/

def pairCount (related : Judged → Judged → Bool) (xs ys : List Judged) : Nat :=
  (xs ×ˢ ys).countP fun e => related e.1 e.2

section Pairs

variable {related : Judged → Judged → Bool} {xs ys zs : List Judged}

theorem pairCountLeft : pairCount related (xs ++ ys) zs =
    pairCount related xs zs + pairCount related ys zs := by
  simp [pairCount, SProd.sprod, List.product]

theorem pairCountRight : pairCount related xs (ys ++ zs) =
    pairCount related xs ys + pairCount related xs zs := by
  induction xs with
  | nil => rfl
  | cons x xs ih =>
    simp only [pairCount, List.product_cons, List.map_append, List.countP_append] at *
    omega

theorem pairCountAll (all : ∀ x ∈ xs, ∀ y ∈ ys, related x y = true) :
    pairCount related xs ys = xs.length * ys.length := by
  rw [pairCount, List.countP_eq_length.mpr, List.length_product]
  rintro ⟨x, y⟩ member
  obtain ⟨left, right⟩ := List.mem_product.mp member
  exact all x left y right

theorem pairCountNone (none : ∀ x ∈ xs, ∀ y ∈ ys, related x y = false) :
    pairCount related xs ys = 0 := by
  rw [pairCount, List.countP_eq_zero]
  rintro ⟨x, y⟩ member
  obtain ⟨left, right⟩ := List.mem_product.mp member
  simp [none x left y right]

end Pairs

def negatives (xs : List Judged) : Nat := xs.countP (!·.relevant)

def contests (related : Judged → Judged → Bool) (xs : List Judged) : Nat :=
  pairCount related (xs.filter (·.relevant)) (xs.filter (!·.relevant))

section Contests

variable {related : Judged → Judged → Bool} {xs ys : List Judged}

theorem contestsPerm (perm : xs.Perm ys) : contests related xs = contests related ys :=
  ((perm.filter _).product (perm.filter _)).countP_eq _

theorem contestsAll (all : ∀ x ∈ xs, ∀ y ∈ xs, related x y = true) :
    contests related xs = positives xs * negatives xs := by
  rw [contests, pairCountAll fun x left y right =>
    all x (List.mem_of_mem_filter left) y (List.mem_of_mem_filter right)]
  simp only [positives, negatives, List.countP_eq_length_filter]

theorem contestsNone (none : ∀ x ∈ xs, ∀ y ∈ xs, related x y = false) :
    contests related xs = 0 :=
  pairCountNone fun x left y right =>
    none x (List.mem_of_mem_filter left) y (List.mem_of_mem_filter right)

/- Where no example of the first list stands to one of the second, only pairs the other way
round are met across. -/
theorem contestsAppend (across : ∀ x ∈ xs, ∀ y ∈ ys, related x y = false) :
    contests related (xs ++ ys) = contests related xs + contests related ys +
      pairCount related (ys.filter (·.relevant)) (xs.filter (!·.relevant)) := by
  have none : pairCount related (xs.filter (·.relevant)) (ys.filter (!·.relevant)) = 0 :=
    pairCountNone fun x left y right =>
      across x (List.mem_of_mem_filter left) y (List.mem_of_mem_filter right)
  simp only [contests, List.filter_append, pairCountLeft, pairCountRight, none]
  omega

theorem contestsCongr {other : Judged → Judged → Bool}
    (same : ∀ x ∈ xs, ∀ y ∈ xs, related x y = other x y) :
    contests related xs = contests other xs := by
  apply List.countP_congr
  rintro ⟨x, y⟩ member
  obtain ⟨left, right⟩ := List.mem_product.mp member
  rw [same x (List.mem_of_mem_filter left) y (List.mem_of_mem_filter right)]

end Contests

/-! ### Ranks -/

def outscores (p q : Judged) : Bool := q.score.level < p.score.level

def ties (p q : Judged) : Bool := p.score.level = q.score.level

section Ranks

variable {run rest xs : List Judged}

theorem outscoresAppend (below : ∀ x ∈ run, ∀ y ∈ rest, x.score.level < y.score.level) :
    contests outscores (run ++ rest) =
      contests outscores run + contests outscores rest + positives rest * negatives run := by
  rw [contestsAppend, pairCountAll]
  · simp only [positives, negatives, List.countP_eq_length_filter]
  · intro x left y right
    exact decide_eq_true (below y (List.mem_of_mem_filter right) x (List.mem_of_mem_filter left))
  · intro x left y right
    exact decide_eq_false (Int.not_lt.mpr (Int.le_of_lt (below x left y right)))

theorem tiesAppend (below : ∀ x ∈ run, ∀ y ∈ rest, x.score.level < y.score.level) :
    contests ties (run ++ rest) = contests ties run + contests ties rest := by
  rw [contestsAppend, pairCountNone]
  · rfl
  · intro x left y right
    exact decide_eq_false (Int.ne_of_gt
      (below y (List.mem_of_mem_filter right) x (List.mem_of_mem_filter left)))
  · intro x left y right
    exact decide_eq_false (Int.ne_of_lt (below x left y right))

theorem positivesNegatives (xs : List Judged) : positives xs + negatives xs = xs.length := by
  simpa [positives, negatives] using
    (List.length_eq_countP_add_countP (fun x : Judged => x.relevant) (l := xs)).symm

variable [Fractions]

theorem positiveRanksCons (before : Nat) (sum : ℚ) (run : List Judged) (rest : List (List Judged)) :
    positiveRanks before sum (run :: rest) = positiveRanks (before + run.length)
      (sum + ((before + 1 + (before + run.length) : Nat) : ℚ) / (2 : Nat) * positives run) rest :=
  rfl

/- Against the examples up to a run, each positive of the run ranks as those before it and half
of the run; what this exceeds by the ranks among positives alone are its pairs. -/
theorem positiveRanksExact {rs : List (List Judged)} (tiers : Tiers (· < ·) rs)
    (before : Nat) (sum : ℚ) : positiveRanks before sum rs =
      sum + contests outscores rs.flatten + contests ties rs.flatten / 2 +
      positives rs.flatten * (positives rs.flatten + 1) / 2 + before * positives rs.flatten := by
  induction tiers generalizing before sum with
  | nil => simp [positiveRanks, contests, pairCount, positives]
  | @cons run rest level filled tied apart later ih =>
    have below : ∀ x ∈ run, ∀ y ∈ rest.flatten, x.score.level < y.score.level :=
      fun x left y right => tied x left ▸ apart y right
    have equal : ∀ x ∈ run, ∀ y ∈ run, x.score.level = y.score.level :=
      fun x left y right => (tied x left).trans (tied y right).symm
    have lost : contests outscores run = 0 :=
      contestsNone fun x left y right => decide_eq_false (Int.not_lt.mpr (equal x left y right).le)
    have halved : contests ties run = positives run * negatives run :=
      contestsAll fun x left y right => decide_eq_true (equal x left y right)
    have size := positivesNegatives run
    have counted : positives (run ++ rest.flatten) = positives run + positives rest.flatten :=
      List.countP_append
    rw [List.flatten_cons, positiveRanksCons, ih, outscoresAppend below, tiesAppend below, lost,
      halved, counted, ← size]
    push_cast
    ring

theorem rocAucRanks (xs : List Judged) : (rocAuc xs : Option ℚ) =
    if positives xs = 0 ∨ negatives xs = 0 then none
    else some ((positiveRanks 0 ((0 : Nat) : ℚ) (runs (ascending xs)) -
      positives xs * (positives xs + (1 : Nat)) / (2 : Nat)) / (positives xs * negatives xs)) := by
  have size := positivesNegatives xs
  have spare : xs.length - positives xs = negatives xs := by omega
  simp only [rocAuc, spare, Bool.or_eq_true, decide_eq_true_eq]
  rfl

theorem rocAucLevels {xs : List Judged} (numbers : Numbers xs) : (rocAuc xs : Option ℚ) =
    if positives xs = 0 ∨ negatives xs = 0 then none
    else some (((contests outscores xs : ℚ) + contests ties xs / 2) /
      (positives xs * negatives xs)) := by
  have same := ascendingPerm xs
  have counted : positives (ascending xs) = positives xs := same.countP_eq _
  have ranks := positiveRanksExact (ascendingTiers numbers) 0 (0 : Nat)
  rw [runsWhole, counted, contestsPerm same, contestsPerm same] at ranks
  rw [rocAucRanks, ranks]
  congr 3
  push_cast
  ring

end Ranks

/-! ### Numeric comparison -/

noncomputable def won (xs : List Judged) : Nat :=
  contests (fun p q => q.score.value < p.score.value) xs

noncomputable def drawn (xs : List Judged) : Nat :=
  contests (fun p q => p.score.value = q.score.value) xs

theorem wonLevels {xs : List Judged} (numbers : Numbers xs) : won xs = contests outscores xs :=
  contestsCongr fun x left y right =>
    decide_eq_decide.mpr (Score.valueLt (numbers y right) (numbers x left))

theorem drawnLevels {xs : List Judged} (numbers : Numbers xs) : drawn xs = contests ties xs :=
  contestsCongr fun x left y right =>
    decide_eq_decide.mpr (Score.valueEq (numbers x left) (numbers y right))

/-! ### Relevances and scores given apart -/

theorem pairNegatives (relevant : List Bool) (scores : List Score) :
    negatives (pair relevant scores) = (relevant.take scores.length).count false := by
  rw [← pairRelevant, List.count, List.countP_map]
  apply List.countP_congr
  simp

theorem pairCut (relevant : List Bool) (scores : List Score) :
    pair (relevant.take (min relevant.length scores.length))
      (scores.take (min relevant.length scores.length)) = pair relevant scores := by
  rw [pair, ← List.take_zipWith, List.take_of_length_le]
  · rfl
  · simp

theorem rocAucCountsPairs [Fractions] (relevant : List Bool) (scores : List Score)
    (numbers : ∀ s ∈ scores, s.isNaN = false) :
    let n := min relevant.length scores.length
    let judged := relevant.take n
    let xs := pair judged (scores.take n)
    (rocAuc (pair relevant scores) : Option ℚ) = if true ∉ judged ∨ false ∉ judged then none
      else some (((won xs : ℚ) + drawn xs / 2) / (judged.count true * judged.count false)) := by
  intro n judged xs
  have cut : xs = pair relevant scores := pairCut relevant scores
  have width : (scores.take n).length = n := by simp [n]
  have whole : judged.take (scores.take n).length = judged := by simp [judged, width]
  have some : positives xs = judged.count true := by rw [pairPositives, whole]
  have others : negatives xs = judged.count false := by rw [pairNegatives, whole]
  have numeric : Numbers xs := cut ▸ pairNumbers relevant numbers
  rw [← cut, rocAucLevels numeric, wonLevels numeric, drawnLevels numeric, some, others]
  simp only [List.count_eq_zero]

/- The last relevance has no score. Of the four pairs one is won, the two zeros tie, and so do
the two highest scores. -/
def spareRelevance : List Bool := [true, false, true, false, true]

def zerosAndOnes : List Score := [⟨0x3f800000⟩, ⟨0⟩, ⟨0x80000000⟩, ⟨0x3f800000⟩]

theorem zerosAndOnesRanked : (∀ s ∈ zerosAndOnes, s.isNaN = false) ∧
    (rocAuc (pair spareRelevance zerosAndOnes) : Option ℚ) = some (1 / 2) := by
  have numbers : ∀ s ∈ zerosAndOnes, s.isNaN = false := by decide
  have numeric : Numbers (pair (spareRelevance.take 4) zerosAndOnes) := by decide
  have one : won (pair (spareRelevance.take 4) zerosAndOnes) = 1 :=
    (wonLevels numeric).trans (by decide)
  have two : drawn (pair (spareRelevance.take 4) zerosAndOnes) = 2 :=
    (drawnLevels numeric).trans (by decide)
  refine ⟨numbers, (rocAucCountsPairs spareRelevance zerosAndOnes numbers).trans ?_⟩
  rw [if_neg (by decide)]
  change some (((won (pair (spareRelevance.take 4) zerosAndOnes) : ℚ) +
    drawn (pair (spareRelevance.take 4) zerosAndOnes) / 2) / ((2 : Nat) * (2 : Nat))) = _
  rw [one, two]
  norm_num

end EvalReport.Ranking
