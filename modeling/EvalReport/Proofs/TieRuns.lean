import EvalReport.Proofs.PairCount
import EvalReport.Proofs.Positions
import EvalReport.Proofs.Ties

/-! The loops of a ranking are safe on any input. Tie runs are found by position, each looked
through from its first score on; they fill the positions without gap or overlap, even where a NaN
differs from itself. From this alone the ranks add up, and the area under the ROC curve is a
share. -/
namespace EvalReport.Ranking

open Arithmetic

/-! ### Tie runs by position -/

section Loops

variable (scores : List Score) (order : List Nat)

def scoreAt? (i : Nat) : Option Score := order[i]?.bind (scores[·]?)

def runStop? (n start stop : Nat) : Option Nat :=
  if stop < n then
    match scoreAt? scores order stop, scoreAt? scores order start with
    | some next, some first =>
      if next.same first then runStop? n start (stop + 1) else some stop
    | _, _ => none
  else some stop
termination_by n - stop

variable {scores order}

theorem runStopBeyond {n start stop found : Nat}
    (reached : runStop? scores order n start stop = some found) : stop ≤ found := by
  fun_induction runStop? scores order n start stop with
  | case1 stop inside next first here there same ih => exact Nat.le_of_succ_le (ih reached)
  | case2 stop inside next first here there differ => exact (Option.some.inj reached).le
  | case3 => contradiction
  | case4 stop outside => exact (Option.some.inj reached).le

variable (scores order)

def tieRuns? (n start : Nat) : Option (List (Nat × Nat)) :=
  if start < n then
    match _ : runStop? scores order n start (start + 1) with
    | some stop => (tieRuns? n stop).map ((start, stop) :: ·)
    | none => none
  else some []
termination_by n - start
decreasing_by
  have beyond := runStopBeyond ‹_›
  omega

end Loops

def slice? {β : Type} (start stop : Nat) (xs : List β) : Option (List β) :=
  if start ≤ stop ∧ stop ≤ xs.length then some ((xs.take stop).drop start) else none

section Sums

variable {α : Type} [Arithmetic α]

def averageRank (run : Nat × Nat) : α := ofCount (run.1 + 1 + run.2) / ofCount 2

def rankSum? (relevant : List Bool) (order : List Nat) (sum : α) : List (Nat × Nat) → Option α
  | [] => some sum
  | run :: rest => do
    let tied ← (← slice? run.1 run.2 order).mapM (relevant[·]?)
    rankSum? relevant order (sum + averageRank run * ofCount (tied.count true)) rest

def rocAuc? (relevant : List Bool) (scores : List Score) : Option (Option α) := do
  let n := min relevant.length scores.length
  let p := (← slice? 0 n relevant).count true
  if p = 0 || n - p = 0 then some none
  else
    let order ← order? (fun a b => a.place ≤ b.place) n scores
    let ranks : α ← rankSum? relevant order zero (← tieRuns? scores order n 0)
    let least : α := ofCount p * (ofCount p + ofCount 1) / ofCount 2
    some (some ((ranks - least) / (ofCount p * ofCount (n - p))))

def compute? (relevant : List Bool) (scores : List Score) (thresholds : List α) :
    Option (SoftScores α) := do
  let (relevantSorted, scoresSorted) ← sorted? relevant scores
  let total := relevantSorted.count true
  let cs ← cuts? relevantSorted scoresSorted
  some ⟨averagePrecision total cs, thresholds.map (operatingPoint total cs),
    ← rocAuc? relevant scores⟩

end Sums

/-! ### The runs of a ranking -/

def stretches (start : Nat) : List (List Judged) → List (Nat × Nat)
  | [] => []
  | run :: rest => (start, start + run.length) :: stretches (start + run.length) rest

/- Ties go over from one neighbour to the next, so all of a run tie with its first. -/
theorem runsFront (x : Judged) (rest : List Judged) : runs (x :: rest) =
    (x :: rest.takeWhile (·.score.same x.score)) ::
      runs (rest.dropWhile (·.score.same x.score)) := by
  induction rest generalizing x with
  | nil => rfl
  | cons y rest ih =>
    rw [List.takeWhile_cons, List.dropWhile_cons, Score.sameComm y.score]
    cases tied : x.score.same y.score with
    | false => exact runsApart (by simp [tied])
    | true =>
      simp only [Score.sameTied tied, if_true]
      exact runsTied tied (ih y)

section Ranked

variable {relevant : List Bool} {scores : List Score} {order : List Nat} {ranked : List Judged}
  (places : Places relevant scores order ranked)
include places

theorem scoreAtPlace (i : Nat) : scoreAt? scores order i = ranked[i]?.map (·.score) := by
  have listed := congrArg (·[i]?) places.scores
  simp only [List.getElem?_map] at listed
  rw [scoreAt?]
  cases here : order[i]? with
  | none => simpa [here] using listed
  | some offset => cases there : ranked[i]? <;> simp_all

theorem runStopExact (front : List Judged) {rest : List Judged} {start : Nat} {x : Judged}
    (whole : ranked = front ++ rest) (first : ranked[start]? = some x) :
    runStop? scores order ranked.length start front.length =
      some (front.length + (rest.takeWhile (·.score.same x.score)).length) := by
  induction rest generalizing front with
  | nil =>
    rw [runStop?, if_neg (by simp [whole])]
    rfl
  | cons y rest ih =>
    have inside : front.length < ranked.length := by simp [whole]
    have here : ranked[front.length]? = some y := by simp [whole]
    rw [runStop?, if_pos inside, scoreAtPlace places, scoreAtPlace places, here, first]
    simp only [Option.map_some]
    rw [List.takeWhile_cons]
    cases y.score.same x.score with
    | false => simp
    | true =>
      have later := ih (front ++ [y]) (by simp [whole])
      rw [List.length_append, List.length_singleton] at later
      simp only [if_true, later, List.length_cons]
      congr 1
      omega

theorem tieRunsExact (front : List Judged) {rest : List Judged} (whole : ranked = front ++ rest) :
    tieRuns? scores order ranked.length front.length =
      some (stretches front.length (runs rest)) := by
  cases rest with
  | nil =>
    rw [tieRuns?, if_neg (by simp [whole])]
    rfl
  | cons x rest =>
    have inside : front.length < ranked.length := by simp [whole]
    have first : ranked[front.length]? = some x := by simp [whole]
    have split : ranked = (front ++ [x]) ++ rest := by simp [whole]
    have found := runStopExact places (front ++ [x]) split first
    have shorter : (rest.dropWhile (·.score.same x.score)).length < (x :: rest).length :=
      Nat.lt_succ_of_le (List.dropWhile_suffix _).length_le
    have behind : ranked = (front ++ x :: rest.takeWhile (·.score.same x.score)) ++
        rest.dropWhile (·.score.same x.score) := by
      rw [whole, List.append_assoc, List.cons_append, List.takeWhile_append_dropWhile]
    have later := tieRunsExact _ behind
    have size : (front ++ [x]).length + (rest.takeWhile (·.score.same x.score)).length =
        (front ++ x :: rest.takeWhile (·.score.same x.score)).length := by
      simp only [List.length_append, List.length_cons, List.length_nil]
      omega
    rw [size, List.length_append, List.length_singleton] at found
    rw [tieRuns?, if_pos inside]
    split
    · rename_i stop reached
      obtain rfl := Option.some.inj (reached.symm.trans found)
      rw [later, runsFront, stretches, Option.map_some, List.length_append]
    · rename_i reached
      rw [found] at reached
      contradiction
termination_by rest.length

theorem sliceRun {front run rest : List Judged} (whole : ranked = front ++ (run ++ rest)) :
    ∃ offsets, slice? front.length (front.length + run.length) order = some offsets ∧
      offsets.mapM (relevant[·]?) = some (run.map (·.relevant)) := by
  have size : order.length = ranked.length := by
    simpa using congrArg List.length places.relevant
  have within : front.length + run.length ≤ order.length := by
    simp only [size, whole, List.length_append]
    omega
  refine ⟨_, if_pos ⟨Nat.le_add_right _ _, within⟩, mapMAll ?_⟩
  rw [List.map_drop, List.map_take, places.relevant, whole, ← List.append_assoc, List.map_append,
    List.map_append, List.take_left' (by simp), List.map_append, List.map_append,
    List.drop_left' (by simp)]

theorem rankSumExact {α : Type} [Arithmetic α] (front : List Judged) {rs : List (List Judged)}
    (whole : ranked = front ++ rs.flatten) (sum : α) :
    rankSum? relevant order sum (stretches front.length rs) =
      some (positiveRanks front.length sum rs) := by
  induction rs generalizing front sum with
  | nil => rfl
  | cons run rest ih =>
    obtain ⟨offsets, sliced, tied⟩ := sliceRun places whole
    have later := ih (front ++ run) (by rw [whole, List.append_assoc]; rfl)
      (sum + averageRank (front.length, front.length + run.length) * ofCount (positives run))
    rw [List.length_append] at later
    simp only [stretches, rankSum?, sliced, tied, Option.bind_eq_bind, Option.bind_some,
      relevantCount]
    exact later

end Ranked

theorem tieRunsFound (relevant : List Bool) (scores : List Score) :
    ∃ order, order? (fun a b => a.place ≤ b.place) (min relevant.length scores.length) scores =
        some order ∧ Places relevant scores order (ascending (pair relevant scores)) ∧
      tieRuns? scores order (min relevant.length scores.length) 0 =
        some (stretches 0 (runs (ascending (pair relevant scores)))) := by
  obtain ⟨order, ordered, places⟩ := orderPlaces (fun a b => a.place ≤ b.place) relevant scores
  have size : (ascending (pair relevant scores)).length = min relevant.length scores.length := by
    simp [ascending, pair]
  exact ⟨order, ordered, places, size ▸ tieRunsExact places [] rfl⟩

theorem rocAucInBounds {α : Type} [Arithmetic α] (relevant : List Bool) (scores : List Score) :
    (rocAuc? relevant scores : Option (Option α)) = some (rocAuc (pair relevant scores)) := by
  obtain ⟨order, ordered, places, found⟩ := tieRunsFound relevant scores
  have size : (pair relevant scores).length = min relevant.length scores.length := by simp [pair]
  have judged : slice? 0 (min relevant.length scores.length) relevant =
      some (relevant.take (min relevant.length scores.length)) :=
    if_pos ⟨Nat.zero_le _, Nat.min_le_left _ _⟩
  have counted : (relevant.take (min relevant.length scores.length)).count true =
      positives (pair relevant scores) := by
    rw [pairPositives, Nat.min_comm, ← List.take_eq_take_min]
  have ranks : rankSum? relevant order (zero : α)
      (stretches 0 (runs (ascending (pair relevant scores)))) =
        some (positiveRanks 0 zero (runs (ascending (pair relevant scores)))) :=
    rankSumExact places [] (runsWhole _).symm zero
  simp only [rocAuc?, judged, counted, ordered, found, ranks, Option.bind_eq_bind,
    Option.bind_some, rocAuc, size]
  split <;> rfl

theorem computeInBounds {α : Type} [Arithmetic α] (relevant : List Bool) (scores : List Score)
    (thresholds : List α) : compute? relevant scores thresholds =
      some (SoftScores.compute (pair relevant scores) thresholds) := by
  simp only [compute?, sortedPlaces, cutsInBounds, rocAucInBounds, Option.bind_eq_bind,
    Option.bind_some, relevantCount, ← cutsPositions]
  rw [positivesDescending]
  rfl

/-! ### What the runs alone tell -/

theorem stretchesFilled {rs : List (List Judged)} (filled : [] ∉ rs) (start : Nat) :
    ∀ run ∈ stretches start rs, run.1 < run.2 := by
  induction rs generalizing start with
  | nil => simp [stretches]
  | cons run rest ih =>
    have some : run ≠ [] := fun empty => filled (empty ▸ List.mem_cons_self)
    have length := List.length_pos_iff.mpr some
    refine List.forall_mem_cons.mpr ⟨Nat.lt_add_of_pos_right length, ?_⟩
    exact ih (fun member => filled (List.mem_cons_of_mem _ member)) _

theorem stretchesCover (rs : List (List Judged)) (start : Nat) :
    (stretches start rs).flatMap (fun run => List.range' run.1 (run.2 - run.1)) =
      List.range' start rs.flatten.length := by
  induction rs generalizing start with
  | nil => rfl
  | cons run rest ih =>
    rw [stretches, List.flatMap_cons, ih, Nat.add_sub_cancel_left, List.flatten_cons,
      List.length_append, ← List.range'_append, Nat.one_mul]

section Exact

variable [Fractions]

theorem stretchesRanks (rs : List (List Judged)) (start : Nat) :
    ((stretches start rs).flatMap fun run =>
        List.replicate (run.2 - run.1) (averageRank run : ℚ)).sum =
      rs.flatten.length * (rs.flatten.length + 1) / 2 + start * rs.flatten.length := by
  induction rs generalizing start with
  | nil => simp [stretches]
  | cons run rest ih =>
    have rank : (averageRank (start, start + run.length) : ℚ) =
        ((start + 1 + (start + run.length) : Nat) : ℚ) / (2 : Nat) := rfl
    rw [stretches, List.flatMap_cons, List.sum_append, ih, Nat.add_sub_cancel_left,
      List.sum_replicate, rank, List.flatten_cons, List.length_append, nsmul_eq_mul]
    push_cast
    ring

/- Past the ranks among the relevant examples alone, each of them gains at most one for each of the
others, whatever the runs are. -/
theorem positiveRanksBetween (rs : List (List Judged)) (before : Nat) (sum : ℚ) :
    ∃ gained : ℚ, 0 ≤ gained ∧ gained ≤ positives rs.flatten * negatives rs.flatten ∧
      positiveRanks before sum rs = sum + gained +
        positives rs.flatten * (positives rs.flatten + 1) / 2 + before * positives rs.flatten := by
  induction rs generalizing before sum with
  | nil => exact ⟨0, le_refl 0, by simp [positives], by simp [positiveRanks, positives]⟩
  | cons run rest ih =>
    obtain ⟨gained, least, most, ranks⟩ := ih (before + run.length)
      (sum + ((before + 1 + (before + run.length) : Nat) : ℚ) / (2 : Nat) * positives run)
    have size := positivesNegatives run
    have some : positives (run ++ rest.flatten) = positives run + positives rest.flatten :=
      List.countP_append
    have others : negatives (run ++ rest.flatten) = negatives run + negatives rest.flatten :=
      List.countP_append
    refine ⟨gained + positives run * negatives run / 2 + positives rest.flatten * negatives run,
      by positivity, ?_, ?_⟩
    · rw [List.flatten_cons, some, others]
      have across : (0 : ℚ) ≤ positives run * negatives rest.flatten := by positivity
      have within : (0 : ℚ) ≤ positives run * negatives run := by positivity
      push_cast
      linarith
    · rw [positiveRanksCons, ranks, List.flatten_cons, some, ← size]
      push_cast
      ring

theorem rocAucShare {xs : List Judged} {area : ℚ} (reported : rocAuc xs = some area) :
    0 ≤ area ∧ area ≤ 1 := by
  rw [rocAucRanks] at reported
  split at reported
  · contradiction
  · have counted : positives (ascending xs) = positives xs := (ascendingPerm xs).countP_eq _
    have others : negatives (ascending xs) = negatives xs := (ascendingPerm xs).countP_eq _
    obtain ⟨gained, least, most, ranks⟩ := positiveRanksBetween (runs (ascending xs)) 0 (0 : Nat)
    rw [runsWhole, counted] at ranks
    rw [runsWhole, counted, others] at most
    have share : area = gained / (positives xs * negatives xs) := by
      rw [← Option.some.inj reported, ranks]
      push_cast
      ring
    rw [share]
    exact ⟨div_nonneg least (by positivity), div_le_one_of_le₀ most (by positivity)⟩

end Exact

theorem loopsSafe [Fractions] (relevant : List Bool) (scores : List Score) :
    let n := min relevant.length scores.length
    let xs := pair relevant scores
    (∀ {α : Type} [Arithmetic α] (thresholds : List α),
      compute? relevant scores thresholds = some (SoftScores.compute xs thresholds) ∧
      compute? (relevant.take n) (scores.take n) thresholds =
        compute? relevant scores thresholds) ∧
    (∃ order found, order? (fun a b => a.place ≤ b.place) n scores = some order ∧
      order.Perm (List.range n) ∧ tieRuns? scores order n 0 = some found ∧
      (∀ run ∈ found, run.1 < run.2) ∧
      (found.flatMap fun run => List.range' run.1 (run.2 - run.1)) = List.range n ∧
      (found.flatMap fun run => List.replicate (run.2 - run.1) (averageRank run : ℚ)).sum =
        n * (n + 1) / 2) ∧
    ∀ area : ℚ, rocAuc xs = some area → 0 ≤ area ∧ area ≤ 1 := by
  intro n xs
  obtain ⟨order, ordered, _, found⟩ := tieRunsFound relevant scores
  have size : (runs (ascending xs)).flatten.length = n := by
    simp [runsWhole, ascending, xs, pair, n]
  refine ⟨fun thresholds => ⟨computeInBounds relevant scores thresholds, ?_⟩,
    ⟨order, _, ordered, orderPerm (Nat.min_le_right _ _) ordered, found,
      stretchesFilled (List.nil_notMem_splitBy _ _) 0, ?_, ?_⟩, fun _ => rocAucShare⟩
  · rw [computeInBounds, computeInBounds, pairCut]
  · rw [stretchesCover, size, List.range_eq_range']
  · rw [stretchesRanks, size, Nat.cast_zero, zero_mul, add_zero]

/- The zeros tie. Each NaN has a run of its own, though both are the same word. -/
def nansAmid : List Score := [⟨0x7fc00000⟩, ⟨0x7fc00000⟩, ⟨0x80000000⟩, ⟨0⟩]

theorem nansRunAlone :
    order? (fun a b => a.place ≤ b.place) 4 nansAmid = some [2, 3, 0, 1] ∧
    tieRuns? nansAmid [2, 3, 0, 1] 4 0 = some [(0, 2), (2, 3), (3, 4)] ∧
    ∃ area : ℚ, rocAuc (pair spareRelevance nansAmid) = some area ∧ 0 ≤ area ∧ area ≤ 1 := by
  have ordered : order? (fun a b => a.place ≤ b.place) 4 nansAmid = some [2, 3, 0, 1] := by
    rw [orderKeyed _ (by decide)]
    simp +decide [nansAmid, List.mergeSort]
  have ranked : ascending (pair spareRelevance nansAmid) =
      [⟨true, ⟨0x80000000⟩⟩, ⟨false, ⟨0⟩⟩, ⟨true, ⟨0x7fc00000⟩⟩, ⟨false, ⟨0x7fc00000⟩⟩] := by
    simp +decide [ascending, pair, spareRelevance, nansAmid, List.mergeSort]
  have listed : stretches 0 (runs (ascending (pair spareRelevance nansAmid))) =
      [(0, 2), (2, 3), (3, 4)] := by
    rw [ranked]
    decide
  obtain ⟨order, again, _, found⟩ := tieRunsFound spareRelevance nansAmid
  obtain rfl : order = [2, 3, 0, 1] := Option.some.inj (again.symm.trans ordered)
  obtain ⟨_, _, share⟩ := loopsSafe spareRelevance nansAmid
  have reported := rocAucRanks (pair spareRelevance nansAmid)
  rw [if_neg (by decide)] at reported
  exact ⟨ordered, listed ▸ found, _, reported, share _ reported⟩

end EvalReport.Ranking
