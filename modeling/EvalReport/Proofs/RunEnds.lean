import EvalReport.Proofs.CandidateOrder
import EvalReport.Proofs.Positions

/-! Ends of runs count what a cut-off selects. Where no score is a NaN, the positions that close a
run of the descending order are the last ones of their scores; one more than such a position is the
number of examples scored at least as high, and the running count there that of the relevant ones
among them. -/
namespace EvalReport.Ranking

/-! ### Positions of a ranking -/

section Sorted

variable {xs : List Judged} {i j : Nat}

theorem descendingNumbers (numbers : Numbers xs) : Numbers (descending xs) :=
  numbersPerm numbers (descendingPerm xs).symm

theorem levelsFall (xs : List Judged) {x y : Judged} (later : i < j)
    (first : (descending xs)[i]? = some x) (second : (descending xs)[j]? = some y) :
    y.score.level ≤ x.score.level := by
  obtain ⟨insideI, rfl⟩ := List.getElem?_eq_some_iff.mp first
  obtain ⟨insideJ, rfl⟩ := List.getElem?_eq_some_iff.mp second
  have := List.pairwise_iff_getElem.mp (descendingLevels xs) i j insideI insideJ later
  omega

theorem valuesFall (numbers : Numbers xs) :
    (descending xs).Pairwise fun x y => y.score.value ≤ x.score.value := by
  have ranked := descendingNumbers numbers
  refine (descendingLevels xs).imp_of_mem fun {x y} inX inY levels => ?_
  rw [Score.valueLe (ranked y inY) (ranked x inX)]
  omega

theorem closesNext (numbers : Numbers xs) {x y : Judged} (first : (descending xs)[i]? = some x)
    (second : (descending xs)[i + 1]? = some y) :
    closes ((descending xs).map (·.score)) i = true ↔ y.score.level < x.score.level := by
  obtain ⟨insideX, rfl⟩ := List.getElem?_eq_some_iff.mp first
  obtain ⟨insideY, rfl⟩ := List.getElem?_eq_some_iff.mp second
  have ranked := descendingNumbers numbers
  have same := Score.sameExact (ranked _ (List.getElem_mem insideX))
    (ranked _ (List.getElem_mem insideY))
  have falls := levelsFall xs (Nat.lt_succ_self i) first second
  have more : i + 1 ≠ (descending xs).length := by omega
  have closed : closes ((descending xs).map (·.score)) i =
      !(descending xs)[i].score.same (descending xs)[i + 1].score := by
    simp [closes, more, insideX, insideY]
  rw [closed, Bool.not_eq_true', ← Bool.not_eq_true, same]
  omega

theorem valuesSame (numbers : Numbers xs) {x y : Judged} (first : (descending xs)[i]? = some x)
    (second : (descending xs)[j]? = some y) :
    y.score.value = x.score.value ↔ y.score.level = x.score.level := by
  have ranked := descendingNumbers numbers
  exact Score.valueEq (ranked y (List.mem_of_getElem? second))
    (ranked x (List.mem_of_getElem? first))

/- A score that is left behind does not come again, since levels only fall. -/
theorem runEndExact (numbers : Numbers xs) (i : Nat) :
    i ∈ runEnds ((descending xs).map (·.score)) ↔ ∃ x, (descending xs)[i]? = some x ∧
      ∀ j y, i < j → (descending xs)[j]? = some y → y.score.value ≠ x.score.value := by
  rw [runEnds, List.mem_filter, List.mem_range, List.length_map]
  constructor
  · rintro ⟨inside, closed⟩
    have here := List.getElem?_eq_getElem inside
    refine ⟨_, here, fun j y later there => ?_⟩
    obtain ⟨insideJ, _⟩ := List.getElem?_eq_some_iff.mp there
    have next := List.getElem?_eq_getElem (l := descending xs) (i := i + 1) (by omega)
    have drops := (closesNext numbers here next).mp closed
    rw [ne_eq, valuesSame numbers here there]
    rcases Nat.eq_or_lt_of_le (Nat.succ_le_of_lt later) with rfl | beyond
    · obtain rfl := Option.some.inj (next.symm.trans there)
      omega
    · have falls := levelsFall xs beyond next there
      omega
  · rintro ⟨x, here, last⟩
    obtain ⟨inside, _⟩ := List.getElem?_eq_some_iff.mp here
    refine ⟨inside, ?_⟩
    by_cases final : i + 1 = (descending xs).length
    · simp [closes, final]
    · have next := List.getElem?_eq_getElem (l := descending xs) (i := i + 1) (by omega)
      have differ := last (i + 1) _ (Nat.lt_succ_self i) next
      rw [ne_eq, valuesSame numbers here next] at differ
      have falls := levelsFall xs (Nat.lt_succ_self i) here next
      exact (closesNext numbers here next).mpr (by omega)

end Sorted

theorem runEndsLast {scores : List Score} (filled : scores ≠ []) :
    (runEnds scores).getLast? = some (scores.length - 1) := by
  obtain ⟨n, size⟩ := Nat.exists_eq_succ_of_ne_zero (mt List.length_eq_zero_iff.mp filled)
  have closed : closes scores n = true := by simp [closes, size]
  rw [runEnds, size, List.range_succ, List.filter_append, List.filter_cons, closed]
  simp

structure Ends (xs ranked : List Judged) (ends : List Nat) : Prop where
  rising : ends.Pairwise (· < ·)
  last : ranked ≠ [] → ends.getLast? = some (ranked.length - 1)
  exact : ∀ i, i ∈ ends ↔ ∃ x, ranked[i]? = some x ∧
    ∀ j y, i < j → ranked[j]? = some y → y.score.value ≠ x.score.value
  selects : ∀ i ∈ ends, ∃ x, ranked[i]? = some x ∧ i + 1 = selectedBy xs x.score.value ∧
    (runningPositives (ranked.map (·.relevant)))[i]? = some (foundBy xs x.score.value)

theorem descendingEnds {xs : List Judged} (numbers : Numbers xs) :
    Ends xs (descending xs) (runEnds ((descending xs).map (·.score))) where
  rising := List.pairwise_lt_range.filter _
  last filled := by
    rw [runEndsLast (by simpa using filled), List.length_map]
  exact := runEndExact numbers
  selects i member := by
    have cut : cutAt (descending xs) i ∈ cuts (descending xs) := by
      rw [cutsPositions]
      exact List.mem_map_of_mem member
    obtain ⟨x, here, _⟩ := (runEndExact numbers i).mp member
    obtain ⟨inside, _⟩ := List.getElem?_eq_some_iff.mp here
    have score : (cutAt (descending xs) i).score = x.score := by simp [cutAt, here]
    refine ⟨x, here, ?_, ?_⟩
    · exact score ▸ cutSelected numbers cut
    · rw [runningAt _ inside, ← score]
      exact congrArg some (cutFound numbers cut)

theorem runEndsCount (relevant : List Bool) (scores : List Score)
    (even : relevant.length = scores.length) (numbers : ∀ s ∈ scores, s.isNaN = false) :
    let xs := pair relevant scores
    let ranked := descending xs
    (∃ order, order? (fun a b => b.place ≤ a.place) scores.length scores = some order ∧
      order.Perm (List.range scores.length) ∧ order.Pairwise (Ahead scores) ∧
      Places relevant scores order ranked) ∧
    sorted? relevant scores = some (ranked.map (·.relevant), ranked.map (·.score)) ∧
    ranked.Pairwise (fun x y => y.score.value ≤ x.score.value) ∧
    ∃ ends, runEnds? (ranked.map (·.score)) = some ends ∧ Ends xs ranked ends ∧
      cuts ranked = ends.map (cutAt ranked) := by
  have numeric : Numbers (pair relevant scores) := pairNumbers relevant numbers
  refine ⟨?_, sortedPlaces relevant scores, valuesFall numeric, _, runEndsInBounds _,
    descendingEnds numeric, cutsPositions _⟩
  obtain ⟨order, ordered, places⟩ := orderPlaces (fun a b => b.place ≤ a.place) relevant scores
  rw [even, Nat.min_self] at ordered
  have keyed := orderKeyed (fun a b => b.place ≤ a.place) (Nat.le_refl scores.length)
  rw [List.take_length] at keyed
  obtain rfl := Option.some.inj (ordered.symm.trans keyed)
  exact ⟨_, ordered, orderPerm (Nat.le_refl _) ordered,
    (rankedAhead scores).imp aheadExact.mpr, places⟩

/- The two zeros close one run, the greater word of them first, and the two ones another. -/
def zerosApart : List Score := [⟨0x80000000⟩, ⟨0x3f800000⟩, ⟨0⟩, ⟨0x3f800000⟩]

theorem zerosApartEnds : [true, true, false, false].length = zerosApart.length ∧
    (∀ s ∈ zerosApart, s.isNaN = false) ∧
    Ends (pair [true, true, false, false] zerosApart)
      (descending (pair [true, true, false, false] zerosApart)) [1, 3] := by
  have numbers : ∀ s ∈ zerosApart, s.isNaN = false := by decide
  have ranked : (descending (pair [true, true, false, false] zerosApart)).map (·.score) =
      [⟨0x3f800000⟩, ⟨0x3f800000⟩, ⟨0⟩, ⟨0x80000000⟩] := by
    simp +decide [descending, pair, zerosApart, List.mergeSort]
  have evaluated : runEnds? ((descending (pair [true, true, false, false] zerosApart)).map
      (·.score)) = some [1, 3] := by
    rw [ranked]
    decide
  obtain ⟨_, _, _, ends, found, told, _⟩ :=
    runEndsCount [true, true, false, false] zerosApart rfl numbers
  obtain rfl : ends = [1, 3] := Option.some.inj (found.symm.trans evaluated)
  exact ⟨rfl, numbers, told⟩

end EvalReport.Ranking
