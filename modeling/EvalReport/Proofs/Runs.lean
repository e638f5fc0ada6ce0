import EvalReport.Proofs.ScoreOrder
import EvalReport.Ranking
import Mathlib.Data.List.Perm.Basic
import Mathlib.Data.List.SplitBy

/-! Runs of tied examples in a ranking. Where no score is a NaN, sorting by words sorts the
levels, so each run holds all the examples of one level; rankings of the same examples have the
same runs, but for the order of examples within one. -/
namespace EvalReport.Ranking

abbrev Numbers (xs : List Judged) : Prop := ∀ x ∈ xs, x.score.isNaN = false

theorem numbersPerm {xs ys : List Judged} (numbers : Numbers xs) (perm : xs.Perm ys) :
    Numbers ys :=
  fun y member => numbers y (perm.mem_iff.mpr member)

/-! ### Relevances and scores given apart -/

theorem pairNumbers (relevant : List Bool) {scores : List Score}
    (numbers : ∀ s ∈ scores, s.isNaN = false) : Numbers (pair relevant scores) := by
  induction relevant generalizing scores with
  | nil => simp [Numbers, pair]
  | cons r relevant ih =>
    cases scores with
    | nil => simp [Numbers, pair]
    | cons s scores =>
      obtain ⟨first, others⟩ := List.forall_mem_cons.mp numbers
      exact List.forall_mem_cons.mpr ⟨first, ih others⟩

theorem pairRelevant (relevant : List Bool) (scores : List Score) :
    (pair relevant scores).map (·.relevant) = relevant.take scores.length := by
  induction relevant generalizing scores with
  | nil => simp [pair]
  | cons r relevant ih =>
    cases scores with
    | nil => simp [pair]
    | cons s scores => simpa [pair] using ih scores

theorem pairPositives (relevant : List Bool) (scores : List Score) :
    positives (pair relevant scores) = (relevant.take scores.length).count true := by
  rw [← pairRelevant, List.count, List.countP_map]
  apply List.countP_congr
  simp

theorem pairPositivesEven {relevant : List Bool} {scores : List Score}
    (even : relevant.length = scores.length) :
    positives (pair relevant scores) = relevant.count true := by
  rw [pairPositives, ← even, List.take_length]

/-! ### Sorted examples -/

theorem descendingPerm (xs : List Judged) : (descending xs).Perm xs :=
  List.mergeSort_perm xs _

theorem positivesDescending (xs : List Judged) : positives (descending xs) = positives xs :=
  (descendingPerm xs).countP_eq _

theorem ascendingPerm (xs : List Judged) : (ascending xs).Perm xs :=
  List.mergeSort_perm xs _

theorem descendingSorted (xs : List Judged) :
    (descending xs).Pairwise fun a b => b.score.place ≤ a.score.place := by
  have sorted := @List.pairwise_mergeSort _
    (fun a b : Judged => decide (b.score.place ≤ a.score.place))
    (fun a b c first second => by simp only [decide_eq_true_eq] at *; omega)
    (fun a b => by simp only [Bool.or_eq_true, decide_eq_true_eq]; omega) xs
  exact sorted.imp of_decide_eq_true

theorem ascendingSorted (xs : List Judged) :
    (ascending xs).Pairwise fun a b => a.score.place ≤ b.score.place := by
  have sorted := @List.pairwise_mergeSort _
    (fun a b : Judged => decide (a.score.place ≤ b.score.place))
    (fun a b c first second => by simp only [decide_eq_true_eq] at *; omega)
    (fun a b => by simp only [Bool.or_eq_true, decide_eq_true_eq]; omega) xs
  exact sorted.imp of_decide_eq_true

theorem descendingLevels (xs : List Judged) : (descending xs).Pairwise fun a b =>
    a.score.level = b.score.level ∨ a.score.level > b.score.level := by
  refine (descendingSorted xs).imp fun ordered => ?_
  have := Score.levelOfPlace ordered
  omega

theorem ascendingLevels (xs : List Judged) : (ascending xs).Pairwise fun a b =>
    a.score.level = b.score.level ∨ a.score.level < b.score.level := by
  refine (ascendingSorted xs).imp fun ordered => ?_
  have := Score.levelOfPlace ordered
  omega

/-! ### Tiers -/

/- Runs of examples of one level each; the levels come in the order `ahead`. -/
inductive Tiers (ahead : Int → Int → Prop) : List (List Judged) → Prop where
  | nil : Tiers ahead []
  | cons {run : List Judged} {rest : List (List Judged)} (level : Int) (filled : run ≠ [])
      (tied : ∀ x ∈ run, x.score.level = level)
      (apart : ∀ x ∈ rest.flatten, ahead level x.score.level) (later : Tiers ahead rest) :
      Tiers ahead (run :: rest)

variable {ahead : Int → Int → Prop}

theorem sameLevel {a b : Score} (same : a.same b = true) : a.level = b.level := by
  simp only [Score.same, Bool.and_eq_true, beq_iff_eq] at same
  exact same.2

theorem chainTied {first : Judged} {others : List Judged}
    (chain : (first :: others).IsChain fun a b => a.score.same b.score = true) :
    ∀ x ∈ first :: others, x.score.level = first.score.level := by
  induction others generalizing first with
  | nil => simp
  | cons next others ih =>
    obtain ⟨same, later⟩ := List.isChain_cons_cons.mp chain
    intro x member
    rcases List.mem_cons.mp member with rfl | after
    · rfl
    · exact (ih later x after).trans (sameLevel same).symm

theorem beyondLast [IsTrans Int ahead] {run next : List Judged} {more : List (List Judged)}
    (left : run ≠ []) (right : next ≠ [])
    (differ : (run.getLast left).score.same (next.head right).score = false)
    (number : (run.getLast left).score.isNaN = false)
    (sorted : (run ++ (next :: more).flatten).Pairwise fun a b =>
      a.score.level = b.score.level ∨ ahead a.score.level b.score.level) :
    ∀ y ∈ (next :: more).flatten, ahead (run.getLast left).score.level y.score.level := by
  obtain ⟨first, others, rfl⟩ := List.exists_cons_of_ne_nil right
  obtain ⟨_, later, across⟩ := List.pairwise_append.mp sorted
  rw [List.flatten_cons, List.cons_append] at later across ⊢
  have gap : ahead (run.getLast left).score.level first.score.level := by
    refine (across _ (run.getLast_mem left) first List.mem_cons_self).resolve_left fun equal => ?_
    have same := (Score.sameExact number ((Score.nanOfLevel equal).symm.trans number)).mpr equal
    exact Bool.false_ne_true (differ.symm.trans same)
  intro y member
  rcases List.mem_cons.mp member with rfl | after
  · exact gap
  · rcases (List.pairwise_cons.mp later).1 y after with equal | beyond
    · exact equal ▸ gap
    · exact IsTrans.trans _ _ _ gap beyond

theorem splitTiers [IsTrans Int ahead] {runs : List (List Judged)} (filled : [] ∉ runs)
    (chained : ∀ run ∈ runs, run.IsChain fun a b => a.score.same b.score = true)
    (parted : runs.IsChain fun r s =>
      ∃ left right, (r.getLast left).score.same (s.head right).score = false)
    (numbers : Numbers runs.flatten)
    (sorted : runs.flatten.Pairwise fun a b =>
      a.score.level = b.score.level ∨ ahead a.score.level b.score.level) :
    Tiers ahead runs := by
  induction runs with
  | nil => exact .nil
  | cons run rest ih =>
    have nonempty : run ≠ [] := fun empty => filled (empty ▸ List.mem_cons_self)
    obtain ⟨here, there⟩ := List.forall_mem_cons.mp chained
    rw [List.flatten_cons] at numbers sorted
    have tiers : Tiers ahead rest :=
      ih (fun member => filled (List.mem_cons_of_mem _ member)) there parted.tail
        (fun x member => numbers x (List.mem_append_right _ member))
        (List.pairwise_append.mp sorted).2.1
    have last := run.getLast_mem nonempty
    have tied : ∀ x ∈ run, x.score.level = (run.getLast nonempty).score.level := by
      obtain ⟨head, tail, rfl⟩ := List.exists_cons_of_ne_nil nonempty
      intro x member
      exact (chainTied here x member).trans (chainTied here _ last).symm
    refine .cons _ nonempty tied ?_ tiers
    cases rest with
    | nil => simp
    | cons next more =>
      obtain ⟨⟨_, right, differ⟩, _⟩ := List.isChain_cons_cons.mp parted
      exact beyondLast nonempty right differ (numbers _ (List.mem_append_left _ last)) sorted

theorem runsTiers [IsTrans Int ahead] {xs : List Judged} (numbers : Numbers xs)
    (sorted : xs.Pairwise fun a b =>
      a.score.level = b.score.level ∨ ahead a.score.level b.score.level) :
    Tiers ahead (runs xs) := by
  have whole : (runs xs).flatten = xs := List.flatten_splitBy _ xs
  exact splitTiers (List.nil_notMem_splitBy _ xs) (fun run => List.isChain_of_mem_splitBy)
    (List.isChain_getLast_head_splitBy (fun a b : Judged => a.score.same b.score) xs)
    (whole.symm ▸ numbers) (whole.symm ▸ sorted)

theorem runsWhole (xs : List Judged) : (runs xs).flatten = xs :=
  List.flatten_splitBy _ xs

theorem descendingTiers {xs : List Judged} (numbers : Numbers xs) :
    Tiers (· > ·) (runs (descending xs)) :=
  runsTiers (numbersPerm numbers (descendingPerm xs).symm) (descendingLevels xs)

theorem ascendingTiers {xs : List Judged} (numbers : Numbers xs) :
    Tiers (· < ·) (runs (ascending xs)) :=
  runsTiers (numbersPerm numbers (ascendingPerm xs).symm) (ascendingLevels xs)

/-! ### The same examples in another order -/

section Alike

variable {run : List Judged} {rest : List (List Judged)} {level : Int}

theorem firstRun [Std.Irrefl ahead] (tied : ∀ x ∈ run, x.score.level = level)
    (apart : ∀ x ∈ rest.flatten, ahead level x.score.level) :
    (run ++ rest.flatten).filter (·.score.level = level) = run := by
  have others : rest.flatten.filter (·.score.level = level) = [] := by
    simp only [List.filter_eq_nil_iff, decide_eq_true_eq]
    intro x member same
    exact Std.Irrefl.irrefl level (same ▸ apart x member)
  rw [List.filter_append, others, List.append_nil, List.filter_eq_self]
  simpa using tied

theorem laterRuns [Std.Irrefl ahead] (tied : ∀ x ∈ run, x.score.level = level)
    (apart : ∀ x ∈ rest.flatten, ahead level x.score.level) :
    (run ++ rest.flatten).filter (·.score.level ≠ level) = rest.flatten := by
  have here : run.filter (·.score.level ≠ level) = [] := by
    simpa [List.filter_eq_nil_iff] using tied
  rw [List.filter_append, here, List.nil_append, List.filter_eq_self]
  intro x member
  have differ : x.score.level ≠ level := fun same =>
    Std.Irrefl.irrefl level (same ▸ apart x member)
  simpa using differ

theorem firstAhead {other : List Judged} {there : Int} (filled : other ≠ [])
    (reached : ∀ x ∈ other, x.score.level = there) (tied : ∀ x ∈ run, x.score.level = level)
    (apart : ∀ x ∈ rest.flatten, ahead level x.score.level)
    (among : ∀ x ∈ other, x ∈ run ++ rest.flatten) : there = level ∨ ahead level there := by
  obtain ⟨x, member⟩ := List.exists_mem_of_ne_nil other filled
  rw [← reached x member]
  exact (List.mem_append.mp (among x member)).imp (tied x) (apart x)

theorem tiersAlike [Std.Asymm ahead] {rs ss : List (List Judged)} (first : Tiers ahead rs)
    (second : Tiers ahead ss) (perm : rs.flatten.Perm ss.flatten) :
    List.Forall₂ List.Perm rs ss := by
  induction first generalizing ss with
  | nil =>
    cases second with
    | nil => exact .nil
    | cons _ filled => exact absurd (List.append_eq_nil_iff.mp perm.nil_eq.symm).1 filled
  | @cons run rest level filled tied apart later ih =>
    cases second with
    | nil => exact absurd (List.append_eq_nil_iff.mp perm.eq_nil).1 filled
    | @cons other others there some reached beyond after =>
      rw [List.flatten_cons, List.flatten_cons] at perm
      have forward := firstAhead some reached tied apart fun x member =>
        perm.mem_iff.mpr (List.mem_append_left _ member)
      have backward := firstAhead filled tied reached beyond fun x member =>
        perm.mem_iff.mp (List.mem_append_left _ member)
      have level : there = level :=
        forward.elim id fun above => backward.elim Eq.symm fun below =>
          absurd below (Std.Asymm.asymm _ _ above)
      subst level
      have heads := perm.filter (·.score.level = there)
      have tails := perm.filter (·.score.level ≠ there)
      rw [firstRun tied apart, firstRun reached beyond] at heads
      rw [laterRuns tied apart, laterRuns reached beyond] at tails
      exact .cons heads (ih after tails)

end Alike

/-! ### What is read of a run -/

/- Two runs that no metric tells apart. -/
structure ReadAlike (r s : List Judged) : Prop where
  size : r.length = s.length
  relevant : positives r = positives s
  last : r.getLast?.map (·.score) = s.getLast?.map (·.score)

section ReadAlike

variable {rs ss : List (List Judged)}

theorem cutsFromAlike (alike : List.Forall₂ ReadAlike rs ss) (seen selected : Nat) :
    cutsFrom seen selected rs = cutsFrom seen selected ss := by
  induction alike generalizing seen selected with
  | nil => rfl
  | @cons r s rs ss one _ ih =>
    have last := one.last
    simp only [cutsFrom, one.relevant, one.size, ih]
    cases endR : r.getLast? <;> cases endS : s.getLast? <;> simp_all

theorem sizeAlike (alike : List.Forall₂ ReadAlike rs ss) :
    rs.flatten.length = ss.flatten.length := by
  induction alike with
  | nil => rfl
  | cons one _ ih => simp only [List.flatten_cons, List.length_append, one.size, ih]

theorem positivesAlike (alike : List.Forall₂ ReadAlike rs ss) :
    positives rs.flatten = positives ss.flatten := by
  induction alike with
  | nil => rfl
  | cons one _ ih =>
    have relevant := one.relevant
    simp only [positives, List.flatten_cons, List.countP_append] at relevant ih ⊢
    rw [relevant, ih]

variable {α : Type} [Arithmetic α] {xs ys : List Judged}

theorem positiveRanksAlike (alike : List.Forall₂ ReadAlike rs ss) (before : Nat) (sum : α) :
    positiveRanks before sum rs = positiveRanks before sum ss := by
  induction alike generalizing before sum with
  | nil => rfl
  | cons one _ ih => simp only [positiveRanks, one.relevant, one.size, ih]

theorem rocAucAlike
    (alike : List.Forall₂ ReadAlike (runs (ascending xs)) (runs (ascending ys))) :
    (rocAuc xs : Option α) = rocAuc ys := by
  have size := sizeAlike alike
  have relevant := positivesAlike alike
  rw [runsWhole, runsWhole] at size relevant
  rw [(ascendingPerm xs).length_eq, (ascendingPerm ys).length_eq] at size
  have counted : positives xs = positives ys :=
    ((ascendingPerm xs).countP_eq _).symm.trans (relevant.trans ((ascendingPerm ys).countP_eq _))
  simp only [rocAuc, size, counted, positiveRanksAlike alike]

theorem computeAlike
    (down : List.Forall₂ ReadAlike (runs (descending xs)) (runs (descending ys)))
    (up : List.Forall₂ ReadAlike (runs (ascending xs)) (runs (ascending ys)))
    (thresholds : List α) :
    SoftScores.compute xs thresholds = SoftScores.compute ys thresholds := by
  have relevant := positivesAlike down
  rw [runsWhole, runsWhole] at relevant
  have counted : positives xs = positives ys :=
    ((descendingPerm xs).countP_eq _).symm.trans (relevant.trans ((descendingPerm ys).countP_eq _))
  simp only [SoftScores.compute, cuts, counted, cutsFromAlike down, rocAucAlike up]

end ReadAlike

end EvalReport.Ranking
