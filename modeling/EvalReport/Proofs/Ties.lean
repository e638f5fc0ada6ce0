import EvalReport.Proofs.Runs

/-! Tied examples. A run of tied examples is read as a whole: so many examples, so many of them
relevant, and their last score. Which of them are the relevant ones does not matter. A NaN is not
tied to anything, not even to its own word, so each NaN makes a run alone and its place among
equal ones is told. -/
namespace EvalReport

theorem Score.sameComm (a b : Score) : a.same b = b.same a := by
  simp only [Score.same, Bool.and_comm, Bool.beq_comm]

theorem Score.sameTied {a b : Score} (tied : a.same b = true) (s : Score) :
    s.same a = s.same b := by
  have level : a.level = b.level := Ranking.sameLevel tied
  simp only [Score.same, level, Score.nanOfLevel level]

namespace Ranking

section Runs

variable {run : List Judged} {x : Judged}

theorem runTied (chain : run.IsChain fun a b => a.score.same b.score = true) (inside : x ∈ run)
    (number : x.score.isNaN = false) : ∀ y ∈ run, x.score.same y.score = true := by
  obtain ⟨first, others, rfl⟩ := List.exists_cons_of_ne_nil (List.ne_nil_of_mem inside)
  intro y member
  have level := (chainTied chain x inside).trans (chainTied chain y member).symm
  exact (Score.sameExact number (Score.nanOfLevel level ▸ number)).mpr level

theorem runAlone (chain : run.IsChain fun a b => a.score.same b.score = true) (inside : x ∈ run)
    (nan : x.score.isNaN = true) : run = [x] := by
  obtain ⟨first, others, rfl⟩ := List.exists_cons_of_ne_nil (List.ne_nil_of_mem inside)
  cases others with
  | nil => rw [List.mem_singleton.mp inside]
  | cons next more =>
    have same := (List.isChain_cons_cons.mp chain).1
    have level := chainTied chain x inside
    simp [Score.same, ← Score.nanOfLevel level, nan] at same

variable {ahead : Int → Int → Prop}

theorem splitApart [IsTrans Int ahead] [Std.Irrefl ahead] {next : List Judged}
    {more : List (List Judged)}
    (chain : run.IsChain fun a b => a.score.same b.score = true)
    (parted : ∃ left right, (run.getLast left).score.same (next.head right).score = false)
    (sorted : (run ++ (next :: more).flatten).Pairwise fun a b =>
      a.score.level = b.score.level ∨ ahead a.score.level b.score.level) :
    ∀ x ∈ run, ∀ y ∈ (next :: more).flatten, x.score.same y.score = false := by
  obtain ⟨left, right, differ⟩ := parted
  intro x inside y beyond
  by_contra tied
  have same : x.score.same y.score = true := by simpa using tied
  obtain ⟨⟨number, _⟩, level⟩ : (x.score.isNaN = false ∧ y.score.isNaN = false) ∧
      x.score.level = y.score.level := by simpa [Score.same] using same
  have reached : x.score.level = (run.getLast left).score.level :=
    sameLevel (runTied chain inside number _ (run.getLast_mem left))
  have ends : (run.getLast left).score.isNaN = false :=
    (Score.nanOfLevel reached).symm.trans number
  have gap := beyondLast left right differ ends sorted y beyond
  rw [← reached, level] at gap
  exact Std.Irrefl.irrefl _ gap

theorem runsGathered [IsTrans Int ahead] [Std.Irrefl ahead] {runs : List (List Judged)}
    (filled : [] ∉ runs)
    (chained : ∀ run ∈ runs, run.IsChain fun a b => a.score.same b.score = true)
    (parted : runs.IsChain fun r s =>
      ∃ left right, (r.getLast left).score.same (s.head right).score = false)
    (sorted : runs.flatten.Pairwise fun a b =>
      a.score.level = b.score.level ∨ ahead a.score.level b.score.level) :
    ∀ run ∈ runs, ∀ x ∈ run, x.score.isNaN = false →
      runs.flatten.filter (x.score.same ·.score) = run := by
  induction runs with
  | nil => simp
  | cons first rest ih =>
    obtain ⟨here, there⟩ := List.forall_mem_cons.mp chained
    have later := ih (fun member => filled (List.mem_cons_of_mem _ member)) there parted.tail
      (List.pairwise_append.mp sorted).2.1
    have apart : ∀ x ∈ first, ∀ y ∈ rest.flatten, x.score.same y.score = false := by
      cases rest with
      | nil => simp
      | cons next more => exact splitApart here (List.isChain_cons_cons.mp parted).1 sorted
    intro run member x inside number
    rw [List.flatten_cons, List.filter_append]
    rcases List.mem_cons.mp member with rfl | after
    · have none : rest.flatten.filter (x.score.same ·.score) = [] := by
        simpa only [List.filter_eq_nil_iff, Bool.not_eq_true] using apart x inside
      rw [none, List.append_nil, List.filter_eq_self]
      exact runTied here inside number
    · have none : first.filter (x.score.same ·.score) = [] := by
        simp only [List.filter_eq_nil_iff, Bool.not_eq_true]
        intro y before
        rw [Score.sameComm]
        exact apart y before x (List.mem_flatten_of_mem after inside)
      rw [none, List.nil_append]
      exact later run after x inside number

theorem runGathered [IsTrans Int ahead] [Std.Irrefl ahead] {xs : List Judged}
    (sorted : xs.Pairwise fun a b =>
      a.score.level = b.score.level ∨ ahead a.score.level b.score.level)
    (member : run ∈ runs xs) (inside : x ∈ run) (number : x.score.isNaN = false) :
    xs.filter (x.score.same ·.score) = run := by
  have whole : (runs xs).flatten.Pairwise fun a b =>
      a.score.level = b.score.level ∨ ahead a.score.level b.score.level :=
    (runsWhole xs).symm ▸ sorted
  have gathered : (runs xs).flatten.filter (x.score.same ·.score) = run :=
    runsGathered (List.nil_notMem_splitBy _ xs) (fun run => List.isChain_of_mem_splitBy)
      (List.isChain_getLast_head_splitBy (fun a b : Judged => a.score.same b.score) xs)
      whole run member x inside number
  rwa [runsWhole] at gathered

end Runs

/-! ### The same scores, judged anew -/

/- An example with the relevance of two judgements. They differ on numbers only. -/
structure Rejudged where
  score : Score
  before : Bool
  after : Bool
  settled : score.isNaN = true → before = after

namespace Rejudged

abbrev old (z : Rejudged) : Judged := ⟨z.before, z.score⟩

abbrev new (z : Rejudged) : Judged := ⟨z.after, z.score⟩

def TiersKept (zs : List Rejudged) : Prop :=
  ∀ s : Score, positives ((zs.map old).filter (s.same ·.score)) =
    positives ((zs.map new).filter (s.same ·.score))

theorem ofAlike {xs ys : List Judged}
    (each : List.Forall₂ (fun x y => x.score = y.score ∧
      (x.score.isNaN = true → x.relevant = y.relevant)) xs ys) :
    ∃ zs : List Rejudged, zs.map old = xs ∧ zs.map new = ys := by
  induction each with
  | nil => exact ⟨[], rfl, rfl⟩
  | @cons x y xs ys one _ ih =>
    obtain ⟨zs, rfl, rfl⟩ := ih
    obtain ⟨relevant, score⟩ := x
    obtain ⟨again, _⟩ := y
    obtain ⟨rfl, settled⟩ := one
    exact ⟨⟨score, relevant, again, settled⟩ :: zs, rfl, rfl⟩

section Sorted

variable {f : Rejudged → Judged} (kept : ∀ z, (f z).score = z.score)
include kept

theorem runsMap (zs : List Rejudged) :
    runs (zs.map f) = (zs.splitBy fun a b => a.score.same b.score).map (·.map f) := by
  refine List.splitBy_eq_iff.mpr ⟨?_, ?_, ?_, ?_⟩
  · rw [← List.map_flatten, List.flatten_splitBy]
  · intro member
    obtain ⟨group, inside, empty⟩ := List.mem_map.mp member
    exact List.ne_nil_of_mem_splitBy inside (List.map_eq_nil_iff.mp empty)
  · intro run member
    obtain ⟨group, inside, rfl⟩ := List.mem_map.mp member
    rw [List.isChain_map]
    simpa only [kept] using List.isChain_of_mem_splitBy inside
  · rw [List.isChain_map]
    refine (List.isChain_getLast_head_splitBy
      (fun a b : Rejudged => a.score.same b.score) zs).imp ?_
    rintro r s ⟨left, right, differ⟩
    refine ⟨by simpa using left, by simpa using right, ?_⟩
    rwa [List.getLast_map, List.head_map, kept, kept]

theorem descendingMap (zs : List Rejudged) :
    descending (zs.map f) =
      (zs.mergeSort fun a b => decide (b.score.place ≤ a.score.place)).map f :=
  (List.map_mergeSort fun a _ b _ => by rw [kept, kept]).symm

theorem ascendingMap (zs : List Rejudged) :
    ascending (zs.map f) =
      (zs.mergeSort fun a b => decide (a.score.place ≤ b.score.place)).map f :=
  (List.map_mergeSort fun a _ b _ => by rw [kept, kept]).symm

end Sorted

variable {ahead : Int → Int → Prop}

theorem groupRelevant [IsTrans Int ahead] [Std.Irrefl ahead] {zs group : List Rejudged}
    (filled : group ≠ []) (tiers : TiersKept zs)
    (sorted : (zs.map old).Pairwise fun a b =>
      a.score.level = b.score.level ∨ ahead a.score.level b.score.level)
    (olds : group.map old ∈ runs (zs.map old)) (news : group.map new ∈ runs (zs.map new)) :
    positives (group.map old) = positives (group.map new) := by
  obtain ⟨z, inside⟩ := List.exists_mem_of_ne_nil _ filled
  have before := List.mem_map_of_mem (f := old) inside
  have after := List.mem_map_of_mem (f := new) inside
  cases number : z.score.isNaN with
  | true =>
    rw [runAlone (List.isChain_of_mem_splitBy olds) before number,
      runAlone (List.isChain_of_mem_splitBy news) after number, old, new, z.settled number]
  | false =>
    have again : (zs.map new).Pairwise fun a b =>
        a.score.level = b.score.level ∨ ahead a.score.level b.score.level :=
      List.pairwise_map.mpr (List.pairwise_map.mp sorted)
    rw [← runGathered sorted olds before number, ← runGathered again news after number]
    exact tiers z.score

theorem runsAlike [IsTrans Int ahead] [Std.Irrefl ahead] {zs : List Rejudged}
    (tiers : TiersKept zs) (sorted : (zs.map old).Pairwise fun a b =>
      a.score.level = b.score.level ∨ ahead a.score.level b.score.level) :
    List.Forall₂ ReadAlike (runs (zs.map old)) (runs (zs.map new)) := by
  have olds := runsMap (f := old) (fun _ => rfl) zs
  have news := runsMap (f := new) (fun _ => rfl) zs
  rw [olds, news, List.forall₂_map_left_iff, List.forall₂_map_right_iff, List.forall₂_same]
  intro group member
  have filled : group ≠ [] := List.ne_nil_of_mem_splitBy member
  have last : (group.map old).getLast?.map (·.score) = (group.map new).getLast?.map (·.score) := by
    rw [List.getLast?_map, List.getLast?_map, Option.map_map, Option.map_map]
    rfl
  have relevant := groupRelevant filled tiers sorted (olds ▸ List.mem_map_of_mem member)
    (news ▸ List.mem_map_of_mem member)
  exact ⟨by simp, relevant, last⟩

theorem tiersPerm {zs ranked : List Rejudged} (perm : ranked.Perm zs) (tiers : TiersKept zs) :
    TiersKept ranked := by
  intro s
  have counted : ∀ f : Rejudged → Judged,
      positives ((ranked.map f).filter (s.same ·.score)) =
        positives ((zs.map f).filter (s.same ·.score)) :=
    fun f => ((perm.map f).filter _).countP_eq _
  rw [counted, counted]
  exact tiers s

theorem descendingAlike {zs : List Rejudged} (tiers : TiersKept zs) :
    List.Forall₂ ReadAlike (runs (descending (zs.map old))) (runs (descending (zs.map new))) := by
  have sorted := descendingLevels (zs.map old)
  rw [descendingMap (fun _ => rfl)] at sorted ⊢
  rw [descendingMap (fun _ => rfl)]
  exact runsAlike (tiersPerm (List.mergeSort_perm zs _) tiers) sorted

theorem ascendingAlike {zs : List Rejudged} (tiers : TiersKept zs) :
    List.Forall₂ ReadAlike (runs (ascending (zs.map old))) (runs (ascending (zs.map new))) := by
  have sorted := ascendingLevels (zs.map old)
  rw [ascendingMap (fun _ => rfl)] at sorted ⊢
  rw [ascendingMap (fun _ => rfl)]
  exact runsAlike (tiersPerm (List.mergeSort_perm zs _) tiers) sorted

theorem computeKept {α : Type} [Arithmetic α] {zs : List Rejudged} (tiers : TiersKept zs)
    (thresholds : List α) :
    SoftScores.compute (zs.map old) thresholds = SoftScores.compute (zs.map new) thresholds :=
  computeAlike (descendingAlike tiers) (ascendingAlike tiers) thresholds

end Rejudged

/-! ### Relevances exchanged -/

def exchanged {β : Type} (xs : List β) (i j : Fin xs.length) : List β :=
  (xs.set i xs[j]).set j xs[i]

theorem exchangedZip {β γ : Type} {xs : List β} {marks : List γ}
    (even : xs.length = marks.length) (i j : Fin xs.length)
    (same : marks.get (i.cast even) = marks.get (j.cast even)) :
    ((exchanged xs i j).zip marks).Perm (xs.zip marks) := by
  have boundI : (i : Nat) < (xs.zip marks).length := by simp [← even]
  have boundJ : (j : Nat) < (xs.zip marks).length := by simp [← even]
  have whole : (exchanged xs i j).zip marks =
      ((xs.zip marks).set i (xs.zip marks)[(j : Nat)]).set j (xs.zip marks)[(i : Nat)] := by
    apply List.ext_getElem
    · simp [exchanged]
    · intro k here there
      simp only [List.get_eq_getElem, Fin.val_cast] at same
      simp only [exchanged, List.getElem_zip, List.getElem_set]
      by_cases atJ : (j : Nat) = k
      · subst atJ
        simp [same]
      · by_cases atI : (i : Nat) = k
        · subst atI
          simp [atJ, same]
        · simp [atJ, atI]
  rw [whole]
  exact List.set_set_perm boundI boundJ

theorem tierCount (relevant : List Bool) (scores : List Score) (s : Score) :
    positives ((pair relevant scores).filter (s.same ·.score)) =
      (relevant.zip (scores.map (s.same ·))).countP fun e => e.1 && e.2 := by
  have zipped : pair relevant scores = (relevant.zip scores).map fun e => ⟨e.1, e.2⟩ := by
    simp [pair, List.zip, List.map_zipWith]
  rw [zipped, positives, List.countP_filter, List.countP_map, List.zip_map_right, List.countP_map]
  rfl

section Exchanged

variable {relevant : List Bool} {scores : List Score} (even : relevant.length = scores.length)
  (i j : Fin relevant.length)
  (tied : (scores.get (i.cast even)).same (scores.get (j.cast even)) = true)
include tied

theorem exchangedSettled : List.Forall₂ (fun x y => x.score = y.score ∧
    (x.score.isNaN = true → x.relevant = y.relevant))
    (pair (exchanged relevant i j) scores) (pair relevant scores) := by
  simp only [List.get_eq_getElem, Fin.val_cast, Score.same, Bool.and_eq_true,
    Bool.not_eq_true'] at tied
  obtain ⟨⟨numberI, numberJ⟩, _⟩ := tied
  refine List.forall₂_iff_get.mpr ⟨by simp [pair, exchanged], ?_⟩
  intro k here there
  simp only [pair, exchanged, List.get_eq_getElem, List.getElem_zipWith, List.getElem_set,
    true_and]
  -- a NaN stands at neither position
  intro nan
  rw [if_neg, if_neg]
  · rintro rfl
    simp [nan] at numberI
  · rintro rfl
    simp [nan] at numberJ

theorem exchangedTiers (s : Score) :
    positives ((pair (exchanged relevant i j) scores).filter (s.same ·.score)) =
      positives ((pair relevant scores).filter (s.same ·.score)) := by
  have marks : relevant.length = (scores.map (s.same ·)).length := by simp [even]
  rw [tierCount, tierCount]
  refine (exchangedZip marks i j ?_).countP_eq _
  simpa using Score.sameTied tied s

theorem tieExchanged {α : Type} [Arithmetic α] (thresholds : List α) :
    SoftScores.compute (pair (exchanged relevant i j) scores) thresholds =
      SoftScores.compute (pair relevant scores) thresholds := by
  obtain ⟨zs, first, second⟩ := Rejudged.ofAlike (exchangedSettled even i j tied)
  have tiers : Rejudged.TiersKept zs := by
    intro s
    rw [first, second]
    exact exchangedTiers even i j tied s
  rw [← first, ← second]
  exact Rejudged.computeKept tiers thresholds

end Exchanged

theorem zerosExchanged :
    (SoftScores.compute (pair [false, true, true] [⟨0x80000000⟩, ⟨0x7fc00000⟩, ⟨0⟩]) [0.5] :
        SoftScores Float) =
      SoftScores.compute (pair [true, true, false] [⟨0x80000000⟩, ⟨0x7fc00000⟩, ⟨0⟩]) [0.5] := by
  have even : [true, true, false].length =
      ([⟨0x80000000⟩, ⟨0x7fc00000⟩, ⟨0⟩] : List Score).length := rfl
  have tied : Score.same ⟨0x80000000⟩ ⟨0⟩ = true := by decide
  exact tieExchanged even ⟨0, by decide⟩ ⟨2, by decide⟩ tied [0.5]

theorem ascendingTied {xs : List Judged} {s : Score} (one : ∀ x ∈ xs, x.score = s) :
    ascending xs = xs := by
  refine List.mergeSort_of_pairwise (List.pairwise_of_forall_mem_list fun a first b second => ?_)
  rw [one a first, one b second]
  exact decide_eq_true (Int.le_refl _)

def twoNaNs : List Score := [⟨0x7fc00000⟩, ⟨0x7fc00000⟩]

theorem equalNaNsTold :
    (SoftScores.compute (pair (exchanged [true, false] ⟨0, by decide⟩ ⟨1, by decide⟩) twoNaNs) [] :
        SoftScores Float) ≠
      SoftScores.compute (pair [true, false] twoNaNs) [] := by
  intro same
  have values : (rocAuc (pair [false, true] twoNaNs) : Option Float) =
      rocAuc (pair [true, false] twoNaNs) := congrArg SoftScores.rocAuc same
  have first : ascending (pair [false, true] twoNaNs) = _ :=
    ascendingTied (s := ⟨0x7fc00000⟩) (by decide)
  have second : ascending (pair [true, false] twoNaNs) = _ :=
    ascendingTied (s := ⟨0x7fc00000⟩) (by decide)
  rw [rocAuc, rocAuc, first, second] at values
  revert values
  decide +kernel

end Ranking
end EvalReport
