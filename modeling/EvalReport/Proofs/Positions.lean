import EvalReport.Proofs.Cuts

/-! Rankings by position. Relevances and scores stay apart, sorting moves offsets, and a cut is read
off at the position that closes a run, every access checked. Nothing is looked up out of range,
whatever the lengths and the scores, and the cuts are those of the runs. -/
namespace EvalReport.Ranking

/-! ### Sorted offsets -/

def order? (before : Score → Score → Bool) (n : Nat) (scores : List Score) : Option (List Nat) := do
  let keyed ← (List.range n).mapM fun i => scores[i]?.map fun s => (s, i)
  some ((keyed.mergeSort fun a b => before a.1 b.1).map (·.2))

def sorted? (relevant : List Bool) (scores : List Score) : Option (List Bool × List Score) := do
  let order ← order? (fun a b => b.place ≤ a.place) (min scores.length relevant.length) scores
  some (← order.mapM (relevant[·]?), ← order.mapM (scores[·]?))

/- What stands at the offsets are the examples of a ranking, in its order. -/
structure Places (relevant : List Bool) (scores : List Score) (order : List Nat)
    (ranked : List Judged) : Prop where
  relevant : order.map (relevant[·]?) = (ranked.map (·.relevant)).map some
  scores : order.map (scores[·]?) = (ranked.map (·.score)).map some

theorem mapMAll {β γ : Type} {f : β → Option γ} {xs : List β} {ys : List γ}
    (all : xs.map f = ys.map some) : xs.mapM f = some ys := by
  induction xs generalizing ys with
  | nil =>
    obtain rfl : ys = [] := by simpa using all.symm
    rfl
  | cons x xs ih =>
    cases ys with
    | nil => contradiction
    | cons y ys =>
      obtain ⟨first, rest⟩ := List.cons.inj all
      rw [List.mapM_cons, first, ih rest]
      rfl

theorem mapMSome {β γ : Type} {f : β → Option γ} {g : β → γ} {xs : List β}
    (each : ∀ x ∈ xs, f x = some (g x)) : xs.mapM f = some (xs.map g) :=
  mapMAll (by rw [List.map_map]; exact List.map_congr_left each)

theorem orderKeyed (before : Score → Score → Bool) {n : Nat} {scores : List Score}
    (within : n ≤ scores.length) : order? before n scores =
      some (((scores.take n).zipIdx.mergeSort fun a b => before a.1 b.1).map (·.2)) := by
  have keyed : ((List.range n).mapM fun i => scores[i]?.map fun s => (s, i)) =
      some (scores.take n).zipIdx := by
    refine mapMAll (List.ext_getElem (by simp [within]) fun i inside _ => ?_)
    have bound : i < scores.length := by
      simp only [List.length_map, List.length_range] at inside
      omega
    simp [bound]
  rw [order?, keyed]
  rfl

theorem orderPerm {before : Score → Score → Bool} {n : Nat} {scores : List Score}
    {order : List Nat} (within : n ≤ scores.length) (sorted : order? before n scores = some order) :
    order.Perm (List.range n) := by
  rw [orderKeyed before within] at sorted
  obtain rfl := Option.some.inj sorted
  have offsets : (scores.take n).zipIdx.map (·.2) = List.range n := by
    rw [List.zipIdx_map_snd, List.length_take, Nat.min_eq_left within, List.range_eq_range']
  exact offsets ▸ (List.mergeSort_perm _ _).map _

def judgedAt (relevant : List Bool) (e : Score × Nat) : Judged := ⟨relevant.getD e.2 false, e.1⟩

theorem judgedKeyed (relevant : List Bool) (scores : List Score) :
    ((scores.take (min relevant.length scores.length)).zipIdx).map (judgedAt relevant) =
      pair relevant scores := by
  refine List.ext_getElem (by simp [pair]) fun i _ inside => ?_
  have bound : i < relevant.length ∧ i < scores.length := by simpa [pair] using inside
  simp [judgedAt, pair, bound.1]

theorem keyedInside {relevant : List Bool} {scores : List Score} {e : Score × Nat}
    (member : e ∈ (scores.take (min relevant.length scores.length)).zipIdx) :
    relevant[e.2]? = some (relevant.getD e.2 false) ∧ scores[e.2]? = some e.1 := by
  have found := List.mem_zipIdx_iff_getElem?.mp member
  obtain ⟨below, _⟩ := List.getElem?_eq_some_iff.mp found
  have bounds : e.2 < min relevant.length scores.length := by
    simp only [List.length_take] at below
    omega
  rw [List.getElem?_take_of_lt bounds] at found
  have bound : e.2 < relevant.length := by omega
  exact ⟨by simp [bound], found⟩

theorem orderPlaces (before : Score → Score → Bool) (relevant : List Bool) (scores : List Score) :
    ∃ order, order? before (min relevant.length scores.length) scores = some order ∧
      Places relevant scores order
        ((pair relevant scores).mergeSort fun x y => before x.score y.score) := by
  refine ⟨_, orderKeyed before (Nat.min_le_right _ _), ?_⟩
  rw [← judgedKeyed, ← List.map_mergeSort (f := judgedAt relevant) fun _ _ _ _ => rfl]
  constructor
  · simp only [List.map_map]
    exact List.map_congr_left fun e member => (keyedInside (List.mem_mergeSort.mp member)).1
  · simp only [List.map_map]
    exact List.map_congr_left fun e member => (keyedInside (List.mem_mergeSort.mp member)).2

theorem sortedPlaces (relevant : List Bool) (scores : List Score) :
    sorted? relevant scores = some ((descending (pair relevant scores)).map (·.relevant),
      (descending (pair relevant scores)).map (·.score)) := by
  obtain ⟨order, ordered, places⟩ := orderPlaces (fun a b => b.place ≤ a.place) relevant scores
  rw [Nat.min_comm] at ordered
  simp only [sorted?, ordered, Option.bind_eq_bind, Option.bind_some, mapMAll places.relevant,
    mapMAll places.scores]
  rfl

/-! ### Ends of runs -/

def closes? (scores : List Score) (i : Nat) : Option Bool :=
  if i + 1 = scores.length then some true
  else do some (!(← scores[i]?).same (← scores[i + 1]?))

def runEnds? (scores : List Score) : Option (List Nat) :=
  (List.range scores.length).filterM (closes? scores)

def runningFrom (found : Nat) : List Bool → List Nat
  | [] => []
  | r :: rest => (found + r.toNat) :: runningFrom (found + r.toNat) rest

def runningPositives (relevant : List Bool) : List Nat := runningFrom 0 relevant

def cuts? (relevant : List Bool) (scores : List Score) : Option (List Cut) := do
  let ends ← runEnds? scores
  ends.mapM fun i => do some ⟨← (runningPositives relevant)[i]?, i + 1, ← scores[i]?⟩

def closes (scores : List Score) (i : Nat) : Bool :=
  i + 1 = scores.length || !(scores.getD i ⟨0⟩).same (scores.getD (i + 1) ⟨0⟩)

def runEnds (scores : List Score) : List Nat :=
  (List.range scores.length).filter (closes scores)

def cutAt (ranked : List Judged) (i : Nat) : Cut :=
  ⟨positives (ranked.take (i + 1)), i + 1, (ranked.map (·.score)).getD i ⟨0⟩⟩

theorem filterMSome {β : Type} {f : β → Option Bool} {g : β → Bool} {xs : List β}
    (each : ∀ x ∈ xs, f x = some (g x)) : xs.filterM f = some (xs.filter g) := by
  have gathered : ∀ kept, xs.filterAuxM f kept = some ((xs.filter g).reverse ++ kept) := by
    induction xs with
    | nil => exact fun kept => rfl
    | cons x xs ih =>
      obtain ⟨first, rest⟩ := List.forall_mem_cons.mp each
      intro kept
      rw [List.filterAuxM, first, List.filter_cons]
      cases g x <;> simp [ih rest]
  simp [List.filterM, gathered]

theorem closesInBounds {scores : List Score} {i : Nat} (inside : i < scores.length) :
    closes? scores i = some (closes scores i) := by
  unfold closes? closes
  split
  · rename_i last
    simp [last]
  · rename_i more
    have next : i + 1 < scores.length := by omega
    simp [inside, next, more]

theorem runEndsInBounds (scores : List Score) : runEnds? scores = some (runEnds scores) :=
  filterMSome fun _ member => closesInBounds (List.mem_range.mp member)

theorem runningFromAt (found : Nat) (relevant : List Bool) {i : Nat}
    (inside : i < relevant.length) :
    (runningFrom found relevant)[i]? = some (found + (relevant.take (i + 1)).count true) := by
  induction relevant generalizing found i with
  | nil => simp at inside
  | cons r rest ih =>
    cases i with
    | zero => cases r <;> simp [runningFrom]
    | succ i =>
      rw [runningFrom, List.getElem?_cons_succ, ih _ (by simpa using inside)]
      cases r with
      | true =>
        simp
        omega
      | false => simp

theorem relevantCount (xs : List Judged) :
    (xs.map (·.relevant)).count true = positives xs := by
  simp [positives, List.count, List.countP_map, Function.comp_def]

theorem runningAt (ranked : List Judged) {i : Nat} (inside : i < ranked.length) :
    (runningPositives (ranked.map (·.relevant)))[i]? = some (positives (ranked.take (i + 1))) := by
  rw [runningPositives, runningFromAt 0 _ (by simpa using inside), ← List.map_take, relevantCount,
    Nat.zero_add]

theorem cutsInBounds (ranked : List Judged) :
    cuts? (ranked.map (·.relevant)) (ranked.map (·.score)) =
      some ((runEnds (ranked.map (·.score))).map (cutAt ranked)) := by
  rw [cuts?, runEndsInBounds]
  refine mapMSome fun i member => ?_
  have inside : i < ranked.length := by
    simpa using List.mem_range.mp (List.mem_of_mem_filter member)
  simp [runningAt ranked inside, inside, cutAt]

/-! ### Runs from the front -/

section Runs

variable {x y : Judged} {front run rest : List Judged} {more : List (List Judged)}

theorem runsApart (differ : (rest.head?.any fun y => x.score.same y.score) = false) :
    runs (x :: rest) = [x] :: runs rest := by
  refine List.splitBy_append (l := [x]) fun a here y next => ?_
  obtain rfl : a = x := by simpa using here.symm
  rw [next] at differ
  exact differ

theorem runsTied (tied : x.score.same y.score = true) (later : runs (y :: rest) = run :: more) :
    runs (x :: y :: rest) = (x :: run) :: more := by
  obtain ⟨whole, filled, chained, parted⟩ := List.splitBy_eq_iff.mp later
  have nonempty : run ≠ [] := fun empty => filled (empty ▸ List.mem_cons_self)
  have first : run.head nonempty = y := by
    have heads := congrArg List.head? whole
    rw [List.flatten_cons, List.head?_append_of_ne_nil _ nonempty, List.head?_eq_some_head nonempty,
      List.head?_cons] at heads
    exact (Option.some.inj heads).symm
  obtain ⟨_, others, rfl⟩ := List.exists_cons_of_ne_nil nonempty
  obtain rfl := first
  refine List.splitBy_eq_iff.mpr ⟨?_, ?_, ?_, ?_⟩
  · rw [whole]
    rfl
  · simpa using filled
  · obtain ⟨here, there⟩ := List.forall_mem_cons.mp chained
    exact List.forall_mem_cons.mpr ⟨List.isChain_cons_cons.mpr ⟨tied, here⟩, there⟩
  · cases more with
    | nil => exact List.isChain_singleton _
    | cons next more =>
      obtain ⟨⟨_, right, differ⟩, later⟩ := List.isChain_cons_cons.mp parted
      exact List.isChain_cons_cons.mpr ⟨⟨List.cons_ne_nil _ _, right, differ⟩, later⟩

/- A run that is longer by one example has its cut where it had it. -/
theorem cutsFromTied (tied : x.score.same y.score = true) :
    cutsFrom (positives front) front.length (runs (x :: y :: rest)) =
      cutsFrom (positives (front ++ [x])) (front ++ [x]).length (runs (y :: rest)) := by
  have some : runs (y :: rest) ≠ [] := by simp [runs]
  obtain ⟨run, more, split⟩ := List.exists_cons_of_ne_nil some
  have filled : run ≠ [] :=
    List.ne_nil_of_mem_splitBy (split ▸ List.mem_cons_self : run ∈ runs (y :: rest))
  rw [runsTied tied split, split, cutsFromCons (List.cons_ne_nil x run), cutsFromCons filled,
    List.getLast_cons filled, List.append_assoc, List.singleton_append]

theorem closesHere (front rest : List Judged) (x : Judged) :
    closes ((front ++ x :: rest).map (·.score)) front.length =
      !(rest.head?.any fun y => x.score.same y.score) := by
  cases rest with
  | nil => simp [closes]
  | cons y rest => simp [closes]

theorem cutsFromPositions (front rest : List Judged) :
    cutsFrom (positives front) front.length (runs rest) =
      ((List.range' front.length rest.length).filter
        (closes ((front ++ rest).map (·.score)))).map (cutAt (front ++ rest)) := by
  induction rest generalizing front with
  | nil => rfl
  | cons x rest ih =>
    have later := ih (front ++ [x])
    rw [List.append_assoc, List.singleton_append, List.length_append,
      List.length_singleton] at later
    rw [List.length_cons, List.range'_succ, List.filter_cons, closesHere]
    cases tied : rest.head?.any fun y => x.score.same y.score with
    | false =>
      rw [runsApart tied, cutsFromCons (List.cons_ne_nil x []), List.length_append,
        List.length_singleton, later]
      simp [cutAt, List.take_append, List.take_of_length_le]
    | true =>
      cases rest with
      | nil => simp at tied
      | cons y rest =>
        rw [cutsFromTied (by simpa using tied), List.length_append, List.length_singleton, later]
        simp

end Runs

theorem cutsPositions (ranked : List Judged) :
    cuts ranked = (runEnds (ranked.map (·.score))).map (cutAt ranked) := by
  have whole := cutsFromPositions [] ranked
  rw [List.nil_append, List.length_nil, ← List.range_eq_range'] at whole
  rw [runEnds, List.length_map]
  exact whole

end EvalReport.Ranking
