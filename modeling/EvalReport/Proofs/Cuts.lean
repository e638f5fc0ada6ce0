import EvalReport.Proofs.Runs
import Mathlib.Algebra.Order.Field.Rat
import Mathlib.Data.Set.Finite.Lemmas

/-! Cuts of a ranking, and what a cut-off selects. The cuts of the descending order are one for
each level that occurs, highest first; a cut counts the examples of its level and above. Every
cut-off that selects an example selects what one of the cuts does. -/
namespace EvalReport.Ranking

/-! ### Cut-offs -/

def selectedAt (xs : List Judged) (level : Int) : Nat :=
  xs.countP fun x => level ≤ x.score.level

def foundAt (xs : List Judged) (level : Int) : Nat :=
  xs.countP fun x => x.relevant && level ≤ x.score.level

noncomputable def selectedBy (xs : List Judged) (c : EReal) : Nat :=
  xs.countP fun x => c ≤ x.score.value

noncomputable def foundBy (xs : List Judged) (c : EReal) : Nat :=
  xs.countP fun x => x.relevant && c ≤ x.score.value

noncomputable def precisionBy (xs : List Judged) (c : EReal) : ℚ :=
  foundBy xs c / selectedBy xs c

section CutOffs

variable {xs ys : List Judged} {s : Score} {level : Int} {c : EReal}

theorem selectedCongr {α : Type} {xs : List α} {p q : α → Prop} [DecidablePred p]
    [DecidablePred q] (same : ∀ x ∈ xs, p x ↔ q x) :
    xs.countP (fun x => p x) = xs.countP fun x => q x := by
  apply List.countP_congr
  simpa only [decide_eq_true_eq] using same

theorem foundCongr {α : Type} {xs : List α} {counted : α → Bool} {p q : α → Prop}
    [DecidablePred p] [DecidablePred q] (same : ∀ x ∈ xs, p x ↔ q x) :
    xs.countP (fun x => counted x && p x) = xs.countP fun x => counted x && q x := by
  apply List.countP_congr
  intro x member
  simp only [Bool.and_eq_true, decide_eq_true_eq, same x member]

theorem selectedLevels (numbers : Numbers xs) (number : s.isNaN = false) :
    selectedBy xs s.value = selectedAt xs s.level :=
  selectedCongr fun x member => Score.valueLe number (numbers x member)

theorem foundLevels (numbers : Numbers xs) (number : s.isNaN = false) :
    foundBy xs s.value = foundAt xs s.level :=
  foundCongr fun x member => Score.valueLe number (numbers x member)

theorem selectedSame {b : EReal} (same : ∀ x ∈ xs, b ≤ x.score.value ↔ c ≤ x.score.value) :
    selectedBy xs b = selectedBy xs c :=
  selectedCongr same

theorem foundSame {b : EReal} (same : ∀ x ∈ xs, b ≤ x.score.value ↔ c ≤ x.score.value) :
    foundBy xs b = foundBy xs c :=
  foundCongr same

theorem foundSelected (xs : List Judged) (c : EReal) : foundBy xs c ≤ selectedBy xs c :=
  List.countP_mono_left fun _ _ both => (Bool.and_eq_true_iff.mp both).2

theorem foundAntitone (xs : List Judged) : Antitone (foundBy xs) := by
  intro low high ordered
  refine List.countP_mono_left fun x _ found => ?_
  simp only [Bool.and_eq_true, decide_eq_true_eq] at found ⊢
  exact ⟨found.1, ordered.trans found.2⟩

theorem selectedPerm (perm : xs.Perm ys) : selectedAt xs level = selectedAt ys level :=
  perm.countP_eq _

theorem foundPerm (perm : xs.Perm ys) : foundAt xs level = foundAt ys level :=
  perm.countP_eq _

theorem lowestSelected (some : 0 < selectedBy xs c) :
    ∃ x ∈ xs, ∀ y ∈ xs, c ≤ y.score.value ↔ x.score.value ≤ y.score.value := by
  obtain ⟨first, member, above⟩ := List.countP_pos_iff.mp some
  obtain ⟨x, ⟨here, reached⟩, lowest⟩ := Set.exists_min_image
    {x | x ∈ xs ∧ c ≤ x.score.value} (·.score.value)
    (xs.finite_toSet.subset fun _ both => both.1) ⟨first, member, of_decide_eq_true above⟩
  exact ⟨x, here, fun y listed => ⟨fun selected => lowest y ⟨listed, selected⟩, reached.trans⟩⟩

end CutOffs

/-! ### Cuts -/

section Tiers

variable {front run : List Judged} {rest : List (List Judged)} {level : Int}

theorem countFrom (counted : Judged → Bool) (above : ∀ x ∈ front, level < x.score.level)
    (tied : ∀ x ∈ run, x.score.level = level) (apart : ∀ x ∈ rest.flatten, x.score.level < level) :
    (front ++ (run ++ rest.flatten)).countP (fun x => counted x && level ≤ x.score.level) =
      (front ++ run).countP counted := by
  have none : rest.flatten.countP (fun x => counted x && level ≤ x.score.level) = 0 := by
    rw [List.countP_eq_zero]
    intro x member
    have := apart x member
    simp only [Bool.and_eq_true, decide_eq_true_eq]
    omega
  rw [← List.append_assoc, List.countP_append, none, Nat.add_zero]
  apply List.countP_congr
  intro x member
  have kept : level ≤ x.score.level := by
    rcases List.mem_append.mp member with before | here
    · exact Int.le_of_lt (above x before)
    · exact Int.le_of_eq (tied x here).symm
  simp [kept]

theorem foundFrom (above : ∀ x ∈ front, level < x.score.level)
    (tied : ∀ x ∈ run, x.score.level = level) (apart : ∀ x ∈ rest.flatten, x.score.level < level) :
    foundAt (front ++ (run ++ rest.flatten)) level = positives (front ++ run) :=
  countFrom (·.relevant) above tied apart

theorem selectedFrom (above : ∀ x ∈ front, level < x.score.level)
    (tied : ∀ x ∈ run, x.score.level = level) (apart : ∀ x ∈ rest.flatten, x.score.level < level) :
    selectedAt (front ++ (run ++ rest.flatten)) level = (front ++ run).length := by
  have all := countFrom (fun _ => true) above tied apart
  simpa only [selectedAt, Bool.true_and, List.countP_true] using all

theorem cutsFromCons (filled : run ≠ []) :
    cutsFrom (positives front) front.length (run :: rest) =
      ⟨positives (front ++ run), (front ++ run).length, (run.getLast filled).score⟩ ::
        cutsFrom (positives (front ++ run)) (front ++ run).length rest := by
  simp [cutsFrom, List.getLast?_eq_some_getLast filled, positives]

end Tiers

def Above (front : List Judged) (rs : List (List Judged)) : Prop :=
  ∀ x ∈ front, ∀ y ∈ rs.flatten, y.score.level < x.score.level

section Above

variable {front run : List Judged} {rest : List (List Judged)} {level : Int}

theorem aboveRun (above : Above front (run :: rest)) (filled : run ≠ [])
    (tied : ∀ x ∈ run, x.score.level = level) : ∀ x ∈ front, level < x.score.level := by
  obtain ⟨y, member⟩ := List.exists_mem_of_ne_nil run filled
  intro x first
  exact tied y member ▸ above x first y (List.mem_append_left _ member)

theorem aboveRest (above : Above front (run :: rest)) (tied : ∀ x ∈ run, x.score.level = level)
    (apart : ∀ x ∈ rest.flatten, x.score.level < level) : Above (front ++ run) rest := by
  intro x first y second
  rcases List.mem_append.mp first with before | here
  · exact above x before y (List.mem_append_right _ second)
  · exact tied x here ▸ apart y second

end Above

structure Selects (xs : List Judged) (c : Cut) : Prop where
  found : c.positives = foundAt xs c.score.level
  selected : c.selected = selectedAt xs c.score.level

/- One cut for every level of the examples in `part`, highest first. -/
structure Sweep (xs part : List Judged) (cs : List Cut) : Prop where
  selects : ∀ c ∈ cs, Selects xs c
  attained : ∀ c ∈ cs, ∃ x ∈ part, x.score = c.score
  covers : ∀ x ∈ part, ∃ c ∈ cs, c.score.level = x.score.level
  falling : cs.Pairwise fun c d => d.score.level < c.score.level

theorem cutsFromSweep {rs : List (List Judged)} (tiers : Tiers (· > ·) rs) {front : List Judged}
    (above : Above front rs) : Sweep (front ++ rs.flatten) rs.flatten
      (cutsFrom (positives front) front.length rs) := by
  induction tiers generalizing front with
  | nil => exact ⟨by simp [cutsFrom], by simp [cutsFrom], by simp, .nil⟩
  | @cons run rest level filled tied apart later ih =>
    have last := run.getLast_mem filled
    have before := aboveRun above filled tied
    have after := ih (aboveRest above tied apart)
    rw [List.append_assoc] at after
    rw [cutsFromCons filled, List.flatten_cons]
    constructor
    case selects =>
      refine List.forall_mem_cons.mpr ⟨⟨?_, ?_⟩, after.selects⟩
      · rw [tied _ last, foundFrom before tied apart]
      · rw [tied _ last, selectedFrom before tied apart]
    case attained =>
      refine List.forall_mem_cons.mpr ⟨⟨_, List.mem_append_left _ last, rfl⟩, ?_⟩
      intro c member
      obtain ⟨x, there, same⟩ := after.attained c member
      exact ⟨x, List.mem_append_right _ there, same⟩
    case covers =>
      intro x member
      rcases List.mem_append.mp member with here | there
      · exact ⟨_, List.mem_cons_self, (tied _ last).trans (tied x here).symm⟩
      · obtain ⟨c, among, same⟩ := after.covers x there
        exact ⟨c, List.mem_cons_of_mem _ among, same⟩
    case falling =>
      refine List.pairwise_cons.mpr ⟨fun c member => ?_, after.falling⟩
      obtain ⟨x, there, same⟩ := after.attained c member
      rw [← same, tied _ last]
      exact apart x there

theorem sweepPerm {xs ys : List Judged} {cs : List Cut} (perm : xs.Perm ys)
    (sweep : Sweep xs xs cs) : Sweep ys ys cs where
  selects c member := {
    found := (sweep.selects c member).found.trans (foundPerm perm)
    selected := (sweep.selects c member).selected.trans (selectedPerm perm) }
  attained c member := by
    obtain ⟨x, listed, same⟩ := sweep.attained c member
    exact ⟨x, perm.mem_iff.mp listed, same⟩
  covers x member := sweep.covers x (perm.mem_iff.mpr member)
  falling := sweep.falling

theorem cutsSweep {xs : List Judged} (numbers : Numbers xs) :
    Sweep xs xs (cuts (descending xs)) := by
  have sweep := @cutsFromSweep _ (descendingTiers numbers) [] (by simp [Above])
  rw [List.nil_append, runsWhole] at sweep
  exact sweepPerm (descendingPerm xs) sweep

section OfCuts

variable {xs : List Judged} {d : Cut}

theorem cutNumber (numbers : Numbers xs) (member : d ∈ cuts (descending xs)) :
    d.score.isNaN = false := by
  obtain ⟨x, listed, same⟩ := (cutsSweep numbers).attained d member
  exact same ▸ numbers x listed

theorem cutFound (numbers : Numbers xs) (member : d ∈ cuts (descending xs)) :
    d.positives = foundBy xs d.score.value :=
  ((cutsSweep numbers).selects d member).found.trans
    (foundLevels numbers (cutNumber numbers member)).symm

theorem cutSelected (numbers : Numbers xs) (member : d ∈ cuts (descending xs)) :
    d.selected = selectedBy xs d.score.value :=
  ((cutsSweep numbers).selects d member).selected.trans
    (selectedLevels numbers (cutNumber numbers member)).symm

theorem cutOffCut (numbers : Numbers xs) {c : EReal} (some : 0 < selectedBy xs c) :
    ∃ d ∈ cuts (descending xs), ∀ x ∈ xs, c ≤ x.score.value ↔ d.score.value ≤ x.score.value := by
  obtain ⟨x, listed, same⟩ := lowestSelected some
  obtain ⟨d, member, level⟩ := (cutsSweep numbers).covers x listed
  have tied : d.score.value = x.score.value :=
    (Score.valueEq (cutNumber numbers member) (numbers x listed)).mpr level
  exact ⟨d, member, fun y among => tied ▸ same y among⟩

end OfCuts

end EvalReport.Ranking
