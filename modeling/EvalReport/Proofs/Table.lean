import EvalReport.Table
import Mathlib.Data.List.Perm.Basic

/-! Tables by what is found under each name. Names are strictly increasing, so what is found
fixes the table, and an entry is a member exactly where it is found. -/
namespace EvalReport.Table

variable {β γ : Type}

theorem namesDiffer (t : Table β) : t.entries.Pairwise fun a b => a.1 ≠ b.1 := by
  apply t.ordered.imp
  intro a b below same
  rw [same] at below
  exact String.lt_irrefl _ below

def findIn (key : String) (xs : List (String × β)) : Option β :=
  (xs.find? fun e => e.1 == key).map (·.2)

theorem findInCons (key name : String) (value : β) (rest : List (String × β)) :
    findIn key ((name, value) :: rest) = if name = key then some value else findIn key rest := by
  unfold findIn
  by_cases same : name = key
  · simp [same]
  · simp [same]

theorem findInAbsent {key : String} {xs : List (String × β)} (absent : ∀ e ∈ xs, e.1 ≠ key) :
    findIn key xs = none := by
  have missing : xs.find? (fun e => e.1 == key) = none := by simpa using absent
  simp [findIn, missing]

theorem findInBelow {key here : String} {value : β} {rest : List (String × β)}
    (first : ∀ e ∈ rest, here < e.1) (below : key < here) :
    findIn key ((here, value) :: rest) = none := by
  apply findInAbsent
  intro e member same
  rcases List.mem_cons.mp member with rfl | later
  · exact String.lt_irrefl key (same ▸ below)
  · exact String.lt_irrefl key (String.lt_trans below (same ▸ first e later))

theorem findInAlter {key : String} {change : Option β → β} {xs : List (String × β)}
    (ordered : xs.Pairwise fun a b => a.1 < b.1) (name : String) :
    findIn name (alterEntries key change xs) =
      if key = name then some (change (findIn key xs)) else findIn name xs := by
  induction xs with
  | nil => simp [alterEntries, findIn]
  | cons head rest ih =>
    obtain ⟨here, value⟩ := head
    obtain ⟨first, tail⟩ := List.pairwise_cons.mp ordered
    simp only [alterEntries]
    split
    · rename_i below
      rw [findInCons, findInBelow first below]
    · split
      · rename_i same
        subst same
        by_cases asked : key = name
        · subst asked
          simp [findInCons]
        · simp [findInCons, asked]
      · rename_i different
        rw [findInCons, findInCons, findInCons, ih tail, if_neg (Ne.symm different)]
        by_cases asked : here = name
        · subst asked
          simp [different]
        · simp [asked]

theorem findAlter (t : Table β) (key : String) (change : Option β → β) (name : String) :
    (t.alter key change).find? name =
      if key = name then some (change (t.find? key)) else t.find? name :=
  findInAlter t.ordered name

theorem findOfList {xs : List (String × β)} (differ : xs.Pairwise fun a b => a.1 ≠ b.1)
    (key : String) : (ofList xs).find? key = findIn key xs := by
  have inserted : ∀ t : Table β,
      (xs.foldl (fun t x => t.insert x.1 x.2) t).find? key = (findIn key xs).or (t.find? key) := by
    induction xs with
    | nil => simp [findIn]
    | cons head rest ih =>
      obtain ⟨name, value⟩ := head
      obtain ⟨first, tail⟩ := List.pairwise_cons.mp differ
      intro t
      rw [List.foldl_cons, ih tail, insert, findAlter, findInCons]
      by_cases here : name = key
      · subst here
        rw [findInAbsent fun e member => (first e member).symm]
        simp
      · simp [here]
  exact (inserted empty).trans Option.or_none

theorem findMap (f : β → γ) (t : Table β) (key : String) :
    (t.map f).find? key = (t.find? key).map f := by
  simp [Table.map, Table.find?, List.find?_map, Function.comp_def]

theorem findInMember {xs : List (String × β)} (differ : xs.Pairwise fun a b => a.1 ≠ b.1)
    {key : String} {value : β} : (key, value) ∈ xs ↔ findIn key xs = some value := by
  induction xs with
  | nil => simp [findIn]
  | cons head rest ih =>
    obtain ⟨name, here⟩ := head
    obtain ⟨first, tail⟩ := List.pairwise_cons.mp differ
    rw [findInCons, List.mem_cons, Prod.mk.injEq]
    by_cases same : name = key
    · subst same
      have absent : (name, value) ∉ rest := fun member => first _ member rfl
      simp [absent, eq_comm]
    · simp [same, Ne.symm same, ih tail]

theorem memberFound (t : Table β) {key : String} {value : β} :
    (key, value) ∈ t.entries ↔ t.find? key = some value :=
  findInMember t.namesDiffer

theorem keyFound (t : Table β) (key : String) : key ∈ t.keys ↔ (t.find? key).isSome := by
  simp only [keys, List.mem_map, Option.isSome_iff_exists, ← t.memberFound]
  constructor
  · rintro ⟨⟨name, value⟩, member, rfl⟩
    exact ⟨value, member⟩
  · rintro ⟨value, member⟩
    exact ⟨(key, value), member, rfl⟩

theorem keysDistinct (t : Table β) : t.keys.Nodup :=
  List.pairwise_map.mpr t.namesDiffer

theorem eqOfFind {t u : Table β} (same : ∀ key, t.find? key = u.find? key) : t = u := by
  have distinct : ∀ v : Table β, v.entries.Nodup := fun v =>
    v.namesDiffer.imp fun differ equal => differ (congrArg Prod.fst equal)
  have members : ∀ e, e ∈ t.entries ↔ e ∈ u.entries := by
    intro facts
    obtain ⟨key, value⟩ := facts
    rw [t.memberFound, u.memberFound, same]
  apply ext
  refine List.Perm.eq_of_pairwise ?_ t.ordered u.ordered
    ((List.perm_ext_iff_of_nodup (distinct t) (distinct u)).mpr members)
  intro a b _ _ below above
  exact absurd (String.lt_trans below above) (String.lt_irrefl _)

/-! ### One entry for each name of a catalogue, made from its offset -/

theorem offsetsDiffer {names : List String} (distinct : names.Nodup) (f : Nat → β) :
    (names.zipIdx.map fun e => (e.1, f e.2)).Pairwise fun a b => a.1 ≠ b.1 := by
  refine List.pairwise_map.mpr (List.pairwise_map (f := Prod.fst) (R := (· ≠ ·)).mp ?_)
  rw [List.zipIdx_map_fst]
  exact distinct

theorem findOfNames {names : List String} (distinct : names.Nodup) (f : Nat → β) {i : Nat}
    {name : String} (here : names[i]? = some name) :
    (ofList (names.zipIdx.map fun e => (e.1, f e.2))).find? name = some (f i) := by
  have differ := offsetsDiffer distinct f
  rw [findOfList differ, ← findInMember differ]
  exact List.mem_map.mpr ⟨(name, i), List.mem_zipIdx_iff_getElem?.mpr here, rfl⟩

theorem keyOfNames {names : List String} (distinct : names.Nodup) (f : Nat → β) (name : String) :
    name ∈ (ofList (names.zipIdx.map fun e => (e.1, f e.2))).keys ↔ name ∈ names := by
  rw [keyFound]
  constructor
  · intro found
    by_contra absent
    have missing : ∀ e ∈ names.zipIdx.map (fun e => (e.1, f e.2)), e.1 ≠ name := by
      simp only [List.mem_map, ne_eq, forall_exists_index, and_imp, forall_apply_eq_imp_iff₂]
      intro e member same
      exact absent (same ▸ List.fst_mem_of_mem_zipIdx member)
    rw [findOfList (offsetsDiffer distinct f), findInAbsent missing] at found
    contradiction
  · intro member
    obtain ⟨i, here⟩ := List.mem_iff_getElem?.mp member
    rw [findOfNames distinct f here]
    rfl

end EvalReport.Table
