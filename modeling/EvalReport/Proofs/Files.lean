import EvalReport.Folder
import EvalReport.Proofs.Decoding
import Mathlib.Data.List.Basic

/-! Files by their paths. Whether a path names a file depends on the folders alone, so what was
written under a path is read under it again, and the files at other places are as before. A path
of plain names leads to the place that the names spell out. -/
namespace EvalReport

namespace Folder

variable {f g : Folder} {path : String} {place : Place} {content : FileContent}

/-! ### Reading what was written -/

theorem locateOk {writing : Bool} : f.locate writing path = .ok place ↔
    '\x00' ∉ path.toList ∧ path ≠ "" ∧ f.walk path = .ok place ∧ f.isFolder place = false ∧
      path.toList.getLast? ≠ some '/' := by
  unfold locate
  by_cases ended : '\x00' ∈ path.toList
  · simp [ended]
  by_cases blank : path = ""
  · simp [blank]
  rw [if_neg (by simpa using ended), if_neg blank, bindOk]
  constructor
  · rintro ⟨there, walked, rest⟩
    split at rest
    · contradiction
    · rename_i free
      split at rest
      · contradiction
      · rename_i closed
        cases rest
        exact ⟨ended, blank, walked, Bool.eq_false_iff.mpr free, closed⟩
  · rintro ⟨_, _, walked, free, closed⟩
    exact ⟨place, walked, by rw [if_neg (Bool.eq_false_iff.mp free), if_neg closed]⟩

theorem foldlMAgain {α β ε : Type} {h k : α → β → Except ε α}
    (each : ∀ a x b, h a x = .ok b → k a x = .ok b) (xs : List β) {a b : α}
    (folded : xs.foldlM h a = .ok b) : xs.foldlM k a = .ok b := by
  induction xs generalizing a with
  | nil => exact folded
  | cons x rest ih =>
    rw [List.foldlM_cons, bindOk] at folded ⊢
    obtain ⟨next, first, later⟩ := folded
    exact ⟨next, each a x next first, ih later⟩

/- Files can come and go: what a path leads to depends on the folders. -/
theorem locateAgain {writing : Bool} (found : f.locate writing path = .ok place)
    (here : g.here = f.here) (folders : g.folders = f.folders) (reading : Bool) :
    g.locate reading path = .ok place := by
  have same : g.isFolder = f.isFolder := by
    funext place
    rw [isFolder, isFolder, here, folders]
  obtain ⟨ended, blank, walked, free, closed⟩ := locateOk.mp found
  refine locateOk.mpr ⟨ended, blank, ?_, same ▸ free, closed⟩
  rw [walk, here]
  refine foldlMAgain (fun at_ step next entered => ?_) _ walked
  unfold enter at entered ⊢
  rw [same]
  split at entered
  · rename_i there
    rwa [if_pos there]
  · contradiction

def put (f : Folder) (place : Place) (content : FileContent) : Folder :=
  { f with files := (place, content) :: f.files.filter fun file => file.1 ≠ place }

theorem writeOk : f.write path content = .ok g ↔
    ∃ place, f.locate true path = .ok place ∧ f.put place content = g :=
  mapOk

theorem contentPut (f : Folder) (place : Place) (content : FileContent) (other : Place) :
    (f.put place content).content? other =
      if other = place then some content else f.content? other := by
  have rest (files : List (Place × FileContent)) (apart : other ≠ place) :
      (files.filter fun file => file.1 ≠ place).lookup other = files.lookup other := by
    induction files with
    | nil => rfl
    | cons file files ih =>
      by_cases old : file.1 = place
      · have skipped : (other == file.1) = false := by simpa [old] using apart
        rw [List.filter_cons_of_neg (by simpa using old), List.lookup_cons, skipped, ih]
      · rw [List.filter_cons_of_pos (by simpa using old), List.lookup_cons, List.lookup_cons, ih]
  rw [content?, put, List.lookup_cons]
  split
  · rename_i same
    rw [if_pos (eq_of_beq same)]
  · rename_i apart
    rw [if_neg (by simpa using apart)]
    exact rest f.files (by simpa using apart)

theorem readWritten {s : String} (written : f.write path (.text s) = .ok g) :
    g.readText path = .ok s := by
  obtain ⟨place, located, rfl⟩ := writeOk.mp written
  have again := locateAgain (g := f.put place (.text s)) located rfl rfl false
  rw [readText, again]
  simp only [bind, Except.bind, contentPut, if_true]

theorem readOther {other : String} {kept : Place} (written : f.write path content = .ok g)
    (located : f.locate true path = .ok place) (found : f.locate false other = .ok kept)
    (apart : kept ≠ place) : g.readText other = f.readText other := by
  obtain ⟨there, again, rfl⟩ := writeOk.mp written
  cases located.symm.trans again
  have still := locateAgain (g := f.put place content) found rfl rfl false
  rw [readText, readText, still, found]
  simp only [bind, Except.bind, contentPut, if_neg apart]

end Folder

/-! ### Plain paths -/

structure PlainName (name : String) : Prop where
  filled : name ≠ ""
  dot : name ≠ "."
  dots : name ≠ ".."
  slash : '/' ∉ name.toList
  ended : '\x00' ∉ name.toList

instance (name : String) : Decidable (PlainName name) :=
  decidable_of_iff (name ≠ "" ∧ name ≠ "." ∧ name ≠ ".." ∧ '/' ∉ name.toList ∧
    '\x00' ∉ name.toList)
    ⟨fun ⟨filled, dot, dots, slash, ended⟩ => ⟨filled, dot, dots, slash, ended⟩,
      fun ⟨filled, dot, dots, slash, ended⟩ => ⟨filled, dot, dots, slash, ended⟩⟩

def joinedNames (names : List String) : List Char := ['/'].intercalate (names.map String.toList)

def pathOf (rooted : Bool) (names : List String) : String :=
  String.ofList ((if rooted then ['/'] else []) ++ joinedNames names)

theorem joinedCons (name next : String) (rest : List String) :
    joinedNames (name :: next :: rest) = name.toList ++ '/' :: joinedNames (next :: rest) :=
  rfl

theorem joinedMember {names : List String} {c : Char} (member : c ∈ joinedNames names) :
    c = '/' ∨ ∃ name ∈ names, c ∈ name.toList := by
  induction names with
  | nil => contradiction
  | cons name rest ih =>
    cases rest with
    | nil => exact .inr ⟨name, List.mem_cons_self, by simpa [joinedNames] using member⟩
    | cons next rest =>
      rw [joinedCons, List.mem_append, List.mem_cons] at member
      obtain inside | rfl | later := member
      · exact .inr ⟨name, List.mem_cons_self, inside⟩
      · exact .inl rfl
      · exact (ih later).imp_right fun ⟨other, there, inside⟩ =>
          ⟨other, List.mem_cons_of_mem _ there, inside⟩

theorem joinedHead {names : List String} (nonempty : names ≠ [])
    (plain : ∀ name ∈ names, PlainName name) : (joinedNames names).head? ≠ some '/' := by
  obtain ⟨name, rest, rfl⟩ := List.exists_cons_of_ne_nil nonempty
  obtain ⟨filled, _, _, slash, _⟩ := plain name List.mem_cons_self
  obtain ⟨c, cs, chars⟩ := List.exists_cons_of_ne_nil (by simpa using filled : name.toList ≠ [])
  have lead : (joinedNames (name :: rest)).head? = some c := by
    cases rest <;> simp [joinedNames, chars]
  rw [lead]
  rintro same
  cases Option.some.inj same
  exact slash (chars ▸ List.mem_cons_self)

theorem joinedLast (way : List String) (name : String) :
    ∃ front, joinedNames (way ++ [name]) = front ++ name.toList := by
  induction way with
  | nil => exact ⟨[], by simp [joinedNames]⟩
  | cons first rest ih =>
    obtain ⟨front, same⟩ := ih
    cases rest with
    | nil => exact ⟨first.toList ++ ['/'], by simp [joinedNames]⟩
    | cons next rest =>
      refine ⟨first.toList ++ '/' :: front, ?_⟩
      rw [List.cons_append, List.cons_append, joinedCons, ← List.cons_append, same,
        List.append_assoc, List.cons_append]

theorem stepsOf (rooted : Bool) {names : List String} (some : names ≠ [])
    (plain : ∀ name ∈ names, PlainName name) : pathSteps (pathOf rooted names) = names := by
  have split : (joinedNames names).splitOn '/' = names.map String.toList := by
    refine List.splitOn_intercalate '/' ?_ (by simpa using some)
    intro _ member
    obtain ⟨name, inside, rfl⟩ := List.mem_map.mp member
    exact (plain name inside).slash
  have all : (names.map String.toList).filter (fun step => step ≠ []) =
      names.map String.toList := by
    refine List.filter_eq_self.mpr fun _ member => ?_
    obtain ⟨name, inside, rfl⟩ := List.mem_map.mp member
    simpa using (plain name inside).filled
  have rest : ((joinedNames names).splitOn '/').filter (fun step => step ≠ []) =
      names.map String.toList := split ▸ all
  have kept : ((String.toList (pathOf rooted names)).splitOn '/').filter (fun step => step ≠ []) =
      names.map String.toList := by
    rw [pathOf, String.toList_ofList]
    cases rooted with
    | false => exact rest
    | true => exact (List.filter_cons_of_neg (by simp)).trans rest
  rw [pathSteps, kept, List.map_map]
  simp

theorem isFolderUp (f : Folder) (place : Place) {more : Place}
    (there : f.isFolder (place ++ more) = true) : f.isFolder place = true := by
  have up {other : Place} (below : (place ++ more).isPrefixOf other = true) :
      place.isPrefixOf other = true :=
    List.isPrefixOf_iff_prefix.mpr
      ((List.prefix_append place more).trans (List.isPrefixOf_iff_prefix.mp below))
  simp only [Folder.isFolder, Bool.or_eq_true, List.any_eq_true] at there ⊢
  exact there.imp up fun ⟨folder, member, below⟩ => ⟨folder, member, up below⟩

theorem enterPlain {f : Folder} {place : Place} {name : String} (plain : PlainName name)
    (there : f.isFolder place = true) : f.enter place name = .ok (place ++ [name]) := by
  rw [Folder.enter, if_pos there, if_neg plain.dot, if_neg plain.dots]

theorem enterAll {f : Folder} {start : Place} (way : List String) {name : String}
    (plain : ∀ n ∈ way ++ [name], PlainName n) (there : f.isFolder (start ++ way) = true) :
    (way ++ [name]).foldlM f.enter start = .ok (start ++ way ++ [name]) := by
  induction way generalizing start with
  | nil =>
    rw [List.append_nil] at there ⊢
    rw [List.nil_append, List.foldlM_cons, enterPlain (plain name (by simp)) there]
    rfl
  | cons first rest ih =>
    obtain ⟨here, later⟩ := List.forall_mem_cons.mp plain
    rw [List.cons_append, List.foldlM_cons, enterPlain here (isFolderUp f start there)]
    rw [List.append_cons start first rest] at there ⊢
    exact ih later there

/- The names in a path are those that lead to its place, from the root or from the working
folder. -/
theorem plainLocated (f : Folder) (rooted : Bool) (way : List String) {name : String}
    (plain : ∀ n ∈ way ++ [name], PlainName n)
    (there : f.isFolder ((if rooted then [] else f.here) ++ way) = true)
    (free : f.isFolder ((if rooted then [] else f.here) ++ way ++ [name]) = false)
    (writing : Bool) : f.locate writing (pathOf rooted (way ++ [name])) =
      .ok ((if rooted then [] else f.here) ++ way ++ [name]) := by
  have last := plain name (by simp)
  obtain ⟨front, same⟩ := joinedLast way name
  have chars : (pathOf rooted (way ++ [name])).toList =
      (if rooted then ['/'] else []) ++ joinedNames (way ++ [name]) := String.toList_ofList
  have nonempty : name.toList ≠ [] := by simpa using last.filled
  have final : (pathOf rooted (way ++ [name])).toList.getLast? = name.toList.getLast? := by
    rw [chars, same, ← List.append_assoc, List.getLast?_append_of_ne_nil _ nonempty]
  refine Folder.locateOk.mpr ⟨?ended, ?blank, ?walked, free, ?closed⟩
  case ended =>
    rw [chars, List.mem_append]
    rintro (lead | inside)
    · cases rooted <;> simp at lead
    · obtain slash | ⟨n, member, there⟩ := joinedMember inside
      · contradiction
      · exact (plain n member).ended there
  case blank =>
    rintro blank
    rw [blank] at final
    exact nonempty (List.getLast?_eq_none_iff.mp final.symm)
  case walked =>
    rw [Folder.walk, stepsOf rooted (by simp) plain, chars]
    cases rooted with
    | false => exact (if_neg (joinedHead (by simp) plain)).symm ▸ enterAll way plain there
    | true => exact enterAll way plain there
  case closed =>
    rw [final]
    exact fun slash => last.slash (List.mem_of_getLast? slash)

end EvalReport
