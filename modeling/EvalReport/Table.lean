/-! Values kept under names, in the order of the names. Strings compare by code point,
which is also the order of their UTF-8 bytes. -/
namespace EvalReport

theorem stringLtOfNotLt {a b : String} (notBelow : ¬ a < b) (different : a ≠ b) : b < a := by
  apply Classical.byContradiction
  intro notAbove
  exact different (String.le_antisymm (String.not_lt.1 notAbove) (String.not_lt.1 notBelow))

/-- The entries with strictly increasing names. -/
structure Table (β : Type) where
  entries : List (String × β)
  ordered : entries.Pairwise fun a b => a.1 < b.1

namespace Table

variable {β γ : Type}

theorem ext {t u : Table β} (same : t.entries = u.entries) : t = u := by
  cases t; cases u; cases same; rfl

def empty : Table β := ⟨[], .nil⟩

instance : EmptyCollection (Table β) := ⟨empty⟩
instance : Inhabited (Table β) := ⟨empty⟩

/-- Replaces what stands under `key` by `change` of it, or enters `change none`. -/
def alterEntries (key : String) (change : Option β → β) : List (String × β) → List (String × β)
  | [] => [(key, change none)]
  | (name, value) :: rest =>
    if key < name then (key, change none) :: (name, value) :: rest
    else if key = name then (name, change (some value)) :: rest
    else (name, value) :: alterEntries key change rest

theorem alterEntriesKeys {key : String} {change : Option β → β} {xs : List (String × β)}
    {entry : String × β} (member : entry ∈ alterEntries key change xs) :
    entry.1 = key ∨ ∃ old ∈ xs, old.1 = entry.1 := by
  induction xs with
  | nil => simp [alterEntries] at member; simp [member]
  | cons head rest ih =>
    obtain ⟨name, value⟩ := head
    simp only [alterEntries] at member
    split at member
    · rcases List.mem_cons.mp member with rfl | old
      · exact .inl rfl
      · exact .inr ⟨entry, old, rfl⟩
    · split at member
      · rename_i same
        rcases List.mem_cons.mp member with rfl | old
        · exact .inl same.symm
        · exact .inr ⟨entry, List.mem_cons_of_mem _ old, rfl⟩
      · rcases List.mem_cons.mp member with rfl | old
        · exact .inr ⟨(name, value), List.mem_cons_self, rfl⟩
        · rcases ih old with here | ⟨found, inRest, eq⟩
          · exact .inl here
          · exact .inr ⟨found, List.mem_cons_of_mem _ inRest, eq⟩

theorem alterEntriesOrdered {key : String} {change : Option β → β} {xs : List (String × β)}
    (ordered : xs.Pairwise fun a b => a.1 < b.1) :
    (alterEntries key change xs).Pairwise fun a b => a.1 < b.1 := by
  induction xs with
  | nil => simp [alterEntries]
  | cons head rest ih =>
    obtain ⟨name, value⟩ := head
    obtain ⟨first, tail⟩ := List.pairwise_cons.mp ordered
    simp only [alterEntries]
    split
    · rename_i below
      refine List.pairwise_cons.mpr ⟨fun entry member => ?_, ordered⟩
      rcases List.mem_cons.mp member with rfl | old
      · exact below
      · exact String.lt_trans below (first entry old)
    · split
      · exact List.pairwise_cons.mpr ⟨fun entry member => first entry member, tail⟩
      · rename_i notBelow different
        refine List.pairwise_cons.mpr ⟨fun entry member => ?_, ih tail⟩
        rcases alterEntriesKeys member with same | ⟨old, inRest, same⟩
        · rw [same]; exact stringLtOfNotLt notBelow different
        · rw [← same]; exact first old inRest

def alter (t : Table β) (key : String) (change : Option β → β) : Table β :=
  ⟨alterEntries key change t.entries, alterEntriesOrdered t.ordered⟩

def insert (t : Table β) (key : String) (value : β) : Table β :=
  t.alter key fun _ => value

def ofList (xs : List (String × β)) : Table β :=
  xs.foldl (fun t x => t.insert x.1 x.2) empty

def find? (t : Table β) (key : String) : Option β :=
  (t.entries.find? fun e => e.1 == key).map (·.2)

def keys (t : Table β) : List String := t.entries.map (·.1)

def size (t : Table β) : Nat := t.entries.length

def map (f : β → γ) (t : Table β) : Table γ :=
  ⟨t.entries.map fun e => (e.1, f e.2), List.pairwise_map.mpr t.ordered⟩

end Table

end EvalReport
