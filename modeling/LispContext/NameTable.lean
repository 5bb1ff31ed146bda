/-!
Tables from names to entries. A name has at most one entry, and a new entry replaces the old one.

A property that every entry has, and a relation between the entries that two tables have under the
same names, survive what is done to tables, since an insertion and a removal touch one name and
leave the others as they are.
-/
namespace LispContext

structure NameTable (α : Type) where
  entries : List (String × α) := []
  deriving Repr, Inhabited

namespace NameTable

variable {α : Type}

def get? (table : NameTable α) (name : String) : Option α :=
  (table.entries.find? fun entry => entry.1 = name).map (·.2)

def contains (table : NameTable α) (name : String) : Bool := (table.get? name).isSome

def erase (table : NameTable α) (name : String) : NameTable α :=
  ⟨table.entries.filter fun entry => entry.1 ≠ name⟩

def insert (table : NameTable α) (name : String) (entry : α) : NameTable α :=
  ⟨(name, entry) :: (table.erase name).entries⟩

@[simp] theorem get?_insert_same (table : NameTable α) (name : String) (entry : α) :
    (table.insert name entry).get? name = some entry := by simp [get?, insert]

@[simp] theorem get?_erase_same (table : NameTable α) (name : String) :
    (table.erase name).get? name = none := by simp [get?, erase]

theorem get?_erase_other (table : NameTable α) {name other : String} (h : other ≠ name) :
    (table.erase name).get? other = table.get? other := by
  have keep (entry : String × α) :
      (decide (entry.1 ≠ name) && decide (entry.1 = other)) = decide (entry.1 = other) := by
    by_cases same : entry.1 = other <;> simp [same, h]
  simp only [get?, erase, List.find?_filter]
  congr 2
  funext entry
  simpa using keep entry

theorem get?_insert_other (table : NameTable α) {name other : String} (entry : α)
    (h : other ≠ name) :
    (table.insert name entry).get? other = table.get? other := by
  rw [← get?_erase_other table h]
  simp [get?, insert, h.symm]

variable {β : Type}

def All (P : α → Prop) (table : NameTable α) : Prop :=
  ∀ name entry, table.get? name = some entry → P entry

/-- Both tables have entries for the same names, and the entries of a name are related. -/
def Related (R : α → β → Prop) (table : NameTable α) (table' : NameTable β) : Prop :=
  ∀ name, Option.Rel R (table.get? name) (table'.get? name)

theorem All.empty (P : α → Prop) : ({} : NameTable α).All P := by
  intro name entry h
  cases h

theorem All.imp {P Q : α → Prop} {table : NameTable α} (h : table.All P) (hq : ∀ x, P x → Q x) :
    table.All Q := fun name entry he => hq entry (h name entry he)

theorem All.insert {P : α → Prop} {table : NameTable α} (h : table.All P) (name : String)
    {entry : α} (he : P entry) : (table.insert name entry).All P := by
  intro other found hf
  by_cases hn : other = name
  · subst hn
    rw [get?_insert_same, Option.some_inj] at hf
    exact hf ▸ he
  · rw [get?_insert_other table entry hn] at hf
    exact h other found hf

theorem All.erase {P : α → Prop} {table : NameTable α} (h : table.All P) (name : String) :
    (table.erase name).All P := by
  intro other found hf
  by_cases hn : other = name
  · subst hn
    rw [get?_erase_same] at hf
    cases hf
  · rw [get?_erase_other table hn] at hf
    exact h other found hf

theorem Related.empty (R : α → β → Prop) : ({} : NameTable α).Related R {} := fun _ => .none

theorem Related.insert {R : α → β → Prop} {table : NameTable α} {table' : NameTable β}
    (h : table.Related R table') (name : String) {entry : α} {entry' : β} (he : R entry entry') :
    (table.insert name entry).Related R (table'.insert name entry') := by
  intro other
  by_cases hn : other = name
  · subst hn
    rw [get?_insert_same, get?_insert_same]
    exact .some he
  · rw [get?_insert_other table entry hn, get?_insert_other table' entry' hn]
    exact h other

theorem Related.erase {R : α → β → Prop} {table : NameTable α} {table' : NameTable β}
    (h : table.Related R table') (name : String) :
    (table.erase name).Related R (table'.erase name) := by
  intro other
  by_cases hn : other = name
  · subst hn
    rw [get?_erase_same, get?_erase_same]
    exact .none
  · rw [get?_erase_other table hn, get?_erase_other table' hn]
    exact h other

/-- A name has an entry in neither of two related tables, or related entries in both. -/
theorem Related.get? {R : α → β → Prop} {table : NameTable α} {table' : NameTable β}
    (h : table.Related R table') (name : String) :
    (table.get? name = none ∧ table'.get? name = none) ∨
      ∃ entry entry', table.get? name = some entry ∧ table'.get? name = some entry' ∧
        R entry entry' := by
  have hn := h name
  generalize table.get? name = found at hn ⊢
  generalize table'.get? name = found' at hn ⊢
  cases hn with
  | none => exact .inl ⟨rfl, rfl⟩
  | some he => exact .inr ⟨_, _, rfl, rfl, he⟩

/-- Related tables contain the same names. -/
theorem Related.contains_eq {R : α → β → Prop} {table : NameTable α} {table' : NameTable β}
    (h : table.Related R table') (name : String) : table.contains name = table'.contains name := by
  rw [contains, contains]
  rcases h.get? name with ⟨hn, hn'⟩ | ⟨entry, entry', he, he', _⟩
  · rw [hn, hn']
    rfl
  · rw [he, he']
    rfl

end NameTable

end LispContext
