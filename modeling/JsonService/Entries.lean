/-!
# Entries

Values by name, with the names ascending: the members of an object, the entries of a table of settings, and
counters. Main statements: an entry has the value that it was given last (`get?_insert`), and the names stay
ascending (`Ascending.insert`).
-/
namespace JsonService

abbrev Entries (α : Type) := List (String × α)

namespace Entries

/-- The entries with `name` set to `value`: in place of an earlier value, else where the order of the names
puts it. -/
def insert (name : String) (value : α) : Entries α → Entries α
  | [] => [(name, value)]
  | (k, v) :: rest =>
    if name = k then (name, value) :: rest
    else if name < k then (name, value) :: (k, v) :: rest
    else (k, v) :: insert name value rest

/-- The value of a name, if there is one. -/
def get? (name : String) : Entries α → Option α
  | [] => none
  | (k, v) :: rest => if k = name then some v else get? name rest

/-- An entry has the value that it was given last, and no other entry changes. -/
theorem get?_insert (name k : String) (value : α) (es : Entries α) :
    get? k (insert name value es) = if k = name then some value else get? k es := by
  have unset : ∀ rest : Entries α,
      get? k ((name, value) :: rest) = if k = name then some value else get? k rest := by
    intro rest
    by_cases h : name = k
    · simp [get?, h]
    · simp [get?, h, Ne.symm h]
  induction es with
  | nil => exact unset []
  | cons e rest ih =>
    obtain ⟨key, v⟩ := e
    simp only [insert]
    split
    · rename_i hkey
      subst hkey
      by_cases h : name = k
      · simp [get?, h]
      · simp [get?, h, Ne.symm h]
    · split
      · exact unset _
      · rename_i hkey _
        by_cases h : key = k
        · have hne : k ≠ name := fun he => hkey (he ▸ h.symm)
          simp [get?, h, hne]
        · simp [get?, h, ih]

/-- The names ascend strictly. -/
def Ascending (es : Entries α) : Prop := es.Pairwise fun a b => a.1 < b.1

/-- The names of the entries with one more are their names and that one. -/
theorem mem_insert {name k : String} {value : α} {es : Entries α} :
    k ∈ (insert name value es).map (·.1) ↔ k = name ∨ k ∈ es.map (·.1) := by
  induction es with
  | nil => simp [insert]
  | cons e rest ih =>
    simp only [insert]
    split
    · simp_all
    · split
      · simp
      · simp only [List.map_cons, List.mem_cons, ih]
        exact or_left_comm

/-- The names stay ascending. -/
theorem Ascending.insert {es : Entries α} (h : Ascending es) (name : String) (value : α) :
    Ascending (Entries.insert name value es) := by
  induction es with
  | nil => simp [Ascending, Entries.insert]
  | cons e rest ih =>
    obtain ⟨k, v⟩ := e
    obtain ⟨hk, hrest⟩ := List.pairwise_cons.1 h
    simp only [Entries.insert]
    split
    · rename_i heq
      exact List.pairwise_cons.2 ⟨fun e he => heq ▸ hk e he, hrest⟩
    · split
      · refine List.pairwise_cons.2 ⟨fun e he => ?_, h⟩
        rcases List.mem_cons.1 he with rfl | he
        · assumption
        · exact String.lt_trans ‹name < k› (hk e he)
      · refine List.pairwise_cons.2 ⟨fun e he => ?_, ih hrest⟩
        have hlt : k < name :=
          Std.lt_of_le_of_ne (String.not_lt.1 ‹¬name < k›) (Ne.symm ‹¬name = k›)
        rcases mem_insert.1 (List.mem_map.2 ⟨e, he, rfl⟩) with h | h
        · exact h ▸ hlt
        · obtain ⟨e', he', hee⟩ := List.mem_map.1 h
          exact hee ▸ hk e' he'

end Entries

end JsonService
