namespace SearchMapper

abbrev Dictionary (α : Type) := List (String × α)

namespace Dictionary

variable {α : Type}

def find? (key : String) : Dictionary α → Option α
  | [] => none
  | (k, v) :: rest => if k = key then some v else find? key rest

def contains (key : String) (d : Dictionary α) : Bool :=
  (d.find? key).isSome

def insert (key : String) (value : α) : Dictionary α → Dictionary α
  | [] => [(key, value)]
  | (k, v) :: rest =>
    if k = key then (key, value) :: rest
    -- By code points, which is also the order of the bytes.
    else if key < k then (key, value) :: (k, v) :: rest
    else (k, v) :: insert key value rest

def erase (key : String) (d : Dictionary α) : Dictionary α :=
  d.filter fun (k, _) => k ≠ key

def insertAll (entries : List (String × α)) (d : Dictionary α) : Dictionary α :=
  entries.foldl (fun d (k, v) => d.insert k v) d

def ofList (entries : List (String × α)) : Dictionary α :=
  insertAll entries []

def values (d : Dictionary α) : List α :=
  d.map (·.2)

def Sorted (d : Dictionary α) : Prop :=
  d.Pairwise fun a b => a.1 < b.1

@[simp] theorem find?_nil (key : String) : find? key ([] : Dictionary α) = none := rfl

theorem find?_insert (key key' : String) (value : α) (d : Dictionary α) :
    find? key' (insert key value d) = if key = key' then some value else find? key' d := by
  induction d with
  | nil => rfl
  | cons entry d ih =>
    obtain ⟨k, v⟩ := entry
    simp only [insert]
    split
    · next h => subst h; by_cases h' : k = key' <;> simp [find?, h']
    · split
      · by_cases h' : key = key' <;> simp [find?, h']
      · next h _ =>
        by_cases h' : k = key'
        · subst h'; simp [find?, Ne.symm h]
        · simp [find?, h', ih]

theorem find?_erase (key key' : String) (d : Dictionary α) :
    find? key' (erase key d) = if key = key' then none else find? key' d := by
  induction d with
  | nil => simp [erase]
  | cons entry d ih =>
    obtain ⟨k, v⟩ := entry
    by_cases hk : k = key
    · subst hk
      by_cases h' : k = key' <;> simp_all [erase, find?]
    · by_cases h' : k = key'
      · subst h'; simp_all [erase, find?, Ne.symm hk]
      · by_cases hkk : key = key' <;> simp_all [erase, find?]

end Dictionary

end SearchMapper
