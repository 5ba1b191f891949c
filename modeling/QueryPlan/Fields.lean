/-!
# Named fields in order

A record of named values is a list of pairs in the order in which the names first came. Setting a
name again keeps its place and replaces its value.
-/

namespace QueryPlan.Fields

variable {α β : Type}

variable {fields : List (String × α)} {name : String}

/-- The value of a name. -/
def get? (fields : List (String × α)) (name : String) : Option α :=
  fields.lookup name

/-- Sets a name: in its place if it is there, at the end if it is not. -/
def insert : List (String × α) → String → α → List (String × α)
  | [], name, value => [(name, value)]
  | (key, old) :: rest, name, value =>
    if key = name then (key, value) :: rest else (key, old) :: insert rest name value

/-- The fields that result from setting each pair in turn. -/
def ofList (pairs : List (String × α)) : List (String × α) :=
  pairs.foldl (fun fields (name, value) => insert fields name value) []

/-- The fields without a name. -/
def erase (fields : List (String × α)) (name : String) : List (String × α) :=
  fields.filter fun (key, _) => key != name

/-- The value of a name is that of the first field with this name. -/
theorem get?_cons (head : String × α) (rest : List (String × α)) (key : String) :
    get? (head :: rest) key = if key = head.1 then some head.2 else get? rest key := by
  rw [get?, List.lookup_cons]
  by_cases h : key = head.1
  · rw [if_pos h, beq_iff_eq.2 h]
  · rw [if_neg h, beq_eq_false_iff_ne.2 h]; rfl

theorem mem_of_get? {value : α} (h : get? fields name = some value) : (name, value) ∈ fields := by
  induction fields with
  | nil => cases h
  | cons head rest ih =>
    rw [get?_cons] at h
    split at h
    · next hn =>
      obtain ⟨key, old⟩ := head
      cases h
      cases hn
      exact List.mem_cons_self
    · exact List.mem_cons_of_mem head (ih h)

/-- A name that was set has the value that was set, and no other name changes. -/
theorem get?_insert (fields : List (String × α)) (name : String) (value : α) (key : String) :
    get? (insert fields name value) key = if key = name then some value else get? fields key := by
  induction fields with
  | nil => exact get?_cons (name, value) [] key
  | cons head rest ih =>
    obtain ⟨first, old⟩ := head
    by_cases hf : first = name
    · subst hf
      rw [insert, if_pos rfl, get?_cons, get?_cons]
      split
      · rfl
      · rfl
    · rw [insert, if_neg hf, get?_cons, get?_cons, ih]
      by_cases hk : key = first
      · rw [if_pos hk, if_pos hk, if_neg (fun h => hf (hk.symm.trans h))]
      · rw [if_neg hk, if_neg hk]

/-! ## Distinct names -/

/-- If names are distinct, a field is found by its name. -/
theorem get?_of_mem (hnames : (fields.map Prod.fst).Nodup) {value : α} (h : (name, value) ∈ fields) :
    get? fields name = some value := by
  induction fields with
  | nil => cases h
  | cons head rest ih =>
    rw [List.map_cons, List.nodup_cons] at hnames
    rw [get?_cons]
    rcases List.mem_cons.1 h with rfl | hrest
    · rw [if_pos rfl]
    · have hne : name ≠ head.1 := by
        intro he
        rw [← he] at hnames
        exact hnames.1 (List.mem_map_of_mem (f := Prod.fst) hrest)
      rw [if_neg hne]
      exact ih hnames.2 hrest

/-- A new name goes to the end. -/
theorem insert_of_not_mem (h : name ∉ fields.map Prod.fst) (value : α) :
    insert fields name value = fields ++ [(name, value)] := by
  induction fields with
  | nil => rfl
  | cons head rest ih =>
    rw [List.map_cons, List.mem_cons, not_or] at h
    rw [insert, if_neg fun he => h.1 he.symm, ih h.2]
    rfl

/-- Setting new names one after the other puts them behind the fields that are there. -/
theorem foldl_insert_of_nodup (rest fields : List (String × α))
    (h : ((fields ++ rest).map Prod.fst).Nodup) :
    rest.foldl (fun fields field => insert fields field.1 field.2) fields = fields ++ rest := by
  induction rest generalizing fields with
  | nil => exact (List.append_nil fields).symm
  | cons head rest ih =>
    have hnew : head.1 ∉ fields.map Prod.fst := by
      rw [List.map_append, List.map_cons] at h
      intro hmem
      exact (List.nodup_append.1 h).2.2 _ hmem _ List.mem_cons_self rfl
    have hassoc : fields ++ [head] ++ rest = fields ++ head :: rest := by
      rw [List.append_assoc, List.singleton_append]
    rw [List.foldl_cons, insert_of_not_mem hnew, ih, hassoc]
    rw [hassoc]
    exact h

/-- Fields with distinct names are what results from setting them in turn. -/
theorem ofList_of_nodup {pairs : List (String × α)} (h : (pairs.map Prod.fst).Nodup) :
    ofList pairs = pairs :=
  foldl_insert_of_nodup pairs [] h

/-- Nothing is found under a name that was taken out, and no other name changes. -/
theorem get?_erase (fields : List (String × α)) (name key : String) :
    get? (erase fields name) key = if key = name then none else get? fields key := by
  induction fields with
  | nil => simp [erase, get?]
  | cons head rest ih =>
    obtain ⟨first, value⟩ := head
    by_cases hf : first = name
    · subst hf
      have herase : erase ((first, value) :: rest) first = erase rest first := by simp [erase]
      rw [herase, ih, get?_cons]
      split <;> rfl
    · have herase : erase ((first, value) :: rest) name = (first, value) :: erase rest name := by
        simp [erase, hf]
      rw [herase, get?_cons, get?_cons, ih]
      by_cases hk : key = first
      · rw [if_pos hk, if_pos hk, if_neg (fun h => hf (hk.symm.trans h))]
      · rw [if_neg hk, if_neg hk]

end QueryPlan.Fields
