namespace TemplateExpr.Entries

variable {α : Type}

def set (name : String) (a : α) : List (String × α) → List (String × α)
  | [] => [(name, a)]
  | (other, b) :: rest =>
    if other = name then (name, a) :: rest else (other, b) :: set name a rest

def settle (entries : List (String × α)) : List (String × α) :=
  entries.foldl (fun settled e => set e.1 e.2 settled) []

theorem lookup_set (name other : String) (a : α) (entries : List (String × α)) :
    (set name a entries).lookup other =
      if other = name then some a else entries.lookup other := by
  induction entries with
  | nil =>
      by_cases h : other = name
      · simp [set, h]
      · simp [set, List.lookup_cons, beq_false_of_ne h, h]
  | cons e rest ih =>
      obtain ⟨n, b⟩ := e
      by_cases hn : n = name
      · subst hn
        by_cases h : other = n
        · simp [set, h]
        · simp [set, List.lookup_cons, beq_false_of_ne h, h]
      · by_cases h : other = n
        · subst h
          simp [set, hn]
        · simp [set, hn, List.lookup_cons, beq_false_of_ne h, ih]

end TemplateExpr.Entries
