/-!
# Entries

Keys with values in the order in which the keys first came. Putting a value
under a key that is there already replaces the value and keeps the place.
-/

namespace TypedSexp.Entries

variable {κ ν : Type}

/-- The value under the key that a test picks out. -/
def find? (p : κ → Bool) (es : List (κ × ν)) : Option ν :=
  (es.find? fun e => p e.1).map (·.2)

/-- Puts a value under a key, where a test says which key is the same one. -/
def putBy (p : κ → Bool) (k : κ) (v : ν) : List (κ × ν) → List (κ × ν)
  | [] => [(k, v)]
  | e :: es => if p e.1 then (e.1, v) :: es else e :: putBy p k v es

/-- The value under a key. -/
def get? [BEq κ] (k : κ) (es : List (κ × ν)) : Option ν := find? (· == k) es

/-- Puts a value under a key. -/
def put [BEq κ] (k : κ) (v : ν) (es : List (κ × ν)) : List (κ × ν) := putBy (· == k) k v es

/-- Takes a key away. -/
def remove [BEq κ] (k : κ) (es : List (κ × ν)) : List (κ × ν) := es.filter fun e => !(e.1 == k)

/-- Entries from pairs that may repeat a key: each key in its first place with
its last value. -/
def ofPairs [BEq κ] (ps : List (κ × ν)) : List (κ × ν) :=
  ps.foldl (fun es p => put p.1 p.2 es) []

@[simp] theorem get?_nil [BEq κ] (k : κ) : get? k ([] : List (κ × ν)) = none := rfl

/-- A lookup in a longer list first asks the head. -/
theorem get?_cons [BEq κ] (k : κ) (e : κ × ν) (es : List (κ × ν)) :
    get? k (e :: es) = if e.1 == k then some e.2 else get? k es := by
  cases h : e.1 == k <;> simp [get?, find?, h]

/-- What was put under a key is found there. -/
theorem get?_put_self [BEq κ] [LawfulBEq κ] (k : κ) (v : ν) (es : List (κ × ν)) :
    get? k (put k v es) = some v := by
  induction es with
  | nil => simp [put, putBy, get?, find?]
  | cons e es ih =>
    unfold put putBy
    by_cases h : (e.1 == k) = true
    · rw [if_pos h, get?_cons]
      simp [h]
    · rw [if_neg h, get?_cons, if_neg h]
      exact ih

/-- What was put under a key changes no other key. -/
theorem get?_put_of_ne [BEq κ] [LawfulBEq κ] {j k : κ} (h : j ≠ k) (v : ν) (es : List (κ × ν)) :
    get? j (put k v es) = get? j es := by
  have hk : (k == j) = false := by simpa using fun hkj => h hkj.symm
  induction es with
  | nil => simp [put, putBy, get?, find?, hk]
  | cons e es ih =>
    unfold put putBy
    by_cases he : (e.1 == k) = true
    · have hj : (e.1 == j) = false := by rw [eq_of_beq he]; exact hk
      rw [if_pos he, get?_cons, get?_cons]
      simp [hj]
    · rw [if_neg he, get?_cons, get?_cons]
      split
      · rfl
      · exact ih

/-- A key that was taken away is not found. -/
@[simp] theorem get?_remove_self [BEq κ] [LawfulBEq κ] (k : κ) (es : List (κ × ν)) :
    get? k (remove k es) = none := by
  unfold get? find? remove
  rw [Option.map_eq_none_iff, List.find?_eq_none]
  intro e he
  have hne := (List.mem_filter.mp he).2
  simpa using hne

/-- Taking a key away changes no other key. -/
theorem get?_remove_of_ne [BEq κ] [LawfulBEq κ] {j k : κ} (h : j ≠ k) (es : List (κ × ν)) :
    get? j (remove k es) = get? j es := by
  induction es with
  | nil => rfl
  | cons e es ih =>
    unfold remove at ih ⊢
    by_cases he : (e.1 == k) = true
    · have hj : (e.1 == j) = false := by
        rw [eq_of_beq he]
        simpa using fun hkj => h hkj.symm
      rw [List.filter_cons_of_neg (by simp [he]), get?_cons, ih]
      simp [hj]
    · rw [List.filter_cons_of_pos (by simpa using he), get?_cons, get?_cons, ih]

end TypedSexp.Entries
