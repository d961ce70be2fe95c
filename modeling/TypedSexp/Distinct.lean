/-!
# Counting different members

How many different members a list has is the length of the list without
repetitions. It grows with the members.
-/

namespace TypedSexp

/-- Induction the way repetitions are dropped: after the first member comes the rest without it. -/
theorem eraseDups_ind {α : Type} [BEq α] {motive : List α → Prop} (nil : motive [])
    (cons : ∀ a l, motive (l.filter fun b => !b == a) → motive (a :: l)) (l : List α) :
    motive l := by
  induction hn : l.length using Nat.strongRecOn generalizing l with
  | ind n ih =>
    cases l with
    | nil => exact nil
    | cons a l =>
      have := List.length_filter_le (fun b => !b == a) l
      simp only [List.length_cons] at hn
      exact cons a l (ih _ (by omega) _ rfl)

/-- Dropping repetitions leaves none. -/
theorem nodup_eraseDups {α : Type} [DecidableEq α] (l : List α) : l.eraseDups.Nodup := by
  induction l using eraseDups_ind with
  | nil => simp
  | cons a l ih =>
    rw [List.eraseDups_cons, List.nodup_cons]
    exact ⟨by simp [List.mem_eraseDups], ih⟩

/-- Fewer members make fewer different members. -/
theorem length_eraseDups_le {α : Type} [DecidableEq α] {l m : List α} (h : ∀ x ∈ l, x ∈ m) :
    l.eraseDups.length ≤ m.eraseDups.length :=
  (nodup_eraseDups l).length_le_of_subset fun x hx =>
    List.mem_eraseDups.mpr (h x (List.mem_eraseDups.mp hx))

/-- One member less makes one different member less. -/
theorem length_eraseDups_lt {α : Type} [DecidableEq α] {l m : List α} {a : α}
    (h : ∀ x ∈ l, x ∈ m) (ha : a ∈ m) (hl : a ∉ l) : l.eraseDups.length < m.eraseDups.length := by
  have hnodup : (a :: l.eraseDups).Nodup :=
    List.nodup_cons.mpr ⟨fun hx => hl (List.mem_eraseDups.mp hx), nodup_eraseDups l⟩
  refine hnodup.length_le_of_subset fun x hx => ?_
  rcases List.mem_cons.mp hx with rfl | hx
  · exact List.mem_eraseDups.mpr ha
  · exact List.mem_eraseDups.mpr (h x (List.mem_eraseDups.mp hx))

end TypedSexp
