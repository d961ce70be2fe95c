import Mathlib.Logic.Function.Basic
import TypedSexp.Entries

/-!
# Entries from pairs and entries changed

Entries made of pairs with different keys are those pairs. Changing the keys, so that
different ones stay different, and changing the values commutes with looking a key up, with
putting a value under one, and with making entries from pairs.
-/

namespace TypedSexp.Entries

variable {κ ν : Type} [BEq κ]

/-- Where entries stand before others, a key is looked up in the first ones and only then in the
second ones. Keys may be repeated here. -/
theorem get?_append (k : κ) (es fs : List (κ × ν)) :
    get? k (es ++ fs) = (get? k es).or (get? k fs) := by
  simp [get?, find?, List.find?_append, Option.map_or]

/-- Putting a value under a key brings no value but that one. Nothing is said about the keys. -/
theorem snd_eq_or_mem_of_mem_put {k : κ} {v : ν} {es : List (κ × ν)} {e : κ × ν}
    (h : e ∈ put k v es) : e.2 = v ∨ e ∈ es := by
  induction es with
  | nil =>
    rw [List.mem_singleton.mp h]
    exact .inl rfl
  | cons e' es ih =>
    rw [put, putBy] at h
    split at h
    · rcases List.mem_cons.mp h with rfl | h
      · exact .inl rfl
      · exact .inr (List.mem_cons_of_mem _ h)
    · rcases List.mem_cons.mp h with rfl | h
      · exact .inr List.mem_cons_self
      · exact (ih h).imp_right (List.mem_cons_of_mem _)

/-- Entries that are made from pairs have values of the pairs and no others, although a value may be
lost where its key comes again. -/
theorem exists_of_mem_ofPairs {ps : List (κ × ν)} {e : κ × ν} (h : e ∈ ofPairs ps) :
    ∃ p ∈ ps, e.2 = p.2 := by
  have after : ∀ (ps es : List (κ × ν)), e ∈ ps.foldl (fun es p => put p.1 p.2 es) es →
      (∃ p ∈ ps, e.2 = p.2) ∨ e ∈ es := by
    intro ps
    induction ps with
    | nil => exact fun _ h => .inr h
    | cons p ps ih =>
      intro es h
      rcases ih _ h with ⟨q, hq, heq⟩ | h
      · exact .inl ⟨q, List.mem_cons_of_mem _ hq, heq⟩
      · exact (snd_eq_or_mem_of_mem_put h).imp_left fun heq => ⟨p, List.mem_cons_self, heq⟩
  exact (after ps [] h).resolve_right List.not_mem_nil

variable [LawfulBEq κ]

/-- Nothing is found under a key that is not there. -/
theorem get?_of_not_mem {k : κ} {es : List (κ × ν)} (h : k ∉ es.map Prod.fst) :
    get? k es = none := by
  induction es with
  | nil => rfl
  | cons e es ih =>
    rw [List.map_cons, List.mem_cons, not_or] at h
    rw [get?_cons, if_neg (fun heq => h.1 (eq_of_beq heq).symm)]
    exact ih h.2

/-- What is found under a key stands there. -/
theorem mem_of_get? {k : κ} {v : ν} {es : List (κ × ν)} (h : get? k es = some v) :
    (k, v) ∈ es := by
  induction es with
  | nil => cases h
  | cons e es ih =>
    rw [get?_cons] at h
    split at h
    next hk =>
      cases h
      rw [← eq_of_beq hk]
      exact List.mem_cons_self
    next => exact List.mem_cons_of_mem _ (ih h)

/-- Where keys are different every entry is found under its key. With repeated keys this holds of
the first entry of each key only. -/
theorem get?_of_mem {es : List (κ × ν)} (h : (es.map Prod.fst).Nodup) {e : κ × ν} (mem : e ∈ es) :
    get? e.1 es = some e.2 := by
  induction es with
  | nil => cases mem
  | cons f es ih =>
    rw [List.map_cons, List.nodup_cons] at h
    rw [get?_cons]
    rcases List.mem_cons.mp mem with rfl | mem
    · rw [if_pos (beq_self_eq_true e.1)]
    · have hne : ¬ (f.1 == e.1) = true := fun heq =>
        h.1 (eq_of_beq heq ▸ List.mem_map_of_mem mem)
      rw [if_neg hne]
      exact ih h.2 mem

/-- A key that is not there yet gets its entry at the end. -/
theorem put_of_not_mem {k : κ} (v : ν) {es : List (κ × ν)} (h : k ∉ es.map Prod.fst) :
    put k v es = es ++ [(k, v)] := by
  induction es with
  | nil => rfl
  | cons e es ih =>
    simp only [List.map_cons, List.mem_cons, not_or] at h
    have he : ¬ (e.1 == k) = true := fun heq => h.1 (eq_of_beq heq).symm
    rw [put, putBy, if_neg he]
    exact congrArg (e :: ·) (ih h.2)

/-- Putting a value keeps the keys different. A key that is there keeps its place, and one that is
not comes last, where it is the only one. -/
theorem nodup_put (k : κ) (v : ν) {es : List (κ × ν)} (h : (es.map Prod.fst).Nodup) :
    ((put k v es).map Prod.fst).Nodup := by
  by_cases hk : k ∈ es.map Prod.fst
  · have hkeys : (put k v es).map Prod.fst = es.map Prod.fst := by
      clear h
      induction es with
      | nil => cases hk
      | cons e es ih =>
        by_cases he : e.1 = k
        · simp [put, putBy, he]
        · have hes : k ∈ es.map Prod.fst := (List.mem_cons.mp hk).resolve_left (Ne.symm he)
          have hput := ih hes
          unfold put at hput ⊢
          simp [putBy, he, hput]
    rwa [hkeys]
  · rw [put_of_not_mem v hk, List.map_append, List.nodup_append]
    refine ⟨h, by simp, ?_⟩
    rintro a ha b hb rfl
    have heq : a = k := List.mem_singleton.mp hb
    exact hk (heq ▸ ha)

/-- Entries from pairs have different keys, whether the pairs have or not. Objects are read through
this, so no object that was read has a name twice. -/
theorem nodup_ofPairs (ps : List (κ × ν)) : ((ofPairs ps).map Prod.fst).Nodup := by
  have after : ∀ (ps es : List (κ × ν)), (es.map Prod.fst).Nodup →
      ((ps.foldl (fun es p => put p.1 p.2 es) es).map Prod.fst).Nodup := by
    intro ps
    induction ps with
    | nil => exact fun _ h => h
    | cons p ps ih => exact fun es h => ih _ (nodup_put p.1 p.2 h)
  exact after ps [] List.nodup_nil

/-- Entries from pairs with different keys are those pairs, in their order. With a key that comes
twice only its last value would be kept. -/
theorem ofPairs_eq_self {ps : List (κ × ν)} (h : (ps.map Prod.fst).Nodup) : ofPairs ps = ps := by
  have after : ∀ (ps es : List (κ × ν)), ((es ++ ps).map Prod.fst).Nodup →
      ps.foldl (fun es p => put p.1 p.2 es) es = es ++ ps := by
    intro ps
    induction ps with
    | nil => simp
    | cons p ps ih =>
      intro es hes
      have hnew : p.1 ∉ es.map Prod.fst := by
        rw [List.map_append, List.map_cons] at hes
        exact fun hmem => (List.nodup_append.mp hes).2.2 p.1 hmem p.1 List.mem_cons_self rfl
      rw [List.append_cons] at hes
      rw [List.foldl_cons, put_of_not_mem p.2 hnew, ih _ hes, ← List.append_cons]
  exact after ps [] h

section Change

variable {κ' ν' : Type} [BEq κ'] [LawfulBEq κ'] {f : κ → κ'} (inj : Function.Injective f)
  (g : ν → ν')

include inj

/-- Looking up a key in entries whose keys and values were changed is changing what was looked up.
The keys have to stay apart. -/
theorem get?_map (k : κ) (es : List (κ × ν)) :
    get? (f k) (es.map (Prod.map f g)) = (get? k es).map g := by
  induction es with
  | nil => rfl
  | cons e es ih =>
    rw [List.map_cons, get?_cons, get?_cons, ih]
    by_cases he : e.1 = k
    · simp [he]
    · have hne : f e.1 ≠ f k := fun heq => he (inj heq)
      simp [he, hne]

/-- Putting a value into changed entries is changing the entries that it was put into, if the change
keeps keys apart. -/
theorem put_map (k : κ) (v : ν) (es : List (κ × ν)) :
    put (f k) (g v) (es.map (Prod.map f g)) = (put k v es).map (Prod.map f g) := by
  induction es with
  | nil => rfl
  | cons e es ih =>
    unfold put at ih ⊢
    rw [List.map_cons, putBy, putBy, ih]
    by_cases he : e.1 = k
    · simp [he]
    · have hne : f e.1 ≠ f k := fun heq => he (inj heq)
      simp [he, hne]

/-- Making entries from pairs and changing keys and values may be done in any order, if the change
keeps keys apart. The first place and the last value of a key are the same on both sides. -/
theorem ofPairs_map (ps : List (κ × ν)) :
    ofPairs (ps.map (Prod.map f g)) = (ofPairs ps).map (Prod.map f g) := by
  have after : ∀ (ps es : List (κ × ν)),
      (ps.map (Prod.map f g)).foldl (fun es p => put p.1 p.2 es) (es.map (Prod.map f g)) =
        (ps.foldl (fun es p => put p.1 p.2 es) es).map (Prod.map f g) := by
    intro ps
    induction ps with
    | nil => exact fun _ => rfl
    | cons p ps ih =>
      intro es
      rw [List.map_cons, List.foldl_cons, List.foldl_cons, Prod.map_fst, Prod.map_snd,
        put_map inj g, ih]
  exact after ps []

end Change

end TypedSexp.Entries
