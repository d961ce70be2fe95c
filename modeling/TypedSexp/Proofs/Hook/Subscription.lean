import Mathlib.Data.List.Basic
import Mathlib.Data.List.Perm.Basic
import Mathlib.Tactic.Common
import TypedSexp.Hook.Registry
import TypedSexp.Proofs.Entries

/-!
# Subscriptions

Closing a handle takes its listener away by equality, wherever it first stands. So a handle does
not own a place among the listeners of its name: when the second of two handles of one listener is
closed, it is the place of the first that goes.

What handles and listeners have to do with each other all the same is `Handle.Backs`. The listeners
of a name are those of its open handles, counted, and the listeners that were registered once stand
in the order of their registration. One registration and one closing keep this for every name, and
leave no name without listeners (`Hooks.Kept.register`, `Hooks.Kept.close`).

Listeners are the same if they are equal, and their equality is decided once and for all. Listeners
whose equality changes, or that are equal and act differently, are left out.
-/

namespace TypedSexp

variable {ℓ : Type}

/-! ## Handles and the listeners behind them -/

namespace Handle

/-- The listeners of the handles of a name, in the order of their registration. -/
def registered (ds : List (Handle ℓ)) (name : String) : List ℓ :=
  (ds.filter fun d => d.name == name).map (·.listener)

/-- The listeners of the handles of a name that are open. -/
def opened (ds : List (Handle ℓ)) (name : String) : List ℓ :=
  (ds.filter fun d => d.name == name && !d.isClosed).map (·.listener)

/-- The handle when it is closed. -/
def closed (d : Handle ℓ) : Handle ℓ := { d with isClosed := true }

section Lists

variable {ds : List (Handle ℓ)} {d : Handle ℓ} {name : String}

/-- The listeners of open handles stand as those of all handles do. -/
theorem opened_sublist (ds : List (Handle ℓ)) (name : String) :
    (opened ds name).Sublist (registered ds name) := by
  refine List.Sublist.map _ (List.monotone_filter_right ds fun d hd => ?_)
  exact (Bool.and_eq_true_iff.mp hd).1

/-- Handles given out later were registered after the others. -/
theorem registered_append (ds ds' : List (Handle ℓ)) (name : String) :
    registered (ds ++ ds') name = registered ds name ++ registered ds' name := by
  simp [registered]

theorem opened_append (ds ds' : List (Handle ℓ)) (name : String) :
    opened (ds ++ ds') name = opened ds name ++ opened ds' name := by
  simp [opened]

theorem registered_cons_self :
    registered (d :: ds) d.name = d.listener :: registered ds d.name := by
  simp [registered]

/-- Closing a handle does not change what was registered. -/
theorem registered_cons_closed : registered (d.closed :: ds) name = registered (d :: ds) name := by
  by_cases h : d.name = name <;> simp [registered, closed, h]

theorem opened_cons_of_ne (h : d.name ≠ name) : opened (d :: ds) name = opened ds name := by
  simp [opened, h]

theorem opened_cons_closed : opened (d.closed :: ds) name = opened ds name := by
  simp [opened, closed]

/-- An open handle adds its listener to those of its name. -/
theorem opened_cons_of_open (h : d.isClosed = false) :
    opened (d :: ds) d.name = d.listener :: opened ds d.name := by
  simp [opened, h]

end Lists

variable [DecidableEq ℓ]

/-- Whether a listener was registered at most once for a name. -/
def once (ds : List (Handle ℓ)) (name : String) (l : ℓ) : Bool := (registered ds name).count l ≤ 1

/-- Listeners of a name are those of its open handles, counted, and those among them that were
registered once are in the order of the handles. -/
structure Backs (ds : List (Handle ℓ)) (name : String) (ls : List ℓ) : Prop where
  counted : ls.Perm (opened ds name)
  ordered : ls.filter (once ds name) = (opened ds name).filter (once ds name)

namespace Backs

variable {ds before after : List (Handle ℓ)} {d : Handle ℓ} {name : String} {ls : List ℓ}

/-- Two listeners that were registered once stand as they were registered. Of a listener that was
registered more often one cannot say so: closing takes away its first place, whichever handle is
closed. -/
theorem sublist_registered (h : Backs ds name ls) {l l' : ℓ} (stand : [l, l'].Sublist ls)
    (first : once ds name l = true) (second : once ds name l' = true) :
    [l, l'].Sublist (registered ds name) := by
  have hfilter := stand.filter (once ds name)
  rw [List.filter_cons_of_pos first, List.filter_cons_of_pos second, List.filter_nil,
    h.ordered] at hfilter
  exact (hfilter.trans List.filter_sublist).trans (opened_sublist ds name)

/-- One more handle can only end that a listener was registered once. So nothing new is asked of the
order when handles are given out. -/
theorem filter_once_append (h : Backs ds name ls) (more : List (Handle ℓ)) :
    ls.filter (once (ds ++ more) name) = (opened ds name).filter (once (ds ++ more) name) := by
  have hboth : (fun l => once (ds ++ more) name l && once ds name l) = once (ds ++ more) name := by
    funext l
    cases hmore : once (ds ++ more) name l with
    | false => rfl
    | true =>
      rw [once, registered_append, List.count_append, decide_eq_true_eq] at hmore
      exact decide_eq_true (Nat.le_trans (Nat.le_add_right _ _) hmore)
  rw [← hboth, ← List.filter_filter, ← List.filter_filter, h.ordered]

/-- A new handle comes last, and so does its listener. The listeners of the name and the open
handles stay the same ones, up to order. -/
theorem register (h : Backs ds d.name ls) (isOpen : d.isClosed = false) :
    Backs (ds ++ [d]) d.name (ls ++ [d.listener]) := by
  have hopened : opened (ds ++ [d]) d.name = opened ds d.name ++ [d.listener] := by
    rw [opened_append, opened_cons_of_open isOpen]
    rfl
  constructor
  · rw [hopened]
    exact h.counted.append_right _
  · rw [hopened, List.filter_append, List.filter_append, h.filter_once_append]

/-- A handle of another name leaves the listeners of a name as they were. -/
theorem register_of_ne (h : Backs ds name ls) (other : d.name ≠ name) :
    Backs (ds ++ [d]) name ls := by
  have hopened : opened (ds ++ [d]) name = opened ds name := by
    rw [opened_append, opened_cons_of_ne other]
    exact List.append_nil _
  constructor
  · rw [hopened]
    exact h.counted
  · rw [hopened, h.filter_once_append]

/-- Whether a listener was registered once is not changed by closing a handle, as this counts all
handles. -/
theorem once_closed (name : String) :
    once (before ++ d.closed :: after) name = once (before ++ d :: after) name := by
  funext l
  rw [once, once, registered_append, registered_append, registered_cons_closed]

/-- Closing a handle takes its listener from where it first stands. If that is not the place of the
handle then the listener was registered more than once. -/
theorem close (h : Backs (before ++ d :: after) d.name ls) (isOpen : d.isClosed = false) :
    Backs (before ++ d.closed :: after) d.name (ls.erase d.listener) := by
  have hopened : opened (before ++ d :: after) d.name =
      opened before d.name ++ d.listener :: opened after d.name := by
    rw [opened_append, opened_cons_of_open isOpen]
  have hclosed : opened (before ++ d.closed :: after) d.name =
      opened before d.name ++ opened after d.name := by
    rw [opened_append, opened_cons_closed]
  constructor
  · rw [hclosed]
    calc (ls.erase d.listener).Perm ((opened (before ++ d :: after) d.name).erase d.listener) :=
          h.counted.erase _
      _ = (opened before d.name ++ d.listener :: opened after d.name).erase d.listener := by
          rw [hopened]
      List.Perm _
        ((d.listener :: (opened before d.name ++ opened after d.name)).erase d.listener) :=
          List.perm_middle.erase _
      _ = opened before d.name ++ opened after d.name := List.erase_cons_head ..
  · rw [once_closed, hclosed, ← List.erase_filter, h.ordered, hopened, List.erase_filter]
    by_cases honce : once (before ++ d :: after) d.name d.listener = true
    · have hfirst : d.listener ∉ opened before d.name := by
        intro hmem
        have hcount := List.count_pos_iff.mpr ((opened_sublist _ _).subset hmem)
        rw [once, registered_append, registered_cons_self, List.count_append,
          List.count_cons_self, decide_eq_true_eq] at honce
        omega
      rw [List.erase_append_right _ hfirst, List.erase_cons_head]
    · rw [← List.erase_filter, List.filter_append, List.filter_cons_of_neg honce,
        ← List.filter_append]
      exact List.erase_of_not_mem fun hmem => honce (List.mem_filter.mp hmem).2

/-- Closing a handle leaves the listeners of every other name as they were. Neither the open handles
of that name nor those registered once for it change. -/
theorem close_of_ne (h : Backs (before ++ d :: after) name ls) (other : d.name ≠ name) :
    Backs (before ++ d.closed :: after) name ls := by
  have hopened :
      opened (before ++ d.closed :: after) name = opened (before ++ d :: after) name := by
    rw [opened_append, opened_append, opened_cons_closed, opened_cons_of_ne other]
  constructor
  · rw [hopened]
    exact h.counted
  · rw [once_closed, hopened]
    exact h.ordered

end Backs

end Handle

/-! ## What an operation does to the hooks -/

namespace Hooks

variable {h h' : Hooks ℓ} {name : String} {l : ℓ}

/-- A registration that is accepted adds the listener at the end of those of its name and gives out
one handle. It is the only thing that is used of `Hooks.register`. -/
theorem register_inv (registered : h.register name l = .ok h') :
    h'.table = Entries.put name (h.listeners name ++ [l]) h.table ∧
      h'.handles = h.handles ++ [{ name, listener := l }] := by
  unfold register at registered
  split at registered
  · cases registered
  · cases registered
    exact ⟨rfl, rfl⟩

variable [DecidableEq ℓ]

/-- Taking a listener away takes its first place among those of the name. If none is left the name
goes too. -/
theorem unregister_eq (h : Hooks ℓ) (name : String) (l : ℓ) : h.unregister name l =
    if ((h.listeners name).erase l).isEmpty then { h with table := Entries.remove name h.table }
    else { h with table := Entries.put name ((h.listeners name).erase l) h.table } := rfl

/-- Closing an open handle takes its listener away, the first that is equal to it, and marks the
handle. A handle that is closed already changes nothing. -/
theorem close_of_open {i : Nat} {d : Handle ℓ} (given : h.handles[i]? = some d)
    (isOpen : d.isClosed = false) : h.close i =
      { (h.unregister d.name d.listener) with handles := h.handles.set i d.closed } := by
  have hkept : (h.unregister d.name d.listener).handles = h.handles := by
    rw [unregister_eq]
    split <;> rfl
  rw [close, given, ← hkept]
  simp only [isOpen, Bool.false_eq_true, if_false]
  rfl

/-- Closing a handle closes it among the handles, also when it was closed before, and does nothing
if there is no such handle. -/
theorem handles_close (h : Hooks ℓ) (i : Nat) :
    (h.close i).handles = h.handles.modify i Handle.closed := by
  rw [List.modify_eq_set_getElem?]
  cases given : h.handles[i]? with
  | none =>
    rw [close, given]
    rfl
  | some d =>
    cases isOpen : d.isClosed with
    | true =>
      have hsame : d.closed = d := by rw [Handle.closed, ← isOpen]
      obtain ⟨hi, hd⟩ := List.getElem?_eq_some_iff.mp given
      show (h.close i).handles = h.handles.set i d.closed
      rw [close_of_isClosed given isOpen, hsame, ← hd, List.set_getElem_self]
    | false =>
      rw [close_of_open given isOpen]
      rfl

/-- Closing changes nothing, or closes one handle that is open and takes its listener away.
Invariants are proved from these two cases. -/
theorem close_cases (h : Hooks ℓ) (i : Nat) : h.close i = h ∨
    ∃ before d after, h.handles = before ++ d :: after ∧ d.isClosed = false ∧
      (h.close i).table = (h.unregister d.name d.listener).table ∧
      (h.close i).handles = before ++ d.closed :: after := by
  cases given : h.handles[i]? with
  | none => exact .inl (by rw [close, given])
  | some d =>
    cases isOpen : d.isClosed with
    | true => exact .inl (close_of_isClosed given isOpen)
    | false =>
      obtain ⟨hi, hd⟩ := List.getElem?_eq_some_iff.mp given
      obtain ⟨before, after, hhandles, -, hset⟩ := @List.exists_of_set _ i d.closed h.handles hi
      rw [hd] at hhandles
      rw [close_of_open given isOpen, hset]
      exact .inr ⟨before, d, after, hhandles, isOpen, rfl, rfl⟩

/-- The listeners of every name are backed by its handles. Every name stands once, with a
listener. -/
structure Kept (h : Hooks ℓ) : Prop where
  backed : ∀ name, Handle.Backs h.handles name (h.listeners name)
  names : (h.table.map Prod.fst).Nodup
  filled : ∀ entry ∈ h.table, entry.2 ≠ []

namespace Kept

theorem empty : ({} : Hooks ℓ).Kept where
  backed _ := ⟨.nil, rfl⟩
  names := List.nodup_nil
  filled _ hmem := absurd hmem List.not_mem_nil

/-- A name that is there stands with its listeners. No name is there twice, so the first entry that
is found is the only one. -/
theorem snd_eq_listeners (kept : h.Kept) {entry : String × List ℓ} (mem : entry ∈ h.table) :
    entry.2 = h.listeners entry.1 := by
  rw [listeners, Entries.get?_of_mem kept.names mem]
  rfl

/-- Putting listeners under a name leaves no name without listeners, if there are some. -/
theorem filled_put (kept : h.Kept) {ls : List ℓ} (hls : ls ≠ []) :
    ∀ entry ∈ Entries.put name ls h.table, entry.2 ≠ [] := by
  intro entry hentry
  rcases Entries.snd_eq_or_mem_of_mem_put hentry with heq | hmem
  · rw [heq]
    exact hls
  · exact kept.filled entry hmem

/-- A registration keeps the invariant of the registry: for every name, its listeners are those of
its open handles, counted, and no name is left without listeners. -/
theorem register (kept : h.Kept) (registered : h.register name l = .ok h') : h'.Kept := by
  obtain ⟨htable, hhandles⟩ := register_inv registered
  constructor
  case backed =>
    intro other
    rw [hhandles]
    by_cases hne : other = name
    · subst hne
      rw [listeners_register_self registered]
      exact (kept.backed other).register rfl
    · rw [listeners_register_of_ne registered hne]
      exact (kept.backed other).register_of_ne (Ne.symm hne)
  case names =>
    rw [htable]
    exact Entries.nodup_put _ _ kept.names
  case filled =>
    rw [htable]
    exact kept.filled_put (List.append_ne_nil_of_right_ne_nil _ (List.cons_ne_nil _ _))

/-- Closing a handle keeps the invariant of the registry: the name of the handle is backed by the
closed handle, and all other names as before. -/
theorem close (kept : h.Kept) (i : Nat) : (h.close i).Kept := by
  rcases h.close_cases i with hsame | ⟨before, d, after, hhandles, isOpen, htable, hclosed⟩
  · rw [hsame]
    exact kept
  have hlisteners : ∀ name, (h.close i).listeners name =
      (h.unregister d.name d.listener).listeners name := by
    intro name
    rw [listeners, listeners, htable]
  constructor
  case backed =>
    intro name
    have hbacked := kept.backed name
    rw [hhandles] at hbacked
    rw [hclosed, hlisteners]
    by_cases hne : name = d.name
    · subst hne
      rw [listeners_unregister_self]
      exact hbacked.close isOpen
    · rw [listeners_unregister_of_ne _ _ hne]
      exact hbacked.close_of_ne (Ne.symm hne)
  case names =>
    rw [htable, unregister_eq]
    split
    · exact kept.names.sublist (List.Sublist.map _ List.filter_sublist)
    · exact Entries.nodup_put _ _ kept.names
  case filled =>
    rw [htable, unregister_eq]
    split
    · exact fun entry hentry => kept.filled entry (List.mem_filter.mp hentry).1
    · next hrest => exact kept.filled_put fun hnil => hrest (List.isEmpty_iff.mpr hnil)

end Kept

end Hooks

end TypedSexp
