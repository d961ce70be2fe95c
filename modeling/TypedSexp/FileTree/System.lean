import TypedSexp.FileTree.Basic

/-!
# A tree as a file system

A file tree keeps what is written to it: bytes that are written under a path are what the path
leads to afterwards, and every other file has the bytes it had (`FileTree.write_inv`). The way that
a path takes is not changed by a write at its end: what it passes through are directories, and they
are there as before.

So a tree is a file system (`FileTree.system`), in which a file is told apart by the names that
lead to it from the root. Nothing is said here about a write that fails half way, which a tree does
not have.
-/

namespace TypedSexp

namespace FileTree

variable {tree : FileTree} {target : List String}

/-! ## Files put into a tree -/

/-- An entry that is found under names is listed under these names. -/
theorem fst_of_find? {parts : List String} {e : List String × FileEntry}
    (h : tree.entries.find? (·.1 == parts) = some e) : e.1 = parts := by
  have := List.find?_some h
  exact eq_of_beq this

/-- What is listed after a put: the file at its names, and everything else as before. -/
theorem listed?_put (tree : FileTree) (target parts : List String) (bytes : ByteArray) :
    (tree.put target bytes).listed? parts =
      if parts = target then some (.file bytes) else tree.listed? parts := by
  rw [put]
  split
  · next hany =>
    have hkey : ((·.1 == parts) ∘ fun e : List String × FileEntry =>
        if e.1 == target then (e.1, FileEntry.file bytes) else e) = (·.1 == parts) := by
      funext e
      show ((if e.1 == target then (e.1, FileEntry.file bytes) else e).1 == parts) = (e.1 == parts)
      split
      · rfl
      · rfl
    simp only [listed?]
    rw [List.find?_map, hkey]
    cases hfind : tree.entries.find? (·.1 == parts) with
    | none =>
      rw [if_neg]
      · rfl
      · intro heq
        obtain ⟨e, he, het⟩ := List.any_eq_true.mp hany
        exact List.find?_eq_none.mp hfind e he (heq ▸ het)
    | some e =>
      have he := fst_of_find? hfind
      by_cases heq : parts = target
      · simp [he, heq]
      · simp [he, heq]
  · next hnone =>
    simp only [listed?]
    rw [List.find?_append]
    by_cases heq : parts = target
    · subst heq
      have hfind : tree.entries.find? (·.1 == parts) = none :=
        List.find?_eq_none.mpr fun e he hep => hnone (List.any_eq_true.mpr ⟨e, he, hep⟩)
      simp [hfind]
    · have hother : ¬target = parts := fun h => heq h.symm
      simp [heq, hother]

/-- Bytes that are put into a file are its bytes, and other files keep theirs. -/
theorem file?_put (tree : FileTree) (target parts : List String) (bytes : ByteArray) :
    (tree.put target bytes).file? parts =
      if parts = target then some bytes else tree.file? parts := by
  rw [file?, file?, listed?_put]
  by_cases heq : parts = target
  · rw [if_pos heq, if_pos heq]
  · rw [if_neg heq, if_neg heq]

/-- The working directory is not changed by a put. -/
theorem here_put (tree : FileTree) (target : List String) (bytes : ByteArray) :
    (tree.put target bytes).here = tree.here := by
  rw [put]
  split
  · rfl
  · rfl

/-- A directory stays one, unless it is what the file is put in place of. -/
theorem isDirectory_put {parts : List String} (h : tree.isDirectory parts = true)
    (other : parts ≠ target) (bytes : ByteArray) :
    (tree.put target bytes).isDirectory parts = true := by
  rw [isDirectory, Bool.or_eq_true] at h ⊢
  rw [here_put]
  refine h.imp id fun h => ?_
  obtain ⟨e, he, hbelow⟩ := List.any_eq_true.mp h
  rw [put]
  split
  · refine List.any_eq_true.mpr ⟨_, List.mem_map_of_mem he, ?_⟩
    -- What was listed at the names of the file is not the directory, but lies below it.
    by_cases het : e.1 = target
    · have hprefix := (Bool.and_eq_true_iff.mp hbelow).1
      simpa [het, other] using hprefix
    · simpa [het] using hbelow
  · exact List.any_eq_true.mpr ⟨e, List.mem_append_left _ he, hbelow⟩

/-! ## The way to a file -/

/-- Nothing is there but a directory. -/
def Passes (tree : FileTree) (parts : List String) : Prop :=
  tree.file? parts = none ∧ tree.isDirectory parts = true

/-- Parts lead from a directory to a file, or to a place where one can be made. -/
inductive Leads (tree : FileTree) (target : List String) : List String → List String → Prop
  | up {base ps : List String} (rest : Leads tree target base.dropLast ps) :
      Leads tree target base (".." :: ps)
  | down {base : List String} {part : String} {ps : List String} (named : part ≠ "..")
      (fits : part.utf8ByteSize ≤ maxNameSize) (passes : tree.Passes (base ++ [part]))
      (rest : Leads tree target (base ++ [part]) ps) : Leads tree target base (part :: ps)
  | last {base : List String} {part : String} (named : part ≠ "..")
      (fits : part.utf8ByteSize ≤ maxNameSize) (ends : base ++ [part] = target)
      (stops : ¬tree.Passes target) : Leads tree target base [part]

/-- A walk that ends at a file, or where one can be made, went a way that leads there. -/
theorem leads_of_walk {base ps : List String}
    (h : (∃ bytes, tree.walk base ps = .file target bytes) ∨
      tree.walk base ps = .vacant target) : tree.Leads target base ps := by
  fun_induction walk tree base ps with
  | case2 base ps ih => exact .up (ih h)
  | case4 base part ps named there fits bytes hfile hlast =>
    have ends : there = target := by simpa using h
    obtain rfl := List.isEmpty_iff.mp hlast
    refine .last named (Nat.le_of_not_lt fits) ends fun passes => ?_
    rw [← ends, Passes, hfile] at passes
    cases passes.1
  | case6 base part ps named there fits hfile hdirectory ih =>
    exact .down named (Nat.le_of_not_lt fits) ⟨hfile, hdirectory⟩ (ih h)
  | case7 base part ps named there fits hfile hdirectory hlast =>
    have ends : there = target := by simpa using h
    obtain rfl := List.isEmpty_iff.mp hlast
    exact .last named (Nat.le_of_not_lt fits) ends fun passes => hdirectory (ends ▸ passes.2)
  | _ => simp at h

/-- A walk ends at a file only if that file is listed. -/
theorem file?_of_walk {base ps : List String} {bytes : ByteArray}
    (h : tree.walk base ps = .file target bytes) : tree.file? target = some bytes := by
  fun_induction walk tree base ps with
  | case2 base ps ih => exact ih h
  | case4 base part ps named there fits bytes' hfile hlast =>
    have ends : there = target ∧ bytes' = bytes := by simpa using h
    rw [← ends.1, ← ends.2]
    exact hfile
  | case6 base part ps named there fits hfile hdirectory ih => exact ih h
  | _ => simp at h

namespace Leads

variable {base ps : List String}

/-- Where a way ends there is no directory. -/
theorem not_passes (h : tree.Leads target base ps) : ¬tree.Passes target := by
  induction h with
  | up _ ih => exact ih
  | down _ _ _ _ ih => exact ih
  | last _ _ _ stops => exact stops

/-- After a write at the end of a way, the way leads to what was written. The directories on it
are others than its end. -/
theorem walk_put (h : tree.Leads target base ps) (bytes : ByteArray) :
    (tree.put target bytes).walk base ps = .file target bytes := by
  have stops := h.not_passes
  induction h with
  | up _ ih =>
    rw [walk, if_pos rfl]
    exact ih
  | @down base part ps named fits passes _ ih =>
    have hne : base ++ [part] ≠ target := fun heq => stops (heq ▸ passes)
    have hdirectory := isDirectory_put passes.2 hne bytes
    rw [walk, if_neg named, if_neg (Nat.not_lt.mpr fits), file?_put, if_neg hne, passes.1]
    dsimp only
    rw [if_pos hdirectory]
    exact ih
  | last named fits ends _ =>
    rw [walk, if_neg named, if_neg (Nat.not_lt.mpr fits), file?_put, if_pos ends, ends]
    rfl

end Leads

/-! ## Reading and writing -/

/-- What is looked at is what a walk from the start of the path comes to, unless the path is too
long. -/
theorem look_inv {p : Path} {place : Place} (h : tree.look p = place) (short : place ≠ .tooLong) :
    p.text.utf8ByteSize ≤ maxPathSize ∧ tree.walk (tree.start p) p.parts = place := by
  rw [look] at h
  split at h
  · exact absurd h.symm short
  · next fits => exact ⟨Nat.le_of_not_lt fits, h⟩

/-- What is read under a path are the bytes of the file that it leads to. -/
theorem read_inv {p : Path} {bytes : ByteArray} (h : tree.read p = .ok bytes) :
    ∃ f, tree.find? p = some f ∧ tree.file? f = some bytes := by
  rw [read] at h
  split at h
  · cases h
  · split at h <;> cases h
    next _ parts hlook =>
    refine ⟨parts, by rw [find?, hlook], ?_⟩
    exact file?_of_walk (look_inv hlook (by simp)).2

/-- Bytes that are written are what their path leads to, and no other file is made or changed. -/
theorem write_inv {tree' : FileTree} {p : Path} {bytes : ByteArray}
    (h : tree.write p bytes = (.ok (), tree')) :
    ∃ f, tree'.find? p = some f ∧ tree'.file? f = some bytes ∧
      ∀ g, g ≠ f → tree'.file? g = tree.file? g := by
  have hput : ∃ target, tree' = tree.put target bytes ∧
      ((∃ old, tree.look p = .file target old) ∨ tree.look p = .vacant target) := by
    rw [write] at h
    split at h
    · cases h
    · split at h <;> cases h
      · next hlook => exact ⟨_, rfl, .inl ⟨_, hlook⟩⟩
      · next hlook => exact ⟨_, rfl, .inr hlook⟩
  obtain ⟨target, rfl, hlook⟩ := hput
  obtain ⟨fits, hwalk⟩ : p.text.utf8ByteSize ≤ maxPathSize ∧
      ((∃ old, tree.walk (tree.start p) p.parts = .file target old) ∨
        tree.walk (tree.start p) p.parts = .vacant target) := by
    rcases hlook with ⟨old, hlook⟩ | hlook
    · obtain ⟨fits, hwalk⟩ := look_inv hlook (by simp)
      exact ⟨fits, .inl ⟨old, hwalk⟩⟩
    · obtain ⟨fits, hwalk⟩ := look_inv hlook (by simp)
      exact ⟨fits, .inr hwalk⟩
  have hstart : (tree.put target bytes).start p = tree.start p := by rw [start, start, here_put]
  have hafter : (tree.put target bytes).look p = .file target bytes := by
    rw [look, if_neg (Nat.not_lt.mpr fits), hstart, (leads_of_walk hwalk).walk_put]
  refine ⟨target, by rw [find?, hafter], by rw [file?_put, if_pos rfl], fun g hne => ?_⟩
  rw [file?_put, if_neg hne]

/-- A tree as a file system. -/
def system : FileSystem where
  State := FileTree
  File := List String
  bytes? := file?
  find? := find?
  read := read
  write := write
  of_read := read_inv
  of_write := write_inv

end FileTree

end TypedSexp
