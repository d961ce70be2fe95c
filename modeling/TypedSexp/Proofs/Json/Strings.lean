import TypedSexp.Json.Reader
import TypedSexp.Json.Writer

/-!
# JSON strings read back

A string is written character by character: as itself, as an escape of one letter, or as
one or two escapes of four hexadecimal digits. It is read in two passes, first to code
units and then to characters. A character that stands for itself is one unit, also beyond
the first plane, so the units depend on how the character was written; but joining them
gives the character in either case (`Json.Units.joinUnits_append`).

`Json.readString_quoted` says that a quoted string reads back, with or without characters
beyond ASCII, whatever follows it.

Strings are made of characters. An escape for half of a pair, for which there is no character, is
never written on its own, and how it is read is left out.
-/

namespace TypedSexp

namespace Text

theorem hexDigit?_digitChar {d : Nat} (h : d < 16) : hexDigit? d.digitChar = some d := by
  decide +revert

/-- One more hexadecimal digit shifts the value by a factor of sixteen. -/
theorem hexValue?_append_singleton (cs : List Char) (c : Char) :
    hexValue? (cs ++ [c]) =
      (hexValue? cs).bind fun n => (hexDigit? c).map fun d => 16 * n + d := by
  rw [hexValue?, List.foldl_append]
  rfl

/-- The hexadecimal digits of a number read back as the number. -/
theorem hexValue?_toDigits (n : Nat) : hexValue? (Nat.toDigits 16 n) = some n := by
  induction n using Nat.strongRecOn with
  | ind n ih =>
    by_cases hn : n < 16
    · rw [Nat.toDigits_of_lt_base hn]
      simp [hexValue?, hexDigit?_digitChar hn]
    · rw [Nat.toDigits_of_base_le (by decide) (by omega), hexValue?_append_singleton,
        ih (n / 16) (by omega), hexDigit?_digitChar (by omega)]
      simp only [Option.bind_some, Option.map_some, Option.some.injEq]
      omega

/-- Zeros before hexadecimal digits do not count. -/
theorem hexValue?_hex (width n : Nat) : hexValue? (hex width n) = some n := by
  have zeros (k : Nat) (cs : List Char) :
      hexValue? (List.replicate k '0' ++ cs) = hexValue? cs := by
    induction k with
    | zero => rfl
    | succ k ih =>
      rw [List.replicate_succ, List.cons_append, ← ih]
      rfl
  rw [hex, zeros, hexValue?_toDigits]

/-- A number of sixteen bits has four hexadecimal digits, with zeros before them where needed. -/
theorem exists_hex_four {n : Nat} (h : n < 0x10000) : ∃ a b c d, hex 4 n = [a, b, c, d] := by
  have hlength : (hex 4 n).length = 4 := by
    have : (Nat.toDigits 16 n).length ≤ 4 :=
      (Nat.length_toDigits_le_iff (by decide) (by decide)).mpr h
    rw [hex, List.length_append, List.length_replicate]
    omega
  match hex 4 n, hlength with
  | [a, b, c, d], _ => exact ⟨a, b, c, d, rfl⟩

end Text

namespace Json

/-- The code units that a character is read as: its code point, or two surrogates. -/
inductive Units (c : Char) : List Nat → Prop
  | single : Units c [c.toNat]
  | pair (h : 0x10000 ≤ c.toNat) :
      Units c [0xd800 + (c.toNat - 0x10000) / 0x400, 0xdc00 + (c.toNat - 0x10000) % 0x400]

/-- No character is a surrogate. So a unit that starts a pair was written as an escape. -/
theorem isHighUnit_toNat (c : Char) : isHighUnit c.toNat = false := by
  have hvalid : c.toNat < 0xd800 ∨ 0xdfff < c.toNat ∧ c.toNat < 0x110000 := c.valid
  simp only [isHighUnit, Bool.and_eq_false_iff, decide_eq_false_iff_not]
  omega

/-- The units of a character are joined to the character, whatever units follow. This is where a
pair of escapes becomes one character. -/
theorem Units.joinUnits_append {c : Char} {us : List Nat} (h : Units c us) (vs : List Nat) :
    joinUnits (us ++ vs) = c :: joinUnits vs := by
  cases h with
  | single =>
    cases vs with
    | nil => simp [joinUnits]
    | cons v vs => simp [joinUnits, isHighUnit_toNat]
  | pair hplane =>
    have hvalid : c.toNat < 0xd800 ∨ 0xdfff < c.toNat ∧ c.toNat < 0x110000 := c.valid
    generalize hn : c.toNat - 0x10000 = n
    have hhigh : isHighUnit (0xd800 + n / 0x400) = true := by
      simp only [isHighUnit, Bool.and_eq_true, decide_eq_true_eq]
      omega
    have hlow : isLowUnit (0xdc00 + n % 0x400) = true := by
      simp only [isLowUnit, Bool.and_eq_true, decide_eq_true_eq]
      omega
    have hcode : 0x10000 + (0xd800 + n / 0x400 - 0xd800) * 0x400 +
        (0xdc00 + n % 0x400 - 0xdc00) = c.toNat := by omega
    simp only [List.cons_append, List.nil_append, joinUnits, hhigh, hlow, hcode, Bool.and_self,
      if_true, Char.ofNat_toNat]

/-- A text is read as some units, whatever follows. -/
def ReadsUnits (text : List Char) (us : List Nat) : Prop :=
  ∀ rest, readUnits (text ++ rest) = (readUnits rest).map fun r => (us ++ r.1, r.2)

/-- Texts one after the other are read as the units of both. -/
theorem ReadsUnits.append {text more : List Char} {us vs : List Nat} (h : ReadsUnits text us)
    (h' : ReadsUnits more vs) : ReadsUnits (text ++ more) (us ++ vs) := by
  intro rest
  rw [List.append_assoc, h, h', Option.map_map]
  simp [Function.comp_def]

/-- An escape of four hexadecimal digits is read as its unit. -/
theorem readsUnits_unitEscape {n : Nat} (h : n < 0x10000) : ReadsUnits (unitEscape n) [n] := by
  intro rest
  have hvalue := Text.hexValue?_hex 4 n
  obtain ⟨a, b, c, d, hhex⟩ := Text.exists_hex_four h
  rw [hhex] at hvalue
  simp only [unitEscape, hhex, List.cons_append, List.nil_append]
  rw [readUnits, hvalue]

/-- A character that is escaped is read as its units, of which there are two beyond the first
plane. -/
theorem exists_readsUnits_codeEscape (c : Char) :
    ∃ us, Units c us ∧ ReadsUnits (codeEscape c) us := by
  have hvalid : c.toNat < 0xd800 ∨ 0xdfff < c.toNat ∧ c.toNat < 0x110000 := c.valid
  by_cases hc : c.toNat < 0x10000
  · refine ⟨_, .single, ?_⟩
    rw [codeEscape, if_pos hc]
    exact readsUnits_unitEscape hc
  · refine ⟨_, .pair (by omega), ?_⟩
    rw [codeEscape, if_neg hc]
    exact (readsUnits_unitEscape (by omega)).append (readsUnits_unitEscape (by omega))

/-- A character that stands for itself is read as one unit, also beyond the first plane. -/
theorem readsUnits_self {c : Char} (hquote : c ≠ '"') (hslash : c ≠ '\\') (h : ¬ c.toNat < 0x20) :
    ReadsUnits [c] [c.toNat] := by
  intro rest
  rw [List.singleton_append, readUnits]
  · simp [h, hslash]
  all_goals simp_all

/-- An escape of one letter is read as the character it stands for. -/
theorem readsUnits_shortEscape {e c : Char} (hu : e ≠ 'u') (h : shortEscape? e = some c) :
    ReadsUnits ['\\', e] [c.toNat] := by
  intro rest
  rw [List.cons_append, List.singleton_append, readUnits, h]
  · rfl
  all_goals simp_all

/-- A character is read as units of it, however it is written. Which units these are depends on the
way of writing, but joining them gives the character. -/
theorem exists_readsUnits_escapeChar (asciiOnly : Bool) (c : Char) :
    ∃ us, Units c us ∧ ReadsUnits (escapeChar asciiOnly c) us := by
  unfold escapeChar
  split
  iterate 7 exact ⟨_, .single, readsUnits_shortEscape (by decide) rfl⟩
  next hquote hslash _ _ _ _ _ =>
    split
    · exact exists_readsUnits_codeEscape c
    next hc =>
      split
      · exact exists_readsUnits_codeEscape c
      · exact ⟨_, .single, readsUnits_self hquote hslash hc⟩

/-- A quoted string reads back, and leaves what follows it. The string may hold any character, as
quotes, backslashes and controls are escaped. -/
theorem readString_quoted (asciiOnly : Bool) (s : String) (rest : List Char) :
    readString (s.toList.flatMap (escapeChar asciiOnly) ++ '"' :: rest) = some (s, rest) := by
  have units : ∀ cs : List Char, ∃ us, joinUnits us = cs ∧
      readUnits (cs.flatMap (escapeChar asciiOnly) ++ '"' :: rest) = some (us, rest) := by
    intro cs
    induction cs with
    | nil => exact ⟨[], rfl, rfl⟩
    | cons c cs ih =>
      obtain ⟨us, hjoin, hread⟩ := ih
      obtain ⟨vs, hvs, hreads⟩ := exists_readsUnits_escapeChar asciiOnly c
      refine ⟨vs ++ us, by rw [hvs.joinUnits_append, hjoin], ?_⟩
      rw [List.flatMap_cons, List.append_assoc, hreads, hread, Option.map_some]
  obtain ⟨us, hjoin, hread⟩ := units s.toList
  simp only [readString, hread, Option.map_some, hjoin, String.ofList_toList]

end Json

end TypedSexp
